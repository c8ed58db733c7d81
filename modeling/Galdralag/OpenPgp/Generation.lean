import Galdralag.OpenPgp.KeyReload

/-!
# Generated keys and the attributes of their slot

PUT DATA stores the attributes of a slot as they come, unless they name the retired curve. GET DATA
answers with the stored bytes. A generation parses them, takes the default attributes when they do
not parse, and then looks at the algorithm and for two curves only: Ed25519 among the EdDSA
attributes of SIG and AUT, Curve25519 among the ECDH attributes of DEC. For every other ECDSA or
ECDH attributes it makes a BrainpoolP256r1 key.

So a key that is generated is the key that GET DATA reports exactly when the stored value parses,
and names BrainpoolP256r1, Ed25519 or Curve25519 in the algorithm that fits the slot, or something
that no key is made for: `Honoured`. A generation that fails changes neither the key in memory nor
the sealed one.
-/

set_option linter.all false

namespace Galdralag.OpenPgp

variable {W T : Type} {pf : CardPlatform W T} {objects cells : W → Memory}
  {b b' : OpenPgpVaultBackend W T} {slot : OpenPgpKeySlot}

/-! ## What is reported and what is made -/

/-- The algorithm and the curve of a key of a kind in a slot. -/
def algorithmOf : OpenPgpKeySlot → KeyKind → AlgorithmAttributes
  | .dec, .brainpool => .ecdh (.truncated brainpoolP256r1Oid)
  | .dec, .curve25519 => .ecdh (.truncated curve25519Oid)
  | _, .brainpool => .ecdsa (.truncated brainpoolP256r1Oid)
  | _, .curve25519 => .edDsa (.truncated ed25519Oid)

/-- What GET DATA of the attributes of a slot says. -/
def reportedAttributes (pf : CardPlatform W T) (slot : OpenPgpKeySlot) (b : OpenPgpVaultBackend W T) :
    Option AlgorithmAttributes :=
  match doTag (vaultBackend pf) (attributesTag slot) b with
  | .ok value => AlgorithmAttributes.parse value.toBytes
  | .error _ => none

/-- A stored value names a key that is made, or no key at all. -/
def Honoured (slot : OpenPgpKeySlot) (value : Bytes) : Prop :=
  ∃ attrs, AlgorithmAttributes.parse value = some attrs ∧
    (kindFor slot attrs = none ∨ ∃ kind, attrs = algorithmOf slot kind)

/-- A generation that fails leaves the old key, in memory and in its cell. One that succeeds leaves
one key in the slot, of the algorithm and curve that GET DATA reports from then on. -/
def GeneratesReported (pf : CardPlatform W T) (cells : W → Memory) (slot : OpenPgpKeySlot)
    (b : OpenPgpVaultBackend W T) : Prop :=
  (∀ e b', generateOrReadKey pf 0x80 slot b = (.error e, b') →
    b'.keys slot = b.keys slot ∧ cellOf (cells b'.world) slot = cellOf (cells b.world) slot) ∧
  ∀ out b', generateOrReadKey pf 0x80 slot b = (.ok out, b') → ∃ kind key,
    b'.keys slot = .only key kind ∧ out = .truncated (publicKey pf slot key kind) ∧
      reportedAttributes pf slot b' = some (algorithmOf slot kind)

/-- What a generation relies on: the object store keeps what is written, a write of a sealed key
stays out of it, and one that fails changes no cell. -/
structure CardPlatform.KeepsOnSealing (pf : CardPlatform W T) (objects cells : W → Memory) : Prop where
  faithful : pf.doStore.storage.Faithful (pf.doStore.base + DoStore.regionBytes) objects
  apart : pf.Spares (fun w w' ↦ Memory.AgreeOn pf.doStore.base
    (pf.doStore.base + DoStore.regionBytes) (objects w') (objects w)) .cells
  write_error : ∀ {purpose} {cell : Block 93} {w e w'},
    pf.keyStorage.write (sealedOffset purpose) cell.toBytes w = (.error e, w') → cells w' = cells w

/-- A storage that never fails is one that may fail. -/
theorem CardPlatform.Keeps.onSealing {pins : W → Memory} {pinLimit : ℕ}
    (hk : pf.Keeps objects pins cells pinLimit) : pf.KeepsOnSealing objects cells where
  faithful := hk.objectsFaithful
  apart := hk.objectsApart .cells (by decide)
  write_error := by
    intro purpose cell w e w' h
    have hfits : sealedOffset purpose + cell.toBytes.length ≤ sealedKeyRegionEnd := by
      rw [cell.length_toBytes]
      exact (sealedOffset_le purpose).2
    rw [hk.cellsFaithful.write_eq w hfits] at h
    cases h

/-! ## Attributes -/

theorem doTag_attributes (slot : OpenPgpKeySlot) (b : OpenPgpVaultBackend W T) :
    doTag (vaultBackend pf) (attributesTag slot) b = getDo pf b (attributesTag slot) := by
  cases slot <;> rfl

/-- The attributes of a key ask for its kind. -/
theorem kindFor_algorithmOf (slot : OpenPgpKeySlot) (kind : KeyKind) :
    kindFor slot (algorithmOf slot kind) = some kind := by
  cases slot <;> cases kind <;> decide

/-- A value is honoured for a kind of key exactly when it names this key. -/
theorem honoured_iff {value : Bytes} {kind : KeyKind}
    (hkind : kindFor slot ((AlgorithmAttributes.parse value).getD (defaultAttributes slot)) = some kind) :
    Honoured slot value ↔ AlgorithmAttributes.parse value = some (algorithmOf slot kind) := by
  constructor
  · rintro ⟨attrs, hparse, hnone | ⟨k, rfl⟩⟩
    · rw [hparse, Option.getD_some, hnone] at hkind
      cases hkind
    · rw [hparse, Option.getD_some, kindFor_algorithmOf] at hkind
      rw [hparse, Option.some.inj hkind]
  · exact fun h ↦ ⟨_, h, .inr ⟨kind, rfl⟩⟩

/-- The two other curves are asked for by their name only. -/
theorem eq_of_kindFor_curve25519 {attrs : AlgorithmAttributes}
    (h : kindFor slot attrs = some .curve25519) : attrs = algorithmOf slot .curve25519 := by
  have hoid : ∀ {oid : Vec 16} {bs : Bytes}, bs.length ≤ 16 → oid.toBytes = bs → oid = .truncated bs :=
    fun hle h ↦ Subtype.ext (h.trans (Vec.toBytes_truncated hle).symm)
  have hed : ∀ {oid : Vec 16}, (if oid.toBytes = ed25519Oid then some KeyKind.curve25519 else none)
      = some .curve25519 → oid = .truncated ed25519Oid := fun {oid} h ↦ by
    split_ifs at h with hed
    exact hoid (by decide) hed
  have hcurve : ∀ {oid : Vec 16}, (if oid.toBytes = curve25519Oid then some KeyKind.curve25519
      else some .brainpool) = some .curve25519 → oid = .truncated curve25519Oid := fun {oid} h ↦ by
    split_ifs at h with hcurve
    · exact hoid (by decide) hcurve
    · cases h
  cases slot with
  | sig =>
    cases attrs with
    | edDsa oid => exact congrArg AlgorithmAttributes.edDsa (hed h)
    | _ => cases h
  | dec =>
    cases attrs with
    | ecdh oid => exact congrArg AlgorithmAttributes.ecdh (hcurve h)
    | _ => cases h
  | aut =>
    cases attrs with
    | edDsa oid => exact congrArg AlgorithmAttributes.edDsa (hed h)
    | _ => cases h

/-- A value that is not honoured asks for a Brainpool key. -/
theorem kindFor_of_not_honoured {value : Bytes} (hv : ¬ Honoured slot value) :
    kindFor slot ((AlgorithmAttributes.parse value).getD (defaultAttributes slot)) = some .brainpool := by
  cases hparse : AlgorithmAttributes.parse value with
  | none => cases slot <;> rfl
  | some attrs =>
    rw [Option.getD_some]
    cases hkind : kindFor slot attrs with
    | none => exact absurd ⟨attrs, hparse, .inl hkind⟩ hv
    | some kind =>
      cases kind with
      | brainpool => rfl
      | curve25519 => exact absurd ⟨attrs, hparse, .inr ⟨_, eq_of_kindFor_curve25519 hkind⟩⟩ hv

/-- A slot holds a key of one kind. -/
theorem SlotKeys.kind_of_only {key key' : Block 32} {kind kind' : KeyKind}
    (h : SlotKeys.only key kind = .only key' kind') : kind = kind' := by
  cases kind <;> cases kind' <;> first | rfl | cases h

/-! ## The stored value -/

section Stored

variable (hk : pf.KeepsOnSealing objects cells) {value : Bytes} {b₀ b₁ : OpenPgpVaultBackend W T}
include hk

/-- PUT DATA of attributes that is accepted stores them. -/
theorem read_of_putDo {tag : UInt16} (htag : tag ≠ 0) (hput : putDo pf tag value b₀ = (.ok ⟨⟩, b₁)) :
    b₁.termination = false ∧ ∃ v : Vec 254, v.toBytes = value ∧ pf.doStore.read tag b₁.world = some v := by
  cases ht : b₀.termination with
  | true =>
    rw [putDo, Fallible.bind_of_error (ensureNotTerminated_terminated ht)] at hput
    cases hput
  | false =>
    rw [putDo, Fallible.bind_of_ok (ensureNotTerminated_run ht)] at hput
    obtain ⟨_, t, hrequire, hwrite⟩ := Fallible.bind_eq_ok.mp hput
    obtain ⟨-, rfl⟩ := Fallible.require_eq_ok.mp hrequire
    obtain ⟨w, hw, rfl⟩ := Fallible.zoom_eq_ok.mp (Fallible.orElse_eq_ok.mp hwrite)
    refine ⟨ht, ?_⟩
    rcases DoStore.write_run hk.faithful (Nat.le_refl _) tag value b₀.world with
      ⟨w', hrun, hwritten⟩ | ⟨e, w', hrun, -, -⟩
    · obtain rfl := (Prod.mk.inj (hw.symm.trans hrun)).2
      have hobj := hwritten.object tag htag
      rw [if_pos rfl, Vec.ofBytes?_of_le hwritten.length_le] at hobj
      refine ⟨_, Vec.toBytes_truncated hwritten.length_le, ?_⟩
      rw [DoStore.read_eq hk.faithful (Nat.le_refl _)]
      exact hobj
    · cases (Prod.mk.inj (hw.symm.trans hrun)).1

/-- PUT DATA of attributes that are not of the retired curve succeeds while there is room. -/
theorem putDo_of_room {tag : UInt16} (ht : b₀.termination = false) (hlen : value.length ≤ 254)
    (hput : putRefused tag value = false) (hroom : pf.doStore.room (objects b₀.world) ≠ 0) :
    ∃ b₁, putDo pf tag value b₀ = (.ok ⟨⟩, b₁) := by
  rcases DoStore.write_run hk.faithful (Nat.le_refl _) tag value b₀.world with
    ⟨w, hrun, -⟩ | ⟨e, w, -, -, hfull⟩
  · have hwrite : (Fallible.orElse (onWorld (pf.doStore.write tag value)) (.status .executionError) :
        VaultM W T PUnit) b₀ = (.ok ⟨⟩, { b₀ with world := w }) :=
      Fallible.orElse_eq_ok.mpr (Fallible.zoom_eq_ok.mpr ⟨w, hrun, rfl⟩)
    exact ⟨_, by rw [putDo, Fallible.bind_of_ok (ensureNotTerminated_run ht),
      Fallible.bind_of_ok (Fallible.require_of hput _ _), hwrite]⟩
  · exact absurd (hfull hlen) hroom

/-- What GET DATA answers after it. -/
theorem getDo_of_putDo {tag : UInt16} (htag : tag ≠ 0) (hput : putDo pf tag value b₀ = (.ok ⟨⟩, b₁)) :
    ∃ v : Vec 512, v.toBytes = value ∧ getDo pf b₁ tag = .ok v := by
  obtain ⟨ht, v, rfl, hread⟩ := read_of_putDo hk htag hput
  have hle := v.length_le
  refine ⟨.truncated v.toBytes, Vec.toBytes_truncated (by rw [Vec.length] at hle; omega), ?_⟩
  rw [getDo, ht, hread]
  rfl

end Stored

/-- The attributes of a slot are what GET DATA answers, or the default ones when that does not
parse. -/
theorem attributes_of_getDo {v : Vec 512} (h : getDo pf b (attributesTag slot) = .ok v) :
    b.termination = false ∧ algorithmAttributesForSlot pf b slot
      = (AlgorithmAttributes.parse v.toBytes).getD (defaultAttributes slot) := by
  rw [getDo] at h
  split_ifs at h with ht
  refine ⟨Bool.eq_false_iff.mpr ht, ?_⟩
  rw [algorithmAttributesForSlot]
  cases hread : pf.doStore.read (attributesTag slot) b.world with
  | none =>
    rw [hread] at h
    obtain rfl := Except.ok.inj h
    rfl
  | some u =>
    have hle := u.length_le
    rw [hread] at h
    obtain rfl := Except.ok.inj h
    rw [Vec.toBytes_truncated (by rw [Vec.length] at hle; omega)]
    rfl

/-! ## Generating -/

/-- A generation on a running card. -/
theorem generateOrReadKey_generate (ht : b.termination = false) (slot : OpenPgpKeySlot) :
    generateOrReadKey pf 0x80 slot b
      = generateKey pf slot (kindFor slot (algorithmAttributesForSlot pf b slot)) b := by
  rw [generateOrReadKey, Fallible.bind_of_ok (ensureNotTerminated_run ht), Fallible.gets_bind,
    if_neg (by decide), if_neg (by decide)]

/-- The key that a generation returned is the key of the slot. -/
theorem generateKey_eq_ok {kind : Option KeyKind} {out : Vec 512}
    (h : generateKey pf slot kind b = (.ok out, b')) : ∃ k key, kind = some k ∧
      b'.keys slot = .only key k ∧ out = .truncated (publicKey pf slot key k) := by
  rw [generateKey] at h
  cases kind with
  | none => cases h
  | some k =>
    obtain ⟨k', t₁, hkind, h⟩ := Fallible.bind_eq_ok.mp h
    obtain ⟨rfl, rfl⟩ := Fallible.pure_eq_ok.mp hkind
    obtain ⟨key, t₂, -, h⟩ := Fallible.bind_eq_ok.mp h
    obtain ⟨_, t₃, -, h⟩ := Fallible.bind_eq_ok.mp h
    rw [Fallible.modify_bind] at h
    obtain ⟨rfl, rfl⟩ := Fallible.pure_eq_ok.mp h
    exact ⟨k, key, rfl, if_pos rfl, rfl⟩

/-- The keys in memory and the sealed keys are the old ones. -/
def OldKeys (cells : W → Memory) (b b' : OpenPgpVaultBackend W T) : Prop :=
  b'.keys = b.keys ∧ cells b'.world = cells b.world

theorem OldKeys.trans {b'' : OpenPgpVaultBackend W T} (h : OldKeys cells b b')
    (h' : OldKeys cells b' b'') : OldKeys cells b b'' := ⟨h'.1.trans h.1, h'.2.trans h.2⟩

theorem oldKeys_of_calm {α : Type} {m : VaultM W T α} (h : Fallible.Moves (Calm Eq) m) :
    Fallible.Moves (OldKeys cells) m := fun b ↦ ⟨(h b).keys, by rw [(h b).world]⟩

section Failing

variable (hk : pf.KeepsOnSealing objects cells)
include hk

/-- Sealing that fails has written nothing. -/
theorem persistPrivateKey_onError (purpose : KeyPurpose) (scalar : Bytes) :
    Fallible.MovesOnError (OldKeys cells) (persistPrivateKey pf purpose scalar) := by
  have hseal : Fallible.Moves (OldKeys cells) (Fallible.orElse (onTrng (SealedKeyBlob.sealScalar pf.trng
      pf.crypto pf.masterKey purpose scalar)) (.status .memoryFailure) : VaultM W T (Vec 93)) :=
    oldKeys_of_calm ((calm_onTrng (fun _ ↦ rfl) _).orElse _)
  refine hseal.bind_onError OldKeys.trans fun blob b e he ↦ ?_
  rw [Fallible.orElse, onWorld, Fallible.zoom_apply] at he ⊢
  rcases hw : pf.keyStorage.write (sealedOffset purpose) (Block.ofBytes 93 blob.toBytes).toBytes b.world
    with ⟨e' | _, w'⟩
  · exact ⟨rfl, hk.write_error hw⟩
  · rw [hw] at he
    cases he

/-- **A generation that fails** has changed no key. -/
theorem generateKey_onError (slot : OpenPgpKeySlot) (kind : Option KeyKind) :
    Fallible.MovesOnError (OldKeys cells) (generateKey pf slot kind) := by
  have hkind : Fallible.Moves (OldKeys cells)
      (orDeny kind .conditionsNotSatisfied : VaultM W T KeyKind) :=
    oldKeys_of_calm (calm_orDeny (fun _ ↦ rfl) kind _)
  refine hkind.bind_onError OldKeys.trans fun k ↦ ?_
  have hsecret : Fallible.Moves (OldKeys cells) (generateSecret pf k : VaultM W T (Block 32)) :=
    oldKeys_of_calm (calm_generateSecret (fun _ ↦ rfl) k)
  refine hsecret.bind_onError OldKeys.trans fun key b e he ↦ ?_
  have hseal := persistPrivateKey_onError hk (purposeOf slot) key.toBytes b
  -- behind the seal nothing fails
  rw [Fallible.bind_apply] at he ⊢
  rcases hp : persistPrivateKey pf (purposeOf slot) key.toBytes b with ⟨e' | _, b'⟩ <;> rw [hp] at hseal he
  · exact hseal e' rfl
  · cases he

/-- What GET DATA answers is left alone by a generation. -/
theorem getDo_generateOrReadKey (slot : OpenPgpKeySlot) (tag : UInt16) (b : OpenPgpVaultBackend W T) :
    getDo pf (generateOrReadKey pf 0x80 slot b).2 tag = getDo pf b tag := by
  have hmoved : CalmBut _ slot b (generateOrReadKey pf 0x80 slot b).2 :=
    calmBut_generate (fun _ _ _ _ ↦ rfl) (fun _ _ _ h h' ↦ h'.trans h) hk.apart slot b
  rw [getDo, getDo, hmoved.termination, DoStore.read_eq hk.faithful (Nat.le_refl _),
    DoStore.read_eq hk.faithful (Nat.le_refl _), DoStore.object_congr hmoved.world]

/-- **A generation that succeeds** makes the key that GET DATA reports exactly when the stored value
is honoured. -/
theorem reported_iff {v : Vec 512} (hget : getDo pf b (attributesTag slot) = .ok v) {out : Vec 512}
    (h : generateOrReadKey pf 0x80 slot b = (.ok out, b')) : ∃ kind key,
      b'.keys slot = .only key kind ∧ out = .truncated (publicKey pf slot key kind) ∧
        (reportedAttributes pf slot b' = some (algorithmOf slot kind) ↔ Honoured slot v.toBytes) := by
  obtain ⟨ht, hattrs⟩ := attributes_of_getDo hget
  have hafter := getDo_generateOrReadKey hk slot (attributesTag slot) b
  rw [h, hget] at hafter
  rw [generateOrReadKey_generate ht] at h
  obtain ⟨kind, key, hkind, hkeys, hout⟩ := generateKey_eq_ok h
  rw [hattrs] at hkind
  refine ⟨kind, key, hkeys, hout, ?_⟩
  rw [reportedAttributes, doTag_attributes, hafter, honoured_iff hkind]

/-- Where the stored value is honoured, a generation makes the reported key or leaves the old one.
-/
theorem generatesReported_of_honoured {v : Vec 512}
    (hget : getDo pf b (attributesTag slot) = .ok v) (hv : Honoured slot v.toBytes) :
    GeneratesReported pf cells slot b := by
  obtain ⟨ht, -⟩ := attributes_of_getDo hget
  constructor
  · intro e b' h
    rw [generateOrReadKey_generate ht] at h
    have hold := generateKey_onError hk slot (kindFor slot (algorithmAttributesForSlot pf b slot)) b e
    rw [h] at hold
    obtain ⟨hkeys, hcells⟩ := hold rfl
    exact ⟨by rw [hkeys], by rw [hcells]⟩
  · intro out b' h
    obtain ⟨kind, key, hkeys, hout, hiff⟩ := reported_iff hk hget h
    exact ⟨kind, key, hkeys, hout, hiff.mpr hv⟩

end Failing

/-! ## The bench card -/

/-- Sealing a key on the bench succeeds. -/
theorem sealScalar_bench (purpose : KeyPurpose) (key : Block 32) (t : ℕ) :
    ∃ blob, SealedKeyBlob.sealScalar benchPlatform.trng benchPlatform.crypto benchPlatform.masterKey
      purpose key.toBytes t = (.ok blob, t + 1) := by
  have hlen := key.length_toBytes
  have htag : (key.toBytes ++ benchTag).length = key.toBytes.length + 16 := by
    rw [List.length_append]
    rfl
  have hscalar : key.toBytes ≠ [] ∧ key.toBytes.length ≤ 64 :=
    ⟨List.ne_nil_of_length_pos (by omega), by omega⟩
  set nonce : Block 12 := .ofBytes 12 (List.replicate 12 (UInt8.ofNat t))
  have hblob : (purposeWireId purpose :: nonce.toBytes ++ (key.toBytes ++ benchTag)).length ≤ 93 := by
    rw [List.length_append, List.length_cons, nonce.length_toBytes, htag]
    omega
  refine ⟨.truncated (purposeWireId purpose :: nonce.toBytes ++ (key.toBytes ++ benchTag)), ?_⟩
  have hnonce : (Fallible.mapError (fun _ ↦ .trngError) (benchPlatform.trng.tryFillBytes 12) :
      Fallible ℕ SealedKeyError _) t = (.ok nonce, t + 1) := rfl
  have hcombined : (Fallible.lift ((benchPlatform.crypto.aesGcmEncrypt (SealedKeyBlob.deriveWrappingKey
      benchPlatform.crypto benchPlatform.masterKey (purposeWireId purpose)) nonce
      (purposeWireId purpose :: nonce.toBytes) key.toBytes).elim (.error .storageError) .ok) :
      Fallible ℕ SealedKeyError _) (t + 1) = (.ok (key.toBytes ++ benchTag), t + 1) := rfl
  rw [SealedKeyBlob.sealScalar, Fallible.bind_of_ok (Fallible.require_of hscalar _ _),
    Fallible.bind_of_ok hnonce, Fallible.bind_of_ok hcombined,
    Fallible.bind_of_ok (Fallible.require_of htag _ _), Vec.ofBytes?_of_le hblob]
  rfl

/-- On the bench card, attributes that ask for a Brainpool key get one. -/
theorem generateKey_bench (slot : OpenPgpKeySlot) (b : OpenPgpVaultBackend Memory ℕ) :
    ∃ out b', generateKey benchPlatform slot (some .brainpool) b = (.ok out, b') := by
  set key : Block 32 := .ofBytes 32 (List.replicate 32 (UInt8.ofNat b.trng))
  have hsecret : generateSecret benchPlatform .brainpool b
      = (.ok key, { b with trng := b.trng + 1 }) := rfl
  obtain ⟨blob, hseal⟩ := sealScalar_bench (purposeOf slot) key (b.trng + 1)
  have hpersist : (persistPrivateKey benchPlatform (purposeOf slot) key.toBytes
      { b with trng := b.trng + 1 }).1 = .ok ⟨⟩ := by
    rw [persistPrivateKey, Fallible.bind_apply, Fallible.orElse, onTrng, Fallible.zoom_apply, hseal]
    rfl
  refine ⟨.truncated (publicKey benchPlatform slot key .brainpool), _, Fallible.eq_ok_of_fst ?_⟩
  have hkind : (orDeny (some .brainpool) .conditionsNotSatisfied : VaultM Memory ℕ KeyKind) b
      = (.ok .brainpool, b) := rfl
  rw [generateKey, Fallible.bind_of_ok hkind, Fallible.bind_of_ok hsecret,
    Fallible.bind_of_ok (Fallible.eq_ok_of_fst hpersist)]
  rfl

/-- PUT DATA of attributes, on the bench card before anything is stored. -/
theorem putDo_bench (slot : OpenPgpKeySlot) {value : Bytes} (hlen : value.length ≤ 254)
    (hput : putRefused (attributesTag slot) value = false) :
    ∃ b, putDo benchPlatform (attributesTag slot) value
      (.blank (.new default) (.new default) benchStorage 0) = (.ok ⟨⟩, b) := by
  have hroom : benchPlatform.doStore.room (Baochip.bench.vault benchStorage) ≠ 0 := by
    rw [DoStore.room, if_neg benchStorage_not_valid]
    decide
  exact putDo_of_room benchPlatform_keeps.onSealing rfl hlen hput hroom

/-- **Another curve.** On the bench card every stored value that is not honoured gets a Brainpool
key, which is not what GET DATA reports. -/
theorem generate_not_honoured {b : OpenPgpVaultBackend Memory ℕ} {v : Vec 512}
    (hget : getDo benchPlatform b (attributesTag slot) = .ok v) (hv : ¬ Honoured slot v.toBytes) :
    ∃ out b' key, generateOrReadKey benchPlatform 0x80 slot b = (.ok out, b') ∧
      b'.keys slot = .only key .brainpool ∧
      reportedAttributes benchPlatform slot b' ≠ some (algorithmOf slot .brainpool) := by
  obtain ⟨ht, hattrs⟩ := attributes_of_getDo hget
  obtain ⟨out, b', hrun⟩ := generateKey_bench slot b
  have hgen : generateOrReadKey benchPlatform 0x80 slot b = (.ok out, b') := by
    rw [generateOrReadKey_generate ht, hattrs, kindFor_of_not_honoured hv, hrun]
  obtain ⟨kind, key, hkeys, -, hiff⟩ := reported_iff benchPlatform_keeps.onSealing hget hgen
  obtain ⟨_, key', ⟨⟩, hkeys', -⟩ := generateKey_eq_ok hrun
  obtain rfl := SlotKeys.kind_of_only (hkeys.symm.trans hkeys')
  exact ⟨out, b', key, hgen, hkeys, fun h ↦ hv (hiff.mp h)⟩

/-- **Generation.** Of the attribute values that PUT DATA accepts, a generation makes the reported
key or leaves the old one, on every card, exactly for those that are honoured. -/
theorem generatesReported_iff (slot : OpenPgpKeySlot) {value : Bytes} (hlen : value.length ≤ 254)
    (hput : putRefused (attributesTag slot) value = false) :
    (∀ {W T : Type} {pf : CardPlatform W T} {objects cells : W → Memory},
      pf.KeepsOnSealing objects cells → ∀ b₀ b₁ b : OpenPgpVaultBackend W T,
        putDo pf (attributesTag slot) value b₀ = (.ok ⟨⟩, b₁) →
        getDo pf b (attributesTag slot) = getDo pf b₁ (attributesTag slot) →
        GeneratesReported pf cells slot b) ↔ Honoured slot value := by
  have htag : attributesTag slot ≠ 0 := by cases slot <;> decide
  constructor
  · intro h
    by_contra hv
    have hk := benchPlatform_keeps.onSealing
    obtain ⟨b₁, hb₁⟩ := putDo_bench slot hlen hput
    obtain ⟨v, rfl, hget⟩ := getDo_of_putDo hk htag hb₁
    obtain ⟨out, b', key, hgen, hkeys, hreport⟩ := generate_not_honoured hget hv
    obtain ⟨-, hok⟩ := h hk _ b₁ b₁ hb₁ rfl
    obtain ⟨kind, key', hkeys', -, hreported⟩ := hok out b' hgen
    obtain rfl := SlotKeys.kind_of_only (hkeys.symm.trans hkeys')
    exact hreport hreported
  · intro hv W T pf objects cells hk b₀ b₁ b hb₁ hb
    obtain ⟨v, rfl, hget⟩ := getDo_of_putDo hk htag hb₁
    exact generatesReported_of_honoured hk (hb.trans hget) hv

/-- Ed25519 attributes in the signature slot get an Ed25519 key. -/
theorem generatesReported_ed25519 : ∃ b : OpenPgpVaultBackend Memory ℕ,
    putDo benchPlatform (attributesTag .sig) ed25519Attributes.toBytes.toBytes
      (.blank (.new default) (.new default) benchStorage 0) = (.ok ⟨⟩, b) ∧
    GeneratesReported benchPlatform Baochip.bench.vault .sig b := by
  have hlen : ed25519Attributes.toBytes.toBytes.length ≤ 254 := by decide +kernel
  have hput : putRefused (attributesTag .sig) ed25519Attributes.toBytes.toBytes = false := by decide +kernel
  have hhonoured : Honoured .sig ed25519Attributes.toBytes.toBytes :=
    ⟨ed25519Attributes, by decide +kernel, .inr ⟨.curve25519, rfl⟩⟩
  obtain ⟨b, hb⟩ := putDo_bench .sig hlen hput
  exact ⟨b, hb, (generatesReported_iff .sig hlen hput).mpr hhonoured
    benchPlatform_keeps.onSealing _ b b hb rfl⟩

/-- ECDSA on NIST P-384, as attributes of the signature slot. -/
def nistP384Attributes : AlgorithmAttributes := .ecdsa (.truncated nistP384Oid)

/-- **A key on another curve.** An opened card accepts attributes of NIST P-384 for its signature
slot, generates a BrainpoolP256r1 key there, and goes on reporting NIST P-384. -/
theorem generates_other_curve : ∃ (w : Memory) (s : Session (OpenPgpVaultBackend Memory ℕ))
    (b₁ b₂ : OpenPgpVaultBackend Memory ℕ) (out : Vec 512) (key : Block 32),
    (Card.off w).run benchPlatform [.powerCycle 0 default default] = .on s ∧
      putDo benchPlatform 0xC1 nistP384Attributes.toBytes.toBytes s.backend = (.ok ⟨⟩, b₁) ∧
      generateOrReadKey benchPlatform 0x80 .sig b₁ = (.ok out, b₂) ∧
      b₂.keys .sig = .only key .brainpool ∧
      reportedAttributes benchPlatform .sig b₂ = some nistP384Attributes ∧
      ¬ GeneratesReported benchPlatform Baochip.bench.vault .sig b₁ := by
  have hk := benchPlatform_keeps.onSealing
  obtain ⟨w₀, h₀⟩ : ∃ w₀, benchPlatform.doStore.write 0x93 [0x00, 0x00, 0x00] benchStorage = (.ok ⟨⟩, w₀) :=
    ⟨_, benchCounted_run 0⟩
  have hroom := room_of_counted h₀ (w := w₀) fun _ _ _ ↦ rfl
  obtain ⟨b₁, hb₁⟩ : ∃ b₁, putDo benchPlatform 0xC1 nistP384Attributes.toBytes.toBytes (benchOpened w₀)
      = (.ok ⟨⟩, b₁) := putDo_of_room hk rfl (by decide +kernel) (by decide +kernel) hroom
  obtain ⟨v, hv, hget⟩ := getDo_of_putDo hk (by decide) hb₁
  have hnot : ¬ Honoured .sig v.toBytes := by
    rw [hv]
    rintro ⟨attrs, hparse, hattrs⟩
    obtain rfl : nistP384Attributes = attrs :=
      Option.some.inj ((show _ = some nistP384Attributes by decide +kernel).symm.trans hparse)
    rcases hattrs with hnone | ⟨kind, heq⟩
    · cases hnone
    · revert heq
      cases kind <;> decide +kernel
  have hget' : getDo benchPlatform b₁ (attributesTag .sig) = .ok v := hget
  obtain ⟨out, b₂, key, hgen, hkeys, hreport⟩ := generate_not_honoured hget' hnot
  have hafter := getDo_generateOrReadKey hk .sig 0xC1 b₁
  rw [hgen] at hafter
  refine ⟨w₀, _, b₁, b₂, out, key, opened_of_counted h₀, hb₁, hgen, hkeys, ?_, ?_⟩
  · rw [reportedAttributes, doTag_attributes, attributesTag, hafter, hget]
    change AlgorithmAttributes.parse v.toBytes = _
    rw [hv]
    decide +kernel
  · rintro ⟨-, hok⟩
    obtain ⟨kind, key', hkeys', -, hreported⟩ := hok out b₂ hgen
    obtain rfl := SlotKeys.kind_of_only (hkeys.symm.trans hkeys')
    exact hreport hreported

end Galdralag.OpenPgp
