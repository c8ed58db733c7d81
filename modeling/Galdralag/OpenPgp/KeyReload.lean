import Galdralag.OpenPgp.RetryCounter

/-!
# Reloading the keys of a card

A sealed cell holds 32 bytes and a purpose, not the kind of the key. The kind is read off the
algorithm attributes of the slot, once when the key is generated and again whenever a backend is
opened. PUT DATA changes the attributes and neither the cell nor the keys in memory. So a reload
finds the keys that were usable before, but for one case: where the attributes have come to ask for
another kind than the one that memory holds, the slot has no usable key before the reload, and after
it has one that is the old key's bytes read as a key of the new kind.

## The invariant

On a card that is not terminated, each slot holds the key of its cell, read as some kind: `Stored`.
It holds after opening, calls that touch neither cells nor keys keep it, and a generation seals the
key that it puts into memory.
-/

set_option linter.all false

namespace Galdralag.OpenPgp

variable {W T : Type} {pf : CardPlatform W T} {objects pins cells : W → Memory} {pinLimit : ℕ}

/-! ## Usable keys -/

/-- The key that the operations of a slot find: the algorithm and the public key. -/
def usableKey (pf : CardPlatform W T) (b : OpenPgpVaultBackend W T) (slot : OpenPgpKeySlot) :
    Option (AlgorithmAttributes × Bytes) :=
  let attrs := algorithmAttributesForSlot pf b slot
  (kindFor slot attrs).bind fun kind ↦
    ((b.keys slot).get kind).map fun key ↦ (attrs, publicKey pf slot key kind)

/-- The keys of a slot are those of its cell, read as keys of some kind. -/
def Stored (pf : CardPlatform W T) (cells : W → Memory) (b : OpenPgpVaultBackend W T)
    (slot : OpenPgpKeySlot) : Prop :=
  ∃ kind, b.keys slot
    = (sealedKey pf (cellOf (cells b.world) slot) slot).elim .empty (keysAs pf.crypto kind)

theorem Stored.congr {b b' : OpenPgpVaultBackend W T} {slot : OpenPgpKeySlot} (h : Stored pf cells b slot)
    (hkeys : b'.keys slot = b.keys slot)
    (hcell : cellOf (cells b'.world) slot = cellOf (cells b.world) slot) : Stored pf cells b' slot := by
  obtain ⟨kind, h⟩ := h
  exact ⟨kind, by rw [hkeys, hcell, h]⟩

/-- Opening reads every cell. -/
theorem stored_loaded (user admin : PinPolicyMachine) (w : W) (trng : T) (slot : OpenPgpKeySlot) :
    Stored pf cells (.loaded pf pins cells user admin w trng) slot :=
  ⟨_, unsealedKeys_eq _ _ _⟩

/-! ## Generating -/

/-- A scalar that was drawn is one. -/
theorem isScalar_generateScalar {n : ℕ} {t t' : T} {key : Block 32}
    (h : generateScalar pf n t = (.ok key, t')) : pf.crypto.isScalar key = true := by
  induction n generalizing t with
  | zero => cases h
  | succ n ih =>
    obtain ⟨raw, t₁, -, h⟩ := Fallible.bind_eq_ok.mp h
    split_ifs at h with hraw
    · obtain ⟨rfl, -⟩ := Fallible.pure_eq_ok.mp h
      exact hraw
    · exact ih h

/-- A new key is one of its kind. -/
theorem accepts_generateSecret {kind : KeyKind} {b b' : OpenPgpVaultBackend W T} {key : Block 32}
    (h : generateSecret pf kind b = (.ok key, b')) : kind.accepts pf.crypto key = true := by
  cases kind with
  | brainpool =>
    obtain ⟨t', hrun, -⟩ := Fallible.zoom_eq_ok.mp (Fallible.orElse_eq_ok.mp h)
    exact isScalar_generateScalar hrun
  | curve25519 => rfl

section Sealing

variable (hk : pf.Keeps objects pins cells pinLimit)
include hk

/-- The cells after a write into the cell of a slot. -/
theorem cellOf_write (slot : OpenPgpKeySlot) (cell : Block 93) (w : W) (s : OpenPgpKeySlot) :
    cellOf (cells (pf.keyStorage.write (sealedOffset (purposeOf slot)) cell.toBytes w).2) s
      = if s = slot then cell else cellOf (cells w) s := by
  have hlen := cell.length_toBytes
  obtain ⟨-, hhi⟩ := sealedOffset_le (purposeOf slot)
  have hbytes : sealedBlobBytes = 93 := rfl
  rw [cellOf, hk.cellsFaithful.memory_write w _ _ (by omega)]
  split_ifs with hs
  · have hpatch := Memory.window_patch (cells w) (sealedOffset (purposeOf slot)) cell.toBytes
    rw [hlen] at hpatch
    rw [hs, hbytes, hpatch, Block.ofBytes_toBytes]
  · have hapart : sealedOffset (purposeOf s) + sealedBlobBytes ≤ sealedOffset (purposeOf slot) ∨
        sealedOffset (purposeOf slot) + cell.toBytes.length ≤ sealedOffset (purposeOf s) := by
      rw [hlen]
      cases s <;> cases slot <;> first | exact absurd rfl hs | decide
    rw [Memory.window_patch_of_disjoint hapart, cellOf]

/-- Sealing a key fails and changes no cell, or succeeds and puts a blob into the cell of its slot.
-/
theorem persistPrivateKey_seals (slot : OpenPgpKeySlot) (key : Block 32)
    (b : OpenPgpVaultBackend W T) :
    (∃ e t, persistPrivateKey pf (purposeOf slot) key.toBytes b = (.error e, { b with trng := t })) ∨
      ∃ t w nonce combined, persistPrivateKey pf (purposeOf slot) key.toBytes b
          = (.ok ⟨⟩, { b with trng := t, world := w }) ∧
        SealedKeyBlob.Seals pf.crypto pf.masterKey (purposeOf slot) key.toBytes nonce combined ∧
        ∀ s, cellOf (cells w) s = if s = slot
          then .ofBytes 93 (SealedKeyBlob.blobBytes (purposeOf slot) nonce combined)
          else cellOf (cells b.world) s := by
  rw [persistPrivateKey, Fallible.bind_apply, Fallible.orElse, onTrng, Fallible.zoom_apply]
  rcases hseal : SealedKeyBlob.sealScalar pf.trng pf.crypto pf.masterKey (purposeOf slot) key.toBytes b.trng
    with ⟨e | blob, t⟩
  · exact .inl ⟨_, t, rfl⟩
  · obtain ⟨nonce, combined, hseals, hblob⟩ := SealedKeyBlob.sealScalar_eq_ok hseal
    set cell : Block 93 := .ofBytes 93 blob.toBytes with hcell
    have hfits : sealedOffset (purposeOf slot) + cell.toBytes.length ≤ sealedKeyRegionEnd := by
      rw [cell.length_toBytes]
      exact (sealedOffset_le _).2
    refine .inr ⟨t, (pf.keyStorage.write (sealedOffset (purposeOf slot)) cell.toBytes b.world).2,
      nonce, combined, ?_, hseals, fun s ↦ ?_⟩
    · dsimp only
      rw [Fallible.orElse, onWorld, Fallible.zoom_apply, hk.cellsFaithful.write_eq b.world hfits]
    · rw [← hblob]
      exact cellOf_write hk slot cell b.world s

/-- **Generating.** A generation that fails changes neither keys nor cells. One that succeeds has
drawn a key of its kind, sealed it into the cell of its slot, and put it into memory. -/
theorem generateKey_cases (slot : OpenPgpKeySlot) (kind : Option KeyKind)
    (b : OpenPgpVaultBackend W T) :
    (∃ e b', generateKey pf slot kind b = (.error e, b') ∧ Calm Eq b b') ∨
      ∃ out k key nonce combined b', kind = some k ∧ k.accepts pf.crypto key = true ∧
        generateKey pf slot kind b = (.ok out, b'.setKeys slot (.only key k)) ∧
        Calm (fun _ _ ↦ True) b b' ∧
        SealedKeyBlob.Seals pf.crypto pf.masterKey (purposeOf slot) key.toBytes nonce combined ∧
        ∀ s, cellOf (cells b'.world) s = if s = slot
          then .ofBytes 93 (SealedKeyBlob.blobBytes (purposeOf slot) nonce combined)
          else cellOf (cells b.world) s := by
  rcases kind with _ | k
  · exact .inl ⟨_, b, rfl, .refl (fun _ ↦ rfl) b⟩
  have hkind : (orDeny (some k) .conditionsNotSatisfied : VaultM W T KeyKind) b = (.ok k, b) := rfl
  rw [generateKey, Fallible.bind_of_ok hkind, Fallible.bind_apply]
  have hsecret : Calm Eq b ((generateSecret pf k : VaultM W T (Block 32)) b).2 :=
    calm_generateSecret (fun _ ↦ rfl) k b
  rcases hs : (generateSecret pf k : VaultM W T (Block 32)) b with ⟨e | key, b₁⟩ <;> rw [hs] at hsecret
  · exact .inl ⟨e, b₁, rfl, hsecret⟩
  dsimp only
  rw [Fallible.bind_apply]
  rcases persistPrivateKey_seals hk slot key b₁ with
    ⟨e, t, hp⟩ | ⟨t, w, nonce, combined, hp, hseals, hcells⟩ <;> rw [hp]
  · exact .inl ⟨e, { b₁ with trng := t }, rfl, ⟨hsecret.world, hsecret.keys, hsecret.sigCounter,
      hsecret.termination, hsecret.config, hsecret.bricked⟩⟩
  · refine .inr ⟨_, k, key, nonce, combined, { b₁ with trng := t, world := w }, rfl,
      accepts_generateSecret hs, rfl, ?_, hseals, ?_⟩
    · exact ⟨trivial, hsecret.keys, hsecret.sigCounter, hsecret.termination, hsecret.config,
        hsecret.bricked⟩
    · rw [hsecret.world]
      exact hcells

/-- A generation keeps every slot stored. -/
theorem stored_generateKey (haead : pf.crypto.Aead) (hpad : pf.crypto.RejectsPadding)
    (slot : OpenPgpKeySlot) (kind : Option KeyKind) (b : OpenPgpVaultBackend W T) :
    (generateKey pf slot kind b).2.termination = b.termination ∧
      ((∀ s, Stored pf cells b s) → ∀ s, Stored pf cells (generateKey pf slot kind b).2 s) := by
  rcases generateKey_cases hk slot kind b with
    ⟨e, b', hrun, hcalm⟩ | ⟨out, k, key, nonce, combined, b', -, haccepts, hrun, hcalm, hseals, hcells⟩ <;>
    rw [hrun]
  · exact ⟨hcalm.termination, fun h s ↦ (h s).congr (by rw [hcalm.keys]) (by rw [hcalm.world])⟩
  refine ⟨hcalm.termination, fun h s ↦ ?_⟩
  by_cases hslot : s = slot
  · refine ⟨some k, ?_⟩
    have hkeys : keysAs pf.crypto (some k) key = .only key k := if_pos haccepts
    change (if s = slot then SlotKeys.only key k else b'.keys s)
      = (sealedKey pf (cellOf (cells b'.world) s) s).elim .empty (keysAs pf.crypto (some k))
    rw [hcells, if_pos hslot, if_pos hslot, hslot, sealedKey_of_seals haead hpad hseals]
    exact hkeys.symm
  · refine (h s).congr ?_ ?_
    · rw [← hcalm.keys]
      exact if_neg hslot
    · exact (hcells s).trans (if_neg hslot)

end Sealing

/-! ## Calls and commands -/

/-- As long as the card is not terminated it keeps its slots stored. -/
def KeepsStored (pf : CardPlatform W T) (cells : W → Memory) (b b' : OpenPgpVaultBackend W T) : Prop :=
  b'.termination = false →
    b.termination = false ∧ ((∀ s, Stored pf cells b s) → ∀ s, Stored pf cells b' s)

theorem KeepsStored.trans {b b' b'' : OpenPgpVaultBackend W T} (h : KeepsStored pf cells b b')
    (h' : KeepsStored pf cells b' b'') : KeepsStored pf cells b b'' := fun ht ↦
  ⟨(h (h' ht).1).1, fun hs ↦ (h' ht).2 ((h (h' ht).1).2 hs)⟩

/-- Two worlds with the same cells. -/
def SameCells (cells : W → Memory) (w w' : W) : Prop :=
  Memory.AgreeOn (sealedOffset .openPgpSig) sealedKeyRegionEnd (cells w') (cells w)

theorem Calm.keepsStored {b b' : OpenPgpVaultBackend W T} (h : Calm (SameCells cells) b b') :
    KeepsStored pf cells b b' := fun ht ↦
  ⟨h.termination.symm.trans ht, fun hs s ↦ (hs s).congr (by rw [h.keys]) (cellOf_congr h.world s)⟩

section Running

variable (hk : pf.Keeps objects pins cells pinLimit) (haead : pf.crypto.Aead)
  (hpad : pf.crypto.RejectsPadding)
include hk haead hpad

/-- **Calls.** Every call keeps the slots stored. -/
theorem keepsStored_performCall (c : BackendCall) (b : OpenPgpVaultBackend W T) :
    KeepsStored pf cells b (performCall pf c b).2 := by
  have hrefl : ∀ w, SameCells cells w w := fun _ _ _ _ ↦ rfl
  have htrans : ∀ u v w, SameCells cells u v → SameCells cells v w → SameCells cells u w :=
    fun _ _ _ h h' ↦ h'.trans h
  have hapart : ∀ d ≠ .cells, pf.Spares (SameCells cells) d := hk.cellsApart
  rcases c.generates_or_counts_or_plain with ⟨slot, rfl⟩ | rfl | hplain
  · change KeepsStored pf cells b (generateOrReadKey pf 0x80 slot b).2
    cases ht : b.termination with
    | true =>
      rw [generateOrReadKey, Fallible.bind_of_error (ensureNotTerminated_terminated ht)]
      exact (Calm.refl hrefl b).keepsStored
    | false =>
      rw [generateOrReadKey, Fallible.bind_of_ok (ensureNotTerminated_run ht), Fallible.gets_bind,
        if_neg (by decide), if_neg (by decide)]
      exact fun _ ↦ ⟨ht, (stored_generateKey hk haead hpad slot _ b).2⟩
  · change KeepsStored pf cells b (incrementSignatureCounter pf b).2
    cases ht : b.termination with
    | true =>
      rw [incrementSignatureCounter, Fallible.bind_of_error (ensureNotTerminated_terminated ht)]
      exact (Calm.refl hrefl b).keepsStored
    | false =>
      rw [incrementSignatureCounter_run ht]
      exact fun _ ↦ ⟨ht, fun hs s ↦ (hs s).congr rfl
        (cellOf_congr (hapart .objects (by decide) _ _ b.world) s)⟩
  · rcases performCall_plain hrefl htrans hplain hapart with hterm | hcalm
    · intro ht
      rw [hterm] at ht
      cases ht
    · exact hcalm.keepsStored

theorem lifts_keepsStored (cmd : CommandApdu) :
    Lifts (vaultBackend pf) cmd (fun _ ↦ True) (KeepsStored pf cells) where
  refl _ ht := ⟨ht, id⟩
  trans := KeepsStored.trans
  log _ _ ht := ⟨ht, fun hs s ↦ (hs s).congr rfl rfl⟩
  log_keeps _ _ _ := trivial
  asked c _ b _ := keepsStored_performCall hk haead hpad c b
  prelude _ _ _ _ _ := trivial

/-- **Runs.** Whatever was done to a card, as long as it is not terminated its slots are stored. -/
theorem stored_run {w : W} {steps : List (CardStep T)} :
    ∀ {s : Session (OpenPgpVaultBackend W T)}, (Card.off w).run pf steps = .on s →
      s.backend.termination = false → ∀ slot, Stored pf cells s.backend slot := by
  induction steps using List.reverseRecOn with
  | nil => rintro s ⟨⟩
  | append_singleton steps a ih =>
    intro s hs ht
    rw [Card.run_concat] at hs
    cases a with
    | powerCycle trng user admin =>
      obtain ⟨w', -, hopened⟩ := Card.opened_run hk ((Card.off w).run pf steps).world trng user admin
      obtain rfl := Card.on.inj (hopened.symm.trans hs)
      exact stored_loaded _ _ w' trng
    | apdu cmd =>
      rcases hc : (Card.off w).run pf steps with w' | s'
      · rw [hc] at hs
        cases hs
      · rw [hc] at hs
        obtain rfl := Card.on.inj hs
        rw [handleApdu_snd] at ht ⊢
        have hstep := (lifts_keepsStored hk haead hpad cmd).handle s' trivial ht
        exact hstep.2 (ih hc hstep.1)
    | reset =>
      rcases hc : (Card.off w).run pf steps with w' | s'
      · rw [hc] at hs
        cases hs
      · rw [hc] at hs
        obtain rfl := Card.on.inj hs
        have hstored := ih hc
        exact hstored ht

end Running

/-! ## Opening again -/

section Opening

variable (hk : pf.Keeps objects pins cells pinLimit)
include hk

/-- Seeding writes no cell. -/
theorem sameCells_seed : Fallible.Moves (SameCells cells) (seedDefaultsIfFresh pf) :=
  moves_seedDefaultsIfFresh (fun _ _ _ _ ↦ rfl) (fun h h' ↦ h'.trans h)
    (hk.cellsApart .objects (by decide))

/-- Seeding leaves the attributes what they were: a store without a header has the default ones. -/
theorem attributesIn_seed {w w' : W} (hseed : seedDefaultsIfFresh pf w = (.ok ⟨⟩, w'))
    (slot : OpenPgpKeySlot) : attributesIn pf w' slot = attributesIn pf w slot := by
  have hf := hk.objectsFaithful
  obtain ⟨w'', hrun, hvalid, hfresh, -⟩ := seedDefaultsIfFresh_run hf (Nat.le_refl _) w
  obtain rfl := (Prod.mk.inj (hseed.symm.trans hrun)).2
  by_cases hv : pf.doStore.Valid (objects w)
  · rw [hvalid hv]
  · have htag : attributesTag slot ≠ 0 := by cases slot <;> decide
    rw [attributesIn, attributesIn, DoStore.read_eq hf (Nat.le_refl _), DoStore.read_eq hf (Nat.le_refl _),
      hfresh hv _ htag, DoStore.object, if_neg hv]
    cases slot <;> rfl

/-- A card that is opened again holds the keys of the cells, read as the attributes say. -/
theorem reopen_run (b : OpenPgpVaultBackend W T) (trng : T) (user admin : PinPolicyMachine) :
    ∃ b', openCard pf user admin b.world trng = (.ok ⟨⟩, b') ∧ ∀ slot,
      algorithmAttributesForSlot pf b' slot = algorithmAttributesForSlot pf b slot ∧
      b'.keys slot = (sealedKey pf (cellOf (cells b.world) slot) slot).elim .empty
        (keysAs pf.crypto (kindFor slot (algorithmAttributesForSlot pf b slot))) := by
  obtain ⟨w', hseed, -⟩ := seedDefaultsIfFresh_run hk.objectsFaithful (Nat.le_refl _) b.world
  refine ⟨_, openCard_run hk user admin trng hseed, fun slot ↦ ?_⟩
  have hattrs := attributesIn_seed hk hseed slot
  have hcells := sameCells_seed hk b.world
  rw [hseed] at hcells
  refine ⟨hattrs, ?_⟩
  change storedKeys pf cells w' slot = _
  rw [storedKeys, unsealedKeys_eq, cellOf_congr hcells slot, hattrs]
  rfl

end Opening

/-! ## Agreement -/

/-- Where the attributes of a slot ask for a kind of key that the sealed bytes are, memory holds a
key of that kind. -/
def KindKept (pf : CardPlatform W T) (cells : W → Memory) (b : OpenPgpVaultBackend W T)
    (slot : OpenPgpKeySlot) : Prop :=
  ∀ kind key, kindFor slot (algorithmAttributesForSlot pf b slot) = some kind →
    sealedKey pf (cellOf (cells b.world) slot) slot = some key → kind.accepts pf.crypto key = true →
    ((b.keys slot).get kind).isSome = true

theorem get_keysAs (crypto : CardCrypto) (asked : Option KeyKind) (key : Block 32) (kind : KeyKind) :
    (keysAs crypto asked key).get kind
      = if asked = some kind ∧ kind.accepts crypto key = true then some key else none := by
  cases asked with
  | none =>
    rw [if_neg (by rintro ⟨⟨⟩, -⟩)]
    cases kind <;> rfl
  | some k =>
    change (if k.accepts crypto key then SlotKeys.only key k else .empty).get kind = _
    have honly : (SlotKeys.only key k).get kind = if k = kind then some key else none := by
      cases k <;> cases kind <;> rfl
    by_cases hacc : k.accepts crypto key = true
    · rw [if_pos hacc, honly]
      by_cases hkind : k = kind
      · subst hkind
        rw [if_pos rfl, if_pos ⟨rfl, hacc⟩]
      · rw [if_neg hkind, if_neg]
        exact fun h ↦ hkind (Option.some.inj h.1)
    · rw [if_neg hacc, if_neg]
      · cases kind <;> rfl
      · rintro ⟨h, hacc'⟩
        obtain rfl := Option.some.inj h
        exact hacc hacc'

/-- **Reload.** Of every card that is not terminated, whatever was done to it, opening again
succeeds; and in each slot it finds the key that was usable before exactly when memory holds a key
of the kind that the attributes ask for, unless the sealed bytes are no such key. -/
theorem reload_agrees_iff (hk : pf.Keeps objects pins cells pinLimit) (haead : pf.crypto.Aead)
    (hpad : pf.crypto.RejectsPadding) {w : W} {steps : List (CardStep T)}
    {s : Session (OpenPgpVaultBackend W T)} (hrun : (Card.off w).run pf steps = .on s)
    (ht : s.backend.termination = false) (trng : T) (user admin : PinPolicyMachine) :
    ∃ b, openCard pf user admin s.backend.world trng = (.ok ⟨⟩, b) ∧ ∀ slot,
      (usableKey pf b slot = usableKey pf s.backend slot ↔ KindKept pf cells s.backend slot) := by
  obtain ⟨b, hopen, hkeys⟩ := reopen_run hk s.backend trng user admin
  refine ⟨b, hopen, fun slot ↦ ?_⟩
  obtain ⟨hattrs, hslot⟩ := hkeys slot
  obtain ⟨asked, hstored⟩ := stored_run hk haead hpad hrun ht slot
  simp only [usableKey, KindKept, hattrs, hslot, hstored]
  cases kindFor slot (algorithmAttributesForSlot pf s.backend slot) with
  | none => exact iff_of_true rfl (by rintro kind key ⟨⟩)
  | some kind =>
    cases sealedKey pf (cellOf (cells s.backend.world) slot) slot with
    | none => exact iff_of_true rfl (by rintro _ key - ⟨⟩)
    | some key =>
      simp only [Option.elim_some, Option.bind_some, get_keysAs]
      by_cases hacc : kind.accepts pf.crypto key = true
      · by_cases hasked : asked = some kind
        · rw [if_pos ⟨trivial, hacc⟩, if_pos ⟨hasked, hacc⟩]
          refine iff_of_true rfl ?_
          rintro k' key' ⟨⟩ ⟨⟩ -
          rw [if_pos ⟨hasked, hacc⟩]
          rfl
        · rw [if_pos ⟨trivial, hacc⟩, if_neg fun h ↦ hasked h.1]
          refine iff_of_false (by rintro ⟨⟩) fun h ↦ ?_
          have hsome := h kind key rfl rfl hacc
          rw [if_neg fun h ↦ hasked h.1] at hsome
          cases hsome
      · rw [if_neg fun h ↦ hacc h.2, if_neg fun h ↦ hacc h.2]
        refine iff_of_true rfl ?_
        rintro k' key' ⟨⟩ ⟨⟩ hacc'
        exact absurd hacc' hacc

/-! ## The bench card -/

/-- The attributes of an Ed25519 key. -/
def ed25519Attributes : AlgorithmAttributes := .edDsa (.truncated ed25519Oid)

/-- PUT DATA of these attributes for the signature slot. -/
def putEd25519 : CommandApdu :=
  ⟨0x00, 0xDA, 0x00, 0xC1, .truncated ed25519Attributes.toBytes.toBytes, none⟩

section Bench

variable {w₀ : Memory} {n : UInt32} {s : Session (OpenPgpVaultBackend Memory ℕ)}
  (h₀ : benchPlatform.doStore.write 0x93 [0x00, 0x00, 0x00] benchStorage = (.ok ⟨⟩, w₀))
  (h : BenchReady w₀ n s)
include h₀ h

/-- PUT DATA changes the attributes, and neither the keys nor the cells. -/
theorem BenchReady.putAttributes (hflag : s.card.pw3Verified = true) :
    ∃ t, handle (vaultBackend benchPlatform) putEd25519 s = (.ok .okEmpty, t) ∧
      t.backend.termination = false ∧ t.backend.keys .sig = .only benchKey .brainpool ∧
      algorithmAttributesForSlot benchPlatform t.backend .sig = ed25519Attributes ∧
      Memory.AgreeOn (sealedOffset .openPgpSig) sealedKeyRegionEnd t.backend.world benchStorage := by
  have hk := benchPlatform_objectsKept
  have hlen : putEd25519.data.toBytes.length ≤ 254 := by decide +kernel
  have hallowed : putAllowed s.card putEd25519.tag = true := by
    rw [putAllowed_eq]
    exact (if_neg (by decide)).trans hflag
  have hrefused : putRefused putEd25519.tag putEd25519.data.toBytes = false := by decide +kernel
  rcases DoStore.write_run hk.faithful hk.fits putEd25519.tag putEd25519.data.toBytes s.backend.world with
    ⟨w, hrun, hwritten⟩ | ⟨e, w, -, -, hroom⟩
  swap
  · exact absurd (hroom hlen) (room_of_counted h₀ h.objects)
  have hrequire : (Fallible.require (putRefused putEd25519.tag putEd25519.data.toBytes = false)
      (.status .incorrectParameters) : VaultM Memory ℕ PUnit) s.backend = (.ok ⟨⟩, s.backend) :=
    Fallible.require_eq_ok.mpr ⟨hrefused, rfl⟩
  have hput : putDo benchPlatform putEd25519.tag putEd25519.data.toBytes s.backend
      = (.ok ⟨⟩, { s.backend with world := w }) := by
    rw [putDo, Fallible.bind_of_ok (ensureNotTerminated_run h.running),
      Fallible.bind_of_ok hrequire, Fallible.orElse, onWorld, Fallible.zoom_apply, hrun]
  refine ⟨_, handle_putData h.running (.inl rfl) hallowed hput, h.running, h.keys, ?_, ?_⟩
  · have hobj := hwritten.object 0xC1 (by decide)
    rw [if_pos (by decide), Vec.ofBytes?_of_le hwritten.length_le] at hobj
    change attributesOf .sig (benchPlatform.doStore.read 0xC1 w) = _
    rw [DoStore.read_eq hk.faithful hk.fits, hobj]
    decide +kernel
  · have hout := hwritten.outside
    rw [vault_bench, vault_bench] at hout
    exact (hout.agreeOn (.inl (by decide))).trans h.cells

end Bench

/-- Opened again at once, the bench card has the key it had. -/
theorem reload_agrees_bench : ∃ b, openCard benchPlatform (.new default) (.new default)
    (benchPlatform.doStore.write 0x93 [0x00, 0x00, 0x00] benchStorage).2 0 = (.ok ⟨⟩, b) ∧
      usableKey benchPlatform b .sig
        = some (defaultAttributes .sig, (benchCrypto.brainpoolPublic benchKey).toBytes) := by
  obtain ⟨w₀, h₀, hw₀⟩ :
      ∃ w₀, benchPlatform.doStore.write 0x93 [0x00, 0x00, 0x00] benchStorage = (.ok ⟨⟩, w₀) ∧
      (benchPlatform.doStore.write 0x93 [0x00, 0x00, 0x00] benchStorage).2 = w₀ :=
    ⟨_, benchCounted_run 0, rfl⟩
  rw [hw₀]
  have hrun : (Card.off w₀).run benchPlatform [.powerCycle 0 default default] = .on (.new (benchOpened w₀)) :=
    opened_of_counted h₀
  have hattrs := attributes_of_counted h₀ (fun _ _ _ ↦ rfl)
  have hkey := key_of_counted h₀
  obtain ⟨b, hopen, hagree⟩ := reload_agrees_iff benchPlatform_keeps benchCrypto_aead
    benchCrypto_rejectsPadding hrun rfl 0 (.new default) (.new default)
  have hattrs : algorithmAttributesForSlot benchPlatform (benchOpened w₀) .sig
      = defaultAttributes .sig := hattrs
  have hkeys : (benchOpened w₀).keys .sig = .only benchKey .brainpool := hkey
  have hkept : KindKept benchPlatform Baochip.bench.vault (benchOpened w₀) .sig := by
    intro kind key hkind _ _
    rw [hattrs] at hkind
    obtain rfl : KeyKind.brainpool = kind := Option.some.inj hkind
    rw [hkeys]
    rfl
  refine ⟨b, hopen, ((hagree .sig).mpr hkept).trans ?_⟩
  change usableKey benchPlatform (benchOpened w₀) .sig = _
  simp only [usableKey, hattrs, hkeys]
  rfl

/-- **A key of another kind.** After PUT DATA of Ed25519 attributes the signature slot has no usable
key; opening the card again makes an Ed25519 key of the bytes of the ECDSA key. -/
theorem reload_reinterprets :
    ∃ (t : Session (OpenPgpVaultBackend Memory ℕ)) (b : OpenPgpVaultBackend Memory ℕ),
    (Card.off (benchPlatform.doStore.write 0x93 [0x00, 0x00, 0x00] benchStorage).2).run benchPlatform
        [.powerCycle 0 default default, .apdu adminVerify, .apdu putEd25519] = .on t ∧
      t.backend.termination = false ∧ usableKey benchPlatform t.backend .sig = none ∧
      openCard benchPlatform (.new default) (.new default) t.backend.world 0 = (.ok ⟨⟩, b) ∧
      usableKey benchPlatform b .sig = some (ed25519Attributes, benchKey.toBytes) := by
  obtain ⟨w₀, h₀, hw₀⟩ :
      ∃ w₀, benchPlatform.doStore.write 0x93 [0x00, 0x00, 0x00] benchStorage = (.ok ⟨⟩, w₀) ∧
      (benchPlatform.doStore.write 0x93 [0x00, 0x00, 0x00] benchStorage).2 = w₀ :=
    ⟨_, benchCounted_run 0, rfl⟩
  rw [hw₀]
  obtain ⟨h, hflag⟩ := (benchReady_opened h₀).admin
  obtain ⟨t, hput, ht, hkeys, hattrs, hcells⟩ := h.putAttributes h₀ hflag
  obtain ⟨b, hopen, hreopened⟩ := reopen_run benchPlatform_keeps t.backend 0 (.new default) (.new default)
  obtain ⟨hattrs', hkeys'⟩ := hreopened .sig
  have hstored := unsealedKeys_bench hcells ed25519Attributes
  rw [unsealedKeys_eq] at hstored
  rw [hattrs] at hattrs' hkeys'
  refine ⟨t, b, ?_, ht, ?_, hopen, ?_⟩
  · rw [run_of_counted h₀, hput]
  · simp only [usableKey, hattrs, hkeys]
    rfl
  · simp only [usableKey, hattrs', hkeys'.trans hstored]
    rfl

end Galdralag.OpenPgp
