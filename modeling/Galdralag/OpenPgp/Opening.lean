import Galdralag.OpenPgp.CardCalls

/-!
# Opening a card

Over storages that keep what is written, provisioning the objects and opening a card never fail.
A store without a header gets the objects of a new card, any other store is left alone. The backend
starts with the PIN digests of the storage, with the keys that the sealed cells and the algorithm
attributes stand for at that moment, and with new machines.
-/

set_option linter.all false

namespace Galdralag.OpenPgp

variable {W T : Type} {pf : CardPlatform W T}

/-! ## The storages of a card -/

/-- The three storages of a card keep what is written to their regions, and no device but the one it
belongs to writes into a region. -/
structure CardPlatform.Keeps (pf : CardPlatform W T) (objects pins cells : W → Memory)
    (pinLimit : ℕ) : Prop where
  objectsFaithful : pf.doStore.storage.Faithful (pf.doStore.base + DoStore.regionBytes) objects
  pinsFaithful : pf.pinStorage.Faithful pinLimit pins
  pinsFit : ∀ p, pf.pinOff p + 32 ≤ pinLimit
  cellsFaithful : pf.keyStorage.Faithful sealedKeyRegionEnd cells
  objectsApart : ∀ d ≠ .objects, pf.Spares (fun w w' ↦ Memory.AgreeOn pf.doStore.base
    (pf.doStore.base + DoStore.regionBytes) (objects w') (objects w)) d
  cellsApart : ∀ d ≠ .cells, pf.Spares (fun w w' ↦ Memory.AgreeOn (sealedOffset .openPgpSig)
    sealedKeyRegionEnd (cells w') (cells w)) d

/-- The attributes of a slot in a world. -/
def attributesIn (pf : CardPlatform W T) (w : W) (slot : OpenPgpKeySlot) : AlgorithmAttributes :=
  attributesOf slot (pf.doStore.read (attributesTag slot) w)

/-- The cell of a slot in a memory. -/
def cellOf (cells : Memory) (slot : OpenPgpKeySlot) : Block 93 :=
  .ofBytes 93 (cells.window (sealedOffset (purposeOf slot)) sealedBlobBytes)

theorem sealedOffset_le (purpose : KeyPurpose) :
    sealedOffset .openPgpSig ≤ sealedOffset purpose ∧
      sealedOffset purpose + sealedBlobBytes ≤ sealedKeyRegionEnd := by
  cases purpose <;> decide

theorem cellOf_congr {cells cells' : Memory} (h : Memory.AgreeOn (sealedOffset .openPgpSig)
    sealedKeyRegionEnd cells' cells) (slot : OpenPgpKeySlot) : cellOf cells' slot = cellOf cells slot := by
  obtain ⟨hlo, hhi⟩ := sealedOffset_le (purposeOf slot)
  rw [cellOf, cellOf, Memory.window_congr h hlo hhi]

/-! ## Sealed keys -/

/-- Whether 32 bytes are a key of a kind: every seed is, but not every scalar. -/
def KeyKind.accepts (crypto : CardCrypto) (key : Block 32) : KeyKind → Bool
  | .brainpool => crypto.isScalar key
  | .curve25519 => true

/-- The key that a cell holds, of whatever kind. -/
def sealedKey (pf : CardPlatform W T) (cell : Block 93) (slot : OpenPgpKeySlot) : Option (Block 32) :=
  match SealedKeyBlob.unsealFromStorageCell pf.crypto pf.masterKey cell (purposeOf slot) with
  | .error _ => none
  | .ok v => if v.length = 32 then some (.ofBytes 32 v.toBytes) else none

/-- The keys in memory for a sealed key and the kind that is asked for. -/
def keysAs (crypto : CardCrypto) (kind : Option KeyKind) (key : Block 32) : SlotKeys :=
  kind.elim .empty fun k ↦ if k.accepts crypto key then .only key k else .empty

/-- Loading reads the cell without regard to the kind, and takes the key for what the attributes
ask for. -/
theorem unsealedKeys_eq (cell : Block 93) (slot : OpenPgpKeySlot) (attrs : AlgorithmAttributes) :
    unsealedKeys pf cell slot attrs
      = (sealedKey pf cell slot).elim .empty (keysAs pf.crypto (kindFor slot attrs)) := by
  rw [unsealedKeys, sealedKey]
  rcases SealedKeyBlob.unsealFromStorageCell pf.crypto pf.masterKey cell (purposeOf slot) with e | v
  · rfl
  · dsimp only
    by_cases hlen : v.length = 32
    · rw [if_pos hlen, if_pos hlen]
      rcases kindFor slot attrs with _ | _ | _ <;> rfl
    · rw [if_neg hlen, if_neg hlen]
      rfl

/-- A cell of zeros holds no key. -/
theorem sealedKey_zero (slot : OpenPgpKeySlot) : sealedKey pf (.zero 93) slot = none := by
  rw [sealedKey, SealedKeyBlob.unsealFromStorageCell_zero]

/-- The cell of a blob that seals a key. -/
theorem sealedKey_of_seals (haead : pf.crypto.Aead) (hpad : pf.crypto.RejectsPadding)
    {slot : OpenPgpKeySlot} {key : Block 32} {nonce : Block 12} {combined : Bytes}
    (h : SealedKeyBlob.Seals pf.crypto pf.masterKey (purposeOf slot) key.toBytes nonce combined) :
    sealedKey pf (.ofBytes 93 (SealedKeyBlob.blobBytes (purposeOf slot) nonce combined)) slot
      = some key := by
  have hbytes := Vec.toBytes_truncated h.length_le
  have hlen : (Vec.truncated key.toBytes : Vec 64).length = 32 := by
    rw [Vec.length, hbytes, key.length_toBytes]
  rw [sealedKey, SealedKeyBlob.unseal_sealed haead hpad h]
  dsimp only
  rw [if_pos hlen, hbytes, Block.ofBytes_toBytes]

/-- Whatever padding does, such a cell holds no other key. -/
theorem eq_of_sealedKey (haead : pf.crypto.Aead) {slot : OpenPgpKeySlot} {key k : Block 32}
    {nonce : Block 12} {combined : Bytes}
    (h : SealedKeyBlob.Seals pf.crypto pf.masterKey (purposeOf slot) key.toBytes nonce combined)
    (hk : sealedKey pf (.ofBytes 93 (SealedKeyBlob.blobBytes (purposeOf slot) nonce combined)) slot
      = some k) : k = key := by
  rw [sealedKey] at hk
  rcases hv : SealedKeyBlob.unsealFromStorageCell pf.crypto pf.masterKey
      (.ofBytes 93 (SealedKeyBlob.blobBytes (purposeOf slot) nonce combined)) (purposeOf slot)
    with e | v <;> rw [hv] at hk
  · cases hk
  · dsimp only at hk
    split_ifs at hk with hlen
    have hbytes := SealedKeyBlob.unsealed_eq_of_sealed haead h hv (hlen.trans key.length_toBytes.symm)
    rw [← Option.some.inj hk, hbytes, Block.ofBytes_toBytes]

/-! ## The objects of a new card -/

/-- An object of a new card. -/
def defaultObject (tag : UInt16) : Option Bytes :=
  if tag = 0x93 then some [0x00, 0x00, 0x00]
  else if tag = 0xC4 then some defaultPwStatusBytes
  else if tag = 0xC3 then some (defaultAttributes .aut).toBytes.toBytes
  else if tag = 0xC2 then some (defaultAttributes .dec).toBytes.toBytes
  else if tag = 0xC1 then some (defaultAttributes .sig).toBytes.toBytes
  else none

section Objects

variable {objects : W → Memory} {limit : ℕ} (hf : pf.doStore.storage.Faithful limit objects)
  (hfits : pf.doStore.base + DoStore.regionBytes ≤ limit)
include hf hfits

/-- Seeding an object succeeds while there is room. -/
theorem seedDo_run (tag : UInt16) {value : Bytes} {w : W} (hlen : value.length ≤ 254)
    (hroom : 0 < pf.doStore.room (objects w)) : ∃ w', seedDo pf tag value w = (.ok ⟨⟩, w') ∧
      pf.doStore.Written (objects w) (objects w') tag value := by
  rcases DoStore.write_run hf hfits tag value w with ⟨w', hrun, h⟩ | ⟨e, w', -, -, h⟩
  · refine ⟨w', ?_, h⟩
    rw [seedDo, Fallible.orElse, hrun]
  · have hzero := h hlen
    omega

/-- The objects of a store without a header, once it is provisioned. -/
theorem initProductionDefaults_run {w : W} (hv : ¬ pf.doStore.Valid (objects w)) :
    ∃ w', initProductionDefaults pf w = (.ok ⟨⟩, w') ∧
      (∀ tag ≠ 0, pf.doStore.object (objects w') tag
        = (defaultObject tag).bind fun v ↦ Vec.ofBytes? v) ∧
      Memory.AgreeOutside pf.doStore.base (pf.doStore.base + DoStore.regionBytes) (objects w')
        (objects w) := by
  have hnone : ∀ tag, pf.doStore.object (objects w) tag = none := fun tag ↦ by
    rw [DoStore.object, if_neg hv]
  have hroom : pf.doStore.room (objects w) = 32 := by
    rw [DoStore.room, if_neg hv]
    rfl
  have hseed : ∀ tag value w, value.length ≤ 254 → 0 < pf.doStore.room (objects w) →
      ∃ w', seedDo pf tag value w = (.ok ⟨⟩, w') ∧
        pf.doStore.Written (objects w) (objects w') tag value :=
    fun tag _ _ ↦ seedDo_run hf hfits tag
  obtain ⟨w₁, hr₁, h₁⟩ := hseed 0xC1 (defaultAttributes .sig).toBytes.toBytes w (by decide) (by omega)
  have hroom₁ := h₁.room
  obtain ⟨w₂, hr₂, h₂⟩ := hseed 0xC2 (defaultAttributes .dec).toBytes.toBytes w₁ (by decide) (by omega)
  have hroom₂ := h₂.room
  obtain ⟨w₃, hr₃, h₃⟩ := hseed 0xC3 (defaultAttributes .aut).toBytes.toBytes w₂ (by decide) (by omega)
  have hroom₃ := h₃.room
  obtain ⟨w₄, hr₄, h₄⟩ := hseed 0xC4 defaultPwStatusBytes w₃ (by decide) (by omega)
  have hroom₄ := h₄.room
  obtain ⟨w₅, hr₅, h₅⟩ := hseed 0x93 [0x00, 0x00, 0x00] w₄ (by decide) (by omega)
  refine ⟨w₅, ?_, fun tag htag ↦ ?_, ?_⟩
  · rw [initProductionDefaults, Fallible.bind_of_ok hr₁, Fallible.bind_of_ok hr₂,
      Fallible.bind_of_ok hr₃, Fallible.bind_of_ok hr₄, hr₅]
  · rw [h₅.object tag htag, h₄.object tag htag, h₃.object tag htag, h₂.object tag htag,
      h₁.object tag htag, hnone, defaultObject]
    split_ifs <;> rfl
  · exact (((h₅.outside.trans h₄.outside).trans h₃.outside).trans h₂.outside).trans h₁.outside

/-- Seeding a card never fails, and leaves a provisioned store alone. -/
theorem seedDefaultsIfFresh_run (w : W) : ∃ w', seedDefaultsIfFresh pf w = (.ok ⟨⟩, w') ∧
    (pf.doStore.Valid (objects w) → w' = w) ∧
    (¬ pf.doStore.Valid (objects w) → ∀ tag ≠ 0, pf.doStore.object (objects w') tag
      = (defaultObject tag).bind fun v ↦ Vec.ofBytes? v) ∧
    Memory.AgreeOutside pf.doStore.base (pf.doStore.base + DoStore.regionBytes) (objects w')
      (objects w) := by
  rw [seedDefaultsIfFresh, DoStore.probe_eq hf hfits]
  by_cases hv : pf.doStore.Valid (objects w)
  · rw [decide_eq_true hv]
    exact ⟨w, rfl, fun _ ↦ rfl, fun h ↦ absurd hv h, .refl _⟩
  · obtain ⟨w', hrun, hobj, hout⟩ := initProductionDefaults_run hf hfits hv
    rw [decide_eq_false hv]
    exact ⟨w', hrun, fun h ↦ absurd h hv, fun _ ↦ hobj, hout⟩

end Objects

/-- Seeding moves the world along what writing objects does. -/
theorem moves_seedDefaultsIfFresh {R : W → W → Prop} (hrefl : ∀ w, R w w)
    (htrans : ∀ {u v w}, R u v → R v w → R u w) (hobjects : pf.Spares R .objects) :
    Fallible.Moves R (seedDefaultsIfFresh pf) := by
  have hwrite : ∀ tag value, Fallible.Moves R (pf.doStore.write tag value) := hobjects
  have hseed : ∀ tag value, Fallible.Moves R (seedDo pf tag value) :=
    fun tag value ↦ (hwrite tag value).orElse _
  have hinit : Fallible.Moves R (initProductionDefaults pf) := by
    refine (hseed _ _).bind htrans fun _ ↦ (hseed _ _).bind htrans fun _ ↦ ?_
    exact (hseed _ _).bind htrans fun _ ↦ (hseed _ _).bind htrans fun _ ↦ hseed _ _
  intro w
  rw [seedDefaultsIfFresh]
  rcases pf.doStore.probe w with e | _ | _
  · exact hinit w
  · exact hinit w
  · exact hrefl w

/-! ## Loading -/

variable {objects pins cells : W → Memory} {pinLimit : ℕ}

section Cells

variable (hcells : pf.keyStorage.Faithful sealedKeyRegionEnd cells)
include hcells

theorem loadKey_run (slot : OpenPgpKeySlot) (b : OpenPgpVaultBackend W T) :
    loadKey pf slot b = (.ok ⟨⟩, b.setKeys slot (unsealedKeys pf (cellOf (cells b.world) slot) slot
      (attributesIn pf b.world slot))) := by
  have hread : Fallible.reading (fun b : OpenPgpVaultBackend W T ↦
      pf.keyStorage.read b.world (sealedOffset (purposeOf slot)) sealedBlobBytes) b
      = (.ok ((cells b.world).window (sealedOffset (purposeOf slot)) sealedBlobBytes), b) := by
    rw [Fallible.reading_apply, hcells.read_eq _ _ _ (sealedOffset_le _).2]
  rw [loadKey, Fallible.bind_of_ok hread, Fallible.gets_bind]
  rfl

/-- The keys that the storage stands for. -/
def storedKeys (pf : CardPlatform W T) (cells : W → Memory) (w : W) (slot : OpenPgpKeySlot) :
    SlotKeys :=
  unsealedKeys pf (cellOf (cells w) slot) slot (attributesIn pf w slot)

theorem loadPrivateKeys_run (b : OpenPgpVaultBackend W T) :
    loadPrivateKeys pf b = (.ok ⟨⟩, { b with keys := storedKeys pf cells b.world }) := by
  rw [loadPrivateKeys, Fallible.modify_bind, Fallible.bind_of_ok (loadKey_run hcells .sig _),
    Fallible.bind_of_ok (loadKey_run hcells .dec _), loadKey_run hcells .aut]
  refine congrArg (fun k ↦ (Except.ok PUnit.unit, { b with keys := k })) (funext fun slot ↦ ?_)
  cases slot <;> rfl

end Cells

/-- The digest of a PIN in a world. -/
def storedVerifier (pf : CardPlatform W T) (pins : W → Memory) (w : W) (p : CardPin) : Block 32 :=
  .ofBytes 32 ((pins w).window (pf.pinOff p) 32)

/-- Digests are read from a memory. -/
def CardPlatform.ReadsPins (pf : CardPlatform W T) (pins : W → Memory) : Prop :=
  ∀ w p, pf.pinStorage.read w (pf.pinOff p) 32 = .ok ((pins w).window (pf.pinOff p) 32)

theorem CardPlatform.Keeps.readsPins (hk : pf.Keeps objects pins cells pinLimit) : pf.ReadsPins pins :=
  fun w p ↦ hk.pinsFaithful.read_eq w _ _ (hk.pinsFit p)

theorem loadPinVerifiersFromStorage_run (hpins : pf.ReadsPins pins) (b : OpenPgpVaultBackend W T) :
    loadPinVerifiersFromStorage pf b = (.ok ⟨⟩, { b with
      userVerifier := storedVerifier pf pins b.world .user
      adminVerifier := storedVerifier pf pins b.world .admin }) := by
  have hread : ∀ p, Fallible.reading (fun b : OpenPgpVaultBackend W T ↦
      pf.pinStorage.read b.world (pf.pinOff p) 32) b
      = (.ok ((pins b.world).window (pf.pinOff p) 32), b) := fun p ↦ by
    rw [Fallible.reading_apply, hpins]
  rw [loadPinVerifiersFromStorage, Fallible.bind_of_ok (hread .user),
    Fallible.bind_of_ok (hread .admin)]
  rfl

/-- A backend that was opened over a world. -/
def OpenPgpVaultBackend.loaded (pf : CardPlatform W T) (pins cells : W → Memory)
    (user admin : PinPolicyMachine) (w : W) (trng : T) : OpenPgpVaultBackend W T where
  world := w
  trng := trng
  userVerifier := storedVerifier pf pins w .user
  adminVerifier := storedVerifier pf pins w .admin
  userMachine := user
  adminMachine := admin
  keys := storedKeys pf cells w
  sigCounter := 0
  termination := false
  audit := 0

/-- **Opening.** A card opens over the world that seeding leaves. -/
theorem openCard_of_reads (hcells : pf.keyStorage.Faithful sealedKeyRegionEnd cells)
    (hpins : pf.ReadsPins pins) (user admin : PinPolicyMachine) {w w' : W} (trng : T)
    (hseed : seedDefaultsIfFresh pf w = (.ok ⟨⟩, w')) :
    openCard pf user admin w trng = (.ok ⟨⟩, .loaded pf pins cells user admin w' trng) := by
  have hworld : (onWorld (seedDefaultsIfFresh pf) : Fallible (OpenPgpVaultBackend W T) _ _)
      (.blank user admin w trng) = (.ok ⟨⟩, .blank user admin w' trng) := by
    rw [onWorld, Fallible.zoom_apply]
    exact congrArg (fun x ↦ (x.1, OpenPgpVaultBackend.blank user admin x.2 trng)) hseed
  rw [openCard, Fallible.bind_of_ok hworld,
    Fallible.bind_of_ok (loadPinVerifiersFromStorage_run hpins _), loadPrivateKeys_run hcells]
  rfl

variable (hk : pf.Keeps objects pins cells pinLimit)
include hk

theorem openCard_run (user admin : PinPolicyMachine) {w w' : W} (trng : T)
    (hseed : seedDefaultsIfFresh pf w = (.ok ⟨⟩, w')) :
    openCard pf user admin w trng = (.ok ⟨⟩, .loaded pf pins cells user admin w' trng) :=
  openCard_of_reads hk.cellsFaithful hk.readsPins user admin trng hseed

omit hk in
/-- Once its digests are stored a new card is seeded, and loads its keys. -/
theorem newCard_of_writes {userPin adminPin : Bytes} {user admin : PinPolicyMachine} {w : W} {trng : T}
    {b b' : OpenPgpVaultBackend W T}
    (huser : onWorld (pf.pinStorage.write (pf.pinOff .user) (pinBytesToVerifierDigest pf userPin).toBytes)
      (.blank user admin w trng) = (.ok ⟨⟩, b))
    (hadmin : onWorld (pf.pinStorage.write (pf.pinOff .admin)
      (pinBytesToVerifierDigest pf adminPin).toBytes) b = (.ok ⟨⟩, b')) :
    newCard pf userPin adminPin user admin w trng = (do
        onWorld (seedDefaultsIfFresh pf)
        loadPrivateKeys pf : Fallible (OpenPgpVaultBackend W T) HalError PUnit)
      { b' with
        userVerifier := pinBytesToVerifierDigest pf userPin
        adminVerifier := pinBytesToVerifierDigest pf adminPin } := by
  rw [newCard]
  dsimp only
  rw [Fallible.bind_of_ok huser, Fallible.bind_of_ok hadmin, Fallible.modify_bind]

/-- **Provisioning.** A new card starts with the digests of its first PINs, which are stored, over
the world that seeding leaves. -/
theorem newCard_run (userPin adminPin : Bytes) (user admin : PinPolicyMachine) {w w' : W} (trng : T)
    (hseed : seedDefaultsIfFresh pf (pf.pinStorage.write (pf.pinOff .admin)
      (pinBytesToVerifierDigest pf adminPin).toBytes (pf.pinStorage.write (pf.pinOff .user)
        (pinBytesToVerifierDigest pf userPin).toBytes w).2).2 = (.ok ⟨⟩, w')) :
    newCard pf userPin adminPin user admin w trng = (.ok ⟨⟩, {
      world := w', trng := trng
      userVerifier := pinBytesToVerifierDigest pf userPin
      adminVerifier := pinBytesToVerifierDigest pf adminPin
      userMachine := user, adminMachine := admin, keys := storedKeys pf cells w'
      sigCounter := 0, termination := false, audit := 0 }) := by
  have hworld : ∀ {m : Fallible W HalError PUnit} {w w' : W}, m w = (.ok ⟨⟩, w') →
      ∀ b : OpenPgpVaultBackend W T, b.world = w → onWorld m b = (.ok ⟨⟩, { b with world := w' }) := by
    rintro m w w' h b rfl
    rw [onWorld, Fallible.zoom_apply, h]
  have hwrite : ∀ p (d : Block 32) (w : W), pf.pinStorage.write (pf.pinOff p) d.toBytes w
      = (.ok ⟨⟩, (pf.pinStorage.write (pf.pinOff p) d.toBytes w).2) := by
    intro p d w
    refine hk.pinsFaithful.write_eq w ?_
    rw [d.length_toBytes]
    exact hk.pinsFit p
  rw [newCard_of_writes (hworld (hwrite .user _ w) _ rfl) (hworld (hwrite .admin _ _) _ rfl),
    Fallible.bind_of_ok (hworld hseed _ rfl), loadPrivateKeys_run hk.cellsFaithful]
  rfl

end Galdralag.OpenPgp
