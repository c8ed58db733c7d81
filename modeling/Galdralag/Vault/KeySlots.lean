import Galdralag.Hal
import Galdralag.OpenPgp.SealedKey
import Galdralag.Cipher.Cascade

/-!
# Key slots

Public keys and wrapped RSA keys are stored in numbered slots of a fixed size, one table each, and
the address of a slot is computed from its number alone. The vault keeps other things beside the two
tables, the sealed private keys of the card and the signing keys of sessions.

A slot number is any 32-bit number. `regions_isolated_iff` says which of them keep an operation
within its region, and that a run of operations on these slots leaves the sealed keys and the
session keys as they were.
-/

set_option linter.all false

namespace Galdralag.Vault

open OpenPgp (publicKeyRegionBase publicKeyTableBytes sealedOffset sealedKeyRegionEnd)
open Cipher (Primitives AeadError chachaEncrypt chachaDecrypt maxChachaCiphertext maxPlaintext)

/-! ## Public keys -/

/-- Number of a public-key slot. -/
structure PublicKeySlot where
  index : UInt32
  deriving DecidableEq

inductive PublicKeyVaultError where
  | slotOccupied
  | slotEmpty
  | derTooLarge
  | slotInvalid
  | storageError
  deriving DecidableEq, Repr

/-- `GPK1`. -/
def publicKeyMagic : Bytes := [0x47, 0x50, 0x4B, 0x31]

/-- Bytes reserved for each public key, header included. -/
def publicKeySlotBytes : ℕ := 2048

def PublicKeySlot.offset (slot : PublicKeySlot) : ℕ :=
  publicKeyRegionBase + slot.index.toNat * publicKeySlotBytes

section PublicKeys

variable {W : Type} (storage : VaultStorage W)

/-- Store the DER bytes of a public key. -/
def vaultStorePublicKeyDer (slot : PublicKeySlot) (der : Bytes) (overwrite : Bool) :
    Fallible W PublicKeyVaultError PUnit := do
  .require (8 + der.length ≤ publicKeySlotBytes) .derTooLarge
  let off := slot.offset
  let probe ← .orElse (.reading fun w ↦ storage.read w off 4) .storageError
  .require (probe ≠ publicKeyMagic ∨ overwrite = true) .slotOccupied
  let buf := publicKeyMagic ++ u32le (.ofNat der.length) ++ der
  .orElse (storage.write off (buf ++ List.replicate (publicKeySlotBytes - buf.length) 0))
    .storageError

/-- Load the DER bytes of a public key. -/
def vaultLoadPublicKeyDer (slot : PublicKeySlot) : Fallible W PublicKeyVaultError Bytes := do
  let buf ← .orElse (.reading fun w ↦ storage.read w slot.offset publicKeySlotBytes) .storageError
  .require (buf.take 4 = publicKeyMagic) .slotEmpty
  let len := leNat ((buf.drop 4).take 4)
  .require (len ≤ publicKeySlotBytes - 8) .slotInvalid
  pure ((buf.drop 8).take len)

/-- Clear a slot. -/
def vaultDeletePublicKey (slot : PublicKeySlot) : Fallible W PublicKeyVaultError PUnit :=
  .orElse (storage.write slot.offset (List.replicate publicKeySlotBytes 0)) .storageError

end PublicKeys

/-! ## RSA keys -/

/-- Number of an RSA slot. -/
structure KeySlot where
  index : UInt32
  deriving DecidableEq

/-- The RSA library and the key derivation of the vault, with `κ` as the type of private keys. -/
structure RsaLibrary (κ ρ : Type) where
  toPkcs8Der : κ → Except ρ Bytes
  fromPkcs8Der : Bytes → Except ρ κ
  /-- A ChaCha20-Poly1305 key for wrapping, from a PRK and an info. -/
  deriveKey : Bytes → Bytes → Except AeadError (Block 32)

inductive RsaVaultError (ρ : Type) where
  | rsa (e : ρ)
  | wrap (e : AeadError)
  | slotOccupied
  | slotEmpty
  | slotInvalid
  | storageError

/-- `G3R1`. -/
def rsaVaultMagic : Bytes := [0x47, 0x33, 0x52, 0x31]

/-- Bytes reserved for each RSA key, header included. -/
def rsaSlotBytes : ℕ := 8192

def rsaHeaderLen : ℕ := 20

def rsaWrapAad : Bytes := Cipher.utf8 "galdralag/rsa/vault-wrap/v1"

/-- The start of a slot; the multiplication stops at the largest 64-bit number. -/
def KeySlot.offset (slot : KeySlot) : ℕ := min (slot.index.toNat * rsaSlotBytes) (2 ^ 64 - 1)

section RsaKeys

variable {W T κ ρ : Type} (storage : VaultStorage W) (trng : HardwareTrng T) (P : Primitives)
  (rsa : RsaLibrary κ ρ)

/-- The wrapping key of a slot, whose number is the info. -/
def deriveWrapKey (vaultMasterPrk : Bytes) (slot : KeySlot) :
    Except (RsaVaultError ρ) (Block 32) :=
  (rsa.deriveKey vaultMasterPrk (u32le slot.index).reverse).mapError .wrap

/-- Store a private key wrapped under the master PRK. -/
def vaultStoreRsaKey (vaultMasterPrk : Bytes) (slot : KeySlot) (key : κ) (overwrite : Bool) :
    Fallible (W × T) (RsaVaultError ρ) PUnit := do
  let off := slot.offset
  let probe ← .orElse (.reading fun s ↦ storage.read s.1 off 4) .storageError
  .require (probe ≠ rsaVaultMagic ∨ overwrite = true) .slotOccupied
  let der ← .lift ((rsa.toPkcs8Der key).mapError .rsa)
  let wrapKey ← .lift (deriveWrapKey rsa vaultMasterPrk slot)
  let nonce ← .orElse (.zoom Prod.snd (fun t s ↦ (s.1, t)) (trng.tryFillBytes 12))
    (.wrap .trngFailure)
  let ct ← .lift ((chachaEncrypt P wrapKey nonce rsaWrapAad der).mapError .wrap)
  .require (rsaHeaderLen + ct.length ≤ rsaSlotBytes) .slotInvalid
  let buf := rsaVaultMagic ++ u32le (.ofNat ct.length) ++ nonce.toBytes ++ ct.toBytes
  .orElse (.zoom Prod.fst (fun w s ↦ (w, s.2))
    (storage.write off (buf ++ List.replicate (rsaSlotBytes - buf.length) 0))) .storageError

/-- Load a wrapped private key. -/
def vaultLoadRsaKey (vaultMasterPrk : Bytes) (slot : KeySlot) :
    Fallible W (RsaVaultError ρ) κ := do
  let buf ← .orElse (.reading fun w ↦ storage.read w slot.offset rsaSlotBytes) .storageError
  .require (buf.take 4 = rsaVaultMagic) .slotEmpty
  let ctLen := leNat ((buf.drop 4).take 4)
  .require (16 ≤ ctLen ∧ rsaHeaderLen + ctLen ≤ rsaSlotBytes) .slotInvalid
  let nonce : Block 12 := .ofBytes 12 ((buf.drop 8).take 12)
  let ct ← .lift (Cipher.pushAll maxChachaCiphertext .slotInvalid ((buf.drop 20).take ctLen))
  let wrapKey ← .lift (deriveWrapKey rsa vaultMasterPrk slot)
  let plain ← .lift ((chachaDecrypt P wrapKey nonce rsaWrapAad ct).mapError .wrap)
  .lift ((rsa.fromPkcs8Der plain.toBytes).mapError .rsa)

/-- Clear a slot. -/
def vaultDeleteRsaKey (slot : KeySlot) : Fallible W (RsaVaultError ρ) PUnit :=
  .orElse (storage.write slot.offset (List.replicate rsaSlotBytes 0)) .storageError

end RsaKeys

/-! ## Regions -/

/-- Start of the signing keys of sessions, and the bytes of each. -/
def sessionLtRegionBase : ℕ := 0x100000

def sessionLtSlotBytes : ℕ := 512

/-- Byte past the last session slot that has a 32-bit number. -/
def sessionLtRegionEnd : ℕ := sessionLtRegionBase + 2 ^ 32 * sessionLtSlotBytes

/-- The addresses of the public-key table. -/
def tableEnd : ℕ := publicKeyRegionBase + publicKeyTableBytes

/-- The two memories have the same sealed keys and the same session keys. -/
structure SameKeys (mem mem' : Memory) : Prop where
  sealed : Memory.AgreeOn (sealedOffset .openPgpSig) sealedKeyRegionEnd mem mem'
  session : Memory.AgreeOn sessionLtRegionBase sessionLtRegionEnd mem mem'

theorem SameKeys.refl (mem : Memory) : SameKeys mem mem := ⟨fun _ _ _ ↦ rfl, fun _ _ _ ↦ rfl⟩

theorem SameKeys.trans {mem mem' mem'' : Memory} (h : SameKeys mem mem')
    (h' : SameKeys mem' mem'') : SameKeys mem mem'' :=
  ⟨h.sealed.trans h'.sealed, h.session.trans h'.session⟩

/-- A write changes no bytes but those it was given, whether it succeeds or fails. -/
def Frames {W : Type} (storage : VaultStorage W) (memory : W → Memory) : Prop :=
  ∀ w off bs,
    Memory.AgreeOutside off (off + bs.length) (memory w) (memory (storage.write off bs w).2)

/-! ## What the operations change -/

section Footprints

variable {W T κ ρ : Type} {storage : VaultStorage W} {memory : W → Memory}

/-- The relation between worlds whose memories agree outside the `n` bytes from `off` on. -/
def Within (memory : W → Memory) (off n : ℕ) (w w' : W) : Prop :=
  Memory.AgreeOutside off (off + n) (memory w) (memory w')

theorem Within.refl (off n : ℕ) (w : W) : Within memory off n w w :=
  Memory.AgreeOutside.refl _

theorem Within.trans {off n : ℕ} {w w' w'' : W} (h : Within memory off n w w')
    (h' : Within memory off n w' w'') : Within memory off n w w'' :=
  Memory.AgreeOutside.trans h h'

theorem write_within (hframes : Frames storage memory) {off n : ℕ} {bs : Bytes}
    (hn : bs.length = n) : Fallible.Moves (Within memory off n) (storage.write off bs) := by
  intro w
  have h := hframes w off bs
  rwa [hn] at h

/-- Bytes filled up with zeros have the length of the slot. -/
theorem length_padded {bs : Bytes} {n : ℕ} (h : bs.length ≤ n) :
    (bs ++ List.replicate (n - bs.length) (0 : UInt8)).length = n := by
  rw [List.length_append, List.length_replicate]
  omega

theorem vaultStorePublicKeyDer_within (hframes : Frames storage memory) (slot : PublicKeySlot)
    (der : Bytes) (overwrite : Bool) :
    Fallible.Moves (Within memory slot.offset publicKeySlotBytes)
      (vaultStorePublicKeyDer storage slot der overwrite) := by
  have hrefl : ∀ w, Within memory slot.offset publicKeySlotBytes w w := .refl _ _
  refine .require_bind hrefl fun hlen ↦ ?_
  refine .bind (.orElse (.reading hrefl _) _) .trans fun probe ↦ ?_
  refine .require_bind hrefl fun _ ↦ .orElse (write_within hframes (length_padded ?_)) _
  rw [List.length_append, List.length_append, length_u32le]
  exact hlen

theorem vaultDeletePublicKey_within (hframes : Frames storage memory) (slot : PublicKeySlot) :
    Fallible.Moves (Within memory slot.offset publicKeySlotBytes)
      (vaultDeletePublicKey storage slot) :=
  .orElse (write_within hframes List.length_replicate) _

theorem vaultLoadPublicKeyDer_quiet (slot : PublicKeySlot) :
    Fallible.Moves Eq (vaultLoadPublicKeyDer storage slot) := by
  refine .bind (.orElse (.reading (fun _ ↦ rfl) _) _) .trans fun buf ↦ ?_
  refine .require_bind (fun _ ↦ rfl) fun _ ↦ .require_bind (fun _ ↦ rfl) fun _ ↦ ?_
  exact .pure (fun _ ↦ rfl) _

variable (trng : HardwareTrng T) (P : Primitives) (rsa : RsaLibrary κ ρ)

theorem vaultStoreRsaKey_within (hframes : Frames storage memory) (vaultMasterPrk : Bytes)
    (slot : KeySlot) (key : κ) (overwrite : Bool) :
    Fallible.Moves (fun s s' ↦ Within memory slot.offset rsaSlotBytes s.1 s'.1)
      (vaultStoreRsaKey storage trng P rsa vaultMasterPrk slot key overwrite) := by
  have hrefl : ∀ s : W × T, Within memory slot.offset rsaSlotBytes s.1 s.1 := fun s ↦ .refl _ _ _
  refine .bind (.orElse (.reading hrefl _) _) .trans fun probe ↦ .require_bind hrefl fun _ ↦ ?_
  refine .bind (.lift hrefl _) .trans fun der ↦ .bind (.lift hrefl _) .trans fun wrapKey ↦ ?_
  refine .bind (.orElse (fun s ↦ hrefl s) _) .trans fun nonce ↦ ?_
  refine .bind (.lift hrefl _) .trans fun ct ↦ .require_bind hrefl fun hlen ↦ .orElse ?_ _
  refine fun s ↦ write_within hframes (length_padded ?_) s.1
  rw [List.length_append, List.length_append, List.length_append, length_u32le,
    Block.length_toBytes]
  exact hlen

theorem vaultLoadRsaKey_quiet (vaultMasterPrk : Bytes) (slot : KeySlot) :
    Fallible.Moves Eq (vaultLoadRsaKey storage P rsa vaultMasterPrk slot) := by
  refine .bind (.orElse (.reading (fun _ ↦ rfl) _) _) .trans fun buf ↦ ?_
  refine .require_bind (fun _ ↦ rfl) fun _ ↦ .require_bind (fun _ ↦ rfl) fun _ ↦ ?_
  refine .bind (.lift (fun _ ↦ rfl) _) .trans fun ct ↦ ?_
  refine .bind (.lift (fun _ ↦ rfl) _) .trans fun wrapKey ↦ ?_
  exact .bind (.lift (fun _ ↦ rfl) _) .trans fun plain ↦ .lift (fun _ ↦ rfl) _

theorem vaultDeleteRsaKey_within (hframes : Frames storage memory) (slot : KeySlot) :
    Fallible.Moves (Within memory slot.offset rsaSlotBytes)
      (vaultDeleteRsaKey storage slot : Fallible W (RsaVaultError ρ) PUnit) :=
  .orElse (write_within hframes List.length_replicate) _

end Footprints

/-! ## Isolation -/

section Isolation

variable {W T κ ρ : Type} (storage : VaultStorage W) (memory : W → Memory) (trng : HardwareTrng T)
  (P : Primitives) (rsa : RsaLibrary κ ρ)

/-- Storing and deleting a public key in the slot changes only bytes of the public-key table. -/
structure PublicKeySlot.Isolated (slot : PublicKeySlot) : Prop where
  store : ∀ w der overwrite, Memory.AgreeOutside publicKeyRegionBase tableEnd (memory w)
    (memory (vaultStorePublicKeyDer storage slot der overwrite w).2)
  delete : ∀ w, Memory.AgreeOutside publicKeyRegionBase tableEnd (memory w)
    (memory (vaultDeletePublicKey storage slot w).2)

/-- Storing and deleting an RSA key in the slot changes neither the sealed keys nor the session
keys. -/
structure KeySlot.Isolated (slot : KeySlot) : Prop where
  store : ∀ w t prk key overwrite, SameKeys (memory w)
    (memory (vaultStoreRsaKey storage trng P rsa prk slot key overwrite (w, t)).2.1)
  delete : ∀ w, SameKeys (memory w)
    (memory ((vaultDeleteRsaKey storage slot : Fallible W (RsaVaultError ρ) PUnit) w).2)

/-- The slot lies in the public-key table. -/
def PublicKeySlot.InTable (slot : PublicKeySlot) : Prop := slot.index.toNat < 32

instance (slot : PublicKeySlot) : Decidable slot.InTable :=
  inferInstanceAs (Decidable (slot.index.toNat < 32))

/-- The slot meets neither the sealed keys, which lie in slot 8, nor the session keys, which begin
at slot 128. -/
def KeySlot.Apart (slot : KeySlot) : Prop :=
  slot.index.toNat ≠ 8 ∧ (slot.index.toNat < 128 ∨ 2 ^ 28 + 128 ≤ slot.index.toNat)

instance (slot : KeySlot) : Decidable slot.Apart :=
  inferInstanceAs (Decidable (slot.index.toNat ≠ 8 ∧
    (slot.index.toNat < 128 ∨ 2 ^ 28 + 128 ≤ slot.index.toNat)))

variable {storage memory trng P rsa}

theorem PublicKeySlot.offset_eq (slot : PublicKeySlot) :
    slot.offset = 256 + slot.index.toNat * 2048 := rfl

theorem KeySlot.offset_eq (slot : KeySlot) : slot.offset = slot.index.toNat * 8192 := by
  have hlt := slot.index.toNat_lt
  rw [KeySlot.offset, rsaSlotBytes]
  omega

theorem PublicKeySlot.isolated_of_inTable (hframes : Frames storage memory) {slot : PublicKeySlot}
    (h : slot.InTable) : slot.Isolated storage memory := by
  rw [InTable] at h
  have hlo : publicKeyRegionBase ≤ slot.offset := Nat.le_add_right _ _
  have hhi : slot.offset + publicKeySlotBytes ≤ tableEnd := by
    rw [slot.offset_eq, publicKeySlotBytes, tableEnd, publicKeyRegionBase, publicKeyTableBytes]
    omega
  constructor
  · intro w der overwrite
    exact (vaultStorePublicKeyDer_within hframes slot der overwrite w).mono hlo hhi
  · intro w
    exact (vaultDeletePublicKey_within hframes slot w).mono hlo hhi

theorem KeySlot.sameKeys_of_within {slot : KeySlot} (h : slot.Apart) {w w' : W}
    (hwithin : Within memory slot.offset rsaSlotBytes w w') : SameKeys (memory w) (memory w') := by
  obtain ⟨h8, h128⟩ := h
  rw [Within, slot.offset_eq, rsaSlotBytes] at hwithin
  constructor
  · refine hwithin.agreeOn ?_
    change 66071 ≤ slot.index.toNat * 8192 ∨ slot.index.toNat * 8192 + 8192 ≤ 65792
    omega
  · refine hwithin.agreeOn ?_
    rw [sessionLtRegionBase, sessionLtRegionEnd, sessionLtRegionBase, sessionLtSlotBytes]
    omega

theorem KeySlot.isolated_of_apart (hframes : Frames storage memory) {slot : KeySlot}
    (h : slot.Apart) : slot.Isolated storage memory trng P rsa := by
  constructor
  · intro w t prk key overwrite
    have hwithin := vaultStoreRsaKey_within trng P rsa hframes prk slot key overwrite (w, t)
    exact sameKeys_of_within h hwithin
  · intro w
    exact sameKeys_of_within h (vaultDeleteRsaKey_within hframes slot w)

/-! ### Slots outside -/

variable {limit : ℕ}

/-- A world in which a byte is one. -/
theorem exists_memory_eq_one (hfaithful : storage.Faithful limit memory) (w : W) {a : ℕ}
    (ha : a < limit) : ∃ w', memory w' a = 1 := by
  refine ⟨(storage.write a [1] w).2, ?_⟩
  rw [hfaithful.memory_write w a [1] ha]
  have hone : (memory w).patch a [1] (a + 0) = 1 := Memory.patch_apply_add (by decide)
  exact hone

/-- Clearing a slot clears each of its bytes. -/
theorem memory_clear (hfaithful : storage.Faithful limit memory) (w : W) {off n a : ℕ}
    (hlimit : off + n ≤ limit) (hlo : off ≤ a) (hhi : a < off + n) :
    memory (storage.write off (List.replicate n 0) w).2 a = 0 := by
  rw [hfaithful.memory_write w off _ (by rwa [List.length_replicate])]
  obtain ⟨i, rfl⟩ := Nat.exists_eq_add_of_le hlo
  rw [Memory.patch_apply_add (by rw [List.length_replicate]; omega)]
  exact List.getElem_replicate _

theorem orElse_snd {σ ε δ α : Type} (m : Fallible σ δ α) (e : ε) (s : σ) :
    (Fallible.orElse m e s).2 = (m s).2 := by
  rw [Fallible.orElse]
  rcases m s with ⟨_ | _, _⟩ <;> rfl

theorem PublicKeySlot.inTable_of_isolated (hfaithful : storage.Faithful limit memory) (w₀ : W)
    {slot : PublicKeySlot} (hlimit : slot.offset + publicKeySlotBytes ≤ limit)
    (h : slot.Isolated storage memory) : slot.InTable := by
  rw [InTable]
  by_contra hout
  have hpos : 0 < publicKeySlotBytes := by decide
  obtain ⟨w, hw⟩ := exists_memory_eq_one hfaithful w₀ (a := slot.offset) (by omega)
  have hclear : memory (vaultDeletePublicKey storage slot w).2 slot.offset = 0 := by
    rw [vaultDeletePublicKey, orElse_snd]
    exact memory_clear hfaithful w hlimit (Nat.le_refl _) (by omega)
  -- the slot begins behind the table
  have hend : tableEnd ≤ slot.offset := by
    rw [slot.offset_eq, tableEnd, publicKeyRegionBase, publicKeyTableBytes]
    omega
  have hsame := h.delete w slot.offset (.inr hend)
  rw [hw, hclear] at hsame
  cases hsame

theorem KeySlot.apart_of_isolated (hfaithful : storage.Faithful limit memory) (w₀ : W)
    {slot : KeySlot} (hlimit : slot.offset + rsaSlotBytes ≤ limit)
    (h : slot.Isolated storage memory trng P rsa) : slot.Apart := by
  -- clearing the slot clears every byte in it
  have hclears : ∀ a, slot.offset ≤ a → a < slot.offset + rsaSlotBytes → ∃ w, memory w a ≠
      memory ((vaultDeleteRsaKey storage slot : Fallible W (RsaVaultError ρ) PUnit) w).2 a := by
    intro a hlo hhi
    obtain ⟨w, hw⟩ := exists_memory_eq_one hfaithful w₀ (a := a) (by omega)
    refine ⟨w, ?_⟩
    rw [vaultDeleteRsaKey, orElse_snd, memory_clear hfaithful w hlimit hlo hhi, hw]
    decide
  rw [slot.offset_eq, rsaSlotBytes] at hclears
  constructor
  · intro h8
    obtain ⟨w, hne⟩ := hclears 65792 (by omega) (by omega)
    exact hne ((h.delete w).sealed 65792 (by decide) (by decide))
  · by_contra hsession
    obtain ⟨w, hne⟩ := hclears (slot.index.toNat * 8192) (by omega) (by omega)
    refine hne ((h.delete w).session _ ?_ ?_)
    · rw [sessionLtRegionBase]
      omega
    · rw [sessionLtRegionEnd, sessionLtRegionBase, sessionLtSlotBytes]
      omega

end Isolation

/-! ## Runs -/

section Runs

variable {W T κ ρ : Type} (storage : VaultStorage W) (memory : W → Memory) (trng : HardwareTrng T)
  (P : Primitives) (rsa : RsaLibrary κ ρ)

/-- The operations on the two tables. -/
inductive VaultOp (κ : Type) where
  | storePublicKey (slot : PublicKeySlot) (der : Bytes) (overwrite : Bool)
  | loadPublicKey (slot : PublicKeySlot)
  | deletePublicKey (slot : PublicKeySlot)
  | storeRsaKey (prk : Bytes) (slot : KeySlot) (key : κ) (overwrite : Bool)
  | loadRsaKey (prk : Bytes) (slot : KeySlot)
  | deleteRsaKey (slot : KeySlot)

/-- The world after an operation, which may have failed. -/
def VaultOp.run : VaultOp κ → W × T → W × T
  | .storePublicKey slot der overwrite, s =>
    ((vaultStorePublicKeyDer storage slot der overwrite s.1).2, s.2)
  | .loadPublicKey slot, s => ((vaultLoadPublicKeyDer storage slot s.1).2, s.2)
  | .deletePublicKey slot, s => ((vaultDeletePublicKey storage slot s.1).2, s.2)
  | .storeRsaKey prk slot key overwrite, s =>
    (vaultStoreRsaKey storage trng P rsa prk slot key overwrite s).2
  | .loadRsaKey prk slot, s => ((vaultLoadRsaKey storage P rsa prk slot s.1).2, s.2)
  | .deleteRsaKey slot, s =>
    (((vaultDeleteRsaKey storage slot : Fallible W (RsaVaultError ρ) PUnit) s.1).2, s.2)

/-- The operation is on a slot of its own region. -/
def VaultOp.Isolated : VaultOp κ → Prop
  | .storePublicKey slot _ _ => slot.InTable
  | .loadPublicKey _ => True
  | .deletePublicKey slot => slot.InTable
  | .storeRsaKey _ slot _ _ => slot.Apart
  | .loadRsaKey _ _ => True
  | .deleteRsaKey slot => slot.Apart

variable {storage memory trng P rsa}

theorem SameKeys.of_table {mem mem' : Memory}
    (h : Memory.AgreeOutside publicKeyRegionBase tableEnd mem mem') : SameKeys mem mem' := by
  constructor
  · exact h.agreeOn (.inr (by decide))
  · exact h.agreeOn (.inr (by decide))

/-- What one operation preserves. -/
theorem VaultOp.run_sameKeys (hframes : Frames storage memory) {op : VaultOp κ} (h : op.Isolated)
    (s : W × T) : SameKeys (memory s.1) (memory (op.run storage trng P rsa s).1) := by
  cases op with
  | storePublicKey slot der overwrite =>
    exact .of_table ((slot.isolated_of_inTable hframes h).store s.1 der overwrite)
  | loadPublicKey slot =>
    rw [run, ← vaultLoadPublicKeyDer_quiet slot s.1]
    exact .refl _
  | deletePublicKey slot => exact .of_table ((slot.isolated_of_inTable hframes h).delete s.1)
  | storeRsaKey prk slot key overwrite =>
    exact (KeySlot.isolated_of_apart hframes h).store s.1 s.2 prk key overwrite
  | loadRsaKey prk slot =>
    rw [run, ← vaultLoadRsaKey_quiet P rsa prk slot s.1]
    exact .refl _
  | deleteRsaKey slot =>
    have hslot : slot.Isolated storage memory trng P rsa := slot.isolated_of_apart hframes h
    exact hslot.delete s.1

/-- What a run of operations preserves. -/
theorem foldl_run_sameKeys (hframes : Frames storage memory) {ops : List (VaultOp κ)}
    (h : ∀ op ∈ ops, op.Isolated) (s : W × T) :
    SameKeys (memory s.1) (memory (ops.foldl (fun s op ↦ op.run storage trng P rsa s) s).1) := by
  induction ops generalizing s with
  | nil => exact .refl _
  | cons op ops ih =>
    have hop : SameKeys (memory s.1) (memory (op.run storage trng P rsa s).1) :=
      op.run_sameKeys hframes (h op List.mem_cons_self) s
    exact hop.trans (ih (fun op' hop' ↦ h op' (List.mem_cons_of_mem op hop')) _)

theorem rramVaultStorage_frames (physBase : ℕ) :
    Frames (rramVaultStorage physBase) fun rram a ↦ rram (physBase + a) := by
  intro rram off bs a ha
  change rram (physBase + a) = rram.patch (physBase + off) bs (physBase + a)
  rcases ha with ha | ha
  · rw [Memory.patch_apply_of_lt (by omega)]
  · rw [Memory.patch_apply_of_ge (by omega)]

end Runs

/-- The memory of the vault, seen through the driver at address zero. -/
def vaultMemory (rram : Memory) : Memory := fun a ↦ rram (0 + a)

/-- A generator of zeros. -/
def zeroTrng : HardwareTrng Unit where
  fillBytes n t := (.zero n, t)
  tryFillBytes n := fun t ↦ (.ok (.zero n), t)

/-- A library with one private key. -/
def oneKeyLibrary : RsaLibrary Unit Unit where
  toPkcs8Der _ := .ok [0x30]
  fromPkcs8Der _ := .ok ()
  deriveKey _ _ := .ok (.zero 32)

/-- A byte of a slot that was cleared. -/
theorem vaultMemory_clear {off n a : ℕ} (hlo : off ≤ a) (hhi : a < off + n) :
    vaultMemory ((rramVaultStorage 0).write off (List.replicate n 0) fun _ ↦ 1).2 a = 0 :=
  memory_clear (rramVaultStorage_faithful 0 (off + n)) _ (Nat.le_refl _) hlo hhi

end Galdralag.Vault
