import Galdralag.OpenPgp.Baochip

/-!
# Sealed keys in their cells

A private scalar is sealed for a purpose of the vault, written into the cell of that purpose with
zeros behind it, and unsealed from the cell after a restart. The length of the scalar is not stored:
it is found again because the cipher accepts the ciphertext at its true length only.

Three of the vault's purposes have a cell. For the others sealing and unsealing are refused.
-/

set_option linter.all false

namespace Galdralag.OpenPgp

/-! ## Purposes -/

/-- What the vault derives keys for. -/
inductive VaultKeyPurpose where
  | vaultRootUnwrap
  | rramBlobWrap
  | storageSeal
  | usbSession
  | pinVerifier
  | openPgpSigning
  | keyAgreement
  | shamirRecovery
  | camelliaStorage
  | serpentStorage
  | twofishStorage
  | rsaKeyWrap
  | sessionLongTermSign
  | ephemeralSessionPrk
  | openPgpSig
  | openPgpDec
  | openPgpAut
  | openPgpAdminPin
  | openPgpCcidMaster
  | contactKeyWrap
  | contactStoreIntegrity
  deriving DecidableEq, Repr

/-- The purposes with a wire identifier: those of the card application. -/
def VaultKeyPurpose.cardPurpose : VaultKeyPurpose → Option KeyPurpose
  | .openPgpSig => some .openPgpSig
  | .openPgpDec => some .openPgpDec
  | .openPgpAut => some .openPgpAut
  | _ => none

/-- A purpose of the card application, among those of the vault. -/
def KeyPurpose.vaultPurpose : KeyPurpose → VaultKeyPurpose
  | .openPgpSig => .openPgpSig
  | .openPgpDec => .openPgpDec
  | .openPgpAut => .openPgpAut

theorem cardPurpose_eq_some {p : KeyPurpose} {q : VaultKeyPurpose} :
    q.cardPurpose = some p ↔ q = p.vaultPurpose := by
  cases p <;> cases q <;> decide

/-- Encryption accepts every message that is sealed. -/
def CardCrypto.AcceptsScalars (crypto : CardCrypto) : Prop :=
  ∀ k n aad m, m.length ≤ 64 → ∃ c, crypto.aesGcmEncrypt k n aad m = some c

namespace SealedKeyBlob

section Purposes

variable {T : Type} (trng : HardwareTrng T) (crypto : CardCrypto) (masterKey : Block 32)

/-- Seal a private scalar for a purpose of the vault. -/
def sealFor (purpose : VaultKeyPurpose) (scalar : Bytes) : Fallible T SealedKeyError (Vec 93) :=
  match purpose.cardPurpose with
  | some p => sealScalar trng crypto masterKey p scalar
  | none => .fail .storageError

/-- Unseal a storage cell for a purpose of the vault. -/
def unsealFor (cell : Block 93) (purpose : VaultKeyPurpose) : Except SealedKeyError (Vec 64) :=
  match purpose.cardPurpose with
  | some p => unsealFromStorageCell crypto masterKey cell p
  | none => .error .storageError

end Purposes

variable {T : Type} {trng : HardwareTrng T} {crypto : CardCrypto} {masterKey : Block 32}
  {purpose : KeyPurpose} {scalar : Bytes} {t t' : T} {nonce : Block 12}

/-! ## Sealing succeeds -/

theorem sealScalar_run (haead : crypto.Aead) (haccepts : crypto.AcceptsScalars)
    (hne : scalar ≠ []) (hle : scalar.length ≤ 64)
    (hnonce : trng.tryFillBytes 12 t = (.ok nonce, t')) :
    ∃ blob combined, sealScalar trng crypto masterKey purpose scalar t = (.ok blob, t') ∧
      Seals crypto masterKey purpose scalar nonce combined ∧
      blob.toBytes = blobBytes purpose nonce combined := by
  obtain ⟨combined, hencrypt⟩ := haccepts (deriveWrappingKey crypto masterKey (purposeWireId purpose))
    nonce (purposeWireId purpose :: nonce.toBytes) scalar hle
  have hlen : combined.length = scalar.length + 16 :=
    haead.length_decrypt (haead.decrypt_encrypt hencrypt)
  have hfits : (blobBytes purpose nonce combined).length ≤ 93 := by
    rw [length_blobBytes, hlen]
    omega
  have hblob : (Vec.ofBytes? (purposeWireId purpose :: nonce.toBytes ++ combined) : Option (Vec 93))
      = some (.truncated (blobBytes purpose nonce combined)) := Vec.ofBytes?_of_le hfits
  refine ⟨.truncated (blobBytes purpose nonce combined), combined, ?_,
    ⟨List.length_pos_iff.mpr hne, hle, hlen, hencrypt⟩, Vec.toBytes_truncated hfits⟩
  have hdraw : (Fallible.mapError (fun _ ↦ SealedKeyError.trngError) (trng.tryFillBytes 12)) t
      = (.ok nonce, t') := by
    rw [Fallible.mapError, hnonce]
    rfl
  rw [sealScalar, Fallible.bind_of_ok (Fallible.require_of ⟨hne, hle⟩ _ _)]
  dsimp only
  rw [Fallible.bind_of_ok hdraw, hencrypt]
  dsimp only [Option.elim]
  rw [Fallible.bind_of_ok (Fallible.lift_apply _ _), Fallible.bind_of_ok (Fallible.require_of hlen _ _),
    hblob]
  rfl

/-! ## Cells of another purpose -/

/-- What does not begin with the expected purpose byte is not opened. -/
theorem unsealInner_of_ne {raw : Bytes} {wire : UInt8} (h : raw[0]?.getD 0 ≠ wire) :
    ∃ e, unsealInner crypto masterKey raw wire = .error e := by
  rw [unsealInner]
  by_cases hshape : ¬ (29 ≤ raw.length ∧ raw.length ≤ 93) ∨ raw.all (· = 0)
  · rw [if_pos hshape]
    exact ⟨_, rfl⟩
  · rw [if_neg hshape]
    dsimp only
    rw [if_pos h]
    split_ifs
    · exact ⟨_, rfl⟩
    · exact ⟨_, rfl⟩

/-- At no length. -/
theorem unsealFrom_of_ne {cell : Bytes} {wire : UInt8} (h : cell[0]?.getD 0 ≠ wire) (n : ℕ) :
    ∃ e, unsealFrom crypto masterKey cell wire n = .error e := by
  induction n with
  | zero => exact ⟨_, rfl⟩
  | succ n ih =>
    rw [unsealFrom]
    split_ifs
    · exact ih
    · have hfirst : (cell.take (29 + (n + 1)))[0]?.getD 0 = cell[0]?.getD 0 := by
        rw [List.getElem?_take_of_lt (by omega)]
      obtain ⟨e, he⟩ : ∃ e, unsealInner crypto masterKey (cell.take (29 + (n + 1))) wire = .error e :=
        unsealInner_of_ne (hfirst.trans_ne h)
      rw [he]
      cases e with
      | authenticationFailed => exact ih
      | purposeMismatch => exact ⟨_, rfl⟩
      | trngError => exact ⟨_, rfl⟩
      | storageError => exact ⟨_, rfl⟩

/-- **Cells of another purpose.** A cell that does not begin with the byte of a purpose unseals for
that purpose to an error. -/
theorem unsealFor_of_ne (masterKey : Block 32) {cell : Block 93} {q : VaultKeyPurpose}
    (h : ∀ p, q.cardPurpose = some p → cell.toBytes[0]?.getD 0 ≠ purposeWireId p) :
    ∃ e, unsealFor crypto masterKey cell q = .error e := by
  rw [unsealFor]
  cases hq : q.cardPurpose with
  | none => exact ⟨_, rfl⟩
  | some p =>
    dsimp only
    rw [unsealFromStorageCell]
    split_ifs
    · exact ⟨_, rfl⟩
    · exact unsealFrom_of_ne (h p hq) 64

/-- A cell that was never written: every byte of it is the one that erasing leaves. -/
def unwritten (fill : UInt8) : Block 93 := .ofBytes 93 (List.replicate 93 fill)

theorem unsealFor_unwritten (masterKey : Block 32) {fill : UInt8} (hfill : fill ∉ [(1 : UInt8), 2, 3])
    (q : VaultKeyPurpose) : ∃ e, unsealFor crypto masterKey (unwritten fill) q = .error e := by
  refine unsealFor_of_ne masterKey fun p _ hfirst ↦ hfill ?_
  have hbyte : fill = purposeWireId p := hfirst
  rw [hbyte]
  cases p <;> decide

end SealedKeyBlob

open SealedKeyBlob

/-! ## Through the storage -/

variable {W T : Type} {pf : CardPlatform W T} {cells : W → Memory} {scalar : Bytes}

/-- The cell of a scalar: for its purpose it unseals to the scalar, and for every other to an error.
-/
structure HoldsScalar (pf : CardPlatform W T) (cell : Block 93) (purpose : VaultKeyPurpose)
    (scalar : Bytes) : Prop where
  unseals : ∃ v, unsealFor pf.crypto pf.masterKey cell purpose = .ok v ∧ v.toBytes = scalar
  refuses : ∀ q ≠ purpose, ∃ e, unsealFor pf.crypto pf.masterKey cell q = .error e

theorem holdsScalar_of_seals (haead : pf.crypto.Aead) (hpad : pf.crypto.RejectsPadding) {p : KeyPurpose}
    {nonce : Block 12} {combined : Bytes}
    (h : Seals pf.crypto pf.masterKey p scalar nonce combined) :
    HoldsScalar pf (.ofBytes 93 (blobBytes p nonce combined)) p.vaultPurpose scalar := by
  constructor
  · have hcard : p.vaultPurpose.cardPurpose = some p := cardPurpose_eq_some.mpr rfl
    refine ⟨.truncated scalar, ?_, Vec.toBytes_truncated h.length_le⟩
    rw [unsealFor, hcard]
    exact unseal_sealed haead hpad h
  · intro q hq
    refine unsealFor_of_ne pf.masterKey fun p' hp' hfirst ↦ hq ?_
    have hwire : purposeWireId p = purposeWireId p' := by
      rw [toBytes_cell h] at hfirst
      exact hfirst
    have hpurpose : p' = p := by
      revert hwire
      cases p <;> cases p' <;> decide
    rw [cardPurpose_eq_some.mp hp', hpurpose]

/-- What was written into a cell is read from it. -/
theorem read_cell (hcells : pf.keyStorage.Faithful sealedKeyRegionEnd cells) (p : KeyPurpose)
    (cell : Block 93) (w : W) :
    pf.keyStorage.read (pf.keyStorage.write (sealedOffset p) cell.toBytes w).2 (sealedOffset p)
      sealedBlobBytes = .ok cell.toBytes := by
  have hlen : cell.toBytes.length = sealedBlobBytes := cell.length_toBytes
  have hfits := (sealedOffset_le p).2
  rw [hcells.read_eq _ _ _ hfits, hcells.memory_write w _ _ (by rw [hlen]; exact hfits), ← hlen,
    Memory.window_patch]

theorem benchCrypto_acceptsScalars : benchCrypto.AcceptsScalars :=
  fun _ _ _ m _ ↦ ⟨m ++ benchTag, rfl⟩

end Galdralag.OpenPgp
