import Galdralag.OpenPgp.Backend

/-!
# Sealed private keys

Private scalars rest in the vault as sealed blobs: a purpose byte, a nonce and an authenticated
ciphertext, padded with zeros to a storage cell of fixed size. The length of the blob is not stored;
unsealing tries every length the padding allows, longest first.

The ciphers, curves and the hash come from libraries. They are gathered in `CardCrypto`, functions
of bytes about which nothing is assumed here.
-/

set_option linter.all false

namespace Galdralag.OpenPgp

/-- The cryptographic libraries of the card. Private keys are 32-byte scalars or seeds. -/
structure CardCrypto where
  sha256 : Bytes → Block 32
  /-- HKDF-SHA256 with empty salt: input key and info. -/
  hkdfSha256 : Block 32 → Bytes → Block 32
  /-- AES-256-GCM: key, nonce, associated data and message; the tag is part of the output. -/
  aesGcmEncrypt : Block 32 → Block 12 → Bytes → Bytes → Option Bytes
  aesGcmDecrypt : Block 32 → Block 12 → Bytes → Bytes → Option Bytes
  /-- Whether 32 bytes are a BrainpoolP256r1 scalar. -/
  isScalar : Block 32 → Bool
  /-- The public key of a scalar, in compressed SEC1 form. -/
  brainpoolPublic : Block 32 → Block 33
  /-- ECDSA over a digest, DER encoded. -/
  ecdsaSignPrehash : Block 32 → Block 32 → Option (Vec 72)
  /-- Whether bytes are a curve point in SEC1 form. -/
  isPoint : Bytes → Bool
  /-- The shared secret of a scalar and a curve point. -/
  brainpoolEcdh : Block 32 → Bytes → Option (Block 32)
  ed25519Public : Block 32 → Block 32
  ed25519Sign : Block 32 → Bytes → Block 64
  x25519Public : Block 32 → Block 32
  x25519Ecdh : Block 32 → Block 32 → Block 32

/-- Laws of the cipher: a ciphertext decrypts to what was encrypted, and is 16 bytes longer. -/
structure CardCrypto.Aead (crypto : CardCrypto) : Prop where
  decrypt_encrypt : ∀ {k n aad m c}, crypto.aesGcmEncrypt k n aad m = some c →
    crypto.aesGcmDecrypt k n aad c = some m
  length_decrypt : ∀ {k n aad m c}, crypto.aesGcmDecrypt k n aad c = some m →
    c.length = m.length + 16

/-- No ciphertext decrypts after zeros were appended to it. -/
def CardCrypto.RejectsPadding (crypto : CardCrypto) : Prop :=
  ∀ {k n aad m c}, crypto.aesGcmEncrypt k n aad m = some c → ∀ z > 0,
    crypto.aesGcmDecrypt k n aad (c ++ List.replicate z 0) = none

/-! ## Layout -/

/-- Bytes reserved for one sealed key. -/
def sealedBlobBytes : ℕ := 93

/-- Start of the public-key table, and the bytes reserved for it. -/
def publicKeyRegionBase : ℕ := 256

def publicKeyTableBytes : ℕ := 64 * 1024

/-- The cell of each private key, one after the other behind the public-key table. -/
def sealedOffset : KeyPurpose → ℕ
  | .openPgpSig => publicKeyRegionBase + publicKeyTableBytes
  | .openPgpDec => publicKeyRegionBase + publicKeyTableBytes + sealedBlobBytes
  | .openPgpAut => publicKeyRegionBase + publicKeyTableBytes + 2 * sealedBlobBytes

/-- Byte past the last sealed key. -/
def sealedKeyRegionEnd : ℕ := sealedOffset .openPgpAut + sealedBlobBytes

/-! ## Blobs -/

/-- Errors of sealing and unsealing. -/
inductive SealedKeyError where
  | authenticationFailed
  | purposeMismatch
  | trngError
  | storageError
  deriving DecidableEq, Repr

/-- `galdralag/sealed-key/wrap/v1`. -/
def wrapInfoPrefix : Bytes :=
  [0x67, 0x61, 0x6C, 0x64, 0x72, 0x61, 0x6C, 0x61, 0x67, 0x2F, 0x73, 0x65, 0x61, 0x6C, 0x65, 0x64,
    0x2D, 0x6B, 0x65, 0x79, 0x2F, 0x77, 0x72, 0x61, 0x70, 0x2F, 0x76, 0x31]

/-- The purpose byte of a blob. -/
def purposeWireId : KeyPurpose → UInt8
  | .openPgpSig => 1
  | .openPgpDec => 2
  | .openPgpAut => 3

namespace SealedKeyBlob

variable {T : Type} (trng : HardwareTrng T) (crypto : CardCrypto) (masterKey : Block 32)

/-- The wrapping key of a purpose. -/
def deriveWrappingKey (purposeByte : UInt8) : Block 32 :=
  crypto.hkdfSha256 masterKey (wrapInfoPrefix ++ [purposeByte])

/-- Seal a private scalar under the master key. -/
def sealScalar (purpose : KeyPurpose) (scalar : Bytes) : Fallible T SealedKeyError (Vec 93) := do
  .require (scalar ≠ [] ∧ scalar.length ≤ 64) .storageError
  let purposeByte := purposeWireId purpose
  let nonce ← .mapError (fun _ ↦ .trngError) (trng.tryFillBytes 12)
  let aad := purposeByte :: nonce.toBytes
  let wrappingKey := deriveWrappingKey crypto masterKey purposeByte
  let combined ← .lift ((crypto.aesGcmEncrypt wrappingKey nonce aad scalar).elim
    (.error .storageError) .ok)
  .require (combined.length = scalar.length + 16) .storageError
  .lift ((Vec.ofBytes? (purposeByte :: nonce.toBytes ++ combined)).elim (.error .storageError) .ok)

/-- Open a blob: 29 to 93 bytes, not all zero, with the expected purpose byte. -/
def unsealInner (raw : Bytes) (expectedWire : UInt8) : Except SealedKeyError (Vec 64) :=
  if ¬ (29 ≤ raw.length ∧ raw.length ≤ 93) ∨ raw.all (· = 0) then .error .authenticationFailed
  else
    let purposeByte := raw[0]?.getD 0
    if purposeByte ≠ expectedWire then
      if 1 ≤ purposeByte ∧ purposeByte ≤ 3 then .error .purposeMismatch
      else .error .authenticationFailed
    else
      let nonce : Block 12 := .ofBytes 12 ((raw.drop 1).take 12)
      let combined := raw.drop 13
      if combined.length < 17 then .error .authenticationFailed
      else
        match crypto.aesGcmDecrypt (deriveWrappingKey crypto masterKey purposeByte) nonce
            (purposeByte :: nonce.toBytes) combined with
        | none => .error .authenticationFailed
        | some pt => (Vec.ofBytes? pt).elim (.error .storageError) .ok

/-- Try scalar lengths from `n` down to 1. -/
def unsealFrom (cell : Bytes) (expectedWire : UInt8) : ℕ → Except SealedKeyError (Vec 64)
  | 0 => .error .authenticationFailed
  | n + 1 =>
    let len := 29 + (n + 1)
    if len > sealedBlobBytes ∨ (cell.drop len).any (· ≠ 0) then unsealFrom cell expectedWire n
    else
      match unsealInner crypto masterKey (cell.take len) expectedWire with
      | .error .authenticationFailed => unsealFrom cell expectedWire n
      | r => r

/-- Unseal a storage cell, which may be zero-padded behind the blob. -/
def unsealFromStorageCell (cell : Block 93) (purpose : KeyPurpose) :
    Except SealedKeyError (Vec 64) :=
  if cell.toBytes.all (· = 0) then .error .authenticationFailed
  else unsealFrom crypto masterKey cell.toBytes (purposeWireId purpose) 64

/-- A cell of zeros holds no key. -/
theorem unsealFromStorageCell_zero (purpose : KeyPurpose) :
    unsealFromStorageCell crypto masterKey (.zero 93) purpose = .error .authenticationFailed := by
  have hzero : (Block.zero 93).toBytes.all (· = 0) = true := by decide
  rw [unsealFromStorageCell, if_pos hzero]

/-! ## Round trip -/

/-- A nonce and a ciphertext that seal a scalar for a purpose. -/
structure Seals (purpose : KeyPurpose) (scalar : Bytes) (nonce : Block 12) (combined : Bytes) :
    Prop where
  nonempty : 0 < scalar.length
  length_le : scalar.length ≤ 64
  length_combined : combined.length = scalar.length + 16
  encrypted : crypto.aesGcmEncrypt (deriveWrappingKey crypto masterKey (purposeWireId purpose)) nonce
    (purposeWireId purpose :: nonce.toBytes) scalar = some combined

/-- The bytes of a blob. -/
def blobBytes (purpose : KeyPurpose) (nonce : Block 12) (combined : Bytes) : Bytes :=
  purposeWireId purpose :: nonce.toBytes ++ combined

section RoundTrip

variable {trng crypto masterKey} {purpose : KeyPurpose} {scalar combined : Bytes} {nonce : Block 12}

theorem length_blobBytes (purpose : KeyPurpose) (nonce : Block 12) (combined : Bytes) :
    (blobBytes purpose nonce combined).length = 13 + combined.length := by
  have hnonce := nonce.length_toBytes
  rw [blobBytes, List.cons_append, List.length_cons, List.length_append, hnonce]
  omega

/-- What sealing returns. -/
theorem sealScalar_eq_ok {t t' : T} {blob : Vec 93}
    (h : sealScalar trng crypto masterKey purpose scalar t = (.ok blob, t')) :
    ∃ nonce combined, Seals crypto masterKey purpose scalar nonce combined ∧
      blob.toBytes = blobBytes purpose nonce combined := by
  obtain ⟨_, t₁, hlen, h⟩ := Fallible.bind_eq_ok.mp h
  obtain ⟨⟨hne, hle⟩, rfl⟩ := Fallible.require_eq_ok.mp hlen
  obtain ⟨nonce, t₂, -, h⟩ := Fallible.bind_eq_ok.mp h
  obtain ⟨combined, t₃, henc, h⟩ := Fallible.bind_eq_ok.mp h
  obtain ⟨_, t₄, hcomb, h⟩ := Fallible.bind_eq_ok.mp h
  obtain ⟨hlast, rfl⟩ := Fallible.require_eq_ok.mp hcomb
  rw [Fallible.lift_apply] at henc h
  refine ⟨nonce, combined, ⟨List.length_pos_iff.mpr hne, hle, hlast, ?_⟩, ?_⟩
  · have henc := (Prod.mk.inj henc).1
    cases hc : crypto.aesGcmEncrypt (deriveWrappingKey crypto masterKey (purposeWireId purpose)) nonce
        (purposeWireId purpose :: nonce.toBytes) scalar with
    | none =>
      rw [hc] at henc
      cases henc
    | some c =>
      rw [hc] at henc
      exact congrArg some (Except.ok.inj henc)
  · have hblob := (Prod.mk.inj h).1
    cases hb : (Vec.ofBytes? (purposeWireId purpose :: nonce.toBytes ++ combined) : Option (Vec 93)) with
    | none =>
      rw [hb] at hblob
      cases hblob
    | some v =>
      rw [hb] at hblob
      rw [← Except.ok.inj hblob]
      exact Vec.toBytes_of_ofBytes? hb

/-- Opening bytes of the form of a blob. -/
theorem unsealInner_blobBytes (crypto : CardCrypto) (masterKey : Block 32) (purpose : KeyPurpose)
    (nonce : Block 12) {combined : Bytes} (hlo : 17 ≤ combined.length)
    (hhi : combined.length ≤ 80) :
    unsealInner crypto masterKey (blobBytes purpose nonce combined) (purposeWireId purpose)
      = (crypto.aesGcmDecrypt (deriveWrappingKey crypto masterKey (purposeWireId purpose)) nonce
          (purposeWireId purpose :: nonce.toBytes) combined).elim (.error .authenticationFailed)
        fun pt ↦ (Vec.ofBytes? pt).elim (.error .storageError) .ok := by
  have hlen := length_blobBytes purpose nonce combined
  have hnonce := nonce.length_toBytes
  have hfirst : (blobBytes purpose nonce combined)[0]?.getD 0 = purposeWireId purpose := rfl
  have htail : (blobBytes purpose nonce combined).drop 1 = nonce.toBytes ++ combined := rfl
  have hbody : (blobBytes purpose nonce combined).drop 13 = combined := by
    rw [show 13 = 1 + 12 from rfl, ← List.drop_drop, htail, List.drop_left' hnonce]
  have hnz : ¬ (blobBytes purpose nonce combined).all (· = 0) = true := by
    rw [blobBytes, List.cons_append, List.all_cons]
    cases purpose <;> exact Bool.false_ne_true
  rw [unsealInner, if_neg (by rw [hlen]; exact fun h ↦ h.elim (by omega) hnz)]
  dsimp only
  rw [hfirst, if_neg fun h ↦ h rfl, hbody, if_neg (by omega), htail, List.take_left' hnonce,
    Block.ofBytes_toBytes]
  cases crypto.aesGcmDecrypt _ nonce _ combined <;> rfl

/-- A cell with a blob. -/
theorem toBytes_cell (h : Seals crypto masterKey purpose scalar nonce combined) :
    (Block.ofBytes 93 (blobBytes purpose nonce combined)).toBytes
      = blobBytes purpose nonce combined ++ List.replicate (64 - scalar.length) 0 := by
  have hlen := length_blobBytes purpose nonce combined
  have hle := h.length_le
  rw [h.length_combined] at hlen
  change (blobBytes purpose nonce combined).take 93 ++ List.replicate (93 - _) 0 = _
  rw [List.take_of_length_le (by omega), hlen]
  congr 2
  omega

/-- One try at a length that is not too short: the ciphertext with the padding that belongs to it.
-/
theorem unsealFrom_cell (h : Seals crypto masterKey purpose scalar nonce combined) {n : ℕ}
    (hlo : scalar.length ≤ n + 1) (hhi : n + 1 ≤ 64) :
    unsealFrom crypto masterKey (blobBytes purpose nonce combined ++
        List.replicate (64 - scalar.length) 0) (purposeWireId purpose) (n + 1)
      = (crypto.aesGcmDecrypt (deriveWrappingKey crypto masterKey (purposeWireId purpose)) nonce
          (purposeWireId purpose :: nonce.toBytes)
          (combined ++ List.replicate (n + 1 - scalar.length) 0)).elim
        (unsealFrom crypto masterKey (blobBytes purpose nonce combined ++
          List.replicate (64 - scalar.length) 0) (purposeWireId purpose) n)
        fun pt ↦ (Vec.ofBytes? pt).elim (.error .storageError) .ok := by
  have hlen := length_blobBytes purpose nonce combined
  have hcomb := h.length_combined
  have hpos := h.nonempty
  set cell := blobBytes purpose nonce combined ++ List.replicate (64 - scalar.length) 0 with hcell
  have hsplit : cell = blobBytes purpose nonce (combined ++
      List.replicate (n + 1 - scalar.length) 0) ++ List.replicate (64 - (n + 1)) 0 := by
    rw [hcell, blobBytes, blobBytes, List.append_assoc, List.append_assoc, List.append_assoc,
      List.replicate_append_replicate]
    congr 4
    omega
  have hlen' : (blobBytes purpose nonce (combined ++
      List.replicate (n + 1 - scalar.length) 0)).length = 29 + (n + 1) := by
    rw [length_blobBytes, List.length_append, List.length_replicate]
    omega
  have htake : cell.take (29 + (n + 1)) = blobBytes purpose nonce (combined ++
      List.replicate (n + 1 - scalar.length) 0) := by
    rw [hsplit, List.take_left' hlen']
  have hdrop : (cell.drop (29 + (n + 1))).any (· ≠ 0) = false := by
    rw [hsplit, List.drop_left' hlen', List.any_eq_false]
    intro x hx
    rw [List.eq_of_mem_replicate hx]
    exact Bool.false_ne_true
  have hinner := unsealInner_blobBytes crypto masterKey purpose nonce
    (show 17 ≤ (combined ++ List.replicate (n + 1 - scalar.length) 0).length by
      rw [List.length_append, List.length_replicate]; omega)
    (by rw [List.length_append, List.length_replicate]; omega)
  rw [unsealFrom]
  rw [if_neg (by rw [hdrop, sealedBlobBytes]; exact fun h ↦ h.elim (by omega) Bool.false_ne_true),
    htake, hinner]
  rcases crypto.aesGcmDecrypt _ nonce _ _ with _ | pt
  · rfl
  · dsimp only [Option.elim]
    cases (Vec.ofBytes? pt : Option (Vec 64)) <;> rfl

/-- The cell of a blob is not empty. -/
theorem unsealFromStorageCell_cell (h : Seals crypto masterKey purpose scalar nonce combined) :
    unsealFromStorageCell crypto masterKey (.ofBytes 93 (blobBytes purpose nonce combined)) purpose
      = unsealFrom crypto masterKey (blobBytes purpose nonce combined ++
          List.replicate (64 - scalar.length) 0) (purposeWireId purpose) 64 := by
  have hnz : ¬ (blobBytes purpose nonce combined ++
      List.replicate (64 - scalar.length) 0).all (· = 0) = true := by
    rw [blobBytes, List.cons_append, List.cons_append, List.all_cons]
    cases purpose <;> exact Bool.false_ne_true
  rw [unsealFromStorageCell, toBytes_cell h, if_neg hnz]

variable (haead : crypto.Aead)
include haead

/-- The try at the true length. -/
theorem unsealFrom_exact (h : Seals crypto masterKey purpose scalar nonce combined) :
    unsealFrom crypto masterKey (blobBytes purpose nonce combined ++
      List.replicate (64 - scalar.length) 0) (purposeWireId purpose) scalar.length
      = .ok (.truncated scalar) := by
  obtain ⟨n, hn⟩ := Nat.exists_eq_succ_of_ne_zero (Nat.ne_of_gt h.nonempty)
  have hle := h.length_le
  have hstep := unsealFrom_cell h (n := n) (by omega) (by omega)
  rw [← Nat.succ_eq_add_one, ← hn, Nat.sub_self, List.replicate_zero, List.append_nil,
    haead.decrypt_encrypt h.encrypted] at hstep
  rw [hstep]
  change (Vec.ofBytes? scalar : Option (Vec 64)).elim _ _ = _
  rw [Vec.ofBytes?_of_le hle]
  rfl

/-- A cell never unseals to other bytes of the length that was sealed. -/
theorem unsealed_eq_of_sealed (h : Seals crypto masterKey purpose scalar nonce combined) {v : Vec 64}
    (hv : unsealFromStorageCell crypto masterKey (.ofBytes 93 (blobBytes purpose nonce combined))
      purpose = .ok v) (hlen : v.length = scalar.length) : v.toBytes = scalar := by
  rw [unsealFromStorageCell_cell h] at hv
  have hall : ∀ k, scalar.length + k ≤ 64 → unsealFrom crypto masterKey
      (blobBytes purpose nonce combined ++ List.replicate (64 - scalar.length) 0)
      (purposeWireId purpose) (scalar.length + k) = .ok v → v.toBytes = scalar := by
    intro k
    induction k with
    | zero =>
      intro _ hk
      rw [Nat.add_zero, unsealFrom_exact haead h] at hk
      rw [← Except.ok.inj hk, Vec.toBytes_truncated h.length_le]
    | succ k ih =>
      intro hle hk
      rw [← Nat.add_assoc, unsealFrom_cell h (by omega) (by omega)] at hk
      cases hdec : crypto.aesGcmDecrypt (deriveWrappingKey crypto masterKey (purposeWireId purpose))
          nonce (purposeWireId purpose :: nonce.toBytes)
          (combined ++ List.replicate (scalar.length + k + 1 - scalar.length) 0) with
      | none =>
        rw [hdec] at hk
        exact ih (by omega) hk
      | some pt =>
        -- a longer plaintext would have the wrong length
        have hpt := haead.length_decrypt hdec
        have hcomb := h.length_combined
        rw [List.length_append, List.length_replicate] at hpt
        rw [hdec] at hk
        cases hvec : (Vec.ofBytes? pt : Option (Vec 64)) with
        | none =>
          rw [Option.elim, hvec] at hk
          cases hk
        | some u =>
          rw [Option.elim, hvec] at hk
          have hu := Vec.toBytes_of_ofBytes? hvec
          rw [← Except.ok.inj hk, Vec.length, hu] at hlen
          omega
  have hle := h.length_le
  refine hall (64 - scalar.length) (by omega) ?_
  rw [Nat.add_sub_cancel' hle]
  exact hv

/-- **Sealing and unsealing.** Where padding is rejected, a cell unseals to what was sealed. -/
theorem unseal_sealed (hpad : crypto.RejectsPadding)
    (h : Seals crypto masterKey purpose scalar nonce combined) :
    unsealFromStorageCell crypto masterKey (.ofBytes 93 (blobBytes purpose nonce combined)) purpose
      = .ok (.truncated scalar) := by
  rw [unsealFromStorageCell_cell h]
  have hall : ∀ k, scalar.length + k ≤ 64 → unsealFrom crypto masterKey
      (blobBytes purpose nonce combined ++ List.replicate (64 - scalar.length) 0)
      (purposeWireId purpose) (scalar.length + k) = .ok (.truncated scalar) := by
    intro k
    induction k with
    | zero => exact fun _ ↦ unsealFrom_exact haead h
    | succ k ih =>
      intro hle
      rw [← Nat.add_assoc, unsealFrom_cell h (by omega) (by omega),
        hpad h.encrypted _ (by omega)]
      exact ih (by omega)
  have hle := h.length_le
  have hlast := hall (64 - scalar.length) (by omega)
  rwa [Nat.add_sub_cancel' hle] at hlast

end RoundTrip

end SealedKeyBlob

end Galdralag.OpenPgp
