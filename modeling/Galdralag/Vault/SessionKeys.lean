import Galdralag.Vault.KeySlots

/-!
# Signing keys of sessions

The long-term signing key of a session lies in a numbered slot, as a magic, the number of its curve,
the length of its scalar and the scalar. A key is loaded for an expected curve.
-/

set_option linter.all false

namespace Galdralag.Vault

/-- A long-term signing key, on one of two curves. -/
inductive SessionLongTermSigningKey (κ₂ κ₃ : Type) where
  | p256 (key : κ₂)
  | p384 (key : κ₃)

/-- The two libraries of signing keys: the scalar of a key, and the key of a scalar in range. -/
structure SessionKeyLibrary (κ₂ κ₃ : Type) where
  p256Bytes : κ₂ → Block 32
  p256OfBytes : Block 32 → Option κ₂
  p384Bytes : κ₃ → Block 48
  p384OfBytes : Block 48 → Option κ₃

inductive SessionLongTermSigningVaultError where
  | slotOccupied
  | slotEmpty
  | invalidEncoding
  | storageError
  | invalidScalar
  deriving DecidableEq, Repr

/-- `GLTS`. -/
def sessionLtMagic : Bytes := [0x47, 0x4C, 0x54, 0x53]

/-- The start of a slot; sum and product stop at the largest 64-bit number. -/
def KeySlot.sessionOffset (slot : KeySlot) : ℕ :=
  min (sessionLtRegionBase + min (slot.index.toNat * sessionLtSlotBytes) (2 ^ 64 - 1)) (2 ^ 64 - 1)

section SessionKeys

variable {W κ₂ κ₃ : Type} (storage : VaultStorage W) (lib : SessionKeyLibrary κ₂ κ₃)

/-- The wire number of the curve of a key. -/
def SessionLongTermSigningKey.curveId : SessionLongTermSigningKey κ₂ κ₃ → UInt8
  | .p256 _ => 1
  | .p384 _ => 2

/-- The scalar of a key, in the length of its curve. -/
def SessionLongTermSigningKey.scalar : SessionLongTermSigningKey κ₂ κ₃ → Bytes
  | .p256 key => (lib.p256Bytes key).toBytes
  | .p384 key => (lib.p384Bytes key).toBytes

/-- Store a signing key. -/
def vaultStoreSessionLongTermSigningKey (slot : KeySlot) (key : SessionLongTermSigningKey κ₂ κ₃)
    (overwrite : Bool) : Fallible W SessionLongTermSigningVaultError PUnit := do
  let off := slot.sessionOffset
  let probe ← .orElse (.reading fun w ↦ storage.read w off 4) .storageError
  .require (probe ≠ sessionLtMagic ∨ overwrite = true) .slotOccupied
  let scalar := key.scalar lib
  let buf := sessionLtMagic ++ [key.curveId, .ofNat scalar.length] ++ scalar
  .orElse (storage.write off (buf ++ List.replicate (sessionLtSlotBytes - buf.length) 0))
    .storageError

/-- The signing key of a curve from its scalar of `slen` bytes. -/
def keyOfScalar (curveId : UInt8) (slen : ℕ) (scalar : Bytes) :
    Except SessionLongTermSigningVaultError (SessionLongTermSigningKey κ₂ κ₃) :=
  if curveId = 1 then do
    let _ ← ensure (slen = 32) .invalidEncoding
    match lib.p256OfBytes (.ofBytes 32 scalar) with
    | some key => pure (.p256 key)
    | none => .error .invalidScalar
  else if curveId = 2 then do
    let _ ← ensure (slen = 48) .invalidEncoding
    match lib.p384OfBytes (.ofBytes 48 scalar) with
    | some key => pure (.p384 key)
    | none => .error .invalidScalar
  else .error .invalidEncoding

/-- The signing key for an expected curve in the bytes of a slot. -/
def decodeSessionKey (expectedCurve : UInt8) (buf : Bytes) :
    Except SessionLongTermSigningVaultError (SessionLongTermSigningKey κ₂ κ₃) := do
  let _ ← ensure (buf.take 4 = sessionLtMagic) .slotEmpty
  let curveId := buf.getD 4 0
  let _ ← ensure (curveId = expectedCurve) .invalidEncoding
  let slen := (buf.getD 5 0).toNat
  let _ ← ensure (slen ≠ 0 ∧ slen ≤ 64 ∧ 6 + slen ≤ sessionLtSlotBytes) .invalidEncoding
  keyOfScalar lib curveId slen ((buf.drop 6).take slen)

/-- Load the signing key of a slot. -/
def vaultLoadSessionLongTermSigningKey (slot : KeySlot) (expectedCurve : UInt8) :
    Fallible W SessionLongTermSigningVaultError (SessionLongTermSigningKey κ₂ κ₃) := do
  let buf ← .orElse (.reading fun w ↦ storage.read w slot.sessionOffset sessionLtSlotBytes)
    .storageError
  .lift (decodeSessionKey lib expectedCurve buf)

end SessionKeys

/-! ## Encoding -/

theorem KeySlot.sessionOffset_eq (slot : KeySlot) :
    slot.sessionOffset = 1048576 + slot.index.toNat * 512 := by
  have hlt := slot.index.toNat_lt
  rw [sessionOffset, sessionLtRegionBase, sessionLtSlotBytes]
  omega

variable {κ₂ κ₃ : Type} {lib : SessionKeyLibrary κ₂ κ₃}

/-- A key is read back from its scalar. -/
structure SessionKeyLibrary.Faithful (lib : SessionKeyLibrary κ₂ κ₃) : Prop where
  p256 : ∀ key, lib.p256OfBytes (lib.p256Bytes key) = some key
  p384 : ∀ key, lib.p384OfBytes (lib.p384Bytes key) = some key

/-- What a slot with a key holds. -/
def sessionKeyCell (lib : SessionKeyLibrary κ₂ κ₃) (key : SessionLongTermSigningKey κ₂ κ₃) : Bytes :=
  let scalar := key.scalar lib
  let buf := sessionLtMagic ++ [key.curveId, .ofNat scalar.length] ++ scalar
  buf ++ List.replicate (sessionLtSlotBytes - buf.length) 0

theorem length_scalar (key : SessionLongTermSigningKey κ₂ κ₃) :
    (key.scalar lib).length = 32 ∨ (key.scalar lib).length = 48 := by
  cases key with
  | p256 key => exact .inl (Block.length_toBytes _)
  | p384 key => exact .inr (Block.length_toBytes _)

theorem length_sessionKeyCell (key : SessionLongTermSigningKey κ₂ κ₃) :
    (sessionKeyCell lib key).length = sessionLtSlotBytes := by
  refine length_padded ?_
  rw [List.length_append]
  have hscalar : (key.scalar lib).length = 32 ∨ (key.scalar lib).length = 48 := length_scalar key
  rcases hscalar with h | h
  · rw [h]
    exact (by decide : 6 + 32 ≤ 512)
  · rw [h]
    exact (by decide : 6 + 48 ≤ 512)

theorem keyOfScalar_scalar (h : lib.Faithful) (key : SessionLongTermSigningKey κ₂ κ₃) :
    keyOfScalar lib key.curveId (key.scalar lib).length (key.scalar lib) = .ok key := by
  cases key with
  | p256 key =>
    have hlen : ((lib.p256Bytes key).toBytes).length = 32 := Block.length_toBytes _
    rw [SessionLongTermSigningKey.scalar, hlen, keyOfScalar, Block.ofBytes_toBytes, h.p256]
    rfl
  | p384 key =>
    have hlen : ((lib.p384Bytes key).toBytes).length = 48 := Block.length_toBytes _
    rw [SessionLongTermSigningKey.scalar, hlen, keyOfScalar, Block.ofBytes_toBytes, h.p384]
    rfl

/-- **A key is found under its curve** and under no other. -/
theorem decodeSessionKey_cell (h : lib.Faithful) (key : SessionLongTermSigningKey κ₂ κ₃)
    (c : UInt8) : decodeSessionKey lib c (sessionKeyCell lib key)
      = if key.curveId = c then .ok key else .error .invalidEncoding := by
  have hrange : (key.scalar lib).length = 32 ∨ (key.scalar lib).length = 48 := length_scalar key
  have htake : (sessionKeyCell lib key).take 4 = sessionLtMagic := rfl
  have hcurve : (sessionKeyCell lib key).getD 4 0 = key.curveId := rfl
  have hslen : ((sessionKeyCell lib key).getD 5 0).toNat = (key.scalar lib).length := by
    change (UInt8.ofNat (key.scalar lib).length).toNat = _
    rw [UInt8.toNat_ofNat']
    omega
  have hscalar : ((sessionKeyCell lib key).drop 6).take (key.scalar lib).length = key.scalar lib :=
    List.take_left
  rw [decodeSessionKey, ensure, if_pos htake, ok_bind, hcurve]
  dsimp only
  by_cases hc : key.curveId = c
  · have hfits : (key.scalar lib).length ≠ 0 ∧ (key.scalar lib).length ≤ 64 ∧
        6 + (key.scalar lib).length ≤ sessionLtSlotBytes := by
      rw [sessionLtSlotBytes]
      omega
    rw [ensure, if_pos hc, if_pos hc, ok_bind, hslen, hscalar, ensure, if_pos hfits]
    exact keyOfScalar_scalar h key
  · rw [ensure, if_neg hc, if_neg hc]
    rfl

end Galdralag.Vault
