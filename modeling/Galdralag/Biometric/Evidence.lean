import Galdralag.Foundation.Bytes
import Galdralag.Foundation.Fallible

/-!
# How long biometric evidence counts

A biometric device signs the result of a match, and the host forwards a PIN only with a result that
it has validated. A session token binds the match to the PIN for the token firmware. Both carry the
time they were made, and both are refused when they are older than a maximal age.

The age is a saturating difference of unsigned times: evidence that is dated ahead of the clock has
age zero. So evidence that is accepted at all is accepted at every time up to its date and the
maximal age behind it, and the accepted times form an interval that starts at the date only if the
date is the start of time (`evidence_expires_iff`).
-/

set_option linter.all false

namespace Galdralag.Biometric

/-! ## Times -/

/-- 64-bit subtraction that stops at zero. -/
def saturatingSub64 (a b : UInt64) : UInt64 := if b ≤ a then a - b else 0

theorem toNat_saturatingSub64 (a b : UInt64) :
    (saturatingSub64 a b).toNat = a.toNat - b.toNat := by
  rw [saturatingSub64]
  split_ifs with h
  · exact UInt64.toNat_sub_of_le _ _ h
  · have hlt : a.toNat < b.toNat := UInt64.lt_iff_toNat_lt.mp (UInt64.not_le.mp h)
    rw [UInt64.toNat_zero]
    omega

/-- **Expiry.** Something is accepted at no time before its date and at none that is further behind
the date than the maximal age. -/
def Expires (timestamp maxAgeSecs : UInt64) (accepted : UInt64 → Prop) : Prop :=
  ∀ now, accepted now → timestamp ≤ now ∧ now.toNat ≤ timestamp.toNat + maxAgeSecs.toNat

section Expiry

variable {timestamp maxAgeSecs : UInt64} {accepted : UInt64 → Prop} {genuine : Prop}

/-- What is accepted while it is not too old is accepted at every earlier time. -/
theorem accepted_earlier
    (h : ∀ now, accepted now ↔ saturatingSub64 now timestamp ≤ maxAgeSecs ∧ genuine)
    {now now' : UInt64} (hnow : accepted now) (hle : now' ≤ now) : accepted now' := by
  obtain ⟨hage, hgenuine⟩ := (h now).mp hnow
  refine (h now').mpr ⟨?_, hgenuine⟩
  rw [UInt64.le_iff_toNat_le, toNat_saturatingSub64] at hage ⊢
  rw [UInt64.le_iff_toNat_le] at hle
  omega

/-- What is accepted while it is not too old expires only if there is no time before its date. -/
theorem expires_iff
    (h : ∀ now, accepted now ↔ saturatingSub64 now timestamp ≤ maxAgeSecs ∧ genuine) :
    Expires timestamp maxAgeSecs accepted ↔ timestamp = 0 ∨ ¬ genuine := by
  constructor
  · intro hexpires
    by_cases hgenuine : genuine
    · -- at its own date it is not too old, and then not at the start of time either
      have hdate : accepted timestamp := by
        refine (h timestamp).mpr ⟨?_, hgenuine⟩
        rw [UInt64.le_iff_toNat_le, toNat_saturatingSub64, Nat.sub_self]
        exact Nat.zero_le _
      have hstart := (hexpires 0 (accepted_earlier h hdate UInt64.zero_le)).1
      exact .inl (UInt64.le_zero_iff.mp hstart)
    · exact .inr hgenuine
  · rintro hor now hnow
    obtain ⟨hage, hgenuine⟩ := (h now).mp hnow
    rcases hor with rfl | hnot
    · rw [UInt64.le_iff_toNat_le, toNat_saturatingSub64, UInt64.toNat_zero] at hage
      rw [UInt64.toNat_zero]
      exact ⟨UInt64.zero_le, by omega⟩
    · exact absurd hgenuine hnot

end Expiry

/-! ## Signed match results -/

/-- Wire format major version of match payloads. -/
def matchPayloadVersion : UInt8 := 1

/-- Backend identifier. -/
inductive BiometricBackend where
  | fingerVein
  | sweetPlatform
  deriving DecidableEq, Repr

/-- Sampled modality. -/
inductive Modality where
  | fingerVein
  | palmVein
  | palmprint
  deriving DecidableEq, Repr

/-- A single-precision number, by its bits. -/
structure F32 where
  bits : UInt32
  deriving DecidableEq, Repr

namespace F32

/-- The bits below the sign. -/
def magnitude (x : F32) : ℕ := x.bits.toNat % 2 ^ 31

/-- All bits of the exponent are set, and some of the mantissa. -/
def isNan (x : F32) : Bool := 0x7f800000 < x.magnitude

/-- The place of a number in the order of numbers. Both zeros have the same. -/
def rank (x : F32) : ℤ := if x.bits.toNat < 2 ^ 31 then x.magnitude else -x.magnitude

/-- The comparison `x < y`, which is false where one of the two is not a number. -/
def lt (x y : F32) : Bool := !x.isNan && !y.isNan && x.rank < y.rank

end F32

/-- Signed payload. -/
structure MatchPayload where
  version : UInt8
  deviceId : Block 16
  backend : BiometricBackend
  nonce : Block 32
  timestamp : UInt64
  matched : Bool
  score : F32
  threshold : F32
  liveness : Bool
  modalities : List Modality

/-- Outer signed structure returned by a biometric device. -/
structure SignedMatchResult where
  payload : MatchPayload
  signature : Block 64

inductive BiometricError where
  | livenessCheckFailed
  | matchFailed
  | signatureInvalid
  | nonceMismatch
  /-- Timestamp outside allowed window. -/
  | timestampExpired
  | cborError
  deriving DecidableEq, Repr

/-- The encoder of payloads and the signature scheme, which other crates provide. -/
structure MatchScheme (VerifyingKey : Type) where
  Signature : Type
  cborToVec : MatchPayload → Option Bytes
  signatureFromSlice : Bytes → Option Signature
  verify : VerifyingKey → Bytes → Signature → Bool

section Results

variable {VerifyingKey : Type} (S : MatchScheme VerifyingKey)

/-- Serialises a payload to CBOR bytes (the octet string signed by the device). -/
def matchPayloadCborBytes (payload : MatchPayload) : Except BiometricError Bytes :=
  (S.cborToVec payload).elim (.error .cborError) .ok

/-- Verifies the signature over the CBOR encoding of the payload. -/
def verifyMatchPayloadSignature (payload : MatchPayload) (signature : Block 64)
    (verifyingKey : VerifyingKey) : Except BiometricError Unit := do
  let msg ← matchPayloadCborBytes S payload
  let sig ← (S.signatureFromSlice signature.toBytes).elim (.error .signatureInvalid) .ok
  ensure (S.verify verifyingKey msg sig = true) .signatureInvalid

/-- Host-side checks before treating a biometric event as gating a PIN forward. -/
def galdradValidateMatchResult (result : SignedMatchResult) (verifyingKey : VerifyingKey)
    (expectedNonce : Block 32) (nowSecs maxAgeSecs : UInt64) : Except BiometricError Unit := do
  let _ ← verifyMatchPayloadSignature S result.payload result.signature verifyingKey
  let _ ← ensure (result.payload.version = matchPayloadVersion) .cborError
  let _ ← ensure (result.payload.nonce = expectedNonce) .nonceMismatch
  let _ ← ensure (saturatingSub64 nowSecs result.payload.timestamp ≤ maxAgeSecs) .timestampExpired
  let _ ← ensure (result.payload.liveness = true) .livenessCheckFailed
  let _ ← ensure (result.payload.matched = true) .matchFailed
  ensure (result.payload.score.lt result.payload.threshold = false) .matchFailed

/-- All checks of a result but that of its age. -/
structure Genuine (result : SignedMatchResult) (verifyingKey : VerifyingKey)
    (expectedNonce : Block 32) : Prop where
  signature :
    verifyMatchPayloadSignature S result.payload result.signature verifyingKey = .ok ()
  version : result.payload.version = matchPayloadVersion
  nonce : result.payload.nonce = expectedNonce
  liveness : result.payload.liveness = true
  matched : result.payload.matched = true
  score : result.payload.score.lt result.payload.threshold = false

variable {S}

/-- A result is accepted while it is not too old, if it passes the other checks. -/
theorem galdradValidateMatchResult_eq_ok {result : SignedMatchResult} {verifyingKey : VerifyingKey}
    {expectedNonce : Block 32} {nowSecs maxAgeSecs : UInt64} :
    galdradValidateMatchResult S result verifyingKey expectedNonce nowSecs maxAgeSecs = .ok () ↔
      saturatingSub64 nowSecs result.payload.timestamp ≤ maxAgeSecs ∧
        Genuine S result verifyingKey expectedNonce := by
  rw [galdradValidateMatchResult, check_bind_eq_ok]
  simp only [ensure_bind_eq_ok, ensure_eq_ok]
  constructor
  · rintro ⟨hsignature, hversion, hnonce, hage, hliveness, hmatched, hscore⟩
    exact ⟨hage, hsignature, hversion, hnonce, hliveness, hmatched, hscore⟩
  · rintro ⟨hage, h⟩
    exact ⟨h.signature, h.version, h.nonce, hage, h.liveness, h.matched, h.score⟩

end Results

/-! ## Session tokens -/

inductive VaultError where
  | tokenMismatch
  | timeWindow
  deriving DecidableEq, Repr

section Tokens

variable (hmacSha256 : Bytes → Bytes → Block 32)

/-- The authenticator of `nonce ‖ device_id ‖ timestamp_be`. -/
def generateSessionToken (hmacKey nonce : Block 32) (deviceId : Block 16) (timestamp : UInt64) :
    Block 32 :=
  hmacSha256 hmacKey.toBytes (nonce.toBytes ++ deviceId.toBytes ++ u64be timestamp)

/-- Verify a session token. -/
def verifySessionToken (hmacKey nonce : Block 32) (deviceId : Block 16) (timestamp : UInt64)
    (token : Block 32) (maxAgeSecs nowSecs : UInt64) : Except VaultError Unit := do
  let _ ← ensure (saturatingSub64 nowSecs timestamp ≤ maxAgeSecs) .timeWindow
  ensure (generateSessionToken hmacSha256 hmacKey nonce deviceId timestamp = token) .tokenMismatch

theorem verifySessionToken_eq_ok {hmacKey nonce : Block 32} {deviceId : Block 16}
    {timestamp : UInt64} {token : Block 32} {maxAgeSecs nowSecs : UInt64} :
    verifySessionToken hmacSha256 hmacKey nonce deviceId timestamp token maxAgeSecs nowSecs
        = .ok () ↔
      saturatingSub64 nowSecs timestamp ≤ maxAgeSecs ∧
        generateSessionToken hmacSha256 hmacKey nonce deviceId timestamp = token := by
  rw [verifySessionToken, ensure_bind_eq_ok, ensure_eq_ok]

end Tokens

/-- **Expiry of evidence.** A signed match result expires with its date exactly if it is dated at the
start of time or fails a check other than that of its age, and a session token exactly if it is
dated there or is not the token of its nonce, device and date. -/
theorem evidence_expires_iff {VerifyingKey : Type} (S : MatchScheme VerifyingKey)
    (hmacSha256 : Bytes → Bytes → Block 32) :
    (∀ (result : SignedMatchResult) (verifyingKey : VerifyingKey) (expectedNonce : Block 32)
        (maxAgeSecs : UInt64),
      Expires result.payload.timestamp maxAgeSecs (fun nowSecs ↦
          galdradValidateMatchResult S result verifyingKey expectedNonce nowSecs maxAgeSecs
            = .ok ()) ↔
        result.payload.timestamp = 0 ∨ ¬ Genuine S result verifyingKey expectedNonce) ∧
      ∀ (hmacKey nonce : Block 32) (deviceId : Block 16) (timestamp : UInt64) (token : Block 32)
        (maxAgeSecs : UInt64),
      Expires timestamp maxAgeSecs (fun nowSecs ↦
          verifySessionToken hmacSha256 hmacKey nonce deviceId timestamp token maxAgeSecs nowSecs
            = .ok ()) ↔
        timestamp = 0 ∨
          generateSessionToken hmacSha256 hmacKey nonce deviceId timestamp ≠ token := by
  constructor
  · intro result verifyingKey expectedNonce maxAgeSecs
    exact expires_iff fun nowSecs ↦ galdradValidateMatchResult_eq_ok
  · intro hmacKey nonce deviceId timestamp token maxAgeSecs
    exact expires_iff fun nowSecs ↦ verifySessionToken_eq_ok hmacSha256

/-- A scheme for examples: the payload is encoded as its nonce and date, and a signature is the
signed bytes behind the key. -/
def echoScheme : MatchScheme Bytes where
  Signature := Bytes
  cborToVec p := some (p.nonce.toBytes ++ u64be p.timestamp)
  signatureFromSlice := some
  verify key msg sig := sig = (Block.ofBytes 64 (key ++ msg)).toBytes

/-- An authenticator for examples: the key behind the end of the data. -/
def echoMac (key data : Bytes) : Block 32 := .ofBytes 32 (data.drop 48 ++ key)

theorem verify_of_echo (payload : MatchPayload) (key : Bytes) :
    verifyMatchPayloadSignature echoScheme payload
      (.ofBytes 64 (key ++ (payload.nonce.toBytes ++ u64be payload.timestamp))) key = .ok () := by
  apply ensure_eq_ok.mpr
  simp [echoScheme]

/-- A match of tomorrow: its date is a day ahead of the clock at 1700000000. -/
def tomorrowsMatch : SignedMatchResult where
  payload :=
    { version := 1, deviceId := .zero 16, backend := .fingerVein, nonce := .zero 32
      timestamp := 1700086400, matched := true, score := ⟨0x3f700000⟩, threshold := ⟨0x3f400000⟩
      liveness := true, modalities := [.fingerVein] }
  signature := .ofBytes 64 (List.replicate 32 0 ++ u64be 1700086400)

theorem genuine_tomorrowsMatch : Genuine echoScheme tomorrowsMatch [] (.zero 32) where
  signature := verify_of_echo _ _
  version := rfl
  nonce := rfl
  liveness := rfl
  matched := rfl
  score := by decide

/-- A result and a token that are dated tomorrow are accepted today, with a maximal age of five
minutes. -/
theorem tomorrows_match_accepted :
    galdradValidateMatchResult echoScheme tomorrowsMatch [] (.zero 32) 1700000000 300 = .ok () ∧
      verifySessionToken echoMac (.zero 32) (.zero 32) (.zero 16) 1700086400
        (generateSessionToken echoMac (.zero 32) (.zero 32) (.zero 16) 1700086400) 300 1700000000
          = .ok () ∧
      ¬ Expires 1700086400 300 fun nowSecs ↦
        galdradValidateMatchResult echoScheme tomorrowsMatch [] (.zero 32) nowSecs 300 = .ok () := by
  have hage : saturatingSub64 1700000000 1700086400 ≤ 300 := by decide
  have haccepted : galdradValidateMatchResult echoScheme tomorrowsMatch [] (.zero 32) 1700000000 300
      = .ok () := galdradValidateMatchResult_eq_ok.mpr ⟨hage, genuine_tomorrowsMatch⟩
  refine ⟨haccepted, (verifySessionToken_eq_ok _).mpr ⟨hage, rfl⟩, fun hexpires ↦ ?_⟩
  exact absurd (hexpires 1700000000 haccepted).1 (by decide)

end Galdralag.Biometric
