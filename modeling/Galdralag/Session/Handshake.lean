import Galdralag.Foundation.Bytes
import Galdralag.Hal

/-!
# Messages, certificates and keys of the handshake

Two messages make a handshake. Each carries an ephemeral public key and a signature by a long-term
key; the second one also repeats the ephemeral key of the first.

Curve arithmetic, signatures and hashes come from libraries. They are parameters: `Primitives` holds
the operations of each curve and the hash functions.
-/

set_option linter.all false

namespace Galdralag.Session

open Fallible

/-- Failure modes of authenticated ephemeral ECDH sessions. -/
inductive EphemeralSessionError where
  | keyGeneration
  | invalidPeerPublicKey
  | invalidPeerSignature
  | ecdhFailed
  | sessionAlreadyCompleted
  | sessionAlreadyInitialised
  | malformedHandshake
  | removedBrainpoolP512Curve
  | curveMismatch
  | fingerprintMismatch
  | storage
  | trustStoreFull
  deriving DecidableEq, Repr

/-- The elliptic curve of a session's ephemeral key pair. -/
inductive SessionCurve where
  | brainpoolP256r1
  | brainpoolP384r1
  deriving DecidableEq, Repr

namespace SessionCurve

/-- The wire byte of the curve. -/
def wireId : SessionCurve → UInt8
  | brainpoolP256r1 => 0x01
  | brainpoolP384r1 => 0x02

/-- Length in bytes of an uncompressed public key. -/
def publicKeyLen : SessionCurve → ℕ
  | brainpoolP256r1 => 65
  | brainpoolP384r1 => 97

/-- Length in bytes of a private scalar. -/
def scalarLen : SessionCurve → ℕ
  | brainpoolP256r1 => 32
  | brainpoolP384r1 => 48

/-- Largest DER signature that is kept. -/
def maxDerSig : SessionCurve → ℕ
  | brainpoolP256r1 => 72
  | brainpoolP384r1 => 150

theorem wireId_injective {c d : SessionCurve} (h : c.wireId = d.wireId) : c = d := by
  cases c <;> cases d <;> first | rfl | exact absurd h (by decide)

end SessionCurve

/-! ## Messages -/

def initProtocolVersion : UInt8 := 0x01

def respProtocolVersion : UInt8 := 0x01

/-- Initiator handshake message. -/
structure InitMessage where
  version : UInt8
  curve : SessionCurve
  ephemeralPublicKey : Vec 129
  longTermFingerprint : Vec 64
  signature : Vec 200
  deriving DecidableEq

/-- Responder handshake message. -/
structure ResponseMessage where
  version : UInt8
  curve : SessionCurve
  ephemeralPublicKey : Vec 129
  longTermFingerprint : Vec 64
  initiatorEphemeralPublicKey : Vec 129
  signature : Vec 200
  deriving DecidableEq

/-- Push bytes into a vector of a message. -/
def pushAll {cap : ℕ} (bs : Bytes) : Except EphemeralSessionError (Vec cap) :=
  (Vec.ofBytes? bs).elim (.error .malformedHandshake) .ok

theorem pushAll_eq_ok {cap : ℕ} {bs : Bytes} {v : Vec cap} (h : pushAll bs = .ok v) : v.toBytes = bs := by
  rw [pushAll] at h
  rcases hv : (Vec.ofBytes? bs : Option (Vec cap)) with _ | v'
  · rw [hv] at h
    cases h
  · rw [hv] at h
    obtain rfl : v' = v := Except.ok.inj h
    exact Vec.toBytes_of_ofBytes? hv

/-- A lower-case hexadecimal digit. -/
def hexChar (n : UInt8) : UInt8 := if n < 10 then 0x30 + n else 0x61 + (n - 10)

/-- Encode a raw fingerprint as hexadecimal text. -/
def encodeFingerprintHex (raw : Block 32) : Bytes :=
  raw.toBytes.flatMap fun (b : UInt8) ↦ [hexChar (b >>> 4), hexChar (b &&& 0x0F)]

/-- The value of a hexadecimal digit. -/
def hexVal (c : UInt8) : Option UInt8 :=
  if 0x30 ≤ c ∧ c ≤ 0x39 then some (c - 0x30)
  else if 0x61 ≤ c ∧ c ≤ 0x66 then some (c - 0x61 + 10)
  else if 0x41 ≤ c ∧ c ≤ 0x46 then some (c - 0x41 + 10)
  else none

/-- The bytes of pairs of hexadecimal digits. -/
def hexPairs : Bytes → Option Bytes
  | c :: d :: rest => do
    let hi ← hexVal c
    let lo ← hexVal d
    let bs ← hexPairs rest
    pure ((hi <<< 4 ||| lo) :: bs)
  | _ => some []

/-- Decode a fingerprint of 64 hexadecimal digits. -/
def decodeFingerprintHex (hex : Bytes) : Except EphemeralSessionError (Block 32) :=
  if hex.length ≠ 64 then .error .malformedHandshake
  else (hexPairs hex).elim (.error .malformedHandshake) fun bs ↦ .ok (.ofBytes 32 bs)

/-- A long-term public key certificate used to verify handshake signatures. -/
structure LongTermCert where
  fingerprint : Vec 32
  curve : SessionCurve
  verifyingKey : Vec 129
  deriving DecidableEq

/-! ## Primitives -/

/-- The operations of a curve: scalars and points in their byte forms, and signatures over digests.
-/
structure CurvePrimitives where
  /-- The bytes are a private scalar. -/
  validScalar : Bytes → Bool
  /-- The uncompressed point of a private scalar. -/
  publicKey : Bytes → Bytes
  /-- The bytes encode a point of the curve, compressed or not, other than infinity. -/
  validPoint : Bytes → Bool
  /-- The shared x-coordinate of a scalar and an encoded point. -/
  diffieHellman : Bytes → Bytes → Option Bytes
  /-- The DER signature by a scalar over a digest. -/
  signPrehash : Bytes → Block 32 → Option Bytes
  /-- An encoded point verifies a DER signature over a digest. -/
  verifyPrehash : Bytes → Block 32 → Bytes → Bool

/-- The libraries of the handshake. -/
structure Primitives where
  curve : SessionCurve → CurvePrimitives
  sha256 : Bytes → Block 32
  /-- The first argument is the key. -/
  hmacSha256 : Bytes → Bytes → Block 32
  /-- Expand a pseudorandom key to 32 bytes for a label. -/
  hkdfExpand : Block 32 → String → Block 32

/-- What the handshake relies on of the curves. Both scalars of an exchange arrive at one secret;
public keys are written uncompressed, with a first byte that no shorter encoding has. -/
structure Primitives.Lawful (P : Primitives) : Prop where
  diffieHellman_comm : ∀ c a b, (P.curve c).validScalar a → (P.curve c).validScalar b →
    (P.curve c).diffieHellman a ((P.curve c).publicKey b) =
      (P.curve c).diffieHellman b ((P.curve c).publicKey a)
  length_publicKey : ∀ c a, (P.curve c).validScalar a →
    ((P.curve c).publicKey a).length = c.publicKeyLen
  head_publicKey : ∀ c a, (P.curve c).validScalar a → ((P.curve c).publicKey a).head? = some 0x04
  validPoint_ne_nil : ∀ c bs, (P.curve c).validPoint bs → bs ≠ []
  length_of_uncompressed : ∀ c bs, (P.curve c).validPoint bs → bs.head? = some 0x04 →
    bs.length = c.publicKeyLen

variable (P : Primitives)

/-- Raw digest of the encoded verifying key. -/
def fingerprintOf (publicKeySec1 : Bytes) : Block 32 := P.sha256 publicKeySec1

/-! ## Ephemeral keys -/

section Keys

variable {T : Type} (trng : HardwareTrng T)

/-- An ephemeral key pair for a single session. -/
structure EphemeralKeyPair where
  curve : SessionCurve
  publicKey : Vec 97
  privateKey : Bytes
  deriving DecidableEq

/-- Draw bytes until they are a scalar, at most so many times. -/
def sampleScalar (curve : SessionCurve) : ℕ → Fallible T PUnit Bytes
  | 0 => fail ⟨⟩
  | tries + 1 => do
    let raw ← trng.tryFillBytes curve.scalarLen
    if (P.curve curve).validScalar raw.toBytes then pure raw.toBytes
    else sampleScalar curve tries

/-- Generate a fresh ephemeral key pair. -/
def generate (curve : SessionCurve) : Fallible T EphemeralSessionError EphemeralKeyPair := do
  let sk ← (sampleScalar P trng curve 128).orElse .keyGeneration
  let publicKey ← lift ((Vec.ofBytes? ((P.curve curve).publicKey sk)).elim (.error .keyGeneration) .ok)
  pure { curve := curve, publicKey := publicKey, privateKey := sk }

end Keys

def maxShared : ℕ := 48

/-- Shared secret of an ephemeral key and the public key of the peer. -/
def ecdh (kp : EphemeralKeyPair) (peerPublicKey : Bytes) : Except EphemeralSessionError Bytes := do
  let _ ← ensure ((P.curve kp.curve).validScalar kp.privateKey = true) .ecdhFailed
  let _ ← ensure ((P.curve kp.curve).validPoint peerPublicKey = true) .invalidPeerPublicKey
  let x ← ((P.curve kp.curve).diffieHellman kp.privateKey peerPublicKey).elim (.error .ecdhFailed) .ok
  let _ ← ensure (¬ x.length > maxShared) .ecdhFailed
  pure x

/-! ## Session keys -/

/-- All keys derived for a session. -/
structure SessionKeys where
  classicalEcdhIkmStorage : Block 48
  classicalEcdhIkmLen : ℕ
  profilePrkMaterial : Block 32
  payloadKeyI2r : Block 32
  payloadKeyR2i : Block 32
  gdssMaskKey : Block 32
  gdssSyncKey : Block 32
  gdssTimingKey : Block 32
  macKey : Block 32
  deriving DecidableEq

/-- Byte strings in lexicographic order. -/
def lexLe : Bytes → Bytes → Bool
  | [], _ => true
  | _ :: _, [] => false
  | a :: as, b :: bs => a < b || (a == b && lexLe as bs)

/-- The two ephemeral keys, the smaller one first. -/
def orderedEpkSalt (epkInitiator epkResponder : Bytes) : Except EphemeralSessionError (Vec 258) :=
  if lexLe epkInitiator epkResponder then pushAll (epkInitiator ++ epkResponder)
  else pushAll (epkResponder ++ epkInitiator)

/-- Extract a pseudorandom key; an empty salt stands for 32 zero bytes. -/
def hkdfExtractSha256 (salt ikm : Bytes) : Block 32 :=
  if salt.isEmpty then P.hmacSha256 (Block.zero 32).toBytes ikm else P.hmacSha256 salt ikm

/-- Derive all session keys from a shared secret. -/
def deriveSessionKeys (shared epkInitiator epkResponder : Bytes) :
    Except EphemeralSessionError SessionKeys := do
  let salt ← orderedEpkSalt epkInitiator epkResponder
  let prk := hkdfExtractSha256 P salt.toBytes shared
  pure {
    classicalEcdhIkmStorage := .ofBytes 48 shared
    classicalEcdhIkmLen := shared.length
    profilePrkMaterial := prk
    payloadKeyI2r := P.hkdfExpand prk "galdralag/session/payload-i2r/v1"
    payloadKeyR2i := P.hkdfExpand prk "galdralag/session/payload-r2i/v1"
    gdssMaskKey := P.hkdfExpand prk "galdralag/session/gdss-mask/v1"
    gdssSyncKey := P.hkdfExpand prk "galdralag/session/gdss-sync/v1"
    gdssTimingKey := P.hkdfExpand prk "galdralag/session/gdss-timing/v1"
    macKey := P.hkdfExpand prk "galdralag/session/mac/v1" }

end Galdralag.Session
