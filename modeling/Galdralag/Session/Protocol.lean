import Galdralag.Session.Handshake

/-!
# The session state machine

An initiator session generates an ephemeral key and sends it signed; a responder answers with a key
of its own, signed together with the initiator's; the initiator completes with the answer. Long-term
signing keys lie in the vault, one slot each, tagged with the curve they belong to.

The initiator's signature covers version, curve and its ephemeral key. The responder's covers
version, curve and both ephemeral keys. Neither names who the message is for.
-/

set_option linter.all false

namespace Galdralag.Session

open Fallible

variable {T W : Type} (P : Primitives) (trng : HardwareTrng T) (storage : VaultStorage W)

/-! ## Long-term keys -/

/-- Long-term signing key material, for one curve. -/
structure SessionLongTermSigningKey where
  curve : SessionCurve
  scalar : Bytes
  deriving DecidableEq

def sessionLtMagic : Bytes := [0x47, 0x4C, 0x54, 0x53]

/-- Bytes reserved per slot. -/
def sessionLtSlotBytes : ℕ := 512

/-- Base offset of the long-term signing keys. -/
def sessionLtRegionBase : ℕ := 0x100000

def slotOffset (slot : UInt32) : ℕ := sessionLtRegionBase + slot.toNat * sessionLtSlotBytes

/-- The signing key in the bytes of a slot. -/
def parseSigningKey (curve : SessionCurve) (buf : Bytes) :
    Except EphemeralSessionError SessionLongTermSigningKey :=
  let slen := (buf.getD 5 0).toNat
  let scalar := (buf.drop 6).take slen
  if buf.take 4 ≠ sessionLtMagic then .error .malformedHandshake
  else if buf.getD 4 0 ≠ curve.wireId then .error .malformedHandshake
  else if slen = 0 ∨ slen > 64 ∨ 6 + slen > sessionLtSlotBytes then .error .malformedHandshake
  else if slen ≠ curve.scalarLen then .error .malformedHandshake
  else if (P.curve curve).validScalar scalar then .ok { curve := curve, scalar := scalar }
  else .error .malformedHandshake

/-- Load the signing key of a slot for the curve of a session. -/
def loadSigningKey (w : W) (slot : UInt32) (curve : SessionCurve) :
    Except EphemeralSessionError SessionLongTermSigningKey :=
  match storage.read w (slotOffset slot) sessionLtSlotBytes with
  | .ok buf => parseSigningKey P curve buf
  | .error _ => .error .storage

/-! ## Signatures -/

def initSignPreimage (version : UInt8) (curve : SessionCurve) (epk : Bytes) : Bytes :=
  version :: curve.wireId :: epk

def responseSignPreimage (version : UInt8) (curve : SessionCurve) (responderEpk initiatorEpk : Bytes) :
    Bytes :=
  version :: curve.wireId :: (responderEpk ++ initiatorEpk)

/-- Sign the digest of a preimage. -/
def signWithLongTerm (key : SessionLongTermSigningKey) (preimage : Bytes) :
    Except EphemeralSessionError (Vec 200) := do
  let der ← ((P.curve key.curve).signPrehash key.scalar (P.sha256 preimage)).elim
    (.error .invalidPeerSignature) .ok
  let _ ← ensure (¬ der.length > key.curve.maxDerSig) .invalidPeerSignature
  pushAll der

/-- The encoded verifying key. -/
def verifyingSec1 (key : SessionLongTermSigningKey) : Bytes := (P.curve key.curve).publicKey key.scalar

/-- Verify a signature over the digest of a preimage with the key of a certificate. -/
def verifyWithCert (cert : LongTermCert) (preimage derSig : Bytes) : Except EphemeralSessionError Unit :=
  if (P.curve cert.curve).validPoint cert.verifyingKey.toBytes = false then .error .invalidPeerPublicKey
  else if derSig.length > cert.curve.maxDerSig then .error .invalidPeerSignature
  else if (P.curve cert.curve).verifyPrehash cert.verifyingKey.toBytes (P.sha256 preimage) derSig then
    .ok ()
  else .error .invalidPeerSignature

/-! ## The initiator -/

/-- The state of an initiator session. -/
inductive InitiatorState where
  | new
  | initialised (curve : SessionCurve) (ephemeralKeypair : EphemeralKeyPair) (initMessage : InitMessage)
  | completed
  deriving DecidableEq

/-- A session is initialised once. -/
def ensureNew : InitiatorState → Except EphemeralSessionError Unit
  | .completed => .error .sessionAlreadyCompleted
  | .initialised .. => .error .sessionAlreadyInitialised
  | .new => .ok ()

/-- The message of an initiator with its signature. -/
def signedInit (lt : SessionLongTermSigningKey) (epk : EphemeralKeyPair) :
    Except EphemeralSessionError InitMessage := do
  let signature ← signWithLongTerm P lt
    (initSignPreimage initProtocolVersion epk.curve epk.publicKey.toBytes)
  let longTermFingerprint ← pushAll (encodeFingerprintHex (fingerprintOf P (verifyingSec1 P lt)))
  let ephemeralPublicKey ← pushAll epk.publicKey.toBytes
  pure {
    version := initProtocolVersion
    curve := epk.curve
    ephemeralPublicKey := ephemeralPublicKey
    longTermFingerprint := longTermFingerprint
    signature := signature }

/-- Step 1: generate an ephemeral key pair and produce the message. -/
def init (curve : SessionCurve) (longTermSlot : UInt32) (w : W) :
    Fallible (InitiatorState × T) EphemeralSessionError InitMessage := do
  let _ ← reading fun s ↦ ensureNew s.1
  let lt ← lift (loadSigningKey P storage w longTermSlot curve)
  let epk ← zoom Prod.snd (fun t s ↦ (s.1, t)) (generate P trng curve)
  let initMessage ← lift (signedInit P lt epk)
  modify fun s ↦ (.initialised curve epk initMessage, s.2)
  pure initMessage

/-- What a response is checked for before the secret is computed. -/
def checkResponse (curve : SessionCurve) (initMessage : InitMessage) (response : ResponseMessage)
    (peerLongTermCert : LongTermCert) : Except EphemeralSessionError Unit := do
  let _ ← ensure (response.version = respProtocolVersion) .malformedHandshake
  let _ ← ensure (response.curve = curve) .curveMismatch
  let _ ← ensure (initMessage.ephemeralPublicKey.toBytes =
    response.initiatorEphemeralPublicKey.toBytes) .invalidPeerSignature
  let wireFp ← decodeFingerprintHex response.longTermFingerprint.toBytes
  let _ ← ensure (peerLongTermCert.fingerprint.toBytes = wireFp.toBytes) .fingerprintMismatch
  verifyWithCert P peerLongTermCert (responseSignPreimage respProtocolVersion curve
    response.ephemeralPublicKey.toBytes response.initiatorEphemeralPublicKey.toBytes)
    response.signature.toBytes

/-- The keys of the initiator. -/
def initiatorKeys (epk : EphemeralKeyPair) (initMessage : InitMessage) (response : ResponseMessage) :
    Except EphemeralSessionError SessionKeys := do
  let shared ← ecdh P epk response.ephemeralPublicKey.toBytes
  deriveSessionKeys P shared initMessage.ephemeralPublicKey.toBytes response.ephemeralPublicKey.toBytes

/-- A response that fails a check leaves the session as it was; one that passes them ends it. -/
def completeInner (curve : SessionCurve) (epk : EphemeralKeyPair) (initMessage : InitMessage)
    (response : ResponseMessage) (peerLongTermCert : LongTermCert) :
    Fallible InitiatorState EphemeralSessionError SessionKeys :=
  match checkResponse P curve initMessage response peerLongTermCert with
  | .error e => do
    modify fun _ ↦ .initialised curve epk initMessage
    fail e
  | .ok _ =>
    match initiatorKeys P epk initMessage response with
    | .error e => do
      modify fun _ ↦ .new
      fail e
    | .ok keys => do
      modify fun _ ↦ .completed
      pure keys

/-- Step 2: verify the response and derive the session keys. -/
def complete (response : ResponseMessage) (peerLongTermCert : LongTermCert) :
    Fallible InitiatorState EphemeralSessionError SessionKeys := fun st ↦
  match st with
  | .initialised curve epk initMessage =>
    completeInner P curve epk initMessage response peerLongTermCert .new
  | .completed => (.error .sessionAlreadyCompleted, .completed)
  | .new => (.error .malformedHandshake, .new)

/-! ## The responder -/

/-- What a first message is checked for. -/
def checkInit (initMessage : InitMessage) (peerLongTermCert : LongTermCert) :
    Except EphemeralSessionError Unit := do
  let _ ← ensure (initMessage.version = initProtocolVersion) .malformedHandshake
  let wireFp ← (decodeFingerprintHex initMessage.longTermFingerprint.toBytes).mapError fun _ ↦
    .malformedHandshake
  let _ ← ensure (peerLongTermCert.fingerprint.toBytes = wireFp.toBytes) .fingerprintMismatch
  verifyWithCert P peerLongTermCert (initSignPreimage initMessage.version initMessage.curve
    initMessage.ephemeralPublicKey.toBytes) initMessage.signature.toBytes

/-- The answer of a responder with its signature. -/
def signedResponse (lt : SessionLongTermSigningKey) (epk : EphemeralKeyPair)
    (initMessage : InitMessage) : Except EphemeralSessionError ResponseMessage := do
  let signature ← signWithLongTerm P lt (responseSignPreimage respProtocolVersion epk.curve
    epk.publicKey.toBytes initMessage.ephemeralPublicKey.toBytes)
  let longTermFingerprint ← pushAll (encodeFingerprintHex (fingerprintOf P (verifyingSec1 P lt)))
  let ephemeralPublicKey ← pushAll epk.publicKey.toBytes
  pure {
    version := respProtocolVersion
    curve := epk.curve
    ephemeralPublicKey := ephemeralPublicKey
    longTermFingerprint := longTermFingerprint
    initiatorEphemeralPublicKey := initMessage.ephemeralPublicKey
    signature := signature }

/-- Verify the first message, compute the secret, derive the keys and produce the answer. -/
def respond (initMessage : InitMessage) (longTermSlot : UInt32) (peerLongTermCert : LongTermCert)
    (w : W) : Fallible T EphemeralSessionError (ResponseMessage × SessionKeys) := do
  let _ ← lift (checkInit P initMessage peerLongTermCert)
  let lt ← lift (loadSigningKey P storage w longTermSlot initMessage.curve)
  let epk ← generate P trng initMessage.curve
  let response ← lift (signedResponse P lt epk initMessage)
  let shared ← lift (ecdh P epk initMessage.ephemeralPublicKey.toBytes)
  let keys ← lift (deriveSessionKeys P shared initMessage.ephemeralPublicKey.toBytes
    response.ephemeralPublicKey.toBytes)
  pure (response, keys)

end Galdralag.Session
