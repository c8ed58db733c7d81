import Galdralag.OpenPgp.DoStore
import Galdralag.OpenPgp.SealedKey
import Galdralag.PinPolicy.Machine

/-!
# The vault backend of the card

The firmware's backend keeps data objects, PIN verifiers and sealed private keys in the vault, and
copies of the verifiers and keys, the two PIN machines, the signature counter and the termination
flag in memory. `CardPlatform` gathers what it is built over. The storages and the attempt counters
act on a world `W` that outlives a power cycle; everything else in the backend is lost with it, and
`openCard` builds a new backend over the same world.

Each slot holds at most one kind of key at a time. The kind is read off the algorithm attributes in
the object store whenever a key is generated, read or loaded.
-/

set_option linter.all false

namespace Galdralag.OpenPgp

/-! ## What the backend is built over -/

/-- The two PINs: PW1 and PW3. -/
inductive CardPin where
  | user
  | admin
  deriving DecidableEq, Repr

/-- The devices and libraries under a card. -/
structure CardPlatform (W T : Type) where
  doStore : DoStore W
  pinStorage : VaultStorage W
  pinUserOff : ℕ
  pinAdminOff : ℕ
  keyStorage : VaultStorage W
  masterKey : Block 32
  trng : HardwareTrng T
  aid : Block 16
  userCounter : MonotonicCounter W
  adminCounter : MonotonicCounter W
  /-- Make a new counter object in place of the old one. -/
  newUserCounter : W → W
  newAdminCounter : W → W
  userZeroise : ZeroisationTrigger W
  adminZeroise : ZeroisationTrigger W
  crypto : CardCrypto

/-- The private keys of a slot in memory: `brainpool` is a BrainpoolP256r1 key for ECDSA or ECDH,
`curve25519` an Ed25519 or X25519 key. -/
structure SlotKeys where
  brainpool : Option (Block 32)
  curve25519 : Option (Block 32)
  deriving DecidableEq

/-- No key. -/
def SlotKeys.empty : SlotKeys := ⟨none, none⟩

/-- The state of the backend. -/
structure OpenPgpVaultBackend (W T : Type) where
  world : W
  trng : T
  userVerifier : Block 32
  adminVerifier : Block 32
  userMachine : PinPolicyMachine
  adminMachine : PinPolicyMachine
  keys : OpenPgpKeySlot → SlotKeys
  sigCounter : UInt32
  termination : Bool
  audit : UInt32

/-- Computations of the backend. -/
abbrev VaultM (W T α : Type) := Fallible (OpenPgpVaultBackend W T) OpenPgpBackendError α

namespace OpenPgpVaultBackend

variable {W T : Type} (b : OpenPgpVaultBackend W T)

/-- The digest a PIN is compared with. -/
def verifier : CardPin → Block 32
  | .user => b.userVerifier
  | .admin => b.adminVerifier

/-- The policy machine of a PIN. -/
def machine : CardPin → PinPolicyMachine
  | .user => b.userMachine
  | .admin => b.adminMachine

def setVerifier (d : Block 32) : CardPin → OpenPgpVaultBackend W T
  | .user => { b with userVerifier := d }
  | .admin => { b with adminVerifier := d }

def setMachine (m : PinPolicyMachine) : CardPin → OpenPgpVaultBackend W T
  | .user => { b with userMachine := m }
  | .admin => { b with adminMachine := m }

/-- Replace the keys of a slot. -/
def setKeys (slot : OpenPgpKeySlot) (k : SlotKeys) : OpenPgpVaultBackend W T :=
  { b with keys := fun s ↦ if s = slot then k else b.keys s }

end OpenPgpVaultBackend

namespace CardPlatform

variable {W T : Type} (pf : CardPlatform W T)

/-- The attempt counter of a PIN. -/
def counter : CardPin → MonotonicCounter W
  | .user => pf.userCounter
  | .admin => pf.adminCounter

def newCounter : CardPin → W → W
  | .user => pf.newUserCounter
  | .admin => pf.newAdminCounter

def zeroise : CardPin → ZeroisationTrigger W
  | .user => pf.userZeroise
  | .admin => pf.adminZeroise

/-- Where the digest of a PIN is stored. -/
def pinOff : CardPin → ℕ
  | .user => pf.pinUserOff
  | .admin => pf.pinAdminOff

end CardPlatform

section Backend

variable {W T : Type} (pf : CardPlatform W T)

/-- Stop with a status word. -/
def deny {α : Type} (sw : StatusWord) : VaultM W T α := .fail (.status sw)

/-- Run an operation of the storages or counters. -/
def onWorld {ε α : Type} (m : Fallible W ε α) : Fallible (OpenPgpVaultBackend W T) ε α :=
  .zoom OpenPgpVaultBackend.world (fun w b ↦ { b with world := w }) m

/-- Run an operation of the random generator. -/
def onTrng {ε α : Type} (m : Fallible T ε α) : Fallible (OpenPgpVaultBackend W T) ε α :=
  .zoom OpenPgpVaultBackend.trng (fun t b ↦ { b with trng := t }) m

/-- Continue with a value, or stop with a status word when there is none. -/
def orDeny {α : Type} (o : Option α) (sw : StatusWord) : VaultM W T α :=
  match o with
  | some a => pure a
  | none => deny sw

/-- Every method begins with this check. -/
def ensureNotTerminated : VaultM W T PUnit := do
  let termination ← .gets OpenPgpVaultBackend.termination
  .require (termination = false) (.status .terminationState)

/-! ## Algorithm attributes -/

/-- Retired curve: BrainpoolP512r1. -/
def brainpoolP512r1Oid : Bytes := [0x2B, 0x24, 0x03, 0x03, 0x02, 0x08, 0x01, 0x01, 0x0D]

/-- Whether attributes name the retired curve. -/
def AlgorithmAttributes.usesRemovedCurve : AlgorithmAttributes → Bool
  | .rsa _ _ _ => false
  | .ecdh oid => oid.toBytes == brainpoolP512r1Oid
  | .ecdsa oid => oid.toBytes == brainpoolP512r1Oid
  | .edDsa oid => oid.toBytes == brainpoolP512r1Oid

/-- The object that holds the attributes of a slot. -/
def attributesTag : OpenPgpKeySlot → UInt16
  | .sig => 0xC1
  | .dec => 0xC2
  | .aut => 0xC3

/-- Attributes of a slot whose object is missing or unreadable. -/
def defaultAttributes : OpenPgpKeySlot → AlgorithmAttributes
  | .dec => .ecdh (.truncated brainpoolP256r1Oid)
  | _ => .ecdsa (.truncated brainpoolP256r1Oid)

/-- The attributes of a slot, given the bytes of its object. -/
def attributesOf (slot : OpenPgpKeySlot) (data : Option (Vec 254)) : AlgorithmAttributes :=
  ((data.bind fun v ↦ AlgorithmAttributes.parse v.toBytes).getD (defaultAttributes slot))

/-- The attributes of a slot. -/
def algorithmAttributesForSlot (b : OpenPgpVaultBackend W T) (slot : OpenPgpKeySlot) :
    AlgorithmAttributes :=
  attributesOf slot (pf.doStore.read (attributesTag slot) b.world)

/-- The two kinds of private keys. -/
inductive KeyKind where
  | brainpool
  | curve25519
  deriving DecidableEq, Repr

/-- The kind of key that attributes ask for in a slot. -/
def kindFor : OpenPgpKeySlot → AlgorithmAttributes → Option KeyKind
  | .dec, .ecdh oid => if oid.toBytes = curve25519Oid then some .curve25519 else some .brainpool
  | .dec, _ => none
  | _, .edDsa oid => if oid.toBytes = ed25519Oid then some .curve25519 else none
  | _, .ecdsa _ => some .brainpool
  | _, _ => none

/-- A slot with one key. -/
def SlotKeys.only (key : Block 32) : KeyKind → SlotKeys
  | .brainpool => ⟨some key, none⟩
  | .curve25519 => ⟨none, some key⟩

/-- The key of a kind. -/
def SlotKeys.get (k : SlotKeys) : KeyKind → Option (Block 32)
  | .brainpool => k.brainpool
  | .curve25519 => k.curve25519

/-- The purpose under which a slot's key is sealed. -/
def purposeOf : OpenPgpKeySlot → KeyPurpose
  | .sig => .openPgpSig
  | .dec => .openPgpDec
  | .aut => .openPgpAut

/-! ## Loading and persisting private keys -/

/-- The keys of a slot, given its storage cell and its attributes. -/
def unsealedKeys (cell : Block 93) (slot : OpenPgpKeySlot) (attrs : AlgorithmAttributes) :
    SlotKeys :=
  match SealedKeyBlob.unsealFromStorageCell pf.crypto pf.masterKey cell (purposeOf slot) with
  | .error _ => .empty
  | .ok v =>
    if v.length = 32 then
      let key : Block 32 := .ofBytes 32 v.toBytes
      match kindFor slot attrs with
      | some .curve25519 => .only key .curve25519
      | some .brainpool => if pf.crypto.isScalar key then .only key .brainpool else .empty
      | none => .empty
    else .empty

/-- Load the key of a slot; an empty or invalid cell leaves the slot empty. -/
def loadKey (slot : OpenPgpKeySlot) : Fallible (OpenPgpVaultBackend W T) HalError PUnit := do
  let cell ← .reading fun b ↦
    pf.keyStorage.read b.world (sealedOffset (purposeOf slot)) sealedBlobBytes
  let attrs ← .gets fun b ↦ algorithmAttributesForSlot pf b slot
  .modify fun b ↦ b.setKeys slot (unsealedKeys pf (.ofBytes 93 cell) slot attrs)

/-- Load the sealed keys of all slots. -/
def loadPrivateKeys : Fallible (OpenPgpVaultBackend W T) HalError PUnit := do
  .modify fun b ↦ { b with keys := fun _ ↦ .empty }
  loadKey pf .sig
  loadKey pf .dec
  loadKey pf .aut

/-- Seal a private key into its storage cell. -/
def persistPrivateKey (purpose : KeyPurpose) (scalar : Bytes) : VaultM W T PUnit := do
  let blob ← .orElse (onTrng (SealedKeyBlob.sealScalar pf.trng pf.crypto pf.masterKey purpose scalar))
    (.status .memoryFailure)
  let cell : Block 93 := .ofBytes 93 blob.toBytes
  .orElse (onWorld (pf.keyStorage.write (sealedOffset purpose) cell.toBytes))
    (.status .memoryFailure)

/-! ## PINs -/

/-- SHA-256 of a PIN. -/
def pinBytesToVerifierDigest (pin : Bytes) : Block 32 := pf.crypto.sha256 pin

/-- Restore the PIN digests from storage. -/
def loadPinVerifiersFromStorage : Fallible (OpenPgpVaultBackend W T) HalError PUnit := do
  let uv ← .reading fun b ↦ pf.pinStorage.read b.world (pf.pinOff .user) 32
  let av ← .reading fun b ↦ pf.pinStorage.read b.world (pf.pinOff .admin) 32
  .modify fun b ↦ { b with userVerifier := .ofBytes 32 uv, adminVerifier := .ofBytes 32 av }

/-- Store the PIN digests. -/
def persistPinHashes : VaultM W T PUnit := do
  let uv ← .gets OpenPgpVaultBackend.userVerifier
  .orElse (onWorld (pf.pinStorage.write (pf.pinOff .user) uv.toBytes)) (.status .executionError)
  let av ← .gets OpenPgpVaultBackend.adminVerifier
  .orElse (onWorld (pf.pinStorage.write (pf.pinOff .admin) av.toBytes)) (.status .executionError)

/-- A new machine with the same limit, and a new counter object. -/
def resetMachine (p : CardPin) : VaultM W T PUnit :=
  .modify fun b ↦
    { b.setMachine (.new (b.machine p).config) p with world := pf.newCounter p b.world }

abbrev resetUserMachine : VaultM W T PUnit := resetMachine pf .user

/-- One attempt on a PIN. -/
def attemptPin (p : CardPin) (pin : Bytes) :
    Fallible (OpenPgpVaultBackend W T) HalError PinOutcome := do
  let exp ← .gets fun b ↦ b.verifier p
  .zoom (fun b ↦ (b.machine p, b.world))
    (fun mw b ↦ { b.setMachine mw.1 p with world := mw.2 })
    (PinPolicyMachine.submitAttempt (pf.counter p) (pf.zeroise p)
      fun w ↦ (pinCompare (pinBytesToVerifierDigest pf pin).toBytes exp.toBytes, w))

/-- The answer to an attempt; a breach terminates the card. -/
def concludeAttempt (p : CardPin) : PinOutcome → VaultM W T PUnit
  | .success => pure ⟨⟩
  | .failed attemptsUsed => do
    let max ← .gets fun b ↦ (b.machine p).config.maxAttempts
    deny (.verificationFailedRetries (saturatingSub max attemptsUsed).toUInt8)
  | .breach => do
    .modify fun b ↦ { b with termination := true }
    deny .authMethodBlocked

/-- Verify a PIN. -/
def verifyPin (p : CardPin) (pin : Bytes) : VaultM W T PUnit := do
  ensureNotTerminated
  let r ← .orElse (attemptPin pf p pin) (.status .executionError)
  concludeAttempt p r

abbrev verifyUser (pin : Bytes) : VaultM W T PUnit := verifyPin pf .user pin

abbrev verifyAdmin (pin : Bytes) : VaultM W T PUnit := verifyPin pf .admin pin

/-- Default PW status bytes. -/
def defaultPwStatusBytes : Bytes := [0x00, 5, 0, 8, 3, 3, 3]

/-- PIN lengths and retry counters, from the object store. -/
def pwStatusBytes (b : OpenPgpVaultBackend W T) : Block 7 :=
  match pf.doStore.read 0xC4 b.world with
  | some v => .ofBytes 7 v.toBytes
  | none => .ofBytes 7 defaultPwStatusBytes

/-- The longest PIN, in the PW status bytes. -/
def maxPinLength (b : OpenPgpVaultBackend W T) : CardPin → ℕ
  | .user => ((pwStatusBytes pf b).toBytes[1]?.getD 0).toNat
  | .admin => ((pwStatusBytes pf b).toBytes[3]?.getD 0).toNat

/-- Change a PIN after verifying the old one. -/
def changePin (p : CardPin) (oldPin newPin : Bytes) : VaultM W T PUnit := do
  ensureNotTerminated
  let maxLen ← .gets fun b ↦ maxPinLength pf b p
  .require (newPin.length ≤ maxLen) (.status .incorrectParameters)
  verifyPin pf p oldPin
  .modify fun b ↦ b.setVerifier (pinBytesToVerifierDigest pf newPin) p
  persistPinHashes pf
  resetMachine pf p

/-- Set a new PW1 verifier without the old PIN. -/
def setPw1VerifierAdminOnly (newPin : Bytes) : VaultM W T PUnit := do
  ensureNotTerminated
  let maxLen ← .gets fun b ↦ maxPinLength pf b .user
  .require (maxLen ≠ 0 ∧ newPin ≠ [] ∧ newPin.length ≤ maxLen) (.status .wrongLength)
  .modify fun b ↦ b.setVerifier (pinBytesToVerifierDigest pf newPin) .user
  persistPinHashes pf

def resetPw1RetryCounter : VaultM W T PUnit := do
  ensureNotTerminated
  resetUserMachine pf

/-! ## Data objects -/

/-- An object, or no bytes when it is missing. -/
def getDo (b : OpenPgpVaultBackend W T) (tag : UInt16) : Except OpenPgpBackendError (Vec 512) :=
  if b.termination then .error (.status .terminationState)
  else
    match pf.doStore.read tag b.world with
    | some v => .ok (.truncated v.toBytes)
    | none => .ok .empty

/-- Whether PUT DATA refuses a value: attributes of a retired curve. -/
def putRefused (tag : UInt16) (value : Bytes) : Bool :=
  (tag = 0xC1 ∨ tag = 0xC2 ∨ tag = 0xC3) ∧
    ((AlgorithmAttributes.parse value).elim false AlgorithmAttributes.usesRemovedCurve) = true

/-- Write an object. -/
def putDo (tag : UInt16) (value : Bytes) : VaultM W T PUnit := do
  ensureNotTerminated
  .require (putRefused tag value = false) (.status .incorrectParameters)
  .orElse (onWorld (pf.doStore.write tag value)) (.status .executionError)

/-- The three low bytes of the signature counter, most significant first. -/
def counterBytes (c : UInt32) : Bytes := [(c >>> 16).toUInt8, (c >>> 8).toUInt8, c.toUInt8]

/-- Count a signature, in memory and in the object store. -/
def incrementSignatureCounter : VaultM W T PUnit := do
  ensureNotTerminated
  .modify fun b ↦ { b with sigCounter := saturatingAdd b.sigCounter 1 }
  let c ← .gets OpenPgpVaultBackend.sigCounter
  .orElse (onWorld (pf.doStore.write 0x93 (counterBytes c))) (.status .executionError)

/-! ## Key operations -/

/-- Draws until the bytes are a scalar, at most `n` times. -/
def generateScalar : ℕ → Fallible T PUnit (Block 32)
  | 0 => .fail ⟨⟩
  | n + 1 => do
    let raw ← pf.trng.tryFillBytes 32
    if pf.crypto.isScalar raw then pure raw else generateScalar n

/-- Rejection-sampling attempts. -/
def scalarSampleTries : ℕ := 128

/-- Random bytes, from a generator that does not fail. -/
def fillBytes (n : ℕ) : VaultM W T (Block n) := onTrng (.act (pf.trng.fillBytes n))

/-- The public key of a slot's private key: 33 bytes in SEC1 form, or 32 bytes. -/
def publicKey (slot : OpenPgpKeySlot) (key : Block 32) : KeyKind → Bytes
  | .brainpool => (pf.crypto.brainpoolPublic key).toBytes
  | .curve25519 =>
    match slot with
    | .dec => (pf.crypto.x25519Public key).toBytes
    | _ => (pf.crypto.ed25519Public key).toBytes

/-- Read the public key of a slot. -/
def readPublicKey (slot : OpenPgpKeySlot) (kind : Option KeyKind) : VaultM W T (Vec 512) := do
  let kind ← orDeny kind .referenceDataNotFound
  let keys ← .gets fun b ↦ b.keys slot
  let key ← orDeny (keys.get kind) .referenceDataNotFound
  pure (.truncated (publicKey pf slot key kind))

/-- A new private key of a kind. -/
def generateSecret : KeyKind → VaultM W T (Block 32)
  | .brainpool => .orElse (onTrng (generateScalar pf scalarSampleTries)) (.status .executionError)
  | .curve25519 => fillBytes pf 32

/-- Generate a key for a slot, seal it and keep it in memory. -/
def generateKey (slot : OpenPgpKeySlot) (kind : Option KeyKind) : VaultM W T (Vec 512) := do
  let kind ← orDeny kind .conditionsNotSatisfied
  let key ← generateSecret pf kind
  persistPrivateKey pf (purposeOf slot) key.toBytes
  .modify fun b ↦ b.setKeys slot (.only key kind)
  pure (.truncated (publicKey pf slot key kind))

/-- Generate a key pair or read a public key. -/
def generateOrReadKey (p1 : UInt8) (slot : OpenPgpKeySlot) : VaultM W T (Vec 512) := do
  ensureNotTerminated
  let attrs ← .gets fun b ↦ algorithmAttributesForSlot pf b slot
  if p1 = 0x81 then readPublicKey pf slot (kindFor slot attrs)
  else if p1 ≠ 0x80 then deny .wrongParametersP1P2
  else generateKey pf slot (kindFor slot attrs)

/-- An ECDSA signature over the SHA-256 digest of bytes. -/
def signPrehash (key : Block 32) (bytes : Bytes) : VaultM W T (Vec 512) := do
  let der ← orDeny (pf.crypto.ecdsaSignPrehash key (pf.crypto.sha256 bytes)) .executionError
  pure (.truncated der.toBytes)

/-- Sign with the Brainpool key of the signature slot. -/
def psoSignHash (hash : Bytes) : VaultM W T (Vec 512) := do
  ensureNotTerminated
  let keys ← .gets fun b ↦ b.keys .sig
  let key ← orDeny keys.brainpool .referenceDataNotFound
  signPrehash pf key hash

/-- Decipherment without a key agreement is not supported. -/
def psoDecipher : VaultM W T (Vec 512) := do
  ensureNotTerminated
  deny .referenceDataNotFound

/-- ECDH with the Brainpool key of the decipherment slot. -/
def ecdhDec (purpose : KeyPurpose) (peer : Bytes) : VaultM W T (Vec 64) := do
  ensureNotTerminated
  .require (purpose = .openPgpDec) (.status .incorrectParameters)
  let keys ← .gets fun b ↦ b.keys .dec
  let key ← orDeny keys.brainpool .referenceDataNotFound
  .require (pf.crypto.isPoint peer = true) (.status .incorrectParameters)
  let shared ← orDeny (pf.crypto.brainpoolEcdh key peer) .executionError
  pure (.truncated shared.toBytes)

/-- Random bytes for the host; the dispatcher asks for at most 64. -/
def getChallenge (len : ℕ) : VaultM W T (Vec 64) := do
  ensureNotTerminated
  let bytes ← fillBytes pf len
  orDeny (Vec.ofBytes? bytes.toBytes) .executionError

/-- The Ed25519 key of a purpose. -/
def ed25519Key (b : OpenPgpVaultBackend W T) : KeyPurpose → Option (Block 32)
  | .openPgpSig => (b.keys .sig).curve25519
  | .openPgpAut => (b.keys .aut).curve25519
  | .openPgpDec => none

def ed25519Sign (purpose : KeyPurpose) (message : Bytes) : VaultM W T (Vec 64) := do
  ensureNotTerminated
  let key ← .gets fun b ↦ ed25519Key b purpose
  let key ← orDeny key .referenceDataNotFound
  pure (.truncated (pf.crypto.ed25519Sign key message).toBytes)

def x25519Ecdh (purpose : KeyPurpose) (peer : Bytes) : VaultM W T (Vec 32) := do
  ensureNotTerminated
  .require (purpose = .openPgpDec) (.status .incorrectParameters)
  .require (peer.length = 32) (.status .incorrectParameters)
  let keys ← .gets fun b ↦ b.keys .dec
  let key ← orDeny keys.curve25519 .referenceDataNotFound
  pure (.truncated (pf.crypto.x25519Ecdh key (.ofBytes 32 peer)).toBytes)

/-- Sign a challenge with the authentication key: Ed25519 when the attributes say so, else the
Brainpool key. -/
def internalAuthenticate (challenge : Bytes) : VaultM W T (Vec 512) := do
  ensureNotTerminated
  let attrs ← .gets fun b ↦ algorithmAttributesForSlot pf b .aut
  let keys ← .gets fun b ↦ b.keys .aut
  if kindFor .aut attrs = some .curve25519 then
    let key ← orDeny keys.curve25519 .referenceDataNotFound
    pure (.truncated (pf.crypto.ed25519Sign key challenge).toBytes)
  else
    let key ← orDeny keys.brainpool .referenceDataNotFound
    signPrehash pf key challenge

/-! ## The backend -/

/-- What each call of the dispatcher runs. -/
def performCall : (c : BackendCall) → VaultM W T c.Result
  | .verifyPw1Sign pin => verifyUser pf pin
  | .verifyPw1Other pin => verifyUser pf pin
  | .verifyPw3 pin => verifyAdmin pf pin
  | .changePin pw3 oldPin newPin => changePin pf (if pw3 then .admin else .user) oldPin newPin
  | .setPw1VerifierAdminOnly newPin => setPw1VerifierAdminOnly pf newPin
  | .resetPw1RetryCounter => resetPw1RetryCounter pf
  | .putDo tag value => putDo pf tag value
  | .psoSignHash hash => psoSignHash pf hash
  | .psoDecipher _ => psoDecipher
  | .ecdhDec purpose peer => ecdhDec pf purpose peer
  | .getChallenge len => getChallenge pf len
  | .ed25519Sign purpose message => ed25519Sign pf purpose message
  | .x25519Ecdh purpose peer => x25519Ecdh pf purpose peer
  | .internalAuthenticate challenge => internalAuthenticate pf challenge
  | .generateOrReadKey p1 slot => generateOrReadKey pf p1 slot
  | .incrementSignatureCounter => incrementSignatureCounter pf

/-- The vault backend, as the dispatcher sees it. -/
def vaultBackend : OpenPgpBackend (OpenPgpVaultBackend W T) where
  isTerminationState := OpenPgpVaultBackend.termination
  aidBytes _ := pf.aid.toBytes
  pwStatusBytes := pwStatusBytes pf
  getDo := getDo pf
  algorithmAttributes := algorithmAttributesForSlot pf
  logEvent code b := { b with audit := b.audit ^^^ code }
  onLockDisconnect b := { b with audit := 0 }
  perform := performCall pf

theorem perform_verifyPw1Sign (pin : Bytes) (b : OpenPgpVaultBackend W T) :
    (vaultBackend pf).perform (.verifyPw1Sign pin) b = verifyPin pf .user pin b := rfl

/-! ## Provisioning and opening -/

/-- Write an object of a new card. -/
def seedDo (tag : UInt16) (value : Bytes) : Fallible W HalError PUnit :=
  .orElse (pf.doStore.write tag value) .bus

/-- The objects of a new card: attributes, PW status and signature counter. -/
def initProductionDefaults : Fallible W HalError PUnit := do
  seedDo pf 0xC1 (defaultAttributes .sig).toBytes.toBytes
  seedDo pf 0xC2 (defaultAttributes .dec).toBytes.toBytes
  seedDo pf 0xC3 (defaultAttributes .aut).toBytes.toBytes
  seedDo pf 0xC4 defaultPwStatusBytes
  seedDo pf 0x93 [0x00, 0x00, 0x00]

/-- Seed the objects when the region has no header, or cannot be read. -/
def seedDefaultsIfFresh : Fallible W HalError PUnit := fun w ↦
  match pf.doStore.probe w with
  | .ok true => (.ok ⟨⟩, w)
  | _ => initProductionDefaults pf w

/-- A backend before anything is loaded. -/
def OpenPgpVaultBackend.blank (userMachine adminMachine : PinPolicyMachine) (world : W) (trng : T) :
    OpenPgpVaultBackend W T :=
  ⟨world, trng, .zero 32, .zero 32, userMachine, adminMachine, fun _ ↦ .empty, 0, false, 0⟩

/-- Open a provisioned card. -/
def openCard (userMachine adminMachine : PinPolicyMachine) (world : W) (trng : T) :
    Except HalError PUnit × OpenPgpVaultBackend W T :=
  (do
    onWorld (seedDefaultsIfFresh pf)
    loadPinVerifiersFromStorage pf
    loadPrivateKeys pf : Fallible (OpenPgpVaultBackend W T) HalError PUnit)
  (.blank userMachine adminMachine world trng)

/-- Provision a card with its first PINs. -/
def newCard (userPin adminPin : Bytes) (userMachine adminMachine : PinPolicyMachine) (world : W)
    (trng : T) : Except HalError PUnit × OpenPgpVaultBackend W T :=
  (do
    let uv := pinBytesToVerifierDigest pf userPin
    let av := pinBytesToVerifierDigest pf adminPin
    onWorld (pf.pinStorage.write (pf.pinOff .user) uv.toBytes)
    onWorld (pf.pinStorage.write (pf.pinOff .admin) av.toBytes)
    .modify fun b ↦ { b with userVerifier := uv, adminVerifier := av }
    onWorld (seedDefaultsIfFresh pf)
    loadPrivateKeys pf : Fallible (OpenPgpVaultBackend W T) HalError PUnit)
  (.blank userMachine adminMachine world trng)

end Backend

end Galdralag.OpenPgp
