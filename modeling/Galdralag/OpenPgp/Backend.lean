import Galdralag.Hal
import Galdralag.OpenPgp.Apdu
import Galdralag.OpenPgp.DataObjects

/-!
# The card backend

The dispatcher reaches PINs, keys and data objects through one trait. Some of its methods only read
the backend; the others verify a PIN, use a key or write an object, and may fail. Each of these is a
`BackendCall`, a value that names the method and carries its arguments, and a backend says what
performing a call does. Statements about what a session does to its backend are statements about
the calls it makes.
-/

set_option linter.all false

namespace Galdralag.OpenPgp

/-- Slots of the OpenPGP key operations. -/
inductive OpenPgpKeySlot where
  | sig
  | dec
  | aut
  deriving DecidableEq, Repr

/-- Key purposes the card application asks for. -/
inductive KeyPurpose where
  | openPgpSig
  | openPgpDec
  | openPgpAut
  deriving DecidableEq, Repr

/-- Errors of the vault or policy layers, mapped for responses. -/
inductive OpenPgpBackendError where
  | status (sw : StatusWord)
  | hal (e : HalError)
  deriving DecidableEq, Repr

/-- The status word an error is answered with. -/
def OpenPgpBackendError.toStatusWord : OpenPgpBackendError → StatusWord
  | .status sw => sw
  | .hal _ => .executionError

/-! ## Calls -/

/-- A call of a method that may change the backend and may fail. -/
inductive BackendCall where
  /-- VERIFY PW1 for signing. -/
  | verifyPw1Sign (pin : Bytes)
  /-- VERIFY PW1 for other commands. -/
  | verifyPw1Other (pin : Bytes)
  | verifyPw3 (pin : Bytes)
  | changePin (pw3 : Bool) (oldPin newPin : Bytes)
  /-- Set a new PW1 verifier without the old PIN. -/
  | setPw1VerifierAdminOnly (newPin : Bytes)
  | resetPw1RetryCounter
  | putDo (tag : UInt16) (value : Bytes)
  /-- PSO:CDS over a hash made by the host. -/
  | psoSignHash (hash : Bytes)
  | psoDecipher (data : Bytes)
  | ecdhDec (slotPurpose : KeyPurpose) (peerPublicKey : Bytes)
  | getChallenge (len : ℕ)
  | ed25519Sign (purpose : KeyPurpose) (message : Bytes)
  | x25519Ecdh (purpose : KeyPurpose) (peerPublicKey : Bytes)
  | internalAuthenticate (challenge : Bytes)
  /-- Generate a key pair (`p1 = 0x80`) or read the public key (`p1 = 0x81`). -/
  | generateOrReadKey (p1 : UInt8) (slot : OpenPgpKeySlot)
  | incrementSignatureCounter
  deriving DecidableEq

/-- What a call returns. -/
@[reducible] def BackendCall.Result : BackendCall → Type
  | .psoSignHash _ => Vec 512
  | .psoDecipher _ => Vec 512
  | .ecdhDec _ _ => Vec 64
  | .getChallenge _ => Vec 64
  | .ed25519Sign _ _ => Vec 64
  | .x25519Ecdh _ _ => Vec 32
  | .internalAuthenticate _ => Vec 512
  | .generateOrReadKey _ _ => Vec 512
  | _ => PUnit

/-- Pluggable backend over a state `β`: the vault, the PIN policy and the data objects. -/
structure OpenPgpBackend (β : Type) where
  /-- True after permanent lock or zeroisation. -/
  isTerminationState : β → Bool
  aidBytes : β → Bytes
  /-- PIN lengths and retry counters; byte 1 is the longest PW1, byte 3 the longest PW3. -/
  pwStatusBytes : β → Block 7
  getDo : β → UInt16 → Except OpenPgpBackendError (Vec 512)
  algorithmAttributes : β → OpenPgpKeySlot → AlgorithmAttributes
  /-- Record a security-relevant event. -/
  logEvent : UInt32 → β → β
  /-- The token was locked or the bus was reset. -/
  onLockDisconnect : β → β
  perform : (c : BackendCall) → Fallible β OpenPgpBackendError c.Result

/-- A backend that accepts every PIN and answers every call with empty data. -/
def acceptingBackend : OpenPgpBackend PUnit where
  isTerminationState _ := false
  aidBytes _ := openpgpAidPrefix
  pwStatusBytes _ := .ofBytes 7 [0, 5, 0, 8, 3, 3, 3]
  getDo _ _ := .ok .empty
  algorithmAttributes _ _ := .ecdsa .empty
  logEvent _ := id
  onLockDisconnect := id
  perform
    | .psoSignHash _ => pure .empty
    | .psoDecipher _ => pure .empty
    | .ecdhDec _ _ => pure .empty
    | .getChallenge _ => pure .empty
    | .ed25519Sign _ _ => pure .empty
    | .x25519Ecdh _ _ => pure .empty
    | .internalAuthenticate _ => pure .empty
    | .generateOrReadKey _ _ => pure .empty
    | .verifyPw1Sign _ => pure ⟨⟩
    | .verifyPw1Other _ => pure ⟨⟩
    | .verifyPw3 _ => pure ⟨⟩
    | .changePin _ _ _ => pure ⟨⟩
    | .setPw1VerifierAdminOnly _ => pure ⟨⟩
    | .resetPw1RetryCounter => pure ⟨⟩
    | .putDo _ _ => pure ⟨⟩
    | .incrementSignatureCounter => pure ⟨⟩

end Galdralag.OpenPgp
