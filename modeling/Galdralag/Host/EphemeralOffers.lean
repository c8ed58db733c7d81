import Galdralag.Foundation.Bytes
import Galdralag.Host.Audit
import Galdralag.Host.Text

/-!
# Ephemeral key offers

An offer is a JSON text in an encrypted envelope. It carries an ephemeral public key, a detached
signature over that key, and the fingerprint of the key that is said to have made the signature.
Importing an offer compares the fingerprint in the text with the one that is expected, and asks
GnuPG whether the signature is good.

GnuPG, the JSON parser and the hexadecimal decoder are outside the program: `Tools` is a parameter.
GnuPG finds a signature good when it is valid for some key of the local keyring.
-/

set_option linter.all false

namespace Galdralag.Host

open Fallible

/-- Plaintext JSON body of an ephemeral key offer. -/
structure OfferJson where
  schemaVersion : ℕ
  epkHex : String
  longTermFingerprint : String
  signatureHex : String
  expiresAt : Int
  createdAt : Int
  sessionId : String
  consumed : Bool
  deriving DecidableEq

/-- A row from the `ephemeral_offers` table, whose primary key is the session. -/
structure OfferRow where
  sessionId : String
  epkHex : String
  curve : String
  longTermFingerprint : String
  signatureHex : String
  expiresAt : Int
  createdAt : Int
  consumed : Bool
  revoked : Bool
  importedAt : String
  myPrivateKeyBytes : Option Bytes
  deriving DecidableEq

/-- The tables that an import touches. -/
structure EpkDb where
  offers : List OfferRow
  auditLog : AuditLog

/-- What an import calls: GnuPG with its keys, the parsers, and the lower case of a text. -/
structure Tools (Key : Type) where
  keyring : List Key
  fingerprint : Key → String
  /-- `validates k data sig`: the signature is valid for the key. -/
  validates : Key → Bytes → Bytes → Bool
  /-- What GnuPG prints about a bad signature. -/
  verifyStderr : Bytes → Bytes → String
  gpgDecrypt : Bytes → Except GaldraError Bytes
  offerFromSlice : Bytes → Except String OfferJson
  hexDecode : String → Except String Bytes
  toLowercase : String → String

/-- Parameters for importing an offer received from a peer. -/
structure ImportParams where
  offerGpgBytes : Bytes
  /-- Expected fingerprint of the issuer. -/
  verifyFingerprint : String
  operator : Option String

/-- The readings of the clock during an import. -/
structure Instants (Time : Type) where
  /-- Seconds since the epoch, when the expiry is checked. -/
  timestamp : Int
  imported : Time
  logged : Time

def offerSchemaVersion : ℕ := 1

section Import

variable {Key Time : Type} (tools : Tools Key) (clock : Rfc3339 Time) (hash : ChainHash)

/-- Trim, drop the spaces and lower the case. -/
def normaliseFingerprint (fp : String) : String :=
  tools.toLowercase (String.ofList ((trim fp.toList).filter fun c ↦ c ≠ ' '))

/-- Ask GnuPG whether some key of the keyring validates the signature. -/
def gpgVerifyDetached (data sig : Bytes) : Except GaldraError Unit :=
  if tools.keyring.any fun k ↦ tools.validates k data sig then .ok ()
  else .error (.config ("detached GnuPG signature over EPK failed verification: " ++
    tools.verifyStderr data sig))

/-- Insert an offer row into the database. -/
def storeOffer (row : OfferRow) : Fallible EpkDb GaldraError PUnit := do
  let taken ← gets fun db ↦ db.offers.any fun r ↦ r.sessionId = row.sessionId
  require (taken = false) (.database .constraintViolation)
  modify fun db ↦ { db with offers := db.offers ++ [row] }

/-- Append to the audit log. -/
def logEntry (entry : AuditEntry Time) : Fallible EpkDb GaldraError PUnit :=
  modify fun db ↦ { db with auditLog := auditAppend clock hash entry db.auditLog }

/-- Log that an offer was refused. -/
def auditReject (now : Time) (sessionId reason : String) (operator : Option String) :
    Fallible EpkDb GaldraError PUnit :=
  logEntry clock hash {
    timestamp := now
    operator := operator
    action := .epkReject
    subject := some sessionId
    detail := some ("\x7b\"session_id\":\"" ++ sessionId ++ "\",\"reason\":\"" ++ reason ++ "\"\x7d")
    deviceSerial := none }

/-- Carry on after a check that was passed; log and stop after one that was not. -/
def orReject (now : Time) (sessionId reason : String) (operator : Option String) :
    Except GaldraError Unit → Fallible EpkDb GaldraError PUnit
  | .ok _ => pure ⟨⟩
  | .error e => do
    auditReject clock hash now sessionId reason operator
    fail e

/-- The row of an imported offer. -/
def importedRow (t : Instants Time) (offer : OfferJson) : OfferRow where
  sessionId := offer.sessionId
  epkHex := offer.epkHex
  curve := "brainpoolP256r1"
  longTermFingerprint := normaliseFingerprint tools offer.longTermFingerprint
  signatureHex := offer.signatureHex
  expiresAt := offer.expiresAt
  createdAt := offer.createdAt
  consumed := false
  revoked := false
  importedAt := clock.toRfc3339 t.imported
  myPrivateKeyBytes := none

/-- The log entry of an imported offer. -/
def importedEntry (params : ImportParams) (t : Instants Time) (offer : OfferJson) :
    AuditEntry Time where
  timestamp := t.logged
  operator := params.operator
  action := .epkImport
  subject := some offer.sessionId
  detail := some ("\x7b\"session_id\":\"" ++ offer.sessionId ++ "\",\"created_at\":" ++
    toString offer.createdAt ++ ",\"expires_at\":" ++ toString offer.expiresAt ++
    ",\"long_term_fingerprint\":\"" ++ normaliseFingerprint tools offer.longTermFingerprint ++ "\"\x7d")
  deviceSerial := none

/-- Import and validate an ephemeral key offer. -/
def importOffer (params : ImportParams) (t : Instants Time) :
    Fallible EpkDb GaldraError OfferJson := do
  let jsonBytes ← lift (tools.gpgDecrypt params.offerGpgBytes)
  let offer ← lift ((tools.offerFromSlice jsonBytes).mapError fun e ↦
    .serialise ("offer JSON parse: " ++ e))
  orReject clock hash t.logged offer.sessionId "bad_schema" params.operator
    (ensure (offer.schemaVersion = offerSchemaVersion)
      (.config ("offer schema_version must be 1, got " ++ toString offer.schemaVersion)))
  orReject clock hash t.logged offer.sessionId "already_consumed" params.operator
    (ensure (offer.consumed = false) (.epkConsumed offer.sessionId))
  orReject clock hash t.logged offer.sessionId "expired" params.operator
    (ensure (¬ t.timestamp ≥ offer.expiresAt) (.epkExpired offer.sessionId))
  orReject clock hash t.logged offer.sessionId "fingerprint_mismatch" params.operator
    (ensure (normaliseFingerprint tools offer.longTermFingerprint =
        normaliseFingerprint tools params.verifyFingerprint)
      (.config "long_term_fingerprint does not match verify_fingerprint"))
  let epkSec1 ← lift ((tools.hexDecode offer.epkHex).mapError fun e ↦ .config ("epk_hex: " ++ e))
  let sigBin ← lift ((tools.hexDecode offer.signatureHex).mapError fun e ↦
    .config ("signature_hex: " ++ e))
  orReject clock hash t.logged offer.sessionId "bad_epk_signature" params.operator
    (gpgVerifyDetached tools epkSec1 sigBin)
  storeOffer (importedRow tools clock t offer)
  logEntry clock hash (importedEntry tools params t offer)
  pure offer

end Import

end Galdralag.Host
