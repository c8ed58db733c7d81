import Galdralag.Host.Audit
import Galdralag.Host.CipherEnvelope
import Galdralag.Host.FingerprintLookup
import Galdralag.Host.GaldraFingerprint
import Galdralag.Host.Membership
import Galdralag.Host.ProfileStore
import Galdralag.Host.ShareArmour

/-!
# Messages of the daemon

The daemon encrypts a message for a group and decrypts a message that a contact received. The
message is sealed under a cipher profile, wrapped in Mode A where the caller gives a key for it, and
encrypted with OpenPGP to the subkeys of the members whose membership is active. A message that is
decrypted leaves a row in the audit log.

OpenPGP, base64, hexadecimal and SHA-256 are the business of libraries, and so is the randomness of
an encryption: what is drawn for it is an argument.
-/

set_option linter.all false

namespace Galdralag.Host

open Fallible Cipher

/-- Errors of the operations on messages: those of the other operations, and three of their own. -/
inductive MessageError where
  | galdra (e : GaldraError)
  | openPgp (message : String)
  | allMembersExpired
  | noEncryptionSubkey (fingerprint : String)
  deriving DecidableEq, Repr

/-- A subkey to encrypt to, and whether the message says whose it is. -/
structure Recipient (Key : Type) where
  key : Key
  hidden : Bool

/-- A library for OpenPGP, where `Seed` is what is drawn for an encryption. -/
structure OpenPgp (Cert Key Seed : Type) where
  fromBytes : Bytes → Except String Cert
  fingerprint : Cert → String
  /-- The subkeys that the policy lets a message be encrypted to. -/
  encryptionKeys : Cert → List Key
  /-- The subkeys that come with a secret part which is not encrypted. -/
  secretKeys : Cert → List Key
  /-- Take the handle off a recipient. -/
  clearKeyHandle : Key → Except String Unit
  encrypt : Seed → List (Recipient Key) → Bytes → Except String Bytes
  /-- Decrypt with the secret subkeys that a certificate comes with. -/
  decrypt : Cert → Bytes → Except String Bytes

/-- The libraries that the daemon uses. -/
structure MessageEnv (Time Cert Key Seed : Type) where
  clock : Rfc3339 Time
  pgp : OpenPgp Cert Key Seed
  primitives : Primitives
  base64 : Base64Engine
  decodeToSlice : (n : ℕ) → List Char → Except String (Block n)
  sha256 : Bytes → Block 32
  chainHash : ChainHash

/-- What is drawn when a message is encrypted: the seconds of the clock, key material for the
cascade, and what OpenPGP draws. -/
structure Draw (Seed : Type) where
  tsUnix : UInt64
  prk : Block 32
  session : Seed

/-- The database of the daemon. -/
structure Daemon where
  db : Db ContactColumns
  profiles : UserProfiles
  audit : AuditLog

/-- The text of a result in base64 that is not. -/
def base64Error (e : String) : MessageError := .galdra (.config ("base64: " ++ e))

/-! ## Contacts -/

section Contacts

variable {Time : Type} (clock : Rfc3339 Time)

/-- The first contact with a property, which `key` stands for. -/
def contactGetBy (db : Db ContactColumns) (key : String) (p : IdentityRow ContactColumns → Bool) :
    Except GaldraError (Identity Time ContactColumns) :=
  (db.identities.find? p).elim (.error (.contactNotFound key)) fun row ↦
    .ok (identityFromRow clock row)

def contactGetByCallsign (db : Db ContactColumns) (callsign : String) :
    Except GaldraError (Identity Time ContactColumns) :=
  contactGetBy clock db callsign fun r ↦ r.columns.callsign = some callsign

def contactGetByEmail (db : Db ContactColumns) (email : String) :
    Except GaldraError (Identity Time ContactColumns) :=
  contactGetBy clock db email fun r ↦ r.columns.email = some email

def contactGetByFluxerId (db : Db ContactColumns) (fluxerId : String) :
    Except GaldraError (Identity Time ContactColumns) :=
  contactGetBy clock db fluxerId fun r ↦ r.columns.fluxerId = some fluxerId

def contactGetByDiscordId (db : Db ContactColumns) (discordId : String) :
    Except GaldraError (Identity Time ContactColumns) :=
  contactGetBy clock db discordId fun r ↦ r.columns.discordId = some discordId

def contactGetByIrcId (db : Db ContactColumns) (ircId : String) :
    Except GaldraError (Identity Time ContactColumns) :=
  contactGetBy clock db ircId fun r ↦ r.columns.ircId = some ircId

def contactGetByDmrId (db : Db ContactColumns) (dmrId : Int) :
    Except GaldraError (Identity Time ContactColumns) :=
  contactGetBy clock db (toString dmrId) fun r ↦ r.columns.dmrId = some dmrId

/-- A number of a radio in a text. -/
def tryParseDmrSubscriberId (token : String) : Option Int :=
  let t := trim token.toList
  if t = [] ∨ ¬t.all Char.isDigit then none
  else
    let n : ℕ := t.foldl (fun n c ↦ 10 * n + (c.toNat - 48)) 0
    if 1 ≤ n ∧ n ≤ 16777215 then some n else none

/-- What is looked up for an identifier, in this order. -/
def contactLookups (db : Db ContactColumns) (id : String) :
    List (Except GaldraError (Identity Time ContactColumns)) :=
  [contactGetById clock db id, contactGetByCallsign clock db id, contactGetByEmail clock db id] ++
    ((normalizeOpenpgpFingerprintHex id).map fun fp ↦
      contactGetByPgpFingerprintNormalized clock db fp).toList ++
    [contactGetByFluxerId clock db id, contactGetByDiscordId clock db id,
      contactGetByIrcId clock db id] ++
    ((tryParseDmrSubscriberId id).map fun dmr ↦ contactGetByDmrId clock db dmr).toList

/-- The contact that an identifier stands for: the first that one of the lookups finds. -/
def resolveContactIdentifier (db : Db ContactColumns) (id : String) :
    Except GaldraError (Identity Time ContactColumns) :=
  okOr ((contactLookups clock db id).findSome? Except.toOption) (.contactNotFound id)

variable [LT Time] [DecidableLT Time]

/-- The members whose membership is active. -/
def groupActiveMembers (now : Time) (name : String) (db : Db ContactColumns) :
    Except MessageError (List (Identity Time ContactColumns)) := do
  let g ← (groupGet clock now name db).mapError MessageError.galdra
  if g.members.isEmpty then pure []
  else
    let active := (g.members.filter fun m ↦ !m.isExpired).map (·.identity)
    let _ ← ensure (active.isEmpty = false) MessageError.allMembersExpired
    pure active

end Contacts

/-! ## OpenPGP -/

section Pgp

variable {Time Cert Key Seed : Type}

namespace OpenPgp

variable (pgp : OpenPgp Cert Key Seed)

/-- A recipient, without its handle where recipients are hidden. -/
def recipient (hiddenRecipients : Bool) (key : Key) : Except MessageError (Recipient Key) := do
  if hiddenRecipients then
    let _ ← (pgp.clearKeyHandle key).mapError MessageError.openPgp
    pure ⟨key, true⟩
  else pure ⟨key, false⟩

/-- The recipients for one certificate. -/
def recipientsOf (hiddenRecipients strict : Bool) (cert : Cert) :
    Except MessageError (List (Recipient Key)) := do
  let recipients ← (pgp.encryptionKeys cert).mapM (pgp.recipient hiddenRecipients)
  let _ ← ensure ((pgp.encryptionKeys cert).isEmpty = false ∨ strict = false)
    (MessageError.noEncryptionSubkey (pgp.fingerprint cert))
  pure recipients

def collectRecipients (recipientCerts : List Cert) (hiddenRecipients strict : Bool) :
    Except MessageError (List (Recipient Key)) := do
  let parts ← recipientCerts.mapM (pgp.recipientsOf hiddenRecipients strict)
  let _ ← ensure (parts.flatten.isEmpty = false)
    (MessageError.openPgp "no usable encryption subkeys for any recipient")
  pure parts.flatten

def encryptOpenpgp (seed : Seed) (plaintext : Bytes) (recipientCerts : List Cert)
    (hiddenRecipients strict : Bool) : Except MessageError Bytes := do
  let recipients ← pgp.collectRecipients recipientCerts hiddenRecipients strict
  (pgp.encrypt seed recipients plaintext).mapError MessageError.openPgp

/-- The certificate of a contact. -/
def identityToCert (id : Identity Time ContactColumns) : Except MessageError Cert := do
  let bytes ← okOr id.columns.pgpPubkey
    (MessageError.openPgp ("contact " ++ id.id ++ " has no OpenPGP key"))
  (pgp.fromBytes bytes).mapError MessageError.openPgp

end OpenPgp

/-! ## Texts -/

/-- Exactly `n` bytes in hexadecimal. -/
def parseHexFixed (env : MessageEnv Time Cert Key Seed) (n : ℕ) (label s : String) :
    Except GaldraError (Block n) := do
  let t := trim s.toList
  let _ ← ensure (byteLength t = n * 2) (GaldraError.config
    (label ++ " must be " ++ toString (n * 2) ++ " hex characters (" ++ toString n ++ " bytes)"))
  (env.decodeToSlice n t).mapError fun e ↦ GaldraError.config (label ++ ": " ++ e)

def sessionIdFromCiphertext (env : MessageEnv Time Cert Key Seed) (ciphertext : Bytes) : String :=
  String.ofList (hexEncode ((env.sha256 ciphertext).toBytes.take 8))

def curveAuditStr : Session.SessionCurve → String
  | .brainpoolP256r1 => "bp256"
  | .brainpoolP384r1 => "bp384"

def layerAuditName : CipherLayer → String
  | .aes256Gcm => "aes256gcm"
  | .chaCha20Poly1305 => "chacha20poly1305"
  | .twofish256 => "twofish256"
  | .serpent256 => "serpent256"
  | .camellia256 => "camellia256"

/-- The detail of a row about a message, without secrets. -/
def auditCryptoDetailMultiline (profile : Cipher.CipherProfile) (recipients : ℕ)
    (sessionId : String) : String :=
  let shamir := if 1 < profile.shamir.total then
    toString profile.shamir.threshold ++ "/" ++ toString profile.shamir.total else "none"
  "profile:" ++ profile.name ++ "\ncurve:" ++ curveAuditStr profile.curve ++ "  layers:[" ++
    String.intercalate ", " (profile.layers.map layerAuditName) ++ "]  shamir:" ++ shamir ++
    "\nrecipients:" ++ toString recipients ++ "  session_id:" ++ sessionId

/-! ## Encryption -/

def placeholderSenderFp : String := "0000000000000000000000000000000000000000"

structure EncryptBody where
  group : String
  plaintextB64 : List Char
  profile : Option String := none
  sign : Option Bool := none
  cessKOuterHex : Option String := none
  cessNonceHex : Option String := none

/-- The key and the nonce for Mode A, which come together. -/
def cessPair (env : MessageEnv Time Cert Key Seed) (body : EncryptBody) :
    Except GaldraError (Option (Block 32 × Block 12)) :=
  match body.cessKOuterHex, body.cessNonceHex with
  | none, none => .ok none
  | some kh, some nh => do
    let k ← parseHexFixed env 32 "cess_k_outer_hex" kh
    let nonce ← parseHexFixed env 12 "cess_nonce_hex" nh
    pure (some (k, nonce))
  | _, _ => .error (.config "CESS Mode A requires both cess_k_outer_hex and cess_nonce_hex")

/-- A message under a profile, and in Mode A where there is a key for it. -/
def sealMessage (env : MessageEnv Time Cert Key Seed) (tsUnix : UInt64) (prk : Block 32)
    (profile : Cipher.CipherProfile) (plain : Bytes) (cess : Option (Block 32 × Block 12)) :
    Except GaldraError Bytes := do
  let sealed ← sealPlaintextWithProfile env.primitives tsUnix prk profile plain placeholderSenderFp
  match cess with
  | none => pure sealed
  | some (kOuter, nonce) =>
    wrapInnerWithCessModeA env.primitives sealed profile.name kOuter nonce

variable [LT Time] [DecidableLT Time]

/-- Encrypt a message for a group, under the profile that is named or the standard one. -/
def encryptMsg (env : MessageEnv Time Cert Key Seed) (fault : Option SqlError) (draw : Draw Seed)
    (now : Time) (body : EncryptBody) (d : Daemon) : Except MessageError (List Char) := do
  let _ ← ensure (body.sign.getD false = false) (MessageError.galdra (.config
    "cleartext signing during encrypt requires a connected token (not yet integrated)"))
  let plain ← (env.base64.decode body.plaintextB64).mapError base64Error
  let store ← (ProfileStore.load fault d.profiles).mapError MessageError.galdra
  let profileName := body.profile.getD "standard"
  let profile ← okOr (store.registry.get profileName)
    (MessageError.galdra (.profileNotFound profileName))
  let cess ← (cessPair env body).mapError MessageError.galdra
  let idents ← groupActiveMembers env.clock now body.group d.db
  let certs ← idents.mapM env.pgp.identityToCert
  let g ← (groupGet env.clock now body.group d.db).mapError MessageError.galdra
  let sealed ← (sealMessage env draw.tsUnix draw.prk profile plain cess).mapError
    MessageError.galdra
  let ct ← env.pgp.encryptOpenpgp draw.session sealed certs g.hiddenRecipients true
  pure (env.base64.encode ct)

end Pgp

/-! ## Decryption -/

section Decrypt

variable {Time Cert Key Seed : Type}

/-- The profile that is named in a request is for the reader; the message says which it is under. -/
structure DecryptBody where
  recipient : String
  ciphertextB64 : List Char
  profile : Option String := none
  cessKOuterHex : Option String := none

/-- What a decryption comes to: the message, the profile it is under, and the entry for the log. -/
structure Opened (Time : Type) where
  plain : Bytes
  profile : String
  entry : AuditEntry Time

def decryptionFailed : String := "decryption failed — host stores public keys only; use a " ++
  "connected token with decryption support (integration pending)"

/-- The key for Mode A, where there is one. -/
def cessKey (env : MessageEnv Time Cert Key Seed) (hex : Option String) :
    Except GaldraError (Option (Block 32)) :=
  match hex with
  | none => .ok none
  | some s => (parseHexFixed env 32 "cess_k_outer_hex" s).map some

/-- Open a message, without the log. -/
def openMsg (env : MessageEnv Time Cert Key Seed) (fault : Option SqlError) (now : Time)
    (body : DecryptBody) (d : Daemon) : Except MessageError (Opened Time) := do
  let ciphertext ← (env.base64.decode body.ciphertextB64).mapError base64Error
  let id ← (resolveContactIdentifier env.clock d.db body.recipient).mapError MessageError.galdra
  let cert ← env.pgp.identityToCert id
  let inner ← (env.pgp.decrypt cert ciphertext).mapError fun _ ↦
    MessageError.galdra (.config decryptionFailed)
  let cessKOuter ← (cessKey env body.cessKOuterHex).mapError MessageError.galdra
  let store ← (ProfileStore.load fault d.profiles).mapError MessageError.galdra
  let (plain, pname) ← (openPlaintextFromOpenpgpLiteral env.primitives inner cessKOuter
    store.registry.get).mapError MessageError.galdra
  let sid := sessionIdFromCiphertext env ciphertext
  let detail := (store.registry.get pname).elim
    ("profile:" ++ pname ++ "\nsession_id:" ++ sid ++ " (profile definition missing from registry)")
    fun p ↦ auditCryptoDetailMultiline p 1 sid
  pure {
    plain
    profile := pname
    entry := {
      timestamp := now
      operator := none
      action := .decrypt
      subject := some id.id
      detail := some detail
      deviceSerial := none } }

/-- Decrypt a message for a contact. The message is handed out only when the log has its row. -/
def decryptMsg (env : MessageEnv Time Cert Key Seed) (fault appendFault : Option SqlError)
    (now : Time) (body : DecryptBody) : Fallible Daemon MessageError (List Char × String) := do
  let opened ← reading (openMsg env fault now body)
  lift (appendFault.elim (.ok ⟨⟩) fun e ↦ .error (.galdra (.database e)))
  modify fun d ↦ { d with audit := auditAppend env.clock env.chainHash opened.entry d.audit }
  pure (env.base64.encode opened.plain, opened.profile)

/-- A message that opens is handed out, with a row in the log. -/
theorem decryptMsg_of_opens {env : MessageEnv Time Cert Key Seed} {fault : Option SqlError}
    {now : Time} {body : DecryptBody} {d : Daemon} {opened : Opened Time}
    (h : openMsg env fault now body d = .ok opened) :
    decryptMsg env fault none now body d = (.ok (env.base64.encode opened.plain, opened.profile),
      { d with audit := auditAppend env.clock env.chainHash opened.entry d.audit }) := by
  rw [decryptMsg, bind_apply, reading_apply, h]
  rfl

/-- One that does not leaves the database as it is. -/
theorem decryptMsg_of_fails {env : MessageEnv Time Cert Key Seed}
    {fault appendFault : Option SqlError} {now : Time} {body : DecryptBody} {d : Daemon}
    {e : MessageError} (h : openMsg env fault now body d = .error e) :
    decryptMsg env fault appendFault now body d = (.error e, d) := by
  rw [decryptMsg, bind_apply, reading_apply, h]

end Decrypt

end Galdralag.Host
