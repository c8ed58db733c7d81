import Galdralag.Foundation.Fallible
import Galdralag.Host.Clock
import Galdralag.Host.Error

/-!
# The audit log and its hash chain

Rows are appended to a table, and every row stores in `prevHash` a hash of the row before it. The
hash covers the fields of that row, from the timestamp to the device serial, but not the row's own
link and not its number.

The hash comes from libraries. It is a parameter: `ChainHash` encodes a payload and hashes the
encoding.
-/

set_option linter.all false

namespace Galdralag.Host

/-- Actions recorded in the audit log. -/
inductive AuditAction where
  | deviceUnlock
  | deviceLock
  | deviceZeroise
  | keyImport
  | keyDelete
  | keyFetch
  | groupCreate
  | groupAddMember
  | groupRemoveMember
  | groupDelete
  | encrypt
  | decrypt
  | sign
  | verify
  | syncExport
  | syncImport
  | configChange
  | epkGenerate
  | epkImport
  | epkDerive
  | epkReject
  deriving DecidableEq, Repr

/-- The stored name of an action. -/
def AuditAction.asStr : AuditAction → String
  | .deviceUnlock => "device_unlock"
  | .deviceLock => "device_lock"
  | .deviceZeroise => "device_zeroise"
  | .keyImport => "key_import"
  | .keyDelete => "key_delete"
  | .keyFetch => "key_fetch"
  | .groupCreate => "group_create"
  | .groupAddMember => "group_add_member"
  | .groupRemoveMember => "group_remove_member"
  | .groupDelete => "group_delete"
  | .encrypt => "encrypt"
  | .decrypt => "decrypt"
  | .sign => "sign"
  | .verify => "verify"
  | .syncExport => "sync_export"
  | .syncImport => "sync_import"
  | .configChange => "config_change"
  | .epkGenerate => "epk_generate"
  | .epkImport => "epk_import"
  | .epkDerive => "epk_derive"
  | .epkReject => "epk_reject"

/-- The action with a stored name. -/
def AuditAction.fromWire : String → Option AuditAction
  | "device_unlock" => some .deviceUnlock
  | "device_lock" => some .deviceLock
  | "device_zeroise" => some .deviceZeroise
  | "key_import" => some .keyImport
  | "key_delete" => some .keyDelete
  | "key_fetch" => some .keyFetch
  | "group_create" => some .groupCreate
  | "group_add_member" => some .groupAddMember
  | "group_remove_member" => some .groupRemoveMember
  | "group_delete" => some .groupDelete
  | "encrypt" => some .encrypt
  | "decrypt" => some .decrypt
  | "sign" => some .sign
  | "verify" => some .verify
  | "sync_export" => some .syncExport
  | "sync_import" => some .syncImport
  | "config_change" => some .configChange
  | "epk_generate" => some .epkGenerate
  | "epk_import" => some .epkImport
  | "epk_derive" => some .epkDerive
  | "epk_reject" => some .epkReject
  | _ => none

/-- Every action is read back from its stored name. -/
@[simp] theorem AuditAction.fromWire_asStr (a : AuditAction) : fromWire a.asStr = some a := by
  cases a <;> rfl

theorem AuditAction.asStr_injective {a b : AuditAction} (h : a.asStr = b.asStr) : a = b := by
  have hsome := congrArg fromWire h
  rwa [fromWire_asStr, fromWire_asStr, Option.some.injEq] at hsome

/-! ## Rows -/

/-- The fields of a row that are hashed. -/
structure ChainPayload where
  timestamp : String
  operator : Option String
  action : String
  subject : Option String
  detail : Option String
  deviceSerial : Option String
  deriving DecidableEq

/-- A row as the table holds it. -/
structure AuditRow where
  id : Int
  prevHash : String
  payload : ChainPayload
  deriving DecidableEq

/-- A new entry of the log. -/
structure AuditEntry (Time : Type) where
  timestamp : Time
  operator : Option String
  action : AuditAction
  subject : Option String
  detail : Option String
  deviceSerial : Option String

/-- A row as a query returns it. -/
structure AuditRecord (Time : Type) where
  id : Int
  prevHash : String
  timestamp : Time
  operator : Option String
  action : AuditAction
  subject : Option String
  detail : Option String
  deviceSerial : Option String

/-- The table, in the order of its primary key. -/
abbrev AuditLog := List AuditRow

/-- The JSON encoding of a payload and the hash of an encoding, in hexadecimal. -/
structure ChainHash where
  toJson : ChainPayload → String
  sha256Hex : String → String

/-- The hash has no collisions, and different payloads have different encodings. -/
structure ChainHash.CollisionFree (hash : ChainHash) : Prop where
  json_injective : ∀ {p q}, hash.toJson p = hash.toJson q → p = q
  sha256_injective : ∀ {s t}, hash.sha256Hex s = hash.sha256Hex t → s = t

/-- The link of the first row. -/
def genesisPrevHash : String := "0000000000000000000000000000000000000000000000000000000000000000"

/-- The hash of a payload. -/
def hashPayload (hash : ChainHash) (p : ChainPayload) : String := hash.sha256Hex (hash.toJson p)

theorem ChainHash.CollisionFree.hashPayload_inj {hash : ChainHash} (h : hash.CollisionFree)
    {p q : ChainPayload} (heq : hashPayload hash p = hashPayload hash q) : p = q :=
  h.json_injective (h.sha256_injective heq)

section Clock

variable {Time : Type} (clock : Rfc3339 Time) (hash : ChainHash)

/-- The payload of a record. -/
def AuditRecord.toPayload (rec : AuditRecord Time) : ChainPayload where
  timestamp := clock.toRfc3339 rec.timestamp
  operator := rec.operator
  action := rec.action.asStr
  subject := rec.subject
  detail := rec.detail
  deviceSerial := rec.deviceSerial

/-- The payload of an entry. -/
def AuditEntry.toPayload (entry : AuditEntry Time) : ChainPayload where
  timestamp := clock.toRfc3339 entry.timestamp
  operator := entry.operator
  action := entry.action.asStr
  subject := entry.subject
  detail := entry.detail
  deviceSerial := entry.deviceSerial

/-! ## Operations -/

/-- Append a row; its number is the next one. -/
def auditAppend (entry : AuditEntry Time) (log : AuditLog) : AuditLog :=
  log ++ [{
    id := log.getLast?.elim 1 fun row ↦ row.id + 1
    prevHash := log.getLast?.elim genesisPrevHash fun row ↦ hashPayload hash row.payload
    payload := entry.toPayload clock }]

/-- Read a row. An unknown action reads as a change of configuration. -/
def mapAuditRow (row : AuditRow) : Except SqlError (AuditRecord Time) :=
  (clock.parse row.payload.timestamp).elim (.error .conversionFailure) fun t ↦ .ok {
    id := row.id
    prevHash := row.prevHash
    timestamp := t
    operator := row.payload.operator
    action := (AuditAction.fromWire row.payload.action).getD .configChange
    subject := row.payload.subject
    detail := row.payload.detail
    deviceSerial := row.payload.deviceSerial }

/-- All rows, by number. -/
def auditQuery (log : AuditLog) : Except GaldraError (List (AuditRecord Time)) :=
  (log.mapM (mapAuditRow clock)).mapError .database

/-- Result of verifying the hash chain. -/
inductive AuditVerifyResult where
  | ok
  | chainBroken (entryId : Int) (expectedHash actualHash : String)
  deriving DecidableEq

/-- Check the links of the rows after `prev`. -/
def verifyFrom (prev : AuditRecord Time) : List (AuditRecord Time) → AuditVerifyResult
  | [] => .ok
  | rec :: rest =>
    if rec.prevHash ≠ hashPayload hash (prev.toPayload clock) then
      .chainBroken rec.id (hashPayload hash (prev.toPayload clock)) rec.prevHash
    else verifyFrom rec rest

/-- Check the links of all rows. -/
def verifyRows : List (AuditRecord Time) → AuditVerifyResult
  | [] => .ok
  | first :: rest =>
    if first.prevHash ≠ genesisPrevHash then
      .chainBroken first.id genesisPrevHash first.prevHash
    else verifyFrom clock hash first rest

/-- Verify the hash chain end to end. -/
def auditVerifyChain (log : AuditLog) : Except GaldraError AuditVerifyResult := do
  let rows ← auditQuery clock log
  pure (verifyRows clock hash rows)

end Clock

end Galdralag.Host
