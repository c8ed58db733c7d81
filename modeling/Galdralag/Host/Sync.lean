import Galdralag.Foundation.Fallible
import Galdralag.Foundation.KeyedTable
import Galdralag.Host.Error

/-!
# Sync packages

A sync package is a database file of its own with the tables of contacts and groups. Exporting
creates the file, without a key, and copies the tables row by row, naming the columns. Importing
attaches the file to the local database and, in one transaction, either deletes the local rows and
inserts those of the package, or puts the rows of the package in the place of those they clash with.
Contacts are imported by the names of their columns, groups and memberships by position.

Turning foreign keys off has no effect inside a transaction, so memberships are checked, and go with
the contact they refer to, throughout. A file that is attached without a key of its own is read with
the key of the main database.
-/

set_option linter.all false

namespace Galdralag.Host

open KeyedTable

/-! ## The tables -/

/-- `identities`, with the columns in the order in which the migrations added them. SQLite would let
the primary key be empty; every statement of the program writes one. -/
def identitySchema : Schema where
  columns := ["id", "display_name", "callsign", "email", "badge_number", "organisation", "department",
    "role", "note", "pgp_fingerprint", "pgp_pubkey", "fetched_at", "expires_at", "source", "dmr_id",
    "radio_affiliation", "street", "country", "postal_code", "region", "fluxer_id", "discord_id",
    "irc_id", "phone_number"]
  notNull := ["id", "display_name", "source"]
  keys := [["id"], ["callsign"]]
  columns_nodup := by decide

/-- `groups`. -/
def groupSchema : Schema where
  columns := ["group_name", "identity_id", "added_at", "added_by", "expires_at"]
  notNull := ["group_name", "identity_id", "added_at"]
  keys := [["group_name", "identity_id"]]
  columns_nodup := by decide

/-- `group_metadata`. -/
def metadataSchema : Schema where
  columns := ["group_name", "description", "hidden_recipients", "created_at", "created_by"]
  notNull := ["group_name", "hidden_recipients", "created_at"]
  keys := [["group_name"]]
  columns_nodup := by decide

/-- The membership refers to the contact. -/
def refersTo (membership contact : Tuple) : Bool :=
  groupSchema.get membership "identity_id" = identitySchema.get contact "id"

/-- The rows of the three tables. -/
structure Tables where
  identities : List Tuple
  groupMetadata : List Tuple
  groups : List Tuple
  deriving DecidableEq

/-- The constraints of the three tables. -/
structure Tables.Consistent (t : Tables) : Prop where
  identities : identitySchema.Holds t.identities
  groupMetadata : metadataSchema.Holds t.groupMetadata
  groups : groupSchema.Holds t.groups
  refers : ∀ m ∈ t.groups, t.identities.any (refersTo m) = true

/-- An open database: its tables, and the key under which its file is encrypted, if it is. -/
structure Database where
  key : Option String
  tables : Tables
  consistent : tables.Consistent

/-- A package file. -/
structure SyncPackage where
  key : Option String
  tables : Tables

/-- How to apply a sync package to the local database. -/
inductive SyncImportMode where
  | merge
  | replace
  deriving DecidableEq, Repr

/-! ## Export -/

/-- A statement that violates a constraint fails. -/
def orViolation {α : Type} (r : Option α) : Except GaldraError α :=
  r.elim (.error (.database .constraintViolation)) .ok

/-- Copy the rows of a table one by one, under the names of its columns. -/
def copyTable (t : Schema) (check : Tuple → Bool) (src dst : List Tuple) :
    Except GaldraError (List Tuple) :=
  orViolation (src.foldlM (fun rows row ↦ t.insert check rows (t.rowOf t.columns row)) dst)

/-- Export contacts and groups to a new file. -/
def syncExport (db : Database) : Except GaldraError SyncPackage := do
  let identities ← copyTable identitySchema (fun _ ↦ true) db.tables.identities []
  let groupMetadata ← copyTable metadataSchema (fun _ ↦ true) db.tables.groupMetadata []
  let groups ← copyTable groupSchema (fun m ↦ identities.any (refersTo m)) db.tables.groups []
  pure ⟨none, ⟨identities, groupMetadata, groups⟩⟩

/-! ## Import -/

/-- The row that is imported for a contact of the package: the columns of the local table, empty
where the table of the package lacks the column. -/
def importedIdentity (pkg : Schema) (row : Tuple) : Tuple :=
  identitySchema.rowOf identitySchema.columns
    (identitySchema.columns.map fun c ↦ if c ∈ pkg.columns then pkg.get row c else .null)

/-- Delete the local rows and insert those of the package. -/
def importReplace (pkg : Tables) : Except GaldraError Tables := do
  let identities ← orViolation (pkg.identities.foldlM
    (fun rows row ↦ identitySchema.insert (fun _ ↦ true) rows (importedIdentity identitySchema row)) [])
  let groupMetadata ← orViolation
    (pkg.groupMetadata.foldlM (metadataSchema.insert fun _ ↦ true) [])
  let groups ← orViolation
    (pkg.groups.foldlM (groupSchema.insert fun m ↦ identities.any (refersTo m)) [])
  pure ⟨identities, groupMetadata, groups⟩

/-- Put the rows of the package in the place of the local rows they clash with. Memberships go with
the contacts they refer to. -/
def importMerge (pkg db : Tables) : Except GaldraError Tables := do
  let s ← orViolation (pkg.identities.foldlM
    (fun s row ↦ identitySchema.replaceCascade (fun _ ↦ true) refersTo s
      (importedIdentity identitySchema row)) (db.identities, db.groups))
  let groupMetadata ← orViolation
    (pkg.groupMetadata.foldlM (metadataSchema.replace fun _ ↦ true) db.groupMetadata)
  let groups ← orViolation
    (pkg.groups.foldlM (groupSchema.replace fun m ↦ s.1.any (refersTo m)) s.2)
  pure ⟨s.1, groupMetadata, groups⟩

/-- Apply a package to the local tables. -/
def importInto (pkg db : Tables) : SyncImportMode → Except GaldraError Tables
  | .replace => importReplace pkg
  | .merge => importMerge pkg db

/-- Import a sync package: the tables after the transaction. An error rolls it back. -/
def syncImport (pkg : SyncPackage) (mode : SyncImportMode) (db : Database) :
    Except GaldraError Tables := do
  let _ ← ensure (pkg.key = db.key) (GaldraError.database .notADatabase)
  importInto pkg.tables db.tables mode

/-! ## What is copied -/

theorem orViolation_some {α : Type} (a : α) : orViolation (some a) = .ok a := rfl

/-- A table that keeps its constraints is copied as it is. -/
theorem copyTable_eq {t : Schema} {check : Tuple → Bool} {src : List Tuple} (h : t.Holds src)
    (hcheck : ∀ r ∈ src, check r = true) : copyTable t check src [] = .ok src := by
  have hrow : ∀ r ∈ src, ∀ rows, t.insert check rows (t.rowOf t.columns r) = t.insert check rows r := by
    intro r hr rows
    rw [Schema.rowOf_columns (Schema.length_of_accepts (h.accepts r hr))]
  rw [copyTable, Fallible.foldlM_congr_mem hrow,
    Schema.foldlM_insert h hcheck fun r hr ↦ absurd hr List.not_mem_nil]
  rfl

/-- Exporting copies the three tables. -/
theorem syncExport_eq (db : Database) : syncExport db = .ok ⟨none, db.tables⟩ := by
  have h := db.consistent
  rw [syncExport, copyTable_eq h.identities fun _ _ ↦ rfl, ok_bind,
    copyTable_eq h.groupMetadata fun _ _ ↦ rfl, ok_bind, copyTable_eq h.groups h.refers]
  rfl

/-- A contact of a package with the same columns is imported as it is. -/
theorem importedIdentity_eq {row : Tuple} (h : identitySchema.accepts row = true) :
    importedIdentity identitySchema row = row := by
  have hlen := Schema.length_of_accepts h
  have hmap : (identitySchema.columns.map fun c ↦
      if c ∈ identitySchema.columns then identitySchema.get row c else .null) = row := by
    rw [← Schema.select_columns hlen, Schema.select]
    refine List.map_congr_left fun c hc ↦ ?_
    rw [if_pos hc, ← Schema.select, Schema.select_columns hlen]
  rw [importedIdentity, hmap, Schema.rowOf_columns hlen]

theorem foldlM_importedIdentity {β : Type} {rows : List Tuple} (h : identitySchema.Holds rows)
    (f : β → Tuple → Option β) (b : β) :
    rows.foldlM (fun b row ↦ f b (importedIdentity identitySchema row)) b = rows.foldlM f b :=
  Fallible.foldlM_congr_mem (fun r hr b ↦ by rw [importedIdentity_eq (h.accepts r hr)]) b

/-- A consistent package replaces everything. -/
theorem importReplace_eq {pkg : Tables} (h : pkg.Consistent) : importReplace pkg = .ok pkg := by
  have hidentities : pkg.identities.foldlM (fun rows row ↦
      identitySchema.insert (fun _ ↦ true) rows (importedIdentity identitySchema row)) []
      = some pkg.identities :=
    (foldlM_importedIdentity h.identities _ _).trans
      (Schema.foldlM_insert h.identities (fun _ _ ↦ rfl) fun r hr ↦ absurd hr List.not_mem_nil)
  rw [importReplace, hidentities, orViolation_some, ok_bind,
    Schema.foldlM_insert h.groupMetadata (fun _ _ ↦ rfl) fun r hr ↦ absurd hr List.not_mem_nil,
    orViolation_some, List.nil_append, ok_bind,
    Schema.foldlM_insert h.groups h.refers fun r hr ↦ absurd hr List.not_mem_nil]
  rfl

/-- The contacts of `db` that clash with no row of the package. -/
def Tables.spared (pkg db : Tables) : List Tuple :=
  db.identities.filter fun r ↦ !pkg.identities.any (identitySchema.clashes · r)

/-- The memberships of `db` that refer to no contact that clashes with a row of the package. -/
def Tables.sparedMemberships (pkg db : Tables) : List Tuple :=
  db.groups.filter fun m ↦
    !db.identities.any fun r ↦ pkg.identities.any (identitySchema.clashes · r) && refersTo m r

/-- What a consistent package makes of the local tables. -/
theorem importMerge_eq {pkg : Tables} (h : pkg.Consistent) (db : Tables) : importMerge pkg db = .ok {
    identities := pkg.spared db ++ pkg.identities
    groupMetadata := db.groupMetadata.filter (fun r ↦
      !pkg.groupMetadata.any (metadataSchema.clashes · r)) ++ pkg.groupMetadata
    groups := (pkg.sparedMemberships db).filter (fun m ↦
      !pkg.groups.any (groupSchema.clashes · m)) ++ pkg.groups } := by
  have hidentities : pkg.identities.foldlM (fun s row ↦
      identitySchema.replaceCascade (fun _ ↦ true) refersTo s (importedIdentity identitySchema row))
      (db.identities, db.groups)
      = some (pkg.spared db ++ pkg.identities, pkg.sparedMemberships db) :=
    (foldlM_importedIdentity h.identities _ _).trans
      (Schema.foldlM_replaceCascade h.identities fun _ _ ↦ rfl)
  have hrefers : ∀ m ∈ pkg.groups, (pkg.spared db ++ pkg.identities).any (refersTo m) = true := by
    intro m hm
    rw [List.any_append, h.refers m hm, Bool.or_true]
  rw [importMerge, hidentities, orViolation_some, ok_bind,
    Schema.foldlM_replace h.groupMetadata fun _ _ ↦ rfl, orViolation_some, ok_bind,
    Schema.foldlM_replace h.groups hrefers]
  rfl

/-- A package that was exported is read where the local database is not encrypted. -/
theorem syncImport_eq (t : Tables) (mode : SyncImportMode) {db : Database} (hkey : db.key = none) :
    syncImport ⟨none, t⟩ mode db = importInto t db.tables mode := by
  have hread : ensure (none = db.key) (GaldraError.database .notADatabase) = .ok () :=
    ensure_eq_ok.mpr hkey.symm
  rw [syncImport, hread, ok_bind]

/-- Under a key nothing is read. -/
theorem syncImport_encrypted (t : Tables) (mode : SyncImportMode) {db : Database}
    (hkey : db.key ≠ none) : syncImport ⟨none, t⟩ mode db = .error (.database .notADatabase) := by
  have hread : ensure (none = db.key) (GaldraError.database .notADatabase)
      = .error (.database .notADatabase) := if_neg (Ne.symm hkey)
  rw [syncImport, hread, error_bind]

end Galdralag.Host
