import Galdralag.Host.Sync

/-!
# Importing on an open handle

An import attaches the package to the connection, copies its rows in a transaction and detaches it.
The transaction undoes what it did when a statement fails. Attaching is not part of it: every error
behind it returns before the statement that detaches, and the package stays attached under its name.
The connection has one such name, so no later import gets as far as its transaction.

A package may be any database file, with or without the tables, and the database engine may fail at
any statement for reasons of its own, such as a full disk or a lock that another process holds.
-/

set_option linter.all false

namespace Galdralag.Host

open Fallible KeyedTable

/-! ## Package files -/

/-- A table of a package, with its columns. -/
structure PackageTable where
  schema : Schema
  rows : List Tuple
  rows_length : ∀ row ∈ rows, row.length = schema.columns.length

/-- The tables of a package file that an import reads, if it has them, and the key of the file. -/
structure PackageDatabase where
  key : Option String
  identities : Option PackageTable
  groupMetadata : Option PackageTable
  groups : Option PackageTable

/-- What a path leads to. -/
inductive PackageFile where
  /-- Nothing that there is. -/
  | unresolved (message : String)
  /-- Something that cannot be opened as a database. -/
  | unreadable (e : SqlError)
  | database (d : PackageDatabase)

/-- Open a file as a database under a key. -/
def PackageFile.openUnder (key : Option String) : PackageFile → Except GaldraError PackageDatabase
  | .unresolved message => .error (.io message)
  | .unreadable e => .error (.database e)
  | .database d => if d.key = key then .ok d else .error (.database .notADatabase)

/-! ## Statements -/

/-- The statements of an import. -/
inductive ImportStep where
  | attach
  | begin
  | foreignKeysOff
  | deleteGroups
  | deleteMetadata
  | deleteIdentities
  | localColumns
  | packageColumns
  | insertIdentities
  | insertMetadata
  | insertGroups
  | foreignKeysOn
  | commit
  | detach
  deriving DecidableEq, Repr

/-- The statements that the database engine fails at for reasons of its own, with the error. -/
abbrev Faults := ImportStep → Option SqlError

/-- No such statement. -/
def Faults.none : Faults := fun _ ↦ Option.none

def Faults.check (faults : Faults) (step : ImportStep) : Except GaldraError PUnit :=
  (faults step).elim (.ok ⟨⟩) fun e ↦ .error (.database e)

/-- A statement that changes the tables or fails. -/
def statement (faults : Faults) (step : ImportStep) (f : Tables → Except GaldraError Tables) :
    Fallible Tables GaldraError PUnit := do
  lift (faults.check step)
  let t ← reading f
  modify fun _ ↦ t

/-- A table of the package, which has to be there. -/
def packageTable (t : Option PackageTable) : Except GaldraError PackageTable :=
  t.elim (.error (.database .noSuchTable)) .ok

/-- The rows of a table of the package, to be inserted by position. -/
def selectAll (t : Schema) (pkg : Option PackageTable) : Except GaldraError (List Tuple) := do
  let pkg ← packageTable pkg
  let _ ← ensure (pkg.schema.columns.length = t.columns.length)
    (GaldraError.database .columnCountMismatch)
  .ok pkg.rows

/-- `INSERT`, or `INSERT OR REPLACE`. -/
def put (orReplace : Bool) (t : Schema) (check : Tuple → Bool) (rows : List Tuple) (row : Tuple) :
    Option (List Tuple) := if orReplace then t.replace check rows row else t.insert check rows row

section Statements

variable (faults : Faults) (pkg : PackageDatabase)

/-- Copy the contacts, by the names of their columns. Memberships go with the contacts that are
replaced. -/
def importIdentities (orReplace : Bool) (t : Tables) : Except GaldraError Tables := do
  let src ← packageTable pkg.identities
  if orReplace then do
    let s ← orViolation (src.rows.foldlM (fun s row ↦
      identitySchema.replaceCascade (fun _ ↦ true) refersTo s (importedIdentity src.schema row))
      (t.identities, t.groups))
    .ok { t with identities := s.1, groups := s.2 }
  else do
    let rows ← orViolation (src.rows.foldlM (fun rows row ↦
      identitySchema.insert (fun _ ↦ true) rows (importedIdentity src.schema row)) t.identities)
    .ok { t with identities := rows }

/-- Copy the groups, by position. -/
def importMetadata (orReplace : Bool) (t : Tables) : Except GaldraError Tables := do
  let src ← selectAll metadataSchema pkg.groupMetadata
  let rows ← orViolation
    (src.foldlM (put orReplace metadataSchema fun _ ↦ true) t.groupMetadata)
  .ok { t with groupMetadata := rows }

/-- Copy the memberships, by position. -/
def importGroups (orReplace : Bool) (t : Tables) : Except GaldraError Tables := do
  let src ← selectAll groupSchema pkg.groups
  let rows ← orViolation
    (src.foldlM (put orReplace groupSchema fun m ↦ t.identities.any (refersTo m)) t.groups)
  .ok { t with groups := rows }

/-- Copy the rows of the package. The columns of the contacts are asked for first. -/
def copyRows (orReplace : Bool) : Fallible Tables GaldraError PUnit := do
  lift (faults.check .localColumns)
  lift (faults.check .packageColumns)
  statement faults .insertIdentities (importIdentities pkg orReplace)
  statement faults .insertMetadata (importMetadata pkg orReplace)
  statement faults .insertGroups (importGroups pkg orReplace)

/-- What happens inside the transaction. -/
def importRows : SyncImportMode → Fallible Tables GaldraError PUnit
  | .replace => do
    -- the two pragmas have no effect inside a transaction
    statement faults .foreignKeysOff .ok
    statement faults .deleteGroups fun t ↦ .ok { t with groups := [] }
    statement faults .deleteMetadata fun t ↦ .ok { t with groupMetadata := [] }
    statement faults .deleteIdentities fun t ↦ .ok { t with identities := [] }
    copyRows faults pkg false
    statement faults .foreignKeysOn .ok
  | .merge => copyRows faults pkg true

end Statements

/-! ## The connection -/

/-- An open database, with the package that is attached to its connection. -/
structure DbHandle where
  key : Option String
  tables : Tables
  attached : Option PackageDatabase

namespace DbHandle

/-- The path of the package for the engine. -/
def sqlitePathForAttach : PackageFile → Except GaldraError PUnit
  | .unresolved message => .error (.io message)
  | _ => .ok ⟨⟩

/-- The package that is attached, if the name is free. -/
def openPackage (file : PackageFile) (c : DbHandle) : Except GaldraError PackageDatabase :=
  if c.attached.isSome then .error (.database .alreadyInUse) else file.openUnder c.key

/-- Attach a package. -/
def attach (faults : Faults) (file : PackageFile) : Fallible DbHandle GaldraError PackageDatabase := do
  lift (faults.check .attach)
  let d ← reading (openPackage file)
  modify fun c ↦ { c with attached := some d }
  pure d

/-- The transaction, which is rolled back when it fails. -/
def transaction (faults : Faults) (body : Fallible Tables GaldraError PUnit) :
    Fallible DbHandle GaldraError PUnit :=
  zoom DbHandle.tables (fun t c ↦ { c with tables := t }) (atomic do
    lift (faults.check .begin)
    body
    lift (faults.check .commit))

/-- Import a sync package. -/
def syncImport (faults : Faults) (file : PackageFile) (mode : SyncImportMode) :
    Fallible DbHandle GaldraError PUnit := do
  lift (sqlitePathForAttach file)
  let d ← attach faults file
  transaction faults (importRows faults d mode)
  lift (faults.check .detach)
  modify fun c ↦ { c with attached := none }

end DbHandle

/-! ## Packages that were exported -/

/-- A package with all the columns, of tables that keep their constraints. -/
def exportedTables (key : Option String) (pkg : Tables) (h : pkg.Consistent) : PackageDatabase where
  key := key
  identities := some ⟨identitySchema, pkg.identities, fun r hr ↦
    Schema.length_of_accepts (h.identities.accepts r hr)⟩
  groupMetadata := some ⟨metadataSchema, pkg.groupMetadata, fun r hr ↦
    Schema.length_of_accepts (h.groupMetadata.accepts r hr)⟩
  groups := some ⟨groupSchema, pkg.groups, fun r hr ↦
    Schema.length_of_accepts (h.groups.accepts r hr)⟩

theorem statement_of_ok {step : ImportStep} {f : Tables → Except GaldraError Tables} {t t' : Tables}
    (h : f t = .ok t') : statement Faults.none step f t = (.ok ⟨⟩, t') := by
  have hread : reading f t = (.ok t', t) := by rw [reading_apply, h]
  have hcheck : lift (Faults.none.check step) t = (.ok ⟨⟩, t) := rfl
  rw [statement, bind_of_ok hcheck, bind_of_ok hread]
  rfl

section Copying

variable {pkg : Tables} (h : pkg.Consistent) (key : Option String) {t : Tables}

theorem importIdentities_insert {rows : List Tuple}
    (hrows : orViolation (pkg.identities.foldlM (fun rows row ↦
      identitySchema.insert (fun _ ↦ true) rows (importedIdentity identitySchema row)) t.identities)
      = .ok rows) :
    importIdentities (exportedTables key pkg h) false t = .ok { t with identities := rows } := by
  rw [importIdentities]
  change (orViolation _ >>= _) = _
  rw [hrows]
  rfl

theorem importIdentities_replace {s : List Tuple × List Tuple}
    (hrows : orViolation (pkg.identities.foldlM (fun s row ↦
      identitySchema.replaceCascade (fun _ ↦ true) refersTo s (importedIdentity identitySchema row))
      (t.identities, t.groups)) = .ok s) :
    importIdentities (exportedTables key pkg h) true t =
      .ok { t with identities := s.1, groups := s.2 } := by
  rw [importIdentities]
  change (orViolation _ >>= _) = _
  rw [hrows]
  rfl

theorem importMetadata_exported {orReplace : Bool} {rows : List Tuple}
    (hrows : orViolation (pkg.groupMetadata.foldlM
      (put orReplace metadataSchema fun _ ↦ true) t.groupMetadata) = .ok rows) :
    importMetadata (exportedTables key pkg h) orReplace t =
      .ok { t with groupMetadata := rows } := by
  rw [importMetadata]
  change (orViolation _ >>= _) = _
  rw [hrows]
  rfl

theorem importGroups_exported {orReplace : Bool} {rows : List Tuple}
    (hrows : orViolation (pkg.groups.foldlM
      (put orReplace groupSchema fun m ↦ t.identities.any (refersTo m)) t.groups) = .ok rows) :
    importGroups (exportedTables key pkg h) orReplace t = .ok { t with groups := rows } := by
  rw [importGroups]
  change (orViolation _ >>= _) = _
  rw [hrows]
  rfl

/-- The three copies one after the other. -/
theorem copyRows_of_ok {d : PackageDatabase} {orReplace : Bool} {t₁ t₂ t₃ : Tables}
    (h₁ : importIdentities d orReplace t = .ok t₁) (h₂ : importMetadata d orReplace t₁ = .ok t₂)
    (h₃ : importGroups d orReplace t₂ = .ok t₃) :
    copyRows Faults.none d orReplace t = (.ok ⟨⟩, t₃) := by
  have hcheck (step : ImportStep) (t : Tables) :
      (lift (Faults.none.check step) : Fallible Tables GaldraError PUnit) t = (.ok ⟨⟩, t) := rfl
  rw [copyRows, bind_of_ok (hcheck _ _), bind_of_ok (hcheck _ _), bind_of_ok (statement_of_ok h₁),
    bind_of_ok (statement_of_ok h₂)]
  exact statement_of_ok h₃

/-- What an import makes of the tables, statement by statement, is what was said of it. -/
theorem importRows_exported {t' : Tables} {mode : SyncImportMode}
    (hok : importInto pkg t mode = .ok t') :
    importRows Faults.none (exportedTables key pkg h) mode t = (.ok ⟨⟩, t') := by
  -- the parts of the import that is known, one for each statement
  cases mode with
  | merge =>
    rw [importInto, importMerge] at hok
    obtain ⟨s, hidentities, hok⟩ := except_bind_eq_ok.mp hok
    obtain ⟨groupMetadata, hmetadata, hok⟩ := except_bind_eq_ok.mp hok
    obtain ⟨groups, hgroups, hok⟩ := except_bind_eq_ok.mp hok
    obtain rfl := Except.ok.inj hok
    exact copyRows_of_ok (importIdentities_replace h key hidentities)
      (importMetadata_exported h key hmetadata) (importGroups_exported h key hgroups)
  | replace =>
    rw [importInto, importReplace] at hok
    obtain ⟨identities, hidentities, hok⟩ := except_bind_eq_ok.mp hok
    obtain ⟨groupMetadata, hmetadata, hok⟩ := except_bind_eq_ok.mp hok
    obtain ⟨groups, hgroups, hok⟩ := except_bind_eq_ok.mp hok
    obtain rfl := Except.ok.inj hok
    have hids : importIdentities (exportedTables key pkg h) false ⟨[], [], []⟩ =
        .ok ⟨identities, [], []⟩ := importIdentities_insert h key hidentities
    have hcopy := copyRows_of_ok hids (importMetadata_exported h key hmetadata)
      (importGroups_exported h key hgroups)
    rw [importRows]
    -- the deletions leave nothing, whatever was there
    refine Eq.trans (bind_of_ok (statement_of_ok rfl)) (Eq.trans (bind_of_ok (statement_of_ok rfl)) ?_)
    refine Eq.trans (bind_of_ok (statement_of_ok rfl)) (Eq.trans (bind_of_ok (statement_of_ok rfl)) ?_)
    exact Eq.trans (bind_of_ok hcopy) (statement_of_ok rfl)

end Copying

/-! ## What an import leaves on the connection -/

/-- The file is a database under this key. -/
def PackageFile.ReadableUnder (file : PackageFile) (key : Option String) : Prop :=
  ∃ d, file = .database d ∧ d.key = key

theorem PackageFile.openUnder_error {file : PackageFile} {key : Option String}
    (h : ¬ file.ReadableUnder key) : ∃ e, file.openUnder key = .error e := by
  rcases file with message | e | d
  · exact ⟨_, rfl⟩
  · exact ⟨_, rfl⟩
  · exact ⟨_, if_neg fun hkey ↦ h ⟨d, rfl, hkey⟩⟩

namespace DbHandle

variable {faults : Faults} {file : PackageFile} {mode : SyncImportMode} {c c' : DbHandle}

/-- A package that is there under the right key is attached. -/
theorem attach_of_readable {d : PackageDatabase} (hfree : c.attached = none)
    (hfault : faults .attach = none) (hkey : d.key = c.key) :
    attach faults (.database d) c = (.ok d, { c with attached := some d }) := by
  have hcheck : lift (faults.check .attach) c = (.ok ⟨⟩, c) := by
    rw [lift_apply, Faults.check, hfault]
    rfl
  have hopen : reading (openPackage (.database d)) c = (.ok d, c) := by
    rw [reading_apply, openPackage, hfree]
    change (if d.key = c.key then _ else _, c) = _
    rw [if_pos hkey]
  rw [attach, bind_of_ok hcheck, bind_of_ok hopen, modify_bind, pure_apply]

/-- Otherwise the import ends here, and the connection is as it was. -/
theorem syncImport_of_not_attached
    (h : ¬ (c.attached = none ∧ faults .attach = none ∧ file.ReadableUnder c.key)) :
    ∃ e, syncImport faults file mode c = (.error e, c) := by
  have hattach : ∃ e, attach faults file c = (.error e, c) := by
    rcases hfault : faults .attach with _ | e
    · have hcheck : lift (faults.check .attach) c = (.ok ⟨⟩, c) := by
        rw [lift_apply, Faults.check, hfault]
        rfl
      have hopen : ∃ e, openPackage file c = .error e := by
        rw [openPackage]
        by_cases hfree : c.attached.isSome
        · exact ⟨_, if_pos hfree⟩
        · rw [if_neg hfree]
          rw [Option.not_isSome_iff_eq_none] at hfree
          exact PackageFile.openUnder_error fun hread ↦ h ⟨hfree, hfault, hread⟩
      obtain ⟨e, he⟩ := hopen
      have hread : reading (openPackage file) c = (.error e, c) := by rw [reading_apply, he]
      exact ⟨e, by rw [attach, bind_of_ok hcheck, bind_of_error hread]⟩
    · refine ⟨.database e, ?_⟩
      have hcheck : lift (faults.check .attach) c = (.error (.database e), c) := by
        rw [lift_apply, Faults.check, hfault]
        rfl
      rw [attach, bind_of_error hcheck]
  obtain ⟨e, he⟩ := hattach
  rcases hpath : sqlitePathForAttach file with e' | _
  · have hlift : lift (sqlitePathForAttach file) c = (.error e', c) := by rw [lift_apply, hpath]
    exact ⟨e', by rw [syncImport, bind_of_error hlift]⟩
  · have hlift : lift (sqlitePathForAttach file) c = (.ok ⟨⟩, c) := by rw [lift_apply, hpath]
    exact ⟨e, by rw [syncImport, bind_of_ok hlift, bind_of_error he]⟩

/-- A transaction changes the tables or nothing. -/
theorem transaction_cases (faults : Faults) (body : Fallible Tables GaldraError PUnit)
    (c : DbHandle) : (∃ e, transaction faults body c = (.error e, c)) ∨
      ∃ t, transaction faults body c = (.ok ⟨⟩, { c with tables := t }) := by
  rw [transaction, zoom_apply]
  rcases hbody : (lift (faults.check .begin) >>= fun _ ↦ body >>= fun _ ↦
    lift (faults.check .commit)) c.tables with ⟨e | _, t⟩
  · refine .inl ⟨e, ?_⟩
    rw [atomic_of_error hbody]
  · refine .inr ⟨t, ?_⟩
    rw [atomic_of_ok hbody]

/-- An import that fails with its package attached leaves it attached. The tables are rolled back,
unless it was only detaching that failed. -/
theorem attached_of_error {d : PackageDatabase} {e : GaldraError} (hfree : c.attached = none)
    (hfault : faults .attach = none) (hkey : d.key = c.key)
    (h : syncImport faults (.database d) mode c = (.error e, c')) :
    c'.attached = some d ∧ (faults .detach = none → c'.tables = c.tables) := by
  have hpath : lift (sqlitePathForAttach (.database d)) c = (.ok ⟨⟩, c) := rfl
  rw [syncImport, bind_of_ok hpath, bind_of_ok (attach_of_readable hfree hfault hkey)] at h
  rcases transaction_cases faults (importRows faults d mode) { c with attached := some d } with
    ⟨e', he⟩ | ⟨t, ht⟩
  · rw [bind_of_error he] at h
    rw [← (Prod.mk.inj h).2]
    exact ⟨rfl, fun _ ↦ rfl⟩
  · -- the rows are committed, so only detaching can have failed
    rw [bind_of_ok ht] at h
    rcases hdetach : faults .detach with _ | e'
    · rw [Faults.check, hdetach] at h
      cases (Prod.mk.inj h).1
    · rw [Faults.check, hdetach] at h
      rw [← (Prod.mk.inj h).2]
      refine ⟨rfl, ?_⟩
      rintro ⟨⟩

/-- An exported package is imported where nothing is attached. -/
theorem syncImport_exported {pkg : Tables} (h : pkg.Consistent) (mode : SyncImportMode)
    (hfree : c.attached = none) : ∃ c', syncImport Faults.none
      (.database (exportedTables c.key pkg h)) mode c = (.ok ⟨⟩, c') := by
  have hinto : ∃ t, importInto pkg c.tables mode = .ok t := by
    cases mode with
    | merge => exact ⟨_, importMerge_eq h c.tables⟩
    | replace => exact ⟨_, importReplace_eq h⟩
  obtain ⟨t, ht⟩ := hinto
  have hrows := importRows_exported h c.key ht
  have hbody : (lift (Faults.none.check .begin) >>= fun _ ↦
      importRows Faults.none (exportedTables c.key pkg h) mode >>= fun _ ↦
        lift (Faults.none.check .commit)) c.tables = (.ok ⟨⟩, t) := by
    refine Eq.trans (bind_of_ok rfl) ?_
    rw [bind_of_ok hrows]
    rfl
  have htransaction : transaction Faults.none
      (importRows Faults.none (exportedTables c.key pkg h) mode)
      { c with attached := some (exportedTables c.key pkg h) } =
        (.ok ⟨⟩, ⟨c.key, t, some (exportedTables c.key pkg h)⟩) := by
    rw [transaction, zoom_apply, atomic_of_ok hbody]
  have hpath : lift (sqlitePathForAttach (.database (exportedTables c.key pkg h))) c
      = (.ok ⟨⟩, c) := rfl
  refine ⟨⟨c.key, t, none⟩, ?_⟩
  rw [syncImport, bind_of_ok hpath, bind_of_ok (attach_of_readable hfree rfl rfl),
    bind_of_ok htransaction]
  rfl

/-- The tables are as they were, and every exported package can be imported. -/
structure LeavesNoTrace (c c' : DbHandle) : Prop where
  tables : c'.tables = c.tables
  imports : ∀ (pkg : Tables) (h : pkg.Consistent) (mode : SyncImportMode), ∃ c'',
    syncImport Faults.none (.database (exportedTables c.key pkg h)) mode c' = (.ok ⟨⟩, c'')

/-- A package without rows. -/
theorem empty_consistent : (⟨[], [], []⟩ : Tables).Consistent := by
  refine ⟨⟨?_, .nil⟩, ⟨?_, .nil⟩, ⟨?_, .nil⟩, ?_⟩ <;>
    exact fun r hr ↦ absurd hr List.not_mem_nil

/-- Where a package is attached, every import fails. -/
theorem syncImport_of_attached (faults : Faults) (file : PackageFile) (mode : SyncImportMode)
    (h : c.attached ≠ none) : ∃ e, syncImport faults file mode c = (.error e, c) :=
  syncImport_of_not_attached fun hall ↦ h hall.1

theorem not_leavesNoTrace_of_attached (h : c'.attached ≠ none) : ¬ LeavesNoTrace c c' := by
  intro htrace
  obtain ⟨c'', hok⟩ := htrace.imports _ empty_consistent .merge
  obtain ⟨e, he⟩ := syncImport_of_attached Faults.none
    (.database (exportedTables c.key _ empty_consistent)) .merge h
  rw [he] at hok
  cases (Prod.mk.inj hok).1

/-- **Failed imports.** An import that fails leaves no trace on its connection exactly when nothing
is attached to it yet and the package is not attached either: the engine refuses to, or there is no
database at the path, or not one under the key of the connection. Whatever fails later, the package
stays attached. -/
theorem failed_import_iff {e : GaldraError} (h : syncImport faults file mode c = (.error e, c')) :
    LeavesNoTrace c c' ↔
      c.attached = none ∧ ¬ (faults .attach = none ∧ file.ReadableUnder c.key) := by
  constructor
  · intro htrace
    by_contra hcond
    refine absurd htrace (not_leavesNoTrace_of_attached ?_)
    by_cases hfree : c.attached = none
    · rw [not_and, not_not] at hcond
      obtain ⟨hfault, d, rfl, hkey⟩ := hcond hfree
      rw [(attached_of_error hfree hfault hkey h).1]
      exact Option.some_ne_none d
    · obtain ⟨e', he⟩ := syncImport_of_attached faults file mode hfree
      rwa [← (Prod.mk.inj (he.symm.trans h)).2]
  · rintro ⟨hfree, hnot⟩
    obtain ⟨e', he⟩ : ∃ e', syncImport faults file mode c = (.error e', c) :=
      syncImport_of_not_attached fun hall ↦ hnot hall.2
    obtain rfl := (Prod.mk.inj (he.symm.trans h)).2
    exact ⟨rfl, fun pkg hpkg mode' ↦ syncImport_exported hpkg mode' hfree⟩

/-- An unencrypted database without rows, just opened. -/
def fresh : DbHandle := ⟨none, ⟨[], [], []⟩, none⟩

/-- What an import of an empty file leaves. -/
def blocked : DbHandle := { fresh with attached := some ⟨none, none, none, none⟩ }

/-- An empty file is a database without tables. -/
theorem empty_file_trace : LeavesNoTrace fresh blocked ↔ fresh.attached = none ∧
    ¬ (Faults.none .attach = none ∧
      (PackageFile.database ⟨none, none, none, none⟩).ReadableUnder fresh.key) :=
  failed_import_iff (show syncImport Faults.none (.database ⟨none, none, none, none⟩) .merge fresh =
    (.error (.database .noSuchTable), blocked) from rfl)

/-- Its import fails, and no later one gets through. -/
theorem empty_file_blocks : ∃ e c',
    syncImport Faults.none (.database ⟨none, none, none, none⟩) .merge fresh = (.error e, c') ∧
      ¬ LeavesNoTrace fresh c' :=
  ⟨.database .noSuchTable, blocked, rfl, not_leavesNoTrace_of_attached (Option.some_ne_none _)⟩

/-! ## Runs of imports -/

/-- Import one package after the other, whatever becomes of each. -/
def imports (c : DbHandle) (calls : List (Faults × PackageFile × SyncImportMode)) : DbHandle :=
  calls.foldl (fun c call ↦ (syncImport call.1 call.2.1 call.2.2 c).2) c

/-- **A blocked connection stays blocked.** Once a package is left attached, no run of imports
changes anything any more. -/
theorem imports_of_attached (h : c.attached ≠ none)
    (calls : List (Faults × PackageFile × SyncImportMode)) : c.imports calls = c := by
  induction calls with
  | nil => rfl
  | cons call calls ih =>
    obtain ⟨e, he⟩ := syncImport_of_attached call.1 call.2.1 call.2.2 h
    rw [imports, List.foldl_cons, he]
    exact ih

end DbHandle

end Galdralag.Host
