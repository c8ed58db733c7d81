import Galdralag.Host.Directory

/-!
# What an import leaves

Replacing leaves exactly what was exported. Merging leaves every row of the package, and the local
rows that clash with none of them. A contact clashes with a row of the package that has its
identifier or its callsign, and takes its memberships along, so merging may lose more than the
package brings: a contact whose callsign another one has in the package, and the memberships, in
groups the package knows nothing of, of every contact that the package brings again.

Both read the package with the key of the local database, and the package has none.
-/

set_option linter.all false

namespace Galdralag.Host

open KeyedTable

/-! ## Replacing -/

section Replace

variable {Time : Type} (clock : Rfc3339 Time) [LT Time] [DecidableLT Time]

/-- **Export, then replace.** What any calls made of a directory is exported, and takes the place of
what another database holds, exactly when that database is not encrypted. -/
theorem export_replace_iff (key : Option String) (calls : List (DirectoryCall Time)) (db : Database) :
    (∃ pkg, syncExport (reached clock key calls) = .ok pkg ∧
      syncImport pkg .replace db = .ok (directory clock calls).tables) ↔ db.key = none := by
  have hexport := syncExport_eq (reached clock key calls)
  have himport := importReplace_eq (reached clock key calls).consistent
  constructor
  · rintro ⟨pkg, hpkg, h⟩
    obtain rfl := Except.ok.inj (hexport.symm.trans hpkg)
    by_contra hkey
    rw [syncImport_encrypted _ _ hkey] at h
    cases h
  · intro hkey
    exact ⟨_, hexport, (syncImport_eq _ _ hkey).trans himport⟩

end Replace

/-- An encrypted database without rows. -/
def lockedDatabase : Database where
  key := some "correct horse battery staple"
  tables := ⟨[], [], []⟩
  consistent := by
    refine ⟨⟨?_, .nil⟩, ⟨?_, .nil⟩, ⟨?_, .nil⟩, ?_⟩ <;>
      exact fun r hr ↦ absurd hr List.not_mem_nil

/-- Nothing is imported into it, not even the package of an empty directory. -/
theorem encrypted_import_fails :
    ¬ ∃ pkg, syncExport (reached textClock none []) = .ok pkg ∧
      syncImport pkg .replace lockedDatabase = .ok (directory textClock []).tables := by
  rintro ⟨pkg, hpkg, h⟩
  obtain rfl := Except.ok.inj ((syncExport_eq (reached textClock none [])).symm.trans hpkg)
  rw [syncImport_encrypted _ _ (by rintro ⟨⟩)] at h
  cases h

/-! ## Merging -/

/-- The identifier of a contact. -/
def contactId (r : Tuple) : Value := identitySchema.get r "id"

/-- The callsign of a contact. -/
def contactCallsign (r : Tuple) : Value := identitySchema.get r "callsign"

/-- The name of a group. -/
def metadataName (r : Tuple) : Value := metadataSchema.get r "group_name"

/-- The group and the contact of a membership. -/
def membershipKey (m : Tuple) : Value × Value :=
  (groupSchema.get m "group_name", groupSchema.get m "identity_id")

/-- What merging is to keep, and what it is to bring. -/
structure MergeKeeps (pkg db merged : Tables) : Prop where
  /-- Contacts that the package does not have stay. -/
  contacts : ∀ r ∈ db.identities, (∀ p ∈ pkg.identities, contactId p ≠ contactId r) →
    r ∈ merged.identities
  /-- So do groups. -/
  groups : ∀ r ∈ db.groupMetadata, (∀ p ∈ pkg.groupMetadata, metadataName p ≠ metadataName r) →
    r ∈ merged.groupMetadata
  /-- So do memberships. -/
  memberships : ∀ m ∈ db.groups, (∀ p ∈ pkg.groups, membershipKey p ≠ membershipKey m) →
    m ∈ merged.groups
  /-- Every row of the package is there. -/
  brought : (∀ p ∈ pkg.identities, p ∈ merged.identities) ∧
    (∀ p ∈ pkg.groupMetadata, p ∈ merged.groupMetadata) ∧ ∀ p ∈ pkg.groups, p ∈ merged.groups

/-- What merging a package loses nothing with: no local contact that the package does not have has a
callsign of the package, and no local membership that the package does not have is one of a contact
of the package. -/
structure Apart (pkg db : Tables) : Prop where
  callsigns : ∀ r ∈ db.identities, (∀ p ∈ pkg.identities, contactId p ≠ contactId r) →
    ∀ p ∈ pkg.identities, contactCallsign p ≠ .null → contactCallsign p ≠ contactCallsign r
  memberships : ∀ m ∈ db.groups, (∀ p ∈ pkg.groups, membershipKey p ≠ membershipKey m) →
    ∀ p ∈ pkg.identities, contactId p ≠ (membershipKey m).2

theorem get_ne_null {t : Schema} {row : Tuple} (h : t.accepts row = true) {c : String}
    (hc : c ∈ t.notNull) : t.get row c ≠ .null := by
  rw [Schema.accepts, Bool.and_eq_true, List.all_eq_true] at h
  simpa using h.2 c hc

theorem clashes_contact {p r : Tuple} (hp : identitySchema.accepts p = true) :
    identitySchema.clashes p r = true ↔ contactId p = contactId r ∨
      contactCallsign p ≠ .null ∧ contactCallsign p = contactCallsign r := by
  have hid := get_ne_null hp (c := "id") (by decide)
  have hkeys : identitySchema.keys = [["id"], ["callsign"]] := rfl
  rw [Schema.clashes_iff, hkeys]
  simp [contactId, contactCallsign, hid]

theorem clashes_group {p r : Tuple} (hp : metadataSchema.accepts p = true) :
    metadataSchema.clashes p r = true ↔ metadataName p = metadataName r := by
  have hname := get_ne_null hp (c := "group_name") (by decide)
  have hkeys : metadataSchema.keys = [["group_name"]] := rfl
  rw [Schema.clashes_iff, hkeys]
  simp [metadataName, hname]

theorem clashes_key {p m : Tuple} (hp : groupSchema.accepts p = true) :
    groupSchema.clashes p m = true ↔ membershipKey p = membershipKey m := by
  have hname := get_ne_null hp (c := "group_name") (by decide)
  have hid := get_ne_null hp (c := "identity_id") (by decide)
  have hkeys : groupSchema.keys = [["group_name", "identity_id"]] := rfl
  rw [Schema.clashes_iff, hkeys]
  simp [membershipKey, hname, hid]

theorem mem_spared {pkg db : Tables} {r : Tuple} : r ∈ pkg.spared db ↔
    r ∈ db.identities ∧ ∀ p ∈ pkg.identities, ¬ identitySchema.clashes p r = true := by
  rw [Tables.spared, List.mem_filter, Bool.not_eq_true', List.any_eq_false]

theorem mem_sparedMemberships {pkg db : Tables} {m : Tuple} : m ∈ pkg.sparedMemberships db ↔
    m ∈ db.groups ∧ ∀ r ∈ db.identities, refersTo m r = true →
      ∀ p ∈ pkg.identities, ¬ identitySchema.clashes p r = true := by
  rw [Tables.sparedMemberships, List.mem_filter, Bool.not_eq_true', List.any_eq_false]
  simp only [Bool.and_eq_true, List.any_eq_true, not_and]
  refine and_congr_right fun _ ↦ forall_congr' fun r ↦ forall_congr' fun _ ↦ ?_
  constructor
  · exact fun h hrefers p hp hclash ↦ h ⟨p, hp, hclash⟩ hrefers
  · rintro h ⟨p, hp, hclash⟩ hrefers
    exact h hrefers p hp hclash

theorem refersTo_iff {m r : Tuple} : refersTo m r = true ↔ (membershipKey m).2 = contactId r :=
  decide_eq_true_iff

section Merge

variable {pkg db merged : Tables}

/-- The tables after a merge, row by row. -/
theorem mem_merged (hpkg : pkg.Consistent) (h : importMerge pkg db = .ok merged) :
    (∀ r, r ∈ merged.identities ↔ (r ∈ db.identities ∧
        ∀ p ∈ pkg.identities, ¬ identitySchema.clashes p r = true) ∨ r ∈ pkg.identities) ∧
      (∀ r, r ∈ merged.groupMetadata ↔ (r ∈ db.groupMetadata ∧
        ∀ p ∈ pkg.groupMetadata, metadataName p ≠ metadataName r) ∨ r ∈ pkg.groupMetadata) ∧
      ∀ m, m ∈ merged.groups ↔ (m ∈ pkg.sparedMemberships db ∧
        ∀ p ∈ pkg.groups, membershipKey p ≠ membershipKey m) ∨ m ∈ pkg.groups := by
  obtain rfl := Except.ok.inj ((importMerge_eq hpkg db).symm.trans h)
  refine ⟨fun r ↦ ?_, fun r ↦ ?_, fun m ↦ ?_⟩
  · rw [List.mem_append, mem_spared]
  · rw [List.mem_append, List.mem_filter, Bool.not_eq_true', List.any_eq_false]
    refine or_congr_left (and_congr_right fun _ ↦ forall₂_congr fun p hp ↦ ?_)
    rw [clashes_group (hpkg.groupMetadata.accepts p hp)]
  · rw [List.mem_append, List.mem_filter, Bool.not_eq_true', List.any_eq_false]
    refine or_congr_left (and_congr_right fun _ ↦ forall₂_congr fun p hp ↦ ?_)
    rw [clashes_key (hpkg.groups.accepts p hp)]

/-- A merge keeps what it is to keep exactly when package and database are apart. -/
theorem mergeKeeps_iff (hpkg : pkg.Consistent) (hdb : db.Consistent)
    (h : importMerge pkg db = .ok merged) : MergeKeeps pkg db merged ↔ Apart pkg db := by
  obtain ⟨hidentities, hmetadata, hgroups⟩ := mem_merged hpkg h
  have hclash : ∀ p ∈ pkg.identities, ∀ r, identitySchema.clashes p r = true ↔
      contactId p = contactId r ∨ contactCallsign p ≠ .null ∧ contactCallsign p = contactCallsign r :=
    fun p hp r ↦ clashes_contact (hpkg.identities.accepts p hp)
  constructor
  · intro hkeeps
    refine ⟨fun r hr hnew p hp hsome heq ↦ ?_, fun m hm hnew p hp hid ↦ ?_⟩
    · rcases (hidentities r).mp (hkeeps.contacts r hr hnew) with ⟨-, hfree⟩ | hmem
      · exact hfree p hp ((hclash p hp r).mpr (.inr ⟨hsome, heq⟩))
      · exact hnew r hmem rfl
    · -- the contact of the membership is there, and the package brings it again
      obtain ⟨r, hr, hrefers⟩ := List.any_eq_true.mp (hdb.refers m hm)
      rcases (hgroups m).mp (hkeeps.memberships m hm hnew) with ⟨hspared, -⟩ | hmem
      · refine (mem_sparedMemberships.mp hspared).2 r hr hrefers p hp ((hclash p hp r).mpr (.inl ?_))
        rw [hid, refersTo_iff.mp hrefers]
      · exact hnew m hmem rfl
  · intro hapart
    have hsurvives : ∀ r ∈ db.identities, (∀ p ∈ pkg.identities, contactId p ≠ contactId r) →
        ∀ p ∈ pkg.identities, ¬ identitySchema.clashes p r = true := by
      intro r hr hnew p hp hclashes
      rcases (hclash p hp r).mp hclashes with hid | ⟨hsome, heq⟩
      · exact hnew p hp hid
      · exact hapart.callsigns r hr hnew p hp hsome heq
    refine ⟨fun r hr hnew ↦ (hidentities r).mpr (.inl ⟨hr, hsurvives r hr hnew⟩),
      fun r hr hnew ↦ (hmetadata r).mpr (.inl ⟨hr, hnew⟩), fun m hm hnew ↦ ?_,
      fun p hp ↦ (hidentities p).mpr (.inr hp), fun p hp ↦ (hmetadata p).mpr (.inr hp),
      fun p hp ↦ (hgroups p).mpr (.inr hp)⟩
    refine (hgroups m).mpr (.inl ⟨mem_sparedMemberships.mpr ⟨hm, fun r hr hrefers ↦ ?_⟩, hnew⟩)
    refine hsurvives r hr fun p hp hid ↦ hapart.memberships m hm hnew p hp ?_
    rw [hid, refersTo_iff.mp hrefers]

end Merge

/-- **Merging a package.** The package of any database is merged into another one, and everything is
kept that the package does not have, exactly when the other database is not encrypted and apart from
it. -/
theorem merge_keeps_iff (exported db : Database) :
    (∃ pkg merged, syncExport exported = .ok pkg ∧ syncImport pkg .merge db = .ok merged ∧
      MergeKeeps pkg.tables db.tables merged) ↔ db.key = none ∧ Apart exported.tables db.tables := by
  have hexport := syncExport_eq exported
  constructor
  · rintro ⟨pkg, merged, hpkg, himport, hkeeps⟩
    obtain rfl := Except.ok.inj (hexport.symm.trans hpkg)
    have hkey : db.key = none := by
      by_contra hkey
      rw [syncImport_encrypted _ _ hkey] at himport
      cases himport
    rw [syncImport_eq _ _ hkey] at himport
    exact ⟨hkey, (mergeKeeps_iff exported.consistent db.consistent himport).mp hkeeps⟩
  · rintro ⟨hkey, hapart⟩
    have himport := importMerge_eq exported.consistent db.tables
    exact ⟨_, _, hexport, (syncImport_eq _ _ hkey).trans himport,
      (mergeKeeps_iff exported.consistent db.consistent himport).mpr hapart⟩

/-! ## A callsign that moves, a member that comes again -/

/-- A contact with a callsign. -/
def withCallsign (displayName callsign : String) : NewContact where
  toOptionalFields := { OptionalFields.none with callsign := some callsign }
  displayName := displayName
  email := "op@example.org"

/-- A database with a contact under the identifier `id` and the callsign LA1ABC. -/
def station (id displayName : String) : Database :=
  reached textClock none [.contact (.add id "2026-01-01T00:00:00+00:00"
    (withCallsign displayName "LA1ABC"))]

/-- The contact of the other station is not in the package, but its callsign is. -/
theorem station_not_apart : ¬ Apart (station "b" "Bo").tables (station "a" "Ada").tables := by
  have hb : (station "b" "Bo").tables.identities.map (fun r ↦ (contactId r, contactCallsign r))
      = [(.text "b", .text "LA1ABC")] := by decide +kernel
  have ha : (station "a" "Ada").tables.identities.map (fun r ↦ (contactId r, contactCallsign r))
      = [(.text "a", .text "LA1ABC")] := by decide +kernel
  obtain ⟨p, hpkg, hp⟩ := List.map_eq_singleton_iff.mp hb
  obtain ⟨r, hdb, hr⟩ := List.map_eq_singleton_iff.mp ha
  obtain ⟨hpid, hpcall⟩ := Prod.mk.inj hp
  obtain ⟨hrid, hrcall⟩ := Prod.mk.inj hr
  intro hapart
  refine hapart.callsigns r (hdb ▸ List.mem_singleton_self r) ?_ p (hpkg ▸ List.mem_singleton_self p)
    ?_ (hpcall.trans hrcall.symm)
  · intro q hq
    obtain rfl := List.mem_singleton.mp (hpkg ▸ hq)
    rw [hpid, hrid]
    decide
  · rw [hpcall]
    rintro ⟨⟩

/-- A package from the database of another station with the callsign takes the local contact away.
-/
theorem merge_drops_contact : ¬ ∃ pkg merged, syncExport (station "b" "Bo") = .ok pkg ∧
    syncImport pkg .merge (station "a" "Ada") = .ok merged ∧
    MergeKeeps pkg.tables (station "a" "Ada").tables merged := by
  rintro ⟨pkg, merged, hpkg, himport, hkeeps⟩
  obtain rfl := Except.ok.inj ((syncExport_eq _).symm.trans hpkg)
  rw [syncImport_eq _ _ rfl] at himport
  exact station_not_apart ((mergeKeeps_iff (station "b" "Bo").consistent
    (station "a" "Ada").consistent himport).mp hkeeps)

end Galdralag.Host
