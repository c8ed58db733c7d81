import Galdralag.Host.Contacts
import Galdralag.Host.Membership
import Galdralag.Host.Sync
import Mathlib.Data.List.Pairwise

/-!
# The directory as tables

The rows of contacts, groups and memberships are rows of tables whose constraints SQLite checks.
Whatever contact and group operations are called, and in whatever order, the constraints hold: no
two contacts have an identifier or a callsign in common, no two rows have a key in common, and every
membership refers to a contact. Memberships of deleted groups stay, which no constraint forbids.
-/

set_option linter.all false

namespace Galdralag.Host

open Fallible KeyedTable

/-! ## Rows as values -/

/-- A value that may be missing. -/
def optional {α : Type} (f : α → Value) (a : Option α) : Value := a.elim .null f

/-- A text that may be missing. -/
def optionalText : Option String → Value := optional .text

/-- The values of a contact, in the order of the columns. -/
def IdentityRow.values (r : IdentityRow ContactColumns) : Tuple :=
  [.text r.id, .text r.columns.displayName, optionalText r.columns.callsign,
    optionalText r.columns.email, optionalText r.columns.badgeNumber,
    optionalText r.columns.organisation, optionalText r.columns.department,
    optionalText r.columns.role, optionalText r.columns.note,
    optionalText r.columns.pgpFingerprint, optional .blob r.columns.pgpPubkey,
    optionalText r.columns.fetchedAt, optionalText r.expiresAt, .text r.columns.source,
    optional .integer r.columns.dmrId, optionalText r.columns.radioAffiliation,
    optionalText r.columns.street, optionalText r.columns.country,
    optionalText r.columns.postalCode, optionalText r.columns.region,
    optionalText r.columns.fluxerId, optionalText r.columns.discordId,
    optionalText r.columns.ircId, optionalText r.columns.phoneNumber]

/-- The values of a membership. -/
def MembershipRow.values (g : MembershipRow) : Tuple :=
  [.text g.groupName, .text g.identityId, .text g.addedAt, optionalText g.addedBy,
    optionalText g.expiresAt]

/-- The values of a group. -/
def MetadataRow.values (r : MetadataRow) : Tuple :=
  [.text r.groupName, optionalText r.description, .integer r.hiddenRecipients, .text r.createdAt,
    optionalText r.createdBy]

/-- The tables of a directory. -/
def Db.tables (db : Db ContactColumns) : Tables where
  identities := db.identities.map IdentityRow.values
  groupMetadata := db.groupMetadata.map MetadataRow.values
  groups := db.groups.map MembershipRow.values

theorem optional_inj {α : Type} {f : α → Value} (hf : ∀ a b, f a = f b → a = b)
    (hnull : ∀ a, f a ≠ .null) {a b : Option α} : optional f a = optional f b ↔ a = b := by
  refine ⟨fun h ↦ ?_, fun h ↦ by rw [h]⟩
  rcases a with _ | a <;> rcases b with _ | b
  · rfl
  · exact absurd h.symm (hnull b)
  · exact absurd h (hnull a)
  · exact congrArg some (hf a b h)

@[simp] theorem optionalText_inj {s t : Option String} : optionalText s = optionalText t ↔ s = t :=
  optional_inj (fun _ _ ↦ Value.text.inj) (by rintro _ ⟨⟩)

@[simp] theorem optional_blob_inj {s t : Option Bytes} :
    optional .blob s = optional .blob t ↔ s = t :=
  optional_inj (fun _ _ ↦ Value.blob.inj) (by rintro _ ⟨⟩)

@[simp] theorem optional_integer_inj {i j : Option Int} :
    optional .integer i = optional .integer j ↔ i = j :=
  optional_inj (fun _ _ ↦ Value.integer.inj) (by rintro _ ⟨⟩)

theorem optionalText_eq_null {s : Option String} : optionalText s = .null ↔ s = none := by
  have hnone : Value.null = optionalText none := rfl
  rw [hnone, optionalText_inj]

/-- The values determine the contact, every column of it. -/
theorem IdentityRow.values_injective : Function.Injective IdentityRow.values := by
  rintro ⟨id, expiresAt, ⟨⟨⟩, name, email, fp, key, fetched, source⟩⟩
    ⟨id', expiresAt', ⟨⟨⟩, name', email', fp', key', fetched', source'⟩⟩ h
  simp only [IdentityRow.values, List.cons.injEq, Value.text.injEq, optionalText_inj,
    optional_blob_inj, optional_integer_inj, and_true] at h
  simp [h]

theorem MembershipRow.values_injective : Function.Injective MembershipRow.values := by
  rintro ⟨name, id, added, by', expires⟩ ⟨name', id', added', by'', expires'⟩ h
  simp only [MembershipRow.values, List.cons.injEq, Value.text.injEq, optionalText_inj,
    and_true] at h
  simp [h]

theorem MetadataRow.values_injective : Function.Injective MetadataRow.values := by
  rintro ⟨name, description, hidden, created, by'⟩ ⟨name', description', hidden', created', by''⟩ h
  simp only [MetadataRow.values, List.cons.injEq, Value.text.injEq, Value.integer.injEq,
    optionalText_inj, and_true] at h
  simp [h]

/-- The tables determine the directory. -/
theorem Db.tables_injective : Function.Injective Db.tables := by
  intro db db' h
  rcases db with ⟨identities, groups, metadata⟩
  rcases db' with ⟨identities', groups', metadata'⟩
  obtain ⟨hi, hm, hg⟩ := Tables.mk.inj h
  obtain rfl : identities = identities' := List.map_injective_iff.mpr IdentityRow.values_injective hi
  obtain rfl : metadata = metadata' := List.map_injective_iff.mpr MetadataRow.values_injective hm
  obtain rfl : groups = groups' := List.map_injective_iff.mpr MembershipRow.values_injective hg
  rfl

/-! ## Keys -/

theorem clashes_identity {r r' : IdentityRow ContactColumns} :
    identitySchema.clashes r.values r'.values = true ↔
      r.id = r'.id ∨ r.columns.callsign ≠ none ∧ r.columns.callsign = r'.columns.callsign := by
  have hid : ∀ r : IdentityRow ContactColumns, identitySchema.get r.values "id" = .text r.id :=
    fun _ ↦ rfl
  have hcallsign : ∀ r : IdentityRow ContactColumns,
      identitySchema.get r.values "callsign" = optionalText r.columns.callsign := fun _ ↦ rfl
  have hkeys : identitySchema.keys = [["id"], ["callsign"]] := rfl
  rw [Schema.clashes_iff, hkeys]
  simp only [List.mem_cons, List.not_mem_nil, or_false, exists_eq_or_imp, exists_eq_left,
    forall_eq, hid, hcallsign, Value.text.injEq, optionalText_inj, ne_eq, optionalText_eq_null]
  simp

theorem clashes_membership {g g' : MembershipRow} :
    groupSchema.clashes g.values g'.values = true ↔
      g.groupName = g'.groupName ∧ g.identityId = g'.identityId := by
  have hname : ∀ g : MembershipRow, groupSchema.get g.values "group_name" = .text g.groupName :=
    fun _ ↦ rfl
  have hid : ∀ g : MembershipRow, groupSchema.get g.values "identity_id" = .text g.identityId :=
    fun _ ↦ rfl
  have hkeys : groupSchema.keys = [["group_name", "identity_id"]] := rfl
  rw [Schema.clashes_iff, hkeys]
  simp only [List.mem_cons, List.not_mem_nil, or_false, exists_eq_left, forall_eq_or_imp,
    forall_eq, hname, hid, Value.text.injEq]
  simp

theorem clashes_metadata {r r' : MetadataRow} :
    metadataSchema.clashes r.values r'.values = true ↔ r.groupName = r'.groupName := by
  have hname : ∀ r : MetadataRow, metadataSchema.get r.values "group_name" = .text r.groupName :=
    fun _ ↦ rfl
  have hkeys : metadataSchema.keys = [["group_name"]] := rfl
  rw [Schema.clashes_iff, hkeys]
  simp only [List.mem_cons, List.not_mem_nil, or_false, exists_eq_left, forall_eq, hname,
    Value.text.injEq]
  simp

theorem refersTo_values {g : MembershipRow} {r : IdentityRow ContactColumns} :
    refersTo g.values r.values = true ↔ g.identityId = r.id := by
  have hget : groupSchema.get g.values "identity_id" = .text g.identityId := rfl
  have hget' : identitySchema.get r.values "id" = .text r.id := rfl
  rw [refersTo, hget, hget', decide_eq_true_eq, Value.text.injEq]

/-! ## What the operations keep -/

/-- No two rows have a key in common. -/
structure Db.Keyed (db : Db ContactColumns) : Prop where
  contacts : db.identities.Pairwise fun a b ↦
    ¬ (a.id = b.id ∨ a.columns.callsign ≠ none ∧ a.columns.callsign = b.columns.callsign)
  groups : db.groupMetadata.Pairwise fun a b ↦ ¬ a.groupName = b.groupName
  memberships : db.groups.Pairwise fun a b ↦
    ¬ (a.groupName = b.groupName ∧ a.identityId = b.identityId)

section Keyed

variable {db : Db ContactColumns}

theorem Db.Keyed.empty : (⟨[], [], []⟩ : Db ContactColumns).Keyed := ⟨.nil, .nil, .nil⟩

/-- An update that takes no callsign away keeps the keys. -/
theorem Db.Keyed.updateIdentity (h : db.Keyed) {id : String}
    {f : IdentityRow ContactColumns → IdentityRow ContactColumns} (hid : ∀ r, (f r).id = r.id)
    (hcallsign : ∀ r ∈ db.identities, r.id = id → ∀ q ∈ db.identities, q.id ≠ id →
      ¬ (r.columns.callsign ≠ none ∧ r.columns.callsign = q.columns.callsign) →
      ¬ ((f r).columns.callsign ≠ none ∧ (f r).columns.callsign = q.columns.callsign)) :
    (db.updateIdentity id f).Keyed := by
  refine ⟨List.pairwise_map.mpr (h.contacts.imp_of_mem fun {a b} ha hb hab ↦ ?_), h.groups,
    h.memberships⟩
  obtain ⟨hne, hcall⟩ := not_or.mp hab
  by_cases ha' : a.id = id
  · have hb' : b.id ≠ id := fun hb' ↦ hne (ha'.trans hb'.symm)
    rw [if_pos ha', if_neg hb', hid, not_or]
    exact ⟨hne, hcallsign a ha ha' b hb hb' hcall⟩
  · rw [if_neg ha']
    split_ifs with hb'
    · rw [hid, not_or]
      refine ⟨hne, ?_⟩
      rintro ⟨hsome, heq⟩
      refine hcallsign b hb hb' a ha ha' ?_ ⟨heq ▸ hsome, heq.symm⟩
      rintro ⟨hsome', heq'⟩
      exact hcall ⟨heq' ▸ hsome', heq'.symm⟩
    · exact hab

theorem callsignTaken_eq_false {id : String} {callsign : Option String} :
    db.callsignTaken id callsign = false ↔ ∀ r ∈ db.identities, r.id ≠ id →
      ¬ (callsign ≠ none ∧ callsign = r.columns.callsign) := by
  rcases callsign with _ | c
  · exact iff_of_true rfl (by rintro r - - ⟨h, -⟩; exact h rfl)
  · rw [Db.callsignTaken, Option.isSome_some, Bool.true_and, List.any_eq_false]
    simp only [decide_eq_true_eq, not_and, ne_eq, reduceCtorEq, not_false_eq_true, true_implies]
    exact ⟨fun h r hr hne heq ↦ h r hr hne heq.symm, fun h r hr hne heq ↦ h r hr hne heq.symm⟩

/-- An upsert writes over the row with its key, if there is one. -/
theorem pairwise_upsertMembership {groups : List MembershipRow}
    (h : groups.Pairwise fun a b ↦ ¬ (a.groupName = b.groupName ∧ a.identityId = b.identityId))
    (row : MembershipRow) : (upsertMembership row groups).Pairwise fun a b ↦
      ¬ (a.groupName = b.groupName ∧ a.identityId = b.identityId) := by
  rw [upsertMembership]
  split_ifs with hany
  · refine List.pairwise_map.mpr (h.imp fun {a b} hab ↦ ?_)
    have hkey : ∀ g : MembershipRow,
        (if g.groupName = row.groupName ∧ g.identityId = row.identityId then row else g).groupName
          = g.groupName ∧
        (if g.groupName = row.groupName ∧ g.identityId = row.identityId then row else g).identityId
          = g.identityId := by
      intro g
      split_ifs with hg
      · exact ⟨hg.1.symm, hg.2.symm⟩
      · exact ⟨rfl, rfl⟩
    rwa [(hkey a).1, (hkey a).2, (hkey b).1, (hkey b).2]
  · refine List.pairwise_append.mpr ⟨h, List.pairwise_singleton _ _, fun a ha b hb hkey ↦ ?_⟩
    rw [List.mem_singleton.mp hb] at hkey
    exact hany (List.any_eq_true.mpr ⟨a, ha, decide_eq_true hkey⟩)

/-- **Step.** A call that writes contacts keeps the keys. -/
theorem Db.Keyed.contactCall {Time : Type} (clock : Rfc3339 Time) (h : db.Keyed)
    {c : ContactCall Time} (hfound : c.Found db) : (c.effect clock db).Keyed := by
  cases c with
  | add newId now contact =>
    obtain ⟨-, -, hid, hfree⟩ := hfound
    refine ⟨List.pairwise_append.mpr ⟨h.contacts, List.pairwise_singleton _ _, ?_⟩, h.groups,
      h.memberships⟩
    intro a ha b hb
    rw [List.mem_singleton.mp hb, not_or]
    refine ⟨hid a ha, ?_⟩
    rintro ⟨hsome, heq⟩
    exact callsignTaken_eq_false.mp hfree a ha (hid a ha) ⟨heq ▸ hsome, heq.symm⟩
  | update id u =>
    refine h.updateIdentity (fun _ ↦ rfl) fun r hr hid q hq hne hcall ↦ ?_
    have happly : (u.apply r).columns.callsign = u.callsign.or r.columns.callsign := rfl
    rw [happly]
    rcases hu : u.callsign with _ | c
    · exact hcall
    · have hfree := callsignTaken_eq_false.mp hfound.2.2 q hq hne
      rw [hu] at hfree
      exact hfree
  | upsertKey now id pubkey fingerprint source expiresAt =>
    exact h.updateIdentity (fun _ ↦ rfl) fun r hr hid q hq hne hcall ↦ hcall

/-- **Step.** So does a call that changes groups or deletes a contact. -/
theorem Db.Keyed.call {Time : Type} (clock : Rfc3339 Time) (h : db.Keyed)
    {c : Call Time ContactColumns} (hinsert : ∀ row, c ≠ .contactInsert row) (hfound : c.Found db) :
    (c.update clock db).Keyed := by
  cases c with
  | groupCreate now name description hidden =>
    refine ⟨h.contacts, List.pairwise_append.mpr ⟨h.groups, List.pairwise_singleton _ _, ?_⟩,
      h.memberships⟩
    intro a ha b hb
    rw [List.mem_singleton.mp hb]
    exact hfound a ha
  | groupAddMember now group id addedBy expiresAt =>
    exact ⟨h.contacts, h.groups, pairwise_upsertMembership h.memberships _⟩
  | groupRemoveMember group id => exact ⟨h.contacts, h.groups, h.memberships.filter _⟩
  | groupDelete name => exact ⟨h.contacts, h.groups.filter _, h.memberships⟩
  | contactDelete id => exact ⟨h.contacts.filter _, h.groups, h.memberships.filter _⟩
  | contactInsert row => exact absurd rfl (hinsert row)

theorem Db.Keyed.editMetadata (h : db.Keyed) (name : String) (description : Option String)
    (hidden : Option Bool) : (db.editMetadata name description hidden).Keyed := by
  refine ⟨h.contacts, List.pairwise_map.mpr (h.groups.imp fun {a b} hab ↦ ?_), h.memberships⟩
  split_ifs <;> exact hab

end Keyed

/-! ## Runs -/

/-- The calls that change contacts, groups or memberships. -/
inductive DirectoryCall (Time : Type) where
  | contact (c : ContactCall Time)
  | contactDelete (id : String)
  | groupCreate (now : Time) (name : String) (description : Option String) (hiddenRecipients : Bool)
  | groupAddMember (now : Time) (group identityId : String) (addedBy : Option String)
      (expiresAt : Option Time)
  | groupAddFromGroup (now : Time) (target source : String) (addedBy : Option String)
  | groupRemoveMember (group identityId : String)
  | groupEdit (now : Time) (name : String) (description : Option String)
      (hiddenRecipients : Option Bool)
  | groupDelete (name : String)

section Runs

variable {Time : Type} (clock : Rfc3339 Time) [LT Time] [DecidableLT Time]

/-- Perform a call. -/
def DirectoryCall.perform : DirectoryCall Time → Fallible (Db ContactColumns) GaldraError PUnit
  | contact c => c.perform clock
  | contactDelete id => Host.contactDelete id
  | groupCreate now name description hidden => Host.groupCreate clock now name description hidden
  | groupAddMember now group id addedBy expiresAt =>
    Host.groupAddMember clock now group id addedBy expiresAt
  | groupAddFromGroup now target source addedBy => do
    let _ ← Host.groupAddFromGroup clock now target source addedBy
    pure ⟨⟩
  | groupRemoveMember group id => Host.groupRemoveMember group id
  | groupEdit now name description hidden => Host.groupEdit clock now name description hidden
  | groupDelete name => Host.groupDelete name

/-- The directory after the calls, made one after the other on an empty one. -/
def directory (calls : List (DirectoryCall Time)) : Db ContactColumns :=
  calls.foldl (fun db c ↦ (c.perform clock db).2) ⟨[], [], []⟩

/-- Keys are unique and memberships refer to contacts. -/
def Db.Sound (clock : Rfc3339 Time) (db : Db ContactColumns) : Prop := db.Keyed ∧ db.Intact clock

/-- The directory stays sound. -/
def KeepsSound (clock : Rfc3339 Time) (db db' : Db ContactColumns) : Prop :=
  db.Sound clock → db'.Sound clock

variable {clock}

omit [LT Time] [DecidableLT Time] in
theorem KeepsSound.refl (db : Db ContactColumns) : KeepsSound clock db db := id

omit [LT Time] [DecidableLT Time] in
theorem KeepsSound.trans {a b c : Db ContactColumns} (hab : KeepsSound clock a b)
    (hbc : KeepsSound clock b c) : KeepsSound clock a c := hbc ∘ hab

theorem moves_call {c : Call Time ContactColumns} (hinsert : ∀ row, c ≠ .contactInsert row) :
    Moves (KeepsSound clock) (c.perform clock) := by
  rintro db ⟨hkeyed, hintact⟩
  rcases c.perform_cases db with ⟨h, hfound⟩ | ⟨e, h⟩
  · rw [h]
    exact ⟨hkeyed.call clock hinsert hfound, Call.update_intact hintact hfound⟩
  · rw [h]
    exact ⟨hkeyed, hintact⟩

omit [LT Time] [DecidableLT Time] in
/-- Contacts keep their identifiers, and none goes. -/
theorem Db.Intact.contactCall {db : Db ContactColumns} (h : db.Intact clock) (c : ContactCall Time) :
    (c.effect clock db).Intact clock := by
  cases c with
  | add newId now contact =>
    refine ⟨fun g hg ↦ ?_, h.created, h.added, h.expires⟩
    obtain ⟨r, hr, hid⟩ := h.refers g hg
    exact ⟨r, List.mem_append_left _ hr, hid⟩
  | _ =>
    refine ⟨fun g hg ↦ ?_, h.created, h.added, h.expires⟩
    obtain ⟨r, hr, hid⟩ := h.refers g hg
    refine ⟨_, List.mem_map_of_mem hr, ?_⟩
    split_ifs <;> exact hid

omit [LT Time] [DecidableLT Time] in
theorem moves_contactCall (c : ContactCall Time) : Moves (KeepsSound clock) (c.perform clock) := by
  rintro db ⟨hkeyed, hintact⟩
  rcases c.perform_cases clock db with ⟨hfound, h⟩ | ⟨-, e, h⟩
  · rw [h]
    exact ⟨hkeyed.contactCall clock hfound, hintact.contactCall c⟩
  · rw [h]
    exact ⟨hkeyed, hintact⟩

omit [LT Time] [DecidableLT Time] in
theorem Db.Intact.editMetadata {db : Db ContactColumns} (h : db.Intact clock) (name : String)
    (description : Option String) (hidden : Option Bool) :
    (db.editMetadata name description hidden).Intact clock := by
  refine ⟨h.refers, fun r hr ↦ ?_, h.added, h.expires⟩
  obtain ⟨q, hq, rfl⟩ := List.mem_map.mp hr
  split_ifs <;> exact h.created q hq

/-- **Step.** Every call keeps the directory sound. -/
theorem DirectoryCall.moves (c : DirectoryCall Time) :
    Moves (KeepsSound clock) (c.perform clock) := by
  have hmember : ∀ now group id addedBy expiresAt, Moves (KeepsSound clock)
      (Host.groupAddMember clock now group id addedBy expiresAt) := fun now group id addedBy expiresAt ↦
    moves_call (c := .groupAddMember now group id addedBy expiresAt) (by rintro _ ⟨⟩)
  cases c with
  | contact c => exact moves_contactCall c
  | contactDelete id => exact moves_call (c := .contactDelete id) (by rintro _ ⟨⟩)
  | groupCreate now name description hidden =>
    exact moves_call (c := .groupCreate now name description hidden) (by rintro _ ⟨⟩)
  | groupAddMember now group id addedBy expiresAt => exact hmember now group id addedBy expiresAt
  | groupAddFromGroup now target source addedBy =>
    refine Moves.bind (Moves.bind (Moves.reading .refl _) .trans fun src ↦ ?_) .trans
      fun _ ↦ Moves.pure .refl _
    exact Moves.bind (Moves.each .refl .trans fun m ↦ hmember _ _ _ _ _) .trans
      fun _ ↦ Moves.pure .refl _
  | groupRemoveMember group id => exact moves_call (c := .groupRemoveMember group id) (by rintro _ ⟨⟩)
  | groupEdit now name description hidden =>
    refine Moves.bind (Moves.reading .refl _) .trans fun _ ↦ ?_
    split_ifs
    · exact Moves.pure .refl _
    · exact fun db h ↦ ⟨h.1.editMetadata name description hidden, h.2.editMetadata name description hidden⟩
  | groupDelete name => exact moves_call (c := .groupDelete name) (by rintro _ ⟨⟩)

variable (clock)

/-- **Run.** The directory is sound after any calls. -/
theorem directory_sound (calls : List (DirectoryCall Time)) : (directory clock calls).Sound clock := by
  induction calls using List.reverseRecOn with
  | nil => exact ⟨.empty, .empty _⟩
  | append_singleton calls c ih =>
    rw [directory, List.foldl_concat]
    exact c.moves _ ih

end Runs

/-! ## The constraints -/

/-- The tables of a sound directory keep the constraints. -/
theorem Db.Sound.consistent {Time : Type} {clock : Rfc3339 Time} {db : Db ContactColumns}
    (h : db.Sound clock) : db.tables.Consistent := by
  obtain ⟨hkeyed, hintact⟩ := h
  refine ⟨⟨?_, ?_⟩, ⟨?_, ?_⟩, ⟨?_, ?_⟩, ?_⟩
  · intro row hrow
    obtain ⟨r, -, rfl⟩ := List.mem_map.mp hrow
    rfl
  · refine List.pairwise_map.mpr (hkeyed.contacts.imp fun hab ↦ ?_)
    rwa [← clashes_identity, Bool.not_eq_true] at hab
  · intro row hrow
    obtain ⟨r, -, rfl⟩ := List.mem_map.mp hrow
    rfl
  · refine List.pairwise_map.mpr (hkeyed.groups.imp fun hab ↦ ?_)
    rwa [← clashes_metadata, Bool.not_eq_true] at hab
  · intro row hrow
    obtain ⟨g, -, rfl⟩ := List.mem_map.mp hrow
    rfl
  · refine List.pairwise_map.mpr (hkeyed.memberships.imp fun hab ↦ ?_)
    rwa [← clashes_membership, Bool.not_eq_true] at hab
  · intro m hm
    obtain ⟨g, hg, rfl⟩ := List.mem_map.mp hm
    obtain ⟨r, hr, hid⟩ := hintact.refers g hg
    exact List.any_eq_true.mpr ⟨r.values, List.mem_map_of_mem hr, refersTo_values.mpr hid.symm⟩

/-- The database after the calls, in a file under `key`. -/
def reached {Time : Type} (clock : Rfc3339 Time) [LT Time] [DecidableLT Time] (key : Option String)
    (calls : List (DirectoryCall Time)) : Database where
  key := key
  tables := (directory clock calls).tables
  consistent := (directory_sound clock calls).consistent

end Galdralag.Host
