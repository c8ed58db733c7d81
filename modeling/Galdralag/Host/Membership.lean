import Galdralag.Host.Groups
import Mathlib.Data.List.Basic
import Mathlib.Data.List.Induction

/-!
# Who is a member of a group

A contact is granted membership by a call that adds it. The grant ends when the contact is removed
from the group or deleted, and when the group is created anew. The rows of `groups` follow the
grants call by call, with one exception: deleting a group leaves its memberships in the table, so
that creating a group under the old name finds them there. The members that are reported are those
that were granted in every state of a run exactly when no creation in it takes up a name with
memberships left over.
-/

set_option linter.all false

namespace Galdralag.Host

open Fallible

variable {Time Columns : Type}

/-! ## Calls and grants -/

/-- The calls that change contacts or groups. Contacts come in by whatever call inserts them. -/
inductive Call (Time Columns : Type) where
  | groupCreate (now : Time) (name : String) (description : Option String) (hiddenRecipients : Bool)
  | groupAddMember (now : Time) (group identityId : String) (addedBy : Option String)
      (expiresAt : Option Time)
  | groupRemoveMember (group identityId : String)
  | groupDelete (name : String)
  | contactDelete (id : String)
  | contactInsert (row : IdentityRow Columns)

/-- The call adds a contact to a group. -/
def Call.Adds (group id : String) : Call Time Columns → Prop
  | .groupAddMember _ g i _ _ => g = group ∧ i = id
  | _ => False

/-- The call takes a contact out of a group, or the contact away. -/
def Call.Removes (group id : String) : Call Time Columns → Prop
  | .groupRemoveMember g i => g = group ∧ i = id
  | .contactDelete i => i = id
  | _ => False

/-- The call creates a group. -/
def Call.Creates (group : String) : Call Time Columns → Prop
  | .groupCreate _ name _ _ => name = group
  | _ => False

/-- **Granted membership.** Among the calls that succeeded one adds the contact, and none after it
creates the group, removes the contact from it or deletes the contact. -/
def Granted (calls : List (Call Time Columns)) (group id : String) : Prop :=
  ∃ before c after, calls = before ++ c :: after ∧ c.Adds group id ∧
    ∀ d ∈ after, ¬ (d.Creates group ∨ d.Removes group id)

theorem not_granted_nil (group id : String) : ¬ Granted ([] : List (Call Time Columns)) group id := by
  rintro ⟨before, c, after, h, -⟩
  exact List.append_ne_nil_of_right_ne_nil _ (List.cons_ne_nil _ _) h.symm

/-- What one more call grants. -/
theorem granted_concat {calls : List (Call Time Columns)} {c : Call Time Columns} {group id : String} :
    Granted (calls ++ [c]) group id ↔
      c.Adds group id ∨ Granted calls group id ∧ ¬ (c.Creates group ∨ c.Removes group id) := by
  constructor
  · rintro ⟨before, d, after, h, hadds, hafter⟩
    rcases List.eq_nil_or_concat after with rfl | ⟨after, e, rfl⟩
    · obtain ⟨-, rfl⟩ := List.append_singleton_inj.mp h
      exact Or.inl hadds
    · rw [List.concat_eq_append, ← List.cons_append, ← List.append_assoc] at h
      obtain ⟨rfl, rfl⟩ := List.append_singleton_inj.mp h
      rw [List.concat_eq_append] at hafter
      exact Or.inr ⟨⟨before, d, after, rfl, hadds, fun x hx ↦ hafter x (List.mem_append_left _ hx)⟩,
        hafter c (List.mem_append_right _ (List.mem_singleton_self c))⟩
  · rintro (hadds | ⟨⟨before, d, after, rfl, hadds, hafter⟩, hc⟩)
    · exact ⟨calls, c, [], rfl, hadds, fun d hd ↦ absurd hd List.not_mem_nil⟩
    · refine ⟨before, d, after ++ [c], ?_, hadds, ?_⟩
      · rw [List.append_assoc, List.cons_append]
      · intro x hx
        rcases List.mem_append.mp hx with hx | hx
        · exact hafter x hx
        · rw [List.mem_singleton.mp hx]
          exact hc

/-! ## Runs -/

section Runs

variable (clock : Rfc3339 Time) [LT Time] [DecidableLT Time]

/-- Perform a call. -/
def Call.perform : Call Time Columns → Fallible (Db Columns) GaldraError PUnit
  | .groupCreate now name description hidden => Host.groupCreate clock now name description hidden
  | .groupAddMember now group id addedBy expiresAt =>
    Host.groupAddMember clock now group id addedBy expiresAt
  | .groupRemoveMember group id => Host.groupRemoveMember group id
  | .groupDelete name => Host.groupDelete name
  | .contactDelete id => Host.contactDelete id
  | .contactInsert row => do
    let taken ← gets fun db ↦ db.identities.any fun i ↦ i.id = row.id
    require (taken = false) (.database .constraintViolation)
    modify (Db.insertIdentity row)

/-- A database, and the calls that returned `Ok` on the way to it. -/
structure History (Time Columns : Type) where
  db : Db Columns
  done : List (Call Time Columns)

/-- One more call. -/
def History.step (h : History Time Columns) (c : Call Time Columns) : History Time Columns where
  db := (c.perform clock h.db).2
  done := if (c.perform clock h.db).1 = .ok ⟨⟩ then h.done ++ [c] else h.done

/-- The calls are made one after the other, on a database with contacts and no groups. -/
def History.run (contacts : List (IdentityRow Columns)) (calls : List (Call Time Columns)) :
    History Time Columns :=
  calls.foldl (History.step clock) ⟨⟨contacts, [], []⟩, []⟩

theorem History.run_concat (contacts : List (IdentityRow Columns)) (calls : List (Call Time Columns))
    (c : Call Time Columns) :
    History.run clock contacts (calls ++ [c]) = (History.run clock contacts calls).step clock c := by
  rw [History.run, List.foldl_concat]
  rfl

variable {clock}

/-! ## What a call does to the memberships -/

/-- The table of memberships has a row for `id` in `group`. -/
def Db.Lists (db : Db Columns) (group id : String) : Prop :=
  ∃ g ∈ db.groups, g.groupName = group ∧ g.identityId = id

theorem upsertMembership_mem {row g : MembershipRow} {groups : List MembershipRow}
    (hg : g ∈ upsertMembership row groups) : g = row ∨ g ∈ groups := by
  rw [upsertMembership] at hg
  split_ifs at hg with h
  · obtain ⟨g', hg', rfl⟩ := List.mem_map.mp hg
    by_cases hk : g'.groupName = row.groupName ∧ g'.identityId = row.identityId
    · exact Or.inl (if_pos hk)
    · rw [if_neg hk]
      exact Or.inr hg'
  · rcases List.mem_append.mp hg with hg | hg
    · exact Or.inr hg
    · exact Or.inl (List.mem_singleton.mp hg)

/-- An upsert lists one more contact and keeps the others. -/
theorem upsertMembership_lists {row : MembershipRow} {groups : List MembershipRow} {group id : String} :
    (∃ g ∈ upsertMembership row groups, g.groupName = group ∧ g.identityId = id) ↔
      (row.groupName = group ∧ row.identityId = id) ∨
        ∃ g ∈ groups, g.groupName = group ∧ g.identityId = id := by
  constructor
  · rintro ⟨g, hg, hk⟩
    rcases upsertMembership_mem hg with rfl | hg
    · exact Or.inl hk
    · exact Or.inr ⟨g, hg, hk⟩
  · intro h
    rw [upsertMembership]
    split_ifs with hany
    · obtain ⟨g₀, hg₀, hk₀⟩ := List.any_eq_true.mp hany
      have hk₀ := of_decide_eq_true hk₀
      rcases h with hk | ⟨g, hg, hk⟩
      · exact ⟨row, List.mem_map.mpr ⟨g₀, hg₀, if_pos hk₀⟩, hk⟩
      · by_cases heq : g.groupName = row.groupName ∧ g.identityId = row.identityId
        · exact ⟨row, List.mem_map.mpr ⟨g, hg, if_pos heq⟩, heq.1 ▸ hk.1, heq.2 ▸ hk.2⟩
        · exact ⟨g, List.mem_map.mpr ⟨g, hg, if_neg heq⟩, hk⟩
    · rcases h with hk | ⟨g, hg, hk⟩
      · exact ⟨row, List.mem_append_right _ (List.mem_singleton_self row), hk⟩
      · exact ⟨g, List.mem_append_left _ hg, hk⟩

/-- What a call makes of the tables when it succeeds. -/
def Call.update (clock : Rfc3339 Time) : Call Time Columns → Db Columns → Db Columns
  | .groupCreate now name description hidden => Db.insertMetadata {
      groupName := name
      description := description
      hiddenRecipients := if hidden then 1 else 0
      createdAt := clock.toRfc3339 now
      createdBy := none }
  | .groupAddMember now group id addedBy expiresAt => Db.upsertMember {
      groupName := group
      identityId := id
      addedAt := clock.toRfc3339 now
      addedBy := addedBy
      expiresAt := expiresAt.map clock.toRfc3339 }
  | .groupRemoveMember group id => Db.deleteMember group id
  | .groupDelete name => Db.deleteMetadata name
  | .contactDelete id => Db.deleteIdentity id
  | .contactInsert row => Db.insertIdentity row

/-- What a call that succeeds has found: a free name to create, a contact to add. -/
def Call.Found (db : Db Columns) : Call Time Columns → Prop
  | .groupCreate _ name _ _ => ∀ r ∈ db.groupMetadata, ¬ r.groupName = name
  | .groupAddMember _ _ id _ _ => ∃ i ∈ db.identities, i.id = id
  | _ => True

/-- **One call.** A call fails and changes nothing, or it finds what it needs and updates the
tables. -/
theorem Call.perform_cases (c : Call Time Columns) (db : Db Columns) :
    (c.perform clock db = (.ok ⟨⟩, c.update clock db) ∧ c.Found db) ∨
      ∃ e, c.perform clock db = (.error e, db) := by
  cases c with
  | groupCreate now name description hidden =>
    rcases guarded_cases (fun db : Db Columns ↦ db.groupMetadata.any fun r ↦ r.groupName = name)
      (fun taken ↦ taken = false) (GaldraError.database .constraintViolation) _ db with ⟨hfree, h⟩ | h
    · refine Or.inl ⟨h, fun r hr hname ↦ ?_⟩
      rw [List.any_eq_false] at hfree
      exact hfree r hr (decide_eq_true hname)
    · exact Or.inr ⟨_, h⟩
  | groupAddMember now group id addedBy expiresAt =>
    rcases hget : groupGet clock now group db with e | g
    · exact Or.inr ⟨e, bind_of_error (show reading _ db = _ from congrArg (·, db) hget)⟩
    · have hgroup : reading (groupGet clock now group) db
          = ((.ok g, db) : Except GaldraError _ × Db Columns) := congrArg (·, db) hget
      rcases hfind : db.identities.find? (fun i ↦ i.id = id) with _ | i
      · have hcontact : contactGetById clock db id = .error (.contactNotFound id) := by
          rw [contactGetById, hfind]
          rfl
        exact Or.inr ⟨_, (bind_of_ok hgroup).trans
          (bind_of_error (show reading _ db = _ from congrArg (·, db) hcontact))⟩
      · have hcontact : contactGetById clock db id = .ok (identityFromRow clock i) := by
          rw [contactGetById, hfind]
          rfl
        refine Or.inl ⟨(bind_of_ok hgroup).trans
          (bind_of_ok (show reading _ db = _ from congrArg (·, db) hcontact)), i,
          List.mem_of_find?_eq_some hfind, ?_⟩
        exact of_decide_eq_true
          (List.find?_some (p := fun i : IdentityRow Columns ↦ decide (i.id = id)) hfind)
  | groupRemoveMember group id =>
    rcases guarded_cases (fun db : Db Columns ↦ db.groups.countP fun g ↦
      g.groupName = group ∧ g.identityId = id) (fun n ↦ n ≠ 0)
      (GaldraError.groupNotFound (group ++ "/" ++ id)) (Db.deleteMember group id) db with ⟨-, h⟩ | h
    · exact Or.inl ⟨h, trivial⟩
    · exact Or.inr ⟨_, h⟩
  | groupDelete name =>
    rcases guarded_cases (fun db : Db Columns ↦ db.groupMetadata.countP fun r ↦ r.groupName = name)
      (fun n ↦ n ≠ 0) (GaldraError.groupNotFound name) (Db.deleteMetadata name) db with ⟨-, h⟩ | h
    · exact Or.inl ⟨h, trivial⟩
    · exact Or.inr ⟨_, h⟩
  | contactDelete id =>
    rcases guarded_cases (fun db : Db Columns ↦ db.identities.countP fun i ↦ i.id = id)
      (fun n ↦ n ≠ 0) (GaldraError.contactNotFound id) (Db.deleteIdentity id) db with ⟨-, h⟩ | h
    · exact Or.inl ⟨h, trivial⟩
    · exact Or.inr ⟨_, h⟩
  | contactInsert row =>
    rcases guarded_cases (fun db : Db Columns ↦ db.identities.any fun i ↦ i.id = row.id)
      (fun taken ↦ taken = false) (GaldraError.database .constraintViolation)
      (Db.insertIdentity row) db with ⟨-, h⟩ | h
    · exact Or.inl ⟨h, trivial⟩
    · exact Or.inr ⟨_, h⟩

omit [LT Time] [DecidableLT Time] in
/-- The call lists the contact it adds, drops the one it removes and leaves every other membership
as it is. -/
theorem Call.update_lists (c : Call Time Columns) (db : Db Columns) (group id : String) :
    (c.update clock db).Lists group id ↔ c.Adds group id ∨ db.Lists group id ∧ ¬ c.Removes group id := by
  cases c with
  | groupAddMember now g i addedBy expiresAt =>
    refine upsertMembership_lists.trans (or_congr_right ?_)
    exact (and_iff_left not_false).symm
  | groupRemoveMember g i =>
    refine Iff.trans ⟨?_, ?_⟩ (false_or _).symm.to_iff
    · rintro ⟨m, hm, rfl, rfl⟩
      obtain ⟨hm, hkeep⟩ := List.mem_filter.mp hm
      refine ⟨⟨m, hm, rfl, rfl⟩, ?_⟩
      rintro ⟨rfl, rfl⟩
      exact of_decide_eq_true hkeep ⟨rfl, rfl⟩
    · rintro ⟨⟨m, hm, rfl, rfl⟩, hkeep⟩
      refine ⟨m, List.mem_filter.mpr ⟨hm, decide_eq_true ?_⟩, rfl, rfl⟩
      rintro ⟨rfl, rfl⟩
      exact hkeep ⟨rfl, rfl⟩
  | contactDelete i =>
    refine Iff.trans ⟨?_, ?_⟩ (false_or _).symm.to_iff
    · rintro ⟨m, hm, rfl, rfl⟩
      obtain ⟨hm, hkeep⟩ := List.mem_filter.mp hm
      refine ⟨⟨m, hm, rfl, rfl⟩, ?_⟩
      rintro rfl
      exact of_decide_eq_true hkeep rfl
    · rintro ⟨⟨m, hm, rfl, rfl⟩, hkeep⟩
      refine ⟨m, List.mem_filter.mpr ⟨hm, decide_eq_true ?_⟩, rfl, rfl⟩
      rintro rfl
      exact hkeep rfl
  | groupCreate | groupDelete | contactInsert =>
    refine Iff.trans ?_ (false_or _).symm.to_iff
    exact (and_iff_left not_false).symm

/-! ## What is reported -/

/-- Memberships refer to contacts, and every instant in the tables of groups was printed. -/
structure Db.Intact (clock : Rfc3339 Time) (db : Db Columns) : Prop where
  refers : ∀ g ∈ db.groups, ∃ i ∈ db.identities, i.id = g.identityId
  created : ∀ r ∈ db.groupMetadata, clock.Printed r.createdAt
  added : ∀ g ∈ db.groups, clock.Printed g.addedAt
  expires : ∀ g ∈ db.groups, ∀ s ∈ g.expiresAt, clock.Printed s

omit [LT Time] [DecidableLT Time] in
theorem Db.Intact.empty (contacts : List (IdentityRow Columns)) :
    (⟨contacts, [], []⟩ : Db Columns).Intact clock := by
  constructor <;> exact fun x hx ↦ absurd hx List.not_mem_nil

omit [LT Time] [DecidableLT Time] in
/-- A call keeps the tables intact: it adds only contacts it has found, and deletes a contact with
its memberships. -/
theorem Call.update_intact {c : Call Time Columns} {db : Db Columns} (h : db.Intact clock)
    (hfound : c.Found db) : (c.update clock db).Intact clock := by
  cases c with
  | groupCreate now name description hidden =>
    refine ⟨h.refers, fun r hr ↦ ?_, h.added, h.expires⟩
    rcases List.mem_append.mp hr with hr | hr
    · exact h.created r hr
    · rw [List.mem_singleton.mp hr]
      exact ⟨now, rfl⟩
  | groupAddMember now group id addedBy expiresAt =>
    refine ⟨fun g hg ↦ ?_, h.created, fun g hg ↦ ?_, fun g hg s hs ↦ ?_⟩ <;>
      rcases upsertMembership_mem hg with rfl | hg
    · exact hfound
    · exact h.refers g hg
    · exact ⟨now, rfl⟩
    · exact h.added g hg
    · obtain ⟨t, -, ht⟩ := Option.map_eq_some_iff.mp hs
      exact ⟨t, ht.symm⟩
    · exact h.expires g hg s hs
  | groupRemoveMember group id =>
    exact ⟨fun g hg ↦ h.refers g (List.mem_of_mem_filter hg), h.created,
      fun g hg ↦ h.added g (List.mem_of_mem_filter hg),
      fun g hg ↦ h.expires g (List.mem_of_mem_filter hg)⟩
  | groupDelete name =>
    exact ⟨h.refers, fun r hr ↦ h.created r (List.mem_of_mem_filter hr), h.added, h.expires⟩
  | contactDelete id =>
    refine ⟨fun g hg ↦ ?_, h.created, fun g hg ↦ h.added g (List.mem_of_mem_filter hg),
      fun g hg ↦ h.expires g (List.mem_of_mem_filter hg)⟩
    obtain ⟨hg, hkeep⟩ := List.mem_filter.mp hg
    obtain ⟨i, hi, hid⟩ := h.refers g hg
    refine ⟨i, List.mem_filter.mpr ⟨hi, decide_eq_true ?_⟩, hid⟩
    rw [hid]
    exact of_decide_eq_true hkeep
  | contactInsert row =>
    refine ⟨fun g hg ↦ ?_, h.created, h.added, h.expires⟩
    obtain ⟨i, hi, hid⟩ := h.refers g hg
    exact ⟨i, List.mem_append_left _ hi, hid⟩

omit [LT Time] [DecidableLT Time] in
/-- A join finds the contacts that are listed. -/
theorem mem_joinedRows {db : Db Columns} {name id : String} (h : db.Intact clock) :
    (∃ r ∈ joinedRows db name, r.2.id = id) ↔ db.Lists name id := by
  constructor
  · rintro ⟨r, hr, rfl⟩
    obtain ⟨g, hg, hr⟩ := List.mem_flatMap.mp hr
    obtain ⟨i, hi, rfl⟩ := List.mem_map.mp hr
    obtain ⟨hg, hname⟩ := List.mem_filter.mp hg
    exact ⟨g, hg, of_decide_eq_true hname, (of_decide_eq_true (List.mem_filter.mp hi).2).symm⟩
  · rintro ⟨g, hg, rfl, rfl⟩
    obtain ⟨i, hi, hid⟩ := h.refers g hg
    refine ⟨(g, i), List.mem_flatMap.mpr ⟨g, List.mem_filter.mpr ⟨hg, decide_eq_true rfl⟩, ?_⟩, hid⟩
    exact List.mem_map.mpr ⟨i, List.mem_filter.mpr ⟨hi, decide_eq_true hid⟩, rfl⟩

/-- A membership of an intact database is read. -/
theorem memberFromRow_ok (hclock : clock.Lawful) (now : Time) {g : MembershipRow}
    (hadded : clock.Printed g.addedAt) (hexpires : ∀ s ∈ g.expiresAt, clock.Printed s)
    (i : IdentityRow Columns) :
    ∃ m, memberFromRow clock now g i = .ok m ∧ m.identity.id = i.id := by
  obtain ⟨t, ht⟩ := hadded
  rcases hexp : g.expiresAt with _ | s
  · rw [memberFromRow, ht, hclock.readOr, ok_bind, hexp]
    exact ⟨_, rfl, rfl⟩
  · obtain ⟨t', rfl⟩ := hexpires s hexp
    rw [memberFromRow, ht, hclock.readOr, ok_bind, hexp, Option.mapM_some, hclock.readOr]
    exact ⟨_, rfl, rfl⟩

/-- **What is reported.** Every group is read, and its members are the contacts listed for it. -/
theorem groupGet_ok (hclock : clock.Lawful) {db : Db Columns} (h : db.Intact clock) {name : String}
    (hname : ∃ r ∈ db.groupMetadata, r.groupName = name) (now : Time) :
    ∃ g, groupGet clock now name db = .ok g ∧
      ∀ id, (∃ m ∈ g.members, m.identity.id = id) ↔ db.Lists name id := by
  obtain ⟨r₀, hr₀, hname₀⟩ := hname
  have hsome : (db.groupMetadata.find? fun r ↦ r.groupName = name).isSome :=
    List.find?_isSome.mpr ⟨r₀, hr₀, decide_eq_true hname₀⟩
  obtain ⟨r, hr⟩ := Option.isSome_iff_exists.mp hsome
  obtain ⟨t, ht⟩ := h.created r (List.mem_of_find?_eq_some hr)
  have hrows : ∀ r ∈ joinedRows db name,
      ∃ m, memberFromRow clock now r.1 r.2 = .ok m ∧ m.identity.id = r.2.id := by
    intro r hr
    obtain ⟨g, hg, hr⟩ := List.mem_flatMap.mp hr
    obtain ⟨i, -, rfl⟩ := List.mem_map.mp hr
    have hg := List.mem_of_mem_filter hg
    exact memberFromRow_ok hclock now (h.added g hg) (h.expires g hg) i
  obtain ⟨members, hmembers, hids⟩ := mapM_ok_map hrows
  have hget : groupGet clock now name db = .ok {
      name := name
      description := r.description
      hiddenRecipients := r.hiddenRecipients ≠ 0
      createdAt := t
      createdBy := r.createdBy
      members := members } := by
    rw [groupGet, hr, Option.elim_some, ht, hclock.readOr, ok_bind, hmembers]
    rfl
  refine ⟨_, hget, fun id ↦ ?_⟩
  rw [← mem_joinedRows h]
  have hmem : id ∈ members.map (fun m ↦ m.identity.id) ↔ id ∈ (joinedRows db name).map (fun r ↦ r.2.id) := by
    rw [hids]
  rwa [List.mem_map, List.mem_map] at hmem

/-! ## Membership over runs -/

/-- The members that are reported for a group are those that were granted, whenever they are asked
for. -/
def History.Exact (clock : Rfc3339 Time) (h : History Time Columns) : Prop :=
  ∀ now name, (∃ r ∈ h.db.groupMetadata, r.groupName = name) →
    ∃ g, groupGet clock now name h.db = .ok g ∧
      ∀ id, (∃ m ∈ g.members, m.identity.id = id) ↔ Granted h.done name id

/-- A group is not created under a free name that has memberships left over. -/
def Call.Fresh (db : Db Columns) (c : Call Time Columns) : Prop :=
  ∀ name, c.Creates name → (∀ r ∈ db.groupMetadata, ¬ r.groupName = name) → ∀ id, ¬ db.Lists name id

omit [LT Time] [DecidableLT Time] in
/-- A group that is created was not there. -/
theorem Call.Found.free {db : Db Columns} {c : Call Time Columns} {name : String} (h : c.Found db)
    (hcreates : c.Creates name) : ∀ r ∈ db.groupMetadata, ¬ r.groupName = name := by
  cases c with
  | groupCreate now group description hidden =>
    obtain rfl : group = name := hcreates
    exact h
  | _ => exact hcreates.elim

/-- A free name can be taken. -/
theorem groupCreate_ok {db : Db Columns} {name : String}
    (hfree : ∀ r ∈ db.groupMetadata, ¬ r.groupName = name) (now : Time) (description : Option String)
    (hidden : Bool) : (Call.groupCreate now name description hidden).perform clock db =
      (.ok ⟨⟩, (Call.groupCreate now name description hidden).update clock db) := by
  have hnone : db.groupMetadata.any (fun r ↦ r.groupName = name) = false :=
    List.any_eq_false.mpr fun r hr ↦ decide_eq_true_iff.not.mpr (hfree r hr)
  rw [Call.perform, groupCreate, gets_bind, hnone]
  rfl

theorem History.step_ok {h : History Time Columns} {c : Call Time Columns}
    (hc : c.perform clock h.db = (.ok ⟨⟩, c.update clock h.db)) :
    h.step clock c = ⟨c.update clock h.db, h.done ++ [c]⟩ := by
  rw [History.step, hc, if_pos rfl]

theorem History.step_refused {h : History Time Columns} {c : Call Time Columns} {e : GaldraError}
    (hc : c.perform clock h.db = (.error e, h.db)) : h.step clock c = h := by
  rw [History.step, hc, if_neg (by rintro ⟨⟩)]

theorem History.run_intact (contacts : List (IdentityRow Columns)) (calls : List (Call Time Columns)) :
    (History.run clock contacts calls).db.Intact clock := by
  induction calls using List.reverseRecOn with
  | nil => exact Db.Intact.empty contacts
  | append_singleton calls c ih =>
    rw [History.run_concat]
    rcases c.perform_cases (History.run clock contacts calls).db with ⟨hc, hfound⟩ | ⟨e, hc⟩
    · rw [History.step_ok hc]
      exact Call.update_intact ih hfound
    · rwa [History.step_refused hc]

/-- The table lists what was granted, as long as every group is created fresh. -/
theorem History.run_lists (contacts : List (IdentityRow Columns)) {calls : List (Call Time Columns)}
    (hfresh : ∀ before c, before ++ [c] <+: calls → c.Fresh (History.run clock contacts before).db)
    (name id : String) : (History.run clock contacts calls).db.Lists name id ↔
      Granted (History.run clock contacts calls).done name id := by
  induction calls using List.reverseRecOn with
  | nil =>
    refine iff_of_false ?_ (not_granted_nil name id)
    rintro ⟨g, hg, -⟩
    exact List.not_mem_nil hg
  | append_singleton calls c ih =>
    have ih := ih fun before d hpre ↦ hfresh before d (hpre.trans (List.prefix_append ..))
    rw [History.run_concat]
    rcases c.perform_cases (History.run clock contacts calls).db with ⟨hc, hfound⟩ | ⟨e, hc⟩
    · rw [History.step_ok hc, Call.update_lists, granted_concat, ih]
      refine or_congr_right (and_congr_right fun hgranted ↦ not_congr ?_)
      refine ⟨Or.inr, fun h ↦ h.resolve_left fun hcreates ↦ ?_⟩
      exact hfresh calls c (List.prefix_refl _) name hcreates (hfound.free hcreates) id (ih.mpr hgranted)
    · rwa [History.step_refused hc]

/-- **Members are those granted.** In every state of a run every group reports exactly the contacts
that were granted membership, if and only if no call of the run creates a group under a free name
that has memberships left over. -/
theorem members_granted_iff (hclock : clock.Lawful) (contacts : List (IdentityRow Columns))
    (calls : List (Call Time Columns)) :
    (∀ before, before <+: calls → (History.run clock contacts before).Exact clock) ↔
      ∀ before c, before ++ [c] <+: calls → c.Fresh (History.run clock contacts before).db := by
  constructor
  · intro hexact before c hpre name hcreates hfree id hlists
    cases c with
    | groupCreate now group description hidden =>
      obtain rfl : group = name := hcreates
      -- after the creation the row is reported, but nothing was granted since
      have hstep : (History.run clock contacts before).step clock (.groupCreate now group description hidden)
          = _ := History.step_ok (groupCreate_ok hfree now description hidden)
      rw [← History.run_concat] at hstep
      have hname : ∃ r ∈ (History.run clock contacts
          (before ++ [.groupCreate now group description hidden])).db.groupMetadata, r.groupName = group := by
        rw [hstep]
        exact ⟨_, List.mem_append_right _ (List.mem_singleton_self _), rfl⟩
      obtain ⟨g, hg, hmembers⟩ := groupGet_ok hclock (History.run_intact contacts _) hname now
      obtain ⟨g', hg', hgranted⟩ := hexact _ hpre now group hname
      obtain rfl : g = g' := Except.ok.inj (hg.symm.trans hg')
      have hlisted := (hgranted id).mp ((hmembers id).mpr (by rwa [hstep]))
      rw [hstep, granted_concat] at hlisted
      rcases hlisted with hadds | ⟨-, hends⟩
      · exact hadds
      · exact hends (Or.inl rfl)
    | _ => exact hcreates.elim
  · intro hfresh before hpre now name hname
    obtain ⟨g, hg, hmembers⟩ := groupGet_ok hclock (History.run_intact contacts before) hname now
    refine ⟨g, hg, fun id ↦ (hmembers id).trans ?_⟩
    exact History.run_lists contacts (fun before' c hpre' ↦ hfresh before' c (hpre'.trans hpre)) name id

end Runs

/-! ## A member that comes back -/

/-- One contact. -/
def alice : IdentityRow Unit := ⟨"alice", none, ()⟩

/-- A group is created, gets a member, is deleted and created again. -/
def secondWatch : List (Call String Unit) :=
  [.groupCreate "2026-01-01T08:00:00+00:00" "watch" none false,
    .groupAddMember "2026-01-01T08:01:00+00:00" "watch" "alice" none none,
    .groupDelete "watch",
    .groupCreate "2026-01-02T08:00:00+00:00" "watch" none false]

theorem members_granted_iff_secondWatch :
    (∀ before, before <+: secondWatch → (History.run textClock [alice] before).Exact textClock) ↔
      ∀ before c, before ++ [c] <+: secondWatch → c.Fresh (History.run textClock [alice] before).db :=
  members_granted_iff textClock_lawful [alice] secondWatch

theorem secondWatch_run : History.run textClock [alice] secondWatch = {
    db := {
      identities := [alice]
      groups := [⟨"watch", "alice", "2026-01-01T08:01:00+00:00", none, none⟩]
      groupMetadata := [⟨"watch", none, 0, "2026-01-02T08:00:00+00:00", none⟩] }
    done := secondWatch } := by
  rfl

/-- Every call of the run succeeds. The new group reports the member of the old one, which nobody
added to it. -/
theorem deleted_group_keeps_member :
    (History.run textClock [alice] secondWatch).done = secondWatch ∧
      (∃ g, groupGet textClock "2026-01-02T09:00:00+00:00" "watch"
          (History.run textClock [alice] secondWatch).db = .ok g ∧
        ∃ m ∈ g.members, m.identity.id = "alice") ∧
      ¬ Granted secondWatch "watch" "alice" := by
  rw [secondWatch_run]
  refine ⟨rfl, ⟨_, rfl, _, List.mem_singleton_self _, rfl⟩, ?_⟩
  have hsplit : secondWatch = secondWatch.take 3 ++
    [.groupCreate "2026-01-02T08:00:00+00:00" "watch" none false] := rfl
  rw [hsplit, granted_concat]
  rintro (hadds | ⟨-, hends⟩)
  · exact hadds
  · exact hends (Or.inl rfl)

end Galdralag.Host
