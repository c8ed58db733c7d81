import Galdralag.Host.AuditChain
import Galdralag.Host.Messages

/-!
# Who can read a message

A membership is granted until an instant or for good, by the last call that added the contact. A
message for a group goes to the subkeys of the contacts whose membership is granted and has not
expired, of all of them and of nobody else: one member without a key that can be encrypted to, and
nothing is encrypted.
-/

set_option linter.all false

namespace Galdralag.Host

open Fallible

variable {Time Columns : Type}

/-! ## Grants that expire -/

/-- **Membership with an end.** Among the calls that succeeded the last one that adds the contact
names the end, and none after it creates the group, removes the contact from it or deletes the
contact. -/
def GrantedUntil (calls : List (Call Time Columns)) (group id : String) (expiresAt : Option Time) :
    Prop :=
  ∃ before now addedBy after,
    calls = before ++ Call.groupAddMember now group id addedBy expiresAt :: after ∧
      ∀ d ∈ after, ¬(d.Creates group ∨ d.Removes group id ∨ d.Adds group id)

/-- The call adds a contact to a group until an instant. -/
def Call.AddsUntil (group id : String) (expiresAt : Option Time) (c : Call Time Columns) : Prop :=
  ∃ now addedBy, c = .groupAddMember now group id addedBy expiresAt

theorem not_grantedUntil_nil (group id : String) (expiresAt : Option Time) :
    ¬GrantedUntil ([] : List (Call Time Columns)) group id expiresAt := by
  rintro ⟨before, now, addedBy, after, h, -⟩
  exact List.append_ne_nil_of_right_ne_nil _ (List.cons_ne_nil _ _) h.symm

/-- What one more call grants. -/
theorem grantedUntil_concat {calls : List (Call Time Columns)} {c : Call Time Columns}
    {group id : String} {expiresAt : Option Time} :
    GrantedUntil (calls ++ [c]) group id expiresAt ↔ c.AddsUntil group id expiresAt ∨
      GrantedUntil calls group id expiresAt ∧
        ¬(c.Creates group ∨ c.Removes group id ∨ c.Adds group id) := by
  constructor
  · rintro ⟨before, now, addedBy, after, h, hafter⟩
    rcases List.eq_nil_or_concat after with rfl | ⟨after, e, rfl⟩
    · obtain ⟨-, rfl⟩ := List.append_singleton_inj.mp h
      exact .inl ⟨now, addedBy, rfl⟩
    · rw [List.concat_eq_append, ← List.cons_append, ← List.append_assoc] at h
      obtain ⟨rfl, rfl⟩ := List.append_singleton_inj.mp h
      rw [List.concat_eq_append] at hafter
      refine .inr ⟨⟨before, now, addedBy, after, rfl, ?_⟩, ?_⟩
      · exact fun d hd ↦ hafter d (List.mem_append_left _ hd)
      · exact hafter c (List.mem_append_right _ (List.mem_singleton_self c))
  · rintro (⟨now, addedBy, rfl⟩ | ⟨⟨before, now, addedBy, after, rfl, hafter⟩, hc⟩)
    · exact ⟨calls, now, addedBy, [], rfl, fun d hd ↦ absurd hd List.not_mem_nil⟩
    · refine ⟨before, now, addedBy, after ++ [c], ?_, fun d hd ↦ ?_⟩
      · rw [List.append_assoc, List.cons_append]
      · rcases List.mem_append.mp hd with hd | hd
        · exact hafter d hd
        · rw [List.mem_singleton.mp hd]
          exact hc

/-! ## The rows of the grants -/

section Rows

variable {clock : Rfc3339 Time}

/-- The table of memberships has a row for `id` in `group` that ends at `expiresAt`. -/
def Db.ListsUntil (clock : Rfc3339 Time) (db : Db Columns) (group id : String)
    (expiresAt : Option Time) : Prop :=
  ∃ g ∈ db.groups, g.groupName = group ∧ g.identityId = id ∧
    g.expiresAt = expiresAt.map clock.toRfc3339

/-- An upsert puts its row in the place of the one with its key. -/
theorem upsertMembership_iff {row g : MembershipRow} {groups : List MembershipRow} :
    g ∈ upsertMembership row groups ↔ g = row ∨
      g ∈ groups ∧ ¬(g.groupName = row.groupName ∧ g.identityId = row.identityId) := by
  have hkey : ∀ g : MembershipRow, g = row →
      g.groupName = row.groupName ∧ g.identityId = row.identityId := by
    rintro g rfl
    exact ⟨rfl, rfl⟩
  rw [upsertMembership]
  split_ifs with hany
  · rw [List.mem_map]
    constructor
    · rintro ⟨g', hg', rfl⟩
      split_ifs with h
      · exact .inl rfl
      · exact .inr ⟨hg', h⟩
    · rintro (rfl | ⟨hg, h⟩)
      · obtain ⟨g', hg', h'⟩ := List.any_eq_true.mp hany
        exact ⟨g', hg', if_pos (of_decide_eq_true h')⟩
      · exact ⟨g, hg, if_neg h⟩
  · rw [List.mem_append, List.mem_singleton, or_comm]
    refine or_congr_right (iff_self_and.mpr fun hg h ↦ hany ?_)
    exact List.any_eq_true.mpr ⟨g, hg, decide_eq_true h⟩

/-- The call lists the contact it adds until the end it names, and leaves every other membership as
it is. -/
theorem Call.update_listsUntil (hclock : clock.Lawful) (c : Call Time Columns) (db : Db Columns)
    (group id : String) (expiresAt : Option Time) :
    (c.update clock db).ListsUntil clock group id expiresAt ↔ c.AddsUntil group id expiresAt ∨
      db.ListsUntil clock group id expiresAt ∧ ¬(c.Removes group id ∨ c.Adds group id) := by
  have hinj : ∀ e e' : Option Time, e.map clock.toRfc3339 = e'.map clock.toRfc3339 → e = e' := by
    refine fun e e' h ↦ Option.map_injective (fun t t' ht ↦ ?_) h
    exact Option.some.inj ((hclock t).symm.trans ((congrArg clock.parse ht).trans (hclock t')))
  cases c with
  | groupAddMember now g i addedBy e =>
    constructor
    · rintro ⟨m, hm, rfl, rfl, hexp⟩
      rcases upsertMembership_iff.mp hm with rfl | ⟨hm, hkey⟩
      · exact .inl ⟨now, addedBy, by rw [hinj _ _ hexp]⟩
      · refine .inr ⟨⟨m, hm, rfl, rfl, hexp⟩, ?_⟩
        rintro (h | ⟨rfl, rfl⟩)
        · exact h
        · exact hkey ⟨rfl, rfl⟩
    · rintro (⟨now', addedBy', heq⟩ | ⟨⟨m, hm, rfl, rfl, hexp⟩, hother⟩)
      · cases heq
        exact ⟨_, upsertMembership_iff.mpr (.inl rfl), rfl, rfl, rfl⟩
      · refine ⟨m, upsertMembership_iff.mpr (.inr ⟨hm, ?_⟩), rfl, rfl, hexp⟩
        rintro ⟨hg, hi⟩
        exact hother (.inr ⟨hg.symm, hi.symm⟩)
  | groupRemoveMember g i =>
    constructor
    · rintro ⟨m, hm, rfl, rfl, hexp⟩
      obtain ⟨hm, hkeep⟩ := List.mem_filter.mp hm
      refine .inr ⟨⟨m, hm, rfl, rfl, hexp⟩, ?_⟩
      rintro (⟨rfl, rfl⟩ | h)
      · exact of_decide_eq_true hkeep ⟨rfl, rfl⟩
      · exact h
    · rintro (⟨now, addedBy, ⟨⟩⟩ | ⟨⟨m, hm, rfl, rfl, hexp⟩, hkeep⟩)
      refine ⟨m, List.mem_filter.mpr ⟨hm, decide_eq_true ?_⟩, rfl, rfl, hexp⟩
      rintro ⟨rfl, rfl⟩
      exact hkeep (.inl ⟨rfl, rfl⟩)
  | contactDelete i =>
    constructor
    · rintro ⟨m, hm, rfl, rfl, hexp⟩
      obtain ⟨hm, hkeep⟩ := List.mem_filter.mp hm
      refine .inr ⟨⟨m, hm, rfl, rfl, hexp⟩, ?_⟩
      rintro (rfl | h)
      · exact of_decide_eq_true hkeep rfl
      · exact h
    · rintro (⟨now, addedBy, ⟨⟩⟩ | ⟨⟨m, hm, rfl, rfl, hexp⟩, hkeep⟩)
      refine ⟨m, List.mem_filter.mpr ⟨hm, decide_eq_true ?_⟩, rfl, rfl, hexp⟩
      rintro rfl
      exact hkeep (.inl rfl)
  | groupCreate | groupDelete | contactInsert =>
    constructor
    · exact fun h ↦ .inr ⟨h, fun h' ↦ h'.elim (fun h ↦ h) fun h ↦ h⟩
    · rintro (⟨now, addedBy, ⟨⟩⟩ | ⟨h, -⟩)
      exact h

variable [LT Time] [DecidableLT Time]

/-- The table lists what was granted until when, as long as every group is created fresh. -/
theorem History.run_listsUntil (hclock : clock.Lawful) (contacts : List (IdentityRow Columns))
    {calls : List (Call Time Columns)}
    (hfresh : ∀ before c, before ++ [c] <+: calls →
      c.Fresh (History.run clock contacts before).db)
    (name id : String) (expiresAt : Option Time) :
    (History.run clock contacts calls).db.ListsUntil clock name id expiresAt ↔
      GrantedUntil (History.run clock contacts calls).done name id expiresAt := by
  induction calls using List.reverseRecOn with
  | nil =>
    refine iff_of_false ?_ (not_grantedUntil_nil name id expiresAt)
    rintro ⟨g, hg, -⟩
    exact List.not_mem_nil hg
  | append_singleton calls c ih =>
    have ih := ih fun before d hpre ↦ hfresh before d (hpre.trans (List.prefix_append ..))
    rw [History.run_concat]
    rcases c.perform_cases (History.run clock contacts calls).db with ⟨hc, hfound⟩ | ⟨e, hc⟩
    -- A group that is created fresh has no rows for the new name, so its creation ends nothing.
    · rw [History.step_ok hc, Call.update_listsUntil hclock, grantedUntil_concat, ih]
      refine or_congr_right (and_congr_right fun hgranted ↦ not_congr ?_)
      refine ⟨Or.inr, fun h ↦ h.resolve_left fun hcreates ↦ ?_⟩
      obtain ⟨g, hg, hname, hid, -⟩ := ih.mpr hgranted
      exact hfresh calls c (List.prefix_refl _) name hcreates (hfound.free hcreates) id
        ⟨g, hg, hname, hid⟩
    · rwa [History.step_refused hc]

end Rows

/-! ## The members of a message -/

section Members

variable [LT Time] [DecidableLT Time] {clock : Rfc3339 Time}

theorem groupGet_eq_ok {now : Time} {name : String} {db : Db Columns}
    {g : GroupWithMembers Time Columns} (h : groupGet clock now name db = .ok g) :
    ∃ r ∈ db.groupMetadata, r.groupName = name ∧
      g.hiddenRecipients = decide (r.hiddenRecipients ≠ 0) ∧
      (joinedRows db name).mapM (fun x ↦ memberFromRow clock now x.1 x.2) = .ok g.members := by
  rw [groupGet] at h
  rcases hfind : db.groupMetadata.find? (fun r ↦ r.groupName = name) with _ | r
  · rw [hfind] at h
    cases h
  · rw [hfind, Option.elim_some] at h
    obtain ⟨createdAt, -, h⟩ := except_bind_eq_ok.mp h
    obtain ⟨members, hmembers, h⟩ := except_bind_eq_ok.mp h
    obtain rfl := Except.ok.inj h
    refine ⟨r, List.mem_of_find?_eq_some hfind, ?_, rfl, mapError_eq_ok_iff.mp hmembers⟩
    exact of_decide_eq_true (List.find?_some (p := fun r : MetadataRow ↦ decide (r.groupName = name))
      hfind)

/-- What a membership with a printed end is read as. -/
theorem memberFromRow_eq_ok (hclock : clock.Lawful) {now : Time} {g : MembershipRow}
    {i : IdentityRow Columns} {e : Option Time} (hexp : g.expiresAt = e.map clock.toRfc3339)
    {m : GroupMember Time Columns} (h : memberFromRow clock now g i = .ok m) :
    m.identity = identityFromRow clock i ∧
      m.isExpired = (pastExpiry now e || pastExpiry now (i.expiresAt.bind clock.parse)) := by
  obtain ⟨addedAt, -, h⟩ := except_bind_eq_ok.mp h
  obtain ⟨memExp, hmem, h⟩ := except_bind_eq_ok.mp h
  obtain rfl := Except.ok.inj h
  refine ⟨rfl, ?_⟩
  obtain rfl : e = memExp := by
    rw [hexp] at hmem
    rcases e with _ | t
    · exact Except.ok.inj hmem
    · rw [Option.map_some, Option.mapM_some, hclock.readOr] at hmem
      exact Except.ok.inj hmem
  rfl

omit [LT Time] [DecidableLT Time] in
theorem mem_joinedRows_iff {db : Db Columns} {name : String} {g : MembershipRow}
    {i : IdentityRow Columns} : (g, i) ∈ joinedRows db name ↔
      (g ∈ db.groups ∧ g.groupName = name) ∧ i ∈ db.identities ∧ i.id = g.identityId := by
  rw [joinedRows, List.mem_flatMap]
  constructor
  · rintro ⟨g', hg, hpair⟩
    obtain ⟨i', hi, heq⟩ := List.mem_map.mp hpair
    obtain ⟨rfl, rfl⟩ := Prod.mk.inj heq
    obtain ⟨hg, hname⟩ := List.mem_filter.mp hg
    obtain ⟨hi, hid⟩ := List.mem_filter.mp hi
    exact ⟨⟨hg, of_decide_eq_true hname⟩, hi, of_decide_eq_true hid⟩
  · rintro ⟨⟨hg, hname⟩, hi, hid⟩
    refine ⟨g, List.mem_filter.mpr ⟨hg, decide_eq_true hname⟩, List.mem_map.mpr ⟨i, ?_, rfl⟩⟩
    exact List.mem_filter.mpr ⟨hi, decide_eq_true hid⟩

omit [LT Time] [DecidableLT Time] in
/-- The end of a membership was printed, if there is one. -/
theorem Db.Intact.exists_until {db : Db Columns} (h : db.Intact clock) {g : MembershipRow}
    (hg : g ∈ db.groups) : ∃ e : Option Time, g.expiresAt = e.map clock.toRfc3339 := by
  rcases hexp : g.expiresAt with _ | s
  · exact ⟨none, rfl⟩
  · obtain ⟨t, rfl⟩ := h.expires g hg s hexp
    exact ⟨some t, rfl⟩

/-- A contact whose membership and whose own term run at an instant. -/
def Db.Current (clock : Rfc3339 Time) (db : Db Columns) (now : Time) (group : String)
    (i : IdentityRow Columns) : Prop :=
  i ∈ db.identities ∧ (∃ e, db.ListsUntil clock group i.id e ∧ pastExpiry now e = false) ∧
    pastExpiry now (i.expiresAt.bind clock.parse) = false

/-- **Active members.** They are the contacts whose membership and whose own term run. -/
theorem mem_groupActiveMembers (hclock : clock.Lawful) {now : Time} {name : String}
    {db : Db ContactColumns} (hdb : db.Intact clock) {idents : List (Identity Time ContactColumns)}
    (h : groupActiveMembers clock now name db = .ok idents)
    (identity : Identity Time ContactColumns) :
    identity ∈ idents ↔ ∃ i, db.Current clock now name i ∧ identity = identityFromRow clock i := by
  obtain ⟨g, hg, h⟩ := except_bind_eq_ok.mp h
  obtain ⟨-, -, -, -, hmembers⟩ := groupGet_eq_ok (mapError_eq_ok_iff.mp hg)
  obtain ⟨hmem, hread⟩ := mem_of_mapM_eq_ok hmembers
  -- A group without members has no active ones, like one whose members are filtered out.
  have hidents : idents = (g.members.filter fun m ↦ !m.isExpired).map (·.identity) := by
    by_cases hempty : g.members.isEmpty = true
    · rw [if_pos hempty] at h
      rw [← Except.ok.inj h, List.isEmpty_iff.mp hempty]
      rfl
    · rw [if_neg hempty, ensure_bind_eq_ok] at h
      exact (Except.ok.inj h.2).symm
  rw [hidents, List.mem_map]
  constructor
  · rintro ⟨m, hm, rfl⟩
    obtain ⟨hm, hactive⟩ := List.mem_filter.mp hm
    obtain ⟨⟨row, i⟩, hrow, hm⟩ := (hmem m).mp hm
    obtain ⟨⟨hrow, hname⟩, hi, hid⟩ := mem_joinedRows_iff.mp hrow
    obtain ⟨e, hexp⟩ := hdb.exists_until hrow
    obtain ⟨hident, hexpired⟩ := memberFromRow_eq_ok hclock hexp hm
    rw [hexpired, Bool.not_eq_true', Bool.or_eq_false_iff] at hactive
    exact ⟨i, ⟨hi, ⟨e, ⟨row, hrow, hname, hid.symm, hexp⟩, hactive.1⟩, hactive.2⟩, hident⟩
  · rintro ⟨i, ⟨hi, ⟨e, ⟨row, hrow, hname, hid, hexp⟩, hterm⟩, hown⟩, rfl⟩
    have hjoin : (row, i) ∈ joinedRows db name :=
      mem_joinedRows_iff.mpr ⟨⟨hrow, hname⟩, hi, hid.symm⟩
    obtain ⟨m, hm⟩ := hread (row, i) hjoin
    obtain ⟨hident, hexpired⟩ := memberFromRow_eq_ok hclock hexp hm
    refine ⟨m, List.mem_filter.mpr ⟨(hmem m).mpr ⟨(row, i), hjoin, hm⟩, ?_⟩, hident⟩
    rw [hexpired, hterm, hown]
    rfl

end Members

/-! ## The recipients of a message -/

section Recipients

variable {Cert Key Seed : Type} {pgp : OpenPgp Cert Key Seed} {hidden : Bool}

namespace OpenPgp

theorem recipient_eq_ok {key : Key} {r : Recipient Key} (h : pgp.recipient hidden key = .ok r) :
    r = ⟨key, hidden⟩ := by
  cases hidden with
  | false => exact (Except.ok.inj h).symm
  | true =>
    obtain ⟨-, -, h⟩ := except_bind_eq_ok.mp h
    exact (Except.ok.inj h).symm

theorem recipientsOf_eq_ok {cert : Cert} {rs : List (Recipient Key)}
    (h : pgp.recipientsOf hidden true cert = .ok rs) :
    (∀ r, r ∈ rs ↔ r.hidden = hidden ∧ r.key ∈ pgp.encryptionKeys cert) ∧
      ∃ key, key ∈ pgp.encryptionKeys cert := by
  obtain ⟨rs', hrs, h⟩ := except_bind_eq_ok.mp h
  rw [ensure_bind_eq_ok] at h
  obtain ⟨hne, h⟩ := h
  obtain rfl : rs' = rs := Except.ok.inj h
  obtain ⟨hmem, hall⟩ := mem_of_mapM_eq_ok hrs
  refine ⟨fun r ↦ (hmem r).trans ⟨?_, ?_⟩, ?_⟩
  · rintro ⟨key, hkey, hr⟩
    obtain rfl := recipient_eq_ok hr
    exact ⟨rfl, hkey⟩
  · rintro ⟨rfl, hkey⟩
    obtain ⟨r', hr'⟩ := hall r.key hkey
    obtain rfl := recipient_eq_ok hr'
    exact ⟨r.key, hkey, hr'⟩
  · have hempty : (pgp.encryptionKeys cert).isEmpty = false :=
      hne.resolve_right (by decide)
    exact List.exists_mem_of_ne_nil _ fun hnil ↦ by simp [hnil] at hempty

/-- **Recipients.** They are the subkeys of the certificates, and every certificate has one. -/
theorem collectRecipients_eq_ok {certs : List Cert} {rs : List (Recipient Key)}
    (h : pgp.collectRecipients certs hidden true = .ok rs) :
    (∀ r, r ∈ rs ↔ r.hidden = hidden ∧ ∃ cert ∈ certs, r.key ∈ pgp.encryptionKeys cert) ∧
      ∀ cert ∈ certs, ∃ key, key ∈ pgp.encryptionKeys cert := by
  obtain ⟨parts, hparts, h⟩ := except_bind_eq_ok.mp h
  rw [ensure_bind_eq_ok] at h
  obtain rfl := Except.ok.inj h.2
  obtain ⟨hmem, hall⟩ := mem_of_mapM_eq_ok hparts
  refine ⟨fun r ↦ ?_, fun cert hcert ↦ ?_⟩
  · rw [List.mem_flatten]
    constructor
    · rintro ⟨part, hpart, hr⟩
      obtain ⟨cert, hcert, hpart⟩ := (hmem part).mp hpart
      obtain ⟨hhidden, hkey⟩ := ((recipientsOf_eq_ok hpart).1 r).mp hr
      exact ⟨hhidden, cert, hcert, hkey⟩
    · rintro ⟨hhidden, cert, hcert, hkey⟩
      obtain ⟨part, hpart⟩ := hall cert hcert
      exact ⟨part, (hmem part).mpr ⟨cert, hcert, hpart⟩,
        ((recipientsOf_eq_ok hpart).1 r).mpr ⟨hhidden, hkey⟩⟩
  · obtain ⟨part, hpart⟩ := hall cert hcert
    exact (recipientsOf_eq_ok hpart).2

theorem identityToCert_eq_ok {id : Identity Time ContactColumns} {cert : Cert} :
    pgp.identityToCert id = .ok cert ↔
      ∃ bytes, id.columns.pgpPubkey = some bytes ∧ pgp.fromBytes bytes = .ok cert := by
  rw [identityToCert, except_bind_eq_ok]
  simp only [Cipher.okOr_eq_ok, mapError_eq_ok_iff]

end OpenPgp

variable [LT Time] [DecidableLT Time] {env : MessageEnv Time Cert Key Seed}

/-- The text that OpenPGP is given for a request: the message under the profile that is named, and
in Mode A where there is a key for it. -/
def MessageEnv.Seals (env : MessageEnv Time Cert Key Seed) (fault : Option SqlError)
    (profiles : UserProfiles) (draw : Draw Seed) (body : EncryptBody) (sealed : Bytes) : Prop :=
  ∃ plain store profile cess, env.base64.decode body.plaintextB64 = .ok plain ∧
    ProfileStore.load fault profiles = .ok store ∧
    store.registry.get (body.profile.getD "standard") = some profile ∧
    cessPair env body = .ok cess ∧
    sealMessage env draw.tsUnix draw.prk profile plain cess = .ok sealed

/-- What a message that was encrypted was made of. -/
theorem encryptMsg_eq_ok {fault : Option SqlError} {draw : Draw Seed} {now : Time}
    {body : EncryptBody} {d : Daemon} {out : List Char}
    (h : encryptMsg env fault draw now body d = .ok out) :
    ∃ idents certs g sealed ct, env.Seals fault d.profiles draw body sealed ∧
      groupActiveMembers env.clock now body.group d.db = .ok idents ∧
      idents.mapM env.pgp.identityToCert = .ok certs ∧
      groupGet env.clock now body.group d.db = .ok g ∧
      env.pgp.encryptOpenpgp draw.session sealed certs g.hiddenRecipients true = .ok ct ∧
      out = env.base64.encode ct := by
  rw [encryptMsg, ensure_bind_eq_ok] at h
  obtain ⟨-, h⟩ := h
  obtain ⟨plain, hplain, h⟩ := except_bind_eq_ok.mp h
  obtain ⟨store, hstore, h⟩ := except_bind_eq_ok.mp h
  obtain ⟨profile, hprofile, h⟩ := except_bind_eq_ok.mp h
  obtain ⟨cess, hcess, h⟩ := except_bind_eq_ok.mp h
  obtain ⟨idents, hidents, h⟩ := except_bind_eq_ok.mp h
  obtain ⟨certs, hcerts, h⟩ := except_bind_eq_ok.mp h
  obtain ⟨g, hg, h⟩ := except_bind_eq_ok.mp h
  obtain ⟨sealed, hsealed, h⟩ := except_bind_eq_ok.mp h
  obtain ⟨ct, hct, h⟩ := except_bind_eq_ok.mp h
  have hseals : env.Seals fault d.profiles draw body sealed :=
    ⟨plain, store, profile, cess, mapError_eq_ok_iff.mp hplain, mapError_eq_ok_iff.mp hstore,
      Cipher.okOr_eq_ok.mp hprofile, mapError_eq_ok_iff.mp hcess, mapError_eq_ok_iff.mp hsealed⟩
  exact ⟨idents, certs, g, sealed, ct, hseals, hidents, hcerts, mapError_eq_ok_iff.mp hg, hct,
    (Except.ok.inj h).symm⟩

/-- The contact has the subkey in its certificate. -/
def MessageEnv.KeyOf (env : MessageEnv Time Cert Key Seed) (i : IdentityRow ContactColumns)
    (key : Key) : Prop :=
  ∃ bytes cert, i.columns.pgpPubkey = some bytes ∧ env.pgp.fromBytes bytes = .ok cert ∧
    key ∈ env.pgp.encryptionKeys cert

/-- The recipients of a message are the subkeys of the contacts whose terms run. -/
theorem recipients_of_encryptMsg (hclock : env.clock.Lawful) {fault : Option SqlError}
    {draw : Draw Seed} {now : Time} {body : EncryptBody} {d : Daemon} {out : List Char}
    (hdb : d.db.Intact env.clock) (h : encryptMsg env fault draw now body d = .ok out) :
    ∃ r ∈ d.db.groupMetadata, r.groupName = body.group ∧ ∃ recipients sealed ct,
      env.Seals fault d.profiles draw body sealed ∧
      env.pgp.encrypt draw.session recipients sealed = .ok ct ∧ out = env.base64.encode ct ∧
      (∀ rcp, rcp ∈ recipients ↔ rcp.hidden = decide (r.hiddenRecipients ≠ 0) ∧
        ∃ i, d.db.Current env.clock now body.group i ∧ env.KeyOf i rcp.key) ∧
      ∀ i, d.db.Current env.clock now body.group i → ∃ key, env.KeyOf i key := by
  obtain ⟨idents, certs, g, sealed, ct, hseals, hidents, hcerts, hg, hct, rfl⟩ := encryptMsg_eq_ok h
  obtain ⟨r, hr, hname, hhidden, -⟩ := groupGet_eq_ok hg
  obtain ⟨recipients, hrecipients, hct⟩ := except_bind_eq_ok.mp hct
  obtain ⟨hrcp, hkeys⟩ := OpenPgp.collectRecipients_eq_ok hrecipients
  obtain ⟨hcert, hall⟩ := mem_of_mapM_eq_ok hcerts
  have hactive := mem_groupActiveMembers hclock hdb hidents
  -- the certificates are those of the contacts whose terms run
  have hcerts : ∀ cert, cert ∈ certs ↔ ∃ i, d.db.Current env.clock now body.group i ∧
      ∃ bytes, i.columns.pgpPubkey = some bytes ∧ env.pgp.fromBytes bytes = .ok cert := by
    intro cert
    rw [hcert]
    constructor
    · rintro ⟨identity, hidentity, hto⟩
      obtain ⟨i, hi, rfl⟩ := (hactive identity).mp hidentity
      exact ⟨i, hi, OpenPgp.identityToCert_eq_ok.mp hto⟩
    · rintro ⟨i, hi, hbytes⟩
      exact ⟨_, (hactive _).mpr ⟨i, hi, rfl⟩, OpenPgp.identityToCert_eq_ok.mpr hbytes⟩
  refine ⟨r, hr, hname, recipients, sealed, ct, hseals, mapError_eq_ok_iff.mp hct, rfl,
    fun rcp ↦ ?_, ?_⟩
  · rw [hrcp, hhidden]
    refine and_congr_right fun _ ↦ ⟨?_, ?_⟩
    · rintro ⟨cert, hmem, hkey⟩
      obtain ⟨i, hi, bytes, hbytes, hfrom⟩ := (hcerts cert).mp hmem
      exact ⟨i, hi, bytes, cert, hbytes, hfrom, hkey⟩
    · rintro ⟨i, hi, bytes, cert, hbytes, hfrom, hkey⟩
      exact ⟨cert, (hcerts cert).mpr ⟨i, hi, bytes, hbytes, hfrom⟩, hkey⟩
  · intro i hi
    obtain ⟨cert, hto⟩ := hall _ ((hactive _).mpr ⟨i, hi, rfl⟩)
    obtain ⟨bytes, hbytes, hfrom⟩ := OpenPgp.identityToCert_eq_ok.mp hto
    obtain ⟨key, hkey⟩ := hkeys cert ((hcerts cert).mpr ⟨i, hi, bytes, hbytes, hfrom⟩)
    exact ⟨key, bytes, cert, hbytes, hfrom, hkey⟩

/-! ## Recipients over runs -/

/-- A contact whose membership was granted until an instant that has not passed, or for good, and
whose own term runs. -/
def History.Addressed (clock : Rfc3339 Time) (h : History Time ContactColumns) (now : Time)
    (group : String) (i : IdentityRow ContactColumns) : Prop :=
  i ∈ h.db.identities ∧ (∃ e, GrantedUntil h.done group i.id e ∧ pastExpiry now e = false) ∧
    pastExpiry now (i.expiresAt.bind clock.parse) = false

/-- A contact's terms run exactly when it was granted a membership that has not expired, as long as
every group is created fresh. -/
theorem History.current_iff_addressed {clock : Rfc3339 Time} (hclock : clock.Lawful)
    (contacts : List (IdentityRow ContactColumns)) {calls : List (Call Time ContactColumns)}
    (hfresh : ∀ before c, before ++ [c] <+: calls → c.Fresh (History.run clock contacts before).db)
    (now : Time) (group : String) (i : IdentityRow ContactColumns) :
    (History.run clock contacts calls).db.Current clock now group i ↔
      (History.run clock contacts calls).Addressed clock now group i :=
  and_congr_right fun _ ↦ and_congr_left fun _ ↦ exists_congr fun e ↦ and_congr_left fun _ ↦
    History.run_listsUntil hclock contacts hfresh group i.id e

end Recipients

/-! ## A group of one -/

/-- Open the packets of the bench: one for each recipient, with a subkey, and then the text. -/
def openPackets (secretKeys : Bytes) (found : Bool) : Bytes → Except String Bytes
  | 0 :: plain => if found then .ok plain else .error "could not decrypt OpenPGP session key"
  | 1 :: key :: packets => openPackets secretKeys (found || secretKeys.contains key) packets
  | _ => .error "malformed packet"

/-- A library without ciphers. The certificates are lists of subkeys. -/
def OpenPgp.bench : OpenPgp Bytes UInt8 Unit where
  fromBytes := .ok
  fingerprint _ := ""
  encryptionKeys cert := cert
  secretKeys cert := cert
  clearKeyHandle _ := .ok ⟨⟩
  encrypt _ recipients plain := .ok (recipients.flatMap (fun r ↦ [1, r.key]) ++ 0 :: plain)
  decrypt cert := openPackets cert false

def MessageEnv.bench : MessageEnv String Bytes UInt8 Unit where
  clock := textClock
  pgp := .bench
  primitives := Cipher.benchPrimitives
  base64 := .bench
  decodeToSlice _ _ := .error "Odd number of digits"
  sha256 _ := .zero 32
  chainHash := jsonHash

/-- A contact with one subkey. -/
def ada : IdentityRow ContactColumns where
  id := "ada"
  expiresAt := none
  columns := {
    toOptionalFields := .none
    displayName := "Ada"
    email := none
    pgpFingerprint := none
    pgpPubkey := some [7]
    fetchedAt := none
    source := "manual" }

/-- A group that hides its recipients is created and gets a member. -/
def watchOfAda : List (Call String ContactColumns) :=
  [.groupCreate "2026-01-01T08:00:00+00:00" "watch" none true,
    .groupAddMember "2026-01-01T08:01:00+00:00" "watch" "ada" none none]

theorem watchOfAda_fresh (before : List (Call String ContactColumns))
    (c : Call String ContactColumns) (h : before ++ [c] <+: watchOfAda) :
    c.Fresh (History.run textClock [ada] before).db := by
  intro name hcreates _ id hlists
  rcases before with _ | ⟨first, before⟩
  · obtain ⟨g, hg, -⟩ := hlists
    exact List.not_mem_nil hg
  · have hmem := (List.cons_prefix_cons.mp h).2.subset
      (List.mem_append_right _ (List.mem_singleton_self c))
    rw [List.mem_singleton.mp hmem] at hcreates
    exact hcreates

/-- A message for the group. -/
def toWatch : EncryptBody where
  group := "watch"
  plaintextB64 := Base64.encode [1, 2, 3]

/-- The daemon of the sender. -/
def watchDaemon : Daemon := ⟨(History.run textClock [ada] watchOfAda).db, .empty, []⟩

theorem exists_encrypted_watch : ∃ out, encryptMsg .bench none ⟨0, .zero 32, ()⟩
    "2026-01-01T09:00:00+00:00" toWatch watchDaemon = .ok out := by
  have hok : (encryptMsg .bench none ⟨0, .zero 32, ()⟩ "2026-01-01T09:00:00+00:00" toWatch
      watchDaemon).toBool = true := by
    decide +kernel
  rcases h : encryptMsg .bench none ⟨0, .zero 32, ()⟩ "2026-01-01T09:00:00+00:00" toWatch
    watchDaemon with e | out
  · rw [h] at hok
    exact absurd hok Bool.false_ne_true
  · exact ⟨out, rfl⟩

end Galdralag.Host
