import Galdralag.Host.Audit
import Galdralag.Host.ContactSearch
import Galdralag.Host.UtcTime

/-!
# Filtering by time

The log can be asked for the rows since an instant and the contacts for those whose key has expired.
Both compare texts: the instant is printed, and the database compares it with what a column holds.
The test for the members of a group reads the column instead and compares instants.

With the texts that the date library prints both ways select the same rows (`time_filters_exact`).
-/

set_option linter.all false

namespace Galdralag.Host

/-- The clock prints instants in the shortest form. -/
def Rfc3339.PrintsShortest (clock : Rfc3339 UtcTime) : Prop := ∀ t, clock.toRfc3339 t = t.text

/-! ## The log -/

/-- Filters for reading the log. -/
structure AuditFilter (Time : Type) where
  since : Option Time
  action : Option AuditAction
  limit : Option ℕ

section Query

variable {Time : Type} (clock : Rfc3339 Time)

/-- `AND timestamp >= ?`, a comparison of texts. -/
def isSince (since : Option Time) (row : AuditRow) : Bool :=
  since.all fun s ↦ ¬ row.payload.timestamp < clock.toRfc3339 s

/-- `AND action = ?`. -/
def isAction (action : Option AuditAction) (row : AuditRow) : Bool :=
  action.all fun a ↦ row.payload.action = a.asStr

/-- `LIMIT ?`; a number that is no 64-bit integer of the database is refused. -/
def limitRows (limit : Option ℕ) (rows : List AuditRow) : Except SqlError (List AuditRow) :=
  match limit with
  | none => .ok rows
  | some l => if l < 2 ^ 63 then .ok (rows.take l) else .error .conversionFailure

/-- The rows that satisfy a condition on their time, and the other filters, by number. -/
def auditSelect (timely : AuditRow → Bool) (filter : AuditFilter Time) (log : AuditLog) :
    Except GaldraError (List (AuditRecord Time)) := do
  let rows ← (limitRows filter.limit (log.filter fun row ↦
    timely row && isAction filter.action row)).mapError GaldraError.database
  (rows.mapM (mapAuditRow clock)).mapError .database

/-- Query audit rows with optional filters. -/
def auditQueryFiltered (filter : AuditFilter Time) (log : AuditLog) :
    Except GaldraError (List (AuditRecord Time)) :=
  auditSelect clock (isSince clock filter.since) filter log

/-- Without filters all rows are read. -/
theorem auditQueryFiltered_all (log : AuditLog) :
    auditQueryFiltered clock ⟨none, none, none⟩ log = auditQuery clock log := by
  have hall : log.filter (fun row ↦ isSince clock none row && isAction none row) = log :=
    List.filter_eq_self.mpr fun _ _ ↦ rfl
  rw [auditQueryFiltered, auditSelect, hall]
  rfl

variable [LT Time] [DecidableLT Time]

/-- The instant of the row is not before `since`. -/
def isSinceInstant (since : Option Time) (row : AuditRow) : Bool :=
  since.all fun s ↦ (clock.parse row.payload.timestamp).all fun t ↦ ¬ t < s

/-! ## The contacts -/

/-- The conditions of a list, with the test for expiry that groups use. -/
def isListedByInstant (like : Like) (now : Time) (filter : ContactFilter)
    (r : IdentityRow ContactColumns) : Except SqlError Bool :=
  if filter.expired && !pastExpiry now (identityFromRow clock r).expiresAt then .ok false
  else do
    let b ← filterLike like filter.organisation r.columns.organisation
    if b then filterLike like filter.role r.columns.role else pure false

end Query

/-! ## Texts and instants -/

section Filters

variable {clock : Rfc3339 UtcTime}

theorem toRfc3339_lt_iff (hprints : clock.PrintsShortest) (s t : UtcTime) :
    clock.toRfc3339 s < clock.toRfc3339 t ↔ s < t := by
  rw [hprints, hprints, UtcTime.text_lt_iff]

theorem isSince_eq (hlawful : clock.Lawful) (hprints : clock.PrintsShortest)
    (since : Option UtcTime) {row : AuditRow} (hrow : clock.Printed row.payload.timestamp) :
    isSince clock since row = isSinceInstant clock since row := by
  obtain ⟨t, ht⟩ := hrow
  cases since with
  | none => rfl
  | some s =>
    rw [isSince, isSinceInstant, ht, hlawful]
    change decide (¬ clock.toRfc3339 t < clock.toRfc3339 s) = decide (¬ t < s)
    rw [decide_eq_decide, toRfc3339_lt_iff hprints]

theorem isExpiredRow_eq (hlawful : clock.Lawful) (hprints : clock.PrintsShortest) (now : UtcTime)
    {r : IdentityRow ContactColumns} (hrow : ∀ s ∈ r.expiresAt, clock.Printed s) :
    isExpiredRow clock now r = pastExpiry now (identityFromRow clock r).expiresAt := by
  rw [isExpiredRow, identityFromRow, pastExpiry]
  cases hexpires : r.expiresAt with
  | none => rfl
  | some s =>
    obtain ⟨t, rfl⟩ := hrow s hexpires
    change decide (clock.toRfc3339 t < clock.toRfc3339 now) =
      (clock.parse (clock.toRfc3339 t)).any fun t ↦ t < now
    rw [hlawful]
    change _ = decide (t < now)
    rw [decide_eq_decide, toRfc3339_lt_iff hprints]

theorem selectWhere_congr {Row : Type} {p q : Row → Except SqlError Bool} {rows : List Row}
    (h : ∀ r ∈ rows, p r = q r) : selectWhere p rows = selectWhere q rows := by
  induction rows with
  | nil => rfl
  | cons r rows ih =>
    rw [selectWhere, selectWhere, h r List.mem_cons_self,
      ih fun r' hr' ↦ h r' (List.mem_cons_of_mem r hr')]

/-- **Filters by time are exact.** With stored times in the shortest form, which is read back as it
was printed, a query of the log selects by instants, a list of contacts selects the expired ones by
instants, and the condition for that is the one that the members of a group are tested with. -/
theorem time_filters_exact (hlawful : clock.Lawful) (hprints : clock.PrintsShortest) :
    (∀ s t, clock.toRfc3339 s < clock.toRfc3339 t ↔ s < t) ∧
    (∀ filter log, (∀ row ∈ log, clock.Printed row.payload.timestamp) →
      auditQueryFiltered clock filter log =
        auditSelect clock (isSinceInstant clock filter.since) filter log) ∧
    ∀ like now filter db, (∀ r ∈ db.identities, ∀ s ∈ r.expiresAt, clock.Printed s) →
      contactList clock like now db filter =
        queryContacts clock (isListedByInstant clock like now filter) db ∧
      ∀ r ∈ db.identities,
        isExpiredRow clock now r = pastExpiry now (identityFromRow clock r).expiresAt := by
  refine ⟨toRfc3339_lt_iff hprints, fun filter log hlog ↦ ?_, fun like now filter db hdb ↦ ⟨?_, ?_⟩⟩
  · have hrows : log.filter (fun row ↦ isSince clock filter.since row && isAction filter.action row) =
        log.filter fun row ↦ isSinceInstant clock filter.since row && isAction filter.action row :=
      List.filter_congr fun row hrow ↦ by
        rw [isSince_eq hlawful hprints filter.since (hlog row hrow)]
    rw [auditQueryFiltered, auditSelect, auditSelect, hrows]
  · have hselect := selectWhere_congr (p := isListed clock like now filter)
      (q := isListedByInstant clock like now filter) fun r hr ↦ by
        rw [isListed, isListedByInstant, isExpiredRow_eq hlawful hprints now (hdb r hr)]
    rw [contactList, queryContacts, queryContacts, hselect]
  · exact fun r hr ↦ isExpiredRow_eq hlawful hprints now (hdb r hr)

end Filters

/-! ## A clock -/

open Classical in
/-- The clock that reads exactly the texts it prints. -/
noncomputable def utcClock : Rfc3339 UtcTime where
  parse s := if h : ∃ t : UtcTime, t.text = s then some h.choose else none
  toRfc3339 := UtcTime.text
  parseError _ := ""

theorem utcClock_lawful : utcClock.Lawful := by
  intro t
  have hexists : ∃ s : UtcTime, s.text = t.text := ⟨t, rfl⟩
  exact (dif_pos hexists).trans (congrArg some (UtcTime.text_injective hexists.choose_spec))

/-- The start of a year, and half a second later. -/
def newYear : UtcTime :=
  ⟨2025, 1, 0, 0, by decide, by decide, by decide, by decide, by decide, by decide⟩

def newYearAndHalf : UtcTime :=
  ⟨2025, 1, 0, 500000000, by decide, by decide, by decide, by decide, by decide, by decide⟩

/-- A full second is before its half, also as texts, one of which has a `+` where the other has a
point. -/
theorem time_filters_exact_half :
    utcClock.toRfc3339 newYear < utcClock.toRfc3339 newYearAndHalf :=
  ((time_filters_exact utcClock_lawful fun _ ↦ rfl).1 newYear newYearAndHalf).mpr (by decide)

end Galdralag.Host
