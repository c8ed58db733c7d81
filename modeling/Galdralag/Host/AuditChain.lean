import Galdralag.Host.Audit
import Mathlib.Data.List.Forall2
import Mathlib.Data.List.Induction
import Mathlib.Tactic.SplitIfs

/-!
# What the head of the audit log commits to

A log that was only appended to verifies. In a verified log each link pins the payload of the row
before it, and nothing else: not that row's number, and not its own link. Two verified logs with the
same last row therefore agree everywhere as soon as their links and numbers do, but they need not: a
row can be changed if the link after it is changed along, because no further hash covers that link.
-/

set_option linter.all false

namespace Galdralag.Host

variable {Time : Type} {clock : Rfc3339 Time} {hash : ChainHash}

/-! ## Logs that were only appended to -/

theorem auditQuery_concat {log : AuditLog} {row : AuditRow} {rows : List (AuditRecord Time)}
    {rec : AuditRecord Time} (hlog : auditQuery clock log = .ok rows)
    (hrow : mapAuditRow clock row = .ok rec) :
    auditQuery clock (log ++ [row]) = .ok (rows ++ [rec]) := by
  rw [auditQuery] at hlog ⊢
  rcases hmap : log.mapM (mapAuditRow clock) with e | rows'
  · rw [hmap] at hlog
    cases hlog
  · rw [hmap] at hlog
    obtain rfl : rows' = rows := Except.ok.inj hlog
    rw [List.mapM_append, hmap, ok_bind, List.mapM_cons, hrow]
    rfl

theorem verifyFrom_concat (prev rec : AuditRecord Time) (rows : List (AuditRecord Time))
    (h : verifyFrom clock hash prev rows = .ok)
    (hlink : rec.prevHash = hashPayload hash (((rows.getLast?).getD prev).toPayload clock)) :
    verifyFrom clock hash prev (rows ++ [rec]) = .ok := by
  induction rows generalizing prev with
  | nil =>
    have hlink' : rec.prevHash = hashPayload hash (prev.toPayload clock) := hlink
    rw [List.nil_append, verifyFrom, if_neg (not_not_intro hlink'), verifyFrom]
  | cons r rows ih =>
    rw [verifyFrom] at h
    split_ifs at h with hne
    rw [List.cons_append, verifyFrom, if_neg hne]
    refine ih r h (hlink.trans ?_)
    rw [List.getLast?_cons]
    rfl

theorem verifyRows_concat (rec : AuditRecord Time) (rows : List (AuditRecord Time))
    (h : verifyRows clock hash rows = .ok) (hlink : rec.prevHash = rows.getLast?.elim genesisPrevHash
      fun last ↦ hashPayload hash (last.toPayload clock)) :
    verifyRows clock hash (rows ++ [rec]) = .ok := by
  rcases rows with _ | ⟨first, rest⟩
  · have hlink' : rec.prevHash = genesisPrevHash := hlink
    rw [List.nil_append, verifyRows, if_neg (not_not_intro hlink'), verifyFrom]
  · rw [verifyRows] at h
    split_ifs at h with hne
    rw [List.cons_append, verifyRows, if_neg hne]
    refine verifyFrom_concat first rec rest h (hlink.trans ?_)
    rw [List.getLast?_cons]
    rfl

/-- The rows of a log that is read back as it was written, and that verifies. -/
structure Sound (clock : Rfc3339 Time) (hash : ChainHash) (log : AuditLog)
    (rows : List (AuditRecord Time)) : Prop where
  query : auditQuery clock log = .ok rows
  verifies : verifyRows clock hash rows = .ok
  last : rows.getLast?.map (fun r ↦ r.toPayload clock) = log.getLast?.map AuditRow.payload

/-- A sound log verifies. -/
theorem Sound.verify {log : AuditLog} {rows : List (AuditRecord Time)}
    (h : Sound clock hash log rows) : auditVerifyChain clock hash log = .ok .ok := by
  rw [auditVerifyChain, h.query, ok_bind, h.verifies]
  rfl

/-- Appending keeps the chain: what the entry's row is hashed as when it is the last one is what it
is read back as. -/
theorem Sound.append {log : AuditLog} {rows : List (AuditRecord Time)}
    (h : Sound clock hash log rows) {entry : AuditEntry Time}
    (htime : clock.parse (clock.toRfc3339 entry.timestamp) = some entry.timestamp) :
    ∃ rec, Sound clock hash (auditAppend clock hash entry log) (rows ++ [rec]) := by
  refine ⟨{
    id := log.getLast?.elim 1 fun row ↦ row.id + 1
    prevHash := log.getLast?.elim genesisPrevHash fun row ↦ hashPayload hash row.payload
    timestamp := entry.timestamp
    operator := entry.operator
    action := entry.action
    subject := entry.subject
    detail := entry.detail
    deviceSerial := entry.deviceSerial }, ?_, ?_, ?_⟩
  · refine auditQuery_concat h.query ?_
    rw [mapAuditRow]
    change (clock.parse (clock.toRfc3339 entry.timestamp)).elim _ _ = _
    rw [htime]
    change Except.ok _ = _
    simp only [AuditEntry.toPayload, AuditAction.fromWire_asStr, Option.getD_some]
  · refine verifyRows_concat _ _ h.verifies ?_
    have hlast := h.last
    rcases hr : rows.getLast? with _ | r <;> rcases hl : log.getLast? with _ | row <;>
      rw [hr, hl] at hlast
    · rfl
    · cases hlast
    · cases hlast
    · have hpayload : r.toPayload clock = row.payload := Option.some.inj hlast
      change hashPayload hash row.payload = hashPayload hash (r.toPayload clock)
      rw [hpayload]
  · rw [auditAppend, List.getLast?_concat, List.getLast?_concat]
    rfl

/-- The log that entries make, in their order. -/
def appended (clock : Rfc3339 Time) (hash : ChainHash) (entries : List (AuditEntry Time)) : AuditLog :=
  entries.foldl (fun log e ↦ auditAppend clock hash e log) []

theorem exists_sound_appended {entries : List (AuditEntry Time)}
    (htime : ∀ e ∈ entries, clock.parse (clock.toRfc3339 e.timestamp) = some e.timestamp) :
    ∃ rows, Sound clock hash (appended clock hash entries) rows := by
  induction entries using List.reverseRecOn with
  | nil => exact ⟨[], rfl, rfl, rfl⟩
  | append_singleton entries e ih =>
    obtain ⟨rows, h⟩ := ih fun e he ↦ htime e (List.mem_append_left _ he)
    obtain ⟨rec, h⟩ := h.append (htime e (List.mem_append_right _ List.mem_cons_self))
    rw [appended, List.foldl_concat]
    exact ⟨rows ++ [rec], h⟩

/-- **Appended logs verify.** Whatever entries are appended, with times that are read back as they
were printed, the log verifies after each of them. -/
theorem appended_verifies {years : Time → Prop}
    (hclock : ∀ t, years t → clock.parse (clock.toRfc3339 t) = some t)
    (entries : List (AuditEntry Time)) (hyears : ∀ e ∈ entries, years e.timestamp) (n : ℕ) :
    auditVerifyChain clock hash (appended clock hash (entries.take n)) = .ok .ok := by
  have hsound : ∃ rows, Sound clock hash (appended clock hash (entries.take n)) rows :=
    exists_sound_appended fun e he ↦ hclock _ (hyears e (List.mem_of_mem_take he))
  obtain ⟨rows, h⟩ := hsound
  exact h.verify

/-! ## What the links pin -/

/-- The rows of a log that was read back, one by one. -/
theorem mapM_mapAuditRow {log : AuditLog} {rows : List (AuditRecord Time)}
    (h : log.mapM (mapAuditRow clock) = .ok rows) :
    List.Forall₂ (fun row rec ↦ mapAuditRow clock row = .ok rec) log rows := by
  induction log generalizing rows with
  | nil =>
    obtain rfl : [] = rows := Except.ok.inj h
    exact List.Forall₂.nil
  | cons row log ih =>
    rw [List.mapM_cons] at h
    rcases hrow : mapAuditRow clock row with e | rec
    · rw [hrow, error_bind] at h
      cases h
    · rw [hrow, ok_bind] at h
      rcases hlog : log.mapM (mapAuditRow clock) with e | rest
      · rw [hlog, error_bind] at h
        cases h
      · rw [hlog, ok_bind] at h
        obtain rfl : rec :: rest = rows := Except.ok.inj h
        exact List.Forall₂.cons hrow (ih hlog)

/-- A verified log is read back row by row, and the links of what was read are right. -/
theorem verified_rows {log : AuditLog} (h : auditVerifyChain clock hash log = .ok .ok) :
    ∃ rows, List.Forall₂ (fun row rec ↦ mapAuditRow clock row = .ok rec) log rows ∧
      verifyRows clock hash rows = .ok := by
  rw [auditVerifyChain, auditQuery] at h
  rcases hmap : log.mapM (mapAuditRow clock) with e | rows
  · rw [hmap] at h
    cases h
  · rw [hmap] at h
    exact ⟨rows, mapM_mapAuditRow hmap, Except.ok.inj h⟩

/-- What reads as a record: a time that parses, and the fields as they are stored. -/
theorem mapAuditRow_eq_ok {row : AuditRow} {rec : AuditRecord Time}
    (h : mapAuditRow clock row = .ok rec) :
    rec.prevHash = row.prevHash ∧
      (clock.parse row.payload.timestamp).map clock.toRfc3339 =
        some (rec.toPayload clock).timestamp ∧
      (rec.toPayload clock).operator = row.payload.operator ∧
      (rec.toPayload clock).action =
        ((AuditAction.fromWire row.payload.action).getD .configChange).asStr ∧
      (rec.toPayload clock).subject = row.payload.subject ∧
      (rec.toPayload clock).detail = row.payload.detail ∧
      (rec.toPayload clock).deviceSerial = row.payload.deviceSerial := by
  rw [mapAuditRow] at h
  rcases ht : clock.parse row.payload.timestamp with _ | t
  · rw [ht] at h
    cases h
  · rw [ht] at h
    obtain rfl := Except.ok.inj h
    exact ⟨rfl, rfl, rfl, rfl, rfl, rfl, rfl⟩

/-- The part of a stored row that no link covers: the number, the row's own link, and the spelling
of a time or an action that is not the one the log would write itself. -/
structure Unhashed where
  id : Int
  prevHash : String
  timestamp : Option String
  action : Option String
  deriving DecidableEq

/-- What no link covers of `row`. -/
def AuditRow.unhashed (clock : Rfc3339 Time) (row : AuditRow) : Unhashed where
  id := row.id
  prevHash := row.prevHash
  timestamp :=
    if (clock.parse row.payload.timestamp).map clock.toRfc3339 = some row.payload.timestamp then none
    else some row.payload.timestamp
  action :=
    if (AuditAction.fromWire row.payload.action).map AuditAction.asStr = some row.payload.action then
      none
    else some row.payload.action

/-- Two texts with one normal form are equal when both are normal, or else spelled alike. -/
theorem eq_of_spelling (norm : String → Option String) (dflt : String) {s t : String}
    (hnorm : (norm s).getD dflt = (norm t).getD dflt)
    (hspell : (if norm s = some s then none else some s) =
      if norm t = some t then none else some t) : s = t := by
  split_ifs at hspell with hs ht ht
  · rwa [hs, ht] at hnorm
  · exact Option.some.inj hspell

/-- A row is what the link after it covers together with what no link covers. -/
theorem row_eq {row row' : AuditRow} {rec rec' : AuditRecord Time}
    (hrow : mapAuditRow clock row = .ok rec) (hrow' : mapAuditRow clock row' = .ok rec')
    (hpayload : rec.toPayload clock = rec'.toPayload clock)
    (hrest : row.unhashed clock = row'.unhashed clock) : row = row' := by
  obtain ⟨-, ht, ho, ha, hs, hd, hv⟩ := mapAuditRow_eq_ok hrow
  obtain ⟨-, ht', ho', ha', hs', hd', hv'⟩ := mapAuditRow_eq_ok hrow'
  rw [hpayload] at ht ho ha hs hd hv
  have htime : row.payload.timestamp = row'.payload.timestamp := by
    refine eq_of_spelling (fun s ↦ (clock.parse s).map clock.toRfc3339) "" ?_
      (congrArg Unhashed.timestamp hrest)
    rw [ht, ht']
  have haction : row.payload.action = row'.payload.action := by
    refine eq_of_spelling (fun s ↦ (AuditAction.fromWire s).map AuditAction.asStr)
      (AuditAction.asStr .configChange) ?_ (congrArg Unhashed.action hrest)
    rw [Option.getD_map, Option.getD_map, ← ha, ← ha']
  rcases row with ⟨id, prevHash, time, operator, action, subject, detail, serial⟩
  rcases row' with ⟨id', prevHash', time', operator', action', subject', detail', serial'⟩
  obtain rfl : id = id' := congrArg Unhashed.id hrest
  obtain rfl : prevHash = prevHash' := congrArg Unhashed.prevHash hrest
  obtain rfl : time = time' := htime
  obtain rfl : action = action' := haction
  obtain rfl : operator = operator' := ho.symm.trans ho'
  obtain rfl : subject = subject' := hs.symm.trans hs'
  obtain rfl : detail = detail' := hd.symm.trans hd'
  obtain rfl : serial = serial' := hv.symm.trans hv'
  rfl

/-- From a common last row the links lead back to equal rows, one at a time. -/
theorem rows_eq_of_last (hhash : hash.CollisionFree) {log log' : AuditLog}
    {rows rows' : List (AuditRecord Time)} {row row' : AuditRow} {rec rec' : AuditRecord Time}
    (hrow : mapAuditRow clock row = .ok rec) (hrow' : mapAuditRow clock row' = .ok rec')
    (hrows : List.Forall₂ (fun row rec ↦ mapAuditRow clock row = .ok rec) log rows)
    (hrows' : List.Forall₂ (fun row rec ↦ mapAuditRow clock row = .ok rec) log' rows')
    (h : verifyFrom clock hash rec rows = .ok) (h' : verifyFrom clock hash rec' rows' = .ok)
    (hrest : (row :: log).map (AuditRow.unhashed clock) = (row' :: log').map (AuditRow.unhashed clock))
    (hlast : (row :: log).getLast? = (row' :: log').getLast?) : row :: log = row' :: log' := by
  induction hrows generalizing row row' rec rec' log' rows' with
  | nil =>
    rcases hrows' with _ | ⟨-, -⟩
    · obtain rfl : row = row' := Option.some.inj hlast
      rfl
    · cases (List.cons.inj hrest).2
  | @cons next nextRec log rows hnext hrows ih =>
    rcases hrows' with _ | @⟨next', nextRec', log', rows', hnext', hrows'⟩
    · cases (List.cons.inj hrest).2
    · rw [verifyFrom] at h h'
      split_ifs at h h' with hlink hlink'
      obtain ⟨hunhashed, hrest⟩ := List.cons.inj hrest
      rw [List.getLast?_cons_cons, List.getLast?_cons_cons] at hlast
      have hlogs := ih hnext hnext' hrows' h h' hrest hlast
      obtain ⟨rfl, -⟩ := List.cons.inj hlogs
      -- the row after stores the hash of this one
      have hpayload : rec.toPayload clock = rec'.toPayload clock := by
        refine hhash.hashPayload_inj ?_
        rw [← not_not.mp hlink, ← not_not.mp hlink', (mapAuditRow_eq_ok hnext).1,
          (mapAuditRow_eq_ok hnext').1]
      rw [hlogs, row_eq hrow hrow' hpayload hunhashed]

/-- **What the head commits to.** Two verified logs with equally many rows and the same last row are
equal exactly when they agree on what no link covers. -/
theorem head_commits_iff (hhash : hash.CollisionFree) {log log' : AuditLog}
    (h : auditVerifyChain clock hash log = .ok .ok)
    (h' : auditVerifyChain clock hash log' = .ok .ok) (hlen : log.length = log'.length)
    (hlast : log.getLast? = log'.getLast?) :
    log = log' ↔ log.map (AuditRow.unhashed clock) = log'.map (AuditRow.unhashed clock) := by
  refine ⟨fun heq ↦ congrArg _ heq, fun hrest ↦ ?_⟩
  obtain ⟨rows, hrows, hv⟩ := verified_rows h
  obtain ⟨rows', hrows', hv'⟩ := verified_rows h'
  rcases hrows with _ | ⟨hrow, hrows⟩
  · exact (List.length_eq_zero_iff.mp hlen.symm).symm
  · rcases hrows' with _ | ⟨hrow', hrows'⟩
    · cases hlen
    · rw [verifyRows] at hv hv'
      split_ifs at hv hv' with hfirst hfirst'
      exact rows_eq_of_last hhash hrow hrow' hrows hrows' hv hv' hrest hlast

/-! ## A log the head does not determine -/

/-- A character inside a JSON string. -/
def escape (c : Char) : List Char := if c = '"' ∨ c = '\\' then ['\\', c] else [c]

/-- The rest of a JSON string that is open, with its closing quote. -/
def quoted (s : List Char) : List Char := s.flatMap escape ++ [ '"']

/-- Where a JSON string ends is seen from the string alone. -/
theorem quoted_append_inj {s t : List Char} {r r' : List Char} (h : quoted s ++ r = quoted t ++ r') :
    s = t ∧ r = r' := by
  induction s generalizing t with
  | nil =>
    rcases t with _ | ⟨d, t⟩
    · exact ⟨rfl, (List.cons.inj h).2⟩
    · rw [quoted, quoted, List.flatMap_cons, escape] at h
      split_ifs at h with hd
      · exact absurd (List.cons.inj h).1 (by decide)
      · exact absurd (Or.inl (List.cons.inj h).1.symm) hd
  | cons c s ih =>
    rcases t with _ | ⟨d, t⟩
    · rw [quoted, quoted, List.flatMap_cons, escape] at h
      split_ifs at h with hc
      · exact absurd (List.cons.inj h).1 (by decide)
      · exact absurd (Or.inl (List.cons.inj h).1) hc
    · rw [quoted, quoted, List.flatMap_cons, List.flatMap_cons, escape, escape] at h
      split_ifs at h with hc hd hd
      · obtain ⟨rfl, hrest⟩ := List.cons.inj (List.cons.inj h).2
        obtain ⟨rfl, hr⟩ := ih hrest
        exact ⟨rfl, hr⟩
      · exact absurd (Or.inr (List.cons.inj h).1.symm) hd
      · exact absurd (Or.inr (List.cons.inj h).1) hc
      · obtain ⟨rfl, hrest⟩ := List.cons.inj h
        obtain ⟨rfl, hr⟩ := ih hrest
        exact ⟨rfl, hr⟩

/-- A JSON value that is a string or `null`. -/
def nullable : Option String → List Char
  | none => "null".toList
  | some s => '"' :: quoted s.toList

theorem nullable_append_inj {s t : Option String} {r r' : List Char}
    (h : nullable s ++ r = nullable t ++ r') : s = t ∧ r = r' := by
  rcases s with _ | s <;> rcases t with _ | t
  · exact ⟨rfl, List.append_cancel_left h⟩
  · exact absurd (List.cons.inj h).1 (by decide)
  · exact absurd (List.cons.inj h).1 (by decide)
  · obtain ⟨hst, hr⟩ := quoted_append_inj (List.cons.inj h).2
    exact ⟨congrArg some (String.toList_injective hst), hr⟩

/-- The payload as a JSON object, its fields in the order of the structure. -/
def payloadJson (p : ChainPayload) : List Char :=
  "\x7b\"timestamp\":".toList ++ (nullable (some p.timestamp) ++
  (",\"operator\":".toList ++ (nullable p.operator ++
  (",\"action\":".toList ++ (nullable (some p.action) ++
  (",\"subject\":".toList ++ (nullable p.subject ++
  (",\"detail\":".toList ++ (nullable p.detail ++
  (",\"device_serial\":".toList ++ (nullable p.deviceSerial ++ "\x7d".toList)))))))))))

theorem payloadJson_injective {p q : ChainPayload} (h : payloadJson p = payloadJson q) : p = q := by
  obtain ⟨ht, h⟩ := nullable_append_inj (List.append_cancel_left h)
  obtain ⟨ho, h⟩ := nullable_append_inj (List.append_cancel_left h)
  obtain ⟨ha, h⟩ := nullable_append_inj (List.append_cancel_left h)
  obtain ⟨hs, h⟩ := nullable_append_inj (List.append_cancel_left h)
  obtain ⟨hd, h⟩ := nullable_append_inj (List.append_cancel_left h)
  obtain ⟨hv, -⟩ := nullable_append_inj (List.append_cancel_left h)
  rcases p with ⟨time, operator, action, subject, detail, serial⟩
  rcases q with ⟨time', operator', action', subject', detail', serial'⟩
  obtain rfl : time = time' := Option.some.inj ht
  obtain rfl : operator = operator' := ho
  obtain rfl : action = action' := Option.some.inj ha
  obtain rfl : subject = subject' := hs
  obtain rfl : detail = detail' := hd
  obtain rfl : serial = serial' := hv
  rfl

/-- The JSON text, and a hash without collisions: the text itself. -/
def jsonHash : ChainHash where
  toJson := fun p ↦ String.ofList (payloadJson p)
  sha256Hex := fun s ↦ s

theorem jsonHash_collisionFree : jsonHash.CollisionFree where
  json_injective := fun h ↦ payloadJson_injective (String.ofList_injective h)
  sha256_injective := fun h ↦ h

/-- An entry of the morning of the first of January. -/
def entryAt (minute : String) (operator : Option String) (action : AuditAction) : AuditEntry String where
  timestamp := "2026-01-01T00:" ++ minute ++ ":00+00:00"
  operator := operator
  action := action
  subject := none
  detail := none
  deviceSerial := none

/-- The device is unlocked by `operator`, used and locked. -/
def morning (operator : String) : AuditLog :=
  [entryAt "01" (some operator) .deviceUnlock, entryAt "02" none .sign,
    entryAt "03" none .deviceLock].foldl (fun log e ↦ auditAppend textClock jsonHash e log) []

theorem morning_verifies (operator : String) :
    auditVerifyChain textClock jsonHash (morning operator) = .ok .ok := by
  have hsound : ∃ rows, Sound textClock jsonHash (morning operator) rows :=
    exists_sound_appended fun e _ ↦ textClock_lawful e.timestamp
  obtain ⟨rows, h⟩ := hsound
  exact h.verify

theorem morning_length (operator : String) : (morning operator).length = 3 := rfl

theorem morning_head (operator : String) :
    (morning operator).head?.bind (fun row ↦ row.payload.operator) = some operator := rfl

theorem morning_last (operator : String) : (morning operator).getLast? = some {
    id := 3
    prevHash := hashPayload jsonHash ((entryAt "02" none .sign).toPayload textClock)
    payload := (entryAt "03" none .deviceLock).toPayload textClock } := rfl

/-- The log of the morning after its second entry. -/
theorem appended_verifies_morning :
    auditVerifyChain textClock jsonHash (appended textClock jsonHash
      ([entryAt "01" (some "alice") .deviceUnlock, entryAt "02" none .sign,
        entryAt "03" none .deviceLock].take 2)) = .ok .ok := by
  have hclock : ∀ t : String, t.length = 25 →
      textClock.parse (textClock.toRfc3339 t) = some t := fun t _ ↦ textClock_lawful t
  exact appended_verifies hclock _ (by decide) 2

theorem head_commits_iff_morning :
    morning "alice" = morning "mallory" ↔ (morning "alice").map (AuditRow.unhashed textClock) =
      (morning "mallory").map (AuditRow.unhashed textClock) :=
  head_commits_iff jsonHash_collisionFree (morning_verifies "alice") (morning_verifies "mallory")
    ((morning_length "alice").trans (morning_length "mallory").symm)
    ((morning_last "alice").trans (morning_last "mallory").symm)

/-- Two logs that verify and end in the same row, its link included, name different operators in the
first row: the last link covers the second row, and no hash covers the link of the second row. -/
theorem head_misses_first_row :
    jsonHash.CollisionFree ∧
      auditVerifyChain textClock jsonHash (morning "alice") = .ok .ok ∧
      auditVerifyChain textClock jsonHash (morning "mallory") = .ok .ok ∧
      (morning "alice").length = (morning "mallory").length ∧
      (morning "alice").getLast? = (morning "mallory").getLast? ∧
      morning "alice" ≠ morning "mallory" := by
  refine ⟨jsonHash_collisionFree, morning_verifies "alice", morning_verifies "mallory",
    (morning_length "alice").trans (morning_length "mallory").symm,
    (morning_last "alice").trans (morning_last "mallory").symm, fun h ↦ ?_⟩
  have hfirst : some "alice" = some "mallory" := by
    rw [← morning_head "alice", ← morning_head "mallory", h]
  exact absurd hfirst (by decide)

end Galdralag.Host
