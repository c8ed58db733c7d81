import Galdralag.Foundation.Csv
import Galdralag.Host.TimeFilters

/-!
# Exporting the audit log as CSV

The rows of a query are written one after the other behind a header. The fields that hold free text
are quoted when they contain a comma, a quote or a line feed. A carriage return is not looked for,
so that a text with one, and with none of the others, is written as it stands.

An export is faithful if a reader gets back the header and the fields of every row, where a missing
text reads as an empty one. `auditExportCsv_faithful_iff` says for which rows it is: a field with a
carriage return has to contain something else that makes it quoted, and the stored link of a row,
which is never quoted, has to be plain.
-/

set_option linter.all false

namespace Galdralag.Host

open Csv (Cell isSpecial)

/-! ## The export -/

/-- The characters that make a text quoted. -/
def needsQuotes (s : List Char) : Bool := s.contains ',' || s.contains '"' || s.contains '\n'

def csvEscape : Option String → List Char
  | none => []
  | some t =>
    if needsQuotes t.toList then '"' :: (Csv.double t.toList ++ ['"']) else t.toList

/-- A number in decimal. -/
def idText (id : Int) : List Char :=
  if id < 0 then '-' :: Nat.toDigits 10 id.natAbs else Nat.toDigits 10 id.natAbs

def csvHeader : List Char :=
  "id,prev_hash,timestamp,operator,action,subject,detail,device_serial".toList

section Export

variable {Time : Type} (clock : Rfc3339 Time)

/-- The line of a row. -/
def csvLine (r : AuditRecord Time) : List Char :=
  idText r.id ++ ',' :: (r.prevHash.toList ++ ',' :: ((clock.toRfc3339 r.timestamp).toList ++ ',' ::
    (csvEscape r.operator ++ ',' :: (r.action.asStr.toList ++ ',' :: (csvEscape r.subject ++ ',' ::
      (csvEscape r.detail ++ ',' :: (csvEscape r.deviceSerial ++ ['\n'])))))))

/-- The text of an export. -/
def csvText (rows : List (AuditRecord Time)) : List Char :=
  csvHeader ++ '\n' :: rows.flatMap (csvLine clock)

/-- Export matching rows as CSV. -/
def auditExportCsv (filter : AuditFilter Time) (log : AuditLog) : Except GaldraError (List Char) := do
  let rows ← auditQueryFiltered clock filter log
  pure (csvText clock rows)

/-! ## What a reader should get -/

/-- The names of the columns. -/
def csvColumns : List (List Char) :=
  ["id", "prev_hash", "timestamp", "operator", "action", "subject", "detail", "device_serial"].map
    String.toList

/-- The text of a field, empty where there is none. -/
def fieldText (s : Option String) : List Char := (s.getD "").toList

/-- The fields of a row. -/
def csvFields (r : AuditRecord Time) : List (List Char) :=
  [idText r.id, r.prevHash.toList, (clock.toRfc3339 r.timestamp).toList, fieldText r.operator,
    r.action.asStr.toList, fieldText r.subject, fieldText r.detail, fieldText r.deviceSerial]

/-- A reader gets the header and the fields of every row. -/
def Faithful (rows : List (AuditRecord Time)) (text : List Char) : Prop :=
  Csv.read text = some (csvColumns :: rows.map (csvFields clock))

/-- A text without a special character. -/
def PlainText (s : List Char) : Prop := s.all (fun c ↦ !isSpecial c) = true

instance (s : List Char) : Decidable (PlainText s) :=
  inferInstanceAs (Decidable (s.all (fun c ↦ !isSpecial c) = true))

/-- The times that a clock prints have no special character. -/
def Rfc3339.PlainTexts : Prop := ∀ t, PlainText (clock.toRfc3339 t).toList

/-- The free texts of a row. -/
def freeTexts (r : AuditRecord Time) : List (List Char) :=
  [fieldText r.operator, fieldText r.subject, fieldText r.detail, fieldText r.deviceSerial]

/-- The row can be exported: a free text with a carriage return is quoted on some other account, and
the link is plain. -/
def Exportable (r : AuditRecord Time) : Prop :=
  PlainText r.prevHash.toList ∧ ∀ s ∈ freeTexts r, '\r' ∈ s → needsQuotes s = true

/-! ## Cells -/

/-- A free text as a cell. -/
def textCell (s : Option String) : Cell :=
  if needsQuotes (fieldText s) then .quoted (fieldText s) else .raw (fieldText s)

/-- The cells of a row. -/
def csvCells (r : AuditRecord Time) : List Cell :=
  [.raw (idText r.id), .raw r.prevHash.toList, .raw (clock.toRfc3339 r.timestamp).toList,
    textCell r.operator, .raw r.action.asStr.toList, textCell r.subject, textCell r.detail,
    textCell r.deviceSerial]

theorem text_textCell (s : Option String) : (textCell s).text = csvEscape s := by
  cases s with
  | none => rfl
  | some t =>
    rw [textCell, csvEscape]
    change (if needsQuotes t.toList = true then Cell.quoted t.toList else Cell.raw t.toList).text = _
    split_ifs <;> rfl

@[simp] theorem value_textCell (s : Option String) : (textCell s).value = fieldText s := by
  rw [textCell]
  split_ifs <;> rfl

/-- The lines of the export are the records of the cells. -/
theorem writeRow_csvCells (r : AuditRecord Time) :
    Csv.writeRow (csvCells clock r) = csvLine clock r := by
  rw [csvLine, ← text_textCell, ← text_textCell, ← text_textCell, ← text_textCell]
  rfl

/-- The header is the record of the columns. -/
theorem csvHeader_eq_writeRow : csvHeader ++ ['\n'] = Csv.writeRow (csvColumns.map Cell.raw) := by
  have hid : "id".toList = ['i', 'd'] := toList_of_eq rfl
  have hprev : "prev_hash".toList = ['p', 'r', 'e', 'v', '_', 'h', 'a', 's', 'h'] := toList_of_eq rfl
  have htime : "timestamp".toList = ['t', 'i', 'm', 'e', 's', 't', 'a', 'm', 'p'] := toList_of_eq rfl
  have hoperator : "operator".toList = ['o', 'p', 'e', 'r', 'a', 't', 'o', 'r'] := toList_of_eq rfl
  have haction : "action".toList = ['a', 'c', 't', 'i', 'o', 'n'] := toList_of_eq rfl
  have hsubject : "subject".toList = ['s', 'u', 'b', 'j', 'e', 'c', 't'] := toList_of_eq rfl
  have hdetail : "detail".toList = ['d', 'e', 't', 'a', 'i', 'l'] := toList_of_eq rfl
  have hserial : "device_serial".toList
      = ['d', 'e', 'v', 'i', 'c', 'e', '_', 's', 'e', 'r', 'i', 'a', 'l'] := toList_of_eq rfl
  rw [csvColumns, List.map_map]
  refine (congrArg (· ++ ['\n']) (toList_of_eq rfl)).trans ?_
  simp only [List.map_cons, List.map_nil, Function.comp_apply, hid, hprev, htime, hoperator, haction,
    hsubject, hdetail, hserial]
  rfl

theorem csvText_eq_write (rows : List (AuditRecord Time)) :
    csvText clock rows = Csv.write (csvColumns.map Cell.raw :: rows.map (csvCells clock)) := by
  have hlines : (rows.map (csvCells clock)).flatMap Csv.writeRow = rows.flatMap (csvLine clock) := by
    rw [List.flatMap_map]
    exact congrArg (fun f ↦ rows.flatMap f) (funext (writeRow_csvCells clock))
  rw [csvText, Csv.write, List.flatMap_cons, ← csvHeader_eq_writeRow, hlines, List.append_assoc,
    List.singleton_append]

theorem values_csvCells (r : AuditRecord Time) :
    (csvCells clock r).map Cell.value = csvFields clock r := by
  simp only [csvCells, csvFields, List.map_cons, List.map_nil, value_textCell]
  rfl

/-! ## Which cells can be read -/

theorem plainText_of_forall {s : List Char} (h : ∀ c ∈ s, isSpecial c = false) : PlainText s := by
  refine List.all_eq_true.mpr fun c hc ↦ ?_
  rw [h c hc]
  rfl

/-- A digit is not special. -/
theorem isSpecial_of_isDigit {c : Char} (h : c.isDigit = true) : isSpecial c = false := by
  by_contra hspecial
  rw [Bool.not_eq_false, Csv.isSpecial_iff] at hspecial
  rcases hspecial with rfl | rfl | rfl | rfl
  · exact absurd h (by decide)
  · exact absurd h (by decide)
  · exact absurd h (by decide)
  · exact absurd h (by decide)

theorem plainText_idText (id : Int) : PlainText (idText id) := by
  have hdigits : ∀ c ∈ Nat.toDigits 10 id.natAbs, isSpecial c = false := fun c hc ↦
    isSpecial_of_isDigit (Nat.isDigit_of_mem_toDigits (by decide) (by decide) hc)
  rw [idText]
  split_ifs
  · exact plainText_of_forall (List.forall_mem_cons.mpr ⟨rfl, hdigits⟩)
  · exact plainText_of_forall hdigits

theorem plainText_asStr (a : AuditAction) : PlainText a.asStr.toList := by
  cases a <;> decide +kernel

/-- A free text is readable exactly if a carriage return in it is not its only special character. -/
theorem readable_textCell_iff (s : Option String) :
    (textCell s).Readable ↔ ('\r' ∈ fieldText s → needsQuotes (fieldText s) = true) := by
  rw [textCell]
  by_cases hquotes : needsQuotes (fieldText s) = true
  · rw [if_pos hquotes]
    exact iff_of_true trivial fun _ ↦ hquotes
  · rw [if_neg hquotes]
    constructor
    · intro hplain hreturn
      have hspecial := List.all_eq_true.mp hplain '\r' hreturn
      exact absurd hspecial (by decide)
    · intro h
      refine plainText_of_forall fun c hc ↦ ?_
      by_contra hspecial
      rw [Bool.not_eq_false, Csv.isSpecial_iff] at hspecial
      have hnot := hquotes
      simp only [needsQuotes, Bool.or_eq_true, List.contains_iff_mem, not_or] at hnot
      rcases hspecial with rfl | rfl | rfl | rfl
      · exact hnot.1.1 hc
      · exact hnot.1.2 hc
      · exact hquotes (h hc)
      · exact hnot.2 hc

variable {clock}

/-- The cells of a row can be read exactly if the row can be exported. -/
theorem readable_csvCells_iff (hclock : clock.PlainTexts) (r : AuditRecord Time) :
    (∀ cell ∈ csvCells clock r, cell.Readable) ↔ Exportable r := by
  have hid : (Cell.raw (idText r.id)).Readable := plainText_idText r.id
  have htime : (Cell.raw (clock.toRfc3339 r.timestamp).toList).Readable := hclock r.timestamp
  have haction : (Cell.raw r.action.asStr.toList).Readable := plainText_asStr r.action
  have hlink : (Cell.raw r.prevHash.toList).Readable ↔ PlainText r.prevHash.toList := Iff.rfl
  simp only [csvCells, Exportable, freeTexts, List.forall_mem_cons, readable_textCell_iff, hlink,
    hid, htime, haction, List.not_mem_nil, false_implies, implies_true, true_and, and_true]

theorem faithful_csvText_iff (hclock : clock.PlainTexts) (rows : List (AuditRecord Time)) :
    Faithful clock rows (csvText clock rows) ↔ ∀ r ∈ rows, Exportable r := by
  have hne : ∀ row ∈ csvColumns.map Cell.raw :: rows.map (csvCells clock), row ≠ [] := by
    refine List.forall_mem_cons.mpr ⟨List.cons_ne_nil _ _, fun row hrow ↦ ?_⟩
    obtain ⟨r, -, rfl⟩ := List.mem_map.mp hrow
    exact List.cons_ne_nil _ _
  have hvalues : (csvColumns.map Cell.raw :: rows.map (csvCells clock)).map (List.map Cell.value) =
      csvColumns :: rows.map (csvFields clock) := by
    rw [List.map_cons, List.map_map, List.map_map]
    exact congr (congrArg List.cons (List.map_id csvColumns))
      (congrArg (fun f ↦ rows.map f) (funext (values_csvCells clock)))
  have hheader : ∀ cell ∈ csvColumns.map Cell.raw, cell.Readable := by
    intro cell hcell
    obtain ⟨name, hname, rfl⟩ := List.mem_map.mp hcell
    have hall : csvColumns.all (fun s ↦ s.all fun c ↦ !isSpecial c) = true := by decide
    exact List.all_eq_true.mp hall name hname
  have hread := Csv.read_write_iff _ hne
  rw [hvalues, ← csvText_eq_write, List.forall_mem_cons] at hread
  rw [Faithful, hread, and_iff_right hheader, List.forall_mem_map]
  exact forall₂_congr fun r _ ↦ readable_csvCells_iff hclock r

/-- **An export is faithful** exactly if all its rows can be exported. -/
theorem auditExportCsv_faithful_iff (hclock : clock.PlainTexts) {filter : AuditFilter Time}
    {log : AuditLog} {rows : List (AuditRecord Time)}
    (hrows : auditQueryFiltered clock filter log = .ok rows) :
    ∃ text, auditExportCsv clock filter log = .ok text ∧
      (Faithful clock rows text ↔ ∀ r ∈ rows, Exportable r) := by
  refine ⟨csvText clock rows, ?_, faithful_csvText_iff hclock rows⟩
  rw [auditExportCsv, hrows]
  rfl

end Export

/-! ## A carriage return -/

/-- A clock with one instant. -/
def newYearClock : Rfc3339 Unit where
  parse _ := some ()
  toRfc3339 _ := "2025-01-01T00:00:00+00:00"
  parseError _ := ""

theorem newYearClock_plainTexts : newYearClock.PlainTexts := by
  have hplain : PlainText "2025-01-01T00:00:00+00:00".toList := by decide
  exact fun _ ↦ hplain

/-- A row whose device serial is `serial`. -/
def rowOfSerial (serial : String) : AuditRow where
  id := 1
  prevHash := genesisPrevHash
  payload := ⟨"2025-01-01T00:00:00+00:00", none, "sign", none, none, some serial⟩

/-- What is read of the row. -/
def recordOfSerial (serial : String) : AuditRecord Unit :=
  ⟨1, genesisPrevHash, (), none, .sign, none, none, some serial⟩

theorem auditExportCsv_faithful_iff_plain :
    ∃ text, auditExportCsv newYearClock ⟨none, none, none⟩ [rowOfSerial "x,y"] = .ok text ∧
      (Faithful newYearClock [recordOfSerial "x,y"] text ↔
        ∀ r ∈ [recordOfSerial "x,y"], Exportable r) :=
  auditExportCsv_faithful_iff newYearClock_plainTexts rfl

/-- **A carriage return at the end of a row** is taken for a part of the line break. -/
theorem carriage_return_lost :
    ¬ ∀ filter log rows, auditQueryFiltered newYearClock filter log = .ok rows →
      ∃ text, auditExportCsv newYearClock filter log = .ok text ∧
        Faithful newYearClock rows text := by
  intro h
  obtain ⟨text, htext, hfaithful⟩ :=
    h ⟨none, none, none⟩ [rowOfSerial "x\r"] [recordOfSerial "x\r"] rfl
  have heq : csvText newYearClock [recordOfSerial "x\r"] = text := Except.ok.inj htext
  rw [← heq, faithful_csvText_iff newYearClock_plainTexts, List.forall_mem_singleton] at hfaithful
  have hquotes := hfaithful.2 (fieldText (some "x\r")) (by simp [freeTexts, recordOfSerial])
    (by decide)
  exact absurd hquotes (by decide)

end Galdralag.Host
