import Mathlib.Data.List.Basic

/-!
# Comma-separated values

A table is text: records of fields. The reader follows RFC 4180. A field is plain text without a
comma, a quote, a carriage return or a line feed, or it is anything in quotes, where quotes are
doubled. Commas stand between the fields of a record, and a record ends with a line break, which is
a carriage return and a line feed; a line feed alone is accepted as well. Everything else is
malformed, a carriage return within plain text included.

A writer decides for each field whether to quote it (`Cell`). What it writes is read back exactly if
every field that it does not quote is plain (`read_write_iff`).
-/

set_option linter.all false

namespace Galdralag

namespace Csv

/-! ## The reader -/

/-- The characters that no unquoted field has. -/
def isSpecial (c : Char) : Bool := c = ',' || c = '"' || c = '\r' || c = '\n'

theorem isSpecial_iff {c : Char} :
    isSpecial c = true ↔ c = ',' ∨ c = '"' ∨ c = '\r' ∨ c = '\n' := by
  simp [isSpecial, or_assoc]

/-- Where the reader is: at the start of a record or of a field, in plain text, within quotes,
behind a quote within quotes, or behind a carriage return that ends a field. -/
inductive Mode where
  | fresh
  | start
  | plain
  | quoted
  | closing
  | cr
  deriving DecidableEq

/-- What the reader does with a character. -/
inductive Action where
  /-- It belongs to the field. -/
  | push (next : Mode)
  | skip (next : Mode)
  | nextField
  | nextRecord
  | malformed

/-- A character behind a field. -/
def delimit (c : Char) : Action :=
  if c = ',' then .nextField else if c = '\n' then .nextRecord else if c = '\r' then .skip .cr
  else .malformed

def act : Mode → Char → Action
  | .fresh, c | .start, c =>
    if c = '"' then .skip .quoted else if isSpecial c then delimit c else .push .plain
  | .plain, c => if isSpecial c then delimit c else .push .plain
  | .quoted, c => if c = '"' then .skip .closing else .push .quoted
  | .closing, c => if c = '"' then .push .quoted else delimit c
  | .cr, c => if c = '\n' then .nextRecord else .malformed

/-- The end of the text. -/
def finish (field : List Char) (fields : List (List Char)) :
    Mode → Option (List (List (List Char)))
  | .fresh => some []
  | .quoted | .cr => none
  | .start | .plain | .closing => some [fields ++ [field]]

/-- Read on, with the field and the fields of the record so far. -/
def readFrom (mode : Mode) (field : List Char) (fields : List (List Char)) :
    List Char → Option (List (List (List Char)))
  | [] => finish field fields mode
  | c :: cs =>
    match act mode c with
    | .push next => readFrom next (field ++ [c]) fields cs
    | .skip next => readFrom next field fields cs
    | .nextField => readFrom .start [] (fields ++ [field]) cs
    | .nextRecord => (readFrom .fresh [] [] cs).map ((fields ++ [field]) :: ·)
    | .malformed => none

/-- The records of a text. -/
def read (text : List Char) : Option (List (List (List Char))) := readFrom .fresh [] [] text

/-! ## The writer -/

/-- A field to be written. -/
inductive Cell where
  | quoted (value : List Char)
  | raw (value : List Char)

def Cell.value : Cell → List Char
  | .quoted value | .raw value => value

/-- Every quote twice. -/
def double (s : List Char) : List Char := s.flatMap fun c ↦ if c = '"' then ['"', '"'] else [c]

def Cell.text : Cell → List Char
  | .quoted value => '"' :: (double value ++ ['"'])
  | .raw value => value

/-- The cell is quoted or plain. -/
def Cell.Readable : Cell → Prop
  | .quoted _ => True
  | .raw value => value.all (fun c ↦ !isSpecial c) = true

/-- A record and its line break. -/
def writeRow : List Cell → List Char
  | [] => ['\n']
  | [cell] => cell.text ++ ['\n']
  | cell :: cells => cell.text ++ ',' :: writeRow cells

def write (rows : List (List Cell)) : List Char := rows.flatMap writeRow

/-! ## Steps of the reader -/

variable {mode : Mode} {field : List Char} {fields : List (List Char)} {c : Char}
  {cs : List Char}

theorem readFrom_push {next : Mode} (h : act mode c = .push next) :
    readFrom mode field fields (c :: cs) = readFrom next (field ++ [c]) fields cs := by
  rw [readFrom, h]

theorem readFrom_skip {next : Mode} (h : act mode c = .skip next) :
    readFrom mode field fields (c :: cs) = readFrom next field fields cs := by
  rw [readFrom, h]

theorem readFrom_nextField (h : act mode c = .nextField) :
    readFrom mode field fields (c :: cs) = readFrom .start [] (fields ++ [field]) cs := by
  rw [readFrom, h]

theorem readFrom_nextRecord (h : act mode c = .nextRecord) :
    readFrom mode field fields (c :: cs) =
      (readFrom .fresh [] [] cs).map ((fields ++ [field]) :: ·) := by
  rw [readFrom, h]

theorem readFrom_malformed (h : act mode c = .malformed) :
    readFrom mode field fields (c :: cs) = none := by
  rw [readFrom, h]

/-- The reader is at the start of a field. -/
def Mode.AtStart (mode : Mode) : Prop := mode = .fresh ∨ mode = .start

/-- The reader is where a field may end. -/
def Mode.MayEnd (mode : Mode) : Prop := mode.AtStart ∨ mode = .plain ∨ mode = .closing

theorem act_comma (h : mode.MayEnd) : act mode ',' = .nextField := by
  rcases h with (rfl | rfl) | rfl | rfl <;> rfl

theorem act_lineFeed (h : mode.MayEnd) : act mode '\n' = .nextRecord := by
  rcases h with (rfl | rfl) | rfl | rfl <;> rfl

theorem act_return (h : mode.MayEnd) : act mode '\r' = .skip .cr := by
  rcases h with (rfl | rfl) | rfl | rfl <;> rfl

/-- Plain text is read as it stands. -/
theorem readFrom_plain (fields : List (List Char)) (cs us : List Char) : ∀ mode field,
    mode.AtStart ∨ mode = .plain → (∀ c ∈ us, isSpecial c = false) →
    ∃ mode', (mode'.AtStart ∨ mode' = .plain) ∧ (us ≠ [] → mode' = .plain) ∧
      (us = [] → mode' = mode) ∧
      readFrom mode field fields (us ++ cs) = readFrom mode' (field ++ us) fields cs := by
  induction us with
  | nil =>
    intro mode field hmode _
    exact ⟨mode, hmode, fun h ↦ absurd rfl h, fun _ ↦ rfl, by rw [List.append_nil, List.nil_append]⟩
  | cons u us ih =>
    intro mode field hmode hus
    obtain ⟨hu, hrest⟩ := List.forall_mem_cons.mp hus
    have hquote : u ≠ '"' := by
      rintro rfl
      exact absurd hu (by decide)
    have hact : act mode u = .push .plain := by
      have hnot : ¬ isSpecial u = true := by simp [hu]
      rcases hmode with (rfl | rfl) | rfl
      · exact (if_neg hquote).trans (if_neg hnot)
      · exact (if_neg hquote).trans (if_neg hnot)
      · exact if_neg hnot
    obtain ⟨mode', hmode', hne, hempty, hread⟩ := ih .plain (field ++ [u]) (.inr rfl) hrest
    refine ⟨mode', hmode', fun _ ↦ ?_, fun h ↦ absurd h (List.cons_ne_nil u us), ?_⟩
    · rcases us with _ | ⟨u', us⟩
      · exact hempty rfl
      · exact hne (List.cons_ne_nil u' us)
    · rw [List.cons_append, readFrom_push hact, hread, List.append_assoc, List.singleton_append]

/-- Text in quotes is read with its quotes halved. -/
theorem readFrom_double (us : List Char) : ∀ {field},
    readFrom .quoted field fields (double us ++ cs) = readFrom .quoted (field ++ us) fields cs := by
  induction us with
  | nil =>
    intro field
    rw [List.append_nil]
    rfl
  | cons u us ih =>
    intro field
    rw [double, List.flatMap_cons, ← double, List.append_assoc]
    split_ifs with hu
    · subst hu
      have hskip : act .quoted '"' = .skip .closing := rfl
      have hpush : act .closing '"' = .push .quoted := rfl
      rw [List.cons_append, List.cons_append, List.nil_append, readFrom_skip hskip,
        readFrom_push hpush, ih, List.append_assoc, List.singleton_append]
    · have hpush : act .quoted u = .push .quoted := if_neg hu
      rw [List.singleton_append, readFrom_push hpush, ih, List.append_assoc, List.singleton_append]

/-- A cell that is quoted or plain is read as its value. -/
theorem readFrom_cell (fields : List (List Char)) (cs : List Char) {cell : Cell}
    (hcell : cell.Readable) (hmode : mode.AtStart) :
    ∃ mode', mode'.MayEnd ∧
      readFrom mode [] fields (cell.text ++ cs) = readFrom mode' cell.value fields cs := by
  cases cell with
  | quoted value =>
    have hopen : act mode '"' = .skip .quoted := by
      rcases hmode with rfl | rfl <;> rfl
    have hclose : act .quoted '"' = .skip .closing := rfl
    refine ⟨.closing, .inr (.inr rfl), ?_⟩
    change readFrom mode [] fields ('"' :: (double value ++ ['"'] ++ cs)) = _
    rw [readFrom_skip hopen, List.append_assoc, readFrom_double, List.nil_append,
      List.singleton_append, readFrom_skip hclose]
    rfl
  | raw value =>
    have hplain : ∀ c ∈ value, isSpecial c = false := by
      intro c hc
      have hall := List.all_eq_true.mp hcell c hc
      simpa using hall
    obtain ⟨mode', hmode', -, -, hread⟩ :=
      readFrom_plain fields cs value mode [] (.inl hmode) hplain
    exact ⟨mode', hmode'.imp_right .inl, hread⟩

/-! ## What a reader can return -/

variable {r : List (List Char)} {rs : List (List (List Char))} {x : List Char}

/-- The fields that were read stay the first fields of the record. -/
theorem prefix_of_readFrom (x : List Char) : ∀ {mode field fields},
    readFrom mode field fields x = some (r :: rs) → fields <+: r := by
  induction x with
  | nil =>
    intro mode field fields h
    cases mode with
    | fresh => cases h
    | quoted => cases h
    | cr => cases h
    | start | plain | closing =>
      obtain ⟨rfl, -⟩ := List.cons.inj (Option.some.inj h)
      exact List.prefix_append _ _
  | cons c cs ih =>
    intro mode field fields h
    cases hact : act mode c with
    | push next =>
      rw [readFrom_push hact] at h
      exact ih h
    | skip next =>
      rw [readFrom_skip hact] at h
      exact ih h
    | nextField =>
      rw [readFrom_nextField hact] at h
      exact (List.prefix_append _ _).trans (ih h)
    | nextRecord =>
      rw [readFrom_nextRecord hact] at h
      obtain ⟨rest, -, hrest⟩ := Option.map_eq_some_iff.mp h
      obtain ⟨rfl, -⟩ := List.cons.inj hrest
      exact List.prefix_append _ _
    | malformed =>
      rw [readFrom_malformed hact] at h
      cases h

/-- Behind a carriage return only a line feed is well formed. -/
theorem prefix_of_cr (h : readFrom .cr field fields x = some (r :: rs)) :
    fields ++ [field] <+: r := by
  cases x with
  | nil => cases h
  | cons c cs =>
    by_cases hc : c = '\n'
    · have hact : act .cr c = .nextRecord := if_pos hc
      rw [readFrom_nextRecord hact] at h
      obtain ⟨rest, -, hrest⟩ := Option.map_eq_some_iff.mp h
      obtain ⟨rfl, -⟩ := List.cons.inj hrest
      exact List.prefix_rfl
    · have hact : act .cr c = .malformed := if_neg hc
      rw [readFrom_malformed hact] at h
      cases h

/-- A special character other than a quote, behind a field, ends the field. -/
theorem prefix_of_special (hmode : mode.MayEnd) (hc : c = ',' ∨ c = '\r' ∨ c = '\n')
    (h : readFrom mode field fields (c :: cs) = some (r :: rs)) : fields ++ [field] <+: r := by
  rcases hc with rfl | rfl | rfl
  · rw [readFrom_nextField (act_comma hmode)] at h
    exact prefix_of_readFrom _ h
  · rw [readFrom_skip (act_return hmode)] at h
    exact prefix_of_cr h
  · rw [readFrom_nextRecord (act_lineFeed hmode)] at h
    obtain ⟨rest, -, hrest⟩ := Option.map_eq_some_iff.mp h
    obtain ⟨rfl, -⟩ := List.cons.inj hrest
    exact List.prefix_rfl

theorem double_cons_quote (us : List Char) : double ('"' :: us) = '"' :: '"' :: double us := rfl

theorem double_cons {u : Char} (hu : u ≠ '"') (us : List Char) : double (u :: us) = u :: double us := by
  rw [double, List.flatMap_cons, if_neg hu]
  rfl

/-- **Within quotes**, and behind a quote within quotes: the field that is read stands in the text
with its quotes doubled, up to its closing quote. -/
theorem quoted_of_readFrom (x : List Char) : ∀ {field},
    (readFrom .quoted field fields x = some (r :: rs) →
      ∃ us, fields ++ [field ++ us] <+: r ∧ double us ++ ['"'] <+: x) ∧
    (readFrom .closing field fields x = some (r :: rs) →
      ∃ us, fields ++ [field ++ us] <+: r ∧ double us ++ ['"'] <+: '"' :: x) := by
  induction x with
  | nil =>
    intro field
    refine ⟨fun h ↦ (by cases h), fun h ↦ ⟨[], ?_, List.prefix_rfl⟩⟩
    obtain ⟨rfl, -⟩ := List.cons.inj (Option.some.inj h)
    exact ⟨[], by rw [List.append_nil, List.append_nil]⟩
  | cons c cs ih =>
    intro field
    refine ⟨fun h ↦ ?_, fun h ↦ ?_⟩
    · by_cases hc : c = '"'
      · subst hc
        have hact : act .quoted '"' = .skip .closing := rfl
        rw [readFrom_skip hact] at h
        exact ih.2 h
      · have hact : act .quoted c = .push .quoted := if_neg hc
        rw [readFrom_push hact] at h
        obtain ⟨us, hfields, hus⟩ := ih.1 h
        refine ⟨c :: us, ?_, ?_⟩
        · rwa [List.append_assoc] at hfields
        · rw [double_cons hc]
          exact List.cons_prefix_cons.mpr ⟨rfl, hus⟩
    · by_cases hc : c = '"'
      · subst hc
        have hact : act .closing '"' = .push .quoted := rfl
        rw [readFrom_push hact] at h
        obtain ⟨us, hfields, hus⟩ := ih.1 h
        refine ⟨'"' :: us, ?_, ?_⟩
        · rwa [List.append_assoc] at hfields
        · rw [double_cons_quote]
          exact List.cons_prefix_cons.mpr ⟨rfl, List.cons_prefix_cons.mpr ⟨rfl, hus⟩⟩
      · have hempty : double [] ++ ['"'] <+: '"' :: c :: cs := ⟨c :: cs, rfl⟩
        by_cases hend : c = ',' ∨ c = '\r' ∨ c = '\n'
        · have hfields := prefix_of_special (.inr (.inr rfl)) hend h
          exact ⟨[], by rwa [List.append_nil], hempty⟩
        · have hact : act .closing c = .malformed := by
            rw [not_or, not_or] at hend
            change (if c = '"' then Action.push .quoted else delimit c) = _
            rw [if_neg hc, delimit, if_neg hend.1, if_neg hend.2.2, if_neg hend.2.1]
          rw [readFrom_malformed hact] at h
          cases h

/-- Doubling the quotes of a text that begins with one never gives back the text. -/
theorem quotes_append_ne (us : List Char) {d : Char} (hd : d ≠ '"') {t w : List Char} :
    ∀ k, List.replicate (k + 1) '"' ++ (double us ++ w) ≠ us ++ d :: t := by
  induction us with
  | nil =>
    intro k h
    rw [List.replicate_succ, List.cons_append, List.nil_append] at h
    exact hd (List.cons.inj h).1.symm
  | cons u us ih =>
    intro k h
    rw [List.replicate_succ, List.cons_append, List.cons_append] at h
    obtain ⟨rfl, htail⟩ := List.cons.inj h
    refine ih (k + 1) ?_
    rw [← htail, double_cons_quote, List.replicate_succ', List.replicate_succ', List.append_assoc,
      List.append_assoc]
    rfl

theorem exists_first_special (us : List Char) (h : ¬ us.all (fun c ↦ !isSpecial c) = true) :
    ∃ p c q, us = p ++ c :: q ∧ (∀ a ∈ p, isSpecial a = false) ∧ isSpecial c = true := by
  induction us with
  | nil => exact absurd rfl h
  | cons u us ih =>
    cases hu : isSpecial u with
    | true => exact ⟨[], u, us, rfl, fun a ha ↦ absurd ha List.not_mem_nil, hu⟩
    | false =>
      have hrest : ¬ us.all (fun c ↦ !isSpecial c) = true := by
        intro hall
        refine h ?_
        rw [List.all_cons, hu, hall]
        rfl
      obtain ⟨p, c, q, rfl, hp, hc⟩ := ih hrest
      exact ⟨u :: p, c, q, rfl, List.forall_mem_cons.mpr ⟨hu, hp⟩, hc⟩

/-- **A field with a special character that is not quoted** is not read as it was meant. -/
theorem not_prefix_of_raw {value : List Char} (hvalue : ¬ (Cell.raw value).Readable)
    (hmode : mode.AtStart) {d : Char} (hd : d ≠ '"')
    (h : readFrom mode [] fields (value ++ d :: x) = some (r :: rs)) :
    ¬ fields ++ [value] <+: r := by
  obtain ⟨p, c, q, rfl, hp, hc⟩ := exists_first_special value hvalue
  rw [List.append_assoc, List.cons_append] at h
  obtain ⟨mode', hmode', hplain, hstart, hread⟩ :=
    readFrom_plain fields (c :: (q ++ d :: x)) p mode [] (.inl hmode) hp
  rw [hread, List.nil_append] at h
  have hshort : fields ++ [p] <+: r → ¬ fields ++ [p ++ c :: q] <+: r := by
    intro hfirst hsecond
    have hlen : (fields ++ [p]).length = (fields ++ [p ++ c :: q]).length := by
      rw [List.length_append, List.length_append]
      rfl
    have heq := List.append_cancel_left
      ((List.prefix_of_prefix_length_le hfirst hsecond (Nat.le_of_eq hlen)).eq_of_length hlen)
    exact List.cons_ne_nil c q (List.append_right_eq_self.mp (List.cons.inj heq).1.symm)
  by_cases hquote : c = '"'
  · subst hquote
    rcases p with _ | ⟨a, p⟩
    · rw [hstart rfl] at h
      have hopen : act mode '"' = .skip .quoted := by
        rcases hmode with rfl | rfl <;> rfl
      rw [readFrom_skip hopen] at h
      obtain ⟨us, hfields, htext⟩ := (quoted_of_readFrom _).1 h
      intro hmeant
      have hlen : (fields ++ [[] ++ us]).length = (fields ++ [[] ++ '"' :: q]).length := by
        rw [List.length_append, List.length_append]
        rfl
      have heq := List.append_cancel_left
        ((List.prefix_of_prefix_length_le hfields hmeant (Nat.le_of_eq hlen)).eq_of_length hlen)
      obtain rfl : us = '"' :: q := (List.cons.inj heq).1
      obtain ⟨w, hw⟩ := htext
      rw [double_cons_quote, List.append_assoc] at hw
      exact quotes_append_ne q hd 1 hw
    · rw [hplain (List.cons_ne_nil a p)] at h
      have hact : act .plain '"' = .malformed := rfl
      rw [readFrom_malformed hact] at h
      cases h
  · have hend : c = ',' ∨ c = '\r' ∨ c = '\n' :=
      (isSpecial_iff.mp hc).imp_right fun h ↦ h.resolve_left hquote
    exact hshort (prefix_of_special (hmode'.imp_right .inl) hend h)

/-! ## Round trip -/

/-- A record is read back exactly if its cells are quoted or plain. -/
theorem readFrom_row_iff (rs : List (List (List Char))) (x : List Char) (cells : List Cell) :
    ∀ mode fields, mode.AtStart → cells ≠ [] →
    (readFrom mode [] fields (writeRow cells ++ x) = some ((fields ++ cells.map Cell.value) :: rs) ↔
      (∀ cell ∈ cells, cell.Readable) ∧ readFrom .fresh [] [] x = some rs) := by
  induction cells with
  | nil => exact fun _ _ _ h ↦ absurd rfl h
  | cons cell cells ih =>
    intro mode fields hmode _
    by_cases hcell : cell.Readable
    · rcases cells with _ | ⟨next, cells⟩
      · obtain ⟨mode', hmode', hread⟩ := readFrom_cell fields ('\n' :: x) hcell hmode
        have hwrite : writeRow [cell] ++ x = cell.text ++ '\n' :: x := by
          rw [writeRow, List.append_assoc, List.singleton_append]
        rw [hwrite, hread, readFrom_nextRecord (act_lineFeed hmode'), Option.map_eq_some_iff,
          List.forall_mem_singleton]
        constructor
        · rintro ⟨rest, hrest, heq⟩
          rw [← (List.cons.inj heq).2]
          exact ⟨hcell, hrest⟩
        · rintro ⟨-, hrest⟩
          exact ⟨rs, hrest, rfl⟩
      · obtain ⟨mode', hmode', hread⟩ :=
          readFrom_cell fields (',' :: (writeRow (next :: cells) ++ x)) hcell hmode
        have hwrite : writeRow (cell :: next :: cells) ++ x =
            cell.text ++ ',' :: (writeRow (next :: cells) ++ x) := by
          rw [writeRow, List.append_assoc, List.cons_append]
          exact List.cons_ne_nil next cells
        have hfields : fields ++ (cell :: next :: cells).map Cell.value =
            fields ++ [cell.value] ++ (next :: cells).map Cell.value := by
          rw [List.append_assoc]
          rfl
        rw [hwrite, hread, readFrom_nextField (act_comma hmode'), hfields,
          ih .start _ (.inr rfl) (List.cons_ne_nil next cells)]
        refine and_congr_left fun _ ↦ ⟨fun h ↦ List.forall_mem_cons.mpr ⟨hcell, h⟩, fun h ↦ ?_⟩
        exact (List.forall_mem_cons.mp h).2
    · refine iff_of_false (fun h ↦ ?_) fun h ↦ hcell (h.1 cell List.mem_cons_self)
      cases cell with
      | quoted value => exact hcell trivial
      | raw value =>
        have hprefix : fields ++ [value] <+: fields ++ (Cell.raw value :: cells).map Cell.value :=
          (List.prefix_append_right_inj fields).mpr (List.prefix_append [value] _)
        rcases cells with _ | ⟨next, cells⟩
        · have hwrite : writeRow [Cell.raw value] ++ x = value ++ '\n' :: x := by
            rw [writeRow, List.append_assoc, List.singleton_append]
            rfl
          rw [hwrite] at h
          exact not_prefix_of_raw hcell hmode (by decide) h hprefix
        · have hwrite : writeRow (Cell.raw value :: next :: cells) ++ x =
              value ++ ',' :: (writeRow (next :: cells) ++ x) := by
            rw [writeRow, List.append_assoc, List.cons_append]
            · rfl
            · exact List.cons_ne_nil next cells
          rw [hwrite] at h
          exact not_prefix_of_raw hcell hmode (by decide) h hprefix

/-- **What is written is read back** exactly if every cell is quoted or plain. -/
theorem read_write_iff (rows : List (List Cell)) (hrows : ∀ row ∈ rows, row ≠ []) :
    read (write rows) = some (rows.map fun row ↦ row.map Cell.value) ↔
      ∀ row ∈ rows, ∀ cell ∈ row, cell.Readable := by
  induction rows with
  | nil => exact iff_of_true rfl fun row hrow ↦ absurd hrow List.not_mem_nil
  | cons row rows ih =>
    obtain ⟨hne, hrest⟩ := List.forall_mem_cons.mp hrows
    have hrow := readFrom_row_iff (rows.map fun row ↦ row.map Cell.value) (write rows) row .fresh []
      (.inl rfl) hne
    rw [List.nil_append] at hrow
    rw [List.forall_mem_cons, ← ih hrest]
    exact hrow

end Csv

end Galdralag
