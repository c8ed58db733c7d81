import Galdralag.Foundation.Bytes
import Mathlib.Data.List.Basic
import Mathlib.Data.List.Nodup

/-!
# Tables with keys

A table has named columns, some of which may not be empty, and keys: sets of columns in which no two
rows agree, where a row that is empty in one of the columns agrees with none. Rows are lists of
values in the order of the columns.

Rows can be written with a list of columns or by position, and either refused when they clash with a
row that is there, or put in the place of the rows they clash with. What a whole batch of rows does
is read off the batch when no two rows of it clash: inserted, they are appended; as replacements,
they leave exactly the rows that clash with none of them.
-/

set_option linter.all false

namespace Galdralag.KeyedTable

/-- A value in a table. -/
inductive Value where
  | null
  | integer (i : Int)
  | text (s : String)
  | blob (bs : Bytes)
  deriving DecidableEq

/-- The values of a row, in the order of the columns. -/
abbrev Tuple := List Value

/-- The columns and keys of a table. -/
structure Schema where
  columns : List String
  notNull : List String
  keys : List (List String)
  columns_nodup : columns.Nodup

/-- The value that a list of columns and a list of values give a column. -/
def valueOf (columns : List String) (values : Tuple) (c : String) : Value :=
  ((columns.zip values).lookup c).getD .null

/-- Columns that are all given are found in their order. -/
theorem map_valueOf {columns : List String} (hnodup : columns.Nodup) {values : Tuple}
    (hlen : values.length = columns.length) : columns.map (valueOf columns values) = values := by
  induction columns generalizing values with
  | nil => exact (List.length_eq_zero_iff.mp hlen).symm
  | cons c columns ih =>
    rcases values with _ | ⟨v, values⟩
    · cases hlen
    · obtain ⟨hc, hnodup⟩ := List.nodup_cons.mp hnodup
      have htail : columns.map (valueOf (c :: columns) (v :: values)) =
          columns.map (valueOf columns values) := by
        refine List.map_congr_left fun d hd ↦ ?_
        have hne : (d == c) = false := by
          rw [beq_eq_false_iff_ne]
          rintro rfl
          exact hc hd
        rw [valueOf, List.zip_cons_cons, List.lookup_cons, hne]
        rfl
      rw [List.map_cons, htail, ih hnodup (Nat.succ.inj hlen), valueOf, List.zip_cons_cons,
        List.lookup_cons, beq_self_eq_true]
      rfl

namespace Schema

variable (t : Schema)

/-- The value of a row in a column. -/
def get (row : Tuple) (c : String) : Value := valueOf t.columns row c

/-- `SELECT cols`. -/
def select (cols : List String) (row : Tuple) : Tuple := cols.map (t.get row)

/-- The row that `INSERT INTO t (cols) VALUES …` writes. -/
def rowOf (cols : List String) (values : Tuple) : Tuple := t.columns.map (valueOf cols values)

/-- Two rows agree in some key. -/
def clashes (row row' : Tuple) : Bool :=
  t.keys.any fun k ↦ k.all fun c ↦ t.get row c ≠ .null && t.get row c = t.get row' c

/-- A row has a value for every column, and one that is not empty where there must be one. -/
def accepts (row : Tuple) : Bool :=
  row.length = t.columns.length && t.notNull.all fun c ↦ t.get row c ≠ .null

/-- `INSERT`, with a further check of the row. -/
def insert (check : Tuple → Bool) (rows : List Tuple) (row : Tuple) : Option (List Tuple) :=
  if t.accepts row && check row && !rows.any (t.clashes row) then some (rows ++ [row]) else none

/-- `INSERT OR REPLACE`, with a further check of the row: the rows that stay, with the new one. -/
def replace (check : Tuple → Bool) (rows : List Tuple) (row : Tuple) : Option (List Tuple) :=
  if t.accepts row && check row then some (rows.filter (fun r ↦ !t.clashes row r) ++ [row]) else none

/-- The rows keep the constraints of the table. -/
structure Holds (rows : List Tuple) : Prop where
  accepts : ∀ r ∈ rows, t.accepts r = true
  distinct : rows.Pairwise fun r r' ↦ t.clashes r r' = false

variable {t}

theorem length_of_accepts {row : Tuple} (h : t.accepts row = true) :
    row.length = t.columns.length := by
  rw [Schema.accepts, Bool.and_eq_true, decide_eq_true_eq] at h
  exact h.1

/-- Selecting all columns gives the row. -/
theorem select_columns {row : Tuple} (h : row.length = t.columns.length) :
    t.select t.columns row = row := map_valueOf t.columns_nodup h

/-- Writing all columns gives the values. -/
theorem rowOf_columns {values : Tuple} (h : values.length = t.columns.length) :
    t.rowOf t.columns values = values := map_valueOf t.columns_nodup h

theorem clashes_iff {row row' : Tuple} : t.clashes row row' = true ↔
    ∃ k ∈ t.keys, ∀ c ∈ k, t.get row c ≠ .null ∧ t.get row c = t.get row' c := by
  simp only [clashes, List.any_eq_true, List.all_eq_true, Bool.and_eq_true, decide_eq_true_eq]

theorem clashes_comm (row row' : Tuple) : t.clashes row row' = t.clashes row' row := by
  rw [Bool.eq_iff_iff, clashes_iff, clashes_iff]
  constructor <;>
  · rintro ⟨k, hk, h⟩
    exact ⟨k, hk, fun c hc ↦ ⟨(h c hc).2 ▸ (h c hc).1, (h c hc).2.symm⟩⟩

/-! ## Batches -/

section Batches

variable {check : Tuple → Bool} {rows batch : List Tuple}

/-- A batch that keeps the constraints, and clashes with nothing that is there, is appended. -/
theorem foldlM_insert (hbatch : t.Holds batch) (hcheck : ∀ r ∈ batch, check r = true)
    (hfree : ∀ r ∈ rows, ∀ r' ∈ batch, t.clashes r r' = false) :
    batch.foldlM (t.insert check) rows = some (rows ++ batch) := by
  induction batch generalizing rows with
  | nil => rw [List.append_nil]; rfl
  | cons row batch ih =>
    have hnone : rows.any (t.clashes row) = false := by
      rw [List.any_eq_false]
      intro r hr
      rw [clashes_comm, hfree r hr row List.mem_cons_self]
      exact Bool.false_ne_true
    have hrow : t.insert check rows row = some (rows ++ [row]) := by
      rw [insert, hbatch.accepts row List.mem_cons_self, hcheck row List.mem_cons_self, hnone]
      rfl
    obtain ⟨hfirst, hrest⟩ := List.pairwise_cons.mp hbatch.distinct
    rw [List.foldlM_cons, hrow]
    refine (ih ⟨fun r hr ↦ hbatch.accepts r (List.mem_cons_of_mem _ hr), hrest⟩
      (fun r hr ↦ hcheck r (List.mem_cons_of_mem _ hr)) ?_).trans (by rw [List.append_assoc]; rfl)
    intro r hr r' hr'
    rcases List.mem_append.mp hr with hr | hr
    · exact hfree r hr r' (List.mem_cons_of_mem _ hr')
    · rw [List.mem_singleton.mp hr]
      exact hfirst r' hr'

/-- What is left of a filter by the rest of a batch, after one row of it was put in. -/
theorem filter_concat_of_distinct {row : Tuple} (hfirst : ∀ b ∈ batch, t.clashes row b = false) :
    (rows.filter (fun r ↦ !t.clashes row r) ++ [row]).filter (fun r ↦ !batch.any (t.clashes · r))
      = rows.filter (fun r ↦ !(row :: batch).any (t.clashes · r)) ++ [row] := by
  have hrow : batch.any (t.clashes · row) = false := by
    rw [List.any_eq_false]
    intro b hb
    rw [clashes_comm, hfirst b hb]
    exact Bool.false_ne_true
  rw [List.filter_append, List.filter_filter, List.filter_singleton, hrow]
  refine congrArg (· ++ [row]) (List.filter_congr fun r _ ↦ ?_)
  rw [List.any_cons, Bool.not_or, Bool.and_comm]

theorem Holds.tail {row : Tuple} (h : t.Holds (row :: batch)) : t.Holds batch :=
  ⟨fun r hr ↦ h.accepts r (List.mem_cons_of_mem _ hr), (List.pairwise_cons.mp h.distinct).2⟩

theorem replace_of_accepts {row : Tuple} (h : t.accepts row = true) (hcheck : check row = true) :
    t.replace check rows row = some (rows.filter (fun r ↦ !t.clashes row r) ++ [row]) := by
  rw [replace, h, hcheck]
  rfl

/-- A batch of replacements leaves the rows that clash with none of it. -/
theorem foldlM_replace (hbatch : t.Holds batch) (hcheck : ∀ r ∈ batch, check r = true) :
    batch.foldlM (t.replace check) rows
      = some (rows.filter (fun r ↦ !batch.any (t.clashes · r)) ++ batch) := by
  induction batch generalizing rows with
  | nil => simp
  | cons row batch ih =>
    have hfirst := (List.pairwise_cons.mp hbatch.distinct).1
    rw [List.foldlM_cons, replace_of_accepts (hbatch.accepts row List.mem_cons_self)
      (hcheck row List.mem_cons_self)]
    refine (ih hbatch.tail fun r hr ↦ hcheck r (List.mem_cons_of_mem _ hr)).trans ?_
    rw [filter_concat_of_distinct hfirst, List.append_assoc, List.singleton_append]

end Batches

/-! ## Deletions that cascade -/

/-- `INSERT OR REPLACE` where the rows of another table go with the rows they refer to. -/
def replaceCascade (t : Schema) (check : Tuple → Bool) (refers : Tuple → Tuple → Bool)
    (s : List Tuple × List Tuple) (row : Tuple) : Option (List Tuple × List Tuple) :=
  (t.replace check s.1 row).map fun rows ↦
    (rows, s.2.filter fun m ↦ !(s.1.filter (t.clashes row)).any (refers m))

/-- A batch of replacements takes along what refers to a row that clashes with one of it. -/
theorem foldlM_replaceCascade {check : Tuple → Bool} {refers : Tuple → Tuple → Bool}
    {rows children batch : List Tuple} (hbatch : t.Holds batch)
    (hcheck : ∀ r ∈ batch, check r = true) :
    batch.foldlM (t.replaceCascade check refers) (rows, children)
      = some (rows.filter (fun r ↦ !batch.any (t.clashes · r)) ++ batch,
        children.filter fun m ↦ !rows.any fun r ↦ batch.any (t.clashes · r) && refers m r) := by
  induction batch generalizing rows children with
  | nil =>
    have hnone : rows.any (fun _ ↦ false) = false := List.any_eq_false.mpr (by rintro _ _ ⟨⟩)
    simp [hnone]
  | cons row batch ih =>
    have hfirst := (List.pairwise_cons.mp hbatch.distinct).1
    have hrow : batch.any (t.clashes · row) = false := by
      rw [List.any_eq_false]
      intro b hb
      rw [clashes_comm, hfirst b hb]
      exact Bool.false_ne_true
    rw [List.foldlM_cons, replaceCascade, replace_of_accepts (hbatch.accepts row List.mem_cons_self)
      (hcheck row List.mem_cons_self)]
    refine (ih hbatch.tail fun r hr ↦ hcheck r (List.mem_cons_of_mem _ hr)).trans ?_
    rw [filter_concat_of_distinct hfirst, List.append_assoc, List.singleton_append,
      List.filter_filter]
    refine congrArg (fun l ↦ some (_, l)) (List.filter_congr fun m _ ↦ ?_)
    -- a row that clashes with the rest of the batch is still there, or went with this one
    rw [Bool.eq_iff_iff]
    simp only [List.any_append, List.any_cons, List.any_nil, Bool.or_false, hrow, Bool.false_and,
      Bool.and_eq_true, Bool.not_eq_true', List.any_eq_false, List.mem_filter, Bool.not_eq_true]
    constructor
    · rintro ⟨hrest, hthis⟩ r hr ⟨hclash, hrefers⟩
      rcases hr' : t.clashes row r with _ | _
      · rw [hr', Bool.false_or] at hclash
        exact hrest r ⟨hr, hr'⟩ ⟨hclash, hrefers⟩
      · rw [hthis r ⟨hr, hr'⟩] at hrefers
        cases hrefers
    · intro h
      refine ⟨?_, ?_⟩
      · rintro r ⟨hr, -⟩ ⟨hclash, hrefers⟩
        exact h r hr ⟨by rw [hclash, Bool.or_true], hrefers⟩
      · rintro r ⟨hr, hr'⟩
        exact Bool.eq_false_iff.mpr fun hrefers ↦ h r hr ⟨by rw [hr', Bool.true_or], hrefers⟩

end Schema

end Galdralag.KeyedTable
