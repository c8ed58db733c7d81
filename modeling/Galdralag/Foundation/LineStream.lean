import Mathlib.Data.List.Basic
import Mathlib.Data.Nat.Notation

/-!
# Lines of a stream

A stream consists of lines that end with a separator, and of an unfinished line behind the last one.
A line is numbered by the position in the stream at which it ends, so two lines of the same text are
told apart, and lists of numbered lines that are cut at a position are equal exactly when both parts
are (`append_eq_append_iff`).
-/

set_option linter.all false

namespace Galdralag

namespace LineStream

variable {α : Type} [DecidableEq α] (sep : α)

/-- The lines that end in a stream, each behind the position of its end; `pos` is the position of
the stream and `line` the unfinished line before it. -/
def linesFrom (pos : ℕ) (line : List α) : List α → List (ℕ × List α)
  | [] => []
  | b :: bs =>
    if b = sep then (pos + 1, line ++ [b]) :: linesFrom (pos + 1) [] bs
    else linesFrom (pos + 1) (line ++ [b]) bs

/-- The unfinished line behind a stream. -/
def openLine (line : List α) : List α → List α
  | [] => line
  | b :: bs => if b = sep then openLine [] bs else openLine (line ++ [b]) bs

variable {sep} {pos n : ℕ} {line line' bs cs : List α}

theorem linesFrom_append (bs cs : List α) : linesFrom sep pos line (bs ++ cs)
    = linesFrom sep pos line bs ++ linesFrom sep (pos + bs.length) (openLine sep line bs) cs := by
  induction bs generalizing pos line with
  | nil => rfl
  | cons b bs ih =>
    have hpos : pos + (b :: bs).length = pos + 1 + bs.length := by
      rw [List.length_cons]
      omega
    rw [List.cons_append, linesFrom, linesFrom, openLine, hpos]
    split_ifs with hsep
    · rw [ih, List.cons_append]
    · exact ih

theorem openLine_append (bs cs : List α) :
    openLine sep line (bs ++ cs) = openLine sep (openLine sep line bs) cs := by
  induction bs generalizing line with
  | nil => rfl
  | cons b bs ih =>
    rw [List.cons_append, openLine, openLine]
    split_ifs with hsep
    · exact ih
    · exact ih

/-- Without a separator no line ends. -/
theorem linesFrom_of_not_mem (h : sep ∉ bs) : linesFrom sep pos line bs = [] := by
  induction bs generalizing pos line with
  | nil => rfl
  | cons b bs ih =>
    rw [List.mem_cons, not_or] at h
    rw [linesFrom, if_neg (Ne.symm h.1), ih h.2]

theorem openLine_of_not_mem (h : sep ∉ bs) : openLine sep line bs = line ++ bs := by
  induction bs generalizing line with
  | nil => exact (List.append_nil line).symm
  | cons b bs ih =>
    rw [List.mem_cons, not_or] at h
    rw [openLine, if_neg (Ne.symm h.1), ih h.2, List.append_assoc, List.singleton_append]

/-- The first separator ends the first line. -/
theorem linesFrom_of_line (h : sep ∉ bs) (cs : List α) : linesFrom sep pos line (bs ++ sep :: cs)
    = (pos + bs.length + 1, line ++ bs ++ [sep]) :: linesFrom sep (pos + bs.length + 1) [] cs := by
  rw [linesFrom_append, linesFrom_of_not_mem h, openLine_of_not_mem h, List.nil_append, linesFrom,
    if_pos rfl]

/-- A string has one first line. -/
theorem append_sep_inj {bs' cs' : List α} (h : sep ∉ bs) (h' : sep ∉ bs')
    (heq : bs ++ sep :: cs = bs' ++ sep :: cs') : bs = bs' ∧ cs = cs' := by
  have hlines : linesFrom sep 0 [] (bs ++ sep :: cs) = linesFrom sep 0 [] (bs' ++ sep :: cs') := by
    rw [heq]
  rw [linesFrom_of_line h, linesFrom_of_line h', List.nil_append, List.nil_append] at hlines
  have hfront : bs = bs' :=
    List.append_cancel_right (Prod.mk.inj (List.cons.inj hlines).1).2
  subst hfront
  exact ⟨rfl, (List.cons.inj (List.append_cancel_left heq)).2⟩

/-- A line ends behind its stream's position, and no later than the stream. -/
theorem mem_linesFrom {l : ℕ × List α} (h : l ∈ linesFrom sep pos line bs) :
    pos < l.1 ∧ l.1 ≤ pos + bs.length ∧ l.2.length ≤ line.length + bs.length := by
  induction bs generalizing pos line with
  | nil => exact absurd h List.not_mem_nil
  | cons b bs ih =>
    rw [linesFrom] at h
    rw [List.length_cons]
    split_ifs at h with hsep
    · rcases List.mem_cons.mp h with rfl | hrest
      · refine ⟨Nat.lt_succ_self _, by dsimp only; omega, ?_⟩
        rw [List.length_append, List.length_singleton]
        omega
      · obtain ⟨hlt, hle, hlen⟩ := ih hrest
        rw [List.length_nil] at hlen
        omega
    · obtain ⟨hlt, hle, hlen⟩ := ih h
      rw [List.length_append, List.length_singleton] at hlen
      omega

theorem linesFrom_eq_nil_iff : linesFrom sep pos line bs = [] ↔ sep ∉ bs := by
  constructor
  · intro h hmem
    obtain ⟨front, back, rfl, hfront⟩ := List.eq_append_cons_of_mem hmem
    rw [linesFrom_of_line hfront] at h
    exact List.cons_ne_nil _ _ h
  · exact linesFrom_of_not_mem

omit [DecidableEq α] in
/-- **Cutting at a position.** Two lists of lines that are cut at a position are equal when both
parts are. -/
theorem append_eq_append_iff {l₁ l₂ m₁ m₂ : List (ℕ × List α)} (hl₁ : ∀ l ∈ l₁, l.1 ≤ n)
    (hm₁ : ∀ l ∈ m₁, l.1 ≤ n) (hl₂ : ∀ l ∈ l₂, n < l.1) (hm₂ : ∀ l ∈ m₂, n < l.1) :
    l₁ ++ l₂ = m₁ ++ m₂ ↔ l₁ = m₁ ∧ l₂ = m₂ := by
  have hcut : ∀ {a b : List (ℕ × List α)}, (∀ l ∈ a, l.1 ≤ n) → (∀ l ∈ b, n < l.1) →
      (a ++ b).filter (fun l ↦ decide (l.1 ≤ n)) = a := by
    intro a b ha hb
    rw [List.filter_append, List.filter_eq_self.mpr fun l hl ↦ decide_eq_true (ha l hl),
      List.filter_eq_nil_iff.mpr fun l hl ↦ by
        rw [decide_eq_true_eq]
        exact Nat.not_le_of_lt (hb l hl), List.append_nil]
  constructor
  · intro h
    have hfront : l₁ = m₁ := by
      rw [← hcut hl₁ hl₂, h, hcut hm₁ hm₂]
    subst hfront
    exact ⟨rfl, List.append_cancel_left h⟩
  · rintro ⟨rfl, rfl⟩
    rfl

end LineStream

end Galdralag
