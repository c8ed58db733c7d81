import Galdralag.Foundation.Outcome
import Mathlib.Data.Nat.Notation

/-!
# Texts and byte offsets

A text is a list of characters, but a program that keeps it in UTF-8 measures it in bytes and cuts it
at byte offsets. An offset inside a character is no place to cut: the program panics there. `cut` is
that operation; its inverse is appending, with the length of the front as the offset.
-/

set_option linter.all false

namespace Galdralag

/-- The number of bytes of a text. -/
def byteLength : List Char → ℕ
  | [] => 0
  | c :: s => c.utf8Size + byteLength s

/-- What stands before a byte offset and what stands behind it; `none` inside a character and past
the end. -/
def cut : List Char → ℕ → Option (List Char × List Char)
  | s, 0 => some ([], s)
  | [], _ + 1 => none
  | c :: s, n + 1 =>
    if c.utf8Size ≤ n + 1 then (cut s (n + 1 - c.utf8Size)).map fun p ↦ (c :: p.1, p.2) else none

/-- A character lies across a byte offset. -/
def Across (s : List Char) (n : ℕ) : Prop := ∃ front c back, s = front ++ c :: back ∧
  byteLength front < n ∧ n < byteLength front + c.utf8Size

variable {s front back : List Char} {n : ℕ}

theorem byteLength_append (front back : List Char) :
    byteLength (front ++ back) = byteLength front + byteLength back := by
  induction front with
  | nil => rw [List.nil_append, byteLength, Nat.zero_add]
  | cons c front ih => rw [List.cons_append, byteLength, byteLength, ih, Nat.add_assoc]

theorem length_le_byteLength (s : List Char) : s.length ≤ byteLength s := by
  induction s with
  | nil => exact Nat.le_refl 0
  | cons c s ih =>
    have hc := c.utf8Size_pos
    rw [List.length_cons, byteLength]
    omega

theorem byteLength_eq_zero : byteLength s = 0 ↔ s = [] := by
  constructor
  · intro h
    exact List.length_eq_zero_iff.mp (Nat.le_zero.mp (h ▸ length_le_byteLength s))
  · rintro rfl
    rfl

/-- A text of one-byte characters has as many bytes as characters. -/
theorem byteLength_of_ascii (h : ∀ c ∈ s, c.utf8Size = 1) : byteLength s = s.length := by
  induction s with
  | nil => rfl
  | cons c s ih =>
    rw [byteLength, h c List.mem_cons_self, ih fun d hd ↦ h d (List.mem_cons_of_mem c hd),
      List.length_cons, Nat.add_comm]

/-- In front of a text is the empty text. -/
theorem cut_zero_eq_some : cut s 0 = some (front, back) ↔ s = front ++ back ∧ byteLength front = 0 := by
  have hcut : cut s 0 = some ([], s) := by
    rcases s with _ | ⟨c, s⟩
    · rfl
    · rfl
  rw [hcut, byteLength_eq_zero]
  constructor
  · intro h
    obtain ⟨rfl, rfl⟩ := Prod.mk.inj (Option.some.inj h)
    exact ⟨rfl, rfl⟩
  · rintro ⟨h, rfl⟩
    rw [h, List.nil_append]

/-- **Cutting.** A text is cut where its front ends, and nowhere else. -/
theorem cut_eq_some : cut s n = some (front, back) ↔ s = front ++ back ∧ byteLength front = n := by
  induction s generalizing n front with
  | nil =>
    rcases n with _ | n
    · exact cut_zero_eq_some
    · rw [cut]
      refine iff_of_false (by rintro ⟨⟩) ?_
      rintro ⟨h, hlen⟩
      rw [(List.append_eq_nil_iff.mp h.symm).1] at hlen
      cases hlen
  | cons c s ih =>
    rcases n with _ | n
    · exact cut_zero_eq_some
    · rw [cut]
      constructor
      · intro h
        split_ifs at h with hc
        obtain ⟨⟨front', back'⟩, hcut, hpair⟩ := Option.map_eq_some_iff.mp h
        obtain ⟨rfl, rfl⟩ := Prod.mk.inj hpair
        obtain ⟨rfl, hlen⟩ := ih.mp hcut
        refine ⟨rfl, ?_⟩
        rw [byteLength, hlen, Nat.add_sub_cancel' hc]
      · rintro ⟨h, hlen⟩
        rcases front with _ | ⟨d, front'⟩
        · cases hlen
        · obtain ⟨rfl, rfl⟩ := List.cons.inj h
          rw [byteLength] at hlen
          have hfront : byteLength front' = n + 1 - c.utf8Size := by omega
          rw [if_pos (by omega), ih.mpr ⟨rfl, hfront⟩]
          rfl

/-- A text is as long as the offsets that a character lies across. -/
theorem Across.le (h : Across s n) : n ≤ byteLength s := by
  obtain ⟨front, c, back, rfl, -, hgt⟩ := h
  rw [byteLength_append, byteLength]
  omega

/-- Within a text, it cannot be cut exactly where a character lies across the offset. -/
theorem cut_eq_none (h : n ≤ byteLength s) : cut s n = none ↔ Across s n := by
  constructor
  · intro hcut
    induction s generalizing n with
    | nil =>
      obtain rfl : n = 0 := Nat.le_zero.mp h
      cases hcut
    | cons c s ih =>
      rcases n with _ | n
      · cases hcut
      · rw [cut] at hcut
        split_ifs at hcut with hc
        · rw [byteLength] at h
          have hrest : n + 1 - c.utf8Size ≤ byteLength s := by omega
          obtain ⟨front, d, back, rfl, hlt, hgt⟩ := ih hrest (Option.map_eq_none_iff.mp hcut)
          refine ⟨c :: front, d, back, rfl, ?_, ?_⟩
          · rw [byteLength]
            omega
          · rw [byteLength]
            omega
        · refine ⟨[], c, s, rfl, Nat.succ_pos n, ?_⟩
          rw [byteLength]
          omega
  · rintro ⟨front, c, back, rfl, hlt, hgt⟩
    refine Option.eq_none_iff_forall_ne_some.mpr fun p hp ↦ ?_
    obtain ⟨heq, hlen⟩ := cut_eq_some.mp hp
    rcases List.append_eq_append_iff.mp heq with ⟨more, hmore, htail⟩ | ⟨more, hmore, htail⟩
    · rw [hmore, byteLength_append] at hlen
      rcases more with _ | ⟨d, more⟩
      · rw [byteLength] at hlen
        omega
      · obtain ⟨rfl, -⟩ := List.cons.inj htail
        rw [byteLength] at hlen
        omega
    · rw [hmore, byteLength_append] at hlt
      omega

namespace Outcome

variable {ε α : Type}

/-- The text before a byte offset. -/
def sliceTo (s : List Char) (n : ℕ) : Outcome ε (List Char) :=
  match cut s n with
  | some p => ok p.1
  | none => panicked

/-- The text behind a byte offset. -/
def sliceFrom (s : List Char) (n : ℕ) : Outcome ε (List Char) :=
  match cut s n with
  | some p => ok p.2
  | none => panicked

theorem sliceTo_eq_ok : (sliceTo s n : Outcome ε (List Char)) = ok front ↔
    ∃ back, s = front ++ back ∧ byteLength front = n := by
  rw [sliceTo]
  rcases hcut : cut s n with _ | ⟨front', back'⟩
  · refine iff_of_false (by rintro ⟨⟩) ?_
    rintro ⟨back, h⟩
    rw [cut_eq_some.mpr h] at hcut
    cases hcut
  · constructor
    · intro h
      obtain rfl := ok.inj h
      exact ⟨back', cut_eq_some.mp hcut⟩
    · rintro ⟨back, h⟩
      rw [cut_eq_some.mpr h] at hcut
      exact congrArg ok (Prod.mk.inj (Option.some.inj hcut)).1.symm

theorem sliceFrom_append (hn : byteLength front = n) :
    (sliceFrom (front ++ back) n : Outcome ε (List Char)) = ok back := by
  rw [sliceFrom, cut_eq_some.mpr ⟨rfl, hn⟩]

/-- A slice that would cut a character in two panics. -/
theorem sliceTo_across (h : Across s n) : (sliceTo s n : Outcome ε (List Char)) = panicked := by
  rw [sliceTo, (cut_eq_none h.le).mpr h]

/-- Within a text, every other offset is a place to cut. -/
theorem exists_cut (hle : n ≤ byteLength s) (h : ¬ Across s n) :
    ∃ front back, s = front ++ back ∧ byteLength front = n := by
  rcases hcut : cut s n with _ | ⟨front, back⟩
  · exact absurd ((cut_eq_none hle).mp hcut) h
  · exact ⟨front, back, cut_eq_some.mp hcut⟩

end Outcome

end Galdralag
