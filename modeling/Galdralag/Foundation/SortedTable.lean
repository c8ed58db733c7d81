import Mathlib.Data.List.Basic
import Mathlib.Data.Nat.Notation

/-!
# Sorted tables

A table whose entries are kept in the order of their keys. A new entry goes before the first one
with a larger key, so behind all that have its own key: insertion keeps a table sorted, but it never
finds an entry to replace. Bisection returns some entry with the key that is sought, and there is
one whenever the table has one.
-/

set_option linter.all false

namespace Galdralag.SortedTable

variable {α κ : Type} [LT κ] [DecidableLT κ] (key : α → κ)

/-- No entry has a larger key than one behind it. -/
def Sorted [LE κ] (l : List α) : Prop := l.Pairwise fun a b ↦ key a ≤ key b

/-- Where the first entry with a larger key is; behind the table, if there is none. -/
def position (l : List α) (k : κ) : ℕ := (l.findIdx? fun a ↦ decide (k < key a)).getD l.length

/-- The table with one more entry. -/
def insert (l : List α) (a : α) : List α :=
  l.take (position key l (key a)) ++ a :: l.drop (position key l (key a))

/-- Look for a key between the positions `lo` and `hi`, in the upper or the lower half of them. -/
def bisect (l : List α) (k : κ) (lo hi : ℕ) : Option α :=
  if _h : lo < hi then
    match l[lo + (hi - lo) / 2]? with
    | none => none
    | some a =>
      if key a < k then bisect l k (lo + (hi - lo) / 2 + 1) hi
      else if k < key a then bisect l k lo (lo + (hi - lo) / 2)
      else some a
  else none
termination_by hi - lo

variable {key} {l : List α} {a : α} {k : κ} {lo hi : ℕ}

/-! ## Insertion -/

theorem insert_perm : (insert key l a).Perm (a :: l) := by
  have hmiddle : (insert key l a).Perm (a :: (l.take (position key l (key a)) ++
      l.drop (position key l (key a)))) := List.perm_middle
  rwa [List.take_append_drop] at hmiddle

theorem length_insert : (insert key l a).length = l.length + 1 := insert_perm.length_eq

theorem mem_insert {b : α} : b ∈ insert key l a ↔ b = a ∨ b ∈ l := by
  rw [insert_perm.mem_iff, List.mem_cons]

/-- Before the position no key is larger. -/
theorem not_lt_of_mem_take {b : α} (h : b ∈ l.take (position key l k)) : ¬ k < key b := by
  obtain ⟨i, hi, rfl⟩ := List.mem_take_iff_getElem.mp h
  rw [position] at hi
  rcases hfind : l.findIdx? fun a ↦ decide (k < key a) with _ | j
  · rw [List.findIdx?_eq_none_iff] at hfind
    exact of_decide_eq_false (hfind _ (List.getElem_mem _))
  · rw [hfind, Option.getD_some] at hi
    obtain ⟨hj, -, hbefore⟩ := List.findIdx?_eq_some_iff_getElem.mp hfind
    exact fun hlt ↦ hbefore i (by omega) (decide_eq_true hlt)

/-- Nothing at the position has the key. -/
theorem key_ne_of_getElem_position [Std.Irrefl (α := κ) (· < ·)]
    (h : l[position key l k]? = some a) : key a ≠ k := by
  rintro rfl
  rw [position] at h
  rcases hfind : l.findIdx? fun b ↦ decide (key a < key b) with _ | j
  · rw [hfind, Option.getD_none, List.getElem?_eq_none (Nat.le_refl _)] at h
    cases h
  · rw [hfind, Option.getD_some] at h
    obtain ⟨hj, hlt, -⟩ := List.findIdx?_eq_some_iff_getElem.mp hfind
    rw [List.getElem?_eq_getElem hj, Option.some.injEq] at h
    rw [h] at hlt
    exact Std.Irrefl.irrefl _ (of_decide_eq_true hlt)

section Ordered

variable [LE κ] [Std.IsLinearOrder κ] [Std.LawfulOrderLT κ]

/-- From the position on every key is larger. -/
theorem Sorted.lt_of_mem_drop (h : Sorted key l) {b : α} (hb : b ∈ l.drop (position key l k)) :
    k < key b := by
  rw [position] at hb
  rcases hfind : l.findIdx? fun a ↦ decide (k < key a) with _ | j
  · rw [hfind, Option.getD_none, List.drop_length] at hb
    cases hb
  · rw [hfind, Option.getD_some] at hb
    obtain ⟨hj, hlt, -⟩ := List.findIdx?_eq_some_iff_getElem.mp hfind
    have hlt : k < key l[j] := of_decide_eq_true hlt
    have hsorted : Sorted key (l.drop j) := h.sublist (List.drop_sublist j l)
    rw [List.drop_eq_getElem_cons hj] at hb hsorted
    rcases List.mem_cons.mp hb with rfl | hb
    · exact hlt
    · exact Std.lt_of_lt_of_le hlt (List.rel_of_pairwise_cons hsorted hb)

/-- **Insertion** keeps a table sorted. -/
theorem Sorted.insert (h : Sorted key l) (a : α) : Sorted key (insert key l a) := by
  have hbefore : ∀ b ∈ l.take (position key l (key a)), key b ≤ key a :=
    fun b hb ↦ Std.not_lt.mp (not_lt_of_mem_take hb)
  have hbehind : ∀ b ∈ l.drop (position key l (key a)), key a ≤ key b :=
    fun b hb ↦ Std.le_of_lt (h.lt_of_mem_drop hb)
  refine List.pairwise_append.mpr ⟨h.sublist (List.take_sublist _ l),
    List.pairwise_cons.mpr ⟨hbehind, h.sublist (List.drop_sublist _ l)⟩, fun b hb c hc ↦ ?_⟩
  rcases List.mem_cons.mp hc with rfl | hc
  · exact hbefore b hb
  · exact Std.le_trans (hbefore b hb) (hbehind c hc)

/-- The entries with one key are in the order of `r`. -/
def Tiered (key : α → κ) (r : α → α → Prop) (l : List α) : Prop :=
  l.Pairwise fun a b ↦ key a = key b → r a b

/-- An entry goes behind those with its key, so it has to follow them in the order of `r`. -/
theorem tiered_insert_iff {r : α → α → Prop} (h : Sorted key l) :
    Tiered key r (insert key l a) ↔ Tiered key r l ∧ ∀ b ∈ l, key b = key a → r b a := by
  have hlarger : ∀ b ∈ l.drop (position key l (key a)), key a ≠ key b :=
    fun b hb heq ↦ Std.ne_of_lt (h.lt_of_mem_drop hb) heq
  have hsplit : Tiered key r l ↔ Tiered key r (l.take (position key l (key a)) ++
      l.drop (position key l (key a))) := by rw [List.take_append_drop]
  rw [hsplit, Tiered, Tiered, insert, List.pairwise_append, List.pairwise_append, List.pairwise_cons]
  constructor
  · rintro ⟨htake, ⟨-, hdrop⟩, hcross⟩
    refine ⟨⟨htake, hdrop, fun b hb c hc ↦ hcross b hb c (List.mem_cons_of_mem a hc)⟩,
      fun b hb heq ↦ ?_⟩
    rw [← List.take_append_drop (position key l (key a)) l] at hb
    rcases List.mem_append.mp hb with hb | hb
    · exact hcross b hb a List.mem_cons_self heq
    · exact absurd heq.symm (hlarger b hb)
  · rintro ⟨⟨htake, hdrop, hcross⟩, hnew⟩
    refine ⟨htake, ⟨fun b hb heq ↦ absurd heq (hlarger b hb), hdrop⟩, fun b hb c hc ↦ ?_⟩
    rcases List.mem_cons.mp hc with rfl | hc
    · exact hnew b (List.mem_of_mem_take hb)
    · exact hcross b hb c hc

omit [LT κ] [DecidableLT κ] [Std.LawfulOrderLT κ] in
/-- **Uniqueness.** There is one way to sort entries by their keys, and by `r` within a key. -/
theorem Sorted.eq_of_perm {r : α → α → Prop} [Std.Asymm r] {l' : List α} (h : Sorted key l)
    (htiered : Tiered key r l) (h' : Sorted key l') (htiered' : Tiered key r l')
    (hperm : l.Perm l') : l = l' := by
  refine List.Perm.eq_of_pairwise (fun a b _ _ hab hba ↦ ?_) (h.and htiered) (h'.and htiered') hperm
  have heq := Std.le_antisymm hab.1 hba.1
  exact absurd (hba.2 heq.symm) (Std.Asymm.asymm _ _ (hab.2 heq))

end Ordered

theorem insert_of_not_lt (h : ∀ b ∈ l, ¬ key a < key b) : insert key l a = l ++ [a] := by
  have hfind : l.findIdx? (fun b ↦ decide (key a < key b)) = none :=
    List.findIdx?_eq_none_iff.mpr fun b hb ↦ decide_eq_false (h b hb)
  rw [insert, position, hfind, Option.getD_none, List.take_length, List.drop_length]

/-! ## Bisection -/

/-- Bisection asks for keys only. -/
theorem bisect_map {β : Type} {key' : β → κ} {f : α → β} (h : ∀ a ∈ l, key' (f a) = key a) :
    bisect key' (l.map f) k lo hi = (bisect key l k lo hi).map f := by
  fun_induction bisect key l k lo hi with
  | case1 lo hi hlt hnone =>
    rw [bisect, dif_pos hlt, List.getElem?_map, hnone]
    rfl
  | case2 lo hi hlt a ha hsmall ih =>
    rw [bisect, dif_pos hlt, List.getElem?_map, ha, Option.map_some]
    simp only [h a (List.mem_of_getElem? ha)]
    rw [if_pos hsmall, ih]
  | case3 lo hi hlt a ha hsmall hlarge ih =>
    rw [bisect, dif_pos hlt, List.getElem?_map, ha, Option.map_some]
    simp only [h a (List.mem_of_getElem? ha)]
    rw [if_neg hsmall, if_pos hlarge, ih]
  | case4 lo hi hlt a ha hsmall hlarge =>
    rw [bisect, dif_pos hlt, List.getElem?_map, ha, Option.map_some]
    simp only [h a (List.mem_of_getElem? ha)]
    rw [if_neg hsmall, if_neg hlarge]
  | case5 lo hi hge =>
    rw [bisect, dif_neg hge, Option.map_none]

/-- Of two entries with one key it finds the last. -/
theorem bisect_pair [Std.Irrefl (α := κ) (· < ·)] {b : α} (hb : key b = k) :
    bisect key [a, b] k 0 2 = some b := by
  have hirrefl : ¬ k < k := Std.Irrefl.irrefl k
  have hfound : [a, b][0 + (2 - 0) / 2]? = some b := rfl
  rw [bisect, dif_pos (by decide), hfound]
  simp only [hb]
  rw [if_neg hirrefl, if_neg hirrefl]

/-- What is found is an entry with the key. -/
theorem bisect_eq_some [Std.Trichotomous (α := κ) (· < ·)] (h : bisect key l k lo hi = some a) :
    a ∈ l ∧ key a = k := by
  fun_induction bisect key l k lo hi with
  | case1 lo hi hlt hnone => cases h
  | case2 lo hi hlt b hb hsmall ih => exact ih h
  | case3 lo hi hlt b hb hsmall hlarge ih => exact ih h
  | case4 lo hi hlt b hb hsmall hlarge =>
    obtain rfl := Option.some.inj h
    exact ⟨List.mem_of_getElem? hb, Std.Trichotomous.trichotomous _ _ hsmall hlarge⟩
  | case5 lo hi hge => cases h

variable [LE κ] [Std.IsLinearOrder κ]

omit [LT κ] [DecidableLT κ] in
/-- In a sorted table keys grow with their positions. -/
theorem Sorted.key_le (h : Sorted key l) {i j : ℕ} (hij : i ≤ j) {b : α} (ha : l[i]? = some a)
    (hb : l[j]? = some b) : key a ≤ key b := by
  rcases Nat.eq_or_lt_of_le hij with rfl | hij
  · rw [ha, Option.some.injEq] at hb
    rw [hb]
    exact Std.le_refl _
  · obtain ⟨hi, rfl⟩ := List.getElem?_eq_some_iff.mp ha
    obtain ⟨hj, rfl⟩ := List.getElem?_eq_some_iff.mp hb
    exact List.pairwise_iff_getElem.mp h i j hi hj hij

variable [Std.LawfulOrderLT κ]

/-- When nothing is found, no position between `lo` and `hi` has the key. -/
theorem Sorted.bisect_eq_none (hsorted : Sorted key l) (h : bisect key l k lo hi = none)
    (hhi : hi ≤ l.length) : ∀ i, lo ≤ i → i < hi → ∀ b, l[i]? = some b → key b ≠ k := by
  fun_induction bisect key l k lo hi with
  | case1 lo hi hlt hnone =>
    rw [List.getElem?_eq_none_iff] at hnone
    omega
  | case2 lo hi hlt a ha hsmall ih =>
    -- the lower half has smaller keys
    intro i hlo hlt' b hb heq
    rcases Nat.lt_or_ge (lo + (hi - lo) / 2) i with hupper | hlower
    · exact ih h hhi i hupper hlt' b hb heq
    · have hle := hsorted.key_le hlower hb ha
      rw [heq] at hle
      exact Std.not_le_of_gt hsmall hle
  | case3 lo hi hlt a ha hsmall hlarge ih =>
    -- the upper half has larger keys
    intro i hlo hlt' b hb heq
    rcases Nat.lt_or_ge i (lo + (hi - lo) / 2) with hlower | hupper
    · exact ih h (by omega) i hlo hlower b hb heq
    · have hle := hsorted.key_le hupper ha hb
      rw [heq] at hle
      exact Std.not_le_of_gt hlarge hle
  | case4 lo hi hlt a ha hsmall hlarge => cases h
  | case5 lo hi hge =>
    intro i hle hlt'
    omega

/-- **Bisection** of a whole table finds an entry whenever there is one. -/
theorem Sorted.bisect_eq_none_iff (hsorted : Sorted key l) :
    bisect key l k 0 l.length = none ↔ ∀ a ∈ l, key a ≠ k := by
  constructor
  · intro h a ha
    obtain ⟨i, hi, rfl⟩ := List.getElem_of_mem ha
    exact hsorted.bisect_eq_none h (Nat.le_refl _) i (Nat.zero_le i) hi _
      (List.getElem?_eq_getElem hi)
  · intro h
    rcases hfind : bisect key l k 0 l.length with _ | a
    · rfl
    · obtain ⟨ha, heq⟩ := bisect_eq_some hfind
      exact absurd heq (h a ha)

end Galdralag.SortedTable
