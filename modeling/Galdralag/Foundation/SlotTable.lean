import Mathlib.Data.List.Basic
import Mathlib.Data.Nat.Notation

/-!
# Slot tables

A fixed number of slots, each with a key and a value, and one key that marks a free slot. A lookup
returns the value of the first slot with the key. A new value goes into the first slot that has the
key already, else into the first free one. No order is kept and keys are not required to be
distinct; the laws of a map hold all the same, for every key but the free one.
-/

set_option linter.all false

namespace Galdralag.SlotTable

variable {κ ν : Type} [DecidableEq κ] {k k' free : κ} {v : ν} {t : List (κ × ν)} {i : ℕ}

/-- The value of the first slot with a key. -/
def lookup (k : κ) : List (κ × ν) → Option ν
  | [] => none
  | x :: t => if x.1 = k then some x.2 else lookup k t

/-- The slot a value for `k` goes to. -/
def place (free k : κ) (t : List (κ × ν)) : Option ℕ :=
  (t.findIdx? fun x ↦ x.1 = k).or (t.findIdx? fun x ↦ x.1 = free)

/-- The number of slots a search for a key looks at. -/
def searched (k : κ) : List (κ × ν) → ℕ
  | [] => 0
  | x :: t => 1 + if x.1 = k then 0 else searched k t

theorem lookup_eq_none_iff : lookup k t = none ↔ ∀ x ∈ t, x.1 ≠ k := by
  induction t with
  | nil => exact ⟨fun _ ↦ nofun, fun _ ↦ rfl⟩
  | cons x t ih =>
    rw [lookup, List.forall_mem_cons, ← ih]
    by_cases hx : x.1 = k
    · rw [if_pos hx]
      exact ⟨nofun, fun h ↦ absurd hx h.1⟩
    · rw [if_neg hx]
      exact ⟨fun h ↦ ⟨hx, h⟩, And.right⟩

/-- Filling a slot in front of which no slot has the key. -/
theorem lookup_set_same (hi : i < t.length) (hfirst : ∀ x ∈ t.take i, x.1 ≠ k) :
    lookup k (t.set i (k, v)) = some v := by
  induction t generalizing i with
  | nil => cases hi
  | cons x t ih =>
    cases i with
    | zero => rw [List.set_cons_zero, lookup, if_pos rfl]
    | succ i =>
      rw [List.take_succ_cons, List.forall_mem_cons] at hfirst
      rw [List.set_cons_succ, lookup, if_neg hfirst.1]
      exact ih (Nat.lt_of_succ_lt_succ hi) hfirst.2

/-- Filling a slot that neither had nor gets the key. -/
theorem lookup_set_other {x : κ × ν} (hx : t[i]? = some x) (hold : x.1 ≠ k') (hnew : k ≠ k') :
    lookup k' (t.set i (k, v)) = lookup k' t := by
  induction t generalizing i with
  | nil => rfl
  | cons y t ih =>
    cases i with
    | zero =>
      obtain rfl : y = x := Option.some.inj hx
      rw [List.set_cons_zero, lookup, lookup, if_neg hold, if_neg hnew]
    | succ i =>
      rw [List.set_cons_succ, lookup, lookup, ih (by rwa [List.getElem?_cons_succ] at hx)]

/-- What is known about the place of a key. -/
theorem place_spec (h : place free k t = some i) :
    ∃ x, t[i]? = some x ∧ (x.1 = k ∨ x.1 = free) ∧ ∀ y ∈ t.take i, y.1 ≠ k := by
  have hat : ∀ {p : κ × ν → Bool}, t.findIdx? p = some i → ∃ x, t[i]? = some x ∧ p x = true := by
    intro p hp
    obtain ⟨hi, hpi, -⟩ := List.findIdx?_eq_some_iff_getElem.mp hp
    exact ⟨t[i], List.getElem?_eq_getElem hi, hpi⟩
  rw [place, Option.or_eq_some_iff] at h
  rcases h with h | ⟨hnone, h⟩
  · obtain ⟨x, hx, hk⟩ := hat h
    refine ⟨x, hx, .inl (of_decide_eq_true hk), fun y hy ↦ ?_⟩
    obtain ⟨j, hj, rfl⟩ := List.mem_take_iff_getElem.mp hy
    obtain ⟨_, _, hbefore⟩ := List.findIdx?_eq_some_iff_getElem.mp h
    exact of_decide_eq_false (Bool.eq_false_iff.mpr (hbefore j (by omega)))
  · obtain ⟨x, hx, hfree⟩ := hat h
    refine ⟨x, hx, .inr (of_decide_eq_true hfree), fun y hy ↦ ?_⟩
    have hno := List.findIdx?_eq_none_iff.mp hnone y (List.mem_of_mem_take hy)
    exact of_decide_eq_false hno

/-- A key that is found has its place where it was found. -/
theorem place_of_lookup (h : lookup k t = some v) : ∃ i, place free k t = some i ∧ t[i]? = some (k, v) := by
  obtain ⟨i, hidx, hget⟩ : ∃ i, (t.findIdx? fun x ↦ x.1 = k) = some i ∧ t[i]? = some (k, v) := by
    induction t with
    | nil => cases h
    | cons x t ih =>
      rw [lookup] at h
      split_ifs at h with hx
      · refine ⟨0, ?_, ?_⟩
        · rw [List.findIdx?_cons, if_pos (decide_eq_true hx)]
        · rw [List.getElem?_cons_zero, ← hx, ← Option.some.inj h]
      · obtain ⟨i, hidx, hget⟩ := ih h
        refine ⟨i + 1, ?_, ?_⟩
        · rw [List.findIdx?_cons, if_neg (fun h ↦ hx (of_decide_eq_true h)), hidx]
          rfl
        · rw [List.getElem?_cons_succ, hget]
  refine ⟨i, ?_, hget⟩
  rw [place, hidx]
  rfl

/-- **A write changes one key.** Looking up after putting a value into its place. -/
theorem lookup_place (h : place free k t = some i) (hfree : k' ≠ free) :
    lookup k' (t.set i (k, v)) = if k' = k then some v else lookup k' t := by
  obtain ⟨x, hx, hkey, hbefore⟩ := place_spec h
  by_cases hk : k' = k
  · rw [if_pos hk, hk]
    exact lookup_set_same (List.getElem?_eq_some_iff.mp hx).1 hbefore
  · rw [if_neg hk]
    refine lookup_set_other hx ?_ fun h ↦ hk h.symm
    rcases hkey with hkey | hkey
    · exact fun h ↦ hk (h.symm.trans hkey)
    · exact fun h ↦ hfree (h.symm.trans hkey)

/-- A key has a place in its slot, or else in a free one. -/
theorem place_isSome_iff : (place free k t).isSome = true ↔ ∃ x ∈ t, x.1 = k ∨ x.1 = free := by
  rw [place, Option.isSome_or, Bool.or_eq_true, List.findIdx?_isSome, List.findIdx?_isSome,
    List.any_eq_true, List.any_eq_true]
  simp only [decide_eq_true_eq, and_or_left, exists_or]

/-- A free slot takes a key that has no slot yet. -/
theorem place_isSome (h : ∃ x ∈ t, x.1 = free) : (place free k t).isSome = true := by
  obtain ⟨x, hx, hfree⟩ := h
  exact place_isSome_iff.mpr ⟨x, hx, .inr hfree⟩

/-! ## Distinct keys -/

/-- No key but the free one stands in two slots. -/
def Distinct (free : κ) (t : List (κ × ν)) : Prop := t.Pairwise fun x y ↦ x.1 = y.1 → x.1 = free

omit [DecidableEq κ] in
theorem distinct_replicate (n : ℕ) (v : ν) : Distinct free (List.replicate n (free, v)) := by
  refine List.pairwise_of_forall_mem_list fun x hx y _ _ ↦ ?_
  rw [List.eq_of_mem_replicate hx]

/-- A slot may take a key that no other slot has, or the free one. -/
theorem Distinct.set (h : Distinct free t)
    (hkey : ∀ j y, j ≠ i → t[j]? = some y → y.1 = k → k = free) : Distinct free (t.set i (k, v)) := by
  rw [Distinct, List.pairwise_iff_getElem] at h ⊢
  intro a b ha hb hab
  rw [List.length_set] at ha hb
  rw [List.getElem_set, List.getElem_set]
  split_ifs with hia hib hib
  · omega
  · intro heq
    exact hkey b _ (Ne.symm hib) (List.getElem?_eq_getElem hb) heq.symm
  · intro heq
    exact heq.trans (hkey a _ (Ne.symm hia) (List.getElem?_eq_getElem ha) heq)
  · exact h a b ha hb hab

/-- Keys stay distinct when a key goes to its place. -/
theorem Distinct.set_place (h : Distinct free t) (hplace : place free k t = some i) :
    Distinct free (t.set i (k, v)) := by
  refine h.set fun j y hj hy hk ↦ ?_
  rw [place, Option.or_eq_some_iff] at hplace
  rcases hplace with hfound | ⟨hnone, -⟩
  · obtain ⟨hi, hki, -⟩ := List.findIdx?_eq_some_iff_getElem.mp hfound
    obtain ⟨hjt, rfl⟩ := List.getElem?_eq_some_iff.mp hy
    have hki : t[i].1 = k := of_decide_eq_true hki
    have hpair := List.pairwise_iff_getElem.mp h
    rcases Nat.lt_or_gt_of_ne hj with hlt | hgt
    · rw [← hk]
      exact hpair j i hjt hi hlt (hk.trans hki.symm)
    · rw [← hki]
      exact hpair i j hi hjt hgt (hki.trans hk.symm)
  · have hno := List.findIdx?_eq_none_iff.mp hnone y (List.mem_of_getElem? hy)
    exact absurd hk (of_decide_eq_false hno)

/-- Keys stay distinct when a slot is freed. -/
theorem Distinct.set_free (h : Distinct free t) : Distinct free (t.set i (free, v)) :=
  h.set fun _ _ _ _ _ ↦ rfl

/-- **Freeing a slot removes its key** and no other. -/
theorem Distinct.lookup_set_free {x : κ × ν} (h : Distinct free t) (hx : t[i]? = some x)
    (hfree : k' ≠ free) :
    lookup k' (t.set i (free, v)) = if k' = x.1 then none else lookup k' t := by
  induction t generalizing i with
  | nil => cases hx
  | cons y t ih =>
    obtain ⟨hhead, htail⟩ := List.pairwise_cons.mp h
    cases i with
    | zero =>
      obtain rfl : y = x := Option.some.inj hx
      rw [List.set_cons_zero, lookup, if_neg hfree.symm, lookup]
      by_cases hk : k' = y.1
      · rw [if_pos hk, lookup_eq_none_iff]
        intro z hz heq
        exact hfree (hk.trans (hhead z hz (hk.symm.trans heq.symm)))
      · rw [if_neg hk, if_neg fun heq ↦ hk heq.symm]
    | succ i =>
      have hx : t[i]? = some x := by rwa [List.getElem?_cons_succ] at hx
      rw [List.set_cons_succ, lookup, lookup, ih htail hx]
      by_cases hy : y.1 = k'
      · have hne : k' ≠ x.1 := by
          intro hk
          exact hfree (hy.symm.trans (hhead x (List.mem_of_getElem? hx) (hy.trans hk)))
        rw [if_pos hy, if_pos hy, if_neg hne]
      · rw [if_neg hy, if_neg hy]

/-- The first slot with a key is the one that a lookup reads. -/
theorem lookup_set_findIdx? (h : (t.findIdx? fun x ↦ x.1 = k) = some i) :
    lookup k (t.set i (k, v)) = some v := by
  obtain ⟨hi, -, hbefore⟩ := List.findIdx?_eq_some_iff_getElem.mp h
  refine lookup_set_same hi fun y hy ↦ ?_
  obtain ⟨j, hj, rfl⟩ := List.mem_take_iff_getElem.mp hy
  exact of_decide_eq_false (Bool.eq_false_iff.mpr (hbefore j (by omega)))

/-- Searching a range by an image of its numbers. -/
theorem find?_range {α : Type} (f : ℕ → α) (p : α → Bool) (n : ℕ) :
    (List.range n).find? (fun i ↦ p (f i)) = ((List.range n).map f).findIdx? p := by
  rw [List.findIdx?_map, Option.ext_iff]
  intro i
  rw [List.find?_range_eq_some, List.findIdx?_eq_some_iff_getElem]
  constructor
  · rintro ⟨hp, hi, hbefore⟩
    rw [List.mem_range] at hi
    refine ⟨by rwa [List.length_range], by simpa using hp, fun j hj ↦ ?_⟩
    simpa using hbefore j hj
  · rintro ⟨hi, hp, hbefore⟩
    refine ⟨by simpa using hp, by simpa using hi, fun j hj ↦ ?_⟩
    simpa using hbefore j hj

end Galdralag.SlotTable
