import Mathlib.Algebra.Group.Nat.Defs
import Mathlib.Data.List.Basic
import Mathlib.Data.Nat.Notation

/-!
# Numbers in fixed width

Numbers that are written with a fixed number of digits compare as their texts do, character by
character, and so do tuples of them (`pad_append_lt_iff`). A number whose last digits are zero may be
written without them if something that is below every digit stands in their place: it then compares
with the longer texts as before (`short_lt_iff`, `lt_short_iff`).

Digits are any ordered symbols and the base is any number.
-/

set_option linter.all false

namespace Galdralag

section Lists

variable {α : Type} [LT α]

/-- Texts with the same beginning compare as what follows. -/
theorem cons_lt_cons_same {a : α} (ha : ¬ a < a) {us vs : List α} :
    a :: us < a :: vs ↔ us < vs := by
  rw [List.cons_lt_cons_iff]
  exact ⟨fun h ↦ (h.resolve_left ha).2, fun h ↦ .inr ⟨rfl, h⟩⟩

end Lists

/-- Symbols for the digits of a base, in their order. -/
structure Numerals {α : Type} [LT α] (b : ℕ) (digit : ℕ → α) : Prop where
  lt_iff : ∀ {i j}, i < b → j < b → (digit i < digit j ↔ i < j)
  eq_of_eq : ∀ {i j}, i < b → j < b → digit i = digit j → i = j

/-- A symbol below all digits. -/
structure BelowDigits {α : Type} [LT α] (b : ℕ) (digit : ℕ → α) (sep : α) : Prop where
  lt : ∀ {i}, i < b → sep < digit i
  not_lt : ∀ {i}, i < b → ¬ digit i < sep
  ne : ∀ {i}, i < b → digit i ≠ sep

/-- The last `w` digits of a number, the highest first. -/
def pad {α : Type} (b : ℕ) (digit : ℕ → α) : ℕ → ℕ → List α
  | 0, _ => []
  | w + 1, n => digit (n / b ^ w % b) :: pad b digit w n

section Pad

variable {α : Type} {b : ℕ} {digit : ℕ → α}

@[simp] theorem length_pad (w n : ℕ) : (pad b digit w n).length = w := by
  induction w with
  | zero => rfl
  | succ w ih => rw [pad, List.length_cons, ih]

/-- The digits of a number in two parts. -/
theorem pad_add (j k n : ℕ) :
    pad b digit (j + k) n = pad b digit j (n / b ^ k) ++ pad b digit k n := by
  induction j with
  | zero => rw [Nat.zero_add, pad, List.nil_append]
  | succ j ih =>
    have hdigit : n / b ^ (j + k) = n / b ^ k / b ^ j := by
      rw [Nat.div_div_eq_div_mul, ← Nat.pow_add, Nat.add_comm k j]
    rw [Nat.succ_add, pad, pad, ih, hdigit, List.cons_append]

/-- The number of the last `w + 1` digits: its first digit and the others. -/
theorem mod_pow_succ (w n : ℕ) : n % b ^ (w + 1) = n / b ^ w % b * b ^ w + n % b ^ w := by
  rw [Nat.pow_succ, Nat.mod_mul, Nat.add_comm, Nat.mul_comm]

theorem mul_add_lt_iff (q q' : ℕ) {r r' B : ℕ} (hr : r < B) (hr' : r' < B) :
    q * B + r < q' * B + r' ↔ q < q' ∨ q = q' ∧ r < r' := by
  rcases Nat.lt_trichotomy q q' with h | rfl | h
  · have hle : (q + 1) * B ≤ q' * B := Nat.mul_le_mul_right B h
    rw [Nat.succ_mul] at hle
    exact iff_of_true (by omega) (.inl h)
  · omega
  · have hle : (q' + 1) * B ≤ q * B := Nat.mul_le_mul_right B h
    rw [Nat.succ_mul] at hle
    exact iff_of_false (by omega) (by omega)

variable [LT α] (hdigit : Numerals b digit) (hb : 0 < b)
include hdigit hb

theorem pad_append_lt_mod_iff (w : ℕ) {m n : ℕ} {us vs : List α} :
    pad b digit w m ++ us < pad b digit w n ++ vs ↔
      m % b ^ w < n % b ^ w ∨ m % b ^ w = n % b ^ w ∧ us < vs := by
  induction w with
  | zero =>
    rw [Nat.pow_zero, Nat.mod_one, Nat.mod_one, pad, pad, List.nil_append, List.nil_append]
    simp
  | succ w ih =>
    have hm := Nat.mod_lt (m / b ^ w) hb
    have hn := Nat.mod_lt (n / b ^ w) hb
    have hpow : 0 < b ^ w := Nat.pow_pos hb
    have hlt := mul_add_lt_iff (m / b ^ w % b) (n / b ^ w % b)
      (Nat.mod_lt m hpow) (Nat.mod_lt n hpow)
    have hgt := mul_add_lt_iff (n / b ^ w % b) (m / b ^ w % b)
      (Nat.mod_lt n hpow) (Nat.mod_lt m hpow)
    have heq : m / b ^ w % b * b ^ w + m % b ^ w = n / b ^ w % b * b ^ w + n % b ^ w ↔
        m / b ^ w % b = n / b ^ w % b ∧ m % b ^ w = n % b ^ w := by omega
    have hfirst : digit (m / b ^ w % b) = digit (n / b ^ w % b) ↔ m / b ^ w % b = n / b ^ w % b :=
      ⟨hdigit.eq_of_eq hm hn, fun h ↦ congrArg digit h⟩
    rw [pad, pad, List.cons_append, List.cons_append, List.cons_lt_cons_iff, ih,
      hdigit.lt_iff hm hn, hfirst, mod_pow_succ w m, mod_pow_succ w n, hlt, heq]
    constructor
    · rintro (h | ⟨h, h' | ⟨h', htail⟩⟩)
      · exact .inl (.inl h)
      · exact .inl (.inr ⟨h, h'⟩)
      · exact .inr ⟨⟨h, h'⟩, htail⟩
    · rintro ((h | ⟨h, h'⟩) | ⟨⟨h, h'⟩, htail⟩)
      · exact .inl h
      · exact .inr ⟨h, .inl h'⟩
      · exact .inr ⟨h, .inr ⟨h', htail⟩⟩

/-- **Fixed-width numbers compare as numbers**, and what follows decides between equal ones. -/
theorem pad_append_lt_iff {w m n : ℕ} {us vs : List α} (hm : m < b ^ w) (hn : n < b ^ w) :
    pad b digit w m ++ us < pad b digit w n ++ vs ↔ m < n ∨ m = n ∧ us < vs := by
  rw [pad_append_lt_mod_iff hdigit hb, Nat.mod_eq_of_lt hm, Nat.mod_eq_of_lt hn]

variable {sep : α} (hsep : BelowDigits b digit sep) {j k a n : ℕ} {us vs : List α}
include hsep

/-- A number without its last zeros against a longer one. -/
theorem short_lt_iff (ha : a < b ^ j) (hn : n < b ^ (j + (k + 1))) :
    pad b digit j a ++ sep :: us < pad b digit (j + (k + 1)) n ++ vs ↔ a * b ^ (k + 1) ≤ n := by
  have hhigh : n / b ^ (k + 1) < b ^ j := by
    rw [Nat.div_lt_iff_lt_mul (Nat.pow_pos hb), ← Nat.pow_add]
    exact hn
  have hfollow : sep :: us < pad b digit (k + 1) n ++ vs := by
    rw [pad, List.cons_append, List.cons_lt_cons_iff]
    exact .inl (hsep.lt (Nat.mod_lt _ hb))
  rw [pad_add, List.append_assoc, pad_append_lt_iff hdigit hb ha hhigh,
    ← Nat.le_div_iff_mul_le (Nat.pow_pos hb), Nat.le_iff_lt_or_eq]
  exact or_congr_right (and_iff_left hfollow)

/-- And the other way round. -/
theorem lt_short_iff (ha : a < b ^ j) (hn : n < b ^ (j + (k + 1))) :
    pad b digit (j + (k + 1)) n ++ vs < pad b digit j a ++ sep :: us ↔ n < a * b ^ (k + 1) := by
  have hhigh : n / b ^ (k + 1) < b ^ j := by
    rw [Nat.div_lt_iff_lt_mul (Nat.pow_pos hb), ← Nat.pow_add]
    exact hn
  have hfollow : ¬ pad b digit (k + 1) n ++ vs < sep :: us := by
    rw [pad, List.cons_append, List.cons_lt_cons_iff]
    rintro (h | ⟨h, -⟩)
    · exact hsep.not_lt (Nat.mod_lt _ hb) h
    · exact hsep.ne (Nat.mod_lt _ hb) h
  rw [pad_add, List.append_assoc, pad_append_lt_iff hdigit hb hhigh ha,
    ← Nat.div_lt_iff_lt_mul (Nat.pow_pos hb)]
  exact or_iff_left fun h ↦ hfollow h.2

end Pad

end Galdralag
