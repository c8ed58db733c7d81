import Galdralag.Foundation.Fallible
import Mathlib.Data.List.Basic

/-!
# Outcomes with panics

A program that indexes a slice out of range, or cuts a text inside a character, does not return an
error: it panics. `Outcome` keeps the two apart, so that "never panics" is a statement about it.

A parser that moves an offset through a slice reads the same bytes again and again from the start.
The rules for `index` and `slice` say instead what is left behind the offset, `xs.drop i`, so that
the successful run of such a parser takes the slice apart from front to back, and a slice that is put
together from its parts is read back the same way.
-/

set_option linter.all false

namespace Galdralag

/-- A value, an error that is returned, or a panic. -/
inductive Outcome (ε α : Type) where
  | ok (a : α)
  | error (e : ε)
  | panicked
  deriving DecidableEq

namespace Outcome

variable {ε α β : Type}

/-- Go on with a value. -/
def andThen (m : Outcome ε α) (f : α → Outcome ε β) : Outcome ε β :=
  match m with
  | ok a => f a
  | error e => error e
  | panicked => panicked

instance : Monad (Outcome ε) where
  pure := ok
  bind := andThen

/-- An outcome that cannot panic. -/
def lift : Except ε α → Outcome ε α
  | .ok a => ok a
  | .error e => error e

/-- A check with its error. -/
def check (p : Prop) [Decidable p] (e : ε) : Outcome ε Unit := if p then ok () else error e

/-- A check that leaves behind what it checked. -/
def certified (p : Prop) [Decidable p] (e : ε) : Outcome ε (PLift p) :=
  if h : p then ok ⟨h⟩ else error e

/-- The element at an index. -/
def index (xs : List α) (i : ℕ) : Outcome ε α :=
  match xs[i]? with
  | some x => ok x
  | none => panicked

/-- The elements from one index up to another. -/
def slice (xs : List α) (start stop : ℕ) : Outcome ε (List α) :=
  if start ≤ stop ∧ stop ≤ xs.length then ok ((xs.drop start).take (stop - start)) else panicked

variable {m : Outcome ε α} {f : α → Outcome ε β}

theorem bind_eq_ok {b : β} : (m >>= f) = ok b ↔ ∃ a, m = ok a ∧ f a = ok b := by
  constructor
  · intro h
    rcases m with a | e | _
    · exact ⟨a, rfl, h⟩
    · cases h
    · cases h
  · rintro ⟨a, rfl, h⟩
    exact h

@[simp] theorem pure_eq_ok {a b : α} : (pure a : Outcome ε α) = ok b ↔ a = b :=
  ⟨fun h ↦ ok.inj h, fun h ↦ congrArg ok h⟩

theorem lift_eq_ok {r : Except ε α} {a : α} : lift r = ok a ↔ r = .ok a := by
  rcases r with e | b
  · exact iff_of_false (by rintro ⟨⟩) (by rintro ⟨⟩)
  · exact ⟨fun h ↦ congrArg _ (ok.inj h), fun h ↦ congrArg _ (Except.ok.inj h)⟩

theorem lift_bind_eq_ok {r : Except ε α} {b : β} :
    (lift r >>= f) = ok b ↔ ∃ a, r = .ok a ∧ f a = ok b := by
  rw [bind_eq_ok]
  exact exists_congr fun a ↦ and_congr_left fun _ ↦ lift_eq_ok

theorem checked_bind_eq_ok {p : Prop} [Decidable p] {e : ε} {g : Unit → Outcome ε β} {b : β} :
    (check p e >>= g) = ok b ↔ p ∧ g () = ok b := by
  rw [check]
  by_cases hp : p
  · rw [if_pos hp]
    exact (and_iff_right hp).symm
  · rw [if_neg hp]
    exact iff_of_false (by rintro ⟨⟩) fun h ↦ hp h.1

theorem certified_bind_eq_ok {p : Prop} [Decidable p] {e : ε} {g : PLift p → Outcome ε β} {b : β} :
    (certified p e >>= g) = ok b ↔ ∃ h : p, g ⟨h⟩ = ok b := by
  rw [certified]
  by_cases h : p
  · rw [dif_pos h]
    exact ⟨fun hg ↦ ⟨h, hg⟩, fun hg ↦ hg.2⟩
  · rw [dif_neg h]
    exact iff_of_false (by rintro ⟨⟩) fun hg ↦ h hg.1

/-! ## Behind an offset -/

variable {xs ys zs : List α} {x : α} {i n : ℕ}

theorem drop_succ (h : xs.drop i = x :: ys) : xs.drop (i + 1) = ys := by
  rw [← List.drop_drop, h, List.drop_one, List.tail_cons]

theorem drop_add (h : xs.drop i = ys ++ zs) (hn : ys.length = n) : xs.drop (i + n) = zs := by
  rw [← List.drop_drop, h, List.drop_left' hn]

theorem index_eq_ok : (index xs i : Outcome ε α) = ok x ↔ xs.drop i = x :: xs.drop (i + 1) := by
  rw [index]
  rcases Nat.lt_or_ge i xs.length with hi | hi
  · rw [List.getElem?_eq_getElem hi, List.drop_eq_getElem_cons hi]
    constructor
    · intro h
      rw [ok.inj h]
    · intro h
      exact congrArg ok (List.cons.inj h).1
  · rw [List.getElem?_eq_none hi, List.drop_eq_nil_of_le hi]
    exact iff_of_false (by rintro ⟨⟩) (by rintro ⟨⟩)

theorem slice_eq_ok (hn : ys.length = n) (hle : i + n ≤ xs.length) :
    (slice xs i (i + n) : Outcome ε (List α)) = ok ys ↔ xs.drop i = ys ++ xs.drop (i + n) := by
  rw [slice, if_pos ⟨Nat.le_add_right i n, hle⟩, Nat.add_sub_cancel_left, ← List.drop_drop]
  constructor
  · intro h
    rw [← ok.inj h, List.take_append_drop]
  · intro h
    rw [h, List.take_left' hn]

theorem slice_bind_eq_ok {g : List α → Outcome ε β} {b : β} (hle : i + n ≤ xs.length) :
    (slice xs i (i + n) >>= g) = ok b ↔
      ∃ ys, ys.length = n ∧ xs.drop i = ys ++ xs.drop (i + n) ∧ g ys = ok b := by
  rw [bind_eq_ok]
  constructor
  · rintro ⟨ys, hys, hg⟩
    have hlen : ys.length = n := by
      rw [slice, if_pos ⟨Nat.le_add_right i n, hle⟩, Nat.add_sub_cancel_left] at hys
      rw [← ok.inj hys, List.length_take_of_le]
      rw [List.length_drop]
      omega
    exact ⟨ys, hlen, (slice_eq_ok hlen hle).mp hys, hg⟩
  · rintro ⟨ys, hlen, hys, hg⟩
    exact ⟨ys, (slice_eq_ok hlen hle).mpr hys, hg⟩

theorem index_bind_eq_ok {b : β} :
    (index xs i >>= f) = ok b ↔ ∃ x, xs.drop i = x :: xs.drop (i + 1) ∧ f x = ok b := by
  rw [bind_eq_ok]
  exact exists_congr fun x ↦ and_congr_left fun _ ↦ index_eq_ok

/-! ## No panic -/

/-- The outcome is a value or an error. -/
def Returns (m : Outcome ε α) : Prop := m ≠ panicked

theorem returns_ok (a : α) : Returns (ok a : Outcome ε α) := by rintro ⟨⟩

theorem returns_pure (a : α) : Returns (pure a : Outcome ε α) := returns_ok a

theorem returns_error (e : ε) : Returns (error e : Outcome ε α) := by rintro ⟨⟩

theorem returns_lift (r : Except ε α) : Returns (lift r) := by
  cases r with
  | error e => exact returns_error e
  | ok a => exact returns_ok a

theorem returns_bind (hm : Returns m) (h : ∀ a, m = ok a → Returns (f a)) : Returns (m >>= f) := by
  cases m with
  | ok a => exact h a rfl
  | error e => exact returns_error e
  | panicked => exact absurd rfl hm

theorem returns_lift_bind {r : Except ε α} (h : ∀ a, r = .ok a → Returns (f a)) :
    Returns (lift r >>= f) := by
  rcases r with e | a
  · exact returns_error e
  · exact h a rfl

theorem returns_checked_bind {p : Prop} [Decidable p] {e : ε} {g : Unit → Outcome ε β}
    (h : p → Returns (g ())) : Returns (check p e >>= g) := by
  rw [check]
  by_cases hp : p
  · rw [if_pos hp]
    exact h hp
  · rw [if_neg hp]
    exact returns_error e

theorem returns_certified_bind {p : Prop} [Decidable p] {e : ε} {g : PLift p → Outcome ε β}
    (h : ∀ a, Returns (g a)) : Returns (certified p e >>= g) := by
  rw [certified]
  by_cases hp : p
  · rw [dif_pos hp]
    exact h _
  · rw [dif_neg hp]
    exact returns_error e

/-- An index within the list does not panic. -/
theorem returns_index_bind (hi : i < xs.length) (h : ∀ x, Returns (f x)) :
    Returns (index xs i >>= f) := by
  rw [index, List.getElem?_eq_getElem hi]
  exact h _

/-- A slice within the list does not panic. -/
theorem returns_slice_bind {g : List α → Outcome ε β} (hle : i + n ≤ xs.length)
    (h : ∀ ys, Returns (g ys)) : Returns (slice xs i (i + n) >>= g) := by
  rw [slice, if_pos ⟨Nat.le_add_right i n, hle⟩]
  exact h _

/-! ## Parsers that read a prefix -/

variable {parse : List β → Outcome ε α} {encode : α → List β} {Valid : α → Prop}

/-- The parser accepts a valid value exactly on the lists that begin with its encoding. -/
def ReadsPrefix (parse : List β → Outcome ε α) (encode : α → List β) (Valid : α → Prop) : Prop :=
  ∀ xs a, parse xs = ok a ↔ Valid a ∧ encode a <+: xs

/-- A valid value is read back from its encoding. -/
theorem ReadsPrefix.parse_encode (h : ReadsPrefix parse encode Valid) {a : α} (ha : Valid a) :
    parse (encode a) = ok a := (h _ a).mpr ⟨ha, List.prefix_rfl⟩

/-- The list is the encoding of a valid value and more. -/
def Followed (encode : α → List β) (Valid : α → Prop) (xs : List β) : Prop :=
  ∃ a rest, Valid a ∧ rest ≠ [] ∧ xs = encode a ++ rest

/-- What is accepted is exactly an encoding, unless something follows one. -/
theorem ReadsPrefix.exact_iff (h : ReadsPrefix parse encode Valid) (xs : List β) :
    (∀ a, parse xs = ok a → xs = encode a) ↔ ¬ Followed encode Valid xs := by
  constructor
  · rintro hexact ⟨a, rest, ha, hrest, rfl⟩
    have hown := hexact a ((h _ a).mpr ⟨ha, List.prefix_append _ _⟩)
    exact hrest (List.append_right_eq_self.mp hown)
  · intro hfollowed a hparse
    obtain ⟨ha, rest, rfl⟩ := (h xs a).mp hparse
    by_contra hne
    refine hfollowed ⟨a, rest, ha, ?_, rfl⟩
    rintro rfl
    exact hne (List.append_nil _)

end Outcome

end Galdralag
