import Galdralag.Foundation.Fallible

/-!
# Stages that can be undone

A stage turns a value into another and has a second function that takes the result back; both may
refuse. `Recovers f g` is one half of what makes them fit: what `f` makes of a value, `g` takes
back. A stage whose two functions recover each other in both directions accepts exactly its own
outputs.

Stages are stacked. `wrapAll` runs the first functions from the first stage to the last, and
`unwrapAll` the second functions in the opposite order; each half holds of the stack when it holds
of every stage (`wrapAll_recovers`, `unwrapAll_recovers`).

A step may also change the size of a value and refuse values of other sizes. `Grows` says at which
sizes a step works and what it adds, and `Grows.comp` adds this up along a sequence.
-/

set_option linter.all false

namespace Galdralag

variable {ε α β γ : Type}

/-! ## Recovery -/

/-- What `f` makes of a value, `g` takes back. -/
def Recovers (f : α → Except ε β) (g : β → Except ε α) : Prop := ∀ a b, f a = .ok b → g b = .ok a

theorem Recovers.pure : Recovers (ε := ε) (pure : α → Except ε α) pure := by
  rintro a b ⟨⟩
  rfl

/-- Two steps are taken back in the opposite order. -/
theorem Recovers.comp {f : α → Except ε β} {g : β → Except ε α} {f' : β → Except ε γ}
    {g' : γ → Except ε β} (h : Recovers f g) (h' : Recovers f' g') :
    Recovers (fun a ↦ f a >>= f') (fun c ↦ g' c >>= g) := by
  intro a c hac
  obtain ⟨b, hab, hbc⟩ := except_bind_eq_ok.mp hac
  exact except_bind_eq_ok.mpr ⟨b, h' b c hbc, h a b hab⟩

/-! ## Stages -/

/-- A step with the step that takes it back. -/
structure Stage (ε α : Type) where
  wrap : α → Except ε α
  unwrap : α → Except ε α

/-- The stage that does nothing. -/
def Stage.idle : Stage ε α := ⟨pure, pure⟩

/-- One stage after another. -/
def Stage.andThen (s t : Stage ε α) : Stage ε α where
  wrap a := s.wrap a >>= t.wrap
  unwrap b := t.unwrap b >>= s.unwrap

/-- Through all stages, the first one first. -/
def wrapAll : List (Stage ε α) → α → Except ε α
  | [], a => pure a
  | s :: stages, a => s.wrap a >>= wrapAll stages

/-- Back through all stages, the last one first. -/
def unwrapAll : List (Stage ε α) → α → Except ε α
  | [], b => pure b
  | s :: stages, b => unwrapAll stages b >>= s.unwrap

/-- A stack recovers what it made if every stage does. -/
theorem wrapAll_recovers {stages : List (Stage ε α)}
    (h : ∀ s ∈ stages, Recovers s.wrap s.unwrap) : Recovers (wrapAll stages) (unwrapAll stages) := by
  induction stages with
  | nil => exact .pure
  | cons s stages ih =>
    have hs := h s List.mem_cons_self
    exact hs.comp (ih fun t ht ↦ h t (List.mem_cons_of_mem s ht))

/-- A stack accepts only what it made if every stage does. -/
theorem unwrapAll_recovers {stages : List (Stage ε α)}
    (h : ∀ s ∈ stages, Recovers s.unwrap s.wrap) : Recovers (unwrapAll stages) (wrapAll stages) := by
  induction stages with
  | nil => exact .pure
  | cons s stages ih =>
    have hs := h s List.mem_cons_self
    exact (ih fun t ht ↦ h t (List.mem_cons_of_mem s ht)).comp hs

/-! ## Sizes -/

section Sizes

variable (size : α → ℕ)

/-- On values whose size satisfies `p` the step works and adds `d` to the size; it refuses the
others. -/
structure Grows (f : α → Except ε α) (p : ℕ → Prop) (d : ℕ) : Prop where
  works : ∀ a, p (size a) → ∃ b, f a = .ok b ∧ size b = size a + d
  refuses : ∀ a, ¬ p (size a) → ∃ e, f a = .error e

variable {size}

theorem Grows.pure : Grows size (pure : α → Except ε α) (fun _ ↦ True) 0 where
  works a _ := ⟨a, rfl, rfl⟩
  refuses _ h := absurd trivial h

theorem Grows.size_eq {f : α → Except ε α} {p : ℕ → Prop} {d : ℕ} (h : Grows size f p d) {a b : α}
    (hab : f a = .ok b) : size b = size a + d := by
  by_cases hp : p (size a)
  · obtain ⟨c, hc, hsize⟩ := h.works a hp
    obtain rfl : c = b := Except.ok.inj (hc.symm.trans hab)
    exact hsize
  · obtain ⟨e, he⟩ := h.refuses a hp
    rw [hab] at he
    cases he

theorem Grows.congr {f : α → Except ε α} {p q : ℕ → Prop} {d : ℕ} (h : Grows size f p d)
    (hpq : ∀ a, p (size a) ↔ q (size a)) : Grows size f q d where
  works a ha := h.works a ((hpq _).mpr ha)
  refuses a ha := h.refuses a fun hp ↦ ha ((hpq _).mp hp)

/-- Two steps: the second one sees a value that has grown. -/
theorem Grows.comp {f g : α → Except ε α} {p q : ℕ → Prop} {d e : ℕ} (hf : Grows size f p d)
    (hg : Grows size g q e) :
    Grows size (fun a ↦ f a >>= g) (fun n ↦ p n ∧ q (n + d)) (d + e) where
  works := by
    rintro a ⟨hp, hq⟩
    obtain ⟨b, hb, hsize⟩ := hf.works a hp
    obtain ⟨c, hc, hsize'⟩ := hg.works b (by rwa [hsize])
    refine ⟨c, except_bind_eq_ok.mpr ⟨b, hb, hc⟩, ?_⟩
    rw [hsize', hsize, Nat.add_assoc]
  refuses := by
    intro a hpq
    by_cases hp : p (size a)
    · obtain ⟨b, hb, hsize⟩ := hf.works a hp
      have hq : ¬ q (size b) := by
        rw [hsize]
        exact fun hq ↦ hpq ⟨hp, hq⟩
      obtain ⟨err, herr⟩ := hg.refuses b hq
      refine ⟨err, ?_⟩
      rw [hb, ok_bind, herr]
    · obtain ⟨err, herr⟩ := hf.refuses a hp
      refine ⟨err, ?_⟩
      rw [herr, error_bind]

end Sizes

end Galdralag
