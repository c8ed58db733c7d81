import Mathlib.Logic.Basic
import Mathlib.Data.Nat.Notation

/-!
# Computations that may fail but keep their state

A method that takes its receiver by mutable reference and returns a result type may fail halfway:
whatever it wrote before the failing step stays written. `Fallible σ ε α` is that shape, a state
transformer whose outcome is a value or an error and whose final state is reported in both cases.

Four families of rules are developed for it.

* **Inversion**: a successful run of a sequence decomposes into successful runs of its parts.
* **Footprints**: a relation between initial and final states that every step respects is
  respected by the sequence, whether it succeeds or fails.
* **Errors**: the errors of a sequence are those of its steps.
* **Coupling**: two computations run from related states and are compared step by step, which is
  how statements about pairs of runs are proved.
-/

set_option linter.all false

namespace Galdralag

universe u

/-- A stateful computation that ends with a value or an error, and with a state in both cases. -/
def Fallible (σ ε α : Type u) : Type u := σ → Except ε α × σ

/-! ## Outcomes -/

/-- A sequence of outcomes goes on with a value. -/
theorem ok_bind {ε α β : Type u} (a : α) (f : α → Except ε β) : (Except.ok a >>= f) = f a := rfl

/-- A sequence of outcomes stops at an error. -/
theorem error_bind {ε α β : Type u} (e : ε) (f : α → Except ε β) :
    (Except.error e >>= f) = .error e := rfl

/-- A sequence of outcomes ends with a value when each of its parts does. -/
theorem except_bind_eq_ok {ε α β : Type u} {x : Except ε α} {f : α → Except ε β} {b : β} :
    (x >>= f) = .ok b ↔ ∃ a, x = .ok a ∧ f a = .ok b := by
  rcases x with e | a
  · refine iff_of_false (by rintro ⟨⟩) ?_
    rintro ⟨a, ⟨⟩, -⟩
  · refine ⟨fun h ↦ ⟨a, rfl, h⟩, ?_⟩
    rintro ⟨a', h, hf⟩
    obtain rfl : a = a' := Except.ok.inj h
    exact hf

/-- Translating the error changes no value. -/
theorem mapError_eq_ok_iff {ε δ α : Type} {f : ε → δ} {x : Except ε α} {a : α} :
    x.mapError f = .ok a ↔ x = .ok a := by
  rcases x with e | b
  · exact iff_of_false (by rintro ⟨⟩) (by rintro ⟨⟩)
  · change Except.ok b = Except.ok a ↔ _
    exact ⟨fun h ↦ congrArg _ (Except.ok.inj h), fun h ↦ congrArg _ (Except.ok.inj h)⟩

/-- A check with its error. -/
def ensure {ε : Type u} (p : Prop) [Decidable p] (e : ε) : Except ε Unit :=
  if p then .ok () else .error e

theorem ensure_eq_ok {ε : Type u} {p : Prop} [Decidable p] {e : ε} : ensure p e = .ok () ↔ p := by
  rw [ensure]
  by_cases hp : p
  · rw [if_pos hp]
    exact iff_of_true rfl hp
  · rw [if_neg hp]
    exact iff_of_false (by rintro ⟨⟩) hp

theorem ensure_bind {ε β : Type} {p : Prop} [Decidable p] {e : ε} {f : Unit → Except ε β} :
    (ensure p e >>= f) = if p then f () else .error e := by
  by_cases hp : p
  · rw [ensure, if_pos hp, if_pos hp]
    rfl
  · rw [ensure, if_neg hp, if_neg hp]
    rfl

theorem ensure_bind_eq_ok {ε β : Type} {p : Prop} [Decidable p] {e : ε} {f : Unit → Except ε β}
    {b : β} : (ensure p e >>= f) = .ok b ↔ p ∧ f () = .ok b := by
  rw [except_bind_eq_ok]
  constructor
  · rintro ⟨_, hp, hf⟩
    exact ⟨ensure_eq_ok.mp hp, hf⟩
  · rintro ⟨hp, hf⟩
    exact ⟨(), ensure_eq_ok.mpr hp, hf⟩

/-- A check in front of more. -/
theorem check_bind_eq_ok {ε β : Type} {x : Except ε Unit} {f : Unit → Except ε β} {b : β} :
    (x >>= f) = .ok b ↔ x = .ok () ∧ f () = .ok b := by
  rw [except_bind_eq_ok]
  constructor
  · rintro ⟨_, hx, hf⟩
    exact ⟨hx, hf⟩
  · rintro ⟨hx, hf⟩
    exact ⟨(), hx, hf⟩

/-- Every error of the outcome is one of `P`. -/
def ErrorsIn {ε α : Type} (P : ε → Prop) (x : Except ε α) : Prop := ∀ e, x = .error e → P e

theorem ErrorsIn.ok {ε α : Type} {P : ε → Prop} (a : α) : ErrorsIn P (.ok a) := by
  rintro e ⟨⟩

theorem ErrorsIn.error {ε α : Type} {P : ε → Prop} {e : ε} (h : P e) :
    ErrorsIn P (.error e : Except ε α) := by
  intro e' he
  rwa [← Except.error.inj he]

theorem ErrorsIn.bind {ε α β : Type} {P : ε → Prop} {x : Except ε α} {f : α → Except ε β}
    (hx : ErrorsIn P x) (hf : ∀ a, ErrorsIn P (f a)) : ErrorsIn P (x >>= f) := by
  rcases x with e | a
  · exact .error (hx e rfl)
  · exact hf a

theorem ErrorsIn.ensure {ε : Type} {P : ε → Prop} {e : ε} (h : P e) (p : Prop) [Decidable p] :
    ErrorsIn P (Galdralag.ensure p e) := by
  rw [Galdralag.ensure]
  by_cases hp : p
  · rw [if_pos hp]
    exact .ok _
  · rw [if_neg hp]
    exact .error h

theorem ErrorsIn.mapError {ε δ α : Type} {P : δ → Prop} {f : ε → δ} (h : ∀ e, P (f e))
    (x : Except ε α) : ErrorsIn P (x.mapError f) := by
  rcases x with e | a
  · exact .error (h e)
  · exact .ok a

theorem ErrorsIn.mapM {ε α β : Type} {P : ε → Prop} {f : α → Except ε β} {xs : List α}
    (h : ∀ x, ErrorsIn P (f x)) : ErrorsIn P (xs.mapM f) := by
  induction xs with
  | nil => exact .ok []
  | cons x xs ih =>
    rw [List.mapM_cons]
    exact (h x).bind fun y ↦ ih.bind fun ys ↦ .ok (y :: ys)

theorem ErrorsIn.foldlM {ε α β : Type} {P : ε → Prop} {f : β → α → Except ε β} {xs : List α}
    (h : ∀ b x, ErrorsIn P (f b x)) (b : β) : ErrorsIn P (xs.foldlM f b) := by
  induction xs generalizing b with
  | nil => exact .ok b
  | cons x xs ih =>
    rw [List.foldlM_cons]
    exact (h b x).bind ih

/-- An outcome together with the fact that it came about. -/
def certify {ε α : Type u} (r : Except ε α) : Except ε { a : α // r = .ok a } :=
  match r with
  | .error e => .error e
  | .ok a => .ok ⟨a, rfl⟩

theorem certify_of_ok {ε α : Type u} {r : Except ε α} {a : α} (h : r = .ok a) :
    certify r = .ok ⟨a, h⟩ := by
  subst h
  rfl

theorem certify_of_error {ε α : Type u} {r : Except ε α} {e : ε} (h : r = .error e) :
    certify r = .error e := by
  subst h
  rfl

/-- If every item can be read, the list is read, and what holds between an item and its reading
holds along the list. -/
theorem mapM_ok_map {ε α β γ : Type} {f : α → Except ε β} {k : β → γ} {h : α → γ} {xs : List α}
    (hf : ∀ x ∈ xs, ∃ y, f x = .ok y ∧ k y = h x) :
    ∃ ys, xs.mapM f = .ok ys ∧ ys.map k = xs.map h := by
  induction xs with
  | nil => exact ⟨[], rfl, rfl⟩
  | cons x xs ih =>
    obtain ⟨y, hy, hk⟩ := hf x List.mem_cons_self
    obtain ⟨ys, hys, hmap⟩ := ih fun z hz ↦ hf z (List.mem_cons_of_mem x hz)
    refine ⟨y :: ys, ?_, ?_⟩
    · rw [List.mapM_cons, hy, ok_bind, hys, ok_bind]
      rfl
    · rw [List.map_cons, List.map_cons, hk, hmap]

/-- Reads that all succeed give the list of what they read. -/
theorem mapM_eq_ok {ε α β : Type} {f : α → Except ε β} {g : α → β} {xs : List α}
    (h : ∀ x ∈ xs, f x = .ok (g x)) : xs.mapM f = .ok (xs.map g) := by
  obtain ⟨ys, hys, hmap⟩ := mapM_ok_map (k := id) (h := g) fun x hx ↦ ⟨g x, h x hx, rfl⟩
  rw [hys, ← hmap, List.map_id]

/-- The readings of a list are those of its items, and every item has one. -/
theorem mem_of_mapM_eq_ok {ε α β : Type} {f : α → Except ε β} {xs : List α} {ys : List β}
    (h : xs.mapM f = .ok ys) :
    (∀ y, y ∈ ys ↔ ∃ x ∈ xs, f x = .ok y) ∧ ∀ x ∈ xs, ∃ y, f x = .ok y := by
  induction xs generalizing ys with
  | nil =>
    obtain rfl := Except.ok.inj h
    simp
  | cons x xs ih =>
    rw [List.mapM_cons] at h
    obtain ⟨y, hy, h⟩ := except_bind_eq_ok.mp h
    obtain ⟨ys, hys, h⟩ := except_bind_eq_ok.mp h
    obtain rfl := Except.ok.inj h
    obtain ⟨hmem, hall⟩ := ih hys
    refine ⟨fun z ↦ ?_, List.forall_mem_cons.mpr ⟨⟨y, hy⟩, hall⟩⟩
    simp only [List.mem_cons, hmem, exists_eq_or_imp, hy, Except.ok.injEq]
    rw [eq_comm]

namespace Fallible

variable {σ τ ε δ α β : Type u}

instance : Monad (Fallible σ ε) where
  pure a := fun s ↦ (.ok a, s)
  bind m f := fun s ↦
    match m s with
    | (.ok a, s') => f a s'
    | (.error e, s') => (.error e, s')

/-- Stop with an error, leaving the state as it is. -/
def fail (e : ε) : Fallible σ ε α := fun s ↦ (.error e, s)

/-- Use an outcome that was computed without touching the state. -/
def lift (r : Except ε α) : Fallible σ ε α := fun s ↦ (r, s)

/-- Run a computation that only reads the state. -/
def reading (f : σ → Except ε α) : Fallible σ ε α := fun s ↦ (f s, s)

/-- Read a component of the state. -/
def gets (f : σ → α) : Fallible σ ε α := fun s ↦ (.ok (f s), s)

/-- Overwrite part of the state. -/
def modify (f : σ → σ) : Fallible σ ε PUnit := fun s ↦ (.ok ⟨⟩, f s)

/-- Run a step that cannot fail. -/
def act (f : σ → α × σ) : Fallible σ ε α := fun s ↦ (.ok (f s).1, (f s).2)

/-- Stop with `e` unless `p` holds. -/
def require (p : Prop) [Decidable p] (e : ε) : Fallible σ ε PUnit :=
  if p then pure ⟨⟩ else fail e

/-- Replace the error by another one. -/
def orElse (m : Fallible σ δ α) (e : ε) : Fallible σ ε α := fun s ↦
  match m s with
  | (.ok a, s') => (.ok a, s')
  | (.error _, s') => (.error e, s')

/-- Translate the error. -/
def mapError (f : δ → ε) (m : Fallible σ δ α) : Fallible σ ε α := fun s ↦
  ((m s).1.mapError f, (m s).2)

/-- Run a computation and carry on with its outcome, whatever it is. -/
def attempt (m : Fallible σ δ α) : Fallible σ ε (Except δ α) := fun s ↦ (.ok (m s).1, (m s).2)

/-- Run a computation on a component of the state. -/
def zoom (get : σ → τ) (put : τ → σ → σ) (m : Fallible τ ε α) : Fallible σ ε α := fun s ↦
  ((m (get s)).1, put (m (get s)).2 s)

/-- Run a computation all or nothing: when it fails, the state is as it was. -/
def atomic (m : Fallible σ ε α) : Fallible σ ε α := fun s ↦
  match m s with
  | (.ok a, s') => (.ok a, s')
  | (.error e, _) => (.error e, s)

/-- Run `f` on every element of a list, in order. -/
def each {ι : Type} (f : ι → Fallible σ ε PUnit) : List ι → Fallible σ ε PUnit
  | [] => pure ⟨⟩
  | x :: xs => do
    f x
    each f xs

/-- Change every element of a list in place, in order. An error ends the loop, and the elements
behind the one where it occurred stay. -/
def eachMut {ι : Type u} (f : Fallible (ι × σ) ε PUnit) :
    List ι → σ → Except ε PUnit.{u + 1} × (List ι × σ)
  | [], s => (.ok ⟨⟩, ([], s))
  | x :: xs, s =>
    match f (x, s) with
    | (.error e, (y, s')) => (.error e, (y :: xs, s'))
    | (.ok _, (y, s')) =>
      let rest := eachMut f xs s'
      (rest.1, (y :: rest.2.1, rest.2.2))

/-! ## Evaluation -/

variable {m : Fallible σ ε α} {f : α → Fallible σ ε β} {s s' : σ}

@[simp] theorem pure_apply (a : α) (s : σ) : (pure a : Fallible σ ε α) s = (.ok a, s) := rfl

theorem bind_apply (m : Fallible σ ε α) (f : α → Fallible σ ε β) (s : σ) :
    (m >>= f) s = match m s with
      | (.ok a, s') => f a s'
      | (.error e, s') => (.error e, s') := rfl

@[simp] theorem fail_apply (e : ε) (s : σ) : (fail e : Fallible σ ε α) s = (.error e, s) := rfl

@[simp] theorem lift_apply (r : Except ε α) (s : σ) : (lift r : Fallible σ ε α) s = (r, s) := rfl

theorem require_bind_apply {p : Prop} [Decidable p] {e : ε} {f : PUnit → Fallible σ ε β} {s : σ} :
    (require p e >>= f) s = if p then f ⟨⟩ s else (.error e, s) := by
  by_cases hp : p
  · rw [bind_apply, require, if_pos hp, if_pos hp]
    rfl
  · rw [bind_apply, require, if_neg hp, if_neg hp]
    rfl

/-- Two computed outcomes in sequence are one. -/
theorem lift_bind_lift (r : Except ε α) (f : α → Except ε β) :
    ((lift r : Fallible σ ε α) >>= fun a ↦ lift (f a)) = lift (r >>= f) := by
  funext s
  rcases r with e | a <;> rfl

@[simp] theorem reading_apply (f : σ → Except ε α) (s : σ) : reading f s = (f s, s) := rfl

@[simp] theorem gets_apply (f : σ → α) (s : σ) : (gets f : Fallible σ ε α) s = (.ok (f s), s) := rfl

@[simp] theorem modify_apply (f : σ → σ) (s : σ) :
    (modify f : Fallible σ ε PUnit) s = (.ok ⟨⟩, f s) := rfl

@[simp] theorem act_apply (f : σ → α × σ) (s : σ) :
    (act f : Fallible σ ε α) s = (.ok (f s).1, (f s).2) := rfl

@[simp] theorem attempt_apply (m : Fallible σ δ α) (s : σ) :
    (attempt m : Fallible σ ε (Except δ α)) s = (.ok (m s).1, (m s).2) := rfl

@[simp] theorem zoom_apply (get : σ → τ) (put : τ → σ → σ) (m : Fallible τ ε α) (s : σ) :
    zoom get put m s = ((m (get s)).1, put (m (get s)).2 s) := rfl

/-- Replacing the value at the end leaves the final state alone. -/
theorem bind_pure_snd (m : Fallible σ ε α) (b : β) (s : σ) :
    ((m >>= fun _ ↦ (pure b : Fallible σ ε β)) s).2 = (m s).2 := by
  rw [bind_apply]
  rcases m s with ⟨_ | _, _⟩ <;> rfl

/-- Continue from a first step whose outcome is known to be a value. -/
theorem bind_of_ok {a : α} (h : m s = (.ok a, s')) : (m >>= f) s = f a s' := by
  rw [bind_apply, h]

/-- A run that is known to succeed. -/
theorem eq_ok_of_fst {a : α} (h : (m s).1 = .ok a) : m s = (.ok a, (m s).2) := Prod.ext h rfl

/-- A first step that fails fails the sequence. -/
theorem bind_of_error {e : ε} (h : m s = (.error e, s')) : (m >>= f) s = (.error e, s') := by
  rw [bind_apply, h]

/-- What succeeds all or nothing has happened. -/
theorem atomic_of_ok {a : α} (h : m s = (.ok a, s')) : atomic m s = (.ok a, s') := by
  rw [atomic, h]

/-- What fails all or nothing has not. -/
theorem atomic_of_error {e : ε} (h : m s = (.error e, s')) : atomic m s = (.error e, s) := by
  rw [atomic, h]

/-- An attempt ends with the outcome as its value. -/
theorem attempt_of {x : Except δ α} {m : Fallible σ δ α} (h : m s = (x, s')) :
    (attempt m : Fallible σ ε (Except δ α)) s = (.ok x, s') := by
  rw [attempt, h]

@[simp] theorem gets_bind (g : σ → α) (f : α → Fallible σ ε β) (s : σ) :
    (gets g >>= f) s = f (g s) s := rfl

@[simp] theorem modify_bind (g : σ → σ) (f : PUnit → Fallible σ ε β) (s : σ) :
    (modify g >>= f) s = f ⟨⟩ (g s) := rfl

@[simp] theorem fail_bind (e : ε) (f : α → Fallible σ ε β) (s : σ) :
    ((fail e : Fallible σ ε α) >>= f) s = (.error e, s) := rfl

/-- Continue from an outcome that is known to be a value. -/
theorem except_bind_of_ok {x : Except ε α} {a : α} {g : α → Except ε β} (h : x = .ok a) :
    (x >>= g) = g a := by
  rw [h]
  rfl

theorem eachMut_cons_of_ok {ι : Type u} {f : Fallible (ι × σ) ε PUnit} {x y : ι}
    (h : f (x, s) = (.ok ⟨⟩, (y, s'))) (xs : List ι) : eachMut f (x :: xs) s
      = ((eachMut f xs s').1, (y :: (eachMut f xs s').2.1, (eachMut f xs s').2.2)) := by
  rw [eachMut, h]

theorem eachMut_cons_of_error {ι : Type u} {f : Fallible (ι × σ) ε PUnit} {x y : ι} {e : ε}
    (h : f (x, s) = (.error e, (y, s'))) (xs : List ι) :
    eachMut f (x :: xs) s = (.error e, (y :: xs, s')) := by
  rw [eachMut, h]

/-- A list in two parts: the second one is changed when the first one could be. -/
theorem eachMut_append_of_ok {ι : Type u} {f : Fallible (ι × σ) ε PUnit} (ys : List ι)
    {xs : List ι} : ∀ {xs' : List ι} {s : σ}, eachMut f xs s = (.ok ⟨⟩, (xs', s')) →
      eachMut f (xs ++ ys) s
        = ((eachMut f ys s').1, (xs' ++ (eachMut f ys s').2.1, (eachMut f ys s').2.2)) := by
  induction xs with
  | nil =>
    intro xs' s h
    cases h
    rfl
  | cons x xs ih =>
    intro xs' s h
    rcases hx : f (x, s) with ⟨e | _, y, s₁⟩
    · rw [eachMut_cons_of_error hx] at h
      cases h
    · rw [eachMut_cons_of_ok hx] at h
      rcases hxs : eachMut f xs s₁ with ⟨e | _, xs'', s₂⟩
      · rw [hxs] at h
        cases h
      · rw [hxs] at h
        cases h
        rw [List.cons_append, eachMut_cons_of_ok hx, ih hxs]
        rfl

theorem eachMut_append_of_error {ι : Type u} {f : Fallible (ι × σ) ε PUnit} {e : ε} (ys : List ι)
    {xs : List ι} : ∀ {xs' : List ι} {s : σ}, eachMut f xs s = (.error e, (xs', s')) →
      eachMut f (xs ++ ys) s = (.error e, (xs' ++ ys, s')) := by
  induction xs with
  | nil =>
    intro xs' s h
    cases h
  | cons x xs ih =>
    intro xs' s h
    rcases hx : f (x, s) with ⟨e' | _, y, s₁⟩
    · rw [eachMut_cons_of_error hx] at h
      cases h
      rw [List.cons_append, eachMut_cons_of_error hx, List.cons_append]
    · rw [eachMut_cons_of_ok hx] at h
      rcases hxs : eachMut f xs s₁ with ⟨e' | _, xs'', s₂⟩
      · rw [hxs] at h
        cases h
        rw [List.cons_append, eachMut_cons_of_ok hx, ih hxs]
        rfl
      · rw [hxs] at h
        cases h

theorem length_eachMut {ι : Type u} {f : Fallible (ι × σ) ε PUnit} (xs : List ι) : ∀ s : σ,
    (eachMut f xs s).2.1.length = xs.length := by
  induction xs with
  | nil => exact fun _ ↦ rfl
  | cons x xs ih =>
    intro s
    rcases hx : f (x, s) with ⟨e | _, y, s₁⟩
    · rw [eachMut_cons_of_error hx]
      rfl
    · rw [eachMut_cons_of_ok hx, List.length_cons, List.length_cons, ih s₁]

/-- Sequencing is associative: the second bracket may be opened. -/
theorem bind_assoc {γ : Type u} (m : Fallible σ ε α) (f : α → Fallible σ ε β)
    (g : β → Fallible σ ε γ) : (m >>= f) >>= g = m >>= fun a ↦ f a >>= g := by
  funext s
  rw [bind_apply, bind_apply, bind_apply]
  rcases m s with ⟨_ | _, _⟩ <;> rfl

/-! ## Inversion -/

/-- **Inversion of a sequence.** A sequence succeeds exactly when its first step succeeds and the
rest succeeds from there. -/
theorem bind_eq_ok {b : β} :
    (m >>= f) s = (.ok b, s') ↔ ∃ a t, m s = (.ok a, t) ∧ f a t = (.ok b, s') := by
  constructor
  · intro h
    rw [bind_apply] at h
    rcases hm : m s with ⟨_ | a, t⟩
    · rw [hm] at h
      cases h
    · rw [hm] at h
      exact ⟨a, t, rfl, h⟩
  · rintro ⟨a, t, hm, hf⟩
    rw [bind_of_ok hm, hf]

/-- A sequence fails at its first step or after it. -/
theorem bind_eq_error {e : ε} :
    (m >>= f) s = (.error e, s') ↔
      m s = (.error e, s') ∨ ∃ a t, m s = (.ok a, t) ∧ f a t = (.error e, s') := by
  constructor
  · intro h
    rw [bind_apply] at h
    rcases hm : m s with ⟨e' | a, t⟩
    · rw [hm] at h
      obtain ⟨he, rfl⟩ := Prod.mk.inj h
      rw [Except.error.inj he]
      exact .inl rfl
    · rw [hm] at h
      exact .inr ⟨a, t, rfl, h⟩
  · rintro (hm | ⟨a, t, hm, hf⟩)
    · exact bind_of_error hm
    · rw [bind_of_ok hm, hf]

@[simp] theorem pure_eq_ok {a b : α} :
    (pure a : Fallible σ ε α) s = (.ok b, s') ↔ a = b ∧ s = s' := by
  simp

theorem reading_eq_ok {f : σ → Except ε α} {a : α} :
    reading f s = (.ok a, s') ↔ f s = .ok a ∧ s = s' := by
  simp

theorem lift_eq_ok {r : Except ε α} {a : α} :
    (lift r : Fallible σ ε α) s = (.ok a, s') ↔ r = .ok a ∧ s = s' := by
  rw [lift_apply, Prod.mk.injEq]

theorem modify_eq_ok {f : σ → σ} {u : PUnit} :
    (modify f : Fallible σ ε PUnit) s = (.ok u, s') ↔ f s = s' := by
  simp

theorem require_eq_ok {p : Prop} [Decidable p] {e : ε} {u : PUnit} :
    (require p e : Fallible σ ε PUnit) s = (.ok u, s') ↔ p ∧ s = s' := by
  by_cases hp : p <;> simp [require, hp]

theorem require_of {p : Prop} [Decidable p] (hp : p) (e : ε) (s : σ) :
    (require p e : Fallible σ ε PUnit) s = (.ok ⟨⟩, s) := require_eq_ok.mpr ⟨hp, rfl⟩

theorem orElse_eq_ok {m : Fallible σ δ α} {e : ε} {a : α} :
    orElse m e s = (.ok a, s') ↔ m s = (.ok a, s') := by
  unfold orElse
  rcases m s with ⟨_ | _, _⟩ <;> simp

theorem mapError_eq_ok {g : δ → ε} {m : Fallible σ δ α} {a : α} :
    mapError g m s = (.ok a, s') ↔ m s = (.ok a, s') := by
  unfold mapError
  rcases m s with ⟨e | b, t⟩
  · change (Except.error (g e), t) = _ ↔ _
    simp
  · change (Except.ok b, t) = _ ↔ _
    simp

theorem zoom_eq_ok {get : σ → τ} {put : τ → σ → σ} {m : Fallible τ ε α} {a : α} :
    zoom get put m s = (.ok a, s') ↔ ∃ t, m (get s) = (.ok a, t) ∧ s' = put t s := by
  unfold zoom
  constructor
  · intro h
    obtain ⟨h₁, h₂⟩ := Prod.mk.inj h
    exact ⟨_, Prod.ext h₁ rfl, h₂.symm⟩
  · rintro ⟨t, ht, rfl⟩
    rw [ht]

/-- Ask, refuse or change. -/
theorem guarded_cases (g : σ → α) (p : α → Prop) [DecidablePred p] (e : ε) (f : σ → σ) (s : σ) :
    (p (g s) ∧ (do let a ← gets g; require (p a) e; modify f : Fallible σ ε PUnit) s
      = (.ok ⟨⟩, f s)) ∨ (do let a ← gets g; require (p a) e; modify f : Fallible σ ε PUnit) s
      = (.error e, s) := by
  by_cases hp : p (g s)
  · refine Or.inl ⟨hp, ?_⟩
    rw [gets_bind, require, if_pos hp]
    rfl
  · refine Or.inr ?_
    rw [gets_bind, require, if_neg hp]
    rfl

/-! ## Loops -/

section Loops

variable {ι : Type} {g : ι → Fallible σ ε PUnit} {I : List ι → σ → Prop}

/-- A loop whose every step succeeds, with an invariant on the elements done so far. -/
theorem each_total {l : List ι} (hstep : ∀ x ∈ l, ∀ d s, I d s →
    ∃ s', g x s = (.ok ⟨⟩, s') ∧ I (d ++ [x]) s') :
    ∀ {d s}, I d s → ∃ s', each g l s = (.ok ⟨⟩, s') ∧ I (d ++ l) s' := by
  induction l with
  | nil =>
    intro d s hs
    exact ⟨s, rfl, by rwa [List.append_nil]⟩
  | cons x xs ih =>
    intro d s hs
    obtain ⟨t, hx, ht⟩ := hstep x List.mem_cons_self d s hs
    obtain ⟨s', hxs, hs'⟩ := ih (fun y hy ↦ hstep y (List.mem_cons_of_mem x hy)) ht
    refine ⟨s', ?_, by rwa [List.append_assoc, List.singleton_append] at hs'⟩
    rw [each, bind_of_ok hx, hxs]

/-- A loop over an appended list is the one loop after the other. -/
theorem each_append_eq_ok {xs ys : List ι} {u : PUnit} :
    each g (xs ++ ys) s = (.ok u, s') ↔
      ∃ t, each g xs s = (.ok ⟨⟩, t) ∧ each g ys t = (.ok u, s') := by
  induction xs generalizing s with
  | nil =>
    rw [List.nil_append, each]
    constructor
    · exact fun h ↦ ⟨s, rfl, h⟩
    · rintro ⟨t, ht, h⟩
      obtain ⟨-, rfl⟩ := pure_eq_ok.mp ht
      exact h
  | cons x xs ih =>
    rw [List.cons_append, each, each, bind_eq_ok]
    constructor
    · rintro ⟨v, t, hx, h⟩
      obtain ⟨t', h₁, h₂⟩ := ih.mp h
      exact ⟨t', bind_eq_ok.mpr ⟨v, t, hx, h₁⟩, h₂⟩
    · rintro ⟨t', h₁, h₂⟩
      obtain ⟨v, t, hx, h₁⟩ := bind_eq_ok.mp h₁
      exact ⟨v, t, hx, ih.mpr ⟨t', h₁, h₂⟩⟩

theorem each_singleton_eq_ok {x : ι} {u : PUnit} :
    each g [x] s = (.ok u, s') ↔ g x s = (.ok ⟨⟩, s') := by
  rw [each, bind_eq_ok]
  constructor
  · rintro ⟨_, t, hx, h⟩
    obtain ⟨-, rfl⟩ := pure_eq_ok.mp h
    exact hx
  · exact fun h ↦ ⟨⟨⟩, s', h, rfl⟩

/-- Folds over a list with bodies that agree on its elements. -/
theorem foldlM_congr_mem {m : Type u → Type u} [Monad m] {ι : Type} {f g : β → ι → m β}
    {xs : List ι} (h : ∀ x ∈ xs, ∀ b, f b x = g b x) (b : β) : xs.foldlM f b = xs.foldlM g b := by
  induction xs generalizing b with
  | nil => rfl
  | cons x xs ih =>
    rw [List.foldlM_cons, List.foldlM_cons, h x List.mem_cons_self b]
    exact congrArg _ (funext fun c ↦ ih (fun y hy ↦ h y (List.mem_cons_of_mem x hy)) c)

/-- Reading a list of items succeeds exactly when reading each of them does. -/
theorem mapM_isOk_iff {ι : Type} {f : ι → Except ε α} {xs : List ι} :
    (∃ ys, xs.mapM f = .ok ys) ↔ ∀ x ∈ xs, ∃ y, f x = .ok y := by
  induction xs with
  | nil => exact ⟨fun _ ↦ nofun, fun _ ↦ ⟨[], rfl⟩⟩
  | cons x xs ih =>
    rw [List.mapM_cons, List.forall_mem_cons, ← ih]
    rcases hx : f x with e | y
    · exact ⟨fun ⟨_, h⟩ ↦ (nomatch h), fun ⟨⟨_, h⟩, _⟩ ↦ (nomatch h)⟩
    · rcases hxs : xs.mapM f with e | ys
      · exact ⟨fun ⟨_, h⟩ ↦ (nomatch h), fun ⟨_, _, h⟩ ↦ (nomatch h)⟩
      · exact ⟨fun _ ↦ ⟨⟨y, rfl⟩, ys, rfl⟩, fun _ ↦ ⟨y :: ys, rfl⟩⟩

end Loops

/-! ## Footprints -/

/-- Every run of `m` moves the state along `R`, whether it succeeds or fails. -/
def Moves (R : σ → σ → Prop) (m : Fallible σ ε α) : Prop := ∀ s, R s (m s).2

section Moves

variable {R : σ → σ → Prop}

theorem Moves.bind (hm : Moves R m) (htrans : ∀ {a b c}, R a b → R b c → R a c)
    (hf : ∀ a, Moves R (f a)) : Moves R (m >>= f) := by
  intro s
  have h := hm s
  rw [bind_apply]
  rcases hms : m s with ⟨_ | a, t⟩ <;> rw [hms] at h
  · exact h
  · exact htrans h (hf a t)

theorem Moves.reading (hrefl : ∀ s, R s s) (f : σ → Except ε α) : Moves R (reading f) := hrefl

theorem Moves.gets (hrefl : ∀ s, R s s) (f : σ → α) : Moves R (gets f : Fallible σ ε α) := hrefl

theorem Moves.require (hrefl : ∀ s, R s s) (p : Prop) [Decidable p] (e : ε) :
    Moves R (require p e : Fallible σ ε PUnit) := by
  intro s
  by_cases hp : p
  · rw [Fallible.require, if_pos hp]
    exact hrefl s
  · rw [Fallible.require, if_neg hp]
    exact hrefl s

/-- Behind a requirement, it is known to hold. -/
theorem Moves.require_bind {p : Prop} [Decidable p] {e : ε} {n : PUnit → Fallible σ ε α}
    (hrefl : ∀ s, R s s) (h : p → Moves R (n ⟨⟩)) : Moves R (Fallible.require p e >>= n) := by
  intro s
  rw [bind_apply]
  by_cases hp : p
  · rw [Fallible.require, if_pos hp]
    exact h hp s
  · rw [Fallible.require, if_neg hp]
    exact hrefl s

theorem Moves.lift (hrefl : ∀ s, R s s) (r : Except ε α) : Moves R (lift r : Fallible σ ε α) :=
  hrefl

theorem Moves.pure (hrefl : ∀ s, R s s) (a : α) : Moves R (pure a : Fallible σ ε α) := hrefl

theorem Moves.fail (hrefl : ∀ s, R s s) (e : ε) : Moves R (fail e : Fallible σ ε α) := hrefl

theorem Moves.modify {g : σ → σ} (h : ∀ s, R s (g s)) :
    Moves R (modify g : Fallible σ ε PUnit) := h

/-- Every run of `m` from a state with `P` moves the state along `R`. -/
def MovesFrom (P : σ → Prop) (R : σ → σ → Prop) (m : Fallible σ ε α) : Prop :=
  ∀ s, P s → R s (m s).2

theorem Moves.movesFrom {P : σ → Prop} (h : Moves R m) : MovesFrom P R m := fun s _ ↦ h s

/-- A sequence from a state with `P`, whose continuation runs from states with `Q`. -/
theorem MovesFrom.bind {P Q : σ → Prop} (hm : MovesFrom P R m)
    (htrans : ∀ {a b c}, R a b → R b c → R a c) (hPQ : ∀ s t, P s → R s t → Q t)
    (hf : ∀ a, MovesFrom Q R (f a)) : MovesFrom P R (m >>= f) := by
  intro s hs
  have h := hm s hs
  rw [bind_apply]
  rcases hms : m s with ⟨_ | a, t⟩ <;> rw [hms] at h
  · exact h
  · exact htrans h (hf a t (hPQ s t hs h))

/-- Behind a requirement on a component of the state, the component is known. -/
theorem MovesFrom.gets_require {β' : Type u} {P : σ → Prop} (hrefl : ∀ s, R s s) {g : σ → β'}
    {p : β' → Prop} [DecidablePred p] {e : ε} {n : Fallible σ ε α}
    (h : MovesFrom (fun s ↦ P s ∧ p (g s)) R n) :
    MovesFrom P R (Fallible.gets g >>= fun a ↦ Fallible.require (p a) e >>= fun _ ↦ n) := by
  intro s hs
  rw [gets_bind, bind_apply]
  by_cases hp : p (g s)
  · rw [Fallible.require, if_pos hp]
    exact h s ⟨hs, hp⟩
  · rw [Fallible.require, if_neg hp]
    exact hrefl s

/-- Every run of `m` that fails moves the state along `R`. -/
def MovesOnError (R : σ → σ → Prop) (m : Fallible σ ε α) : Prop :=
  ∀ s e, (m s).1 = .error e → R s (m s).2

/-- A sequence that fails does so in its first step, or after it. -/
theorem Moves.bind_onError (hm : Moves R m) (htrans : ∀ {a b c}, R a b → R b c → R a c)
    (hf : ∀ a, MovesOnError R (f a)) : MovesOnError R (m >>= f) := by
  intro s e he
  have h := hm s
  rw [bind_apply] at he ⊢
  rcases hms : m s with ⟨_ | a, t⟩ <;> rw [hms] at h he
  · exact h
  · exact htrans h (hf a t e he)

/-- Behind a requirement that fails on the spot or is known to hold. -/
theorem MovesOnError.require_bind {p : Prop} [Decidable p] {e : ε} {n : PUnit → Fallible σ ε α}
    (hrefl : ∀ s, R s s) (h : p → MovesOnError R (n ⟨⟩)) :
    MovesOnError R (Fallible.require p e >>= n) := by
  intro s e' he
  rw [bind_apply] at he ⊢
  by_cases hp : p
  · rw [Fallible.require, if_pos hp] at he ⊢
    exact h hp s e' he
  · rw [Fallible.require, if_neg hp]
    exact hrefl s

theorem MovesOnError.modify (g : σ → σ) :
    MovesOnError R (modify g : Fallible σ ε PUnit) := fun _ _ h ↦ nomatch h

theorem Moves.orElse {m : Fallible σ δ α} (h : Moves R m) (e : ε) :
    Moves R (Fallible.orElse m e) := by
  intro s
  have hs := h s
  rw [Fallible.orElse]
  rcases hms : m s with ⟨_ | _, _⟩ <;> rw [hms] at hs <;> exact hs

theorem Moves.mapError {m : Fallible σ δ α} (h : Moves R m) (g : δ → ε) :
    Moves R (Fallible.mapError g m) := h

theorem Moves.each {ι : Type} (hrefl : ∀ s, R s s) (htrans : ∀ {a b c}, R a b → R b c → R a c)
    {g : ι → Fallible σ ε PUnit} {xs : List ι} (h : ∀ x, Moves R (g x)) :
    Moves R (each g xs) := by
  induction xs with
  | nil => exact .pure hrefl _
  | cons x xs ih => exact (h x).bind htrans fun _ ↦ ih

end Moves

/-! ## Errors -/

/-- Every error of `m` is one of `P`. -/
def FailsIn {σ ε α : Type} (P : ε → Prop) (m : Fallible σ ε α) : Prop := ∀ s, ErrorsIn P (m s).1

section FailsIn

variable {σ τ ε δ α β : Type} {P : ε → Prop} {m : Fallible σ ε α} {f : α → Fallible σ ε β}

theorem FailsIn.bind (hm : FailsIn P m) (hf : ∀ a, FailsIn P (f a)) : FailsIn P (m >>= f) := by
  intro s
  have h := hm s
  rw [bind_apply]
  rcases hms : m s with ⟨e | a, t⟩
  · rw [hms] at h
    exact .error (h e rfl)
  · exact hf a t

theorem FailsIn.pure (a : α) : FailsIn P (pure a : Fallible σ ε α) := fun _ ↦ .ok a

theorem FailsIn.fail {e : ε} (h : P e) : FailsIn P (fail e : Fallible σ ε α) := fun _ ↦ .error h

theorem FailsIn.lift {r : Except ε α} (h : ErrorsIn P r) : FailsIn P (lift r : Fallible σ ε α) :=
  fun _ ↦ h

theorem FailsIn.reading {g : σ → Except ε α} (h : ∀ s, ErrorsIn P (g s)) :
    FailsIn P (reading g) := h

theorem FailsIn.gets (g : σ → α) : FailsIn P (gets g : Fallible σ ε α) := fun s ↦ .ok (g s)

theorem FailsIn.modify (g : σ → σ) : FailsIn P (modify g : Fallible σ ε PUnit) := fun _ ↦ .ok PUnit.unit

theorem FailsIn.require {e : ε} (h : P e) (p : Prop) [Decidable p] :
    FailsIn P (require p e : Fallible σ ε PUnit) := by
  by_cases hp : p
  · rw [Fallible.require, if_pos hp]
    exact .pure _
  · rw [Fallible.require, if_neg hp]
    exact .fail h

theorem FailsIn.orElse {e : ε} (h : P e) (n : Fallible σ δ α) : FailsIn P (orElse n e) := by
  intro s
  rw [Fallible.orElse]
  rcases n s with ⟨_ | a, _⟩
  · exact .error h
  · exact .ok a

theorem FailsIn.zoom {n : Fallible τ ε α} (h : FailsIn P n) (get : σ → τ) (put : τ → σ → σ) :
    FailsIn P (zoom get put n) := fun s ↦ h (get s)

theorem FailsIn.each {ι : Type} {g : ι → Fallible σ ε PUnit} {xs : List ι}
    (h : ∀ x, FailsIn P (g x)) : FailsIn P (each g xs) := by
  induction xs with
  | nil => exact .pure _
  | cons x xs ih => exact (h x).bind fun _ ↦ ih

end FailsIn

/-! ## Coupling two runs -/

/-- Two outcomes that agree: values related by `V`, or the same error. -/
inductive SameOutcome (V : α → β → Prop) : Except ε α → Except ε β → Prop where
  | ok {a : α} {b : β} : V a b → SameOutcome V (.ok a) (.ok b)
  | error (e : ε) : SameOutcome V (.error e) (.error e)

theorem SameOutcome.refl (r : Except ε α) : SameOutcome Eq r r := by
  cases r with
  | error e => exact .error e
  | ok a => exact .ok rfl

theorem SameOutcome.eq {r r' : Except ε α} (h : SameOutcome Eq r r') : r = r' := by
  cases h with
  | ok h => rw [h]
  | error e => rfl

/-- Outcomes that agree so far agree further when their continuations do on related values. -/
theorem SameOutcome.bind {α' β' : Type u} {V : α → β → Prop} {W : α' → β' → Prop}
    {r : Except ε α} {r' : Except ε β} {f : α → Except ε α'} {g : β → Except ε β'}
    (h : SameOutcome V r r') (hfg : ∀ a b, V a b → SameOutcome W (f a) (g b)) :
    SameOutcome W (r >>= f) (r' >>= g) := by
  cases h with
  | ok h => exact hfg _ _ h
  | error e => exact .error e

/-- From states related by `R`, the two computations end with outcomes that agree up to `V`, and
their final states are related by `R` again. -/
def Coupled (R : σ → τ → Prop) (V : α → β → Prop) (m : Fallible σ ε α) (n : Fallible τ ε β) :
    Prop :=
  ∀ s t, R s t → SameOutcome V (m s).1 (n t).1 ∧ R (m s).2 (n t).2

section Coupled

variable {α' β' : Type u} {R : σ → τ → Prop} {V : α → β → Prop} {W : α' → β' → Prop}

/-- Two coupled sequences: couple the first steps, then the continuations on related values. -/
theorem Coupled.bind {m : Fallible σ ε α} {n : Fallible τ ε β} {f : α → Fallible σ ε α'}
    {g : β → Fallible τ ε β'} (h : Coupled R V m n) (hfg : ∀ a b, V a b → Coupled R W (f a) (g b)) :
    Coupled R W (m >>= f) (n >>= g) := by
  intro s t hst
  have hmn := h s t hst
  rw [bind_apply, bind_apply]
  rcases hms : m s with ⟨r, s'⟩
  rcases hnt : n t with ⟨r', t'⟩
  rw [hms, hnt] at hmn
  obtain ⟨hv, hr⟩ := hmn
  cases hv with
  | ok hab => exact hfg _ _ hab s' t' hr
  | error e => exact ⟨.error e, hr⟩

theorem Coupled.pure {a : α} {b : β} (h : V a b) :
    Coupled R V (pure a : Fallible σ ε α) (pure b) := fun _ _ hst ↦ ⟨.ok h, hst⟩

theorem Coupled.fail (e : ε) : Coupled R V (fail e : Fallible σ ε α) (fail e) :=
  fun _ _ hst ↦ ⟨.error e, hst⟩

theorem Coupled.lift (r : Except ε α) :
    Coupled R Eq (lift r : Fallible σ ε α) (lift r : Fallible τ ε α) :=
  fun _ _ hst ↦ ⟨.refl r, hst⟩

/-- Two reads of related states that agree. -/
theorem Coupled.reading {f : σ → Except ε α} {g : τ → Except ε β}
    (h : ∀ s t, R s t → SameOutcome V (f s) (g t)) : Coupled R V (reading f) (reading g) :=
  fun s t hst ↦ ⟨h s t hst, hst⟩

/-- Two components of related states that agree. -/
theorem Coupled.gets {f : σ → α} {g : τ → β} (h : ∀ s t, R s t → V (f s) (g t)) :
    Coupled R V (gets f : Fallible σ ε α) (gets g) :=
  fun s t hst ↦ ⟨.ok (h s t hst), hst⟩

theorem Coupled.modify {g : σ → σ} {k : τ → τ} (h : ∀ s t, R s t → R (g s) (k t)) :
    Coupled R Eq (modify g : Fallible σ ε PUnit) (modify k) :=
  fun s t hst ↦ ⟨.ok rfl, h s t hst⟩

theorem Coupled.require (p : Prop) [Decidable p] (e : ε) :
    Coupled R Eq (require p e : Fallible σ ε PUnit) (require p e) := by
  by_cases hp : p
  · rw [Fallible.require, Fallible.require, if_pos hp, if_pos hp]
    exact .pure rfl
  · rw [Fallible.require, Fallible.require, if_neg hp, if_neg hp]
    exact .fail e

/-- Behind a requirement on both sides the requirement is known. -/
theorem Coupled.require_bind {p : Prop} [Decidable p] {e : ε} {m : PUnit → Fallible σ ε α}
    {n : PUnit → Fallible τ ε β} (h : p → Coupled R V (m ⟨⟩) (n ⟨⟩)) :
    Coupled R V (Fallible.require p e >>= m) (Fallible.require p e >>= n) := by
  intro s t hst
  rw [bind_apply, bind_apply]
  by_cases hp : p
  · rw [Fallible.require, Fallible.require, if_pos hp, if_pos hp]
    exact h hp s t hst
  · rw [Fallible.require, Fallible.require, if_neg hp, if_neg hp]
    exact ⟨.error e, hst⟩

/-- Coupling on a component of the state. -/
theorem Coupled.zoom {σ' τ' : Type u} {Q : σ' → τ' → Prop} {get : σ → σ'} {put : σ' → σ → σ}
    {get' : τ → τ'} {put' : τ' → τ → τ} {m : Fallible σ' ε α} {n : Fallible τ' ε β}
    (hget : ∀ s t, R s t → Q (get s) (get' t))
    (hput : ∀ s t, R s t → ∀ x y, Q x y → R (put x s) (put' y t)) (h : Coupled Q V m n) :
    Coupled R V (zoom get put m) (zoom get' put' n) := by
  intro s t hst
  obtain ⟨hv, hr⟩ := h _ _ (hget s t hst)
  exact ⟨hv, hput s t hst _ _ hr⟩

theorem Coupled.orElse {m : Fallible σ δ α} {n : Fallible τ δ β} (h : Coupled R V m n) (e : ε) :
    Coupled R V (Fallible.orElse m e) (Fallible.orElse n e) := by
  intro s t hst
  have hmn := h s t hst
  unfold Fallible.orElse
  rcases hms : m s with ⟨r, s'⟩
  rcases hnt : n t with ⟨r', t'⟩
  rw [hms, hnt] at hmn
  obtain ⟨hv, hr⟩ := hmn
  cases hv with
  | ok hab => exact ⟨.ok hab, hr⟩
  | error d => exact ⟨.error e, hr⟩

theorem Coupled.each {ι : Type} {f : ι → Fallible σ ε PUnit} {g : ι → Fallible τ ε PUnit}
    {xs : List ι} (h : ∀ x ∈ xs, Coupled R (fun _ _ ↦ True) (f x) (g x)) :
    Coupled R (fun _ _ ↦ True) (Fallible.each f xs) (Fallible.each g xs) := by
  induction xs with
  | nil => exact .pure trivial
  | cons x xs ih =>
    exact (h x List.mem_cons_self).bind fun _ _ _ ↦ ih fun y hy ↦ h y (List.mem_cons_of_mem x hy)

/-- Coupled computations with equal values have equal outcomes. -/
theorem Coupled.fst_eq {m : Fallible σ ε α} {n : Fallible τ ε α} (h : Coupled R Eq m n) {s : σ}
    {t : τ} (hst : R s t) : (m s).1 = (n t).1 := (h s t hst).1.eq

end Coupled

end Fallible

end Galdralag
