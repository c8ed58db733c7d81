import Mathlib.Data.List.Basic
import Mathlib.Data.Nat.Notation

/-!
# Records of what a system did

A run leaves a list of events, oldest first. Two statements about such lists recur:

* `Since set clear l`: a `set` event happened, and no `clear` event has happened after it;
* `Guarded justified l`: every event is justified by what came before it.

Both are kept up when events are appended at the end, which is how a run grows its record. A third
recurs where a system keeps a property only with care: it holds at every point of a run exactly if
every step of the run took care.
-/

set_option linter.all false

namespace Galdralag

variable {α : Type}

/-- A `set` event happened in `l`, and no `clear` event after it. -/
def Since (set clear : α → Prop) (l : List α) : Prop :=
  ∃ pre e post, l = pre ++ e :: post ∧ set e ∧ ∀ x ∈ post, ¬ clear x

/-- Every event of `l` is justified by the events before it. -/
def Guarded (justified : List α → α → Prop) (l : List α) : Prop :=
  ∀ pre e post, l = pre ++ e :: post → justified pre e

variable {set clear : α → Prop} {justified : List α → α → Prop} {l l' : List α} {e : α}

/-- Events that do not clear keep what was set. -/
theorem Since.append (h : Since set clear l) (hl : ∀ x ∈ l', ¬ clear x) :
    Since set clear (l ++ l') := by
  obtain ⟨pre, e, post, rfl, hset, hpost⟩ := h
  refine ⟨pre, e, post ++ l', ?_, hset, ?_⟩
  · rw [List.append_assoc, List.cons_append]
  · intro x hx
    rcases List.mem_append.mp hx with hx | hx
    · exact hpost x hx
    · exact hl x hx

/-- A set event at the end. -/
theorem Since.concat (l : List α) (h : set e) : Since set clear (l ++ [e]) :=
  ⟨l, e, [], rfl, h, nofun⟩

/-- One more event: it sets, or it does not clear what was set before. -/
theorem since_concat_iff :
    Since set clear (l ++ [e]) ↔ set e ∨ ¬ clear e ∧ Since set clear l := by
  constructor
  · rintro ⟨pre, x, post, heq, hset, hpost⟩
    rcases post.eq_nil_or_concat' with rfl | ⟨post, y, rfl⟩
    · obtain ⟨-, hlast⟩ := List.append_inj' heq rfl
      obtain rfl : e = x := (List.cons.inj hlast).1
      exact .inl hset
    · rw [← List.cons_append, ← List.append_assoc] at heq
      obtain ⟨hfront, hlast⟩ := List.append_inj' heq rfl
      obtain rfl : e = y := (List.cons.inj hlast).1
      refine .inr ⟨hpost e (List.mem_append_right _ (List.mem_singleton_self e)), pre, x, post, ?_,
        hset, fun z hz ↦ hpost z (List.mem_append_left _ hz)⟩
      exact hfront
  · rintro (hset | ⟨hclear, h⟩)
    · exact Since.concat l hset
    · refine h.append fun x hx ↦ ?_
      rwa [List.mem_singleton.mp hx]

/-- What was set before an event that clears does not count any more. -/
theorem Since.after (h : Since set clear (l ++ e :: l')) (hclear : clear e) (hset : ¬ set e) :
    Since set clear l' := by
  obtain ⟨pre, x, post, heq, hx, hpost⟩ := h
  rcases List.append_eq_append_iff.mp heq with ⟨mid, -, hmid⟩ | ⟨mid, -, hmid⟩
  · rcases mid with _ | ⟨y, mid⟩
    · obtain ⟨rfl, -⟩ := List.cons.inj hmid
      exact absurd hx hset
    · obtain ⟨-, rfl⟩ := List.cons.inj hmid
      exact ⟨mid, x, post, rfl, hx, hpost⟩
  · rcases mid with _ | ⟨y, mid⟩
    · obtain ⟨rfl, -⟩ := List.cons.inj hmid
      exact absurd hx hset
    · obtain ⟨-, rfl⟩ := List.cons.inj hmid
      exact absurd hclear (hpost e (List.mem_append_right mid List.mem_cons_self))

theorem guarded_nil : Guarded justified [] := by
  intro pre e post h
  cases pre <;> cases h

/-- Appended events are justified by the whole record before them. -/
theorem Guarded.append (h : Guarded justified l)
    (hl : ∀ pre e post, l' = pre ++ e :: post → justified (l ++ pre) e) :
    Guarded justified (l ++ l') := by
  intro pre e post heq
  rcases List.append_eq_append_iff.mp heq with ⟨mid, hpre, hmid⟩ | ⟨mid, hl', hmid⟩
  · rw [hpre]
    exact hl mid e post hmid
  · rcases mid with _ | ⟨x, mid⟩
    · rw [List.nil_append] at hmid
      rw [List.append_nil] at hl'
      have := hl [] e post hmid.symm
      rwa [List.append_nil, hl'] at this
    · obtain ⟨rfl, -⟩ := List.cons.inj hmid
      exact h pre e mid hl'

theorem Guarded.concat (h : Guarded justified l) (he : justified l e) :
    Guarded justified (l ++ [e]) := by
  refine h.append fun pre x post heq ↦ ?_
  obtain ⟨rfl, rfl⟩ : pre = [] ∧ x = e := by
    rcases pre with _ | ⟨y, pre⟩
    · exact ⟨rfl, (List.cons.inj heq).1.symm⟩
    · exact absurd (List.cons.inj heq).2.symm (List.append_ne_nil_of_right_ne_nil _ nofun)
  rwa [List.append_nil]

/-- A part of a guarded record is guarded by itself, where nothing before it matters. -/
theorem Guarded.part (h : Guarded justified (l ++ l'))
    (hpart : ∀ pre e, justified (l ++ pre) e → justified pre e) : Guarded justified l' := by
  rintro pre e post rfl
  exact hpart pre e (h (l ++ pre) e post (List.append_assoc l pre (e :: post)).symm)

/-! ## Properties that steps may break -/

section Prefixes

variable {σ : Type*} {step : σ → α → σ} {P : σ → Prop} {C : σ → α → Prop}

/-- Every step of the empty run. -/
theorem steps_nil {s : σ} : ∀ pre a, pre ++ [a] <+: [] → C (pre.foldl step s) a := by
  intro pre a hpre
  have hne := List.append_ne_nil_of_right_ne_nil pre (List.cons_ne_nil a [])
  exact absurd (List.prefix_nil.mp hpre) hne

/-- Every step of a run is its first or one of the others. -/
theorem steps_cons_iff {s : σ} {x : α} {as : List α} :
    (∀ pre a, pre ++ [a] <+: x :: as → C (pre.foldl step s) a) ↔
      C s x ∧ ∀ pre a, pre ++ [a] <+: as → C (pre.foldl step (step s x)) a := by
  constructor
  · intro h
    refine ⟨h [] x (List.prefix_append [x] as), fun pre a hpre ↦ ?_⟩
    exact h (x :: pre) a (List.cons_prefix_cons.mpr ⟨rfl, hpre⟩)
  · rintro ⟨hfirst, htail⟩ pre a hpre
    cases pre with
    | nil =>
      obtain ⟨rfl, -⟩ := List.cons_prefix_cons.mp hpre
      exact hfirst
    | cons y pre =>
      obtain ⟨rfl, hrest⟩ := List.cons_prefix_cons.mp hpre
      exact htail pre a hrest

/-- What steps with `C` keep, a run of such steps keeps. -/
theorem run_of_steps (hstep : ∀ {s} a, P s → C s a → P (step s a)) (as : List α) :
    ∀ {s}, P s → (∀ pre a, pre ++ [a] <+: as → C (pre.foldl step s) a) → P (as.foldl step s) := by
  induction as with
  | nil => exact fun hs _ ↦ hs
  | cons x as ih =>
    intro s hs hsteps
    obtain ⟨hfirst, htail⟩ := steps_cons_iff.mp hsteps
    exact ih (hstep x hs hfirst) htail

/-- **From steps to runs.** Where, under an invariant that steps with `C` keep, a step keeps `P`
exactly if it has `C`, a run has `P` at every point exactly if all its steps have `C`. -/
theorem prefixes_iff_of_invariant {I : σ → Prop}
    (hstep : ∀ {s} a, I s → P s → (P (step s a) ↔ C s a))
    (hinv : ∀ {s} a, I s → P s → C s a → I (step s a)) (as : List α) :
    ∀ {s}, I s → P s → ((∀ pre, pre <+: as → P (pre.foldl step s)) ↔
      ∀ pre a, pre ++ [a] <+: as → C (pre.foldl step s) a) := by
  induction as with
  | nil =>
    intro s _ hs
    refine iff_of_true (fun pre hpre ↦ ?_) steps_nil
    rwa [List.prefix_nil.mp hpre]
  | cons x as ih =>
    intro s hi hs
    rw [steps_cons_iff]
    constructor
    · intro h
      have hnext : P (step s x) := h [x] (List.prefix_append [x] as)
      have hfirst : C s x := (hstep x hi hs).mp hnext
      exact ⟨hfirst, (ih (hinv x hi hs hfirst) hnext).mp fun pre hpre ↦
        h (x :: pre) (List.cons_prefix_cons.mpr ⟨rfl, hpre⟩)⟩
    · rintro ⟨hfirst, hsteps⟩
      have hnext := (hstep x hi hs).mpr hfirst
      have htail := (ih (hinv x hi hs hfirst) hnext).mpr hsteps
      intro pre hpre
      cases pre with
      | nil => exact hs
      | cons y pre =>
        obtain ⟨rfl, hrest⟩ := List.cons_prefix_cons.mp hpre
        exact htail pre hrest

/-- The same without an invariant. -/
theorem prefixes_iff (hstep : ∀ {s} a, P s → (P (step s a) ↔ C s a)) (as : List α) :
    ∀ {s}, P s → ((∀ pre, pre <+: as → P (pre.foldl step s)) ↔
      ∀ pre a, pre ++ [a] <+: as → C (pre.foldl step s) a) := by
  intro s hs
  refine prefixes_iff_of_invariant (I := fun _ ↦ True) ?_ ?_ as trivial hs
  · exact fun a _ hs ↦ hstep a hs
  · exact fun _ _ _ _ ↦ trivial

end Prefixes

end Galdralag
