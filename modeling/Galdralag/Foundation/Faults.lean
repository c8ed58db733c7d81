import Galdralag.Foundation.Fallible
import Mathlib.Data.List.Basic

/-!
# Scripted faults

A read that fails may succeed the next time it is tried, with nothing changed in between. A storage
that reads its answers off the state cannot behave like that. Here the faults come from a script
beside the state: every risky read takes the next entry, and fails or not as the entry says.

Two things are said of a scripted computation. Without a script it is a plain computation,
`WithoutFaults`. And it makes a number of reads and then ends, `AfterReads`: all depends on whether
one of these reads fails.
-/

set_option linter.all false

namespace Galdralag

universe u

/-- A state, and what becomes of the reads ahead: each fails with an error or does not. The reads
behind the last entry do not fail. -/
abbrev Scripted (δ σ : Type u) : Type u := σ × List (Option δ)

namespace Fallible

variable {σ τ ε γ δ α β : Type u}

/-- Take the next entry of the script. -/
def meet : Fallible (Scripted δ σ) δ PUnit := fun s ↦
  match s.2 with
  | [] => (.ok ⟨⟩, s)
  | none :: script => (.ok ⟨⟩, (s.1, script))
  | some e :: script => (.error e, (s.1, script))

/-- A read that fails if the script says so. -/
def risky (f : σ → Except δ α) : Fallible (Scripted δ σ) δ α := do
  meet
  .reading fun s ↦ f s.1

/-- A computation that the script has no part in. -/
def safely (m : Fallible σ ε α) : Fallible (Scripted δ σ) ε α :=
  .zoom Prod.fst (fun a s ↦ (a, s.2)) m

/-- Run a scripted computation on a component of the state. -/
def within (get : σ → τ) (put : τ → σ → σ) (m : Fallible (Scripted δ τ) ε α) :
    Fallible (Scripted δ σ) ε α :=
  .zoom (fun s ↦ (get s.1, s.2)) (fun t s ↦ (put t.1 s.1, t.2)) m

/-! ## Scripts -/

/-- None of the next `n` reads fails. -/
def Clear (n : ℕ) (script : List (Option δ)) : Prop := ∀ i < n, (script[i]?).join = none

instance (n : ℕ) (script : List (Option δ)) : Decidable (Clear n script) :=
  inferInstanceAs (Decidable (∀ i < n, (script[i]?).join = none))

theorem clear_zero (script : List (Option δ)) : Clear 0 script := fun _ h ↦ absurd h (Nat.not_lt_zero _)

theorem clear_nil (n : ℕ) : Clear n ([] : List (Option δ)) := fun _ _ ↦ rfl

theorem clear_add {n k : ℕ} {script : List (Option δ)} :
    Clear (n + k) script ↔ Clear n script ∧ Clear k (script.drop n) := by
  constructor
  · intro h
    refine ⟨fun i hi ↦ h i (by omega), fun i hi ↦ ?_⟩
    rw [List.getElem?_drop]
    exact h (n + i) (by omega)
  · rintro ⟨hn, hk⟩ i hi
    by_cases hin : i < n
    · exact hn i hin
    · have hlast := hk (i - n) (by omega)
      rwa [List.getElem?_drop, Nat.add_sub_of_le (Nat.not_lt.mp hin)] at hlast

theorem meet_of_clear {script : List (Option δ)} (h : Clear 1 script) (a : σ) :
    meet (a, script) = (.ok ⟨⟩, (a, script.drop 1)) := by
  rcases script with _ | ⟨_ | e, script⟩
  · rfl
  · rfl
  · cases h 0 Nat.zero_lt_one

theorem meet_of_fault {script : List (Option δ)} (h : ¬ Clear 1 script) (a : σ) :
    ∃ e, meet (a, script) = (.error e, (a, script.drop 1)) := by
  rcases script with _ | ⟨_ | e, script⟩
  · exact absurd (clear_nil 1) h
  · refine absurd (fun i hi ↦ ?_) h
    rw [Nat.lt_one_iff.mp hi]
    rfl
  · exact ⟨e, rfl⟩

/-! ## Without faults -/

/-- With an empty script the scripted computation is the plain one. -/
def WithoutFaults (m : Fallible σ ε α) (m' : Fallible (Scripted δ σ) ε α) : Prop :=
  ∀ a, m' (a, []) = ((m a).1, ((m a).2, []))

section WithoutFaults

variable {m : Fallible σ ε α} {m' : Fallible (Scripted δ σ) ε α}

theorem WithoutFaults.bind {f : α → Fallible σ ε β} {f' : α → Fallible (Scripted δ σ) ε β}
    (hm : WithoutFaults m m') (hf : ∀ r, WithoutFaults (f r) (f' r)) :
    WithoutFaults (m >>= f) (m' >>= f') := by
  intro a
  rw [bind_apply, bind_apply, hm]
  rcases m a with ⟨e | r, b⟩
  · rfl
  · exact hf r b

theorem WithoutFaults.pure (r : α) :
    WithoutFaults (pure r : Fallible σ ε α) (pure r : Fallible (Scripted δ σ) ε α) := fun _ ↦ rfl

theorem WithoutFaults.fail (e : ε) :
    WithoutFaults (fail e : Fallible σ ε α) (fail e : Fallible (Scripted δ σ) ε α) := fun _ ↦ rfl

theorem WithoutFaults.risky (f : σ → Except δ α) : WithoutFaults (reading f) (risky f) := fun _ ↦ rfl

theorem WithoutFaults.safely (m : Fallible σ ε α) :
    WithoutFaults m (safely m : Fallible (Scripted δ σ) ε α) := fun _ ↦ rfl

theorem WithoutFaults.require (p : Prop) [Decidable p] (e : ε) :
    WithoutFaults (require p e : Fallible σ ε PUnit) (require p e : Fallible (Scripted δ σ) ε PUnit) := by
  intro a
  rw [Fallible.require, Fallible.require]
  split_ifs <;> rfl

theorem WithoutFaults.orElse (h : WithoutFaults m m') (e : γ) :
    WithoutFaults (orElse m e) (orElse m' e) := by
  intro a
  rw [Fallible.orElse, Fallible.orElse, h]
  rcases m a with ⟨_ | _, _⟩ <;> rfl

theorem WithoutFaults.mapError (h : WithoutFaults m m') (g : ε → γ) :
    WithoutFaults (mapError g m) (mapError g m') := by
  intro a
  rw [Fallible.mapError, Fallible.mapError, h]

theorem WithoutFaults.attempt (h : WithoutFaults m m') :
    WithoutFaults (attempt m : Fallible σ γ _) (attempt m') := by
  intro a
  rw [Fallible.attempt, Fallible.attempt, h]

theorem WithoutFaults.within {n : Fallible τ ε α} {n' : Fallible (Scripted δ τ) ε α}
    (h : WithoutFaults n n') (get : σ → τ) (put : τ → σ → σ) :
    WithoutFaults (zoom get put n) (within get put n') := by
  intro a
  rw [Fallible.within, zoom, zoom, h]

end WithoutFaults

/-! ## Moves under faults -/

section Moves

variable {R : σ → σ → Prop}

/-- Relate the states and not the scripts. -/
def BesideScript (R : σ → σ → Prop) (s s' : Scripted δ σ) : Prop := R s.1 s'.1

/-- A risky read leaves the state alone, whether it fails or not. -/
theorem Moves.risky (hrefl : ∀ a, R a a) (f : σ → Except δ α) :
    Moves (BesideScript (δ := δ) R) (risky f) := by
  rintro ⟨a, _ | ⟨_ | e, script⟩⟩
  · exact hrefl a
  · exact hrefl a
  · exact hrefl a

theorem Moves.safely {m : Fallible σ ε α} (h : Moves R m) :
    Moves (BesideScript (δ := δ) R) (safely m) := fun s ↦ h s.1

theorem Moves.within {Q : τ → τ → Prop} {n : Fallible (Scripted δ τ) ε α} (h : Moves (BesideScript Q) n)
    {get : σ → τ} {put : τ → σ → σ} (hput : ∀ a b, Q (get a) b → R a (put b a)) :
    Moves (BesideScript R) (within get put n) := fun s ↦ hput s.1 _ (h (get s.1, s.2))

end Moves

/-! ## A number of reads -/

/-- **After `n` reads.** If none of them fails the computation ends with `r` and the state `b`; else
it ends with an error and the state is as before. -/
structure AfterReads (n : ℕ) (m : Fallible (Scripted δ σ) ε α) (a : σ) (r : α) (b : σ) : Prop where
  clear : ∀ script, Clear n script → m (a, script) = (.ok r, (b, script.drop n))
  faulty : ∀ script, ¬ Clear n script → ∃ e script', m (a, script) = (.error e, (a, script'))

section AfterReads

variable {n k : ℕ} {m : Fallible (Scripted δ σ) ε α} {a b : σ} {r : α}

theorem AfterReads.pure (r : α) (a : σ) :
    AfterReads 0 (pure r : Fallible (Scripted δ σ) ε α) a r a :=
  ⟨fun _ _ ↦ rfl, fun script h ↦ absurd (clear_zero script) h⟩

theorem AfterReads.safely {m : Fallible σ ε α} (h : m a = (.ok r, b)) :
    AfterReads 0 (safely m : Fallible (Scripted δ σ) ε α) a r b := by
  refine ⟨fun script _ ↦ ?_, fun script hscript ↦ absurd (clear_zero script) hscript⟩
  rw [Fallible.safely, zoom]
  dsimp only
  rw [h]
  rfl

theorem AfterReads.risky {f : σ → Except δ α} (h : f a = .ok r) : AfterReads 1 (risky f) a r a := by
  constructor
  · intro script hscript
    rw [Fallible.risky, bind_of_ok (meet_of_clear hscript a), reading_apply]
    exact congrArg (fun x ↦ (x, (a, script.drop 1))) h
  · intro script hscript
    obtain ⟨e, hmeet⟩ := meet_of_fault hscript a
    exact ⟨e, _, bind_of_error hmeet⟩

/-- Reads before reads. Nothing may have changed when the later ones fail. -/
theorem AfterReads.bind {f : α → Fallible (Scripted δ σ) ε β} {r' : β} (hm : AfterReads n m a r a)
    (hf : AfterReads k (f r) a r' b) : AfterReads (n + k) (m >>= f) a r' b := by
  constructor
  · intro script hscript
    obtain ⟨hn, hk⟩ := clear_add.mp hscript
    rw [bind_of_ok (hm.clear script hn), hf.clear _ hk, List.drop_drop]
  · intro script hscript
    by_cases hn : Clear n script
    · have hk : ¬ Clear k (script.drop n) := fun hk ↦ hscript (clear_add.mpr ⟨hn, hk⟩)
      rw [bind_of_ok (hm.clear script hn)]
      exact hf.faulty _ hk
    · obtain ⟨e, script', hrun⟩ := hm.faulty script hn
      exact ⟨e, script', bind_of_error hrun⟩

theorem AfterReads.mapError (h : AfterReads n m a r b) (g : ε → γ) :
    AfterReads n (mapError g m) a r b := by
  constructor
  · intro script hscript
    rw [Fallible.mapError, h.clear script hscript]
    rfl
  · intro script hscript
    obtain ⟨e, script', hrun⟩ := h.faulty script hscript
    refine ⟨g e, script', ?_⟩
    rw [Fallible.mapError, hrun]
    rfl

theorem AfterReads.orElse (h : AfterReads n m a r b) (e : γ) : AfterReads n (orElse m e) a r b := by
  constructor
  · intro script hscript
    rw [Fallible.orElse, h.clear script hscript]
  · intro script hscript
    obtain ⟨_, script', hrun⟩ := h.faulty script hscript
    refine ⟨e, script', ?_⟩
    rw [Fallible.orElse, hrun]

end AfterReads

end Fallible

end Galdralag
