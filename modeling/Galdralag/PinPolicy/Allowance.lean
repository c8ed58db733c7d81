import Galdralag.PinPolicy.Machine
import Mathlib.Data.List.Basic
import Mathlib.Data.Set.Basic
import Mathlib.Order.Bounds.Defs

/-!
# The allowance of wrong PINs

A success refunds one charge, and that is its own. What wrong PINs charged before it stays on the
counter: a success restores nothing, and a token that is used long enough is wiped by a few
scattered typing errors, however many right PINs come between them.
-/

set_option linter.all false

namespace Galdralag

namespace PinPolicyMachine

variable {W : Type} (counter : MonotonicCounter W) (zeroisation : ZeroisationTrigger W)

/-! ## Runs of attempts -/

/-- An attempt with the right PIN or a wrong one. -/
def tryPin (right : Bool) : Fallible (PinPolicyMachine × W) HalError PinOutcome :=
  submitAttempt counter zeroisation fun w ↦ (right, w)

/-- What is left after some attempts. -/
def afterTries (s : PinPolicyMachine × W) (tries : List Bool) : PinPolicyMachine × W :=
  tries.foldl (fun s right ↦ (tryPin counter zeroisation right s).2) s

/-- The answers to some attempts. -/
def answers : PinPolicyMachine × W → List Bool → List (Except HalError PinOutcome)
  | _, [] => []
  | s, right :: tries => (tryPin counter zeroisation right s).1 ::
      answers (tryPin counter zeroisation right s).2 tries

/-- Wrong PINs in a row are always fewer than the limit. -/
def Spaced (max : UInt32) (tries : List Bool) : Prop :=
  ∀ n, 0 < n → List.replicate n false <:+: tries → n < max.toNat

/-- How many wrong PINs in a row are answered without a breach. -/
def allowed (s : PinPolicyMachine × W) : Set ℕ :=
  {n | .ok .breach ∉ answers counter zeroisation s (List.replicate n false)}

/-- No attempt of a run is answered with a breach, and a success after the attempts `pre` leaves
`left pre` wrong PINs. -/
structure Allows (left : List Bool → ℕ) (s : PinPolicyMachine × W) (tries : List Bool) : Prop where
  neverBreached : .ok .breach ∉ answers counter zeroisation s tries
  successes : ∀ pre right, pre ++ [right] <+: tries →
    (tryPin counter zeroisation right (afterTries counter zeroisation s pre)).1 = .ok .success →
    IsGreatest (allowed counter zeroisation (afterTries counter zeroisation s (pre ++ [right])))
      (left pre)

variable {counter zeroisation} {max : UInt32} {s : PinPolicyMachine × W} {tries : List Bool}
  {right : Bool} {left : List Bool → ℕ}

theorem allows_nil : Allows counter zeroisation left s [] where
  neverBreached := List.not_mem_nil
  successes pre right hpre := by
    have hne := List.append_ne_nil_of_right_ne_nil pre (List.cons_ne_nil right [])
    exact absurd (List.prefix_nil.mp hpre) hne

/-- One attempt before others. -/
theorem allows_cons : Allows counter zeroisation left s (right :: tries) ↔
    (tryPin counter zeroisation right s).1 ≠ .ok .breach ∧
      ((tryPin counter zeroisation right s).1 = .ok .success →
        IsGreatest (allowed counter zeroisation (tryPin counter zeroisation right s).2) (left [])) ∧
      Allows counter zeroisation (fun pre ↦ left (right :: pre))
        (tryPin counter zeroisation right s).2 tries := by
  constructor
  · rintro ⟨hnever, hsuccesses⟩
    rw [answers, List.mem_cons, not_or] at hnever
    refine ⟨fun h ↦ hnever.1 h.symm, hsuccesses [] right (List.prefix_append [right] tries), ?_⟩
    refine ⟨hnever.2, fun pre last hpre ↦ ?_⟩
    exact hsuccesses (right :: pre) last (List.cons_prefix_cons.mpr ⟨rfl, hpre⟩)
  · rintro ⟨hfirst, hsuccess, htail⟩
    constructor
    · rw [answers, List.mem_cons, not_or]
      exact ⟨fun h ↦ hfirst h.symm, htail.neverBreached⟩
    · intro pre last hpre
      cases pre with
      | nil =>
        obtain ⟨rfl, -⟩ := List.cons_prefix_cons.mp hpre
        exact hsuccess
      | cons first pre =>
        obtain ⟨rfl, hrest⟩ := List.cons_prefix_cons.mp hpre
        exact htail.successes pre last hrest

theorem mem_allowed_succ {n : ℕ} : n + 1 ∈ allowed counter zeroisation s ↔
    (tryPin counter zeroisation false s).1 ≠ .ok .breach ∧
      n ∈ allowed counter zeroisation (tryPin counter zeroisation false s).2 := by
  rw [allowed, Set.mem_ofPred_eq, List.replicate_succ, answers, List.mem_cons, not_or, eq_comm]
  rfl

/-! ## One attempt -/

/-- A machine with this limit that is not bricked. -/
structure Live (max : UInt32) (s : PinPolicyMachine × W) : Prop where
  live : s.1.state ≠ .bricked
  config : s.1.config.maxAttempts = max

/-- What an admitted attempt does. -/
structure Admitted (value : W → UInt32) (max : UInt32) (right : Bool) (s : PinPolicyMachine × W)
    (r : Except HalError PinOutcome × PinPolicyMachine × W) : Prop where
  answer : r.1 ≠ .ok .breach
  success : r.1 = .ok .success ↔ right = true
  live : Live max r.2
  count : value r.2.2 = if right then saturatingSub (saturatingAdd (value s.2) 1) 1
    else saturatingAdd (value s.2) 1

section Attempts

variable {value : W → UInt32} (hpersist : counter.Persistent value) (h : Live max s)
include hpersist h

/-- Within the limit an attempt is admitted. -/
theorem Live.admitted (hle : saturatingAdd (value s.2) 1 ≤ max) (right : Bool) :
    Admitted value max right s (tryPin counter zeroisation right s) := by
  obtain ⟨m, w⟩ := s
  obtain ⟨hlive, hconfig⟩ := h
  have hcharge := hpersist.increment_run w
  have hlimit : ¬ m.config.maxAttempts < saturatingAdd (value w) 1 := by
    rw [hconfig]
    exact UInt32.not_lt.mpr hle
  cases right with
  | true =>
    rw [tryPin, submitAttempt_success hlive hcharge hlimit rfl]
    refine ⟨?_, iff_of_true rfl rfl, ⟨?_, hconfig⟩, ?_⟩
    · rintro ⟨⟩
    · rintro ⟨⟩
    · rw [if_pos rfl, hpersist.value_refund, hpersist.value_increment]
  | false =>
    rw [tryPin, submitAttempt_failed hlive hcharge hlimit rfl]
    refine ⟨?_, iff_of_false ?_ Bool.false_ne_true, ⟨?_, hconfig⟩, ?_⟩
    · rintro ⟨⟩
    · rintro ⟨⟩
    · rintro ⟨⟩
    · rw [if_neg Bool.false_ne_true, hpersist.value_increment]

/-- Over the limit it is a breach. -/
theorem Live.breach (hgt : max < saturatingAdd (value s.2) 1) (right : Bool) :
    (tryPin counter zeroisation right s).1 = .ok .breach := by
  obtain ⟨m, w⟩ := s
  rw [← h.config] at hgt
  rw [tryPin, submitAttempt_breach h.live (hpersist.increment_run w) hgt]

end Attempts

/-! ## Runs -/

/-- Where the limit can be exceeded, a charge within it is not saturated. -/
theorem saturatingAdd_one_le_iff (hmax : max ≠ u32Max) (v : UInt32) :
    saturatingAdd v 1 ≤ max ↔ v.toNat + 1 ≤ max.toNat := by
  have hlast : max.toNat ≠ 2 ^ 32 - 1 := fun h ↦ hmax (UInt32.toNat_inj.mp h)
  have hlt := max.toNat_lt
  rw [UInt32.le_iff_toNat_le, toNat_saturatingAdd, UInt32.toNat_one]
  omega

/-- The charge of an admitted attempt stays if the PIN was wrong, and is taken back if it was not.
-/
theorem Admitted.toNat_count {value : W → UInt32}
    {r : Except HalError PinOutcome × PinPolicyMachine × W} (h : Admitted value max right s r)
    (hle : (value s.2).toNat + 1 ≤ max.toNat) :
    (value r.2.2).toNat = (value s.2).toNat + if right then 0 else 1 := by
  have hlt := max.toNat_lt
  rw [h.count]
  cases right
  · rw [if_neg Bool.false_ne_true, if_neg Bool.false_ne_true, toNat_saturatingAdd, UInt32.toNat_one]
    omega
  · rw [if_pos rfl, if_pos rfl, toNat_saturatingSub, toNat_saturatingAdd, UInt32.toNat_one]
    omega

section Runs

variable {value : W → UInt32} (hpersist : counter.Persistent value)
include hpersist

/-- The allowance is what the count leaves of the limit. -/
theorem Live.mem_allowed (hmax : max ≠ u32Max) {n : ℕ} (h : Live max s) :
    n ∈ allowed counter zeroisation s ↔ n = 0 ∨ (value s.2).toNat + n ≤ max.toNat := by
  induction n generalizing s with
  | zero => exact iff_of_true List.not_mem_nil (.inl rfl)
  | succ n ih =>
    rw [mem_allowed_succ]
    by_cases hle : (value s.2).toNat + 1 ≤ max.toNat
    · have hadmitted : Admitted value max false s (tryPin counter zeroisation false s) :=
        h.admitted hpersist ((saturatingAdd_one_le_iff hmax _).mpr hle) false
      have hcount := hadmitted.toNat_count hle
      rw [and_iff_right hadmitted.answer, ih hadmitted.live, hcount, if_neg Bool.false_ne_true]
      omega
    · have hgt := UInt32.not_le.mp (mt (saturatingAdd_one_le_iff hmax _).mp hle)
      refine iff_of_false (fun hn ↦ hn.1 (h.breach hpersist hgt false)) ?_
      omega

theorem Live.isGreatest_allowed (hmax : max ≠ u32Max) (h : Live max s) :
    IsGreatest (allowed counter zeroisation s) (max.toNat - (value s.2).toNat) := by
  refine ⟨(h.mem_allowed hpersist hmax).mpr (by omega), fun n hn ↦ ?_⟩
  have hmem := (h.mem_allowed hpersist hmax).mp hn
  omega

/-- With the largest limit no number of wrong PINs is too many. -/
theorem Live.not_isGreatest_allowed (hmax : max = u32Max) (h : Live max s) (n : ℕ) :
    ¬ IsGreatest (allowed counter zeroisation s) n := by
  have hmem : ∀ (k : ℕ) (s : PinPolicyMachine × W), Live max s → k ∈ allowed counter zeroisation s := by
    intro k
    induction k with
    | zero => exact fun _ _ ↦ List.not_mem_nil
    | succ k ih =>
      intro s hs
      have hle : saturatingAdd (value s.2) 1 ≤ max := by
        have hlt := (saturatingAdd (value s.2) 1).toNat_lt
        rw [hmax, UInt32.le_iff_toNat_le]
        change _ ≤ 2 ^ 32 - 1
        omega
      have hadmitted : Admitted value max false s (tryPin counter zeroisation false s) :=
        hs.admitted hpersist hle false
      exact mem_allowed_succ.mpr ⟨hadmitted.answer, ih _ hadmitted.live⟩
  intro hgreatest
  have hle := hgreatest.2 (hmem (n + 1) s h)
  omega

/-- **Successes.** In a run in which every attempt finds the count below the limit, none is answered
with a breach, and a success leaves what was left before it: the limit less all that was charged at
the start and by the wrong PINs so far. -/
theorem Live.allows_left (hmax : max ≠ u32Max) (h : Live max s)
    (hroom : ∀ pre right, pre ++ [right] <+: tries →
      (value s.2).toNat + pre.count false < max.toNat) :
    Allows counter zeroisation
      (fun pre ↦ max.toNat - ((value s.2).toNat + pre.count false)) s tries := by
  induction tries generalizing s with
  | nil => exact allows_nil
  | cons right tries ih =>
    have hle : (value s.2).toNat + 1 ≤ max.toNat := hroom [] right (List.prefix_append [right] tries)
    have hadmitted : Admitted value max right s (tryPin counter zeroisation right s) :=
      h.admitted hpersist ((saturatingAdd_one_le_iff hmax _).mpr hle) right
    have hcount := hadmitted.toNat_count hle
    have hcons : ∀ pre : List Bool, (value (tryPin counter zeroisation right s).2.2).toNat
        + pre.count false = (value s.2).toNat + (right :: pre).count false := by
      intro pre
      rw [hcount, List.count_cons]
      cases right
      · rw [if_neg Bool.false_ne_true, if_pos (beq_self_eq_true false)]
        omega
      · rfl
    rw [allows_cons]
    refine ⟨hadmitted.answer, fun hsuccess ↦ ?_, ?_⟩
    · have hgreatest : IsGreatest (allowed counter zeroisation (tryPin counter zeroisation right s).2) _ :=
        hadmitted.live.isGreatest_allowed hpersist hmax
      rw [hcount, if_pos (hadmitted.success.mp hsuccess)] at hgreatest
      exact hgreatest
    · have htail := ih hadmitted.live fun pre last hpre ↦ by
        rw [hcons]
        exact hroom (right :: pre) last (List.cons_prefix_cons.mpr ⟨rfl, hpre⟩)
      simp only [hcons] at htail
      exact htail

/-- **Full allowance.** Nothing is breached and every success is followed by `max` tries exactly
when all right PINs come first, on a counter at zero, and the wrong ones stay within the limit. -/
theorem Live.allows_max_iff (hmax : max ≠ u32Max) (h : Live max s) :
    Allows counter zeroisation (fun _ ↦ max.toNat) s tries ↔ ∃ rights wrongs,
      tries = List.replicate rights true ++ List.replicate wrongs false ∧
        (rights ≠ 0 → (value s.2).toNat = 0 ∧ max.toNat ≠ 0) ∧
        (wrongs ≠ 0 → (value s.2).toNat + wrongs ≤ max.toNat) := by
  induction tries generalizing s with
  | nil => exact iff_of_true allows_nil ⟨0, 0, rfl, by omega, by omega⟩
  | cons right tries ih =>
    rw [allows_cons]
    by_cases hle : (value s.2).toNat + 1 ≤ max.toNat
    · have hadmitted : Admitted value max right s (tryPin counter zeroisation right s) :=
        h.admitted hpersist ((saturatingAdd_one_le_iff hmax _).mpr hle) right
      have hcount := hadmitted.toNat_count hle
      rw [and_iff_right hadmitted.answer, hadmitted.success, ih hadmitted.live, hcount]
      cases right with
      | true =>
        have hgreatest : IsGreatest (allowed counter zeroisation (tryPin counter zeroisation true s).2)
            max.toNat ↔ (value s.2).toNat = 0 := by
          have hleft : IsGreatest (allowed counter zeroisation (tryPin counter zeroisation true s).2) _ :=
            hadmitted.live.isGreatest_allowed hpersist hmax
          rw [hcount, if_pos rfl] at hleft
          constructor
          · intro hfull
            have hmax := hleft.2 hfull.1
            omega
          · intro hzero
            rwa [hzero] at hleft
        rw [hgreatest, if_pos rfl]
        constructor
        · rintro ⟨hzero, rights, wrongs, rfl, hrights, hwrongs⟩
          exact ⟨rights + 1, wrongs, rfl, fun _ ↦ ⟨hzero rfl, by omega⟩, hwrongs⟩
        · rintro ⟨_ | rights, wrongs, heq, hrights, hwrongs⟩
          · -- a right PIN among wrong ones
            cases wrongs <;> cases heq
          · obtain rfl := (List.cons.inj heq).2
            have hzero := (hrights (Nat.succ_ne_zero rights)).1
            exact ⟨fun _ ↦ hzero, rights, wrongs, rfl, fun _ ↦ ⟨hzero, by omega⟩, hwrongs⟩
      | false =>
        rw [if_neg Bool.false_ne_true, and_iff_right (fun hfalse ↦ Bool.noConfusion hfalse)]
        constructor
        · rintro ⟨rights, wrongs, rfl, hrights, hwrongs⟩
          -- the wrong PIN was charged, so no right one may follow
          obtain rfl : rights = 0 := by omega
          exact ⟨0, wrongs + 1, rfl, by omega, by omega⟩
        · rintro ⟨_ | rights, wrongs, heq, hrights, hwrongs⟩
          · cases wrongs with
            | zero => cases heq
            | succ wrongs =>
              obtain rfl := (List.cons.inj heq).2
              exact ⟨0, wrongs, rfl, by omega, by omega⟩
          · cases heq
    · have hgt := UInt32.not_le.mp (mt (saturatingAdd_one_le_iff hmax _).mp hle)
      refine iff_of_false (fun hfull ↦ hfull.1 (h.breach hpersist hgt right)) ?_
      rintro ⟨_ | rights, wrongs, heq, hrights, hwrongs⟩
      · cases wrongs with
        | zero => cases heq
        | succ wrongs => omega
      · omega

end Runs

/-! ## Three tries -/

theorem spaced_of_no_replicate (h : ¬ List.replicate max.toNat false <:+: tries) :
    Spaced max tries := by
  intro n _ hinfix
  by_contra hle
  obtain ⟨k, rfl⟩ := Nat.exists_eq_add_of_le (not_lt.mp hle)
  rw [List.replicate_add] at hinfix
  exact h ((List.prefix_append _ _).isInfix.trans hinfix)

/-- A new machine with three tries. -/
def threeTries : PinPolicyMachine := .new ⟨3⟩

/-- Two wrong PINs, on a memory of zeros, and a right one: one wrong PIN is left. -/
theorem lastTry_left : Allows (rramMonotonicCounter 0) id (fun pre ↦ 3 - (0 + pre.count false))
    (threeTries, fun _ ↦ 0) [false, false, true] := by
  have hlive : Live 3 (threeTries, (fun _ ↦ 0 : Memory)) := ⟨by decide, rfl⟩
  refine hlive.allows_left (rramMonotonicCounter_persistent 0) (by decide) fun pre right hpre ↦ ?_
  have hle : (pre ++ [right]).length ≤ 3 := hpre.length_le
  have hcount : pre.count false ≤ pre.length := List.count_le_length
  have hlimit : (3 : UInt32).toNat = 3 := rfl
  have hzero : (rramCell 0 fun _ ↦ 0).toNat = 0 := by decide
  rw [List.length_append, List.length_singleton] at hle
  rw [hlimit, hzero]
  omega

/-- Two typing errors, a success and a third one: then the right PIN is a breach. -/
theorem scattered_breach : Spaced 3 [false, false, true, false, true] ∧
    answers (rramMonotonicCounter 0) id (threeTries, fun _ ↦ 0) [false, false, true, false, true]
      = [.ok (.failed 1), .ok (.failed 2), .ok .success, .ok (.failed 3), .ok .breach] :=
  ⟨spaced_of_no_replicate (by decide), by decide⟩

end PinPolicyMachine

end Galdralag
