import Galdralag.PinPolicy.Machine
import Mathlib.Data.List.Basic

/-!
# Runs of PIN attempts

Attempts are made on a `Bench`: the device under test, a record of every evaluation of the
verification closure, and a supply of power that may run out between any two effects of an
attempt. Effects after the cut do not reach the device, and the machine that made the attempt is
gone: the next one is a fresh machine over the same counter.

## The invariant

Every wrong guess was charged by an increment that is never refunded, because the only refund
follows a successful verification and takes back that attempt's own charge. So as long as the
vault was not wiped

  `number of wrong evaluations ≤ count`,

and since the closure is evaluated only while the fresh count is at most the limit, the number of
wrong evaluations never passes the limit either. The induction needs the charge to be real: at the
largest 32-bit value the counter saturates and a charge costs nothing.
-/

set_option linter.all false

namespace Galdralag

/-- One evaluation of the verification closure: the count at that moment and the outcome. -/
structure Evaluation where
  count : UInt32
  outcome : Bool
  deriving DecidableEq, Repr

/-- A device with its power supply and the record of what was verified on it. -/
structure Bench (W : Type) where
  device : W
  /-- Every evaluation of the verification closure, oldest first. -/
  evaluated : List Evaluation
  /-- Whether the policy has wiped the vault. -/
  breached : Bool
  /-- Effects left before power is lost; `none` is steady power. -/
  energy : Option ℕ

namespace Bench

variable {W : Type}

/-- The number of evaluations with a false outcome. -/
def falses (b : Bench W) : ℕ := b.evaluated.countP fun e ↦ !e.outcome

/-- Whether power is gone. -/
def dark (b : Bench W) : Prop := b.energy = some 0

instance (b : Bench W) : Decidable b.dark := inferInstanceAs (Decidable (b.energy = some 0))

/-- An operation of the device, as long as there is power. -/
def powered {α : Type} (op : Fallible W HalError α) : Fallible (Bench W) HalError α := fun b ↦
  if b.dark then (.error .bus, b)
  else ((op b.device).1,
    { b with device := (op b.device).2, energy := b.energy.map (· - 1) })

/-- The counter of the device, as long as there is power. -/
def counter (ctr : MonotonicCounter W) : MonotonicCounter (Bench W) where
  read b := ctr.read b.device
  increment := powered ctr.increment
  refundOnSuccess := powered ctr.refundOnSuccess

/-- The verification closure: it is evaluated, with the given outcome, if there is power. -/
def evaluate (value : W → UInt32) (outcome : Bool) (b : Bench W) : Bool × Bench W :=
  if b.dark then (false, b)
  else (outcome,
    { b with
      evaluated := b.evaluated ++ [⟨value b.device, outcome⟩]
      energy := b.energy.map (· - 1) })

/-- The wipe of the device, as long as there is power. -/
def wipe (zeroisation : ZeroisationTrigger W) (b : Bench W) : Bench W :=
  if b.dark then b
  else { b with
    device := zeroisation b.device, breached := true, energy := b.energy.map (· - 1) }

end Bench

/-- What a host and the power supply can do to the token. -/
inductive PinEvent where
  /-- One attempt whose verification would have the given outcome; `powerLoss` is the number of
  effects after which power is lost, if it is. -/
  | attempt (outcome : Bool) (powerLoss : Option ℕ)
  | reboot
  deriving DecidableEq, Repr

/-- The machine in memory, the bench it works on and the answers it gave. -/
structure PinSession (W : Type) where
  machine : PinPolicyMachine
  bench : Bench W
  answers : List (Except HalError PinOutcome)

namespace PinSession

variable {W : Type} (ctr : MonotonicCounter W) (value : W → UInt32)
  (zeroisation : ZeroisationTrigger W)

/-- A fresh machine over a device on which nothing has been verified. -/
def start (config : PinPolicyConfig) (device : W) : PinSession W :=
  ⟨.new config, ⟨device, [], false, none⟩, []⟩

/-- One attempt on a bench whose verification would have the given outcome. -/
def attemptOn (outcome : Bool) (m : PinPolicyMachine) (b : Bench W) :
    Except HalError PinOutcome × PinPolicyMachine × Bench W :=
  PinPolicyMachine.submitAttempt (Bench.counter ctr) (Bench.wipe zeroisation)
    (Bench.evaluate value outcome) (m, b)

/-- One event. After a power loss the answer is lost and the next machine is a fresh one. -/
def step (s : PinSession W) : PinEvent → PinSession W
  | .attempt outcome none =>
    let r := attemptOn ctr value zeroisation outcome s.machine { s.bench with energy := none }
    ⟨r.2.1, r.2.2, s.answers ++ [r.1]⟩
  | .attempt outcome (some n) =>
    let r := attemptOn ctr value zeroisation outcome s.machine { s.bench with energy := some n }
    ⟨.new s.machine.config, r.2.2, s.answers⟩
  | .reboot => { s with machine := .new s.machine.config }

/-- A whole run. -/
def run (s : PinSession W) (events : List PinEvent) : PinSession W :=
  events.foldl (step ctr value zeroisation) s

theorem run_append_singleton (s : PinSession W) (events : List PinEvent) (e : PinEvent) :
    run ctr value zeroisation s (events ++ [e])
      = step ctr value zeroisation (run ctr value zeroisation s events) e := by
  rw [run, List.foldl_append, List.foldl_cons, List.foldl_nil, ← run]

end PinSession

/-! ## What each effect does to the bench -/

namespace Bench

variable {W : Type} {ctr : MonotonicCounter W} {value : W → UInt32} {b b' : Bench W}

theorem increment_ok (h : ctr.PersistentOrFails value) {c : UInt32}
    (hb : (counter ctr).increment b = (.ok c, b')) :
    c = saturatingAdd (value b.device) 1 ∧ value b'.device = c ∧
      b'.evaluated = b.evaluated ∧ b'.breached = b.breached := by
  simp only [counter, powered] at hb
  split_ifs at hb with hd
  · cases (Prod.mk.inj hb).1
  · obtain ⟨hc, rfl⟩ := Prod.mk.inj hb
    obtain ⟨h₁, h₂⟩ := h.increment_ok (Prod.ext hc rfl)
    exact ⟨h₁, h₂, rfl, rfl⟩

theorem increment_error (h : ctr.PersistentOrFails value) {e : HalError}
    (hb : (counter ctr).increment b = (.error e, b')) :
    (value b'.device = value b.device ∨ value b'.device = saturatingAdd (value b.device) 1) ∧
      b'.evaluated = b.evaluated ∧ b'.breached = b.breached := by
  simp only [counter, powered] at hb
  split_ifs at hb with hd
  · obtain ⟨-, rfl⟩ := Prod.mk.inj hb
    exact ⟨.inl rfl, rfl, rfl⟩
  · obtain ⟨hc, rfl⟩ := Prod.mk.inj hb
    exact ⟨h.increment_error (Prod.ext hc rfl), rfl, rfl⟩

/-- On steady power a charge leaves the power steady. -/
theorem energy_increment {r : Except HalError UInt32} (hb : (counter ctr).increment b = (r, b'))
    (he : b.energy = none) : b'.energy = none := by
  simp only [counter, powered] at hb
  split_ifs at hb with hd
  · obtain ⟨-, rfl⟩ := Prod.mk.inj hb
    exact he
  · obtain ⟨-, rfl⟩ := Prod.mk.inj hb
    rw [he, Option.map_none]

theorem refund (h : ctr.PersistentOrFails value) (b : Bench W) :
    (value ((counter ctr).refundOnSuccess b).2.device = value b.device ∨
      value ((counter ctr).refundOnSuccess b).2.device = saturatingSub (value b.device) 1) ∧
      ((counter ctr).refundOnSuccess b).2.evaluated = b.evaluated ∧
      ((counter ctr).refundOnSuccess b).2.breached = b.breached := by
  simp only [counter, powered]
  split_ifs with hd
  · exact ⟨.inl rfl, rfl, rfl⟩
  · exact ⟨h.value_refund b.device, rfl, rfl⟩

/-- The closure is evaluated once, or not at all and answers false. -/
theorem evaluate_cases (value : W → UInt32) (outcome : Bool) (b : Bench W) :
    evaluate value outcome b = (false, b) ∨
      ((evaluate value outcome b).1 = outcome ∧
        (evaluate value outcome b).2.device = b.device ∧
        (evaluate value outcome b).2.evaluated = b.evaluated ++ [⟨value b.device, outcome⟩] ∧
        (evaluate value outcome b).2.breached = b.breached) := by
  rw [evaluate]
  split_ifs with hd
  · exact .inl rfl
  · exact .inr ⟨rfl, rfl, rfl, rfl⟩

theorem wipe_cases (zeroisation : ZeroisationTrigger W) (b : Bench W) :
    wipe zeroisation b = b ∨
      ((wipe zeroisation b).breached = true ∧ (wipe zeroisation b).evaluated = b.evaluated) := by
  rw [wipe]
  split_ifs with hd
  · exact .inl rfl
  · exact .inr ⟨rfl, rfl⟩

end Bench

/-! ## The invariant -/

/-- Every evaluation happened with a count within the limit. -/
def Bench.WithinLimit {W : Type} (max : UInt32) (b : Bench W) : Prop :=
  ∀ e ∈ b.evaluated, e.count ≤ max

/-- Until the vault is wiped, every wrong evaluation is paid for by the count, and there are at
most `max` of them. -/
def Bench.Charged {W : Type} (value : W → UInt32) (max : UInt32) (b : Bench W) : Prop :=
  b.breached = false → b.falses ≤ (value b.device).toNat ∧ b.falses ≤ max.toNat

namespace Bench

variable {W : Type} {ctr : MonotonicCounter W} {value : W → UInt32} {max v c : UInt32}
  {b b' : Bench W}

/-- Adding to the count keeps the account. -/
theorem Charged.of_count_le (h : b.Charged value max) (he : b'.evaluated = b.evaluated)
    (hb : b'.breached = b.breached)
    (hv : (value b.device).toNat ≤ (value b'.device).toNat) : b'.Charged value max := by
  intro hb'
  obtain ⟨h₁, h₂⟩ := h (hb ▸ hb')
  rw [falses, he, ← falses]
  exact ⟨Nat.le_trans h₁ hv, h₂⟩

/-- A charge that is not saturated is worth one more than what it replaces. -/
theorem toNat_charge (hc : c = saturatingAdd v 1) (hle : c ≤ max) (hmax : max ≠ u32Max) :
    c.toNat = v.toNat + 1 := by
  have hlt : max.toNat < 2 ^ 32 - 1 := by
    have h₁ := max.toNat_lt
    have h₂ : max.toNat ≠ u32Max.toNat := fun h ↦ hmax (UInt32.toNat_inj.mp h)
    have h₃ : u32Max.toNat = 2 ^ 32 - 1 := rfl
    omega
  have hle' : c.toNat ≤ max.toNat := UInt32.le_iff_toNat_le.mp hle
  have hsat := toNat_saturatingAdd v 1
  rw [← hc, UInt32.toNat_one] at hsat
  omega

theorem falses_evaluate_true (he : b'.evaluated = b.evaluated ++ [⟨v, true⟩]) :
    b'.falses = b.falses := by
  rw [falses, he, List.countP_append]
  rfl

theorem falses_evaluate_false (he : b'.evaluated = b.evaluated ++ [⟨v, false⟩]) :
    b'.falses = b.falses + 1 := by
  rw [falses, he, List.countP_append]
  rfl

theorem falses_congr (he : b'.evaluated = b.evaluated) : b'.falses = b.falses := by
  rw [falses, he, falses]

end Bench

namespace PinSession

variable {W : Type} {ctr : MonotonicCounter W} {value : W → UInt32}
  {zeroisation : ZeroisationTrigger W} {m : PinPolicyMachine} {b : Bench W} {outcome : Bool}

/-- An attempt keeps the configuration of the machine. -/
theorem config_attemptOn :
    (attemptOn ctr value zeroisation outcome m b).2.1.config = m.config :=
  PinPolicyMachine.submitAttempt_cases (P := fun _ m' _ ↦ m'.config = m.config)
    (fun _ ↦ rfl) (fun _ _ _ _ ↦ rfl) (fun _ _ _ _ _ ↦ rfl) (fun _ _ _ _ _ _ ↦ rfl)
    (fun _ _ _ _ _ _ ↦ rfl)

/-- An attempt evaluates the closure only within the limit. -/
theorem withinLimit_attemptOn (h : ctr.PersistentOrFails value)
    (hb : b.WithinLimit m.config.maxAttempts) :
    (attemptOn ctr value zeroisation outcome m b).2.2.WithinLimit m.config.maxAttempts := by
  -- A bench that has just been charged may be evaluated.
  have heval : ∀ {count} {b' : Bench W}, count ≤ m.config.maxAttempts →
      value b'.device = count → b'.evaluated = b.evaluated →
      (Bench.evaluate value outcome b').2.WithinLimit m.config.maxAttempts := by
    intro count b' hle hv he
    rcases Bench.evaluate_cases value outcome b' with hd | ⟨-, -, hev, -⟩
    · rw [hd]
      exact fun x hx ↦ hb x (he ▸ hx)
    · intro x hx
      rw [hev, he] at hx
      rcases List.mem_append.mp hx with hx | hx
      · exact hb x hx
      · rw [List.mem_singleton.mp hx, hv]
        exact hle
  refine PinPolicyMachine.submitAttempt_cases
    (P := fun _ _ (b' : Bench W) ↦ b'.WithinLimit m.config.maxAttempts) ?_ ?_ ?_ ?_ ?_
  · intro _
    exact hb
  · intro e b' _ hinc
    obtain ⟨-, he, -⟩ := Bench.increment_error h hinc
    exact fun x hx ↦ hb x (he ▸ hx)
  · intro count b' _ hinc _
    obtain ⟨-, -, he, -⟩ := Bench.increment_ok h hinc
    rcases Bench.wipe_cases zeroisation b' with hw | ⟨-, hw⟩
    · rw [hw]
      exact fun x hx ↦ hb x (he ▸ hx)
    · exact fun x hx ↦ hb x (he ▸ hw ▸ hx)
  · intro count b' _ hinc hle _
    obtain ⟨-, hv, he, -⟩ := Bench.increment_ok h hinc
    obtain ⟨-, hr, -⟩ := Bench.refund h (Bench.evaluate value outcome b').2
    exact fun x hx ↦ heval hle hv he x (hr ▸ hx)
  · intro count b' _ hinc hle _
    obtain ⟨-, hv, he, -⟩ := Bench.increment_ok h hinc
    exact heval hle hv he

/-- An attempt keeps the account of wrong evaluations, as long as a charge cannot saturate. -/
theorem charged_attemptOn (h : ctr.PersistentOrFails value)
    (hmax : m.config.maxAttempts ≠ u32Max) (hb : b.Charged value m.config.maxAttempts) :
    (attemptOn ctr value zeroisation outcome m b).2.2.Charged value m.config.maxAttempts := by
  refine PinPolicyMachine.submitAttempt_cases
    (P := fun _ _ (b' : Bench W) ↦ b'.Charged value m.config.maxAttempts) ?_ ?_ ?_ ?_ ?_
  · intro _
    exact hb
  · intro e b' _ hinc
    obtain ⟨hv, he, hbr⟩ := Bench.increment_error h hinc
    refine hb.of_count_le he hbr ?_
    rcases hv with hv | hv
    · exact Nat.le_of_eq (congrArg UInt32.toNat hv.symm)
    · rw [hv]
      exact le_toNat_saturatingAdd _ 1
  · intro count b' _ hinc _
    obtain ⟨hc, hv, he, hbr⟩ := Bench.increment_ok h hinc
    rcases Bench.wipe_cases zeroisation b' with hw | ⟨hw, -⟩
    · rw [hw]
      refine hb.of_count_le he hbr ?_
      rw [hv, hc]
      exact le_toNat_saturatingAdd _ 1
    · intro hbr'
      rw [hw] at hbr'
      cases hbr'
  · intro count b' _ hinc hle htrue
    obtain ⟨hc, hv, he, hbr⟩ := Bench.increment_ok h hinc
    have hcount := Bench.toNat_charge hc hle hmax
    rcases Bench.evaluate_cases value outcome b' with hd | ⟨ho, hdev, hev, hbr'⟩
    · rw [hd] at htrue
      cases htrue
    rw [ho] at htrue
    subst htrue
    obtain ⟨hr, hre, hrb⟩ := Bench.refund h (Bench.evaluate value true b').2
    -- The refund takes back at most the charge of this very attempt.
    intro hbr''
    obtain ⟨h₁, h₂⟩ := hb (by rw [← hbr, ← hbr', ← hrb, hbr''])
    rw [Bench.falses_congr hre, Bench.falses_evaluate_true hev, Bench.falses_congr he]
    refine ⟨?_, h₂⟩
    rcases hr with hr | hr <;> rw [hr, hdev, hv]
    · omega
    · rw [toNat_saturatingSub, UInt32.toNat_one]
      omega
  · intro count b' _ hinc hle hfalse
    obtain ⟨hc, hv, he, hbr⟩ := Bench.increment_ok h hinc
    have hcount := Bench.toNat_charge hc hle hmax
    rcases Bench.evaluate_cases value outcome b' with hd | ⟨ho, hdev, hev, hbr'⟩
    · rw [hd]
      refine hb.of_count_le he hbr ?_
      rw [hv]
      omega
    rw [ho] at hfalse
    subst hfalse
    intro hbr''
    obtain ⟨h₁, h₂⟩ := hb (by rw [← hbr, ← hbr', hbr''])
    have hle' : count.toNat ≤ m.config.maxAttempts.toNat := UInt32.le_iff_toNat_le.mp hle
    rw [Bench.falses_evaluate_false hev, Bench.falses_congr he, hdev, hv]
    omega

/-! ## Runs -/

/-- What a run keeps: the configuration, the limit, and the account while charges are real. -/
structure Bounded (value : W → UInt32) (config : PinPolicyConfig) (s : PinSession W) : Prop where
  config_eq : s.machine.config = config
  withinLimit : s.bench.WithinLimit config.maxAttempts
  charged : config.maxAttempts ≠ u32Max → s.bench.Charged value config.maxAttempts

theorem bounded_start (value : W → UInt32) (config : PinPolicyConfig) (device : W) :
    (start config device).Bounded value config where
  config_eq := rfl
  withinLimit := nofun
  charged _ _ := ⟨Nat.zero_le _, Nat.zero_le _⟩

variable (zeroisation) in
theorem Bounded.attempt {config : PinPolicyConfig} {s : PinSession W} (hs : s.Bounded value config)
    (h : ctr.PersistentOrFails value) (outcome : Bool) (energy : Option ℕ) :
    (attemptOn ctr value zeroisation outcome s.machine
        { s.bench with energy := energy }).2.2.WithinLimit config.maxAttempts ∧
      (config.maxAttempts ≠ u32Max →
        (attemptOn ctr value zeroisation outcome s.machine
          { s.bench with energy := energy }).2.2.Charged value config.maxAttempts) := by
  obtain ⟨rfl, hw, hc⟩ := hs
  exact ⟨withinLimit_attemptOn h hw, fun hmax ↦ charged_attemptOn h hmax (hc hmax)⟩

variable (zeroisation) in
theorem Bounded.step {config : PinPolicyConfig} {s : PinSession W} (hs : s.Bounded value config)
    (h : ctr.PersistentOrFails value) (e : PinEvent) :
    (step ctr value zeroisation s e).Bounded value config := by
  rcases e with ⟨outcome, _ | n⟩ | _
  · obtain ⟨hw, hc⟩ := hs.attempt zeroisation h outcome none
    exact ⟨config_attemptOn.trans hs.config_eq, hw, hc⟩
  · obtain ⟨hw, hc⟩ := hs.attempt zeroisation h outcome (some n)
    exact ⟨hs.config_eq, hw, hc⟩
  · exact ⟨hs.config_eq, hs.withinLimit, hs.charged⟩

variable (zeroisation) in
theorem Bounded.run {config : PinPolicyConfig} {s : PinSession W} (hs : s.Bounded value config)
    (h : ctr.PersistentOrFails value) (events : List PinEvent) :
    (run ctr value zeroisation s events).Bounded value config := by
  induction events generalizing s with
  | nil => exact hs
  | cons e events ih => exact ih (hs.step zeroisation h e)

/-- A bricked machine answers breach to every attempt, and evaluates nothing. -/
theorem run_bricked {s : PinSession W} (hs : s.machine.state = .bricked) (outcomes : List Bool) :
    let t := run ctr value zeroisation s (outcomes.map (.attempt · none))
    t.answers = s.answers ++ List.replicate outcomes.length (.ok .breach) ∧
      t.bench.evaluated = s.bench.evaluated := by
  induction outcomes generalizing s with
  | nil =>
    rw [List.length_nil, List.replicate_zero, List.append_nil]
    exact ⟨rfl, rfl⟩
  | cons o outcomes ih =>
    have hstep : step ctr value zeroisation s (.attempt o none)
        = ⟨s.machine, { s.bench with energy := none }, s.answers ++ [.ok .breach]⟩ := by
      rw [step, attemptOn, PinPolicyMachine.submitAttempt_bricked hs]
    obtain ⟨ha, he⟩ := ih (s := step ctr value zeroisation s (.attempt o none)) (by rw [hstep, hs])
    rw [List.map_cons, run, List.foldl_cons, ← run]
    refine ⟨?_, ?_⟩
    · rw [ha, hstep, List.length_cons, List.replicate_succ, List.append_assoc,
        List.singleton_append]
    · rw [he, hstep]

/-- What the wipe flag records: a bricked machine and a breach answer both come after a wipe. -/
structure WipeRecorded (s : PinSession W) : Prop where
  of_bricked : s.machine.state = .bricked → s.bench.breached = true
  of_answer : .ok .breach ∈ s.answers → s.bench.breached = true

variable (zeroisation outcome) in
/-- An attempt on steady power that answers breach, or bricks the machine, has wiped the vault;
and no attempt clears the flag. -/
theorem breached_attemptOn (h : ctr.PersistentOrFails value)
    (hm : m.state = .bricked → b.breached = true) :
    let r := attemptOn ctr value zeroisation outcome m b
    (b.breached = true → r.2.2.breached = true) ∧
      (b.energy = none → r.1 = .ok .breach ∨ r.2.1.state = .bricked → r.2.2.breached = true) := by
  refine PinPolicyMachine.submitAttempt_cases
    (P := fun r m' (b' : Bench W) ↦ (b.breached = true → b'.breached = true) ∧
      (b.energy = none → r = .ok .breach ∨ m'.state = .bricked → b'.breached = true)) ?_ ?_ ?_ ?_ ?_
  · exact fun hbr ↦ ⟨id, fun _ _ ↦ hm hbr⟩
  · intro e b' _ hinc
    obtain ⟨-, -, hbr⟩ := Bench.increment_error h hinc
    refine ⟨fun hb ↦ hbr.trans hb, fun _ hr ↦ ?_⟩
    rcases hr with hr | hr <;> cases hr
  · intro count b' _ hinc _
    obtain ⟨-, -, -, hbr⟩ := Bench.increment_ok h hinc
    have hsteady : b.energy = none → (Bench.wipe zeroisation b').breached = true := by
      intro he
      have hlit : ¬ b'.dark := by
        rw [Bench.dark, Bench.energy_increment hinc he]
        exact nofun
      rw [Bench.wipe, if_neg hlit]
    refine ⟨fun hb ↦ ?_, fun he _ ↦ hsteady he⟩
    rcases Bench.wipe_cases zeroisation b' with hw | ⟨hw, -⟩
    · rw [hw, hbr, hb]
    · exact hw
  · intro count b' _ hinc _ _
    obtain ⟨-, -, -, hbr⟩ := Bench.increment_ok h hinc
    obtain ⟨-, -, hr⟩ := Bench.refund h (Bench.evaluate value outcome b').2
    refine ⟨fun hb ↦ ?_, fun _ hr ↦ ?_⟩
    · rw [hr]
      rcases Bench.evaluate_cases value outcome b' with hd | ⟨-, -, -, hbr'⟩
      · rw [hd, hbr, hb]
      · rw [hbr', hbr, hb]
    · rcases hr with hr | hr <;> cases hr
  · intro count b' _ hinc _ _
    obtain ⟨-, -, -, hbr⟩ := Bench.increment_ok h hinc
    refine ⟨fun hb ↦ ?_, fun _ hr ↦ ?_⟩
    · rcases Bench.evaluate_cases value outcome b' with hd | ⟨-, -, -, hbr'⟩
      · rw [hd, hbr, hb]
      · rw [hbr', hbr, hb]
    · rcases hr with hr | hr <;> cases hr

variable (zeroisation) in
theorem WipeRecorded.step {s : PinSession W} (hs : s.WipeRecorded)
    (h : ctr.PersistentOrFails value) (e : PinEvent) :
    (step ctr value zeroisation s e).WipeRecorded := by
  rcases e with ⟨outcome, _ | n⟩ | _
  · obtain ⟨hkeep, hnew⟩ := breached_attemptOn zeroisation outcome
      (b := { s.bench with energy := none }) h hs.of_bricked
    refine ⟨fun hbr ↦ hnew rfl (.inr hbr), fun ha ↦ ?_⟩
    rcases List.mem_append.mp ha with ha | ha
    · exact hkeep (hs.of_answer ha)
    · exact hnew rfl (.inl (List.mem_singleton.mp ha).symm)
  · obtain ⟨hkeep, -⟩ := breached_attemptOn zeroisation outcome
      (b := { s.bench with energy := some n }) h hs.of_bricked
    exact ⟨nofun, fun ha ↦ hkeep (hs.of_answer ha)⟩
  · exact ⟨nofun, hs.of_answer⟩

/-- In every run the flag is set once any attempt has answered breach. -/
theorem wipeRecorded_run (h : ctr.PersistentOrFails value) {s : PinSession W}
    (hs : s.WipeRecorded) (events : List PinEvent) :
    (run ctr value zeroisation s events).WipeRecorded := by
  induction events generalizing s with
  | nil => exact hs
  | cons e events ih => exact ih (hs.step zeroisation h e)

/-- **The guessing bound.** In every run of attempts with any outcomes, reboots, counter errors and
power losses, over a counter that persists its value: as long as the vault was not wiped, at most
`maxAttempts` evaluations were wrong, for every limit a count can exceed; no evaluation ever
happened with the count above the limit; and a bricked machine answers breach to every later
attempt on it without evaluating anything. -/
theorem pin_guessing_bound (h : ctr.PersistentOrFails value) (config : PinPolicyConfig)
    (device : W) (events : List PinEvent) :
    let s := run ctr value zeroisation (start config device) events
    (config.maxAttempts ≠ u32Max → s.bench.breached = false →
      s.bench.falses ≤ config.maxAttempts.toNat) ∧
    (∀ e ∈ s.bench.evaluated, e.count ≤ config.maxAttempts) ∧
    (s.machine.state = .bricked → ∀ outcomes : List Bool,
      let t := run ctr value zeroisation s (outcomes.map (.attempt · none))
      t.answers = s.answers ++ List.replicate outcomes.length (.ok .breach) ∧
        t.bench.evaluated = s.bench.evaluated) := by
  have hb := (bounded_start value config device).run zeroisation h events
  refine ⟨fun hmax hbr ↦ (hb.charged hmax hbr).2, hb.withinLimit, fun hs outcomes ↦ ?_⟩
  exact run_bricked hs outcomes

/-- The bound at work on the value counter: two wrong guesses with a power loss between them. -/
theorem pin_guessing_bound_three :
    (run valueCounter id id (start ⟨3⟩ 0)
      [.attempt false none, .attempt true (some 1), .attempt false none]).bench.falses
      ≤ (3 : UInt32).toNat :=
  (pin_guessing_bound valueCounter_persistent.orFails ⟨3⟩ 0 _).1 (by decide) (by decide)

/-! ## The limit no count exceeds

At `maxAttempts = u32Max` the saturating counter never exceeds the limit, so the wrong guesses go
on for ever. -/

/-- Wrong guesses on steady power, on a machine whose limit is the largest count. -/
theorem run_wrong_guesses (n : ℕ) :
    ∃ s, run valueCounter id id (start ⟨u32Max⟩ 0) (List.replicate n (.attempt false none)) = s ∧
      s.machine.config.maxAttempts = u32Max ∧ s.machine.state ≠ .bricked ∧
      s.bench.breached = false ∧ s.bench.falses = n := by
  induction n with
  | zero => exact ⟨_, rfl, rfl, nofun, rfl, rfl⟩
  | succ n ih =>
    obtain ⟨s, hs, hmax, hb, hbr, hf⟩ := ih
    have hle : ¬ s.machine.config.maxAttempts < saturatingAdd s.bench.device 1 := by
      rw [hmax]
      exact UInt32.not_lt.mpr (UInt32.le_iff_toNat_le.mpr (by
        rw [toNat_saturatingAdd]
        exact Nat.min_le_right _ _))
    have hatt : attemptOn valueCounter id id false s.machine { s.bench with energy := none } = _ :=
      PinPolicyMachine.submitAttempt_failed hb rfl hle rfl
    rw [List.replicate_succ', run_append_singleton, hs]
    refine ⟨_, rfl, ?_⟩
    rw [step, hatt]
    refine ⟨hmax, nofun, hbr, ?_⟩
    rw [Bench.falses_evaluate_false rfl, ← hf]
    rfl

/-- With the largest limit, `2 ^ 32` wrong guesses are evaluated and the vault is not wiped. -/
theorem pin_guessing_unbounded :
    ¬ ∀ events : List PinEvent,
      let s := run valueCounter id id (start ⟨u32Max⟩ 0) events
      s.bench.breached = false → s.bench.falses ≤ u32Max.toNat := by
  intro h
  obtain ⟨s, hs, -, -, hbr, hf⟩ := run_wrong_guesses (2 ^ 32)
  have hle := h (List.replicate (2 ^ 32) (.attempt false none))
  simp only [hs, hbr, hf] at hle
  exact absurd (hle trivial) (by decide)

end PinSession

end Galdralag
