import Galdralag.Hal

/-!
# The PIN policy state machine

An attempt charges the monotonic counter before it looks at the PIN, wipes instead of verifying
once the count exceeds the limit, and refunds its charge only after a successful verification.

The machine holds its configuration and its state; the counter, the wipe hook and the verification
closure act on a world `W` shared with the rest of the device, so that the order of their effects
is part of the model.
-/

set_option linter.all false

namespace Galdralag

/-- Default PIN attempt limit: three tries before lockout. -/
def defaultMaxPinAttempts : UInt32 := 3

/-- Minimum `maxAttempts` allowed when provisioning policy into the vault, inclusive. -/
def minProvisionedPinAttempts : UInt32 := 3

/-- Maximum `maxAttempts` allowed when provisioning policy into the vault, inclusive. -/
def maxProvisionedPinAttempts : UInt32 := 10

/-- Invalid provisioned attempt count. -/
inductive PinPolicyProvisionError where
  | maxAttemptsOutOfRange
  deriving DecidableEq, Repr

structure PinPolicyConfig where
  maxAttempts : UInt32
  deriving DecidableEq, Repr

/-- Build policy for a provisioned token: only values in `3..=10` are accepted. -/
def PinPolicyConfig.tryWithMaxAttempts (maxAttempts : UInt32) :
    Except PinPolicyProvisionError PinPolicyConfig :=
  if minProvisionedPinAttempts ≤ maxAttempts ∧ maxAttempts ≤ maxProvisionedPinAttempts then
    .ok ⟨maxAttempts⟩
  else .error .maxAttemptsOutOfRange

instance : Inhabited PinPolicyConfig := ⟨⟨defaultMaxPinAttempts⟩⟩

inductive PinState where
  | bootCold
  | lockedIdle
  | attemptCharge
  | verifying
  | unlocked
  | cooldown
  | bricked
  deriving DecidableEq, Repr

inductive PinOutcome where
  | success
  | failed (attemptsUsed : UInt32)
  | breach
  deriving DecidableEq, Repr

/-- PIN equality; byte strings of different lengths differ. -/
def pinCompare (a b : Bytes) : Bool := if a.length ≠ b.length then false else a == b

/-- PIN policy state machine. The counter is not stored here: it is passed to each attempt. -/
structure PinPolicyMachine where
  config : PinPolicyConfig
  state : PinState
  deriving DecidableEq, Repr

namespace PinPolicyMachine

variable {W : Type}

/-- Build policy state without taking ownership of the hardware counter. -/
def new (config : PinPolicyConfig) : PinPolicyMachine := ⟨config, .bootCold⟩

def enterLockedIdle (m : PinPolicyMachine) : PinPolicyMachine :=
  if m.state ≠ .bricked then { m with state := .lockedIdle } else m

/-- Set the state of the machine in the pair it runs in. -/
def goto (state : PinState) : Fallible (PinPolicyMachine × W) HalError PUnit :=
  .modify fun s ↦ ({ s.1 with state := state }, s.2)

/-- Run an operation of the world. -/
def onWorld {α : Type} (m : Fallible W HalError α) : Fallible (PinPolicyMachine × W) HalError α :=
  .zoom Prod.snd (fun w s ↦ (s.1, w)) m

/-- One attempt. `increment` runs on `counter` before `verify`; if the count exceeds the limit the
vault is wiped without calling `verify`. -/
def submitAttempt (counter : MonotonicCounter W) (zeroisation : ZeroisationTrigger W)
    (verify : W → Bool × W) : Fallible (PinPolicyMachine × W) HalError PinOutcome := do
  if (← .gets fun s ↦ s.1.state) = .bricked then
    pure .breach
  else
    goto .attemptCharge
    let count ← onWorld counter.increment
    goto .verifying
    if count > (← .gets fun s ↦ s.1.config.maxAttempts) then
      onWorld (.modify zeroisation)
      goto .bricked
      pure .breach
    else
      let ok ← onWorld (.act verify)
      if ok then
        let _ ← onWorld (.attempt counter.refundOnSuccess)
        goto .unlocked
        pure .success
      else
        goto .lockedIdle
        pure (.failed count)

/-! ## What an attempt can do

The five ways an attempt ends. Everything later about attempts is derived from these equations. -/

variable {counter : MonotonicCounter W} {zeroisation : ZeroisationTrigger W}
  {verify : W → Bool × W} {m : PinPolicyMachine} {w w' : W}

/-- A bricked machine answers breach and touches nothing. -/
theorem submitAttempt_bricked (h : m.state = .bricked) :
    submitAttempt counter zeroisation verify (m, w) = (.ok .breach, (m, w)) := by
  simp [submitAttempt, Fallible.bind_apply, h]

/-- A counter error ends the attempt before anything is verified. -/
theorem submitAttempt_charge_error {e : HalError} (h : m.state ≠ .bricked)
    (hc : counter.increment w = (.error e, w')) :
    submitAttempt counter zeroisation verify (m, w)
      = (.error e, ({ m with state := .attemptCharge }, w')) := by
  simp [submitAttempt, Fallible.bind_apply, goto, onWorld, h, hc]

/-- Over the limit the vault is wiped and the machine is bricked, without a verification. -/
theorem submitAttempt_breach {count : UInt32} (h : m.state ≠ .bricked)
    (hc : counter.increment w = (.ok count, w')) (hgt : m.config.maxAttempts < count) :
    submitAttempt counter zeroisation verify (m, w)
      = (.ok .breach, ({ m with state := .bricked }, zeroisation w')) := by
  simp [submitAttempt, Fallible.bind_apply, goto, onWorld, h, hc, hgt]

/-- A verified PIN unlocks, and the charge is refunded where the hardware can. -/
theorem submitAttempt_success {count : UInt32} (h : m.state ≠ .bricked)
    (hc : counter.increment w = (.ok count, w')) (hle : ¬ m.config.maxAttempts < count)
    (hv : (verify w').1 = true) :
    submitAttempt counter zeroisation verify (m, w)
      = (.ok .success,
          ({ m with state := .unlocked }, (counter.refundOnSuccess (verify w').2).2)) := by
  simp [submitAttempt, Fallible.bind_apply, goto, onWorld, h, hc, hle, hv]

/-- A wrong PIN keeps its charge. -/
theorem submitAttempt_failed {count : UInt32} (h : m.state ≠ .bricked)
    (hc : counter.increment w = (.ok count, w')) (hle : ¬ m.config.maxAttempts < count)
    (hv : (verify w').1 = false) :
    submitAttempt counter zeroisation verify (m, w)
      = (.ok (.failed count), ({ m with state := .lockedIdle }, (verify w').2)) := by
  simp [submitAttempt, Fallible.bind_apply, goto, onWorld, h, hc, hle, hv]

/-- **The five ways an attempt ends.** A property of the outcome and the final state holds as soon
as it holds in each of them. -/
theorem submitAttempt_cases {P : Except HalError PinOutcome → PinPolicyMachine → W → Prop}
    (hbricked : m.state = .bricked → P (.ok .breach) m w)
    (herror : ∀ e w', m.state ≠ .bricked → counter.increment w = (.error e, w') →
      P (.error e) { m with state := .attemptCharge } w')
    (hbreach : ∀ count w', m.state ≠ .bricked → counter.increment w = (.ok count, w') →
      m.config.maxAttempts < count →
      P (.ok .breach) { m with state := .bricked } (zeroisation w'))
    (hsuccess : ∀ count w', m.state ≠ .bricked → counter.increment w = (.ok count, w') →
      count ≤ m.config.maxAttempts → (verify w').1 = true →
      P (.ok .success) { m with state := .unlocked } (counter.refundOnSuccess (verify w').2).2)
    (hfailed : ∀ count w', m.state ≠ .bricked → counter.increment w = (.ok count, w') →
      count ≤ m.config.maxAttempts → (verify w').1 = false →
      P (.ok (.failed count)) { m with state := .lockedIdle } (verify w').2) :
    P (submitAttempt counter zeroisation verify (m, w)).1
      (submitAttempt counter zeroisation verify (m, w)).2.1
      (submitAttempt counter zeroisation verify (m, w)).2.2 := by
  by_cases hb : m.state = .bricked
  · rw [submitAttempt_bricked hb]
    exact hbricked hb
  rcases hc : counter.increment w with ⟨e | count, w'⟩
  · rw [submitAttempt_charge_error hb hc]
    exact herror e w' hb hc
  by_cases hgt : m.config.maxAttempts < count
  · rw [submitAttempt_breach hb hc hgt]
    exact hbreach count w' hb hc hgt
  cases hv : (verify w').1
  · rw [submitAttempt_failed hb hc hgt hv]
    exact hfailed count w' hb hc (UInt32.not_lt.mp hgt) hv
  · rw [submitAttempt_success hb hc hgt hv]
    exact hsuccess count w' hb hc (UInt32.not_lt.mp hgt) hv

end PinPolicyMachine

end Galdralag
