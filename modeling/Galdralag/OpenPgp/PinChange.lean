import Galdralag.OpenPgp.CardCalls
import Galdralag.OpenPgp.CommandRuns

/-!
# Changing a PIN

CHANGE REFERENCE DATA and RESET RETRY COUNTER end in the same steps: an attempt with the old PIN,
which RESET RETRY COUNTER leaves out, the new digest in memory, both digests in storage, and a new
policy machine. The checks of the dispatcher before these steps decide which change a command asks
for, if any.
-/

set_option linter.all false

namespace Galdralag.OpenPgp

variable {W T : Type}

/-- A change of a PIN, with the old PIN where it is asked for. -/
structure PinChange where
  pin : CardPin
  old : Option Bytes
  new : Bytes
  deriving DecidableEq

namespace PinChange

variable (pf : CardPlatform W T) (c : PinChange)

/-- The attempt with the old PIN. -/
def attempt : VaultM W T PUnit :=
  match c.old with
  | some old => verifyPin pf c.pin old
  | none => pure ⟨⟩

/-- The new digest, in memory and then in storage. -/
def store : VaultM W T PUnit := do
  .modify fun b ↦ b.setVerifier (pinBytesToVerifierDigest pf c.new) c.pin
  persistPinHashes pf

/-- The whole change. -/
def apply : VaultM W T PUnit := do
  c.attempt pf
  c.store pf
  resetMachine pf c.pin

end PinChange

/-- The PIN that CHANGE REFERENCE DATA means. -/
def changedPin (p2 : UInt8) : CardPin := if p2 = 0x83 then .admin else .user

/-- The old and the new PIN of CHANGE REFERENCE DATA, without padding. -/
def changedFrom (pf : CardPlatform W T) (b : OpenPgpVaultBackend W T) (cmd : CommandApdu) : Bytes :=
  trimOpenpgpPinPadding (cmd.data.toBytes.take (maxPinLength pf b (changedPin cmd.p2)))

def changedTo (pf : CardPlatform W T) (b : OpenPgpVaultBackend W T) (cmd : CommandApdu) : Bytes :=
  trimOpenpgpPinPadding (cmd.data.toBytes.drop (maxPinLength pf b (changedPin cmd.p2)))

/-- The checks of CHANGE REFERENCE DATA. -/
def ChangeChecked (pf : CardPlatform W T) (b : OpenPgpVaultBackend W T) (cmd : CommandApdu) : Prop :=
  let pinLen := maxPinLength pf b (changedPin cmd.p2)
  cmd.p1 = 0x00 ∧ (cmd.p2 = 0x81 ∨ cmd.p2 = 0x83) ∧ (pinLen ≠ 0 ∧ pinLen ≤ 127) ∧
    cmd.data.length = pinLen * 2 ∧ changedTo pf b cmd ≠ []

instance (pf : CardPlatform W T) (b : OpenPgpVaultBackend W T) (cmd : CommandApdu) :
    Decidable (ChangeChecked pf b cmd) := inferInstanceAs (Decidable (_ ∧ _))

/-- The checks of RESET RETRY COUNTER. -/
def ResetChecked (pf : CardPlatform W T) (s : Session (OpenPgpVaultBackend W T))
    (cmd : CommandApdu) : Prop :=
  let maxLen := maxPinLength pf s.backend .user
  let newPin := trimOpenpgpPinPadding cmd.data.toBytes
  cmd.p1 ≠ 0x02 ∧ (cmd.p1 = 0x00 ∧ cmd.p2 = 0x81) ∧ s.card.pw3Verified = true ∧
    (maxLen ≠ 0 ∧ maxLen ≤ 127) ∧ newPin ≠ [] ∧ newPin.length ≤ maxLen

instance (pf : CardPlatform W T) (s : Session (OpenPgpVaultBackend W T)) (cmd : CommandApdu) :
    Decidable (ResetChecked pf s cmd) := inferInstanceAs (Decidable (_ ∧ _))

/-- The change that a command asks for, if it passes the checks of the dispatcher. -/
def requestedChange (pf : CardPlatform W T) (s : Session (OpenPgpVaultBackend W T))
    (cmd : CommandApdu) : Option PinChange :=
  if s.backend.termination = true then none
  else if cmd.ins = 0x24 ∧ ChangeChecked pf s.backend cmd then
    some ⟨changedPin cmd.p2, some (changedFrom pf s.backend cmd), changedTo pf s.backend cmd⟩
  else if cmd.ins = 0x2C ∧ ResetChecked pf s cmd then
    some ⟨.user, none, trimOpenpgpPinPadding cmd.data.toBytes⟩
  else none

variable {pf : CardPlatform W T} {s : Session (OpenPgpVaultBackend W T)} {cmd : CommandApdu}
  {b b' : OpenPgpVaultBackend W T} {c : PinChange}

/-! ## What the calls do -/

/-- A PIN that is not too long is changed. -/
theorem changePin_run (ht : b.termination = false) {p : CardPin} {oldPin newPin : Bytes}
    (hlen : newPin.length ≤ maxPinLength pf b p) :
    changePin pf p oldPin newPin b = PinChange.apply pf ⟨p, some oldPin, newPin⟩ b := by
  rw [changePin, Fallible.bind_of_ok (ensureNotTerminated_run ht), Fallible.gets_bind,
    Fallible.bind_of_ok (Fallible.require_of hlen _ _)]
  rfl

/-- The two calls of RESET RETRY COUNTER. -/
theorem resetPin_run (ht : b.termination = false) {newPin : Bytes}
    (hnew : maxPinLength pf b .user ≠ 0 ∧ newPin ≠ [] ∧ newPin.length ≤ maxPinLength pf b .user) :
    setPw1VerifierAdminOnly pf newPin b = PinChange.store pf ⟨.user, none, newPin⟩ b := by
  rw [setPw1VerifierAdminOnly, Fallible.bind_of_ok (ensureNotTerminated_run ht), Fallible.gets_bind,
    Fallible.bind_of_ok (Fallible.require_of hnew _ _)]
  rfl

/-- The digest in memory is set, and then nothing but storage changes. -/
theorem store_eq (c : PinChange) (b : OpenPgpVaultBackend W T) : ∃ w, (c.store pf b).2
    = { b.setVerifier (pinBytesToVerifierDigest pf c.new) c.pin with world := w } := by
  have hwrite : ∀ (m : Fallible W HalError PUnit) (b : OpenPgpVaultBackend W T),
      (Fallible.orElse (onWorld m) (.status .executionError) b : Except OpenPgpBackendError PUnit × _).2
        = { b with world := (m b.world).2 } := by
    intro m b
    rw [Fallible.orElse, onWorld, Fallible.zoom_apply]
    rcases m b.world with ⟨_ | _, _⟩ <;> rfl
  have hpersist : Fallible.Moves (fun b b' : OpenPgpVaultBackend W T ↦ ∃ w, b' = { b with world := w })
      (persistPinHashes pf) := by
    intro b
    refine Fallible.Moves.bind (R := fun b b' : OpenPgpVaultBackend W T ↦ ∃ w, b' = { b with world := w })
      (fun b ↦ ⟨_, hwrite _ b⟩) ?_ (fun _ b ↦ ⟨_, hwrite _ b⟩) b
    rintro b _ _ ⟨w, rfl⟩ ⟨w', rfl⟩
    exact ⟨w', rfl⟩
  rw [PinChange.store, Fallible.modify_bind]
  exact hpersist _

/-- A digest that is refused is an execution error. -/
theorem failsIn_store (c : PinChange) :
    Fallible.FailsIn (· = .status .executionError) (c.store pf : VaultM W T PUnit) := by
  have hwrite : ∀ m : Fallible W HalError PUnit,
      Fallible.FailsIn (· = .status .executionError)
        (.orElse (onWorld m) (.status .executionError) : VaultM W T PUnit) :=
    fun m ↦ Fallible.FailsIn.orElse (P := (· = OpenPgpBackendError.status .executionError)) rfl _
  refine (Fallible.FailsIn.modify _).bind fun _ b ↦ ?_
  exact (hwrite _).bind (fun _ b ↦ hwrite _ b) b

theorem termination_store (c : PinChange) (b : OpenPgpVaultBackend W T) :
    (c.store pf b).2.termination = b.termination := by
  obtain ⟨w, h⟩ : ∃ w, (c.store pf b).2 = _ := store_eq c b
  rw [h]
  cases c.pin <;> rfl

theorem verifier_setVerifier (d : Block 32) (p q : CardPin) :
    (b.setVerifier d p).verifier q = if q = p then d else b.verifier q := by
  cases p <;> cases q <;> rfl

/-- Attempts leave the digests in memory. -/
theorem verifier_attempted (p : CardPin) (state : PinState) (w : W) :
    (b.attempted p state w).verifier = b.verifier := by
  funext q
  cases p <;> cases q <;> rfl

theorem verifier_verifyPin (p : CardPin) (pin : Bytes) (b : OpenPgpVaultBackend W T) :
    (verifyPin pf p pin b).2.verifier = b.verifier := by
  refine verifyPin_cases (P := fun _ b' ↦ b'.verifier = b.verifier) ?_ ?_ ?_ ?_ ?_ ?_
  · exact fun _ ↦ rfl
  · exact fun _ ↦ rfl
  · exact fun _ w' _ _ ↦ verifier_attempted p .attemptCharge w'
  · exact fun _ w' _ _ _ ↦ verifier_attempted p .bricked (pf.zeroise p w')
  · exact fun _ w' _ _ _ ↦ verifier_attempted p .unlocked ((pf.counter p).refundOnSuccess w').2
  · exact fun _ w' _ _ _ ↦ verifier_attempted p .lockedIdle w'

theorem verifier_attempt (c : PinChange) (b : OpenPgpVaultBackend W T) :
    (c.attempt pf b).2.verifier = b.verifier := by
  obtain ⟨p, old, new⟩ := c
  cases old with
  | none => rfl
  | some old => exact verifier_verifyPin p old b

theorem verifier_store (c : PinChange) (b : OpenPgpVaultBackend W T) (q : CardPin) :
    (c.store pf b).2.verifier q
      = if q = c.pin then pinBytesToVerifierDigest pf c.new else b.verifier q := by
  obtain ⟨w, hstore⟩ : ∃ w, (c.store pf b).2 = _ := store_eq c b
  rw [hstore, ← verifier_setVerifier]
  cases q <;> rfl

variable (pf) in
/-- **The digest in memory** is that of the new PIN as soon as the attempt succeeded, whatever comes
of the change. -/
theorem verifier_apply (c : PinChange) (b : OpenPgpVaultBackend W T) (q : CardPin) :
    (c.apply pf b).2.verifier q = if q = c.pin ∧ (c.attempt pf b).1 = .ok ⟨⟩ then
      pinBytesToVerifierDigest pf c.new else b.verifier q := by
  rw [PinChange.apply, ← verifier_attempt c b]
  rcases ha : c.attempt pf b with ⟨e | ⟨⟨⟩⟩, b₁⟩
  · rw [Fallible.bind_of_error ha, if_neg]
    rintro ⟨-, ⟨⟩⟩
  have hand : (q = c.pin ∧ (.ok ⟨⟩ : Except OpenPgpBackendError PUnit) = .ok ⟨⟩) ↔ q = c.pin :=
    and_iff_left rfl
  rw [Fallible.bind_of_ok ha, if_congr hand rfl rfl, ← verifier_store]
  rcases hs : c.store pf b₁ with ⟨e | ⟨⟨⟩⟩, b₂⟩
  · rw [Fallible.bind_of_error hs]
  · rw [Fallible.bind_of_ok hs]
    cases c.pin <;> cases q <;> rfl

/-- A change that succeeds has had an attempt that did. -/
theorem attempt_of_apply (h : c.apply pf b = (.ok ⟨⟩, b')) : (c.attempt pf b).1 = .ok ⟨⟩ := by
  rcases ha : c.attempt pf b with ⟨e | ⟨⟨⟩⟩, b₁⟩
  · rw [PinChange.apply, Fallible.bind_of_error ha] at h
    cases (Prod.mk.inj h).1
  · rfl

/-- After an attempt that succeeded the change fails with its storage. -/
theorem error_of_apply {e : OpenPgpBackendError} (h : c.apply pf b = (.error e, b'))
    (hattempt : (c.attempt pf b).1 = .ok ⟨⟩) : e = .status .executionError := by
  rw [PinChange.apply, Fallible.bind_of_ok (Prod.ext hattempt rfl)] at h
  have hfails : Fallible.FailsIn (· = OpenPgpBackendError.status .executionError)
      (c.store pf >>= fun _ ↦ resetMachine pf c.pin) :=
    (failsIn_store c).bind fun _ ↦ Fallible.FailsIn.modify _
  exact hfails _ e (congrArg Prod.fst h)

/-! ## What the commands do -/

theorem running_of_requested (h : requestedChange pf s cmd = some c) :
    s.backend.termination = false := by
  by_contra ht
  rw [requestedChange, if_pos (Bool.not_eq_false _ ▸ ht)] at h
  cases h

/-- CHANGE REFERENCE DATA makes its call, or is refused. -/
theorem handleChangeReference_cases (s : Session (OpenPgpVaultBackend W T)) :
    (ChangeChecked pf s.backend cmd → handleChangeReference (vaultBackend pf) cmd s = (do
      call (vaultBackend pf) (.changePin (cmd.p2 == 0x83) (changedFrom pf s.backend cmd)
        (changedTo pf s.backend cmd))
      logEvent (vaultBackend pf) (0x240000 ||| cmd.p2.toUInt32)
      pure ResponseApdu.okEmpty : Handler _ ResponseApdu) s) ∧
    (¬ ChangeChecked pf s.backend cmd →
      ∃ r : ResponseApdu, r.sw1 ≠ 0x63 ∧ handleChangeReference (vaultBackend pf) cmd s = (.error r, s)) := by
  have hlen : ((if (cmd.p2 == 0x83) = true then ((vaultBackend pf).pwStatusBytes s.backend).toBytes[3]?
      else ((vaultBackend pf).pwStatusBytes s.backend).toBytes[1]?).getD 0).toNat
      = maxPinLength pf s.backend (changedPin cmd.p2) := by
    by_cases hp2 : cmd.p2 = 0x83
    · rw [if_pos (beq_iff_eq.mpr hp2), changedPin, if_pos hp2]
      rfl
    · rw [if_neg fun h ↦ hp2 (beq_iff_eq.mp h), changedPin, if_neg hp2]
      rfl
  rw [handleChangeReference, demand_bind_eq]
  by_cases hp1 : cmd.p1 = 0x00
  swap
  · rw [if_neg hp1]
    exact ⟨fun h ↦ absurd h.1 hp1, fun _ ↦ ⟨_, by decide, rfl⟩⟩
  rw [if_pos hp1, demand_bind_eq]
  by_cases hp2 : cmd.p2 = 0x81 ∨ cmd.p2 = 0x83
  swap
  · rw [if_neg hp2]
    exact ⟨fun h ↦ absurd h.2.1 hp2, fun _ ↦ ⟨_, by decide, rfl⟩⟩
  rw [if_pos hp2]
  dsimp only
  rw [Fallible.gets_bind, hlen, demand_bind_eq]
  by_cases hrange : maxPinLength pf s.backend (changedPin cmd.p2) ≠ 0 ∧
      maxPinLength pf s.backend (changedPin cmd.p2) ≤ 127
  swap
  · rw [if_neg hrange]
    exact ⟨fun h ↦ absurd h.2.2.1 hrange, fun _ ↦ ⟨_, by decide, rfl⟩⟩
  rw [if_pos hrange, demand_bind_eq]
  by_cases hdata : cmd.data.length = maxPinLength pf s.backend (changedPin cmd.p2) * 2
  swap
  · rw [if_neg hdata]
    exact ⟨fun h ↦ absurd h.2.2.2.1 hdata, fun _ ↦ ⟨_, by decide, rfl⟩⟩
  rw [if_pos hdata, ← changedTo, demand_bind_eq]
  by_cases hnew : changedTo pf s.backend cmd ≠ []
  swap
  · rw [if_neg hnew]
    exact ⟨fun h ↦ absurd h.2.2.2.2 hnew, fun _ ↦ ⟨_, by decide, rfl⟩⟩
  rw [if_pos hnew]
  exact ⟨fun _ ↦ rfl, fun h ↦ absurd ⟨hp1, hp2, hrange, hdata, hnew⟩ h⟩

/-- RESET RETRY COUNTER makes its two calls, or is refused. -/
theorem handleResetRetryCounter_cases (s : Session (OpenPgpVaultBackend W T)) :
    (ResetChecked pf s cmd → handleResetRetryCounter (vaultBackend pf) cmd s = (do
      call (vaultBackend pf) (.setPw1VerifierAdminOnly (trimOpenpgpPinPadding cmd.data.toBytes))
      call (vaultBackend pf) .resetPw1RetryCounter
      logEvent (vaultBackend pf) 0x2C0081
      pure ResponseApdu.okEmpty : Handler _ ResponseApdu) s) ∧
    (¬ ResetChecked pf s cmd →
      ∃ r : ResponseApdu, r.sw1 ≠ 0x63 ∧
        handleResetRetryCounter (vaultBackend pf) cmd s = (.error r, s)) := by
  have hlen : (((vaultBackend pf).pwStatusBytes s.backend).toBytes[1]?.getD 0).toNat
      = maxPinLength pf s.backend .user := rfl
  rw [handleResetRetryCounter, demand_bind_eq]
  by_cases hp1 : cmd.p1 ≠ 0x02
  swap
  · rw [if_neg hp1]
    exact ⟨fun h ↦ absurd h.1 hp1, fun _ ↦ ⟨_, by decide, rfl⟩⟩
  rw [if_pos hp1, demand_bind_eq]
  by_cases hp2 : cmd.p1 = 0x00 ∧ cmd.p2 = 0x81
  swap
  · rw [if_neg hp2]
    exact ⟨fun h ↦ absurd h.2.1 hp2, fun _ ↦ ⟨_, by decide, rfl⟩⟩
  rw [if_pos hp2, demandFlag_bind_eq]
  by_cases hflag : s.card.pw3Verified = true
  swap
  · rw [if_neg hflag]
    exact ⟨fun h ↦ absurd h.2.2.1 hflag, fun _ ↦ ⟨_, by decide, rfl⟩⟩
  rw [if_pos hflag, Fallible.gets_bind]
  dsimp only
  rw [hlen, demand_bind_eq]
  by_cases hrange : maxPinLength pf s.backend .user ≠ 0 ∧ maxPinLength pf s.backend .user ≤ 127
  swap
  · rw [if_neg hrange]
    exact ⟨fun h ↦ absurd h.2.2.2.1 hrange, fun _ ↦ ⟨_, by decide, rfl⟩⟩
  rw [if_pos hrange, demand_bind_eq]
  by_cases hnew : trimOpenpgpPinPadding cmd.data.toBytes ≠ [] ∧
      (trimOpenpgpPinPadding cmd.data.toBytes).length ≤ maxPinLength pf s.backend .user
  swap
  · rw [if_neg hnew]
    exact ⟨fun h ↦ absurd h.2.2.2.2 hnew, fun _ ↦ ⟨_, by decide, rfl⟩⟩
  rw [if_pos hnew]
  exact ⟨fun _ ↦ rfl, fun h ↦ absurd ⟨hp1, hp2, hflag, hrange, hnew⟩ h⟩

/-- A command that asks for no change is refused, and not for a wrong PIN. -/
theorem handle_unrequested (hcmd : cmd.ins = 0x24 ∨ cmd.ins = 0x2C)
    (h : requestedChange pf s cmd = none) :
    ∃ r : ResponseApdu, r.sw1 ≠ 0x63 ∧ handle (vaultBackend pf) cmd s = (.error r, s) := by
  rw [requestedChange] at h
  split_ifs at h with ht hchange hreset
  · refine ⟨_, ?_, handle_terminated ht⟩
    split_ifs <;> decide
  have hterm : (vaultBackend pf).isTerminationState s.backend = false := Bool.not_eq_true _ ▸ ht
  rcases hcmd with hins | hins
  · have hi : Instruction.ofByte cmd.ins = some .changeReference := by rw [hins]; rfl
    rw [handle_run hterm hi]
    exact (handleChangeReference_cases s).2 fun hchecked ↦ hchange ⟨hins, hchecked⟩
  · have hi : Instruction.ofByte cmd.ins = some .resetRetryCounter := by rw [hins]; rfl
    rw [handle_run hterm hi]
    exact (handleResetRetryCounter_cases s).2 fun hchecked ↦ hreset ⟨hins, hchecked⟩

/-- **A change that is asked for** is tried. The command is answered with its error, or carried out
with it. -/
theorem handle_requested (h : requestedChange pf s cmd = some c) :
    (∃ e t, c.apply pf s.backend = (.error e, t.backend) ∧ t.card = s.card ∧
      handle (vaultBackend pf) cmd s = (.error (mapErr e), t)) ∨
    ∃ b audit t, c.apply pf s.backend = (.ok ⟨⟩, b) ∧ t.backend = { b with audit := audit } ∧
      t.card = s.card ∧ handle (vaultBackend pf) cmd s = (.ok .okEmpty, t) := by
  have hrunning := running_of_requested h
  have hterm : (vaultBackend pf).isTerminationState s.backend = false := hrunning
  rw [requestedChange, if_neg (ne_true_of_eq_false hrunning)] at h
  split_ifs at h with hchange hreset
  · obtain ⟨hins, hchecked⟩ := hchange
    have hi : Instruction.ofByte cmd.ins = some .changeReference := by rw [hins]; rfl
    have hpin : (if (cmd.p2 == 0x83) = true then CardPin.admin else .user) = changedPin cmd.p2 := by
      rw [changedPin]
      exact if_congr beq_iff_eq rfl rfl
    have hlen : (changedTo pf s.backend cmd).length ≤ maxPinLength pf s.backend (changedPin cmd.p2) := by
      have hdata : cmd.data.toBytes.length = maxPinLength pf s.backend (changedPin cmd.p2) * 2 :=
        hchecked.2.2.2.1
      refine (length_trimOpenpgpPinPadding_le _).trans ?_
      rw [List.length_drop, hdata]
      omega
    have hcall : (vaultBackend pf).perform (.changePin (cmd.p2 == 0x83) (changedFrom pf s.backend cmd)
        (changedTo pf s.backend cmd)) s.backend = c.apply pf s.backend := by
      rw [← Option.some.inj h, ← changePin_run hrunning hlen, ← hpin]
      rfl
    rw [handle_run hterm hi, Instruction.handler, (handleChangeReference_cases s).1 hchecked]
    rcases hc : c.apply pf s.backend with ⟨e | ⟨⟨⟩⟩, b⟩
    · rw [hc] at hcall
      rw [Fallible.bind_of_error (call_error hcall)]
      exact .inl ⟨e, s.performed _ false b, rfl, rfl, rfl⟩
    · rw [hc] at hcall
      rw [Fallible.bind_of_ok (call_ok hcall)]
      refine .inr ⟨b, b.audit ^^^ (0x240000 ||| cmd.p2.toUInt32), _, rfl, ?_, ?_, rfl⟩
      · rfl
      · rfl
  · obtain ⟨hins, hchecked⟩ := hreset
    obtain rfl := Option.some.inj h
    have hi : Instruction.ofByte cmd.ins = some .resetRetryCounter := by rw [hins]; rfl
    have hset := resetPin_run hrunning ⟨hchecked.2.2.2.1.1, hchecked.2.2.2.2⟩
    rw [handle_run hterm hi, Instruction.handler, (handleResetRetryCounter_cases s).1 hchecked]
    rw [PinChange.apply, PinChange.attempt, Fallible.bind_of_ok (Fallible.pure_apply _ _)]
    have hstored : (PinChange.store pf _ _).2.termination = _ :=
      termination_store ⟨.user, none, trimOpenpgpPinPadding cmd.data.toBytes⟩ s.backend
    rcases hc : PinChange.store pf ⟨.user, none, trimOpenpgpPinPadding cmd.data.toBytes⟩ s.backend
      with ⟨e | ⟨⟨⟩⟩, b⟩
    · rw [hc] at hset
      rw [Fallible.bind_of_error (call_error hset), Fallible.bind_of_error hc]
      exact .inl ⟨e, s.performed _ false b, rfl, rfl, rfl⟩
    · rw [hc] at hset hstored
      have hreset : (vaultBackend pf).perform .resetPw1RetryCounter b
          = (.ok ⟨⟩, (resetMachine pf .user b).2) := by
        change resetPw1RetryCounter pf b = _
        rw [resetPw1RetryCounter, Fallible.bind_of_ok (ensureNotTerminated_run (hstored.trans hrunning))]
        rfl
      rw [Fallible.bind_of_ok (call_ok hset), Fallible.bind_of_ok hc]
      have hcall : call (vaultBackend pf) .resetPw1RetryCounter
          (s.performed (.setPw1VerifierAdminOnly (trimOpenpgpPinPadding cmd.data.toBytes)) true b)
          = _ := call_ok hreset
      rw [Fallible.bind_of_ok hcall]
      refine .inr ⟨_, b.audit ^^^ 0x2C0081, _, rfl, ?_, ?_, rfl⟩
      · rfl
      · rfl

end Galdralag.OpenPgp
