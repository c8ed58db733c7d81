import Galdralag.OpenPgp.CardCalls
import Galdralag.OpenPgp.CommandRuns
import Mathlib.Data.Set.Basic

/-!
# VERIFY over the vault backend

VERIFY hands its data field to the backend as it comes. The reference in P2 says which password is
meant: PW1 has two references and PW3 one. What the card answers, and the backend that is left, are
those of the attempt.
-/

set_option linter.all false

namespace Galdralag.OpenPgp

variable {W T : Type} {pf : CardPlatform W T} {cmd : CommandApdu}
  {s : Session (OpenPgpVaultBackend W T)} {b : OpenPgpVaultBackend W T} {p : CardPin}

/-- The password that a reference in P2 stands for. -/
def passwordOf (p2 : UInt8) : Option CardPin :=
  if p2 = 0x81 ∨ p2 = 0x82 then some .user
  else if p2 = 0x83 then some .admin
  else none

/-- The call that VERIFY makes for a reference. -/
def CommandApdu.verification (cmd : CommandApdu) : BackendCall :=
  if cmd.p2 = 0x81 then .verifyPw1Sign cmd.data.toBytes
  else if cmd.p2 = 0x82 then .verifyPw1Other cmd.data.toBytes
  else .verifyPw3 cmd.data.toBytes

theorem verify_of_ins (hins : cmd.ins = 0x20) : Instruction.ofByte cmd.ins = some .verify := by
  rw [hins]
  rfl

/-- A terminated card does nothing. -/
theorem verify_terminated (ht : s.backend.termination = true) :
    (handle (vaultBackend pf) cmd s).2 = s := by
  have hterm : (vaultBackend pf).isTerminationState s.backend = true := ht
  rw [handle_terminated hterm]

/-- A reference to no password is refused. -/
theorem verify_unreferenced (hins : cmd.ins = 0x20) (hp : passwordOf cmd.p2 = none)
    (ht : s.backend.termination = false) :
    handle (vaultBackend pf) cmd s = (.error (.error .wrongParametersP1P2), s) := by
  have hterm : (vaultBackend pf).isTerminationState s.backend = false := ht
  rw [passwordOf] at hp
  split_ifs at hp with huser hadmin
  obtain ⟨hsign, hother⟩ := not_or.mp huser
  rw [handle_run hterm (verify_of_ins hins), Instruction.handler, handleVerify]
  dsimp only
  rw [if_neg hsign, if_neg hother, if_neg hadmin]
  rfl

theorem verify_unknown (hins : cmd.ins = 0x20) (hp : passwordOf cmd.p2 = none) :
    (handle (vaultBackend pf) cmd s).2 = s := by
  cases ht : s.backend.termination with
  | true => exact verify_terminated ht
  | false => rw [verify_unreferenced hins hp ht]

/-- The flag of a reference is set. -/
def CardState.confirm (p2 : UInt8) (st : CardState) : CardState :=
  if p2 = 0x81 then { st with pw1VerifiedSign := true }
  else if p2 = 0x82 then { st with pw1VerifiedOther := true }
  else { st with pw3Verified := true }

section Attempt

variable (hins : cmd.ins = 0x20) (hp : passwordOf cmd.p2 = some p)
  (ht : s.backend.termination = false)
include hins hp ht

/-- **VERIFY succeeds** with the attempt. -/
theorem verify_ok (h : verifyPin pf p cmd.data.toBytes s.backend = (.ok ⟨⟩, b)) :
    handle (vaultBackend pf) cmd s = (.ok .okEmpty, {
      card := s.card.confirm cmd.p2
      backend := (vaultBackend pf).logEvent (0x200000 ||| cmd.p2.toUInt32) b
      events := s.events ++ [.call cmd.verification true] }) := by
  have hterm : (vaultBackend pf).isTerminationState s.backend = false := ht
  rw [handle_run hterm (verify_of_ins hins), Instruction.handler, handleVerify]
  rw [CommandApdu.verification, CardState.confirm]
  rw [passwordOf] at hp
  dsimp only
  split_ifs at hp with huser hadmin
  · obtain rfl := Option.some.inj hp
    rcases huser with hp2 | hp2
    · rw [if_pos hp2, if_pos hp2, if_pos hp2, Fallible.bind_of_ok (call_ok h)]
      rfl
    · have hne : cmd.p2 ≠ 0x81 := by rw [hp2]; decide
      rw [if_neg hne, if_neg hne, if_neg hne, if_pos hp2, if_pos hp2, if_pos hp2,
        Fallible.bind_of_ok (call_ok h)]
      rfl
  · obtain rfl := Option.some.inj hp
    obtain ⟨hsign, hother⟩ := not_or.mp huser
    rw [if_neg hsign, if_neg hsign, if_neg hsign, if_neg hother, if_neg hother, if_neg hother,
      if_pos hadmin, Fallible.bind_of_ok (call_ok h)]
    rfl

/-- **VERIFY fails** with the attempt. -/
theorem verify_error {e : OpenPgpBackendError}
    (h : verifyPin pf p cmd.data.toBytes s.backend = (.error e, b)) :
    handle (vaultBackend pf) cmd s
      = (.error (mapErr e), s.performed cmd.verification false b) := by
  have hterm : (vaultBackend pf).isTerminationState s.backend = false := ht
  rw [handle_run hterm (verify_of_ins hins), Instruction.handler, handleVerify]
  rw [CommandApdu.verification]
  rw [passwordOf] at hp
  dsimp only
  split_ifs at hp with huser hadmin
  · obtain rfl := Option.some.inj hp
    rcases huser with hp2 | hp2
    · rw [if_pos hp2, if_pos hp2, Fallible.bind_of_error (call_error h)]
    · have hne : cmd.p2 ≠ 0x81 := by rw [hp2]; decide
      rw [if_neg hne, if_neg hne, if_pos hp2, if_pos hp2, Fallible.bind_of_error (call_error h)]
  · obtain rfl := Option.some.inj hp
    obtain ⟨hsign, hother⟩ := not_or.mp huser
    rw [if_neg hsign, if_neg hsign, if_neg hother, if_neg hother, if_pos hadmin,
      Fallible.bind_of_error (call_error h)]

/-- The audit word apart, the attempt leaves the backend. -/
theorem verify_backend : ∃ audit, (handle (vaultBackend pf) cmd s).2.backend
    = { (verifyPin pf p cmd.data.toBytes s.backend).2 with audit := audit } := by
  rcases h : verifyPin pf p cmd.data.toBytes s.backend with ⟨e | ⟨⟨⟩⟩, b⟩
  · rw [verify_error hins hp ht h]
    exact ⟨b.audit, rfl⟩
  · rw [verify_ok hins hp ht h]
    exact ⟨_, rfl⟩

end Attempt

/-! ## Accepted PINs -/

/-- The PINs that VERIFY accepts as long as attempts are left. -/
def accepted (pf : CardPlatform W T) (b : OpenPgpVaultBackend W T) (p : CardPin) : Set Bytes :=
  {pin | pinBytesToVerifierDigest pf pin = b.verifier p}

/-- An attempt on a PIN comes to a comparison. -/
structure AttemptsLeft (pf : CardPlatform W T) (p : CardPin) (b : OpenPgpVaultBackend W T) : Prop where
  running : b.termination = false
  live : (b.machine p).state ≠ .bricked
  charged : ∃ count w, (pf.counter p).increment b.world = (.ok count, w) ∧
    count ≤ (b.machine p).config.maxAttempts

/-- VERIFY succeeds with the accepted PINs. -/
theorem verify_isOk_iff (hins : cmd.ins = 0x20) (hp : passwordOf cmd.p2 = some p)
    (h : AttemptsLeft pf p s.backend) : (handle (vaultBackend pf) cmd s).1.isOk = true ↔
      cmd.data.toBytes ∈ accepted pf s.backend p := by
  obtain ⟨hrunning, hlive, count, w, hcharge, hle⟩ := h
  have hlimit := UInt32.not_lt.mpr hle
  by_cases hpin : pinBytesToVerifierDigest pf cmd.data.toBytes = s.backend.verifier p
  · rw [verify_ok hins hp hrunning (verifyPin_success hrunning hlive hcharge hlimit hpin)]
    exact iff_of_true rfl hpin
  · rw [verify_error hins hp hrunning (verifyPin_failed hrunning hlive hcharge hlimit hpin)]
    refine iff_of_false ?_ hpin
    rintro ⟨⟩

end Galdralag.OpenPgp
