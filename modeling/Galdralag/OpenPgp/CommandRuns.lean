import Galdralag.OpenPgp.CommandCalls

/-!
# What commands answer

A command on a card that is not terminated runs its handler, and where the calls of the handler are
known, so are the answer and the session that is left. These are the equations for the commands that
the later examples of runs are made of, over any backend.
-/

set_option linter.all false

namespace Galdralag.OpenPgp

variable {β : Type} {bk : OpenPgpBackend β} {cmd : CommandApdu} {s : Session β} {b b' : β}

/-- A terminated card refuses every command. -/
theorem handle_terminated (ht : bk.isTerminationState s.backend = true) : handle bk cmd s =
    (.error (.error (if cmd.ins = 0x20 then .authMethodBlocked else .terminationState)), s) := by
  rw [handle, Fallible.gets_bind, if_pos ht]
  split_ifs <;> rfl

theorem handleApdu_of_ok {r : ResponseApdu} {t : Session β} (h : handle bk cmd s = (.ok r, t)) :
    handleApdu bk cmd s = (r, t) := by
  rw [handleApdu, h]

theorem handleApdu_of_error {r : ResponseApdu} {t : Session β} (h : handle bk cmd s = (.error r, t)) :
    handleApdu bk cmd s = (r, t) := by
  rw [handleApdu, h]

theorem call_ok {c : BackendCall} {a : c.Result}
    (h : bk.perform c s.backend = (.ok a, b)) : call bk c s = (.ok a, s.performed c true b) := by
  rw [call, h]

theorem call_error {c : BackendCall} {e : OpenPgpBackendError}
    (h : bk.perform c s.backend = (.error e, b)) :
    call bk c s = (.error (mapErr e), s.performed c false b) := by
  rw [call, h]

theorem demand_run {p : Prop} [Decidable p] (hp : p) (sw : StatusWord) :
    (demand p sw : Handler β PUnit) s = (.ok ⟨⟩, s) := Fallible.require_eq_ok.mpr ⟨hp, rfl⟩

theorem demand_bind_eq {α : Type} {p : Prop} [Decidable p] {sw : StatusWord} {f : PUnit → Handler β α} :
    (demand p sw >>= f) s = if p then f ⟨⟩ s else (.error (.error sw), s) := by
  split_ifs with hp
  · rw [Fallible.bind_of_ok (demand_run hp sw)]
  · rw [demand, Fallible.bind_apply, Fallible.require, if_neg hp]
    rfl

theorem demandFlag_bind_eq {α : Type} {flag : CardState → Bool} {sw : StatusWord}
    {f : PUnit → Handler β α} : (demandFlag flag sw >>= f) s
      = if flag s.card = true then f ⟨⟩ s else (.error (.error sw), s) := by
  rw [demandFlag, Fallible.bind_assoc, Fallible.gets_bind, demand_bind_eq]

section Running

variable (ht : bk.isTerminationState s.backend = false)
include ht

theorem handle_run {i : Instruction} (hi : Instruction.ofByte cmd.ins = some i) :
    handle bk cmd s = i.handler bk cmd s := by
  rw [handle, Fallible.gets_bind, if_neg (by rw [ht]; exact Bool.false_ne_true), hi]

/-- VERIFY with the right PIN for signing. -/
theorem handle_verifySign (hins : cmd.ins = 0x20) (hp2 : cmd.p2 = 0x81)
    (h : bk.perform (.verifyPw1Sign cmd.data.toBytes) s.backend = (.ok ⟨⟩, b)) :
    handle bk cmd s = (.ok .okEmpty, {
      card := { s.card with pw1VerifiedSign := true }
      backend := bk.logEvent (0x200000 ||| cmd.p2.toUInt32) b
      events := s.events ++ [.call (.verifyPw1Sign cmd.data.toBytes) true] }) := by
  have hi : Instruction.ofByte cmd.ins = some .verify := by rw [hins]; rfl
  rw [handle_run ht hi, Instruction.handler, handleVerify]
  dsimp only
  rw [if_pos hp2, Fallible.bind_of_ok (call_ok h)]
  rfl

/-- VERIFY for signing, answered with the error of the attempt. -/
theorem handle_verifySign_error {e : OpenPgpBackendError} (hins : cmd.ins = 0x20)
    (hp2 : cmd.p2 = 0x81)
    (h : bk.perform (.verifyPw1Sign cmd.data.toBytes) s.backend = (.error e, b)) :
    handle bk cmd s
      = (.error (mapErr e), s.performed (.verifyPw1Sign cmd.data.toBytes) false b) := by
  have hi : Instruction.ofByte cmd.ins = some .verify := by rw [hins]; rfl
  rw [handle_run ht hi, Instruction.handler, handleVerify]
  dsimp only
  rw [if_pos hp2, Fallible.bind_of_error (call_error h)]

/-- VERIFY for other commands, answered with the error of the attempt. -/
theorem handle_verifyOther_error {e : OpenPgpBackendError} (hins : cmd.ins = 0x20)
    (hp2 : cmd.p2 = 0x82)
    (h : bk.perform (.verifyPw1Other cmd.data.toBytes) s.backend = (.error e, b)) :
    handle bk cmd s
      = (.error (mapErr e), s.performed (.verifyPw1Other cmd.data.toBytes) false b) := by
  have hi : Instruction.ofByte cmd.ins = some .verify := by rw [hins]; rfl
  rw [handle_run ht hi, Instruction.handler, handleVerify]
  dsimp only
  rw [if_neg (by rw [hp2]; decide), if_pos hp2, Fallible.bind_of_error (call_error h)]

/-- VERIFY with the right admin PIN. -/
theorem handle_verifyAdmin (hins : cmd.ins = 0x20) (hp2 : cmd.p2 = 0x83)
    (h : bk.perform (.verifyPw3 cmd.data.toBytes) s.backend = (.ok ⟨⟩, b)) :
    handle bk cmd s = (.ok .okEmpty, {
      card := { s.card with pw3Verified := true }
      backend := bk.logEvent (0x200000 ||| cmd.p2.toUInt32) b
      events := s.events ++ [.call (.verifyPw3 cmd.data.toBytes) true] }) := by
  have hi : Instruction.ofByte cmd.ins = some .verify := by rw [hins]; rfl
  rw [handle_run ht hi, Instruction.handler, handleVerify]
  dsimp only
  rw [if_neg (by rw [hp2]; decide), if_neg (by rw [hp2]; decide), if_pos hp2,
    Fallible.bind_of_ok (call_ok h)]
  rfl

/-- CHANGE REFERENCE DATA of PW1, answered with the error of the change. -/
theorem handle_changeUser_error {e : OpenPgpBackendError} {pinLen : ℕ}
    (hcmd : cmd.ins = 0x24 ∧ cmd.p1 = 0x00 ∧ cmd.p2 = 0x81)
    (hlen : ((bk.pwStatusBytes s.backend).toBytes[1]?.getD 0).toNat = pinLen)
    (hrange : pinLen ≠ 0 ∧ pinLen ≤ 127) (hdata : cmd.data.length = pinLen * 2)
    (hnew : trimOpenpgpPinPadding (cmd.data.toBytes.drop pinLen) ≠ [])
    (h : bk.perform (.changePin false (trimOpenpgpPinPadding (cmd.data.toBytes.take pinLen))
      (trimOpenpgpPinPadding (cmd.data.toBytes.drop pinLen))) s.backend = (.error e, b)) :
    handle bk cmd s = (.error (mapErr e), s.performed
      (.changePin false (trimOpenpgpPinPadding (cmd.data.toBytes.take pinLen))
        (trimOpenpgpPinPadding (cmd.data.toBytes.drop pinLen))) false b) := by
  have hi : Instruction.ofByte cmd.ins = some .changeReference := by rw [hcmd.1]; rfl
  have hpw3 : (cmd.p2 == 0x83) = false := by rw [hcmd.2.2]; rfl
  subst hlen
  rw [handle_run ht hi, Instruction.handler, handleChangeReference,
    Fallible.bind_of_ok (demand_run hcmd.2.1 _), Fallible.bind_of_ok (demand_run (.inl hcmd.2.2) _),
    hpw3]
  dsimp only
  rw [Fallible.gets_bind, if_neg Bool.false_ne_true, Fallible.bind_of_ok (demand_run hrange _),
    Fallible.bind_of_ok (demand_run hdata _), Fallible.bind_of_ok (demand_run hnew _),
    Fallible.bind_of_error (call_error h)]

/-- RESET RETRY COUNTER under the admin PIN. -/
theorem handle_resetRetryCounter {maxLen : ℕ}
    (hcmd : cmd.ins = 0x2C ∧ cmd.p1 = 0x00 ∧ cmd.p2 = 0x81) (hflag : s.card.pw3Verified = true)
    (hlen : ((bk.pwStatusBytes s.backend).toBytes[1]?.getD 0).toNat = maxLen)
    (hrange : maxLen ≠ 0 ∧ maxLen ≤ 127)
    (hnew : trimOpenpgpPinPadding cmd.data.toBytes ≠ [] ∧
      (trimOpenpgpPinPadding cmd.data.toBytes).length ≤ maxLen)
    (hset : bk.perform (.setPw1VerifierAdminOnly (trimOpenpgpPinPadding cmd.data.toBytes)) s.backend
      = (.ok ⟨⟩, b))
    (hreset : bk.perform .resetPw1RetryCounter b = (.ok ⟨⟩, b')) :
    handle bk cmd s = (.ok .okEmpty, {
      card := s.card
      backend := bk.logEvent 0x2C0081 b'
      events := s.events ++
        [.call (.setPw1VerifierAdminOnly (trimOpenpgpPinPadding cmd.data.toBytes)) true] ++
        [.call .resetPw1RetryCounter true] }) := by
  have hi : Instruction.ofByte cmd.ins = some .resetRetryCounter := by rw [hcmd.1]; rfl
  have hp1 : cmd.p1 ≠ 0x02 := by rw [hcmd.2.1]; decide
  have hdemand : demandFlag CardState.pw3Verified .securityStatusNotSatisfied s = (.ok ⟨⟩, s) := by
    rw [demandFlag, Fallible.gets_bind, demand_run hflag]
  have hcall : call bk .resetPw1RetryCounter (s.performed
      (.setPw1VerifierAdminOnly (trimOpenpgpPinPadding cmd.data.toBytes)) true b) = _ := call_ok hreset
  subst hlen
  rw [handle_run ht hi, Instruction.handler, handleResetRetryCounter,
    Fallible.bind_of_ok (demand_run hp1 _), Fallible.bind_of_ok (demand_run hcmd.2 _),
    Fallible.bind_of_ok hdemand, Fallible.gets_bind]
  dsimp only
  rw [Fallible.bind_of_ok (demand_run hrange _), Fallible.bind_of_ok (demand_run hnew _),
    Fallible.bind_of_ok (call_ok hset), Fallible.bind_of_ok hcall]
  rfl

/-- PUT DATA. -/
theorem handle_putData (hins : cmd.ins = 0xDA ∨ cmd.ins = 0xDB) (hallowed : putAllowed s.card cmd.tag = true)
    (h : bk.perform (.putDo cmd.tag cmd.data.toBytes) s.backend = (.ok ⟨⟩, b)) :
    handle bk cmd s = (.ok .okEmpty, {
      card := s.card
      backend := bk.logEvent (0xDA0000 ||| cmd.tag.toUInt32) b
      events := s.events ++ [.call (.putDo cmd.tag cmd.data.toBytes) true] }) := by
  have hi : Instruction.ofByte cmd.ins = some .putData := by
    rcases hins with hins | hins <;> rw [hins] <;> rfl
  have hdemand : demandFlag (putAllowed · cmd.tag) .securityStatusNotSatisfied s = (.ok ⟨⟩, s) := by
    rw [demandFlag, Fallible.gets_bind, demand_run hallowed]
  rw [handle_run ht hi, Instruction.handler, handlePutData, Fallible.bind_of_ok hdemand,
    Fallible.bind_of_ok (call_ok h)]
  rfl

/-- SELECT. -/
theorem handle_select (hins : cmd.ins = 0xA4) (hp1 : cmd.p1 = 0x04) (hp2 : cmd.p2 = 0x00)
    (haid : aidMatchesOpenpgp cmd.data.toBytes = true) :
    handle bk cmd s = (.ok .okEmpty, { s with backend := bk.logEvent 0xA40001 s.backend }) := by
  have hi : Instruction.ofByte cmd.ins = some .select := by rw [hins]; rfl
  rw [handle_run ht hi, Instruction.handler, handleSelect, demand, demand, Fallible.require,
    if_pos ⟨hp1, .inl hp2⟩, Fallible.bind_of_ok (Fallible.pure_apply _ _), Fallible.require,
    if_pos haid, Fallible.bind_of_ok (Fallible.pure_apply _ _)]
  rfl

/-- A signature command under the user PIN, with an ECDSA key. -/
theorem handle_computeSignature {sig : Vec 512} {oid : Vec 16}
    (hcmd : cmd.ins = 0x2A ∧ cmd.p1 = 0x9E ∧ cmd.p2 = 0x9A)
    (hflag : s.card.pw1VerifiedSign = true)
    (hattrs : bk.algorithmAttributes s.backend .sig = .ecdsa oid)
    (hsign : bk.perform (.psoSignHash cmd.data.toBytes) s.backend = (.ok sig, b))
    (hcount : bk.perform .incrementSignatureCounter b = (.ok ⟨⟩, b')) :
    handle bk cmd s = chunkResponse cmd sig {
      card := { s.card with pw1VerifiedSign := false }
      backend := bk.logEvent 0x2A9E9A b'
      events := s.events ++ [.call (.psoSignHash cmd.data.toBytes) true] ++
        [.call .incrementSignatureCounter true] } := by
  have hi : Instruction.ofByte cmd.ins = some .pso := by rw [hcmd.1]; rfl
  have hdemand : demandFlag CardState.pw1VerifiedSign .securityStatusNotSatisfied s
      = (.ok ⟨⟩, s) := by
    rw [demandFlag, Fallible.gets_bind, demand, Fallible.require, if_pos hflag]
    rfl
  have hcall : call bk .incrementSignatureCounter
      (s.performed (.psoSignHash cmd.data.toBytes) true b) = _ := call_ok hcount
  rw [handle_run ht hi, Instruction.handler, handlePso, if_pos hcmd.2, handleComputeSignature,
    Fallible.bind_of_ok hdemand, Fallible.gets_bind, hattrs, signHash,
    Fallible.bind_of_ok (call_ok hsign), Fallible.bind_of_ok hcall]
  rfl

end Running

end Galdralag.OpenPgp
