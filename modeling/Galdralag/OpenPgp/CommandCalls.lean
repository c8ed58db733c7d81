import Galdralag.OpenPgp.Dispatch

/-!
# The calls of a command

A command makes at most two backend calls, and which ones can be read off its bytes: `Asks`. A
property of the backend that these calls keep is therefore kept by the command. This is
`Lifts.handle`, the bridge from statements about calls to statements about commands: `Q` relates
the backend before and after, and `P` is what the calls need to know about the backend the command
finds. When a command makes a second call, `P` has to survive the first.
-/

set_option linter.all false

namespace Galdralag.OpenPgp

/-- The calls a command may make. -/
def CommandApdu.Asks (cmd : CommandApdu) : BackendCall → Prop
  | .verifyPw1Sign pin => cmd.ins = 0x20 ∧ cmd.p2 = 0x81 ∧ pin = cmd.data.toBytes
  | .verifyPw1Other pin => cmd.ins = 0x20 ∧ cmd.p2 = 0x82 ∧ pin = cmd.data.toBytes
  | .verifyPw3 pin => cmd.ins = 0x20 ∧ cmd.p2 = 0x83 ∧ pin = cmd.data.toBytes
  | .changePin pw3 _ _ => cmd.ins = 0x24 ∧ pw3 = (cmd.p2 == 0x83)
  | .setPw1VerifierAdminOnly _ => cmd.ins = 0x2C
  | .resetPw1RetryCounter => cmd.ins = 0x2C
  | .putDo tag value => (cmd.ins = 0xDA ∨ cmd.ins = 0xDB) ∧ tag = cmd.tag ∧ value = cmd.data.toBytes
  | .psoSignHash _ => cmd.ins = 0x2A ∧ cmd.p1 = 0x9E ∧ cmd.p2 = 0x9A
  | .ed25519Sign purpose _ =>
    purpose = .openPgpSig ∧ cmd.ins = 0x2A ∧ cmd.p1 = 0x9E ∧ cmd.p2 = 0x9A
  | .incrementSignatureCounter => cmd.ins = 0x2A ∧ cmd.p1 = 0x9E ∧ cmd.p2 = 0x9A
  | .psoDecipher _ => cmd.ins = 0x2A ∧ cmd.p1 = 0x80 ∧ cmd.p2 = 0x86
  | .ecdhDec _ _ => cmd.ins = 0x2A ∧ cmd.p1 = 0x80 ∧ cmd.p2 = 0x86
  | .x25519Ecdh _ _ => cmd.ins = 0x2A ∧ cmd.p1 = 0x80 ∧ cmd.p2 = 0x86
  | .internalAuthenticate _ => cmd.ins = 0x88
  | .generateOrReadKey p1 _ => cmd.ins = 0x47 ∧ p1 = cmd.p1
  | .getChallenge _ => cmd.ins = 0x84

/-- The calls after which their command makes another one. -/
def BackendCall.Precedes : BackendCall → Prop
  | .setPw1VerifierAdminOnly _ => True
  | .psoSignHash _ => True
  | .ed25519Sign _ _ => True
  | _ => False

variable {β : Type} {bk : OpenPgpBackend β} {cmd : CommandApdu} {P : β → Prop} {Q : β → β → Prop}
  {α γ : Type}

/-- A call that succeeds is a successful run of the backend. -/
theorem call_eq_ok {c : BackendCall} {a : c.Result} {s t : Session β}
    (h : call bk c s = (.ok a, t)) : bk.perform c s.backend = (.ok a, t.backend) := by
  rw [call] at h
  rcases hrun : bk.perform c s.backend with ⟨e | a', b⟩ <;> rw [hrun] at h
  · cases (Prod.mk.inj h).1
  · obtain ⟨ha, rfl⟩ := Prod.mk.inj h
    rw [Except.ok.inj ha]
    rfl

/-! ## Steps that leave the backend alone -/

/-- A handler that only works on the card state. -/
def Aside (m : Handler β α) : Prop := ∀ s, (m s).2.backend = s.backend

theorem Aside.bind {m : Handler β γ} {f : γ → Handler β α} (hm : Aside m) (hf : ∀ a, Aside (f a)) :
    Aside (m >>= f) := by
  intro s
  have hms := hm s
  rw [Fallible.bind_apply]
  rcases hrun : m s with ⟨_ | a, t⟩ <;> rw [hrun] at hms
  · exact hms
  · exact (hf a t).trans hms

theorem aside_pure (a : α) : Aside (pure a : Handler β α) := fun _ ↦ rfl

theorem aside_gets (f : Session β → α) : Aside (.gets f : Handler β α) := fun _ ↦ rfl

theorem aside_refuse (sw : StatusWord) : Aside (refuse sw : Handler β α) := fun _ ↦ rfl

theorem aside_setCard (f : CardState → CardState) : Aside (setCard f : Handler β PUnit) :=
  fun _ ↦ rfl

theorem aside_demand (p : Prop) [Decidable p] (sw : StatusWord) :
    Aside (demand p sw : Handler β PUnit) := by
  intro s
  rw [demand, Fallible.require]
  split_ifs <;> rfl

theorem aside_demandFlag (flag : CardState → Bool) (sw : StatusWord) :
    Aside (demandFlag flag sw : Handler β PUnit) := fun s ↦ aside_demand _ _ s

theorem aside_orRefuse (o : Option α) (sw : StatusWord) : Aside (orRefuse o sw : Handler β α) := by
  intro s
  cases o <;> rfl

theorem aside_chunkResponse (data : Vec 512) :
    Aside (chunkResponse cmd data : Handler β ResponseApdu) := by
  intro s
  rw [chunkResponse]
  split_ifs <;> rfl

theorem aside_handleGetResponse : Aside (handleGetResponse cmd : Handler β ResponseApdu) := by
  refine (aside_gets _).bind fun st ↦ (aside_demand _ _).bind fun _ ↦ ?_
  refine (aside_orRefuse _ _).bind fun chunk ↦ Aside.bind (fun _ ↦ rfl) fun _ s ↦ ?_
  split_ifs <;> rfl

theorem aside_handleGetData : Aside (handleGetData bk cmd) :=
  Aside.bind (fun _ ↦ rfl) fun _ ↦ aside_chunkResponse _

theorem aside_handleManageSecurityEnvironment :
    Aside (handleManageSecurityEnvironment cmd : Handler β ResponseApdu) := by
  refine (aside_demand _ _).bind fun _ ↦ (aside_orRefuse _ _).bind fun k ↦ ?_
  split_ifs
  · exact (aside_setCard _).bind fun _ ↦ aside_pure _
  · exact (aside_setCard _).bind fun _ ↦ aside_pure _
  · exact (aside_setCard _).bind fun _ ↦ aside_pure _
  · exact (aside_refuse _).bind fun _ ↦ aside_pure _

/-! ## Lifting a relation from calls to commands -/

/-- What the calls of a command must satisfy for the command to move the backend along `Q`. -/
structure Lifts (bk : OpenPgpBackend β) (cmd : CommandApdu) (P : β → Prop) (Q : β → β → Prop) :
    Prop where
  refl : ∀ b, Q b b
  trans : ∀ {b b' b''}, Q b b' → Q b' b'' → Q b b''
  log : ∀ code b, Q b (bk.logEvent code b)
  log_keeps : ∀ code b, P b → P (bk.logEvent code b)
  asked : ∀ c, cmd.Asks c → Fallible.MovesFrom P Q (bk.perform c)
  prelude : ∀ c, cmd.Asks c → c.Precedes → Fallible.MovesFrom P (fun _ b ↦ P b) (bk.perform c)

/-- A handler that moves the backend along a relation, from backends with `P`. -/
def MovesBackend (P : β → Prop) (Q : β → β → Prop) (m : Handler β α) : Prop :=
  Fallible.MovesFrom (fun s ↦ P s.backend) (fun s t ↦ Q s.backend t.backend) m

namespace Lifts

variable (h : Lifts bk cmd P Q)
include h

theorem aside {P : β → Prop} {m : Handler β α} (hm : Aside m) : MovesBackend P Q m := by
  intro s _
  have hs : s.backend = (m s).2.backend := (hm s).symm
  exact hs ▸ h.refl s.backend

/-- After a step that leaves the backend alone. -/
theorem after {P : β → Prop} {m : Handler β γ} {f : γ → Handler β α} (hm : Aside m)
    (hf : ∀ a, MovesBackend P Q (f a)) : MovesBackend P Q (m >>= f) := by
  intro s hs
  have hms := hm s
  rw [Fallible.bind_apply]
  rcases hrun : m s with ⟨_ | a, t⟩ <;> rw [hrun] at hms
  · have heq : t.backend = s.backend := hms
    change Q s.backend t.backend
    rw [heq]
    exact h.refl _
  · have heq : t.backend = s.backend := hms
    have ht : P t.backend := by rw [heq]; exact hs
    have hstep : Q t.backend (f a t).2.backend := hf a t ht
    rwa [heq] at hstep

/-- A recorded event. -/
theorem after_log {code : UInt32} {f : PUnit → Handler β α} (hf : MovesBackend P Q (f ⟨⟩)) :
    MovesBackend P Q (logEvent bk code >>= f) := fun s hs ↦
  h.trans (h.log code s.backend)
    (hf ⟨s.card, bk.logEvent code s.backend, s.events⟩ (h.log_keeps code _ hs))

/-- A last call, after which only events are recorded. -/
theorem after_call {c : BackendCall} {f : c.Result → Handler β α} (hc : cmd.Asks c)
    (hf : ∀ a, MovesBackend (fun _ ↦ True) Q (f a)) : MovesBackend P Q (call bk c >>= f) := by
  intro s hs
  have hcall := h.asked c hc s.backend hs
  rw [Fallible.bind_apply, call]
  rcases hrun : bk.perform c s.backend with ⟨_ | a, b⟩ <;> rw [hrun] at hcall
  · exact hcall
  · exact h.trans hcall (hf a (s.performed c true b) trivial)

/-- A call that is followed by another one. -/
theorem after_prelude {c : BackendCall} {f : c.Result → Handler β α} (hc : cmd.Asks c)
    (hp : c.Precedes) (hf : ∀ a, MovesBackend P Q (f a)) : MovesBackend P Q (call bk c >>= f) := by
  intro s hs
  have hcall := h.asked c hc s.backend hs
  have hkeep := h.prelude c hc hp s.backend hs
  rw [Fallible.bind_apply, call]
  rcases hrun : bk.perform c s.backend with ⟨_ | a, b⟩ <;> rw [hrun] at hcall hkeep
  · exact hcall
  · exact h.trans hcall (hf a (s.performed c true b) hkeep)

theorem logged (code : UInt32) (m : Handler β α) (hm : Aside m) :
    MovesBackend (fun _ ↦ True) Q (logEvent bk code >>= fun _ ↦ m) := by
  intro s _
  have hs : (m ⟨s.card, bk.logEvent code s.backend, s.events⟩).2.backend
      = bk.logEvent code s.backend := hm _
  change Q s.backend (m _).2.backend
  rw [hs]
  exact h.log code s.backend

/-! ### The handlers -/

theorem handleVerify (hins : cmd.ins = 0x20) : MovesBackend P Q (handleVerify bk cmd) := by
  have hend : ∀ f : CardState → CardState, MovesBackend (fun _ ↦ True) Q (do
      setCard f
      logEvent bk (0x200000 ||| cmd.p2.toUInt32)
      pure ResponseApdu.okEmpty : Handler β ResponseApdu) := fun f ↦
    h.after (aside_setCard f) fun _ ↦ h.logged _ _ (aside_pure _)
  rw [OpenPgp.handleVerify]
  dsimp only
  split_ifs with h₁ h₂ h₃
  · exact h.after_call (c := .verifyPw1Sign cmd.data.toBytes) ⟨hins, h₁, rfl⟩ fun _ ↦ hend _
  · exact h.after_call (c := .verifyPw1Other cmd.data.toBytes) ⟨hins, h₂, rfl⟩ fun _ ↦ hend _
  · exact h.after_call (c := .verifyPw3 cmd.data.toBytes) ⟨hins, h₃, rfl⟩ fun _ ↦ hend _
  · exact h.aside fun _ ↦ rfl

theorem handleChangeReference (hins : cmd.ins = 0x24) :
    MovesBackend P Q (handleChangeReference bk cmd) := by
  refine h.after (aside_demand _ _) fun _ ↦ h.after (aside_demand _ _) fun _ ↦ ?_
  refine h.after (aside_gets _) fun pw ↦ h.after (aside_demand _ _) fun _ ↦ ?_
  refine h.after (aside_demand _ _) fun _ ↦ h.after (aside_demand _ _) fun _ ↦ ?_
  exact h.after_call (c := .changePin _ _ _) ⟨hins, rfl⟩ fun _ ↦ h.logged _ _ (aside_pure _)

theorem handleResetRetryCounter (hins : cmd.ins = 0x2C) :
    MovesBackend P Q (handleResetRetryCounter bk cmd) := by
  refine h.after (aside_demand _ _) fun _ ↦ h.after (aside_demand _ _) fun _ ↦ ?_
  refine h.after (aside_demandFlag _ _) fun _ ↦ h.after (aside_gets _) fun pw ↦ ?_
  refine h.after (aside_demand _ _) fun _ ↦ h.after (aside_demand _ _) fun _ ↦ ?_
  refine h.after_prelude (c := .setPw1VerifierAdminOnly _) hins trivial fun _ ↦ ?_
  exact h.after_call (c := .resetPw1RetryCounter) hins fun _ ↦ h.logged _ _ (aside_pure _)

theorem handlePutData (hins : cmd.ins = 0xDA ∨ cmd.ins = 0xDB) :
    MovesBackend P Q (handlePutData bk cmd) :=
  h.after (aside_demandFlag _ _) fun _ ↦
    h.after_call (c := .putDo cmd.tag cmd.data.toBytes) ⟨hins, rfl, rfl⟩ fun _ ↦
      h.logged _ _ (aside_pure _)

theorem handleSelect : MovesBackend P Q (handleSelect bk cmd) :=
  h.after (aside_demand _ _) fun _ ↦ h.after (aside_demand _ _) fun _ ↦
    h.after_log (h.aside (aside_pure _))

theorem handleGetChallenge (hins : cmd.ins = 0x84) :
    MovesBackend P Q (handleGetChallenge bk cmd) := by
  refine h.after (aside_demand _ _) fun _ ↦ h.after (aside_orRefuse _ _) fun l ↦ ?_
  refine h.after (aside_demand _ _) fun _ s hs ↦ ?_
  have hcall := h.asked (.getChallenge l.toNat) hins s.backend hs
  rw [Fallible.bind_apply, Fallible.orElse, call]
  rcases hrun : bk.perform (.getChallenge l.toNat) s.backend with ⟨_ | a, b⟩ <;> rw [hrun] at hcall
  · exact hcall
  · have hend := (aside_orRefuse (Vec.ofBytes? a.toBytes : Option (Vec 512)) .executionError).bind
      (fun out ↦ aside_pure (ResponseApdu.ok out)) (s.performed (.getChallenge l.toNat) true b)
    exact Eq.mpr (congrArg (Q s.backend) hend) hcall

theorem handleInternalAuth (hins : cmd.ins = 0x88) :
    MovesBackend P Q (handleInternalAuth bk cmd) :=
  h.after (aside_demandFlag _ _) fun _ ↦
    h.after_call (c := .internalAuthenticate _) hins fun _ ↦
      h.logged _ _ (aside_chunkResponse _)

theorem handleGenerate (hins : cmd.ins = 0x47) : MovesBackend P Q (handleGenerate bk cmd) := by
  refine h.after (aside_orRefuse _ _) fun slot ↦ h.after (aside_demandFlag _ _) fun _ ↦ ?_
  refine h.after_call (c := .generateOrReadKey cmd.p1 slot) ⟨hins, rfl⟩ fun out ↦ ?_
  split_ifs
  · exact h.logged _ _ (aside_chunkResponse _)
  · exact h.aside (aside_chunkResponse _)

theorem signHash_bind {f : Vec 512 → Handler β α} (hcmd : cmd.ins = 0x2A ∧ cmd.p1 = 0x9E ∧ cmd.p2 = 0x9A)
    (hash : Bytes) (attrs : AlgorithmAttributes) (hf : ∀ sig, MovesBackend P Q (f sig)) :
    MovesBackend P Q (signHash bk hash attrs >>= f) := by
  cases attrs with
  | ecdsa oid => exact h.after_prelude (c := .psoSignHash hash) hcmd trivial hf
  | edDsa oid =>
    rw [signHash]
    split_ifs
    · rw [Fallible.bind_assoc]
      refine h.after_prelude (c := .ed25519Sign .openPgpSig hash) ⟨rfl, hcmd⟩ trivial fun s ↦ ?_
      exact h.after (aside_orRefuse _ _) hf
    · exact h.aside fun _ ↦ rfl
  | rsa m e f => exact h.aside fun _ ↦ rfl
  | ecdh oid => exact h.aside fun _ ↦ rfl

theorem handleComputeSignature (hcmd : cmd.ins = 0x2A ∧ cmd.p1 = 0x9E ∧ cmd.p2 = 0x9A) :
    MovesBackend P Q (handleComputeSignature bk cmd) := by
  refine h.after (aside_demandFlag _ _) fun _ ↦ h.after (aside_gets _) fun attrs ↦ ?_
  refine h.signHash_bind hcmd _ _ fun sig ↦ ?_
  refine h.after_call (c := .incrementSignatureCounter) hcmd fun _ ↦ ?_
  exact h.after (aside_setCard _) fun _ ↦ h.logged _ _ (aside_chunkResponse _)

theorem handleDecipher (hcmd : cmd.ins = 0x2A ∧ cmd.p1 = 0x80 ∧ cmd.p2 = 0x86) :
    MovesBackend P Q (handleDecipher bk cmd) := by
  refine h.after (aside_demandFlag _ _) fun _ ↦ ?_
  dsimp only
  cases parseEcdhPeerPublicKey cmd.data.toBytes with
  | none =>
    exact h.after_log (h.after_call (c := .psoDecipher _) hcmd fun _ ↦
      h.aside (aside_chunkResponse _))
  | some peer =>
    refine h.after_log (h.after (aside_gets _) fun attrs ↦ ?_)
    cases attrs with
    | ecdh oid =>
      dsimp only
      split_ifs
      · exact h.after_call (c := .x25519Ecdh _ _) hcmd fun _ ↦
          h.aside ((aside_orRefuse _ _).bind fun _ ↦ aside_chunkResponse _)
      · exact h.after_call (c := .ecdhDec _ _) hcmd fun _ ↦
          h.aside ((aside_orRefuse _ _).bind fun _ ↦ aside_chunkResponse _)
    | rsa m e f => exact h.aside fun _ ↦ rfl
    | ecdsa oid => exact h.aside fun _ ↦ rfl
    | edDsa oid => exact h.aside fun _ ↦ rfl

theorem handlePso (hins : cmd.ins = 0x2A) : MovesBackend P Q (handlePso bk cmd) := by
  rw [OpenPgp.handlePso]
  split_ifs with hsign hdec
  · exact h.handleComputeSignature ⟨hins, hsign⟩
  · exact h.handleDecipher ⟨hins, hdec⟩
  · exact h.aside (aside_refuse _)

end Lifts

/-- The bytes of an instruction. -/
def Instruction.Encoded (ins : UInt8) : Instruction → Prop
  | .select => ins = 0xA4
  | .verify => ins = 0x20
  | .changeReference => ins = 0x24
  | .pso => ins = 0x2A
  | .internalAuth => ins = 0x88
  | .getResponse => ins = 0xC0
  | .getData => ins = 0xCA
  | .putData => ins = 0xDA ∨ ins = 0xDB
  | .generateKey => ins = 0x47
  | .resetRetryCounter => ins = 0x2C
  | .getChallenge => ins = 0x84
  | .manageSecurityEnvironment => ins = 0x22

theorem Instruction.encoded_of_ofByte {ins : UInt8} {i : Instruction}
    (h : Instruction.ofByte ins = some i) : i.Encoded ins := by
  have hstep : ∀ {p : Prop} [Decidable p] {j : Instruction} {o : Option Instruction},
      (p → j.Encoded ins) → (o = some i → i.Encoded ins) →
      (if p then some j else o) = some i → i.Encoded ins := by
    intro p _ j o hj ho h
    split_ifs at h with hp
    · rw [← Option.some.inj h]
      exact hj hp
    · exact ho h
  rw [Instruction.ofByte] at h
  revert h
  iterate 12 refine hstep (fun hp ↦ hp) ?_
  exact nofun

/-- **From calls to commands.** A command moves the backend as its calls do. -/
theorem Lifts.handle (h : Lifts bk cmd P Q) : MovesBackend P Q (handle bk cmd) := by
  intro s hs
  rcases handle_cases bk cmd s with ⟨sw, hr⟩ | ⟨i, hi, hr⟩
  · rw [hr]
    exact h.refl _
  · rw [hr]
    have hins := Instruction.encoded_of_ofByte hi
    cases i with
    | select => exact h.handleSelect s hs
    | verify => exact h.handleVerify hins s hs
    | changeReference => exact h.handleChangeReference hins s hs
    | pso => exact h.handlePso hins s hs
    | internalAuth => exact h.handleInternalAuth hins s hs
    | getResponse => exact h.aside (P := P) aside_handleGetResponse s hs
    | getData => exact h.aside (P := P) aside_handleGetData s hs
    | putData => exact h.handlePutData hins s hs
    | generateKey => exact h.handleGenerate hins s hs
    | resetRetryCounter => exact h.handleResetRetryCounter hins s hs
    | getChallenge => exact h.handleGetChallenge hins s hs
    | manageSecurityEnvironment =>
      exact h.aside (P := P) aside_handleManageSecurityEnvironment s hs

end Galdralag.OpenPgp
