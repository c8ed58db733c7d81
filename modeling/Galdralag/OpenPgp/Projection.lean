import Galdralag.OpenPgp.Dispatch

/-!
# A backend behind another

A backend can be wrapped, for example to keep a record of its calls. Where the wrapper answers what
the backend behind it answers, and moves the state behind its own as that backend does, the
dispatcher does not see the difference. It answers every command the same, and the sessions stay
projections of each other: `handle_projects`.
-/

set_option linter.all false

namespace Galdralag.OpenPgp

open Fallible (Coupled)

variable {β γ : Type} {f : γ → β} {bk' : OpenPgpBackend γ} {bk : OpenPgpBackend β}

/-- A session as the backend behind its own has it. -/
def Session.project (f : γ → β) (s : Session γ) : Session β := ⟨s.card, f s.backend, s.events⟩

/-- The backend `bk'` answers what `bk` answers on the state behind its own, and moves that state as
`bk` does. -/
structure Projects (f : γ → β) (bk' : OpenPgpBackend γ) (bk : OpenPgpBackend β) : Prop where
  isTerminationState : ∀ b, bk'.isTerminationState b = bk.isTerminationState (f b)
  aidBytes : ∀ b, bk'.aidBytes b = bk.aidBytes (f b)
  pwStatusBytes : ∀ b, bk'.pwStatusBytes b = bk.pwStatusBytes (f b)
  getDo : ∀ b tag, bk'.getDo b tag = bk.getDo (f b) tag
  algorithmAttributes : ∀ b slot, bk'.algorithmAttributes b slot = bk.algorithmAttributes (f b) slot
  logEvent : ∀ code b, f (bk'.logEvent code b) = bk.logEvent code (f b)
  perform_fst : ∀ c b, (bk'.perform c b).1 = (bk.perform c (f b)).1
  perform_snd : ∀ c b, f (bk'.perform c b).2 = (bk.perform c (f b)).2

/-- Two handlers that do the same, the one behind the other. -/
def Same {α : Type} (f : γ → β) (m : Handler γ α) (m' : Handler β α) : Prop :=
  Coupled (fun s t ↦ t = s.project f) Eq m m'

section Steps

variable {α δ : Type}

theorem Same.bind {m : Handler γ δ} {m' : Handler β δ} {k : δ → Handler γ α} {k' : δ → Handler β α}
    (h : Same f m m') (hk : ∀ a, Same f (k a) (k' a)) : Same f (m >>= k) (m' >>= k') := by
  refine Coupled.bind h ?_
  rintro a b rfl
  exact hk a

theorem same_pure (a : α) : Same f (pure a) (pure a) := .pure rfl

theorem same_refuse (sw : StatusWord) : Same f (refuse sw : Handler γ α) (refuse sw) := .fail _

theorem same_demand (p : Prop) [Decidable p] (sw : StatusWord) :
    Same f (demand p sw) (demand p sw) := .require p _

/-- A value of the session that is the same for both. -/
theorem same_gets {g : Session γ → α} {g' : Session β → α} (h : ∀ s, g s = g' (s.project f)) :
    Same f (.gets g) (.gets g') := by
  apply Coupled.gets
  rintro s t rfl
  exact h s

theorem same_demandFlag (flag : CardState → Bool) (sw : StatusWord) :
    Same f (demandFlag flag sw) (demandFlag flag sw) := by
  have hflag : Same f (.gets fun s ↦ flag s.card) (.gets fun s ↦ flag s.card) :=
    same_gets fun _ ↦ rfl
  exact hflag.bind fun verified ↦ same_demand (verified = true) sw

theorem same_orRefuse (o : Option α) (sw : StatusWord) :
    Same f (orRefuse o sw : Handler γ α) (orRefuse o sw) := by
  cases o with
  | none => exact same_refuse sw
  | some a => exact same_pure a

/-- An update of the session that does not touch the backend. -/
theorem same_modify {g : Session γ → Session γ} {g' : Session β → Session β}
    (h : ∀ s, g' (s.project f) = (g s).project f) : Same f (.modify g) (.modify g') := by
  apply Coupled.modify
  rintro s t rfl
  exact h s

theorem same_setCard (g : CardState → CardState) : Same f (setCard g) (setCard g) :=
  same_modify fun _ ↦ rfl

theorem same_keep (buffer : Vec 2048) (sent : ℕ) : Same f (keep buffer sent) (keep buffer sent) :=
  same_modify fun _ ↦ rfl

theorem same_fetch (chunk : Bytes) (sent : ℕ) : Same f (fetch chunk sent) (fetch chunk sent) :=
  same_modify fun _ ↦ rfl

theorem same_card : Same f (.gets fun s ↦ s.card) (.gets fun s ↦ s.card) := same_gets fun _ ↦ rfl

theorem same_orElse {m : Handler γ α} {m' : Handler β α} (h : Same f m m') (r : ResponseApdu) :
    Same f (Fallible.orElse m r) (Fallible.orElse m' r) := Coupled.orElse h r

theorem same_chunkResponse (cmd : CommandApdu) (data : Vec 512) :
    Same f (chunkResponse cmd data) (chunkResponse cmd data) := by
  rw [chunkResponse, chunkResponse]
  dsimp only
  by_cases hlen : data.length ≤ cmd.leLimit
  · rw [if_pos hlen, if_pos hlen]
    exact same_pure _
  · rw [if_neg hlen, if_neg hlen]
    exact (same_keep _ _).bind fun _ ↦ same_pure _

theorem same_handleGetResponse (cmd : CommandApdu) :
    Same f (handleGetResponse cmd) (handleGetResponse cmd) := by
  refine same_card.bind fun st ↦ (same_demand _ _).bind fun _ ↦ ?_
  refine (same_orRefuse _ _).bind fun chunk ↦ (same_fetch _ _).bind fun _ ↦ ?_
  dsimp only
  split_ifs
  · exact same_pure _
  · exact (same_setCard _).bind fun _ ↦ same_pure _

theorem same_handleManageSecurityEnvironment (cmd : CommandApdu) :
    Same f (handleManageSecurityEnvironment cmd) (handleManageSecurityEnvironment cmd) := by
  refine (same_demand _ _).bind fun _ ↦ (same_orRefuse _ _).bind fun k ↦ ?_
  split_ifs
  · exact (same_setCard _).bind fun _ ↦ same_pure _
  · exact (same_setCard _).bind fun _ ↦ same_pure _
  · exact (same_setCard _).bind fun _ ↦ same_pure _
  · exact (same_refuse _).bind fun _ ↦ same_pure _

end Steps

namespace Projects

variable (h : Projects f bk' bk) (cmd : CommandApdu)
include h

/-! ## Steps that reach the backend -/

theorem logEvent_same (code : UInt32) :
    Same f (OpenPgp.logEvent bk' code) (OpenPgp.logEvent bk code) := by
  apply same_modify
  intro s
  rw [Session.project, Session.project, h.logEvent]

/-- What a handler does at its end. -/
theorem done (code : UInt32) : Same f
    (do OpenPgp.logEvent bk' code; pure ResponseApdu.okEmpty)
    (do OpenPgp.logEvent bk code; pure ResponseApdu.okEmpty) :=
  (h.logEvent_same code).bind fun _ ↦ same_pure _

theorem call (c : BackendCall) : Same f (OpenPgp.call bk' c) (OpenPgp.call bk c) := by
  rintro s t rfl
  have hfst := h.perform_fst c s.backend
  have hsnd := h.perform_snd c s.backend
  rw [OpenPgp.call, OpenPgp.call, Session.project]
  dsimp only
  rcases hrun : bk'.perform c s.backend with ⟨r, b⟩
  rcases hrun' : bk.perform c (f s.backend) with ⟨r', b'⟩
  rw [hrun, hrun'] at hfst hsnd
  obtain rfl : r = r' := hfst
  obtain rfl : f b = b' := hsnd
  cases r with
  | error e => exact ⟨.error _, rfl⟩
  | ok a => exact ⟨.ok rfl, rfl⟩

theorem doTag (tag : UInt16) (b : γ) : OpenPgp.doTag bk' tag b = OpenPgp.doTag bk tag (f b) := by
  rw [OpenPgp.doTag, OpenPgp.doTag, h.aidBytes, h.getDo, h.getDo, h.getDo, h.getDo, h.getDo]

/-! ## Handlers -/

theorem handleGetData : Same f (OpenPgp.handleGetData bk' cmd) (OpenPgp.handleGetData bk cmd) := by
  have hask : Same f (ask (OpenPgp.doTag bk' cmd.tag)) (ask (OpenPgp.doTag bk cmd.tag)) := by
    apply Coupled.reading
    rintro s t rfl
    rw [h.doTag]
    exact .refl _
  exact hask.bind fun data ↦ same_chunkResponse cmd data

theorem handleSelect : Same f (OpenPgp.handleSelect bk' cmd) (OpenPgp.handleSelect bk cmd) :=
  (same_demand _ _).bind fun _ ↦ (same_demand _ _).bind fun _ ↦ h.done _

theorem handleGetChallenge :
    Same f (OpenPgp.handleGetChallenge bk' cmd) (OpenPgp.handleGetChallenge bk cmd) := by
  refine (same_demand _ _).bind fun _ ↦ (same_orRefuse _ _).bind fun l ↦ ?_
  refine (same_demand _ _).bind fun _ ↦ (same_orElse (h.call _) _).bind fun bytes ↦ ?_
  exact (same_orRefuse _ _).bind fun out ↦ same_pure _

theorem handleVerify : Same f (OpenPgp.handleVerify bk' cmd) (OpenPgp.handleVerify bk cmd) := by
  rw [OpenPgp.handleVerify, OpenPgp.handleVerify]
  dsimp only
  split_ifs
  · exact (h.call _).bind fun _ ↦ (same_setCard _).bind fun _ ↦ h.done _
  · exact (h.call _).bind fun _ ↦ (same_setCard _).bind fun _ ↦ h.done _
  · exact (h.call _).bind fun _ ↦ (same_setCard _).bind fun _ ↦ h.done _
  · exact (same_refuse _).bind fun _ ↦ h.done _

/-- The PIN lengths that a handler reads. -/
theorem pwStatus_same : Same f (.gets fun s ↦ (bk'.pwStatusBytes s.backend).toBytes)
    (.gets fun s ↦ (bk.pwStatusBytes s.backend).toBytes) :=
  same_gets fun s ↦ congrArg Block.toBytes (h.pwStatusBytes s.backend)

/-- The attributes that a handler reads. -/
theorem attributes_same (slot : OpenPgpKeySlot) :
    Same f (.gets fun s ↦ bk'.algorithmAttributes s.backend slot)
      (.gets fun s ↦ bk.algorithmAttributes s.backend slot) :=
  same_gets fun s ↦ h.algorithmAttributes s.backend slot

theorem handleChangeReference :
    Same f (OpenPgp.handleChangeReference bk' cmd) (OpenPgp.handleChangeReference bk cmd) := by
  refine (same_demand _ _).bind fun _ ↦ (same_demand _ _).bind fun _ ↦ ?_
  refine h.pwStatus_same.bind fun pw ↦ (same_demand _ _).bind fun _ ↦ ?_
  refine (same_demand _ _).bind fun _ ↦ (same_demand _ _).bind fun _ ↦ ?_
  exact (h.call _).bind fun _ ↦ h.done _

theorem handleResetRetryCounter :
    Same f (OpenPgp.handleResetRetryCounter bk' cmd) (OpenPgp.handleResetRetryCounter bk cmd) := by
  refine (same_demand _ _).bind fun _ ↦ (same_demand _ _).bind fun _ ↦ ?_
  refine (same_demandFlag _ _).bind fun _ ↦ h.pwStatus_same.bind fun pw ↦ ?_
  refine (same_demand _ _).bind fun _ ↦ (same_demand _ _).bind fun _ ↦ ?_
  exact (h.call _).bind fun _ ↦ (h.call _).bind fun _ ↦ h.done _

theorem handlePutData : Same f (OpenPgp.handlePutData bk' cmd) (OpenPgp.handlePutData bk cmd) :=
  (same_demandFlag _ _).bind fun _ ↦ (h.call _).bind fun _ ↦ h.done _

theorem signHash (hash : Bytes) (attrs : AlgorithmAttributes) :
    Same f (OpenPgp.signHash bk' hash attrs) (OpenPgp.signHash bk hash attrs) := by
  cases attrs with
  | rsa bits exponent format => exact same_refuse _
  | ecdh oid => exact same_refuse _
  | ecdsa oid => exact h.call _
  | edDsa oid =>
    rw [OpenPgp.signHash, OpenPgp.signHash]
    split_ifs
    · exact (h.call _).bind fun s ↦ same_orRefuse _ _
    · exact same_refuse _

theorem handleComputeSignature :
    Same f (OpenPgp.handleComputeSignature bk' cmd) (OpenPgp.handleComputeSignature bk cmd) := by
  refine (same_demandFlag _ _).bind fun _ ↦ (h.attributes_same .sig).bind fun attrs ↦ ?_
  refine (h.signHash _ attrs).bind fun sig ↦ (h.call _).bind fun _ ↦ ?_
  exact (same_setCard _).bind fun _ ↦ (h.logEvent_same _).bind fun _ ↦ same_chunkResponse cmd sig

theorem handleDecipher :
    Same f (OpenPgp.handleDecipher bk' cmd) (OpenPgp.handleDecipher bk cmd) := by
  refine (same_demandFlag _ _).bind fun _ ↦ ?_
  have hshared : ∀ o : Option (Vec 512), Same f
      (orRefuse o .executionError >>= fun out ↦ chunkResponse cmd out)
      (orRefuse o .executionError >>= fun out ↦ chunkResponse cmd out) :=
    fun o ↦ (same_orRefuse _ _).bind fun out ↦ same_chunkResponse cmd out
  dsimp only
  rcases parseEcdhPeerPublicKey cmd.data.toBytes with _ | peer
  · exact (h.logEvent_same _).bind fun _ ↦
      (h.call (.psoDecipher _)).bind fun out ↦ same_chunkResponse cmd out
  · refine (h.logEvent_same _).bind fun _ ↦ (h.attributes_same .dec).bind fun attrs ↦ ?_
    cases attrs with
    | rsa => exact same_refuse _
    | ecdsa => exact same_refuse _
    | edDsa => exact same_refuse _
    | ecdh curveOid =>
      dsimp only
      split_ifs
      · exact (h.call (.x25519Ecdh .openPgpDec peer)).bind fun _ ↦ hshared _
      · exact (h.call (.ecdhDec .openPgpDec peer)).bind fun _ ↦ hshared _

theorem handlePso : Same f (OpenPgp.handlePso bk' cmd) (OpenPgp.handlePso bk cmd) := by
  rw [OpenPgp.handlePso, OpenPgp.handlePso]
  split_ifs
  · exact h.handleComputeSignature cmd
  · exact h.handleDecipher cmd
  · exact same_refuse _

theorem handleInternalAuth :
    Same f (OpenPgp.handleInternalAuth bk' cmd) (OpenPgp.handleInternalAuth bk cmd) :=
  (same_demandFlag _ _).bind fun _ ↦ (h.call (.internalAuthenticate _)).bind fun out ↦
    (h.logEvent_same _).bind fun _ ↦ same_chunkResponse cmd out

theorem handleGenerate :
    Same f (OpenPgp.handleGenerate bk' cmd) (OpenPgp.handleGenerate bk cmd) := by
  refine (same_orRefuse _ _).bind fun slot ↦ (same_demandFlag _ _).bind fun _ ↦ ?_
  refine (h.call (.generateOrReadKey cmd.p1 slot)).bind fun out ↦ ?_
  by_cases hp1 : cmd.p1 = 0x80
  · rw [if_pos hp1, if_pos hp1]
    exact (h.logEvent_same _).bind fun _ ↦ same_chunkResponse cmd out
  · rw [if_neg hp1, if_neg hp1]
    exact same_chunkResponse cmd out

theorem handler (i : Instruction) : Same f (i.handler bk' cmd) (i.handler bk cmd) := by
  cases i with
  | select => exact h.handleSelect cmd
  | verify => exact h.handleVerify cmd
  | changeReference => exact h.handleChangeReference cmd
  | pso => exact h.handlePso cmd
  | internalAuth => exact h.handleInternalAuth cmd
  | getResponse => exact same_handleGetResponse cmd
  | getData => exact h.handleGetData cmd
  | putData => exact h.handlePutData cmd
  | generateKey => exact h.handleGenerate cmd
  | resetRetryCounter => exact h.handleResetRetryCounter cmd
  | getChallenge => exact h.handleGetChallenge cmd
  | manageSecurityEnvironment => exact same_handleManageSecurityEnvironment cmd

/-- **Projection.** The dispatcher does the same over the wrapper and over the backend behind it. -/
theorem handle : Same f (OpenPgp.handle bk' cmd) (OpenPgp.handle bk cmd) := by
  have hterm : Same f (.gets fun s ↦ bk'.isTerminationState s.backend)
      (.gets fun s ↦ bk.isTerminationState s.backend) :=
    same_gets fun s ↦ h.isTerminationState s.backend
  refine hterm.bind fun terminated ↦ ?_
  split_ifs
  · exact same_refuse _
  · exact same_refuse _
  · cases Instruction.ofByte cmd.ins with
    | none => exact same_refuse _
    | some i => exact h.handler cmd i

/-- The answer and the session after a command. -/
theorem handle_project (s : Session γ) :
    (OpenPgp.handle bk' cmd s).1 = (OpenPgp.handle bk cmd (s.project f)).1 ∧
      (OpenPgp.handle bk' cmd s).2.project f = (OpenPgp.handle bk cmd (s.project f)).2 :=
  ⟨(h.handle cmd s _ rfl).1.eq, (h.handle cmd s _ rfl).2.symm⟩

end Projects

end Galdralag.OpenPgp
