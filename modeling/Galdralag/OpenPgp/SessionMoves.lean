import Galdralag.OpenPgp.Dispatch

/-!
# From the steps of a session to its commands

Handlers are put together from a few steps: they replace the card state, log an event, note what
they keep or send, and call the backend. A relation between sessions that every such step keeps,
and that is reflexive and transitive, is kept by every command. This is `Stepwise.handle`, the rule
for what a command does to a session over any backend.
-/

set_option linter.all false

namespace Galdralag.OpenPgp

variable {β α γ : Type} {bk : OpenPgpBackend β} {cmd : CommandApdu}
  {R : Session β → Session β → Prop}

/-- A relation between sessions that every step of a handler keeps. -/
structure Stepwise (bk : OpenPgpBackend β) (R : Session β → Session β → Prop) : Prop where
  refl : ∀ s, R s s
  trans : ∀ {s t u}, R s t → R t u → R s u
  card : ∀ s st, R s { s with card := st }
  log : ∀ s code, R s { s with backend := bk.logEvent code s.backend }
  kept : ∀ s data, R s { s with events := s.events ++ [.kept data] }
  fetched : ∀ s chunk, R s { s with events := s.events ++ [.fetched chunk] }
  call : ∀ c, Fallible.Moves R (call bk c)

namespace Stepwise

variable (h : Stepwise bk R)
include h

/-! ## The steps -/

theorem bind {m : Handler β γ} {f : γ → Handler β α} (hm : Fallible.Moves R m)
    (hf : ∀ a, Fallible.Moves R (f a)) : Fallible.Moves R (m >>= f) :=
  hm.bind h.trans hf

theorem pure (a : α) : Fallible.Moves R (Pure.pure a : Handler β α) := .pure h.refl a

theorem refuse (sw : StatusWord) : Fallible.Moves R (refuse sw : Handler β α) := .fail h.refl _

theorem gets (f : Session β → α) : Fallible.Moves R (.gets f : Handler β α) := .gets h.refl f

theorem demand (p : Prop) [Decidable p] (sw : StatusWord) :
    Fallible.Moves R (demand p sw : Handler β PUnit) := .require h.refl _ _

theorem demandFlag (flag : CardState → Bool) (sw : StatusWord) :
    Fallible.Moves R (demandFlag flag sw : Handler β PUnit) :=
  h.bind (h.gets _) fun _ ↦ h.demand _ _

theorem orRefuse (o : Option α) (sw : StatusWord) :
    Fallible.Moves R (orRefuse o sw : Handler β α) := by
  cases o with
  | none => exact h.refuse sw
  | some a => exact h.pure a

theorem setCard (f : CardState → CardState) : Fallible.Moves R (setCard f : Handler β PUnit) :=
  .modify fun s ↦ h.card s (f s.card)

theorem logEvent (code : UInt32) : Fallible.Moves R (logEvent bk code) :=
  .modify fun s ↦ h.log s code

theorem keep (buffer : Vec 2048) (sent : ℕ) :
    Fallible.Moves R (keep buffer sent : Handler β PUnit) :=
  .modify fun s ↦ h.trans (h.kept s _) (h.card _ _)

theorem fetch (chunk : Bytes) (sent : ℕ) :
    Fallible.Moves R (fetch chunk sent : Handler β PUnit) :=
  .modify fun s ↦ h.trans (h.fetched s _) (h.card _ _)

theorem chunkResponse (data : Vec 512) :
    Fallible.Moves R (chunkResponse cmd data : Handler β ResponseApdu) := by
  rw [OpenPgp.chunkResponse]
  split_ifs
  · exact h.pure _
  · exact h.bind (h.keep _ _) fun _ ↦ h.pure _

/-- A note in the log, and success. -/
theorem logged (code : UInt32) : Fallible.Moves R (do
    OpenPgp.logEvent bk code
    Pure.pure ResponseApdu.okEmpty) := h.bind (h.logEvent code) fun _ ↦ h.pure _

/-! ## The handlers -/

theorem handleGetResponse : Fallible.Moves R (handleGetResponse cmd : Handler β ResponseApdu) := by
  refine h.bind (h.gets _) fun st ↦ h.bind (h.demand _ _) fun _ ↦ ?_
  refine h.bind (h.orRefuse _ _) fun chunk ↦ h.bind (h.fetch _ _) fun _ ↦ ?_
  dsimp only
  split_ifs
  · exact h.pure _
  · exact h.bind (h.setCard _) fun _ ↦ h.pure _

theorem handleVerify : Fallible.Moves R (handleVerify bk cmd) := by
  rw [OpenPgp.handleVerify]
  dsimp only
  split_ifs
  · exact h.bind (h.call _) fun _ ↦ h.bind (h.setCard _) fun _ ↦ h.logged _
  · exact h.bind (h.call _) fun _ ↦ h.bind (h.setCard _) fun _ ↦ h.logged _
  · exact h.bind (h.call _) fun _ ↦ h.bind (h.setCard _) fun _ ↦ h.logged _
  · exact h.bind (h.refuse _) fun _ ↦ h.logged _

theorem handleChangeReference : Fallible.Moves R (handleChangeReference bk cmd) := by
  refine h.bind (h.demand _ _) fun _ ↦ h.bind (h.demand _ _) fun _ ↦ ?_
  refine h.bind (h.gets _) fun pw ↦ h.bind (h.demand _ _) fun _ ↦ ?_
  refine h.bind (h.demand _ _) fun _ ↦ h.bind (h.demand _ _) fun _ ↦ ?_
  exact h.bind (h.call _) fun _ ↦ h.logged _

theorem handleResetRetryCounter : Fallible.Moves R (handleResetRetryCounter bk cmd) := by
  refine h.bind (h.demand _ _) fun _ ↦ h.bind (h.demand _ _) fun _ ↦ ?_
  refine h.bind (h.demandFlag _ _) fun _ ↦ h.bind (h.gets _) fun pw ↦ ?_
  refine h.bind (h.demand _ _) fun _ ↦ h.bind (h.demand _ _) fun _ ↦ ?_
  exact h.bind (h.call _) fun _ ↦ h.bind (h.call _) fun _ ↦ h.logged _

theorem handlePutData : Fallible.Moves R (handlePutData bk cmd) :=
  h.bind (h.demandFlag _ _) fun _ ↦ h.bind (h.call _) fun _ ↦ h.logged _

theorem handleSelect : Fallible.Moves R (handleSelect bk cmd) :=
  h.bind (h.demand _ _) fun _ ↦ h.bind (h.demand _ _) fun _ ↦ h.logged _

theorem handleGetChallenge : Fallible.Moves R (handleGetChallenge bk cmd) := by
  refine h.bind (h.demand _ _) fun _ ↦ h.bind (h.orRefuse _ _) fun l ↦ ?_
  refine h.bind (h.demand _ _) fun _ ↦ h.bind ((h.call _).orElse _) fun bytes ↦ ?_
  exact h.bind (h.orRefuse _ _) fun _ ↦ h.pure _

theorem handleManageSecurityEnvironment :
    Fallible.Moves R (handleManageSecurityEnvironment cmd : Handler β ResponseApdu) := by
  refine h.bind (h.demand _ _) fun _ ↦ h.bind (h.orRefuse _ _) fun k ↦ ?_
  split_ifs
  · exact h.bind (h.setCard _) fun _ ↦ h.pure _
  · exact h.bind (h.setCard _) fun _ ↦ h.pure _
  · exact h.bind (h.setCard _) fun _ ↦ h.pure _
  · exact h.bind (h.refuse _) fun _ ↦ h.pure _

theorem handleGetData : Fallible.Moves R (handleGetData bk cmd) :=
  h.bind (.reading h.refl _) fun data ↦ h.chunkResponse data

theorem handleInternalAuth : Fallible.Moves R (handleInternalAuth bk cmd) :=
  h.bind (h.demandFlag _ _) fun _ ↦ h.bind (h.call _) fun out ↦
    h.bind (h.logEvent _) fun _ ↦ h.chunkResponse out

theorem handleGenerate : Fallible.Moves R (handleGenerate bk cmd) := by
  refine h.bind (h.orRefuse _ _) fun slot ↦ h.bind (h.demandFlag _ _) fun _ ↦ ?_
  refine h.bind (h.call (.generateOrReadKey cmd.p1 slot)) fun out ↦ ?_
  split_ifs
  · exact h.bind (h.logEvent _) fun _ ↦ h.chunkResponse out
  · exact h.chunkResponse out

theorem signHash (hash : Bytes) (attrs : AlgorithmAttributes) :
    Fallible.Moves R (signHash bk hash attrs) := by
  cases attrs with
  | rsa => exact h.refuse _
  | ecdh => exact h.refuse _
  | ecdsa => exact h.call (.psoSignHash hash)
  | edDsa curveOid =>
    rw [OpenPgp.signHash]
    split_ifs
    · exact h.bind (h.call (.ed25519Sign .openPgpSig hash)) fun out ↦ h.orRefuse _ _
    · exact h.refuse _

theorem handleComputeSignature : Fallible.Moves R (handleComputeSignature bk cmd) := by
  refine h.bind (h.demandFlag _ _) fun _ ↦ h.bind (h.gets _) fun attrs ↦ ?_
  refine h.bind (h.signHash _ attrs) fun sig ↦ h.bind (h.call _) fun _ ↦ ?_
  exact h.bind (h.setCard _) fun _ ↦ h.bind (h.logEvent _) fun _ ↦ h.chunkResponse sig

theorem handleDecipher : Fallible.Moves R (handleDecipher bk cmd) := by
  refine h.bind (h.demandFlag _ _) fun _ ↦ ?_
  dsimp only
  cases parseEcdhPeerPublicKey cmd.data.toBytes with
  | none =>
    refine h.bind (h.logEvent _) fun _ ↦ ?_
    exact h.bind (h.call (.psoDecipher cmd.data.toBytes)) fun out ↦ h.chunkResponse out
  | some peer =>
    refine h.bind (h.logEvent _) fun _ ↦ h.bind (h.gets _) fun attrs ↦ ?_
    cases attrs with
    | ecdh oid =>
      dsimp only
      split_ifs
      · exact h.bind (h.call (.x25519Ecdh .openPgpDec peer)) fun shared ↦
          h.bind (h.orRefuse _ _) fun out ↦ h.chunkResponse out
      · exact h.bind (h.call (.ecdhDec .openPgpDec peer)) fun shared ↦
          h.bind (h.orRefuse _ _) fun out ↦ h.chunkResponse out
    | rsa => exact h.refuse _
    | ecdsa => exact h.refuse _
    | edDsa => exact h.refuse _

theorem handlePso : Fallible.Moves R (handlePso bk cmd) := by
  rw [OpenPgp.handlePso]
  split_ifs
  · exact h.handleComputeSignature
  · exact h.handleDecipher
  · exact h.refuse _

theorem handler (ins : Instruction) : Fallible.Moves R (ins.handler bk cmd) := by
  cases ins with
  | select => exact h.handleSelect
  | verify => exact h.handleVerify
  | changeReference => exact h.handleChangeReference
  | pso => exact h.handlePso
  | internalAuth => exact h.handleInternalAuth
  | getResponse => exact h.handleGetResponse
  | getData => exact h.handleGetData
  | putData => exact h.handlePutData
  | generateKey => exact h.handleGenerate
  | resetRetryCounter => exact h.handleResetRetryCounter
  | getChallenge => exact h.handleGetChallenge
  | manageSecurityEnvironment => exact h.handleManageSecurityEnvironment

/-- **From steps to commands.** A command keeps what its steps keep. -/
theorem handle (s : Session β) : R s (handleApdu bk cmd s).2 := by
  rw [handleApdu_snd]
  rcases handle_cases bk cmd s with ⟨sw, hr⟩ | ⟨ins, -, hr⟩
  · rw [hr]
    exact h.refuse (α := ResponseApdu) sw s
  · rw [hr]
    exact h.handler ins s

end Stepwise

/-! ## The record -/

/-- The record of a session only grows. -/
theorem stepwise_events (bk : OpenPgpBackend β) :
    Stepwise bk fun s t ↦ s.events <+: t.events where
  refl s := List.prefix_refl _
  trans h h' := h.trans h'
  card s st := List.prefix_refl _
  log s code := List.prefix_refl _
  kept s data := List.prefix_append _ _
  fetched s chunk := List.prefix_append _ _
  call c s := by
    rcases call_cases bk c s with ⟨a, b, h⟩ | ⟨e, b, h⟩
    · rw [h]
      exact List.prefix_append _ _
    · rw [h]
      exact List.prefix_append _ _

end Galdralag.OpenPgp
