import Galdralag.OpenPgp.CcidEcho
import Galdralag.OpenPgp.SessionMoves
import Galdralag.OpenPgp.SessionReset

/-!
# The loop of the card service

The card service runs the dispatcher over the USB driver of the system. In every turn of its loop it
asks for the link status, waits for a message, answers it and hands the answer to the driver. The
driver answers power-on and slot status by itself, so these never reach the dispatcher.

Three things can go wrong in a turn: the link is lost, waiting for a message fails, or the driver
does not take the answer. The card session ends with each of them, as it does with a power-off and
an abort. Here the record of the session is cut at the point where this happens, and what comes
after it is shown to stand on its own: guarded calls need a verification made since, and what
GET RESPONSE sends was kept since.
-/

set_option linter.all false

namespace Galdralag.OpenPgp

variable {β : Type} {bk : OpenPgpBackend β}

/-! ## The USB driver -/

/-- States of the USB link. -/
inductive UsbDeviceState where
  | default
  | addressed
  | configured
  | suspend
  deriving DecidableEq, Repr

/-- The state a status code stands for. -/
def UsbDeviceState.fromScalar : ℕ → Option UsbDeviceState
  | 0 => some .default
  | 1 => some .addressed
  | 2 => some .configured
  | 3 => some .suspend
  | _ => none

/-- The link status, from the code the driver replies with if it does. -/
def usbLinkStatus (reply : Option ℕ) : UsbDeviceState :=
  (reply.bind UsbDeviceState.fromScalar).getD .default

/-- What the USB driver does in one turn of the loop. -/
structure ServiceTurn where
  /-- The code it replies to the question for the link status. -/
  link : Option ℕ
  /-- The message it delivers, unless waiting for one fails. -/
  received : Option Bytes
  /-- Whether it takes the answer. -/
  taken : Bool

/-- Whether the service answers a message. -/
def isDeferred (msg : Bytes) : Bool :=
  match parsePcToRdr msg with
  | .ok pc => !pc.answeredInlineByUsbBao1x
  | .error _ => true

/-- The message of a turn, if the service answers it. -/
def ServiceTurn.deferred (t : ServiceTurn) : Option Bytes := t.received.filter isDeferred

/-! ## The loop -/

/-- The service: its dispatcher, the link status it saw last, and the answers it handed to the
driver, oldest first. -/
structure CardService (β : Type) where
  dispatcher : Session β
  lastLink : UsbDeviceState
  answers : List (Vec 530)

namespace CardService

variable {sv : CardService β}

/-- A service over a new dispatcher, with the link status of the start. -/
def start (b : β) (link : Option ℕ) : CardService β := ⟨.new b, usbLinkStatus link, []⟩

/-- The link status is new, and the device is not configured. -/
def LinkLost (sv : CardService β) (reply : Option ℕ) : Prop :=
  usbLinkStatus reply ≠ sv.lastLink ∧ usbLinkStatus reply ≠ .configured

/-- Ask for the link status; a loss resets the session. -/
def checkLink (bk : OpenPgpBackend β) (sv : CardService β) (reply : Option ℕ) : CardService β :=
  let st := usbLinkStatus reply
  if st ≠ sv.lastLink then
    { sv with
      dispatcher := if st ≠ .configured then onUsbReset bk sv.dispatcher else sv.dispatcher
      lastLink := st }
  else sv

/-- Answer a message and hand the answer to the driver; if it is not taken the session is reset. -/
def answer (bk : OpenPgpBackend β) (sv : CardService β) (bytes : Bytes) (taken : Bool) :
    CardService β :=
  match ccidDispatchOne bk bytes sv.dispatcher with
  | (none, s) => { sv with dispatcher := s }
  | (some data, s) =>
    { sv with
      dispatcher := if taken then s else onUsbReset bk s
      answers := sv.answers ++ [data] }

/-- One turn. Where waiting fails the session is reset. -/
def turn (bk : OpenPgpBackend β) (sv : CardService β) (t : ServiceTurn) : CardService β :=
  let sv := sv.checkLink bk t.link
  match t.received with
  | none => { sv with dispatcher := onUsbReset bk sv.dispatcher }
  | some bytes => sv.answer bk bytes t.taken

/-- A whole run of turns. -/
def serveLoop (bk : OpenPgpBackend β) (sv : CardService β) (ts : List ServiceTurn) :
    CardService β :=
  ts.foldl (turn bk) sv

/-! ## What a turn keeps -/

/-- A relation that resets and commands keep is kept by turns. -/
theorem turn_moves {R : Session β → Session β → Prop} (htrans : ∀ {s t u}, R s t → R t u → R s u)
    (hrefl : ∀ s, R s s) (hreset : ∀ s, R s s.reset) (husb : ∀ s, R s (onUsbReset bk s))
    (hcmd : ∀ cmd s, R s (handleApdu bk cmd s).2) (sv : CardService β) (t : ServiceTurn) :
    R sv.dispatcher (sv.checkLink bk t.link).dispatcher ∧
      R (sv.checkLink bk t.link).dispatcher (sv.turn bk t).dispatcher := by
  have hlink : R sv.dispatcher (sv.checkLink bk t.link).dispatcher := by
    rw [checkLink]
    split_ifs
    · exact husb _
    · exact hrefl _
    · exact hrefl _
  have hccid : ∀ (m : PcToRdr) (s : Session β), R s (handleCcid bk m s).2 := by
    intro m s
    cases m with
    | iccPowerOn slot seq powerSelect => exact hrefl s
    | iccPowerOff slot seq => exact hreset s
    | getSlotStatus slot seq => exact hrefl s
    | abort slot seq => exact hreset s
    | xfrBlock slot seq apdu =>
      rw [handleCcid]
      rcases CommandApdu.parse apdu.toBytes with e | cmd
      · exact hrefl s
      · exact hcmd cmd s
  have hone : ∀ (bytes : Bytes) (s : Session β), R s (ccidDispatchOne bk bytes s).2 := by
    intro bytes s
    rw [ccidDispatchOne]
    rcases parsePcToRdr bytes with e | m
    · exact hrefl s
    · dsimp only
      split_ifs
      · exact hrefl s
      · exact hccid m s
  refine ⟨hlink, ?_⟩
  rw [turn]
  rcases t.received with _ | bytes
  · exact husb _
  · have hmove := hone bytes (sv.checkLink bk t.link).dispatcher
    dsimp only
    rw [answer]
    rcases hrun : ccidDispatchOne bk bytes (sv.checkLink bk t.link).dispatcher with ⟨_ | data, s⟩
    · rw [hrun] at hmove
      exact hmove
    · rw [hrun] at hmove
      dsimp only
      split_ifs
      · exact hmove
      · exact htrans hmove (husb s)

/-- A relation that turns keep is kept by runs. -/
theorem serveLoop_moves {R : Session β → Session β → Prop} (hrefl : ∀ s, R s s)
    (htrans : ∀ {s t u}, R s t → R t u → R s u)
    (hturn : ∀ (sv : CardService β) t, R sv.dispatcher (sv.turn bk t).dispatcher)
    (sv : CardService β) (ts : List ServiceTurn) :
    R sv.dispatcher (sv.serveLoop bk ts).dispatcher := by
  induction ts generalizing sv with
  | nil => exact hrefl _
  | cons t ts ih => exact htrans (hturn sv t) (ih (sv.turn bk t))

theorem keepsSound_turn (sv : CardService β) (t : ServiceTurn) :
    KeepsSound sv.dispatcher (sv.checkLink bk t.link).dispatcher ∧
      KeepsSound (sv.checkLink bk t.link).dispatcher (sv.turn bk t).dispatcher := by
  refine turn_moves .trans .refl (fun s hs ↦ hs.reset) (fun s hs ↦ ?_) (fun cmd s hs ↦ ?_) sv t
  · exact ⟨hs.reset.calls, hs.reset.flags, hs.reset.serving.1, hs.reset.serving.2⟩
  · exact hs.step (.apdu cmd)

/-- **Run.** The session of a service is sound after every run. -/
theorem sound_serveLoop (h : sv.dispatcher.Sound) (ts : List ServiceTurn) :
    (sv.serveLoop bk ts).dispatcher.Sound :=
  serveLoop_moves (R := KeepsSound) .refl .trans
    (fun sv t ↦ (keepsSound_turn sv t).1.trans (keepsSound_turn sv t).2) sv ts h

theorem events_turn (sv : CardService β) (t : ServiceTurn) :
    sv.dispatcher.events <+: (sv.checkLink bk t.link).dispatcher.events ∧
      (sv.checkLink bk t.link).dispatcher.events <+: (sv.turn bk t).dispatcher.events :=
  turn_moves (R := fun s t ↦ s.events <+: t.events) List.IsPrefix.trans
    (fun s ↦ List.prefix_refl _) (fun s ↦ List.prefix_append _ _) (fun s ↦ List.prefix_append _ _)
    (fun cmd s ↦ (stepwise_events bk).handle s) sv t

/-- The record of a service only grows. -/
theorem events_serveLoop (sv : CardService β) (ts : List ServiceTurn) :
    sv.dispatcher.events <+: (sv.serveLoop bk ts).dispatcher.events :=
  serveLoop_moves (R := fun s t ↦ s.events <+: t.events) (fun s ↦ List.prefix_refl _)
    List.IsPrefix.trans (fun sv t ↦ (events_turn sv t).1.trans (events_turn sv t).2) sv ts

end CardService

/-! ## Answers -/

namespace CardService

/-- The slot and the sequence number that an answer to a message carries: those of its header, and
zero for what the message is too short for. -/
def headerSlotSeq (msg : Bytes) : Bytes := [msg[5]?.getD 0, msg[6]?.getD 0]

/-- An answer says how long it is. -/
def WellFramed (data : Vec 530) : Prop := data.length = 10 + dwLength data.toBytes

end CardService

theorem wellFramed_frame (msgType slot seq : UInt8) (st : CcidStatus) {payload : Bytes}
    (h : payload.length ≤ 520) : CardService.WellFramed (frame msgType slot seq st payload) := by
  have hlen : ∀ tail : Bytes, (msgType :: u32le (.ofNat payload.length) ++ tail).length
      = 5 + tail.length := by
    intro tail
    rw [List.length_append, List.length_cons, length_u32le]
  have hfits : (msgType :: u32le (.ofNat payload.length)
      ++ [slot, seq, st.bStatus, st.bError, st.bChain] ++ payload).length = 10 + payload.length := by
    rw [List.append_assoc, hlen, List.length_append]
    simp only [List.length_cons, List.length_nil]
    omega
  have hbytes : (frame msgType slot seq st payload).toBytes = msgType :: u32le (.ofNat payload.length)
      ++ [slot, seq, st.bStatus, st.bError, st.bChain] ++ payload :=
    Vec.toBytes_truncated (by omega)
  have hdw : dwLength (frame msgType slot seq st payload).toBytes = payload.length := by
    rw [hbytes, dwLength, List.append_assoc, List.cons_append, List.drop_one, List.tail_cons,
      List.take_left' (length_u32le _), u32le, leNat_leBytes, UInt32.toNat_ofNat']
    omega
  rw [CardService.WellFramed, hdw, Vec.length, hbytes, hfits]

/-- Every answer of the handler is well framed. -/
theorem wellFramed_handleCcid (bk : OpenPgpBackend β) (m : PcToRdr) (s : Session β) :
    CardService.WellFramed (handleCcid bk m s).1 := by
  have hatr : atrOpenpgpProfile.length ≤ 520 := by decide
  cases m with
  | iccPowerOn slot seq powerSelect => exact wellFramed_frame _ _ _ _ hatr
  | iccPowerOff slot seq => exact wellFramed_frame _ _ _ _ (Nat.zero_le _)
  | getSlotStatus slot seq => exact wellFramed_frame _ _ _ _ (Nat.zero_le _)
  | abort slot seq => exact wellFramed_frame _ _ _ _ (Nat.zero_le _)
  | xfrBlock slot seq apdu =>
    rw [handleCcid]
    rcases CommandApdu.parse apdu.toBytes with e | cmd
    · exact wellFramed_frame _ _ _ _ (Nat.zero_le _)
    · refine wellFramed_frame _ _ _ _ ?_
      exact (Vec.length_le _).trans (by decide)

/-- A message that is parsed has a complete header. -/
theorem slotSeq_of_parse {msg : Bytes} {m : PcToRdr} (h : parsePcToRdr msg = .ok m) :
    m.slotSeq = CardService.headerSlotSeq msg := by
  have hheader : 10 ≤ msg.length := by
    by_contra hshort
    rcases msg with _ | ⟨t, _ | ⟨l₀, _ | ⟨l₁, _ | ⟨l₂, _ | ⟨l₃, _ | ⟨slot, _ | ⟨seq, _ | ⟨b₇, _ | ⟨b₈,
      _ | ⟨b₉, payload⟩⟩⟩⟩⟩⟩⟩⟩⟩⟩
    case cons.cons.cons.cons.cons.cons.cons.cons.cons.cons => exact hshort (by simp)
    all_goals cases h
  obtain ⟨m', hm', hslot⟩ := parse_of_supported (complete_of_parse hheader h)
    (supported_of_parse (complete_of_parse hheader h) h)
  obtain rfl : m = m' := Except.ok.inj (h.symm.trans hm')
  obtain ⟨t, l₀, l₁, l₂, l₃, slot, seq, b₇, b₈, b₉, payload, rfl⟩ := exists_header hheader
  exact hslot

namespace CardService

/-- The answer to a message: none for what the driver answers, and otherwise one that is well
framed and carries slot and sequence number of the message. -/
theorem ccidDispatchOne_answer (bk : OpenPgpBackend β) (t : ServiceTurn) {bytes : Bytes}
    (hmsg : t.received = some bytes) (s : Session β) :
    t.deferred = none ∧ (ccidDispatchOne bk bytes s).1 = none ∨
      ∃ data, t.deferred = some bytes ∧ (ccidDispatchOne bk bytes s).1 = some data ∧
        slotSeq data.toBytes = headerSlotSeq bytes ∧ WellFramed data := by
  have hdeferred : t.deferred = if isDeferred bytes = true then some bytes else none := by
    rw [ServiceTurn.deferred, hmsg, Option.filter]
  rcases hm : parsePcToRdr bytes with e | m
  · have hyes : isDeferred bytes = true := by rw [isDeferred, hm]
    have hdata : (ccidDispatchOne bk bytes s).1 = some (rdrToPcSlotStatus (bytes[5]?.getD 0)
        (bytes[6]?.getD 0) .cmdNotSupported) := by rw [ccidDispatchOne, hm]
    exact .inr ⟨_, hdeferred.trans (if_pos hyes), hdata, slotSeq_frame _ _ _ _ _,
      wellFramed_frame _ _ _ _ (Nat.zero_le _)⟩
  · by_cases hinline : m.answeredInlineByUsbBao1x = true
    · have hno : ¬ isDeferred bytes = true := by simp [isDeferred, hm, hinline]
      refine .inl ⟨hdeferred.trans (if_neg hno), ?_⟩
      rw [ccidDispatchOne, hm]
      exact congrArg Prod.fst (if_pos hinline)
    · have hyes : isDeferred bytes = true := by simp [isDeferred, hm, hinline]
      have hdata : (ccidDispatchOne bk bytes s).1 = some (handleCcid bk m s).1 := by
        rw [ccidDispatchOne, hm]
        exact congrArg Prod.fst (if_neg hinline)
      refine .inr ⟨_, hdeferred.trans (if_pos hyes), hdata, ?_, wellFramed_handleCcid bk m s⟩
      exact (slotSeq_handleCcid bk m s).trans (slotSeq_of_parse hm)

/-- **One answer a message.** In every run of the service, over any backend, the answers handed to
the driver are one for each message that the driver does not answer itself, malformed ones
included, in the order of the messages. Each carries slot and sequence number of its message, and
announces its own length. -/
theorem answers_match_messages (bk : OpenPgpBackend β) (b : β) (link : Option ℕ)
    (ts : List ServiceTurn) :
    let sv := (start b link).serveLoop bk ts
    (sv.answers.map fun data ↦ slotSeq data.toBytes)
        = (ts.filterMap ServiceTurn.deferred).map headerSlotSeq ∧
      ∀ data ∈ sv.answers, WellFramed data := by
  induction ts using List.reverseRecOn with
  | nil => exact ⟨rfl, nofun⟩
  | append_singleton ts t ih =>
    intro sv
    obtain ⟨hslots, hframed⟩ := ih
    have hrun : sv = ((start b link).serveLoop bk ts).turn bk t := List.foldl_concat _ _ _ _
    have hlink : ∀ sv' : CardService β, (sv'.checkLink bk t.link).answers = sv'.answers := by
      intro sv'
      rw [checkLink]
      split_ifs <;> rfl
    rw [hrun, turn, List.filterMap_append, List.map_append, ← hslots]
    rcases hmsg : t.received with _ | bytes
    · have hnone : t.deferred = none := by
        rw [ServiceTurn.deferred, hmsg]
        rfl
      refine ⟨?_, fun data hdata ↦ hframed data ?_⟩
      · simp [hnone, hlink]
      · exact hlink _ ▸ hdata
    · dsimp only
      rw [answer]
      rcases hone : ccidDispatchOne bk bytes _ with ⟨answer?, s⟩
      rcases ccidDispatchOne_answer bk t hmsg (((start b link).serveLoop bk ts).checkLink bk
        t.link).dispatcher with ⟨hno, hnone⟩ | ⟨data, hyes, hdata, hslot, hframe⟩
      · rw [hone] at hnone
        obtain rfl : answer? = none := hnone
        refine ⟨?_, fun data hdata ↦ hframed data ?_⟩
        · simp [hno, hlink]
        · exact hlink _ ▸ hdata
      · rw [hone] at hdata
        obtain rfl : answer? = some data := hdata
        refine ⟨?_, fun data' hdata' ↦ ?_⟩
        · simp [hyes, hlink, hslot]
        · rcases List.mem_append.mp hdata' with hold | hnew
          · exact hframed data' (hlink _ ▸ hold)
          · rw [List.mem_singleton.mp hnew]
            exact hframe

end CardService

/-! ## The end of a session -/

/-- A turn at whose end the session has been reset: waiting failed, the answer was not taken, or
the message was a power-off or an abort. -/
def ServiceTurn.EndsSession (t : ServiceTurn) : Prop :=
  t.received = none ∨ t.deferred ≠ none ∧ t.taken = false ∨
    ∃ bytes slot seq, t.received = some bytes ∧ (parsePcToRdr bytes = .ok (.iccPowerOff slot seq) ∨
      parsePcToRdr bytes = .ok (.abort slot seq))

/-- What a record holds beyond `base` is justified without it. -/
def FreshSince (base events : List SessionEvent) : Prop :=
  ∃ new, events = base ++ new ∧ Guarded SessionEvent.Justified new ∧
    Guarded SessionEvent.Served new

variable {base : List SessionEvent} {s : Session β}

/-- What happens after a reset is justified by what has happened since. -/
theorem freshSince_reset (hs : s.Sound) (hpre : base ++ [.reset] <+: s.events) :
    FreshSince (base ++ [.reset]) s.events := by
  obtain ⟨new, hnew⟩ := hpre
  have hcalls := hs.calls
  have hsent := hs.serving.sent
  rw [← hnew] at hcalls hsent
  refine ⟨new, hnew.symm, hcalls.part fun pre e he ↦ ?_, hsent.part fun pre e he ↦ ?_⟩
  · cases e with
    | call c ok =>
      intro pw hpw
      have hauth := he pw hpw
      rw [Authorised, List.append_assoc] at hauth
      exact hauth.after trivial id
    | reset => trivial
    | kept data => trivial
    | fetched chunk => trivial
  · cases e with
    | fetched chunk =>
      obtain ⟨data, hdata, hpart⟩ := he
      rw [Kept, List.append_assoc] at hdata
      exact ⟨data, hdata.after rfl nofun, hpart⟩
    | call c ok => trivial
    | reset => trivial
    | kept data => trivial

namespace CardService

variable {sv : CardService β}

/-- A lost link leaves a reset in the record. -/
theorem checkLink_of_lost {reply : Option ℕ} (h : sv.LinkLost reply) :
    (sv.checkLink bk reply).dispatcher.events = sv.dispatcher.events ++ [.reset] := by
  rw [checkLink, if_pos h.1]
  dsimp only
  rw [if_pos h.2]
  rfl

/-- A turn that ends the session leaves a reset at the end of the record. -/
theorem turn_of_ends {t : ServiceTurn} (h : t.EndsSession) :
    ∃ base, (sv.turn bk t).dispatcher.events = base ++ [.reset] := by
  rw [turn]
  rcases h with hwait | ⟨hdeferred, htaken⟩ | ⟨bytes, slot, seq, hmsg, hm⟩
  · rw [hwait]
    exact ⟨_, rfl⟩
  · have hmsg : ∃ bytes, t.received = some bytes := by
      rcases hr : t.received with _ | bytes
      · exact absurd (by rw [ServiceTurn.deferred, hr]; rfl) hdeferred
      · exact ⟨bytes, rfl⟩
    obtain ⟨bytes, hmsg⟩ := hmsg
    rcases ccidDispatchOne_answer bk t hmsg (sv.checkLink bk t.link).dispatcher with
      ⟨hnone, -⟩ | ⟨data, -, hdata, -⟩
    · exact absurd hnone hdeferred
    · rw [hmsg]
      dsimp only
      rw [answer]
      rcases hone : ccidDispatchOne bk bytes _ with ⟨answer?, s⟩
      rw [hone] at hdata
      obtain rfl : answer? = some data := hdata
      rw [htaken]
      exact ⟨_, rfl⟩
  · rw [hmsg]
    dsimp only
    rw [answer, ccidDispatchOne]
    rcases hm with hm | hm
    · rw [hm]
      cases t.taken <;> exact ⟨_, rfl⟩
    · rw [hm]
      cases t.taken <;> exact ⟨_, rfl⟩

/-- **A session ends with its transport.** In every run of the service from a new dispatcher, over
any backend, a lost link cuts the record before its turn, and a failed wait, an answer that is not
taken, a power-off or an abort cut it after their turn: each guarded call that follows comes after
a verification of its password made since the cut, and what GET RESPONSE sends was kept since. -/
theorem session_ends_with_transport (bk : OpenPgpBackend β) (b : β) (link : Option ℕ)
    (pre post : List ServiceTurn) (t : ServiceTurn) :
    let before := (start b link).serveLoop bk pre
    let after := (start b link).serveLoop bk (pre ++ t :: post)
    (before.LinkLost t.link → FreshSince (before.checkLink bk t.link).dispatcher.events
        after.dispatcher.events) ∧
      (t.EndsSession → FreshSince (before.turn bk t).dispatcher.events after.dispatcher.events) := by
  intro before after
  have hafter : after = (before.turn bk t).serveLoop bk post := by
    change (pre ++ t :: post).foldl (turn bk) (start b link) = _
    rw [List.foldl_append, List.foldl_cons]
    rfl
  have hsound : after.dispatcher.Sound := sound_serveLoop (sound_new b) (pre ++ t :: post)
  have hgrow : (before.turn bk t).dispatcher.events <+: after.dispatcher.events := by
    rw [hafter]
    exact events_serveLoop _ post
  constructor
  · intro hlost
    have hcut : (before.checkLink bk t.link).dispatcher.events
        = before.dispatcher.events ++ [.reset] := checkLink_of_lost hlost
    -- The record of the run goes on from the cut, and the dispatcher is sound over all of it.
    rw [hcut]
    refine freshSince_reset hsound ?_
    rw [← hcut]
    exact (events_turn before t).2.trans hgrow
  · intro hends
    obtain ⟨base, hcut⟩ : ∃ base, (before.turn bk t).dispatcher.events = base ++ [.reset] :=
      turn_of_ends hends
    rw [hcut]
    refine freshSince_reset hsound ?_
    rw [← hcut]
    exact hgrow

/-- VERIFY for other commands, in a message. -/
def verifyMessage : Bytes :=
  [0x6F, 6, 0, 0, 0, 0, 1, 0, 0, 0, 0x00, 0x20, 0x00, 0x82, 0x01, 0x31]

/-- A host that does not get the answer to VERIFY has to verify again. -/
theorem session_ends_with_transport_lostAnswer :
    let t : ServiceTurn := ⟨some 2, some verifyMessage, false⟩
    FreshSince [.call (.verifyPw1Other [0x31]) true, .reset]
      ((start ⟨⟩ (some 2)).serveLoop acceptingBackend [t]).dispatcher.events :=
  (session_ends_with_transport acceptingBackend ⟨⟩ (some 2) [] [] ⟨some 2, some verifyMessage, false⟩).2
    (.inr (.inl ⟨by decide, rfl⟩))

end CardService

end Galdralag.OpenPgp
