import Galdralag.OpenPgp.AccessControl
import Galdralag.OpenPgp.Ccid

/-!
# Ending a session

Four events are meant to end a card session: powering the card on, powering it off, an abort and a
bus reset. After each of them guarded calls need a new verification, and response data of the old
session is gone.

Every such event leaves a reset in the record, whatever the dispatcher does about it. The promise
is then the one of access control, on this record. Powering on is the event the dispatcher answers
without clearing anything, so what it finds there has to be clean already.
-/

set_option linter.all false

namespace Galdralag.OpenPgp

variable {β : Type} {bk : OpenPgpBackend β} {s : Session β}

/-! ## Card events -/

/-- What reaches the dispatcher: a host message or a bus reset. -/
inductive CardEvent where
  | message (msg : PcToRdr)
  | usbReset
  deriving DecidableEq

/-- Powering the card on. -/
def CardEvent.isPowerOn : CardEvent → Bool
  | .message (.iccPowerOn _ _ _) => true
  | _ => false

/-- The four events that end a session. -/
def CardEvent.endsSession : CardEvent → Bool
  | .message (.iccPowerOn _ _ _) => true
  | .message (.iccPowerOff _ _) => true
  | .message (.abort _ _) => true
  | .usbReset => true
  | _ => false

/-- Leave a reset in the record. -/
def Session.mark (s : Session β) : Session β := { s with events := s.events ++ [.reset] }

/-- What the dispatcher does about an event. -/
def Session.dispatch (bk : OpenPgpBackend β) (s : Session β) : CardEvent → Session β
  | .message msg => (handleCcid bk msg s).2
  | .usbReset => onUsbReset bk s

/-- One event, with the end of the session in the record. -/
def Session.receive (bk : OpenPgpBackend β) (s : Session β) (e : CardEvent) : Session β :=
  if e.endsSession then s.mark.dispatch bk e else s.dispatch bk e

/-- A whole run of events. -/
def Session.receiveAll (bk : OpenPgpBackend β) (s : Session β) (es : List CardEvent) : Session β :=
  es.foldl (Session.receive bk) s

/-- No password is verified and no response data waits. -/
def CardState.Clean (st : CardState) : Prop := (∀ pw, st.verified pw = false) ∧ st.pending = []

/-- Every power-on of the run arrives at a clean card. -/
def PowerOnsClean (bk : OpenPgpBackend β) : Session β → List CardEvent → Prop
  | _, [] => True
  | s, e :: es => (e.isPowerOn = true → s.card.Clean) ∧ PowerOnsClean bk (s.receive bk e) es

/-! ## The invariant -/

/-- At a clean card the end of a session can be recorded. -/
theorem Session.Sound.mark (h : s.Sound) (hclean : s.card.Clean) : s.mark.Sound where
  calls := h.calls.concat trivial
  flags pw hpw := by
    rw [Session.mark, hclean.1 pw] at hpw
    cases hpw
  serving := ⟨h.serving.sent.concat trivial, fun hne ↦ absurd hclean.2 hne⟩

/-- A reset may follow the record of one. -/
theorem Session.Sound.mark_reset (h : s.Sound) : s.mark.reset.Sound where
  calls := (h.calls.concat (e := SessionEvent.reset) trivial).concat trivial
  flags pw hpw := by cases pw <;> cases hpw
  serving := ⟨(h.serving.sent.concat (e := SessionEvent.reset) trivial).concat trivial,
    fun hne ↦ absurd rfl hne⟩

/-- **Step.** An event keeps a session sound, if a power-on finds the card clean. -/
theorem Session.Sound.receive (h : s.Sound) {e : CardEvent}
    (hclean : e.isPowerOn = true → s.card.Clean) : (s.receive bk e).Sound := by
  cases e with
  | usbReset => exact ⟨h.mark_reset.calls, h.mark_reset.flags, h.mark_reset.serving.1,
      h.mark_reset.serving.2⟩
  | message msg =>
    cases msg with
    | iccPowerOn slot seq powerSelect => exact h.mark (hclean rfl)
    | iccPowerOff slot seq => exact h.mark_reset
    | getSlotStatus slot seq => exact h
    | abort slot seq => exact h.mark_reset
    | xfrBlock slot seq apdu =>
      change (handleCcid bk (.xfrBlock slot seq apdu) s).2.Sound
      rw [handleCcid]
      rcases CommandApdu.parse apdu.toBytes with e | cmd
      · exact h
      · exact h.step (.apdu cmd)

/-- **Run.** A run whose power-ons find the card clean keeps a session sound. -/
theorem Session.Sound.receiveAll {es : List CardEvent} (h : s.Sound)
    (hclean : PowerOnsClean bk s es) : (s.receiveAll bk es).Sound := by
  induction es generalizing s with
  | nil => exact h
  | cons e es ih => exact ih (h.receive hclean.1) hclean.2

/-- **A reset ends the session.** In every run of host messages and bus resets from a new session,
over any backend, in which each power-on finds the card clean: each guarded call comes after a
successful verification of its password since the last of the four events, and what GET RESPONSE
sends is part of data kept since then. -/
theorem reset_ends_session (bk : OpenPgpBackend β) (b : β) (es : List CardEvent)
    (h : PowerOnsClean bk (Session.new b) es) :
    let s := (Session.new b).receiveAll bk es
    Guarded SessionEvent.Justified s.events ∧ Guarded SessionEvent.Served s.events :=
  have hs := (sound_new b).receiveAll h
  ⟨hs.calls, hs.serving.sent⟩

/-- VERIFY for other commands, with the PIN `1`. -/
def verifyOther : CardEvent :=
  .message (.xfrBlock 0 0 (.truncated [0x00, 0x20, 0x00, 0x82, 0x01, 0x31]))

/-- INTERNAL AUTHENTICATE, with a challenge of one byte. -/
def authenticate : CardEvent :=
  .message (.xfrBlock 0 0 (.truncated [0x00, 0x88, 0x00, 0x00, 0x01, 0x55]))

/-- The promise at work: a session that is powered off before it is powered on again. -/
theorem reset_ends_session_powerOff :
    let s := (Session.new ⟨⟩).receiveAll acceptingBackend
      [verifyOther, authenticate, .message (.iccPowerOff 0 0), .message (.iccPowerOn 0 0 0)]
    Guarded SessionEvent.Justified s.events ∧ Guarded SessionEvent.Served s.events :=
  reset_ends_session acceptingBackend ⟨⟩ _
    ⟨nofun, nofun, nofun, fun _ ↦ ⟨fun pw ↦ by cases pw <;> rfl, rfl⟩, trivial⟩

/-- A host that only powers on inherits the session: VERIFY, power-on, INTERNAL AUTHENTICATE. -/
theorem session_inherited_after_powerOn :
    ¬ ∀ es : List CardEvent, Guarded SessionEvent.Justified
      ((Session.new ⟨⟩).receiveAll acceptingBackend es).events := by
  intro h
  have hrun : ((Session.new ⟨⟩).receiveAll acceptingBackend
      [verifyOther, .message (.iccPowerOn 0 0 0), authenticate]).events
      = [.call (.verifyPw1Other [0x31]) true, .reset]
        ++ .call (.internalAuthenticate [0x55]) true :: [] := rfl
  obtain ⟨pre, e, post, hl, hset, hpost⟩ := h _ _ _ _ hrun .pw1Other rfl
  rcases pre with _ | ⟨x, _ | ⟨y, pre⟩⟩
  · obtain ⟨-, rfl⟩ := List.cons.inj hl
    exact hpost .reset List.mem_cons_self trivial
  · obtain ⟨-, hl⟩ := List.cons.inj hl
    obtain ⟨rfl, -⟩ := List.cons.inj hl
    exact hset
  · obtain ⟨-, hl⟩ := List.cons.inj hl
    obtain ⟨-, hl⟩ := List.cons.inj hl
    cases pre <;> cases hl

end Galdralag.OpenPgp
