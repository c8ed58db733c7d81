import Galdralag.Foundation.Framing
import Galdralag.OpenPgp.Ccid

/-!
# The USB class of the card reader

The host writes its messages into a bulk endpoint in packets of up to 64 bytes, and packets need not
end where messages do. The class driver collects the bytes, takes a message off the front once it is
complete, has it handled, and sends the answer in chunks through another endpoint.

A line (`Line`) records what went over both endpoints beside the state of the driver. On it
`Served` says what the driver is for: the messages received in full are handled, each once and in
their order, and the answers, each in full, are what has been sent and what still waits to be sent.

The driver does not always achieve this. It takes off one message for each packet, drops what it has
collected when a packet does not fit or a message announces more than the buffer holds, and replaces
an answer that is still being sent. Steps at which none of this happens are `Orderly`, and
`served_of_reaches` shows that runs of orderly steps are served.
-/

set_option linter.all false

namespace Galdralag.OpenPgp

/-! ## The driver -/

/-- Size of the buffers for messages and answers. -/
abbrev ccidWireBufSize : ℕ := 530

/-- What handles the messages behind the driver. -/
structure OpenPgpDispatch (δ : Type) where
  handleCcid : PcToRdr → δ → Vec ccidWireBufSize × δ
  onUsbReset : δ → δ

/-- The card as a handler of messages. -/
def openPgpCcidDispatcher {β : Type} (bk : OpenPgpBackend β) : OpenPgpDispatch (Session β) where
  handleCcid := OpenPgp.handleCcid bk
  onUsbReset := OpenPgp.onUsbReset bk

/-- Outcome of a write that failed. -/
inductive UsbError where
  | wouldBlock
  | other
  deriving DecidableEq, Repr

/-- State of the driver. -/
structure CcidProtocolState (δ : Type) where
  dispatch : δ
  rxBuf : Vec ccidWireBufSize
  txBuf : Vec ccidWireBufSize
  txPending : Bool

/-- The buffer without its first `n` bytes. -/
def removePrefix {cap : ℕ} (v : Vec cap) (n : ℕ) : Vec cap :=
  ⟨v.toBytes.drop n, by
    rw [List.length_drop]
    exact Nat.le_trans (Nat.sub_le _ _) v.length_le⟩

/-- The payload length that a header announces. -/
def dwLength (bs : Bytes) : ℕ := leNat ((bs.drop 1).take 4)

section Driver

variable {δ : Type} (D : OpenPgpDispatch δ)

/-- The answer to the bytes of one message. -/
def respond (msg : Bytes) (d : δ) : Vec ccidWireBufSize × δ :=
  match parsePcToRdr msg with
  | .ok pcMsg => D.handleCcid pcMsg d
  | .error _ => (rdrToPcSlotStatus 0 0 .cmdNotSupported, d)

namespace CcidProtocolState

def new (dispatch : δ) : CcidProtocolState δ := ⟨dispatch, .empty, .empty, false⟩

def tryDispatch (p : CcidProtocolState δ) : CcidProtocolState δ :=
  if p.rxBuf.length < 10 then p
  else
    let total := 10 + dwLength p.rxBuf.toBytes
    if ccidWireBufSize < total then
      { p with
        rxBuf := .empty, txBuf := rdrToPcSlotStatus 0 0 .cmdNotSupported, txPending := true }
    else if p.rxBuf.length < total then p
    else
      let msg := p.rxBuf.toBytes.take total
      let r := respond D msg p.dispatch
      { dispatch := r.2, rxBuf := removePrefix p.rxBuf total, txBuf := r.1, txPending := true }

def pushOutBytes (data : Bytes) (p : CcidProtocolState δ) : CcidProtocolState δ :=
  if data = [] then p
  else if h : (p.rxBuf.toBytes ++ data).length ≤ ccidWireBufSize then
    tryDispatch D { p with rxBuf := ⟨p.rxBuf.toBytes ++ data, h⟩ }
  else { p with rxBuf := .empty }

/-- The next bytes of the answer, as many as fit into a packet. -/
def chunk (p : CcidProtocolState δ) : Bytes := p.txBuf.toBytes.take 64

def pollBulkInInner (write : Bytes → Except UsbError ℕ) (p : CcidProtocolState δ) :
    CcidProtocolState δ :=
  if p.txPending = false ∨ p.txBuf.toBytes = [] then p
  else
    match write p.chunk with
    | .ok n =>
      let txBuf := removePrefix p.txBuf n
      { p with txBuf, txPending := if txBuf.toBytes = [] then false else p.txPending }
    | .error .wouldBlock => p
    | .error .other => { p with txPending := false, txBuf := .empty }

def reset (p : CcidProtocolState δ) : CcidProtocolState δ := new (D.onUsbReset p.dispatch)

end CcidProtocolState

end Driver

/-! ## What goes over the line -/

/-- What happens at the driver: a packet arrives, or the host collects a packet, with the outcome of
the write. -/
inductive ClassEvent where
  | endpointOut (data : Bytes)
  | poll (written : Except UsbError ℕ)

/-- The driver and what went over its endpoints. -/
structure Line (δ : Type) where
  state : CcidProtocolState δ
  received : Bytes
  sent : Bytes

section Line

variable {δ : Type} (D : OpenPgpDispatch δ)

/-- A driver that was created or reset. -/
def Line.start (d : δ) : Line δ := ⟨.new d, [], []⟩

/-- The bytes that a write of the next chunk puts on the line. -/
def CcidProtocolState.accepted (p : CcidProtocolState δ) (written : Except UsbError ℕ) : Bytes :=
  if p.txPending = false then []
  else
    match written with
    | .ok n => p.chunk.take n
    | .error _ => []

def Line.step (line : Line δ) : ClassEvent → Line δ
  | .endpointOut data =>
    { line with state := line.state.pushOutBytes D data, received := line.received ++ data }
  | .poll written =>
    { line with
      state := line.state.pollBulkInInner fun _ ↦ written
      sent := line.sent ++ line.state.accepted written }

/-- Messages end where their header says. -/
def ccidFraming : Framing UInt8 where
  size bs := if bs.length < 10 then none else some (10 + dwLength bs)
  size_pos := by
    intro bs n h
    split_ifs at h
    rw [← Option.some.inj h]
    omega
  size_append := by
    intro bs n cs h
    split_ifs at h with hlen
    have hlen' : ¬ (bs ++ cs).length < 10 := by rw [List.length_append]; omega
    have hdrop : 4 ≤ (bs.drop 1).length := by rw [List.length_drop]; omega
    have hdw : dwLength (bs ++ cs) = dwLength bs := by
      rw [dwLength, dwLength, List.drop_append_of_le_length (by omega),
        List.take_append_of_le_length hdrop]
    rw [if_neg hlen', hdw, h]
  size_take := by
    intro bs n h
    split_ifs at h with hlen
    obtain rfl := Option.some.inj h
    have hlen' : ¬ (bs.take (10 + dwLength bs)).length < 10 := by rw [List.length_take]; omega
    have hdw : dwLength (bs.take (10 + dwLength bs)) = dwLength bs := by
      rw [dwLength, dwLength, List.drop_take, List.take_take, Nat.min_eq_left (by omega)]
    rw [if_neg hlen', hdw]

/-- The answers to a list of messages, handled one after the other. -/
def serveAll : List Bytes → δ → List (Vec ccidWireBufSize) × δ
  | [], d => ([], d)
  | msg :: msgs, d =>
    let r := respond D msg d
    let rs := serveAll msgs r.2
    (r.1 :: rs.1, rs.2)

/-- **Served.** The messages that arrived in full were handled, each once and in order, and their
answers are what was sent and what waits to be sent. -/
def Served (d₀ : δ) (line : Line δ) : Prop :=
  ∃ msgs rest, ccidFraming.Splits line.received msgs rest ∧
    line.state.dispatch = (serveAll D msgs d₀).2 ∧
    line.sent ++ line.state.txBuf.toBytes = ((serveAll D msgs d₀).1.map Vec.toBytes).flatten

/-- **Orderly steps.** A packet fits into the buffer; the message at the front of the buffer is not
longer than the buffer; and if the packet completes that message, no answer is being sent and the
packet does not complete a second one. A write to the host accepts part of what it was given or has
to wait, and does not fail otherwise. -/
def Orderly (p : CcidProtocolState δ) : ClassEvent → Prop
  | .endpointOut data =>
    data ≠ [] → (p.rxBuf.toBytes ++ data).length ≤ ccidWireBufSize ∧
      ∀ total, ccidFraming.size (p.rxBuf.toBytes ++ data) = some total →
        total ≤ ccidWireBufSize ∧
        (total ≤ (p.rxBuf.toBytes ++ data).length → p.txPending = false ∧
          ccidFraming.Unfinished ((p.rxBuf.toBytes ++ data).drop total))
  | .poll written =>
    p.txPending = true → (∀ n, written = .ok n → n ≤ p.chunk.length) ∧ written ≠ .error .other

/-- The lines reached by orderly steps. -/
inductive Reaches (d₀ : δ) : Line δ → Prop
  | start : Reaches d₀ (.start d₀)
  | step {line : Line δ} (event : ClassEvent) (h : Reaches d₀ line)
    (horderly : Orderly line.state event) : Reaches d₀ (line.step D event)

/-! ## Steps -/

variable {D} {p : CcidProtocolState δ} {line : Line δ} {d₀ : δ} {data : Bytes}

theorem ccidFraming_size (bs : Bytes) :
    ccidFraming.size bs = if bs.length < 10 then none else some (10 + dwLength bs) := rfl

/-- An unfinished message stays in the buffer. -/
theorem tryDispatch_unfinished (hfit : ∀ total,
      ccidFraming.size p.rxBuf.toBytes = some total → total ≤ ccidWireBufSize)
    (hu : ccidFraming.Unfinished p.rxBuf.toBytes) : p.tryDispatch D = p := by
  rw [CcidProtocolState.tryDispatch]
  by_cases hlen : p.rxBuf.length < 10
  · rw [if_pos hlen]
  · have hsize : ccidFraming.size p.rxBuf.toBytes = some (10 + dwLength p.rxBuf.toBytes) :=
      if_neg hlen
    have hlt : p.rxBuf.length < 10 + dwLength p.rxBuf.toBytes := hu _ hsize
    have hle : ¬ ccidWireBufSize < 10 + dwLength p.rxBuf.toBytes := Nat.not_lt.mpr (hfit _ hsize)
    simp only [if_neg hlen, if_neg hle, if_pos hlt]

/-- A complete message is taken off the buffer and answered. -/
theorem tryDispatch_complete {total : ℕ}
    (hsize : ccidFraming.size p.rxBuf.toBytes = some total) (hfit : total ≤ ccidWireBufSize)
    (hle : total ≤ p.rxBuf.toBytes.length) :
    p.tryDispatch D =
      { dispatch := (respond D (p.rxBuf.toBytes.take total) p.dispatch).2
        rxBuf := removePrefix p.rxBuf total
        txBuf := (respond D (p.rxBuf.toBytes.take total) p.dispatch).1
        txPending := true } := by
  rw [ccidFraming_size] at hsize
  split_ifs at hsize with hlen
  obtain rfl := Option.some.inj hsize
  have hlen' : ¬ p.rxBuf.length < 10 := hlen
  have hle' : ¬ p.rxBuf.length < 10 + dwLength p.rxBuf.toBytes := Nat.not_lt.mpr hle
  rw [CcidProtocolState.tryDispatch]
  simp only [if_neg hlen', if_neg (Nat.not_lt.mpr hfit), if_neg hle']

theorem serveAll_concat (msgs : List Bytes) (msg : Bytes) (d : δ) :
    serveAll D (msgs ++ [msg]) d =
      ((serveAll D msgs d).1 ++ [(respond D msg (serveAll D msgs d).2).1],
        (respond D msg (serveAll D msgs d).2).2) := by
  induction msgs generalizing d with
  | nil => rfl
  | cons m msgs ih =>
    simp only [List.cons_append, serveAll]
    rw [ih]

/-- What orderly steps keep up: the buffer holds the unfinished rest of the stream, and when no
answer is being sent nothing waits. -/
structure Invariant (D : OpenPgpDispatch δ) (d₀ : δ) (line : Line δ) (msgs : List Bytes) :
    Prop where
  splits : ccidFraming.Splits line.received msgs line.state.rxBuf.toBytes
  dispatch : line.state.dispatch = (serveAll D msgs d₀).2
  answers : line.sent ++ line.state.txBuf.toBytes = ((serveAll D msgs d₀).1.map Vec.toBytes).flatten
  idle : line.state.txPending = false → line.state.txBuf.toBytes = []

theorem Invariant.start (D : OpenPgpDispatch δ) (d₀ : δ) : Invariant D d₀ (.start d₀) [] :=
  ⟨ccidFraming.splits_nil rfl, rfl, rfl, fun _ ↦ rfl⟩

/-- A packet that fits changes the buffer before a message is looked for. -/
theorem pushOutBytes_of_fits (hne : data ≠ [])
    (hfit : (p.rxBuf.toBytes ++ data).length ≤ ccidWireBufSize) :
    p.pushOutBytes D data = { p with rxBuf := ⟨p.rxBuf.toBytes ++ data, hfit⟩ }.tryDispatch D := by
  rw [CcidProtocolState.pushOutBytes, if_neg hne, dif_pos hfit]

theorem Invariant.endpointOut {msgs : List Bytes} (h : Invariant D d₀ line msgs)
    (horderly : Orderly line.state (.endpointOut data)) :
    ∃ msgs', Invariant D d₀ (line.step D (.endpointOut data)) msgs' := by
  by_cases hne : data = []
  · subst hne
    refine ⟨msgs, ?_, h.dispatch, h.answers, h.idle⟩
    change ccidFraming.Splits (line.received ++ []) msgs line.state.rxBuf.toBytes
    rw [List.append_nil]
    exact h.splits
  · obtain ⟨hfit, hfront⟩ := horderly hne
    have hpush := pushOutBytes_of_fits (D := D) hne hfit
    by_cases hu : ccidFraming.Unfinished (line.state.rxBuf.toBytes ++ data)
    · -- the message at the front is still unfinished
      have hkeep := tryDispatch_unfinished (D := D)
        (p := { line.state with rxBuf := ⟨line.state.rxBuf.toBytes ++ data, hfit⟩ })
        (fun total hsize ↦ (hfront total hsize).1) hu
      rw [hkeep] at hpush
      refine ⟨msgs, ?_, ?_, ?_, ?_⟩ <;> rw [Line.step, hpush]
      · exact h.splits.extend hu
      · exact h.dispatch
      · exact h.answers
      · exact h.idle
    · -- the packet completes it
      simp only [Framing.Unfinished, not_forall, Nat.not_lt] at hu
      obtain ⟨total, hsize, hle⟩ := hu
      obtain ⟨htotal, hcomplete⟩ := hfront total hsize
      obtain ⟨hidle, hrest⟩ := hcomplete hle
      have htake := tryDispatch_complete (D := D)
        (p := { line.state with rxBuf := ⟨line.state.rxBuf.toBytes ++ data, hfit⟩ })
        hsize htotal hle
      rw [htake] at hpush
      have hmsg := Framing.isMessage_take hsize hle
      have hsent : line.sent = ((serveAll D msgs d₀).1.map Vec.toBytes).flatten := by
        rw [← h.answers, h.idle hidle, List.append_nil]
      refine ⟨msgs ++ [(line.state.rxBuf.toBytes ++ data).take total], ?_, ?_, ?_, ?_⟩ <;>
        rw [Line.step, hpush]
      · exact h.splits.complete hmsg (List.take_append_drop _ _).symm hrest
      · rw [serveAll_concat, ← h.dispatch]
        rfl
      · rw [serveAll_concat, ← h.dispatch, List.map_append, List.flatten_append, ← hsent,
          List.map_singleton, List.flatten_singleton]
        rfl
      · rintro ⟨⟩

theorem accepted_ok (h : p.txPending = true) (n : ℕ) : p.accepted (.ok n) = p.chunk.take n := by
  rw [CcidProtocolState.accepted, h]
  rfl

theorem accepted_error (e : UsbError) : p.accepted (.error e) = [] := by
  rw [CcidProtocolState.accepted]
  split_ifs <;> rfl

/-- When nothing is being sent, polling does nothing. -/
theorem poll_idle (h : p.txPending = false) (written : Except UsbError ℕ) :
    p.pollBulkInInner (fun _ ↦ written) = p ∧ p.accepted written = [] :=
  ⟨if_pos (.inl h), if_pos h⟩

/-- A write that has to wait changes nothing. -/
theorem poll_wouldBlock : p.pollBulkInInner (fun _ ↦ .error .wouldBlock) = p := by
  rw [CcidProtocolState.pollBulkInInner]
  split_ifs <;> rfl

/-- A write takes from the front of what waits to be sent. -/
theorem poll_ok {n : ℕ} (hpending : p.txPending = true) (hn : n ≤ p.chunk.length) :
    (p.pollBulkInInner fun _ ↦ .ok n).rxBuf = p.rxBuf ∧
      (p.pollBulkInInner fun _ ↦ .ok n).dispatch = p.dispatch ∧
      p.accepted (.ok n) ++ (p.pollBulkInInner fun _ ↦ .ok n).txBuf.toBytes = p.txBuf.toBytes ∧
      ((p.pollBulkInInner fun _ ↦ .ok n).txPending = false →
        (p.pollBulkInInner fun _ ↦ .ok n).txBuf.toBytes = []) := by
  rw [accepted_ok hpending, CcidProtocolState.pollBulkInInner]
  by_cases hempty : p.txBuf.toBytes = []
  · rw [if_pos (.inr hempty)]
    have hchunk : p.chunk = [] := by simp [CcidProtocolState.chunk, hempty]
    simp [hchunk, hempty]
  · have hchunk : p.chunk.take n = p.txBuf.toBytes.take n := by
      rw [CcidProtocolState.chunk, List.length_take] at hn
      rw [CcidProtocolState.chunk, List.take_take, Nat.min_eq_left (by omega)]
    have hbusy : ¬ (p.txPending = false ∨ p.txBuf.toBytes = []) := by simp [hpending, hempty]
    rw [if_neg hbusy]
    refine ⟨rfl, rfl, ?_, fun hdone ↦ ?_⟩
    · rw [hchunk]
      exact List.take_append_drop n p.txBuf.toBytes
    · change (if p.txBuf.toBytes.drop n = [] then false else p.txPending) = false at hdone
      change p.txBuf.toBytes.drop n = []
      by_contra hrest
      rw [if_neg hrest, hpending] at hdone
      cases hdone

theorem Invariant.poll {msgs : List Bytes} {written : Except UsbError ℕ}
    (h : Invariant D d₀ line msgs) (horderly : Orderly line.state (.poll written)) :
    Invariant D d₀ (line.step D (.poll written)) msgs := by
  rw [Line.step]
  rcases hpending : line.state.txPending with _ | _
  · obtain ⟨hstate, hsent⟩ := poll_idle hpending written
    rw [hstate, hsent, List.append_nil]
    exact h
  · obtain ⟨hle, hother⟩ := horderly hpending
    rcases written with e | n
    · rw [accepted_error, List.append_nil]
      rcases e with _ | _
      · rw [poll_wouldBlock]
        exact h
      · exact absurd rfl hother
    · obtain ⟨hrx, hdispatch, htx, hidle⟩ := poll_ok hpending (hle n rfl)
      refine ⟨?_, hdispatch.trans h.dispatch, ?_, hidle⟩
      · rw [hrx]
        exact h.splits
      · rw [List.append_assoc, htx]
        exact h.answers

/-- What one orderly step preserves. -/
theorem Invariant.step {msgs : List Bytes} (h : Invariant D d₀ line msgs) (event : ClassEvent)
    (horderly : Orderly line.state event) : ∃ msgs', Invariant D d₀ (line.step D event) msgs' := by
  rcases event with data | written
  · exact h.endpointOut horderly
  · exact ⟨msgs, h.poll horderly⟩

theorem invariant_of_reaches (h : Reaches D d₀ line) : ∃ msgs, Invariant D d₀ line msgs := by
  induction h with
  | start => exact ⟨[], .start D d₀⟩
  | step event h horderly ih =>
    obtain ⟨msgs, hmsgs⟩ := ih
    exact hmsgs.step event horderly

/-- **Orderly runs are served**: after any orderly steps, however the stream was cut into packets,
the messages that arrived in full have been handled each once and in order, and every answer has
been sent or still waits to be sent, none lost or cut short. -/
theorem served_of_reaches (h : Reaches D d₀ line) : Served D d₀ line := by
  obtain ⟨msgs, hmsgs⟩ := invariant_of_reaches h
  exact ⟨msgs, _, hmsgs.splits, hmsgs.dispatch, hmsgs.answers⟩

end Line

/-! ## Runs -/

/-- A handler that counts the messages. -/
def countingDispatch : OpenPgpDispatch ℕ where
  handleCcid _ n := (rdrToPcSlotStatus 0 0 .okActive, n + 1)
  onUsbReset n := n

/-- A request for the slot status. -/
def slotStatusRequest (seq : UInt8) : Bytes := [0x65, 0, 0, 0, 0, 0, seq, 0, 0, 0]

/-- A request that comes in two packets, and the host collecting the answer. -/
theorem served_slotStatus :
    Served countingDispatch 0 ((((Line.start 0).step countingDispatch
      (.endpointOut [0x65, 0, 0, 0])).step countingDispatch
      (.endpointOut [0, 0, 7, 0, 0, 0])).step countingDispatch (.poll (.ok 10))) := by
  refine served_of_reaches (.step _ (.step _ (.step _ .start ?_) ?_) ?_)
  · refine fun _ ↦ ⟨by decide, fun total h ↦ ?_⟩
    cases h
  · refine fun _ ↦ ⟨by decide, fun total h ↦ ?_⟩
    obtain rfl : 10 = total := Option.some.inj h
    refine ⟨by decide, fun _ ↦ ⟨rfl, fun n hn ↦ ?_⟩⟩
    cases hn
  · refine fun _ ↦ ⟨fun n hn ↦ ?_, by rintro ⟨⟩⟩
    obtain rfl : 10 = n := Except.ok.inj hn
    decide

/-- What it means to be served, for the one way in which the stream splits. -/
theorem Served.of_splits {δ : Type} {D : OpenPgpDispatch δ} {d₀ : δ} {line : Line δ}
    {msgs : List Bytes} {rest : Bytes} (h : Served D d₀ line)
    (hsplits : ccidFraming.Splits line.received msgs rest) :
    line.state.dispatch = (serveAll D msgs d₀).2 ∧
      line.sent ++ line.state.txBuf.toBytes =
        ((serveAll D msgs d₀).1.map Vec.toBytes).flatten := by
  obtain ⟨msgs', rest', hsplits', hdispatch, hanswers⟩ := h
  obtain ⟨rfl, -⟩ := hsplits'.unique hsplits
  exact ⟨hdispatch, hanswers⟩

theorem splits_requests : ccidFraming.Splits (slotStatusRequest 1 ++ slotStatusRequest 2)
    [slotStatusRequest 1, slotStatusRequest 2] [] := by
  refine ⟨rfl, fun m hm ↦ ?_, fun n hn ↦ by cases hn⟩
  rcases List.mem_cons.mp hm with rfl | hm
  · rfl
  · rw [List.mem_singleton.mp hm]
    rfl

/-- A transfer of 600 bytes, its header and the first ten bytes of its payload. -/
def longTransfer : Bytes := [0x6F, 88, 2, 0, 0, 0, 3, 0, 0, 0] ++ slotStatusRequest 4

/-- **Three runs that are not served.** Of two requests in one packet only the first is answered; of
two requests in two packets the answer to the first is overwritten before it was sent; and the
payload of a transfer that does not fit is taken for a request. -/
theorem runs_not_served :
    ¬ Served countingDispatch 0 ((Line.start 0).step countingDispatch
        (.endpointOut (slotStatusRequest 1 ++ slotStatusRequest 2))) ∧
      ¬ Served countingDispatch 0 (((Line.start 0).step countingDispatch
        (.endpointOut (slotStatusRequest 1))).step countingDispatch
        (.endpointOut (slotStatusRequest 2))) ∧
      ¬ Served countingDispatch 0 (((Line.start 0).step countingDispatch
        (.endpointOut (longTransfer.take 10))).step countingDispatch
        (.endpointOut (longTransfer.drop 10))) := by
  refine ⟨fun h ↦ ?_, fun h ↦ ?_, fun h ↦ ?_⟩
  · have hdispatch := (h.of_splits splits_requests).1
    revert hdispatch
    decide
  · have hanswers := congrArg List.length (h.of_splits splits_requests).2
    revert hanswers
    decide
  · have hsplits : ccidFraming.Splits longTransfer [] longTransfer := by
      refine ⟨rfl, fun m hm ↦ absurd hm List.not_mem_nil, fun n hn ↦ ?_⟩
      obtain rfl : 610 = n := Option.some.inj hn
      decide
    have hdispatch := (h.of_splits hsplits).1
    revert hdispatch
    decide

end Galdralag.OpenPgp
