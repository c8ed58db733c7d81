import Galdralag.Foundation.Outcome
import Galdralag.Foundation.Trace
import Galdralag.OpenPgp.CcidClass

/-!
# Sending an answer in pieces

The endpoint takes what it can: a poll offers up to 64 bytes of the answer, and any number of them
may be accepted, or none. The driver then moves the rest of the answer to the front of the buffer,
byte after byte in place (`shiftDown`), and polls again later.

The loop never leaves the buffer and is the same as dropping the bytes that were accepted
(`removePrefixLoop_eq`). So what was sent, followed by what is left in the buffer, stays the answer
throughout (`Sending`), until a new answer is queued.
-/

set_option linter.all false

namespace Galdralag.OpenPgp

/-! ## Moving bytes in place -/

section InPlace

variable {cap : ℕ}

/-- The assignment `v[i] = b`. -/
def assign (v : Vec cap) (i : ℕ) (b : UInt8) : Outcome Empty (Vec cap) :=
  if i < v.length then
    .ok ⟨v.toBytes.set i b, Nat.le_trans (Nat.le_of_eq List.length_set) v.length_le⟩
  else .panicked

/-- The first `k` bytes of a vector. -/
def truncate (v : Vec cap) (k : ℕ) : Vec cap :=
  ⟨v.toBytes.take k, Nat.le_trans (List.length_take_le' k v.toBytes) v.length_le⟩

/-- The loop of `remove_prefix`: `rounds` rounds from the index `i` on. -/
def shiftDown (n : ℕ) : ℕ → ℕ → Vec cap → Outcome Empty (Vec cap)
  | 0, _, v => .ok v
  | rounds + 1, i, v => do
    let b ← Outcome.index v.toBytes (i + n)
    let v ← assign v i b
    shiftDown n rounds (i + 1) v

/-- `remove_prefix` as the source runs it. -/
def removePrefixLoop (v : Vec cap) (n : ℕ) : Outcome Empty (Vec cap) := do
  if v.length ≤ n then .ok .empty
  else
    let w ← shiftDown n (v.length - n) 0 v
    .ok (truncate w (v.length - n))

section Round

variable {start : Bytes} {n i : ℕ}

/-- The bytes after `i` rounds: the first `i` have been moved, the others stand where they were. -/
def moved (start : Bytes) (n i : ℕ) : Bytes := (start.drop n).take i ++ start.drop i

theorem length_moved (h : i + n ≤ start.length) : (moved start n i).length = start.length := by
  rw [moved, List.length_append, List.length_take, List.length_drop, List.length_drop]
  omega

/-- A round reads a byte that has not been overwritten. -/
theorem getElem?_moved (h : i + n < start.length) :
    (moved start n i)[i + n]? = some start[i + n] := by
  have htake : ((start.drop n).take i).length = i := by
    rw [List.length_take, List.length_drop]
    omega
  have hsub : i + (i + n - i) = i + n := by omega
  rw [moved, List.getElem?_append_right (by omega), htake, List.getElem?_drop, hsub]
  exact List.getElem?_eq_getElem h

/-- A round writes the byte that comes next. -/
theorem set_moved (h : i + n < start.length) :
    (moved start n i).set i start[i + n] = moved start n (i + 1) := by
  have htake : ((start.drop n).take i).length = i := by
    rw [List.length_take, List.length_drop]
    omega
  have hnext : (start.drop n)[i]? = some start[i + n] := by
    rw [List.getElem?_drop, Nat.add_comm n i]
    exact List.getElem?_eq_getElem h
  have hhead : start.drop i = start[i] :: start.drop (i + 1) := List.drop_eq_getElem_cons (by omega)
  rw [moved, moved, List.set_append_right _ _ (by omega), htake, Nat.sub_self, hhead,
    List.set_cons_zero, List.take_add_one, hnext, Option.toList_some, List.append_assoc,
    List.singleton_append]

end Round

/-- The rounds of the loop, from any of them on. -/
theorem shiftDown_eq {n : ℕ} {start : Bytes} (rounds : ℕ) :
    ∀ {i : ℕ} {v : Vec cap}, v.toBytes = moved start n i → i + rounds + n = start.length →
      ∃ w, shiftDown n rounds i v = .ok w ∧ w.toBytes = moved start n (i + rounds) := by
  induction rounds with
  | zero => exact fun {i v} hv _ ↦ ⟨v, rfl, hv⟩
  | succ rounds ih =>
    intro i v hv hlen
    have hi : i + n < start.length := by omega
    have hlength : v.length = start.length := by
      rw [Vec.length, hv, length_moved (by omega)]
    have hindex : (Outcome.index v.toBytes (i + n) : Outcome Empty UInt8) = .ok start[i + n] := by
      rw [Outcome.index, hv, getElem?_moved hi]
    have hassign : assign v i start[i + n] = .ok ⟨v.toBytes.set i start[i + n], _⟩ :=
      if_pos (by omega)
    obtain ⟨w, hw, hbytes⟩ := ih (i := i + 1) (v := ⟨v.toBytes.set i start[i + n], by
      rw [List.length_set]
      exact v.length_le⟩) (by rw [← set_moved hi, ← hv]; rfl) (by omega)
    refine ⟨w, ?_, ?_⟩
    · rw [shiftDown, hindex]
      change (assign v i start[i + n] >>= fun v ↦ shiftDown n rounds (i + 1) v) = _
      rw [hassign]
      exact hw
    · rw [hbytes, Nat.add_right_comm, Nat.add_assoc]

/-- **Moving in place** never panics and drops the bytes at the front. -/
theorem removePrefixLoop_eq (v : Vec cap) (n : ℕ) :
    removePrefixLoop v n = .ok (removePrefix v n) := by
  rw [removePrefixLoop]
  split_ifs with hn
  · have hdrop : v.toBytes.drop n = [] := List.drop_eq_nil_of_le hn
    exact congrArg _ (Subtype.ext hdrop.symm)
  · have hlen : 0 + (v.length - n) + n = v.toBytes.length := by
      change 0 + (v.length - n) + n = v.length
      omega
    obtain ⟨w, hw, hbytes⟩ := shiftDown_eq (v.length - n) (v := v) rfl hlen
    have hfront : ((v.toBytes.drop n).take (0 + (v.length - n))) = v.toBytes.drop n :=
      List.take_of_length_le (by rw [List.length_drop, Nat.zero_add]; exact Nat.le_refl _)
    have hlength : v.length - n = (v.toBytes.drop n).length := List.length_drop.symm
    have htruncate : (truncate w (v.length - n)).toBytes = v.toBytes.drop n := by
      change w.toBytes.take (v.length - n) = v.toBytes.drop n
      rw [hbytes, moved, hfront, hlength, List.take_left]
    rw [hw]
    exact congrArg _ (Subtype.ext htruncate)

end InPlace

/-! ## Polls -/

section Polls

variable {δ : Type} (D : OpenPgpDispatch δ)

/-- `poll_bulk_in_inner` as the source runs it, with its slice and its loop. -/
def CcidProtocolState.pollBulkInLoop (write : Bytes → Except UsbError ℕ)
    (p : CcidProtocolState δ) : Outcome Empty (CcidProtocolState δ) :=
  if p.txPending = false ∨ p.txBuf.toBytes = [] then .ok p
  else do
    let chunk ← Outcome.slice p.txBuf.toBytes 0 (min p.txBuf.length 64)
    match write chunk with
    | .ok n => do
      let txBuf ← removePrefixLoop p.txBuf n
      .ok { p with txBuf, txPending := if txBuf.toBytes = [] then false else p.txPending }
    | .error .wouldBlock => .ok p
    | .error .other => .ok { p with txPending := false, txBuf := .empty }

/-- A poll never panics. -/
theorem pollBulkInLoop_eq (write : Bytes → Except UsbError ℕ) (p : CcidProtocolState δ) :
    p.pollBulkInLoop write = .ok (p.pollBulkInInner write) := by
  have hslice : (Outcome.slice p.txBuf.toBytes 0 (min p.txBuf.length 64) : Outcome Empty Bytes) =
      .ok p.chunk := by
    have htake : p.txBuf.toBytes.take (min p.txBuf.length 64) = p.txBuf.toBytes.take 64 := by
      rw [Nat.min_comm, Vec.length, ← List.take_take, List.take_length]
    exact (if_pos ⟨Nat.zero_le _, Nat.min_le_left _ _⟩).trans (congrArg _ htake)
  rw [CcidProtocolState.pollBulkInLoop, CcidProtocolState.pollBulkInInner]
  split_ifs with hidle
  · rfl
  · rw [hslice]
    change (match write p.chunk with
      | .ok n => removePrefixLoop p.txBuf n >>= fun txBuf ↦
        .ok { p with txBuf, txPending := if txBuf.toBytes = [] then false else p.txPending }
      | .error .wouldBlock => .ok p
      | .error .other => .ok { p with txPending := false, txBuf := .empty }) = _
    rcases write p.chunk with e | n
    · cases e <;> rfl
    · change (removePrefixLoop p.txBuf n >>= _) = _
      rw [removePrefixLoop_eq]
      rfl

/-- One event on the line, as the source runs it. -/
def Line.stepLoop (line : Line δ) : ClassEvent → Outcome Empty (Line δ)
  | .endpointOut data => .ok (line.step D (.endpointOut data))
  | .poll written => do
    let state ← line.state.pollBulkInLoop fun _ ↦ written
    .ok { line with state, sent := line.sent ++ line.state.accepted written }

/-- A run of events. -/
def Line.transmit : List ClassEvent → Line δ → Outcome Empty (Line δ)
  | [], line => .ok line
  | event :: events, line => do
    let line ← line.stepLoop D event
    Line.transmit events line

theorem stepLoop_eq (line : Line δ) (event : ClassEvent) :
    line.stepLoop D event = .ok (line.step D event) := by
  cases event with
  | endpointOut data => rfl
  | poll written =>
    rw [Line.stepLoop, pollBulkInLoop_eq]
    rfl

theorem transmit_eq (events : List ClassEvent) :
    ∀ line, Line.transmit D events line = .ok (events.foldl (Line.step D) line) := by
  induction events with
  | nil => exact fun line ↦ rfl
  | cons event events ih =>
    intro line
    rw [Line.transmit, stepLoop_eq, List.foldl_cons, ← ih]
    rfl

/-! ## What is sent of an answer -/

/-- A packet makes the driver queue an answer: it completes a message, or it announces one that is
longer than the buffer. -/
def Queues (p : CcidProtocolState δ) (data : Bytes) : Prop :=
  data ≠ [] ∧ (p.rxBuf.toBytes ++ data).length ≤ ccidWireBufSize ∧
    ∃ total, ccidFraming.size (p.rxBuf.toBytes ++ data) = some total ∧
      (ccidWireBufSize < total ∨ total ≤ (p.rxBuf.toBytes ++ data).length)

/-- An event that goes with sending: the endpoint accepts no more than it was offered, or has to
wait, and no packet queues another answer. -/
def Undisturbed (p : CcidProtocolState δ) : ClassEvent → Prop
  | .endpointOut data => ¬ Queues p data
  | .poll written =>
    p.txPending = true → (∀ n, written = .ok n → n ≤ p.chunk.length) ∧ written ≠ .error .other

/-- What was sent before, and of `frame` since, is in `sent`; the rest of `frame` is in the buffer,
and nothing is when nothing is being sent. -/
structure Sending (before frame : Bytes) (line : Line δ) : Prop where
  started : before <+: line.sent
  whole : line.sent ++ line.state.txBuf.toBytes = before ++ frame
  idle : line.state.txPending = false → line.state.txBuf.toBytes = []

variable {D} {p : CcidProtocolState δ} {line : Line δ} {data before frame : Bytes}

/-- A message that the buffer cannot hold is refused at once. -/
theorem tryDispatch_tooLong {total : ℕ} (hsize : ccidFraming.size p.rxBuf.toBytes = some total)
    (hlong : ccidWireBufSize < total) :
    p.tryDispatch D =
      { p with
        rxBuf := .empty, txBuf := rdrToPcSlotStatus 0 0 .cmdNotSupported, txPending := true } := by
  rw [ccidFraming_size] at hsize
  split_ifs at hsize with hlen
  obtain rfl := Option.some.inj hsize
  have hlen' : ¬ p.rxBuf.length < 10 := hlen
  rw [CcidProtocolState.tryDispatch]
  simp only [if_neg hlen', if_pos hlong]

/-- A packet that queues an answer sets the flag. -/
theorem txPending_of_queues (h : Queues p data) : (p.pushOutBytes D data).txPending = true := by
  obtain ⟨hne, hfit, total, hsize, htotal⟩ := h
  rw [pushOutBytes_of_fits hne hfit]
  rcases Nat.lt_or_ge ccidWireBufSize total with hlong | hshort
  · rw [tryDispatch_tooLong (D := D) (p := { p with rxBuf := ⟨p.rxBuf.toBytes ++ data, hfit⟩ })
      hsize hlong]
  · have hle : total ≤ (p.rxBuf.toBytes ++ data).length :=
      htotal.resolve_left (Nat.not_lt.mpr hshort)
    rw [tryDispatch_complete (D := D)
      (p := { p with rxBuf := ⟨p.rxBuf.toBytes ++ data, hfit⟩ }) hsize hshort hle]

/-- Any other packet leaves what is being sent alone. -/
theorem tx_of_not_queues (h : ¬ Queues p data) :
    (p.pushOutBytes D data).txBuf = p.txBuf ∧
      (p.pushOutBytes D data).txPending = p.txPending := by
  by_cases hne : data = []
  · rw [CcidProtocolState.pushOutBytes, if_pos hne]
    exact ⟨rfl, rfl⟩
  · by_cases hfit : (p.rxBuf.toBytes ++ data).length ≤ ccidWireBufSize
    · have hfree : ∀ total, ccidFraming.size (p.rxBuf.toBytes ++ data) = some total →
          total ≤ ccidWireBufSize ∧ (p.rxBuf.toBytes ++ data).length < total := by
        intro total hsize
        by_contra hcon
        refine h ⟨hne, hfit, total, hsize, ?_⟩
        omega
      rw [pushOutBytes_of_fits hne hfit, tryDispatch_unfinished (D := D)
        (p := { p with rxBuf := ⟨p.rxBuf.toBytes ++ data, hfit⟩ })
        (fun total hsize ↦ (hfree total hsize).1) fun total hsize ↦ (hfree total hsize).2]
      exact ⟨rfl, rfl⟩
    · rw [CcidProtocolState.pushOutBytes, if_neg hne, dif_neg hfit]
      exact ⟨rfl, rfl⟩

/-- What one undisturbed event preserves. -/
theorem Sending.step (h : Sending before frame line) {event : ClassEvent}
    (hevent : Undisturbed line.state event) : Sending before frame (line.step D event) := by
  cases event with
  | endpointOut data =>
    obtain ⟨hbuf, hpending⟩ := tx_of_not_queues (D := D) hevent
    refine ⟨h.started, ?_, ?_⟩
    · rw [Line.step, hbuf]
      exact h.whole
    · rw [Line.step, hpending, hbuf]
      exact h.idle
  | poll written =>
    rw [Line.step]
    rcases hpending : line.state.txPending with _ | _
    · obtain ⟨hstate, haccepted⟩ := poll_idle hpending written
      rw [hstate, haccepted, List.append_nil]
      exact h
    · obtain ⟨hle, hother⟩ := hevent hpending
      rcases written with e | n
      · rw [accepted_error, List.append_nil]
        rcases e with _ | _
        · rw [poll_wouldBlock]
          exact h
        · exact absurd rfl hother
      · obtain ⟨-, -, htx, hidle⟩ := poll_ok hpending (hle n rfl)
        refine ⟨h.started.trans (List.prefix_append _ _), ?_, hidle⟩
        rw [List.append_assoc, htx]
        exact h.whole

/-- What a run of undisturbed events preserves. -/
theorem Sending.run (h : Sending before frame line) (events : List ClassEvent)
    (hevents : ∀ pre event, pre ++ [event] <+: events →
      Undisturbed (pre.foldl (Line.step D) line).state event) :
    Sending before frame (events.foldl (Line.step D) line) :=
  run_of_steps (C := fun line ↦ Undisturbed line.state) (fun _ hline hevent ↦ hline.step hevent)
    events h hevents

/-- **Transmission is lossless.** While an answer is being sent, whatever the endpoint accepts of
what it is offered and whatever packets arrive without queueing another answer, no poll panics, what
was sent of the answer is a prefix of it, and the whole of it when the flag is cleared, after which
nothing more is sent. -/
theorem transmission_lossless (D : OpenPgpDispatch δ) {line : Line δ}
    (hqueued : line.state.txPending = true) (events : List ClassEvent)
    (hevents : ∀ pre event, pre ++ [event] <+: events →
      Undisturbed (pre.foldl (Line.step D) line).state event) :
    ∃ after out, Line.transmit D events line = .ok after ∧ after.sent = line.sent ++ out ∧
      out <+: line.state.txBuf.toBytes ∧
      (after.state.txPending = false → out = line.state.txBuf.toBytes) ∧
      ∀ pre between, pre <+: events → Line.transmit D pre line = .ok between →
        between.state.txPending = false → after.sent = between.sent := by
  have hstart : Sending line.sent line.state.txBuf.toBytes line :=
    ⟨List.prefix_rfl, rfl, fun hidle ↦ by rw [hqueued] at hidle; cases hidle⟩
  have hafter := hstart.run events hevents
  obtain ⟨out, hout⟩ := hafter.started
  have hframe : out ++ (events.foldl (Line.step D) line).state.txBuf.toBytes =
      line.state.txBuf.toBytes := by
    have hwhole := hafter.whole
    rw [← hout, List.append_assoc] at hwhole
    exact List.append_cancel_left hwhole
  refine ⟨_, out, transmit_eq D events line, hout.symm, ⟨_, hframe⟩, fun hidle ↦ ?_, ?_⟩
  · rw [← hframe, hafter.idle hidle, List.append_nil]
  · rintro pre between ⟨rest, rfl⟩ hpre hidle
    rw [transmit_eq] at hpre
    obtain rfl := Outcome.ok.inj hpre
    have hbetween := hstart.run pre fun first event hfirst ↦
      hevents first event (hfirst.trans (List.prefix_append _ _))
    -- nothing of the answer is left, so what follows sends none of it
    have hempty : Sending (pre.foldl (Line.step D) line).sent [] (pre.foldl (Line.step D) line) :=
      ⟨List.prefix_rfl, by rw [hbetween.idle hidle], hbetween.idle⟩
    have hlast := hempty.run rest fun first event hfirst ↦ by
      rw [← List.foldl_append]
      refine hevents (pre ++ first) event ?_
      rw [List.append_assoc]
      exact (List.prefix_append_right_inj pre).mpr hfirst
    obtain ⟨more, hmore⟩ := hlast.started
    have hwhole := hlast.whole
    rw [← hmore, List.append_assoc] at hwhole
    have hnone : more = [] := (List.append_eq_nil_iff.mp (List.append_cancel_left hwhole)).1
    rw [List.foldl_append, ← hmore, hnone, List.append_nil]

/-- The answer to a request, of ten bytes, is waiting to be sent. -/
def answering : Line ℕ :=
  (Line.start 0).step countingDispatch (.endpointOut (slotStatusRequest 1))

/-- The answer goes out in two pieces, with a wait between them. -/
theorem transmission_lossless_two :
    ∃ after out, Line.transmit countingDispatch
        [.poll (.ok 4), .poll (.error .wouldBlock), .poll (.ok 6)] answering = .ok after ∧
      after.sent = answering.sent ++ out ∧ out <+: answering.state.txBuf.toBytes := by
  have hsteps : ∀ pre event,
      pre ++ [event] <+: [.poll (.ok 4), .poll (.error .wouldBlock), .poll (.ok 6)] →
      Undisturbed (pre.foldl (Line.step countingDispatch) answering).state event := by
    have hcons := fun s x as ↦ @steps_cons_iff _ _ (Line.step countingDispatch)
      (fun line ↦ Undisturbed line.state) s x as
    have hnil := fun s ↦ @steps_nil _ _ (Line.step countingDispatch)
      (fun line ↦ Undisturbed line.state) s
    refine (hcons _ _ _).mpr ⟨fun _ ↦ ⟨?_, by rintro ⟨⟩⟩,
      (hcons _ _ _).mpr ⟨fun _ ↦ ⟨?_, by rintro ⟨⟩⟩,
      (hcons _ _ _).mpr ⟨fun _ ↦ ⟨?_, by rintro ⟨⟩⟩, hnil _⟩⟩⟩
    · rintro n ⟨⟩
      decide
    · rintro n ⟨⟩
    · rintro n ⟨⟩
      decide
  obtain ⟨after, out, hrun, hsent, hprefix, -⟩ :=
    @transmission_lossless _ countingDispatch answering rfl _ hsteps
  exact ⟨after, out, hrun, hsent, hprefix⟩

end Polls

end Galdralag.OpenPgp
