import Galdralag.Foundation.LineStream
import Galdralag.Provisioning.Personality

/-!
# The lines that the personality carries out

The host writes a stream of lines, and the stream arrives cut into packets. The class carries out a
line at a line feed and then leaves the packet, and it leaves the packet when the line buffer is
full; in both cases the bytes behind are lost. So a line that begins behind a line feed in the
middle of a packet lacks its beginning, and so does one that is too long for the buffer: what is
left of either may be carried out as a line of its own.

Lines are numbered by the position in the stream at which they end (`LineStream`).
-/

set_option linter.all false

namespace Galdralag.Provisioning.ProvisioningClass

open LineStream

variable {W : Type} {commit : ProvisioningCommit W} {c : ProvisioningClass W} {bytes rest : Bytes}
  {pos : ℕ} {line : Bytes} {e : UsbEvent} {events : List UsbEvent}

/-! ## The commands of a run -/

/-- The bytes that an event brings. -/
def UsbEvent.received : UsbEvent → Bytes
  | .endpointOut packet => packet.toBytes
  | _ => []

/-- The stream of the host. -/
def stream (events : List UsbEvent) : Bytes := events.flatMap UsbEvent.received

/-- The line that is carried out at an event, if one is. -/
def executedAt (pos : ℕ) (c : ProvisioningClass W) : UsbEvent → Option (ℕ × Bytes)
  | .endpointOut packet =>
    match scan packet.toBytes c.rxLine with
    | .line n rxLine => some (pos + n, rxLine.toBytes)
    | _ => none
  | _ => none

/-- The lines that are carried out, from a position of the stream on. -/
def executedFrom (commit : ProvisioningCommit W) (pos : ℕ) (c : ProvisioningClass W) :
    List UsbEvent → List (ℕ × Bytes)
  | [] => []
  | e :: events =>
    (executedAt pos c e).toList ++
      executedFrom commit (pos + e.received.length) (c.step commit e) events

/-- The lines that a new class carries out. -/
def executed (commit : ProvisioningCommit W) (w : W) (events : List UsbEvent) : List (ℕ × Bytes) :=
  executedFrom commit 0 (.new w) events

/-- The lines of the host that fit into the buffer. -/
def expected (events : List UsbEvent) : List (ℕ × Bytes) :=
  (linesFrom 0x0A 0 [] (stream events)).filter fun l ↦ l.2.length ≤ lineCap

/-! ### What they do

All that the class keeps from one line to the next is changed by the lines it carries out. -/

/-- What a class keeps from one line to the next. -/
structure Core (W : Type) where
  stagedUser : Vec provisioningPinMax
  stagedAdmin : Vec provisioningPinMax
  commitOk : Bool
  world : W

def core (c : ProvisioningClass W) : Core W := ⟨c.stagedUser, c.stagedAdmin, c.commitOk, c.world⟩

/-- A class that is between two lines. -/
def Core.idle (k : Core W) : ProvisioningClass W :=
  ⟨.empty, .empty, false, k.stagedUser, k.stagedAdmin, k.commitOk, k.world⟩

/-- Carry out a line. -/
def Core.execute (commit : ProvisioningCommit W) (k : Core W) (line : Bytes) : Core W :=
  core (processCompleteLine commit { k.idle with rxLine := .truncated line })

theorem core_setStagedPin (c : ProvisioningClass W) (pin : Bytes) (user : Bool) :
    (c.setStagedPin pin user).core = (c.core.idle.setStagedPin pin user).core := by
  rw [setStagedPin, setStagedPin]
  split_ifs <;> rfl

theorem core_commitStaged (c : ProvisioningClass W) :
    (c.commitStaged commit).core = (c.core.idle.commitStaged commit).core := by
  have huser : c.core.idle.stagedUser = c.stagedUser := rfl
  have hadmin : c.core.idle.stagedAdmin = c.stagedAdmin := rfl
  have hworld : c.core.idle.world = c.world := rfl
  rw [commitStaged, commitStaged, huser, hadmin, hworld]
  split_ifs with hmissing
  · rfl
  · rcases commit c.stagedUser.toBytes c.stagedAdmin.toBytes c.world with ⟨e | _, w⟩ <;> rfl

theorem core_processCommand (c : ProvisioningClass W) (line : Bytes) :
    (c.processCommand commit line).core = (c.core.idle.processCommand commit line).core := by
  rw [processCommand, processCommand]
  by_cases hstatus : line = Cipher.utf8 "STATUS"
  · rw [if_pos hstatus, if_pos hstatus]
    rfl
  · rw [if_neg hstatus, if_neg hstatus]
    by_cases hcommit : line = Cipher.utf8 "COMMIT"
    · rw [if_pos hcommit, if_pos hcommit]
      exact core_commitStaged c
    · rw [if_neg hcommit, if_neg hcommit]
      rcases stripKeyword "SET_USER_PIN:" line with _ | pin
      · rcases stripKeyword "SET_ADMIN_PIN:" line with _ | pin
        · rfl
        · exact core_setStagedPin c pin false
      · exact core_setStagedPin c pin true

/-- Carrying out the line in the buffer. -/
theorem core_processCompleteLine (c : ProvisioningClass W) :
    (c.processCompleteLine commit).core = c.core.execute commit c.rxLine.toBytes := by
  have hline : (Vec.truncated c.rxLine.toBytes : Vec lineCap) = c.rxLine :=
    Subtype.ext (Vec.toBytes_truncated c.rxLine.length_le)
  rw [Core.execute, hline, processCompleteLine, processCompleteLine]
  dsimp only
  split_ifs with htext
  · rfl
  · rw [core_processCommand, core_processCommand _ (trimEnd c.rxLine.toBytes)]
    rfl

/-- An event carries out its line, and changes nothing else that is kept. -/
theorem core_step (pos : ℕ) (c : ProvisioningClass W) (e : UsbEvent) : (c.step commit e).core
    = (executedAt pos c e).elim c.core fun l ↦ c.core.execute commit l.2 := by
  rcases e with packet | _ | r
  · rw [step, receive_eq, executedAt]
    rcases scan packet.toBytes c.rxLine with rxLine | ⟨n, rxLine⟩ | _
    · rfl
    · exact core_processCompleteLine _
    · rfl
  · rfl
  · have hnone : executedAt pos c (.poll r) = none := rfl
    rw [hnone, step, drainTx.eq_def]
    split_ifs with hidle
    · rfl
    · rcases r with n | _ | _
      · dsimp only
        split_ifs <;> rfl
      · rfl
      · rfl

/-- **What a run does** are the lines it carries out, one after the other. -/
theorem core_run (pos : ℕ) (c : ProvisioningClass W) (events : List UsbEvent) :
    (c.run commit events).core = (executedFrom commit pos c events).foldl
      (fun k l ↦ k.execute commit l.2) c.core := by
  induction events generalizing pos c with
  | nil => rfl
  | cons e events ih =>
    rw [executedFrom, List.foldl_append]
    have hstep : (c.step commit e).core
        = (executedAt pos c e).elim c.core fun l ↦ c.core.execute commit l.2 := core_step pos c e
    refine (ih (pos + e.received.length) (c.step commit e)).trans ?_
    rw [hstep]
    rcases executedAt pos c e with _ | l <;> rfl

/-! ## In step with the host -/

/-- A packet that ends a line ends no other one, and the buffer holds that line from its beginning,
or does not have room for what is left of it. -/
def InStep (c : ProvisioningClass W) (line packet : Bytes) : Prop :=
  ∀ front back, packet = front ++ 0x0A :: back → 0x0A ∉ front → 0x0A ∉ back ∧
    (c.rxLine.toBytes = line ∨ lineCap ≤ c.rxLine.toBytes.length + front.length)

theorem rxLine_processCompleteLine (c : ProvisioningClass W) :
    (c.processCompleteLine commit).rxLine = .empty := by
  have hset : ∀ (pin : Bytes) (user : Bool) (c : ProvisioningClass W),
      (c.setStagedPin pin user).rxLine = c.rxLine := by
    intro pin user c
    rw [setStagedPin]
    split_ifs <;> rfl
  have hcommit : ∀ c : ProvisioningClass W, (c.commitStaged commit).rxLine = c.rxLine := by
    intro c
    rw [commitStaged]
    split_ifs
    · rfl
    · rcases commit c.stagedUser.toBytes c.stagedAdmin.toBytes c.world with ⟨e | _, w⟩ <;> rfl
  rw [processCompleteLine]
  split_ifs with htext
  · rfl
  rw [processCommand]
  split_ifs with hstatus hok hcom
  · rfl
  · rfl
  · exact hcommit _
  · rcases stripKeyword "SET_USER_PIN:" (trimEnd c.rxLine.toBytes) with _ | pin
    · rcases stripKeyword "SET_ADMIN_PIN:" (trimEnd c.rxLine.toBytes) with _ | pin
      · rfl
      · exact hset _ _ _
    · exact hset _ _ _

/-- What is in the buffer is the end of the line. -/
theorem rxLine_step (h : c.rxLine.toBytes <:+ line) (e : UsbEvent) :
    (c.step commit e).rxLine.toBytes <:+ openLine 0x0A line e.received := by
  rcases e with packet | _ | r
  · rw [step, receive_eq, UsbEvent.received]
    by_cases hfeed : 0x0A ∈ packet.toBytes
    · -- the line ends, or is too long: either way the buffer is empty
      obtain ⟨front, back, hpacket, hfront⟩ := List.eq_append_cons_of_mem hfeed
      rw [hpacket]
      rcases Nat.lt_or_ge (c.rxLine.toBytes.length + front.length) lineCap with hfit | hlong
      · rw [scan_line hfront back hfit, scanned, rxLine_processCompleteLine]
        exact List.nil_suffix
      · rw [scan_tooLong hfront back hlong, scanned]
        exact List.nil_suffix
    · rw [openLine_of_not_mem hfeed]
      have hscan : scan packet.toBytes c.rxLine = .tooLong ∨ ∃ next,
          scan packet.toBytes c.rxLine = .unfinished next ∧ _ := scan_of_not_mem hfeed
      rcases hscan with hscan | ⟨next, hscan, hnext⟩
      · rw [hscan, scanned]
        exact List.nil_suffix
      · obtain ⟨lost, rfl⟩ := h
        rw [hscan, scanned, hnext, List.append_assoc]
        exact List.suffix_append _ _
  · exact List.nil_suffix
  · have hsame : (c.drainTx r).rxLine = c.rxLine := by
      rw [drainTx.eq_def]
      split_ifs with hidle
      · rfl
      · rcases r with n | _ | _
        · dsimp only
          split_ifs <;> rfl
        · rfl
        · rfl
    rw [step, hsame]
    exact h

section Step

variable (h : c.rxLine.toBytes <:+ line)
include h

/-- A packet that ends a line. -/
theorem executedAt_line_iff (pos : ℕ) {packet : Vec 64} {front back : Bytes}
    (hpacket : packet.toBytes = front ++ 0x0A :: back) (hfront : 0x0A ∉ front) :
    (executedAt pos c (.endpointOut packet)).toList = (linesFrom 0x0A pos line packet.toBytes).filter
        (fun l ↦ decide (l.2.length ≤ lineCap)) ↔
      0x0A ∉ back ∧
        (c.rxLine.toBytes = line ∨ lineCap ≤ c.rxLine.toBytes.length + front.length) := by
  have hle : c.rxLine.toBytes.length ≤ line.length := h.length_le
  have hlen : packet.toBytes.length ≤ 64 := packet.length_le
  rw [hpacket, List.length_append, List.length_cons] at hlen
  -- the lines behind the first line feed fit into the buffer
  have hback : (linesFrom 0x0A (pos + front.length + 1) [] back).filter
      (fun l ↦ decide (l.2.length ≤ lineCap)) = linesFrom 0x0A (pos + front.length + 1) [] back := by
    refine List.filter_eq_self.mpr fun l hl ↦ decide_eq_true ?_
    obtain ⟨-, -, hshort⟩ := mem_linesFrom hl
    rw [List.length_nil] at hshort
    rw [lineCap]
    omega
  have hlength : ∀ l : Bytes, (l ++ front ++ [0x0A]).length = l.length + front.length + 1 := by
    intro l
    rw [List.length_append, List.length_append, List.length_singleton]
  rw [executedAt, hpacket, linesFrom_of_line hfront, List.filter_cons, hback, hlength]
  rcases Nat.lt_or_ge (c.rxLine.toBytes.length + front.length) lineCap with hfit | hlong
  · have hbytes : (Vec.truncated (c.rxLine.toBytes ++ front ++ [0x0A]) : Vec lineCap).toBytes
        = c.rxLine.toBytes ++ front ++ [0x0A] := by
      refine Vec.toBytes_truncated ?_
      rw [hlength]
      exact hfit
    rw [scan_line hfront back hfit]
    dsimp only
    rw [hbytes, Option.toList_some]
    constructor
    · intro heq
      split_ifs at heq with hwhole
      · obtain ⟨hfirst, hrest⟩ := List.cons.inj heq
        have hline := (Prod.mk.inj hfirst).2
        rw [List.append_assoc, List.append_assoc line] at hline
        exact ⟨linesFrom_eq_nil_iff.mp hrest.symm, .inl (List.append_cancel_right hline)⟩
      · -- a line that ends later is another one
        have hmem : (pos + (front.length + 1), c.rxLine.toBytes ++ front ++ [0x0A]) ∈
            linesFrom 0x0A (pos + front.length + 1) [] back := heq ▸ List.mem_cons_self
        have hlt := (mem_linesFrom hmem).1
        dsimp only at hlt
        omega
    · rintro ⟨hnone, hline⟩
      have hline : c.rxLine.toBytes = line := hline.resolve_right (Nat.not_le_of_lt hfit)
      rw [hline] at hfit ⊢
      have hwhole : line.length + front.length + 1 ≤ lineCap := hfit
      rw [if_pos (decide_eq_true hwhole), linesFrom_of_not_mem hnone]
      rfl
  · have hwhole : ¬ decide (line.length + front.length + 1 ≤ lineCap) = true := by
      rw [decide_eq_true_eq]
      omega
    rw [scan_tooLong hfront back hlong, if_neg hwhole]
    have hnil : ([] : List (ℕ × Bytes)) = linesFrom 0x0A (pos + front.length + 1) [] back ↔
        0x0A ∉ back := by
      rw [eq_comm]
      exact linesFrom_eq_nil_iff
    exact hnil.trans (and_iff_left (.inr hlong)).symm

/-- **Events.** An event carries out the lines that it ends exactly when it is in step. -/
theorem executedAt_eq_iff (pos : ℕ) (e : UsbEvent) :
    (executedAt pos c e).toList
        = (linesFrom 0x0A pos line e.received).filter (fun l ↦ decide (l.2.length ≤ lineCap)) ↔
      InStep c line e.received := by
  by_cases hfeed : 0x0A ∈ e.received
  · rcases e with packet | _ | r
    · obtain ⟨front, back, hpacket, hfront⟩ := List.eq_append_cons_of_mem hfeed
      refine (executedAt_line_iff h pos hpacket hfront).trans ⟨?_, fun hstep ↦ ?_⟩
      · rintro hstep front' back' hpacket' hfront'
        obtain ⟨rfl, rfl⟩ := append_sep_inj hfront hfront' (hpacket.symm.trans hpacket')
        exact hstep
      · exact hstep front back hpacket hfront
    · exact absurd hfeed List.not_mem_nil
    · exact absurd hfeed List.not_mem_nil
  · have hnone : executedAt pos c e = none := by
      rcases e with packet | _ | r
      · have hscan : scan packet.toBytes c.rxLine = .tooLong ∨
            ∃ next, scan packet.toBytes c.rxLine = .unfinished next ∧ _ := scan_of_not_mem hfeed
        rcases hscan with hscan | ⟨next, hscan, -⟩
        · rw [executedAt, hscan]
        · rw [executedAt, hscan]
      · rfl
      · rfl
    rw [hnone, linesFrom_of_not_mem hfeed]
    refine iff_of_true rfl fun front back hpacket _ ↦ absurd ?_ hfeed
    rw [hpacket]
    exact List.mem_append_right _ List.mem_cons_self

end Step

/-! ## Runs -/

/-- Every line that is carried out at an event ends in its packet. -/
theorem mem_executedAt {l : ℕ × Bytes} (h : l ∈ (executedAt pos c e).toList) :
    pos < l.1 ∧ l.1 ≤ pos + e.received.length := by
  rw [Option.mem_toList] at h
  rcases e with packet | _ | r
  · rw [executedAt] at h
    by_cases hfeed : 0x0A ∈ packet.toBytes
    · obtain ⟨front, back, hpacket, hfront⟩ := List.eq_append_cons_of_mem hfeed
      have hlen : (UsbEvent.endpointOut packet).received.length = front.length + (back.length + 1) := by
        rw [UsbEvent.received, hpacket, List.length_append, List.length_cons]
      rw [hpacket] at h
      rcases Nat.lt_or_ge (c.rxLine.toBytes.length + front.length) lineCap with hfit | hlong
      · rw [scan_line hfront back hfit] at h
        obtain rfl := Option.some.inj h
        dsimp only
        omega
      · rw [scan_tooLong hfront back hlong] at h
        cases h
    · have hscan : scan packet.toBytes c.rxLine = .tooLong ∨
          ∃ next, scan packet.toBytes c.rxLine = .unfinished next ∧ _ := scan_of_not_mem hfeed
      rcases hscan with hscan | ⟨next, hscan, -⟩
      · rw [hscan] at h
        cases h
      · rw [hscan] at h
        cases h
  · cases h
  · cases h

theorem mem_executedFrom {l : ℕ × Bytes} (h : l ∈ executedFrom commit pos c events) : pos < l.1 := by
  induction events generalizing pos c with
  | nil => exact absurd h List.not_mem_nil
  | cons e events ih =>
    rw [executedFrom, List.mem_append] at h
    rcases h with hfirst | hrest
    · exact (mem_executedAt hfirst).1
    · exact Nat.lt_of_le_of_lt (Nat.le_add_right _ _) (ih hrest)

/-- **Runs.** From a class whose buffer is the end of the line: the lines that are carried out are
those of the host that fit, exactly when every event is in step. -/
theorem executedFrom_eq_iff (h : c.rxLine.toBytes <:+ line) (pos : ℕ) (events : List UsbEvent) :
    executedFrom commit pos c events = (linesFrom 0x0A pos line (stream events)).filter
        (fun l ↦ decide (l.2.length ≤ lineCap)) ↔
      ∀ front e back, events = front ++ e :: back →
        InStep (c.run commit front) (openLine 0x0A line (stream front)) e.received := by
  induction events generalizing pos c line with
  | nil =>
    refine iff_of_true rfl fun front e back hevents ↦ ?_
    exact absurd hevents.symm (List.append_ne_nil_of_right_ne_nil _ (List.cons_ne_nil _ _))
  | cons e events ih =>
    have hstream : stream (e :: events) = e.received ++ stream events := List.flatMap_cons
    rw [executedFrom, hstream, linesFrom_append, List.filter_append, append_eq_append_iff
      (n := pos + e.received.length) (fun l hl ↦ (mem_executedAt hl).2)
      (fun l hl ↦ (mem_linesFrom (List.mem_of_mem_filter hl)).2.1)
      (fun l hl ↦ mem_executedFrom hl)
      (fun l hl ↦ (mem_linesFrom (List.mem_of_mem_filter hl)).1), executedAt_eq_iff h,
      ih (rxLine_step h e)]
    constructor
    · rintro ⟨hfirst, hrest⟩ front e' back hevents
      rcases front with _ | ⟨e₀, front⟩
      · obtain ⟨rfl, rfl⟩ := List.cons.inj hevents
        exact hfirst
      · obtain ⟨rfl, hrestEvents⟩ := List.cons.inj hevents
        have hstep := hrest front e' back hrestEvents
        rw [← openLine_append] at hstep
        exact hstep
    · intro hall
      refine ⟨hall [] e events rfl, fun front e' back hevents ↦ ?_⟩
      rw [← openLine_append]
      exact hall (e :: front) e' back (by rw [hevents, List.cons_append])

/-- **The line protocol.** The lines that the class carries out are those of the host that fit into
the buffer, each once and in their order, exactly when every event is in step. -/
theorem executed_eq_expected_iff (commit : ProvisioningCommit W) (w : W) (events : List UsbEvent) :
    executed commit w events = expected events ↔
      ∀ front e back, events = front ++ e :: back →
        InStep (run commit (.new w) front) (openLine 0x0A [] (stream front)) e.received :=
  executedFrom_eq_iff List.suffix_rfl 0 events

/-- A stream whose packets hold one line each, every line short enough. -/
example : executed (fun _ _ w ↦ (.ok ⟨⟩, w)) () [commandPacket "STATUS", commandPacket "COMMIT"]
    = expected [commandPacket "STATUS", commandPacket "COMMIT"] := by decide

/-- Not every stream is carried out line by line: the second of two lines in one packet is lost. -/
theorem second_line_skipped : ¬ ∀ (commit : ProvisioningCommit Unit) (w : Unit) (events : List UsbEvent),
    executed commit w events = expected events := by
  intro h
  have hlines := h (fun _ _ w ↦ (.ok ⟨⟩, w)) ()
    [.endpointOut (.truncated (Cipher.utf8 "SET_USER_PIN:1\nCOMMIT\n"))]
  exact absurd (congrArg List.length hlines) (by decide)

/-- Nor is a line that is too long always rejected as a whole: the end of one sets a PIN. -/
example : expected [.endpointOut (.truncated (List.replicate 64 0x20)),
      .endpointOut (.truncated (List.replicate 33 0x20)), commandPacket "SET_USER_PIN:1"] = [] ∧
    (run (fun _ _ w ↦ (.ok ⟨⟩, w)) (new ()) [.endpointOut (.truncated (List.replicate 64 0x20)),
      .endpointOut (.truncated (List.replicate 33 0x20)),
      commandPacket "SET_USER_PIN:1"]).stagedUser.toBytes = [0x31] := by decide

end Galdralag.Provisioning.ProvisioningClass
