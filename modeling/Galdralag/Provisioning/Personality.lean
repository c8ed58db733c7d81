import Galdralag.Cipher.Profile
import Galdralag.Hal
import Mathlib.Data.List.DropRight
import Mathlib.Data.List.Induction

/-!
# The provisioning personality

Before a card has PINs, its USB device speaks a protocol of lines: `SET_USER_PIN:` and
`SET_ADMIN_PIN:` stage a PIN, `COMMIT` hands both staged PINs to the platform, `STATUS` asks whether
that has happened. Lines arrive in packets of up to 64 bytes; the bytes behind a line feed are lost
with the rest of its packet.

A line is read as text, so a PIN is the UTF-8 encoding of what the operator typed. What is staged is
bounded by its type, and what is committed has from 1 to 32 bytes.
-/

set_option linter.all false

namespace Galdralag.Provisioning

open Cipher (utf8 fromUtf8 utf8_eq_flatMap)

/-- The longest PIN that is staged. -/
def provisioningPinMax : ℕ := 32

/-- A PIN that the operator can choose: 1 to 32 bytes, none of them the padding byte `0xFF`. -/
structure IsPin (pin : Bytes) : Prop where
  ne_nil : pin ≠ []
  length_le : pin.length ≤ provisioningPinMax
  unpadded : 0xFF ∉ pin

/-- The longest line, its line feed included. -/
def lineCap : ℕ := 96

def txCap : ℕ := 64

/-- How staged PINs are persisted: the user PIN, then the admin PIN. -/
abbrev ProvisioningCommit (W : Type) := Bytes → Bytes → Fallible W HalError PUnit

/-- The line protocol, over the world in which PINs are committed. An empty PIN is one that has not
been staged. -/
structure ProvisioningClass (W : Type) where
  rxLine : Vec lineCap
  txBuf : Vec txCap
  txPending : Bool
  stagedUser : Vec provisioningPinMax
  stagedAdmin : Vec provisioningPinMax
  commitOk : Bool
  world : W

namespace ProvisioningClass

variable {W : Type}

def new (world : W) : ProvisioningClass W := ⟨.empty, .empty, false, .empty, .empty, false, world⟩

/-! ## Answers -/

/-- Queue an answer; what does not fit is cut off. -/
def queueResponse (text : String) (c : ProvisioningClass W) : ProvisioningClass W :=
  let txBuf := Vec.truncated (utf8 text)
  { c with txBuf := txBuf, txPending := txBuf.toBytes ≠ [] }

def queueErr (reason : String) (c : ProvisioningClass W) : ProvisioningClass W :=
  { c with txBuf := .truncated (utf8 "ERR:" ++ utf8 reason ++ [0x0A]), txPending := true }

/-! ## Lines -/

/-- Stage a PIN. -/
def setStagedPin (pin : Bytes) (user : Bool) (c : ProvisioningClass W) : ProvisioningClass W :=
  if pin = [] ∨ provisioningPinMax < pin.length then c.queueErr "pin length"
  else queueResponse "OK\n" (
    if user then { c with stagedUser := .truncated pin } else { c with stagedAdmin := .truncated pin })

/-- The answer to a commit that failed. -/
def commitRefusal : HalError → String
  | .denied => "denied"
  | .needsProvisioning => "not ready"
  | _ => "commit failed"

/-- Commit the staged PINs, and forget them when that succeeds. -/
def commitStaged (commit : ProvisioningCommit W) (c : ProvisioningClass W) : ProvisioningClass W :=
  if c.stagedUser.toBytes = [] ∨ c.stagedAdmin.toBytes = [] then c.queueErr "missing pin"
  else
    match commit c.stagedUser.toBytes c.stagedAdmin.toBytes c.world with
    | (.ok _, w) => queueResponse "OK\n"
      { c with commitOk := true, stagedUser := .empty, stagedAdmin := .empty, world := w }
    | (.error e, w) => queueErr (commitRefusal e) { c with world := w }

/-- What follows a keyword at the beginning of a line. -/
def stripKeyword (keyword : String) (line : Bytes) : Option Bytes :=
  if utf8 keyword <+: line then some (line.drop (utf8 keyword).length) else none

/-- A line without the carriage returns and line feeds at its end. -/
def trimEnd (line : Bytes) : Bytes := line.rdropWhile fun b ↦ b == 0x0D || b == 0x0A

/-- Carry out a command. -/
def processCommand (commit : ProvisioningCommit W) (line : Bytes) (c : ProvisioningClass W) :
    ProvisioningClass W :=
  if line = utf8 "STATUS" then
    c.queueResponse (if c.commitOk then "PROVISIONED\n" else "NEEDS_PROVISIONING\n")
  else if line = utf8 "COMMIT" then c.commitStaged commit
  else
    match stripKeyword "SET_USER_PIN:" line with
    | some pin => c.setStagedPin pin true
    | none =>
      match stripKeyword "SET_ADMIN_PIN:" line with
      | some pin => c.setStagedPin pin false
      | none => c.queueErr "invalid command"

/-- Process the received line; copying it cannot fail, since its buffer is no shorter. -/
def processCompleteLine (commit : ProvisioningCommit W) (c : ProvisioningClass W) :
    ProvisioningClass W :=
  let line := c.rxLine.toBytes
  let c := { c with rxLine := .empty }
  if (fromUtf8 line).isNone then c.queueErr "invalid utf-8"
  else c.processCommand commit (trimEnd line)

/-! ## Packets -/

/-- The bytes of a packet, one after the other; the first line feed ends it. -/
def receive (commit : ProvisioningCommit W) : Bytes → ProvisioningClass W → ProvisioningClass W
  | [], c => c
  | byte :: bytes, c =>
    match Vec.ofBytes? (c.rxLine.toBytes ++ [byte]) with
    | none => queueErr "line too long" { c with rxLine := .empty }
    | some rxLine =>
      if byte = 0x0A then processCompleteLine commit { c with rxLine := rxLine }
      else receive commit bytes { c with rxLine := rxLine }

/-- What the endpoint makes of a write. -/
inductive EndpointWrite where
  | written (n : ℕ)
  | wouldBlock
  | failed
  deriving DecidableEq, Repr

/-- Send what is queued, as far as the endpoint takes it. -/
def drainTx (r : EndpointWrite) (c : ProvisioningClass W) : ProvisioningClass W :=
  if c.txPending = false ∨ c.txBuf.toBytes = [] then c
  else
    match r with
    | .written n =>
      if n = 0 then c
      else if c.txBuf.length ≤ n then { c with txBuf := .empty, txPending := false }
      else { c with txBuf := .truncated (c.txBuf.toBytes.drop n) }
    | .wouldBlock => c
    | .failed => { c with txBuf := .empty, txPending := false }

/-- What the USB stack calls the class with; control requests concern the line coding alone. -/
inductive UsbEvent where
  | endpointOut (packet : Vec 64)
  | reset
  | poll (r : EndpointWrite)
  deriving DecidableEq

def step (commit : ProvisioningCommit W) (c : ProvisioningClass W) : UsbEvent → ProvisioningClass W
  | .endpointOut packet => c.receive commit packet.toBytes
  | .reset => { c with rxLine := .empty, txBuf := .empty, txPending := false }
  | .poll r => c.drainTx r

/-- The class after some events. -/
def run (commit : ProvisioningCommit W) (c : ProvisioningClass W) (events : List UsbEvent) :
    ProvisioningClass W := events.foldl (step commit) c

/-! ## What is committed

A PIN is staged from a line of text, so none of its bytes is the padding byte of the card. -/

/-- No character is encoded with the byte `0xFF`. -/
theorem not_mem_utf8EncodeChar (c : Char) : 0xFF ∉ String.utf8EncodeChar c := by
  have hbyte : ∀ n : ℕ, n < 0xFF → (0xFF : UInt8) ≠ UInt8.ofNat n := by
    intro n hn h
    have hnat := congrArg UInt8.toNat h
    have hmod : n % 2 ^ 8 = n := Nat.mod_eq_of_lt (by omega)
    have hff : (0xFF : UInt8).toNat = 0xFF := rfl
    rw [UInt8.toNat_ofNat', hmod, hff] at hnat
    omega
  -- a single byte, or a lead byte and up to three continuation bytes
  simp only [String.utf8EncodeChar]
  split_ifs with h1 h2 h3
  · rw [List.mem_singleton]
    exact hbyte _ (by omega)
  · simp only [List.mem_cons, List.not_mem_nil, or_false, not_or]
    exact ⟨hbyte _ (by omega), hbyte _ (by omega)⟩
  · simp only [List.mem_cons, List.not_mem_nil, or_false, not_or]
    exact ⟨hbyte _ (by omega), hbyte _ (by omega), hbyte _ (by omega)⟩
  · simp only [List.mem_cons, List.not_mem_nil, or_false, not_or]
    exact ⟨hbyte _ (by omega), hbyte _ (by omega), hbyte _ (by omega), hbyte _ (by omega)⟩

/-- Nor is any text. -/
theorem not_mem_utf8 (s : String) : 0xFF ∉ utf8 s := by
  rw [utf8_eq_flatMap, List.mem_flatMap]
  rintro ⟨c, -, hc⟩
  exact not_mem_utf8EncodeChar c hc

/-- A class whose staged PINs are unpadded, over a world and a flag with a property. -/
structure Holds (I : W → Bool → Prop) (c : ProvisioningClass W) : Prop where
  user : 0xFF ∉ c.stagedUser.toBytes
  admin : 0xFF ∉ c.stagedAdmin.toBytes
  state : I c.world c.commitOk

section Runs

variable {I : W → Bool → Prop} {commit : ProvisioningCommit W} {c : ProvisioningClass W}

theorem Holds.queueResponse (h : Holds I c) (text : String) : Holds I (c.queueResponse text) :=
  ⟨h.user, h.admin, h.state⟩

theorem Holds.queueErr (h : Holds I c) (reason : String) : Holds I (c.queueErr reason) :=
  ⟨h.user, h.admin, h.state⟩

theorem Holds.rxLine (h : Holds I c) (rxLine : Vec lineCap) : Holds I { c with rxLine := rxLine } :=
  ⟨h.user, h.admin, h.state⟩

theorem Holds.setStagedPin (h : Holds I c) {pin : Bytes} (hpin : 0xFF ∉ pin) (user : Bool) :
    Holds I (c.setStagedPin pin user) := by
  rw [ProvisioningClass.setStagedPin]
  split_ifs with hlen huser
  · exact h.queueErr _
  all_goals
    have hstaged : 0xFF ∉ (Vec.truncated pin : Vec provisioningPinMax).toBytes :=
      fun hmem ↦ hpin (List.mem_of_mem_take hmem)
    apply Holds.queueResponse
  · exact ⟨hstaged, h.admin, h.state⟩
  · exact ⟨h.user, hstaged, h.state⟩

/-- Every commit is one of two PINs. -/
theorem Holds.commitStaged (h : Holds I c)
    (hcommit : ∀ user admin w ok, IsPin user → IsPin admin → I w ok →
      I (commit user admin w).2 (ok || (commit user admin w).1.isOk)) :
    Holds I (c.commitStaged commit) := by
  rw [ProvisioningClass.commitStaged]
  split_ifs with hmissing
  · exact h.queueErr _
  rw [not_or] at hmissing
  have huser : IsPin c.stagedUser.toBytes := ⟨hmissing.1, c.stagedUser.length_le, h.user⟩
  have hadmin : IsPin c.stagedAdmin.toBytes := ⟨hmissing.2, c.stagedAdmin.length_le, h.admin⟩
  have hstate := hcommit _ _ c.world c.commitOk huser hadmin h.state
  rcases hrun : commit c.stagedUser.toBytes c.stagedAdmin.toBytes c.world with ⟨e | ok, w⟩
  · rw [hrun, Except.isOk, Except.toBool, Bool.or_false] at hstate
    have hnext : Holds I { c with world := w } := ⟨h.user, h.admin, hstate⟩
    exact hnext.queueErr _
  · rw [hrun, Except.isOk, Except.toBool, Bool.or_true] at hstate
    have hnext : Holds I
        { c with commitOk := true, stagedUser := .empty, stagedAdmin := .empty, world := w } :=
      ⟨List.not_mem_nil, List.not_mem_nil, hstate⟩
    exact hnext.queueResponse _

variable (hcommit : ∀ user admin w ok, IsPin user → IsPin admin → I w ok →
  I (commit user admin w).2 (ok || (commit user admin w).1.isOk))
include hcommit

theorem Holds.processCommand (h : Holds I c) {line : Bytes} (hline : 0xFF ∉ line) :
    Holds I (c.processCommand commit line) := by
  have hrest : ∀ keyword pin, stripKeyword keyword line = some pin → 0xFF ∉ pin := by
    intro keyword pin hpin hmem
    rw [stripKeyword] at hpin
    split_ifs at hpin with hkey
    rw [← Option.some.inj hpin] at hmem
    exact hline (List.mem_of_mem_drop hmem)
  rw [ProvisioningClass.processCommand]
  split_ifs with hstatus hok hcom
  · exact h.queueResponse _
  · exact h.queueResponse _
  · exact h.commitStaged hcommit
  · rcases huser : stripKeyword "SET_USER_PIN:" line with _ | pin
    · rcases hadmin : stripKeyword "SET_ADMIN_PIN:" line with _ | pin
      · exact h.queueErr _
      · exact h.setStagedPin (hrest _ _ hadmin) false
    · exact h.setStagedPin (hrest _ _ huser) true

theorem Holds.processCompleteLine (h : Holds I c) : Holds I (c.processCompleteLine commit) := by
  rw [ProvisioningClass.processCompleteLine]
  rcases htext : fromUtf8 c.rxLine.toBytes with _ | text
  · exact (h.rxLine _).queueErr _
  · refine (h.rxLine _).processCommand hcommit fun hmem ↦ ?_
    rw [← Cipher.utf8_of_fromUtf8 htext] at hmem
    exact not_mem_utf8 text ((List.rdropWhile_prefix _ _).subset hmem)

/-- A packet, by induction on its bytes. -/
theorem Holds.receive (h : Holds I c) (bytes : Bytes) : Holds I (c.receive commit bytes) := by
  induction bytes generalizing c with
  | nil => exact h
  | cons byte bytes ih =>
    rw [ProvisioningClass.receive]
    rcases Vec.ofBytes? (c.rxLine.toBytes ++ [byte]) with _ | rxLine
    · exact (h.rxLine _).queueErr _
    · dsimp only
      split_ifs with hfeed
      · exact (h.rxLine _).processCompleteLine hcommit
      · exact ih (h.rxLine _)

omit hcommit in
theorem Holds.drainTx (h : Holds I c) (r : EndpointWrite) : Holds I (c.drainTx r) := by
  have hsame : (c.drainTx r).stagedUser = c.stagedUser ∧ (c.drainTx r).stagedAdmin = c.stagedAdmin ∧
      (c.drainTx r).world = c.world ∧ (c.drainTx r).commitOk = c.commitOk := by
    rcases r with n | _ | _ <;> simp only [ProvisioningClass.drainTx] <;> split_ifs <;>
      exact ⟨rfl, rfl, rfl, rfl⟩
  obtain ⟨huser, hadmin, hworld, hok⟩ := hsame
  refine ⟨?_, ?_, ?_⟩
  · rw [huser]
    exact h.user
  · rw [hadmin]
    exact h.admin
  · rw [hworld, hok]
    exact h.state

theorem Holds.step (h : Holds I c) (e : UsbEvent) : Holds I (c.step commit e) := by
  rcases e with packet | _ | r
  · exact h.receive hcommit _
  · exact ⟨h.user, h.admin, h.state⟩
  · exact h.drainTx r

/-- **Runs of the personality.** What holds of a world before anything is committed, and is kept by
every commit of two PINs, holds after any events. -/
theorem run_holds {w : W} (hinit : I w false) (events : List UsbEvent) :
    I (run commit (.new w) events).world (run commit (.new w) events).commitOk := by
  have hnew : Holds I (ProvisioningClass.new w) := ⟨List.not_mem_nil, List.not_mem_nil, hinit⟩
  suffices h : Holds I (run commit (.new w) events) from h.state
  rw [run]
  induction events using List.reverseRecOn with
  | nil => exact hnew
  | append_singleton events e ih =>
    rw [List.foldl_append, List.foldl_cons, List.foldl_nil]
    exact ih.step hcommit e

end Runs

/-! ## The PINs that were committed -/

/-- A commit that keeps, beside the world, the PINs that were committed last. -/
def recording (commit : ProvisioningCommit W) : ProvisioningCommit (W × Option (Bytes × Bytes)) :=
  fun user admin s ↦
    match commit user admin s.1 with
    | (.ok x, w) => (.ok x, (w, some (user, admin)))
    | (.error e, w) => (.error e, (w, s.2))

section Recording

variable {commit : ProvisioningCommit W} {user admin : Bytes} {w w' : W}
  {last : Option (Bytes × Bytes)}

theorem recording_ok (h : commit user admin w = (.ok ⟨⟩, w')) :
    recording commit user admin (w, last) = (.ok ⟨⟩, (w', some (user, admin))) := by
  rw [recording, h]

theorem recording_error {e : HalError} (h : commit user admin w = (.error e, w')) :
    recording commit user admin (w, last) = (.error e, (w', last)) := by
  rw [recording, h]

/-- The class without its record. -/
def forget (c : ProvisioningClass (W × Option (Bytes × Bytes))) : ProvisioningClass W where
  rxLine := c.rxLine
  txBuf := c.txBuf
  txPending := c.txPending
  stagedUser := c.stagedUser
  stagedAdmin := c.stagedAdmin
  commitOk := c.commitOk
  world := c.world.1

variable (c : ProvisioningClass (W × Option (Bytes × Bytes)))

theorem forget_setStagedPin (pin : Bytes) (user : Bool) :
    (c.setStagedPin pin user).forget = c.forget.setStagedPin pin user := by
  rw [setStagedPin, setStagedPin]
  split_ifs <;> rfl

theorem forget_commitStaged :
    (c.commitStaged (recording commit)).forget = c.forget.commitStaged commit := by
  rw [commitStaged, commitStaged]
  by_cases hmissing : c.stagedUser.toBytes = [] ∨ c.stagedAdmin.toBytes = []
  · have hforget : c.forget.stagedUser.toBytes = [] ∨ c.forget.stagedAdmin.toBytes = [] := hmissing
    rw [if_pos hmissing, if_pos hforget]
    rfl
  · have hforget : ¬ (c.forget.stagedUser.toBytes = [] ∨ c.forget.stagedAdmin.toBytes = []) := hmissing
    rw [if_neg hmissing, if_neg hforget]
    rcases hrun : commit c.stagedUser.toBytes c.stagedAdmin.toBytes c.world.1 with ⟨e | _, w⟩
    · have hrun' : commit c.forget.stagedUser.toBytes c.forget.stagedAdmin.toBytes c.forget.world
          = (.error e, w) := hrun
      have hrecord : recording commit c.stagedUser.toBytes c.stagedAdmin.toBytes c.world
          = (.error e, (w, c.world.2)) := recording_error hrun
      rw [hrun', hrecord]
      rfl
    · have hrun' : commit c.forget.stagedUser.toBytes c.forget.stagedAdmin.toBytes c.forget.world
          = (.ok ⟨⟩, w) := hrun
      have hrecord : recording commit c.stagedUser.toBytes c.stagedAdmin.toBytes c.world
          = (.ok ⟨⟩, (w, some (c.stagedUser.toBytes, c.stagedAdmin.toBytes))) := recording_ok hrun
      rw [hrun', hrecord]
      rfl

theorem forget_processCommand (line : Bytes) :
    (c.processCommand (recording commit) line).forget = c.forget.processCommand commit line := by
  rw [processCommand, processCommand]
  by_cases hstatus : line = utf8 "STATUS"
  · rw [if_pos hstatus, if_pos hstatus]
    rfl
  · rw [if_neg hstatus, if_neg hstatus]
    by_cases hcommit : line = utf8 "COMMIT"
    · rw [if_pos hcommit, if_pos hcommit]
      exact forget_commitStaged c
    · rw [if_neg hcommit, if_neg hcommit]
      rcases stripKeyword "SET_USER_PIN:" line with _ | pin
      · rcases stripKeyword "SET_ADMIN_PIN:" line with _ | pin
        · rfl
        · exact forget_setStagedPin c pin false
      · exact forget_setStagedPin c pin true

theorem forget_processCompleteLine :
    (c.processCompleteLine (recording commit)).forget = c.forget.processCompleteLine commit := by
  rw [processCompleteLine, processCompleteLine]
  rcases htext : fromUtf8 c.rxLine.toBytes with _ | text
  · have hforget : fromUtf8 c.forget.rxLine.toBytes = none := htext
    rw [hforget]
    rfl
  · have hforget : fromUtf8 c.forget.rxLine.toBytes = some text := htext
    rw [hforget]
    exact forget_processCommand _ _

theorem forget_receive (bytes : Bytes) :
    (c.receive (recording commit) bytes).forget = c.forget.receive commit bytes := by
  induction bytes generalizing c with
  | nil => rfl
  | cons byte bytes ih =>
    rw [receive, receive]
    have hforget : c.forget.rxLine = c.rxLine := rfl
    rw [hforget]
    rcases Vec.ofBytes? (c.rxLine.toBytes ++ [byte]) with _ | rxLine
    · rfl
    · dsimp only
      by_cases hfeed : byte = 0x0A
      · rw [if_pos hfeed, if_pos hfeed]
        exact forget_processCompleteLine _
      · rw [if_neg hfeed, if_neg hfeed]
        exact ih _

theorem forget_drainTx (r : EndpointWrite) : (c.drainTx r).forget = c.forget.drainTx r := by
  rw [drainTx.eq_def, drainTx.eq_def]
  have hpending : c.forget.txPending = c.txPending := rfl
  have hbuf : c.forget.txBuf = c.txBuf := rfl
  rw [hpending, hbuf]
  split_ifs with hidle
  · rfl
  · rcases r with n | _ | _
    · dsimp only
      split_ifs <;> rfl
    · rfl
    · rfl

theorem forget_step (e : UsbEvent) :
    (c.step (recording commit) e).forget = c.forget.step commit e := by
  rcases e with packet | _ | r
  · exact forget_receive c _
  · rfl
  · exact forget_drainTx c r

/-- **The record is a ghost.** The class does the same with it and without it. -/
theorem forget_run (events : List UsbEvent) :
    (c.run (recording commit) events).forget = c.forget.run commit events := by
  rw [run, run]
  induction events generalizing c with
  | nil => rfl
  | cons e events ih =>
    rw [List.foldl_cons, List.foldl_cons, ih, forget_step]

end Recording

/-! ## What a packet does

A packet ends a line, goes on with it, or finds it too long. -/

section Scan

variable {commit : ProvisioningCommit W} {bytes : Bytes} {rxLine : Vec lineCap}

/-- What the bytes of a packet make of the line in the buffer. -/
inductive Scan where
  /-- The line goes on in the next packet. -/
  | unfinished (rxLine : Vec lineCap)
  /-- The line ends with the `n`-th byte of the packet. -/
  | line (n : ℕ) (rxLine : Vec lineCap)
  /-- The line does not fit into the buffer. -/
  | tooLong

/-- One more byte was read before. -/
def Scan.succ : Scan → Scan
  | .line n rxLine => .line (n + 1) rxLine
  | r => r

/-- Read a packet up to the line feed. -/
def scan : Bytes → Vec lineCap → Scan
  | [], rxLine => .unfinished rxLine
  | byte :: bytes, rxLine =>
    match Vec.ofBytes? (rxLine.toBytes ++ [byte]) with
    | none => .tooLong
    | some rxLine => if byte = 0x0A then .line 1 rxLine else (scan bytes rxLine).succ

/-- What the class does then. -/
def scanned (commit : ProvisioningCommit W) (c : ProvisioningClass W) : Scan → ProvisioningClass W
  | .unfinished rxLine => { c with rxLine := rxLine }
  | .line _ rxLine => processCompleteLine commit { c with rxLine := rxLine }
  | .tooLong => queueErr "line too long" { c with rxLine := .empty }

/-- **Packets.** The class carries out the line that a packet ends. -/
theorem receive_eq (bytes : Bytes) (c : ProvisioningClass W) :
    c.receive commit bytes = scanned commit c (scan bytes c.rxLine) := by
  induction bytes generalizing c with
  | nil => rfl
  | cons byte bytes ih =>
    have hsucc : ∀ (rxLine : Vec lineCap) (r : Scan),
        scanned commit { c with rxLine := rxLine } r = scanned commit c r.succ := by
      intro rxLine r
      rcases r with _ | ⟨n, _⟩ | _ <;> rfl
    rw [receive, scan]
    rcases Vec.ofBytes? (c.rxLine.toBytes ++ [byte]) with _ | rxLine
    · rfl
    · dsimp only
      split_ifs with hfeed
      · rfl
      · exact (ih _).trans (hsucc _ _)

/-- Without a line feed the line goes on, or is too long. -/
theorem scan_of_not_mem (h : 0x0A ∉ bytes) : scan bytes rxLine = .tooLong ∨
    ∃ next, scan bytes rxLine = .unfinished next ∧ next.toBytes = rxLine.toBytes ++ bytes := by
  induction bytes generalizing rxLine with
  | nil => exact .inr ⟨rxLine, rfl, (List.append_nil _).symm⟩
  | cons byte bytes ih =>
    rw [List.mem_cons, not_or] at h
    rw [scan]
    rcases hnext : (Vec.ofBytes? (rxLine.toBytes ++ [byte]) : Option (Vec lineCap)) with _ | next
    · exact .inl rfl
    · have hbytes := Vec.toBytes_of_ofBytes? hnext
      dsimp only
      rw [if_neg (Ne.symm h.1)]
      have hrest : scan bytes next = .tooLong ∨
          ∃ last, scan bytes next = .unfinished last ∧ last.toBytes = next.toBytes ++ bytes := ih h.2
      rcases hrest with hscan | ⟨last, hscan, hlast⟩
      · exact .inl (by rw [hscan]; rfl)
      · refine .inr ⟨last, by rw [hscan]; rfl, ?_⟩
        rw [hlast, hbytes, List.append_assoc, List.singleton_append]

/-- The line up to the first line feed, if it fits. -/
theorem scan_line (h : 0x0A ∉ bytes) (rest : Bytes)
    (hfit : rxLine.toBytes.length + bytes.length < lineCap) : scan (bytes ++ 0x0A :: rest) rxLine
      = .line (bytes.length + 1) (.truncated (rxLine.toBytes ++ bytes ++ [0x0A])) := by
  induction bytes generalizing rxLine with
  | nil =>
    have hlen : (rxLine.toBytes ++ [0x0A]).length ≤ lineCap := by
      rw [List.length_append]
      exact hfit
    rw [List.nil_append, List.append_nil, scan, Vec.ofBytes?_of_le hlen]
    exact if_pos rfl
  | cons byte bytes ih =>
    rw [List.length_cons] at hfit
    rw [List.mem_cons, not_or] at h
    have hlen : (rxLine.toBytes ++ [byte]).length ≤ lineCap := by
      rw [List.length_append, List.length_singleton]
      omega
    have hbytes : (Vec.truncated (rxLine.toBytes ++ [byte]) : Vec lineCap).toBytes
        = rxLine.toBytes ++ [byte] := Vec.toBytes_truncated hlen
    have hnext : (Vec.truncated (rxLine.toBytes ++ [byte]) : Vec lineCap).toBytes.length
        + bytes.length < lineCap := by
      rw [hbytes, List.length_append, List.length_singleton]
      omega
    rw [List.cons_append, scan, Vec.ofBytes?_of_le hlen]
    dsimp only
    rw [if_neg (Ne.symm h.1), ih h.2 hnext, hbytes, List.append_assoc _ [byte],
      List.singleton_append]
    rfl

/-- Else the packet is left at the byte that does not fit. -/
theorem scan_tooLong (h : 0x0A ∉ bytes) (rest : Bytes)
    (hlong : lineCap ≤ rxLine.toBytes.length + bytes.length) :
    scan (bytes ++ 0x0A :: rest) rxLine = .tooLong := by
  have hmax := rxLine.length_le
  induction bytes generalizing rxLine with
  | nil =>
    have hnone : (Vec.ofBytes? (rxLine.toBytes ++ [0x0A]) : Option (Vec lineCap)) = none := by
      refine dif_neg ?_
      rw [List.length_append, List.length_singleton]
      exact Nat.not_le_of_lt (Nat.lt_succ_of_le hlong)
    rw [List.nil_append, scan, hnone]
  | cons byte bytes ih =>
    rw [List.mem_cons, not_or] at h
    rw [List.cons_append, scan]
    rcases hnext : (Vec.ofBytes? (rxLine.toBytes ++ [byte]) : Option (Vec lineCap)) with _ | next
    · rfl
    · have hbytes := Vec.toBytes_of_ofBytes? hnext
      dsimp only
      rw [if_neg (Ne.symm h.1), ih h.2 ?_ next.length_le]
      · rfl
      · rw [hbytes, List.length_append, List.length_singleton]
        rw [List.length_cons] at hlong
        omega

end Scan

/-! ## Provisioning a card

Three lines provision a card: one for each PIN, and the commit. -/

theorem utf8_append (s t : String) : utf8 (s ++ t) = utf8 s ++ utf8 t := by
  rw [utf8, utf8, utf8, String.toByteArray_append, ByteArray.data_append, Array.toList_append]

/-- A PIN that can be typed: text of 1 to 32 bytes on one line, which does not end like a line. -/
structure Typed (pin : String) : Prop where
  ne_nil : utf8 pin ≠ []
  length_le : (utf8 pin).length ≤ provisioningPinMax
  oneLine : 0x0A ∉ utf8 pin
  last : (utf8 pin).getLast? ≠ some 0x0D

theorem Typed.isPin {pin : String} (h : Typed pin) : IsPin (utf8 pin) :=
  ⟨h.ne_nil, h.length_le, not_mem_utf8 pin⟩

section Lines

variable {commit : ProvisioningCommit W} {c : ProvisioningClass W}

/-- The bytes of a line are collected up to its line feed. -/
theorem receive_line {line : Bytes} (hline : 0x0A ∉ line)
    (hfit : c.rxLine.toBytes.length + line.length < lineCap) (rest : Bytes) :
    c.receive commit (line ++ 0x0A :: rest) = processCompleteLine commit
      { c with rxLine := .truncated (c.rxLine.toBytes ++ line ++ [0x0A]) } := by
  rw [receive_eq, scan_line hline rest hfit]
  rfl

/-- A command in a packet of its own. -/
def commandPacket (command : String) : UsbEvent := .endpointOut (.truncated (utf8 (command ++ "\n")))

/-- A command line is carried out. -/
theorem step_command {command : String} (hline : 0x0A ∉ utf8 command)
    (hlast : (utf8 command).getLast? ≠ some 0x0D) (hfit : (utf8 command).length < 64)
    (hempty : c.rxLine = .empty) :
    c.step commit (commandPacket command) = c.processCommand commit (utf8 command) := by
  have hbytes : utf8 (command ++ "\n") = utf8 command ++ [0x0A] := utf8_append command "\n"
  have hlen : (utf8 (command ++ "\n")).length ≤ 64 := by
    rw [hbytes, List.length_append, List.length_singleton]
    exact hfit
  have hcap : (utf8 (command ++ "\n")).length ≤ lineCap := Nat.le_trans hlen (by decide)
  have hbuffer : c.rxLine.toBytes.length + (utf8 command).length < lineCap := by
    rw [hempty, Vec.toBytes_empty, List.length_nil, Nat.zero_add]
    exact Nat.lt_of_lt_of_le hfit (by decide)
  have hself : ({ c with rxLine := .empty } : ProvisioningClass W) = c := by
    rw [← hempty]
  have htrim : trimEnd (utf8 command ++ [0x0A]) = utf8 command := by
    rw [trimEnd, List.rdropWhile_concat_pos _ _ _ rfl, List.rdropWhile_eq_self_iff]
    intro hne hend
    rw [Bool.or_eq_true, beq_iff_eq, beq_iff_eq] at hend
    rcases hend with hcr | hlf
    · exact hlast (by rw [List.getLast?_eq_getLast_of_ne_nil hne, hcr])
    · exact hline (hlf ▸ List.getLast_mem hne)
  have hreceived : c.receive commit (utf8 command ++ [0x0A]) = processCompleteLine commit
      { c with rxLine := .truncated (utf8 (command ++ "\n")) } := by
    rw [receive_line hline hbuffer [], hempty, Vec.toBytes_empty, List.nil_append, hbytes]
  rw [commandPacket, step, Vec.toBytes_truncated hlen, hbytes, hreceived, processCompleteLine]
  dsimp only
  rw [Vec.toBytes_truncated hcap, Cipher.fromUtf8_utf8, hself, hbytes, htrim]
  rfl

/-! ### The commands -/

/-- A line with a keyword is none of the two commands without one. -/
theorem processCommand_keyword {keyword : String} (hlong : 6 < (utf8 keyword).length) (pin : Bytes) :
    c.processCommand commit (utf8 keyword ++ pin) =
      match stripKeyword "SET_USER_PIN:" (utf8 keyword ++ pin) with
      | some pin => c.setStagedPin pin true
      | none =>
        match stripKeyword "SET_ADMIN_PIN:" (utf8 keyword ++ pin) with
        | some pin => c.setStagedPin pin false
        | none => c.queueErr "invalid command" := by
  have hne : ∀ command : String, (utf8 command).length = 6 → utf8 keyword ++ pin ≠ utf8 command := by
    intro command hlen heq
    rw [← heq, List.length_append] at hlen
    omega
  rw [processCommand, if_neg (hne "STATUS" (by decide)), if_neg (hne "COMMIT" (by decide))]

theorem stripKeyword_self (keyword : String) (rest : Bytes) :
    stripKeyword keyword (utf8 keyword ++ rest) = some rest := by
  rw [stripKeyword, if_pos (List.prefix_append _ _), List.drop_left' rfl]

theorem processCommand_setUserPin (pin : String) : c.processCommand commit
    (utf8 ("SET_USER_PIN:" ++ pin)) = c.setStagedPin (utf8 pin) true := by
  rw [utf8_append, processCommand_keyword (by decide), stripKeyword_self]

theorem processCommand_setAdminPin (pin : String) : c.processCommand commit
    (utf8 ("SET_ADMIN_PIN:" ++ pin)) = c.setStagedPin (utf8 pin) false := by
  have hother : stripKeyword "SET_USER_PIN:" (utf8 "SET_ADMIN_PIN:" ++ utf8 pin) = none := by
    refine if_neg fun hprefix ↦ ?_
    have hkeywords : utf8 "SET_USER_PIN:" <+: utf8 "SET_ADMIN_PIN:" :=
      List.prefix_of_prefix_length_le hprefix (List.prefix_append _ _) (by decide)
    exact absurd hkeywords (by decide)
  rw [utf8_append, processCommand_keyword (by decide), hother, stripKeyword_self]

theorem setStagedPin_typed {pin : String} (h : Typed pin) (user : Bool) :
    c.setStagedPin (utf8 pin) user = queueResponse "OK\n" (
      if user then { c with stagedUser := .truncated (utf8 pin) }
      else { c with stagedAdmin := .truncated (utf8 pin) }) := by
  refine if_neg ?_
  rw [not_or, Nat.not_lt]
  exact ⟨h.ne_nil, h.length_le⟩

/-- A commit that succeeds. -/
theorem commitStaged_ok {w' : W} (huser : c.stagedUser.toBytes ≠ []) (hadmin : c.stagedAdmin.toBytes ≠ [])
    (hcommit : commit c.stagedUser.toBytes c.stagedAdmin.toBytes c.world = (.ok ⟨⟩, w')) :
    (c.commitStaged commit).commitOk = true ∧ (c.commitStaged commit).world = w' := by
  rw [commitStaged, if_neg fun h ↦ h.elim huser hadmin, hcommit]
  exact ⟨rfl, rfl⟩

/-! ### The three lines -/

/-- The packets that provision a card. -/
def provisioning (user admin : String) : List UsbEvent :=
  [commandPacket ("SET_USER_PIN:" ++ user), commandPacket ("SET_ADMIN_PIN:" ++ admin),
    commandPacket "COMMIT"]

/-- A PIN behind a keyword is a line. -/
theorem Typed.line {pin : String} (h : Typed pin) (keyword : String) (hkeyword : 0x0A ∉ utf8 keyword)
    (hlen : (utf8 keyword).length < 32) : 0x0A ∉ utf8 (keyword ++ pin) ∧
      (utf8 (keyword ++ pin)).getLast? ≠ some 0x0D ∧ (utf8 (keyword ++ pin)).length < 64 := by
  have hpin : (utf8 pin).length ≤ 32 := h.length_le
  rw [utf8_append]
  refine ⟨fun hmem ↦ (List.mem_append.mp hmem).elim hkeyword h.oneLine, ?_, ?_⟩
  · rw [List.getLast?_append_of_ne_nil _ h.ne_nil]
    exact h.last
  · rw [List.length_append]
    omega

/-- **Provisioning.** Every two PINs that can be typed are committed by the three lines. -/
theorem run_provisioning {user admin : String} (huser : Typed user) (hadmin : Typed admin) {w w' : W}
    (hcommit : commit (utf8 user) (utf8 admin) w = (.ok ⟨⟩, w')) :
    (run commit (.new w) (provisioning user admin)).commitOk = true ∧
      (run commit (.new w) (provisioning user admin)).world = w' := by
  obtain ⟨hlineU, hlastU, hfitU⟩ := huser.line "SET_USER_PIN:" (by decide) (by decide)
  obtain ⟨hlineA, hlastA, hfitA⟩ := hadmin.line "SET_ADMIN_PIN:" (by decide) (by decide)
  have hstaged : ∀ {pin : String}, Typed pin →
      (Vec.truncated (utf8 pin) : Vec provisioningPinMax).toBytes = utf8 pin :=
    fun h ↦ Vec.toBytes_truncated h.length_le
  rw [run, provisioning, List.foldl_cons, List.foldl_cons, List.foldl_cons, List.foldl_nil,
    step_command hlineU hlastU hfitU rfl, processCommand_setUserPin, setStagedPin_typed huser,
    if_pos rfl, step_command hlineA hlastA hfitA rfl, processCommand_setAdminPin,
    setStagedPin_typed hadmin, if_neg Bool.false_ne_true,
    step_command (by decide) (by decide) (by decide) rfl, processCommand,
    if_neg (by decide), if_pos rfl]
  refine commitStaged_ok ?_ ?_ ?_
  · exact (hstaged huser).trans_ne huser.ne_nil
  · exact (hstaged hadmin).trans_ne hadmin.ne_nil
  · dsimp only [queueResponse, new]
    rw [hstaged huser, hstaged hadmin]
    exact hcommit

end Lines

end ProvisioningClass

end Galdralag.Provisioning
