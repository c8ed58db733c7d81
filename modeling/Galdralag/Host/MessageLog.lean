import Galdralag.Host.MessageRecipients

/-!
# The log of the messages that were read

The daemon hands a message out only with a row about it in the log. Over a run of decryptions, with
other entries and changes of contacts, groups and profiles between them, the rows about decryptions
are those of the messages that were handed out, one for each and in their order, and the chain of
the log holds.

## The invariant

One call on the daemon appends at most one row, so `Logged` is shown call by call: the chain is one
that was only appended to, and the rows about decryptions match the messages so far.
-/

set_option linter.all false

namespace Galdralag.Host

open Fallible

variable {Time Cert Key Seed : Type}

/-! ## Calls on the daemon -/

/-- A decryption, an entry about something else, or what other calls make of contacts, groups and
profiles. -/
inductive DaemonCall (Time : Type) where
  | decrypt (fault appendFault : Option SqlError) (now : Time) (request : DecryptBody)
  | log (entry : AuditEntry Time)
  | edit (db : Db ContactColumns) (profiles : UserProfiles)

/-- A message that was handed out: when, and for which contact. -/
structure HandedOut (Time : Type) where
  time : Time
  contact : Option String
  text : List Char
  profile : String

/-- A daemon and the messages that it handed out. -/
structure DaemonHistory (Time : Type) where
  daemon : Daemon
  handedOut : List (HandedOut Time)

namespace DaemonHistory

variable (env : MessageEnv Time Cert Key Seed)

def step (h : DaemonHistory Time) : DaemonCall Time → DaemonHistory Time
  | .decrypt fault appendFault now request =>
    let read := decryptMsg env fault appendFault now request h.daemon
    let contact := resolveContactIdentifier env.clock h.daemon.db request.recipient
    { daemon := read.2
      handedOut := h.handedOut ++ (read.1.toOption.map fun out ↦ {
        time := now
        contact := contact.toOption.map (·.id)
        text := out.1
        profile := out.2 }).toList }
  | .log entry => { h with
      daemon := { h.daemon with
        audit := auditAppend env.clock env.chainHash entry h.daemon.audit } }
  | .edit db profiles => { h with daemon := { h.daemon with db, profiles } }

/-- A run from an empty log. -/
def run (db : Db ContactColumns) (profiles : UserProfiles) (calls : List (DaemonCall Time)) :
    DaemonHistory Time :=
  calls.foldl (step env) ⟨⟨db, profiles, []⟩, []⟩

end DaemonHistory

/-! ## Rows about decryptions -/

/-- The times and the subjects of the rows about decryptions. -/
def decryptRows (log : AuditLog) : List (String × Option String) :=
  (log.filter fun row ↦ row.payload.action = AuditAction.decrypt.asStr).map fun row ↦
    (row.payload.timestamp, row.payload.subject)

section Rows

variable {clock : Rfc3339 Time} {hash : ChainHash} {entry : AuditEntry Time} {log : AuditLog}

theorem decryptRows_concat (log : AuditLog) (row : AuditRow) :
    decryptRows (log ++ [row]) = decryptRows log ++
      if row.payload.action = AuditAction.decrypt.asStr then
        [(row.payload.timestamp, row.payload.subject)] else [] := by
  rw [decryptRows, List.filter_append, List.map_append]
  split_ifs with h
  · simp [decryptRows, h]
  · simp [decryptRows, h]

theorem decryptRows_append (h : entry.action = .decrypt) :
    decryptRows (auditAppend clock hash entry log)
      = decryptRows log ++ [(clock.toRfc3339 entry.timestamp, entry.subject)] := by
  rw [auditAppend, decryptRows_concat]
  exact congrArg (decryptRows log ++ ·) (if_pos (congrArg AuditAction.asStr h))

theorem decryptRows_append_other (h : entry.action ≠ .decrypt) :
    decryptRows (auditAppend clock hash entry log) = decryptRows log := by
  rw [auditAppend, decryptRows_concat]
  refine Eq.trans ?_ (List.append_nil _)
  exact congrArg (decryptRows log ++ ·) (if_neg (h ∘ AuditAction.asStr_injective))

end Rows

/-! ## What a decryption does -/

section Decryption

variable {env : MessageEnv Time Cert Key Seed} {fault appendFault : Option SqlError} {now : Time}
  {request : DecryptBody} {d : Daemon}

/-- The entry of a message that opens is about the contact it opens for. -/
theorem openMsg_eq_ok {opened : Opened Time} (h : openMsg env fault now request d = .ok opened) :
    ∃ identity, resolveContactIdentifier env.clock d.db request.recipient = .ok identity ∧
      opened.entry.timestamp = now ∧ opened.entry.action = .decrypt ∧
      opened.entry.subject = some identity.id := by
  obtain ⟨ciphertext, -, h⟩ := except_bind_eq_ok.mp h
  obtain ⟨identity, hidentity, h⟩ := except_bind_eq_ok.mp h
  obtain ⟨cert, -, h⟩ := except_bind_eq_ok.mp h
  obtain ⟨inner, -, h⟩ := except_bind_eq_ok.mp h
  obtain ⟨key, -, h⟩ := except_bind_eq_ok.mp h
  obtain ⟨store, -, h⟩ := except_bind_eq_ok.mp h
  obtain ⟨⟨plain, pname⟩, -, h⟩ := except_bind_eq_ok.mp h
  obtain rfl := Except.ok.inj h
  exact ⟨identity, mapError_eq_ok_iff.mp hidentity, rfl, rfl, rfl⟩

/-- A decryption hands a message out and appends a row about it, or fails and changes nothing. -/
theorem decryptMsg_cases (env : MessageEnv Time Cert Key Seed) (fault appendFault : Option SqlError)
    (now : Time) (request : DecryptBody) (d : Daemon) :
    (∃ opened, openMsg env fault now request d = .ok opened ∧
      decryptMsg env fault appendFault now request d
        = (.ok (env.base64.encode opened.plain, opened.profile),
          { d with audit := auditAppend env.clock env.chainHash opened.entry d.audit })) ∨
      ∃ e, decryptMsg env fault appendFault now request d = (.error e, d) := by
  rcases hopen : openMsg env fault now request d with e | opened
  · exact .inr ⟨e, decryptMsg_of_fails hopen⟩
  · rcases appendFault with _ | e
    · exact .inl ⟨opened, rfl, decryptMsg_of_opens hopen⟩
    · refine .inr ⟨.galdra (.database e), ?_⟩
      rw [decryptMsg, bind_apply, reading_apply, hopen]
      rfl

end Decryption

/-! ## Runs -/

namespace DaemonHistory

variable {env : MessageEnv Time Cert Key Seed}

/-- The chain was only appended to, and the rows about decryptions are those of the messages. -/
structure Logged (env : MessageEnv Time Cert Key Seed) (h : DaemonHistory Time) : Prop where
  sound : ∃ rows, Sound env.clock env.chainHash h.daemon.audit rows
  rows : decryptRows h.daemon.audit
    = h.handedOut.map fun out ↦ (env.clock.toRfc3339 out.time, out.contact)

/-- **Step.** A call keeps the log in step with the messages. -/
theorem Logged.step (hclock : env.clock.Lawful) {h : DaemonHistory Time} (hl : h.Logged env)
    (c : DaemonCall Time) (hc : ∀ entry, c = .log entry → entry.action ≠ .decrypt) :
    (h.step env c).Logged env := by
  obtain ⟨rows, hsound⟩ := hl.sound
  cases c with
  | decrypt fault appendFault now request =>
    -- Only a message that is handed out touches the log.
    rcases decryptMsg_cases env fault appendFault now request h.daemon with
      ⟨opened, hopened, hread⟩ | ⟨e, hread⟩
    · obtain ⟨identity, hidentity, htime, haction, hsubject⟩ := openMsg_eq_ok hopened
      obtain ⟨rec, hsound⟩ := hsound.append (hclock opened.entry.timestamp)
      rw [DaemonHistory.step, hread, hidentity]
      refine ⟨⟨_, hsound⟩, ?_⟩
      rw [decryptRows_append haction, hl.rows, htime, hsubject, List.map_append]
      rfl
    · rw [DaemonHistory.step, hread]
      refine ⟨hl.sound, hl.rows.trans ?_⟩
      exact congrArg _ (List.append_nil h.handedOut).symm
  | log entry =>
    obtain ⟨rec, hsound⟩ := hsound.append (hclock entry.timestamp)
    exact ⟨⟨_, hsound⟩, (decryptRows_append_other (hc entry rfl)).trans hl.rows⟩
  | edit db profiles => exact ⟨hl.sound, hl.rows⟩

/-- **Run.** -/
theorem logged_run (hclock : env.clock.Lawful) (db : Db ContactColumns) (profiles : UserProfiles)
    {calls : List (DaemonCall Time)}
    (hcalls : ∀ entry, .log entry ∈ calls → entry.action ≠ .decrypt) :
    (run env db profiles calls).Logged env := by
  induction calls using List.reverseRecOn with
  | nil => exact ⟨⟨[], rfl, rfl, rfl⟩, rfl⟩
  | append_singleton calls c ih =>
    rw [run, List.foldl_concat]
    refine (ih fun entry he ↦ hcalls entry (List.mem_append_left _ he)).step hclock c ?_
    rintro entry rfl
    exact hcalls entry (List.mem_append_right _ (List.mem_singleton_self _))

end DaemonHistory

/-- The message for the group of one, as it is sent. -/
def watchText : List Char :=
  (encryptMsg .bench none ⟨0, .zero 32, ()⟩ "2026-01-01T09:00:00+00:00" toWatch
    watchDaemon).toOption.getD []

/-- The message is read twice, the second time for a contact that there is not. -/
def watchReads : List (DaemonCall String) :=
  [.decrypt none none "2026-01-01T10:00:00+00:00" ⟨"ada", watchText, none, none⟩,
    .decrypt none none "2026-01-01T11:00:00+00:00" ⟨"bob", watchText, none, none⟩]

end Galdralag.Host
