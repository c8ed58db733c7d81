import Galdralag.OpenPgp.CommandRuns

/-!
# Responses in parts

A response that exceeds what the reader accepts goes out in parts: the first with the answer to the
command, the others with the answers to GET RESPONSE. Every part but the last is announced with
`61xx`, where `xx` counts the bytes behind it as far as one byte can.

The reader chooses how much it accepts anew for every part, so the parts are described by one
invariant of the exchange, `Partway`: what was received so far and what waits in the session are
together the response. A part is never empty, which is why the exchange ends.
-/

set_option linter.all false

namespace Galdralag.OpenPgp

variable {β : Type} {bk : OpenPgpBackend β} {cmd : CommandApdu} {s t : Session β} {data : Vec 512}

/-! ## One part -/

/-- The status of a part behind which bytes are left. -/
def StatusWord.more (left : ℕ) : StatusWord := .moreDataAvailable (UInt8.ofNat (min left 255))

theorem StatusWord.toNat_more (left : ℕ) : (StatusWord.more left).sw2.toNat = min left 255 := by
  change (UInt8.ofNat (min left 255)).toNat = min left 255
  rw [UInt8.toNat_ofNat', Nat.mod_eq_of_lt (by omega)]

/-- A reader accepts at least one byte. -/
theorem CommandApdu.leLimit_pos (cmd : CommandApdu) : 0 < cmd.leLimit := by
  rw [leLimit]
  split
  · rename_i l _
    split_ifs with hzero
    · decide
    · have hne : l.toNat ≠ 0 := fun h ↦ hzero (UInt16.toNat_inj.mp h)
      omega
  · decide

/-- What fits goes out at once. -/
theorem chunkResponse_short (h : data.length ≤ cmd.leLimit) :
    chunkResponse cmd data s = (.ok (.ok data), s) := by
  rw [chunkResponse]
  dsimp only
  rw [if_pos h]
  rfl

/-- Of a response that does not fit the first part goes out, and the rest waits. -/
theorem chunkResponse_long (h : cmd.leLimit < data.length) : ∃ (chunk : Vec 512) (t : Session β),
    chunkResponse cmd data s = (.ok (.withStatus chunk (.more (data.length - cmd.leLimit))), t) ∧
      chunk.toBytes = data.toBytes.take cmd.leLimit ∧
      t.card.pending = data.toBytes.drop cmd.leLimit ∧ t.backend = s.backend := by
  have hbuffer : (Vec.truncated data.toBytes : Vec 2048).toBytes = data.toBytes :=
    Vec.toBytes_truncated (Nat.le_trans data.length_le (by decide))
  have hlength : (Vec.truncated data.toBytes : Vec 2048).length = data.length :=
    congrArg List.length hbuffer
  have hmin : min data.length cmd.leLimit = cmd.leLimit := Nat.min_eq_right (Nat.le_of_lt h)
  have hn : (if data.length - cmd.leLimit > 255 then 0xFF
      else UInt8.ofNat (data.length - cmd.leLimit))
      = UInt8.ofNat (min (data.length - cmd.leLimit) 255) := by
    split_ifs with hmany
    · rw [Nat.min_eq_right (Nat.le_of_lt hmany)]
      rfl
    · rw [Nat.min_eq_left (Nat.le_of_not_lt hmany)]
  refine ⟨.truncated (data.toBytes.take cmd.leLimit), { s with
    card := { s.card with
      responseBuffer := .truncated data.toBytes, responseOffset := cmd.leLimit }
    events := s.events ++ [.kept (Vec.truncated data.toBytes : Vec 2048).toBytes] }, ?_, ?_, ?_, rfl⟩
  · rw [chunkResponse]
    dsimp only
    rw [if_neg (Nat.not_le_of_lt h), keep, hlength, hmin, Fallible.modify_bind, hn, hbuffer]
    rfl
  · refine Vec.toBytes_truncated (Nat.le_trans ?_ cmd.leLimit_le)
    rw [List.length_take]
    exact Nat.min_le_left _ _
  · rw [CardState.pending, hbuffer]

/-- The backend has no part in it. -/
theorem chunkResponse_backend (cmd : CommandApdu) (data : Vec 512) (s : Session β) :
    (chunkResponse cmd data s).2.backend = s.backend := by
  rcases Nat.lt_or_ge cmd.leLimit data.length with h | h
  · obtain ⟨chunk, t, hrun, -, -, hbackend⟩ := chunkResponse_long (s := s) h
    rw [hrun]
    exact hbackend
  · rw [chunkResponse_short h]

/-- GET RESPONSE with nothing to fetch. -/
theorem handleGetResponse_none (h : s.card.pending = []) :
    handleGetResponse cmd s = (.error (.error .wrongParametersP1P2), s) := by
  have hlen : s.card.responseBuffer.length - s.card.responseOffset = 0 := by
    have hdrop := congrArg List.length h
    rwa [CardState.pending, List.length_drop] at hdrop
  rw [handleGetResponse, Fallible.gets_bind, demand_bind_eq, if_neg (not_not_intro hlen)]

section Fetching

variable (h : s.card.pending ≠ [])
include h

/-- What GET RESPONSE does up to the decision whether something is left. -/
theorem handleGetResponse_fetch (cmd : CommandApdu) : ∃ (chunk : Vec 512) (t : Session β),
    chunk.toBytes = s.card.pending.take cmd.leLimit ∧ t.backend = s.backend ∧
      t.card.pending = s.card.pending.drop (min s.card.pending.length cmd.leLimit) ∧
      handleGetResponse cmd s = (if s.card.pending.length - min s.card.pending.length cmd.leLimit > 0
        then pure (.withStatus chunk
          (.more (s.card.pending.length - min s.card.pending.length cmd.leLimit)))
        else do
          setCard fun st ↦ { st with responseBuffer := .empty, responseOffset := 0 }
          pure (.ok chunk) : Handler β ResponseApdu) t := by
  have hlen : s.card.responseBuffer.length - s.card.responseOffset = s.card.pending.length :=
    List.length_drop.symm
  have hne : s.card.pending.length ≠ 0 := fun hzero ↦ h (List.eq_nil_of_length_eq_zero hzero)
  have hshort : (s.card.pending.take (min s.card.pending.length cmd.leLimit)).length ≤ 512 := by
    have hlim := cmd.leLimit_le
    rw [List.length_take]
    omega
  have htake : s.card.pending.take (min s.card.pending.length cmd.leLimit)
      = s.card.pending.take cmd.leLimit := by
    rw [Nat.min_comm]
    exact List.take_eq_take_min.symm
  refine ⟨.truncated (s.card.pending.take (min s.card.pending.length cmd.leLimit)), { s with
    card := { s.card with
      responseOffset := s.card.responseOffset + min s.card.pending.length cmd.leLimit }
    events := s.events
      ++ [.fetched (s.card.pending.take (min s.card.pending.length cmd.leLimit))] }, ?_, rfl, ?_, ?_⟩
  · rw [Vec.toBytes_truncated hshort, htake]
  · rw [CardState.pending, CardState.pending, List.drop_drop]
  · rw [handleGetResponse, Fallible.gets_bind]
    dsimp only
    rw [hlen, Fallible.bind_of_ok (demand_run hne _), Vec.ofBytes?_of_le hshort]
    have hchunk : (orRefuse (some (Vec.truncated (s.card.pending.take
        (min s.card.pending.length cmd.leLimit)))) .executionError : Handler β (Vec 512)) s
        = (.ok (.truncated (s.card.pending.take (min s.card.pending.length cmd.leLimit))), s) := rfl
    rw [Fallible.bind_of_ok hchunk, Vec.toBytes_truncated hshort, fetch, Fallible.modify_bind]
    rfl

/-- The last part. -/
theorem handleGetResponse_last (hfits : s.card.pending.length ≤ cmd.leLimit) :
    ∃ (chunk : Vec 512) (t : Session β), handleGetResponse cmd s = (.ok (.ok chunk), t) ∧
      chunk.toBytes = s.card.pending ∧ t.card.pending = [] ∧ t.backend = s.backend := by
  obtain ⟨chunk, t, hchunk, hbackend, -, hrun⟩ := handleGetResponse_fetch h cmd
  have hnone : ¬ s.card.pending.length - min s.card.pending.length cmd.leLimit > 0 := by omega
  rw [if_neg hnone] at hrun
  exact ⟨chunk, { t with card := { t.card with responseBuffer := .empty, responseOffset := 0 } }, hrun,
    hchunk.trans (List.take_of_length_le hfits), rfl, hbackend⟩

/-- A part behind which something is left. -/
theorem handleGetResponse_more (hlong : cmd.leLimit < s.card.pending.length) :
    ∃ (chunk : Vec 512) (t : Session β), handleGetResponse cmd s
        = (.ok (.withStatus chunk (.more (s.card.pending.length - cmd.leLimit))), t) ∧
      chunk.toBytes = s.card.pending.take cmd.leLimit ∧
      t.card.pending = s.card.pending.drop cmd.leLimit ∧ t.backend = s.backend := by
  obtain ⟨chunk, t, hchunk, hbackend, hpending, hrun⟩ := handleGetResponse_fetch h cmd
  have hmin : min s.card.pending.length cmd.leLimit = cmd.leLimit :=
    Nat.min_eq_right (Nat.le_of_lt hlong)
  rw [hmin] at hrun hpending
  rw [if_pos (by omega)] at hrun
  exact ⟨chunk, t, hrun, hchunk, hpending, hbackend⟩

end Fetching

/-! ## The exchange -/

/-- The session before the `n`-th of a sequence of commands. -/
def Session.before (bk : OpenPgpBackend β) (s : Session β) (cmds : ℕ → CommandApdu) : ℕ → Session β
  | 0 => s
  | n + 1 => (handleApdu bk (cmds n) (s.before bk cmds n)).2

/-- The answer to the `n`-th of a sequence of commands. -/
def Session.answer (bk : OpenPgpBackend β) (s : Session β) (cmds : ℕ → CommandApdu) (n : ℕ) :
    ResponseApdu := (handleApdu bk (cmds n) (s.before bk cmds n)).1

/-- The data of the first `n` answers. -/
def received (answer : ℕ → ResponseApdu) (n : ℕ) : Bytes :=
  (List.range n).flatMap fun i ↦ (answer i).data.toBytes

theorem received_succ (answer : ℕ → ResponseApdu) (n : ℕ) :
    received answer (n + 1) = received answer n ++ (answer n).data.toBytes := by
  rw [received, List.range_succ, List.flatMap_append, List.flatMap_singleton]
  rfl

/-- An answer behind which a part of `response` is left, as it says. -/
structure Announces (response : Bytes) (answer : ℕ → ResponseApdu) (i : ℕ) : Prop where
  left : (received answer (i + 1)).length < response.length
  sw1 : (answer i).sw1 = 0x61
  sw2 : (answer i).sw2.toNat = min (response.length - (received answer (i + 1)).length) 255

/-- An answer with the last part of `response`. -/
structure Finishes (response : Bytes) (answer : ℕ → ResponseApdu) (n : ℕ) : Prop where
  complete : received answer (n + 1) = response
  sw1 : (answer n).sw1 = 0x90
  sw2 : (answer n).sw2 = 0x00

/-- The answers up to the `n`-th are the parts of `response`, and the `n`-th is the last. -/
def Reassembles (response : Bytes) (answer : ℕ → ResponseApdu) (n : ℕ) : Prop :=
  Finishes response answer n ∧ ∀ i < n, Announces response answer i

/-- Before the `n`-th command the response is what was received and what waits, and something waits.
-/
structure Partway (bk : OpenPgpBackend β) (s : Session β) (cmds : ℕ → CommandApdu) (response : Bytes)
    (n : ℕ) : Prop where
  running : bk.isTerminationState (s.before bk cmds n).backend = false
  split : received (s.answer bk cmds) n ++ (s.before bk cmds n).card.pending = response
  left : (s.before bk cmds n).card.pending ≠ []

variable {cmds : ℕ → CommandApdu} {response : Bytes} {n : ℕ}

/-- The answer to a command and the session behind it. -/
theorem answer_of_handle {r : ResponseApdu} (h : handle bk (cmds n) (s.before bk cmds n) = (.ok r, t)) :
    s.answer bk cmds n = r ∧ s.before bk cmds (n + 1) = t := by
  rw [Session.answer, Session.before, handleApdu_of_ok h]
  exact ⟨rfl, rfl⟩

/-- A part that goes out leaves the exchange partway, with less to send. -/
theorem partway_more {chunk : Vec 512} {whole : Bytes}
    (hrunning : bk.isTerminationState t.backend = false)
    (hsplit : received (s.answer bk cmds) n ++ whole = response)
    (hlong : (cmds n).leLimit < whole.length)
    (hrun : handle bk (cmds n) (s.before bk cmds n)
      = (.ok (.withStatus chunk (.more (whole.length - (cmds n).leLimit))), t))
    (hchunk : chunk.toBytes = whole.take (cmds n).leLimit)
    (hpending : t.card.pending = whole.drop (cmds n).leLimit) :
    Announces response (s.answer bk cmds) n ∧ Partway bk s cmds response (n + 1) ∧
      (s.before bk cmds (n + 1)).card.pending.length < whole.length := by
  obtain ⟨hanswer, hbefore⟩ := answer_of_handle hrun
  have hdata : (s.answer bk cmds n).data.toBytes = whole.take (cmds n).leLimit := by
    rw [hanswer]
    exact hchunk
  have hreceived : received (s.answer bk cmds) (n + 1) ++ whole.drop (cmds n).leLimit = response := by
    rw [received_succ, hdata, List.append_assoc, List.take_append_drop, hsplit]
  have hrest : (whole.drop (cmds n).leLimit).length = whole.length - (cmds n).leLimit :=
    List.length_drop
  have hlen : (received (s.answer bk cmds) (n + 1)).length + (whole.length - (cmds n).leLimit)
      = response.length := by
    rw [← hreceived, List.length_append, hrest]
  have hpos := (cmds n).leLimit_pos
  refine ⟨⟨by omega, ?_, ?_⟩, ⟨?_, ?_, ?_⟩, ?_⟩
  · rw [hanswer]
    rfl
  · have hleft : response.length - (received (s.answer bk cmds) (n + 1)).length
        = whole.length - (cmds n).leLimit := by omega
    rw [hanswer, hleft]
    exact StatusWord.toNat_more _
  · rw [hbefore]
    exact hrunning
  · rw [hbefore, hpending]
    exact hreceived
  · rw [hbefore, hpending]
    exact List.ne_nil_of_length_pos (by omega)
  · rw [hbefore, hpending, hrest]
    omega

/-- **Step.** The answer to GET RESPONSE is the last part, or it announces what it leaves, which is
less than there was. -/
theorem Partway.step (h : Partway bk s cmds response n) (hget : (cmds n).ins = 0xC0) :
    Finishes response (s.answer bk cmds) n ∨ Announces response (s.answer bk cmds) n ∧
      Partway bk s cmds response (n + 1) ∧
      (s.before bk cmds (n + 1)).card.pending.length < (s.before bk cmds n).card.pending.length := by
  have hhandle : handle bk (cmds n) (s.before bk cmds n)
      = handleGetResponse (cmds n) (s.before bk cmds n) :=
    handle_run h.running (i := .getResponse) (by rw [hget]; rfl)
  rcases Nat.lt_or_ge (cmds n).leLimit (s.before bk cmds n).card.pending.length with hlong | hfits
  · obtain ⟨chunk, t, hrun, hchunk, hpending, hbackend⟩ := handleGetResponse_more h.left hlong
    exact .inr (partway_more (by rw [hbackend]; exact h.running) h.split hlong (hhandle.trans hrun)
      hchunk hpending)
  · obtain ⟨chunk, t, hrun, hchunk, -, -⟩ := handleGetResponse_last h.left hfits
    obtain ⟨hanswer, -⟩ := answer_of_handle (hhandle.trans hrun)
    refine .inl ⟨?_, by rw [hanswer]; rfl, by rw [hanswer]; rfl⟩
    rw [received_succ, hanswer]
    change received (s.answer bk cmds) n ++ chunk.toBytes = response
    rw [hchunk, h.split]

/-- **Run.** From partway on the exchange ends with the response complete; by induction on the
number of bytes that wait. -/
theorem Partway.finishes (hgets : ∀ n, (cmds (n + 1)).ins = 0xC0) (k : ℕ) : ∀ {n : ℕ},
    Partway bk s cmds response (n + 1) → (s.before bk cmds (n + 1)).card.pending.length ≤ k →
    ∃ m, n < m ∧ m ≤ n + k ∧ Finishes response (s.answer bk cmds) m ∧
      ∀ i, n < i → i < m → Announces response (s.answer bk cmds) i := by
  induction k with
  | zero =>
    intro n h hle
    exact absurd (List.eq_nil_of_length_eq_zero (Nat.le_zero.mp hle)) h.left
  | succ k ih =>
    intro n h hle
    rcases h.step (hgets n) with hlast | ⟨hmore, hnext, hless⟩
    · exact ⟨n + 1, Nat.lt_succ_self n, by omega, hlast, fun i hlow hhigh ↦ absurd hhigh (by omega)⟩
    · obtain ⟨m, hlow, hhigh, hlast, hbetween⟩ := ih hnext (by omega)
      refine ⟨m, by omega, by omega, hlast, fun i hi hm ↦ ?_⟩
      rcases Nat.eq_or_lt_of_le (Nat.succ_le_of_lt hi) with rfl | hlater
      · exact hmore
      · exact hbetween i hlater hm

/-- A command that ends with `data`, over a backend that stays in service. -/
theorem reassembles_of_chunked (hgets : ∀ n, (cmds (n + 1)).ins = 0xC0)
    (hrun : handle bk (cmds 0) s = chunkResponse (cmds 0) data t)
    (hrunning : bk.isTerminationState t.backend = false) :
    ∃ n ≤ data.length, Reassembles data.toBytes (s.answer bk cmds) n := by
  rcases Nat.lt_or_ge (cmds 0).leLimit data.length with hlong | hfits
  · obtain ⟨chunk, t', hchunked, hchunk, hpending, hbackend⟩ := chunkResponse_long (s := t) hlong
    obtain ⟨hmore, hpartway, hless⟩ : Announces data.toBytes (s.answer bk cmds) 0 ∧
        Partway bk s cmds data.toBytes 1 ∧
        (s.before bk cmds 1).card.pending.length < data.toBytes.length :=
      partway_more (by rw [hbackend]; exact hrunning) rfl hlong (hrun.trans hchunked) hchunk hpending
    obtain ⟨m, -, hle, hlast, hbetween⟩ := hpartway.finishes hgets data.length (Nat.le_of_lt hless)
    rw [Nat.zero_add] at hle
    refine ⟨m, hle, hlast, fun i hi ↦ ?_⟩
    rcases Nat.eq_zero_or_pos i with rfl | hpos
    · exact hmore
    · exact hbetween i hpos hi
  · rw [chunkResponse_short hfits] at hrun
    obtain ⟨hanswer, -⟩ := answer_of_handle (n := 0) hrun
    refine ⟨0, Nat.zero_le _, ⟨?_, by rw [hanswer]; rfl, by rw [hanswer]; rfl⟩,
      fun i hi ↦ absurd hi (Nat.not_lt_zero i)⟩
    rw [received_succ, hanswer]
    rfl

/-! ## What a command answers with

The expected length of a command decides how its response is cut, and nothing else: two commands
that differ in it alone run alike up to the last step, which is where both cut the same data. GET
CHALLENGE is the exception, since it takes the expected length for the number of bytes it is asked
for.
-/

/-- The bytes that wait have not changed. -/
def SameWaiting (s t : Session β) : Prop := t.card.pending = s.card.pending

theorem SameWaiting.refl (s : Session β) : SameWaiting s s := rfl

theorem SameWaiting.trans {s t u : Session β} (h : SameWaiting s t) (h' : SameWaiting t u) :
    SameWaiting s u := Eq.trans h' h

/-- Two handlers that cut the same data for two commands, or run alike; up to there the bytes that
wait have not changed. -/
def Alike (cmd cmd' : CommandApdu) (m m' : Handler β ResponseApdu) : Prop := ∀ s,
  (∃ data t, SameWaiting s t ∧ m s = chunkResponse cmd data t ∧ m' s = chunkResponse cmd' data t) ∨
    m s = m' s ∧ SameWaiting s (m s).2

section Alike

variable {cmd' : CommandApdu} {m m' : Handler β ResponseApdu} {α : Type}

theorem Alike.same (h : Fallible.Moves SameWaiting m) : Alike cmd cmd' m m :=
  fun s ↦ .inr ⟨rfl, h s⟩

theorem alike_chunkResponse (data : Vec 512) :
    Alike cmd cmd' (chunkResponse cmd data : Handler β ResponseApdu) (chunkResponse cmd' data) :=
  fun s ↦ .inl ⟨data, s, .refl s, rfl, rfl⟩

/-- A step before the data is known. -/
theorem Alike.bind {n : Handler β α} {f f' : α → Handler β ResponseApdu}
    (hn : Fallible.Moves SameWaiting n) (hf : ∀ a, Alike cmd cmd' (f a) (f' a)) :
    Alike cmd cmd' (n >>= f) (n >>= f') := by
  intro s
  have hs : SameWaiting s (n s).2 := hn s
  rcases hrun : n s with ⟨e | a, t⟩ <;> rw [hrun] at hs
  · rw [Fallible.bind_of_error hrun, Fallible.bind_of_error hrun]
    exact .inr ⟨rfl, hs⟩
  · rw [Fallible.bind_of_ok hrun, Fallible.bind_of_ok hrun]
    rcases hf a t with ⟨data, u, hu, hm, hm'⟩ | ⟨heq, hu⟩
    · exact .inl ⟨data, u, hs.trans hu, hm, hm'⟩
    · exact .inr ⟨heq, hs.trans hu⟩

/-! ### Steps that leave alone what waits -/

theorem waiting_refuse (sw : StatusWord) : Fallible.Moves SameWaiting (refuse sw : Handler β α) :=
  .fail .refl _

theorem waiting_demand (p : Prop) [Decidable p] (sw : StatusWord) :
    Fallible.Moves SameWaiting (demand p sw : Handler β PUnit) := .require .refl _ _

theorem waiting_demandFlag (flag : CardState → Bool) (sw : StatusWord) :
    Fallible.Moves SameWaiting (demandFlag flag sw : Handler β PUnit) :=
  Fallible.Moves.bind (.gets .refl _) .trans fun _ ↦ waiting_demand _ _

theorem waiting_orRefuse (o : Option α) (sw : StatusWord) :
    Fallible.Moves SameWaiting (orRefuse o sw : Handler β α) := by
  cases o with
  | none => exact waiting_refuse sw
  | some a => exact .pure .refl a

theorem waiting_logEvent (code : UInt32) : Fallible.Moves SameWaiting (logEvent bk code) :=
  .modify fun _ ↦ rfl

theorem waiting_setCard {f : CardState → CardState} (h : ∀ st, (f st).pending = st.pending) :
    Fallible.Moves SameWaiting (setCard f : Handler β PUnit) := .modify fun s ↦ h s.card

theorem waiting_call (c : BackendCall) : Fallible.Moves SameWaiting (call bk c) := by
  intro s
  rcases call_cases bk c s with ⟨a, b, h⟩ | ⟨e, b, h⟩
  · rw [h]
    exact .refl s
  · rw [h]
    exact .refl s

/-- The end of a command that answers with a status word. -/
theorem waiting_done (code : UInt32) : Fallible.Moves SameWaiting (do
    logEvent bk code
    pure ResponseApdu.okEmpty) := (waiting_logEvent _).bind .trans fun _ ↦ .pure .refl _

/-! ### The handlers -/

theorem waiting_handleSelect : Fallible.Moves SameWaiting (handleSelect bk cmd) :=
  (waiting_demand _ _).bind .trans fun _ ↦ (waiting_demand _ _).bind .trans fun _ ↦ waiting_done _

theorem waiting_handleGetChallenge : Fallible.Moves SameWaiting (handleGetChallenge bk cmd) := by
  refine (waiting_demand _ _).bind .trans fun _ ↦ ?_
  refine (waiting_orRefuse _ _).bind .trans fun l ↦ ?_
  refine (waiting_demand _ _).bind .trans fun _ ↦ ?_
  exact ((waiting_call _).orElse _).bind .trans fun bytes ↦
    (waiting_orRefuse _ _).bind .trans fun _ ↦ .pure .refl _

theorem waiting_handleManageSecurityEnvironment :
    Fallible.Moves SameWaiting (handleManageSecurityEnvironment cmd : Handler β ResponseApdu) := by
  refine (waiting_demand _ _).bind .trans fun _ ↦ ?_
  refine (waiting_orRefuse _ _).bind .trans fun k ↦ ?_
  have hset : ∀ f : CardState → CardState, (∀ st, (f st).pending = st.pending) →
      Fallible.Moves SameWaiting (do
        setCard f
        pure ResponseApdu.okEmpty : Handler β ResponseApdu) := fun f hf ↦
    (waiting_setCard hf).bind .trans fun _ ↦ .pure .refl _
  split_ifs
  · exact hset (fun st ↦ { st with mseSigKeyRef := some k }) fun _ ↦ rfl
  · exact hset (fun st ↦ { st with mseDecKeyRef := some k }) fun _ ↦ rfl
  · exact hset (fun st ↦ { st with mseAutKeyRef := some k }) fun _ ↦ rfl
  · exact (waiting_refuse _).bind .trans fun _ ↦ .pure .refl _

theorem waiting_handleVerify : Fallible.Moves SameWaiting (handleVerify bk cmd) := by
  have hset : ∀ (c : BackendCall) (f : CardState → CardState), (∀ st, (f st).pending = st.pending) →
      Fallible.Moves SameWaiting (call bk c >>= fun _ ↦ do
        setCard f
        logEvent bk (0x200000 ||| cmd.p2.toUInt32)
        pure ResponseApdu.okEmpty) := fun c f hf ↦
    (waiting_call c).bind .trans fun _ ↦ (waiting_setCard hf).bind .trans fun _ ↦ waiting_done _
  rw [handleVerify]
  dsimp only
  split_ifs
  · exact hset (.verifyPw1Sign _) (fun st ↦ { st with pw1VerifiedSign := true }) fun _ ↦ rfl
  · exact hset (.verifyPw1Other _) (fun st ↦ { st with pw1VerifiedOther := true }) fun _ ↦ rfl
  · exact hset (.verifyPw3 _) (fun st ↦ { st with pw3Verified := true }) fun _ ↦ rfl
  · exact (waiting_refuse _).bind .trans fun _ ↦ waiting_done _

theorem waiting_handleChangeReference :
    Fallible.Moves SameWaiting (handleChangeReference bk cmd) := by
  refine (waiting_demand _ _).bind .trans fun _ ↦ ?_
  refine (waiting_demand _ _).bind .trans fun _ ↦ ?_
  refine (Fallible.Moves.gets .refl _).bind .trans fun pw ↦ ?_
  refine (waiting_demand _ _).bind .trans fun _ ↦ ?_
  refine (waiting_demand _ _).bind .trans fun _ ↦ ?_
  refine (waiting_demand _ _).bind .trans fun _ ↦ ?_
  exact (waiting_call _).bind .trans fun _ ↦ waiting_done _

theorem waiting_handleResetRetryCounter :
    Fallible.Moves SameWaiting (handleResetRetryCounter bk cmd) := by
  refine (waiting_demand _ _).bind .trans fun _ ↦ ?_
  refine (waiting_demand _ _).bind .trans fun _ ↦ ?_
  refine (waiting_demandFlag _ _).bind .trans fun _ ↦ ?_
  refine (Fallible.Moves.gets .refl _).bind .trans fun pw ↦ ?_
  refine (waiting_demand _ _).bind .trans fun _ ↦ ?_
  refine (waiting_demand _ _).bind .trans fun _ ↦ ?_
  exact (waiting_call _).bind .trans fun _ ↦ (waiting_call _).bind .trans fun _ ↦ waiting_done _

theorem waiting_handlePutData : Fallible.Moves SameWaiting (handlePutData bk cmd) :=
  (waiting_demandFlag _ _).bind .trans fun _ ↦ (waiting_call _).bind .trans fun _ ↦ waiting_done _

/-- The same command with another expected length. -/
def CommandApdu.withLe (cmd : CommandApdu) (le : Option UInt16) : CommandApdu := { cmd with le := le }

section WithLe

variable (le : Option UInt16)

theorem alike_handleGetData :
    Alike cmd (cmd.withLe le) (handleGetData bk cmd) (handleGetData bk (cmd.withLe le)) :=
  Alike.bind (.reading .refl _) fun data ↦ alike_chunkResponse data

theorem alike_handleInternalAuth :
    Alike cmd (cmd.withLe le) (handleInternalAuth bk cmd) (handleInternalAuth bk (cmd.withLe le)) :=
  Alike.bind (waiting_demandFlag _ _) fun _ ↦ Alike.bind (waiting_call _) fun out ↦
    Alike.bind (waiting_logEvent _) fun _ ↦ alike_chunkResponse out

theorem alike_handleGenerate :
    Alike cmd (cmd.withLe le) (handleGenerate bk cmd) (handleGenerate bk (cmd.withLe le)) := by
  refine Alike.bind (waiting_orRefuse _ _) fun slot ↦ ?_
  refine Alike.bind (waiting_demandFlag _ _) fun _ ↦ ?_
  refine Alike.bind (waiting_call (.generateOrReadKey cmd.p1 slot)) fun out ↦ ?_
  have hp1 : (cmd.withLe le).p1 = cmd.p1 := rfl
  rw [hp1]
  split_ifs
  · exact Alike.bind (waiting_logEvent _) fun _ ↦ alike_chunkResponse out
  · exact alike_chunkResponse out

theorem waiting_signHash (hash : Bytes) (attrs : AlgorithmAttributes) :
    Fallible.Moves SameWaiting (signHash bk hash attrs) := by
  cases attrs with
  | rsa => exact waiting_refuse _
  | ecdh => exact waiting_refuse _
  | ecdsa => exact waiting_call (.psoSignHash hash)
  | edDsa curveOid =>
    rw [signHash]
    split_ifs
    · exact (waiting_call (.ed25519Sign .openPgpSig hash)).bind .trans fun _ ↦ waiting_orRefuse _ _
    · exact waiting_refuse _

theorem alike_handleComputeSignature : Alike cmd (cmd.withLe le) (handleComputeSignature bk cmd)
    (handleComputeSignature bk (cmd.withLe le)) := by
  refine Alike.bind (waiting_demandFlag _ _) fun _ ↦ ?_
  refine Alike.bind (.gets .refl _) fun attrs ↦ ?_
  refine Alike.bind (waiting_signHash cmd.data.toBytes attrs) fun sig ↦ ?_
  refine Alike.bind (waiting_call .incrementSignatureCounter) fun _ ↦ ?_
  refine Alike.bind (waiting_setCard fun _ ↦ rfl) fun _ ↦ ?_
  exact Alike.bind (waiting_logEvent _) fun _ ↦ alike_chunkResponse sig

theorem alike_handleDecipher :
    Alike cmd (cmd.withLe le) (handleDecipher bk cmd) (handleDecipher bk (cmd.withLe le)) := by
  refine Alike.bind (waiting_demandFlag _ _) fun _ ↦ ?_
  have hshared : ∀ o : Option (Vec 512), Alike cmd (cmd.withLe le)
      (orRefuse o .executionError >>= fun out ↦ (chunkResponse cmd out : Handler β _))
      (orRefuse o .executionError >>= fun out ↦ chunkResponse (cmd.withLe le) out) :=
    fun o ↦ Alike.bind (waiting_orRefuse _ _) fun out ↦ alike_chunkResponse out
  have hdata : (cmd.withLe le).data = cmd.data := rfl
  rw [hdata]
  dsimp only
  rcases parseEcdhPeerPublicKey cmd.data.toBytes with _ | peer
  · exact Alike.bind (waiting_logEvent _) fun _ ↦
      Alike.bind (waiting_call (.psoDecipher _)) fun out ↦ alike_chunkResponse out
  · refine Alike.bind (waiting_logEvent _) fun _ ↦ Alike.bind (.gets .refl _) fun attrs ↦ ?_
    cases attrs with
    | rsa => exact .same (waiting_refuse _)
    | ecdsa => exact .same (waiting_refuse _)
    | edDsa => exact .same (waiting_refuse _)
    | ecdh curveOid =>
      dsimp only
      split_ifs
      · exact Alike.bind (waiting_call (.x25519Ecdh .openPgpDec peer)) fun _ ↦ hshared _
      · exact Alike.bind (waiting_call (.ecdhDec .openPgpDec peer)) fun _ ↦ hshared _

theorem alike_handlePso :
    Alike cmd (cmd.withLe le) (handlePso bk cmd) (handlePso bk (cmd.withLe le)) := by
  have hp : (cmd.withLe le).p1 = cmd.p1 ∧ (cmd.withLe le).p2 = cmd.p2 := ⟨rfl, rfl⟩
  rw [handlePso, handlePso, hp.1, hp.2]
  split_ifs
  · exact alike_handleComputeSignature le
  · exact alike_handleDecipher le
  · exact .same (waiting_refuse _)

/-- The handlers of a command with two expected lengths. -/
theorem alike_handler {i : Instruction} (hget : i ≠ .getResponse)
    (hle : i = .getChallenge → cmd.withLe le = cmd) :
    Alike cmd (cmd.withLe le) (i.handler bk cmd) (i.handler bk (cmd.withLe le)) := by
  cases i with
  | getResponse => exact absurd rfl hget
  | select => exact .same waiting_handleSelect
  | verify => exact .same waiting_handleVerify
  | changeReference => exact .same waiting_handleChangeReference
  | pso => exact alike_handlePso le
  | internalAuth => exact alike_handleInternalAuth le
  | getData => exact alike_handleGetData le
  | putData => exact .same waiting_handlePutData
  | generateKey => exact alike_handleGenerate le
  | resetRetryCounter => exact .same waiting_handleResetRetryCounter
  | getChallenge =>
    rw [hle rfl]
    exact .same waiting_handleGetChallenge
  | manageSecurityEnvironment => exact .same waiting_handleManageSecurityEnvironment

/-- **A command with two expected lengths.** Both cut the same response, or they run alike. -/
theorem alike_handle (hget : cmd.ins ≠ 0xC0) (hle : cmd.ins = 0x84 → cmd.withLe le = cmd) :
    Alike cmd (cmd.withLe le) (handle bk cmd) (handle bk (cmd.withLe le)) := by
  have hins : (cmd.withLe le).ins = cmd.ins := rfl
  refine Alike.bind (.gets .refl _) fun terminated ↦ ?_
  rw [hins]
  split_ifs
  · exact .same (waiting_refuse _)
  · exact .same (waiting_refuse _)
  · cases hi : Instruction.ofByte cmd.ins with
    | none => exact .same (waiting_refuse _)
    | some i =>
      have hencoded := Instruction.encoded_of_ofByte hi
      refine alike_handler le ?_ ?_
      · rintro rfl
        exact hget hencoded
      · rintro rfl
        exact hle hencoded

end WithLe

end Alike

end Galdralag.OpenPgp
