import Galdralag.OpenPgp.AccessControl
import Galdralag.OpenPgp.Reassembly

/-!
# What is left of an earlier response

A response that was not fetched to its end waits in the session. The next long response replaces it,
and a reset clears it; every other command leaves it where it is, whether the command fails or its
answer fits. GET RESPONSE then continues the earlier response, in the middle of another exchange.

So a reader is given nothing of an earlier response exactly when nothing waited before its command,
or the card had been terminated.
-/

set_option linter.all false

namespace Galdralag.OpenPgp

variable {β : Type} {bk : OpenPgpBackend β} {cmd get : CommandApdu} {s : Session β}

/-- After every command but GET RESPONSE that is not answered with `61xx`, GET RESPONSE returns no
bytes. -/
def LeavesNothing (bk : OpenPgpBackend β) (s : Session β) : Prop :=
  ∀ cmd get : CommandApdu, cmd.ins ≠ 0xC0 → get.ins = 0xC0 → (handleApdu bk cmd s).1.sw1 ≠ 0x61 →
    (handleApdu bk get (handleApdu bk cmd s).2).1.data.toBytes = []

/-! ## What waits behind a command -/

/-- A command that is not answered with `61xx` leaves alone what waits. -/
theorem waiting_of_complete (hcmd : cmd.ins ≠ 0xC0) (hsw : (handleApdu bk cmd s).1.sw1 ≠ 0x61) :
    SameWaiting s (handleApdu bk cmd s).2 := by
  have hsame : cmd.withLe cmd.le = cmd := rfl
  have halike : Alike cmd (cmd.withLe cmd.le) (handle bk cmd) (handle bk (cmd.withLe cmd.le)) :=
    alike_handle cmd.le hcmd fun _ ↦ hsame
  rw [handleApdu_snd]
  rcases halike s with ⟨data, t, ht, hrun, -⟩ | ⟨-, h⟩
  · rcases Nat.lt_or_ge cmd.leLimit data.length with hlong | hfits
    · obtain ⟨chunk, u, hchunked, -⟩ := chunkResponse_long (s := t) hlong
      rw [handleApdu_of_ok (hrun.trans hchunked)] at hsw
      exact absurd rfl hsw
    · rw [chunkResponse_short hfits] at hrun
      rw [hrun]
      exact ht
  · exact h

/-- What GET RESPONSE returns, whatever the state of the card. -/
theorem getResponse_data (hget : get.ins = 0xC0) (s : Session β) :
    (handleApdu bk get s).1.data.toBytes
      = if bk.isTerminationState s.backend = true then [] else s.card.pending.take get.leLimit := by
  cases ht : bk.isTerminationState s.backend with
  | true =>
    rw [handleApdu_of_error (handle_terminated ht)]
    rfl
  | false =>
    have hrun : handle bk get s = handleGetResponse get s :=
      handle_run ht (i := .getResponse) (by rw [hget]; rfl)
    rw [if_neg Bool.false_ne_true]
    by_cases hnil : s.card.pending = []
    · rw [handleApdu_of_error (hrun.trans (handleGetResponse_none hnil)), hnil, List.take_nil]
      rfl
    rcases Nat.lt_or_ge get.leLimit s.card.pending.length with hlong | hfits
    · obtain ⟨chunk, t, hmore, hchunk, -⟩ := handleGetResponse_more hnil hlong
      rw [handleApdu_of_ok (hrun.trans hmore)]
      exact hchunk
    · obtain ⟨chunk, t, hlast, hchunk, -⟩ := handleGetResponse_last hnil hfits
      rw [handleApdu_of_ok (hrun.trans hlast), List.take_of_length_le hfits]
      exact hchunk

/-- GET RESPONSE returns no bytes exactly when none wait, or the card is terminated. -/
theorem getResponse_empty_iff (hget : get.ins = 0xC0) (s : Session β) :
    (handleApdu bk get s).1.data.toBytes = [] ↔
      s.card.pending = [] ∨ bk.isTerminationState s.backend = true := by
  rw [getResponse_data hget]
  split_ifs with ht
  · exact ⟨fun _ ↦ .inr ht, fun _ ↦ rfl⟩
  · have hpos : get.leLimit ≠ 0 := Nat.ne_of_gt get.leLimit_pos
    rw [List.take_eq_nil_iff, or_iff_right hpos]
    exact ⟨.inl, fun h ↦ h.resolve_right ht⟩

/-- An instruction that the card does not know. -/
def unknownCommand : CommandApdu := ⟨0x00, 0x00, 0x00, 0x00, .empty, none⟩

/-- It is refused, and nothing else happens. -/
theorem handleApdu_unknown (bk : OpenPgpBackend β) (s : Session β) :
    (handleApdu bk unknownCommand s).1.sw1 ≠ 0x61 ∧ (handleApdu bk unknownCommand s).2 = s := by
  cases ht : bk.isTerminationState s.backend with
  | true =>
    rw [handleApdu_of_error (handle_terminated ht)]
    refine ⟨?_, rfl⟩
    change StatusWord.terminationState.sw1 ≠ 0x61
    decide
  | false =>
    have hrun : handle bk unknownCommand s = (.error (.error .instructionNotSupported), s) := by
      rw [handle, Fallible.gets_bind, if_neg (by rw [ht]; exact Bool.false_ne_true)]
      rfl
    rw [handleApdu_of_error hrun]
    refine ⟨?_, rfl⟩
    change StatusWord.instructionNotSupported.sw1 ≠ 0x61
    decide

/-! ## When nothing is left -/

/-- **Nothing of an earlier response.** Over any backend and from any session, GET RESPONSE returns
no byte after a command that was answered completely, exactly when nothing waits in the session, or
the card is terminated. -/
theorem leavesNothing_iff (bk : OpenPgpBackend β) (s : Session β) :
    LeavesNothing bk s ↔ s.card.pending = [] ∨ bk.isTerminationState s.backend = true := by
  constructor
  · intro h
    obtain ⟨hsw, hsame⟩ := handleApdu_unknown bk s
    have hempty := h unknownCommand (getRest 0) (by decide) rfl hsw
    rw [hsame] at hempty
    exact (getResponse_empty_iff rfl s).mp hempty
  · intro h cmd get hcmd hget hsw
    refine (getResponse_empty_iff hget _).mpr ?_
    rcases h with hnil | hterm
    · have hwaiting : (handleApdu bk cmd s).2.card.pending = s.card.pending :=
        waiting_of_complete hcmd hsw
      exact .inl (hwaiting.trans hnil)
    · rw [handleApdu_snd, handle_terminated hterm]
      exact .inr hterm

/-- What is left over is a part of an earlier response of the run, kept since the last reset. -/
theorem leftOver_of_earlier (bk : OpenPgpBackend β) (b : β) (steps : List SessionStep)
    (hcmd : cmd.ins ≠ 0xC0) (hget : get.ins = 0xC0)
    (hsw : (handleApdu bk cmd ((Session.new b).run bk steps)).1.sw1 ≠ 0x61)
    (hdata : (handleApdu bk get (handleApdu bk cmd ((Session.new b).run bk steps)).2).1.data.toBytes
      ≠ []) :
    ∃ data, Kept data ((Session.new b).run bk steps).events ∧
      (handleApdu bk get (handleApdu bk cmd ((Session.new b).run bk steps)).2).1.data.toBytes
        <:+: data := by
  have hsound : ((Session.new b).run bk steps).Sound := (sound_new b).run steps
  have hwaiting : (handleApdu bk cmd ((Session.new b).run bk steps)).2.card.pending
      = ((Session.new b).run bk steps).card.pending := waiting_of_complete hcmd hsw
  rw [getResponse_data hget] at hdata ⊢
  split_ifs at hdata ⊢ with ht
  · exact absurd rfl hdata
  · rw [hwaiting] at hdata ⊢
    have hne : ((Session.new b).run bk steps).card.pending ≠ [] := by
      intro hnil
      rw [hnil, List.take_nil] at hdata
      exact hdata rfl
    obtain ⟨data, hkept, hsuffix⟩ := hsound.serving.waiting hne
    exact ⟨data, hkept, (List.take_prefix _ _).isInfix.trans hsuffix.isInfix⟩

/-! ## An identifier that is read on -/

/-- GET DATA of the identifier leaves thirteen bytes with the session. -/
theorem getAid_waits {W T : Type} (pf : CardPlatform W T) {s : Session (OpenPgpVaultBackend W T)}
    (hrunning : s.backend.termination = false) :
    (s.step (vaultBackend pf) (.apdu getAid)).card.pending = pf.aid.toBytes.drop 3 ∧
      (s.step (vaultBackend pf) (.apdu getAid)).backend = s.backend := by
  have hbytes : (Vec.truncated pf.aid.toBytes : Vec 512).toBytes = pf.aid.toBytes := by
    refine Vec.toBytes_truncated ?_
    rw [pf.aid.length_toBytes]
    decide
  have hlong : (getAid.withLe (some 3)).leLimit < (Vec.truncated pf.aid.toBytes : Vec 512).length := by
    rw [Vec.length, hbytes, pf.aid.length_toBytes]
    decide
  obtain ⟨chunk, t, hrun, -, hpending, hbackend⟩ := chunkResponse_long (s := s) hlong
  have hrun' : handle (vaultBackend pf) getAid s = _ := (handle_getAid hrunning (some 3)).trans hrun
  have hstep : s.step (vaultBackend pf) (.apdu getAid) = t := by
    rw [Session.step, handleApdu_of_ok hrun']
  rw [hstep, hpending, hbytes]
  exact ⟨rfl, hbackend⟩

/-- They come with GET RESPONSE after a command that was refused. -/
theorem aid_leftOver : ¬ ∀ steps : List SessionStep, LeavesNothing (vaultBackend benchPlatform)
    ((Session.new (.loaded benchPlatform Baochip.bench.vault Baochip.bench.vault (.new default)
      (.new default) benchStorage 0)).run (vaultBackend benchPlatform) steps) := by
  intro h
  obtain ⟨s, hs⟩ : ∃ s : Session (OpenPgpVaultBackend Memory ℕ), s = .new (.loaded benchPlatform
    Baochip.bench.vault Baochip.bench.vault (.new default) (.new default) benchStorage 0) := ⟨_, rfl⟩
  have hrunning : s.backend.termination = false := by
    rw [hs]
    rfl
  rw [← hs] at h
  have hleaves : LeavesNothing (vaultBackend benchPlatform)
    (s.step (vaultBackend benchPlatform) (.apdu getAid)) := h [.apdu getAid]
  obtain ⟨hpending, hbackend⟩ := getAid_waits benchPlatform hrunning
  obtain ⟨hsw, hsame⟩ := handleApdu_unknown (vaultBackend benchPlatform)
    (s.step (vaultBackend benchPlatform) (.apdu getAid))
  have hempty := hleaves unknownCommand (getRest 0) (by decide) rfl hsw
  rw [hsame, getResponse_empty_iff rfl, hpending] at hempty
  rcases hempty with hnil | hterm
  · exact absurd hnil (by decide)
  · have hfalse : (vaultBackend benchPlatform).isTerminationState
        (s.step (vaultBackend benchPlatform) (.apdu getAid)).backend = false := by
      rw [hbackend]
      exact hrunning
    rw [hfalse] at hterm
    cases hterm

end Galdralag.OpenPgp
