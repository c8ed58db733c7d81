import Galdralag.OpenPgp.Baochip
import Galdralag.OpenPgp.ResponseChain

/-!
# Reassembling a response

What a reader pieces together from the first answer and the answers to GET RESPONSE is the response
of the command: what the same command answers to a reader that accepts the longest response at once.
This holds for every choice of expected lengths.

A card that is terminated answers nothing, GET RESPONSE included. Only a PIN attempt terminates the
card, and commands that make one have nothing to reassemble.
-/

set_option linter.all false

namespace Galdralag.OpenPgp

variable {W T : Type} {pf : CardPlatform W T} {b : OpenPgpVaultBackend W T}
  {s : Session (OpenPgpVaultBackend W T)} {cmd : CommandApdu} {data : Vec 512}

/-! ## A card that stays in service -/

/-- A call that attempts no PIN leaves the termination flag alone. -/
theorem termination_performCall {c : BackendCall} (hattempts : c.attempts = none)
    (b : OpenPgpVaultBackend W T) : (performCall pf c b).2.termination = b.termination := by
  have hspares : ∀ d, pf.Spares (fun _ _ ↦ True) d := by
    intro d
    cases d with
    | objects => exact fun _ _ _ ↦ trivial
    | pins => exact fun _ _ _ ↦ trivial
    | cells => exact fun _ _ _ ↦ trivial
    | counters => exact fun _ _ ↦ ⟨trivial, trivial, trivial⟩
  have hrefl : ∀ w : W, (fun _ _ ↦ True : W → W → Prop) w w := fun _ ↦ trivial
  have htrans : ∀ u v w : W, (fun _ _ ↦ True : W → W → Prop) u v →
      (fun _ _ ↦ True : W → W → Prop) v w → (fun _ _ ↦ True : W → W → Prop) u w :=
    fun _ _ _ _ _ ↦ trivial
  rcases c.generates_or_counts_or_plain with ⟨slot, rfl⟩ | rfl | hplain
  · exact (calmBut_generate hrefl htrans (hspares .cells) slot b).termination
  · cases ht : b.termination with
    | true =>
      rw [performCall, incrementSignatureCounter,
        Fallible.bind_of_error (ensureNotTerminated_terminated ht)]
      exact ht
    | false =>
      rw [performCall, incrementSignatureCounter_run ht]
      exact ht
  · have hbreach : ¬ c.Breaching pf b := BackendCall.not_breaching hattempts
    exact (calm_performCall hrefl htrans hplain (fun d _ ↦ hspares d) b hbreach).termination

/-- A command that attempts no PIN leaves the termination flag alone. -/
theorem termination_handle (hverify : cmd.ins ≠ 0x20) (hchange : cmd.ins ≠ 0x24)
    (s : Session (OpenPgpVaultBackend W T)) :
    (handle (vaultBackend pf) cmd s).2.backend.termination = s.backend.termination := by
  have hlifts : Lifts (vaultBackend pf) cmd (fun _ ↦ True) (fun b b' ↦ b'.termination = b.termination) := {
    refl := fun _ ↦ rfl
    trans := fun h h' ↦ h'.trans h
    log := fun _ _ ↦ rfl
    log_keeps := fun _ _ _ ↦ trivial
    asked := by
      intro c hasks b _
      refine termination_performCall ?_ b
      cases c with
      | verifyPw1Sign pin => exact absurd hasks.1 hverify
      | verifyPw1Other pin => exact absurd hasks.1 hverify
      | verifyPw3 pin => exact absurd hasks.1 hverify
      | changePin pw3 old new => exact absurd hasks.1 hchange
      | _ => rfl
    prelude := fun _ _ _ _ _ ↦ trivial }
  exact hlifts.handle s trivial

/-! ## The response of a command -/

/-- The same command from a reader that accepts the longest response. GET CHALLENGE takes the
expected length for the number of bytes it is asked for, and fits into one answer. -/
def CommandApdu.wide (cmd : CommandApdu) : CommandApdu :=
  cmd.withLe (if cmd.ins = 0x84 then cmd.le else some 512)

theorem handle_withLe {β : Type} {bk : OpenPgpBackend β} (hpin : cmd.ins = 0x20 ∨ cmd.ins = 0x24)
    (le : Option UInt16) : handle bk (cmd.withLe le) = handle bk cmd := by
  have hins : (cmd.withLe le).ins = cmd.ins := rfl
  rcases hpin with h | h <;>
  · rw [handle, handle, hins, h]
    rfl

/-- A command whose expected length plays no part is answered at once. -/
theorem reassembles_at_once {β : Type} {bk : OpenPgpBackend β} {s : Session β} {cmds : ℕ → CommandApdu}
    (h : (s.answer bk cmds 0) = .ok data) : Reassembles data.toBytes (s.answer bk cmds) 0 := by
  refine ⟨⟨?_, by rw [h]; rfl, by rw [h]; rfl⟩, fun i hi ↦ absurd hi (Nat.not_lt_zero i)⟩
  rw [received_succ, h]
  rfl

/-- **Reassembly.** For every session of the card, every command with a response and every sequence
of GET RESPONSE commands after it, whatever lengths they expect: some answer ends the exchange with
`9000`, the data up to it are the response of the command, and every answer before it says `61xx`,
where `xx` is the number of bytes that are left, or 255 if there are more. -/
theorem response_reassembled (pf : CardPlatform W T) (s : Session (OpenPgpVaultBackend W T))
    (cmds : ℕ → CommandApdu) (hcmd : (cmds 0).ins ≠ 0xC0) (hgets : ∀ n, (cmds (n + 1)).ins = 0xC0)
    (hdata : (handleApdu (vaultBackend pf) (cmds 0).wide s).1 = .ok data) :
    ∃ n ≤ data.length, Reassembles data.toBytes (s.answer (vaultBackend pf) cmds) n := by
  have hsame : handle (vaultBackend pf) (cmds 0).wide s = handle (vaultBackend pf) (cmds 0) s →
      ∃ n ≤ data.length, Reassembles data.toBytes (s.answer (vaultBackend pf) cmds) n := by
    intro heq
    rw [handleApdu, heq] at hdata
    exact ⟨0, Nat.zero_le _, reassembles_at_once hdata⟩
  by_cases hpin : (cmds 0).ins = 0x20 ∨ (cmds 0).ins = 0x24
  · exact hsame (by rw [CommandApdu.wide, handle_withLe hpin])
  by_cases hchallenge : (cmds 0).ins = 0x84
  · exact hsame (by rw [CommandApdu.wide, if_pos hchallenge]; rfl)
  rw [CommandApdu.wide, if_neg hchallenge] at hdata hsame
  have halike : Alike (cmds 0) ((cmds 0).withLe (some 512)) (handle (vaultBackend pf) (cmds 0))
      (handle (vaultBackend pf) ((cmds 0).withLe (some 512))) :=
    alike_handle (some 512) hcmd fun h ↦ absurd h hchallenge
  rcases halike s with ⟨data', t, -, hrun, hwide⟩ | ⟨heq, -⟩
  swap
  · exact hsame heq.symm
  rw [chunkResponse_short data'.length_le] at hwide
  rw [handleApdu_of_ok hwide] at hdata
  obtain rfl : data' = data := congrArg ResponseApdu.data hdata
  refine reassembles_of_chunked hgets hrun ?_
  -- The card was in service, or it would have refused the command, and no PIN was tried.
  have hbackend : t.backend = (handle (vaultBackend pf) (cmds 0) s).2.backend := by
    rw [hrun, chunkResponse_backend]
  have hkept : t.backend.termination = s.backend.termination := by
    rw [hbackend]
    exact termination_handle (fun h ↦ hpin (.inl h)) (fun h ↦ hpin (.inr h)) s
  refine hkept.trans (Bool.eq_false_iff.mpr fun ht ↦ ?_)
  have hterm : (vaultBackend pf).isTerminationState s.backend = true := ht
  rw [handle_terminated hterm] at hwide
  cases (Prod.mk.inj hwide).1

/-- GET DATA of the application identifier from a reader that accepts three bytes. -/
def getAid : CommandApdu := ⟨0x00, 0xCA, 0x00, 0x4F, .empty, some 3⟩

/-- GET RESPONSE from a reader that accepts `n` bytes. -/
def getRest (n : ℕ) : CommandApdu := ⟨0x00, 0xC0, 0x00, 0x00, .empty, some (UInt16.ofNat n)⟩

/-- GET DATA of the application identifier, whatever length is expected. -/
theorem handle_getAid (hrunning : s.backend.termination = false) (le : Option UInt16) :
    handle (vaultBackend pf) (getAid.withLe le) s
      = chunkResponse (getAid.withLe le) (.truncated pf.aid.toBytes) s := by
  have hterm : (vaultBackend pf).isTerminationState s.backend = false := hrunning
  have hfits : (Vec.ofBytes? pf.aid.toBytes : Option (Vec 512)) = some (.truncated pf.aid.toBytes) := by
    refine Vec.ofBytes?_of_le ?_
    rw [pf.aid.length_toBytes]
    decide
  have haid : (getAid.withLe le).tag = 0x004F := by
    change u16OfBe 0x00 0x4F = 0x004F
    decide
  have htag : doTag (vaultBackend pf) (getAid.withLe le).tag s.backend
      = .ok (.truncated pf.aid.toBytes) := by
    rw [haid]
    exact doTag_aid hfits
  have hask : (ask (doTag (vaultBackend pf) (getAid.withLe le).tag) : Handler _ (Vec 512)) s
      = (.ok (.truncated pf.aid.toBytes), s) := by
    rw [ask, Fallible.reading_apply, htag]
    rfl
  rw [handle_run hterm (i := .getData) rfl, Instruction.handler, handleGetData,
    Fallible.bind_of_ok hask]

theorem getAid_wide (hrunning : s.backend.termination = false) :
    (handleApdu (vaultBackend pf) getAid.wide s).1 = .ok (.truncated pf.aid.toBytes) := by
  have hrun : handle (vaultBackend pf) getAid.wide s
      = chunkResponse getAid.wide (.truncated pf.aid.toBytes) s := handle_getAid hrunning (some 512)
  rw [chunkResponse_short (Vec.length_le _)] at hrun
  exact congrArg Prod.fst (handleApdu_of_ok hrun)

/-- The commands of a reader that accepts three bytes, then one, two, three and so on. -/
def getAidInParts (n : ℕ) : CommandApdu := if n = 0 then getAid else getRest n

/-- The sixteen bytes of an identifier in parts. -/
theorem aid_reassembled : ∃ n ≤ 16, Reassembles (openpgpAidPrefix ++ List.replicate 11 0)
    ((Session.new (OpenPgpVaultBackend.blank (.new default) (.new default) benchStorage 0)).answer
      (vaultBackend benchPlatform) getAidInParts) n := by
  have hget : (getAidInParts 0).ins ≠ 0xC0 := by decide
  have hdata := response_reassembled benchPlatform
    (.new (.blank (.new default) (.new default) benchStorage 0)) getAidInParts hget (fun _ ↦ rfl)
    (getAid_wide rfl)
  exact hdata

end Galdralag.OpenPgp
