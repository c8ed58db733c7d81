import Galdralag.OpenPgp.Baochip
import Galdralag.OpenPgp.CardLife
import Galdralag.OpenPgp.CommandRuns

/-!
# Termination

A PIN attempt that breaches terminates the card: from then on every command is refused, VERIFY with
its own status word, and a session reset does not help. The flag is kept in memory only. Opening
the backend again clears it, so that termination lasts exactly as long as the power does:
`termination_permanent` is about the runs in which no terminated card is switched off and on.
-/

set_option linter.all false

namespace Galdralag.OpenPgp

variable {W T : Type}

namespace Card

variable (pf : CardPlatform W T)

/-- The card is in session and terminated. -/
def Terminated (c : Card W T) : Prop := ∃ s, c = .on s ∧ s.backend.termination = true

/-- A step that is a command is refused and changes nothing. -/
def Refuses (c : Card W T) (a : CardStep T) : Prop :=
  ∀ s cmd, c = .on s → a = .apdu cmd → handleApdu (vaultBackend pf) cmd s =
    (.error (if cmd.ins = 0x20 then .authMethodBlocked else .terminationState), s)

/-- Once the card is terminated in a run, all later commands are refused. -/
def TerminatedForGood (c : Card W T) (steps : List (CardStep T)) : Prop :=
  ∀ pre post, steps = pre ++ post → (c.run pf pre).Terminated →
    Throughout pf (Refuses pf) (c.run pf pre) post

/-- A terminated card is not switched off and on. -/
def KeepsPower (c : Card W T) (a : CardStep T) : Prop :=
  c.Terminated → ∀ trng user admin, a ≠ .powerCycle trng user admin

variable {pf} {c : Card W T} {a : CardStep T} {steps : List (CardStep T)}

theorem Terminated.refuses (h : c.Terminated) : c.Refuses pf a := by
  obtain ⟨s, rfl, ht⟩ := h
  rintro s' cmd hs -
  obtain rfl : s = s' := Card.on.inj hs
  rw [handleApdu, handle_terminated ht]

/-- A step of a terminated card that keeps its power leaves it terminated. -/
theorem Terminated.step (h : c.Terminated) (hpower : c.KeepsPower a) : (c.step pf a).Terminated := by
  have hno := hpower h
  have hrefuses : c.Refuses pf a := h.refuses
  obtain ⟨s, rfl, ht⟩ := h
  cases a with
  | powerCycle trng user admin => exact absurd rfl (hno trng user admin)
  | reset => exact ⟨s.reset, rfl, ht⟩
  | apdu cmd =>
    refine ⟨s, ?_, ht⟩
    rw [Card.step, hrefuses s cmd rfl rfl]

/-- From a terminated card on, everything is refused while the power is kept. -/
theorem Terminated.throughout (h : c.Terminated) (hpower : Throughout pf KeepsPower c steps) :
    Throughout pf (Refuses pf) c steps := by
  induction steps generalizing c with
  | nil => trivial
  | cons a steps ih => exact ⟨h.refuses, ih (h.step hpower.1) hpower.2⟩

/-- The rest of a run. -/
theorem Throughout.drop {P : Card W T → CardStep T → Prop} {pre post : List (CardStep T)}
    (h : Throughout pf P c (pre ++ post)) : Throughout pf P (c.run pf pre) post := by
  induction pre generalizing c with
  | nil => exact h
  | cons a pre ih => exact ih h.2

end Card

/-- **Termination while the power is kept.** In every run in which no terminated card is switched
off and on, a card that is terminated refuses every later command. -/
theorem termination_permanent (pf : CardPlatform W T) {c : Card W T} {steps : List (CardStep T)}
    (h : Card.Throughout pf Card.KeepsPower c steps) : c.TerminatedForGood pf steps := by
  rintro pre post rfl hterm
  exact hterm.throughout h.drop

/-! ## A card that is revived -/

/-- The bench card after three failed attempts on PW1. -/
def benchTried : Memory := benchStorage.patch Baochip.userCtrLogicalOff (u32le 3)

/-- VERIFY with an empty PIN, and SELECT. -/
def wrongVerify : CommandApdu := ⟨0x00, 0x20, 0x00, 0x81, .empty, none⟩

def selectCard : CommandApdu :=
  ⟨0x00, 0xA4, 0x04, 0x00, .truncated (openpgpAidPrefix ++ [0x03, 0x04]), none⟩

/-- Opened over a memory with three failed attempts, the fourth one breaches. -/
theorem verifyPin_tried {masterKey : Block 32} {w : Memory} (t : ℕ)
    (hcell : rramCell (0 + Baochip.userCtrLogicalOff) w = 3) (pin : Bytes) : ∃ b',
      verifyPin (Baochip.bench.platform masterKey) .user pin (.loaded (Baochip.bench.platform masterKey)
        Baochip.bench.vault Baochip.bench.vault (.new default) (.new default) w t)
        = (.error (.status .authMethodBlocked), b') ∧ b'.termination = true := by
  have hinc := (rramMonotonicCounter_persistent (0 + Baochip.userCtrLogicalOff)).increment_run w
  rw [hcell] at hinc
  set b : OpenPgpVaultBackend Memory ℕ := .loaded (Baochip.bench.platform masterKey)
    Baochip.bench.vault Baochip.bench.vault (.new default) (.new default) w t with hb
  have hlive : (b.machine .user).state ≠ .bricked := by rintro ⟨⟩
  have hgt : (b.machine .user).config.maxAttempts < saturatingAdd 3 1 := by
    change (3 : UInt32) < _
    decide
  exact ⟨_, verifyPin_breach rfl hlive hinc hgt, rfl⟩

/-- The counter of a memory that agrees with the bench memory where it lies. -/
theorem rramCell_tried {w : Memory} (h : Memory.AgreeOn Baochip.userCtrLogicalOff
    (Baochip.userCtrLogicalOff + 4) w benchTried) : rramCell (0 + Baochip.userCtrLogicalOff) w = 3 := by
  rw [Nat.zero_add, rramCell, Memory.window_congr h (Nat.le_refl _) (Nat.le_refl _)]
  exact rramCell_patch _ _ 3

/-- The fourth attempt terminates the card. -/
theorem wrongVerify_terminates : ((Card.off benchTried).run benchPlatform
    [.powerCycle 0 default default, .apdu wrongVerify]).Terminated := by
  obtain ⟨w, hseed, hopened⟩ := Card.opened_run benchPlatform_keeps benchTried 0 default default
  have hcell : rramCell (0 + Baochip.userCtrLogicalOff) w = 3 := by
    obtain ⟨w', hrun, -, -, hout⟩ := seedDefaultsIfFresh_run benchPlatform_keeps.objectsFaithful
      (Nat.le_refl _) benchTried
    obtain rfl := (Prod.mk.inj (hrun.symm.trans hseed)).2
    rw [vault_bench, vault_bench] at hout
    exact rramCell_tried (hout.agreeOn (.inr (by decide)))
  obtain ⟨b', hverify, hb'⟩ := verifyPin_tried 0 hcell wrongVerify.data.toBytes
  set b : OpenPgpVaultBackend Memory ℕ := .loaded benchPlatform Baochip.bench.vault
    Baochip.bench.vault (.new default) (.new default) w 0 with hb
  have hcall := (perform_verifyPw1Sign benchPlatform wrongVerify.data.toBytes b).trans hverify
  have hins : wrongVerify.ins = 0x20 := rfl
  have hp2 : wrongVerify.p2 = 0x81 := rfl
  have hterm : (vaultBackend benchPlatform).isTerminationState (Session.new b).backend
      = false := rfl
  have hrun := handle_verifySign_error hterm hins hp2 hcall
  refine ⟨(handle (vaultBackend benchPlatform) wrongVerify (.new b)).2, ?_, by rw [hrun]; exact hb'⟩
  have hstep : (Card.off benchTried).step benchPlatform (.powerCycle 0 default default)
      = .on (.new b) := hopened
  rw [Card.run, List.foldl_cons, List.foldl_cons, List.foldl_nil, hstep, Card.step, handleApdu_snd]

/-- SELECT is refused after it. -/
theorem termination_permanent_bench : (Card.off benchTried).TerminatedForGood benchPlatform
    [.powerCycle 0 default default, .apdu wrongVerify, .apdu selectCard] := by
  refine termination_permanent benchPlatform ⟨?_, ?_, ?_, trivial⟩
  · rintro ⟨s, hs, -⟩
    cases hs
  · intro _ trng user admin h
    cases h
  · intro _ trng user admin h
    cases h

/-- The next power cycle revives it. -/
theorem termination_ends_with_power : ¬ (Card.off benchTried).TerminatedForGood benchPlatform
    [.powerCycle 0 default default, .apdu wrongVerify, .powerCycle 0 default default,
      .apdu selectCard] := by
  intro h
  have hrefuses := h _ [.powerCycle 0 default default, .apdu selectCard] rfl wrongVerify_terminates
  generalize (Card.off benchTried).run benchPlatform _ = c at hrefuses
  obtain ⟨w, -, hopened⟩ := Card.opened_run benchPlatform_keeps c.world 0 default default
  have hrun := hrefuses.2.1 _ selectCard hopened rfl
  rw [handleApdu, handle_select rfl rfl rfl rfl (by decide)] at hrun
  cases (Prod.mk.inj hrun).1

end Galdralag.OpenPgp
