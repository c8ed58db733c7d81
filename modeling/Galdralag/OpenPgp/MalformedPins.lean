import Galdralag.OpenPgp.PinText
import Galdralag.OpenPgp.RetryCounter
import Galdralag.OpenPgp.Verification

/-!
# Malformed PINs

The parser for PINs is to be called before an attempt, so that short and invalid inputs do not touch
the attempt counter. VERIFY does not call it: whatever its data field holds is hashed and compared,
and charged when it does not match. An empty field, with which a host asks for the status of a
password, is a wrong PIN like any other.
-/

set_option linter.all false

namespace Galdralag.OpenPgp

variable {W T : Type} {pf : CardPlatform W T} {value : CardPin → W → UInt32} {cmd : CommandApdu}
  {s : Session (OpenPgpVaultBackend W T)} {b : OpenPgpVaultBackend W T} {p : CardPin} {pin : Bytes}

/-- Each password has a counter of its own, which persists its value. -/
structure CardPlatform.Counts (pf : CardPlatform W T) (value : CardPin → W → UInt32) : Prop where
  persistent : ∀ p, (pf.counter p).Persistent (value p)
  apart : ∀ {p q}, q ≠ p → ∀ w, value q ((pf.counter p).increment w).2 = value q w ∧
    value q ((pf.counter p).refundOnSuccess w).2 = value q w

/-- What an attempt may cost is the same: the counters, the machines, the verifiers and the
termination state. -/
structure CostsNothing (value : CardPin → W → UInt32) (b b' : OpenPgpVaultBackend W T) : Prop where
  counter : ∀ q, value q b'.world = value q b.world
  machine : ∀ q, b'.machine q = b.machine q
  verifier : ∀ q, b'.verifier q = b.verifier q
  termination : b'.termination = b.termination

theorem CostsNothing.refl (value : CardPin → W → UInt32) (b : OpenPgpVaultBackend W T) :
    CostsNothing value b b := ⟨fun _ ↦ rfl, fun _ ↦ rfl, fun _ ↦ rfl, rfl⟩

/-- An attempt that leaves no trace: the right PIN on a machine that is unlocked already, with room
to count; or a wrong one where counter and limit are at the largest value. -/
def Traceless (pf : CardPlatform W T) (value : CardPin → W → UInt32) (p : CardPin) (pin : Bytes)
    (b : OpenPgpVaultBackend W T) : Prop :=
  (pinBytesToVerifierDigest pf pin = b.verifier p ∧ (b.machine p).state = .unlocked ∧
      (value p b.world).toNat < (b.machine p).config.maxAttempts.toNat) ∨
    (pinBytesToVerifierDigest pf pin ≠ b.verifier p ∧ (b.machine p).state = .lockedIdle ∧
      value p b.world = u32Max ∧ (b.machine p).config.maxAttempts = u32Max)

/-! ## Counting -/

/-- Counting stops at the largest value. -/
theorem saturatingAdd_one_eq_iff (v : UInt32) : saturatingAdd v 1 = v ↔ v = u32Max := by
  have hone : (1 : UInt32).toNat = 1 := rfl
  have hmax : u32Max.toNat = 2 ^ 32 - 1 := rfl
  have hlt := v.toNat_lt
  rw [← UInt32.toNat_inj, ← UInt32.toNat_inj, toNat_saturatingAdd, hone, hmax]
  omega

/-- A refund takes a charge back unless the charge was not counted. -/
theorem saturatingSub_saturatingAdd_eq_iff (v : UInt32) :
    saturatingSub (saturatingAdd v 1) 1 = v ↔ v ≠ u32Max := by
  have hone : (1 : UInt32).toNat = 1 := rfl
  have hmax : u32Max.toNat = 2 ^ 32 - 1 := rfl
  have hlt := v.toNat_lt
  rw [ne_eq, ← UInt32.toNat_inj, ← UInt32.toNat_inj, toNat_saturatingSub, toNat_saturatingAdd, hone,
    hmax]
  omega

section Counts

variable (hcounts : pf.Counts value)
include hcounts

/-- A charge is free where the counter is full. -/
theorem CardPlatform.Counts.charge_free_iff (p : CardPin) (w : W) :
    (∀ q, value q ((pf.counter p).increment w).2 = value q w) ↔ value p w = u32Max := by
  have hown := (hcounts.persistent p).value_increment w
  constructor
  · intro h
    rw [← saturatingAdd_one_eq_iff, ← hown]
    exact h p
  · intro hfull q
    by_cases hq : q = p
    · rw [hq, hown]
      exact (saturatingAdd_one_eq_iff _).mpr hfull
    · exact (hcounts.apart hq w).1

/-- A charge that is refunded is free where the counter is not full. -/
theorem CardPlatform.Counts.refund_free_iff (p : CardPin) (w : W) :
    (∀ q, value q ((pf.counter p).refundOnSuccess ((pf.counter p).increment w).2).2 = value q w) ↔
      value p w ≠ u32Max := by
  have hown := (hcounts.persistent p).value_refund ((pf.counter p).increment w).2
  rw [(hcounts.persistent p).value_increment] at hown
  constructor
  · intro h
    rw [← saturatingSub_saturatingAdd_eq_iff, ← hown]
    exact h p
  · intro hroom q
    by_cases hq : q = p
    · rw [hq, hown]
      exact (saturatingSub_saturatingAdd_eq_iff _).mpr hroom
    · exact ((hcounts.apart hq _).2).trans (hcounts.apart hq w).1

end Counts

/-! ## Attempts -/

/-- An attempt touches the machine of its own password alone. -/
theorem machine_attempted {state : PinState} {w : W} :
    (∀ q, (b.attempted p state w).machine q = b.machine q) ↔ (b.machine p).state = state := by
  constructor
  · intro h
    have hown := congrArg PinPolicyMachine.state (h p)
    cases p <;> exact hown.symm
  · rintro rfl q
    cases p <;> cases q <;> rfl

/-- What an attempt leaves, compared with what was before. -/
theorem costsNothing_attempted {state : PinState} {w : W} :
    CostsNothing value b (b.attempted p state w) ↔
      (∀ q, value q w = value q b.world) ∧ (b.machine p).state = state := by
  have hverifier : ∀ q, (b.attempted p state w).verifier q = b.verifier q := by
    intro q
    cases p <;> cases q <;> rfl
  have hterm : (b.attempted p state w).termination = b.termination := by cases p <;> rfl
  constructor
  · exact fun h ↦ ⟨h.counter, machine_attempted.mp h.machine⟩
  · exact fun h ↦ ⟨h.1, machine_attempted.mpr h.2, hverifier, hterm⟩

/-- What terminates the card costs something. -/
theorem CostsNothing.running {b' : OpenPgpVaultBackend W T} (h : CostsNothing value b b')
    (ht : b.termination = false) : b'.termination = false := h.termination.trans ht

/-- **Attempts.** An attempt costs nothing exactly when it is traceless. -/
theorem costsNothing_verifyPin_iff (hcounts : pf.Counts value) (ht : b.termination = false) :
    CostsNothing value b (verifyPin pf p pin b).2 ↔ Traceless pf value p pin b := by
  have hone : (1 : UInt32).toNat = 1 := rfl
  have hmax : u32Max.toNat = 2 ^ 32 - 1 := rfl
  have hlt := (value p b.world).toNat_lt
  have hlim := (b.machine p).config.maxAttempts.toNat_lt
  have hfull : value p b.world = u32Max ↔ (value p b.world).toNat = 2 ^ 32 - 1 := by
    rw [← UInt32.toNat_inj, hmax]
  have hfullLimit : (b.machine p).config.maxAttempts = u32Max ↔
      (b.machine p).config.maxAttempts.toNat = 2 ^ 32 - 1 := by
    rw [← UInt32.toNat_inj, hmax]
  have hcharge := (hcounts.persistent p).increment_run b.world
  by_cases hb : (b.machine p).state = .bricked
  · rw [verifyPin_bricked ht hb]
    refine iff_of_false (fun h ↦ Bool.noConfusion (h.running ht)) ?_
    rintro (⟨-, hstate, -⟩ | ⟨-, hstate, -⟩) <;> cases hstate.symm.trans hb
  by_cases hgt : (b.machine p).config.maxAttempts < saturatingAdd (value p b.world) 1
  · rw [verifyPin_breach ht hb hcharge hgt]
    rw [UInt32.lt_iff_toNat_lt, toNat_saturatingAdd, hone] at hgt
    refine iff_of_false (fun h ↦ Bool.noConfusion (h.running ht)) ?_
    rintro (⟨-, -, hroom⟩ | ⟨-, -, -, hlimit⟩)
    · omega
    · rw [hfullLimit] at hlimit
      omega
  have hle := hgt
  rw [UInt32.lt_iff_toNat_lt, toNat_saturatingAdd, hone] at hle
  by_cases hpin : pinBytesToVerifierDigest pf pin = b.verifier p
  · rw [verifyPin_success ht hb hcharge hgt hpin, costsNothing_attempted, hcounts.refund_free_iff,
      ne_eq, hfull, Traceless]
    constructor
    · rintro ⟨hfree, hstate⟩
      exact .inl ⟨hpin, hstate, by omega⟩
    · rintro (⟨-, hstate, hroom⟩ | ⟨hne, -⟩)
      · exact ⟨by omega, hstate⟩
      · exact absurd hpin hne
  · rw [verifyPin_failed ht hb hcharge hgt hpin, costsNothing_attempted, hcounts.charge_free_iff,
      Traceless, hfullLimit]
    constructor
    · rintro ⟨hvalue, hstate⟩
      have hlast := hfull.mp hvalue
      exact .inr ⟨hpin, hstate, hvalue, by omega⟩
    · rintro (⟨heq, -⟩ | ⟨-, hstate, hvalue, -⟩)
      · exact absurd heq hpin
      · exact ⟨hvalue, hstate⟩

/-- A word in the audit costs nothing. -/
theorem costsNothing_audit {b' : OpenPgpVaultBackend W T} {audit : UInt32} :
    CostsNothing value b { b' with audit := audit } ↔ CostsNothing value b b' := by
  constructor
  · exact fun h ↦ ⟨h.counter, h.machine, h.verifier, h.termination⟩
  · exact fun h ↦ ⟨h.counter, h.machine, h.verifier, h.termination⟩

/-- **VERIFY** costs nothing exactly when the card is terminated, P2 refers to no password, or the
attempt is traceless. -/
theorem costsNothing_verify_iff (hcounts : pf.Counts value) (hins : cmd.ins = 0x20)
    (s : Session (OpenPgpVaultBackend W T)) :
    CostsNothing value s.backend (handle (vaultBackend pf) cmd s).2.backend ↔
      s.backend.termination = true ∨ passwordOf cmd.p2 = none ∨
        ∃ p, passwordOf cmd.p2 = some p ∧ Traceless pf value p cmd.data.toBytes s.backend := by
  cases ht : s.backend.termination with
  | true =>
    rw [verify_terminated ht]
    exact iff_of_true (.refl value _) (.inl rfl)
  | false =>
    cases hp : passwordOf cmd.p2 with
    | none =>
      rw [verify_unknown hins hp]
      exact iff_of_true (.refl value _) (.inr (.inl rfl))
    | some p =>
      obtain ⟨audit, hbackend⟩ := verify_backend hins hp ht
      rw [hbackend, costsNothing_audit, costsNothing_verifyPin_iff hcounts ht]
      constructor
      · exact fun h ↦ .inr (.inr ⟨p, rfl, h⟩)
      · rintro (⟨⟨⟩⟩ | ⟨⟨⟩⟩ | ⟨q, hq, h⟩)
        obtain rfl := Option.some.inj hq
        exact h

/-- **Malformed PINs.** For a VERIFY in any card state it is a matter of the card, the reference and
the attempt, and not of the parser, whether data that the parser rejects cost nothing. -/
theorem malformed_costsNothing_iff (hcounts : pf.Counts value) (hins : cmd.ins = 0x20)
    (s : Session (OpenPgpVaultBackend W T)) :
    (Malformed cmd.data.toBytes →
        CostsNothing value s.backend (handle (vaultBackend pf) cmd s).2.backend) ↔
      (Malformed cmd.data.toBytes → s.backend.termination = true ∨ passwordOf cmd.p2 = none ∨
        ∃ p, passwordOf cmd.p2 = some p ∧ Traceless pf value p cmd.data.toBytes s.backend) := by
  rw [costsNothing_verify_iff hcounts hins]

/-! ## The bench card -/

/-- The counters of the bench card. -/
def benchValue (p : CardPin) : Memory → UInt32 := rramCell (benchCtr p)

theorem benchPlatform_counts : benchPlatform.Counts benchValue where
  persistent p := by
    cases p <;> exact rramMonotonicCounter_persistent _
  apart := by
    have hcell : ∀ {p q}, q ≠ p → ∀ w v, benchValue q (w.patch (benchCtr p) (u32le v))
        = benchValue q w := by
      intro p q hq w v
      refine rramCell_patch_of_disjoint ?_ w v
      cases p <;> cases q <;> first | exact absurd rfl hq | decide
    intro p q hq w
    rw [benchIncrement, benchRefund]
    exact ⟨hcell hq _ _, hcell hq _ _⟩

/-- VERIFY without data, under a reference that stands for no password. -/
def strayVerify : CommandApdu := ⟨0x00, 0x20, 0x00, 0x80, .empty, none⟩

theorem strayVerify_malformed : Malformed strayVerify.data.toBytes :=
  malformed_of_charCount_lt (by decide)

/-- It costs nothing. -/
theorem strayVerify_costsNothing : CostsNothing benchValue (benchOpened benchStorage)
    (handle (vaultBackend benchPlatform) strayVerify (.new (benchOpened benchStorage))).2.backend :=
  (malformed_costsNothing_iff benchPlatform_counts rfl (.new (benchOpened benchStorage))).mpr
    (fun _ ↦ .inr (.inl rfl)) strayVerify_malformed

/-- A card that is switched on is charged for it. -/
theorem charged_of_counted {w₀ : Memory} (h₀ : benchPlatform.doStore.write 0x93 [0x00, 0x00, 0x00]
    benchStorage = (.ok ⟨⟩, w₀)) : ∃ s : Session (OpenPgpVaultBackend Memory ℕ),
    (Card.off w₀).run benchPlatform [.powerCycle 0 default default] = .on s ∧
      benchValue .user s.backend.world = 0 ∧
      benchValue .user (handle (vaultBackend benchPlatform) wrongVerify s).2.backend.world = 1 := by
  have hready := benchReady_opened h₀
  have hopened : (Card.off w₀).step benchPlatform (.powerCycle 0 default default)
      = .on (.new (benchOpened w₀)) := opened_of_counted h₀
  refine ⟨.new (benchOpened w₀), ?_, hready.userCell, hready.wrong.userCell⟩
  rw [Card.run, List.foldl_cons, hopened, List.foldl_nil]

/-- VERIFY without data under the reference of PW1 is charged, on a card that was just switched on.
-/
theorem wrongVerify_charged : Malformed wrongVerify.data.toBytes ∧
    ∃ s : Session (OpenPgpVaultBackend Memory ℕ),
      (Card.off (benchPlatform.doStore.write 0x93 [0x00, 0x00, 0x00] benchStorage).2).run
          benchPlatform [.powerCycle 0 default default] = .on s ∧
        benchValue .user s.backend.world = 0 ∧
        benchValue .user (handle (vaultBackend benchPlatform) wrongVerify s).2.backend.world = 1 :=
  ⟨malformed_of_charCount_lt (by decide), charged_of_counted (benchCounted_run 0)⟩

end Galdralag.OpenPgp
