import Galdralag.OpenPgp.PinAgreement
import Galdralag.OpenPgp.PinText

/-!
# The strength of PINs

PINs are documented to have at least five characters. What the card checks of a new PIN is that it
is not empty and not too long. So the PINs stay strong for as long as those who change them see to
it.
-/

set_option linter.all false

namespace Galdralag.OpenPgp

open Cipher (utf8)

variable {W T : Type} {pf : CardPlatform W T} {s : Session (OpenPgpVaultBackend W T)}
  {cmd : CommandApdu} {c : PinChange} {b : OpenPgpVaultBackend W T}

/-! ## Calls that leave the digests alone -/

/-- A method that keeps the digests in memory. -/
def KeepsDigests {ε α : Type} (m : Fallible (OpenPgpVaultBackend W T) ε α) : Prop :=
  Fallible.Moves (fun b b' ↦ b'.verifier = b.verifier) m

section Methods

variable {ε α γ : Type}

theorem KeepsDigests.bind {m : Fallible (OpenPgpVaultBackend W T) ε α}
    {f : α → Fallible (OpenPgpVaultBackend W T) ε γ} (hm : KeepsDigests m)
    (hf : ∀ a, KeepsDigests (f a)) : KeepsDigests (m >>= f) :=
  Fallible.Moves.bind hm (fun h h' ↦ h'.trans h) hf

theorem keepsDigests_gets (g : OpenPgpVaultBackend W T → α) {f : α → VaultM W T γ}
    (hf : ∀ a, KeepsDigests (f a)) : KeepsDigests (.gets g >>= f) := fun b ↦ hf (g b) b

theorem keepsDigests_pure (a : α) : KeepsDigests (pure a : VaultM W T α) := fun _ ↦ rfl

theorem keepsDigests_require (p : Prop) [Decidable p] (e : OpenPgpBackendError) :
    KeepsDigests (.require p e : VaultM W T PUnit) := by
  have hrefl : ∀ b : OpenPgpVaultBackend W T, b.verifier = b.verifier := fun _ ↦ rfl
  exact Fallible.Moves.require hrefl p e

theorem keepsDigests_orDeny (o : Option α) (sw : StatusWord) :
    KeepsDigests (orDeny o sw : VaultM W T α) := by
  intro b
  cases o <;> rfl

theorem keepsDigests_onWorld (m : Fallible W ε α) :
    KeepsDigests (onWorld m : Fallible (OpenPgpVaultBackend W T) ε α) := by
  intro b
  funext p
  cases p <;> rfl

theorem keepsDigests_onTrng (m : Fallible T ε α) :
    KeepsDigests (onTrng m : Fallible (OpenPgpVaultBackend W T) ε α) := by
  intro b
  funext p
  cases p <;> rfl

/-- Behind the first check of every method. -/
theorem keepsDigests_method {m : VaultM W T α} (hm : KeepsDigests m) :
    KeepsDigests (ensureNotTerminated >>= fun _ ↦ m) :=
  KeepsDigests.bind (fun b ↦ keepsDigests_require (b.termination = false) _ b) fun _ ↦ hm

theorem keepsDigests_generateOrReadKey (p1 : UInt8) (slot : OpenPgpKeySlot) :
    KeepsDigests (generateOrReadKey pf p1 slot) := by
  refine keepsDigests_method (keepsDigests_gets _ fun attrs ↦ ?_)
  split_ifs
  · refine (keepsDigests_orDeny _ _).bind fun kind ↦ keepsDigests_gets _ fun keys ↦ ?_
    exact (keepsDigests_orDeny _ _).bind fun key ↦ keepsDigests_pure _
  · exact fun _ ↦ rfl
  · refine (keepsDigests_orDeny _ _).bind fun kind ↦ KeepsDigests.bind ?_ fun key ↦ ?_
    · cases kind with
      | brainpool => exact Fallible.Moves.orElse (keepsDigests_onTrng _) _
      | curve25519 => exact keepsDigests_onTrng _
    · refine KeepsDigests.bind (KeepsDigests.bind ?_ fun blob ↦ ?_) fun _ ↦ KeepsDigests.bind ?_ fun _ ↦ ?_
      · exact Fallible.Moves.orElse (keepsDigests_onTrng _) _
      · exact Fallible.Moves.orElse (keepsDigests_onWorld _) _
      · intro b
        funext p
        cases p <;> rfl
      · exact keepsDigests_pure _

end Methods

/-- **Digests in memory** are set by two calls only. -/
theorem keepsDigests_performCall {c : BackendCall} (hchange : ∀ pw3 old new, c ≠ .changePin pw3 old new)
    (hset : ∀ new, c ≠ .setPw1VerifierAdminOnly new) : KeepsDigests (performCall pf c) := by
  cases c with
  | verifyPw1Sign pin => exact verifier_verifyPin .user pin
  | verifyPw1Other pin => exact verifier_verifyPin .user pin
  | verifyPw3 pin => exact verifier_verifyPin .admin pin
  | changePin pw3 old new => exact absurd rfl (hchange pw3 old new)
  | setPw1VerifierAdminOnly new => exact absurd rfl (hset new)
  | resetPw1RetryCounter =>
    refine keepsDigests_method fun b ↦ ?_
    funext p
    cases p <;> rfl
  | putDo tag value =>
    refine keepsDigests_method ((keepsDigests_require _ _).bind fun _ ↦ ?_)
    exact Fallible.Moves.orElse (keepsDigests_onWorld _) _
  | psoSignHash hash =>
    refine keepsDigests_method (keepsDigests_gets _ fun keys ↦ ?_)
    refine (keepsDigests_orDeny _ _).bind fun key ↦ ?_
    exact (keepsDigests_orDeny _ _).bind fun der ↦ keepsDigests_pure _
  | psoDecipher data => exact keepsDigests_method fun _ ↦ rfl
  | ecdhDec purpose peer =>
    refine keepsDigests_method ((keepsDigests_require _ _).bind fun _ ↦ keepsDigests_gets _ fun keys ↦ ?_)
    refine (keepsDigests_orDeny _ _).bind fun key ↦ (keepsDigests_require _ _).bind fun _ ↦ ?_
    exact (keepsDigests_orDeny _ _).bind fun shared ↦ keepsDigests_pure _
  | getChallenge len =>
    exact keepsDigests_method ((keepsDigests_onTrng _).bind fun _ ↦ keepsDigests_orDeny _ _)
  | ed25519Sign purpose message =>
    refine keepsDigests_method (keepsDigests_gets _ fun key ↦ ?_)
    exact (keepsDigests_orDeny _ _).bind fun key ↦ keepsDigests_pure _
  | x25519Ecdh purpose peer =>
    refine keepsDigests_method
      ((keepsDigests_require _ _).bind fun _ ↦ (keepsDigests_require _ _).bind fun _ ↦ ?_)
    exact keepsDigests_gets _ fun keys ↦ (keepsDigests_orDeny _ _).bind fun key ↦ keepsDigests_pure _
  | internalAuthenticate challenge =>
    refine keepsDigests_method (keepsDigests_gets _ fun attrs ↦ keepsDigests_gets _ fun keys ↦ ?_)
    split_ifs
    · exact (keepsDigests_orDeny _ _).bind fun key ↦ keepsDigests_pure _
    · refine (keepsDigests_orDeny _ _).bind fun key ↦ ?_
      exact (keepsDigests_orDeny _ _).bind fun der ↦ keepsDigests_pure _
  | generateOrReadKey p1 slot => exact keepsDigests_generateOrReadKey p1 slot
  | incrementSignatureCounter =>
    refine keepsDigests_method (KeepsDigests.bind ?_ fun _ ↦ keepsDigests_gets _ fun count ↦ ?_)
    · intro b
      funext p
      cases p <;> rfl
    · exact Fallible.Moves.orElse (keepsDigests_onWorld _) _

/-- Commands other than the two that change PINs keep the digests. -/
theorem verifier_handle_other (hchange : cmd.ins ≠ 0x24) (hreset : cmd.ins ≠ 0x2C)
    (s : Session (OpenPgpVaultBackend W T)) :
    (handle (vaultBackend pf) cmd s).2.backend.verifier = s.backend.verifier := by
  have hlog : ∀ (b : OpenPgpVaultBackend W T) audit, { b with audit := audit }.verifier = b.verifier := by
    intro b audit
    funext p
    cases p <;> rfl
  have hlifts : Lifts (vaultBackend pf) cmd (fun _ ↦ True) (fun b b' ↦ b'.verifier = b.verifier) := {
    refl := fun _ ↦ rfl
    trans := fun h h' ↦ h'.trans h
    log := fun _ b ↦ hlog b _
    log_keeps := fun _ _ _ ↦ trivial
    asked := by
      intro c hasks b _
      refine keepsDigests_performCall ?_ ?_ b
      · rintro pw3 old new rfl
        exact hchange hasks.1
      · rintro new rfl
        exact hreset hasks
    prelude := fun _ _ _ _ _ ↦ trivial }
  exact hlifts.handle s trivial

/-! ## What a command does to the digests -/

/-- The attempt of a change comes to a comparison, with the right PIN. -/
def PinChange.Passes (pf : CardPlatform W T) (c : PinChange) (b : OpenPgpVaultBackend W T) : Prop :=
  ∀ old, c.old = some old → AttemptsLeft pf c.pin b ∧ old ∈ accepted pf b c.pin

theorem attempt_eq_ok_iff (ht : b.termination = false) :
    (c.attempt pf b).1 = .ok ⟨⟩ ↔ c.Passes pf b := by
  obtain ⟨p, old, new⟩ := c
  cases old with
  | none =>
    refine iff_of_true rfl ?_
    rintro old ⟨⟩
  | some old =>
    constructor
    · rintro h _ ⟨⟩
      have hrun : verifyPin pf p old b = (.ok ⟨⟩, (verifyPin pf p old b).2) := Prod.ext h rfl
      obtain ⟨count, w, hcharge, hle, hpin, -⟩ := verifyPin_eq_ok hrun
      refine ⟨⟨ht, fun hbricked ↦ ?_, count, w, hcharge, hle⟩, hpin⟩
      rw [verifyPin_bricked ht hbricked] at hrun
      cases (Prod.mk.inj hrun).1
    · intro h
      obtain ⟨⟨-, hlive, count, w, hcharge, hle⟩, hpin⟩ := h old rfl
      have hrun := verifyPin_success ht hlive hcharge (UInt32.not_lt.mpr hle) hpin
      exact congrArg Prod.fst hrun

/-- **Digests in memory** after a command that asks for a change. -/
theorem verifier_handle_requested (h : requestedChange pf s cmd = some c) (q : CardPin) :
    (handle (vaultBackend pf) cmd s).2.backend.verifier q = if q = c.pin ∧ (c.attempt pf s.backend).1 = .ok ⟨⟩
      then pinBytesToVerifierDigest pf c.new else s.backend.verifier q := by
  rw [← verifier_apply]
  rcases handle_requested h with ⟨e, t, happly, -, hrun⟩ | ⟨b, audit, t, happly, ht, -, hrun⟩
  · rw [hrun, happly]
  · rw [hrun, happly, ht]
    cases q <;> rfl

/-- Other commands keep them. -/
theorem verifier_handle_unrequested (h : requestedChange pf s cmd = none) :
    (handle (vaultBackend pf) cmd s).2.backend.verifier = s.backend.verifier := by
  by_cases hcmd : cmd.ins = 0x24 ∨ cmd.ins = 0x2C
  · obtain ⟨r, -, hrun⟩ := handle_unrequested hcmd h
    rw [hrun]
  · obtain ⟨hchange, hreset⟩ := not_or.mp hcmd
    exact verifier_handle_other hchange hreset s

/-! ## Strong PINs -/

/-- At least five characters, where the bytes are a text, and at least five bytes in any case. -/
def Strong (pin : Bytes) : Prop :=
  5 ≤ pin.length ∧ ∀ input, utf8 input = pin → 5 ≤ input.length

/-- Bytes in which five characters begin. -/
theorem strong_of_le_charCount {pin : Bytes} (h : 5 ≤ charCount pin) : Strong pin := by
  refine ⟨h.trans (charCount_le_length pin), ?_⟩
  rintro input rfl
  rwa [charCount_utf8] at h

/-- Every PIN that VERIFY accepts is strong. -/
def AllStrong (pf : CardPlatform W T) (b : OpenPgpVaultBackend W T) : Prop :=
  ∀ p, ∀ pin ∈ accepted pf b p, Strong pin

/-- If a step changes a PIN, all PINs with the digest of the new one are strong. -/
def Enforces (pf : CardPlatform W T) (s : Session (OpenPgpVaultBackend W T)) (a : SessionStep) : Prop :=
  ∀ cmd c, a = .apdu cmd → requestedChange pf s cmd = some c → c.Passes pf s.backend →
    ∀ pin, pinBytesToVerifierDigest pf pin = pinBytesToVerifierDigest pf c.new → Strong pin

theorem allStrong_congr {b' : OpenPgpVaultBackend W T} (h : b'.verifier = b.verifier) :
    AllStrong pf b' ↔ AllStrong pf b := by
  simp only [AllStrong, accepted, h]

/-- **Step.** -/
theorem allStrong_step_iff (hs : AllStrong pf s.backend) (a : SessionStep) :
    AllStrong pf (s.step (vaultBackend pf) a).backend ↔ Enforces pf s a := by
  cases a with
  | reset =>
    refine iff_of_true ((allStrong_congr rfl).mpr hs) ?_
    rintro cmd c ⟨⟩
  | apdu cmd =>
    rw [Session.step, handleApdu_snd]
    cases hc : requestedChange pf s cmd with
    | none =>
      refine iff_of_true ((allStrong_congr (verifier_handle_unrequested hc)).mpr hs) ?_
      rintro _ c ⟨⟩ hc'
      cases hc.symm.trans hc'
    | some c =>
      have hverifier := verifier_handle_requested hc
      have hattempt : (c.attempt pf s.backend).1 = .ok ⟨⟩ ↔ c.Passes pf s.backend :=
        attempt_eq_ok_iff (running_of_requested hc)
      constructor
      · rintro h _ c' ⟨⟩ hc' hpasses pin hpin
        obtain rfl := Option.some.inj (hc.symm.trans hc')
        refine h c.pin pin ?_
        rw [accepted, Set.mem_ofPred_eq, hverifier, if_pos ⟨rfl, hattempt.mpr hpasses⟩]
        exact hpin
      · intro h q pin hpin
        rw [accepted, Set.mem_ofPred_eq, hverifier] at hpin
        split_ifs at hpin with hnew
        · exact h cmd c rfl hc (hattempt.mp hnew.2) pin hpin
        · exact hs q pin hpin

/-- **The strength of PINs.** In a session in which every accepted PIN is strong, this stays so at
every point of a run exactly if every PIN that is set in the run is strong, with all others of its
digest. -/
theorem allStrong_iff {s : Session (OpenPgpVaultBackend W T)} (hs : AllStrong pf s.backend)
    (steps : List SessionStep) :
    (∀ pre, pre <+: steps → AllStrong pf (s.run (vaultBackend pf) pre).backend) ↔
      ∀ pre a, pre ++ [a] <+: steps → Enforces pf (s.run (vaultBackend pf) pre) a :=
  prefixes_iff (P := fun s : Session _ ↦ AllStrong pf s.backend) (fun a hs ↦ allStrong_step_iff hs a) steps hs

/-! ## A PIN of one byte -/

/-- A digest of the bench card that begins with `12345` is one of PINs that do. -/
theorem strong_of_ofBytes {pin : Bytes} (rest : Bytes)
    (h : Block.ofBytes 32 pin = Block.ofBytes 32 ([0x31, 0x32, 0x33, 0x34, 0x35] ++ rest)) : Strong pin := by
  have htake := congrArg (fun d : Block 32 ↦ d.toBytes.take 5) h
  simp only [Block.toBytes, Block.ofBytes] at htake
  rcases pin with _ | ⟨b₁, _ | ⟨b₂, _ | ⟨b₃, _ | ⟨b₄, _ | ⟨b₅, pin⟩⟩⟩⟩⟩
  · simp at htake
  · simp at htake
  · simp at htake
  · simp at htake
  · simp at htake
  · obtain ⟨rfl, rfl, rfl, rfl, rfl⟩ : b₁ = 0x31 ∧ b₂ = 0x32 ∧ b₃ = 0x33 ∧ b₄ = 0x34 ∧ b₅ = 0x35 := by
      simpa using htake
    refine strong_of_le_charCount ?_
    have hfirst : charCount [0x31, 0x32, 0x33, 0x34, 0x35] = 5 := by decide
    have happend := charCount_append [0x31, 0x32, 0x33, 0x34, 0x35] pin
    rw [hfirst] at happend
    exact (Nat.le_add_right 5 _).trans (Nat.le_of_eq happend.symm)

theorem allStrong_bench {b : OpenPgpVaultBackend Memory ℕ}
    (h : ∀ p, b.verifier p = .ofBytes 32 (benchPin p)) : AllStrong benchPlatform b := by
  intro p pin hpin
  rw [accepted, Set.mem_ofPred_eq, h] at hpin
  cases p with
  | user => exact strong_of_ofBytes [] hpin
  | admin => exact strong_of_ofBytes [0x36, 0x37, 0x38] hpin


/-- PW1 becomes `12345` once more. -/
theorem allStrong_unchanged : ∃ s : Session (OpenPgpVaultBackend Memory ℕ),
    requestedChange benchPlatform s (changePw1 (benchPin .user))
        = some ⟨.user, some (benchPin .user), benchPin .user⟩ ∧
      AllStrong benchPlatform
        (s.run (vaultBackend benchPlatform) [.apdu (changePw1 (benchPin .user))]).backend := by
  obtain ⟨w₀, h₀⟩ : ∃ w₀, benchPlatform.doStore.write 0x93 [0x00, 0x00, 0x00] benchStorage = (.ok ⟨⟩, w₀) :=
    ⟨_, benchCounted_run 0⟩
  have hready := benchReady_opened h₀
  have hrequested := requested_changePw1 h₀ rfl (rfl : (benchPin .user).length = 5) (by decide)
  refine ⟨_, hrequested, (allStrong_iff (allStrong_bench hready.verifier) _).mpr ?_ _ List.prefix_rfl⟩
  intro pre a hpre
  cases pre with
  | nil =>
    obtain ⟨rfl, -⟩ := List.cons_prefix_cons.mp hpre
    rintro _ c ⟨⟩ hc - pin hpin
    obtain rfl := Option.some.inj (hrequested.symm.trans hc)
    exact strong_of_ofBytes [] hpin
  | cons x pre =>
    obtain ⟨rfl, hrest⟩ := List.cons_prefix_cons.mp hpre
    have hne := List.append_ne_nil_of_right_ne_nil pre (List.cons_ne_nil a [])
    exact absurd (List.prefix_nil.mp hrest) hne

/-- **A PIN that is too short.** PW1 becomes `1`, and VERIFY accepts it. -/
theorem short_pin_accepted : ∃ s t : Session (OpenPgpVaultBackend Memory ℕ),
    AllStrong benchPlatform s.backend ∧
      handle (vaultBackend benchPlatform) (changePw1 [0x31, 0xFF, 0xFF, 0xFF, 0xFF]) s = (.ok .okEmpty, t) ∧
      (handle (vaultBackend benchPlatform)
        ⟨0x00, 0x20, 0x00, 0x81, .truncated [0x31], none⟩ t).1.isOk = true ∧
      ¬ AllStrong benchPlatform (s.run (vaultBackend benchPlatform)
        [.apdu (changePw1 [0x31, 0xFF, 0xFF, 0xFF, 0xFF])]).backend := by
  obtain ⟨w₀, h₀⟩ : ∃ w₀, benchPlatform.doStore.write 0x93 [0x00, 0x00, 0x00] benchStorage = (.ok ⟨⟩, w₀) :=
    ⟨_, benchCounted_run 0⟩
  have hready := benchReady_opened h₀
  have hlen : [0x31, 0xFF, 0xFF, 0xFF, (0xFF : UInt8)].length = 5 := rfl
  have hrequested := requested_changePw1 h₀ rfl hlen (by decide)
  obtain ⟨t, hrun, hleft⟩ := changed_bench h₀ hlen (by decide)
  have hverifier := verifier_of_changed hrequested hrun
  have hmem : [0x31] ∈ accepted benchPlatform t.backend .user := by
    rw [accepted, Set.mem_ofPred_eq, hverifier]
    rfl
  refine ⟨_, t, allStrong_bench hready.verifier, hrun, (verify_isOk_iff rfl rfl hleft).mpr hmem, ?_⟩
  intro hstrong
  rw [Session.run, List.foldl_cons, List.foldl_nil, Session.step, handleApdu_snd, hrun] at hstrong
  have hshort := (hstrong .user _ hmem).1
  revert hshort
  decide

end Galdralag.OpenPgp
