import Galdralag.OpenPgp.RetryCounter
import Galdralag.OpenPgp.Verification

/-!
# Flags and the last attempt

VERIFY raises the flag of its password when the backend accepts the data, and leaves all flags as
they are when it does not. So a flag tells that some VERIFY succeeded, and not that the last one
did: a wrong PIN takes nothing back. Nor does it tell that a PIN was presented, since VERIFY without
data is an attempt with the empty PIN.
-/

set_option linter.all false

namespace Galdralag.OpenPgp

variable {β : Type} {bk : OpenPgpBackend β} {cmd : CommandApdu} {s : Session β} {pw : Password}

/-! ## VERIFY -/

/-- The reference of a password in P2. -/
def Password.reference : Password → UInt8
  | .pw1Sign => 0x81
  | .pw1Other => 0x82
  | .pw3 => 0x83

/-- The call that verifies a password. -/
def Password.verification (pin : Bytes) : Password → BackendCall
  | .pw1Sign => .verifyPw1Sign pin
  | .pw1Other => .verifyPw1Other pin
  | .pw3 => .verifyPw3 pin

/-- VERIFY of a password. -/
def CommandApdu.Verifies (cmd : CommandApdu) (pw : Password) : Prop :=
  cmd.ins = 0x20 ∧ cmd.p2 = pw.reference

instance : Decidable (cmd.Verifies pw) := inferInstanceAs (Decidable (_ ∧ _))

/-- VERIFY with a PIN for a password. -/
def CommandApdu.Presents (cmd : CommandApdu) (pw : Password) : Prop :=
  cmd.Verifies pw ∧ cmd.data.toBytes ≠ []

instance : Decidable (cmd.Presents pw) := inferInstanceAs (Decidable (_ ∧ _))

/-- The backend is not terminated, and takes the data of a command for the password. -/
def Accepts (bk : OpenPgpBackend β) (b : β) (cmd : CommandApdu) (pw : Password) : Prop :=
  bk.isTerminationState b = false ∧
    (bk.perform (pw.verification cmd.data.toBytes) b).1.isOk = true

/-- What VERIFY does to the flags, and whether it is carried out. -/
structure Confirms (s : Session β) (pw : Password) (accepted : Prop)
    (r : Except ResponseApdu ResponseApdu × Session β) : Prop where
  completed : r.1.isOk = true ↔ accepted
  flag : r.2.card.verified pw = true ↔ accepted ∨ s.card.verified pw = true
  others : ∀ q ≠ pw, r.2.card.verified q = s.card.verified q

/-- A call that verifies, with what follows it. -/
theorem confirms_call {c : BackendCall} {f : CardState → CardState} {audit : UInt32}
    (hown : ∀ st, (f st).verified pw = true)
    (hothers : ∀ st, ∀ q ≠ pw, (f st).verified q = st.verified q) :
    Confirms s pw ((bk.perform c s.backend).1.isOk = true) ((do
      let _ ← call bk c
      setCard f
      logEvent bk audit
      pure ResponseApdu.okEmpty : Handler β ResponseApdu) s) := by
  rcases h : bk.perform c s.backend with ⟨e | a, b⟩
  · have hfalse : ¬ (Except.error e : Except OpenPgpBackendError c.Result).isOk = true := by
      rintro ⟨⟩
    rw [Fallible.bind_of_error (call_error h)]
    refine ⟨iff_of_false ?_ hfalse, ?_, fun _ _ ↦ rfl⟩
    · rintro ⟨⟩
    · rw [or_iff_right hfalse]
      rfl
  · rw [Fallible.bind_of_ok (call_ok h)]
    exact ⟨iff_of_true rfl rfl, iff_of_true (hown s.card) (.inl rfl), hothers s.card⟩

/-- **VERIFY** raises the flag of its password, or none. -/
theorem confirms_verify (bk : OpenPgpBackend β) (s : Session β) (h : cmd.Verifies pw) :
    Confirms s pw (Accepts bk s.backend cmd pw) (handle bk cmd s) := by
  obtain ⟨hins, hp2⟩ := h
  rw [Accepts]
  cases ht : bk.isTerminationState s.backend with
  | true =>
    rw [handle_terminated ht]
    have hfalse : ¬ (true = false ∧
        (bk.perform (pw.verification cmd.data.toBytes) s.backend).1.isOk = true) := by
      rintro ⟨⟨⟩, -⟩
    refine ⟨iff_of_false ?_ hfalse, ?_, fun _ _ ↦ rfl⟩
    · rintro ⟨⟩
    · rw [or_iff_right hfalse]
  | false =>
    have hi : Instruction.ofByte cmd.ins = some .verify := by rw [hins]; rfl
    rw [handle_run ht hi, Instruction.handler, handleVerify]
    dsimp only
    rw [hp2, eq_self_iff_true, true_and]
    cases pw with
    | pw1Sign =>
      refine confirms_call (c := .verifyPw1Sign _) (fun _ ↦ rfl) fun st q hq ↦ ?_
      cases q <;> first | exact absurd rfl hq | rfl
    | pw1Other =>
      refine confirms_call (c := .verifyPw1Other _) (fun _ ↦ rfl) fun st q hq ↦ ?_
      cases q <;> first | exact absurd rfl hq | rfl
    | pw3 =>
      refine confirms_call (c := .verifyPw3 _) (fun _ ↦ rfl) fun st q hq ↦ ?_
      cases q <;> first | exact absurd rfl hq | rfl

/-- Any other command raises no flag. -/
theorem lowers_handle (bk : OpenPgpBackend β) (s : Session β) (h : ∀ pw, ¬ cmd.Verifies pw) :
    Lowers s (handle bk cmd s).2 := by
  rcases handle_cases bk cmd s with ⟨sw, hh⟩ | ⟨ins, hins, hh⟩
  · rw [hh]
    exact .refl s
  rw [hh]
  by_cases hverify : ins = .verify
  · -- a reference to no password
    subst hverify
    have hins : cmd.ins = 0x20 := Instruction.encoded_of_ofByte hins
    have hsign : cmd.p2 ≠ 0x81 := fun hp2 ↦ h .pw1Sign ⟨hins, hp2⟩
    have hother : cmd.p2 ≠ 0x82 := fun hp2 ↦ h .pw1Other ⟨hins, hp2⟩
    have hadmin : cmd.p2 ≠ 0x83 := fun hp2 ↦ h .pw3 ⟨hins, hp2⟩
    rw [Instruction.handler, handleVerify]
    dsimp only
    rw [if_neg hsign, if_neg hother, if_neg hadmin]
    exact .refl s
  · by_cases hpso : ins = .pso
    · subst hpso
      exact handlePso_lowers s
    · exact (handler_within hverify hpso s).lowers

/-! ## The last attempt -/

/-- A session, and whether the last VERIFY with a PIN in it succeeded, for each password. -/
structure Watched (β : Type) where
  session : Session β
  last : Password → Option Bool

namespace Watched

/-- A new session. -/
def new (b : β) : Watched β := ⟨.new b, fun _ ↦ none⟩

/-- One step. A reset begins another session. -/
def step (bk : OpenPgpBackend β) (w : Watched β) : SessionStep → Watched β
  | .apdu cmd => ⟨w.session.step bk (.apdu cmd), fun pw ↦
      if cmd.Presents pw then some (handle bk cmd w.session).1.isOk else w.last pw⟩
  | .reset => ⟨w.session.step bk .reset, fun _ ↦ none⟩

/-- A whole run. -/
def run (bk : OpenPgpBackend β) (w : Watched β) (steps : List SessionStep) : Watched β :=
  steps.foldl (step bk) w

theorem session_step (bk : OpenPgpBackend β) (w : Watched β) (a : SessionStep) :
    (w.step bk a).session = w.session.step bk a := by
  cases a <;> rfl

/-- Watching a session does not change it. -/
theorem session_run (bk : OpenPgpBackend β) (w : Watched β) (steps : List SessionStep) :
    (w.run bk steps).session = w.session.run bk steps := by
  induction steps generalizing w with
  | nil => rfl
  | cons a steps ih => exact (ih (w.step bk a)).trans (by rw [session_step]; rfl)

/-- A flag is set only if the last VERIFY with a PIN succeeded. -/
def Truthful (w : Watched β) : Prop :=
  ∀ pw, w.session.card.verified pw = true → w.last pw = some true

/-- A VERIFY with a PIN that is not accepted meets no flag that is set, and one without data that is
accepted comes after a PIN that was. -/
def Careful (bk : OpenPgpBackend β) (w : Watched β) (a : SessionStep) : Prop :=
  ∀ cmd pw, a = .apdu cmd → cmd.Verifies pw →
    (cmd.data.toBytes ≠ [] → ¬ Accepts bk w.session.backend cmd pw →
      w.session.card.verified pw = false) ∧
    (cmd.data.toBytes = [] → Accepts bk w.session.backend cmd pw → w.last pw = some true)

theorem truthful_new (b : β) : (new b).Truthful := by
  intro pw hpw
  cases pw <;> cases hpw

/-- **Step.** After a truthful state the flags are truthful exactly if the step is careful. -/
theorem truthful_step_iff {w : Watched β} (hw : w.Truthful) (bk : OpenPgpBackend β)
    (a : SessionStep) : (w.step bk a).Truthful ↔ w.Careful bk a := by
  cases a with
  | reset =>
    refine iff_of_true (fun pw hpw ↦ ?_) ?_
    · cases pw <;> cases hpw
    · rintro cmd pw ⟨⟩
  | apdu cmd =>
    have hcard : (w.step bk (.apdu cmd)).session.card = (handle bk cmd w.session).2.card := by
      rw [session_step, Session.step, handleApdu_snd]
    have hlast : ∀ pw, (w.step bk (.apdu cmd)).last pw
        = if cmd.Presents pw then some (handle bk cmd w.session).1.isOk else w.last pw :=
      fun _ ↦ rfl
    by_cases hverify : ∃ pw, cmd.Verifies pw
    · obtain ⟨pw, hpw⟩ := hverify
      have hconfirms := confirms_verify bk w.session hpw
      -- no other password has this reference
      have honly : ∀ q, cmd.Verifies q → q = pw := by
        intro q hq
        have href := hq.2.symm.trans hpw.2
        revert href
        cases q <;> cases pw <;> decide
      have htruthful : (w.step bk (.apdu cmd)).Truthful ↔
          (Accepts bk w.session.backend cmd pw ∨ w.session.card.verified pw = true →
            (w.step bk (.apdu cmd)).last pw = some true) := by
        rw [← hconfirms.flag, ← hcard]
        refine ⟨fun h ↦ h pw, fun h q hflag ↦ ?_⟩
        by_cases hq : q = pw
        · rw [hq] at hflag ⊢
          exact h hflag
        · rw [hlast, if_neg fun hp ↦ hq (honly q hp.1)]
          rw [hcard, hconfirms.others q hq] at hflag
          exact hw q hflag
      have hcareful : w.Careful bk (.apdu cmd) ↔
          (cmd.data.toBytes ≠ [] → ¬ Accepts bk w.session.backend cmd pw →
            w.session.card.verified pw = false) ∧
          (cmd.data.toBytes = [] → Accepts bk w.session.backend cmd pw → w.last pw = some true) := by
        refine ⟨fun h ↦ h cmd pw rfl hpw, ?_⟩
        rintro h _ q ⟨⟩ hq
        rwa [honly q hq]
      rw [htruthful, hcareful, hlast]
      by_cases hdata : cmd.data.toBytes = []
      · -- the attempt is not remembered
        rw [if_neg fun hp ↦ hp.2 hdata]
        constructor
        · exact fun h ↦ ⟨fun hne ↦ absurd hdata hne, fun _ haccepts ↦ h (.inl haccepts)⟩
        · rintro ⟨-, h⟩ (haccepts | hflag)
          · exact h hdata haccepts
          · exact hw pw hflag
      · rw [if_pos ⟨hpw, hdata⟩, Option.some_inj, hconfirms.completed, ← Bool.not_eq_true]
        constructor
        · exact fun h ↦ ⟨fun _ hrefused hflag ↦ hrefused (h (.inr hflag)),
            fun hempty ↦ absurd hempty hdata⟩
        · rintro ⟨h, -⟩ (haccepts | hflag)
          · exact haccepts
          · by_contra hrefused
            exact h hdata hrefused hflag
    · have hnone : ∀ pw, ¬ cmd.Verifies pw := fun pw hpw ↦ hverify ⟨pw, hpw⟩
      refine iff_of_true (fun pw hpw ↦ ?_) ?_
      · rw [hlast, if_neg fun hp ↦ hnone pw hp.1]
        rw [hcard] at hpw
        exact hw pw (lowers_handle bk w.session hnone pw hpw)
      · rintro _ pw ⟨⟩ hpw
        exact absurd hpw (hnone pw)

/-- **Flags and the last attempt.** In a run of commands and resets over any backend, at every point
each flag is set only if the last VERIFY with a PIN for its password succeeded, exactly if every
step of the run is careful. -/
theorem flags_truthful_iff (bk : OpenPgpBackend β) (b : β) (steps : List SessionStep) :
    (∀ pre, pre <+: steps → ((new b).run bk pre).Truthful) ↔
      ∀ pre a, pre ++ [a] <+: steps → ((new b).run bk pre).Careful bk a := by
  have hstep : ∀ {w : Watched β} (a : SessionStep), w.Truthful →
      ((w.step bk a).Truthful ↔ w.Careful bk a) := fun a hw ↦ truthful_step_iff hw bk a
  exact prefixes_iff hstep steps (truthful_new b)

end Watched

/-! ## A flag that stays -/

/-- VERIFY of PW3 with the PIN of PW1. -/
def wrongAdminVerify : CommandApdu :=
  ⟨0x00, 0x20, 0x00, 0x83, .truncated (benchPin .user), none⟩

/-- It is refused, and the flag stays. -/
theorem BenchReady.wrongAdmin {w₀ : Memory} {s : Session (OpenPgpVaultBackend Memory ℕ)}
    (h : BenchReady w₀ 0 s) :
    (handle (vaultBackend benchPlatform) wrongAdminVerify s).1.isOk = false ∧
      (handle (vaultBackend benchPlatform) wrongAdminVerify s).2.card = s.card := by
  have hinc := benchIncrement .admin s.backend.world
  rw [h.adminCell] at hinc
  have hle : ¬ (s.backend.machine .admin).config.maxAttempts < 1 := by
    rw [h.config]
    decide
  have hpin : pinBytesToVerifierDigest benchPlatform wrongAdminVerify.data.toBytes
      ≠ s.backend.verifier .admin := by
    rw [h.verifier]
    decide +kernel
  have hattempt := verifyPin_failed h.running (h.live .admin) hinc hle hpin
  have hins : wrongAdminVerify.ins = 0x20 := rfl
  rw [verify_error hins rfl h.running hattempt]
  exact ⟨rfl, rfl⟩

theorem flag_kept_of_counted {w₀ : Memory} (h₀ : benchPlatform.doStore.write 0x93
    [0x00, 0x00, 0x00] benchStorage = (.ok ⟨⟩, w₀)) : ∃ w : Watched (OpenPgpVaultBackend Memory ℕ),
    (Watched.new (benchOpened w₀)).run (vaultBackend benchPlatform)
      [.apdu adminVerify, .apdu wrongAdminVerify] = w ∧
    w.session.card.verified .pw3 = true ∧ w.last .pw3 = some false := by
  obtain ⟨hready, hflag⟩ := (benchReady_opened h₀).admin
  obtain ⟨hrefused, hcard⟩ := hready.wrongAdmin
  have hstep : Session.step (vaultBackend benchPlatform) (.new (benchOpened w₀)) (.apdu adminVerify)
      = (handle (vaultBackend benchPlatform) adminVerify (.new (benchOpened w₀))).2 :=
    handleApdu_snd _ _ _
  have hpresents : wrongAdminVerify.Presents .pw3 := by decide
  refine ⟨_, rfl, ?_, ?_⟩
  · rw [Watched.session_run, Session.run, List.foldl_cons, List.foldl_cons, List.foldl_nil,
      Watched.new, hstep, Session.step, handleApdu_snd, hcard]
    exact hflag
  · rw [Watched.run, List.foldl_cons, List.foldl_cons, List.foldl_nil, Watched.step]
    dsimp only
    rw [if_pos hpresents, Watched.session_step, Watched.new, hstep, hrefused]

/-- The flag of PW3 stays set after a VERIFY with a wrong PIN. -/
theorem wrongAdminVerify_keeps_flag : ∃ w : Watched (OpenPgpVaultBackend Memory ℕ),
    (Watched.new (benchOpened (benchPlatform.doStore.write 0x93 [0x00, 0x00, 0x00] benchStorage).2)).run
        (vaultBackend benchPlatform) [.apdu adminVerify, .apdu wrongAdminVerify] = w ∧
      w.session.card.verified .pw3 = true ∧ w.last .pw3 = some false :=
  flag_kept_of_counted (benchCounted_run 0)

end Galdralag.OpenPgp
