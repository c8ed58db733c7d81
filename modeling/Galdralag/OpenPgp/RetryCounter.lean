import Galdralag.OpenPgp.SignatureCounter
import Galdralag.OpenPgp.Termination

/-!
# Tries after a reset of PW1

RESET RETRY COUNTER and CHANGE REFERENCE DATA put a new policy machine in place of the old one, and
a new counter object over the same cell. The new machine has forgotten everything, but the cell has
not: the wrong attempts it counted before the reset are still charged. So a reset gives all tries
back only where none was used.

PW1 is presented by VERIFY, in both modes, and as the old PIN of CHANGE REFERENCE DATA.
-/

set_option linter.all false

namespace Galdralag.OpenPgp

variable {W T : Type} {pf : CardPlatform W T}

/-! ## Presenting PW1 -/

/-- The PW1 that a command presents, if it gets as far as an attempt. -/
def presentedPin (pf : CardPlatform W T) (b : OpenPgpVaultBackend W T) (cmd : CommandApdu) :
    Option Bytes :=
  let pinLen := maxPinLength pf b .user
  if cmd.ins = 0x20 ∧ (cmd.p2 = 0x81 ∨ cmd.p2 = 0x82) then some cmd.data.toBytes
  else if (cmd.ins = 0x24 ∧ cmd.p1 = 0x00 ∧ cmd.p2 = 0x81) ∧ (pinLen ≠ 0 ∧ pinLen ≤ 127) ∧
      cmd.data.length = pinLen * 2 ∧ trimOpenpgpPinPadding (cmd.data.toBytes.drop pinLen) ≠ [] then
    some (trimOpenpgpPinPadding (cmd.data.toBytes.take pinLen))
  else none

section Presented

variable {s : Session (OpenPgpVaultBackend W T)} {b' : OpenPgpVaultBackend W T} {cmd : CommandApdu}
  {pin newPin : Bytes} {e : OpenPgpBackendError}

/-- A change of PW1 fails with its attempt. -/
theorem changePin_error {b : OpenPgpVaultBackend W T} (ht : b.termination = false)
    (hlen : newPin.length ≤ maxPinLength pf b .user)
    (h : verifyPin pf .user pin b = (.error e, b')) :
    changePin pf .user pin newPin b = (.error e, b') := by
  have hrequire : (Fallible.require (newPin.length ≤ maxPinLength pf b .user)
      (.status .incorrectParameters) : VaultM W T PUnit) b = (.ok ⟨⟩, b) :=
    Fallible.require_eq_ok.mpr ⟨hlen, rfl⟩
  rw [changePin, Fallible.bind_of_ok (ensureNotTerminated_run ht), Fallible.gets_bind,
    Fallible.bind_of_ok hrequire, Fallible.bind_of_error h]

/-- A command whose attempt fails is answered with the error of the attempt. -/
theorem handle_presented (ht : s.backend.termination = false)
    (hp : presentedPin pf s.backend cmd = some pin)
    (h : verifyPin pf .user pin s.backend = (.error e, b')) :
    ∃ c, handle (vaultBackend pf) cmd s = (.error (mapErr e), s.performed c false b') := by
  have hterm : (vaultBackend pf).isTerminationState s.backend = false := ht
  rw [presentedPin] at hp
  split_ifs at hp with hverify hchange
  · -- VERIFY in one of its two modes
    obtain ⟨hins, hp2⟩ := hverify
    obtain rfl := Option.some.inj hp
    rcases hp2 with hp2 | hp2
    · exact ⟨_, handle_verifySign_error hterm hins hp2 h⟩
    · exact ⟨_, handle_verifyOther_error hterm hins hp2 h⟩
  · -- the old PIN of CHANGE REFERENCE DATA
    obtain ⟨⟨hins, hp1, hp2⟩, hlen, hdata, hnew⟩ := hchange
    obtain rfl := Option.some.inj hp
    have hfits : (trimOpenpgpPinPadding (cmd.data.toBytes.drop (maxPinLength pf s.backend .user))).length
        ≤ maxPinLength pf s.backend .user := by
      refine (length_trimOpenpgpPinPadding_le _).trans ?_
      have hbytes : cmd.data.toBytes.length = maxPinLength pf s.backend .user * 2 := hdata
      rw [List.length_drop, hbytes]
      omega
    exact ⟨_, handle_changeUser_error hterm ⟨hins, hp1, hp2⟩ rfl hlen hdata hnew
      (changePin_error ht hfits h)⟩

end Presented

/-! ## Counting -/

/-- A card that is not terminated, with a machine that is not bricked and a count of `n`. -/
structure Counting (value : W → UInt32) (max : UInt32) (n : ℕ) (b : OpenPgpVaultBackend W T) :
    Prop where
  running : b.termination = false
  live : (b.machine .user).state ≠ .bricked
  config : (b.machine .user).config.maxAttempts = max
  count : (value b.world).toNat = n

/-- The count after one more attempt. -/
def charged (n : ℕ) : ℕ := min (n + 1) (2 ^ 32 - 1)

section Counting

variable {value : W → UInt32} {max : UInt32} {n : ℕ} {b : OpenPgpVaultBackend W T} {pin : Bytes}
  (hpersist : pf.userCounter.Persistent value) (h : Counting value max n b)
include h

theorem Counting.toNat_charge :
    (saturatingAdd (value b.world) 1).toNat = charged n := by
  rw [toNat_saturatingAdd, h.count]
  rfl

include hpersist

/-- A wrong PIN within the limit is answered with the tries that are left. -/
theorem Counting.retry (hpin : pinBytesToVerifierDigest pf pin ≠ b.userVerifier)
    (hle : charged n ≤ max.toNat) : ∃ x b',
    verifyPin pf .user pin b = (.error (.status (.verificationFailedRetries x)), b') ∧
      Counting value max (charged n) b' := by
  have hcharge := h.toNat_charge
  have hgt : ¬ (b.machine .user).config.maxAttempts < saturatingAdd (value b.world) 1 := by
    rw [h.config, UInt32.not_lt, UInt32.le_iff_toNat_le, hcharge]
    exact hle
  refine ⟨_, _, verifyPin_failed h.running h.live (hpersist.increment_run b.world) hgt hpin, ?_⟩
  refine ⟨h.running, ?_, h.config, ?_⟩
  · rintro ⟨⟩
  · rw [← hcharge]
    exact congrArg UInt32.toNat (hpersist.value_increment b.world)

/-- An attempt over the limit blocks the card. -/
theorem Counting.block (hlt : max.toNat < charged n) :
    ∃ b', verifyPin pf .user pin b = (.error (.status .authMethodBlocked), b') := by
  have hgt : (b.machine .user).config.maxAttempts < saturatingAdd (value b.world) 1 := by
    rw [h.config, UInt32.lt_iff_toNat_lt, h.toNat_charge]
    exact hlt
  exact ⟨_, verifyPin_breach h.running h.live (hpersist.increment_run b.world) hgt⟩

end Counting

/-! ## Wrong tries in a row -/

/-- Commands that present wrong PINs for PW1 one after the other. -/
def Session.WrongTries (pf : CardPlatform W T) :
    Session (OpenPgpVaultBackend W T) → List CommandApdu → Prop
  | _, [] => True
  | s, cmd :: tries =>
    (∃ pin, presentedPin pf s.backend cmd = some pin ∧
      pinBytesToVerifierDigest pf pin ≠ s.backend.userVerifier) ∧
    Session.WrongTries pf (handleApdu (vaultBackend pf) cmd s).2 tries

/-- The answers to commands one after the other. -/
def Session.answers {β : Type} (bk : OpenPgpBackend β) : Session β → List CommandApdu →
    List ResponseApdu
  | _, [] => []
  | s, cmd :: cmds => (handleApdu bk cmd s).1 :: Session.answers bk (handleApdu bk cmd s).2 cmds

/-- A wrong PIN that did not block the card. -/
def ResponseApdu.IsRetry (r : ResponseApdu) : Prop := ∃ x, r = .error (.verificationFailedRetries x)

/-- Every try but the last leaves tries, and the last one blocks the card. -/
def Session.BlocksAtLast (pf : CardPlatform W T) (s : Session (OpenPgpVaultBackend W T))
    (tries : List CommandApdu) : Prop :=
  (∀ r ∈ (s.answers (vaultBackend pf) tries).dropLast, r.IsRetry) ∧
    (s.answers (vaultBackend pf) tries).getLast? = some (.error .authMethodBlocked)

theorem ResponseApdu.not_isRetry_blocked : ¬ (ResponseApdu.error .authMethodBlocked).IsRetry := by
  rintro ⟨x, hx⟩
  exact absurd (congrArg ResponseApdu.sw1 hx) (by rintro ⟨⟩)

section Answers

variable {value : W → UInt32} {max : UInt32} {n : ℕ} {s : Session (OpenPgpVaultBackend W T)}
  {cmd : CommandApdu} {tries : List CommandApdu} (hpersist : pf.userCounter.Persistent value)
  (h : Counting value max n s.backend) (hwrong : s.WrongTries pf (cmd :: tries))
include hpersist h hwrong

theorem Counting.answer_retry (hle : charged n ≤ max.toNat) :
    (handleApdu (vaultBackend pf) cmd s).1.IsRetry ∧
      Counting value max (charged n) (handleApdu (vaultBackend pf) cmd s).2.backend := by
  obtain ⟨⟨pin, hpresented, hpin⟩, -⟩ := hwrong
  obtain ⟨x, b', hverify, hcounting⟩ := h.retry hpersist hpin hle
  obtain ⟨c, hrun⟩ := handle_presented h.running hpresented hverify
  rw [handleApdu, hrun]
  exact ⟨⟨x, rfl⟩, hcounting⟩

theorem Counting.answer_block (hlt : max.toNat < charged n) :
    (handleApdu (vaultBackend pf) cmd s).1 = .error .authMethodBlocked := by
  obtain ⟨⟨pin, hpresented, hpin⟩, -⟩ := hwrong
  obtain ⟨b', hverify⟩ : ∃ b', verifyPin pf .user pin s.backend = (.error _, b') := h.block hpersist hlt
  obtain ⟨c, hrun⟩ := handle_presented h.running hpresented hverify
  rw [handleApdu, hrun]
  rfl

end Answers

/-- One try before others. -/
theorem blocksAtLast_cons_cons {s : Session (OpenPgpVaultBackend W T)} {cmd next : CommandApdu}
    {tries : List CommandApdu} : s.BlocksAtLast pf (cmd :: next :: tries) ↔
      (handleApdu (vaultBackend pf) cmd s).1.IsRetry ∧
        (handleApdu (vaultBackend pf) cmd s).2.BlocksAtLast pf (next :: tries) := by
  simp only [Session.BlocksAtLast, Session.answers, List.dropLast_cons_cons, List.forall_mem_cons,
    List.getLast?_cons_cons, and_assoc]

/-- **Tries and count.** The last of some wrong tries in a row is the one that blocks the card
exactly when it is the first whose charge exceeds the limit. -/
theorem Counting.blocksAtLast_iff {value : W → UInt32} {max : UInt32}
    (hpersist : pf.userCounter.Persistent value) {tries : List CommandApdu} :
    ∀ {n : ℕ} {cmd : CommandApdu} {s : Session (OpenPgpVaultBackend W T)},
      Counting value max n s.backend → s.WrongTries pf (cmd :: tries) →
      (s.BlocksAtLast pf (cmd :: tries) ↔
        (tries = [] ∨ min (n + tries.length) (2 ^ 32 - 1) ≤ max.toNat) ∧
          max.toNat < charged (n + tries.length)) := by
  induction tries with
  | nil =>
    intro n cmd s h hwrong
    have hblocks : s.BlocksAtLast pf [cmd] ↔
        (handleApdu (vaultBackend pf) cmd s).1 = .error .authMethodBlocked := by
      simp [Session.BlocksAtLast, Session.answers]
    have hadd : n + ([] : List CommandApdu).length = n := rfl
    rw [hblocks, hadd, and_iff_right (.inl rfl)]
    constructor
    · intro hanswer
      by_contra hlt
      obtain ⟨hretry, -⟩ := h.answer_retry hpersist hwrong (not_lt.mp hlt)
      rw [hanswer] at hretry
      exact ResponseApdu.not_isRetry_blocked hretry
    · exact fun hlt ↦ h.answer_block hpersist hwrong hlt
  | cons next tries ih =>
    intro n cmd s h hwrong
    rw [blocksAtLast_cons_cons, List.length_cons]
    by_cases hle : charged n ≤ max.toNat
    · obtain ⟨hretry, hnext⟩ := h.answer_retry hpersist hwrong hle
      rw [and_iff_right hretry, ih hnext hwrong.2]
      have hnil : tries = [] ↔ tries.length = 0 := List.length_eq_zero_iff.symm
      have hcons : ¬ next :: tries = [] := List.cons_ne_nil _ _
      simp only [hnil, hcons, false_or, charged] at hle ⊢
      omega
    · have hanswer := h.answer_block hpersist hwrong (not_le.mp hle)
      refine iff_of_false ?_ ?_
      · rintro ⟨hretry, -⟩
        rw [hanswer] at hretry
        exact ResponseApdu.not_isRetry_blocked hretry
      · rintro ⟨hnil | hmin, -⟩
        · cases hnil
        · rw [charged] at hle
          omega

/-! ## Resetting -/

/-- The commands that give PW1 a new machine. -/
def CommandApdu.ResetsPw1 (cmd : CommandApdu) : Prop :=
  cmd.ins = 0x2C ∨ (cmd.ins = 0x24 ∧ cmd.p2 = 0x81)

section Commands

variable {cmd : CommandApdu} {β : Type} {bk : OpenPgpBackend β} {s t : Session β} {r : ResponseApdu}

/-- RESET RETRY COUNTER that was carried out has made its two calls. -/
theorem handleResetRetryCounter_ok (h : handleResetRetryCounter bk cmd s = (.ok r, t)) :
    ∃ newPin b₁ b₂, bk.perform (.setPw1VerifierAdminOnly newPin) s.backend = (.ok ⟨⟩, b₁) ∧
      bk.perform .resetPw1RetryCounter b₁ = (.ok ⟨⟩, b₂) ∧ t.backend = bk.logEvent 0x2C0081 b₂ := by
  obtain ⟨_, s₁, hp1, h₁⟩ := Fallible.bind_eq_ok.mp h
  obtain ⟨-, rfl⟩ := Fallible.require_eq_ok.mp hp1
  obtain ⟨_, s₂, hp2, h₂⟩ := Fallible.bind_eq_ok.mp h₁
  obtain ⟨-, rfl⟩ := Fallible.require_eq_ok.mp hp2
  obtain ⟨_, s₃, hflag, h₃⟩ := Fallible.bind_eq_ok.mp h₂
  obtain ⟨-, rfl⟩ := Fallible.require_eq_ok.mp hflag
  rw [Fallible.gets_bind] at h₃
  obtain ⟨_, s₄, hmax, h₄⟩ := Fallible.bind_eq_ok.mp h₃
  obtain ⟨-, rfl⟩ := Fallible.require_eq_ok.mp hmax
  obtain ⟨_, s₅, hlen, h₅⟩ := Fallible.bind_eq_ok.mp h₄
  obtain ⟨-, rfl⟩ := Fallible.require_eq_ok.mp hlen
  obtain ⟨_, s₆, hset, h₆⟩ := Fallible.bind_eq_ok.mp h₅
  obtain ⟨_, s₇, hreset, h₇⟩ := Fallible.bind_eq_ok.mp h₆
  obtain rfl := (Prod.mk.inj h₇).2
  exact ⟨_, _, _, call_eq_ok hset, call_eq_ok hreset, rfl⟩

theorem handleChangeReference_ok (h : handleChangeReference bk cmd s = (.ok r, t)) :
    ∃ oldPin newPin b₁, bk.perform (.changePin (cmd.p2 == 0x83) oldPin newPin) s.backend
      = (.ok ⟨⟩, b₁) ∧ t.backend = bk.logEvent (0x240000 ||| cmd.p2.toUInt32) b₁ := by
  obtain ⟨_, s₁, hp1, h₁⟩ := Fallible.bind_eq_ok.mp h
  obtain ⟨-, rfl⟩ := Fallible.require_eq_ok.mp hp1
  obtain ⟨_, s₂, hp2, h₂⟩ := Fallible.bind_eq_ok.mp h₁
  obtain ⟨-, rfl⟩ := Fallible.require_eq_ok.mp hp2
  rw [Fallible.gets_bind] at h₂
  obtain ⟨_, s₃, hmax, h₃⟩ := Fallible.bind_eq_ok.mp h₂
  obtain ⟨-, rfl⟩ := Fallible.require_eq_ok.mp hmax
  obtain ⟨_, s₄, hlen, h₄⟩ := Fallible.bind_eq_ok.mp h₃
  obtain ⟨-, rfl⟩ := Fallible.require_eq_ok.mp hlen
  obtain ⟨_, s₅, hnew, h₅⟩ := Fallible.bind_eq_ok.mp h₄
  obtain ⟨-, rfl⟩ := Fallible.require_eq_ok.mp hnew
  obtain ⟨_, s₆, hchange, h₆⟩ := Fallible.bind_eq_ok.mp h₅
  obtain rfl := (Prod.mk.inj h₆).2
  exact ⟨_, _, _, call_eq_ok hchange, rfl⟩

end Commands

section Resetting

variable {value : W → UInt32} {b b' : OpenPgpVaultBackend W T} {oldPin newPin : Bytes}

theorem running_of_ok {α : Type} {m : VaultM W T α} {a : α}
    (h : (ensureNotTerminated >>= fun _ ↦ m) b = (.ok a, b')) :
    b.termination = false ∧ m b = (.ok a, b') := by
  cases ht : b.termination with
  | false =>
    rw [Fallible.bind_of_ok (ensureNotTerminated_run ht)] at h
    exact ⟨rfl, h⟩
  | true =>
    rw [Fallible.bind_of_error (ensureNotTerminated_terminated ht)] at h
    cases h

variable (hnew : ∀ w, value (pf.newUserCounter w) = value w)
  (hpins : pf.Spares (fun w w' ↦ value w' = value w) .pins)

include hnew in
/-- The new machine is live, and the count is what it was. -/
theorem counting_resetMachine (ht : b.termination = false)
    (h : resetMachine pf .user b = (.ok ⟨⟩, b')) :
    Counting value (b.machine .user).config.maxAttempts (value b.world).toNat b' := by
  obtain rfl := Fallible.modify_eq_ok.mp h
  refine ⟨ht, ?_, rfl, congrArg UInt32.toNat (hnew b.world)⟩
  rintro ⟨⟩

include hpins in
/-- Storing digests changes neither the machines nor the count. -/
theorem persistPinHashes_keeps {r : Except OpenPgpBackendError PUnit}
    (h : persistPinHashes pf b = (r, b')) : value b'.world = value b.world ∧
      b'.termination = b.termination ∧
      (b'.machine .user).config = (b.machine .user).config := by
  have hcalm : Calm (fun w w' ↦ value w' = value w) b (persistPinHashes pf b).2 :=
    calm_persistPinHashes (fun _ _ _ h h' ↦ h'.trans h) hpins b
  rw [h] at hcalm
  exact ⟨hcalm.world, hcalm.termination, hcalm.config .user⟩

include hnew hpins

theorem counting_resetPw1 {b₁ : OpenPgpVaultBackend W T}
    (hset : setPw1VerifierAdminOnly pf newPin b = (.ok ⟨⟩, b₁))
    (hreset : resetPw1RetryCounter pf b₁ = (.ok ⟨⟩, b')) :
    Counting value (b.machine .user).config.maxAttempts (value b.world).toNat b' := by
  obtain ⟨ht, hset⟩ := running_of_ok hset
  rw [Fallible.gets_bind] at hset
  obtain ⟨_, b₂, hrequire, hset⟩ := Fallible.bind_eq_ok.mp hset
  obtain ⟨-, rfl⟩ := Fallible.require_eq_ok.mp hrequire
  rw [Fallible.modify_bind] at hset
  obtain ⟨hvalue, hterm, hconfig⟩ := persistPinHashes_keeps hpins hset
  obtain ⟨ht₁, hreset⟩ := running_of_ok hreset
  have h := counting_resetMachine hnew ht₁ hreset
  rw [hvalue, hconfig] at h
  exact h

/-- A change of PW1 is a successful attempt, whose charge is refunded. -/
theorem counting_changePin (hpersist : pf.userCounter.Persistent value)
    (h : changePin pf .user oldPin newPin b = (.ok ⟨⟩, b')) :
    ∃ n, Counting value (b.machine .user).config.maxAttempts n b' ∧ (n = 0 ↔ value b.world = 0) := by
  obtain ⟨ht, h₁⟩ := running_of_ok h
  rw [Fallible.gets_bind] at h₁
  obtain ⟨_, b₂, hrequire, h₂⟩ := Fallible.bind_eq_ok.mp h₁
  obtain ⟨-, rfl⟩ := Fallible.require_eq_ok.mp hrequire
  obtain ⟨_, b₃, hverify, h₃⟩ := Fallible.bind_eq_ok.mp h₂
  rw [Fallible.modify_bind] at h₃
  obtain ⟨_, b₄, hpersisted, h₄⟩ := Fallible.bind_eq_ok.mp h₃
  obtain ⟨hvalue, hterm, hconfig⟩ := persistPinHashes_keeps hpins hpersisted
  obtain ⟨count, w', hinc, hle, -, rfl⟩ := verifyPin_eq_ok hverify
  obtain ⟨hcount, rfl⟩ := Prod.mk.inj ((hpersist.increment_run b.world).symm.trans hinc)
  have ht₄ : b₄.termination = false := hterm.trans ht
  have hvalue₄ : value b₄.world = saturatingSub (saturatingAdd (value b.world) 1) 1 := by
    refine hvalue.trans ?_
    change value (pf.userCounter.refundOnSuccess _).2 = _
    rw [hpersist.value_refund, hpersist.value_increment]
  have hcounting := counting_resetMachine hnew ht₄ h₄
  rw [hvalue₄, hconfig] at hcounting
  refine ⟨_, hcounting, ?_⟩
  have hmax := (value b.world).toNat_lt
  rw [← UInt32.toNat_inj, toNat_saturatingSub, toNat_saturatingAdd, UInt32.toNat_zero, UInt32.toNat_one]
  omega

/-- **After a reset.** The machine is new, and the count is zero exactly when it was before. -/
theorem counting_of_resetsPw1 (hpersist : pf.userCounter.Persistent value) {cmd : CommandApdu}
    {s t : Session (OpenPgpVaultBackend W T)} {r : ResponseApdu} (hcmd : cmd.ResetsPw1)
    (hrun : handle (vaultBackend pf) cmd s = (.ok r, t)) :
    ∃ n, Counting value (s.backend.machine .user).config.maxAttempts n t.backend ∧
      (n = 0 ↔ value s.backend.world = 0) := by
  rcases handle_cases (vaultBackend pf) cmd s with ⟨sw, hh⟩ | ⟨i, hi, hh⟩
  · cases (Prod.mk.inj (hh.symm.trans hrun)).1
  rw [hh] at hrun
  rcases hcmd with hins | ⟨hins, hp2⟩
  · obtain rfl : i = .resetRetryCounter := by
      rw [hins] at hi
      exact (Option.some.inj hi).symm
    obtain ⟨pin, b₁, b₂, hset, hreset, hlog⟩ := handleResetRetryCounter_ok hrun
    have h := counting_resetPw1 hnew hpins hset hreset
    rw [hlog]
    refine ⟨_, ⟨h.running, h.live, h.config, h.count⟩, ?_⟩
    rw [← UInt32.toNat_inj, UInt32.toNat_zero]
  · obtain rfl : i = .changeReference := by
      rw [hins] at hi
      exact (Option.some.inj hi).symm
    obtain ⟨oldPin, newPin, b₁, hchange, hlog⟩ := handleChangeReference_ok hrun
    have hpw3 : (cmd.p2 == 0x83) = false := by rw [hp2]; rfl
    rw [hpw3] at hchange
    obtain ⟨n, h, hn⟩ := counting_changePin hnew hpins hpersist hchange
    rw [hlog]
    exact ⟨n, ⟨h.running, h.live, h.config, h.count⟩, hn⟩

/-- **Tries after a reset.** After a reset of PW1, of `max + 1` wrong PINs in a row only the last
one blocks the card exactly when no attempt was charged before the reset, or there are no tries at
all; and when the limit can be exceeded. -/
theorem retries_restored_iff (hpersist : pf.userCounter.Persistent value) {cmd : CommandApdu}
    {s t : Session (OpenPgpVaultBackend W T)} {r : ResponseApdu} {max : UInt32}
    (hmax : (s.backend.machine .user).config.maxAttempts = max) (hcmd : cmd.ResetsPw1)
    (hrun : handle (vaultBackend pf) cmd s = (.ok r, t)) {tries : List CommandApdu}
    (hlen : tries.length = max.toNat + 1) (hwrong : t.WrongTries pf tries) :
    t.BlocksAtLast pf tries ↔ (value s.backend.world = 0 ∨ max = 0) ∧ max ≠ u32Max := by
  obtain ⟨n, hcounting, hn⟩ := counting_of_resetsPw1 hnew hpins hpersist hcmd hrun
  rw [hmax] at hcounting
  cases tries with
  | nil => cases hlen
  | cons first tries =>
    have hlen : tries.length = max.toNat := Nat.succ.inj hlen
    have hnil : tries = [] ↔ max.toNat = 0 := by rw [← hlen, List.length_eq_zero_iff]
    have hlim : max ≠ u32Max ↔ max.toNat ≠ 2 ^ 32 - 1 := by
      rw [ne_eq, ← UInt32.toNat_inj]
      rfl
    have hmax : max = 0 ↔ max.toNat = 0 := by rw [← UInt32.toNat_inj, UInt32.toNat_zero]
    have hle := max.toNat_lt
    rw [hcounting.blocksAtLast_iff hpersist hwrong, hnil, hlim, hmax, ← hn, hlen, charged]
    omega

end Resetting

/-! ## The bench card -/

/-- The verifier of PW1 is not changed by an attempt on it. -/
theorem userVerifier_verifyPin {p : CardPin} {pin : Bytes} (b : OpenPgpVaultBackend W T) :
    (verifyPin pf p pin b).2.userVerifier = b.userVerifier := by
  refine verifyPin_cases (P := fun _ b' ↦ b'.userVerifier = b.userVerifier) ?_ ?_ ?_ ?_ ?_ ?_
  · exact fun _ ↦ rfl
  · exact fun _ ↦ rfl
  · intro e w' _ _
    cases p <;> rfl
  · intro count w' _ _ _
    cases p <;> rfl
  · intro count w' _ _ _
    cases p <;> rfl
  · intro count w' _ _ _
    cases p <;> rfl

/-- VERIFY keeps the verifier of PW1. -/
theorem userVerifier_verify {cmd : CommandApdu} (hins : cmd.ins = 0x20)
    (s : Session (OpenPgpVaultBackend W T)) :
    (handle (vaultBackend pf) cmd s).2.backend.userVerifier = s.backend.userVerifier := by
  have hlifts : Lifts (vaultBackend pf) cmd (fun _ ↦ True)
      (fun b b' ↦ b'.userVerifier = b.userVerifier) := {
    refl := fun _ ↦ rfl
    trans := fun h h' ↦ h'.trans h
    log := fun _ _ ↦ rfl
    log_keeps := fun _ _ _ ↦ trivial
    asked := by
      intro c hasks b _
      cases c with
      | verifyPw1Sign pin => exact userVerifier_verifyPin b
      | verifyPw1Other pin => exact userVerifier_verifyPin b
      | verifyPw3 pin => exact userVerifier_verifyPin b
      | _ => simp [CommandApdu.Asks, hins] at hasks
    prelude := fun _ _ _ _ _ ↦ trivial }
  exact hlifts.handle s trivial

/-- VERIFY with the same wrong PIN again and again. -/
theorem wrongTries_replicate {cmd : CommandApdu} (hcmd : cmd.ins = 0x20 ∧ cmd.p2 = 0x81) (n : ℕ) :
    ∀ {s : Session (OpenPgpVaultBackend W T)},
      pinBytesToVerifierDigest pf cmd.data.toBytes ≠ s.backend.userVerifier →
      s.WrongTries pf (List.replicate n cmd) := by
  induction n with
  | zero => exact fun _ ↦ trivial
  | succ n ih =>
    intro s hpin
    refine ⟨⟨_, if_pos ⟨hcmd.1, .inl hcmd.2⟩, hpin⟩, ih ?_⟩
    rwa [handleApdu_snd, userVerifier_verify hcmd.1]

/-- VERIFY of the admin PIN, and RESET RETRY COUNTER to the PIN the card has. -/
def adminVerify : CommandApdu := ⟨0x00, 0x20, 0x00, 0x83, .truncated (benchPin .admin), none⟩

def resetPw1 : CommandApdu := ⟨0x00, 0x2C, 0x00, 0x81, .truncated (benchPin .user), none⟩

/-- The attempt cells of the bench card. -/
def benchCtr : CardPin → ℕ
  | .user => Baochip.userCtrLogicalOff
  | .admin => Baochip.adminCtrLogicalOff

theorem benchIncrement (p : CardPin) (w : Memory) : (benchPlatform.counter p).increment w
    = (.ok (saturatingAdd (rramCell (benchCtr p) w) 1),
      w.patch (benchCtr p) (u32le (saturatingAdd (rramCell (benchCtr p) w) 1))) := by
  cases p <;> rfl

theorem benchRefund (p : CardPin) (w : Memory) : (benchPlatform.counter p).refundOnSuccess w
    = (.ok ⟨⟩, w.patch (benchCtr p) (u32le (saturatingSub (rramCell (benchCtr p) w) 1))) := by
  cases p <;> rfl

/-- The bench card in session, with `n` attempts charged on PW1 and none on PW3. -/
structure BenchReady (w₀ : Memory) (n : UInt32) (s : Session (OpenPgpVaultBackend Memory ℕ)) : Prop where
  running : s.backend.termination = false
  live : ∀ p, (s.backend.machine p).state ≠ .bricked
  config : ∀ p, (s.backend.machine p).config = default
  verifier : ∀ p, s.backend.verifier p = .ofBytes 32 (benchPin p)
  objects : Memory.AgreeOn Baochip.openpgpDoStoreLogical Baochip.pinUserLogicalOff s.backend.world w₀
  userCell : rramCell (benchCtr .user) s.backend.world = n
  adminCell : rramCell (benchCtr .admin) s.backend.world = 0
  keys : s.backend.keys .sig = .only benchKey .brainpool
  cells : Memory.AgreeOn (sealedOffset .openPgpSig) sealedKeyRegionEnd s.backend.world benchStorage

theorem benchPlatform_pinsSpare : benchPlatform.Spares (fun w w' ↦
    rramCell (benchCtr .user) w' = rramCell (benchCtr .user) w) .pins := by
  intro p digest w
  change rramCell (benchCtr .user) (w.patch (0 + benchPlatform.pinOff p) digest.toBytes) = _
  have hlen := digest.length_toBytes
  rw [Nat.zero_add, rramCell, rramCell, Memory.window_patch_of_disjoint (.inr ?_)]
  rw [hlen]
  cases p <;> decide

theorem benchPlatform_persistent : benchPlatform.userCounter.Persistent (rramCell (benchCtr .user)) :=
  rramMonotonicCounter_persistent _

section Ready

variable {w₀ : Memory} (h₀ : benchPlatform.doStore.write 0x93 [0x00, 0x00, 0x00] benchStorage
  = (.ok ⟨⟩, w₀))
include h₀

theorem benchReady_opened : BenchReady w₀ 0 (.new (benchOpened w₀)) where
  running := rfl
  live := by
    rintro (_ | _) ⟨⟩
  config p := by cases p <;> rfl
  verifier p := by
    have hstored := storedVerifier_bench (agreeOn_of_counted h₀ (.inr (Nat.le_refl _))) p
    cases p <;> exact hstored
  objects := fun _ _ _ ↦ rfl
  userCell := by
    have hcell := userTries_of_counted h₀
    rwa [Nat.zero_add] at hcell
  adminCell := by
    have hwindow : w₀.window Baochip.adminCtrLogicalOff 4
        = benchStorage.window Baochip.adminCtrLogicalOff 4 :=
      Memory.window_congr (agreeOn_of_counted h₀ (.inr (by decide))) (Nat.le_refl _) (Nat.le_refl _)
    change rramCell Baochip.adminCtrLogicalOff w₀ = 0
    rw [rramCell, hwindow, benchStorage_window (by decide) (.inr (by decide))]
    rfl
  keys := key_of_counted h₀
  cells := agreeOn_of_counted h₀ (.inl (by decide))

/-- The card is switched on and gets two commands. -/
theorem run_of_counted (cmd cmd' : CommandApdu) : (Card.off w₀).run benchPlatform
    [.powerCycle 0 default default, .apdu cmd, .apdu cmd'] = .on (handle (vaultBackend benchPlatform) cmd'
      (handle (vaultBackend benchPlatform) cmd (.new (benchOpened w₀))).2).2 := by
  have hopened : (Card.off w₀).step benchPlatform (.powerCycle 0 default default)
      = .on (.new (benchOpened w₀)) := opened_of_counted h₀
  rw [Card.run, List.foldl_cons, hopened, List.foldl_cons, List.foldl_cons, List.foldl_nil, Card.step,
    Card.step, handleApdu_snd, handleApdu_snd]

end Ready

section Steps

variable {w₀ : Memory} {n : UInt32} {s : Session (OpenPgpVaultBackend Memory ℕ)}

/-- A wrong PIN is charged. -/
theorem BenchReady.wrong (h : BenchReady w₀ 0 s) :
    BenchReady w₀ 1 (handle (vaultBackend benchPlatform) wrongVerify s).2 := by
  have hinc := benchIncrement .user s.backend.world
  rw [h.userCell] at hinc
  have hle : ¬ (s.backend.machine .user).config.maxAttempts < 1 := by
    rw [h.config]
    decide
  have hpin : pinBytesToVerifierDigest benchPlatform wrongVerify.data.toBytes ≠ s.backend.verifier .user := by
    rw [h.verifier]
    decide +kernel
  have hrun : handle (vaultBackend benchPlatform) wrongVerify s = _ := handle_verifySign_error h.running
    rfl rfl (verifyPin_failed h.running (h.live .user) hinc hle hpin)
  rw [hrun]
  refine ⟨h.running, ?_, ?_, ?_, ?_, rramCell_patch _ _ _, ?_, h.keys, ?_⟩
  · rintro (_ | _)
    · rintro ⟨⟩
    · exact h.live .admin
  · rintro (_ | _)
    · exact h.config .user
    · exact h.config .admin
  · rintro (_ | _)
    · exact h.verifier .user
    · exact h.verifier .admin
  · exact (Memory.agreeOn_patch (.inl (by decide))).trans h.objects
  · exact (rramCell_patch_of_disjoint (.inr (by decide)) _ _).trans h.adminCell
  · exact (Memory.agreeOn_patch (.inl (by decide))).trans h.cells

theorem BenchReady.limit (h : BenchReady w₀ n s) : (s.backend.machine .user).config.maxAttempts = 3 := by
  rw [h.config]
  rfl

/-- The store holds no PW status bytes, so PW1 has at most five bytes. -/
theorem BenchReady.maxPinLength_eq (h₀ : benchPlatform.doStore.write 0x93 [0x00, 0x00, 0x00] benchStorage
      = (.ok ⟨⟩, w₀)) (h : BenchReady w₀ n s) : maxPinLength benchPlatform s.backend .user = 5 := by
  have hk := benchPlatform_objectsKept
  have hregion : Memory.AgreeOn benchPlatform.doStore.base
      (benchPlatform.doStore.base + DoStore.regionBytes) (Baochip.bench.vault s.backend.world)
      (Baochip.bench.vault w₀) := by
    rw [vault_bench, vault_bench]
    exact h.objects
  have hnone : benchPlatform.doStore.object (Baochip.bench.vault benchStorage) 0xC4 = none := by
    rw [DoStore.object, if_neg benchStorage_not_valid]
  have hread : benchPlatform.doStore.read 0xC4 s.backend.world = none := by
    rw [DoStore.read_eq hk.faithful hk.fits, DoStore.object_congr hregion,
      (written_of_counted h₀).object 0xC4 (by decide), if_neg (by decide), hnone]
  rw [maxPinLength, pwStatusBytes, hread]
  rfl

/-- The admin PIN is verified. -/
theorem BenchReady.admin (h : BenchReady w₀ n s) :
    BenchReady w₀ n (handle (vaultBackend benchPlatform) adminVerify s).2 ∧
      (handle (vaultBackend benchPlatform) adminVerify s).2.card.pw3Verified = true := by
  have hinc := benchIncrement .admin s.backend.world
  rw [h.adminCell] at hinc
  have hle : ¬ (s.backend.machine .admin).config.maxAttempts < 1 := by
    rw [h.config]
    decide
  have hpin : pinBytesToVerifierDigest benchPlatform adminVerify.data.toBytes
      = s.backend.verifier .admin := by
    rw [h.verifier]
    decide +kernel
  have hcell : ∀ w v, rramCell (benchCtr .user) (w.patch (benchCtr .admin) (u32le v))
      = rramCell (benchCtr .user) w := fun w v ↦ rramCell_patch_of_disjoint (.inl (by decide)) w v
  have hverify := verifyPin_success h.running (h.live .admin) hinc hle hpin
  rw [benchRefund, rramCell_patch] at hverify
  have hrun : handle (vaultBackend benchPlatform) adminVerify s = _ :=
    handle_verifyAdmin h.running rfl rfl hverify
  rw [hrun]
  refine ⟨⟨h.running, ?_, ?_, ?_, ?_, ?_, rramCell_patch _ _ _, h.keys, ?_⟩, rfl⟩
  · rintro (_ | _)
    · exact h.live .user
    · rintro ⟨⟩
  · rintro (_ | _)
    · exact h.config .user
    · exact h.config .admin
  · rintro (_ | _)
    · exact h.verifier .user
    · exact h.verifier .admin
  · exact ((Memory.agreeOn_patch (.inl (by decide))).trans
      (Memory.agreeOn_patch (.inl (by decide)))).trans h.objects
  · exact (hcell _ _).trans ((hcell _ _).trans h.userCell)
  · exact ((Memory.agreeOn_patch (.inl (by decide))).trans
      (Memory.agreeOn_patch (.inl (by decide)))).trans h.cells

/-- RESET RETRY COUNTER is carried out under the admin PIN. -/
theorem BenchReady.reset (h₀ : benchPlatform.doStore.write 0x93 [0x00, 0x00, 0x00] benchStorage
      = (.ok ⟨⟩, w₀)) (h : BenchReady w₀ n s) (hflag : s.card.pw3Verified = true) :
    ∃ t, handle (vaultBackend benchPlatform) resetPw1 s = (.ok .okEmpty, t) ∧
      t.backend.userVerifier = .ofBytes 32 (benchPin .user) ∧
      Counting (rramCell (benchCtr .user)) 3 n.toNat t.backend := by
  have hmax := h.maxPinLength_eq h₀
  have hpin : trimOpenpgpPinPadding resetPw1.data.toBytes = benchPin .user := by decide +kernel
  have hrequire : (Fallible.require (maxPinLength benchPlatform s.backend .user ≠ 0 ∧ benchPin .user ≠ [] ∧
      (benchPin .user).length ≤ maxPinLength benchPlatform s.backend .user) (.status .wrongLength) :
      VaultM Memory ℕ PUnit) s.backend = (.ok ⟨⟩, s.backend) := by
    rw [hmax]
    exact Fallible.require_eq_ok.mpr ⟨by decide, rfl⟩
  obtain ⟨b₁, hset, hterm, hverifier⟩ : ∃ b₁, setPw1VerifierAdminOnly benchPlatform (benchPin .user) s.backend
      = (.ok ⟨⟩, b₁) ∧ b₁.termination = false ∧ b₁.userVerifier = .ofBytes 32 (benchPin .user) := by
    rw [setPw1VerifierAdminOnly, Fallible.bind_of_ok (ensureNotTerminated_run h.running),
      Fallible.gets_bind, Fallible.bind_of_ok hrequire, Fallible.modify_bind]
    exact ⟨_, rfl, h.running, rfl⟩
  have hreset : resetPw1RetryCounter benchPlatform b₁ = resetMachine benchPlatform .user b₁ := by
    rw [resetPw1RetryCounter, Fallible.bind_of_ok (ensureNotTerminated_run hterm)]
  have hcounting := counting_resetPw1 (fun _ ↦ rfl) benchPlatform_pinsSpare hset hreset
  rw [h.limit, h.userCell] at hcounting
  rw [← hpin] at hset
  have hrun : handle (vaultBackend benchPlatform) resetPw1 s = _ := handle_resetRetryCounter h.running
    ⟨rfl, rfl, rfl⟩ hflag hmax (by decide) (by rw [hpin]; decide) hset hreset
  exact ⟨_, hrun, hverifier, hcounting.running, hcounting.live, hcounting.config, hcounting.count⟩

end Steps

/-- Four tries with a wrong PIN. -/
def wrongTries : List CommandApdu := List.replicate 4 wrongVerify

theorem wrongTries_wrong {n : ℕ} {t : Session (OpenPgpVaultBackend Memory ℕ)}
    (ht : t.backend.userVerifier = .ofBytes 32 (benchPin .user)) :
    t.WrongTries benchPlatform (List.replicate n wrongVerify) := by
  refine wrongTries_replicate ⟨rfl, rfl⟩ n ?_
  rw [ht]
  decide +kernel

/-- With no attempt charged, all three tries are back: only the fourth wrong PIN blocks the card. -/
theorem retries_restored_bench : ∃ s t : Session (OpenPgpVaultBackend Memory ℕ),
    handle (vaultBackend benchPlatform) resetPw1 s = (.ok .okEmpty, t) ∧
      t.BlocksAtLast benchPlatform wrongTries := by
  obtain ⟨w₀, h₀⟩ : ∃ w₀, benchPlatform.doStore.write 0x93 [0x00, 0x00, 0x00] benchStorage = (.ok ⟨⟩, w₀) :=
    ⟨_, benchCounted_run 0⟩
  obtain ⟨h, hflag⟩ := (benchReady_opened h₀).admin
  obtain ⟨t, hrun, ht, -⟩ := h.reset h₀ hflag
  have hwrong : t.WrongTries benchPlatform wrongTries := wrongTries_wrong ht
  have hiff := retries_restored_iff (fun _ ↦ rfl) benchPlatform_pinsSpare benchPlatform_persistent h.limit
    (.inl rfl) hrun rfl hwrong
  exact ⟨_, t, hrun, hiff.mpr ⟨.inl h.userCell, by decide⟩⟩

/-- **Tries that stay used up.** A wrong PIN, the admin PIN and RESET RETRY COUNTER: the third of
the next wrong PINs already blocks the card. -/
theorem retries_not_restored : ∃ s t : Session (OpenPgpVaultBackend Memory ℕ),
    (Card.off (benchPlatform.doStore.write 0x93 [0x00, 0x00, 0x00] benchStorage).2).run benchPlatform
        [.powerCycle 0 default default, .apdu wrongVerify, .apdu adminVerify] = .on s ∧
      (s.backend.machine .user).config.maxAttempts = 3 ∧ s.card.pw3Verified = true ∧
      handle (vaultBackend benchPlatform) resetPw1 s = (.ok .okEmpty, t) ∧
      t.WrongTries benchPlatform wrongTries ∧ ¬ t.BlocksAtLast benchPlatform wrongTries ∧
      t.BlocksAtLast benchPlatform (List.replicate 3 wrongVerify) := by
  have h₀ := benchCounted_run 0
  generalize (benchPlatform.doStore.write 0x93 [0x00, 0x00, 0x00] benchStorage).2 = w₀ at h₀ ⊢
  obtain ⟨h, hflag⟩ := (benchReady_opened h₀).wrong.admin
  obtain ⟨t, hrun, ht, hcounting⟩ := h.reset h₀ hflag
  have hwrong : ∀ n, t.WrongTries benchPlatform (List.replicate n wrongVerify) := fun _ ↦ wrongTries_wrong ht
  refine ⟨_, t, run_of_counted h₀ _ _, h.limit, hflag, hrun, hwrong 4, ?_, ?_⟩
  · have hiff := hcounting.blocksAtLast_iff benchPlatform_persistent (hwrong 4)
    intro hblocks
    exact absurd (hiff.mp hblocks) (by decide)
  · have hiff := hcounting.blocksAtLast_iff benchPlatform_persistent (hwrong 3)
    exact hiff.mpr (by decide)

end Galdralag.OpenPgp
