import Galdralag.OpenPgp.VaultBackend

/-!
# What the calls of the vault backend do

Every later result about the card rests on what one call can do. A PIN attempt ends in one of six
ways: `verifyPin_cases`. All calls but three kinds are calm: they leave the keys in memory, the
signature counter and the termination flag alone, brick no machine, and touch the world only through
the devices they use. The exceptions are a PIN attempt that breaches, the generation of a key, and
the count of a signature, which have lemmas of their own.

A statement about the world is made once for all calls, for any relation `R` along which the
operations of the devices move it (`Spares`).
-/

set_option linter.all false

namespace Galdralag.OpenPgp

/-! ## Devices -/

/-- The parts of the world a card works on. -/
inductive Device where
  | objects
  | pins
  | cells
  | counters
  deriving DecidableEq, Repr

variable {W T : Type}

/-- The operations of a device move the world along `R`. -/
def CardPlatform.Spares (pf : CardPlatform W T) (R : W → W → Prop) : Device → Prop
  | .objects => ∀ tag value w, R w (pf.doStore.write tag value w).2
  | .pins => ∀ p (digest : Block 32) w, R w (pf.pinStorage.write (pf.pinOff p) digest.toBytes w).2
  | .cells => ∀ purpose (cell : Block 93) w,
    R w (pf.keyStorage.write (sealedOffset purpose) cell.toBytes w).2
  | .counters => ∀ p w, R w ((pf.counter p).increment w).2 ∧
    R w ((pf.counter p).refundOnSuccess w).2 ∧ R w (pf.newCounter p w)

/-- Where `R` entails `R'`, what moves along the one moves along the other. -/
theorem CardPlatform.Spares.imp {pf : CardPlatform W T} {R R' : W → W → Prop} {d : Device}
    (h : pf.Spares R d) (himp : ∀ w w', R w w' → R' w w') : pf.Spares R' d := by
  cases d with
  | objects => exact fun tag value w ↦ himp _ _ (h tag value w)
  | pins => exact fun p digest w ↦ himp _ _ (h p digest w)
  | cells => exact fun purpose cell w ↦ himp _ _ (h purpose cell w)
  | counters =>
    intro p w
    obtain ⟨hincrement, hrefund, hnew⟩ := h p w
    exact ⟨himp _ _ hincrement, himp _ _ hrefund, himp _ _ hnew⟩

/-- The devices a call may write to. -/
def BackendCall.devices : BackendCall → List Device
  | .verifyPw1Sign _ => [.counters]
  | .verifyPw1Other _ => [.counters]
  | .verifyPw3 _ => [.counters]
  | .changePin _ _ _ => [.counters, .pins]
  | .setPw1VerifierAdminOnly _ => [.pins]
  | .resetPw1RetryCounter => [.counters]
  | .putDo _ _ => [.objects]
  | .generateOrReadKey _ _ => [.cells]
  | .incrementSignatureCounter => [.objects]
  | _ => []

/-- Only the generation of a key writes to the cells. -/
theorem BackendCall.generates_of_cells_mem {c : BackendCall} (h : Device.cells ∈ c.devices) :
    ∃ p1 slot, c = .generateOrReadKey p1 slot := by
  cases c <;> simp [devices] at h ⊢

variable {pf : CardPlatform W T} {R : W → W → Prop} {b b' : OpenPgpVaultBackend W T} {p : CardPin}
  {pin : Bytes}

/-! ## PIN attempts -/

/-- An attempt on a PIN would be answered with a breach. -/
def Breaches (pf : CardPlatform W T) (p : CardPin) (b : OpenPgpVaultBackend W T) : Prop :=
  (b.machine p).state = .bricked ∨
    ∃ count w', (pf.counter p).increment b.world = (.ok count, w') ∧
      (b.machine p).config.maxAttempts < count

theorem pinCompare_block (d e : Block 32) : pinCompare d.toBytes e.toBytes = decide (d = e) := by
  have hlen : ¬ d.toBytes.length ≠ e.toBytes.length := by
    rw [d.length_toBytes, e.length_toBytes]
    exact fun h ↦ h rfl
  rw [pinCompare, if_neg hlen, Bool.eq_iff_iff, beq_iff_eq, decide_eq_true_iff]
  exact ⟨Block.ext, congrArg _⟩

/-- The backend after an attempt that moved the machine and the world. -/
def OpenPgpVaultBackend.attempted (b : OpenPgpVaultBackend W T) (p : CardPin) (state : PinState)
    (w : W) : OpenPgpVaultBackend W T :=
  { b.setMachine { b.machine p with state := state } p with world := w }

theorem ensureNotTerminated_run (h : b.termination = false) :
    (ensureNotTerminated : VaultM W T PUnit) b = (.ok ⟨⟩, b) := by
  rw [ensureNotTerminated, Fallible.gets_bind, Fallible.require, if_pos h]
  rfl

theorem ensureNotTerminated_terminated (h : b.termination = true) :
    (ensureNotTerminated : VaultM W T PUnit) b = (.error (.status .terminationState), b) := by
  rw [ensureNotTerminated, Fallible.gets_bind, Fallible.require, if_neg (by rw [h]; decide)]
  rfl

theorem attemptPin_eq (b : OpenPgpVaultBackend W T) :
    attemptPin pf p pin b =
      (fun r : Except HalError PinOutcome × PinPolicyMachine × W ↦
        (r.1, { b.setMachine r.2.1 p with world := r.2.2 }))
      (PinPolicyMachine.submitAttempt (pf.counter p) (pf.zeroise p) (fun w ↦
        (decide (pinBytesToVerifierDigest pf pin = b.verifier p), w)) (b.machine p, b.world)) := by
  simp only [← pinCompare_block]
  rfl

section Attempts

variable (hterm : b.termination = false)
include hterm

theorem verifyPin_eq : verifyPin pf p pin b =
    (Fallible.orElse (attemptPin pf p pin) (.status .executionError) >>= concludeAttempt p) b := by
  rw [verifyPin, Fallible.bind_of_ok (ensureNotTerminated_run hterm)]

/-- A bricked machine answers breach. -/
theorem verifyPin_bricked (hb : (b.machine p).state = .bricked) :
    verifyPin pf p pin b = (.error (.status .authMethodBlocked), { b with termination := true }) := by
  rw [verifyPin_eq hterm, Fallible.bind_apply, Fallible.orElse, attemptPin_eq,
    PinPolicyMachine.submitAttempt_bricked hb]
  cases p <;> rfl

variable {w' : W} (hb : (b.machine p).state ≠ .bricked)
include hb

/-- A counter error ends the attempt. -/
theorem verifyPin_charge_error {e : HalError}
    (hc : (pf.counter p).increment b.world = (.error e, w')) :
    verifyPin pf p pin b
      = (.error (.status .executionError), b.attempted p .attemptCharge w') := by
  rw [verifyPin_eq hterm, Fallible.bind_apply, Fallible.orElse, attemptPin_eq,
    PinPolicyMachine.submitAttempt_charge_error hb hc]
  rfl

variable {count : UInt32} (hc : (pf.counter p).increment b.world = (.ok count, w'))
include hc

/-- An attempt over the limit wipes and terminates. -/
theorem verifyPin_breach (hgt : (b.machine p).config.maxAttempts < count) :
    verifyPin pf p pin b = (.error (.status .authMethodBlocked),
      { b.attempted p .bricked (pf.zeroise p w') with termination := true }) := by
  rw [verifyPin_eq hterm, Fallible.bind_apply, Fallible.orElse, attemptPin_eq,
    PinPolicyMachine.submitAttempt_breach hb hc hgt]
  rfl

variable (hle : ¬ (b.machine p).config.maxAttempts < count)
include hle

/-- The right PIN. -/
theorem verifyPin_success (hpin : pinBytesToVerifierDigest pf pin = b.verifier p) :
    verifyPin pf p pin b
      = (.ok ⟨⟩, b.attempted p .unlocked ((pf.counter p).refundOnSuccess w').2) := by
  rw [verifyPin_eq hterm, Fallible.bind_apply, Fallible.orElse, attemptPin_eq,
    PinPolicyMachine.submitAttempt_success hb hc hle (decide_eq_true hpin)]
  rfl

/-- A wrong PIN, answered with the tries that are left. -/
theorem verifyPin_failed (hpin : pinBytesToVerifierDigest pf pin ≠ b.verifier p) :
    verifyPin pf p pin b = (.error (.status (.verificationFailedRetries
        (saturatingSub (b.machine p).config.maxAttempts count).toUInt8)),
      b.attempted p .lockedIdle w') := by
  rw [verifyPin_eq hterm, Fallible.bind_apply, Fallible.orElse, attemptPin_eq,
    PinPolicyMachine.submitAttempt_failed hb hc hle (decide_eq_false hpin)]
  cases p <;> rfl

end Attempts

/-- **The six ways an attempt ends.** -/
theorem verifyPin_cases {P : Except OpenPgpBackendError PUnit → OpenPgpVaultBackend W T → Prop}
    (hterm : b.termination = true → P (.error (.status .terminationState)) b)
    (hbricked : (b.machine p).state = .bricked →
      P (.error (.status .authMethodBlocked)) { b with termination := true })
    (herror : ∀ e w', (b.machine p).state ≠ .bricked →
      (pf.counter p).increment b.world = (.error e, w') →
      P (.error (.status .executionError)) (b.attempted p .attemptCharge w'))
    (hbreach : ∀ count w', (b.machine p).state ≠ .bricked →
      (pf.counter p).increment b.world = (.ok count, w') →
      (b.machine p).config.maxAttempts < count →
      P (.error (.status .authMethodBlocked))
        { b.attempted p .bricked (pf.zeroise p w') with termination := true })
    (hsuccess : ∀ count w', (pf.counter p).increment b.world = (.ok count, w') →
      count ≤ (b.machine p).config.maxAttempts → pinBytesToVerifierDigest pf pin = b.verifier p →
      P (.ok ⟨⟩) (b.attempted p .unlocked ((pf.counter p).refundOnSuccess w').2))
    (hfailed : ∀ count w', (pf.counter p).increment b.world = (.ok count, w') →
      count ≤ (b.machine p).config.maxAttempts → pinBytesToVerifierDigest pf pin ≠ b.verifier p →
      P (.error (.status (.verificationFailedRetries
          (saturatingSub (b.machine p).config.maxAttempts count).toUInt8)))
        (b.attempted p .lockedIdle w')) :
    P (verifyPin pf p pin b).1 (verifyPin pf p pin b).2 := by
  by_cases ht : b.termination = false
  swap
  · rw [Bool.not_eq_false] at ht
    rw [verifyPin, Fallible.bind_of_error (ensureNotTerminated_terminated ht)]
    exact hterm ht
  by_cases hb : (b.machine p).state = .bricked
  · rw [verifyPin_bricked ht hb]
    exact hbricked hb
  rcases hc : (pf.counter p).increment b.world with ⟨e | count, w'⟩
  · rw [verifyPin_charge_error ht hb hc]
    exact herror e w' hb hc
  by_cases hgt : (b.machine p).config.maxAttempts < count
  · rw [verifyPin_breach ht hb hc hgt]
    exact hbreach count w' hb hc hgt
  by_cases hpin : pinBytesToVerifierDigest pf pin = b.verifier p
  · rw [verifyPin_success ht hb hc hgt hpin]
    exact hsuccess count w' hc (UInt32.not_lt.mp hgt) hpin
  · rw [verifyPin_failed ht hb hc hgt hpin]
    exact hfailed count w' hc (UInt32.not_lt.mp hgt) hpin

/-- An attempt that succeeds was within the limit and has the right PIN. -/
theorem verifyPin_eq_ok (h : verifyPin pf p pin b = (.ok ⟨⟩, b')) :
    ∃ count w', (pf.counter p).increment b.world = (.ok count, w') ∧
      count ≤ (b.machine p).config.maxAttempts ∧ pinBytesToVerifierDigest pf pin = b.verifier p ∧
      b' = b.attempted p .unlocked ((pf.counter p).refundOnSuccess w').2 := by
  have hcases : (verifyPin pf p pin b).1 = .ok ⟨⟩ → ∃ count w',
      (pf.counter p).increment b.world = (.ok count, w') ∧
        count ≤ (b.machine p).config.maxAttempts ∧ pinBytesToVerifierDigest pf pin = b.verifier p ∧
        (verifyPin pf p pin b).2 = b.attempted p .unlocked ((pf.counter p).refundOnSuccess w').2 := by
    refine verifyPin_cases (P := fun r c ↦ r = .ok ⟨⟩ → ∃ count w',
      (pf.counter p).increment b.world = (.ok count, w') ∧
        count ≤ (b.machine p).config.maxAttempts ∧ pinBytesToVerifierDigest pf pin = b.verifier p ∧
        c = b.attempted p .unlocked ((pf.counter p).refundOnSuccess w').2) ?_ ?_ ?_ ?_ ?_ ?_
    · rintro - ⟨⟩
    · rintro - ⟨⟩
    · rintro e w' - - ⟨⟩
    · rintro count w' - - - ⟨⟩
    · exact fun count w' hc hle hpin _ ↦ ⟨count, w', hc, hle, hpin, rfl⟩
    · rintro count w' - - - ⟨⟩
  rw [h] at hcases
  exact hcases rfl

/-! ## Calm calls -/

/-- A calm move of the backend: keys, signature counter and termination flag are unchanged, no
machine was bricked, and the world moved along `R`. -/
structure Calm (R : W → W → Prop) (b b' : OpenPgpVaultBackend W T) : Prop where
  world : R b.world b'.world
  keys : b'.keys = b.keys
  sigCounter : b'.sigCounter = b.sigCounter
  termination : b'.termination = b.termination
  config : ∀ p, (b'.machine p).config = (b.machine p).config
  bricked : ∀ p, (b'.machine p).state = .bricked → (b.machine p).state = .bricked

variable (hrefl : ∀ w, R w w) (htrans : ∀ u v w, R u v → R v w → R u w) {α γ : Type}

theorem Calm.trans {b'' : OpenPgpVaultBackend W T} (htrans : ∀ u v w, R u v → R v w → R u w)
    (h : Calm R b b') (h' : Calm R b' b'') : Calm R b b'' where
  world := htrans _ _ _ h.world h'.world
  keys := h'.keys.trans h.keys
  sigCounter := h'.sigCounter.trans h.sigCounter
  termination := h'.termination.trans h.termination
  config p := (h'.config p).trans (h.config p)
  bricked p hb := h.bricked p (h'.bricked p hb)

/-- An attempt that leaves the machine in another state than bricked. -/
theorem calm_attempted {state : PinState} {w' : W} (hstate : state ≠ .bricked)
    (hw : R b.world w') : Calm R b (b.attempted p state w') := by
  refine ⟨hw, ?_, ?_, ?_, fun q ↦ ?_, fun q hq ↦ ?_⟩
  · cases p <;> rfl
  · cases p <;> rfl
  · cases p <;> rfl
  · cases p <;> cases q <;> rfl
  · cases p <;> cases q <;> first | exact absurd hq hstate | exact hq

include hrefl

theorem Calm.refl (b : OpenPgpVaultBackend W T) : Calm R b b :=
  ⟨hrefl _, rfl, rfl, rfl, fun _ ↦ rfl, fun _ ↦ id⟩

omit hrefl in
/-- Steps that change neither keys, counter, flag nor machines. -/
theorem calm_onWorld {ε : Type} {m : Fallible W ε α} (hm : Fallible.Moves R m) :
    Fallible.Moves (Calm R) (onWorld m : Fallible (OpenPgpVaultBackend W T) ε α) :=
  fun b ↦ ⟨hm b.world, rfl, rfl, rfl, fun p ↦ by cases p <;> rfl, fun p ↦ by cases p <;> exact id⟩

theorem calm_onTrng {ε : Type} (m : Fallible T ε α) :
    Fallible.Moves (Calm R) (onTrng m : Fallible (OpenPgpVaultBackend W T) ε α) :=
  fun _ ↦ ⟨hrefl _, rfl, rfl, rfl, fun p ↦ by cases p <;> rfl, fun p ↦ by cases p <;> exact id⟩

theorem calm_setVerifier (d : Block 32) : Fallible.Moves (Calm R) (.modify fun b ↦
    b.setVerifier d p : VaultM W T PUnit) := fun b ↦ by
  cases p <;>
    exact ⟨hrefl _, rfl, rfl, rfl, fun q ↦ by cases q <;> rfl, fun q ↦ by cases q <;> exact id⟩

theorem calm_orDeny (o : Option α) (sw : StatusWord) :
    Fallible.Moves (Calm R) (orDeny o sw : VaultM W T α) := by
  cases o with
  | none => exact .fail (Calm.refl hrefl) _
  | some a => exact .pure (Calm.refl hrefl) a

/-- Behind the first check of every method. -/
theorem calm_method {m : VaultM W T α} (hm : Fallible.Moves (Calm R) m) :
    Fallible.Moves (Calm R) (ensureNotTerminated >>= fun _ ↦ m) := by
  intro b
  rw [Fallible.bind_apply]
  cases ht : b.termination with
  | false =>
    rw [ensureNotTerminated_run ht]
    exact hm b
  | true =>
    rw [ensureNotTerminated_terminated ht]
    exact Calm.refl hrefl b

include htrans

omit hrefl in
/-- Calm steps one after the other. -/
theorem calm_bind {ε : Type} {m : Fallible (OpenPgpVaultBackend W T) ε α}
    {f : α → Fallible (OpenPgpVaultBackend W T) ε γ} (hm : Fallible.Moves (Calm R) m)
    (hf : ∀ a, Fallible.Moves (Calm R) (f a)) : Fallible.Moves (Calm R) (m >>= f) :=
  hm.bind (Calm.trans htrans) hf

omit htrans in
theorem calm_fillBytes (n : ℕ) : Fallible.Moves (Calm R) (fillBytes pf n) := calm_onTrng hrefl _

omit htrans in
theorem calm_signPrehash (key : Block 32) (bytes : Bytes) :
    Fallible.Moves (Calm R) (signPrehash pf key bytes) :=
  fun b ↦ by
    rw [signPrehash]
    rcases pf.crypto.ecdsaSignPrehash key (pf.crypto.sha256 bytes) with _ | der
    · exact Calm.refl hrefl b
    · exact Calm.refl hrefl b

omit hrefl in
theorem calm_persistPinHashes (hpins : pf.Spares R .pins) :
    Fallible.Moves (Calm R) (persistPinHashes pf) := by
  have hwrite : ∀ p (d : Block 32), Fallible.Moves (Calm R) (Fallible.orElse
      (onWorld (pf.pinStorage.write (pf.pinOff p) d.toBytes)) (.status .executionError) :
      VaultM W T PUnit) := fun p d ↦ (calm_onWorld (hpins p d)).orElse _
  intro b
  refine (hwrite .user b.userVerifier).bind (Calm.trans htrans) (fun _ b ↦ ?_) b
  exact hwrite .admin b.adminVerifier b

omit hrefl htrans in
theorem calm_resetMachine (hcounters : pf.Spares R .counters) :
    Fallible.Moves (Calm R) (resetMachine pf p) := fun b ↦ by
  have hw : R b.world (pf.newCounter p b.world) := (hcounters p b.world).2.2
  refine ⟨hw, ?_, ?_, ?_, fun q ↦ ?_, fun q hq ↦ ?_⟩
  · cases p <;> rfl
  · cases p <;> rfl
  · cases p <;> rfl
  · cases p <;> cases q <;> rfl
  · cases p <;> cases q <;> first | exact hq | cases hq

/-- An attempt that is no breach. -/
theorem calm_verifyPin (hcounters : pf.Spares R .counters) :
    Fallible.MovesFrom (fun b ↦ ¬ Breaches pf p b) (Calm R) (verifyPin pf p pin) := by
  intro b hb
  have hinc : ∀ {r w'}, (pf.counter p).increment b.world = (r, w') → R b.world w' := by
    intro r w' h
    have hw := (hcounters p b.world).1
    rwa [h] at hw
  refine verifyPin_cases (P := fun _ b' ↦ Calm R b b') ?_ ?_ ?_ ?_ ?_ ?_
  · exact fun _ ↦ Calm.refl hrefl b
  · exact fun h ↦ absurd (.inl h) hb
  · exact fun e w' _ hc ↦ calm_attempted nofun (hinc hc)
  · exact fun count w' _ hc hgt ↦ absurd (.inr ⟨count, w', hc, hgt⟩) hb
  · exact fun count w' hc _ _ ↦
      calm_attempted nofun (htrans _ _ _ (hinc hc) (hcounters p w').2.1)
  · exact fun count w' hc _ _ ↦ calm_attempted nofun (hinc hc)

theorem calm_changePin (hcounters : pf.Spares R .counters) (hpins : pf.Spares R .pins)
    {newPin : Bytes} :
    Fallible.MovesFrom (fun b ↦ ¬ Breaches pf p b) (Calm R) (changePin pf p pin newPin) := by
  have hrest : Fallible.Moves (Calm R) (do
      .modify fun b ↦ b.setVerifier (pinBytesToVerifierDigest pf newPin) p
      persistPinHashes pf
      resetMachine pf p : VaultM W T PUnit) :=
    calm_bind htrans (calm_setVerifier hrefl _) fun _ ↦
      calm_bind htrans (calm_persistPinHashes htrans hpins) fun _ ↦ calm_resetMachine hcounters
  intro b hb
  rw [changePin, Fallible.bind_apply]
  cases ht : b.termination with
  | true =>
    rw [ensureNotTerminated_terminated ht]
    exact Calm.refl hrefl b
  | false =>
    rw [ensureNotTerminated_run ht]
    dsimp only
    rw [Fallible.gets_bind, Fallible.bind_apply, Fallible.require]
    split_ifs
    · exact (calm_verifyPin hrefl htrans hcounters).bind (Calm.trans htrans)
        (fun _ _ _ _ ↦ trivial) (fun _ ↦ hrest.movesFrom) b hb
    · exact Calm.refl hrefl b

/-- The PIN a call makes an attempt on. -/
def BackendCall.attempts : BackendCall → Option CardPin
  | .verifyPw1Sign _ => some .user
  | .verifyPw1Other _ => some .user
  | .verifyPw3 _ => some .admin
  | .changePin pw3 _ _ => some (if pw3 then .admin else .user)
  | _ => none

/-- A call that makes a PIN attempt which breaches. -/
def BackendCall.Breaching (pf : CardPlatform W T) (c : BackendCall) (b : OpenPgpVaultBackend W T) :
    Prop := ∃ p, c.attempts = some p ∧ Breaches pf p b

/-- A call that neither generates a key nor counts a signature. -/
def BackendCall.Plain : BackendCall → Prop
  | .generateOrReadKey p1 _ => p1 ≠ 0x80
  | .incrementSignatureCounter => False
  | _ => True

/-- A call that generates a key. -/
def BackendCall.Generates (c : BackendCall) : Prop := ∃ slot, c = .generateOrReadKey 0x80 slot

omit hrefl htrans in
/-- Every call generates a key, counts a signature, or is plain. -/
theorem BackendCall.generates_or_counts_or_plain (c : BackendCall) :
    c.Generates ∨ c = .incrementSignatureCounter ∨ c.Plain := by
  cases c with
  | generateOrReadKey p1 slot =>
    by_cases hp1 : p1 = 0x80
    · exact .inl ⟨slot, by rw [hp1]⟩
    · exact .inr (.inr hp1)
  | incrementSignatureCounter => exact .inr (.inl rfl)
  | _ => exact .inr (.inr trivial)

omit hrefl htrans in
/-- A call that attempts no PIN does not breach. -/
theorem BackendCall.not_breaching {c : BackendCall} (h : c.attempts = none) : ¬ c.Breaching pf b := by
  rintro ⟨q, hq, -⟩
  rw [h] at hq
  cases hq

theorem calm_generateOrReadKey {p1 : UInt8} (hp1 : p1 ≠ 0x80) (slot : OpenPgpKeySlot) :
    Fallible.Moves (Calm R) (generateOrReadKey pf p1 slot) := by
  refine calm_method hrefl fun b ↦ ?_
  rw [Fallible.gets_bind]
  split_ifs
  · refine (calm_bind htrans (calm_orDeny hrefl _ _) fun kind ↦ ?_) b
    intro b
    exact (calm_bind htrans (calm_orDeny hrefl _ _) fun key ↦ .pure (Calm.refl hrefl) _) b
  · exact Calm.refl hrefl b

/-- **Calm calls.** A plain call that is no breach is calm. -/
theorem calm_performCall {c : BackendCall} (hc : c.Plain) (hdev : ∀ d ∈ c.devices, pf.Spares R d) :
    Fallible.MovesFrom (fun b ↦ ¬ c.Breaching pf b) (Calm R) (performCall pf c) := by
  have hquiet : ∀ {α γ : Type} (g : OpenPgpVaultBackend W T → α) (f : α → VaultM W T γ),
      (∀ a, Fallible.Moves (Calm R) (f a)) → Fallible.Moves (Calm R) (.gets g >>= f) :=
    fun g f hf b ↦ hf (g b) b
  have hpure : ∀ {α : Type} (a : α), Fallible.Moves (Calm R) (pure a : VaultM W T α) :=
    fun a ↦ .pure (Calm.refl hrefl) a
  have hverify : ∀ p pin, pf.Spares R .counters →
      Fallible.MovesFrom (fun b ↦ ¬ Breaches pf p b) (Calm R) (verifyPin pf p pin) :=
    fun _ _ ↦ calm_verifyPin hrefl htrans
  cases c with
  | verifyPw1Sign pin =>
    exact fun b hb ↦ hverify .user pin (hdev _ List.mem_cons_self) b fun h ↦ hb ⟨.user, rfl, h⟩
  | verifyPw1Other pin =>
    exact fun b hb ↦ hverify .user pin (hdev _ List.mem_cons_self) b fun h ↦ hb ⟨.user, rfl, h⟩
  | verifyPw3 pin =>
    exact fun b hb ↦ hverify .admin pin (hdev _ List.mem_cons_self) b fun h ↦ hb ⟨.admin, rfl, h⟩
  | changePin pw3 oldPin newPin =>
    have hpins : pf.Spares R .pins := hdev _ (List.mem_cons_of_mem _ List.mem_cons_self)
    exact fun b hb ↦ calm_changePin hrefl htrans (hdev _ List.mem_cons_self) hpins b
      fun h ↦ hb ⟨_, rfl, h⟩
  | setPw1VerifierAdminOnly newPin =>
    refine Fallible.Moves.movesFrom (calm_method hrefl (hquiet _ _ fun n ↦ ?_))
    refine calm_bind htrans (.require (Calm.refl hrefl) _ _) fun _ ↦ ?_
    exact calm_bind htrans (calm_setVerifier hrefl _) fun _ ↦
      calm_persistPinHashes htrans (hdev _ List.mem_cons_self)
  | resetPw1RetryCounter =>
    exact (calm_method hrefl (calm_resetMachine (hdev _ List.mem_cons_self))).movesFrom
  | putDo tag value =>
    have hwrite : Fallible.Moves R (pf.doStore.write tag value) :=
      hdev .objects List.mem_cons_self tag value
    refine Fallible.Moves.movesFrom (calm_method hrefl ?_)
    refine calm_bind htrans (.require (Calm.refl hrefl) _ _) fun _ ↦ ?_
    exact (calm_onWorld hwrite).orElse _
  | psoSignHash hash =>
    refine Fallible.Moves.movesFrom (calm_method hrefl (hquiet _ _ fun keys ↦ ?_))
    exact calm_bind htrans (calm_orDeny hrefl _ _) fun key ↦ calm_signPrehash hrefl _ _
  | psoDecipher data => exact (calm_method hrefl (.fail (Calm.refl hrefl) _)).movesFrom
  | ecdhDec purpose peer =>
    refine Fallible.Moves.movesFrom (calm_method hrefl ?_)
    refine calm_bind htrans (.require (Calm.refl hrefl) _ _) fun _ ↦ hquiet _ _ fun keys ↦ ?_
    refine calm_bind htrans (calm_orDeny hrefl _ _) fun key ↦ ?_
    refine calm_bind htrans (.require (Calm.refl hrefl) _ _) fun _ ↦ ?_
    exact calm_bind htrans (calm_orDeny hrefl _ _) fun _ ↦ hpure _
  | getChallenge len =>
    exact (calm_method hrefl (calm_bind htrans (calm_fillBytes hrefl _) fun _ ↦
      calm_orDeny hrefl _ _)).movesFrom
  | ed25519Sign purpose message =>
    refine Fallible.Moves.movesFrom (calm_method hrefl (hquiet _ _ fun key ↦ ?_))
    exact calm_bind htrans (calm_orDeny hrefl _ _) fun _ ↦ hpure _
  | x25519Ecdh purpose peer =>
    refine Fallible.Moves.movesFrom (calm_method hrefl ?_)
    refine calm_bind htrans (.require (Calm.refl hrefl) _ _) fun _ ↦ ?_
    refine calm_bind htrans (.require (Calm.refl hrefl) _ _) fun _ ↦ hquiet _ _ fun keys ↦ ?_
    exact calm_bind htrans (calm_orDeny hrefl _ _) fun _ ↦ hpure _
  | internalAuthenticate challenge =>
    refine Fallible.Moves.movesFrom (calm_method hrefl (hquiet _ _ fun attrs ↦ ?_))
    refine hquiet _ _ fun keys ↦ ?_
    split_ifs
    · exact calm_bind htrans (calm_orDeny hrefl _ _) fun _ ↦ hpure _
    · exact calm_bind htrans (calm_orDeny hrefl _ _) fun key ↦ calm_signPrehash hrefl _ _
  | generateOrReadKey p1 slot => exact (calm_generateOrReadKey hrefl htrans hc slot).movesFrom
  | incrementSignatureCounter => exact absurd hc id

/-! ## Calls that breach -/

omit hrefl htrans in
/-- An attempt that breaches fails, and leaves the card terminated. -/
theorem verifyPin_of_breaches (h : Breaches pf p b) :
    ∃ e b', verifyPin pf p pin b = (.error e, b') ∧ b'.termination = true := by
  cases ht : b.termination with
  | true => exact ⟨_, b, Fallible.bind_of_error (ensureNotTerminated_terminated ht), ht⟩
  | false =>
    by_cases hb : (b.machine p).state = .bricked
    · exact ⟨_, _, verifyPin_bricked ht hb, rfl⟩
    · obtain ⟨count, w', hc, hgt⟩ := h.resolve_left hb
      exact ⟨_, _, verifyPin_breach ht hb hc hgt, rfl⟩

omit hrefl htrans in
/-- A call with an attempt that breaches terminates the card, unless it stops before the attempt. -/
theorem performCall_of_breaching {c : BackendCall} (h : c.Breaching pf b) :
    (performCall pf c b).2.termination = true ∨ (performCall pf c b).2 = b := by
  obtain ⟨q, hq, hbreach⟩ := h
  have hverify : ∀ {q pin}, Breaches pf q b → (verifyPin pf q pin b).2.termination = true := by
    intro q pin hbreach
    obtain ⟨e, b', hrun, hterm⟩ : ∃ e b', verifyPin pf q pin b = (.error e, b') ∧ b'.termination = true :=
      verifyPin_of_breaches hbreach
    rw [hrun]
    exact hterm
  cases c with
  | verifyPw1Sign pin =>
    obtain rfl := Option.some.inj hq
    exact .inl (hverify hbreach)
  | verifyPw1Other pin =>
    obtain rfl := Option.some.inj hq
    exact .inl (hverify hbreach)
  | verifyPw3 pin =>
    obtain rfl := Option.some.inj hq
    exact .inl (hverify hbreach)
  | changePin pw3 oldPin newPin =>
    have hq : (if pw3 then CardPin.admin else .user) = q := Option.some.inj hq
    rw [performCall, hq, changePin]
    cases ht : b.termination with
    | true =>
      rw [Fallible.bind_of_error (ensureNotTerminated_terminated ht)]
      exact .inr rfl
    | false =>
      rw [Fallible.bind_of_ok (ensureNotTerminated_run ht), Fallible.gets_bind, Fallible.bind_apply,
        Fallible.require]
      split_ifs
      · obtain ⟨e, b', hrun, hterm⟩ : ∃ e b', verifyPin pf q oldPin b = (.error e, b') ∧
          b'.termination = true := verifyPin_of_breaches hbreach
        rw [Fallible.pure_apply]
        dsimp only
        rw [Fallible.bind_of_error hrun]
        exact .inl hterm
      · exact .inr rfl
  | _ => cases hq

/-- A plain call writes to no cell: reading a key out is plain and does not write. -/
theorem calm_performCall_of_apart {c : BackendCall} (hc : c.Plain)
    (hapart : ∀ d ≠ .cells, pf.Spares R d) (hbreach : ¬ c.Breaching pf b) :
    Calm R b (performCall pf c b).2 := by
  by_cases hread : ∃ p1 slot, c = .generateOrReadKey p1 slot
  · obtain ⟨p1, slot, rfl⟩ := hread
    exact calm_generateOrReadKey hrefl htrans hc slot b
  · refine calm_performCall hrefl htrans hc (fun d hd ↦ hapart d ?_) b hbreach
    rintro rfl
    exact hread (BackendCall.generates_of_cells_mem hd)

/-- **Plain calls.** A plain call is calm or leaves the card terminated. -/
theorem performCall_plain {c : BackendCall} (hc : c.Plain) (hapart : ∀ d ≠ .cells, pf.Spares R d) :
    (performCall pf c b).2.termination = true ∨ Calm R b (performCall pf c b).2 := by
  by_cases hbreach : c.Breaching pf b
  · refine (performCall_of_breaching hbreach).imp_right fun heq ↦ ?_
    rw [heq]
    exact Calm.refl hrefl b
  · exact .inr (calm_performCall_of_apart hrefl htrans hc hapart hbreach)

/-! ## Generating a key -/

/-- A calm move but for the keys of one slot. -/
structure CalmBut (R : W → W → Prop) (slot : OpenPgpKeySlot) (b b' : OpenPgpVaultBackend W T) :
    Prop where
  world : R b.world b'.world
  keys : ∀ s ≠ slot, b'.keys s = b.keys s
  sigCounter : b'.sigCounter = b.sigCounter
  termination : b'.termination = b.termination
  config : ∀ p, (b'.machine p).config = (b.machine p).config
  bricked : ∀ p, (b'.machine p).state = .bricked → (b.machine p).state = .bricked

omit hrefl htrans in
theorem Calm.but (h : Calm R b b') (slot : OpenPgpKeySlot) : CalmBut R slot b b' where
  world := h.world
  keys s _ := congrFun h.keys s
  sigCounter := h.sigCounter
  termination := h.termination
  config := h.config
  bricked := h.bricked

omit hrefl htrans in
theorem calmBut_setKeys (h : Calm R b b') (slot : OpenPgpKeySlot) (k : SlotKeys) :
    CalmBut R slot b (b'.setKeys slot k) where
  world := h.world
  keys s hs := by
    rw [OpenPgpVaultBackend.setKeys]
    dsimp only
    rw [if_neg hs, h.keys]
  sigCounter := h.sigCounter
  termination := h.termination
  config p := by
    cases p
    · exact h.config .user
    · exact h.config .admin
  bricked p := by
    cases p
    · exact h.bricked .user
    · exact h.bricked .admin

omit htrans in
theorem calm_generateSecret (kind : KeyKind) :
    Fallible.Moves (Calm R) (generateSecret pf kind : VaultM W T (Block 32)) := by
  cases kind with
  | brainpool => exact (calm_onTrng hrefl _).orElse _
  | curve25519 => exact calm_fillBytes hrefl 32

theorem calm_persistPrivateKey (hcells : pf.Spares R .cells) (purpose : KeyPurpose)
    (scalar : Bytes) : Fallible.Moves (Calm R) (persistPrivateKey pf purpose scalar) := by
  refine calm_bind htrans ((calm_onTrng hrefl _).orElse _) fun blob ↦ ?_
  exact (calm_onWorld (hcells purpose _)).orElse _

/-- A generation that fails leaves the keys in memory alone. One that succeeds has sealed the new
key and put it, alone, into its slot. -/
theorem generateKey_run (hcells : pf.Spares R .cells) (slot : OpenPgpKeySlot)
    (kind : Option KeyKind) (b : OpenPgpVaultBackend W T) :
    (∃ e b', generateKey pf slot kind b = (.error e, b') ∧ Calm R b b') ∨
      ∃ out b' k key, generateKey pf slot kind b = (.ok out, b'.setKeys slot (.only key k)) ∧
        kind = some k ∧ Calm R b b' := by
  rw [generateKey]
  rcases kind with _ | k
  · exact .inl ⟨_, b, rfl, Calm.refl hrefl b⟩
  rw [Fallible.bind_of_ok (show (orDeny (some k) .conditionsNotSatisfied : VaultM W T KeyKind) b
    = (.ok k, b) from rfl), Fallible.bind_apply]
  have hsecret : Calm R b ((generateSecret pf k : VaultM W T (Block 32)) b).2 :=
    calm_generateSecret hrefl k b
  rcases hs : (generateSecret pf k : VaultM W T (Block 32)) b with ⟨e | key, b₁⟩ <;> rw [hs] at hsecret
  · exact .inl ⟨e, b₁, rfl, hsecret⟩
  dsimp only
  rw [Fallible.bind_apply]
  have hpersist := calm_persistPrivateKey hrefl htrans hcells (purposeOf slot) key.toBytes b₁
  rcases hp : persistPrivateKey pf (purposeOf slot) key.toBytes b₁ with ⟨e | _, b₂⟩ <;>
    rw [hp] at hpersist
  · exact .inl ⟨e, b₂, rfl, Calm.trans htrans hsecret hpersist⟩
  · exact .inr ⟨_, b₂, k, key, rfl, rfl, Calm.trans htrans hsecret hpersist⟩

/-- A generation changes the keys of its slot at most. -/
theorem calmBut_generate (hcells : pf.Spares R .cells) (slot : OpenPgpKeySlot) :
    Fallible.Moves (CalmBut R slot) (generateOrReadKey pf 0x80 slot) := by
  intro b
  rw [generateOrReadKey, Fallible.bind_apply]
  cases ht : b.termination with
  | true =>
    rw [ensureNotTerminated_terminated ht]
    exact (Calm.refl hrefl b).but slot
  | false =>
    rw [ensureNotTerminated_run ht]
    dsimp only
    rw [Fallible.gets_bind, if_neg (by decide), if_neg (by decide)]
    rcases generateKey_run hrefl htrans hcells slot
        (kindFor slot (algorithmAttributesForSlot pf b slot)) b with
      ⟨e, b', h, hcalm⟩ | ⟨out, b', k, key, h, -, hcalm⟩
    · rw [h]
      exact hcalm.but slot
    · rw [h]
      exact calmBut_setKeys hcalm slot _

/-! ## Signing -/

omit hrefl htrans in
/-- A signature with the Brainpool key of the signature slot. -/
theorem psoSignHash_run {key : Block 32} {hash : Bytes} {der : Vec 72} (ht : b.termination = false)
    (hkey : (b.keys .sig).brainpool = some key)
    (hder : pf.crypto.ecdsaSignPrehash key (pf.crypto.sha256 hash) = some der) :
    psoSignHash pf hash b = (.ok (.truncated der.toBytes), b) := by
  rw [psoSignHash, Fallible.bind_of_ok (ensureNotTerminated_run ht), Fallible.gets_bind, hkey,
    Fallible.bind_of_ok (show (orDeny (some key) .referenceDataNotFound : VaultM W T _) b = _ from rfl),
    signPrehash, hder]
  rfl

/-! ## Counting a signature -/

omit hrefl htrans in
/-- A count steps the counter in memory and writes it to the object store. -/
theorem incrementSignatureCounter_run (ht : b.termination = false) :
    incrementSignatureCounter pf b =
      (let c := saturatingAdd b.sigCounter 1
       ((Fallible.orElse (pf.doStore.write 0x93 (counterBytes c))
          (.status .executionError) b.world).1,
        { b with sigCounter := c, world := (pf.doStore.write 0x93 (counterBytes c) b.world).2 })) := by
  rw [incrementSignatureCounter, Fallible.bind_of_ok (ensureNotTerminated_run ht),
    Fallible.modify_bind, Fallible.gets_bind]
  dsimp only
  rw [Fallible.orElse, Fallible.orElse, onWorld, Fallible.zoom_apply]
  rcases pf.doStore.write 0x93 _ b.world with ⟨_ | _, _⟩ <;> rfl

end Galdralag.OpenPgp
