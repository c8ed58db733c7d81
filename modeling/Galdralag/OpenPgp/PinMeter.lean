import Galdralag.OpenPgp.MalformedPins
import Galdralag.OpenPgp.PinStrength
import Galdralag.PinPolicy.Allowance

/-!
# The meter of a card

Three things decide what a card says about the tries on its PINs: the limits of the policy machines,
the counters, and the PW status bytes in the object store. They are independent of each other. A
wrong PIN is counted, PUT DATA writes the status bytes, and all other commands leave the meter as it
is, unless they terminate the card.
-/

set_option linter.all false

namespace Galdralag.OpenPgp

variable {W T : Type}

/-- The limits and counts of both PINs, and the PW status bytes. -/
@[ext] structure Meter where
  limit : CardPin → UInt32
  count : CardPin → UInt32
  status : Bytes

/-- One more attempt is counted. -/
def Meter.charge (p : CardPin) (m : Meter) : Meter :=
  { m with count := fun q ↦ if q = p then saturatingAdd (m.count q) 1 else m.count q }

/-- The PW status bytes that a world holds, or none. -/
def statusObject (pf : CardPlatform W T) (objects : W → Memory) (w : W) : Bytes :=
  ((pf.doStore.object (objects w) 0xC4).map Vec.toBytes).getD []

/-- The meter of a backend. -/
def OpenPgpVaultBackend.meter (pf : CardPlatform W T) (objects : W → Memory)
    (value : CardPin → W → UInt32) (b : OpenPgpVaultBackend W T) : Meter where
  limit p := (b.machine p).config.maxAttempts
  count p := value p b.world
  status := statusObject pf objects b.world

/-- A card whose counters and storages keep their contents, and do not get into each other's way. -/
structure CardPlatform.Metered (pf : CardPlatform W T) (objects pins cells : W → Memory) (pinLimit : ℕ)
    (value : CardPin → W → UInt32) : Prop where
  keeps : pf.Keeps objects pins cells pinLimit
  counts : pf.Counts value
  renewed : ∀ p q w, value q (pf.newCounter p w) = value q w
  spared : ∀ d ≠ .counters, pf.Spares (fun w w' ↦ ∀ q, value q w' = value q w) d

/-- What the meter reads in a world is the same. -/
def SameReadings (pf : CardPlatform W T) (objects : W → Memory) (value : CardPin → W → UInt32)
    (w w' : W) : Prop :=
  (∀ q, value q w' = value q w) ∧ statusObject pf objects w' = statusObject pf objects w

/-- The card is no more terminated than before, no machine is bricked, and the meter is the same. -/
structure Steady (pf : CardPlatform W T) (objects : W → Memory) (value : CardPin → W → UInt32)
    (b b' : OpenPgpVaultBackend W T) : Prop where
  termination : b'.termination = b.termination
  bricked : ∀ p, (b'.machine p).state = .bricked → (b.machine p).state = .bricked
  meter : b'.meter pf objects value = b.meter pf objects value

variable {pf : CardPlatform W T} {objects pins cells : W → Memory} {pinLimit : ℕ}
  {value : CardPin → W → UInt32} {b b' : OpenPgpVaultBackend W T} {p : CardPin} {pin : Bytes}
  {w w' : W}

theorem SameReadings.refl (w : W) : SameReadings pf objects value w w := ⟨fun _ ↦ rfl, rfl⟩

theorem SameReadings.trans {w'' : W} (h : SameReadings pf objects value w w')
    (h' : SameReadings pf objects value w' w'') : SameReadings pf objects value w w'' :=
  ⟨fun q ↦ (h'.1 q).trans (h.1 q), h'.2.trans h.2⟩

theorem Steady.refl (b : OpenPgpVaultBackend W T) : Steady pf objects value b b :=
  ⟨rfl, fun _ h ↦ h, rfl⟩

theorem Steady.trans {b'' : OpenPgpVaultBackend W T} (h : Steady pf objects value b b')
    (h' : Steady pf objects value b' b'') : Steady pf objects value b b'' :=
  ⟨h'.termination.trans h.termination, fun p hp ↦ h.bricked p (h'.bricked p hp), h'.meter.trans h.meter⟩

theorem meter_eq (hconfig : ∀ p, (b'.machine p).config = (b.machine p).config)
    (hworld : SameReadings pf objects value b.world b'.world) :
    b'.meter pf objects value = b.meter pf objects value := by
  rw [OpenPgpVaultBackend.meter, OpenPgpVaultBackend.meter, hworld.2, funext hworld.1]
  simp only [hconfig]

/-- A calm call over the same readings. -/
theorem Calm.steady (h : Calm (SameReadings pf objects value) b b') : Steady pf objects value b b' :=
  ⟨h.termination, h.bricked, meter_eq h.config h.world⟩

theorem steady_audit (audit : UInt32) (b : OpenPgpVaultBackend W T) :
    Steady pf objects value b { b with audit := audit } := by
  refine ⟨rfl, fun p hp ↦ ?_, meter_eq (fun p ↦ ?_) (.refl _)⟩
  · cases p <;> exact hp
  · cases p <;> rfl

theorem steady_method {α : Type} {m : VaultM W T α} (h : Fallible.Moves (Steady pf objects value) m) :
    Fallible.Moves (Steady pf objects value) (ensureNotTerminated >>= fun _ ↦ m) := by
  refine Fallible.Moves.bind (fun b ↦ ?_) Steady.trans fun _ ↦ h
  exact Fallible.Moves.require Steady.refl (b.termination = false) _ b

/-- The same region, the same status bytes. -/
theorem statusObject_congr (h : Memory.AgreeOn pf.doStore.base (pf.doStore.base + DoStore.regionBytes)
    (objects w') (objects w)) : statusObject pf objects w' = statusObject pf objects w := by
  rw [statusObject, statusObject, DoStore.object_congr h]

section Metered

variable (hm : pf.Metered objects pins cells pinLimit value)
include hm

/-- PIN digests and key cells are written without regard to the meter. -/
theorem CardPlatform.Metered.spares {d : Device} (hcounters : d ≠ .counters) (hobjects : d ≠ .objects) :
    pf.Spares (SameReadings pf objects value) d := by
  have hvalues := hm.spared d hcounters
  have hregion := hm.keeps.objectsApart d hobjects
  cases d with
  | objects => exact absurd rfl hobjects
  | pins => exact fun p digest w ↦ ⟨hvalues p digest w, statusObject_congr (hregion p digest w)⟩
  | cells => exact fun purpose cell w ↦ ⟨hvalues purpose cell w, statusObject_congr (hregion purpose cell w)⟩
  | counters => exact absurd rfl hcounters

/-- Counters are counted without regard to the status bytes. -/
theorem statusObject_counter (p : CardPin) (w : W) :
    statusObject pf objects ((pf.counter p).increment w).2 = statusObject pf objects w ∧
      statusObject pf objects ((pf.counter p).refundOnSuccess w).2 = statusObject pf objects w ∧
      statusObject pf objects (pf.newCounter p w) = statusObject pf objects w := by
  obtain ⟨hincrement, hrefund, hnew⟩ := hm.keeps.objectsApart .counters (by decide) p w
  exact ⟨statusObject_congr hincrement, statusObject_congr hrefund, statusObject_congr hnew⟩

/-- Whether writing an object leaves the PW status bytes alone: it is another one, or too long. -/
def SparesStatus (tag : UInt16) (data : Bytes) : Prop := tag ≠ 0xC4 ∨ 254 < data.length

theorem sameReadings_write {tag : UInt16} {data : Bytes} (h : SparesStatus tag data) (w : W) :
    SameReadings pf objects value w (pf.doStore.write tag data w).2 := by
  refine ⟨hm.spared .objects (by decide) tag data w, ?_⟩
  rcases DoStore.write_run hm.keeps.objectsFaithful (Nat.le_refl _) tag data w with
    ⟨w', hrun, hwritten⟩ | ⟨e, w', hrun, hsame, -⟩ <;> rw [hrun, statusObject, statusObject]
  · have htag : tag ≠ 0xC4 := h.resolve_right (Nat.not_lt.mpr hwritten.length_le)
    rw [hwritten.object 0xC4 (by decide), if_neg htag.symm]
  · rw [hsame.object 0xC4 (by decide)]

/-! ## Attempts -/

/-- The right PIN leaves the meter as it was, unless the counter is full. -/
theorem steady_verifyPin (hleft : AttemptsLeft pf p b) (hpin : pin ∈ accepted pf b p)
    (hfull : (b.machine p).config.maxAttempts ≠ u32Max) :
    (verifyPin pf p pin b).1 = .ok ⟨⟩ ∧ Steady pf objects value b (verifyPin pf p pin b).2 := by
  obtain ⟨hrunning, hlive, count, w, hcharge, hle⟩ := hleft
  rw [verifyPin_success hrunning hlive hcharge (UInt32.not_lt.mpr hle) hpin]
  refine ⟨rfl, ?_⟩
  obtain ⟨hcount, hw⟩ := Prod.mk.inj (((hm.counts.persistent p).increment_run b.world).symm.trans hcharge)
  rw [← Except.ok.inj hcount, PinPolicyMachine.saturatingAdd_one_le_iff hfull] at hle
  have hroom : value p b.world ≠ u32Max := by
    intro heq
    have hmax : (value p b.world).toNat = 2 ^ 32 - 1 := by rw [heq]; rfl
    have hlt := (b.machine p).config.maxAttempts.toNat_lt
    omega
  have hreadings : SameReadings pf objects value b.world ((pf.counter p).refundOnSuccess w).2 := by
    rw [← hw]
    refine ⟨(hm.counts.refund_free_iff p b.world).mpr hroom, ?_⟩
    exact (statusObject_counter hm p _).2.1.trans (statusObject_counter hm p b.world).1
  exact (calm_attempted (fun h ↦ PinState.noConfusion h) hreadings).steady

/-- A wrong PIN is counted, and answered with what is left of the limit. -/
theorem charged_verifyPin (hleft : AttemptsLeft pf p b) (hpin : pin ∉ accepted pf b p) :
    let b' := (verifyPin pf p pin b).2
    (verifyPin pf p pin b).1 = .error (.status (.verificationFailedRetries
      (saturatingSub (b.machine p).config.maxAttempts (value p b'.world)).toUInt8)) ∧
    b'.termination = b.termination ∧ (∀ q, (b'.machine q).state = .bricked → (b.machine q).state = .bricked) ∧
    b'.meter pf objects value = (b.meter pf objects value).charge p := by
  obtain ⟨hrunning, hlive, count, w, hcharge, hle⟩ := hleft
  rw [verifyPin_failed hrunning hlive hcharge (UInt32.not_lt.mpr hle) hpin]
  obtain ⟨hcount, hw⟩ := Prod.mk.inj (((hm.counts.persistent p).increment_run b.world).symm.trans hcharge)
  have hworld : (b.attempted p .lockedIdle w).world = w := by cases p <;> rfl
  have hvalue : value p w = saturatingAdd (value p b.world) 1 := by
    rw [← hw]
    exact (hm.counts.persistent p).value_increment b.world
  have hcalm : Calm (fun _ _ ↦ True) b (b.attempted p .lockedIdle w) :=
    calm_attempted (fun h ↦ PinState.noConfusion h) trivial
  refine ⟨?_, hcalm.termination, hcalm.bricked, ?_⟩
  · dsimp only
    rw [hworld, hvalue, ← Except.ok.inj hcount]
  · refine Meter.ext (funext fun q ↦ ?_) (funext fun q ↦ ?_) ?_
    · exact congrArg PinPolicyConfig.maxAttempts (hcalm.config q)
    · change value q (b.attempted p .lockedIdle w).world
        = if q = p then saturatingAdd (value q b.world) 1 else value q b.world
      rw [hworld]
      split_ifs with hq
      · rw [hq, hvalue]
      · rw [← hw]
        exact (hm.counts.apart hq b.world).1
    · change statusObject pf objects (b.attempted p .lockedIdle w).world = statusObject pf objects b.world
      rw [hworld, ← hw]
      exact (statusObject_counter hm p b.world).1

/-- Without attempts left the card is terminated. -/
theorem terminated_verifyPin (hleft : ¬ AttemptsLeft pf p b) (hrunning : b.termination = false) :
    (verifyPin pf p pin b).1 = .error (.status .authMethodBlocked) ∧
      (verifyPin pf p pin b).2.termination = true := by
  by_cases hb : (b.machine p).state = .bricked
  · rw [verifyPin_bricked hrunning hb]
    exact ⟨rfl, rfl⟩
  have hcharge := (hm.counts.persistent p).increment_run b.world
  by_cases hgt : (b.machine p).config.maxAttempts < saturatingAdd (value p b.world) 1
  · rw [verifyPin_breach hrunning hb hcharge hgt]
    exact ⟨rfl, rfl⟩
  · exact absurd ⟨hrunning, hb, _, _, hcharge, UInt32.not_lt.mp hgt⟩ hleft

/-! ## Other calls -/

theorem steady_store (c : PinChange) (b : OpenPgpVaultBackend W T) :
    Steady pf objects value b (c.store pf b).2 := by
  have hpins := hm.spares (d := .pins) (by decide) (by decide)
  have htrans : ∀ u v w, SameReadings pf objects value u v → SameReadings pf objects value v w →
      SameReadings pf objects value u w := fun _ _ _ ↦ .trans
  have hcalm : Fallible.Moves (Calm (SameReadings pf objects value)) (c.store pf) :=
    calm_bind htrans (calm_setVerifier .refl _) fun _ ↦ calm_persistPinHashes htrans hpins
  exact (hcalm b).steady

/-- A new machine has the old limit, and its counter the old count. -/
theorem steady_resetMachine (p : CardPin) (b : OpenPgpVaultBackend W T) :
    Steady pf objects value b (resetMachine pf p b).2 := by
  have hworld : SameReadings pf objects value b.world (pf.newCounter p b.world) :=
    ⟨fun q ↦ hm.renewed p q b.world, (statusObject_counter hm p b.world).2.2⟩
  refine ⟨?_, fun q hq ↦ ?_, meter_eq (fun q ↦ ?_) hworld⟩
  · cases p <;> rfl
  · cases p <;> cases q <;> first | exact hq | cases hq
  · cases p <;> cases q <;> rfl

/-- A change whose attempt kept the meter keeps it. -/
theorem steady_apply {c : PinChange} (hattempt : (c.attempt pf b).1 = .ok ⟨⟩)
    (h : Steady pf objects value b (c.attempt pf b).2) : Steady pf objects value b (c.apply pf b).2 := by
  rw [PinChange.apply, Fallible.bind_of_ok (Prod.ext hattempt rfl)]
  have hstore := steady_store hm c (c.attempt pf b).2
  rcases hs : c.store pf (c.attempt pf b).2 with ⟨e | ⟨⟨⟩⟩, b₂⟩ <;> rw [hs] at hstore
  · rw [Fallible.bind_of_error hs]
    exact h.trans hstore
  · rw [Fallible.bind_of_ok hs]
    exact (h.trans hstore).trans (steady_resetMachine hm c.pin b₂)

theorem steady_writeObject {tag : UInt16} {data : Bytes} (h : SparesStatus tag data)
    (e : OpenPgpBackendError) :
    Fallible.Moves (Steady pf objects value)
      (.orElse (onWorld (pf.doStore.write tag data)) e : VaultM W T PUnit) := by
  have hcalm : Fallible.Moves (Calm (SameReadings pf objects value))
      (onWorld (pf.doStore.write tag data) : Fallible (OpenPgpVaultBackend W T) DoStoreError PUnit) :=
    calm_onWorld (sameReadings_write hm h)
  exact Fallible.Moves.orElse (fun b ↦ (hcalm b).steady) e

/-- Calls that make no attempt and write no PW status bytes keep the meter. -/
theorem steady_performCall {c : BackendCall} (hattempts : c.attempts = none)
    (hput : ∀ tag data, c = .putDo tag data → SparesStatus tag data) :
    Fallible.Moves (Steady pf objects value) (performCall pf c) := by
  have hrefl : ∀ w, SameReadings pf objects value w w := .refl
  have htrans : ∀ u v w, SameReadings pf objects value u v → SameReadings pf objects value v w →
      SameReadings pf objects value u w := fun _ _ _ ↦ .trans
  have hplain : c.Plain → (∀ d ∈ c.devices, d ≠ .counters ∧ d ≠ .objects) →
      Fallible.Moves (Steady pf objects value) (performCall pf c) := by
    intro hc hdev b
    have hbreach : ¬ c.Breaching pf b := BackendCall.not_breaching hattempts
    exact (calm_performCall hrefl htrans hc
      (fun d hd ↦ hm.spares (hdev d hd).1 (hdev d hd).2) b hbreach).steady
  have hnone : ∀ d : Device, d ∈ ([] : List Device) → d ≠ .counters ∧ d ≠ .objects := by
    intro d hd
    exact absurd hd List.not_mem_nil
  cases c with
  | verifyPw1Sign pin => cases hattempts
  | verifyPw1Other pin => cases hattempts
  | verifyPw3 pin => cases hattempts
  | changePin pw3 old new => cases hattempts
  | setPw1VerifierAdminOnly new =>
    refine hplain trivial fun d hd ↦ ?_
    rw [List.mem_singleton.mp hd]
    decide
  | resetPw1RetryCounter => exact steady_method (steady_resetMachine hm .user)
  | putDo tag data =>
    refine steady_method (Fallible.Moves.bind ?_ Steady.trans fun _ ↦ ?_)
    · exact Fallible.Moves.require Steady.refl _ _
    · exact steady_writeObject hm (hput tag data rfl) _
  | generateOrReadKey p1 slot =>
    by_cases hp1 : p1 = 0x80
    · have hcells := hm.spares (d := .cells) (by decide) (by decide)
      intro b
      have hbut := calmBut_generate hrefl htrans hcells slot b
      rw [hp1]
      exact ⟨hbut.termination, hbut.bricked, meter_eq hbut.config hbut.world⟩
    · refine hplain hp1 fun d hd ↦ ?_
      rw [List.mem_singleton.mp hd]
      decide
  | incrementSignatureCounter =>
    refine steady_method (Fallible.Moves.bind (fun b ↦ ?_) Steady.trans fun _ b ↦ ?_)
    · refine ⟨rfl, fun q hq ↦ ?_, meter_eq (fun q ↦ ?_) (.refl _)⟩
      · cases q <;> exact hq
      · cases q <;> rfl
    · exact steady_writeObject hm (.inl (by decide)) _ b
  | _ => exact hplain trivial hnone

/-! ## Commands -/

variable {s : Session (OpenPgpVaultBackend W T)} {cmd : CommandApdu}

/-- Commands that present no PIN and write no PW status bytes. -/
theorem steady_handle_other (hverify : cmd.ins ≠ 0x20) (hchange : cmd.ins ≠ 0x24)
    (hput : cmd.ins = 0xDA ∨ cmd.ins = 0xDB → SparesStatus cmd.tag cmd.data.toBytes)
    (s : Session (OpenPgpVaultBackend W T)) :
    Steady pf objects value s.backend (handle (vaultBackend pf) cmd s).2.backend := by
  have hlifts : Lifts (vaultBackend pf) cmd (fun _ ↦ True) (Steady pf objects value) := {
    refl := .refl
    trans := .trans
    log := fun _ b ↦ steady_audit _ b
    log_keeps := fun _ _ _ ↦ trivial
    asked := by
      intro c hasks b _
      refine steady_performCall hm ?_ ?_ b
      · cases c with
        | verifyPw1Sign pin => exact absurd hasks.1 hverify
        | verifyPw1Other pin => exact absurd hasks.1 hverify
        | verifyPw3 pin => exact absurd hasks.1 hverify
        | changePin pw3 old new => exact absurd hasks.1 hchange
        | _ => rfl
      · rintro tag data rfl
        rw [hasks.2.1, hasks.2.2]
        exact hput hasks.1
    prelude := fun _ _ _ _ _ ↦ trivial }
  exact hlifts.handle s trivial

/-- PUT DATA of PW status bytes that is carried out, where there are some already. -/
def StoresStatus (s : Session (OpenPgpVaultBackend W T)) (cmd : CommandApdu) : Prop :=
  (cmd.ins = 0xDA ∨ cmd.ins = 0xDB) ∧ cmd.tag = 0xC4 ∧ s.card.pw3Verified = true ∧ cmd.data.length ≤ 254

omit hm in
theorem putDo_status (ht : b.termination = false) (data : Bytes) : putDo pf 0xC4 data b
    = (.orElse (onWorld (pf.doStore.write 0xC4 data)) (.status .executionError) : VaultM W T PUnit) b := by
  have hnot : putRefused 0xC4 data = false := rfl
  rw [putDo, Fallible.bind_of_ok (ensureNotTerminated_run ht),
    Fallible.bind_of_ok (Fallible.require_of hnot _ _)]

/-- The status bytes are replaced. -/
theorem handle_storesStatus (ht : s.backend.termination = false)
    (hpresent : statusObject pf objects s.backend.world ≠ []) (h : StoresStatus s cmd) :
    let t := (handle (vaultBackend pf) cmd s).2
    t.backend.termination = false ∧ (∀ p, t.backend.machine p = s.backend.machine p) ∧
    t.backend.meter pf objects value
      = { s.backend.meter pf objects value with status := cmd.data.toBytes } := by
  obtain ⟨hins, htag, hflag, hlen⟩ := h
  have hobject : pf.doStore.object (objects s.backend.world) 0xC4 ≠ none := by
    intro hnone
    rw [statusObject, hnone] at hpresent
    exact hpresent rfl
  have htagged : (0xC4 : UInt16) ≠ 0 := by decide
  obtain ⟨w', hrun, hwritten⟩ := DoStore.write_of_object hm.keeps.objectsFaithful (Nat.le_refl _)
    htagged hlen hobject
  have hput : (vaultBackend pf).perform (.putDo cmd.tag cmd.data.toBytes) s.backend
      = (.ok ⟨⟩, { s.backend with world := w' }) := by
    change putDo pf cmd.tag cmd.data.toBytes s.backend = _
    rw [htag, putDo_status ht]
    refine Fallible.orElse_eq_ok.mpr ?_
    rw [onWorld, Fallible.zoom_apply, hrun]
  have hallowed : putAllowed s.card cmd.tag = true := by
    rw [htag, putAllowed_eq]
    exact hflag
  have hterm : (vaultBackend pf).isTerminationState s.backend = false := ht
  rw [handle_putData hterm hins hallowed hput]
  refine ⟨ht, fun p ↦ ?_, ?_⟩
  · cases p <;> rfl
  · have hcounts := hm.spared .objects (by decide) 0xC4 cmd.data.toBytes s.backend.world
    rw [hrun] at hcounts
    refine Meter.ext (funext fun p ↦ ?_) (funext hcounts) ?_
    · cases p <;> rfl
    · change statusObject pf objects w' = cmd.data.toBytes
      rw [statusObject, hwritten.object 0xC4 (by decide), if_pos rfl, Vec.ofBytes?_of_le hlen]
      exact Vec.toBytes_truncated hlen

/-- PUT DATA of status bytes that are too long, or without the admin PIN, changes nothing. -/
theorem steady_handle_status (hins : cmd.ins = 0xDA ∨ cmd.ins = 0xDB) (htag : cmd.tag = 0xC4)
    (h : ¬ StoresStatus s cmd) :
    Steady pf objects value s.backend (handle (vaultBackend pf) cmd s).2.backend := by
  by_cases hlen : cmd.data.length ≤ 254
  swap
  · refine steady_handle_other hm ?_ ?_ (fun _ ↦ .inr (Nat.not_le.mp hlen)) s
    · rcases hins with hins | hins <;> rw [hins] <;> decide
    · rcases hins with hins | hins <;> rw [hins] <;> decide
  have hflag : s.card.pw3Verified ≠ true := fun hflag ↦ h ⟨hins, htag, hflag, hlen⟩
  cases ht : s.backend.termination with
  | true =>
    have hterm : (vaultBackend pf).isTerminationState s.backend = true := ht
    rw [handle_terminated hterm]
    exact .refl _
  | false =>
    have hterm : (vaultBackend pf).isTerminationState s.backend = false := ht
    have hi : Instruction.ofByte cmd.ins = some .putData := by
      rcases hins with hins | hins <;> rw [hins] <;> rfl
    rw [handle_run hterm hi, Instruction.handler, handlePutData, demandFlag_bind_eq, htag, putAllowed_eq]
    have hnot : ¬ (if underPw1 0xC4 = true then s.card.pw1VerifiedOther else s.card.pw3Verified) = true :=
      hflag
    rw [if_neg hnot]
    exact .refl _

end Metered

/-! ## Commands that present a PIN -/

section Presenting

variable {s t : Session (OpenPgpVaultBackend W T)} {cmd : CommandApdu}

/-- The password a command makes an attempt on, and the PIN it presents. -/
def triedPin (pf : CardPlatform W T) (s : Session (OpenPgpVaultBackend W T)) (cmd : CommandApdu) :
    Option (CardPin × Bytes) :=
  if cmd.ins = 0x20 then (passwordOf cmd.p2).map fun p ↦ (p, cmd.data.toBytes)
  else if cmd.ins = 0x24 ∧ ChangeChecked pf s.backend cmd then
    some (changedPin cmd.p2, changedFrom pf s.backend cmd)
  else none

/-- An attempt that fails is answered with its error. -/
theorem handle_tried_error (ht : s.backend.termination = false) (h : triedPin pf s cmd = some (p, pin))
    {e : OpenPgpBackendError} (hfails : verifyPin pf p pin s.backend = (.error e, b')) :
    ∃ t, handle (vaultBackend pf) cmd s = (.error (mapErr e), t) ∧ t.backend = b' := by
  rw [triedPin] at h
  split_ifs at h with hins hchange
  · obtain ⟨q, hp, heq⟩ := Option.map_eq_some_iff.mp h
    obtain ⟨rfl, rfl⟩ := Prod.mk.inj heq
    exact ⟨_, verify_error hins hp ht hfails, rfl⟩
  · obtain ⟨rfl, rfl⟩ := Prod.mk.inj (Option.some.inj h)
    have hrequested : requestedChange pf s cmd
        = some ⟨changedPin cmd.p2, some (changedFrom pf s.backend cmd), changedTo pf s.backend cmd⟩ := by
      rw [requestedChange, if_neg (ne_true_of_eq_false ht), if_pos hchange]
    have happly : PinChange.apply pf
        ⟨changedPin cmd.p2, some (changedFrom pf s.backend cmd), changedTo pf s.backend cmd⟩ s.backend
        = (.error e, b') := by
      rw [PinChange.apply, PinChange.attempt, Fallible.bind_of_error hfails]
    rcases handle_requested hrequested with ⟨e', t, hrun, -, hhandle⟩ | ⟨_, _, t, hrun, -⟩
    · obtain ⟨he, hb⟩ := Prod.mk.inj (hrun.symm.trans happly)
      obtain rfl := Except.error.inj he
      exact ⟨t, hhandle, hb⟩
    · cases (Prod.mk.inj (hrun.symm.trans happly)).1

/-- Where the attempt keeps the meter, so does the command, and it is not answered as if the PIN had
been wrong. -/
theorem steady_handle_tried (hm : pf.Metered objects pins cells pinLimit value)
    (ht : s.backend.termination = false) (h : triedPin pf s cmd = some (p, pin))
    (hok : (verifyPin pf p pin s.backend).1 = .ok ⟨⟩)
    (hsteady : Steady pf objects value s.backend (verifyPin pf p pin s.backend).2) :
    Steady pf objects value s.backend (handle (vaultBackend pf) cmd s).2.backend ∧
      (handleApdu (vaultBackend pf) cmd s).1.sw1 ≠ 0x63 := by
  rw [triedPin] at h
  split_ifs at h with hins hchange
  · obtain ⟨q, hp, heq⟩ := Option.map_eq_some_iff.mp h
    obtain ⟨rfl, rfl⟩ := Prod.mk.inj heq
    have hrun := verify_ok hins hp ht (Prod.ext hok rfl)
    rw [handleApdu_of_ok hrun, hrun]
    refine ⟨hsteady.trans (steady_audit _ _), ?_⟩
    change (0x90 : UInt8) ≠ 0x63
    decide
  · obtain ⟨rfl, rfl⟩ := Prod.mk.inj (Option.some.inj h)
    have hrequested : requestedChange pf s cmd
        = some ⟨changedPin cmd.p2, some (changedFrom pf s.backend cmd), changedTo pf s.backend cmd⟩ := by
      rw [requestedChange, if_neg (ne_true_of_eq_false ht), if_pos hchange]
    have happly : Steady pf objects value s.backend (PinChange.apply pf _ s.backend).2 :=
      steady_apply hm (c := ⟨changedPin cmd.p2, some (changedFrom pf s.backend cmd),
        changedTo pf s.backend cmd⟩) hok hsteady
    rcases handle_requested hrequested with
      ⟨e, t, hrun, -, hhandle⟩ | ⟨b, audit, t, hrun, hb, -, hhandle⟩ <;> rw [hrun] at happly
    · obtain rfl := error_of_apply hrun hok
      rw [handleApdu_of_error hhandle, hhandle]
      refine ⟨happly, ?_⟩
      change (0x64 : UInt8) ≠ 0x63
      decide
    · rw [handleApdu_of_ok hhandle, hhandle, hb]
      refine ⟨happly.trans (steady_audit audit b), ?_⟩
      change (0x90 : UInt8) ≠ 0x63
      decide

/-- A command that presents a PIN but makes no attempt is refused. -/
theorem handle_untried (ht : s.backend.termination = false) (hcmd : cmd.ins = 0x20 ∨ cmd.ins = 0x24)
    (h : triedPin pf s cmd = none) :
    ∃ r : ResponseApdu, r.sw1 ≠ 0x63 ∧ handle (vaultBackend pf) cmd s = (.error r, s) := by
  rw [triedPin] at h
  split_ifs at h with hins hchange
  · exact ⟨_, by decide, verify_unreferenced hins (Option.map_eq_none_iff.mp h) ht⟩
  · refine handle_unrequested (.inl (hcmd.resolve_left hins)) ?_
    rw [requestedChange, if_neg (ne_true_of_eq_false ht), if_neg hchange, if_neg]
    rintro ⟨hreset, -⟩
    rw [hcmd.resolve_left hins] at hreset
    revert hreset
    decide

/-- A command presents a PIN that is wrong, while attempts are left. -/
def Misses (pf : CardPlatform W T) (s : Session (OpenPgpVaultBackend W T)) (cmd : CommandApdu) : Prop :=
  ∃ p pin, triedPin pf s cmd = some (p, pin) ∧ AttemptsLeft pf p s.backend ∧ pin ∉ accepted pf s.backend p

/-- **Misses** are charged, and the count was below the limit. -/
theorem handle_misses (hm : pf.Metered objects pins cells pinLimit value) (h : Misses pf s cmd) :
    let t := (handle (vaultBackend pf) cmd s).2
    ∃ p, t.backend.termination = false ∧
      (∀ q, (t.backend.machine q).state = .bricked → (s.backend.machine q).state = .bricked) ∧
      t.backend.meter pf objects value = (s.backend.meter pf objects value).charge p ∧
      saturatingAdd (value p s.backend.world) 1 ≤ (s.backend.machine p).config.maxAttempts := by
  obtain ⟨p, pin, htried, hleft, hpin⟩ := h
  obtain ⟨hanswer, hterm, hbricked, hmeter⟩ := charged_verifyPin hm hleft hpin
  obtain ⟨t, hrun, hbackend⟩ := handle_tried_error hleft.running htried (Prod.ext hanswer rfl)
  rw [hrun]
  dsimp only
  rw [hbackend]
  refine ⟨p, hterm.trans hleft.running, hbricked, hmeter, ?_⟩
  obtain ⟨-, -, count, w, hcharge, hle⟩ := hleft
  have hrun := (hm.counts.persistent p).increment_run s.backend.world
  obtain rfl := Except.ok.inj (Prod.mk.inj (hrun.symm.trans hcharge)).1
  exact hle

/-- **Other commands** keep the meter unless they terminate the card, PUT DATA of PW status bytes
apart. None is answered as if a PIN had been wrong. -/
theorem handle_hits (hm : pf.Metered objects pins cells pinLimit value)
    (ht : s.backend.termination = false)
    (hlimits : ∀ p, (s.backend.machine p).config.maxAttempts ≠ u32Max) (hmiss : ¬ Misses pf s cmd)
    (hstored : ¬ StoresStatus s cmd) :
    ((handle (vaultBackend pf) cmd s).2.backend.termination = true ∨
      Steady pf objects value s.backend (handle (vaultBackend pf) cmd s).2.backend) ∧
    (cmd.ins = 0x20 ∨ cmd.ins = 0x24 → (handleApdu (vaultBackend pf) cmd s).1.sw1 ≠ 0x63) := by
  cases htried : triedPin pf s cmd with
  | some tried =>
    obtain ⟨p, pin⟩ := tried
    by_cases hleft : AttemptsLeft pf p s.backend
    · have hpin : pin ∈ accepted pf s.backend p := by
        by_contra hpin
        exact hmiss ⟨p, pin, htried, hleft, hpin⟩
      obtain ⟨hok, hsteady⟩ := steady_verifyPin hm hleft hpin (hlimits p)
      have hsteady := steady_handle_tried hm ht htried hok hsteady
      exact ⟨.inr hsteady.1, fun _ ↦ hsteady.2⟩
    · obtain ⟨hanswer, hterm⟩ := terminated_verifyPin hm hleft ht
      obtain ⟨t, hrun, hbackend⟩ := handle_tried_error ht htried (Prod.ext hanswer rfl)
      rw [handleApdu_of_error hrun, hrun]
      dsimp only
      rw [hbackend]
      refine ⟨.inl hterm, fun _ ↦ ?_⟩
      change (0x69 : UInt8) ≠ 0x63
      decide
  | none =>
    by_cases hcmd : cmd.ins = 0x20 ∨ cmd.ins = 0x24
    · obtain ⟨r, hr, hrun⟩ := handle_untried ht hcmd htried
      rw [handleApdu_of_error hrun, hrun]
      exact ⟨.inr (.refl _), fun _ ↦ hr⟩
    · obtain ⟨hverify, hchange⟩ := not_or.mp hcmd
      refine ⟨.inr ?_, fun h ↦ absurd h hcmd⟩
      by_cases hput : (cmd.ins = 0xDA ∨ cmd.ins = 0xDB) ∧ cmd.tag = 0xC4
      · exact steady_handle_status hm hput.1 hput.2 hstored
      · exact steady_handle_other hm hverify hchange (fun hins ↦ .inl fun htag ↦ hput ⟨hins, htag⟩) s

end Presenting

end Galdralag.OpenPgp
