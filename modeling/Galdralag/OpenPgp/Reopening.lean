import Galdralag.OpenPgp.Reseeding
import Galdralag.OpenPgp.RetryReport

/-!
# Opening a card that was in use

A card keeps the five objects it was given first as long as it is not wiped, since no command
removes an object; and a card that was wiped is terminated, and writes no object until it is opened
again. So whatever commands a card was given, its store has the first objects or no header when it
is opened, and whether its objects survive an opening with failing reads is told by
`opening_leavesObjects_iff`.
-/

set_option linter.all false

namespace Galdralag.OpenPgp

open Fallible (Clear)

variable {W T : Type}

/-! ## Cards keep their first objects -/

/-- A breach wipes the object store or leaves it alone. -/
def CardPlatform.WipesObjects (pf : CardPlatform W T) (objects : W → Memory) : Prop :=
  ∀ p w, ¬ pf.doStore.Valid (objects (pf.zeroise p w)) ∨ Memory.AgreeOn pf.doStore.base
    (pf.doStore.base + DoStore.regionBytes) (objects (pf.zeroise p w)) (objects w)

/-- The object store reads the same. -/
def SameRegion (pf : CardPlatform W T) (objects : W → Memory) (w w' : W) : Prop :=
  Memory.AgreeOn pf.doStore.base (pf.doStore.base + DoStore.regionBytes) (objects w') (objects w)

/-- A backend with the first objects, or one that was terminated when they were wiped. -/
def Stocked (pf : CardPlatform W T) (objects : W → Memory) (b : OpenPgpVaultBackend W T) : Prop :=
  Provisioned pf (objects b.world) ∨ (b.termination = true ∧ ¬ pf.doStore.Valid (objects b.world))

/-- A backend stays stocked. -/
def StaysStocked (pf : CardPlatform W T) (objects : W → Memory) (b b' : OpenPgpVaultBackend W T) : Prop :=
  Stocked pf objects b → Stocked pf objects b'

section Stocked

variable {pf : CardPlatform W T} {objects pins cells : W → Memory} {pinLimit : ℕ}
  {b b' : OpenPgpVaultBackend W T} {w w' : W}

theorem SameRegion.refl (w : W) : SameRegion pf objects w w := fun _ _ _ ↦ rfl

theorem SameRegion.trans {w'' : W} (h : SameRegion pf objects w w') (h' : SameRegion pf objects w' w'') :
    SameRegion pf objects w w'' := Memory.AgreeOn.trans h' h

theorem SameRegion.provisioned (h : SameRegion pf objects w w') (hp : Provisioned pf (objects w)) :
    Provisioned pf (objects w') := by
  intro x hx
  rw [DoStore.object_congr h]
  exact hp x hx

theorem SameRegion.not_valid (h : SameRegion pf objects w w') (hv : ¬ pf.doStore.Valid (objects w)) :
    ¬ pf.doStore.Valid (objects w') := fun hv' ↦ hv ((DoStore.valid_congr h).mp hv')

theorem StaysStocked.refl (b : OpenPgpVaultBackend W T) : StaysStocked pf objects b b := fun h ↦ h

theorem StaysStocked.trans {b'' : OpenPgpVaultBackend W T} (h : StaysStocked pf objects b b')
    (h' : StaysStocked pf objects b' b'') : StaysStocked pf objects b b'' := fun hb ↦ h' (h hb)

/-- A card that is not terminated now, or still is. -/
theorem staysStocked_of_region (hworld : SameRegion pf objects b.world b'.world)
    (hterm : b.termination = true → b'.termination = true) : StaysStocked pf objects b b' := by
  rintro (hp | ⟨ht, hv⟩)
  · exact .inl (hworld.provisioned hp)
  · exact .inr ⟨hterm ht, hworld.not_valid hv⟩

theorem Calm.staysStocked (h : Calm (SameRegion pf objects) b b') : StaysStocked pf objects b b' :=
  staysStocked_of_region h.world fun ht ↦ h.termination.trans ht

theorem staysStocked_method {α : Type} {m : VaultM W T α}
    (h : Fallible.MovesFrom (fun b ↦ b.termination = false) (StaysStocked pf objects) m) :
    Fallible.Moves (StaysStocked pf objects) (ensureNotTerminated >>= fun _ ↦ m) := by
  intro b
  cases ht : b.termination with
  | true =>
    rw [Fallible.bind_of_error (ensureNotTerminated_terminated ht)]
    exact .refl b
  | false =>
    rw [Fallible.bind_of_ok (ensureNotTerminated_run ht)]
    exact h b ht

variable (hk : pf.Keeps objects pins cells pinLimit)
include hk

theorem CardPlatform.Keeps.sparesRegion {d : Device} (hd : d ≠ .objects) :
    pf.Spares (SameRegion pf objects) d := hk.objectsApart d hd

/-- Writing an object removes none. -/
theorem provisioned_write (tag : UInt16) (value : Bytes) (h : Provisioned pf (objects w)) :
    Provisioned pf (objects (pf.doStore.write tag value w).2) := by
  intro x hx
  have htag := productionDefaults_seeds.tagged x hx
  rcases DoStore.write_run hk.objectsFaithful (Nat.le_refl _) tag value w with
    ⟨w', hrun, hwritten⟩ | ⟨e, w', hrun, hsame, -⟩ <;> rw [hrun]
  · rw [hwritten.object x.1 htag]
    split_ifs
    · rw [Vec.ofBytes?_of_le hwritten.length_le]
      exact Option.some_ne_none _
    · exact h x hx
  · rw [hsame.object x.1 htag]
    exact h x hx

theorem staysStocked_writeObject (tag : UInt16) (value : Bytes) (e : OpenPgpBackendError) :
    Fallible.MovesFrom (fun b ↦ b.termination = false) (StaysStocked pf objects)
      (.orElse (onWorld (pf.doStore.write tag value)) e : VaultM W T PUnit) := by
  intro b ht hb
  have hp : Provisioned pf (objects b.world) := by
    refine hb.resolve_right fun h ↦ ?_
    rw [ht] at h
    cases h.1
  have hworld : (Fallible.orElse (onWorld (pf.doStore.write tag value)) e b).2
      = { b with world := (pf.doStore.write tag value b.world).2 } := by
    rw [Fallible.orElse, onWorld, Fallible.zoom_apply]
    rcases pf.doStore.write tag value b.world with ⟨_ | _, _⟩ <;> rfl
  rw [hworld]
  exact .inl (provisioned_write hk tag value hp)

/-- An attempt wipes the objects only when it terminates the card. -/
theorem staysStocked_verifyPin (hwipes : pf.WipesObjects objects) (p : CardPin) (pin : Bytes) :
    Fallible.Moves (StaysStocked pf objects) (verifyPin pf p pin) := by
  intro b
  have hcounters := hk.sparesRegion (d := .counters) (by decide)
  have hcharge : ∀ {r w'}, (pf.counter p).increment b.world = (r, w') →
      SameRegion pf objects b.world w' := by
    intro r w' h
    have hw := (hcounters p b.world).1
    rwa [h] at hw
  refine verifyPin_cases (P := fun _ b' ↦ StaysStocked pf objects b b') ?_ ?_ ?_ ?_ ?_ ?_
  · exact fun _ ↦ .refl b
  · exact fun _ ↦ staysStocked_of_region (.refl _) fun _ ↦ rfl
  · rintro e w' - hc
    exact (calm_attempted (fun h ↦ PinState.noConfusion h) (hcharge hc)).staysStocked
  · rintro count w' - hc - hb
    rcases hwipes p w' with hwiped | hspared
    · exact .inr ⟨rfl, hwiped⟩
    · exact staysStocked_of_region ((hcharge hc).trans hspared) (fun _ ↦ rfl) hb
  · rintro count w' hc - -
    have hworld := (hcharge hc).trans (hcounters p w').2.1
    exact (calm_attempted (fun h ↦ PinState.noConfusion h) hworld).staysStocked
  · rintro count w' hc - -
    exact (calm_attempted (fun h ↦ PinState.noConfusion h) (hcharge hc)).staysStocked

theorem staysStocked_changePin (hwipes : pf.WipesObjects objects) (p : CardPin) (oldPin newPin : Bytes) :
    Fallible.Moves (StaysStocked pf objects) (changePin pf p oldPin newPin) := by
  have hpins := hk.sparesRegion (d := .pins) (by decide)
  have hcounters := hk.sparesRegion (d := .counters) (by decide)
  have htrans : ∀ u v w, SameRegion pf objects u v → SameRegion pf objects v w →
      SameRegion pf objects u w := fun _ _ _ ↦ .trans
  have hstore : Fallible.Moves (Calm (SameRegion pf objects)) (do
      .modify fun b ↦ b.setVerifier (pinBytesToVerifierDigest pf newPin) p
      persistPinHashes pf
      resetMachine pf p : VaultM W T PUnit) :=
    calm_bind htrans (calm_setVerifier .refl _) fun _ ↦
      calm_bind htrans (calm_persistPinHashes htrans hpins) fun _ ↦ calm_resetMachine hcounters
  have hrest : Fallible.Moves (StaysStocked pf objects) (do
      verifyPin pf p oldPin
      .modify fun b ↦ b.setVerifier (pinBytesToVerifierDigest pf newPin) p
      persistPinHashes pf
      resetMachine pf p : VaultM W T PUnit) :=
    (staysStocked_verifyPin hk hwipes p oldPin).bind .trans fun _ b ↦ (hstore b).staysStocked
  refine staysStocked_method (Fallible.Moves.movesFrom fun b ↦ ?_)
  rw [Fallible.gets_bind]
  exact Fallible.Moves.require_bind StaysStocked.refl (fun _ ↦ hrest) b

/-- **Calls** keep a backend stocked. -/
theorem staysStocked_performCall (hwipes : pf.WipesObjects objects) (c : BackendCall) :
    Fallible.Moves (StaysStocked pf objects) (performCall pf c) := by
  have htrans : ∀ u v w, SameRegion pf objects u v → SameRegion pf objects v w →
      SameRegion pf objects u w := fun _ _ _ ↦ .trans
  have hplain : c.Plain → c.attempts = none → (∀ d ∈ c.devices, d ≠ .objects) →
      Fallible.Moves (StaysStocked pf objects) (performCall pf c) := by
    intro hc hattempts hdev b
    have hbreach : ¬ c.Breaching pf b := BackendCall.not_breaching hattempts
    exact (calm_performCall .refl htrans hc (fun d hd ↦ hk.sparesRegion (hdev d hd)) b hbreach).staysStocked
  have hnone : ∀ d : Device, d ∈ ([] : List Device) → d ≠ .objects :=
    fun d hd ↦ absurd hd List.not_mem_nil
  cases c with
  | verifyPw1Sign pin => exact staysStocked_verifyPin hk hwipes .user pin
  | verifyPw1Other pin => exact staysStocked_verifyPin hk hwipes .user pin
  | verifyPw3 pin => exact staysStocked_verifyPin hk hwipes .admin pin
  | changePin pw3 old new => exact staysStocked_changePin hk hwipes _ old new
  | setPw1VerifierAdminOnly new =>
    refine hplain trivial rfl fun d hd ↦ ?_
    rw [List.mem_singleton.mp hd]
    decide
  | resetPw1RetryCounter =>
    refine hplain trivial rfl fun d hd ↦ ?_
    rw [List.mem_singleton.mp hd]
    decide
  | putDo tag data =>
    refine staysStocked_method fun b ht ↦ ?_
    by_cases hput : putRefused tag data = false
    · rw [Fallible.bind_of_ok (Fallible.require_of hput _ b)]
      exact staysStocked_writeObject hk tag data _ b ht
    · exact Fallible.Moves.require_bind StaysStocked.refl (fun h ↦ absurd h hput) b
  | generateOrReadKey p1 slot =>
    by_cases hp1 : p1 = 0x80
    · intro b
      have hbut := calmBut_generate .refl htrans (hk.sparesRegion (d := .cells) (by decide)) slot b
      rw [hp1]
      exact staysStocked_of_region hbut.world fun ht ↦ hbut.termination.trans ht
    · refine hplain hp1 rfl fun d hd ↦ ?_
      rw [List.mem_singleton.mp hd]
      decide
  | incrementSignatureCounter =>
    refine staysStocked_method fun b ht ↦ ?_
    exact staysStocked_writeObject hk 0x93 _ _ { b with sigCounter := saturatingAdd b.sigCounter 1 } ht
  | _ => exact hplain trivial rfl hnone

/-- **Commands** keep a backend stocked. -/
theorem staysStocked_handleApdu (hwipes : pf.WipesObjects objects) (cmd : CommandApdu)
    (s : Session (OpenPgpVaultBackend W T)) :
    StaysStocked pf objects s.backend (handleApdu (vaultBackend pf) cmd s).2.backend := by
  have hlifts : Lifts (vaultBackend pf) cmd (fun _ ↦ True) (StaysStocked pf objects) := {
    refl := .refl
    trans := .trans
    log := fun _ _ h ↦ h
    log_keeps := fun _ _ _ ↦ trivial
    asked := fun c _ b _ ↦ staysStocked_performCall hk hwipes c b
    prelude := fun _ _ _ _ _ ↦ trivial }
  rw [handleApdu_snd]
  exact hlifts.handle s trivial

end Stocked

/-! ## Runs -/

/-- A card with the first objects, or one that was wiped. -/
def Card.Stocked (pf : CardPlatform W T) (objects : W → Memory) : Card W T → Prop
  | .on s => OpenPgp.Stocked pf objects s.backend
  | .off w => Provisioned pf (objects w) ∨ ¬ pf.doStore.Valid (objects w)

section Runs

variable {pf : CardPlatform W T} {objects pins cells : W → Memory} {pinLimit : ℕ} {w w' : W}

theorem Card.Stocked.world {c : Card W T} (h : c.Stocked pf objects) :
    Provisioned pf (objects c.world) ∨ ¬ pf.doStore.Valid (objects c.world) := by
  cases c with
  | off w => exact h
  | on s => exact h.imp_right And.right

theorem defaultObject_of_mem : ∀ x ∈ productionDefaults, defaultObject x.1 = some x.2 := by decide

variable (hk : pf.Keeps objects pins cells pinLimit)
include hk

/-- Seeding without faults leaves the first objects. -/
theorem provisioned_seeded (hseed : seedDefaultsIfFresh pf w = (.ok ⟨⟩, w'))
    (h : Provisioned pf (objects w) ∨ ¬ pf.doStore.Valid (objects w)) : Provisioned pf (objects w') := by
  obtain ⟨w'', hrun, hsame, hfresh, -⟩ := seedDefaultsIfFresh_run hk.objectsFaithful (Nat.le_refl _) w
  obtain rfl := (Prod.mk.inj (hseed.symm.trans hrun)).2
  by_cases hv : pf.doStore.Valid (objects w)
  · rw [hsame hv]
    exact h.resolve_right (not_not_intro hv)
  · intro x hx
    rw [hfresh hv x.1 (productionDefaults_seeds.tagged x hx), defaultObject_of_mem x hx]
    change Vec.ofBytes? x.2 ≠ none
    rw [Vec.ofBytes?_of_le (productionDefaults_seeds.fit x hx)]
    exact Option.some_ne_none _

/-- A new card has the first objects. -/
theorem provisioned_newCard (hblank : ¬ pf.doStore.Valid (objects w)) {userPin adminPin : Bytes}
    {user admin : PinPolicyMachine} {trng : T} {b : OpenPgpVaultBackend W T}
    (hnew : newCard pf userPin adminPin user admin w trng = (.ok ⟨⟩, b)) :
    Provisioned pf (objects b.world) := by
  obtain ⟨w', hseed, -⟩ := seedDefaultsIfFresh_run hk.objectsFaithful (Nat.le_refl _)
    (pf.pinStorage.write (pf.pinOff .admin) (pinBytesToVerifierDigest pf adminPin).toBytes
      (pf.pinStorage.write (pf.pinOff .user) (pinBytesToVerifierDigest pf userPin).toBytes w).2).2
  have hrun := newCard_run hk userPin adminPin user admin trng hseed
  rw [(Prod.mk.inj (hnew.symm.trans hrun)).2]
  refine provisioned_seeded hk hseed (.inr ?_)
  have hpins := hk.sparesRegion (d := .pins) (by decide)
  exact ((hpins .user _ w).trans (hpins .admin _ _)).not_valid hblank

theorem stocked_step (hwipes : pf.WipesObjects objects) {c : Card W T} (h : c.Stocked pf objects)
    (a : CardStep T) : (c.step pf a).Stocked pf objects := by
  cases a with
  | powerCycle trng user admin =>
    obtain ⟨w', hseed, hopened⟩ := Card.opened_run hk c.world trng user admin
    rw [Card.step, hopened]
    exact .inl (provisioned_seeded hk hseed h.world)
  | apdu cmd =>
    cases c with
    | off w => exact h
    | on s => exact staysStocked_handleApdu hk hwipes cmd s h
  | reset =>
    cases c with
    | off w => exact h
    | on s => exact h

/-- **Runs.** Whatever a card is given, it has its first objects or was wiped. -/
theorem stocked_run (hwipes : pf.WipesObjects objects) {c : Card W T} (h : c.Stocked pf objects)
    (steps : List (CardStep T)) : (c.run pf steps).Stocked pf objects := by
  induction steps generalizing c with
  | nil => exact h
  | cons a steps ih => exact ih (stocked_step hk hwipes h a)

/-- **Opening a card that was in use.** After any commands, resets and power cycles a card is opened
while reads fail in any way. Its objects are all there as they were just if it has been wiped, or
the first read succeeds, or all that is seeded is what the objects hold already. -/
theorem reopening_iff (hwipes : pf.WipesObjects objects) {w₀ : W} (hblank : ¬ pf.doStore.Valid (objects w₀))
    {userPin adminPin : Bytes} {user admin : PinPolicyMachine} {trng : T} {b : OpenPgpVaultBackend W T}
    (hnew : newCard pf userPin adminPin user admin w₀ trng = (.ok ⟨⟩, b)) (steps : List (CardStep T))
    (user' admin' : PinPolicyMachine) (trng' : T) (script : List (Option HalError)) :
    let w := ((Card.on (.new b)).run pf steps).world
    LeavesObjects pf w (Risky.openCard pf user' admin' w trng' script).2.1.world ↔
      ¬ pf.doStore.Valid (objects w) ∨ Clear 1 script ∨
        SeedsHarmless (pf.doStore.table (objects w)) productionDefaults (script.drop 1) := by
  have hstart : (Card.on (.new b)).Stocked pf objects := .inl (provisioned_newCard hk hblank hnew)
  have hstocked := stocked_run hk hwipes hstart steps
  exact opening_leavesObjects_iff hk.objectsFaithful (Nat.le_refl _) hstocked.world user' admin' trng' script

end Runs

/-! ## A card that loses its settings -/

theorem seedsHarmless_nil {t : List (UInt16 × Option (Vec 254))} {seeds : List (UInt16 × Bytes)}
    (h : SeedsHarmless t seeds []) : ∀ x ∈ seeds, SlotTable.lookup x.1 t = some (Vec.ofBytes? x.2) := by
  induction seeds with
  | nil => exact fun x hx ↦ absurd hx List.not_mem_nil
  | cons x seeds ih =>
    obtain ⟨hlookup, hrest⟩ := h (Fallible.clear_nil _)
    rw [List.drop_nil] at hrest
    exact List.forall_mem_cons.mpr ⟨hlookup, ih hrest⟩

/-- PW status bytes with which the sign PIN stays valid for several signatures. -/
def lastingStatus : Bytes := [0x01, 5, 0, 8, 3, 3, 3]

/-- PUT DATA of these status bytes. -/
def putStatus : CommandApdu := ⟨0x00, 0xDA, 0x00, 0xC4, .truncated lastingStatus, none⟩

section Settings

variable {pf : CardPlatform W T} {objects pins cells : W → Memory} {pinLimit : ℕ}
  {value : CardPin → W → UInt32} (hm : pf.Metered objects pins cells pinLimit value)
include hm

/-- A card with its own status bytes does not survive an opening whose first read alone fails. -/
theorem not_leavesObjects_of_status {w : W} (hstored : statusObject pf objects w = lastingStatus)
    (h : Provisioned pf (objects w) ∨ ¬ pf.doStore.Valid (objects w)) (user admin : PinPolicyMachine)
    (trng : T) (e : HalError) :
    ¬ LeavesObjects pf w (Risky.openCard pf user admin w trng [some e]).2.1.world := by
  rw [opening_leavesObjects_iff hm.keeps.objectsFaithful (Nat.le_refl _) h]
  have hv : pf.doStore.Valid (objects w) := by
    by_contra hv
    rw [statusObject, DoStore.object, if_neg hv] at hstored
    cases hstored
  rintro (hwiped | hclear | hharmless)
  · exact hwiped hv
  · cases hclear 0 Nat.zero_lt_one
  · have hlookup := seedsHarmless_nil hharmless (0xC4, defaultPwStatusBytes) (by decide)
    rw [statusObject, DoStore.object, if_pos hv, hlookup] at hstored
    revert hstored
    decide

/-- A new card runs, has attempts left on its admin PIN, and the first status bytes. -/
theorem newCard_fresh {w₀ : W} (hblank : ¬ pf.doStore.Valid (objects w₀)) {userPin adminPin : Bytes}
    {user admin : PinPolicyMachine} {trng : T} {b : OpenPgpVaultBackend W T}
    (hnew : newCard pf userPin adminPin user admin w₀ trng = (.ok ⟨⟩, b)) :
    b.termination = false ∧ b.machine .admin = admin ∧ adminPin ∈ accepted pf b .admin ∧
      value .admin b.world = value .admin w₀ ∧ statusObject pf objects b.world = defaultPwStatusBytes := by
  have hk := hm.keeps
  obtain ⟨w₁, hw₁⟩ : ∃ w₁, w₁ = (pf.pinStorage.write (pf.pinOff .admin)
    (pinBytesToVerifierDigest pf adminPin).toBytes (pf.pinStorage.write (pf.pinOff .user)
      (pinBytesToVerifierDigest pf userPin).toBytes w₀).2).2 := ⟨_, rfl⟩
  have hpins := hm.spared .pins (by decide)
  have hvalue : value .admin w₁ = value .admin w₀ := by
    rw [hw₁]
    exact (hpins .admin _ _ .admin).trans (hpins .user _ w₀ .admin)
  have hregion := hk.sparesRegion (d := .pins) (by decide)
  have hblank₁ : ¬ pf.doStore.Valid (objects w₁) := by
    rw [hw₁]
    exact ((hregion .user _ w₀).trans (hregion .admin _ _)).not_valid hblank
  obtain ⟨w', hseed, -, hfresh, -⟩ := seedDefaultsIfFresh_run hk.objectsFaithful (Nat.le_refl _) w₁
  have hmoves : Fallible.Moves (fun w w' ↦ value .admin w' = value .admin w) (seedDefaultsIfFresh pf) :=
    moves_seedDefaultsIfFresh (fun _ ↦ rfl) (fun h h' ↦ h'.trans h)
      ((hm.spared .objects (by decide)).imp fun _ _ h ↦ h .admin)
  have hcount := hmoves w₁
  rw [hseed] at hcount
  have hstatus : statusObject pf objects w' = defaultPwStatusBytes := by
    rw [statusObject, hfresh hblank₁ 0xC4 (by decide)]
    decide
  rw [hw₁] at hseed
  obtain rfl := (Prod.mk.inj (hnew.symm.trans (newCard_run hk userPin adminPin user admin trng hseed))).2
  exact ⟨rfl, rfl, rfl, hcount.trans hvalue, hstatus⟩

/-- VERIFY with the admin PIN and PUT DATA: the status bytes are the new ones. -/
theorem status_stored {s : Session (OpenPgpVaultBackend W T)} (hleft : AttemptsLeft pf .admin s.backend)
    (hpin : adminVerify.data.toBytes ∈ accepted pf s.backend .admin)
    (hlimit : (s.backend.machine .admin).config.maxAttempts ≠ u32Max)
    (hpresent : statusObject pf objects s.backend.world ≠ []) :
    statusObject pf objects ((Card.on s).run pf [.apdu adminVerify, .apdu putStatus]).world
      = lastingStatus := by
  obtain ⟨hok, hsteady⟩ := steady_verifyPin hm hleft hpin hlimit
  have hverify : handle (vaultBackend pf) adminVerify s = _ :=
    verify_ok rfl rfl hleft.running (Prod.ext hok rfl)
  obtain ⟨t, ht⟩ : ∃ t, t = (handle (vaultBackend pf) adminVerify s).2 := ⟨_, rfl⟩
  have hkept : Steady pf objects value s.backend t.backend := by
    rw [ht, hverify]
    exact hsteady.trans (steady_audit _ _)
  have hflag : t.card.pw3Verified = true := by
    rw [ht, hverify]
    rfl
  have hstatus : statusObject pf objects t.backend.world = statusObject pf objects s.backend.world :=
    congrArg Meter.status hkept.meter
  have hstores : StoresStatus t putStatus := ⟨.inl rfl, rfl, hflag, by decide⟩
  have hput := handle_storesStatus hm (hkept.termination.trans hleft.running) (hstatus ▸ hpresent) hstores
  have hmeter := congrArg Meter.status hput.2.2
  rw [Card.run, List.foldl_cons, List.foldl_cons, List.foldl_nil, Card.step, Card.step, handleApdu_snd,
    handleApdu_snd, ← ht]
  exact hmeter

end Settings

/-! ## On the bench -/

theorem benchPlatform_wipesObjects : benchPlatform.WipesObjects Baochip.bench.vault := by
  intro p w
  refine .inl fun hv ↦ ?_
  have hbyte : Baochip.bench.vault (benchPlatform.zeroise p w) benchPlatform.doStore.base = 0 := by
    have hin : benchPlatform.doStore.base < Baochip.openpgpVaultLogicalSpanEnd := by decide
    cases p <;> exact Baochip.bench.vault_pinZeroise w hin
  have hfirst := congrArg List.head? hv.1
  rw [Memory.window, DoStore.headerLen, List.range_succ_eq_map, List.map_cons, List.take_succ_cons,
    List.head?_cons, Nat.add_zero, hbyte] at hfirst
  revert hfirst
  decide

/-- The new card on the bench. -/
theorem benchNew_run : ∃ b, newCard benchPlatform (benchPin .user) (benchPin .admin) (.new default)
    (.new default) benchStorage 0 = (.ok ⟨⟩, b) := by
  obtain ⟨w', hseed, -⟩ := seedDefaultsIfFresh_run benchPlatform_keeps.objectsFaithful (Nat.le_refl _) _
  exact ⟨_, newCard_run benchPlatform_keeps (benchPin .user) (benchPin .admin) (.new default) (.new default)
    0 hseed⟩

/-- A new card keeps its objects when it is opened without faults. -/
theorem benchNew_reopens : ∃ b, newCard benchPlatform (benchPin .user) (benchPin .admin) (.new default)
      (.new default) benchStorage 0 = (.ok ⟨⟩, b) ∧
    LeavesObjects benchPlatform b.world
      (Risky.openCard benchPlatform (.new default) (.new default) b.world 0 []).2.1.world := by
  obtain ⟨b, hnew⟩ := benchNew_run
  exact ⟨b, hnew, (reopening_iff benchPlatform_keeps benchPlatform_wipesObjects benchStorage_not_valid hnew []
    (.new default) (.new default) 0 []).mpr (.inr (.inl (Fallible.clear_nil 1)))⟩

/-- Its status bytes are set under the admin PIN, and lost when it is opened while the first read
fails. -/
theorem settings_lost : ∃ b w, newCard benchPlatform (benchPin .user) (benchPin .admin) (.new default)
      (.new default) benchStorage 0 = (.ok ⟨⟩, b) ∧
    ((Card.on (.new b)).run benchPlatform [.apdu adminVerify, .apdu putStatus]).world = w ∧
    ¬ LeavesObjects benchPlatform w
      (Risky.openCard benchPlatform (.new default) (.new default) w 0 [some .bus]).2.1.world := by
  obtain ⟨b, hnew⟩ := benchNew_run
  obtain ⟨ht, hmachine, hpin, hcount, hstatus⟩ :=
    newCard_fresh benchPlatform_metered benchStorage_not_valid hnew
  rw [benchValue_benchStorage] at hcount
  have hleft : AttemptsLeft benchPlatform .admin b := by
    have hrun := (benchPlatform_counts.persistent .admin).increment_run b.world
    refine ⟨ht, ?_, _, _, hrun, ?_⟩
    · rw [hmachine]
      decide
    · rw [hcount, hmachine]
      decide
  have hlimit : (b.machine .admin).config.maxAttempts ≠ u32Max := by
    rw [hmachine]
    decide
  have hpresent : statusObject benchPlatform Baochip.bench.vault b.world ≠ [] := by
    rw [hstatus]
    decide
  have hstored := status_stored benchPlatform_metered (s := .new b) hleft hpin hlimit hpresent
  have hstocked := stocked_run benchPlatform_keeps benchPlatform_wipesObjects
    (c := .on (.new b)) (.inl (provisioned_newCard benchPlatform_keeps benchStorage_not_valid hnew))
    [.apdu adminVerify, .apdu putStatus]
  exact ⟨b, _, hnew, rfl, not_leavesObjects_of_status benchPlatform_metered hstored hstocked.world
    (.new default) (.new default) 0 .bus⟩

end Galdralag.OpenPgp
