import Galdralag.OpenPgp.PinMeter
import Mathlib.Order.Bounds.Basic

/-!
# What a card reports about its PINs

A host learns in two ways how many tries a PIN has left: from the retry counters in the PW status
bytes, which GET DATA returns, and from the answer 63Cx to a wrong PIN. The answer comes from the
counter. The status bytes are an object like any other: they say what was last stored, and counting
does not store anything. So they go wrong with the first wrong PIN.
-/

set_option linter.all false

namespace Galdralag.OpenPgp

variable {W T : Type}

/-- GET DATA of the PW status bytes. -/
def statusQuery : CommandApdu := ⟨0x00, 0xCA, 0x00, 0xC4, .empty, none⟩

/-- The number in an answer 63Cx. -/
def ResponseApdu.retries (r : ResponseApdu) : Option ℕ :=
  if r.sw1 = 0x63 ∧ r.sw2 &&& 0xF0 = 0xC0 then some (r.sw2 &&& 0x0F).toNat else none

/-- The place of a retry counter in the PW status bytes. The one between them is for the resetting
code. -/
def retryIndex : CardPin → ℕ
  | .user => 4
  | .admin => 6

def resettingCodeIndex : ℕ := 5

/-! ## Honest meters -/

namespace Meter

/-- The status bytes of a meter say what its counts leave of its limits, and `rc` for the resetting
code. -/
structure Honest (rc : ℕ) (m : Meter) : Prop where
  bounded : ∀ p, m.limit p ≠ u32Max
  code : (m.status[resettingCodeIndex]?).map UInt8.toNat = some rc
  left : ∀ p, (m.status[retryIndex p]?).map UInt8.toNat
    = some ((m.limit p).toNat - (m.count p).toNat)

variable {m : Meter} {rc : ℕ}

theorem Honest.status_ne_nil (h : m.Honest rc) : m.status ≠ [] := by
  intro hnil
  have hcode := h.code
  rw [hnil] at hcode
  cases hcode

/-- A charge that the limit allows makes an honest meter dishonest. -/
theorem Honest.not_charge (h : m.Honest rc) (p : CardPin) (hle : saturatingAdd (m.count p) 1 ≤ m.limit p) :
    ¬ (m.charge p).Honest rc := by
  intro hcharged
  have hleft := (h.left p).symm.trans (hcharged.left p)
  have hcount : (m.charge p).count p = saturatingAdd (m.count p) 1 := if_pos rfl
  have hlimit : (m.charge p).limit p = m.limit p := rfl
  have hroom := (PinPolicyMachine.saturatingAdd_one_le_iff (h.bounded p) _).mp hle
  have hlt := (m.limit p).toNat_lt
  rw [hcount, hlimit, toNat_saturatingAdd, UInt32.toNat_one] at hleft
  have hnat := Option.some.inj hleft
  omega

end Meter

/-! ## The card and its last answers -/

/-- A card, and the number in the last answer 63Cx for each PIN. -/
structure WatchedCard (W T : Type) where
  card : Card W T
  last : CardPin → Option ℕ

namespace WatchedCard

variable (pf : CardPlatform W T) (rc : ℕ)

/-- The number that a step answers for a PIN: VERIFY and CHANGE REFERENCE DATA present one. -/
def answered (w : WatchedCard W T) (a : CardStep T) (p : CardPin) : Option ℕ :=
  match w.card, a with
  | .on s, .apdu cmd =>
    if (cmd.ins = 0x20 ∨ cmd.ins = 0x24) ∧ changedPin cmd.p2 = p then
      (handleApdu (vaultBackend pf) cmd s).1.retries
    else none
  | _, _ => none

/-- One step, with the number that it answers. -/
def step (w : WatchedCard W T) (a : CardStep T) : WatchedCard W T where
  card := w.card.step pf a
  last p := (w.answered pf a p).or (w.last p)

/-- A whole run. -/
def run (w : WatchedCard W T) (steps : List (CardStep T)) : WatchedCard W T := steps.foldl (step pf) w

/-- A card that is switched off and has answered nothing yet. -/
def unwatched (w : W) : WatchedCard W T := ⟨.off w, fun _ ↦ none⟩

/-- **The reports are true.** In the PW status bytes that GET DATA returns, each retry counter is
the greatest number of wrong PINs that the policy still allows, and the number in the last answer
63Cx, if there was one. The counter of the resetting code, on which no command makes an attempt, is
`rc`. -/
def Truthful (w : WatchedCard W T) : Prop :=
  ∀ s data, w.card = .on s → (handleApdu (vaultBackend pf) statusQuery s).1 = .ok data →
    (∃ byte, data.toBytes[resettingCodeIndex]? = some byte ∧ byte.toNat = rc) ∧
    ∀ p, ∃ byte, data.toBytes[retryIndex p]? = some byte ∧
      IsGreatest (PinPolicyMachine.allowed (pf.counter p) (pf.zeroise p)
        (s.backend.machine p, s.backend.world)) byte.toNat ∧
      ∀ n, w.last p = some n → n = byte.toNat

end WatchedCard

/-- The PW status bytes that a card opens with: those that are stored, or the defaults if the card
is new. -/
def statusOnOpening (pf : CardPlatform W T) (objects : W → Memory) (w : W) : Bytes :=
  if pf.doStore.Valid (objects w) then statusObject pf objects w else defaultPwStatusBytes

/-- The meter that a card opens with. -/
def meterOnOpening (pf : CardPlatform W T) (objects : W → Memory) (value : CardPin → W → UInt32)
    (user admin : PinPolicyConfig) (w : W) : Meter where
  limit := fun
    | .user => user.maxAttempts
    | .admin => admin.maxAttempts
  count p := value p w
  status := statusOnOpening pf objects w

/-- **Steps that leave the reports true.** No wrong PIN is tried while attempts are left, PUT DATA
stores PW status bytes only with the true counters, and a card opens with true counters. -/
def HonestStep (pf : CardPlatform W T) (objects : W → Memory) (value : CardPin → W → UInt32) (rc : ℕ)
    (c : Card W T) (a : CardStep T) : Prop :=
  (∀ s cmd, c = .on s → a = .apdu cmd → ¬ Misses pf s cmd ∧
    (s.backend.termination = false → StoresStatus s cmd →
      ({ s.backend.meter pf objects value with status := cmd.data.toBytes } : Meter).Honest rc)) ∧
  ∀ trng user admin, a = .powerCycle trng user admin →
    (meterOnOpening pf objects value user admin c.world).Honest rc

/-! ## Reading the report -/

variable {pf : CardPlatform W T} {objects pins cells : W → Memory} {pinLimit rc : ℕ}
  {value : CardPin → W → UInt32} {s t : Session (OpenPgpVaultBackend W T)} {cmd : CommandApdu}

/-- The invariant of a running card: no machine is bricked. -/
def Unbricked (b : OpenPgpVaultBackend W T) : Prop :=
  b.termination = false → ∀ p, (b.machine p).state ≠ .bricked

section Metered

variable (hm : pf.Metered objects pins cells pinLimit value)
include hm

/-- GET DATA returns the status bytes that are stored. -/
theorem query_run (ht : s.backend.termination = false) :
    ∃ data, (handleApdu (vaultBackend pf) statusQuery s).1 = .ok data ∧
      data.toBytes = statusObject pf objects s.backend.world := by
  have hterm : (vaultBackend pf).isTerminationState s.backend = false := ht
  have hread := DoStore.read_eq hm.keeps.objectsFaithful (Nat.le_refl _) 0xC4 s.backend.world
  obtain ⟨data, hget, hdata, hlen⟩ : ∃ data, getDo pf s.backend 0xC4 = .ok data ∧
      data.toBytes = statusObject pf objects s.backend.world ∧ data.length ≤ 256 := by
    rw [getDo, if_neg (ne_true_of_eq_false ht), hread, statusObject]
    cases pf.doStore.object (objects s.backend.world) 0xC4 with
    | none => exact ⟨_, rfl, rfl, Nat.zero_le _⟩
    | some v =>
      have hv : v.toBytes.length ≤ 254 := v.property
      have htruncated : (Vec.truncated v.toBytes : Vec 512).toBytes = v.toBytes :=
        Vec.toBytes_truncated (le_trans hv (by decide))
      refine ⟨_, rfl, htruncated, ?_⟩
      rw [Vec.length, htruncated]
      exact le_trans hv (by decide)
  have hask : ask (doTag (vaultBackend pf) statusQuery.tag) s = (.ok data, s) := by
    change ((getDo pf s.backend 0xC4).mapError mapErr, s) = _
    rw [hget]
    rfl
  have hrun : handle (vaultBackend pf) statusQuery s = (.ok (.ok data), s) := by
    have hi : Instruction.ofByte statusQuery.ins = some .getData := rfl
    rw [handle_run hterm hi, Instruction.handler, handleGetData, Fallible.bind_of_ok hask, chunkResponse]
    dsimp only
    rw [if_pos]
    · rfl
    · exact hlen
  rw [handleApdu_of_ok hrun]
  exact ⟨data, rfl, hdata⟩

omit hm in
/-- A terminated card returns nothing. -/
theorem query_terminated (ht : s.backend.termination = true) (data : Vec 512) :
    (handleApdu (vaultBackend pf) statusQuery s).1 ≠ .ok data := by
  have hterm : (vaultBackend pf).isTerminationState s.backend = true := ht
  rw [handleApdu_of_error (handle_terminated hterm)]
  intro h
  have hsw : (if statusQuery.ins = 0x20 then StatusWord.authMethodBlocked else .terminationState).sw1
      = 0x90 := congrArg ResponseApdu.sw1 h
  revert hsw
  decide

/-- The allowance of a PIN, and the byte that reports it. -/
theorem isGreatest_iff {p : CardPin} (hlive : (s.backend.machine p).state ≠ .bricked) (n : ℕ) :
    IsGreatest (PinPolicyMachine.allowed (pf.counter p) (pf.zeroise p)
      (s.backend.machine p, s.backend.world)) n ↔
    (s.backend.machine p).config.maxAttempts ≠ u32Max ∧
      n = (s.backend.machine p).config.maxAttempts.toNat - (value p s.backend.world).toNat := by
  have hpersist := hm.counts.persistent p
  have hmachine : PinPolicyMachine.Live (s.backend.machine p).config.maxAttempts
      (s.backend.machine p, s.backend.world) := ⟨hlive, rfl⟩
  constructor
  · intro h
    have hmax : (s.backend.machine p).config.maxAttempts ≠ u32Max := by
      intro hmax
      exact hmachine.not_isGreatest_allowed hpersist hmax n h
    exact ⟨hmax, h.unique (hmachine.isGreatest_allowed hpersist hmax)⟩
  · rintro ⟨hmax, rfl⟩
    exact hmachine.isGreatest_allowed hpersist hmax

/-- **A running card** reports the truth exactly if its meter is honest, and so were its answers. -/
theorem truthful_on_iff (ht : s.backend.termination = false)
    (hlive : ∀ p, (s.backend.machine p).state ≠ .bricked) (last : CardPin → Option ℕ) :
    WatchedCard.Truthful pf rc ⟨.on s, last⟩ ↔ (s.backend.meter pf objects value).Honest rc ∧
      ∀ p n, last p = some n →
        n = (s.backend.machine p).config.maxAttempts.toNat - (value p s.backend.world).toNat := by
  obtain ⟨data, hquery, hdata⟩ := query_run hm ht
  have hbyte : ∀ (i n : ℕ), ((s.backend.meter pf objects value).status[i]?).map UInt8.toNat = some n ↔
      ∃ byte, data.toBytes[i]? = some byte ∧ byte.toNat = n := by
    intro i n
    rw [hdata]
    exact Option.map_eq_some_iff
  constructor
  · intro h
    obtain ⟨hcode, hleft⟩ := h s data rfl hquery
    refine ⟨⟨fun p ↦ ?_, (hbyte _ _).mpr hcode, fun p ↦ ?_⟩, fun p n hn ↦ ?_⟩ <;>
      obtain ⟨byte, hget, hgreatest, hanswer⟩ := hleft p <;>
      obtain ⟨hbounded, hnat⟩ := (isGreatest_iff hm (hlive p) _).mp hgreatest
    · exact hbounded
    · exact (hbyte _ _).mpr ⟨byte, hget, hnat⟩
    · rw [hanswer n hn, hnat]
  · rintro ⟨⟨hbounded, hcode, hleft⟩, hanswer⟩ s' data' hs hquery'
    obtain rfl : s = s' := Card.on.inj hs
    obtain rfl : data = data' := congrArg ResponseApdu.data (hquery.symm.trans hquery')
    refine ⟨(hbyte _ _).mp hcode, fun p ↦ ?_⟩
    obtain ⟨byte, hget, hnat⟩ := (hbyte _ _).mp (hleft p)
    refine ⟨byte, hget, (isGreatest_iff hm (hlive p) _).mpr ⟨hbounded p, hnat⟩, fun n hn ↦ ?_⟩
    exact (hanswer p n hn).trans hnat.symm

/-- Without an answer 63Cx so far only the meter counts. -/
theorem truthful_silent_iff (ht : s.backend.termination = false)
    (hlive : ∀ p, (s.backend.machine p).state ≠ .bricked) {last : CardPin → Option ℕ}
    (hlast : ∀ p, last p = none) :
    WatchedCard.Truthful pf rc ⟨.on s, last⟩ ↔ (s.backend.meter pf objects value).Honest rc := by
  rw [truthful_on_iff hm ht hlive]
  refine and_iff_left fun p n hn ↦ ?_
  cases (hlast p).symm.trans hn

omit hm in
theorem truthful_off (w : W) (last : CardPin → Option ℕ) :
    WatchedCard.Truthful pf rc (⟨.off w, last⟩ : WatchedCard W T) := by
  rintro s data ⟨⟩

omit hm in
theorem truthful_terminated (ht : s.backend.termination = true) (last : CardPin → Option ℕ) :
    WatchedCard.Truthful pf rc ⟨.on s, last⟩ := by
  intro s' data hs hquery
  obtain rfl : s = s' := Card.on.inj hs
  exact absurd hquery (query_terminated ht data)

/-! ## Steps -/

omit hm in
/-- Answers other than 63Cx. -/
theorem retries_eq_none {r : ResponseApdu} (h : r.sw1 ≠ 0x63) : r.retries = none := by
  rw [ResponseApdu.retries, if_neg]
  exact fun hr ↦ h hr.1

/-- No machine is bricked unless the card is terminated, and nothing was answered with 63Cx. -/
structure WatchedCard.Settled (w : WatchedCard W T) : Prop where
  unbricked : ∀ s, w.card = .on s → Unbricked s.backend
  silent : ∀ p, w.last p = none

omit hm in
theorem settled_on {last : CardPin → Option ℕ} (h : Unbricked s.backend) (hlast : ∀ p, last p = none) :
    WatchedCard.Settled (⟨.on s, last⟩ : WatchedCard W T) := by
  refine ⟨?_, hlast⟩
  rintro _ ⟨⟩
  exact h

omit hm in
/-- What keeps the meter keeps an honest card honest, and may terminate it. -/
theorem Steady.unbricked {b b' : OpenPgpVaultBackend W T} (h : Steady pf objects value b b')
    (hb : Unbricked b) : Unbricked b' :=
  fun ht p hp ↦ hb (h.termination.symm.trans ht) p (h.bricked p hp)

omit hm in
/-- PUT DATA presents no PIN. -/
theorem StoresStatus.ins_ne (h : StoresStatus s cmd) : ¬ (cmd.ins = 0x20 ∨ cmd.ins = 0x24) := by
  rcases h.1 with hins | hins <;> rw [hins] <;> decide

/-- The step of a command on a running card whose meter is honest. -/
theorem command_step (ht : s.backend.termination = false) (hlive : Unbricked s.backend)
    (hhonest : (s.backend.meter pf objects value).Honest rc) (cmd : CommandApdu) :
    let t := (handle (vaultBackend pf) cmd s).2
    Unbricked t.backend ∧
    (Misses pf s cmd → t.backend.termination = false ∧ ¬ (t.backend.meter pf objects value).Honest rc) ∧
    (¬ Misses pf s cmd → (cmd.ins = 0x20 ∨ cmd.ins = 0x24 →
        (handleApdu (vaultBackend pf) cmd s).1.sw1 ≠ 0x63) ∧
      (¬ StoresStatus s cmd → t.backend.termination = false → (t.backend.meter pf objects value).Honest rc) ∧
      (StoresStatus s cmd → t.backend.termination = false ∧ t.backend.meter pf objects value
        = { s.backend.meter pf objects value with status := cmd.data.toBytes })) := by
  intro t
  by_cases hmiss : Misses pf s cmd
  · obtain ⟨p, hterm, hbricked, hmeter, hle⟩ := handle_misses hm hmiss
    refine ⟨fun _ q hq ↦ hlive ht q (hbricked q hq), fun _ ↦ ⟨hterm, ?_⟩, absurd hmiss⟩
    rw [hmeter]
    exact hhonest.not_charge p hle
  by_cases hstored : StoresStatus s cmd
  · obtain ⟨hterm, hmachine, hmeter⟩ := handle_storesStatus hm ht hhonest.status_ne_nil hstored
    refine ⟨fun _ q ↦ ?_, fun h ↦ absurd h hmiss, fun _ ↦ ⟨fun hcmd ↦ absurd hcmd hstored.ins_ne,
      absurd hstored, fun _ ↦ ⟨hterm, hmeter⟩⟩⟩
    rw [hmachine q]
    exact hlive ht q
  · obtain ⟨hkept, hanswer⟩ := handle_hits hm ht hhonest.bounded hmiss hstored
    refine ⟨?_, fun h ↦ absurd h hmiss, fun _ ↦ ⟨hanswer, fun _ hterm ↦ ?_, fun h ↦ absurd h hstored⟩⟩
    · rcases hkept with hterm | hsteady
      · exact fun h ↦ absurd (hterm.symm.trans h) Bool.noConfusion
      · exact hsteady.unbricked hlive
    · have hsteady := hkept.resolve_left fun h ↦ absurd (h.symm.trans hterm) Bool.noConfusion
      rw [hsteady.meter]
      exact hhonest

/-- **Opening.** A card opens with new machines over the world that seeding leaves, in which the
counters have kept their values. -/
theorem opened_meter (w : W) (trng : T) (user admin : PinPolicyConfig) :
    ∃ w', Card.opened pf w trng user admin
        = .on (.new (.loaded pf pins cells (.new user) (.new admin) w' trng)) ∧
      Memory.AgreeOutside pf.doStore.base (pf.doStore.base + DoStore.regionBytes) (objects w') (objects w) ∧
      (OpenPgpVaultBackend.loaded pf pins cells (.new user) (.new admin) w' trng).meter pf objects value
        = meterOnOpening pf objects value user admin w := by
  obtain ⟨w', hseed, hopened⟩ := Card.opened_run hm.keeps w trng user admin
  obtain ⟨w'', hseed', hvalid, hinvalid, houtside⟩ :=
    seedDefaultsIfFresh_run hm.keeps.objectsFaithful (Nat.le_refl _) w
  obtain rfl : w' = w'' := congrArg Prod.snd (hseed.symm.trans hseed')
  refine ⟨w', hopened, houtside, ?_⟩
  have hvalues : ∀ q, value q w' = value q w := by
    have hmoves : Fallible.Moves (fun w w' ↦ ∀ q, value q w' = value q w) (seedDefaultsIfFresh pf) :=
      moves_seedDefaultsIfFresh (fun _ _ ↦ rfl) (fun h h' q ↦ (h' q).trans (h q))
        (hm.spared .objects (by decide))
    have h := hmoves w
    rw [hseed] at h
    exact h
  refine Meter.ext (funext fun p ↦ ?_) (funext hvalues) ?_
  · cases p <;> rfl
  · change statusObject pf objects w' = statusOnOpening pf objects w
    rw [statusOnOpening]
    split_ifs with hv
    · rw [hvalid hv]
    · rw [statusObject, hinvalid hv 0xC4 (by decide)]
      rfl

omit hm in
/-- New machines are not bricked. -/
theorem unbricked_loaded (user admin : PinPolicyConfig) (w : W) (trng : T) (p : CardPin) :
    ((OpenPgpVaultBackend.loaded pf pins cells (.new user) (.new admin) w trng).machine p).state
      ≠ .bricked := by
  cases p <;> exact fun h ↦ PinState.noConfusion h

omit hm in
/-- Honest steps, one kind at a time. -/
theorem honestStep_powerCycle {c : Card W T} {trng : T} {user admin : PinPolicyConfig} :
    HonestStep pf objects value rc c (.powerCycle trng user admin) ↔
      (meterOnOpening pf objects value user admin c.world).Honest rc := by
  refine ⟨fun h ↦ h.2 trng user admin rfl, fun h ↦ ⟨?_, ?_⟩⟩
  · rintro s cmd - ⟨⟩
  · rintro _ _ _ ⟨⟩
    exact h

omit hm in
theorem honestStep_reset (c : Card W T) : HonestStep pf objects value rc c .reset := by
  refine ⟨?_, ?_⟩
  · rintro s cmd - ⟨⟩
  · rintro _ _ _ ⟨⟩

omit hm in
theorem honestStep_off (w : W) (cmd : CommandApdu) :
    HonestStep pf objects value rc (.off w : Card W T) (.apdu cmd) := by
  refine ⟨?_, ?_⟩
  · rintro s _ ⟨⟩
  · rintro _ _ _ ⟨⟩

omit hm in
theorem honestStep_command : HonestStep pf objects value rc (.on s) (.apdu cmd) ↔ ¬ Misses pf s cmd ∧
    (s.backend.termination = false → StoresStatus s cmd →
      ({ s.backend.meter pf objects value with status := cmd.data.toBytes } : Meter).Honest rc) := by
  refine ⟨fun h ↦ h.1 s cmd rfl rfl, fun h ↦ ⟨?_, ?_⟩⟩
  · rintro _ _ ⟨⟩ ⟨⟩
    exact h
  · rintro _ _ _ ⟨⟩

omit hm in
theorem answered_on (last : CardPin → Option ℕ) (p : CardPin) :
    WatchedCard.answered pf ⟨.on s, last⟩ (.apdu cmd) p
      = if (cmd.ins = 0x20 ∨ cmd.ins = 0x24) ∧ changedPin cmd.p2 = p then
          (handleApdu (vaultBackend pf) cmd s).1.retries
        else none := rfl

omit hm in
/-- A command that is not answered with 63Cx. -/
theorem last_silent {last : CardPin → Option ℕ} (hlast : ∀ p, last p = none)
    (hsw : cmd.ins = 0x20 ∨ cmd.ins = 0x24 → (handleApdu (vaultBackend pf) cmd s).1.sw1 ≠ 0x63)
    (p : CardPin) : (WatchedCard.answered pf ⟨.on s, last⟩ (.apdu cmd) p).or (last p) = none := by
  have hnone : WatchedCard.answered pf ⟨.on s, last⟩ (.apdu cmd) p = none := by
    rw [answered_on]
    split_ifs with hcmd
    · exact retries_eq_none (hsw hcmd.1)
    · rfl
  rw [hnone, hlast p]
  rfl

/-- A command to a card whose reports are true. -/
theorem truthful_command {last : CardPin → Option ℕ} (hw : WatchedCard.Settled ⟨.on s, last⟩)
    (htruth : WatchedCard.Truthful pf rc ⟨.on s, last⟩) (cmd : CommandApdu) :
    let w' : WatchedCard W T := WatchedCard.step pf ⟨.on s, last⟩ (.apdu cmd)
    (w'.Truthful pf rc ↔ HonestStep pf objects value rc (.on s) (.apdu cmd)) ∧
      (HonestStep pf objects value rc (.on s) (.apdu cmd) → w'.Settled) := by
  have hlast : ∀ p, last p = none := hw.silent
  have hlive : Unbricked s.backend := hw.unbricked s rfl
  have hstep : WatchedCard.step pf ⟨.on s, last⟩ (.apdu cmd) = ⟨.on (handle (vaultBackend pf) cmd s).2,
      fun p ↦ (WatchedCard.answered pf ⟨.on s, last⟩ (.apdu cmd) p).or (last p)⟩ := by
    rw [← handleApdu_snd]
    rfl
  rw [hstep, honestStep_command]
  cases ht : s.backend.termination with
  | true =>
    have hterm : (vaultBackend pf).isTerminationState s.backend = true := ht
    have hmiss : ¬ Misses pf s cmd := by
      rintro ⟨p, pin, -, hleft, -⟩
      cases ht.symm.trans hleft.running
    have hsw : (handleApdu (vaultBackend pf) cmd s).1.sw1 ≠ 0x63 := by
      rw [handleApdu_of_error (handle_terminated hterm)]
      change (if cmd.ins = 0x20 then StatusWord.authMethodBlocked else .terminationState).sw1 ≠ 0x63
      split_ifs <;> decide
    rw [handle_terminated hterm]
    refine ⟨iff_of_true (truthful_terminated ht _) ⟨hmiss, ?_⟩, fun _ ↦
      settled_on hlive (last_silent hlast fun _ ↦ hsw)⟩
    rintro ⟨⟩
  | false =>
    have hmeter := (truthful_silent_iff hm ht (hlive ht) hlast).mp htruth
    obtain ⟨hlive', hmisses, hhits⟩ := command_step hm ht hlive hmeter cmd
    by_cases hmiss : Misses pf s cmd
    · obtain ⟨ht', hdishonest⟩ := hmisses hmiss
      refine ⟨iff_of_false (fun h ↦ ?_) fun h ↦ h.1 hmiss, fun h ↦ absurd hmiss h.1⟩
      exact hdishonest ((truthful_on_iff hm ht' (hlive' ht') _).mp h).1
    · obtain ⟨hsw, hother, hstored⟩ := hhits hmiss
      have hlast' := last_silent hlast hsw
      refine ⟨?_, fun _ ↦ settled_on hlive' hlast'⟩
      rw [and_iff_right hmiss]
      by_cases hstores : StoresStatus s cmd
      · obtain ⟨ht', hmeter'⟩ := hstored hstores
        rw [truthful_silent_iff hm ht' (hlive' ht') hlast', hmeter']
        exact ⟨fun h _ _ ↦ h, fun h ↦ h rfl hstores⟩
      · refine iff_of_true ?_ fun _ h ↦ absurd h hstores
        cases ht' : (handle (vaultBackend pf) cmd s).2.backend.termination with
        | true => exact truthful_terminated ht' _
        | false => exact (truthful_silent_iff hm ht' (hlive' ht') hlast').mpr (hother hstores ht')

/-- **Step.** After a state whose reports are true they are true exactly if the step is honest, and
then the invariant is kept. -/
theorem truthful_step {w : WatchedCard W T} (hw : w.Settled) (htruth : w.Truthful pf rc) (a : CardStep T) :
    ((w.step pf a).Truthful pf rc ↔ HonestStep pf objects value rc w.card a) ∧
      (HonestStep pf objects value rc w.card a → (w.step pf a).Settled) := by
  obtain ⟨card, last⟩ := w
  have hlast : ∀ p, last p = none := hw.silent
  cases a with
  | powerCycle trng user admin =>
    obtain ⟨w', hopened, -, hmeter⟩ := opened_meter hm card.world trng user admin
    have hlive : ∀ p, ((OpenPgpVaultBackend.loaded pf pins cells _ _ w' trng).machine p).state ≠ _ :=
      unbricked_loaded user admin w' trng
    have hstep : WatchedCard.step pf ⟨card, last⟩ (.powerCycle trng user admin)
        = ⟨.on (.new (.loaded pf pins cells (.new user) (.new admin) w' trng)), last⟩ := by
      cases card <;> exact congrArg (fun c ↦ (⟨c, last⟩ : WatchedCard W T)) hopened
    rw [hstep, truthful_silent_iff hm rfl hlive hlast, honestStep_powerCycle, ← hmeter]
    exact ⟨Iff.rfl, fun _ ↦ settled_on (fun _ ↦ hlive) hlast⟩
  | reset =>
    cases card with
    | off w₀ => exact ⟨iff_of_true (truthful_off w₀ last) (honestStep_reset _), fun _ ↦ hw⟩
    | on s =>
      have hlive : Unbricked s.backend := hw.unbricked s rfl
      refine ⟨iff_of_true ?_ (honestStep_reset _), fun _ ↦ settled_on hlive hlast⟩
      cases ht : s.backend.termination with
      | true => exact truthful_terminated (s := s.reset) ht last
      | false =>
        have hmeter := (truthful_silent_iff hm ht (hlive ht) hlast).mp htruth
        exact (truthful_silent_iff hm (s := s.reset) ht (hlive ht) hlast).mpr hmeter
  | apdu cmd =>
    cases card with
    | off w₀ => exact ⟨iff_of_true (truthful_off w₀ last) (honestStep_off w₀ cmd), fun _ ↦ hw⟩
    | on s => exact truthful_command hm hw htruth cmd

end Metered

/-! ## Runs -/

/-- **Reports over a life.** Over any run of commands, resets and power cycles of a card, whatever
its memory holds at the start, the reports are true at every point exactly if every step is honest.
-/
theorem truthful_run_iff (hm : pf.Metered objects pins cells pinLimit value) (rc : ℕ) (w₀ : W)
    (steps : List (CardStep T)) :
    (∀ pre, pre <+: steps → ((WatchedCard.unwatched w₀).run pf pre).Truthful pf rc) ↔
      ∀ pre a, pre ++ [a] <+: steps →
        HonestStep pf objects value rc ((WatchedCard.unwatched w₀).run pf pre).card a := by
  have hstart : (WatchedCard.unwatched w₀ : WatchedCard W T).Settled := by
    refine ⟨?_, fun _ ↦ rfl⟩
    rintro s ⟨⟩
  refine prefixes_iff_of_invariant (P := WatchedCard.Truthful pf rc) (I := WatchedCard.Settled)
    (C := fun w a ↦ HonestStep pf objects value rc w.card a) ?_ ?_ steps hstart (truthful_off w₀ _)
  · exact fun a hw htruth ↦ (truthful_step hm hw htruth a).1
  · exact fun a hw htruth ↦ (truthful_step hm hw htruth a).2

/-! ## A card that forgets a wrong PIN -/

theorem benchPlatform_metered : benchPlatform.Metered Baochip.bench.vault Baochip.bench.vault
    Baochip.bench.vault Baochip.openpgpVaultLogicalSpanEnd benchValue where
  keeps := benchPlatform_keeps
  counts := benchPlatform_counts
  renewed := by
    rintro (_ | _) q w <;> rfl
  spared d hd := by
    have hspares : benchPlatform.Spares (fun w w' ↦ Memory.AgreeOn (Baochip.deviceStart .counters)
        (Baochip.deviceEnd .counters) (Baochip.bench.vault w') (Baochip.bench.vault w)) d :=
      Baochip.bench.platform_spares d (Baochip.device_disjoint hd)
    have hcell : ∀ w w' : Memory, Memory.AgreeOn (Baochip.deviceStart .counters)
        (Baochip.deviceEnd .counters) (Baochip.bench.vault w') (Baochip.bench.vault w) →
        ∀ q, benchValue q w' = benchValue q w := by
      intro w w' h q
      rw [vault_bench, vault_bench] at h
      rw [benchValue, rramCell, rramCell, Memory.window_congr h]
      · cases q <;> decide
      · cases q <;> decide
    exact CardPlatform.Spares.imp hspares hcell

/-- No attempt is counted in the bench storage. -/
theorem benchValue_benchStorage (p : CardPin) : benchValue p benchStorage = 0 := by
  have hwindow : benchStorage.window (benchCtr p) 4 = List.replicate 4 0 := by
    cases p
    · exact benchStorage_window (by decide) (.inr (by decide))
    · exact benchStorage_window (by decide) (.inr (by decide))
  rw [benchValue, rramCell, hwindow]
  rfl

/-- A new card on the bench opens with three tries on each PIN. -/
theorem benchMeter_eq : meterOnOpening benchPlatform Baochip.bench.vault benchValue default default
    benchStorage = ⟨fun _ ↦ 3, fun _ ↦ 0, defaultPwStatusBytes⟩ := by
  refine Meter.ext (funext fun p ↦ ?_) (funext benchValue_benchStorage) ?_
  · cases p <;> rfl
  · have hstatus : statusOnOpening benchPlatform Baochip.bench.vault benchStorage = defaultPwStatusBytes := by
      rw [statusOnOpening, if_neg benchStorage_not_valid]
    exact hstatus

theorem freshMeter_honest : Meter.Honest 3 ⟨fun _ ↦ 3, fun _ ↦ 0, defaultPwStatusBytes⟩ := by
  refine ⟨fun p ↦ ?_, rfl, fun p ↦ ?_⟩
  · change (3 : UInt32) ≠ u32Max
    decide
  · cases p <;> rfl

/-- Its reports are true as long as nothing happens. -/
theorem truthful_unused : ((WatchedCard.unwatched benchStorage).run benchPlatform
    [.powerCycle 0 default default]).Truthful benchPlatform 3 := by
  refine (truthful_run_iff benchPlatform_metered 3 benchStorage [.powerCycle 0 default default]).mpr ?_
    _ (List.prefix_refl _)
  intro pre a hpre
  cases pre with
  | nil =>
    obtain ⟨rfl, -⟩ := List.cons_prefix_cons.mp hpre
    refine honestStep_powerCycle.mpr ?_
    rw [WatchedCard.run, List.foldl_nil, WatchedCard.unwatched, Card.world, benchMeter_eq]
    exact freshMeter_honest
  | cons b pre =>
    obtain ⟨-, hrest⟩ := List.cons_prefix_cons.mp hpre
    have hne := List.append_ne_nil_of_right_ne_nil pre (List.cons_ne_nil a [])
    exact absurd (List.prefix_nil.mp hrest) hne

/-- VERIFY of PW1 with the PIN of PW3. -/
def mistypedVerify : CommandApdu := ⟨0x00, 0x20, 0x00, 0x81, .truncated (benchPin .admin), none⟩

/-- It is charged, and answered with the tries that are left. -/
theorem mistyped_answered {s : Session (OpenPgpVaultBackend Memory ℕ)}
    (hleft : AttemptsLeft benchPlatform .user s.backend)
    (hverifier : s.backend.verifier .user = .ofBytes 32 (benchPin .user))
    (hmeter : s.backend.meter benchPlatform Baochip.bench.vault benchValue
      = ⟨fun _ ↦ 3, fun _ ↦ 0, defaultPwStatusBytes⟩) :
    Misses benchPlatform s mistypedVerify ∧
      (handleApdu (vaultBackend benchPlatform) mistypedVerify s).1.retries = some 2 := by
  have hpin : mistypedVerify.data.toBytes ∉ accepted benchPlatform s.backend .user := by
    intro h
    have hdigest : pinBytesToVerifierDigest benchPlatform mistypedVerify.data.toBytes
      = s.backend.verifier .user := h
    rw [hverifier] at hdigest
    revert hdigest
    decide +kernel
  refine ⟨⟨.user, _, rfl, hleft, hpin⟩, ?_⟩
  obtain ⟨hanswer, -, -, hcharged⟩ := charged_verifyPin benchPlatform_metered hleft hpin
  have hcount : benchValue .user (verifyPin benchPlatform .user mistypedVerify.data.toBytes s.backend).2.world
      = 1 := by
    have h := congrFun (congrArg Meter.count hcharged) .user
    rw [hmeter] at h
    exact h
  have hlimit : (s.backend.machine .user).config.maxAttempts = 3 :=
    congrFun (congrArg Meter.limit hmeter) .user
  rw [hcount, hlimit] at hanswer
  have hins : mistypedVerify.ins = 0x20 := rfl
  rw [handleApdu_of_error (verify_error hins rfl hleft.running (Prod.ext hanswer rfl))]
  change ResponseApdu.retries (mapErr (.status (.verificationFailedRetries _))) = _
  decide

/-- After one wrong PIN the card has answered that two tries are left, and GET DATA says three. -/
theorem mistyped_forgotten : ∃ w : WatchedCard Memory ℕ, (WatchedCard.unwatched benchStorage).run
      benchPlatform [.powerCycle 0 default default, .apdu mistypedVerify] = w ∧
    w.last .user = some 2 ∧ ¬ w.Truthful benchPlatform 3 := by
  obtain ⟨w', hopened, houtside, hmeter⟩ :=
    opened_meter benchPlatform_metered benchStorage 0 default default
  rw [benchMeter_eq] at hmeter
  have hverifier : storedVerifier benchPlatform Baochip.bench.vault w' .user
      = .ofBytes 32 (benchPin .user) := by
    refine storedVerifier_bench ?_ .user
    rw [vault_bench, vault_bench] at houtside
    exact houtside.agreeOn (.inr (Nat.le_refl _))
  obtain ⟨s, hs⟩ : ∃ s : Session (OpenPgpVaultBackend Memory ℕ), s = .new (.loaded benchPlatform
    Baochip.bench.vault Baochip.bench.vault (.new default) (.new default) w' 0) := ⟨_, rfl⟩
  have hlive : Unbricked s.backend := by
    rw [hs]
    exact fun _ ↦ unbricked_loaded default default w' 0
  have ht : s.backend.termination = false := by rw [hs]; rfl
  have hmeter : s.backend.meter benchPlatform Baochip.bench.vault benchValue
      = ⟨fun _ ↦ 3, fun _ ↦ 0, defaultPwStatusBytes⟩ := by rw [hs]; exact hmeter
  have hverifier : s.backend.verifier .user = .ofBytes 32 (benchPin .user) := by rw [hs]; exact hverifier
  have hleft : AttemptsLeft benchPlatform .user s.backend := by
    have hrun := (benchPlatform_counts.persistent .user).increment_run s.backend.world
    have hcount : benchValue .user s.backend.world = 0 := congrFun (congrArg Meter.count hmeter) .user
    have hlimit : (s.backend.machine .user).config.maxAttempts = 3 :=
      congrFun (congrArg Meter.limit hmeter) .user
    refine ⟨ht, hlive ht .user, _, _, hrun, ?_⟩
    rw [hcount, hlimit]
    decide
  obtain ⟨hmisses, hanswer⟩ := mistyped_answered hleft hverifier hmeter
  have hstep : (WatchedCard.unwatched benchStorage).step benchPlatform (.powerCycle 0 default default)
      = ⟨.on s, fun _ ↦ none⟩ := by
    rw [hs]
    exact congrArg (fun c ↦ (⟨c, fun _ ↦ none⟩ : WatchedCard Memory ℕ)) hopened
  have htruth : WatchedCard.Truthful benchPlatform 3 ⟨.on s, fun _ ↦ none⟩ := by
    refine (truthful_silent_iff benchPlatform_metered ht (hlive ht) fun _ ↦ rfl).mpr ?_
    rw [hmeter]
    exact freshMeter_honest
  have hcommand := (truthful_command benchPlatform_metered (settled_on hlive fun _ ↦ rfl) htruth
    mistypedVerify).1
  refine ⟨_, rfl, ?_, ?_⟩
  · rw [WatchedCard.run, List.foldl_cons, List.foldl_cons, List.foldl_nil, hstep, WatchedCard.step]
    have hpresents : (mistypedVerify.ins = 0x20 ∨ mistypedVerify.ins = 0x24) ∧
        changedPin mistypedVerify.p2 = .user := by decide
    dsimp only
    rw [answered_on, if_pos hpresents, hanswer]
    rfl
  · rw [WatchedCard.run, List.foldl_cons, List.foldl_cons, List.foldl_nil, hstep, hcommand,
      honestStep_command]
    exact fun h ↦ h.1 hmisses

end Galdralag.OpenPgp
