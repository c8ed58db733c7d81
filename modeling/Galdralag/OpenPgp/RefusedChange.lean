import Galdralag.OpenPgp.Opening
import Galdralag.OpenPgp.PinAgreement

/-!
# Refused changes

The digest of a PIN is kept in memory and in storage, and a change sets it in memory first. When the
storage then refuses a digest, the command is answered with an error, memory has the new PIN and the
storage the old one: which of them the card takes depends on whether it was switched off meanwhile.
The digests of both PINs are stored, one after the other, so that a change of PW3 may also overwrite
the stored digest of PW1 before it is refused.
-/

set_option linter.all false

namespace Galdralag.OpenPgp

variable {W T : Type}

/-! ## Accepted PINs -/

/-- The PINs that are accepted once a card is opened over a world. -/
def acceptedOnOpening (pf : CardPlatform W T) (w : W) (p : CardPin) : Set Bytes :=
  {pin | ∃ trng user admin b, openCard pf (.new user) (.new admin) w trng = (.ok ⟨⟩, b) ∧
    pin ∈ accepted pf b p}

/-- The same PINs are accepted now, and after opening the card again. -/
def SameAccepted (pf : CardPlatform W T) (b b' : OpenPgpVaultBackend W T) : Prop :=
  ∀ p, accepted pf b' p = accepted pf b p ∧
    acceptedOnOpening pf b'.world p = acceptedOnOpening pf b.world p

/-- Two digests belong to the same PINs. -/
def SamePins (pf : CardPlatform W T) (d d' : Block 32) : Prop :=
  ∀ pin, pinBytesToVerifierDigest pf pin = d ↔ pinBytesToVerifierDigest pf pin = d'

/-- The storages of a card, of which the one for PIN digests may refuse a write. It is then left as
it was. -/
structure CardPlatform.MayRefuse (pf : CardPlatform W T) (objects pins cells : W → Memory) :
    Prop where
  objectsFaithful : pf.doStore.storage.Faithful (pf.doStore.base + DoStore.regionBytes) objects
  cellsFaithful : pf.keyStorage.Faithful sealedKeyRegionEnd cells
  readsPins : pf.ReadsPins pins
  written : ∀ {p} {d : Block 32} {w w'}, pf.pinStorage.write (pf.pinOff p) d.toBytes w = (.ok ⟨⟩, w') →
    pins w' = (pins w).patch (pf.pinOff p) d.toBytes
  refuses : pf.pinStorage.RefusesWhole pins
  apart : ∀ {p q}, q ≠ p → pf.pinOff q + 32 ≤ pf.pinOff p ∨ pf.pinOff p + 32 ≤ pf.pinOff q
  spares : ∀ d ≠ .pins, pf.Spares (fun w w' ↦ storedVerifier pf pins w' = storedVerifier pf pins w) d

variable {pf : CardPlatform W T} {objects pins cells : W → Memory} {b b' : OpenPgpVaultBackend W T}
  {c : PinChange} {w w' : W}

section Stored

variable (hm : pf.MayRefuse objects pins cells)
include hm

/-- A digest that is stored replaces the one of its PIN. -/
theorem storedVerifier_write {p : CardPin} {d : Block 32}
    (h : pf.pinStorage.write (pf.pinOff p) d.toBytes w = (.ok ⟨⟩, w')) (q : CardPin) :
    storedVerifier pf pins w' q = if q = p then d else storedVerifier pf pins w q := by
  rw [storedVerifier, hm.written h]
  split_ifs with hq
  · have hwindow := Memory.window_patch (pins w) (pf.pinOff p) d.toBytes
    rw [d.length_toBytes] at hwindow
    rw [hq, hwindow, Block.ofBytes_toBytes]
  · rw [storedVerifier, Memory.window_patch_of_disjoint]
    rw [d.length_toBytes]
    exact hm.apart hq

/-- What is accepted on opening are the PINs of the stored digest. -/
theorem acceptedOnOpening_eq (trng : T) (w : W) (p : CardPin) :
    acceptedOnOpening pf w p = {pin | pinBytesToVerifierDigest pf pin = storedVerifier pf pins w p} := by
  have hopen : ∀ trng user admin, ∃ w', storedVerifier pf pins w' = storedVerifier pf pins w ∧
      openCard pf (.new user) (.new admin) w trng
        = (.ok ⟨⟩, .loaded pf pins cells (.new user) (.new admin) w' trng) := by
    intro trng user admin
    obtain ⟨w', hseed, -⟩ := seedDefaultsIfFresh_run hm.objectsFaithful (Nat.le_refl _) w
    have hspared : storedVerifier pf pins (seedDefaultsIfFresh pf w).2 = storedVerifier pf pins w :=
      moves_seedDefaultsIfFresh (R := fun w w' ↦ storedVerifier pf pins w' = storedVerifier pf pins w)
        (fun _ ↦ rfl) (fun h h' ↦ h'.trans h) (hm.spares .objects (by decide)) w
    rw [hseed] at hspared
    exact ⟨w', hspared, openCard_of_reads hm.cellsFaithful hm.readsPins _ _ trng hseed⟩
  have hloaded : ∀ w' trng user admin,
      (OpenPgpVaultBackend.loaded pf pins cells user admin w' trng).verifier p
      = storedVerifier pf pins w' p := by
    intro w' trng user admin
    cases p <;> rfl
  ext pin
  constructor
  · rintro ⟨trng, user, admin, b, hrun, hpin⟩
    obtain ⟨w', hstored, hrun'⟩ := hopen trng user admin
    obtain rfl := (Prod.mk.inj (hrun.symm.trans hrun')).2
    rw [accepted, Set.mem_ofPred_eq, hloaded, hstored] at hpin
    exact hpin
  · intro hpin
    obtain ⟨w', hstored, hrun⟩ := hopen trng default default
    refine ⟨trng, default, default, _, hrun, ?_⟩
    rw [accepted, Set.mem_ofPred_eq, hloaded, hstored]
    exact hpin

/-- In terms of digests. -/
theorem sameAccepted_iff : SameAccepted pf b b' ↔ ∀ p, SamePins pf (b'.verifier p) (b.verifier p) ∧
    SamePins pf (storedVerifier pf pins b'.world p) (storedVerifier pf pins b.world p) := by
  refine forall_congr' fun p ↦ and_congr ?_ ?_
  · exact Set.ext_iff
  · rw [acceptedOnOpening_eq hm b.trng, acceptedOnOpening_eq hm b.trng]
    exact Set.ext_iff

end Stored

/-! ## A change that fails -/

namespace PinChange

/-- The world of a change that got past its attempt, when it begins to store the digests. -/
def Reaches (pf : CardPlatform W T) (c : PinChange) (b : OpenPgpVaultBackend W T) (w : W) : Prop :=
  match c.old with
  | none => w = b.world
  | some old => pinBytesToVerifierDigest pf old = b.verifier c.pin ∧
      (b.machine c.pin).state ≠ .bricked ∧
      ∃ count w', (pf.counter c.pin).increment b.world = (.ok count, w') ∧
        count ≤ (b.machine c.pin).config.maxAttempts ∧
        w = ((pf.counter c.pin).refundOnSuccess w').2

/-- The world of a change whose attempt was over the limit, after the wipe. -/
def Wiped (pf : CardPlatform W T) (c : PinChange) (b : OpenPgpVaultBackend W T) (w : W) : Prop :=
  c.old ≠ none ∧ (b.machine c.pin).state ≠ .bricked ∧
    ∃ count w', (pf.counter c.pin).increment b.world = (.ok count, w') ∧
      (b.machine c.pin).config.maxAttempts < count ∧ w = pf.zeroise c.pin w'

/-- A change of which nothing shows if it is refused. A wipe leaves the stored digests. And where
digests are stored, the new PIN has the digest of the old one, and the digest of PW1 that is stored
first is there already, unless it is refused. -/
structure Harmless (pf : CardPlatform W T) (pins : W → Memory) (c : PinChange)
    (b : OpenPgpVaultBackend W T) : Prop where
  wiped : ∀ w, c.Wiped pf b w →
    ∀ p, SamePins pf (storedVerifier pf pins w p) (storedVerifier pf pins b.world p)
  same : ∀ w, c.Reaches pf b w → pinBytesToVerifierDigest pf c.new = b.verifier c.pin
  first : ∀ w, c.Reaches pf b w →
    (pf.pinStorage.write (pf.pinOff .user) b.userVerifier.toBytes w).1 = .ok ⟨⟩ →
    SamePins pf b.userVerifier (storedVerifier pf pins b.world .user)

/-- The attempt of a change succeeds, or it fails, and then something is wiped or nothing is stored.
-/
theorem attempt_cases (hm : pf.MayRefuse objects pins cells) (ht : b.termination = false)
    (c : PinChange) :
    (∃ b₁, c.attempt pf b = (.ok ⟨⟩, b₁) ∧ c.Reaches pf b b₁.world ∧ b₁.verifier = b.verifier ∧
      storedVerifier pf pins b₁.world = storedVerifier pf pins b.world) ∨
    ∃ e b₁, c.attempt pf b = (.error e, b₁) ∧ (∀ w, ¬ c.Reaches pf b w) ∧
      b₁.verifier = b.verifier ∧ (c.Wiped pf b b₁.world ∨
        storedVerifier pf pins b₁.world = storedVerifier pf pins b.world ∧ ∀ w, ¬ c.Wiped pf b w) := by
  have hcounters := hm.spares .counters (by decide)
  obtain ⟨p, old, new⟩ := c
  cases old with
  | none => exact .inl ⟨b, rfl, rfl, rfl, rfl⟩
  | some old =>
    by_cases hb : (b.machine p).state = .bricked
    · exact .inr ⟨_, _, verifyPin_bricked ht hb, fun _ h ↦ h.2.1 hb, rfl,
        .inr ⟨rfl, fun _ h ↦ h.2.1 hb⟩⟩
    rcases hc : (pf.counter p).increment b.world with ⟨e | count, w'⟩
    · have hstored := (hcounters p b.world).1
      rw [hc] at hstored
      refine .inr ⟨_, _, verifyPin_charge_error ht hb hc, ?_, verifier_attempted _ _ _, .inr ⟨hstored, ?_⟩⟩
      · rintro w ⟨-, -, count, w₁, hcount, -⟩
        cases (Prod.mk.inj (hc.symm.trans hcount)).1
      · rintro w ⟨-, -, count, w₁, hcount, -⟩
        cases (Prod.mk.inj (hc.symm.trans hcount)).1
    -- the count of every other description of the attempt
    have hcount : ∀ {count₁ w₁}, (pf.counter p).increment b.world = (.ok count₁, w₁) →
        count₁ = count := fun h ↦ Except.ok.inj (Prod.mk.inj (h.symm.trans hc)).1
    by_cases hgt : (b.machine p).config.maxAttempts < count
    · refine .inr ⟨_, _, verifyPin_breach ht hb hc hgt, ?_,
        verifier_attempted p .bricked (pf.zeroise p w'),
        .inl ⟨Option.some_ne_none old, hb, count, w', hc, hgt, rfl⟩⟩
      rintro w ⟨-, -, count₁, w₁, hcount₁, hle, -⟩
      rw [hcount hcount₁] at hle
      exact absurd hgt (UInt32.not_lt.mpr hle)
    have hnot : ∀ w, ¬ Wiped pf ⟨p, some old, new⟩ b w := by
      rintro w ⟨-, -, count₁, w₁, hcount₁, hgt₁, -⟩
      rw [hcount hcount₁] at hgt₁
      exact hgt hgt₁
    have hcharged : storedVerifier pf pins w' = storedVerifier pf pins b.world := by
      have hstored := (hcounters p b.world).1
      rwa [hc] at hstored
    by_cases hpin : pinBytesToVerifierDigest pf old = b.verifier p
    · refine .inl ⟨_, verifyPin_success ht hb hc hgt hpin, ?_, verifier_attempted _ _ _,
        ((hcounters p w').2.1).trans hcharged⟩
      exact ⟨hpin, hb, count, w', hc, UInt32.not_lt.mp hgt, rfl⟩
    · exact .inr ⟨_, _, verifyPin_failed ht hb hc hgt hpin, fun _ h ↦ hpin h.1, verifier_attempted _ _ _,
        .inr ⟨hcharged, hnot⟩⟩

/-- Digests are refused at the first or at the second of them. Memory has the new one already. -/
theorem store_error (hm : pf.MayRefuse objects pins cells) {e : OpenPgpBackendError}
    (h : c.store pf b = (.error e, b')) :
    let b₁ := b.setVerifier (pinBytesToVerifierDigest pf c.new) c.pin
    b'.verifier = b₁.verifier ∧
    (((pf.pinStorage.write (pf.pinOff .user) b₁.userVerifier.toBytes b.world).1 ≠ .ok ⟨⟩ ∧
      storedVerifier pf pins b'.world = storedVerifier pf pins b.world) ∨
    ((pf.pinStorage.write (pf.pinOff .user) b₁.userVerifier.toBytes b.world).1 = .ok ⟨⟩ ∧
      ∀ p, storedVerifier pf pins b'.world p
        = if p = .user then b₁.userVerifier else storedVerifier pf pins b.world p)) := by
  intro b₁
  have hworld : b₁.world = b.world := by
    change (b.setVerifier _ c.pin).world = b.world
    cases c.pin <;> rfl
  have hwrite : ∀ {p} {d : Block 32} {r w'} (b : OpenPgpVaultBackend W T),
      pf.pinStorage.write (pf.pinOff p) d.toBytes b.world = (r, w') →
      (Fallible.orElse (onWorld (pf.pinStorage.write (pf.pinOff p) d.toBytes)) (.status .executionError) :
        VaultM W T PUnit) b = (r.mapError fun _ ↦ .status .executionError, { b with world := w' }) := by
    intro p d r w' b hrun
    rw [Fallible.orElse, onWorld, Fallible.zoom_apply, hrun]
    cases r <;> rfl
  rw [store, Fallible.modify_bind, persistPinHashes, Fallible.gets_bind] at h
  change (Fallible.orElse _ _ >>= _) b₁ = _ at h
  rw [← hworld]
  rcases huser : pf.pinStorage.write (pf.pinOff .user) b₁.userVerifier.toBytes b₁.world
    with ⟨e₁ | ⟨⟨⟩⟩, w₁⟩
  · rw [Fallible.bind_of_error (hwrite b₁ huser)] at h
    obtain rfl := (Prod.mk.inj h).2
    refine ⟨rfl, .inl ⟨?_, ?_⟩⟩
    · rintro ⟨⟩
    · funext p
      rw [storedVerifier, storedVerifier, hm.refuses _ _ _ _ _ huser]
  · rw [Fallible.bind_of_ok (hwrite b₁ huser), Fallible.gets_bind] at h
    rcases hadmin : pf.pinStorage.write (pf.pinOff .admin) b₁.adminVerifier.toBytes w₁
      with ⟨e₂ | ⟨⟨⟩⟩, w₂⟩
    · rw [hwrite { b₁ with world := w₁ } hadmin] at h
      obtain rfl := (Prod.mk.inj h).2
      refine ⟨rfl, .inr ⟨rfl, fun p ↦ ?_⟩⟩
      have hstored : storedVerifier pf pins w₂ p = storedVerifier pf pins w₁ p := by
        rw [storedVerifier, storedVerifier, hm.refuses _ _ _ _ _ hadmin]
      exact hstored.trans (storedVerifier_write hm huser p)
    · rw [hwrite { b₁ with world := w₁ } hadmin] at h
      cases (Prod.mk.inj h).1

theorem Reaches.unique (h : c.Reaches pf b w) (h' : c.Reaches pf b w') : w' = w := by
  obtain ⟨p, old, new⟩ := c
  cases old with
  | none => exact h'.trans h.symm
  | some old =>
    obtain ⟨-, -, count, w₁, hcount, -, rfl⟩ := h
    obtain ⟨-, -, count', w₁', hcount', -, rfl⟩ := h'
    obtain rfl := (Prod.mk.inj (hcount.symm.trans hcount')).2
    rfl

/-- A change that gets past its attempt wipes nothing. -/
theorem Reaches.not_wiped (h : c.Reaches pf b w) : ¬ c.Wiped pf b w' := by
  obtain ⟨p, old, new⟩ := c
  cases old with
  | none => exact fun hw ↦ hw.1 rfl
  | some old =>
    obtain ⟨-, -, count, w₁, hcount, hle, -⟩ := h
    rintro ⟨-, -, count', w₁', hcount', hgt, -⟩
    obtain rfl := Except.ok.inj (Prod.mk.inj (hcount.symm.trans hcount')).1
    exact UInt32.not_lt.mpr hle hgt

theorem Wiped.unique (h : c.Wiped pf b w) (h' : c.Wiped pf b w') : w' = w := by
  obtain ⟨-, -, count, w₁, hcount, -, rfl⟩ := h
  obtain ⟨-, -, count', w₁', hcount', -, rfl⟩ := h'
  obtain rfl := (Prod.mk.inj (hcount.symm.trans hcount')).2
  rfl

/-- Only a digest of the new PIN has the same PINs. -/
theorem samePins_new_iff {d : Block 32} : SamePins pf (pinBytesToVerifierDigest pf c.new) d ↔
    pinBytesToVerifierDigest pf c.new = d := by
  constructor
  · exact fun h ↦ (h c.new).mp rfl
  · rintro rfl pin
    rfl

/-- **Failed changes.** The same PINs are accepted after a change that failed exactly if the change
is harmless. -/
theorem sameAccepted_of_error (hm : pf.MayRefuse objects pins cells) (ht : b.termination = false)
    {e : OpenPgpBackendError} (h : c.apply pf b = (.error e, b')) :
    SameAccepted pf b b' ↔ c.Harmless pf pins b := by
  rw [sameAccepted_iff hm]
  rcases attempt_cases hm ht c with ⟨b₁, hattempt, hreaches, hverifier, hstored⟩ |
    ⟨e₁, b₁, hattempt, hnot, hverifier, hworld⟩
  · have hstore : c.store pf b₁ = (.error e, b') := by
      rw [apply, Fallible.bind_of_ok hattempt] at h
      rcases hs : c.store pf b₁ with ⟨e₂ | ⟨⟨⟩⟩, b₂⟩
      · rwa [Fallible.bind_of_error hs] at h
      · rw [Fallible.bind_of_ok hs] at h
        cases (Prod.mk.inj h).1
    obtain ⟨hnew, hcases⟩ := store_error hm hstore
    have hset : ∀ p, (b₁.setVerifier (pinBytesToVerifierDigest pf c.new) c.pin).verifier p
        = if p = c.pin then pinBytesToVerifierDigest pf c.new else b.verifier p := by
      intro p
      rw [verifier_setVerifier, hverifier]
    -- where the new digest is the old one, memory is as before
    have hkept : pinBytesToVerifierDigest pf c.new = b.verifier c.pin →
        ∀ p, (b₁.setVerifier (pinBytesToVerifierDigest pf c.new) c.pin).verifier p = b.verifier p := by
      intro heq p
      rw [hset]
      split_ifs with hp
      · rw [hp, heq]
      · rfl
    have huser : pinBytesToVerifierDigest pf c.new = b.verifier c.pin →
        (b₁.setVerifier (pinBytesToVerifierDigest pf c.new) c.pin).userVerifier = b.userVerifier :=
      fun heq ↦ hkept heq .user
    have hsame : ∀ d, SamePins pf d d := fun _ _ ↦ Iff.rfl
    rw [hnew, hstored] at *
    constructor
    · intro hall
      have heq : pinBytesToVerifierDigest pf c.new = b.verifier c.pin := by
        have hpin := (hall c.pin).1
        rw [hset, if_pos rfl] at hpin
        exact samePins_new_iff.mp hpin
      refine ⟨fun w hw ↦ absurd hw hreaches.not_wiped, fun _ _ ↦ heq, fun w hw hfirst ↦ ?_⟩
      rw [hreaches.unique hw, ← huser heq] at hfirst
      rcases hcases with ⟨hrefused, -⟩ | ⟨-, hwritten⟩
      · exact absurd hfirst hrefused
      · have hpin := (hall .user).2
        rwa [hwritten, if_pos rfl, huser heq] at hpin
    · intro hharmless p
      have heq := hharmless.same _ hreaches
      refine ⟨by rw [hkept heq]; exact hsame _, ?_⟩
      rcases hcases with ⟨-, hrefused⟩ | ⟨hfirst, hwritten⟩
      · rw [hrefused]
        exact hsame _
      · rw [hwritten]
        split_ifs with hp
        · rw [huser heq] at hfirst ⊢
          rw [hp]
          exact hharmless.first _ hreaches hfirst
        · exact hsame _
  · have hb' : b' = b₁ := by
      rw [apply, Fallible.bind_of_error hattempt] at h
      exact (Prod.mk.inj h).2.symm
    subst hb'
    have hsame : ∀ d, SamePins pf d d := fun _ _ ↦ Iff.rfl
    rcases hworld with hwiped | ⟨hstored, hnone⟩
    · constructor
      · intro hall
        refine ⟨fun w hw p ↦ ?_, fun w hw ↦ absurd hw (hnot w), fun w hw ↦ absurd hw (hnot w)⟩
        rw [hwiped.unique hw]
        exact (hall p).2
      · intro hharmless p
        rw [hverifier]
        exact ⟨hsame _, hharmless.wiped _ hwiped p⟩
    · refine iff_of_true (fun p ↦ ?_) ⟨fun w hw ↦ absurd hw (hnone w), fun w hw ↦ absurd hw (hnot w),
        fun w hw ↦ absurd hw (hnot w)⟩
      rw [hverifier, hstored]
      exact ⟨hsame _, hsame _⟩

/-- Where no digest is taken, memory keeps the new one. -/
theorem apply_refused {b₁ : OpenPgpVaultBackend W T} {e : HalError}
    (h : c.attempt pf b = (.ok ⟨⟩, b₁))
    (hrefused : ∀ off bs w, pf.pinStorage.write off bs w = (.error e, w)) :
    c.apply pf b = (.error (.status .executionError),
      b₁.setVerifier (pinBytesToVerifierDigest pf c.new) c.pin) := by
  have hstore : c.store pf b₁ = (.error (.status .executionError),
      b₁.setVerifier (pinBytesToVerifierDigest pf c.new) c.pin) := by
    rw [store, Fallible.modify_bind, persistPinHashes, Fallible.gets_bind]
    refine Fallible.bind_of_error ?_
    rw [Fallible.orElse, onWorld, Fallible.zoom_apply, hrefused]
  rw [apply, Fallible.bind_of_ok h, Fallible.bind_of_error hstore]

end PinChange

/-- **Refused changes.** After a CHANGE REFERENCE DATA or RESET RETRY COUNTER that is answered with
an error, the same PINs are accepted, now and after opening the card again, exactly if the change it
asks for is harmless, or it asks for none. -/
theorem sameAccepted_of_refused (hm : pf.MayRefuse objects pins cells) {cmd : CommandApdu}
    {s t : Session (OpenPgpVaultBackend W T)} {r : ResponseApdu}
    (hcmd : cmd.ins = 0x24 ∨ cmd.ins = 0x2C) (hrun : handle (vaultBackend pf) cmd s = (.error r, t)) :
    SameAccepted pf s.backend t.backend ↔
      ∀ c, requestedChange pf s cmd = some c → c.Harmless pf pins s.backend := by
  cases hc : requestedChange pf s cmd with
  | none =>
    obtain ⟨r', -, hrun'⟩ := handle_unrequested hcmd hc
    obtain rfl := (Prod.mk.inj (hrun.symm.trans hrun')).2
    refine iff_of_true (fun _ ↦ ⟨rfl, rfl⟩) ?_
    rintro c ⟨⟩
  | some c =>
    rcases handle_requested hc with ⟨e, t', happly, -, hrun'⟩ | ⟨_, _, t', -, -, -, hrun'⟩
    · obtain rfl := (Prod.mk.inj (hrun.symm.trans hrun')).2
      rw [c.sameAccepted_of_error hm (running_of_requested hc) happly]
      constructor
      · rintro h _ ⟨⟩
        exact h
      · exact fun h ↦ h c rfl
    · cases (Prod.mk.inj (hrun.symm.trans hrun')).1

/-! ## A storage that is worn out -/

/-- Opening a card stores no PIN digests. -/
theorem opened_refusing (f : ℕ → Bytes → Fallible W HalError PUnit) (w : W) (trng : T)
    (user admin : PinPolicyConfig) :
    Card.opened { pf with pinStorage := { pf.pinStorage with write := f } } w trng user admin
      = Card.opened pf w trng user admin := rfl

/-- The bench card, over a storage that takes no PIN digests any more. -/
def wornPlatform : CardPlatform Memory ℕ :=
  { benchPlatform with
    pinStorage := { benchPlatform.pinStorage with write := fun _ _ ↦ .fail .bus } }

theorem wornPlatform_mayRefuse : wornPlatform.MayRefuse Baochip.bench.vault Baochip.bench.vault
    Baochip.bench.vault where
  objectsFaithful := benchPlatform_keeps.objectsFaithful
  cellsFaithful := benchPlatform_keeps.cellsFaithful
  readsPins := benchPlatform_keeps.readsPins
  written := by rintro p d w w' ⟨⟩
  refuses := by
    rintro w off bs e w' ⟨⟩
    rfl
  apart := by
    intro p q hq
    cases p <;> cases q <;> first | exact absurd rfl hq | decide
  spares := by
    intro d hd
    have hspares : wornPlatform.Spares (fun w w' ↦ Memory.AgreeOn Baochip.pinUserLogicalOff
        Baochip.userCtrLogicalOff (Baochip.bench.vault w') (Baochip.bench.vault w)) d := by
      have hbench : benchPlatform.Spares _ d :=
        Baochip.bench.platform_spares d (Baochip.device_disjoint hd)
      cases d <;> first | exact absurd rfl hd | exact hbench
    refine hspares.imp fun w w' h ↦ funext fun p ↦ ?_
    rw [storedVerifier, storedVerifier, Memory.window_congr h]
    · cases p <;> decide
    · cases p <;> decide

section Worn

variable {w₀ : Memory} (h₀ : benchPlatform.doStore.write 0x93 [0x00, 0x00, 0x00] benchStorage
  = (.ok ⟨⟩, w₀))
include h₀

/-- The worn storage refuses the digest, which is in memory by then. -/
theorem worn_refuses (newPin : Bytes) (hlen : newPin.length = 5)
    (htrim : trimOpenpgpPinPadding newPin = newPin) : ∃ t w,
    handle (vaultBackend wornPlatform) (changePw1 newPin) (.new (benchOpened w₀))
      = (.error (.error .executionError), t) ∧
    requestedChange wornPlatform (.new (benchOpened w₀)) (changePw1 newPin)
      = some ⟨.user, some (benchPin .user), newPin⟩ ∧
    PinChange.Reaches wornPlatform ⟨.user, some (benchPin .user), newPin⟩ (benchOpened w₀) w ∧
    t.backend.verifier .user = .ofBytes 32 newPin ∧
    storedVerifier wornPlatform Baochip.bench.vault t.backend.world
      = storedVerifier wornPlatform Baochip.bench.vault (benchOpened w₀).world := by
  have hrunning : (benchOpened w₀).termination = false := (benchReady_opened h₀).running
  have hstore : wornPlatform.doStore = benchPlatform.doStore := rfl
  have hne : trimOpenpgpPinPadding newPin ≠ [] := by
    rw [htrim]
    rintro rfl
    cases hlen
  have hrequested := requested_changePw1 h₀ hstore hlen hne
  rw [htrim] at hrequested
  obtain ⟨w, hverify⟩ : ∃ w, verifyPin wornPlatform .user _ _ = _ := verifyPin_opened h₀ rfl rfl
  rcases PinChange.attempt_cases wornPlatform_mayRefuse hrunning ⟨.user, some (benchPin .user), newPin⟩
    with ⟨b₁, hattempt, hreaches, -, hstored⟩ | ⟨e, b₁, hattempt, -⟩
  swap
  · cases (Prod.mk.inj (hattempt.symm.trans hverify)).1
  have happly := PinChange.apply_refused (e := .bus) hattempt (fun _ _ _ ↦ rfl)
  rcases handle_requested hrequested with ⟨e, t, hrun, -, hhandle⟩ | ⟨b, audit, t, hrun, -⟩
  · obtain ⟨he, ht⟩ := Prod.mk.inj (hrun.symm.trans happly)
    obtain rfl := Except.error.inj he
    refine ⟨t, _, hhandle, hrequested, hreaches, ?_, ?_⟩
    · rw [ht]
      rfl
    · rw [ht]
      exact hstored
  · cases (Prod.mk.inj (hrun.symm.trans happly)).1

theorem opened_worn : (Card.off w₀).run wornPlatform [.powerCycle 0 default default]
    = .on (.new (benchOpened w₀)) := by
  rw [Card.run, List.foldl_cons, List.foldl_nil, Card.step]
  exact (opened_refusing _ w₀ 0 default default).trans (opened_of_counted h₀)

end Worn

/-- Where the new PIN is the old one, a refused digest is not missed. -/
theorem samePin_refused : ∃ s t : Session (OpenPgpVaultBackend Memory ℕ), ∃ r,
    handle (vaultBackend wornPlatform) (changePw1 (benchPin .user)) s = (.error r, t) ∧
      SameAccepted wornPlatform s.backend t.backend := by
  obtain ⟨w₀, h₀⟩ : ∃ w₀, benchPlatform.doStore.write 0x93 [0x00, 0x00, 0x00] benchStorage = (.ok ⟨⟩, w₀) :=
    ⟨_, benchCounted_run 0⟩
  have hready := benchReady_opened h₀
  obtain ⟨t, w, hrun, hrequested, hreaches, -⟩ := worn_refuses h₀ (benchPin .user) rfl (by decide)
  refine ⟨_, t, _, hrun, ?_⟩
  have hiff := sameAccepted_of_refused wornPlatform_mayRefuse (.inl rfl) hrun
  refine hiff.mpr fun c hc ↦ ?_
  obtain rfl := Option.some.inj (hrequested.symm.trans hc)
  refine ⟨fun _ hw ↦ absurd hw hreaches.not_wiped, fun _ _ ↦ ?_, fun _ _ hfirst ↦ ?_⟩
  · exact hreaches.1
  · cases hfirst

/-- **A refused change that shows.** PW1 is to become `54321`. The command is answered with an
error, and `12345` is no longer accepted, until the card is opened again. -/
theorem refused_change_shows : ∃ s t : Session (OpenPgpVaultBackend Memory ℕ),
    (Card.off (benchPlatform.doStore.write 0x93 [0x00, 0x00, 0x00] benchStorage).2).run wornPlatform
        [.powerCycle 0 default default] = .on s ∧
      handle (vaultBackend wornPlatform) (changePw1 [0x35, 0x34, 0x33, 0x32, 0x31]) s
        = (.error (.error .executionError), t) ∧
      benchPin .user ∈ accepted wornPlatform s.backend .user ∧
      benchPin .user ∉ accepted wornPlatform t.backend .user ∧
      [0x35, 0x34, 0x33, 0x32, 0x31] ∈ accepted wornPlatform t.backend .user ∧
      acceptedOnOpening wornPlatform t.backend.world .user
        = acceptedOnOpening wornPlatform s.backend.world .user := by
  have h₀ := benchCounted_run 0
  generalize (benchPlatform.doStore.write 0x93 [0x00, 0x00, 0x00] benchStorage).2 = w₀ at h₀ ⊢
  have hready := benchReady_opened h₀
  obtain ⟨t, w, hrun, -, hreaches, hverifier, hstored⟩ :=
    worn_refuses h₀ [0x35, 0x34, 0x33, 0x32, 0x31] rfl (by decide)
  refine ⟨_, t, opened_worn h₀, hrun, hreaches.1, ?_, ?_, ?_⟩
  · rw [accepted, Set.mem_ofPred_eq, hverifier]
    change Block.ofBytes 32 _ ≠ _
    decide +kernel
  · rw [accepted, Set.mem_ofPred_eq, hverifier]
    rfl
  · rw [acceptedOnOpening_eq wornPlatform_mayRefuse 0, hstored,
      ← acceptedOnOpening_eq wornPlatform_mayRefuse 0]
    rfl

end Galdralag.OpenPgp
