import Galdralag.Provisioning.Boot
import Mathlib.Logic.Relation

/-!
# Loss of power while PINs are provisioned

PINs lie in the slots in the clear until a start of the firmware wipes them. Power may be lost at
any point before. To see what is left then, the code is run over a storage with a supply: some
writes go through, the next one reaches some of its addresses and not others, and every later one
reaches none.

The slots are wiped by the start that provisions the card, and by no other. After a loss of power
the next start provisions the card only if one of the two digests is still missing. So the bad
points are those behind the second digest and before the end of the wipe: the card starts with its
PINs, and the slots keep them.
-/

set_option linter.all false

namespace Galdralag

/-- The supply of a storage: how many writes still go through, and which addresses the one after
them reaches. -/
structure Supply where
  writes : ℕ
  lands : ℕ → Bool

/-- The supply is gone. -/
def Supply.spent : Supply := ⟨0, fun _ ↦ false⟩

/-- A storage that loses its supply. -/
def VaultStorage.torn (storage : VaultStorage Memory) : VaultStorage (Memory × Supply) where
  read x offset len := storage.read x.1 offset len
  write offset data := fun x ↦
    let r := storage.write offset data x.1
    if 0 < x.2.writes then (r.1, (r.2, ⟨x.2.writes - 1, x.2.lands⟩))
    else (.error .bus, (fun a ↦ if x.2.lands a then r.2 a else x.1 a, .spent))

section Torn

variable (storage : VaultStorage Memory) (off : ℕ) (bs : Bytes) (w : Memory) {supply : Supply}

theorem VaultStorage.torn_write_of_pos (h : 0 < supply.writes) : storage.torn.write off bs (w, supply)
    = ((storage.write off bs w).1, ((storage.write off bs w).2, ⟨supply.writes - 1, supply.lands⟩)) :=
  if_pos h

theorem VaultStorage.torn_write_of_not_pos (h : ¬ 0 < supply.writes) :
    storage.torn.write off bs (w, supply) = (.error .bus,
      (fun a ↦ if supply.lands a then (storage.write off bs w).2 a else w a, .spent)) :=
  if_neg h

end Torn

namespace Provisioning

open OpenPgp OpenPgp.Baochip

variable {T : Type}

/-- A platform whose storages lose their supply. Starting the card does not touch the counters. -/
def torn (pf : CardPlatform Memory T) : CardPlatform (Memory × Supply) T where
  doStore := ⟨pf.doStore.storage.torn, pf.doStore.base⟩
  pinStorage := pf.pinStorage.torn
  pinUserOff := pf.pinUserOff
  pinAdminOff := pf.pinAdminOff
  keyStorage := pf.keyStorage.torn
  masterKey := pf.masterKey
  trng := pf.trng
  aid := pf.aid
  userCounter := ⟨fun x ↦ pf.userCounter.read x.1,
    .zoom Prod.fst (fun w x ↦ (w, x.2)) pf.userCounter.increment,
    .zoom Prod.fst (fun w x ↦ (w, x.2)) pf.userCounter.refundOnSuccess⟩
  adminCounter := ⟨fun x ↦ pf.adminCounter.read x.1,
    .zoom Prod.fst (fun w x ↦ (w, x.2)) pf.adminCounter.increment,
    .zoom Prod.fst (fun w x ↦ (w, x.2)) pf.adminCounter.refundOnSuccess⟩
  newUserCounter x := (pf.newUserCounter x.1, x.2)
  newAdminCounter x := (pf.newAdminCounter x.1, x.2)
  userZeroise x := (pf.userZeroise x.1, x.2)
  adminZeroise x := (pf.adminZeroise x.1, x.2)
  crypto := pf.crypto

theorem torn_pinOff (pf : CardPlatform Memory T) (p : CardPin) : (torn pf).pinOff p = pf.pinOff p := by
  cases p <;> rfl

/-- What is running when power is lost. -/
inductive Interrupted (T : Type) where
  /-- The PINs are being written into the slots. -/
  | writePins (user admin : Bytes)
  /-- The firmware is starting, under a master key. -/
  | start (key : Block 32) (hookSet : Bool) (user admin : Bytes) (t : T)

variable (bp : Baochip T)

/-- What the memory holds when power is lost. -/
def memoryAtLoss (rram : Memory) (supply : Supply) : Interrupted T → Memory
  | .writePins user admin =>
    (writeProvisioningPins (torn (bp.platform (.zero 32))) user admin (rram, supply)).2.1
  | .start key hookSet user admin t =>
    (openOrProvisionBackend (torn (bp.platform key)) hookSet user admin (rram, supply) t).2.world.1

/-- What the service does between a loss of power and the next start that succeeds: PINs are written
while a digest is missing, the master key is loaded, and starts are refused. -/
inductive Waits : Memory → Memory → Prop where
  | writePins {key : Block 32} {w : Memory} (user admin : Bytes)
      (hguard : ccidPinHashesUnprovisioned (bp.platform key) w = true) :
      Waits w (writeProvisioningPins (bp.platform key) user admin w).2
  | masterKey (w : Memory) (t : T) : Waits w (loadOrDeriveCcidMasterKey bp (w, t)).2.1
  | refused {key : Block 32} {hookSet : Bool} {user admin : Bytes} {w : Memory} {t : T}
      {e : HalError} {b : OpenPgpVaultBackend Memory T}
      (hrefused : openOrProvisionBackend (bp.platform key) hookSet user admin w t = (.error e, b)) :
      Waits w b.world

/-- The slots hold no PIN, or will be wiped. -/
def Settled (mem : Memory) : Prop := Unprovisioned mem ∨ NoPinBytes mem

variable {bp} {key : Block 32} {w w' : Memory} {user admin : Bytes} {t : T}

/-! ## The next start -/

/-- **One start.** After a start that succeeds the slots hold no PIN exactly when they were settled.
-/
theorem noPinBytes_start_iff {hookSet : Bool} {b : OpenPgpVaultBackend Memory T}
    (h : openOrProvisionBackend (bp.platform key) hookSet user admin w t = (.ok ⟨⟩, b)) :
    NoPinBytes (bp.vault b.world) ↔ Settled (bp.vault w) := by
  rcases openOrProvision_cases bp key hookSet user admin w t with
    ⟨e, b', hrun, -⟩ | ⟨w', hmissing, -, hrun⟩ | ⟨w', hpresent, hseed, hrun⟩
  · rw [h] at hrun
    cases (Prod.mk.inj hrun).1
  · rw [h] at hrun
    obtain rfl := (Prod.mk.inj hrun).2
    exact iff_of_true (noPinBytes_wiped w') (.inl hmissing)
  · rw [h] at hrun
    obtain rfl := (Prod.mk.inj hrun).2
    obtain ⟨w'', hseed', hout⟩ := seed_run bp key w
    obtain rfl := (Prod.mk.inj (hseed.symm.trans hseed')).2
    rw [Settled, or_iff_right hpresent]
    exact NoPinBytes.congr (hout.agreeOn (.inr (by decide)))

/-- Whether the slots are settled depends on the digests and the slots alone. -/
theorem Settled.congr {mem mem' : Memory}
    (hdigests : Memory.AgreeOn pinUserLogicalOff userCtrLogicalOff mem mem')
    (hslots : Memory.AgreeOn (pinProvisionLogicalOff .user) openpgpVaultLogicalSpanEnd mem mem') :
    Settled mem ↔ Settled mem' :=
  or_congr (Unprovisioned.congr hdigests) (NoPinBytes.congr hslots)

/-- Writing PINs leaves the digests alone, whether it succeeds or fails. -/
theorem writeProvisioningPins_digests (user admin : Bytes) (w : Memory) :
    Memory.AgreeOn pinUserLogicalOff userCtrLogicalOff
      (bp.vault (writeProvisioningPins (bp.platform key) user admin w).2) (bp.vault w) :=
  (writeProvisioningPins_outside user admin w).agreeOn (.inl (by decide))

/-- **While the service waits.** The slots stay settled, or unsettled. -/
theorem Waits.settled_iff (h : Waits bp w w') : Settled (bp.vault w') ↔ Settled (bp.vault w) := by
  induction h with
  | writePins user admin hguard =>
    have hmissing := unprovisioned_iff.mp hguard
    exact iff_of_true (.inl ((Unprovisioned.congr (writeProvisioningPins_digests user admin _)).mpr
      hmissing)) (.inl hmissing)
  | masterKey w t =>
    have hout := masterKey_outside bp w t
    exact Settled.congr (hout.agreeOn (.inl (by decide))) (hout.agreeOn (.inr (by decide)))
  | refused hrefused =>
    rename_i key hookSet user admin w t e b
    have hworld : b.world = w := by
      rcases openOrProvision_cases bp key hookSet user admin w t with
        ⟨e', b', hrun, hsame⟩ | ⟨w', -, -, hrun⟩ | ⟨w', -, -, hrun⟩
      · rw [hrefused] at hrun
        obtain rfl := (Prod.mk.inj hrun).2
        exact hsame
      · rw [hrefused] at hrun
        cases (Prod.mk.inj hrun).1
      · rw [hrefused] at hrun
        cases (Prod.mk.inj hrun).1
    rw [hworld]

/-! ## Points of a loss -/

/-- A torn write stays inside what it was to fill. -/
theorem torn_outside {lo hi off : ℕ} {bs : Bytes} (hlo : lo ≤ off) (hhi : off + bs.length ≤ hi)
    (x : Memory × Supply) : Memory.AgreeOutside lo hi
      (bp.vault (bp.vaultStorage.torn.write off bs x).2.1) (bp.vault x.1) := by
  have hwhole : Memory.AgreeOutside lo hi (bp.vault (x.1.patch (bp.vaultPhysBase + off) bs))
      (bp.vault x.1) := by
    rw [vault_patch]
    exact Memory.agreeOutside_patch hlo hhi
  obtain ⟨mem, supply⟩ := x
  by_cases hpos : 0 < supply.writes
  · rw [VaultStorage.torn_write_of_pos _ _ _ _ hpos]
    exact hwhole
  · rw [VaultStorage.torn_write_of_not_pos _ _ _ _ hpos]
    intro a ha
    change (if supply.lands (bp.vaultPhysBase + a) then _ else _) = _
    split_ifs
    · exact hwhole a ha
    · rfl

/-- **Loss of power while PINs are written.** The digests are what they were, so a card without them
is provisioned by the next start. -/
theorem unprovisioned_of_writePins (hmissing : Unprovisioned (bp.vault w)) (supply : Supply)
    (user admin : Bytes) : Unprovisioned (bp.vault (memoryAtLoss bp w supply (.writePins user admin))) := by
  have hrefl : ∀ x : Memory × Supply, Memory.AgreeOutside (pinProvisionLogicalOff .user)
      openpgpVaultLogicalSpanEnd (bp.vault x.1) (bp.vault x.1) := fun x ↦ .refl _
  have hslot : ∀ p pin, Fallible.Moves (fun x y : Memory × Supply ↦ Memory.AgreeOutside
      (pinProvisionLogicalOff .user) openpgpVaultLogicalSpanEnd (bp.vault y.1) (bp.vault x.1))
      (bp.vaultStorage.torn.write (pinProvisionLogicalOff p) (provisionRecord p pin).toBytes) := by
    intro p pin x
    refine torn_outside (slot_within p).1 ?_ x
    rw [Block.length_toBytes]
    exact (slot_within p).2
  have hmoves : Fallible.Moves (fun x y : Memory × Supply ↦ Memory.AgreeOutside
      (pinProvisionLogicalOff .user) openpgpVaultLogicalSpanEnd (bp.vault y.1) (bp.vault x.1))
      (writeProvisioningPins (torn (bp.platform (.zero 32))) user admin) :=
    moves_writeProvisioningPins hrefl (fun h h' ↦ h'.trans h) hslot user admin
  have hout := hmoves (w, supply)
  exact (Unprovisioned.congr (hout.agreeOn (.inl (by decide)))).mpr hmissing

/-- Without a supply a computation leaves the world alone. -/
def Stuck (x y : Memory × Supply) : Prop := x.2 = .spent → y = x

theorem Stuck.refl (x : Memory × Supply) : Stuck x x := fun _ ↦ rfl

theorem Stuck.trans {x y z : Memory × Supply} (h : Stuck x y) (h' : Stuck y z) : Stuck x z := by
  intro hx
  obtain rfl := h hx
  exact h' hx

theorem stuck_write (storage : VaultStorage Memory) (off : ℕ) (bs : Bytes) :
    Fallible.Moves Stuck (storage.torn.write off bs) := by
  rintro ⟨w, supply⟩ hx
  obtain rfl : supply = .spent := hx
  rfl

theorem stuck_seed (pf : CardPlatform Memory T) : Fallible.Moves Stuck (seedDefaultsIfFresh (torn pf)) :=
  moves_seedDefaultsIfFresh Stuck.refl Stuck.trans fun tag value ↦
    DoStore.moves_write Stuck.refl Stuck.trans (fun off bs _ _ ↦ stuck_write _ off bs) tag value

/-- A backend whose world is stuck. -/
def StuckBackend (b b' : OpenPgpVaultBackend (Memory × Supply) T) : Prop := Stuck b.world b'.world

theorem StuckBackend.trans {a b c : OpenPgpVaultBackend (Memory × Supply) T} (h : StuckBackend a b)
    (h' : StuckBackend b c) : StuckBackend a c := Stuck.trans h h'

theorem stuck_onWorld {m : Fallible (Memory × Supply) HalError PUnit} (h : Fallible.Moves Stuck m) :
    Fallible.Moves StuckBackend (onWorld m : Fallible (OpenPgpVaultBackend (Memory × Supply) T) _ _) :=
  fun b ↦ h b.world

/-- Loading the keys does not write. -/
theorem stuck_loadPrivateKeys (pf : CardPlatform (Memory × Supply) T) :
    Fallible.Moves StuckBackend (loadPrivateKeys pf) := by
  have hrefl : ∀ b : OpenPgpVaultBackend (Memory × Supply) T, StuckBackend b b := fun _ _ ↦ rfl
  have hkey : ∀ slot, Fallible.Moves StuckBackend (loadKey pf slot) := by
    intro slot
    refine (Fallible.Moves.reading hrefl _).bind StuckBackend.trans fun cell ↦ ?_
    refine (Fallible.Moves.gets hrefl _).bind StuckBackend.trans fun attrs ↦ ?_
    exact fun b ↦ hrefl b
  have hempty : Fallible.Moves StuckBackend (.modify fun b ↦ { b with keys := fun _ ↦ .empty } :
      Fallible (OpenPgpVaultBackend (Memory × Supply) T) HalError PUnit) := fun b ↦ hrefl b
  exact hempty.bind StuckBackend.trans fun _ ↦ (hkey .sig).bind StuckBackend.trans fun _ ↦
    (hkey .dec).bind StuckBackend.trans fun _ ↦ hkey .aut

/-- A digest is stored while the supply lasts. -/
theorem torn_digest_run (bp : Baochip T) (key : Block 32) (p : CardPin) (d : Block 32)
    {b : OpenPgpVaultBackend (Memory × Supply) T}
    {mem : Memory} {n : ℕ} (hb : b.world = (mem, ⟨n + 1, fun _ ↦ false⟩)) : ∃ b',
      onWorld ((torn (bp.platform key)).pinStorage.write ((torn (bp.platform key)).pinOff p) d.toBytes) b
        = (.ok ⟨⟩, b') ∧ b'.world = (mem.patch (bp.vaultPhysBase + pinLogicalOff p) d.toBytes,
          ⟨n, fun _ ↦ false⟩) := by
  have hoff : (torn (bp.platform key)).pinOff p = pinLogicalOff p := by
    rw [torn_pinOff, platform_pinOff]
  have hwrite : (torn (bp.platform key)).pinStorage.write (pinLogicalOff p) d.toBytes
      (mem, ⟨n + 1, fun _ ↦ false⟩) = (.ok ⟨⟩, (mem.patch (bp.vaultPhysBase + pinLogicalOff p) d.toBytes,
        ⟨n, fun _ ↦ false⟩)) := by
    have hpos : 0 < (⟨n + 1, fun _ ↦ false⟩ : Supply).writes := Nat.succ_pos n
    have htorn := (bp.platform key).pinStorage.torn_write_of_pos (pinLogicalOff p) d.toBytes mem hpos
    rw [pinStorage_write] at htorn
    exact htorn
  refine ⟨{ b with world := (mem.patch (bp.vaultPhysBase + pinLogicalOff p) d.toBytes,
    ⟨n, fun _ ↦ false⟩) }, ?_, rfl⟩
  rw [hoff, onWorld, Fallible.zoom_apply, hb, hwrite]

/-- With a supply of two writes, provisioning stores the two digests and nothing more. -/
theorem newCard_torn (bp : Baochip T) (key : Block 32) (user admin : Bytes) (m m' : PinPolicyMachine)
    (w : Memory) (t : T) :
    (newCard (torn (bp.platform key)) user admin m m' (w, ⟨2, fun _ ↦ false⟩) t).2.world
      = (digested bp user admin w, .spent) := by
  have hdigest : ∀ pin, pinBytesToVerifierDigest (torn (bp.platform key)) pin = bp.crypto.sha256 pin :=
    fun _ ↦ rfl
  have hblank : (OpenPgpVaultBackend.blank m m' (w, (⟨2, fun _ ↦ false⟩ : Supply)) t).world
      = (w, ⟨1 + 1, fun _ ↦ false⟩) := rfl
  obtain ⟨b₁, hrun₁, hb₁⟩ := torn_digest_run bp key .user
    (pinBytesToVerifierDigest (torn (bp.platform key)) user) hblank
  obtain ⟨b₂, hrun₂, hb₂⟩ := torn_digest_run bp key .admin
    (pinBytesToVerifierDigest (torn (bp.platform key)) admin) hb₁
  have hrest : Fallible.Moves StuckBackend (do
      onWorld (seedDefaultsIfFresh (torn (bp.platform key)))
      loadPrivateKeys (torn (bp.platform key)) :
        Fallible (OpenPgpVaultBackend (Memory × Supply) T) HalError PUnit) :=
    (stuck_onWorld (stuck_seed _)).bind StuckBackend.trans fun _ ↦ stuck_loadPrivateKeys _
  have hspent := hrest { b₂ with
    userVerifier := pinBytesToVerifierDigest (torn (bp.platform key)) user
    adminVerifier := pinBytesToVerifierDigest (torn (bp.platform key)) admin } (congrArg Prod.snd hb₂)
  rw [hdigest, hdigest] at hb₂
  rw [newCard_of_writes hrun₁ hrun₂, digested_eq]
  exact hspent.trans hb₂

/-- **Loss of power behind the digests.** Right after both digests were stored the memory holds
them, and is otherwise what it was. -/
theorem memoryAtLoss_digested (hmissing : Unprovisioned (bp.vault w))
    (hvalid : provisionSlotsHaveValidPins (bp.platform key) w = true)
    (huser : user.length ≤ ccidPinProvisionPayloadMaxBytes)
    (hadmin : admin.length ≤ ccidPinProvisionPayloadMaxBytes) :
    memoryAtLoss bp w ⟨2, fun _ ↦ false⟩ (.start key false user admin t) = digested bp user admin w := by
  have hguard : ccidPinHashesUnprovisioned (bp.platform key) w = true :=
    unprovisioned_iff.mpr hmissing
  have htorn : ccidPinHashesUnprovisioned (torn (bp.platform key)) (w, ⟨2, fun _ ↦ false⟩) = true :=
    hguard
  have hslots : provisionSlotsHaveValidPins (torn (bp.platform key)) (w, ⟨2, fun _ ↦ false⟩) = true :=
    hvalid
  have hworld := newCard_torn bp key user admin (.new default) (.new default) w t
  rw [memoryAtLoss, openOrProvisionBackend]
  dsimp only
  rw [if_neg Bool.false_ne_true, if_pos htorn,
    if_neg (by rw [hslots]; exact Bool.false_ne_true.symm), if_neg (by omega)]
  rcases hnew : newCard (torn (bp.platform key)) user admin (.new default) (.new default)
    (w, ⟨2, fun _ ↦ false⟩) t with ⟨e | _, b⟩ <;> rw [hnew] at hworld
  · exact congrArg Prod.fst hworld
  · have hwipe : ∀ p, Fallible.Moves Stuck (zeroWindow (torn (bp.platform key)).pinStorage
        (pinProvisionLogicalOff p) ccidPinProvisionSlotBytes 0) := by
      intro p x
      rw [zeroWindow_slot]
      exact stuck_write _ _ _ x
    have hclear : Stuck b.world (clearCcidPinProvisionSlots (torn (bp.platform key)) b.world).2 :=
      (hwipe .user).bind Stuck.trans (fun _ ↦ hwipe .admin) b.world
    have hworld : b.world = (digested bp user admin w, .spent) := hworld
    exact congrArg Prod.fst ((hclear (congrArg Prod.snd hworld)).trans hworld)

/-- **The bad points.** With both digests stored and a PIN in a slot, the slots are not settled. -/
theorem not_settled_digested (huser : bp.crypto.sha256 user ≠ .zero 32)
    (hadmin : bp.crypto.sha256 admin ≠ .zero 32) (hpins : ¬ NoPinBytes (bp.vault w)) :
    ¬ Settled (bp.vault (digested bp user admin w)) := by
  have hlen : ∀ pin, (bp.crypto.sha256 pin).toBytes.length = 32 := fun pin ↦ Block.length_toBytes _
  rintro ((hmissing | hmissing) | hbytes)
  · refine huser (Block.ext ?_)
    have hwindow := Memory.window_patch (bp.vault w) pinUserLogicalOff (bp.crypto.sha256 user).toBytes
    rw [hlen] at hwindow
    rw [vault_digested, DigestMissing, pinLogicalOff,
      Memory.window_patch_of_disjoint (.inl (by decide)), hwindow] at hmissing
    exact hmissing
  · refine hadmin (Block.ext ?_)
    have hwindow := Memory.window_patch ((bp.vault w).patch pinUserLogicalOff
      (bp.crypto.sha256 user).toBytes) pinAdminLogicalOff (bp.crypto.sha256 admin).toBytes
    rw [hlen] at hwindow
    rw [vault_digested, DigestMissing, pinLogicalOff, hwindow] at hmissing
    exact hmissing
  · refine hpins ((NoPinBytes.congr ?_).mp hbytes)
    exact (digested_outside w).agreeOn (.inr (by decide))

/-! ## Runs -/

/-- **The slots after a loss of power.** Power is lost while PINs are written into the slots or
while the firmware starts, and the service waits for the next start that succeeds. After it the
slots hold no byte of a PIN exactly when, at the loss, one of the two digests was missing or the
slots held no byte of a PIN any more. -/
theorem slots_cleared_iff (op : Interrupted T) (rram : Memory) (supply : Supply)
    (hwaits : Relation.ReflTransGen (Waits bp) (memoryAtLoss bp rram supply op) w) {hookSet : Bool}
    {b : OpenPgpVaultBackend Memory T}
    (hstart : openOrProvisionBackend (bp.platform key) hookSet user admin w t = (.ok ⟨⟩, b)) :
    NoPinBytes (bp.vault b.world) ↔
      Unprovisioned (bp.vault (memoryAtLoss bp rram supply op)) ∨
        NoPinBytes (bp.vault (memoryAtLoss bp rram supply op)) := by
  rw [noPinBytes_start_iff hstart]
  clear hstart
  induction hwaits with
  | refl => rfl
  | tail _ hlast ih => exact hlast.settled_iff.trans ih

/-! ### A loss behind the digests -/

/-- The bench card when power is lost right after both digests were stored. -/
def benchLost : Memory := memoryAtLoss Baochip.bench benchProvisioned ⟨2, fun _ ↦ false⟩
  (.start (.zero 32) false (benchPin .user) (benchPin .admin) 0)

theorem benchLost_not_settled : ¬ Settled (Baochip.bench.vault benchLost) := by
  have hloss : benchLost
      = digested Baochip.bench (benchPin .user) (benchPin .admin) benchProvisioned :=
    memoryAtLoss_digested benchProvisioned_unprovisioned benchProvisioned_valid
      (benchPin_fits .user).2 (benchPin_fits .admin).2
  rw [hloss]
  exact not_settled_digested (by decide) (by decide) benchProvisioned_pins

/-- The next start opens the card. -/
theorem benchLost_start : ∃ b, openOrProvisionBackend (Baochip.bench.platform (.zero 32)) false
    (benchPin .user) (benchPin .admin) benchLost 0 = (.ok ⟨⟩, b) := by
  obtain ⟨w, hseed, -⟩ := seed_run Baochip.bench (.zero 32) benchLost
  exact ⟨_, openOrProvision_open (fun h ↦ benchLost_not_settled (.inl h)) hseed⟩

theorem slots_cleared_iff_bench : ∃ b, openOrProvisionBackend (Baochip.bench.platform (.zero 32)) false
    (benchPin .user) (benchPin .admin) benchLost 0 = (.ok ⟨⟩, b) ∧
      (NoPinBytes (Baochip.bench.vault b.world) ↔
        Unprovisioned (Baochip.bench.vault benchLost) ∨ NoPinBytes (Baochip.bench.vault benchLost)) := by
  obtain ⟨b, hstart⟩ := benchLost_start
  exact ⟨b, hstart, slots_cleared_iff _ _ _ .refl hstart⟩

/-- Not every start after a loss of power leaves the slots without PINs: the bench card keeps them.
-/
theorem slots_kept : ¬ ∀ (op : Interrupted ℕ) (rram : Memory) (supply : Supply) (w : Memory)
    (key : Block 32) (hookSet : Bool) (user admin : Bytes) (t : ℕ) (b : OpenPgpVaultBackend Memory ℕ),
    Relation.ReflTransGen (Waits Baochip.bench) (memoryAtLoss Baochip.bench rram supply op) w →
    openOrProvisionBackend (Baochip.bench.platform key) hookSet user admin w t = (.ok ⟨⟩, b) →
    NoPinBytes (Baochip.bench.vault b.world) := by
  intro h
  obtain ⟨b, hstart⟩ := benchLost_start
  have hcleared := h (.start (.zero 32) false (benchPin .user) (benchPin .admin) 0) benchProvisioned
    ⟨2, fun _ ↦ false⟩ benchLost _ _ _ _ _ _ .refl hstart
  exact benchLost_not_settled ((noPinBytes_start_iff hstart).mp hcleared)

end Provisioning

end Galdralag
