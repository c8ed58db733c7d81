import Galdralag.OpenPgp.KeyRecord
import Galdralag.OpenPgp.Termination
import Galdralag.Provisioning.Boot

/-!
# Keys die with a breach

The service waits for a vault that opens and then serves commands over it until power is lost. A PIN
attempt that breaches wipes the vault and terminates the card, but the keys in memory survive the
wipe, and the next start opens whatever the vault holds then.

The run is recorded (`RecordedFirmware`). What the record has to be like is `Guarded Justified`:
behind a breach no key is used but one that was generated behind it. The invariant follows the keys
through all the places where they are kept: in memory while the card serves, and in the cells under
the one master key that the salt stands for while it does not.
-/

set_option linter.all false

namespace Galdralag.Provisioning

open OpenPgp OpenPgp.Baochip

variable {T : Type} (bp : Baochip T)

/-! ## The service -/

/-- The service: waiting for a vault that opens, or in session over one. -/
inductive Firmware (T : Type) where
  | waiting (world : Memory) (hookSet : Bool)
  | serving (masterKey : Block 32) (session : Session (OpenPgpVaultBackend Memory T))

/-- What happens to the service. -/
inductive FirmwareStep (T : Type) where
  /-- One pass of the loop that opens the vault, with two PIN lines and two generators. -/
  | openVault (userLine adminLine : Bytes) (masterTrng trng : T)
  | apdu (cmd : CommandApdu)
  /-- The session is reset. -/
  | reset
  /-- Power is lost and comes back. -/
  | powerCycle

namespace Firmware

/-- What outlives a power cycle. -/
def world : Firmware T → Memory
  | .waiting w _ => w
  | .serving _ s => s.backend.world

/-- The PIN lines are bridged into the slots while a digest is missing. -/
def bridgePins (userLine adminLine : Bytes) : Fallible Memory HalError PUnit := do
  let pf := bp.platform (.zero 32)
  let unprovisioned ← .gets (ccidPinHashesUnprovisioned pf)
  if unprovisioned then writeProvisioningPins pf userLine adminLine else pure ⟨⟩

/-- One pass of the loop: the PIN lines are bridged, the master key is loaded, and the vault is
provisioned or opened. -/
def openVault (w : Memory) (hookSet : Bool) (userLine adminLine : Bytes) (masterTrng trng : T) :
    Firmware T :=
  match bridgePins bp userLine adminLine w with
  | (.error _, w) => .waiting w hookSet
  | (.ok _, w) =>
    match loadOrDeriveCcidMasterKey bp (w, masterTrng) with
    | (.error _, x) => .waiting x.1 hookSet
    | (.ok masterKey, x) =>
      match openOrProvisionBackend (bp.platform masterKey) hookSet userLine adminLine x.1 trng with
      -- the wipe hook stays set, so that every later pass is refused until power is lost
      | (.error _, b) => .waiting b.world true
      | (.ok _, b) => .serving masterKey (.new b)

/-- One step. A service that waits answers no command over the vault, and one that serves does not
open it again. -/
def step (f : Firmware T) : FirmwareStep T → Firmware T
  | .openVault userLine adminLine masterTrng trng =>
    match f with
    | .waiting w hookSet => openVault bp w hookSet userLine adminLine masterTrng trng
    | .serving masterKey s => .serving masterKey s
  | .apdu cmd =>
    match f with
    | .waiting w hookSet => .waiting w hookSet
    | .serving masterKey s =>
      .serving masterKey (handleApdu (vaultBackend (bp.platform masterKey)) cmd s).2
  | .reset =>
    match f with
    | .waiting w hookSet => .waiting w hookSet
    | .serving masterKey s => .serving masterKey s.reset
  | .powerCycle => .waiting f.world false

end Firmware

/-- The service with the record of its keys. -/
structure RecordedFirmware (T : Type) where
  firmware : Firmware T
  log : List KeyEvent

namespace RecordedFirmware

/-- One step. Commands are answered over the backend that keeps the record. -/
def step (x : RecordedFirmware T) (a : FirmwareStep T) : RecordedFirmware T :=
  match x.firmware, a with
  | .serving masterKey s, .apdu cmd =>
    let recorded : Session (Recorded Memory T) := ⟨s.card, ⟨s.backend, x.log⟩, s.events⟩
    let s' := (handle (recording (bp.platform masterKey)) cmd recorded).2
    ⟨.serving masterKey (s'.project Recorded.backend), s'.backend.log⟩
  | f, a => ⟨f.step bp a, x.log⟩

/-- A whole run. -/
def run (x : RecordedFirmware T) (steps : List (FirmwareStep T)) : RecordedFirmware T :=
  steps.foldl (step bp) x

/-- The service over a memory, at its start. -/
def started (w : Memory) : RecordedFirmware T := ⟨.waiting w false, []⟩

/-- A step that records a breach. -/
def Breaches (x : RecordedFirmware T) (a : FirmwareStep T) : Prop :=
  ∃ events, (x.step bp a).log = x.log ++ events ∧ .breached ∈ events

/-- **The record is a ghost.** The service does the same without it. -/
theorem step_firmware (x : RecordedFirmware T) (a : FirmwareStep T) :
    (x.step bp a).firmware = x.firmware.step bp a := by
  obtain ⟨f, log⟩ := x
  rcases f with ⟨w, hookSet⟩ | ⟨masterKey, s⟩
  · cases a <;> rfl
  · cases a with
    | apdu cmd =>
      have hproject := (projects_recording (bp.platform masterKey)).handle_project cmd
        ⟨s.card, ⟨s.backend, log⟩, s.events⟩
      change Firmware.serving masterKey _ = Firmware.serving masterKey _
      rw [hproject.2, handleApdu_snd]
      rfl
    | _ => rfl

theorem run_firmware (x : RecordedFirmware T) (steps : List (FirmwareStep T)) :
    (x.run bp steps).firmware = steps.foldl (Firmware.step bp) x.firmware := by
  induction steps generalizing x with
  | nil => rfl
  | cons a steps ih =>
    rw [List.foldl_cons, ← step_firmware]
    exact ih (x.step bp a)

theorem run_append (x : RecordedFirmware T) (steps steps' : List (FirmwareStep T)) :
    x.run bp (steps ++ steps') = (x.run bp steps).run bp steps' := List.foldl_append

end RecordedFirmware

/-! ## The master key of a memory -/

/-- The record with the salt. -/
def saltRecord (mem : Memory) : Bytes := mem.window masterRecordLogicalOff openpgpMasterRecordBytes

/-- The memory holds a salt, and the key is the master key that it stands for. -/
structure Derives (bp : Baochip T) (masterKey : Block 32) (w : Memory) : Prop where
  magic : (saltRecord (bp.vault w)).take 4 = openpgpMasterMagic
  key_eq : masterKey = bp.deriveMaster ((saltRecord (bp.vault w)).drop 4 ++ bp.deviceBinding)

/-- A start over the memory may come to the key: to any, if there is no salt yet. -/
def MayDerive (bp : Baochip T) (masterKey : Block 32) (w : Memory) : Prop :=
  (saltRecord (bp.vault w)).take 4 = openpgpMasterMagic → Derives bp masterKey w

variable {bp} {masterKey : Block 32} {w w' : Memory} {t : T} {log : List KeyEvent}

/-- Loading the master key never fails, and ends with a salt in the memory. -/
theorem loadOrDerive_run (bp : Baochip T) (w : Memory) (t : T) : ∃ masterKey x,
    loadOrDeriveCcidMasterKey bp (w, t) = (.ok masterKey, x) ∧ Derives bp masterKey x.1 ∧
      MayDerive bp masterKey w := by
  have hread : (Fallible.reading fun x : Memory × T ↦
      bp.vaultStorage.read x.1 masterRecordLogicalOff openpgpMasterRecordBytes) (w, t)
      = (.ok (saltRecord (bp.vault w)), (w, t)) := by
    have hfaithful := bp.vaultStorage_faithful (masterRecordLogicalOff + openpgpMasterRecordBytes)
    rw [Fallible.reading_apply, hfaithful.read_eq w _ _ (Nat.le_refl _)]
    rfl
  rw [loadOrDeriveCcidMasterKey, masterRecord]
  by_cases hmagic : (saltRecord (bp.vault w)).take 4 = openpgpMasterMagic
  · refine ⟨_, (w, t), ?_, ⟨hmagic, rfl⟩, fun _ ↦ ⟨hmagic, rfl⟩⟩
    rw [Fallible.bind_apply, Fallible.bind_of_ok hread, if_pos hmagic]
    rfl
  · set salt := (bp.trng.fillBytes 32 t).1 with hsalt
    set w' := w.patch (bp.vaultPhysBase + masterRecordLogicalOff)
      (openpgpMasterMagic ++ salt.toBytes) with hw'
    have hlen : (openpgpMasterMagic ++ salt.toBytes).length = openpgpMasterRecordBytes := by
      rw [List.length_append, salt.length_toBytes]
      rfl
    have hrecord : saltRecord (bp.vault w') = openpgpMasterMagic ++ salt.toBytes := by
      rw [saltRecord, hw', vault_patch, ← hlen, Memory.window_patch]
    refine ⟨bp.deriveMaster ((openpgpMasterMagic ++ salt.toBytes).drop 4 ++ bp.deviceBinding),
      (w', (bp.trng.fillBytes 32 t).2), ?_, ⟨?_, ?_⟩, fun h ↦ absurd h hmagic⟩
    · rw [Fallible.bind_apply, Fallible.bind_of_ok hread, if_neg hmagic]
      rfl
    · rw [hrecord]
      exact List.take_left' rfl
    · rw [hrecord]

/-! ## Secrets in a memory -/

/-- The cells and the salt are the same. -/
structure SameSecrets (bp : Baochip T) (w w' : Memory) : Prop where
  cells : Memory.AgreeOn (sealedOffset .openPgpSig) sealedKeyRegionEnd (bp.vault w') (bp.vault w)
  salt : saltRecord (bp.vault w') = saltRecord (bp.vault w)

/-- What changes between the cells and the salt, or behind the salt, changes no secret. -/
theorem sameSecrets_of_outside {lo hi : ℕ}
    (h : Memory.AgreeOutside lo hi (bp.vault w') (bp.vault w)) (hlo : sealedKeyRegionEnd ≤ lo)
    (hsalt : hi ≤ masterRecordLogicalOff ∨
      masterRecordLogicalOff + openpgpMasterRecordBytes ≤ lo) : SameSecrets bp w w' where
  cells := h.agreeOn (.inl hlo)
  salt := Memory.window_congr (h.agreeOn hsalt.symm) (Nat.le_refl _) (Nat.le_refl _)

theorem SameSecrets.trans {w'' : Memory} (h : SameSecrets bp w w') (h' : SameSecrets bp w' w'') :
    SameSecrets bp w w'' := ⟨h'.cells.trans h.cells, h'.salt.trans h.salt⟩

theorem SameSecrets.derives (h : SameSecrets bp w w') (hkey : Derives bp masterKey w) :
    Derives bp masterKey w' :=
  ⟨by rw [h.salt]; exact hkey.magic, by rw [h.salt]; exact hkey.key_eq⟩

/-- The keys that the cells of a memory hold are fresh. -/
def CellsFresh (bp : Baochip T) (log : List KeyEvent) (masterKey : Block 32) (w : Memory) : Prop :=
  ∀ slot k, sealedKey (bp.platform masterKey) (cellOf (bp.vault w) slot) slot = some k → Fresh log k

/-- They are fresh under every master key that a start may come to. -/
def SealedFresh (bp : Baochip T) (log : List KeyEvent) (w : Memory) : Prop :=
  ∀ masterKey, MayDerive bp masterKey w → CellsFresh bp log masterKey w

theorem CellsFresh.congr (h : CellsFresh bp log masterKey w) (hcells : Memory.AgreeOn
    (sealedOffset .openPgpSig) sealedKeyRegionEnd (bp.vault w') (bp.vault w)) :
    CellsFresh bp log masterKey w' := by
  intro slot k hk
  rw [cellOf_congr hcells slot] at hk
  exact h slot k hk

theorem SealedFresh.congr (h : SealedFresh bp log w) (hsame : SameSecrets bp w w') :
    SealedFresh bp log w' := by
  intro masterKey hmay
  refine (h masterKey fun hmagic ↦ ?_).congr hsame.cells
  have hderives := hmay (by rw [hsame.salt]; exact hmagic)
  exact ⟨hmagic, by rw [hderives.key_eq, hsame.salt]⟩

/-- A salt stands for one master key. -/
theorem Derives.sealedFresh (hkey : Derives bp masterKey w) (h : CellsFresh bp log masterKey w) :
    SealedFresh bp log w := by
  intro masterKey' hmay
  rw [(hmay hkey.magic).key_eq, ← hkey.key_eq]
  exact h

/-! ## A wiped vault -/

/-- The vault holds nothing but zeros. -/
def Wiped (bp : Baochip T) (w : Memory) : Prop := ∀ a < openpgpVaultLogicalSpanEnd, bp.vault w a = 0

/-- No sealed key, no PIN digest, no salt and no PIN is left. -/
structure Erased (mem : Memory) : Prop where
  cells : ∀ slot, cellOf mem slot = .zero 93
  digests : ∀ p, DigestMissing mem p
  salt : saltRecord mem = List.replicate openpgpMasterRecordBytes 0
  slots : ∀ p, slotOf mem p = List.replicate ccidPinProvisionSlotBytes 0

theorem wiped_pinZeroise (w : Memory) : Wiped bp (bp.pinZeroise w) :=
  fun _ ha ↦ bp.vault_pinZeroise w ha

theorem Wiped.window (h : Wiped bp w) {off len : ℕ}
    (hend : off + len ≤ openpgpVaultLogicalSpanEnd) : (bp.vault w).window off len = List.replicate len 0 := by
  rw [List.eq_replicate_iff]
  refine ⟨Memory.length_window, fun x hx ↦ ?_⟩
  obtain ⟨i, hi, rfl⟩ := List.mem_map.mp hx
  have hlt := List.mem_range.mp hi
  exact h _ (by omega)

/-- All the secrets lie within the span that is wiped. -/
theorem Wiped.erased (h : Wiped bp w) : Erased (bp.vault w) where
  cells slot := by
    have hend : sealedOffset (purposeOf slot) + sealedBlobBytes ≤ openpgpVaultLogicalSpanEnd :=
      Nat.le_trans (sealedOffset_le _).2 (by decide)
    rw [cellOf, h.window hend]
    exact Block.ofBytes_toBytes (.zero 93)
  digests p := h.window (by rcases p with _ | _ <;> decide)
  salt := h.window (by decide)
  slots p := h.window (slot_within p).2

theorem Wiped.sealedFresh (h : Wiped bp w) : SealedFresh bp log w := by
  intro masterKey _ slot k hk
  rw [h.erased.cells, sealedKey_zero] at hk
  cases hk

/-! ## The invariant -/

/-- Only fresh keys were used, and wherever the service keeps keys they are fresh; or the vault is
wiped and the card terminated. -/
def Firmware.Sound (bp : Baochip T) (log : List KeyEvent) : Firmware T → Prop
  | .waiting w _ => Guarded Justified log ∧ SealedFresh bp log w
  | .serving masterKey s => SoundRecord (bp.platform masterKey) bp.vault (Derives bp masterKey)
      (Wiped bp) ⟨s.backend, log⟩

theorem Firmware.Sound.guarded {f : Firmware T} (h : f.Sound bp log) : Guarded Justified log := by
  rcases f with ⟨w, hookSet⟩ | ⟨masterKey, s⟩
  · exact h.1
  · exact SoundRecord.guarded h

theorem Firmware.Sound.sealedFresh {f : Firmware T} (h : f.Sound bp log) :
    SealedFresh bp log f.world := by
  rcases f with ⟨w, hookSet⟩ | ⟨masterKey, s⟩
  · exact h.2
  · rcases SoundRecord.state h with ⟨-, hwiped⟩ | ⟨-, hkey, hfresh⟩
    · exact hwiped.sealedFresh
    · exact hkey.sealedFresh hfresh.cells

/-- No device writes into the record with the salt. -/
theorem derives_spares (bp : Baochip T) (masterKey : Block 32) (d : Device) :
    (bp.platform masterKey).Spares
      (fun w w' ↦ Derives bp masterKey w → Derives bp masterKey w') d := by
  have hbefore : deviceEnd d ≤ masterRecordLogicalOff := by cases d <;> decide
  have hspares : (bp.platform masterKey).Spares (fun w w' ↦ Memory.AgreeOn masterRecordLogicalOff
      (masterRecordLogicalOff + openpgpMasterRecordBytes) (bp.vault w') (bp.vault w)) d :=
    bp.platform_spares d (.inl hbefore)
  refine hspares.imp fun w w' hagree hkey ↦ ?_
  have hsalt : saltRecord (bp.vault w') = saltRecord (bp.vault w) :=
    Memory.window_congr hagree (Nat.le_refl _) (Nat.le_refl _)
  exact ⟨by rw [hsalt]; exact hkey.magic, by rw [hsalt]; exact hkey.key_eq⟩

/-! ### Opening the vault -/

/-- A key that loading has put into memory is one that the cell of the slot holds. -/
theorem sealedKey_of_storedKeys {slot : OpenPgpKeySlot} {kind : KeyKind} {k : Block 32}
    (h : (storedKeys (bp.platform masterKey) bp.vault w slot).get kind = some k) :
    sealedKey (bp.platform masterKey) (cellOf (bp.vault w) slot) slot = some k := by
  rw [storedKeys, unsealedKeys_eq] at h
  rcases hkey : sealedKey (bp.platform masterKey) (cellOf (bp.vault w) slot) slot with _ | key <;>
    rw [hkey] at h
  · cases kind <;> cases h
  · have hget := get_keysAs (bp.platform masterKey).crypto (kindFor slot (attributesIn
      (bp.platform masterKey) w slot)) key kind
    rw [Option.elim_some, hget] at h
    split_ifs at h
    exact h

/-- A session over a vault that was just opened is sound. -/
theorem soundRecord_opened {b : OpenPgpVaultBackend Memory T} (hg : Guarded Justified log)
    (hterm : b.termination = false) (hmachine : ∀ p, b.machine p = .new default)
    (hkeys : b.keys = storedKeys (bp.platform masterKey) bp.vault w')
    (hcells : CellsFresh bp log masterKey w') (hsame : SameSecrets bp w' b.world)
    (hkey : Derives bp masterKey w') : SoundRecord (bp.platform masterKey) bp.vault
      (Derives bp masterKey) (Wiped bp) ⟨b, log⟩ := by
  refine ⟨hg, .inr ⟨hterm, hsame.derives hkey, ⟨fun p hp ↦ ?_, fun slot kind k hk ↦ ?_, ?_⟩⟩⟩
  · rw [hmachine] at hp
    cases hp
  · rw [hkeys] at hk
    exact hcells slot k (sealedKey_of_storedKeys hk)
  · exact hcells.congr hsame.cells

/-- Bridging PINs writes into the slots alone. -/
theorem sameSecrets_bridgePins (bp : Baochip T) (userLine adminLine : Bytes) (w : Memory) :
    SameSecrets bp w (Firmware.bridgePins bp userLine adminLine w).2 := by
  have hslots : ∀ {v}, Memory.AgreeOutside (pinProvisionLogicalOff .user) openpgpVaultLogicalSpanEnd
      (bp.vault v) (bp.vault w) → SameSecrets bp w v := fun h ↦
    sameSecrets_of_outside h (by decide) (.inr (Nat.le_refl _))
  rw [Firmware.bridgePins, Fallible.gets_bind]
  by_cases hmissing : ccidPinHashesUnprovisioned (bp.platform (.zero 32)) w = true
  · rw [if_pos hmissing]
    exact hslots (writeProvisioningPins_outside userLine adminLine w)
  · rw [if_neg hmissing]
    exact hslots (.refl _)

/-- **Opening.** A pass of the loop keeps the service sound. -/
theorem sound_openVault (hg : Guarded Justified log) (hsealed : SealedFresh bp log w)
    (hookSet : Bool) (userLine adminLine : Bytes) (masterTrng trng : T) :
    (Firmware.openVault bp w hookSet userLine adminLine masterTrng trng).Sound bp log := by
  have hbridged := sameSecrets_bridgePins bp userLine adminLine w
  rw [Firmware.openVault]
  rcases hbridge : Firmware.bridgePins bp userLine adminLine w with ⟨_ | _, w₁⟩ <;>
    rw [hbridge] at hbridged
  · exact ⟨hg, hsealed.congr hbridged⟩
  obtain ⟨masterKey, x, hload, hkey, hmay⟩ := loadOrDerive_run bp w₁ masterTrng
  have hrecord := masterKey_outside bp w₁ masterTrng
  dsimp only
  rw [hload] at hrecord ⊢
  have hcells : CellsFresh bp log masterKey x.1 := by
    refine (hsealed.congr hbridged masterKey hmay).congr ?_
    exact hrecord.agreeOn (.inl (by decide))
  have hseeded : ∀ {v v'}, seedDefaultsIfFresh (bp.platform masterKey) v = (.ok ⟨⟩, v') →
      SameSecrets bp v v' := by
    intro v v' hseed
    obtain ⟨v'', hrun, hout⟩ := seed_run bp masterKey v
    obtain rfl := (Prod.mk.inj (hrun.symm.trans hseed)).2
    exact sameSecrets_of_outside hout (by decide) (.inl (by decide))
  dsimp only
  rcases openOrProvision_cases bp masterKey hookSet userLine adminLine x.1 trng with
    ⟨e, b, hopen, hworld⟩ | ⟨w₂, -, hseed, hopen⟩ | ⟨w₂, -, hseed, hopen⟩ <;> rw [hopen]
  · -- refused: the salt stands for the key that was derived
    refine ⟨hg, ?_⟩
    rw [hworld]
    exact hkey.sealedFresh hcells
  · -- provisioned: the slots are wiped after the keys are loaded
    have hdigests : SameSecrets bp x.1 (digested bp userLine adminLine x.1) :=
      sameSecrets_of_outside (digested_outside x.1) (by decide) (.inl (by decide))
    have hsame := hdigests.trans (hseeded hseed)
    have hslots : SameSecrets bp w₂ (wiped bp w₂) :=
      sameSecrets_of_outside (wiped_outside w₂) (by decide) (.inr (Nat.le_refl _))
    refine soundRecord_opened hg rfl (fun p ↦ ?_) rfl (hcells.congr hsame.cells) hslots
      (hsame.derives hkey)
    cases p <;> rfl
  · -- opened
    have hsame := hseeded hseed
    refine soundRecord_opened hg rfl (fun p ↦ ?_) rfl (hcells.congr hsame.cells)
      ⟨fun _ _ _ ↦ rfl, rfl⟩ (hsame.derives hkey)
    cases p <;> rfl

/-! ### Steps -/

/-- The vault is wiped, and the card is terminated if it is in session. -/
def Firmware.Dormant (bp : Baochip T) : Firmware T → Prop
  | .waiting w _ => Wiped bp w
  | .serving _ s => s.backend.termination = true ∧ Wiped bp s.backend.world

theorem Firmware.Dormant.wiped {f : Firmware T} (h : f.Dormant bp) : Wiped bp f.world := by
  rcases f with ⟨w, hookSet⟩ | ⟨masterKey, s⟩
  · exact h
  · exact h.2

/-- A pass of the loop that opens the vault. -/
def FirmwareStep.OpensVault : FirmwareStep T → Prop
  | .openVault _ _ _ _ => True
  | _ => False

/-- A dormant card stays so until the vault is opened again. -/
theorem Firmware.Dormant.step {f : Firmware T} (h : f.Dormant bp) {a : FirmwareStep T}
    (ha : ¬ a.OpensVault) : (f.step bp a).Dormant bp := by
  cases a with
  | openVault userLine adminLine masterTrng trng => exact absurd trivial ha
  | powerCycle => exact h.wiped
  | reset =>
    rcases f with ⟨w, hookSet⟩ | ⟨masterKey, s⟩
    · exact h
    · exact h
  | apdu cmd =>
    rcases f with ⟨w, hookSet⟩ | ⟨masterKey, s⟩
    · exact h
    · have hterm : (vaultBackend (bp.platform masterKey)).isTerminationState s.backend = true := h.1
      change Firmware.Dormant bp (.serving masterKey _)
      rw [handleApdu_snd, handle_terminated hterm]
      exact h

theorem Firmware.Dormant.run {f : Firmware T} (h : f.Dormant bp) {steps : List (FirmwareStep T)}
    (hsteps : ∀ a ∈ steps, ¬ a.OpensVault) : (steps.foldl (Firmware.step bp) f).Dormant bp := by
  induction steps generalizing f with
  | nil => exact h
  | cons a steps ih =>
    rw [List.foldl_cons]
    exact ih (h.step (hsteps a List.mem_cons_self)) fun b hb ↦ hsteps b (List.mem_cons_of_mem a hb)

section Running

variable (haead : bp.crypto.Aead) {x : RecordedFirmware T}
include haead

/-- A command of a session. -/
theorem keepsRecord_command (masterKey : Block 32) (cmd : CommandApdu)
    (s : Session (Recorded Memory T)) : KeepsRecord (bp.platform masterKey) bp.vault
      (Derives bp masterKey) (Wiped bp) s.backend
      (handle (recording (bp.platform masterKey)) cmd s).2.backend := by
  have hwiped : ∀ q w, Wiped bp ((bp.platform masterKey).zeroise q w) := by
    intro q w
    rcases q with _ | _ <;> exact wiped_pinZeroise w
  exact keepsRecord_handle bp.platform_keeps haead (derives_spares bp masterKey) hwiped cmd s

/-- **Step.** A step keeps the service sound, and a breach leaves it dormant. -/
theorem sound_step (h : x.firmware.Sound bp x.log) (a : FirmwareStep T) :
    (x.step bp a).firmware.Sound bp (x.step bp a).log ∧
      (x.Breaches bp a → (x.step bp a).firmware.Dormant bp) := by
  have hquiet : (x.step bp a).log = x.log → ¬ x.Breaches bp a := by
    rintro hlog ⟨events, hevents, hmem⟩
    rw [hlog] at hevents
    rw [List.self_eq_append_right.mp hevents] at hmem
    exact List.not_mem_nil hmem
  obtain ⟨f, log⟩ := x
  rcases f with ⟨w, hookSet⟩ | ⟨masterKey, s⟩
  · cases a with
    | openVault userLine adminLine masterTrng trng =>
      exact ⟨sound_openVault h.1 h.2 hookSet userLine adminLine masterTrng trng,
        fun hb ↦ absurd hb (hquiet rfl)⟩
    | apdu cmd => exact ⟨h, fun hb ↦ absurd hb (hquiet rfl)⟩
    | reset => exact ⟨h, fun hb ↦ absurd hb (hquiet rfl)⟩
    | powerCycle => exact ⟨h, fun hb ↦ absurd hb (hquiet rfl)⟩
  · cases a with
    | openVault userLine adminLine masterTrng trng => exact ⟨h, fun hb ↦ absurd hb (hquiet rfl)⟩
    | reset =>
      refine ⟨?_, fun hb ↦ absurd hb (hquiet rfl)⟩
      exact h
    | powerCycle => exact ⟨⟨h.guarded, h.sealedFresh⟩, fun hb ↦ absurd hb (hquiet rfl)⟩
    | apdu cmd =>
      obtain ⟨hsound, -, events, hlog, hbreached⟩ :=
        keepsRecord_command haead masterKey cmd ⟨s.card, ⟨s.backend, log⟩, s.events⟩ h
      refine ⟨hsound, ?_⟩
      rintro ⟨events', hlog', hmem⟩
      obtain rfl : events = events' := List.append_cancel_left (hlog.symm.trans hlog')
      have hterm := hbreached hmem
      rcases hsound.state with ⟨-, hwiped⟩ | ⟨hlive, -⟩
      · exact ⟨hterm, hwiped⟩
      · rw [hterm] at hlive
        cases hlive

theorem sound_run (h : x.firmware.Sound bp x.log) (steps : List (FirmwareStep T)) :
    (x.run bp steps).firmware.Sound bp (x.run bp steps).log := by
  induction steps generalizing x with
  | nil => exact h
  | cons a steps ih => exact ih (sound_step haead h a).1

omit haead in
/-- Nothing is recorded yet. -/
theorem sound_started (bp : Baochip T) (w : Memory) :
    (RecordedFirmware.started w : RecordedFirmware T).firmware.Sound bp
      (RecordedFirmware.started w : RecordedFirmware T).log :=
  ⟨guarded_nil, fun _ _ _ _ _ h ↦ absurd h List.not_mem_nil⟩

end Running

/-- **Keys die with a breach.** In every run of the service, over whatever memory: behind a breach
no private key is used but one that was generated behind it, in that session or a later one, and no
other key is sealed in the vault. And from a breach until the vault is opened again, the vault is all
zeros: no sealed key, no PIN digest, no salt of the master key and no PIN of a slot is left. -/
theorem keys_die_with_breach (bp : Baochip T) (haead : bp.crypto.Aead) (rram : Memory)
    (steps : List (FirmwareStep T)) :
    Guarded Justified ((RecordedFirmware.started rram).run bp steps).log ∧
    SealedFresh bp ((RecordedFirmware.started rram).run bp steps).log
      ((RecordedFirmware.started rram).run bp steps).firmware.world ∧
    ∀ pre a post, steps = pre ++ a :: post →
      ((RecordedFirmware.started rram).run bp pre).Breaches bp a → (∀ b ∈ post, ¬ b.OpensVault) →
      Wiped bp ((RecordedFirmware.started rram).run bp steps).firmware.world ∧
        Erased (bp.vault ((RecordedFirmware.started rram).run bp steps).firmware.world) := by
  have hsound := sound_run haead (sound_started bp rram)
  refine ⟨(hsound steps).guarded, (hsound steps).sealedFresh, ?_⟩
  rintro pre a post rfl hbreach hpost
  have hdormant := (sound_step haead (hsound pre) a).2 hbreach
  have hrun : (RecordedFirmware.started rram).run bp (pre ++ a :: post)
      = (((RecordedFirmware.started rram).run bp pre).step bp a).run bp post :=
    RecordedFirmware.run_append bp _ pre (a :: post)
  rw [hrun, RecordedFirmware.run_firmware]
  have hwiped := (hdormant.run hpost).wiped
  exact ⟨hwiped, hwiped.erased⟩

/-! ## A breach on the bench -/

/-- A VERIFY whose attempt is answered as blocked records a breach. -/
theorem breaches_of_verify {b b' : OpenPgpVaultBackend Memory T} {cmd : CommandApdu}
    (hterm : b.termination = false) (hins : cmd.ins = 0x20) (hp2 : cmd.p2 = 0x81)
    (hverify : verifyPin (bp.platform masterKey) .user cmd.data.toBytes b
      = (.error (.status .authMethodBlocked), b')) :
    RecordedFirmware.Breaches bp ⟨.serving masterKey (.new b), log⟩ (.apdu cmd) := by
  have hperform : (recording (bp.platform masterKey)).perform (.verifyPw1Sign cmd.data.toBytes)
      ⟨b, log⟩ = (.error (.status .authMethodBlocked), ⟨b', log ++ [.breached]⟩) := by
    have hcall : performCall (bp.platform masterKey) (.verifyPw1Sign cmd.data.toBytes) b
        = (.error (.status .authMethodBlocked), b') := hverify
    change ((performCall (bp.platform masterKey) (.verifyPw1Sign cmd.data.toBytes) b).1,
      Recorded.mk _ _) = _
    rw [hcall, BackendCall.keyEvents, if_pos ⟨rfl, rfl⟩]
  have hhandle : handle (recording (bp.platform masterKey)) cmd ⟨.new, ⟨b, log⟩, []⟩ = _ :=
    handle_verifySign_error hterm hins hp2 hperform
  refine ⟨[.breached], ?_, List.mem_singleton.mpr rfl⟩
  change (handle (recording (bp.platform masterKey)) cmd ⟨.new, ⟨b, log⟩, []⟩).2.backend.log = _
  rw [hhandle]
  rfl

/-- Both digests are stored on the bench. -/
theorem benchTried_provisioned : ¬ Unprovisioned (Baochip.bench.vault benchTried) := by
  have hagree : Memory.AgreeOn pinUserLogicalOff userCtrLogicalOff benchTried benchStorage :=
    Memory.agreeOn_patch (.inl (Nat.le_refl _))
  have hpresent : ∀ p, ¬ DigestMissing (Baochip.bench.vault benchTried) p := by
    intro p hmissing
    have hstored := storedVerifier_bench hagree p
    rw [storedVerifier, benchPlatform, platform_pinOff, hmissing] at hstored
    revert hstored
    rcases p with _ | _ <;> decide
  rintro (h | h)
  · exact hpresent _ h
  · exact hpresent _ h

/-- The pass of the loop that the bench run starts with. -/
def benchOpening : FirmwareStep ℕ := .openVault (benchPin .user) (benchPin .admin) 0 0

/-- A first pass of the loop that succeeds. -/
theorem run_openVault {userLine adminLine : Bytes} {masterTrng trng : T} {w₁ : Memory}
    {x : Memory × T} {b : OpenPgpVaultBackend Memory T}
    (hbridge : Firmware.bridgePins bp userLine adminLine w = (.ok ⟨⟩, w₁))
    (hload : loadOrDeriveCcidMasterKey bp (w₁, masterTrng) = (.ok masterKey, x))
    (hopen : openOrProvisionBackend (bp.platform masterKey) false userLine adminLine x.1 trng
      = (.ok ⟨⟩, b)) : (RecordedFirmware.started w).run bp
        [.openVault userLine adminLine masterTrng trng] = ⟨.serving masterKey (.new b), []⟩ := by
  change RecordedFirmware.mk
    (Firmware.openVault bp w false userLine adminLine masterTrng trng) [] = _
  rw [Firmware.openVault, hbridge]
  dsimp only
  rw [hload]
  dsimp only
  rw [hopen]

/-- Opening the vault leaves the counter of the bench alone. -/
theorem bench_serves : ∃ masterKey w,
    (RecordedFirmware.started benchTried).run Baochip.bench [benchOpening]
      = ⟨.serving masterKey (.new (.loaded (Baochip.bench.platform masterKey) Baochip.bench.vault
          Baochip.bench.vault (.new default) (.new default) w 0)), []⟩ ∧
      rramCell (0 + userCtrLogicalOff) w = 3 := by
  have hbridge : Firmware.bridgePins Baochip.bench (benchPin .user) (benchPin .admin) benchTried
      = (.ok ⟨⟩, benchTried) := by
    rw [Firmware.bridgePins, Fallible.gets_bind,
      if_neg fun h ↦ benchTried_provisioned (unprovisioned_iff.mp h)]
    rfl
  obtain ⟨masterKey, x, hload, -, -⟩ := loadOrDerive_run Baochip.bench benchTried 0
  have hrecord := masterKey_outside Baochip.bench benchTried 0
  rw [hload] at hrecord
  obtain ⟨w, hseed, hout⟩ := seed_run Baochip.bench masterKey x.1
  have hpresent : ¬ Unprovisioned (Baochip.bench.vault x.1) := fun h ↦
    benchTried_provisioned ((Unprovisioned.congr (hrecord.agreeOn (.inl (by decide)))).mp h)
  refine ⟨masterKey, w, ?_, rramCell_tried ?_⟩
  · exact run_openVault hbridge hload (openOrProvision_open hpresent hseed)
  · have hseeded : Memory.AgreeOn userCtrLogicalOff (userCtrLogicalOff + 4) (Baochip.bench.vault w)
        (Baochip.bench.vault x.1) := hout.agreeOn (.inr (by decide))
    have hloaded : Memory.AgreeOn userCtrLogicalOff (userCtrLogicalOff + 4)
        (Baochip.bench.vault x.1) (Baochip.bench.vault benchTried) := hrecord.agreeOn (.inl (by decide))
    have hagree := hseeded.trans hloaded
    rwa [vault_bench, vault_bench] at hagree

/-- The wrong PIN that follows breaches. -/
theorem bench_breaches :
    ((RecordedFirmware.started benchTried).run Baochip.bench [benchOpening]).Breaches Baochip.bench
      (.apdu wrongVerify) := by
  obtain ⟨masterKey, w, hrun, hcell⟩ := bench_serves
  rw [hrun]
  obtain ⟨b', hverify, -⟩ : ∃ b', verifyPin (Baochip.bench.platform masterKey) _ _ _ = _ ∧ _ :=
    verifyPin_tried 0 hcell wrongVerify.data.toBytes
  exact breaches_of_verify rfl rfl rfl hverify

/-- So the bench ends with an erased vault. -/
theorem keys_die_with_breach_bench : Erased (Baochip.bench.vault
    ((RecordedFirmware.started benchTried).run Baochip.bench
      [benchOpening, .apdu wrongVerify, .powerCycle]).firmware.world) := by
  obtain ⟨-, -, herased⟩ := keys_die_with_breach Baochip.bench benchCrypto_aead benchTried
    [benchOpening, .apdu wrongVerify, .powerCycle]
  have hpost : ∀ a ∈ [FirmwareStep.powerCycle (T := ℕ)], ¬ a.OpensVault := by
    intro a ha
    rw [List.mem_singleton.mp ha]
    exact id
  exact (herased [benchOpening] (.apdu wrongVerify) [.powerCycle] rfl bench_breaches hpost).2

end Galdralag.Provisioning
