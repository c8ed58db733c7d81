import Galdralag.OpenPgp.Baochip

/-!
# Provisioning slots and the start of the card

Two slots behind the master key's salt hand the first PINs to the card: a magic word, a length and
up to 32 bytes. At the start of the firmware a card without PIN digests is provisioned with the PINs
it is given, provided that both slots hold a record, and then the slots are wiped. A card with both
digests is opened; the slots are not looked at.

A digest counts as missing when its 32 bytes are zero, or cannot be read.
-/

set_option linter.all false

namespace Galdralag.Provisioning

open OpenPgp OpenPgp.Baochip

variable {W T : Type} (pf : CardPlatform W T)

/-! ## Slots -/

/-- A record as it is stored: magic word, length, PIN, and zeros up to the end of the slot. -/
def provisionRecord (p : CardPin) (pin : Bytes) : Block ccidPinProvisionSlotBytes :=
  .ofBytes _ (pinProvisionMagic p ++ UInt8.ofNat pin.length :: pin)

/-- The length byte of a record. -/
def recordLength (record : Bytes) : ℕ := (record.getD 4 0).toNat

/-- A PIN that fits into a slot. -/
def FitsSlot (pin : Bytes) : Prop := pin ≠ [] ∧ pin.length ≤ ccidPinProvisionPayloadMaxBytes

instance (pin : Bytes) : Decidable (FitsSlot pin) := inferInstanceAs (Decidable (_ ∧ _))

/-- Write chosen PINs into the slots. -/
def writeProvisioningPins (userPin adminPin : Bytes) : Fallible W HalError PUnit := do
  .require (FitsSlot userPin) .denied
  .require (FitsSlot adminPin) .denied
  pf.pinStorage.write (pinProvisionLogicalOff .user) (provisionRecord .user userPin).toBytes
  pf.pinStorage.write (pinProvisionLogicalOff .admin) (provisionRecord .admin adminPin).toBytes

/-- Whether a record has the magic word of its slot and a length in range. -/
def validRecord (p : CardPin) (record : Bytes) : Bool :=
  record.take 4 = pinProvisionMagic p ∧ recordLength record ≠ 0 ∧
    recordLength record ≤ ccidPinProvisionPayloadMaxBytes

def pinProvisionRecordValid (w : W) (p : CardPin) : Bool :=
  match pf.pinStorage.read w (pinProvisionLogicalOff p) ccidPinProvisionSlotBytes with
  | .error _ => false
  | .ok record => validRecord p record

/-- Whether both slots hold a record. -/
def provisionSlotsHaveValidPins (w : W) : Bool :=
  pinProvisionRecordValid pf w .user && pinProvisionRecordValid pf w .admin

/-- The PIN of a slot; without a record the card has to be provisioned first. -/
def loadOrProvisionCcidPin (p : CardPin) (w : W) : Except HalError Bytes := do
  let record ← pf.pinStorage.read w (pinProvisionLogicalOff p) ccidPinProvisionSlotBytes
  let _ ← ensure (record.take 4 = pinProvisionMagic p) .needsProvisioning
  let n := recordLength record
  let _ ← ensure (n ≠ 0 ∧ n ≤ ccidPinProvisionPayloadMaxBytes) .denied
  .ok ((record.drop 5).take n)

/-- Write zeros over a window, at most 256 bytes at a time. -/
def zeroWindow (storage : VaultStorage W) (off span pos : ℕ) : Fallible W HalError PUnit := do
  if pos < span then
    let n := min (span - pos) 256
    storage.write (off + pos) (List.replicate n 0)
    zeroWindow storage off span (pos + n)
  else pure ⟨⟩
termination_by span - pos

/-- Wipe both slots. -/
def clearCcidPinProvisionSlots : Fallible W HalError PUnit := do
  zeroWindow pf.pinStorage (pinProvisionLogicalOff .user) ccidPinProvisionSlotBytes 0
  zeroWindow pf.pinStorage (pinProvisionLogicalOff .admin) ccidPinProvisionSlotBytes 0

/-! ## Starting -/

/-- Whether a digest is missing. -/
def pinDigestUnprovisioned (w : W) (p : CardPin) : Bool :=
  match pf.pinStorage.read w (pf.pinOff p) 32 with
  | .error _ => true
  | .ok digest => digest.all (· == 0)

/-- Whether the card has to be provisioned. -/
def ccidPinHashesUnprovisioned (w : W) : Bool :=
  pinDigestUnprovisioned pf w .user || pinDigestUnprovisioned pf w .admin

/-- Provision or open a card. The wipe hook of a process is set once; a second call in the same
process is refused. -/
def openOrProvisionBackend (hookSet : Bool) (userPin adminPin : Bytes) (w : W) (t : T) :
    Except HalError PUnit × OpenPgpVaultBackend W T :=
  let machine := PinPolicyMachine.new default
  let refused (e : HalError) := (Except.error e, OpenPgpVaultBackend.blank machine machine w t)
  if hookSet then refused .bus
  else if ccidPinHashesUnprovisioned pf w then
    if provisionSlotsHaveValidPins pf w = false then refused .needsProvisioning
    else if ccidPinProvisionPayloadMaxBytes < userPin.length ∨
        ccidPinProvisionPayloadMaxBytes < adminPin.length then refused .denied
    else
      match newCard pf userPin adminPin machine machine w t with
      | (.error e, b) => (.error e, b)
      | (.ok _, b) => onWorld (clearCcidPinProvisionSlots pf) b
  else openCard pf machine machine w t

/-! ## The master key -/

section Baochip

variable (bp : Baochip T)

/-- The record with the salt of the master key; the first start draws the salt. -/
def masterRecord : Fallible (Memory × T) HalError Bytes := do
  let record ← .reading fun x ↦
    bp.vaultStorage.read x.1 masterRecordLogicalOff openpgpMasterRecordBytes
  if record.take 4 = openpgpMasterMagic then pure record
  else
    let salt ← .zoom Prod.snd (fun t x ↦ (x.1, t)) (.act (bp.trng.fillBytes 32))
    let record := openpgpMasterMagic ++ salt.toBytes
    .zoom Prod.fst (fun w x ↦ (w, x.2)) (bp.vaultStorage.write masterRecordLogicalOff record)
    pure record

/-- The master key of the card, derived from its salt and from what binds it to the device. -/
def loadOrDeriveCcidMasterKey : Fallible (Memory × T) HalError (Block 32) := do
  let record ← masterRecord bp
  pure (bp.deriveMaster (record.drop 4 ++ bp.deviceBinding))

/-! ## What the slots and the digests hold -/

variable {bp} {key : Block 32} {w : Memory}

/-- Where the digest of a PIN lies. -/
def pinLogicalOff : CardPin → ℕ
  | .user => pinUserLogicalOff
  | .admin => pinAdminLogicalOff

theorem platform_pinOff (p : CardPin) : (bp.platform key).pinOff p = pinLogicalOff p := by
  cases p
  · rw [CardPlatform.pinOff, pinLogicalOff, Baochip.platform]
  · rw [CardPlatform.pinOff, pinLogicalOff, Baochip.platform]

/-- A digest that was never stored. -/
def DigestMissing (mem : Memory) (p : CardPin) : Prop :=
  mem.window (pinLogicalOff p) 32 = List.replicate 32 0

/-- One of the two digests was never stored. -/
def Unprovisioned (mem : Memory) : Prop := DigestMissing mem .user ∨ DigestMissing mem .admin

/-- The slot of a PIN. -/
def slotOf (mem : Memory) (p : CardPin) : Bytes :=
  mem.window (pinProvisionLogicalOff p) ccidPinProvisionSlotBytes

theorem pinStorage_read (off len : ℕ) :
    (bp.platform key).pinStorage.read w off len = .ok ((bp.vault w).window off len) :=
  (bp.vaultStorage_faithful (off + len)).read_eq w off len (Nat.le_refl _)

theorem pinStorage_write (off : ℕ) (bs : Bytes) :
    (bp.platform key).pinStorage.write off bs w = (.ok ⟨⟩, w.patch (bp.vaultPhysBase + off) bs) := rfl

theorem pinDigestUnprovisioned_iff (p : CardPin) :
    pinDigestUnprovisioned (bp.platform key) w p = true ↔ DigestMissing (bp.vault w) p := by
  rw [pinDigestUnprovisioned, pinStorage_read, platform_pinOff]
  dsimp only
  rw [List.all_eq_true, DigestMissing, List.eq_replicate_iff, and_iff_right Memory.length_window]
  simp only [beq_iff_eq]

theorem unprovisioned_iff :
    ccidPinHashesUnprovisioned (bp.platform key) w = true ↔ Unprovisioned (bp.vault w) := by
  rw [ccidPinHashesUnprovisioned, Bool.or_eq_true, pinDigestUnprovisioned_iff,
    pinDigestUnprovisioned_iff, Unprovisioned]

theorem DigestMissing.congr {mem mem' : Memory} {p : CardPin}
    (h : Memory.AgreeOn pinUserLogicalOff userCtrLogicalOff mem mem') :
    DigestMissing mem p ↔ DigestMissing mem' p := by
  have hwindow : mem.window (pinLogicalOff p) 32 = mem'.window (pinLogicalOff p) 32 := by
    refine Memory.window_congr h ?_ ?_ <;> rcases p with _ | _ <;> decide
  rw [DigestMissing, DigestMissing, hwindow]

theorem Unprovisioned.congr {mem mem' : Memory}
    (h : Memory.AgreeOn pinUserLogicalOff userCtrLogicalOff mem mem') :
    Unprovisioned mem ↔ Unprovisioned mem' := or_congr (DigestMissing.congr h) (DigestMissing.congr h)

/-- The region of the two slots. -/
theorem slot_within (p : CardPin) : pinProvisionLogicalOff .user ≤ pinProvisionLogicalOff p ∧
    pinProvisionLogicalOff p + ccidPinProvisionSlotBytes ≤ openpgpVaultLogicalSpanEnd := by
  rcases p with _ | _ <;> decide

/-! ## Writing and reading PINs -/

theorem FitsSlot.length_lt {pin : Bytes} (h : FitsSlot pin) : pin.length ≠ 0 ∧ pin.length ≤ 32 :=
  ⟨fun hzero ↦ h.1 (List.length_eq_zero_iff.mp hzero), h.2⟩

theorem length_pinProvisionMagic (p : CardPin) : (pinProvisionMagic p).length = 4 := by
  rcases p with _ | _ <;> rfl

/-- The three parts of a record. -/
theorem record_parts {magic : Bytes} (h : magic.length = 4) (n : UInt8) (rest : Bytes) :
    (magic ++ n :: rest).take 4 = magic ∧ recordLength (magic ++ n :: rest) = n.toNat ∧
      (magic ++ n :: rest).drop 5 = rest := by
  refine ⟨List.take_left' h, ?_, ?_⟩
  · rw [recordLength, List.getD_append_right _ _ _ _ (Nat.le_of_eq h), h, Nat.sub_self,
      List.getD_cons_zero]
  · rw [List.drop_append, h, List.drop_of_length_le (by omega), List.nil_append]
    rfl

/-- The bytes of a record. -/
theorem toBytes_provisionRecord (p : CardPin) {pin : Bytes} (h : FitsSlot pin) :
    (provisionRecord p pin).toBytes = pinProvisionMagic p ++
      UInt8.ofNat pin.length :: (pin ++ List.replicate (32 - pin.length) 0) := by
  have hlen : (pinProvisionMagic p ++ UInt8.ofNat pin.length :: pin).length = 5 + pin.length := by
    rw [List.length_append, List.length_cons, length_pinProvisionMagic]
    omega
  have hslot : ccidPinProvisionSlotBytes = 37 := rfl
  have hle := h.length_lt.2
  change List.take ccidPinProvisionSlotBytes _ ++ List.replicate _ 0 = _
  rw [hlen, List.take_of_length_le (by omega), List.append_assoc, List.cons_append, hslot,
    Nat.sub_add_eq]

/-- **A record is read back.** -/
theorem load_of_record {p : CardPin} {pin : Bytes} (h : FitsSlot pin)
    (hslot : slotOf (bp.vault w) p = (provisionRecord p pin).toBytes) :
    loadOrProvisionCcidPin (bp.platform key) p w = .ok pin ∧
      pinProvisionRecordValid (bp.platform key) w p = true := by
  obtain ⟨hpos, hle⟩ := h.length_lt
  have hbyte : (UInt8.ofNat pin.length).toNat = pin.length := by
    rw [UInt8.toNat_ofNat', Nat.mod_eq_of_lt (by omega)]
  obtain ⟨hmagic, hlength, hrest⟩ := record_parts (length_pinProvisionMagic p)
    (UInt8.ofNat pin.length) (pin ++ List.replicate (32 - pin.length) 0)
  rw [← toBytes_provisionRecord p h, ← hslot] at hmagic hlength hrest
  rw [hbyte] at hlength
  have hread : (bp.platform key).pinStorage.read w (pinProvisionLogicalOff p)
      ccidPinProvisionSlotBytes = .ok (slotOf (bp.vault w) p) := pinStorage_read _ _
  constructor
  · rw [loadOrProvisionCcidPin, Fallible.except_bind_of_ok hread, hmagic]
    dsimp only
    rw [hlength, hrest, List.take_left' rfl, ensure, if_pos rfl, ensure, if_pos ⟨hpos, hle⟩]
    rfl
  · rw [pinProvisionRecordValid, hread]
    dsimp only
    rw [validRecord, hmagic, hlength]
    exact decide_eq_true ⟨rfl, hpos, hle⟩

/-- Chosen PINs are written over the slots. -/
theorem writeProvisioningPins_run {user admin : Bytes} (huser : FitsSlot user)
    (hadmin : FitsSlot admin) : writeProvisioningPins (bp.platform key) user admin w = (.ok ⟨⟩,
      (w.patch (bp.vaultPhysBase + pinProvisionLogicalOff .user)
        (provisionRecord .user user).toBytes).patch
          (bp.vaultPhysBase + pinProvisionLogicalOff .admin) (provisionRecord .admin admin).toBytes) := by
  rw [writeProvisioningPins, Fallible.bind_of_ok (Fallible.require_of huser _ _),
    Fallible.bind_of_ok (Fallible.require_of hadmin _ _)]
  rfl

/-- Writing PINs moves a relation that writing a slot moves, whether it succeeds or fails. -/
theorem moves_writeProvisioningPins {pf : CardPlatform W T} {R : W → W → Prop} (hrefl : ∀ w, R w w)
    (htrans : ∀ {u v w}, R u v → R v w → R u w)
    (hslot : ∀ p pin, Fallible.Moves R
      (pf.pinStorage.write (pinProvisionLogicalOff p) (provisionRecord p pin).toBytes))
    (user admin : Bytes) : Fallible.Moves R (writeProvisioningPins pf user admin) :=
  .require_bind hrefl fun _ ↦ .require_bind hrefl fun _ ↦
    (hslot .user user).bind htrans fun _ ↦ hslot .admin admin

/-- Outside the slots nothing changes. -/
theorem writeProvisioningPins_outside (user admin : Bytes) (w : Memory) :
    Memory.AgreeOutside (pinProvisionLogicalOff .user) openpgpVaultLogicalSpanEnd
      (bp.vault (writeProvisioningPins (bp.platform key) user admin w).2) (bp.vault w) := by
  have hmoves : Fallible.Moves (fun x y ↦ Memory.AgreeOutside (pinProvisionLogicalOff .user)
      openpgpVaultLogicalSpanEnd (bp.vault y) (bp.vault x))
      (writeProvisioningPins (bp.platform key) user admin) := by
    refine moves_writeProvisioningPins (fun _ ↦ .refl _) (fun h h' ↦ h'.trans h) ?_ user admin
    intro p pin x
    change Memory.AgreeOutside _ _ (bp.vault (x.patch (bp.vaultPhysBase + pinProvisionLogicalOff p)
      (provisionRecord p pin).toBytes)) (bp.vault x)
    rw [vault_patch]
    refine Memory.agreeOutside_patch (slot_within p).1 ?_
    rw [Block.length_toBytes]
    exact (slot_within p).2
  exact hmoves w

/-- The slots hold the records, and nothing else changes. -/
theorem vault_writeProvisioningPins {user admin : Bytes} (huser : FitsSlot user)
    (hadmin : FitsSlot admin) {w' : Memory}
    (h : writeProvisioningPins (bp.platform key) user admin w = (.ok ⟨⟩, w')) :
    slotOf (bp.vault w') .user = (provisionRecord .user user).toBytes ∧
      slotOf (bp.vault w') .admin = (provisionRecord .admin admin).toBytes ∧
      Memory.AgreeOutside (pinProvisionLogicalOff .user) openpgpVaultLogicalSpanEnd
        (bp.vault w') (bp.vault w) := by
  have hout : Memory.AgreeOutside _ _
      (bp.vault (writeProvisioningPins (bp.platform key) user admin w).2) _ :=
    writeProvisioningPins_outside user admin w
  rw [h] at hout
  rw [writeProvisioningPins_run huser hadmin] at h
  obtain rfl := (Prod.mk.inj h).2
  have hlen : ∀ p pin, (provisionRecord p pin).toBytes.length = ccidPinProvisionSlotBytes :=
    fun p pin ↦ (provisionRecord p pin).length_toBytes
  rw [vault_patch, vault_patch] at hout ⊢
  refine ⟨?_, ?_, hout⟩
  · have hpatch := Memory.window_patch (bp.vault w) (pinProvisionLogicalOff .user)
      (provisionRecord .user user).toBytes
    rw [hlen] at hpatch
    rw [slotOf, Memory.window_patch_of_disjoint (.inl (by decide)), hpatch]
  · have hpatch := Memory.window_patch ((bp.vault w).patch (pinProvisionLogicalOff .user)
      (provisionRecord .user user).toBytes) (pinProvisionLogicalOff .admin)
      (provisionRecord .admin admin).toBytes
    rw [hlen] at hpatch
    rw [slotOf, hpatch]

/-! ## Wiping the slots -/

/-- A slot is short enough to be wiped by one write. -/
theorem zeroWindow_slot (storage : VaultStorage W) (off : ℕ) (w : W) :
    zeroWindow storage off ccidPinProvisionSlotBytes 0 w
      = storage.write off (List.replicate ccidPinProvisionSlotBytes 0) w := by
  have hend : zeroWindow storage off ccidPinProvisionSlotBytes
      (0 + min (ccidPinProvisionSlotBytes - 0) 256) = pure ⟨⟩ := by
    rw [zeroWindow, if_neg (by decide)]
  have hmin : min (ccidPinProvisionSlotBytes - 0) 256 = ccidPinProvisionSlotBytes := by decide
  rw [zeroWindow, if_pos (by decide), hend, hmin, Nat.add_zero, Fallible.bind_apply]
  rcases storage.write off (List.replicate ccidPinProvisionSlotBytes 0) w with ⟨_ | _, _⟩ <;> rfl

/-- The PIN field of a slot. -/
def pinField (mem : Memory) (p : CardPin) : Bytes :=
  mem.window (pinProvisionLogicalOff p + 5) ccidPinProvisionPayloadMaxBytes

/-- Neither slot holds a byte of a PIN. -/
def NoPinBytes (mem : Memory) : Prop :=
  ∀ p, pinField mem p = List.replicate ccidPinProvisionPayloadMaxBytes 0

theorem NoPinBytes.congr {mem mem' : Memory}
    (h : Memory.AgreeOn (pinProvisionLogicalOff .user) openpgpVaultLogicalSpanEnd mem mem') :
    NoPinBytes mem ↔ NoPinBytes mem' := by
  refine forall_congr' fun p ↦ ?_
  have hfield : pinField mem p = pinField mem' p := by
    refine Memory.window_congr h ?_ ?_ <;> rcases p with _ | _ <;> decide
  rw [hfield]

/-- The PIN field of a slot with a record. -/
theorem pinField_of_record {mem : Memory} {p : CardPin} {pin : Bytes} (h : FitsSlot pin)
    (hslot : slotOf mem p = (provisionRecord p pin).toBytes) :
    pinField mem p = pin ++ List.replicate (32 - pin.length) 0 := by
  obtain ⟨-, -, hrest⟩ := record_parts (length_pinProvisionMagic p) (UInt8.ofNat pin.length)
    (pin ++ List.replicate (32 - pin.length) 0)
  have hsplit : slotOf mem p = mem.window (pinProvisionLogicalOff p) 5 ++ pinField mem p :=
    Memory.window_add 5 32
  rw [← toBytes_provisionRecord p h, ← hslot, hsplit, List.drop_left' Memory.length_window] at hrest
  exact hrest

/-- The world with both slots wiped. -/
def wiped (bp : Baochip T) (w : Memory) : Memory :=
  (w.patch (bp.vaultPhysBase + pinProvisionLogicalOff .user)
    (List.replicate ccidPinProvisionSlotBytes 0)).patch
      (bp.vaultPhysBase + pinProvisionLogicalOff .admin) (List.replicate ccidPinProvisionSlotBytes 0)

theorem clear_run (w : Memory) :
    clearCcidPinProvisionSlots (bp.platform key) w = (.ok ⟨⟩, wiped bp w) := by
  have hwipe : ∀ p w, zeroWindow (bp.platform key).pinStorage (pinProvisionLogicalOff p)
      ccidPinProvisionSlotBytes 0 w = (.ok ⟨⟩, w.patch (bp.vaultPhysBase + pinProvisionLogicalOff p)
        (List.replicate ccidPinProvisionSlotBytes 0)) :=
    fun p w ↦ (zeroWindow_slot _ _ w).trans (pinStorage_write _ _)
  rw [clearCcidPinProvisionSlots, Fallible.bind_of_ok (hwipe .user w), hwipe, wiped]

/-- **Wiping.** Neither slot holds a byte of a PIN any more. -/
theorem noPinBytes_wiped (w : Memory) : NoPinBytes (bp.vault (wiped bp w)) := by
  rw [wiped, vault_patch, vault_patch]
  intro p
  rcases p with _ | _
  · rw [pinField, Memory.window_patch_of_disjoint (.inl (by decide))]
    exact Memory.window_patch_zeros _ (by decide) (by decide)
  · exact Memory.window_patch_zeros _ (by decide) (by decide)

/-- Nothing else changes. -/
theorem wiped_outside (w : Memory) : Memory.AgreeOutside (pinProvisionLogicalOff .user)
    openpgpVaultLogicalSpanEnd (bp.vault (wiped bp w)) (bp.vault w) := by
  have hlen : (List.replicate ccidPinProvisionSlotBytes (0 : UInt8)).length
      = ccidPinProvisionSlotBytes := List.length_replicate
  rw [wiped, vault_patch, vault_patch]
  refine .trans (Memory.agreeOutside_patch ?_ ?_) (Memory.agreeOutside_patch ?_ ?_)
  · exact (slot_within .admin).1
  · rw [hlen]
    exact (slot_within .admin).2
  · exact (slot_within .user).1
  · rw [hlen]
    exact (slot_within .user).2

/-! ## Loading the master key -/

/-- Loading the master key writes its own record alone. -/
theorem masterKey_outside (bp : Baochip T) (w : Memory) (t : T) :
    Memory.AgreeOutside masterRecordLogicalOff (masterRecordLogicalOff + openpgpMasterRecordBytes)
      (bp.vault (loadOrDeriveCcidMasterKey bp (w, t)).2.1) (bp.vault w) := by
  have hmoves : Fallible.Moves (fun x y : Memory × T ↦ Memory.AgreeOutside masterRecordLogicalOff
      (masterRecordLogicalOff + openpgpMasterRecordBytes) (bp.vault y.1) (bp.vault x.1))
      (loadOrDeriveCcidMasterKey bp) := by
    have hrefl : ∀ x : Memory × T, Memory.AgreeOutside masterRecordLogicalOff
        (masterRecordLogicalOff + openpgpMasterRecordBytes) (bp.vault x.1) (bp.vault x.1) :=
      fun x ↦ .refl _
    refine Fallible.Moves.bind ?_ (fun h h' ↦ h'.trans h) fun record ↦ .pure hrefl _
    refine Fallible.Moves.bind (.reading hrefl _) (fun h h' ↦ h'.trans h) fun record ↦ ?_
    by_cases hmagic : record.take 4 = openpgpMasterMagic
    · rw [if_pos hmagic]
      exact .pure hrefl _
    · rw [if_neg hmagic]
      refine Fallible.Moves.bind (fun x ↦ hrefl x) (fun h h' ↦ h'.trans h) fun salt ↦ ?_
      refine Fallible.Moves.bind (fun x ↦ ?_) (fun h h' ↦ h'.trans h) fun _ ↦ .pure hrefl _
      change Memory.AgreeOutside _ _ (bp.vault (x.1.patch (bp.vaultPhysBase + masterRecordLogicalOff)
        (openpgpMasterMagic ++ salt.toBytes))) (bp.vault x.1)
      rw [vault_patch]
      refine Memory.agreeOutside_patch (Nat.le_refl _) (Nat.le_of_eq ?_)
      rw [List.length_append, salt.length_toBytes]
      rfl
  exact hmoves (w, t)

/-! ## Starting the card -/

variable {user admin : Bytes} {t : T}

/-- The world with both digests stored. -/
def digested (bp : Baochip T) (user admin : Bytes) (w : Memory) : Memory :=
  (w.patch (bp.vaultPhysBase + pinUserLogicalOff) (bp.crypto.sha256 user).toBytes).patch
    (bp.vaultPhysBase + pinAdminLogicalOff) (bp.crypto.sha256 admin).toBytes

theorem digested_eq (w : Memory) : digested bp user admin w =
    (w.patch (bp.vaultPhysBase + pinLogicalOff .user) (bp.crypto.sha256 user).toBytes).patch
      (bp.vaultPhysBase + pinLogicalOff .admin) (bp.crypto.sha256 admin).toBytes := by
  rw [digested, pinLogicalOff, pinLogicalOff]

theorem vault_digested (w : Memory) : bp.vault (digested bp user admin w) =
    ((bp.vault w).patch pinUserLogicalOff (bp.crypto.sha256 user).toBytes).patch pinAdminLogicalOff
      (bp.crypto.sha256 admin).toBytes := by
  rw [digested, vault_patch, vault_patch]

/-- Storing the digests changes nothing outside their cells. -/
theorem digested_outside (w : Memory) : Memory.AgreeOutside pinUserLogicalOff userCtrLogicalOff
    (bp.vault (digested bp user admin w)) (bp.vault w) := by
  rw [vault_digested]
  refine .trans (Memory.agreeOutside_patch (by decide) ?_)
    (Memory.agreeOutside_patch (Nat.le_refl _) ?_)
  · rw [Block.length_toBytes]
    decide
  · rw [Block.length_toBytes]
    decide

/-- The backend of a card that was provisioned over a world. -/
def provisioned (bp : Baochip T) (key : Block 32) (user admin : Bytes) (w : Memory) (t : T) :
    OpenPgpVaultBackend Memory T where
  world := wiped bp w
  trng := t
  userVerifier := bp.crypto.sha256 user
  adminVerifier := bp.crypto.sha256 admin
  userMachine := .new default
  adminMachine := .new default
  keys := storedKeys (bp.platform key) bp.vault w
  sigCounter := 0
  termination := false
  audit := 0

/-- Seeding the objects never fails. -/
theorem seed_run (bp : Baochip T) (key : Block 32) (w : Memory) : ∃ w',
    seedDefaultsIfFresh (bp.platform key) w = (.ok ⟨⟩, w') ∧ Memory.AgreeOutside
      openpgpDoStoreLogical pinUserLogicalOff (bp.vault w') (bp.vault w) := by
  have hkeeps : (bp.platform key).Keeps bp.vault bp.vault bp.vault openpgpVaultLogicalSpanEnd :=
    bp.platform_keeps
  obtain ⟨w', hseed, -, -, hout⟩ :=
    seedDefaultsIfFresh_run hkeeps.objectsFaithful (Nat.le_refl _) w
  exact ⟨w', hseed, hout⟩

/-- **Provisioning.** A card with a missing digest and two records is provisioned: it starts with
the digests of the PINs, over the world that seeding leaves, with wiped slots. -/
theorem openOrProvision_new (hmissing : Unprovisioned (bp.vault w))
    (hvalid : provisionSlotsHaveValidPins (bp.platform key) w = true)
    (huser : user.length ≤ ccidPinProvisionPayloadMaxBytes)
    (hadmin : admin.length ≤ ccidPinProvisionPayloadMaxBytes) {w' : Memory}
    (hseed : seedDefaultsIfFresh (bp.platform key) (digested bp user admin w) = (.ok ⟨⟩, w')) :
    openOrProvisionBackend (bp.platform key) false user admin w t
      = (.ok ⟨⟩, provisioned bp key user admin w' t) := by
  have hkeeps : (bp.platform key).Keeps bp.vault bp.vault bp.vault openpgpVaultLogicalSpanEnd :=
    bp.platform_keeps
  have hnew := newCard_run hkeeps user admin (.new default) (.new default) t hseed
  rw [openOrProvisionBackend]
  dsimp only
  rw [if_neg Bool.false_ne_true, if_pos (unprovisioned_iff.mpr hmissing),
    if_neg (by rw [hvalid]; exact Bool.false_ne_true.symm), if_neg (by omega), hnew]
  dsimp only
  rw [onWorld, Fallible.zoom_apply, clear_run]
  rfl

/-- **Opening.** A card with both digests is opened. -/
theorem openOrProvision_open (hpresent : ¬ Unprovisioned (bp.vault w)) {w' : Memory}
    (hseed : seedDefaultsIfFresh (bp.platform key) w = (.ok ⟨⟩, w')) :
    openOrProvisionBackend (bp.platform key) false user admin w t
      = (.ok ⟨⟩, .loaded (bp.platform key) bp.vault bp.vault (.new default) (.new default) w' t) := by
  rw [openOrProvisionBackend]
  dsimp only
  rw [if_neg Bool.false_ne_true, if_neg (fun h ↦ hpresent (unprovisioned_iff.mp h))]
  exact openCard_run bp.platform_keeps _ _ t hseed

/-- **The ways a start ends.** It is refused and changes nothing, or it provisions the card, or it
opens the card. -/
theorem openOrProvision_cases (bp : Baochip T) (key : Block 32) (hookSet : Bool)
    (user admin : Bytes) (w : Memory) (t : T) :
    (∃ e b, openOrProvisionBackend (bp.platform key) hookSet user admin w t = (.error e, b) ∧
      b.world = w) ∨
    (∃ w', Unprovisioned (bp.vault w) ∧
      seedDefaultsIfFresh (bp.platform key) (digested bp user admin w) = (.ok ⟨⟩, w') ∧
      openOrProvisionBackend (bp.platform key) hookSet user admin w t
        = (.ok ⟨⟩, provisioned bp key user admin w' t)) ∨
    (∃ w', ¬ Unprovisioned (bp.vault w) ∧
      seedDefaultsIfFresh (bp.platform key) w = (.ok ⟨⟩, w') ∧
      openOrProvisionBackend (bp.platform key) hookSet user admin w t
        = (.ok ⟨⟩, .loaded (bp.platform key) bp.vault bp.vault (.new default) (.new default) w' t)) := by
  have hrefused : ∀ e, openOrProvisionBackend (bp.platform key) hookSet user admin w t
      = (.error e, .blank (.new default) (.new default) w t) →
      ∃ e b, openOrProvisionBackend (bp.platform key) hookSet user admin w t = (.error e, b) ∧
        b.world = w := fun e h ↦ ⟨e, _, h, rfl⟩
  rcases hookSet with _ | _
  swap
  · exact .inl (hrefused _ rfl)
  by_cases hmissing : Unprovisioned (bp.vault w)
  · have hguard : ccidPinHashesUnprovisioned (bp.platform key) w = true :=
      unprovisioned_iff.mpr hmissing
    rcases hvalid : provisionSlotsHaveValidPins (bp.platform key) w with _ | _
    · refine .inl (hrefused .needsProvisioning ?_)
      rw [openOrProvisionBackend]
      dsimp only
      rw [if_neg Bool.false_ne_true, if_pos hguard, if_pos hvalid]
    by_cases hlong : ccidPinProvisionPayloadMaxBytes < user.length ∨
        ccidPinProvisionPayloadMaxBytes < admin.length
    · refine .inl (hrefused .denied ?_)
      rw [openOrProvisionBackend]
      dsimp only
      rw [if_neg Bool.false_ne_true, if_pos hguard,
        if_neg (by rw [hvalid]; exact Bool.false_ne_true.symm), if_pos hlong]
    · rw [not_or, Nat.not_lt, Nat.not_lt] at hlong
      obtain ⟨w', hw', -⟩ := seed_run bp key (digested bp user admin w)
      exact .inr (.inl ⟨w', hmissing, hw', openOrProvision_new hmissing hvalid hlong.1 hlong.2 hw'⟩)
  · obtain ⟨w', hw', -⟩ := seed_run bp key w
    exact .inr (.inr ⟨w', hmissing, hw', openOrProvision_open hmissing hw'⟩)

end Baochip

/-! ## A bench -/

/-- A new card with the bench PINs in its slots. -/
def benchProvisioned : Memory :=
  (writeProvisioningPins benchPlatform (benchPin .user) (benchPin .admin) fun _ ↦ 0).2

theorem benchPin_fits (p : CardPin) : FitsSlot (benchPin p) := by
  rcases p with _ | _ <;> decide

theorem benchProvisioned_run : writeProvisioningPins benchPlatform (benchPin .user) (benchPin .admin)
    (fun _ ↦ 0) = (.ok ⟨⟩, benchProvisioned) := by
  rw [benchProvisioned, benchPlatform,
    writeProvisioningPins_run (benchPin_fits .user) (benchPin_fits .admin)]

/-- A memory of zeros has no digests. -/
theorem unprovisioned_zero : Unprovisioned fun _ ↦ 0 := by
  refine .inl ?_
  rw [DigestMissing, Memory.window, List.map_const', List.length_range]

theorem slotOf_bench (p : CardPin) :
    slotOf (Baochip.bench.vault benchProvisioned) p = (provisionRecord p (benchPin p)).toBytes := by
  obtain ⟨huser, hadmin, -⟩ := vault_writeProvisioningPins (benchPin_fits .user)
    (benchPin_fits .admin) benchProvisioned_run
  rcases p with _ | _
  · exact huser
  · exact hadmin

theorem benchProvisioned_unprovisioned : Unprovisioned (Baochip.bench.vault benchProvisioned) := by
  obtain ⟨-, -, hout⟩ := vault_writeProvisioningPins (benchPin_fits .user) (benchPin_fits .admin)
    benchProvisioned_run
  exact (Unprovisioned.congr (hout.agreeOn (.inl (by decide)))).mpr unprovisioned_zero

theorem benchProvisioned_valid : provisionSlotsHaveValidPins benchPlatform benchProvisioned = true := by
  rw [provisionSlotsHaveValidPins, Bool.and_eq_true]
  exact ⟨(load_of_record (benchPin_fits .user) (slotOf_bench .user)).2,
    (load_of_record (benchPin_fits .admin) (slotOf_bench .admin)).2⟩

theorem benchProvisioned_pins : ¬ NoPinBytes (Baochip.bench.vault benchProvisioned) := by
  intro h
  have huser := h .user
  rw [pinField_of_record (benchPin_fits .user) (slotOf_bench .user)] at huser
  exact absurd huser (by decide)

end Galdralag.Provisioning
