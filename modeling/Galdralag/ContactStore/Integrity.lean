import Galdralag.ContactStore.Store
import Mathlib.Data.List.Basic

/-!
# Integrity over whole runs

The register mirrors a digest of the records and the timing log. Two facts about a store with an
open gate make the next boot succeed.

* `Sound`: the store is provisioned, and every occupied slot holds a record that loads.
* `Current`: the register holds the digest of what is stored.

Every operation keeps the first. `insert`, `update`, `delete` and `provisionFresh` end by
re-establishing the second, whatever happened before. `timingLogAppend` writes the log, which the
digest covers, and leaves the register alone: the second fact is lost until the next of the other
operations.
-/

set_option linter.all false

namespace Galdralag.Contacts

namespace ContactStore

open Fallible (bind_eq_ok require_eq_ok gets_apply zoom_eq_ok modify_eq_ok reading_eq_ok)

variable {S C : Type} {hal : StorePlatform S C} {memory : S → Memory}
  {s s' : ContactStore S C}

/-! ## Regions of the band -/

/-- The stored bytes of a slot. -/
def slotBytes (mem : Memory) (slot : UInt8) : Bytes :=
  mem.window (recordOffset slot) contactRecordBytes

/-- Two memories with the same records and the same provision marker. -/
def SameRecords (mem mem' : Memory) : Prop :=
  Memory.AgreeOn contactRecordArrayOffset stringHeapOffset mem mem' ∧
    Memory.AgreeOn contactStoreProvisionMarkerOffset contactStoreIntegrityOffset mem mem'

theorem SameRecords.refl (mem : Memory) : SameRecords mem mem := ⟨fun _ _ _ ↦ rfl, fun _ _ _ ↦ rfl⟩

theorem SameRecords.trans {mem mem' mem'' : Memory} (h : SameRecords mem mem')
    (h' : SameRecords mem' mem'') : SameRecords mem mem'' :=
  ⟨h.1.trans h'.1, h.2.trans h'.2⟩

/-- A write outside the records and the marker. -/
theorem sameRecords_patch {mem : Memory} {off : ℕ} {bs : Bytes} (hlo : stringHeapOffset ≤ off)
    (hhi : off + bs.length ≤ contactStoreProvisionMarkerOffset ∨
      contactStoreIntegrityOffset ≤ off) : SameRecords mem (mem.patch off bs) := by
  constructor <;> intro a h₁ h₂
  · exact (Memory.patch_apply_of_lt (Nat.lt_of_lt_of_le h₂ hlo)).symm
  · rcases hhi with hhi | hhi
    · exact (Memory.patch_apply_of_ge (Nat.le_trans hhi h₁)).symm
    · exact (Memory.patch_apply_of_lt (Nat.lt_of_lt_of_le h₂ hhi)).symm

theorem mem_slots {slot : UInt8} : slot ∈ slots ↔ slot.toNat < 54 := by
  rw [slots, List.mem_map]
  constructor
  · rintro ⟨i, hi, rfl⟩
    rw [List.mem_range, contactSlotCount_eq] at hi
    rw [UInt8.toNat_ofNat']
    omega
  · intro h
    exact ⟨slot.toNat, List.mem_range.mpr h, UInt8.ofNat_toNat⟩

theorem recordOffset_eq (slot : UInt8) : recordOffset slot = 76800 + slot.toNat * 256 := rfl

/-- Every slot a byte can name lies below the timing log. -/
theorem recordOffset_add_le (slot : UInt8) :
    recordOffset slot + contactRecordBytes ≤ timingLogOffset := by
  have h := slot.toNat_lt
  rw [recordOffset_eq, contactRecordBytes_eq, timingLogOffset_eq]
  omega

/-- A record written to any slot a byte can name lies within the band. -/
theorem recordOffset_write_le (slot : UInt8) (r : ContactRecord) :
    recordOffset slot + r.asBytes.length ≤ contactStoreEnd := by
  have hle := recordOffset_add_le slot
  rw [contactRecordBytes_eq, timingLogOffset_eq] at hle
  rw [r.length_asBytes, contactStoreEnd_eq]
  omega

theorem slotBytes_congr {mem mem' : Memory} (h : SameRecords mem mem') {slot : UInt8}
    (hs : slot ∈ slots) : slotBytes mem slot = slotBytes mem' slot := by
  rw [mem_slots] at hs
  refine Memory.window_congr h.1 ?_ ?_
  · exact Nat.le_add_right _ _
  · rw [recordOffset_eq, contactRecordBytes_eq, stringHeapOffset_eq]
    omega

/-- Writing a record into a slot replaces the bytes of that slot and of no other one. -/
theorem slotBytes_patch {mem : Memory} {slot slot' : UInt8} {r : ContactRecord} :
    slotBytes (mem.patch (recordOffset slot') r.asBytes) slot
      = if slot = slot' then r.asBytes else slotBytes mem slot := by
  split_ifs with h
  · subst h
    have hlen : contactRecordBytes = r.asBytes.length := r.length_asBytes.symm
    rw [slotBytes, hlen]
    exact Memory.window_patch _ _ _
  · have hne : slot.toNat ≠ slot'.toNat := fun he ↦ h (UInt8.toNat_inj.mp he)
    refine Memory.window_patch_of_disjoint ?_
    rw [recordOffset_eq, recordOffset_eq, r.length_asBytes, contactRecordBytes_eq]
    omega

/-! ## The invariant -/

/-- The bytes of a slot are a record that loads, if they are a record at all. -/
def GoodSlot (buf : Bytes) : Prop :=
  buf.take 4 = u32le contactRecordMagic →
    recordCrcOk buf = true ∧ (ContactRecord.fromBytesUnchecked buf).Loadable

/-- Provisioned, with records that load. -/
structure Sound (mem : Memory) : Prop where
  marker : u32OfLe (mem.window contactStoreProvisionMarkerOffset 4) ≠ 0
  slots : ∀ slot ∈ slots, GoodSlot (slotBytes mem slot)

/-- The register on storage holds the digest of what is stored. -/
def Current (hal : StorePlatform S C) (memory : S → Memory) (s : ContactStore S C) : Prop :=
  ∃ d, computeIntegrityDigest hal s = .ok d ∧
    (memory s.storage).window contactStoreIntegrityOffset 32 = d.toBytes

theorem Sound.of_sameRecords {mem mem' : Memory} (h : Sound mem) (hs : SameRecords mem mem') :
    Sound mem' where
  marker := by
    have hm : mem'.window contactStoreProvisionMarkerOffset 4
        = mem.window contactStoreProvisionMarkerOffset 4 :=
      (Memory.window_congr hs.2 (Nat.le_refl _) (Nat.le_refl _)).symm
    rw [hm]
    exact h.marker
  slots slot hslot := by
    rw [← slotBytes_congr hs hslot]
    exact h.slots slot hslot

theorem Sound.patch_record {mem : Memory} (h : Sound mem) (slot : UInt8) {r : ContactRecord}
    (hr : GoodSlot r.asBytes) : Sound (mem.patch (recordOffset slot) r.asBytes) where
  marker := by
    rw [Memory.window_patch_of_disjoint]
    · exact h.marker
    · have hle := recordOffset_add_le slot
      rw [contactRecordBytes_eq, timingLogOffset_eq] at hle
      rw [r.length_asBytes, contactStoreProvisionMarkerOffset_eq]
      omega
  slots slot' hslot := by
    rw [slotBytes_patch]
    split_ifs
    · exact hr
    · exact h.slots slot' hslot

/-- The empty record is not a record. -/
theorem goodSlot_default : GoodSlot ContactRecord.default.asBytes := by
  intro h
  rw [ContactRecord.take_magic] at h
  exact absurd (u32le_injective h) (by decide)

theorem goodSlot_recomputeCrc {r : ContactRecord} (hr : r.Loadable) :
    GoodSlot r.recomputeCrc.asBytes := by
  intro _
  rw [ContactRecord.fromBytesUnchecked_asBytes]
  exact ⟨r.recordCrcOk_recomputeCrc, hr⟩

/-! ## Frames

What an operation leaves alone, besides what it says it changes. -/

/-- The gate, the master key, the records and the marker are as before. -/
structure Frame (memory : S → Memory) (s s' : ContactStore S C) : Prop where
  gate : s'.integrityGate = s.integrityGate
  masterKey : s'.masterKey = s.masterKey
  records : SameRecords (memory s.storage) (memory s'.storage)

theorem Frame.refl (s : ContactStore S C) : Frame memory s s :=
  ⟨rfl, rfl, fun _ _ _ ↦ rfl, fun _ _ _ ↦ rfl⟩

theorem Frame.trans {s'' : ContactStore S C} (h : Frame memory s s') (h' : Frame memory s' s'') :
    Frame memory s s'' :=
  ⟨h'.gate.trans h.gate, h'.masterKey.trans h.masterKey, h.records.trans h'.records⟩

variable (hf : hal.storage.Faithful contactStoreEnd memory)
include hf

/-- A write within the band. -/
theorem storing_write_ok {off : ℕ} {bs : Bytes} {u : PUnit}
    (hend : off + bs.length ≤ contactStoreEnd)
    (h : storing (writeAt hal.storage off bs) s = (.ok u, s')) :
    ∃ x, s' = { s with storage := x } ∧ memory x = (memory s.storage).patch off bs := by
  rw [storing, zoom_eq_ok] at h
  obtain ⟨x, hx, rfl⟩ := h
  obtain ⟨y, hy, hmem⟩ := writeAt_run hf s.storage hend
  obtain rfl : y = x := (Prod.mk.inj (hy.symm.trans hx)).2
  exact ⟨y, rfl, hmem⟩

theorem allocKey_frame {keyBytes : Bytes} {k : UInt32 × UInt16}
    (h : allocKey hal keyBytes s = (.ok k, s')) : Frame memory s s' := by
  rw [allocKey, zoom_eq_ok] at h
  obtain ⟨p, hp, rfl⟩ := h
  obtain ⟨off, hlo, hhi, hmem⟩ := KeyMaterialRegion.alloc_writes hf hp
  refine ⟨rfl, rfl, ?_⟩
  change SameRecords (memory s.storage) (memory p.2)
  rw [hmem]
  rw [keyRegionOffset_eq] at hlo
  rw [timingLogOffset_eq] at hhi
  refine sameRecords_patch ?_ (.inl ?_)
  · rw [stringHeapOffset_eq]; omega
  · rw [contactStoreProvisionMarkerOffset_eq]; omega

theorem allocString_frame {bytes : Bytes} {r : StringRef}
    (h : allocString hal bytes s = (.ok r, s')) : Frame memory s s' := by
  simp only [allocString, bind_eq_ok, require_eq_ok, zoom_eq_ok] at h
  obtain ⟨-, _, ⟨hlen, rfl⟩, p, hp, rfl⟩ := h
  have hlen' : bytes.length < 2 ^ 16 := Nat.lt_of_le_of_lt hlen (by decide)
  obtain ⟨off, hlo, hhi, hmem⟩ := StringHeap.alloc_writes hf hlen' hp
  refine ⟨rfl, rfl, ?_⟩
  change SameRecords (memory s.storage) (memory p.2)
  rw [hmem]
  rw [keyRegionOffset_eq] at hhi
  refine sameRecords_patch hlo (.inl ?_)
  rw [contactStoreProvisionMarkerOffset_eq]; omega

theorem writeRecord_ok {slot : UInt8} {r : ContactRecord} {u : PUnit}
    (h : writeRecord hal slot r s = (.ok u, s')) :
    ∃ x, s' = { s with storage := x } ∧
      memory x = (memory s.storage).patch (recordOffset slot) r.asBytes := by
  exact storing_write_ok hf (recordOffset_write_le slot r) h

/-! ## The digest -/

theorem readRecord_bytes (s : ContactStore S C) (slot : UInt8) :
    readAt hal.storage s.storage (recordOffset slot) contactRecordBytes
      = .ok (slotBytes (memory s.storage) slot) := by
  have hle := recordOffset_add_le slot
  rw [timingLogOffset_eq] at hle
  refine readAt_eq hf s.storage ?_
  rw [contactStoreEnd_eq]
  omega

/-- The digest only depends on the master key, the records and the log. -/
theorem computeIntegrityDigest_eq_of (hkey : s'.masterKey = s.masterKey)
    (hrec : ∀ slot ∈ slots, slotBytes (memory s'.storage) slot = slotBytes (memory s.storage) slot)
    (hlog : Memory.AgreeOn timingLogOffset contactStoreRramEnd (memory s.storage)
      (memory s'.storage)) :
    computeIntegrityDigest hal s' = computeIntegrityDigest hal s := by
  have hlogRead : ∀ i ∈ List.range (timingLogBytes / 256),
      readAt hal.storage s'.storage (timingLogOffset + i * 256) 256
        = readAt hal.storage s.storage (timingLogOffset + i * 256) 256 := by
    intro i hi
    rw [List.mem_range, timingLogBytes_eq] at hi
    have hend : timingLogOffset + i * 256 + 256 ≤ contactStoreRramEnd := by
      change timingLogOffset + i * 256 + 256 ≤ timingLogOffset + 16384
      omega
    have hend' : timingLogOffset + i * 256 + 256 ≤ contactStoreEnd :=
      Nat.le_trans hend (by decide)
    rw [readAt_eq hf _ hend', readAt_eq hf _ hend',
      Memory.window_congr hlog (Nat.le_add_right _ _) hend]
  have hrecRead : ∀ slot ∈ slots,
      readAt hal.storage s'.storage (recordOffset slot) contactRecordBytes
        = readAt hal.storage s.storage (recordOffset slot) contactRecordBytes := by
    intro slot hslot
    rw [readRecord_bytes hf, readRecord_bytes hf, hrec slot hslot]
  simp only [computeIntegrityDigest, hkey]
  refine congrArg _ (funext fun key ↦ ?_)
  rw [Fallible.foldlM_congr_mem (fun slot hslot hashed ↦ by rw [hrecRead slot hslot])]
  refine congrArg _ (funext fun hashed ↦ ?_)
  rw [Fallible.foldlM_congr_mem (fun i hi hashed ↦ by rw [hlogRead i hi])]

theorem computeIntegrityDigest_congr (hkey : s'.masterKey = s.masterKey)
    (hrec : SameRecords (memory s.storage) (memory s'.storage))
    (hlog : Memory.AgreeOn timingLogOffset contactStoreRramEnd (memory s.storage)
      (memory s'.storage)) :
    computeIntegrityDigest hal s' = computeIntegrityDigest hal s :=
  computeIntegrityDigest_eq_of hf hkey (fun _ hslot ↦ (slotBytes_congr hrec hslot).symm) hlog

omit hf in
/-- Reading a region chunk by chunk reads the region. -/
theorem readChunks (mem : Memory) (off n : ℕ) (hashed : Bytes) :
    (List.range n).foldlM (m := Except ContactStoreError)
        (fun hashed i ↦ .ok (hashed ++ mem.window (off + i * 256) 256)) hashed
      = .ok (hashed ++ mem.window off (n * 256)) := by
  induction n with
  | zero => simp [Memory.window, Pure.pure, Except.pure]
  | succ n ih =>
    rw [List.range_succ, List.foldlM_append, ih, Nat.succ_mul, Memory.window_add]
    simp [Bind.bind, Except.bind, Pure.pure, Except.pure]

/-- The chunks the digest reads are the whole log. -/
theorem readLog_eq (s : ContactStore S C) (hashed : Bytes) :
    (List.range (timingLogBytes / 256)).foldlM (m := Except ContactStoreError)
        (fun hashed i ↦ do
          pure (hashed ++ (← readAt hal.storage s.storage (timingLogOffset + i * 256) 256))) hashed
      = .ok (hashed ++ (memory s.storage).window timingLogOffset timingLogBytes) := by
  have hlog : ∀ i ∈ List.range (timingLogBytes / 256), ∀ hashed : Bytes, (do
      pure (hashed ++ (← readAt hal.storage s.storage (timingLogOffset + i * 256) 256)))
        = (.ok (hashed ++ (memory s.storage).window (timingLogOffset + i * 256) 256) :
          Except ContactStoreError Bytes) := by
    intro i hi hashed
    rw [List.mem_range, timingLogBytes_eq] at hi
    rw [readAt_eq hf _ (by rw [timingLogOffset_eq, contactStoreEnd_eq]; omega)]
    rfl
  rw [Fallible.foldlM_congr_mem hlog hashed, readChunks,
    Nat.div_mul_cancel (by decide : 256 ∣ timingLogBytes)]

/-- The digest of a store without records is the keyed hash of its log. -/
theorem computeIntegrityDigest_empty {k : Block 32}
    (hkey : hal.deriveSubkey s.masterKey .contactStoreIntegrity = .ok k)
    (hempty : ∀ slot ∈ slots, (slotBytes (memory s.storage) slot).take 4 ≠ u32le contactRecordMagic) :
    computeIntegrityDigest hal s
      = .ok (hal.keyedHash k ((memory s.storage).window timingLogOffset timingLogBytes)) := by
  have hslots : ∀ slot ∈ slots, ∀ hashed : Bytes, (do
      let buf ← readAt hal.storage s.storage (recordOffset slot) contactRecordBytes
      if buf.take 4 = u32le contactRecordMagic then
        if !recordCrcOk buf then .error .corruptRecord
        else pure (hashed ++ buf)
      else pure hashed) = (.ok hashed : Except ContactStoreError Bytes) := by
    intro slot hslot hashed
    rw [readRecord_bytes hf]
    exact if_neg (hempty slot hslot)
  have hnone : ∀ xs : List UInt8,
      xs.foldlM (m := Except ContactStoreError) (fun hashed _ ↦ .ok hashed) ([] : Bytes)
        = .ok [] := by
    intro xs
    induction xs with
    | nil => rfl
    | cons x xs ih => exact ih
  have hrecords := (Fallible.foldlM_congr_mem hslots ([] : Bytes)).trans (hnone slots)
  rw [computeIntegrityDigest, Fallible.except_bind_of_ok (a := k) (by rw [hkey]; rfl),
    Fallible.except_bind_of_ok hrecords, Fallible.except_bind_of_ok (readLog_eq hf s []),
    List.nil_append]
  rfl

/-- Refreshing the register makes it current, and changes nothing else on storage. -/
theorem updateIntegrity_ok {u : PUnit} (h : updateIntegrity hal s = (.ok u, s')) :
    Frame memory s s' ∧ Current hal memory s' := by
  simp only [updateIntegrity, persistIntegrityRegister, bind_eq_ok, reading_eq_ok, modify_eq_ok,
    gets_apply, Prod.mk.injEq, Except.ok.injEq] at h
  obtain ⟨d, _, ⟨hd, rfl⟩, -, _, rfl, _, _, ⟨rfl, rfl⟩, hw⟩ := h
  have hend : contactStoreIntegrityOffset + d.toBytes.length ≤ contactStoreEnd := by
    rw [d.length_toBytes]
    exact Nat.le_refl _
  obtain ⟨x, rfl, hmem⟩ := storing_write_ok hf hend hw
  have hsame : SameRecords (memory s.storage) (memory x) := by
    rw [hmem]
    refine sameRecords_patch ?_ (.inr (Nat.le_refl _))
    rw [stringHeapOffset_eq, contactStoreIntegrityOffset_eq]
    omega
  refine ⟨⟨rfl, rfl, hsame⟩, d, ?_, ?_⟩
  · rw [← hd]
    refine computeIntegrityDigest_congr hf rfl hsame ?_
    change Memory.AgreeOn timingLogOffset contactStoreRramEnd _ (memory x)
    rw [hmem]
    intro a h₁ h₂
    exact (Memory.patch_apply_of_lt (Nat.lt_of_lt_of_le h₂ (by decide))).symm
  · change (memory x).window contactStoreIntegrityOffset 32 = d.toBytes
    have hwin := Memory.window_patch (memory s.storage) contactStoreIntegrityOffset
      d.toBytes
    rw [d.length_toBytes] at hwin
    rw [hmem, hwin]

theorem loadIntegrityRegister_run (s : ContactStore S C) :
    loadIntegrityRegister hal s = (.ok ⟨⟩, { s with
      integrityRegister :=
        .ofBytes 32 ((memory s.storage).window contactStoreIntegrityOffset 32) }) := by
  rw [loadIntegrityRegister, Fallible.bind_apply, Fallible.reading_apply,
    readAt_eq hf s.storage (Nat.le_refl _)]
  rfl

theorem readProvisionMarker_eq (s : ContactStore S C) : readProvisionMarker hal s
    = .ok (u32OfLe ((memory s.storage).window contactStoreProvisionMarkerOffset 4)) := by
  rw [readProvisionMarker, readAt_eq hf s.storage (by decide)]
  rfl

/-- A provisioned store whose register holds its digest passes verification. -/
theorem verifyIntegrity_eq {d : Block 32}
    (hmarker : u32OfLe ((memory s.storage).window contactStoreProvisionMarkerOffset 4) ≠ 0)
    (hd : computeIntegrityDigest hal s = .ok d)
    (hreg : (memory s.storage).window contactStoreIntegrityOffset 32 = d.toBytes) :
    verifyIntegrity hal s = (.ok ⟨⟩, { s with integrityRegister := d, integrityGate := true }) := by
  have hdigest : ∀ register : Block 32,
      computeIntegrityDigest hal { s with integrityRegister := register } = .ok d := fun _ ↦ hd
  rw [verifyIntegrity, Fallible.bind_of_ok (reading_eq_ok.mpr ⟨readProvisionMarker_eq hf s, rfl⟩),
    if_neg hmarker, Fallible.bind_of_ok (loadIntegrityRegister_run hf s),
    Fallible.bind_of_ok (reading_eq_ok.mpr ⟨hdigest _, rfl⟩), Fallible.gets_bind]
  simp only [hreg, Block.ofBytes_toBytes, ne_eq, not_true_eq_false, if_false]
  rfl

/-- A sound store with a current register passes verification. -/
theorem verifyIntegrity_run (hsound : Sound (memory s.storage)) (hcur : Current hal memory s) :
    ∃ s', verifyIntegrity hal s = (.ok ⟨⟩, s') := by
  obtain ⟨d, hd, hreg⟩ := hcur
  exact ⟨_, verifyIntegrity_eq hf hsound.marker hd hreg⟩

/-- A store without a marker does not verify. -/
theorem verifyIntegrity_unprovisioned
    (hmarker : u32OfLe ((memory s.storage).window contactStoreProvisionMarkerOffset 4) = 0) :
    (verifyIntegrity hal s).1 = .error .notProvisioned := by
  rw [verifyIntegrity, Fallible.bind_of_ok (reading_eq_ok.mpr ⟨readProvisionMarker_eq hf s, rfl⟩),
    if_pos hmarker]
  rfl

/-- A store whose register does not hold its digest does not verify. -/
theorem verifyIntegrity_stale {d : Block 32}
    (hmarker : u32OfLe ((memory s.storage).window contactStoreProvisionMarkerOffset 4) ≠ 0)
    (hd : computeIntegrityDigest hal s = .ok d)
    (hreg : (memory s.storage).window contactStoreIntegrityOffset 32 ≠ d.toBytes) :
    (verifyIntegrity hal s).1 = .error .integrityMismatch := by
  have hdigest : ∀ register : Block 32,
      computeIntegrityDigest hal { s with integrityRegister := register } = .ok d := fun _ ↦ hd
  have hne : d ≠ .ofBytes 32 ((memory s.storage).window contactStoreIntegrityOffset 32) := by
    rintro rfl
    exact hreg (Block.toBytes_ofBytes Memory.length_window).symm
  rw [verifyIntegrity, Fallible.bind_of_ok (reading_eq_ok.mpr ⟨readProvisionMarker_eq hf s, rfl⟩),
    if_neg hmarker, Fallible.bind_of_ok (loadIntegrityRegister_run hf s),
    Fallible.bind_of_ok (reading_eq_ok.mpr ⟨hdigest _, rfl⟩), Fallible.gets_bind, if_pos hne]
  rfl

/-- A verification that succeeds has seen a provisioned store and a current register, and opens
the gate. -/
theorem verifyIntegrity_ok {u : PUnit} (h : verifyIntegrity hal s = (.ok u, s')) :
    u32OfLe ((memory s.storage).window contactStoreProvisionMarkerOffset 4) ≠ 0 ∧
      Current hal memory s' ∧ s'.integrityGate = true ∧ s'.masterKey = s.masterKey ∧
      s'.storage = s.storage := by
  rw [verifyIntegrity, bind_eq_ok] at h
  obtain ⟨marker, _, hread, h⟩ := h
  obtain ⟨hm, rfl⟩ := reading_eq_ok.mp hread
  rw [readProvisionMarker_eq hf, Except.ok.injEq] at hm
  by_cases hzero : marker = 0
  · rw [if_pos hzero, bind_eq_ok] at h
    obtain ⟨_, _, -, h⟩ := h
    cases h
  rw [if_neg hzero, Fallible.bind_of_ok (loadIntegrityRegister_run hf s), bind_eq_ok] at h
  obtain ⟨d, _, hread', h⟩ := h
  obtain ⟨hd, rfl⟩ := reading_eq_ok.mp hread'
  rw [Fallible.gets_bind] at h
  by_cases hne : d ≠ .ofBytes 32 ((memory s.storage).window contactStoreIntegrityOffset 32)
  · rw [if_pos hne, bind_eq_ok] at h
    obtain ⟨_, _, -, h⟩ := h
    cases h
  rw [if_neg hne] at h
  obtain rfl := modify_eq_ok.mp h
  refine ⟨hm ▸ hzero, ⟨d, hd, ?_⟩, rfl, rfl, rfl⟩
  change (memory s.storage).window contactStoreIntegrityOffset 32 = d.toBytes
  rw [not_not.mp hne, Block.toBytes_ofBytes Memory.length_window]

/-! ## What each operation leaves -/

omit hf in
theorem gate_ok {u : PUnit} (h : gate s = (.ok u, s')) : s.integrityGate = true ∧ s = s' := by
  rw [gate, Fallible.gets_bind] at h
  exact require_eq_ok.mp h

omit hf in
theorem gate_of_open (h : s.integrityGate = true) : gate s = (.ok ⟨⟩, s) := by
  rw [gate, Fallible.gets_bind, Fallible.require, if_pos h, Fallible.pure_apply]

omit hf in
theorem gate_of_closed (h : s.integrityGate = false) : gate s = (.error .notInitialised, s) := by
  rw [gate, Fallible.gets_bind, Fallible.require, if_neg (by rw [h]; exact Bool.false_ne_true),
    Fallible.fail_apply]

/-- A store whose next boot succeeds: open, sound, and with a current register. -/
structure Sealed (hal : StorePlatform S C) (memory : S → Memory) (key : Block 32)
    (s : ContactStore S C) : Prop where
  gate : s.integrityGate = true
  masterKey : s.masterKey = key
  sound : Sound (memory s.storage)
  current : Current hal memory s

/-- Refreshing the register of an open and sound store seals it. -/
theorem sealed_of_updateIntegrity {u : PUnit} (hgate : s.integrityGate = true)
    (hsound : Sound (memory s.storage)) (h : updateIntegrity hal s = (.ok u, s')) :
    Sealed hal memory s.masterKey s' := by
  obtain ⟨hframe, hcur⟩ := updateIntegrity_ok hf h
  exact ⟨hframe.gate.trans hgate, hframe.masterKey, hsound.of_sameRecords hframe.records, hcur⟩

theorem delete_sealed {slot : UInt8} {u : PUnit} (hsound : Sound (memory s.storage))
    (h : delete hal slot s = (.ok u, s')) : Sealed hal memory s.masterKey s' := by
  rw [delete, bind_eq_ok] at h
  obtain ⟨_, _, hg, h⟩ := h
  obtain ⟨hgate, rfl⟩ := gate_ok hg
  rw [bind_eq_ok] at h
  obtain ⟨_, _, hw, h⟩ := h
  obtain ⟨x, rfl, hmem⟩ := writeRecord_ok hf hw
  rw [Fallible.modify_bind] at h
  refine sealed_of_updateIntegrity hf (s := { s with
    storage := x, index := s.index.remove slot }) hgate ?_ h
  change Sound (memory x)
  rw [hmem]
  exact hsound.patch_record slot goodSlot_default

omit hf in
/-- The record of a new contact loads. -/
theorem loadable_newRecord (input : NewContact) (k : UInt32 × UInt16)
    (pin : Block 32 × Block 12 × Block 16) (email displayName : StringRef) :
    (newRecord input k pin email displayName).Loadable :=
  fun _ ↦ ⟨input.keyAlgo, input.keyAlgo.fromWire_toWire⟩

theorem insert_sealed {input : NewContact} {slot : UInt8} (hsound : Sound (memory s.storage))
    (h : insert hal input s = (.ok slot, s')) : Sealed hal memory s.masterKey s' := by
  rw [insert, bind_eq_ok] at h
  obtain ⟨_, _, hg, h⟩ := h
  obtain ⟨hgate, rfl⟩ := gate_ok hg
  rw [bind_eq_ok] at h
  obtain ⟨free, _, hfree, h⟩ := h
  obtain ⟨-, rfl⟩ := reading_eq_ok.mp hfree
  rw [bind_eq_ok] at h
  obtain ⟨k, s₁, hk, h⟩ := h
  have hframe₁ := allocKey_frame hf hk
  rw [bind_eq_ok] at h
  obtain ⟨pin, _, hpin, h⟩ := h
  obtain ⟨-, rfl⟩ := Prod.mk.inj hpin
  rw [bind_eq_ok] at h
  obtain ⟨email, s₂, hemail, h⟩ := h
  have hframe₂ := hframe₁.trans (allocString_frame hf hemail)
  rw [bind_eq_ok] at h
  obtain ⟨name, s₃, hname, h⟩ := h
  have hframe₃ : Frame memory s s₃ := by
    cases hn : input.displayName with
    | none =>
      rw [hn] at hname
      obtain ⟨-, rfl⟩ := Fallible.pure_eq_ok.mp hname
      exact hframe₂
    | some bytes =>
      rw [hn] at hname
      exact hframe₂.trans (allocString_frame hf hname)
  rw [bind_eq_ok] at h
  obtain ⟨_, s₄, hw, h⟩ := h
  obtain ⟨x, rfl, hmem⟩ := writeRecord_ok hf hw
  rw [bind_eq_ok] at h
  obtain ⟨index, _, hindex, h⟩ := h
  obtain ⟨-, rfl⟩ := reading_eq_ok.mp hindex
  rw [Fallible.modify_bind, bind_eq_ok] at h
  obtain ⟨_, s₅, hup, h⟩ := h
  obtain ⟨-, rfl⟩ := Fallible.pure_eq_ok.mp h
  rw [← hframe₃.masterKey]
  refine sealed_of_updateIntegrity hf (s := { s₃ with storage := x, index := index })
    (hframe₃.gate.trans hgate) ?_ hup
  change Sound (memory x)
  rw [hmem]
  exact (hsound.of_sameRecords hframe₃.records).patch_record free
    (goodSlot_recomputeCrc (loadable_newRecord input k pin email name))

omit hf in
/-- A record read from a slot loads. -/
theorem readRecord_ok {slot : UInt8} {r : ContactRecord} (h : readRecord hal s slot = .ok r) :
    r.Loadable := by
  rw [readRecord] at h
  rcases hb : readAt hal.storage s.storage (recordOffset slot) contactRecordBytes with e | buf
  · rw [hb] at h
    cases h
  rw [hb] at h
  by_cases hm : buf.take 4 ≠ u32le contactRecordMagic
  · obtain rfl : ContactRecord.default = r := by
      change (if buf.take 4 ≠ u32le contactRecordMagic then pure .default
        else ContactRecord.fromBytesVerified buf) = Except.ok r at h
      rw [if_pos hm] at h
      exact Except.ok.inj h
    exact fun hact ↦ absurd hact (by decide)
  · change (if buf.take 4 ≠ u32le contactRecordMagic then pure .default
        else ContactRecord.fromBytesVerified buf) = Except.ok r at h
    rw [if_neg hm] at h
    exact (ContactRecord.fromBytesVerified_eq_ok h).2.2

theorem update_sealed {slot : UInt8} {upd : ContactUpdate} {u : PUnit}
    (hsound : Sound (memory s.storage)) (h : update hal slot upd s = (.ok u, s')) :
    Sealed hal memory s.masterKey s' := by
  rw [update, bind_eq_ok] at h
  obtain ⟨_, _, hg, h⟩ := h
  obtain ⟨hgate, rfl⟩ := gate_ok hg
  rw [bind_eq_ok] at h
  obtain ⟨r, _, hr, h⟩ := h
  obtain ⟨hread, rfl⟩ := reading_eq_ok.mp hr
  rw [bind_eq_ok] at h
  obtain ⟨_, _, hreq, h⟩ := h
  obtain ⟨hact, rfl⟩ := require_eq_ok.mp hreq
  obtain ⟨algo, halgo⟩ := readRecord_ok hread hact
  simp only [bind_eq_ok] at h
  obtain ⟨r₁, s₁, hemail, r₂, s₂, hname, r₃, s₃, hstale, _, s₄, hw, h⟩ := h
  have h₁ : Frame memory s s₁ ∧ r₁.keyAlgo = r.keyAlgo := by
    cases he : upd.email with
    | none =>
      rw [he] at hemail
      obtain ⟨rfl, rfl⟩ := Fallible.pure_eq_ok.mp hemail
      exact ⟨.refl _, rfl⟩
    | some bytes =>
      simp only [he, bind_eq_ok, Fallible.pure_eq_ok] at hemail
      obtain ⟨_, _, halloc, rfl, rfl⟩ := hemail
      exact ⟨allocString_frame hf halloc, rfl⟩
  have h₂ : Frame memory s s₂ ∧ r₂.keyAlgo = r.keyAlgo := by
    cases hn : upd.displayName with
    | none =>
      rw [hn] at hname
      obtain ⟨rfl, rfl⟩ := Fallible.pure_eq_ok.mp hname
      exact h₁
    | some bytes =>
      simp only [hn, bind_eq_ok, Fallible.pure_eq_ok] at hname
      obtain ⟨_, _, halloc, rfl, rfl⟩ := hname
      exact ⟨h₁.1.trans (allocString_frame hf halloc), h₁.2⟩
  have h₃ : Frame memory s s₃ ∧ r₃.keyAlgo = r.keyAlgo := by
    cases hs : upd.stale with
    | none =>
      rw [hs] at hstale
      obtain ⟨rfl, rfl⟩ := Fallible.pure_eq_ok.mp hstale
      exact h₂
    | some stale =>
      simp only [hs, bind_eq_ok, modify_eq_ok, Fallible.pure_eq_ok] at hstale
      obtain ⟨_, _, rfl, rfl, rfl⟩ := hstale
      exact ⟨h₂.1.trans ⟨rfl, rfl, .refl _⟩, h₂.2⟩
  obtain ⟨hframe, hkeep⟩ := h₃
  obtain ⟨x, rfl, hmem⟩ := writeRecord_ok hf hw
  rw [← hframe.masterKey]
  refine sealed_of_updateIntegrity hf (s := { s₃ with storage := x }) (hframe.gate.trans hgate) ?_ h
  change Sound (memory x)
  rw [hmem]
  exact (hsound.of_sameRecords hframe.records).patch_record slot
    (goodSlot_recomputeCrc fun _ ↦ ⟨algo, hkeep ▸ halgo⟩)

/-- The bytes of a slot that can be read are good. -/
theorem goodSlot_of_readRecord {slot : UInt8} {r : ContactRecord}
    (h : readRecord hal s slot = .ok r) : GoodSlot (slotBytes (memory s.storage) slot) := by
  intro hmagic
  rw [readRecord, readRecord_bytes hf] at h
  change (if (slotBytes (memory s.storage) slot).take 4 ≠ u32le contactRecordMagic
    then pure .default
    else ContactRecord.fromBytesVerified (slotBytes (memory s.storage) slot)) = Except.ok r at h
  rw [if_neg (not_not_intro hmagic)] at h
  obtain ⟨hcrc, rfl, hload⟩ := ContactRecord.fromBytesVerified_eq_ok h
  exact ⟨hcrc, hload⟩

/-- Good bytes can be read. -/
theorem readRecord_of_goodSlot {slot : UInt8}
    (h : GoodSlot (slotBytes (memory s.storage) slot)) : ∃ r, readRecord hal s slot = .ok r := by
  rw [readRecord, readRecord_bytes hf]
  change ∃ r, (if (slotBytes (memory s.storage) slot).take 4 ≠ u32le contactRecordMagic
    then pure .default
    else ContactRecord.fromBytesVerified (slotBytes (memory s.storage) slot)) = Except.ok r
  by_cases hmagic : (slotBytes (memory s.storage) slot).take 4 = u32le contactRecordMagic
  · obtain ⟨hcrc, hload⟩ := h hmagic
    rw [if_neg (not_not_intro hmagic)]
    exact ⟨_, ContactRecord.fromBytesVerified_of_loadable hcrc hload⟩
  · rw [if_pos hmagic]
    exact ⟨_, rfl⟩

/-- A boot that succeeds leaves a sealed store. -/
theorem initOnBoot_sealed {u : PUnit} (h : initOnBoot hal s = (.ok u, s')) :
    Sealed hal memory s.masterKey s' := by
  rw [initOnBoot, bind_eq_ok] at h
  obtain ⟨records, _, hread, h⟩ := h
  obtain ⟨hrecords, rfl⟩ := reading_eq_ok.mp hread
  rw [Fallible.modify_bind] at h
  obtain ⟨hmarker, hcur, hgate, hkey, hstorage⟩ := verifyIntegrity_ok hf h
  refine ⟨hgate, hkey, ?_, hcur⟩
  rw [hstorage]
  refine ⟨hmarker, fun slot hslot ↦ ?_⟩
  obtain ⟨r, hr⟩ := Fallible.mapM_isOk_iff.mp ⟨records, hrecords⟩ slot hslot
  exact goodSlot_of_readRecord hf hr

/-- A boot over a provisioned store whose records load and whose register holds its digest. -/
theorem initOnBoot_eq {records : List ContactRecord} {d : Block 32}
    (hmarker : u32OfLe ((memory s.storage).window contactStoreProvisionMarkerOffset 4) ≠ 0)
    (hrecords : slots.mapM (readRecord hal s) = .ok records)
    (hd : computeIntegrityDigest hal s = .ok d)
    (hreg : (memory s.storage).window contactStoreIntegrityOffset 32 = d.toBytes) :
    initOnBoot hal s = (.ok ⟨⟩, { s with
      stringHeap := s.stringHeap.setBump (scanBumps records).1
      keyRegion := s.keyRegion.setBump (scanBumps records).2
      index := .rebuildFromRecords records
      integrityRegister := d
      integrityGate := true }) := by
  have hrun : Fallible.reading (fun s ↦ slots.mapM (readRecord hal s)) s = (.ok records, s) := by
    rw [Fallible.reading_apply, hrecords]
  rw [initOnBoot, Fallible.bind_of_ok hrun, Fallible.modify_bind]
  exact verifyIntegrity_eq hf hmarker hd hreg

/-- What a boot that succeeds has seen. -/
theorem initOnBoot_eq_ok {u : PUnit} (h : initOnBoot hal s = (.ok u, s')) :
    ∃ records d, slots.mapM (readRecord hal s) = .ok records ∧
      u32OfLe ((memory s.storage).window contactStoreProvisionMarkerOffset 4) ≠ 0 ∧
      computeIntegrityDigest hal s = .ok d ∧
      (memory s.storage).window contactStoreIntegrityOffset 32 = d.toBytes ∧
      s' = { s with
        stringHeap := s.stringHeap.setBump (scanBumps records).1
        keyRegion := s.keyRegion.setBump (scanBumps records).2
        index := .rebuildFromRecords records
        integrityRegister := d
        integrityGate := true } := by
  obtain ⟨records, _, hread, hverify⟩ := bind_eq_ok.mp h
  obtain ⟨hrecords, rfl⟩ := reading_eq_ok.mp hread
  rw [Fallible.modify_bind] at hverify
  obtain ⟨hmarker, ⟨d, hd, hreg⟩, -, hkey, hstorage⟩ := verifyIntegrity_ok hf hverify
  have hdigest : computeIntegrityDigest hal s = .ok d := by
    rw [← hd]
    refine (computeIntegrityDigest_congr hf hkey ?_ ?_).symm
    · rw [hstorage]
      exact .refl _
    · rw [hstorage]
      exact fun _ _ _ ↦ rfl
  rw [hstorage] at hreg
  have hrun := initOnBoot_eq hf (s := s) hmarker hrecords hdigest hreg
  exact ⟨records, d, hrecords, hmarker, hdigest, hreg, (Prod.mk.inj (h.symm.trans hrun)).2⟩

/-- A boot over the storage of a sealed store, under the same master key, succeeds. -/
theorem initOnBoot_run {key : Block 32} (hsealed : Sealed hal memory key s)
    (boot : ContactStore S C) (hstorage : boot.storage = s.storage) (hkey : boot.masterKey = key) :
    ∃ s', initOnBoot hal boot = (.ok ⟨⟩, s') := by
  obtain ⟨-, hkey', hsound, d, hd, hreg⟩ := hsealed
  obtain ⟨records, hrecords⟩ : ∃ rs, slots.mapM (readRecord hal boot) = .ok rs := by
    refine Fallible.mapM_isOk_iff.mpr fun slot hslot ↦ readRecord_of_goodSlot hf ?_
    rw [hstorage]
    exact hsound.slots slot hslot
  have hsame : computeIntegrityDigest hal boot = computeIntegrityDigest hal s := by
    refine computeIntegrityDigest_congr hf (hkey.trans hkey'.symm) ?_ ?_
    · rw [hstorage]
      exact .refl _
    · rw [hstorage]
      exact fun _ _ _ ↦ rfl
  refine ⟨_, initOnBoot_eq hf ?_ hrecords (hsame.trans hd) ?_⟩
  · rw [hstorage]
    exact hsound.marker
  · rw [hstorage, hreg]

/-! ## Provisioning -/

/-- Zeroing a region behind the record array leaves the records and the marker alone. -/
theorem zeroRegion_frame (len : ℕ) : ∀ {off : ℕ} {s s' : ContactStore S C} {u : PUnit},
    stringHeapOffset ≤ off → off + len ≤ contactStoreProvisionMarkerOffset →
    zeroRegion hal off len s = (.ok u, s') → Frame memory s s' := by
  induction len using Nat.strongRecOn with
  | _ len ih =>
    intro off s s' u hlo hhi h
    rw [zeroRegion] at h
    by_cases hlen : len = 0
    · rw [dif_pos hlen] at h
      obtain ⟨-, rfl⟩ := Fallible.pure_eq_ok.mp h
      exact .refl _
    · rw [dif_neg hlen, bind_eq_ok] at h
      obtain ⟨_, s₁, hw, h⟩ := h
      have hmin : min len 256 ≤ len := Nat.min_le_left _ _
      have hlenw : (List.replicate (min len 256) (0 : UInt8)).length = min len 256 :=
        List.length_replicate
      rw [contactStoreProvisionMarkerOffset_eq] at hhi
      obtain ⟨x, rfl, hmem⟩ := storing_write_ok hf (by rw [hlenw, contactStoreEnd_eq]; omega) hw
      have hfirst : Frame memory s { s with storage := x } := by
        refine ⟨rfl, rfl, ?_⟩
        rw [hmem]
        refine sameRecords_patch hlo (.inl ?_)
        rw [hlenw, contactStoreProvisionMarkerOffset_eq]; omega
      refine hfirst.trans (ih (len - min len 256) ?_ ?_ ?_ h)
      · omega
      · exact Nat.le_trans hlo (Nat.le_add_right _ _)
      · rw [contactStoreProvisionMarkerOffset_eq]; omega

/-- Writing the empty record into every slot leaves no record behind. -/
theorem clearRecords_ok {u : PUnit}
    (h : Fallible.each (fun slot ↦ writeRecord hal slot .default) slots s = (.ok u, s')) :
    s'.masterKey = s.masterKey ∧ s'.integrityGate = s.integrityGate ∧
      ∀ slot ∈ slots, GoodSlot (slotBytes (memory s'.storage) slot) := by
  obtain ⟨t, ht, hkey, hgate, hgood⟩ := Fallible.each_total
    (g := fun slot ↦ writeRecord hal slot ContactRecord.default) (l := slots)
    (I := fun done (t : ContactStore S C) ↦ t.masterKey = s.masterKey ∧
      t.integrityGate = s.integrityGate ∧
      ∀ slot ∈ done, GoodSlot (slotBytes (memory t.storage) slot))
    (fun slot _ done t ht ↦ by
      obtain ⟨x, hx, hmem⟩ := writeAt_run hf t.storage (recordOffset_write_le slot .default)
      refine ⟨{ t with storage := x }, ?_, ht.1, ht.2.1, fun slot' hslot' ↦ ?_⟩
      · rw [writeRecord, storing, Fallible.zoom_apply, hx]
      · change GoodSlot (slotBytes (memory x) slot')
        rw [hmem, slotBytes_patch]
        split_ifs with he
        · exact goodSlot_default
        · rcases List.mem_append.mp hslot' with hdone | hnew
          · exact ht.2.2 slot' hdone
          · exact absurd (List.mem_singleton.mp hnew) he)
    (d := []) (s := s) ⟨rfl, rfl, nofun⟩
  obtain rfl : t = s' := (Prod.mk.inj (ht.symm.trans h)).2
  exact ⟨hkey, hgate, hgood⟩

omit hf in
theorem besideCounter_ok {α : Type} {m : StoreM S C α} {a : α} {p p' : ContactStore S C × C} :
    besideCounter m p = (.ok a, p') ↔ ∃ t, m p.1 = (.ok a, t) ∧ p' = (t, p.2) := zoom_eq_ok

/-- Writing the marker keeps a register current, and provisions a store whose records load. -/
theorem writeProvisionMarker_ok {u : PUnit} (hgood : ∀ slot ∈ slots,
      GoodSlot (slotBytes (memory s.storage) slot)) (hcur : Current hal memory s)
    (h : writeProvisionMarker hal 1 s = (.ok u, s')) :
    s'.masterKey = s.masterKey ∧ Sound (memory s'.storage) ∧ Current hal memory s' := by
  obtain ⟨d, hd, hreg⟩ := hcur
  have hlen : (u32le 1).length = 4 := length_u32le 1
  obtain ⟨x, rfl, hmem⟩ := storing_write_ok hf (by rw [hlen]; decide) h
  have hslot : ∀ slot ∈ slots, slotBytes (memory x) slot = slotBytes (memory s.storage) slot := by
    intro slot _
    rw [hmem]
    refine Memory.window_patch_of_disjoint (.inl ?_)
    exact Nat.le_trans (recordOffset_add_le slot) (by decide)
  refine ⟨rfl, ⟨?_, fun slot hs ↦ hslot slot hs ▸ hgood slot hs⟩, d, ?_, ?_⟩
  · change u32OfLe ((memory x).window contactStoreProvisionMarkerOffset 4) ≠ 0
    have hwin := Memory.window_patch (memory s.storage)
      contactStoreProvisionMarkerOffset (u32le 1)
    rw [hlen] at hwin
    rw [hmem, hwin, u32OfLe_u32le]
    decide
  · rw [← hd]
    refine computeIntegrityDigest_eq_of hf rfl (fun slot hs ↦ hslot slot hs) ?_
    change Memory.AgreeOn _ _ _ (memory x)
    rw [hmem]
    exact fun a _ h₂ ↦ (Memory.patch_apply_of_lt h₂).symm
  · change (memory x).window contactStoreIntegrityOffset 32 = d.toBytes
    rw [hmem, ← hreg]
    exact Memory.window_patch_of_disjoint (.inr (by rw [hlen]; exact Nat.le_refl _))

/-- Erasing the band leaves no record behind. -/
theorem eraseBand_ok {u : PUnit} (h : eraseBand hal s = (.ok u, s')) :
    s'.masterKey = s.masterKey ∧
      ∀ slot ∈ slots, GoodSlot (slotBytes (memory s'.storage) slot) := by
  rw [eraseBand, bind_eq_ok] at h
  obtain ⟨_, s₁, hclear, h⟩ := h
  obtain ⟨hkey, -, hgood⟩ := clearRecords_ok hf hclear
  rw [bind_eq_ok] at h
  obtain ⟨_, s₂, hz, h⟩ := h
  have hframe := zeroRegion_frame hf _ (Nat.le_refl _) (by decide) hz
  rw [bind_eq_ok] at h
  obtain ⟨_, s₃, hz, h⟩ := h
  have hframe := hframe.trans (zeroRegion_frame hf _ (by decide) (by decide) hz)
  rw [bind_eq_ok] at h
  obtain ⟨_, s₄, hz, h⟩ := h
  have hframe := hframe.trans (zeroRegion_frame hf _ (by decide) (by decide) hz)
  obtain rfl := modify_eq_ok.mp h
  refine ⟨hframe.masterKey.trans hkey, fun slot hslot ↦ ?_⟩
  change GoodSlot (slotBytes (memory s₄.storage) slot)
  rw [← slotBytes_congr hframe.records hslot]
  exact hgood slot hslot

theorem provisionFresh_sealed {p p' : ContactStore S C × C} {u : PUnit}
    (h : provisionFresh hal p = (.ok u, p')) : Sealed hal memory p.1.masterKey p'.1 := by
  rw [provisionFresh, bind_eq_ok] at h
  obtain ⟨_, _, hload', h⟩ := h
  obtain ⟨s₁, hload, rfl⟩ := besideCounter_ok.mp hload'
  rw [loadIntegrityRegister_run hf] at hload
  obtain ⟨-, rfl⟩ := Prod.mk.inj hload
  rw [Fallible.gets_bind, bind_eq_ok] at h
  obtain ⟨_, _, hreq, h⟩ := h
  obtain ⟨-, rfl⟩ := require_eq_ok.mp hreq
  rw [bind_eq_ok] at h
  obtain ⟨_, _, hread, h⟩ := h
  obtain ⟨-, rfl⟩ := reading_eq_ok.mp hread
  rw [bind_eq_ok] at h
  obtain ⟨_, _, hreq, h⟩ := h
  obtain ⟨-, rfl⟩ := require_eq_ok.mp hreq
  rw [bind_eq_ok] at h
  obtain ⟨_, _, herase', h⟩ := h
  obtain ⟨s₂, herase, rfl⟩ := besideCounter_ok.mp herase'
  obtain ⟨hkey, hgood⟩ := eraseBand_ok hf herase
  rw [bind_eq_ok] at h
  obtain ⟨_, _, hup', h⟩ := h
  obtain ⟨s₃, hup, rfl⟩ := besideCounter_ok.mp hup'
  obtain ⟨hframe, hcur⟩ := updateIntegrity_ok hf hup
  rw [bind_eq_ok] at h
  obtain ⟨_, _, hcount, h⟩ := h
  obtain ⟨c, -, rfl⟩ := zoom_eq_ok.mp hcount
  rw [bind_eq_ok] at h
  obtain ⟨_, _, hmark', h⟩ := h
  obtain ⟨s₄, hmark, rfl⟩ := besideCounter_ok.mp hmark'
  have hgood₃ : ∀ slot ∈ slots, GoodSlot (slotBytes (memory s₃.storage) slot) := by
    intro slot hslot
    rw [← slotBytes_congr hframe.records hslot]
    exact hgood slot hslot
  obtain ⟨hkey₄, hsound, hcur₄⟩ := writeProvisionMarker_ok hf hgood₃ hcur hmark
  obtain ⟨s₅, hopen, rfl⟩ := besideCounter_ok.mp h
  obtain rfl := modify_eq_ok.mp hopen
  exact ⟨rfl, hkey₄.trans (hframe.masterKey.trans hkey), hsound, hcur₄⟩

/-! ## The timing log -/

/-- An append changes the log, the counter and nothing else, whatever its outcome. -/
theorem timingLogAppend_frame (slot : UInt8) (lastFetched : UInt32) (s : ContactStore S C) :
    let s' := (timingLogAppend hal slot lastFetched s).2
    s' = { s with storage := s'.storage, counter := s'.counter, timingLog := s'.timingLog } ∧
      TimingLog.SameButLog (memory s.storage) (memory s'.storage) := by
  rw [timingLogAppend]
  rcases Bool.eq_false_or_eq_true s.integrityGate with hgate | hgate
  swap
  · rw [Fallible.bind_of_error (gate_of_closed hgate)]
    exact ⟨rfl, .refl _⟩
  rw [Fallible.bind_of_ok (gate_of_open hgate)]
  rcases hread : slots.mapM (readRecord hal s) with e | records
  · rw [Fallible.bind_of_error (by rw [Fallible.reading_apply, hread])]
    exact ⟨rfl, .refl _⟩
  · rw [Fallible.bind_of_ok (by rw [Fallible.reading_apply, hread]), Fallible.bind_apply,
      Fallible.zoom_apply]
    obtain ⟨hsame, -⟩ := TimingLog.append_frame hf hal.counter slot lastFetched records
      ((s.timingLog, s.storage), s.counter)
    rcases happ : TimingLog.append hal.storage hal.counter slot lastFetched records
      ((s.timingLog, s.storage), s.counter) with ⟨_ | _, q⟩
    · rw [happ] at hsame
      exact ⟨rfl, hsame⟩
    · rw [happ] at hsame
      exact ⟨rfl, hsame⟩

omit hf in
theorem sameRecords_of_sameButLog {mem mem' : Memory} (h : TimingLog.SameButLog mem mem') :
    SameRecords mem mem' :=
  ⟨h.1.mono (Nat.zero_le _) (by decide), (h.2 _).mono (by decide) (Nat.le_refl _)⟩

/-! ## Runs -/

omit hf

/-- A call on the store. -/
inductive StoreCall where
  | provisionFresh
  | initOnBoot
  | insert (input : NewContact)
  | update (slot : UInt8) (upd : ContactUpdate)
  | delete (slot : UInt8)
  | timingLogAppend (slot : UInt8) (lastFetched : UInt32)

/-- Whether a call appends to the timing log. -/
def StoreCall.appends : StoreCall → Bool
  | .timingLogAppend _ _ => true
  | _ => false

/-- Make a call. -/
def call (hal : StorePlatform S C) :
    StoreCall → Fallible (ContactStore S C × C) ContactStoreError PUnit
  | .provisionFresh => provisionFresh hal
  | .initOnBoot => besideCounter (initOnBoot hal)
  | .insert input => do let _ ← besideCounter (insert hal input)
  | .update slot upd => besideCounter (update hal slot upd)
  | .delete slot => besideCounter (delete hal slot)
  | .timingLogAppend slot t => besideCounter (timingLogAppend hal slot t)

include hf

/-- **Step.** A call that succeeds leaves the gate open and the store sound, and seals it unless it
appends to the log. -/
theorem call_ok {c : StoreCall} {p p' : ContactStore S C × C} {u : PUnit}
    (hsound : p.1.integrityGate = true → Sound (memory p.1.storage))
    (h : call hal c p = (.ok u, p')) :
    p'.1.masterKey = p.1.masterKey ∧ p'.1.integrityGate = true ∧ Sound (memory p'.1.storage) ∧
      (c.appends = false → Sealed hal memory p.1.masterKey p'.1) := by
  have hsealed : Sealed hal memory p.1.masterKey p'.1 →
      p'.1.masterKey = p.1.masterKey ∧ p'.1.integrityGate = true ∧
        Sound (memory p'.1.storage) ∧
        (c.appends = false → Sealed hal memory p.1.masterKey p'.1) :=
    fun hs ↦ ⟨hs.masterKey, hs.gate, hs.sound, fun _ ↦ hs⟩
  -- Every operation but the first two starts by checking the gate.
  have hgated : ∀ {α : Type} {m : StoreM S C α} {a : α} {s s' : ContactStore S C},
      (gate >>= fun _ ↦ m) s = (.ok a, s') → s.integrityGate = true := by
    intro α m a s s' hm
    obtain ⟨_, _, hg, -⟩ := bind_eq_ok.mp hm
    exact (gate_ok hg).1
  cases c with
  | provisionFresh => exact hsealed (provisionFresh_sealed hf h)
  | initOnBoot =>
    obtain ⟨t, ht, rfl⟩ := besideCounter_ok.mp h
    exact hsealed (initOnBoot_sealed hf ht)
  | insert input =>
    obtain ⟨_, _, hins, h⟩ := bind_eq_ok.mp h
    obtain ⟨-, rfl⟩ := Fallible.pure_eq_ok.mp h
    obtain ⟨t, ht, rfl⟩ := besideCounter_ok.mp hins
    exact hsealed (insert_sealed hf (hsound (hgated ht)) ht)
  | update slot upd =>
    obtain ⟨t, ht, rfl⟩ := besideCounter_ok.mp h
    exact hsealed (update_sealed hf (hsound (hgated ht)) ht)
  | delete slot =>
    obtain ⟨t, ht, rfl⟩ := besideCounter_ok.mp h
    exact hsealed (delete_sealed hf (hsound (hgated ht)) ht)
  | timingLogAppend slot lastFetched =>
    obtain ⟨t, ht, rfl⟩ := besideCounter_ok.mp h
    have hopen := hgated ht
    obtain ⟨heq, hsame⟩ := timingLogAppend_frame hf slot lastFetched p.1
    rw [ht] at heq hsame
    have hkey := congrArg ContactStore.masterKey heq
    have hgate := congrArg ContactStore.integrityGate heq
    exact ⟨hkey, hgate.trans hopen, (hsound hopen).of_sameRecords
      (sameRecords_of_sameButLog hsame), nofun⟩

/-- **Run.** Calls that all succeed keep the master key and, once the gate is open, soundness. -/
theorem run_ok {calls : List StoreCall} {p p' : ContactStore S C × C} {u : PUnit}
    (hsound : p.1.integrityGate = true → Sound (memory p.1.storage))
    (h : Fallible.each (call hal) calls p = (.ok u, p')) :
    p'.1.masterKey = p.1.masterKey ∧
      (p'.1.integrityGate = true → Sound (memory p'.1.storage)) := by
  induction calls generalizing p with
  | nil =>
    obtain ⟨-, rfl⟩ := Fallible.pure_eq_ok.mp h
    exact ⟨rfl, hsound⟩
  | cons c calls ih =>
    obtain ⟨_, q, hc, h⟩ := bind_eq_ok.mp h
    obtain ⟨hkey, -, hsound', -⟩ := call_ok hf hsound hc
    obtain ⟨hkey', hrest⟩ := ih (fun _ ↦ hsound') h
    exact ⟨hkey'.trans hkey, hrest⟩

omit hf

/-! ## A store on blank memory

A platform on resistive memory whose hash only tells whether a byte string is all zero. -/

def samplePlatform : StorePlatform Memory UInt32 where
  storage := rramVaultStorage 0
  counter := valueCounter
  deriveSubkey key _ := .ok key
  keyedHash _ data := .ofBytes 32 (List.replicate 32 (if data.all (· == 0) then 1 else 2))
  aeadDecrypt _ _ _ := none

/-- A memory that was never written. -/
def blank : Memory := fun _ ↦ 0

theorem blank_patch_zeros (off n : ℕ) : blank.patch off (List.replicate n 0) = blank := by
  funext a
  rw [Memory.patch]
  split_ifs
  · exact List.getElem?_getD_replicate_default_eq 0 n (a - off)
  · rfl

theorem samplePlatform_faithful : samplePlatform.storage.Faithful contactStoreEnd fun m ↦ m := by
  have h := rramVaultStorage_faithful 0 contactStoreEnd
  simp only [Nat.zero_add] at h
  exact h

theorem writeAt_rram (off : ℕ) (bs : Bytes) (mem : Memory) :
    writeAt samplePlatform.storage off bs mem = (.ok ⟨⟩, mem.patch off bs) := by
  change (Except.ok PUnit.unit, mem.patch (0 + off) bs) = _
  rw [Nat.zero_add]

theorem asBytes_default : ContactRecord.default.asBytes = List.replicate 256 0 := by
  decide +kernel

theorem zeroRegion_blank (len : ℕ) : ∀ (off : ℕ) {s : ContactStore Memory UInt32},
    s.storage = blank → zeroRegion samplePlatform off len s = (.ok ⟨⟩, s) := by
  induction len using Nat.strongRecOn with
  | _ len ih =>
    intro off s hs
    rw [zeroRegion]
    split_ifs with hlen
    · rfl
    · have hw : storing (writeAt samplePlatform.storage off (List.replicate (min len 256) 0)) s
          = (.ok ⟨⟩, s) := by
        rw [storing, Fallible.zoom_apply, writeAt_rram, hs, blank_patch_zeros, ← hs]
      rw [Fallible.bind_of_ok hw]
      exact ih _ (by omega) _ hs

/-- Erasing a blank memory changes nothing but the allocators, the log and the index. -/
theorem eraseBand_blank {s : ContactStore Memory UInt32} (hs : s.storage = blank) :
    eraseBand samplePlatform s = (.ok ⟨⟩, { s with
      stringHeap := .new, keyRegion := .new, timingLog := .new, index := .new }) := by
  obtain ⟨t, hclear, rfl⟩ := Fallible.each_total
    (g := fun slot ↦ writeRecord samplePlatform slot ContactRecord.default) (l := slots)
    (I := fun _ t ↦ t = s)
    (fun slot _ _ t ht ↦ by
      refine ⟨s, ?_, rfl⟩
      rw [ht, writeRecord, storing, Fallible.zoom_apply, writeAt_rram, hs, asBytes_default,
        blank_patch_zeros, ← hs])
    (d := []) (s := s) rfl
  rw [eraseBand, Fallible.bind_of_ok hclear, Fallible.bind_of_ok (zeroRegion_blank _ _ hs),
    Fallible.bind_of_ok (zeroRegion_blank _ _ hs), Fallible.bind_of_ok (zeroRegion_blank _ _ hs)]
  rfl

/-- The digest of an empty store over a log that is all zero. -/
def blankDigest : Block 32 := .ofBytes 32 (List.replicate 32 1)

theorem keyedHash_zeros (k : Block 32) (n : ℕ) :
    samplePlatform.keyedHash k (List.replicate n 0) = blankDigest := by
  have h : (List.replicate n (0 : UInt8)).all (· == 0) = true :=
    List.all_eq_true.mpr fun x hx ↦ by rw [List.eq_of_mem_replicate hx]; rfl
  simp only [samplePlatform, h, if_true, blankDigest]

theorem window_blank (off n : ℕ) : blank.window off n = List.replicate n 0 :=
  List.ext_getElem (by rw [Memory.length_window, List.length_replicate])
    fun i h₁ h₂ ↦ by simp [Memory.window, blank]

theorem slotBytes_blank_ne (slot : UInt8) :
    (slotBytes blank slot).take 4 ≠ u32le contactRecordMagic := by
  rw [slotBytes, window_blank]
  decide

/-- The memory of a freshly provisioned store. -/
def provisionedMemory : Memory :=
  (blank.patch contactStoreIntegrityOffset blankDigest.toBytes).patch
    contactStoreProvisionMarkerOffset (u32le 1)

/-- A freshly provisioned store. -/
def provisioned (key : Block 32) : ContactStore Memory UInt32 :=
  { new blank 0 key with
    storage := provisionedMemory, integrityGate := true, integrityRegister := blankDigest }

/-- Provisioning a blank memory succeeds. -/
theorem provisionFresh_blank (key : Block 32) :
    provisionFresh samplePlatform (new blank 0 key, 0) = (.ok ⟨⟩, (provisioned key, 1)) := by
  have hload : besideCounter (loadIntegrityRegister samplePlatform)
      ((new blank 0 key : ContactStore Memory UInt32), (0 : UInt32))
        = (.ok ⟨⟩, (new blank 0 key, 0)) := by
    rw [besideCounter, Fallible.zoom_apply, loadIntegrityRegister_run samplePlatform_faithful]
    simp only [new, window_blank]
    rfl
  have hzero : (new blank 0 key : ContactStore Memory UInt32).integrityRegister.toBytes.all (· = 0) :=
    rfl
  have hmarker : readProvisionMarker samplePlatform (new blank 0 key : ContactStore Memory UInt32)
      = .ok 0 := by
    rw [readProvisionMarker_eq samplePlatform_faithful]
    rfl
  have herase : besideCounter (eraseBand samplePlatform)
      ((new blank 0 key : ContactStore Memory UInt32), (0 : UInt32))
        = (.ok ⟨⟩, (new blank 0 key, 0)) := by
    rw [besideCounter, Fallible.zoom_apply, eraseBand_blank rfl]
    rfl
  have hdigest : computeIntegrityDigest samplePlatform
      (new blank 0 key : ContactStore Memory UInt32) = .ok blankDigest := by
    rw [computeIntegrityDigest_empty samplePlatform_faithful (k := key) rfl
      fun slot _ ↦ slotBytes_blank_ne slot]
    exact congrArg _ ((congrArg _ (window_blank _ _)).trans (keyedHash_zeros _ _))
  have hup : besideCounter (updateIntegrity samplePlatform)
      ((new blank 0 key : ContactStore Memory UInt32), (0 : UInt32))
        = (.ok ⟨⟩, ({ new blank 0 key with
            storage := blank.patch contactStoreIntegrityOffset blankDigest.toBytes
            integrityRegister := blankDigest }, 0)) := by
    rw [besideCounter, Fallible.zoom_apply, updateIntegrity, Fallible.bind_of_ok
      (by rw [Fallible.reading_apply, hdigest]), Fallible.modify_bind, persistIntegrityRegister,
      Fallible.gets_bind, storing, Fallible.zoom_apply, writeAt_rram]
    rfl
  have hcount : ∀ s : ContactStore Memory UInt32,
      (.zoom Prod.snd (fun c p ↦ (p.1, c)) (.orElse samplePlatform.counter.increment .counterError) :
        Fallible (ContactStore Memory UInt32 × UInt32) ContactStoreError UInt32) (s, 0)
        = (.ok 1, (s, 1)) := fun _ ↦ rfl
  have hmark : besideCounter (writeProvisionMarker samplePlatform 1)
      (({ new blank 0 key with
            storage := blank.patch contactStoreIntegrityOffset blankDigest.toBytes
            integrityRegister := blankDigest } : ContactStore Memory UInt32), (1 : UInt32))
        = (.ok ⟨⟩, ({ provisioned key with integrityGate := false }, 1)) := by
    rw [besideCounter, Fallible.zoom_apply, writeProvisionMarker, storing, Fallible.zoom_apply,
      writeAt_rram]
    rfl
  rw [provisionFresh, Fallible.bind_of_ok hload, Fallible.gets_bind,
    Fallible.bind_of_ok (a := ⟨⟩) (require_eq_ok.mpr ⟨hzero, rfl⟩),
    Fallible.bind_of_ok (by rw [Fallible.reading_apply, hmarker]),
    Fallible.bind_of_ok (a := ⟨⟩) (require_eq_ok.mpr ⟨rfl, rfl⟩), Fallible.bind_of_ok herase,
    Fallible.bind_of_ok hup, Fallible.bind_of_ok (hcount _), Fallible.bind_of_ok hmark]
  rfl

/-- The first entry appended to a provisioned store. -/
def firstEntry : TimingLogEntry :=
  .recomputeCrc { slot := 0, lastFetched := 0, seq := 1, entryCrc := 0 }

/-- A provisioned store after one append. -/
def appended (key : Block 32) : ContactStore Memory UInt32 :=
  { provisioned key with
    storage := provisionedMemory.patch (TimingLog.entryOffset 0) firstEntry.asBytes
    counter := 1
    timingLog := ⟨1⟩ }

theorem slotBytes_provisioned_ne {mem : Memory} (h : SameRecords provisionedMemory mem)
    {slot : UInt8} (hslot : slot ∈ slots) :
    (slotBytes mem slot).take 4 ≠ u32le contactRecordMagic := by
  have hlo : recordOffset slot + contactRecordBytes ≤ contactStoreProvisionMarkerOffset :=
    Nat.le_trans (recordOffset_add_le slot) (by decide)
  have hsame : slotBytes provisionedMemory slot = slotBytes blank slot := by
    rw [provisionedMemory, slotBytes, Memory.window_patch_of_disjoint (.inl hlo),
      Memory.window_patch_of_disjoint (.inl (Nat.le_trans hlo (by decide)))]
    rfl
  rw [← slotBytes_congr h hslot, hsame]
  exact slotBytes_blank_ne slot

theorem timingLogAppend_provisioned (key : Block 32) :
    timingLogAppend samplePlatform 0 0 (provisioned key) = (.ok ⟨⟩, appended key) := by
  obtain ⟨records, hrecords⟩ :
      ∃ rs, slots.mapM (readRecord samplePlatform (provisioned key)) = .ok rs :=
    Fallible.mapM_isOk_iff.mpr fun slot hslot ↦ readRecord_of_goodSlot samplePlatform_faithful
      fun hmagic ↦ absurd hmagic (slotBytes_provisioned_ne (.refl _) hslot)
  have happ : TimingLog.append samplePlatform.storage samplePlatform.counter 0 0 records
      (((provisioned key).timingLog, (provisioned key).storage), (provisioned key).counter)
        = (.ok records, (((appended key).timingLog, (appended key).storage), 1)) := by
    have hpush : TimingLog.push samplePlatform.storage
        (.recomputeCrc { slot := 0, lastFetched := 0, seq := 1, entryCrc := 0 })
        (⟨0⟩, provisionedMemory) = (.ok ⟨⟩, (⟨1⟩, provisionedMemory.patch (TimingLog.entryOffset 0)
            firstEntry.asBytes)) := by
      rw [TimingLog.push, Fallible.gets_bind, onStorage, Fallible.bind_apply, Fallible.zoom_apply,
        TimingLog.writeEntry, writeAt_rram]
      rfl
    have hcount : (.zoom Prod.snd (fun c p ↦ (p.1, c))
        (.orElse samplePlatform.counter.increment .counterError) :
          Fallible ((TimingLog × Memory) × UInt32) ContactStoreError UInt32)
          ((⟨0⟩, provisionedMemory), 0) = (.ok 1, ((⟨0⟩, provisionedMemory), 1)) := rfl
    have hroom : TimingLog.makeRoom samplePlatform.storage records (⟨0⟩, provisionedMemory)
        = (.ok records, (⟨0⟩, provisionedMemory)) := rfl
    change TimingLog.append samplePlatform.storage samplePlatform.counter 0 0 records
      ((⟨0⟩, provisionedMemory), 0) = _
    rw [TimingLog.append, Fallible.bind_of_ok hcount, Fallible.zoom_apply]
    rw [Fallible.bind_of_ok hroom, Fallible.bind_of_ok hpush]
    rfl
  rw [timingLogAppend, Fallible.bind_of_ok (gate_of_open rfl),
    Fallible.bind_of_ok (by rw [Fallible.reading_apply, hrecords]), Fallible.bind_apply,
    Fallible.zoom_apply, happ]
  rfl

end ContactStore

end Galdralag.Contacts
