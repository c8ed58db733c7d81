import Galdralag.ContactStore.Integrity

/-!
# Interrupted operations

An operation of the store is a sequence of storage writes, and ends with the first one that fails.
To see what an interruption leaves behind, an operation is run over a storage with a fuse: it takes
`n` more writes and fails every later one. What is stored when the operation has returned is what a
loss of power after the first `n` writes leaves, or a storage that fails at the next one.

## Provisioning

Provisioning erases the band in 630 writes, and then writes the register and the marker, with a
count of the provisioning counter in between. It starts only where both are zero. A boot asks for
the marker alone. So the one bad moment is between the two writes: the register is set and the
marker is not.
-/

set_option linter.all false

namespace Galdralag

/-- A storage that takes a number of writes and fails every later one. -/
def VaultStorage.fused {W : Type} (storage : VaultStorage W) : VaultStorage (W × ℕ) where
  read x offset len := storage.read x.1 offset len
  write offset data := fun x ↦
    if x.2 = 0 then (.error .bus, x)
    else ((storage.write offset data x.1).1, ((storage.write offset data x.1).2, x.2 - 1))

namespace Contacts

/-- A platform whose storage has a fuse. -/
def StorePlatform.fused {S C : Type} (hal : StorePlatform S C) : StorePlatform (S × ℕ) C where
  storage := hal.storage.fused
  counter := hal.counter
  deriveSubkey := hal.deriveSubkey
  keyedHash := hal.keyedHash
  aeadDecrypt := hal.aeadDecrypt

namespace ContactStore

open Fallible (bind_of_ok bind_of_error require_of)

variable {S C : Type} {hal : StorePlatform S C} {memory : S → Memory}

/-- The store without the fuse. -/
def unfused (s : ContactStore (S × ℕ) C) : ContactStore S C where
  storage := s.storage.1
  counter := s.counter
  index := s.index
  integrityGate := s.integrityGate
  integrityRegister := s.integrityRegister
  masterKey := s.masterKey
  stringHeap := s.stringHeap
  keyRegion := s.keyRegion
  timingLog := s.timingLog

/-! ## Reads and writes -/

theorem computeIntegrityDigest_fused (s : ContactStore (S × ℕ) C) :
    computeIntegrityDigest hal.fused s = computeIntegrityDigest hal s.unfused := rfl

/-- Once the fuse has blown nothing is written. -/
theorem storing_blown {s : ContactStore (S × ℕ) C} (h : s.storage.2 = 0) (off : ℕ) (bs : Bytes) :
    storing (writeAt hal.fused.storage off bs) s = (.error .storageWrite, s) := by
  have hwrite : hal.fused.storage.write off bs s.storage = (.error .bus, s.storage) := if_pos h
  rw [storing, Fallible.zoom_apply, writeAt, Fallible.orElse, hwrite]

variable (hf : hal.storage.Faithful contactStoreEnd memory)
include hf

/-- Before that a write goes through. -/
theorem storing_fused {s : ContactStore (S × ℕ) C} {n off : ℕ} {bs : Bytes} (h : s.storage.2 = n + 1)
    (hend : off + bs.length ≤ contactStoreEnd) :
    ∃ x, storing (writeAt hal.fused.storage off bs) s = (.ok ⟨⟩, { s with storage := (x, n) }) ∧
      memory x = (memory s.storage.1).patch off bs := by
  have hwrite : hal.fused.storage.write off bs s.storage
      = (.ok ⟨⟩, ((hal.storage.write off bs s.storage.1).2, n)) := by
    refine (if_neg (by omega)).trans ?_
    rw [h, hf.write_eq s.storage.1 hend]
    rfl
  refine ⟨_, ?_, hf.memory_write s.storage.1 off bs hend⟩
  rw [storing, Fallible.zoom_apply, writeAt, Fallible.orElse, hwrite]

/-- Without a fuse a write goes through. -/
theorem storing_run (s : ContactStore S C) {off : ℕ} {bs : Bytes}
    (hend : off + bs.length ≤ contactStoreEnd) :
    ∃ x, storing (writeAt hal.storage off bs) s = (.ok ⟨⟩, { s with storage := x }) ∧
      memory x = (memory s.storage).patch off bs := by
  obtain ⟨x, hx, hmem⟩ := writeAt_run hf s.storage hend
  exact ⟨x, by rw [storing, Fallible.zoom_apply, hx], hmem⟩

omit hf

/-! ## Erasing the band

The band is erased in chunks of 256 bytes, one after the other: an empty record is a chunk of zeros,
and the regions follow the record array without a gap. -/

/-- Write `n` chunks of zeros from `off` on. -/
def eraseChunks (hal : StorePlatform S C) (off : ℕ) : ℕ → StoreM S C PUnit
  | 0 => pure ⟨⟩
  | n + 1 => do
    storing (writeAt hal.storage off (List.replicate 256 0))
    eraseChunks hal (off + 256) n

theorem eraseChunks_add (off m n : ℕ) : eraseChunks hal off (m + n) = (do
    eraseChunks hal off m
    eraseChunks hal (off + m * 256) n) := by
  induction m generalizing off with
  | zero =>
    rw [Nat.zero_add, Nat.zero_mul, Nat.add_zero]
    rfl
  | succ m ih =>
    rw [Nat.succ_add_eq_add_succ, Nat.add_succ, eraseChunks, ih, eraseChunks, Fallible.bind_assoc,
      Nat.succ_mul, Nat.add_assoc, Nat.add_comm 256]

/-- A region is erased in chunks. -/
theorem zeroRegion_eq (off n : ℕ) : zeroRegion hal off (n * 256) = eraseChunks hal off n := by
  induction n generalizing off with
  | zero =>
    rw [Nat.zero_mul, zeroRegion, dif_pos rfl]
    rfl
  | succ n ih =>
    have hmin : min ((n + 1) * 256) 256 = 256 := by omega
    have hrest : (n + 1) * 256 - 256 = n * 256 := by omega
    rw [zeroRegion, dif_neg (by omega), hmin, hrest, ih, eraseChunks]

/-- So are consecutive records. -/
theorem clearRecords_eq (a n : ℕ) (h : a + n ≤ 256) :
    Fallible.each (fun slot ↦ writeRecord hal slot .default) ((List.range' a n).map UInt8.ofNat)
      = eraseChunks hal (contactRecordArrayOffset + a * 256) n := by
  induction n generalizing a with
  | zero => rfl
  | succ n ih =>
    have hoff : recordOffset (UInt8.ofNat a) = contactRecordArrayOffset + a * 256 := by
      rw [recordOffset, UInt8.toNat_ofNat', Nat.mod_eq_of_lt (by omega), contactRecordBytes_eq]
    have hnext : contactRecordArrayOffset + (a + 1) * 256 = contactRecordArrayOffset + a * 256 + 256 := by
      omega
    rw [List.range'_succ, List.map_cons, Fallible.each, ih (a + 1) (by omega), eraseChunks, writeRecord,
      hoff, asBytes_default, hnext]

/-- **Erasing.** The band is erased in 630 chunks. -/
theorem eraseBand_eq : eraseBand hal = (do
    eraseChunks hal contactRecordArrayOffset 630
    .modify fun s ↦
      { s with stringHeap := .new, keyRegion := .new, timingLog := .new, index := .new }) := by
  have hslots : (slots : List UInt8) = (List.range' 0 54).map UInt8.ofNat := by
    rw [slots, contactSlotCount_eq, List.range_eq_range']
  have hheap : stringHeapOffset = contactRecordArrayOffset + 54 * 256 := rfl
  have hkeys : keyRegionOffset = contactRecordArrayOffset + 54 * 256 + 256 * 256 := rfl
  have hlog : timingLogOffset = contactRecordArrayOffset + 54 * 256 + 256 * 256 + 256 * 256 := rfl
  rw [eraseBand, hslots, clearRecords_eq 0 54 (by omega), show stringHeapBytes = 256 * 256 from rfl,
    show keyRegionBytes = 256 * 256 from rfl, show timingLogBytes = 64 * 256 from rfl, zeroRegion_eq,
    zeroRegion_eq, zeroRegion_eq, show 630 = 54 + (256 + (256 + 64)) from rfl, eraseChunks_add,
    eraseChunks_add, eraseChunks_add, Fallible.bind_assoc, Fallible.bind_assoc, Fallible.bind_assoc,
    hheap, hkeys, hlog, Nat.zero_mul, Nat.add_zero]

/-- Zeros behind zeros. -/
theorem patch_chunk (mem : Memory) (off n : ℕ) :
    (mem.patch off (List.replicate 256 0)).patch (off + 256) (List.replicate (n * 256) 0)
      = mem.patch off (List.replicate ((n + 1) * 256) 0) := by
  have happend := Memory.patch_append mem off (List.replicate 256 0) (List.replicate (n * 256) 0)
  rw [List.length_replicate, List.replicate_append_replicate] at happend
  rw [happend, Nat.succ_mul, Nat.add_comm]

section Erasing

variable (hf : hal.storage.Faithful contactStoreEnd memory)
include hf

/-- Erasing chunks over a fuse takes a write for each. -/
theorem eraseChunks_fused (n : ℕ) : ∀ {off : ℕ} {s : ContactStore (S × ℕ) C},
    off + n * 256 ≤ contactStoreEnd → ∃ x, eraseChunks hal.fused off n s
        = (if n ≤ s.storage.2 then .ok ⟨⟩ else .error .storageWrite,
          { s with storage := (x, s.storage.2 - n) }) ∧
      memory x = (memory s.storage.1).patch off (List.replicate (min n s.storage.2 * 256) 0) := by
  induction n with
  | zero =>
    intro off s hend
    exact ⟨s.storage.1, rfl, by rw [Nat.zero_min, Nat.zero_mul]; exact Memory.patch_nil.symm⟩
  | succ n ih =>
    intro off s hend
    have hlen : (List.replicate 256 (0 : UInt8)).length = 256 := List.length_replicate
    rw [eraseChunks]
    rcases hfuse : s.storage.2 with _ | k
    · refine ⟨s.storage.1, ?_, ?_⟩
      · rw [bind_of_error (storing_blown hfuse _ _), if_neg (by omega), Nat.zero_sub, ← hfuse]
      · rw [Nat.min_zero, Nat.zero_mul]
        exact Memory.patch_nil.symm
    · obtain ⟨x, hw, hmem⟩ := storing_fused hf hfuse (by rw [hlen]; omega : off +
        (List.replicate 256 (0 : UInt8)).length ≤ contactStoreEnd)
      obtain ⟨y, hrun, hmem'⟩ := @ih (off + 256) { s with storage := (x, k) } (by omega)
      refine ⟨y, ?_, ?_⟩
      · rw [bind_of_ok hw, hrun]
        simp only [Nat.add_le_add_iff_right, Nat.add_sub_add_right]
      · rw [hmem', hmem, patch_chunk, Nat.succ_min_succ]

/-- Without a fuse it succeeds. -/
theorem eraseChunks_run (n : ℕ) : ∀ {off : ℕ} {s : ContactStore S C},
    off + n * 256 ≤ contactStoreEnd → ∃ x, eraseChunks hal off n s
        = (.ok ⟨⟩, { s with storage := x }) ∧
      memory x = (memory s.storage).patch off (List.replicate (n * 256) 0) := by
  induction n with
  | zero =>
    intro off s hend
    exact ⟨s.storage, rfl, by rw [Nat.zero_mul]; exact Memory.patch_nil.symm⟩
  | succ n ih =>
    intro off s hend
    have hlen : (List.replicate 256 (0 : UInt8)).length = 256 := List.length_replicate
    obtain ⟨x, hw, hmem⟩ := storing_run hf s (by rw [hlen]; omega : off +
      (List.replicate 256 (0 : UInt8)).length ≤ contactStoreEnd)
    obtain ⟨y, hrun, hmem'⟩ := @ih (off + 256) { s with storage := x } (by omega)
    refine ⟨y, ?_, ?_⟩
    · rw [eraseChunks, bind_of_ok hw, hrun]
    · rw [hmem', hmem, patch_chunk]

end Erasing

/-! ## The register and the marker -/

section Register

variable {d : Block 32}

theorem updateIntegrity_blown {s : ContactStore (S × ℕ) C} (h : s.storage.2 = 0)
    (hd : computeIntegrityDigest hal.fused s = .ok d) :
    updateIntegrity hal.fused s = (.error .storageWrite, { s with integrityRegister := d }) := by
  rw [updateIntegrity, bind_of_ok (Fallible.reading_eq_ok.mpr ⟨hd, rfl⟩), Fallible.modify_bind,
    persistIntegrityRegister, Fallible.gets_bind]
  exact storing_blown (s := { s with integrityRegister := d }) h _ _

variable (hf : hal.storage.Faithful contactStoreEnd memory)
include hf

theorem updateIntegrity_fused {s : ContactStore (S × ℕ) C} {n : ℕ} (h : s.storage.2 = n + 1)
    (hd : computeIntegrityDigest hal.fused s = .ok d) : ∃ x, updateIntegrity hal.fused s
        = (.ok ⟨⟩, { s with storage := (x, n), integrityRegister := d }) ∧
      memory x = (memory s.storage.1).patch contactStoreIntegrityOffset d.toBytes := by
  have hend : contactStoreIntegrityOffset + d.toBytes.length ≤ contactStoreEnd := by
    rw [d.length_toBytes]
    exact Nat.le_refl _
  obtain ⟨x, hw, hmem⟩ := storing_fused hf (s := { s with integrityRegister := d }) h hend
  refine ⟨x, ?_, hmem⟩
  rw [updateIntegrity, bind_of_ok (Fallible.reading_eq_ok.mpr ⟨hd, rfl⟩), Fallible.modify_bind,
    persistIntegrityRegister, Fallible.gets_bind, hw]

theorem updateIntegrity_run {s : ContactStore S C} (hd : computeIntegrityDigest hal s = .ok d) :
    ∃ x, updateIntegrity hal s = (.ok ⟨⟩, { s with storage := x, integrityRegister := d }) ∧
      memory x = (memory s.storage).patch contactStoreIntegrityOffset d.toBytes := by
  have hend : contactStoreIntegrityOffset + d.toBytes.length ≤ contactStoreEnd := by
    rw [d.length_toBytes]
    exact Nat.le_refl _
  obtain ⟨x, hw, hmem⟩ := storing_run hf { s with integrityRegister := d } hend
  refine ⟨x, ?_, hmem⟩
  rw [updateIntegrity, bind_of_ok (Fallible.reading_eq_ok.mpr ⟨hd, rfl⟩), Fallible.modify_bind,
    persistIntegrityRegister, Fallible.gets_bind, hw]

omit hf in
theorem marker_le : contactStoreProvisionMarkerOffset + (u32le 1).length ≤ contactStoreEnd := by
  rw [length_u32le]
  decide

theorem writeProvisionMarker_fused {s : ContactStore (S × ℕ) C} {n : ℕ} (h : s.storage.2 = n + 1) :
    ∃ x, writeProvisionMarker hal.fused 1 s = (.ok ⟨⟩, { s with storage := (x, n) }) ∧
      memory x = (memory s.storage.1).patch contactStoreProvisionMarkerOffset (u32le 1) :=
  storing_fused hf h marker_le

omit hf in
theorem writeProvisionMarker_blown {s : ContactStore (S × ℕ) C} (h : s.storage.2 = 0) :
    writeProvisionMarker hal.fused 1 s = (.error .storageWrite, s) := storing_blown h _ _

theorem writeProvisionMarker_run (s : ContactStore S C) :
    ∃ x, writeProvisionMarker hal 1 s = (.ok ⟨⟩, { s with storage := x }) ∧
      memory x = (memory s.storage).patch contactStoreProvisionMarkerOffset (u32le 1) :=
  storing_run hf s marker_le

end Register

/-! ## Provisioning -/

/-- Count a provisioning. -/
def countUp (hal : StorePlatform S C) : Fallible (ContactStore S C × C) ContactStoreError UInt32 :=
  .zoom Prod.snd (fun c p ↦ (p.1, c)) (.orElse hal.counter.increment .counterError)

theorem countUp_of_ok {c c' : C} {v : UInt32} (h : hal.counter.increment c = (.ok v, c'))
    (s : ContactStore S C) : countUp hal (s, c) = (.ok v, (s, c')) := by
  rw [countUp, Fallible.zoom_apply, Fallible.orElse, h]

theorem countUp_of_error {c c' : C} {e : HalError} (h : hal.counter.increment c = (.error e, c'))
    (s : ContactStore S C) : countUp hal (s, c) = (.error .counterError, (s, c')) := by
  rw [countUp, Fallible.zoom_apply, Fallible.orElse, h]

theorem besideCounter_run {α : Type} {m : StoreM S C α} {r : Except ContactStoreError α}
    {s s' : ContactStore S C} (h : m s = (r, s')) (c : C) :
    besideCounter m (s, c) = (r, (s', c)) := by
  rw [besideCounter, Fallible.zoom_apply, h]

/-- What provisioning does once it has found the register and the marker zero. -/
def provisionErased (hal : StorePlatform S C) :
    Fallible (ContactStore S C × C) ContactStoreError PUnit := do
  besideCounter (eraseBand hal)
  besideCounter (updateIntegrity hal)
  let _ ← countUp hal
  besideCounter (writeProvisionMarker hal 1)
  besideCounter (.modify fun s ↦ { s with integrityGate := true })

theorem loadIntegrityRegister_of_read {s : ContactStore S C} {bytes : Bytes}
    (h : readAt hal.storage s.storage contactStoreIntegrityOffset 32 = .ok bytes) :
    loadIntegrityRegister hal s = (.ok ⟨⟩, { s with integrityRegister := .ofBytes 32 bytes }) := by
  have hread : (Fallible.reading fun s : ContactStore S C ↦
      readAt hal.storage s.storage contactStoreIntegrityOffset 32) s = (.ok bytes, s) := by
    rw [Fallible.reading_apply, h]
  rw [loadIntegrityRegister, bind_of_ok hread]
  rfl

theorem provisionFresh_of_zero {p : ContactStore S C × C}
    (hreg : readAt hal.storage p.1.storage contactStoreIntegrityOffset 32 = .ok (List.replicate 32 0))
    (hmark : readProvisionMarker hal p.1 = .ok 0) : provisionFresh hal p
      = provisionErased hal ({ p.1 with integrityRegister := .zero 32 }, p.2) := by
  have hload : besideCounter (loadIntegrityRegister hal) p
      = (.ok ⟨⟩, ({ p.1 with integrityRegister := .zero 32 }, p.2)) :=
    besideCounter_run (loadIntegrityRegister_of_read hreg) p.2
  have hzero : (Block.zero 32).toBytes.all (· = 0) = true := by decide
  have hread : (Fallible.reading fun q : ContactStore S C × C ↦ readProvisionMarker hal q.1)
      ({ p.1 with integrityRegister := .zero 32 }, p.2)
      = (.ok 0, ({ p.1 with integrityRegister := .zero 32 }, p.2)) :=
    Fallible.reading_eq_ok.mpr ⟨hmark, rfl⟩
  rw [provisionFresh, bind_of_ok hload, Fallible.gets_bind, bind_of_ok (require_of hzero _ _),
    bind_of_ok hread, bind_of_ok (require_of rfl _ _)]
  rfl

/-- It refuses a register or a marker that is set. -/
theorem provisionFresh_refused {p : ContactStore S C × C} {bytes : Bytes}
    (hreg : readAt hal.storage p.1.storage contactStoreIntegrityOffset 32 = .ok bytes)
    (hne : (Block.ofBytes 32 bytes).toBytes.all (· = 0) ≠ true) :
    provisionFresh hal p = (.error .alreadyProvisioned,
      ({ p.1 with integrityRegister := .ofBytes 32 bytes }, p.2)) := by
  have hload : besideCounter (loadIntegrityRegister hal) p
      = (.ok ⟨⟩, ({ p.1 with integrityRegister := .ofBytes 32 bytes }, p.2)) :=
    besideCounter_run (loadIntegrityRegister_of_read hreg) p.2
  rw [provisionFresh, bind_of_ok hload, Fallible.gets_bind, Fallible.bind_apply, Fallible.require,
    if_neg hne]
  rfl

theorem register_ne_zero {mem : Memory}
    (h : mem.window contactStoreIntegrityOffset 32 ≠ List.replicate 32 0) :
    (Block.ofBytes 32 (mem.window contactStoreIntegrityOffset 32)).toBytes.all (· = 0) ≠ true := by
  rw [Block.toBytes_ofBytes Memory.length_window]
  intro hall
  refine h (List.eq_replicate_iff.mpr ⟨Memory.length_window, fun b hb ↦ ?_⟩)
  exact of_decide_eq_true (List.all_eq_true.mp hall b hb)

/-- The memory after `n` chunks were erased. -/
def erased (mem : Memory) (n : ℕ) : Memory :=
  mem.patch contactRecordArrayOffset (List.replicate (n * 256) 0)

/-- Nothing but the band is erased. -/
theorem erased_window {mem : Memory} {n off len : ℕ} (hn : n ≤ 630)
    (hoff : contactStoreProvisionMarkerOffset ≤ off) :
    (erased mem n).window off len = mem.window off len := by
  refine Memory.window_patch_of_disjoint (.inr ?_)
  rw [contactStoreProvisionMarkerOffset_eq] at hoff
  rw [List.length_replicate, contactRecordArrayOffset_eq]
  omega

/-- The band holds nothing but zeros. -/
def EmptyBand (mem : Memory) : Prop :=
  ∀ off len, contactRecordArrayOffset ≤ off → off + len ≤ contactStoreProvisionMarkerOffset →
    mem.window off len = List.replicate len 0

theorem emptyBand_erased (mem : Memory) : EmptyBand (erased mem 630) := by
  intro off len hlo hhi
  refine Memory.window_patch_zeros mem hlo ?_
  rw [contactStoreProvisionMarkerOffset_eq] at hhi
  rw [contactRecordArrayOffset_eq]
  omega

theorem EmptyBand.patch {mem : Memory} (h : EmptyBand mem) {off : ℕ} (bs : Bytes)
    (hoff : contactStoreProvisionMarkerOffset ≤ off) : EmptyBand (mem.patch off bs) := by
  intro o len hlo hhi
  rw [Memory.window_patch_of_disjoint (.inl (Nat.le_trans hhi hoff)), h o len hlo hhi]

theorem EmptyBand.slotBytes {mem : Memory} (h : EmptyBand mem) (slot : UInt8) :
    (slotBytes mem slot).take 4 ≠ u32le contactRecordMagic := by
  have hle := recordOffset_add_le slot
  have hzero : ContactStore.slotBytes mem slot = List.replicate contactRecordBytes 0 :=
    h _ _ (Nat.le_add_right _ _) (Nat.le_trans hle (by decide))
  rw [hzero]
  decide

theorem foldl_eq_of_forall {α β : Type} {f : β → α → β} {b : β} {l : List α}
    (h : ∀ a ∈ l, f b a = b) : l.foldl f b = b := by
  induction l with
  | nil => rfl
  | cons a l ih =>
    rw [List.foldl_cons, h a List.mem_cons_self]
    exact ih fun a ha ↦ h a (List.mem_cons_of_mem _ ha)

/-- An index of inactive records is empty. -/
theorem rebuildFromRecords_inactive {records : List ContactRecord}
    (h : ∀ r ∈ records, r.isActive = false) : ContactIndex.rebuildFromRecords records = .new := by
  refine foldl_eq_of_forall fun p hp ↦ ?_
  have hinactive : p.1.isActive = false := h p.1 (List.fst_mem_of_mem_zipIdx hp)
  obtain ⟨r, slot⟩ := p
  exact if_neg (by rw [hinactive]; exact Bool.false_ne_true)

section Provisioning

variable (hf : hal.storage.Faithful contactStoreEnd memory) {k : Block 32}
include hf

/-- The digest of an empty band. -/
theorem EmptyBand.digest {s : ContactStore S C} (h : EmptyBand (memory s.storage))
    (hkey : hal.deriveSubkey s.masterKey .contactStoreIntegrity = .ok k) :
    computeIntegrityDigest hal s = .ok (hal.keyedHash k (List.replicate timingLogBytes 0)) := by
  rw [computeIntegrityDigest_empty hf hkey fun slot _ ↦ h.slotBytes slot,
    h timingLogOffset timingLogBytes (by decide) (Nat.le_refl _)]

/-- The records of an empty band. -/
theorem EmptyBand.records {s : ContactStore S C} (h : EmptyBand (memory s.storage)) :
    slots.mapM (readRecord hal s) = .ok (slots.map fun _ ↦ ContactRecord.default) := by
  have hread : ∀ slot : UInt8, readRecord hal s slot = .ok .default := by
    intro slot
    rw [readRecord, readRecord_bytes hf]
    exact if_pos (h.slotBytes slot)
  rw [funext hread]
  exact List.mapM_pure

/-- The run of a store whose register and marker are zero. -/
theorem provisionErased_run {s : ContactStore S C} {c c' : C} {v : UInt32}
    (hkey : hal.deriveSubkey s.masterKey .contactStoreIntegrity = .ok k)
    (hcount : hal.counter.increment c = (.ok v, c')) :
    (provisionErased hal (s, c)).1 = .ok ⟨⟩ := by
  obtain ⟨x, hchunks, hmem⟩ := eraseChunks_run hf 630 (s := s)
    (by decide : contactRecordArrayOffset + 630 * 256 ≤ contactStoreEnd)
  have hempty : EmptyBand (memory x) := by
    rw [hmem]
    exact emptyBand_erased _
  set s₁ : ContactStore S C := { s with
    storage := x, stringHeap := .new, keyRegion := .new, timingLog := .new, index := .new }
  have herase : eraseBand hal s = (.ok ⟨⟩, s₁) := by
    rw [eraseBand_eq, bind_of_ok hchunks]
    rfl
  obtain ⟨y, hupdate, -⟩ := updateIntegrity_run hf (hempty.digest hf hkey : computeIntegrityDigest hal s₁ = _)
  set s₂ : ContactStore S C := { s₁ with
    storage := y, integrityRegister := hal.keyedHash k (List.replicate timingLogBytes 0) }
  obtain ⟨z, hmarker, -⟩ := writeProvisionMarker_run hf s₂
  rw [provisionErased, bind_of_ok (besideCounter_run herase c), bind_of_ok (besideCounter_run hupdate c),
    bind_of_ok (countUp_of_ok hcount s₂), bind_of_ok (besideCounter_run hmarker c')]
  rfl

/-- What a run with a fuse of `n` writes leaves in memory. -/
theorem provisionErased_fused {s : ContactStore (S × ℕ) C} {n : ℕ} (hfuse : s.storage.2 = n)
    (hkey : hal.deriveSubkey s.masterKey .contactStoreIntegrity = .ok k) (c : C) :
    let mem := memory s.storage.1
    let mem' := memory (provisionErased hal.fused (s, c)).2.1.storage.1
    let registered := (erased mem 630).patch contactStoreIntegrityOffset
      (hal.keyedHash k (List.replicate timingLogBytes 0)).toBytes
    (n ≤ 630 → mem' = erased mem n) ∧
      (631 ≤ n → ((∃ e c', hal.counter.increment c = (.error e, c')) ∨ n = 631) → mem' = registered) ∧
      (631 < n → (∃ v c', hal.counter.increment c = (.ok v, c')) →
        mem' = registered.patch contactStoreProvisionMarkerOffset (u32le 1)) := by
  intro mem mem' registered
  obtain ⟨x, hchunks, hmem⟩ := eraseChunks_fused hf 630 (s := s)
    (by decide : contactRecordArrayOffset + 630 * 256 ≤ contactStoreEnd)
  rw [hfuse] at hchunks hmem
  rcases Nat.lt_or_ge n 630 with hlt | hge
  · -- the fuse blows while the band is erased
    rw [if_neg (by omega)] at hchunks
    have herase : eraseBand hal.fused s = (.error .storageWrite, { s with storage := (x, n - 630) }) := by
      rw [eraseBand_eq, bind_of_error hchunks]
    have hrun : (provisionErased hal.fused (s, c)).2.1.storage.1 = x := by
      rw [provisionErased, bind_of_error (besideCounter_run herase c)]
    refine ⟨fun _ ↦ ?_, fun h ↦ absurd h (by omega), fun h ↦ absurd h (by omega)⟩
    rw [Nat.min_eq_right (by omega)] at hmem
    change memory (provisionErased hal.fused (s, c)).2.1.storage.1 = _
    rw [hrun, hmem, erased]
  rw [if_pos hge] at hchunks
  rw [Nat.min_eq_left hge] at hmem
  have hempty : EmptyBand (memory x) := by
    rw [hmem]
    exact emptyBand_erased _
  set s₁ : ContactStore (S × ℕ) C := { s with
    storage := (x, n - 630), stringHeap := .new, keyRegion := .new, timingLog := .new, index := .new }
  have herase : eraseBand hal.fused s = (.ok ⟨⟩, s₁) := by
    rw [eraseBand_eq, bind_of_ok hchunks]
    rfl
  have hdigest : computeIntegrityDigest hal.fused s₁
      = .ok (hal.keyedHash k (List.replicate timingLogBytes 0)) := by
    rw [computeIntegrityDigest_fused]
    exact EmptyBand.digest hf (s := s₁.unfused) hempty hkey
  rw [show mem' = memory (provisionErased hal.fused (s, c)).2.1.storage.1 from rfl, provisionErased,
    bind_of_ok (besideCounter_run herase c)]
  rcases hleft : n - 630 with _ | m
  · -- before the register is written
    rw [bind_of_error (besideCounter_run (updateIntegrity_blown (s := s₁) hleft hdigest) c)]
    refine ⟨fun _ ↦ ?_, fun h ↦ absurd h (by omega), fun h ↦ absurd h (by omega)⟩
    change memory x = _
    rw [hmem, erased, show n = 630 by omega]
  obtain ⟨y, hupdate, hreg⟩ := updateIntegrity_fused hf (s := s₁) hleft hdigest
  have hreg : memory y = registered := hreg.trans (congrArg (Memory.patch · _ _) hmem)
  set s₂ : ContactStore (S × ℕ) C := { s₁ with
    storage := (y, m), integrityRegister := hal.keyedHash k (List.replicate timingLogBytes 0) }
  rw [bind_of_ok (besideCounter_run hupdate c)]
  rcases hcount : hal.fused.counter.increment c with ⟨e | v, c'⟩
  · have hfail : countUp hal.fused (s₂, c) = (.error .counterError, (s₂, c')) :=
      countUp_of_error hcount s₂
    rw [bind_of_error hfail]
    refine ⟨fun h ↦ absurd h (by omega), fun _ _ ↦ hreg, ?_⟩
    rintro - ⟨v, c'', h⟩
    cases h.symm.trans hcount
  have hcounted : countUp hal.fused (s₂, c) = (.ok v, (s₂, c')) := countUp_of_ok hcount s₂
  rw [bind_of_ok hcounted]
  rcases hm : m with _ | m'
  · -- between the register and the marker
    rw [bind_of_error (besideCounter_run (writeProvisionMarker_blown (s := s₂) hm) c')]
    exact ⟨fun h ↦ absurd h (by omega), fun _ _ ↦ hreg, fun h ↦ absurd h (by omega)⟩
  obtain ⟨z, hmarker, hmem'⟩ := writeProvisionMarker_fused hf (s := s₂) hm
  rw [bind_of_ok (besideCounter_run hmarker c')]
  refine ⟨fun h ↦ absurd h (by omega), ?_, fun _ _ ↦ ?_⟩
  · rintro - (⟨e, c'', h⟩ | h)
    · cases h.symm.trans hcount
    · omega
  · change memory z = _
    rw [hmem', show memory s₂.storage.1 = registered from hreg]

/-- Whether a storage can be provisioned, or opens without contacts. -/
def Recoverable (hal : StorePlatform S C) (key : Block 32) (counter provisioning : C) (x : S) : Prop :=
  (provisionFresh hal (new x counter key, provisioning)).1 = .ok ⟨⟩ ∨
    ∃ s, initOnBoot hal (new x counter key) = (.ok ⟨⟩, s) ∧ list hal s = .ok []

variable {key : Block 32} (hkey : hal.deriveSubkey key .contactStoreIntegrity = .ok k) {counter c c' : C}
  {v : UInt32}
include hkey

/-- A storage whose register and marker are zero can be provisioned. -/
theorem recoverable_of_zero {x : S}
    (hreg : (memory x).window contactStoreIntegrityOffset 32 = List.replicate 32 0)
    (hmark : u32OfLe ((memory x).window contactStoreProvisionMarkerOffset 4) = 0)
    (hcount : hal.counter.increment c = (.ok v, c')) : Recoverable hal key counter c x := by
  left
  have hread : readAt hal.storage x contactStoreIntegrityOffset 32 = .ok (List.replicate 32 0) := by
    rw [readAt_eq hf x (Nat.le_refl _), hreg]
  have hmarker : readProvisionMarker hal (new x counter key) = .ok 0 := by
    rw [readProvisionMarker_eq hf]
    exact congrArg Except.ok hmark
  rw [provisionFresh_of_zero (p := (new x counter key, c)) hread hmarker]
  exact provisionErased_run hf hkey hcount

omit hkey in
/-- A storage whose register is set and whose marker is not can be neither provisioned nor opened.
-/
theorem not_recoverable_of_register {x : S}
    (hreg : (memory x).window contactStoreIntegrityOffset 32 ≠ List.replicate 32 0)
    (hmark : u32OfLe ((memory x).window contactStoreProvisionMarkerOffset 4) = 0) :
    ¬ Recoverable hal key counter c x := by
  rintro (hprovision | ⟨s, hboot, -⟩)
  · have hread := readAt_eq hf x (Nat.le_refl (contactStoreIntegrityOffset + 32))
    rw [provisionFresh_refused (p := (new x counter key, c)) hread (register_ne_zero hreg)] at hprovision
    cases hprovision
  · obtain ⟨_, _, -, hmarker, -⟩ := initOnBoot_eq_ok hf hboot
    exact hmarker hmark

/-- A provisioned storage without contacts opens. -/
theorem recoverable_of_provisioned {x : S} (hempty : EmptyBand (memory x))
    (hreg : (memory x).window contactStoreIntegrityOffset 32
      = (hal.keyedHash k (List.replicate timingLogBytes 0)).toBytes)
    (hmark : u32OfLe ((memory x).window contactStoreProvisionMarkerOffset 4) ≠ 0) :
    Recoverable hal key counter c x := by
  have hboot := initOnBoot_eq hf (s := new x counter key) hmark (hempty.records hf)
    (hempty.digest hf hkey) hreg
  refine .inr ⟨_, hboot, ?_⟩
  have hinactive : ∀ r ∈ slots.map fun _ ↦ ContactRecord.default, r.isActive = false := by
    intro r hr
    obtain ⟨_, -, rfl⟩ := List.mem_map.mp hr
    rfl
  simp only [rebuildFromRecords_inactive hinactive]
  rfl

/-- **Provisioning.** Of a storage whose register and marker are zero, provisioning that is
interrupted after any number of writes, or by its counter, leaves a storage that can be provisioned
again or opens without contacts, but for one case: the register was written with a digest that is
not zero, and the marker was not. -/
theorem provisioning_recoverable_iff {x : S}
    (hreg : (memory x).window contactStoreIntegrityOffset 32 = List.replicate 32 0)
    (hmark : u32OfLe ((memory x).window contactStoreProvisionMarkerOffset 4) = 0)
    (hcount : hal.counter.increment c = (.ok v, c')) (c₀ : C) (n : ℕ) :
    Recoverable hal key counter c
        (provisionFresh hal.fused (new (x, n) counter key, c₀)).2.1.storage.1 ↔
      ¬ ((n = 631 ∨ 631 < n ∧ ∃ e c', hal.counter.increment c₀ = (.error e, c')) ∧
        hal.keyedHash k (List.replicate timingLogBytes 0) ≠ .zero 32) := by
  set d := hal.keyedHash k (List.replicate timingLogBytes 0)
  have hread : readAt hal.fused.storage (x, n) contactStoreIntegrityOffset 32
      = .ok (List.replicate 32 0) := by
    refine (readAt_eq hf x (Nat.le_refl _)).trans ?_
    rw [hreg]
  have hmarker : readProvisionMarker hal.fused (new (x, n) counter key) = .ok 0 :=
    (readProvisionMarker_eq hf (new x counter key)).trans (congrArg Except.ok hmark)
  have hprovision : provisionFresh hal.fused (new (x, n) counter key, c₀) = provisionErased hal.fused
      ({ new (x, n) counter key with integrityRegister := .zero 32 }, c₀) :=
    provisionFresh_of_zero hread hmarker
  rw [hprovision]
  obtain ⟨h₁, h₂, h₃⟩ := provisionErased_fused hf (n := n)
    (s := { new (x, n) counter key with integrityRegister := .zero 32 }) rfl hkey c₀
  set x' := (provisionErased hal.fused ({ new (x, n) counter key with
    integrityRegister := .zero 32 }, c₀)).2.1.storage.1
  set registered := (erased (memory x) 630).patch contactStoreIntegrityOffset d.toBytes
  have hearly : n ≤ 630 → memory x' = erased (memory x) n := h₁
  have hregistered : 631 ≤ n → ((∃ e c', hal.counter.increment c₀ = (.error e, c')) ∨ n = 631) →
      memory x' = registered := h₂
  have hdone : 631 < n → (∃ v c', hal.counter.increment c₀ = (.ok v, c')) →
      memory x' = registered.patch contactStoreProvisionMarkerOffset (u32le 1) := h₃
  have hregister : registered.window contactStoreIntegrityOffset 32 = d.toBytes := by
    have hwindow := Memory.window_patch (erased (memory x) 630) contactStoreIntegrityOffset d.toBytes
    rwa [d.length_toBytes] at hwindow
  have hunmarked : registered.window contactStoreProvisionMarkerOffset 4
      = (memory x).window contactStoreProvisionMarkerOffset 4 := by
    rw [Memory.window_patch_of_disjoint (.inl (by decide)),
      erased_window (Nat.le_refl _) (Nat.le_refl _)]
  rcases Nat.lt_or_ge 630 n with hlate | hle
  swap
  · refine iff_of_true (recoverable_of_zero hf hkey ?_ ?_ hcount) (by omega)
    · rw [hearly hle, erased_window hle (by decide), hreg]
    · rw [hearly hle, erased_window hle (Nat.le_refl _), hmark]
  by_cases hstop : n = 631 ∨ 631 < n ∧ ∃ e c', hal.counter.increment c₀ = (.error e, c')
  · have hmem' := hregistered hlate (hstop.symm.imp_left And.right)
    by_cases hzero : d = .zero 32
    · refine iff_of_true (recoverable_of_zero hf hkey ?_ ?_ hcount) fun h ↦ h.2 hzero
      · rw [hmem', hregister, hzero]
        rfl
      · rw [hmem', hunmarked, hmark]
    · refine iff_of_false (not_recoverable_of_register hf ?_ ?_) fun h ↦ h ⟨hstop, hzero⟩
      · rw [hmem', hregister]
        exact fun h ↦ hzero (Block.ext h)
      · rw [hmem', hunmarked, hmark]
  · have hlast : 631 < n := by
      rcases Nat.lt_or_ge 631 n with h | h
      · exact h
      · exact absurd (.inl (by omega)) hstop
    have hcounted : ∃ v c', hal.counter.increment c₀ = (.ok v, c') := by
      rcases hcount₀ : hal.counter.increment c₀ with ⟨e | v, c'⟩
      · exact absurd (.inr ⟨hlast, e, c', hcount₀⟩) hstop
      · exact ⟨v, c', rfl⟩
    have hmem' := hdone hlast hcounted
    refine iff_of_true (recoverable_of_provisioned hf hkey ?_ ?_ ?_) fun h ↦ hstop h.1
    · rw [hmem']
      exact ((emptyBand_erased _).patch _ (by decide)).patch _ (Nat.le_refl _)
    · rw [hmem', Memory.window_patch_of_disjoint (.inr (by rw [length_u32le]; decide)), hregister]
    · have hwindow := Memory.window_patch registered contactStoreProvisionMarkerOffset (u32le 1)
      rw [length_u32le] at hwindow
      rw [hmem', hwindow, u32OfLe_u32le]
      decide

end Provisioning

/-! ## A blank storage -/

/-- Interrupted after 300 writes, provisioning of a blank storage can be repeated. -/
theorem provisioning_recoverable_blank : Recoverable samplePlatform (.zero 32) 0 0
    (provisionFresh samplePlatform.fused (new (blank, 300) 0 (.zero 32), 0)).2.1.storage.1 :=
  (provisioning_recoverable_iff samplePlatform_faithful rfl (window_blank _ _)
    (by rw [window_blank]; decide) (rfl : samplePlatform.counter.increment 0 = (.ok 1, 1)) 0 300).mpr
    (by omega)

/-- **A storage that is stuck.** Interrupted after 631 writes, provisioning of a blank storage
leaves one that can be neither provisioned nor opened. -/
theorem provisioning_stuck : ¬ Recoverable samplePlatform (.zero 32) 0 0
    (provisionFresh samplePlatform.fused (new (blank, 631) 0 (.zero 32), 0)).2.1.storage.1 := by
  rw [provisioning_recoverable_iff samplePlatform_faithful rfl (window_blank _ _)
    (by rw [window_blank]; decide) (rfl : samplePlatform.counter.increment 0 = (.ok 1, 1)) 0 631]
  refine not_not_intro ⟨.inl rfl, ?_⟩
  rw [keyedHash_zeros]
  decide

end ContactStore

end Contacts

end Galdralag
