import Galdralag.ContactStore.Record
import Galdralag.Hal

/-!
# The string heap and the key-material region

Both regions are bump allocators: an allocation writes at the bump pointer and advances it. An
allocator works on the pair of its own state and the storage it writes to.
-/

set_option linter.all false

namespace Galdralag.Contacts

variable {S : Type}

/-- Read storage, reporting any failure as a read error. -/
def readAt (storage : VaultStorage S) (s : S) (off len : ℕ) : Except ContactStoreError Bytes :=
  (storage.read s off len).mapError fun _ ↦ .storageRead

/-- Write storage, reporting any failure as a write error. -/
def writeAt (storage : VaultStorage S) (off : ℕ) (bytes : Bytes) :
    Fallible S ContactStoreError PUnit :=
  .orElse (storage.write off bytes) .storageWrite

/-- Run a storage operation on the second component. -/
def onStorage {σ α : Type} (m : Fallible S ContactStoreError α) :
    Fallible (σ × S) ContactStoreError α :=
  .zoom Prod.snd (fun s p ↦ (p.1, s)) m

/-! ## The allocators -/

/-- Bump allocator state for heap-backed strings. -/
structure StringHeap where
  bump : UInt32
  deriving DecidableEq, Repr

namespace StringHeap

def new : StringHeap := ⟨0⟩

/-- Restore the bump pointer after scanning live references on boot. -/
def setBump (_ : StringHeap) (bump : UInt32) : StringHeap :=
  ⟨if bump.toNat ≤ stringHeapBytes then bump else .ofNat stringHeapBytes⟩

/-- Write `bytes` at the bump pointer and advance. -/
def alloc (storage : VaultStorage S) (bytes : Bytes) :
    Fallible (StringHeap × S) ContactStoreError StringRef := do
  .require (bytes.length ≤ u32Max.toNat) .stringTooLong
  let len := UInt16.ofNat bytes.length
  let bump ← .gets fun p ↦ p.1.bump
  .require (bump.toNat + len.toNat ≤ stringHeapBytes) .heapFull
  onStorage (writeAt storage (stringHeapOffset + bump.toNat) bytes)
  .modify fun p ↦ (⟨saturatingAdd p.1.bump len.toUInt32⟩, p.2)
  pure ⟨bump, len⟩

/-- Read the bytes of a reference into a buffer of `bufLen` bytes. -/
def read (storage : VaultStorage S) (s : S) (r : StringRef) (bufLen : ℕ) :
    Except ContactStoreError Bytes :=
  if r.isEmpty then .ok []
  else if bufLen < r.len.toNat then .error .stringTooLong
  else if r.offset.toNat + r.len.toNat > stringHeapBytes then .error .corruptRecord
  else readAt storage s (stringHeapOffset + r.offset.toNat) r.len.toNat

/-- Remaining bytes in the heap. -/
def freeSpace (heap : StringHeap) : ℕ := stringHeapBytes - heap.bump.toNat

end StringHeap

/-- Bump allocator state for public-key blobs. -/
structure KeyMaterialRegion where
  bump : UInt32
  deriving DecidableEq, Repr

namespace KeyMaterialRegion

def new : KeyMaterialRegion := ⟨0⟩

/-- Restore the bump pointer after the boot scan. -/
def setBump (_ : KeyMaterialRegion) (bump : UInt32) : KeyMaterialRegion :=
  ⟨if bump.toNat ≤ keyRegionBytes then bump else .ofNat keyRegionBytes⟩

/-- Write key bytes; returns their offset and length within the region. -/
def alloc (storage : VaultStorage S) (keyBytes : Bytes) :
    Fallible (KeyMaterialRegion × S) ContactStoreError (UInt32 × UInt16) := do
  .require (keyBytes.length ≤ maxPublicKeyBytes) .keyTooLarge
  let len := UInt16.ofNat keyBytes.length
  let bump ← .gets fun p ↦ p.1.bump
  .require (bump.toNat + len.toNat ≤ keyRegionBytes) .heapFull
  onStorage (writeAt storage (keyRegionOffset + bump.toNat) keyBytes)
  .modify fun p ↦ (⟨saturatingAdd p.1.bump len.toUInt32⟩, p.2)
  pure (bump, len)

/-- Read `len` key bytes at `offset` into a buffer of `bufLen` bytes. -/
def read (storage : VaultStorage S) (s : S) (offset : UInt32) (len : UInt16) (bufLen : ℕ) :
    Except ContactStoreError Bytes :=
  if len = 0 then .ok []
  else if bufLen < len.toNat then .error .keyTooLarge
  else if offset.toNat + len.toNat > keyRegionBytes then .error .corruptRecord
  else readAt storage s (keyRegionOffset + offset.toNat) len.toNat

/-- Remaining bytes. -/
def freeSpace (keys : KeyMaterialRegion) : ℕ := keyRegionBytes - keys.bump.toNat

end KeyMaterialRegion

/-! ## On faithful storage -/

variable {storage : VaultStorage S} {memory : S → Memory}

theorem readAt_eq (hf : storage.Faithful contactStoreEnd memory) (s : S) {off len : ℕ}
    (h : off + len ≤ contactStoreEnd) :
    readAt storage s off len = .ok ((memory s).window off len) := by
  rw [readAt, hf.read_eq s off len h]
  rfl

/-- A write within the band succeeds and patches the memory. -/
theorem writeAt_run (hf : storage.Faithful contactStoreEnd memory) (s : S) {off : ℕ}
    {bytes : Bytes} (h : off + bytes.length ≤ contactStoreEnd) :
    ∃ s', writeAt storage off bytes s = (.ok ⟨⟩, s') ∧
      memory s' = (memory s).patch off bytes := by
  refine ⟨(storage.write off bytes s).2, ?_, hf.memory_write s off bytes h⟩
  rw [writeAt, Fallible.orElse, hf.write_eq s h]

/-- A string within the heap is read through its reference. -/
theorem StringHeap.read_eq (hf : storage.Faithful contactStoreEnd memory) (s : S) {r : StringRef}
    {bufLen : ℕ} (hlen : r.len.toNat ≤ bufLen)
    (hend : r.offset.toNat + r.len.toNat ≤ stringHeapBytes) : read storage s r bufLen
      = .ok ((memory s).window (stringHeapOffset + r.offset.toNat) r.len.toNat) := by
  rw [read]
  split_ifs with hempty hlong hfar
  · rw [StringRef.isEmpty, Bool.and_eq_true, beq_iff_eq, beq_iff_eq] at hempty
    rw [hempty.2]
    rfl
  · omega
  · omega
  · refine readAt_eq hf s ?_
    rw [stringHeapBytes_eq] at hend
    rw [stringHeapOffset_eq, contactStoreEnd_eq]
    omega

/-- So are key bytes within their region. -/
theorem KeyMaterialRegion.read_eq (hf : storage.Faithful contactStoreEnd memory) (s : S)
    {offset : UInt32} {len : UInt16} {bufLen : ℕ} (hlen : len.toNat ≤ bufLen)
    (hend : len = 0 ∨ offset.toNat + len.toNat ≤ keyRegionBytes) : read storage s offset len bufLen
      = .ok ((memory s).window (keyRegionOffset + offset.toNat) len.toNat) := by
  rw [read]
  split_ifs with hzero hlong hfar
  · rw [hzero]
    rfl
  · omega
  · exact absurd (hend.resolve_left hzero) (by omega)
  · have hend := hend.resolve_left hzero
    refine readAt_eq hf s ?_
    rw [keyRegionBytes_eq] at hend
    rw [keyRegionOffset_eq, contactStoreEnd_eq]
    omega

theorem toNat_ofNat_length {bytes : Bytes} (h : bytes.length < 2 ^ 16) :
    (UInt16.ofNat bytes.length).toNat = bytes.length := by
  rw [UInt16.toNat_ofNat', Nat.mod_eq_of_lt h]

/-- A string allocation that succeeds writes inside the heap, and nowhere else. -/
theorem StringHeap.alloc_writes (hf : storage.Faithful contactStoreEnd memory) {bytes : Bytes}
    (hlen : bytes.length < 2 ^ 16) {p p' : StringHeap × S} {r : StringRef}
    (h : alloc storage bytes p = (.ok r, p')) :
    ∃ off, stringHeapOffset ≤ off ∧ off + bytes.length ≤ keyRegionOffset ∧
      memory p'.2 = (memory p.2).patch off bytes := by
  simp only [alloc, Fallible.bind_eq_ok, Fallible.require_eq_ok, Fallible.gets_apply,
    Prod.mk.injEq, Except.ok.injEq, onStorage, Fallible.zoom_eq_ok, Fallible.modify_eq_ok,
    Fallible.pure_eq_ok] at h
  obtain ⟨-, _, ⟨-, rfl⟩, _, _, ⟨rfl, rfl⟩, -, _, ⟨hroom, rfl⟩, _, _, ⟨s', hw, rfl⟩, -, _, rfl, -,
    rfl⟩ := h
  rw [toNat_ofNat_length hlen] at hroom
  have hend : stringHeapOffset + p.1.bump.toNat + bytes.length ≤ contactStoreEnd := by
    rw [stringHeapBytes_eq] at hroom
    rw [stringHeapOffset_eq, contactStoreEnd_eq]
    omega
  obtain ⟨s'', hw', hmem⟩ := writeAt_run hf p.2 hend
  obtain rfl : s'' = s' := (Prod.mk.inj (hw'.symm.trans hw)).2
  refine ⟨_, Nat.le_add_right _ _, ?_, hmem⟩
  rw [stringHeapBytes_eq] at hroom
  rw [stringHeapOffset_eq, keyRegionOffset_eq]
  omega

/-- A key allocation that succeeds writes inside the key region, and nowhere else. -/
theorem KeyMaterialRegion.alloc_writes (hf : storage.Faithful contactStoreEnd memory)
    {keyBytes : Bytes} {p p' : KeyMaterialRegion × S} {r : UInt32 × UInt16}
    (h : alloc storage keyBytes p = (.ok r, p')) :
    ∃ off, keyRegionOffset ≤ off ∧ off + keyBytes.length ≤ timingLogOffset ∧
      memory p'.2 = (memory p.2).patch off keyBytes := by
  simp only [alloc, Fallible.bind_eq_ok, Fallible.require_eq_ok, Fallible.gets_apply,
    Prod.mk.injEq, Except.ok.injEq, onStorage, Fallible.zoom_eq_ok, Fallible.modify_eq_ok,
    Fallible.pure_eq_ok] at h
  obtain ⟨-, _, ⟨hmax, rfl⟩, _, _, ⟨rfl, rfl⟩, -, _, ⟨hroom, rfl⟩, _, _, ⟨s', hw, rfl⟩, -, _, rfl,
    -, rfl⟩ := h
  have hlen : keyBytes.length < 2 ^ 16 := Nat.lt_of_le_of_lt hmax (by decide)
  rw [toNat_ofNat_length hlen, keyRegionBytes_eq] at hroom
  have hend : keyRegionOffset + p.1.bump.toNat + keyBytes.length ≤ contactStoreEnd := by
    rw [keyRegionOffset_eq, contactStoreEnd_eq]
    omega
  obtain ⟨s'', hw', hmem⟩ := writeAt_run hf p.2 hend
  obtain rfl : s'' = s' := (Prod.mk.inj (hw'.symm.trans hw)).2
  refine ⟨_, Nat.le_add_right _ _, ?_, hmem⟩
  rw [keyRegionOffset_eq, timingLogOffset_eq]
  omega

end Galdralag.Contacts
