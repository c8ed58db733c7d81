import Galdralag.ContactStore.Regions

/-!
# The timing log

An append-only log of fetch times, one 16-byte entry each, numbered by a monotonic counter. When
the log is full its best entry per slot is applied to the records at hand and the log is cleared.
-/

set_option linter.all false

namespace Galdralag.Contacts

variable {S C : Type}

/-- Bytes of one entry. -/
def entryBytes : ℕ := 16

/-- Capacity of the log in entries. -/
def maxEntries : ℕ := timingLogBytes / entryBytes

/-- One timing-log entry. -/
structure TimingLogEntry where
  slot : UInt8
  lastFetched : UInt32
  /-- Sequence number for merge ordering. -/
  seq : UInt32
  entryCrc : UInt32
  deriving DecidableEq, Repr

namespace TimingLogEntry

/-- The twelve bytes under the checksum: slot, padding, time and sequence number. -/
def bodyForCrc (e : TimingLogEntry) : Bytes :=
  [e.slot, 0, 0, 0] ++ (u32le e.lastFetched ++ u32le e.seq)

def asBytes (e : TimingLogEntry) : Bytes := e.bodyForCrc ++ u32le e.entryCrc

def recomputeCrc (e : TimingLogEntry) : TimingLogEntry :=
  { e with entryCrc := crc32c e.bodyForCrc }

def fromBytes (bytes : Bytes) : Except ContactStoreError TimingLogEntry :=
  if bytes.all (· == 0) then .error .corruptLogEntry
  else
    let e : TimingLogEntry :=
      { slot := bytes.headD 0
        lastFetched := u32OfLe ((bytes.drop 4).take 4)
        seq := u32OfLe ((bytes.drop 8).take 4)
        entryCrc := u32OfLe ((bytes.drop 12).take 4) }
    if crc32c e.bodyForCrc = e.entryCrc then .ok e else .error .corruptLogEntry

@[simp] theorem length_asBytes (e : TimingLogEntry) : e.asBytes.length = 16 := by
  simp only [asBytes, bodyForCrc, List.length_append, List.length_cons, List.length_nil,
    length_u32le]

end TimingLogEntry

/-- Append-only timing log state: the number of unmerged entries. -/
structure TimingLog where
  count : ℕ
  deriving DecidableEq, Repr

namespace TimingLog

def new : TimingLog := ⟨0⟩

def entryOffset (index : ℕ) : ℕ := timingLogOffset + index * entryBytes

/-- Read one log entry by index. -/
def readEntry (storage : VaultStorage S) (s : S) (index : ℕ) :
    Except ContactStoreError TimingLogEntry := do
  TimingLogEntry.fromBytes (← readAt storage s (entryOffset index) entryBytes)

def writeEntry (storage : VaultStorage S) (index : ℕ) (e : TimingLogEntry) :
    Fallible S ContactStoreError PUnit :=
  writeAt storage (entryOffset index) e.asBytes

/-- For each slot, the highest sequence number among the first `count` entries and its time. -/
def best (storage : VaultStorage S) (s : S) (count : ℕ) :
    Except ContactStoreError (List (UInt32 × UInt32)) :=
  (List.range count).foldlM
    (fun best i ↦ do
      let e ← readEntry storage s i
      match best[e.slot.toNat]? with
      | none => pure best
      | some (seq, _) =>
        pure (if e.seq ≥ seq then best.set e.slot.toNat (e.seq, e.lastFetched) else best))
    (List.replicate contactSlotCount (0, 0))

/-- Give each active record the time of its slot, if the log has one. -/
def applyBest (best : List (UInt32 × UInt32)) (records : List ContactRecord) :
    List ContactRecord :=
  List.zipWith
    (fun b r ↦ if b.1 ≠ 0 ∧ r.isActive then { r with lastFetched := b.2 } else r) best records

/-- Zero every entry of the log. -/
def clear (storage : VaultStorage S) : Fallible (TimingLog × S) ContactStoreError PUnit := do
  onStorage (.each (fun i ↦ writeAt storage (entryOffset i) (List.replicate entryBytes 0))
    (List.range maxEntries))
  .modify fun p ↦ (⟨0⟩, p.2)

/-- Apply the highest-sequence updates per slot to `records`, then clear the log. -/
def merge (storage : VaultStorage S) (records : List ContactRecord) :
    Fallible (TimingLog × S) ContactStoreError (List ContactRecord) := do
  let b ← .reading fun p ↦ best storage p.2 p.1.count
  clear storage
  pure (applyBest b records)

/-- Merge a full log into `records`, so that there is room for one more entry. -/
def makeRoom (storage : VaultStorage S) (records : List ContactRecord) :
    Fallible (TimingLog × S) ContactStoreError (List ContactRecord) := do
  if (← .gets fun p ↦ p.1.count) ≥ maxEntries then merge storage records else pure records

/-- Write one entry behind the last one. -/
def push (storage : VaultStorage S) (e : TimingLogEntry) :
    Fallible (TimingLog × S) ContactStoreError PUnit := do
  let count ← .gets fun p ↦ p.1.count
  onStorage (writeEntry storage count e)
  .modify fun p ↦ (⟨p.1.count + 1⟩, p.2)

/-- Append a timing update; the sequence number comes from incrementing `counter`. A full log is
merged into `records` first. -/
def append (storage : VaultStorage S) (counter : MonotonicCounter C) (slot : UInt8)
    (lastFetched : UInt32) (records : List ContactRecord) :
    Fallible ((TimingLog × S) × C) ContactStoreError (List ContactRecord) := do
  let seq ← .zoom Prod.snd (fun c p ↦ (p.1, c)) (.orElse counter.increment .counterError)
  .zoom Prod.fst (fun l p ↦ (l, p.2)) do
    let records ← makeRoom storage records
    push storage (.recomputeCrc { slot, lastFetched, seq, entryCrc := 0 })
    pure records

/-! ## What the log touches -/

/-- Two memories with the same bytes outside the timing log. -/
def SameButLog (mem mem' : Memory) : Prop :=
  Memory.AgreeOn 0 timingLogOffset mem mem' ∧ ∀ hi, Memory.AgreeOn contactStoreRramEnd hi mem mem'

theorem SameButLog.refl (mem : Memory) : SameButLog mem mem :=
  ⟨fun _ _ _ ↦ rfl, fun _ _ _ _ ↦ rfl⟩

theorem SameButLog.trans {mem mem' mem'' : Memory} (h : SameButLog mem mem')
    (h' : SameButLog mem' mem'') : SameButLog mem mem'' :=
  ⟨h.1.trans h'.1, fun hi ↦ (h.2 hi).trans (h'.2 hi)⟩

theorem entryOffset_eq (i : ℕ) : entryOffset i = 221696 + i * 16 := rfl

theorem maxEntries_eq : maxEntries = 1024 := rfl

/-- A write of one entry's size at an index within the log. -/
theorem sameButLog_patch {mem : Memory} {i : ℕ} {bs : Bytes} (hi : i < maxEntries)
    (hlen : bs.length = 16) : SameButLog mem (mem.patch (entryOffset i) bs) := by
  have hend : contactStoreRramEnd = 238080 := rfl
  rw [maxEntries_eq] at hi
  constructor
  · intro a _ h
    rw [timingLogOffset_eq] at h
    refine (Memory.patch_apply_of_lt ?_).symm
    rw [entryOffset_eq]; omega
  · intro _ a h _
    refine (Memory.patch_apply_of_ge ?_).symm
    rw [entryOffset_eq, hlen]; omega

variable {storage : VaultStorage S} {memory : S → Memory}
  (hf : storage.Faithful contactStoreEnd memory)
include hf

theorem writeEntry_run (s : S) {i : ℕ} (hi : i < maxEntries) (bs : Bytes) (hlen : bs.length = 16) :
    ∃ s', writeAt storage (entryOffset i) bs s = (.ok ⟨⟩, s') ∧
      memory s' = (memory s).patch (entryOffset i) bs := by
  refine writeAt_run hf s ?_
  rw [maxEntries_eq] at hi
  rw [entryOffset_eq, hlen, contactStoreEnd_eq]
  omega

/-- Clearing succeeds, empties the log and touches nothing else. -/
theorem clear_run (p : TimingLog × S) : ∃ s', clear storage p = (.ok ⟨⟩, (⟨0⟩, s')) ∧
    SameButLog (memory p.2) (memory s') := by
  obtain ⟨s', hs', hsame⟩ := Fallible.each_total
    (g := fun i ↦ writeAt storage (entryOffset i) (List.replicate entryBytes 0))
    (I := fun _ s ↦ SameButLog (memory p.2) (memory s)) (l := List.range maxEntries)
    (fun i hi _ s hs ↦ by
      have hi' : i < maxEntries := List.mem_range.mp hi
      obtain ⟨s', hw, hmem⟩ := writeEntry_run hf s hi' (List.replicate entryBytes 0) rfl
      refine ⟨s', hw, hs.trans ?_⟩
      rw [hmem]
      exact sameButLog_patch hi' rfl)
    (d := []) (s := p.2) (.refl _)
  refine ⟨s', ?_, hsame⟩
  rw [clear, onStorage, Fallible.bind_apply, Fallible.zoom_apply, hs']
  rfl

/-- A merge touches only the log, and leaves it empty when it succeeds. -/
theorem merge_frame (records : List ContactRecord) (p : TimingLog × S) :
    SameButLog (memory p.2) (memory (merge storage records p).2.2) ∧
      ∀ rs, (merge storage records p).1 = .ok rs → (merge storage records p).2.1.count = 0 := by
  rcases hb : best storage p.2 p.1.count with e | b
  · have hm : merge storage records p = (.error e, p) := by
      rw [merge, Fallible.bind_of_error (by rw [Fallible.reading_apply, hb])]
    rw [hm]
    exact ⟨.refl _, nofun⟩
  · obtain ⟨s', hc, hsame⟩ := clear_run hf p
    have hm : merge storage records p = (.ok (applyBest b records), (⟨0⟩, s')) := by
      rw [merge, Fallible.bind_of_ok (by rw [Fallible.reading_apply, hb]), Fallible.bind_of_ok hc]
      rfl
    rw [hm]
    exact ⟨hsame, fun _ _ ↦ rfl⟩

/-- Making room touches only the log, and there is room when it succeeds. -/
theorem makeRoom_frame (records : List ContactRecord) (p : TimingLog × S) :
    SameButLog (memory p.2) (memory (makeRoom storage records p).2.2) ∧
      ∀ rs, (makeRoom storage records p).1 = .ok rs →
        (makeRoom storage records p).2.1.count < maxEntries := by
  rw [makeRoom, Fallible.gets_bind]
  split_ifs with hfull
  · obtain ⟨hsame, hempty⟩ := merge_frame hf records p
    exact ⟨hsame, fun rs hrs ↦ by rw [hempty rs hrs]; decide⟩
  · exact ⟨.refl _, fun _ _ ↦ Nat.lt_of_not_le hfull⟩

/-- Pushing an entry where there is room succeeds and touches only the log. -/
theorem push_run (p : TimingLog × S) (e : TimingLogEntry) (hroom : p.1.count < maxEntries) :
    ∃ s', push storage e p = (.ok ⟨⟩, (⟨p.1.count + 1⟩, s')) ∧
      memory s' = (memory p.2).patch (entryOffset p.1.count) e.asBytes := by
  obtain ⟨s', hw, hmem⟩ := writeEntry_run hf p.2 hroom _ e.length_asBytes
  refine ⟨s', ?_, hmem⟩
  rw [push, Fallible.gets_bind, Fallible.bind_apply, onStorage, Fallible.zoom_apply, writeEntry, hw]
  rfl

/-- **An append touches only the log.** Whatever its outcome, it increments the counter once and
changes no byte outside the log. -/
theorem append_frame (counter : MonotonicCounter C) (slot : UInt8) (lastFetched : UInt32)
    (records : List ContactRecord) (p : (TimingLog × S) × C) :
    let p' := (append storage counter slot lastFetched records p).2
    SameButLog (memory p.1.2) (memory p'.1.2) ∧ p'.2 = (counter.increment p.2).2 := by
  rcases hc : counter.increment p.2 with ⟨e | seq, c⟩
  · have ha : append storage counter slot lastFetched records p
        = (.error .counterError, (p.1, c)) := by
      rw [append, Fallible.bind_apply, Fallible.zoom_apply, Fallible.orElse, hc]
    rw [ha]
    exact ⟨.refl _, rfl⟩
  obtain ⟨hsame, hroom⟩ := makeRoom_frame hf records p.1
  have ha : append storage counter slot lastFetched records p = Fallible.zoom Prod.fst
      (fun l p ↦ (l, p.2)) (do
        let records ← makeRoom storage records
        push storage (.recomputeCrc { slot, lastFetched, seq, entryCrc := 0 })
        pure records) (p.1, c) := by
    rw [append, Fallible.bind_apply, Fallible.zoom_apply, Fallible.orElse, hc]
  rw [ha, Fallible.zoom_apply]
  rcases hm : makeRoom storage records p.1 with ⟨e | rs, q⟩
  · rw [Fallible.bind_of_error hm]
    rw [hm] at hsame
    exact ⟨hsame, rfl⟩
  · rw [hm] at hsame hroom
    have hq : q.1.count < maxEntries := hroom rs rfl
    obtain ⟨s', hp, hmem⟩ := push_run hf q
      (.recomputeCrc { slot, lastFetched, seq, entryCrc := 0 }) hq
    rw [Fallible.bind_of_ok hm, Fallible.bind_of_ok hp]
    refine ⟨hsame.trans ?_, rfl⟩
    change SameButLog (memory q.2) (memory s')
    rw [hmem]
    exact sameButLog_patch hq (TimingLogEntry.length_asBytes _)

end TimingLog

end Galdralag.Contacts
