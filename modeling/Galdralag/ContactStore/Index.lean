import Galdralag.ContactStore.Record
import Galdralag.Foundation.SortedTable

/-!
# The fingerprint index

A table in working memory from 16-byte fingerprint prefixes to record slots, kept sorted by
prefix. The array of the source is the list of its entries in use.
-/

set_option linter.all false

namespace Galdralag.Contacts

/-- One hot-index entry. -/
structure IndexEntry where
  /-- First 16 bytes of the fingerprint. -/
  fingerprintPrefix : Bytes
  slot : UInt8
  flags : UInt8
  deriving DecidableEq, Repr

/-- Sorted fingerprint-prefix index. -/
structure ContactIndex where
  entries : List IndexEntry
  deriving DecidableEq, Repr

namespace ContactIndex

def new : ContactIndex := ⟨[]⟩

/-- Insert an entry before the first one with a larger prefix; the entry found there is replaced
if its prefix is the same. -/
def insert (index : ContactIndex) (fp : Block 32) (slot : UInt8) (flags : ContactFlags) :
    Except ContactStoreError ContactIndex :=
  let fpPrefix := fp.toBytes.take 16
  let newE : IndexEntry := ⟨fpPrefix, slot, flags.bits⟩
  let n := index.entries.length
  let pos := (index.entries.findIdx? fun e ↦ fpPrefix < e.fingerprintPrefix).getD n
  if (index.entries[pos]?).any fun e ↦ e.fingerprintPrefix == fpPrefix then
    .ok ⟨index.entries.set pos newE⟩
  else if n ≥ contactSlotCount then .error .recipientSlotsFull
  else .ok ⟨index.entries.take pos ++ newE :: index.entries.drop pos⟩

/-- Remove all entries for `slot`. -/
def remove (index : ContactIndex) (slot : UInt8) : ContactIndex :=
  ⟨index.entries.filter fun e ↦ e.slot != slot⟩

/-- Find slot by 16-byte prefix (the caller confirms the full fingerprint). -/
def lookupPrefix (index : ContactIndex) (fpPrefix : Bytes) : Option UInt8 :=
  (SortedTable.bisect IndexEntry.fingerprintPrefix index.entries fpPrefix 0
    index.entries.length).map IndexEntry.slot

/-- Update cached flags for a slot. -/
def updateFlags (index : ContactIndex) (slot : UInt8) (flags : ContactFlags) : ContactIndex :=
  ⟨index.entries.map fun e ↦ if e.slot = slot then { e with flags := flags.bits } else e⟩

/-- Rebuild from verified records; an active record that does not fit is skipped. -/
def rebuildFromRecords (records : List ContactRecord) : ContactIndex :=
  (records.zipIdx).foldl
    (fun index (r, slot) ↦
      if r.isActive then
        match index.insert r.fingerprint (.ofNat slot) r.contactFlags with
        | .ok index' => index'
        | .error _ => index
      else index)
    new

/-! ## The slots of an index -/

/-- The slots of the entries, in the order of their prefixes. -/
def slotsOf (index : ContactIndex) : List UInt8 := index.entries.map IndexEntry.slot

/-- A prefix that is found is larger than the one that is sought. -/
theorem any_prefix_eq_false (entries : List IndexEntry) (fpPrefix : Bytes) :
    (entries[(entries.findIdx? fun e ↦ fpPrefix < e.fingerprintPrefix).getD
      entries.length]?).any (fun e ↦ e.fingerprintPrefix == fpPrefix) = false := by
  rcases hentry : entries[SortedTable.position IndexEntry.fingerprintPrefix entries fpPrefix]? with _ | e
  · rw [SortedTable.position] at hentry
    rw [hentry, Option.any_none]
  · have hne := SortedTable.key_ne_of_getElem_position hentry
    rw [SortedTable.position] at hentry
    rw [hentry, Option.any_some]
    exact beq_eq_false_iff_ne.mpr hne

/-- The entry of a contact. -/
def entryOf (fp : Block 32) (slot : UInt8) (flags : ContactFlags) : IndexEntry :=
  ⟨fp.toBytes.take 16, slot, flags.bits⟩

/-- So an insertion adds an entry, in the order of the prefixes, until there are too many. -/
theorem insert_eq (index : ContactIndex) (fp : Block 32) (slot : UInt8) (flags : ContactFlags) :
    index.insert fp slot flags = if index.entries.length ≥ contactSlotCount then .error .recipientSlotsFull
      else .ok ⟨SortedTable.insert IndexEntry.fingerprintPrefix index.entries (entryOf fp slot flags)⟩ := by
  simp only [insert, any_prefix_eq_false, Bool.false_eq_true, if_false]
  rfl

/-- Where an entry is left, an insertion adds one for the slot and replaces none. -/
theorem insert_of_lt {index : ContactIndex} (h : index.slotsOf.length < contactSlotCount)
    (fp : Block 32) (slot : UInt8) (flags : ContactFlags) :
    ∃ index', index.insert fp slot flags = .ok index' ∧
      index'.slotsOf.Perm (slot :: index.slotsOf) := by
  have hlen : ¬ index.entries.length ≥ contactSlotCount := by
    rw [slotsOf, List.length_map] at h
    omega
  refine ⟨_, by rw [insert_eq, if_neg hlen], ?_⟩
  exact SortedTable.insert_perm.map IndexEntry.slot

@[simp] theorem slotsOf_remove (index : ContactIndex) (slot : UInt8) :
    (index.remove slot).slotsOf = index.slotsOf.filter (· != slot) := by
  rw [slotsOf, slotsOf, List.filter_map]
  rfl

/-- Other flags leave the rest of an entry. -/
theorem flagged_keeps (slot : UInt8) (flags : ContactFlags) (e : IndexEntry) :
    let e' := if e.slot = slot then { e with flags := flags.bits } else e
    e'.fingerprintPrefix = e.fingerprintPrefix ∧ e'.slot = e.slot := by
  dsimp only
  split_ifs <;> exact ⟨rfl, rfl⟩

@[simp] theorem slotsOf_updateFlags (index : ContactIndex) (slot : UInt8) (flags : ContactFlags) :
    (index.updateFlags slot flags).slotsOf = index.slotsOf := by
  rw [slotsOf, slotsOf, updateFlags, List.map_map]
  exact List.map_congr_left fun e _ ↦ (flagged_keeps slot flags e).2

/-! ## Rebuilding -/

/-- Rebuilding takes up the records one by one. -/
def rebuildStep (index : ContactIndex) (p : ContactRecord × ℕ) : ContactIndex :=
  if p.1.isActive then
    match index.insert p.1.fingerprint (.ofNat p.2) p.1.contactFlags with
    | .ok index' => index'
    | .error _ => index
  else index

theorem rebuildFromRecords_eq (records : List ContactRecord) :
    rebuildFromRecords records = records.zipIdx.foldl rebuildStep new := rfl

theorem entries_rebuildStep {index : ContactIndex} (h : index.entries.length < contactSlotCount)
    (p : ContactRecord × ℕ) : (rebuildStep index p).entries.Perm
      (if p.1.isActive then entryOf p.1.fingerprint (.ofNat p.2) p.1.contactFlags :: index.entries
        else index.entries) := by
  rw [rebuildStep]
  split_ifs with hactive
  · rw [insert_eq, if_neg (Nat.not_le.mpr h)]
    exact SortedTable.insert_perm
  · exact .refl _

/-- As long as there are no more records than entries, each active one gets an entry. -/
theorem entries_foldl_rebuildStep (ps : List (ContactRecord × ℕ)) : ∀ {index : ContactIndex},
    ps.length + index.entries.length ≤ contactSlotCount →
    (ps.foldl rebuildStep index).entries.Perm
      ((ps.filter fun p ↦ p.1.isActive).map
        (fun p ↦ entryOf p.1.fingerprint (.ofNat p.2) p.1.contactFlags) ++ index.entries) := by
  induction ps with
  | nil => exact fun _ ↦ .refl _
  | cons p ps ih =>
    intro index h
    rw [List.length_cons] at h
    have hlt : index.entries.length < contactSlotCount := by omega
    have hstep := entries_rebuildStep hlt p
    rw [List.foldl_cons]
    by_cases hactive : p.1.isActive = true
    · rw [if_pos hactive] at hstep
      have hlen := hstep.length_eq
      rw [List.length_cons] at hlen
      rw [List.filter_cons, if_pos hactive, List.map_cons, List.cons_append]
      refine (ih (by omega)).trans (.trans ?_ List.perm_middle)
      exact hstep.append_left _
    · rw [if_neg hactive] at hstep
      rw [List.filter_cons, if_neg hactive]
      refine (ih ?_).trans (hstep.append_left _)
      rw [hstep.length_eq]
      omega

/-- **Rebuilding.** The index has an entry for every active record. -/
theorem entries_rebuildFromRecords {records : List ContactRecord}
    (h : records.length ≤ contactSlotCount) : (rebuildFromRecords records).entries.Perm
      ((records.zipIdx.filter fun p ↦ p.1.isActive).map
        fun p ↦ entryOf p.1.fingerprint (.ofNat p.2) p.1.contactFlags) := by
  have hlen : records.zipIdx.length + new.entries.length ≤ contactSlotCount := by
    rw [List.length_zipIdx]
    exact h
  have hfold := entries_foldl_rebuildStep records.zipIdx hlen
  rwa [show new.entries = [] from rfl, List.append_nil] at hfold

theorem slotsOf_rebuildFromRecords {records : List ContactRecord}
    (h : records.length ≤ contactSlotCount) : (rebuildFromRecords records).slotsOf.Perm
      ((records.zipIdx.filter fun p ↦ p.1.isActive).map fun p ↦ UInt8.ofNat p.2) := by
  have hslots := (entries_rebuildFromRecords h).map IndexEntry.slot
  rw [List.map_map] at hslots
  exact hslots

end ContactIndex

end Galdralag.Contacts
