import Galdralag.ContactStore.Index
import Mathlib.Data.List.Induction

/-!
# The order of the fingerprint index

The index is sorted by prefix after any sequence of calls, which is what its bisection relies on.

It is also documented to replace an entry with a prefix that is there. It does not: the position it
looks at is that of the first larger prefix, so the comparison with the prefix of the new entry
never succeeds, and a second entry with the same prefix is added. All promises are kept for as long
as no call gives a prefix a second time, and no longer.
-/

set_option linter.all false

namespace Galdralag.Contacts

namespace ContactIndex

/-- The prefixes of the entries, in their order. -/
def prefixes (index : ContactIndex) : List Bytes := index.entries.map IndexEntry.fingerprintPrefix

/-- The entries are sorted by prefix. -/
abbrev Sorted (index : ContactIndex) : Prop :=
  SortedTable.Sorted IndexEntry.fingerprintPrefix index.entries

/-- The representation invariant: sorted by prefix, and no prefix twice. -/
structure Ordered (index : ContactIndex) : Prop where
  sorted : index.Sorted
  nodup : index.prefixes.Nodup

/-- A call that changes the index. -/
inductive IndexCall where
  | insert (fp : Block 32) (slot : UInt8) (flags : ContactFlags)
  | remove (slot : UInt8)
  | rebuild (records : {records : List ContactRecord // records.length = contactSlotCount})

/-- The index after an insertion; one that fails leaves it as it was. -/
def inserted (index : ContactIndex) (fp : Block 32) (slot : UInt8) (flags : ContactFlags) :
    ContactIndex :=
  (index.insert fp slot flags).toOption.getD index

/-- The index after a call. -/
def IndexCall.after (index : ContactIndex) : IndexCall → ContactIndex
  | insert fp slot flags => index.inserted fp slot flags
  | remove slot => index.remove slot
  | rebuild records => rebuildFromRecords records.1

/-- The index after some calls, from the empty one on. -/
def afterAll (calls : List IndexCall) : ContactIndex := calls.foldl IndexCall.after new

/-- What is promised of a call: it leaves the index ordered; and to insert a prefix that is there
replaces its entry, and no other one. -/
structure Keeps (index : ContactIndex) (call : IndexCall) : Prop where
  ordered : (call.after index).Ordered
  replaced : ∀ fp slot flags, call = .insert fp slot flags → fp.toBytes.take 16 ∈ index.prefixes →
    index.insert fp slot flags = .ok ⟨index.entries.map fun e ↦
      if e.fingerprintPrefix = fp.toBytes.take 16 then entryOf fp slot flags else e⟩

/-- The prefixes of the active records. -/
def activePrefixes (records : List ContactRecord) : List Bytes :=
  (records.filter ContactRecord.isActive).map fun r ↦ r.fingerprint.toBytes.take 16

/-- A call that gives no prefix a second time. -/
def IndexCall.Fresh (index : ContactIndex) : IndexCall → Prop
  | insert fp _ _ => fp.toBytes.take 16 ∉ index.prefixes
  | remove _ => True
  | rebuild records => (activePrefixes records.1).Nodup

variable {index : ContactIndex}

/-! ## Sorted -/

theorem inserted_eq (index : ContactIndex) (fp : Block 32) (slot : UInt8) (flags : ContactFlags) :
    index.inserted fp slot flags = if index.entries.length ≥ contactSlotCount then index
      else ⟨SortedTable.insert IndexEntry.fingerprintPrefix index.entries
        (entryOf fp slot flags)⟩ := by
  rw [inserted, insert_eq]
  split_ifs <;> rfl

theorem Sorted.inserted (h : index.Sorted) (fp : Block 32) (slot : UInt8) (flags : ContactFlags) :
    (index.inserted fp slot flags).Sorted := by
  rw [inserted_eq]
  split_ifs
  · exact h
  · exact SortedTable.Sorted.insert h _

theorem Sorted.remove (h : index.Sorted) (slot : UInt8) : (index.remove slot).Sorted :=
  h.sublist List.filter_sublist

theorem sorted_new : new.Sorted := List.Pairwise.nil

theorem rebuildStep_eq (index : ContactIndex) (p : ContactRecord × ℕ) : rebuildStep index p =
    if p.1.isActive then index.inserted p.1.fingerprint (.ofNat p.2) p.1.contactFlags
    else index := by
  rw [rebuildStep, inserted]
  rcases index.insert p.1.fingerprint (.ofNat p.2) p.1.contactFlags with _ | _ <;> rfl

theorem sorted_rebuildFromRecords (records : List ContactRecord) :
    (rebuildFromRecords records).Sorted := by
  rw [rebuildFromRecords_eq]
  induction records.zipIdx using List.reverseRecOn with
  | nil => exact sorted_new
  | append_singleton ps p ih =>
    rw [List.foldl_concat, rebuildStep_eq]
    split_ifs
    · exact ih.inserted _ _ _
    · exact ih

theorem sorted_after (h : index.Sorted) (call : IndexCall) : (call.after index).Sorted := by
  cases call with
  | insert fp slot flags => exact h.inserted fp slot flags
  | remove slot => exact h.remove slot
  | rebuild records => exact sorted_rebuildFromRecords records.1

/-- **Sorted.** So the index is sorted after any calls. -/
theorem sorted_afterAll (calls : List IndexCall) : (afterAll calls).Sorted := by
  induction calls using List.reverseRecOn with
  | nil => exact sorted_new
  | append_singleton calls call ih =>
    rw [afterAll, List.foldl_concat]
    exact sorted_after ih call

/-! ## No prefix twice -/

theorem prefixes_inserted (h : ¬ index.entries.length ≥ contactSlotCount) (fp : Block 32)
    (slot : UInt8) (flags : ContactFlags) :
    (index.inserted fp slot flags).prefixes.Perm (fp.toBytes.take 16 :: index.prefixes) := by
  rw [inserted_eq, if_neg h]
  exact SortedTable.insert_perm.map IndexEntry.fingerprintPrefix

theorem prefixes_rebuildFromRecords {records : List ContactRecord}
    (h : records.length ≤ contactSlotCount) :
    (rebuildFromRecords records).prefixes.Perm (activePrefixes records) := by
  have hprefixes := (entries_rebuildFromRecords h).map IndexEntry.fingerprintPrefix
  have hactive : (records.zipIdx.filter fun p ↦ p.1.isActive).map
      (fun p ↦ p.1.fingerprint.toBytes.take 16) = activePrefixes records := by
    rw [activePrefixes]
    nth_rewrite 2 [← List.zipIdx_map_fst 0 records]
    rw [List.filter_map, List.map_map]
    rfl
  rw [List.map_map] at hprefixes
  rw [← hactive]
  exact hprefixes

/-- A fresh call leaves an ordered index ordered. -/
theorem Ordered.after (h : index.Ordered) {call : IndexCall} (hfresh : call.Fresh index) :
    (call.after index).Ordered := by
  refine ⟨sorted_after h.sorted call, ?_⟩
  cases call with
  | insert fp slot flags =>
    by_cases hfull : index.entries.length ≥ contactSlotCount
    · rw [IndexCall.after, inserted_eq, if_pos hfull]
      exact h.nodup
    · refine (prefixes_inserted hfull fp slot flags).nodup_iff.mpr ?_
      exact List.nodup_cons.mpr ⟨hfresh, h.nodup⟩
  | remove slot => exact h.nodup.sublist (List.filter_sublist.map _)
  | rebuild records =>
    exact (prefixes_rebuildFromRecords (Nat.le_of_eq records.2)).nodup_iff.mpr hfresh

theorem Ordered.keeps (h : index.Ordered) {call : IndexCall} (hfresh : call.Fresh index) :
    Keeps index call := by
  refine ⟨h.after hfresh, ?_⟩
  rintro fp slot flags rfl hmem
  exact absurd hmem hfresh

/-- Nothing is ever replaced: an insertion that succeeds adds an entry. -/
theorem insert_ne_map (fp : Block 32) (slot : UInt8) (flags : ContactFlags)
    (f : IndexEntry → IndexEntry) : index.insert fp slot flags ≠ .ok ⟨index.entries.map f⟩ := by
  intro h
  rw [insert_eq] at h
  split_ifs at h
  have hlen := congrArg List.length (ContactIndex.mk.inj (Except.ok.inj h))
  rw [SortedTable.length_insert, List.length_map] at hlen
  omega

theorem Keeps.fresh {call : IndexCall} (h : Keeps index call) : call.Fresh index := by
  cases call with
  | insert fp slot flags =>
    exact fun hmem ↦ insert_ne_map fp slot flags _ (h.replaced fp slot flags rfl hmem)
  | remove slot => exact trivial
  | rebuild records =>
    exact (prefixes_rebuildFromRecords (Nat.le_of_eq records.2)).nodup_iff.mp h.ordered.nodup

/-- **The representation invariant.** Over any sequence of calls, every call does what is promised
exactly when no call gives a prefix that is there already. -/
theorem keeps_iff_fresh (calls : List IndexCall) :
    (∀ pre call post, calls = pre ++ call :: post → Keeps (afterAll pre) call) ↔
      ∀ pre call post, calls = pre ++ call :: post → call.Fresh (afterAll pre) := by
  constructor
  · exact fun h pre call post hcalls ↦ (h pre call post hcalls).fresh
  intro h pre call post hcalls
  refine Ordered.keeps ?_ (h pre call post hcalls)
  -- the calls before it were fresh, too
  induction pre using List.reverseRecOn generalizing call post with
  | nil => exact ⟨sorted_new, List.nodup_nil⟩
  | append_singleton pre last ih =>
    rw [List.append_assoc, List.singleton_append] at hcalls
    rw [afterAll, List.foldl_concat]
    exact (ih last (call :: post) hcalls).after (h pre last (call :: post) hcalls)

/-- The same fingerprint, inserted for two slots. -/
theorem insert_twice_not_kept : ¬ ∀ pre call post,
    [IndexCall.insert (.zero 32) 4 .active, .insert (.zero 32) 5 .active] = pre ++ call :: post →
      Keeps (afterAll pre) call := by
  intro h
  have hkeeps := h [.insert (.zero 32) 4 .active] (.insert (.zero 32) 5 .active) [] rfl
  have hprefixes : ((IndexCall.insert (.zero 32) 5 .active).after
      (afterAll [.insert (.zero 32) 4 .active])).prefixes
        = [List.replicate 16 0, List.replicate 16 0] := by
    decide +kernel
  have hnodup := hkeeps.ordered.nodup
  rw [hprefixes] at hnodup
  exact absurd hnodup (by decide)

end ContactIndex

end Galdralag.Contacts
