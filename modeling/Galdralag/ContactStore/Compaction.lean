import Galdralag.ContactStore.Regions
import Galdralag.Foundation.Relocation

/-!
# Compaction

Both regions can be compacted: what the active records refer to is moved to the start of the region,
one behind the other, and the references follow. The records are visited in the order of their slots
and not in that of their addresses. So a long string in an early slot may be moved onto a string of
a later slot that has not been moved yet.

The strings survive exactly when none is in the way of one that is moved before it.
-/

set_option linter.all false

namespace Galdralag.Contacts

variable {S : Type} {storage : VaultStorage S} {memory : S → Memory}

/-! ## The two loops -/

/-- The record with other string references, in the order in which they are stored. -/
def ContactRecord.withStringRefs (r : ContactRecord) (refs : List StringRef) : ContactRecord :=
  { r with
    email := refs.getD 0 .default
    displayName := refs.getD 1 .default
    badgeNumber := refs.getD 2 .default
    organisation := refs.getD 3 .default
    department := refs.getD 4 .default
    role := refs.getD 5 .default
    note := refs.getD 6 .default
    radioAffiliation := refs.getD 7 .default
    street := refs.getD 8 .default
    country := refs.getD 9 .default
    postalCode := refs.getD 10 .default
    region := refs.getD 11 .default
    fluxerId := refs.getD 12 .default
    discordId := refs.getD 13 .default
    ircId := refs.getD 14 .default }

namespace StringHeap

/-- Maximum live string bytes held in working memory during compaction. -/
def compactScratchBytes : ℕ := 54 * 256

/-- Move one string to the new bump pointer. -/
def compactRef (storage : VaultStorage S) :
    Fallible (StringRef × (UInt32 × S)) ContactStoreError PUnit := do
  let r ← .gets Prod.fst
  if r.isEmpty then pure ⟨⟩
  else
    .require (r.len.toNat ≤ compactScratchBytes) .heapFull
    let scratch ← .reading fun p ↦
      readAt storage p.2.2 (stringHeapOffset + r.offset.toNat) r.len.toNat
    let newBump ← .gets fun p ↦ p.2.1
    .require (newBump.toNat + r.len.toNat ≤ stringHeapBytes) .heapFull
    .zoom (fun p ↦ p.2.2) (fun s p ↦ (p.1, (p.2.1, s)))
      (writeAt storage (stringHeapOffset + newBump.toNat) scratch)
    .modify fun p ↦
      ({ p.1 with offset := newBump }, (saturatingAdd newBump r.len.toUInt32, p.2.2))

/-- Move the strings of an active record. -/
def compactRecord (storage : VaultStorage S) :
    Fallible (ContactRecord × (UInt32 × S)) ContactStoreError PUnit := fun p ↦
  if p.1.isActive then
    let moved := (compactRef storage).eachMut p.1.stringRefs p.2
    (moved.1, (p.1.withStringRefs moved.2.1, moved.2.2))
  else (.ok ⟨⟩, p)

/-- Rebuild the heap, rewriting live references in the records. -/
def compact (storage : VaultStorage S) :
    Fallible ((StringHeap × S) × List ContactRecord) ContactStoreError PUnit := fun p ↦
  match (compactRecord storage).eachMut p.2 (0, p.1.2) with
  | (.ok _, (records, (newBump, s))) => (.ok ⟨⟩, ((⟨newBump⟩, s), records))
  | (.error e, (records, (_, s))) => (.error e, ((p.1.1, s), records))

end StringHeap

namespace KeyMaterialRegion

/-- Move the key of an active record to the new bump pointer. -/
def compactRecord (storage : VaultStorage S) :
    Fallible (ContactRecord × (UInt32 × S)) ContactStoreError PUnit := do
  let r ← .gets Prod.fst
  if !r.isActive || r.keyLen == 0 then pure ⟨⟩
  else
    .require (r.keyLen.toNat ≤ maxPublicKeyBytes) .keyTooLarge
    let scratch ← .reading fun p ↦ read storage p.2.2 r.keyOffset r.keyLen r.keyLen.toNat
    let newBump ← .gets fun p ↦ p.2.1
    .require (newBump.toNat + r.keyLen.toNat ≤ keyRegionBytes) .heapFull
    .zoom (fun p ↦ p.2.2) (fun s p ↦ (p.1, (p.2.1, s)))
      (writeAt storage (keyRegionOffset + newBump.toNat) scratch)
    .modify fun p ↦
      ({ p.1 with keyOffset := newBump }, (saturatingAdd newBump r.keyLen.toUInt32, p.2.2))

/-- Compact live key blobs and rewrite offsets on active records. -/
def compact (storage : VaultStorage S) :
    Fallible ((KeyMaterialRegion × S) × List ContactRecord) ContactStoreError PUnit := fun p ↦
  match (compactRecord storage).eachMut p.2 (0, p.1.2) with
  | (.ok _, (records, (newBump, s))) => (.ok ⟨⟩, ((⟨newBump⟩, s), records))
  | (.error e, (records, (_, s))) => (.error e, ((p.1.1, s), records))

end KeyMaterialRegion

/-! ## What is promised -/

/-- The references of the active records, in the order of the records. -/
def activeRefs (records : List ContactRecord) : List StringRef :=
  (records.filter ContactRecord.isActive).flatMap ContactRecord.stringRefs

/-- One reference reads before as the other one does after. -/
def SameString (storage : VaultStorage S) (s s' : S) (r r' : StringRef) : Prop :=
  ∀ bufLen, StringHeap.read storage s' r' bufLen = StringHeap.read storage s r bufLen

/-- The key of an active record reads the same before and after. -/
def SameKey (storage : VaultStorage S) (s s' : S) (r r' : ContactRecord) : Prop :=
  r.isActive = true → ∀ bufLen, KeyMaterialRegion.read storage s' r'.keyOffset r'.keyLen bufLen
    = KeyMaterialRegion.read storage s r.keyOffset r.keyLen bufLen

/-- Whatever the heap holds, compaction leaves every live reference reading as before. -/
def StringHeap.CompactKeeps (storage : VaultStorage S) (records : List ContactRecord) : Prop :=
  ∀ heap s, List.Forall₂
    (SameString storage s ((StringHeap.compact storage) ((heap, s), records)).2.1.2)
    (activeRefs records) (activeRefs ((StringHeap.compact storage) ((heap, s), records)).2.2)

/-- Whatever the region holds, compaction leaves the key of every active record reading as before.
-/
def KeyMaterialRegion.CompactKeeps (storage : VaultStorage S) (records : List ContactRecord) :
    Prop :=
  ∀ keys s, List.Forall₂
    (SameKey storage s ((KeyMaterialRegion.compact storage) ((keys, s), records)).2.1.2)
    records ((KeyMaterialRegion.compact storage) ((keys, s), records)).2.2

/-- The bytes a reference stands for, if it is not empty. -/
def StringRef.span (r : StringRef) : Option Span :=
  if r.isEmpty then none else some ⟨stringHeapOffset + r.offset.toNat, r.len.toNat⟩

/-- The bytes of the key of an active record, if it has one. -/
def ContactRecord.keySpan (r : ContactRecord) : Option Span :=
  if !r.isActive || r.keyLen == 0 then none
  else some ⟨keyRegionOffset + r.keyOffset.toNat, r.keyLen.toNat⟩

open Memory (movedSpans stuckSpans Clear)

/-- No live string is in the way of one that is moved before it. -/
def StringHeap.Untangled (records : List ContactRecord) : Prop :=
  Clear stringHeapOffset
    (movedSpans compactScratchBytes stringHeapBytes 0
      ((activeRefs records).filterMap StringRef.span))
    (stuckSpans compactScratchBytes stringHeapBytes 0
      ((activeRefs records).filterMap StringRef.span))

/-- No live key is in the way of one that is moved before it. -/
def KeyMaterialRegion.Untangled (records : List ContactRecord) : Prop :=
  Clear keyRegionOffset
    (movedSpans maxPublicKeyBytes keyRegionBytes 0 (records.filterMap ContactRecord.keySpan))
    (stuckSpans maxPublicKeyBytes keyRegionBytes 0 (records.filterMap ContactRecord.keySpan))

/-! ## The steps of the loops -/

/-- Some contents of a storage tell two addresses apart. -/
theorem exists_apart {limit : ℕ} (hf : storage.Faithful limit memory) (s : S) {a b : ℕ}
    (ha : a < limit) (hb : b < limit) (hne : a ≠ b) : ∃ s', memory s' a ≠ memory s' b := by
  have hone := hf.memory_write s a [1] ha
  have hzero := hf.memory_write (storage.write a [1] s).2 b [0] hb
  refine ⟨(storage.write b [0] (storage.write a [1] s).2).2, ?_⟩
  have hat : ∀ (mem : Memory) (n : ℕ) (v : UInt8), mem.patch n [v] n = v := by
    intro mem n v
    have hfirst : mem.patch n [v] (n + 0) = [v][0] := Memory.patch_apply_add Nat.zero_lt_one
    exact hfirst
  have hoff : ∀ (mem : Memory) (v : UInt8), mem.patch b [v] a = mem a := by
    intro mem v
    rcases Nat.lt_or_gt_of_ne hne with hlt | hgt
    · exact Memory.patch_apply_of_lt hlt
    · exact Memory.patch_apply_of_ge hgt
  rw [hzero, hoff, hat, hone, hat]
  decide

/-- What both loops do with data of `len` bytes: read them whole, and write them at the new bump
pointer. -/
def moveData {α : Type} (storage : VaultStorage S) (base scratch cap : ℕ)
    (tooLong : ContactStoreError) (len : UInt16) (read : S → Except ContactStoreError Bytes)
    (place : UInt32 → α → α) : Fallible (α × (UInt32 × S)) ContactStoreError PUnit := do
  .require (len.toNat ≤ scratch) tooLong
  let bytes ← .reading fun p ↦ read p.2.2
  let newBump ← .gets fun p ↦ p.2.1
  .require (newBump.toNat + len.toNat ≤ cap) .heapFull
  .zoom (fun p ↦ p.2.2) (fun s p ↦ (p.1, (p.2.1, s))) (writeAt storage (base + newBump.toNat) bytes)
  .modify fun p ↦ (place newBump p.1, (saturatingAdd newBump len.toUInt32, p.2.2))

section MoveData

variable {α : Type} {base scratch cap : ℕ} {tooLong : ContactStoreError} {len : UInt16}
  {read : S → Except ContactStoreError Bytes} {place : UInt32 → α → α} {bytes : Bytes}

theorem moveData_run (hf : storage.Faithful contactStoreEnd memory)
    (hcap : base + cap ≤ contactStoreEnd) (x : α) {t : UInt32 × S} (hread : read t.2 = .ok bytes)
    (hlength : bytes.length = len.toNat) (hscratch : len.toNat ≤ scratch)
    (hroom : t.1.toNat + len.toNat ≤ cap) :
    ∃ t', moveData storage base scratch cap tooLong len read place (x, t)
        = (.ok ⟨⟩, (place t.1 x, t')) ∧
      t'.1.toNat = t.1.toNat + len.toNat ∧
      memory t'.2 = (memory t.2).patch (base + t.1.toNat) bytes := by
  obtain ⟨s', hwrite, hmem⟩ : ∃ s', writeAt storage (base + t.1.toNat) bytes t.2 = (.ok ⟨⟩, s') ∧
      memory s' = (memory t.2).patch (base + t.1.toNat) bytes := writeAt_run hf t.2 (by omega)
  refine ⟨(saturatingAdd t.1 len.toUInt32, s'), ?_, ?_, hmem⟩
  · rw [moveData, Fallible.bind_of_ok (Fallible.require_of hscratch _ _),
      Fallible.bind_of_ok (by rw [Fallible.reading_apply, hread]), Fallible.gets_bind,
      Fallible.bind_of_ok (Fallible.require_of hroom _ _), Fallible.bind_apply, Fallible.zoom_apply,
      hwrite]
    rfl
  · rw [contactStoreEnd_eq] at hcap
    rw [toNat_saturatingAdd, UInt16.toNat_toUInt32]
    omega

theorem moveData_stop (x : α) {t : UInt32 × S} (hread : read t.2 = .ok bytes)
    (hfits : ¬ (len.toNat ≤ scratch ∧ t.1.toNat + len.toNat ≤ cap)) :
    ∃ e, moveData storage base scratch cap tooLong len read place (x, t) = (.error e, (x, t)) := by
  rw [moveData]
  by_cases hscratch : len.toNat ≤ scratch
  · have hroom : ¬ t.1.toNat + len.toNat ≤ cap := fun hroom ↦ hfits ⟨hscratch, hroom⟩
    rw [Fallible.bind_of_ok (Fallible.require_of hscratch _ _),
      Fallible.bind_of_ok (by rw [Fallible.reading_apply, hread]), Fallible.gets_bind]
    refine ⟨.heapFull, Fallible.bind_of_error ?_⟩
    rw [Fallible.require, if_neg hroom, Fallible.fail_apply]
  · refine ⟨tooLong, Fallible.bind_of_error ?_⟩
    rw [Fallible.require, if_neg hscratch, Fallible.fail_apply]

end MoveData

theorem toNat_ofNat_of_room {n len cap : ℕ} (h : n + len ≤ cap) (hcap : cap < 2 ^ 32) :
    (UInt32.ofNat n).toNat = n := by
  rw [UInt32.toNat_ofNat', Nat.mod_eq_of_lt (by omega)]

theorem StringRef.span_eq_none {r : StringRef} (h : r.span = none) : r.isEmpty = true := by
  by_contra hne
  rw [span, if_neg hne] at h
  cases h

theorem StringRef.span_eq_some {r : StringRef} {q : Span} (h : r.span = some q) :
    r.isEmpty = false ∧ q = ⟨stringHeapOffset + r.offset.toNat, r.len.toNat⟩ := by
  rcases hempty : r.isEmpty with _ | _
  · rw [span, hempty] at h
    exact ⟨rfl, (Option.some.inj h).symm⟩
  · rw [span, hempty] at h
    cases h

theorem ContactRecord.keySpan_eq_none {r : ContactRecord} (h : r.keySpan = none) :
    (!r.isActive || r.keyLen == 0) = true := by
  by_contra hne
  rw [keySpan, if_neg hne] at h
  cases h

theorem ContactRecord.keySpan_eq_some {r : ContactRecord} {q : Span} (h : r.keySpan = some q) :
    (!r.isActive || r.keyLen == 0) = false ∧ r.isActive = true ∧
      q = ⟨keyRegionOffset + r.keyOffset.toNat, r.keyLen.toNat⟩ := by
  rcases hnone : (!r.isActive || r.keyLen == 0) with _ | _
  · have hlive := hnone
    rw [Bool.or_eq_false_iff, Bool.not_eq_false'] at hlive
    rw [keySpan, hnone] at h
    exact ⟨rfl, hlive.1, (Option.some.inj h).symm⟩
  · rw [keySpan, hnone] at h
    cases h

theorem StringHeap.compactRef_of_isEmpty {r : StringRef} (h : r.isEmpty = true) (t : UInt32 × S) :
    compactRef storage (r, t) = (.ok ⟨⟩, (r, t)) := by
  rw [compactRef, Fallible.gets_bind]
  dsimp only
  rw [if_pos h]
  rfl

theorem StringHeap.compactRef_of_not_isEmpty {r : StringRef} (h : r.isEmpty = false)
    (t : UInt32 × S) : compactRef storage (r, t)
      = moveData storage stringHeapOffset compactScratchBytes stringHeapBytes .heapFull r.len
        (fun s ↦ readAt storage s (stringHeapOffset + r.offset.toNat) r.len.toNat)
        (fun newBump r ↦ { r with offset := newBump }) (r, t) := by
  rw [compactRef, Fallible.gets_bind]
  dsimp only
  rw [if_neg (Bool.eq_false_iff.mp h)]
  rfl

theorem KeyMaterialRegion.compactRecord_of_skipped {r : ContactRecord}
    (h : (!r.isActive || r.keyLen == 0) = true) (t : UInt32 × S) :
    compactRecord storage (r, t) = (.ok ⟨⟩, (r, t)) := by
  rw [compactRecord, Fallible.gets_bind]
  dsimp only
  rw [if_pos h]
  rfl

theorem KeyMaterialRegion.compactRecord_of_not_skipped {r : ContactRecord}
    (h : (!r.isActive || r.keyLen == 0) = false) (t : UInt32 × S) : compactRecord storage (r, t)
      = moveData storage keyRegionOffset maxPublicKeyBytes keyRegionBytes .keyTooLarge r.keyLen
        (fun s ↦ read storage s r.keyOffset r.keyLen r.keyLen.toNat)
        (fun newBump r ↦ { r with keyOffset := newBump }) (r, t) := by
  rw [compactRecord, Fallible.gets_bind]
  dsimp only
  rw [if_neg (Bool.eq_false_iff.mp h)]
  rfl

section Faithful

variable (hf : storage.Faithful contactStoreEnd memory)
include hf

/-- The strings are moved one after the other. -/
theorem StringHeap.slides_compactRef : Memory.Slides stringHeapOffset compactScratchBytes
    stringHeapBytes (fun t : UInt32 × S ↦ t.1.toNat) (fun t ↦ memory t.2) StringRef.span
    (fun n r ↦ { r with offset := .ofNat n })
    (fun r ↦ r.offset.toNat + r.len.toNat ≤ stringHeapBytes) (compactRef storage) := by
  have hread : ∀ (r : StringRef) (s : S), r.offset.toNat + r.len.toNat ≤ stringHeapBytes →
      readAt storage s (stringHeapOffset + r.offset.toNat) r.len.toNat
        = .ok ((memory s).window (stringHeapOffset + r.offset.toNat) r.len.toNat) := by
    intro r s hvalid
    refine readAt_eq hf s ?_
    rw [stringHeapBytes_eq] at hvalid
    rw [stringHeapOffset_eq, contactStoreEnd_eq]
    omega
  constructor
  · intro r t _ hspan
    exact compactRef_of_isEmpty (StringRef.span_eq_none hspan) t
  · intro r t q hvalid hspan hscratch hroom
    obtain ⟨hempty, rfl⟩ := StringRef.span_eq_some hspan
    rw [compactRef_of_not_isEmpty hempty, UInt32.ofNat_toNat]
    exact moveData_run hf (by decide) r (hread r t.2 hvalid) Memory.length_window hscratch hroom
  · intro r t q hvalid hspan hfits
    obtain ⟨hempty, rfl⟩ := StringRef.span_eq_some hspan
    rw [compactRef_of_not_isEmpty hempty]
    exact moveData_stop r (hread r t.2 hvalid) hfits

/-- So are the keys. -/
theorem KeyMaterialRegion.slides_compactRecord : Memory.Slides keyRegionOffset maxPublicKeyBytes
    keyRegionBytes (fun t : UInt32 × S ↦ t.1.toNat) (fun t ↦ memory t.2) ContactRecord.keySpan
    (fun n r ↦ { r with keyOffset := .ofNat n })
    (fun r ↦ r.isActive = true → r.keyOffset.toNat + r.keyLen.toNat ≤ keyRegionBytes)
    (compactRecord storage) := by
  have hread : ∀ (r : ContactRecord) (s : S),
      r.keyOffset.toNat + r.keyLen.toNat ≤ keyRegionBytes →
      read storage s r.keyOffset r.keyLen r.keyLen.toNat
        = .ok ((memory s).window (keyRegionOffset + r.keyOffset.toNat) r.keyLen.toNat) :=
    fun _ s hvalid ↦ read_eq hf s (Nat.le_refl _) (.inr hvalid)
  constructor
  · intro r t _ hspan
    exact compactRecord_of_skipped (ContactRecord.keySpan_eq_none hspan) t
  · intro r t q hvalid hspan hscratch hroom
    obtain ⟨hlive, hactive, rfl⟩ := ContactRecord.keySpan_eq_some hspan
    rw [compactRecord_of_not_skipped hlive, UInt32.ofNat_toNat]
    exact moveData_run hf (by decide) r (hread r t.2 (hvalid hactive)) Memory.length_window
      hscratch hroom
  · intro r t q hvalid hspan hfits
    obtain ⟨hlive, hactive, rfl⟩ := ContactRecord.keySpan_eq_some hspan
    rw [compactRecord_of_not_skipped hlive]
    exact moveData_stop r (hread r t.2 (hvalid hactive)) hfits

end Faithful

/-! ## All strings in one loop -/

theorem ContactRecord.stringRefs_withStringRefs (r : ContactRecord) {refs : List StringRef}
    (h : refs.length = 15) : (r.withStringRefs refs).stringRefs = refs := by
  have hrange : (r.withStringRefs refs).stringRefs
      = (List.range 15).map fun i ↦ refs.getD i .default := rfl
  rw [hrange]
  apply List.ext_getElem
  · rw [List.length_map, List.length_range, h]
  · intro i hi hi'
    rw [List.getElem_map, List.getElem_range, List.getD_eq_getElem _ _ hi']

theorem activeRefs_cons_of_active {r : ContactRecord} (h : r.isActive = true)
    (records : List ContactRecord) :
    activeRefs (r :: records) = r.stringRefs ++ activeRefs records := by
  rw [activeRefs, List.filter_cons_of_pos h, List.flatMap_cons, activeRefs]

theorem activeRefs_cons_of_inactive {r : ContactRecord} (h : r.isActive = false)
    (records : List ContactRecord) : activeRefs (r :: records) = activeRefs records := by
  rw [activeRefs, List.filter_cons_of_neg (Bool.eq_false_iff.mp h), activeRefs]

/-- Compaction moves the strings as if they were all in one list. -/
theorem StringHeap.eachMut_compactRef (storage : VaultStorage S) (records : List ContactRecord) :
    ∀ t : UInt32 × S, (compactRef storage).eachMut (activeRefs records) t
      = (((compactRecord storage).eachMut records t).1,
        (activeRefs ((compactRecord storage).eachMut records t).2.1,
          ((compactRecord storage).eachMut records t).2.2)) := by
  induction records with
  | nil => exact fun _ ↦ rfl
  | cons r records ih =>
    intro t
    rcases hactive : r.isActive with _ | _
    · have hskip : compactRecord storage (r, t) = (.ok ⟨⟩, (r, t)) := by
        rw [compactRecord, if_neg (Bool.eq_false_iff.mp hactive)]
      rw [Fallible.eachMut_cons_of_ok hskip, activeRefs_cons_of_inactive hactive,
        activeRefs_cons_of_inactive hactive, ih t]
    have hlength : ((compactRef storage).eachMut r.stringRefs t).2.1.length = 15 :=
      Fallible.length_eachMut r.stringRefs t
    rcases hmoved : (compactRef storage).eachMut r.stringRefs t with ⟨e | _, refs, t₁⟩
    · have hstep : compactRecord storage (r, t) = (.error e, (r.withStringRefs refs, t₁)) := by
        rw [compactRecord, if_pos hactive, hmoved]
      have hactive' : (r.withStringRefs refs).isActive = true := hactive
      rw [hmoved] at hlength
      rw [activeRefs_cons_of_active hactive, Fallible.eachMut_append_of_error _ hmoved,
        Fallible.eachMut_cons_of_error hstep, activeRefs_cons_of_active hactive',
        ContactRecord.stringRefs_withStringRefs r hlength]
    · have hstep : compactRecord storage (r, t) = (.ok ⟨⟩, (r.withStringRefs refs, t₁)) := by
        rw [compactRecord, if_pos hactive, hmoved]
      have hactive' : (r.withStringRefs refs).isActive = true := hactive
      rw [hmoved] at hlength
      rw [activeRefs_cons_of_active hactive, Fallible.eachMut_append_of_ok _ hmoved,
        Fallible.eachMut_cons_of_ok hstep, activeRefs_cons_of_active hactive',
        ContactRecord.stringRefs_withStringRefs r hlength, ih t₁]

/-! ## What survives -/

/-- What the loop over all strings leaves is what compaction leaves. -/
theorem StringHeap.compact_eq (storage : VaultStorage S) (heap : StringHeap) (s : S)
    (records : List ContactRecord) :
    ((compact storage) ((heap, s), records)).2.1.2
        = ((compactRef storage).eachMut (activeRefs records) (0, s)).2.2.2 ∧
      activeRefs ((compact storage) ((heap, s), records)).2.2
        = ((compactRef storage).eachMut (activeRefs records) (0, s)).2.1 := by
  rw [eachMut_compactRef, compact]
  dsimp only
  rcases (compactRecord storage).eachMut records (0, s) with ⟨_ | _, records', newBump, s'⟩ <;>
    exact ⟨rfl, rfl⟩

theorem KeyMaterialRegion.compact_eq (storage : VaultStorage S) (keys : KeyMaterialRegion) (s : S)
    (records : List ContactRecord) :
    ((compact storage) ((keys, s), records)).2.1.2
        = ((compactRecord storage).eachMut records (0, s)).2.2.2 ∧
      ((compact storage) ((keys, s), records)).2.2
        = ((compactRecord storage).eachMut records (0, s)).2.1 := by
  rw [compact]
  dsimp only
  rcases (compactRecord storage).eachMut records (0, s) with ⟨_ | _, records', newBump, s'⟩ <;>
    exact ⟨rfl, rfl⟩

section Faithful

variable (hf : storage.Faithful contactStoreEnd memory)
include hf

/-- A reference that was moved reads as before when the bytes were. -/
theorem sameString_iff {s s' : S} {r r' : StringRef} (hempty : r.isEmpty = false)
    (hlen : r'.len = r.len) (hr : r.offset.toNat + r.len.toNat ≤ stringHeapBytes)
    (hr' : r'.offset.toNat + r.len.toNat ≤ stringHeapBytes) : SameString storage s s' r r' ↔
      (memory s').window (stringHeapOffset + r'.offset.toNat) r.len.toNat
        = (memory s).window (stringHeapOffset + r.offset.toNat) r.len.toNat := by
  have hread : ∀ {bufLen : ℕ}, r.len.toNat ≤ bufLen → StringHeap.read storage s r bufLen
      = .ok ((memory s).window (stringHeapOffset + r.offset.toNat) r.len.toNat) :=
    fun hle ↦ StringHeap.read_eq hf s hle hr
  have hread' : ∀ {bufLen : ℕ}, r.len.toNat ≤ bufLen → StringHeap.read storage s' r' bufLen
      = .ok ((memory s').window (stringHeapOffset + r'.offset.toNat) r.len.toNat) := by
    intro bufLen hle
    rw [← hlen] at hle hr' ⊢
    exact StringHeap.read_eq hf s' hle hr'
  constructor
  · intro h
    have hsame := h r.len.toNat
    rw [hread (Nat.le_refl _), hread' (Nat.le_refl _)] at hsame
    exact Except.ok.inj hsame
  · intro h bufLen
    by_cases hle : r.len.toNat ≤ bufLen
    · rw [hread hle, hread' hle, h]
    · have hnonempty : r'.isEmpty = false := by
        have hpos : r.len ≠ 0 := fun hzero ↦ hle (by rw [hzero]; exact Nat.zero_le _)
        rw [StringRef.isEmpty, hlen, beq_false_of_ne hpos, Bool.and_false]
      rw [StringHeap.read, StringHeap.read, hempty, hnonempty, hlen, if_neg Bool.false_ne_true,
        if_neg Bool.false_ne_true, if_pos (Nat.not_le.mp hle), if_pos (Nat.not_le.mp hle)]

/-- So does a key. -/
theorem sameKey_iff {s s' : S} {r r' : ContactRecord} (hactive : r.isActive = true)
    (hlen : r'.keyLen = r.keyLen) (hr : r.keyOffset.toNat + r.keyLen.toNat ≤ keyRegionBytes)
    (hr' : r'.keyOffset.toNat + r.keyLen.toNat ≤ keyRegionBytes) : SameKey storage s s' r r' ↔
      (memory s').window (keyRegionOffset + r'.keyOffset.toNat) r.keyLen.toNat
        = (memory s).window (keyRegionOffset + r.keyOffset.toNat) r.keyLen.toNat := by
  have hread : ∀ {bufLen : ℕ}, r.keyLen.toNat ≤ bufLen →
      KeyMaterialRegion.read storage s r.keyOffset r.keyLen bufLen
        = .ok ((memory s).window (keyRegionOffset + r.keyOffset.toNat) r.keyLen.toNat) :=
    fun hle ↦ KeyMaterialRegion.read_eq hf s hle (.inr hr)
  have hread' : ∀ {bufLen : ℕ}, r.keyLen.toNat ≤ bufLen →
      KeyMaterialRegion.read storage s' r'.keyOffset r.keyLen bufLen
        = .ok ((memory s').window (keyRegionOffset + r'.keyOffset.toNat) r.keyLen.toNat) :=
    fun hle ↦ KeyMaterialRegion.read_eq hf s' hle (.inr hr')
  rw [SameKey, hlen]
  constructor
  · intro h
    have hsame := h hactive r.keyLen.toNat
    rw [hread (Nat.le_refl _), hread' (Nat.le_refl _)] at hsame
    exact Except.ok.inj hsame
  · intro h _ bufLen
    by_cases hle : r.keyLen.toNat ≤ bufLen
    · rw [hread hle, hread' hle, h]
    · have hpos : ¬ r.keyLen = 0 := fun hzero ↦ hle (by rw [hzero]; exact Nat.zero_le _)
      rw [KeyMaterialRegion.read, KeyMaterialRegion.read, if_neg hpos, if_neg hpos,
        if_pos (Nat.not_le.mp hle), if_pos (Nat.not_le.mp hle)]

/-- In a region of the storage, some contents tell any two addresses apart. -/
theorem region_apart (s₀ : S) (lo hi : ℕ) (hhi : hi ≤ contactStoreEnd) (a b : ℕ) :
    lo ≤ a → a < hi → lo ≤ b → b < hi → a ≠ b → ∃ s, memory s a ≠ memory s b :=
  fun _ ha _ hb hne ↦ exists_apart hf s₀ (by omega) (by omega) hne

/-- **Strings.** Compaction keeps the live strings exactly when none is in the way of another. -/
theorem StringHeap.compactKeeps_iff (s₀ : S) {records : List ContactRecord}
    (hrefs : ∀ r ∈ activeRefs records, r.offset.toNat + r.len.toNat ≤ stringHeapBytes) :
    CompactKeeps storage records ↔ Untangled records := by
  have hloop : (∀ s : S, List.Forall₂
      (SameString storage s ((compactRef storage).eachMut (activeRefs records) (0, s)).2.2.2)
      (activeRefs records) ((compactRef storage).eachMut (activeRefs records) (0, s)).2.1) ↔
      Untangled records := by
    refine (slides_compactRef hf).keeps_iff_clear (fun s : S ↦ (0, s))
      (fun t t' ↦ SameString storage t.2 t'.2) (fun _ ↦ rfl)
      (region_apart hf s₀ stringHeapOffset (stringHeapOffset + stringHeapBytes) (by decide))
      ?_ ?_ ?_ hrefs ?_
    · intro t t' r _ hspan bufLen
      rw [read, read, if_pos (StringRef.span_eq_none hspan), if_pos (StringRef.span_eq_none hspan)]
    · intro t t' r q n hvalid hspan hroom
      obtain ⟨hempty, rfl⟩ := StringRef.span_eq_some hspan
      have hn : (UInt32.ofNat n).toNat = n := toNat_ofNat_of_room hroom (by decide)
      refine (sameString_iff hf hempty ?_ hvalid ?_).trans ?_
      · rfl
      · rwa [hn]
      · rw [hn]
    · intro t t' r q hvalid hspan
      obtain ⟨hempty, rfl⟩ := StringRef.span_eq_some hspan
      exact sameString_iff hf hempty rfl hvalid hvalid
    · intro r hr q hspan
      obtain ⟨-, rfl⟩ := StringRef.span_eq_some hspan
      have hend := hrefs r hr
      exact ⟨Nat.le_add_right _ _, by dsimp only; omega⟩
  rw [← hloop, CompactKeeps]
  constructor
  · intro h s
    obtain ⟨hs, hrecords⟩ := compact_eq storage new s records
    rw [← hs, ← hrecords]
    exact h new s
  · intro h heap s
    obtain ⟨hs, hrecords⟩ := compact_eq storage heap s records
    rw [hs, hrecords]
    exact h s

/-- **Keys.** So does the compaction of the key region. -/
theorem KeyMaterialRegion.compactKeeps_iff (s₀ : S) {records : List ContactRecord}
    (hkeys : ∀ r ∈ records, r.isActive = true →
      r.keyOffset.toNat + r.keyLen.toNat ≤ keyRegionBytes) :
    CompactKeeps storage records ↔ Untangled records := by
  have hloop : (∀ s : S, List.Forall₂
      (SameKey storage s ((compactRecord storage).eachMut records (0, s)).2.2.2)
      records ((compactRecord storage).eachMut records (0, s)).2.1) ↔ Untangled records := by
    refine (slides_compactRecord hf).keeps_iff_clear (fun s : S ↦ (0, s))
      (fun t t' ↦ SameKey storage t.2 t'.2) (fun _ ↦ rfl)
      (region_apart hf s₀ keyRegionOffset (keyRegionOffset + keyRegionBytes) (by decide))
      ?_ ?_ ?_ hkeys ?_
    · intro t t' r _ hspan hactive bufLen
      have hzero := ContactRecord.keySpan_eq_none hspan
      rw [hactive, Bool.not_true, Bool.false_or, beq_iff_eq] at hzero
      rw [read, read, if_pos hzero, if_pos hzero]
    · intro t t' r q n hvalid hspan hroom
      obtain ⟨-, hactive, rfl⟩ := ContactRecord.keySpan_eq_some hspan
      have hn : (UInt32.ofNat n).toNat = n := toNat_ofNat_of_room hroom (by decide)
      refine (sameKey_iff hf hactive ?_ (hvalid hactive) ?_).trans ?_
      · rfl
      · rwa [hn]
      · rw [hn]
    · intro t t' r q hvalid hspan
      obtain ⟨-, hactive, rfl⟩ := ContactRecord.keySpan_eq_some hspan
      exact sameKey_iff hf hactive rfl (hvalid hactive) (hvalid hactive)
    · intro r hr q hspan
      obtain ⟨-, hactive, rfl⟩ := ContactRecord.keySpan_eq_some hspan
      have hend := hkeys r hr hactive
      exact ⟨Nat.le_add_right _ _, by dsimp only; omega⟩
  rw [← hloop, CompactKeeps]
  constructor
  · intro h s
    obtain ⟨hs, hrecords⟩ := compact_eq storage new s records
    have hkeep := h new s
    rwa [hs, hrecords] at hkeep
  · intro h keys s
    obtain ⟨hs, hrecords⟩ := compact_eq storage keys s records
    rw [hs, hrecords]
    exact h s

/-- **Compaction.** Compaction keeps what the active records refer to, whatever the regions hold,
exactly when no live string is in the way of one that is moved before it, and no live key. -/
theorem compact_keeps_iff (s₀ : S) {records : List ContactRecord}
    (hrefs : ∀ r ∈ activeRefs records, r.offset.toNat + r.len.toNat ≤ stringHeapBytes)
    (hkeys : ∀ r ∈ records, r.isActive = true →
      r.keyOffset.toNat + r.keyLen.toNat ≤ keyRegionBytes) :
    (StringHeap.CompactKeeps storage records ↔ StringHeap.Untangled records) ∧
      (KeyMaterialRegion.CompactKeeps storage records ↔ KeyMaterialRegion.Untangled records) :=
  ⟨StringHeap.compactKeeps_iff hf s₀ hrefs, KeyMaterialRegion.compactKeeps_iff hf s₀ hkeys⟩

end Faithful

/-- The record of a contact with an e-mail and a key, and no other strings. -/
def recordAt (email : StringRef) (keyOffset : UInt32) (keyLen : UInt16) : ContactRecord :=
  { ContactRecord.default with
    magic := contactRecordMagic
    flags := ContactFlags.active.bits
    keyOffset := keyOffset
    keyLen := keyLen
    email := email }

/-- A store with two contacts, in the first of its 54 slots. -/
def twoRecords (first second : ContactRecord) : List ContactRecord :=
  first :: second :: List.replicate 52 .default

/-- Two contacts in the order of their addresses. -/
theorem compact_keeps_in_order :
    (StringHeap.CompactKeeps (rramVaultStorage 0)
        (twoRecords (recordAt ⟨10, 10⟩ 32 32) (recordAt ⟨20, 15⟩ 64 48)) ↔
      StringHeap.Untangled (twoRecords (recordAt ⟨10, 10⟩ 32 32) (recordAt ⟨20, 15⟩ 64 48))) ∧
    (KeyMaterialRegion.CompactKeeps (rramVaultStorage 0)
        (twoRecords (recordAt ⟨10, 10⟩ 32 32) (recordAt ⟨20, 15⟩ 64 48)) ↔
      KeyMaterialRegion.Untangled
        (twoRecords (recordAt ⟨10, 10⟩ 32 32) (recordAt ⟨20, 15⟩ 64 48))) :=
  compact_keeps_iff (rramVaultStorage_faithful 0 contactStoreEnd) (fun _ ↦ 0)
    (by decide) (by decide)

/-- A contact was deleted, and one with a longer e-mail and key got its slot: compaction moves these
onto the ones of the next slot. -/
theorem reused_slot_not_kept :
    ¬ StringHeap.CompactKeeps (rramVaultStorage 0)
        (twoRecords (recordAt ⟨20, 15⟩ 64 48) (recordAt ⟨10, 10⟩ 32 32)) ∧
      ¬ KeyMaterialRegion.CompactKeeps (rramVaultStorage 0)
        (twoRecords (recordAt ⟨20, 15⟩ 64 48) (recordAt ⟨10, 10⟩ 32 32)) := by
  have hf := rramVaultStorage_faithful 0 contactStoreEnd
  rw [StringHeap.compactKeeps_iff hf (fun _ ↦ 0) (by decide),
    KeyMaterialRegion.compactKeeps_iff hf (fun _ ↦ 0) (by decide)]
  have hstrings : movedSpans StringHeap.compactScratchBytes stringHeapBytes 0
      ((activeRefs (twoRecords (recordAt ⟨20, 15⟩ 64 48) (recordAt ⟨10, 10⟩ 32 32))).filterMap
        StringRef.span)
      = [⟨stringHeapOffset + 20, 15⟩, ⟨stringHeapOffset + 10, 10⟩] := by decide
  have hkeys : movedSpans maxPublicKeyBytes keyRegionBytes 0
      ((twoRecords (recordAt ⟨20, 15⟩ 64 48) (recordAt ⟨10, 10⟩ 32 32)).filterMap
        ContactRecord.keySpan)
      = [⟨keyRegionOffset + 64, 48⟩, ⟨keyRegionOffset + 32, 32⟩] := by decide
  constructor
  · intro h
    rw [StringHeap.Untangled, hstrings] at h
    exact absurd (h.before [_] _ [] rfl [] _ [] rfl) (by decide)
  · intro h
    rw [KeyMaterialRegion.Untangled, hkeys] at h
    exact absurd (h.before [_] _ [] rfl [] _ [] rfl) (by decide)

end Galdralag.Contacts
