import Galdralag.ContactStore.IndexOrder
import Galdralag.ContactStore.Reachable

/-!
# Looking up a fingerprint

The index keeps the first 16 bytes of every fingerprint. A lookup asks it for one slot with these
bytes and compares the whole fingerprint with the record there. The index is right in every
reachable store: it is sorted, it has an entry for every active record and no others, and each has
the bytes of its record. But where the first 16 bytes of two fingerprints are the same, the
bisection comes upon one of their entries, and the contact of the other one is never found.
-/

set_option linter.all false

namespace Galdralag.Contacts

namespace ContactStore

open Fallible (bind_of_ok bind_of_error)

variable {S C : Type} {hal : StorePlatform S C} {memory : S → Memory} {s s₁ : ContactStore S C}
  {mem mem' : Memory} {index : ContactIndex} {heap keys : ℕ} {slot : UInt8} {r : ContactRecord}

/-! ## Lookup -/

/-- The part of a fingerprint that the index keeps. -/
def prefixOf (fp : Block 32) : Bytes := fp.toBytes.take 16

/-- The slot of a fingerprint; the whole fingerprint is compared with the record. -/
def lookupSlotByFp (hal : StorePlatform S C) (s : ContactStore S C) (fp : Block 32) :
    Except ContactStoreError UInt8 := do
  let _ ← ensure (s.integrityGate = true) .notInitialised
  let slot ← (s.index.lookupPrefix (prefixOf fp)).elim (.error .slotNotFound) .ok
  let r ← readRecord hal s slot
  let _ ← ensure (r.fingerprint = fp) .slotNotFound
  pure slot

/-- Lookup by full fingerprint. -/
def lookupByFingerprint (hal : StorePlatform S C) (s : ContactStore S C) (fp : Block 32) :
    Except ContactStoreError ContactRecord := do
  readRecord hal s (← lookupSlotByFp hal s fp)

/-- The store has an active record `r` with the fingerprint. -/
def HasRecord (memory : S → Memory) (s : ContactStore S C) (fp : Block 32) (r : ContactRecord) :
    Prop :=
  ∃ slot ∈ slots, recordIn (memory s.storage) slot = r ∧ r.isActive = true ∧ r.fingerprint = fp

/-- A fingerprint is looked up right: an active record with it is returned if there is one, and
otherwise it is not found. -/
structure LooksUp (hal : StorePlatform S C) (memory : S → Memory) (s : ContactStore S C)
    (fp : Block 32) : Prop where
  complete : (∃ r, HasRecord memory s fp r) →
    ∃ r, lookupByFingerprint hal s fp = .ok r ∧ HasRecord memory s fp r
  sound : (¬ ∃ r, HasRecord memory s fp r) → lookupByFingerprint hal s fp = .error .slotNotFound

/-- Active records whose fingerprints start with the same 16 bytes have the same fingerprint. -/
def DistinctPrefixes (memory : S → Memory) (s : ContactStore S C) : Prop :=
  ∀ fp fp' r r', HasRecord memory s fp r → HasRecord memory s fp' r' →
    prefixOf fp = prefixOf fp' → fp = fp'

/-! ## The index lists the prefixes -/

/-- The entries are sorted, and each has the prefix of the record in its slot. -/
structure Catalogued (mem : Memory) (index : ContactIndex) : Prop where
  sorted : index.Sorted
  prefix_eq : ∀ e ∈ index.entries,
    e.fingerprintPrefix = prefixOf (recordIn mem e.slot).fingerprint

theorem mem_slotsOf {e : IndexEntry} (he : e ∈ index.entries) : e.slot ∈ index.slotsOf :=
  List.mem_map_of_mem he

/-- It is so for as long as the records stay. -/
theorem Catalogued.congr (h : Catalogued mem index)
    (hsame : ∀ slot ∈ index.slotsOf, recordIn mem' slot = recordIn mem slot) :
    Catalogued mem' index := by
  refine ⟨h.sorted, fun e he ↦ ?_⟩
  rw [hsame e.slot (mem_slotsOf he)]
  exact h.prefix_eq e he

theorem Catalogued.of_intact (h : Catalogued mem index) (hof : IndexOf mem index)
    (hintact : Intact heap keys mem mem') : Catalogued mem' index :=
  h.congr fun slot hslot ↦ recordIn_congr hintact ((hof.mem_iff slot).mp hslot).1

/-- An empty slot is filled, and entered. -/
theorem Catalogued.insert {index' : ContactIndex} (h : Catalogued mem index)
    (hnew : slot ∉ index.slotsOf) (hmagic : r.magic = contactRecordMagic) (flags : ContactFlags)
    (hinsert : index.insert r.fingerprint slot flags = .ok index') :
    Catalogued (written mem slot r) index' := by
  rw [ContactIndex.insert_eq] at hinsert
  split_ifs at hinsert
  obtain rfl := Except.ok.inj hinsert
  refine ⟨SortedTable.Sorted.insert h.sorted _, fun e he ↦ ?_⟩
  rcases SortedTable.mem_insert.mp he with rfl | he
  · rw [ContactIndex.entryOf, recordIn_written_self hmagic]
    rfl
  · have hne : e.slot ≠ slot := fun heq ↦ hnew (heq ▸ mem_slotsOf he)
    rw [recordIn_written_of_ne hne]
    exact h.prefix_eq e he

/-- A slot is emptied, and its entry goes. -/
theorem Catalogued.remove (h : Catalogued mem index) (slot : UInt8) (r : ContactRecord) :
    Catalogued (written mem slot r) (index.remove slot) := by
  refine ⟨h.sorted.remove slot, fun e he ↦ ?_⟩
  obtain ⟨he, hne⟩ := List.mem_filter.mp he
  rw [recordIn_written_of_ne (bne_iff_ne.mp hne)]
  exact h.prefix_eq e he

/-- A record is replaced by one with the same fingerprint. -/
theorem Catalogued.rewrite (h : Catalogued mem index) (hmagic : r.magic = contactRecordMagic)
    (hsame : r.fingerprint = (recordIn mem slot).fingerprint) :
    Catalogued (written mem slot r) index := by
  refine ⟨h.sorted, fun e he ↦ ?_⟩
  by_cases hslot : e.slot = slot
  · rw [hslot, recordIn_written_self hmagic, hsame, ← hslot]
    exact h.prefix_eq e he
  · rw [recordIn_written_of_ne hslot]
    exact h.prefix_eq e he

/-- Other flags are entered. -/
theorem Catalogued.updateFlags (h : Catalogued mem index) (slot : UInt8) (flags : ContactFlags) :
    Catalogued mem (index.updateFlags slot flags) := by
  have hkeep := ContactIndex.flagged_keeps slot flags
  constructor
  · refine List.pairwise_map.mpr (h.sorted.imp fun {a b} hab ↦ ?_)
    rw [(hkeep a).1, (hkeep b).1]
    exact hab
  · intro e' he'
    obtain ⟨e, he, rfl⟩ := List.mem_map.mp he'
    rw [(hkeep e).1, (hkeep e).2]
    exact h.prefix_eq e he

/-- The index that is rebuilt at boot. -/
theorem catalogued_rebuild (mem : Memory) :
    Catalogued mem (.rebuildFromRecords (slots.map (recordIn mem))) := by
  have hlen : (slots.map (recordIn mem)).length ≤ contactSlotCount :=
    Nat.le_of_eq (length_map_slots _)
  refine ⟨ContactIndex.sorted_rebuildFromRecords _, fun e he ↦ ?_⟩
  rw [(ContactIndex.entries_rebuildFromRecords hlen).mem_iff, zipIdx_map_slots] at he
  obtain ⟨p, hp, rfl⟩ := List.mem_map.mp he
  obtain ⟨i, -, rfl⟩ := List.mem_map.mp (List.mem_of_mem_filter hp)
  rfl

/-- An index of no records. -/
theorem entries_of_empty (hof : IndexOf mem index) (hempty : held mem = fun _ ↦ none) :
    index.entries = [] := by
  refine List.eq_nil_iff_forall_not_mem.mpr fun e he ↦ ?_
  have hheld : held mem e.slot = some _ := if_pos ((hof.mem_iff e.slot).mp (mem_slotsOf he))
  rw [hempty] at hheld
  cases hheld

theorem catalogued_of_empty (hof : IndexOf mem index) (hempty : held mem = fun _ ↦ none) :
    Catalogued mem index := by
  have hnone := entries_of_empty hof hempty
  refine ⟨?_, fun e he ↦ ?_⟩
  · rw [ContactIndex.Sorted, hnone]
    exact List.Pairwise.nil
  · rw [hnone] at he
    cases he

section Reachable

variable (hf : hal.storage.Faithful contactStoreEnd memory)
include hf

omit hf in
theorem Allots.catalogued {m n : ℕ} (h : Allots memory s s₁ m n) (hkept : Kept memory s)
    (hcat : Catalogued (memory s.storage) s.index) : Catalogued (memory s₁.storage) s₁.index := by
  obtain ⟨ws, hws⟩ := h.allocates
  rw [hws.index]
  exact hcat.of_intact hkept.index (hws.intact hkept.live.heap_le)

omit hf in
/-- A record is committed, and the register refreshed. -/
theorem Commits.catalogued {s' : ContactStore S C} {d : Block 32}
    (h : Commits hal memory s₁ s' slot r d)
    (hcat : Catalogued (written (memory s₁.storage) slot r) s'.index) :
    Catalogued (memory s'.storage) s'.index := by
  refine hcat.congr fun slot' hslot' ↦ recordIn_congr h.intact ?_
  exact ((h.kept.index.mem_iff slot').mp hslot').1

/-- **Step.** Every action keeps the index right. -/
theorem catalogued_step {p : ContactStore S C × C} (htracked : Tracked hal memory p.1)
    (h : Kept memory p.1 → Catalogued (memory p.1.storage) p.1.index) (action : StoreAction C) :
    Kept memory (action.after hal p).1 →
      Catalogued (memory (action.after hal p).1.storage) (action.after hal p).1.index := by
  intro hkept'
  rcases htracked with ⟨hmarker, hgate⟩ | ⟨hkept, hkeyed⟩
  -- a store that is not provisioned becomes a kept one by provisioning alone, and then it is empty
  · rcases after_unprovisioned hf hmarker hgate action with ⟨hmarker', -⟩ | ⟨-, -, -, hheld⟩
    · exact absurd hmarker' hkept'.live.sound.marker
    · exact catalogued_of_empty hkept'.index hheld
  have hcat := h hkept
  have heffect := action_effect hf hkept hkeyed action
  generalize (action.after hal p).1 = s' at heffect hkept' ⊢
  cases heffect with
  | settled h =>
    rw [h.index]
    exact hcat.of_intact hkept.index h.intact
  | booted h =>
    rw [h.index]
    exact catalogued_rebuild _
  | interrupted h =>
    rw [h.index]
    exact catalogued_rebuild _
  | insert input =>
    have hend := insert_outcome hf input hkept hkeyed
    generalize insert hal input p.1 = res at hend hkept' ⊢
    cases hend with
    | closed hgate => exact hcat
    | full hgate hslot => exact hcat
    | keyRefused hgate hslot hkey => exact hcat
    | unverified hgate hslot hkey hpin halloc => exact halloc.catalogued hkept hcat
    | emailRefused hgate hslot hkey hpin hemail halloc => exact halloc.catalogued hkept hcat
    | nameRefused hgate hslot hkey hpin hemail hsome hname halloc =>
      exact halloc.catalogued hkept hcat
    | done hgate hslot hkey hpin hemail hname halloc hkeyAt hemailAt hoffset hnameAt hindex
        hcommits hrest =>
      have hcat₁ := halloc.catalogued hkept hcat
      obtain ⟨ws, hws⟩ := halloc.allocates
      obtain ⟨-, hfree⟩ := freeSlot_ok hf hslot
      have hnew : _ ∉ p.1.index.slotsOf := fun hmem ↦ hfree ((hkept.index.mem_iff _).mp hmem).2
      rw [hws.index] at hcat₁
      exact hcommits.catalogued (hcat₁.insert hnew rfl _ hindex)
  | update slot upd =>
    by_cases hslot : slot ∈ slots
    · have hend := update_outcome hf upd hkept hkeyed hslot
      generalize update hal slot upd p.1 = res at hend hkept' ⊢
      cases hend with
      | closed hgate => exact hcat
      | vacant hgate hfree => exact hcat
      | emailRefused hgate hocc hsome hemail => exact hcat
      | nameRefused hgate hocc hemail hsome hname halloc => exact halloc.catalogued hkept hcat
      | done hgate hocc hemail hemailKept hname hnameKept halloc hindex hcommits hrest =>
        have hcat₁ := halloc.catalogued hkept hcat
        obtain ⟨ws, hws⟩ := halloc.allocates
        rw [hws.index] at hcat₁
        -- an update rewrites the record of its slot and leaves the fingerprint in it
        have hsame := congrArg ContactRecord.fingerprint
          (recordIn_congr (hws.intact hkept.live.heap_le) hslot)
        have hactive := (isActive_recordIn hkept.live hslot).mpr hocc
        refine hcommits.catalogued ?_
        rw [hindex]
        refine Catalogued.rewrite ?_ (beq_iff_eq.mp (Bool.and_eq_true_iff.mp hactive).1) hsame.symm
        rcases upd.stale with _ | stale
        · exact hcat₁
        · exact hcat₁.updateFlags slot _
    -- behind the table there is no record that the index could name
    · have hend := update_behind hf upd hkept hkeyed hslot
      generalize update hal slot upd p.1 = res at hend hkept' ⊢
      cases hend with
      | refused hne => exact hcat
      | emailRefused hgate hread hactive hsome hemail => exact hcat
      | nameRefused hgate hread hactive hemail hsome hname halloc =>
        exact halloc.catalogued hkept hcat
      | done hgate hread hactive hemail hname halloc hindex hcommits =>
        have hcat₁ := halloc.catalogued hkept hcat
        obtain ⟨ws, hws⟩ := halloc.allocates
        rw [hws.index] at hcat₁
        refine hcommits.catalogued ?_
        rw [hindex]
        refine Catalogued.congr ?_ fun slot' hslot' ↦ recordIn_written_of_ne fun heq ↦ hslot ?_
        · rcases upd.stale with _ | stale
          · exact hcat₁
          · exact hcat₁.updateFlags slot _
        · rw [← heq]
          rw [← hindex] at hslot'
          exact ((hcommits.kept.index.mem_iff slot').mp hslot').1
  | delete slot =>
    have hend := delete_outcome hf hkept hkeyed slot
    generalize delete hal slot p.1 = res at hend hkept' ⊢
    cases hend with
    | closed hgate => exact hcat
    | done hgate hindex hcommits hrest =>
      refine hcommits.catalogued ?_
      rw [hindex]
      exact hcat.remove slot .default

/-- **Run.** So the index of every reachable store is right, once it was provisioned. -/
theorem catalogued_afterActions {storage : S}
    (hmarker : u32OfLe ((memory storage).window contactStoreProvisionMarkerOffset 4) = 0)
    (counter provisioning : C) (key : Block 32) (actions : List (StoreAction C)) :
    let s := (afterActions hal (new storage counter key, provisioning) actions).1
    Kept memory s → Catalogued (memory s.storage) s.index :=
  reachable_induction hf (P := fun s ↦ Kept memory s → Catalogued (memory s.storage) s.index)
    (fun _ action htracked h ↦ catalogued_step hf htracked h action) actions
    (p := (new storage counter key, provisioning)) (.unprovisioned hmarker rfl)
    fun hkept ↦ absurd hmarker hkept.live.sound.marker

/-! ## What a lookup returns -/

omit hf in
/-- A slot that the index gives for a prefix has a record with that prefix. -/
theorem lookupPrefix_some (hkept : Kept memory s) (hcat : Catalogued (memory s.storage) s.index)
    {p : Bytes} (h : s.index.lookupPrefix p = some slot) :
    slot ∈ slots ∧ (recordIn (memory s.storage) slot).isActive = true ∧
      prefixOf (recordIn (memory s.storage) slot).fingerprint = p := by
  obtain ⟨e, he, rfl⟩ := Option.map_eq_some_iff.mp h
  obtain ⟨hmem, hprefix⟩ := SortedTable.bisect_eq_some he
  obtain ⟨hslot, hocc⟩ := (hkept.index.mem_iff e.slot).mp (mem_slotsOf hmem)
  exact ⟨hslot, (isActive_recordIn hkept.live hslot).mpr hocc,
    (hcat.prefix_eq e hmem).symm.trans hprefix⟩

omit hf in
/-- It gives one if there is one. -/
theorem lookupPrefix_none (hkept : Kept memory s) (hcat : Catalogued (memory s.storage) s.index)
    {fp : Block 32} (h : s.index.lookupPrefix (prefixOf fp) = none) :
    ¬ ∃ r, HasRecord memory s fp r := by
  rintro ⟨r, slot, hslot, rfl, hactive, hfp⟩
  have hocc := (isActive_recordIn hkept.live hslot).mp hactive
  obtain ⟨e, he, rfl⟩ := List.mem_map.mp ((hkept.index.mem_iff slot).mpr ⟨hslot, hocc⟩)
  refine (hcat.sorted.bisect_eq_none_iff.mp (Option.map_eq_none_iff.mp h)) e he ?_
  rw [hcat.prefix_eq e he, hfp]

/-- **A lookup** compares the fingerprint with one record of its prefix. -/
theorem lookupByFingerprint_eq (hkept : Kept memory s)
    (hcat : Catalogued (memory s.storage) s.index) (hgate : s.integrityGate = true)
    (fp : Block 32) : lookupByFingerprint hal s fp
      = (s.index.lookupPrefix (prefixOf fp)).elim (.error .slotNotFound) fun slot ↦
        if (recordIn (memory s.storage) slot).fingerprint = fp then
          .ok (recordIn (memory s.storage) slot)
        else .error .slotNotFound := by
  rw [lookupByFingerprint, lookupSlotByFp, ensure, if_pos hgate, ok_bind]
  rcases hfind : s.index.lookupPrefix (prefixOf fp) with _ | slot
  · rfl
  obtain ⟨hslot, -, -⟩ := lookupPrefix_some hkept hcat hfind
  rw [Option.elim_some, Option.elim_some, ok_bind, readRecord_of_sound hf hkept.live.sound hslot,
    ok_bind, ensure]
  split_ifs
  · rw [ok_bind]
    exact readRecord_of_sound hf hkept.live.sound hslot
  · rfl

theorem looksUp_iff_of_kept (hkept : Kept memory s)
    (hcat : Catalogued (memory s.storage) s.index) (hgate : s.integrityGate = true) :
    (∀ fp, LooksUp hal memory s fp) ↔ DistinctPrefixes memory s := by
  constructor
  · intro h fp fp' r r' hr hr' hprefix
    -- both lookups come upon the same record
    obtain ⟨q, hq, -⟩ := (h fp).complete ⟨r, hr⟩
    obtain ⟨q', hq', -⟩ := (h fp').complete ⟨r', hr'⟩
    rw [lookupByFingerprint_eq hf hkept hcat hgate] at hq hq'
    rw [← hprefix] at hq'
    rcases hfind : s.index.lookupPrefix (prefixOf fp) with _ | slot
    · rw [hfind] at hq
      cases hq
    rw [hfind, Option.elim_some] at hq hq'
    split_ifs at hq with hfp
    split_ifs at hq' with hfp'
    exact hfp.symm.trans hfp'
  · intro hdistinct fp
    have heq := lookupByFingerprint_eq hf hkept hcat hgate fp
    rcases hfind : s.index.lookupPrefix (prefixOf fp) with _ | slot
    · rw [hfind, Option.elim_none] at heq
      exact ⟨fun hr ↦ absurd hr (lookupPrefix_none hkept hcat hfind), fun _ ↦ heq⟩
    obtain ⟨hslot, hactive, hprefix⟩ := lookupPrefix_some hkept hcat hfind
    have hrecord : HasRecord memory s (recordIn (memory s.storage) slot).fingerprint
        (recordIn (memory s.storage) slot) := ⟨slot, hslot, rfl, hactive, rfl⟩
    rw [hfind, Option.elim_some] at heq
    split_ifs at heq with hfp
    · rw [hfp] at hrecord
      exact ⟨fun _ ↦ ⟨_, heq, hrecord⟩, fun hnone ↦ absurd ⟨_, hrecord⟩ hnone⟩
    · refine ⟨?_, fun _ ↦ heq⟩
      rintro ⟨r, hr⟩
      exact absurd (hdistinct _ _ _ _ hrecord hr hprefix) hfp

/-- An insertion of a contact without bytes succeeds where there is a free slot. It fills this slot,
and leaves the others. -/
theorem insert_empty (input : NewContact) (hkept : Kept memory s) (hkeyed : Keyed hal s)
    (hgate : s.integrityGate = true) (hfree : ∃ slot, freeSlot hal s input.ownIdentity = .ok slot)
    (hkey : input.publicKey = []) (hemail : input.email = []) (hname : input.displayName = none)
    (hprotected : input.pinProtected = false) : ∃ slot ∈ slots, ∃ s',
      insert hal input s = (.ok slot, s') ∧ ¬ Occupied (memory s.storage) slot ∧
        Kept memory s' ∧ Keyed hal s' ∧ s'.integrityGate = true ∧
        HasRecord memory s' input.fingerprint (recordIn (memory s'.storage) slot) ∧
        ∀ slot' ∈ slots, slot' ≠ slot →
          recordIn (memory s'.storage) slot' = recordIn (memory s.storage) slot' := by
  have hlive := hkept.live
  obtain ⟨slot, hfound⟩ := hfree
  have hroom : KeyTaken s input.publicKey := by
    rw [hkey]
    exact ⟨Nat.zero_le _, hlive.keys_le⟩
  have hempty : StringTaken s.stringHeap.bump.toNat input.email := by
    rw [hemail]
    exact ⟨Nat.zero_le _, hlive.heap_le⟩
  have hpin : pinFields input = .ok (.zero 32, .zero 12, .zero 16) := by
    rw [pinFields, hprotected, if_neg Bool.false_ne_true]
  have haccepted := insert_accepted hf hkept hkeyed hgate hfound hroom hpin hempty hname
  have hend := insert_outcome hf input hkept hkeyed
  rw [Fallible.eq_ok_of_fst haccepted] at hend ⊢
  generalize (insert hal input s).2 = s' at hend ⊢
  cases hend with
  | @done _ s₁ _ pin email name d _ hslot _ hpin _ _ halloc hkeyAt hemailAt hoffset hnameAt hindex
      hcommits hrest =>
    obtain ⟨ws, hws⟩ := halloc.allocates
    obtain ⟨hmem, hvacant⟩ := freeSlot_ok hf hslot
    have hrecord := recordIn_congr hcommits.intact hmem
    rw [recordIn_written_self rfl] at hrecord
    have hactive : (recordIn (memory s'.storage) slot).isActive = true := by
      rw [hrecord]
      exact (fits_newRecord hkeyAt hemailAt hnameAt).active
    refine ⟨slot, hmem, s', rfl, hvacant, hcommits.kept,
      hkeyed.congr (hcommits.masterKey.trans hws.masterKey),
      (hcommits.gate.trans hws.gate).trans hgate, ⟨slot, hmem, rfl, hactive, ?_⟩,
      fun slot' hslot' hne ↦ ?_⟩
    · rw [hrecord]
      rfl
    · rw [recordIn_congr hcommits.intact hslot', recordIn_written_of_ne hne]
      exact recordIn_congr (hws.intact hlive.heap_le) hslot'

/-- **Lookup by fingerprint.** A reachable store that is closed refuses every lookup. One that is
open answers every lookup right exactly when no two of its active records have fingerprints that
differ behind the first 16 bytes only. -/
theorem looksUp_iff {storage : S} (counter provisioning : C) (key : Block 32)
    (hmarker : u32OfLe ((memory storage).window contactStoreProvisionMarkerOffset 4) = 0)
    (actions : List (StoreAction C)) :
    let s := (afterActions hal (new storage counter key, provisioning) actions).1
    (s.integrityGate = false → ∀ fp, lookupByFingerprint hal s fp = .error .notInitialised) ∧
      (s.integrityGate = true →
        ((∀ fp, LooksUp hal memory s fp) ↔ DistinctPrefixes memory s)) := by
  intro s
  have hstart : Tracked hal memory (new storage counter key, provisioning).1 :=
    .unprovisioned hmarker rfl
  have hcat : Kept memory s → Catalogued (memory s.storage) s.index :=
    catalogued_afterActions hf hmarker counter provisioning key actions
  refine ⟨fun hgate fp ↦ ?_, fun hgate ↦ ?_⟩
  · rw [lookupByFingerprint, lookupSlotByFp, ensure, hgate, if_neg Bool.false_ne_true, error_bind,
      error_bind]
  rcases tracked_afterActions hf actions hstart with ⟨-, hclosed⟩ | ⟨hkept, -⟩
  · exact absurd (hclosed.symm.trans hgate) Bool.false_ne_true
  · exact looksUp_iff_of_kept hf hkept (hcat hkept) hgate

end Reachable

/-! ## A blank storage -/

/-- A contact with a fingerprint and nothing else. -/
def bareContact (fp : Block 32) : NewContact :=
  { protectedContact with fingerprint := fp, pinProtected := false }

/-- A new store with one contact. -/
theorem insert_bareContact (fp : Block 32) : ∃ slot ∈ slots, ∃ s',
    insert samplePlatform (bareContact fp) (provisioned (.zero 32)) = (.ok slot, s') ∧
      Kept (fun m ↦ m) s' ∧ Keyed samplePlatform s' ∧ s'.integrityGate = true ∧
      HasRecord (fun m ↦ m) s' fp (recordIn s'.storage slot) ∧
      ∀ slot' ∈ slots, slot' ≠ slot → ¬ Occupied s'.storage slot' := by
  have hvacant : ∀ slot ∈ slots, ¬ Occupied (provisioned (.zero 32)).storage slot :=
    fun slot hslot ↦ slotBytes_provisioned_ne (.refl _) hslot
  have hfree : ∃ slot, freeSlot samplePlatform (provisioned (.zero 32)) false = .ok slot :=
    freeSlot_of_free samplePlatform_faithful (by decide) (hvacant 4 (by decide))
  obtain ⟨slot, hslot, s', hrun, -, hkept, hkeyed, hgate, hrecord, hothers⟩ :=
    insert_empty samplePlatform_faithful (bareContact fp) kept_provisioned keyed_provisioned
      rfl hfree rfl rfl rfl rfl
  refine ⟨slot, hslot, s', hrun, hkept, hkeyed, hgate, hrecord, fun slot' hslot' hne hocc ↦ ?_⟩
  have hactive := (isActive_recordIn hkept.live hslot').mpr hocc
  have hsame : recordIn s'.storage slot' = recordIn (provisioned (.zero 32)).storage slot' :=
    hothers slot' hslot' hne
  have hactive : (recordIn s'.storage slot').isActive = true := hactive
  rw [hsame] at hactive
  exact hvacant slot' hslot' ((isActive_recordIn kept_provisioned.live hslot').mp hactive)

/-- It is looked up right. -/
theorem looksUp_bareContact : LooksUp samplePlatform (fun m ↦ m)
    (afterActions samplePlatform (new blank 0 (.zero 32), 0)
      [.provisionFresh, .insert (bareContact (.zero 32))]).1 (.zero 32) := by
  obtain ⟨slot, hslot, s', hrun, hkept, -, hgate, -, hothers⟩ := insert_bareContact (.zero 32)
  have hstore : (afterActions samplePlatform (new blank 0 (.zero 32), 0)
      [.provisionFresh, .insert (bareContact (.zero 32))]).1 = s' := by
    rw [afterActions_cons, after_provisionFresh, afterActions_cons, afterActions_nil,
      StoreAction.after, hrun]
  have honly : ∀ {fp : Block 32} {r : ContactRecord}, HasRecord (fun m ↦ m) s' fp r →
      recordIn s'.storage slot = r ∧ r.fingerprint = fp := by
    rintro fp r ⟨slot', hslot', hr, hactive, hfp⟩
    refine ⟨?_, hfp⟩
    by_cases heq : slot' = slot
    · rw [← heq]
      exact hr
    · rw [← hr] at hactive
      exact absurd ((isActive_recordIn hkept.live hslot').mp hactive) (hothers slot' hslot' heq)
  have hiff := (looksUp_iff samplePlatform_faithful 0 0 (.zero 32) marker_blank
    [.provisionFresh, .insert (bareContact (.zero 32))]).2
  rw [hstore] at hiff ⊢
  refine (hiff hgate).mpr (fun fp fp' r r' hr hr' _ ↦ ?_) (.zero 32)
  obtain ⟨hslot₁, hfp₁⟩ := honly hr
  obtain ⟨hslot₂, hfp₂⟩ := honly hr'
  rw [← hfp₁, ← hfp₂, ← hslot₁, ← hslot₂]

/-- A fingerprint that starts like the zero one. -/
def nearZero : Block 32 := .ofBytes 32 (List.replicate 16 0 ++ List.replicate 16 1)

/-- Of two contacts whose fingerprints start with the same 16 bytes one is not found. -/
theorem nearZero_not_looked_up : ¬ ∀ fp, LooksUp samplePlatform (fun m ↦ m)
    (afterActions samplePlatform (new blank 0 (.zero 32), 0)
      [.provisionFresh, .insert (bareContact (.zero 32)), .insert (bareContact nearZero)]).1
      fp := by
  have hf := samplePlatform_faithful
  obtain ⟨slot₁, hslot₁, s₁, hrun₁, hkept₁, hkeyed₁, hgate₁, hrecord₁, hvacant₁⟩ :=
    insert_bareContact (.zero 32)
  have hfree : ∃ slot,
      freeSlot samplePlatform s₁ (bareContact nearZero).ownIdentity = .ok slot := by
    by_cases heq : slot₁ = 4
    · exact freeSlot_of_free hf (by decide)
        (hvacant₁ 5 (by decide) (by rw [heq]; decide))
    · exact freeSlot_of_free hf (by decide) (hvacant₁ 4 (by decide) (Ne.symm heq))
  obtain ⟨slot₂, hslot₂, s₂, hrun₂, hfree₂, hkept₂, -, hgate₂, hrecord₂, hothers₂⟩ :=
    insert_empty hf (bareContact nearZero) hkept₁ hkeyed₁ hgate₁ hfree rfl rfl rfl rfl
  have hstore : (afterActions samplePlatform (new blank 0 (.zero 32), 0)
      [.provisionFresh, .insert (bareContact (.zero 32)), .insert (bareContact nearZero)]).1
        = s₂ := by
    rw [afterActions_cons, after_provisionFresh, afterActions_cons, afterActions_cons,
      afterActions_nil, StoreAction.after, StoreAction.after, hrun₁, hrun₂]
  have hcat := catalogued_afterActions hf marker_blank 0 0 (.zero 32)
    [.provisionFresh, .insert (bareContact (.zero 32)), .insert (bareContact nearZero)]
  rw [hstore] at hcat ⊢
  rw [looksUp_iff_of_kept hf hkept₂ (hcat hkept₂) hgate₂]
  intro hdistinct
  obtain ⟨slot, hslot, hr, hactive, hfp⟩ := hrecord₁
  rw [← hr] at hactive hfp
  have hne : slot ≠ slot₂ := by
    rintro rfl
    exact hfree₂ ((isActive_recordIn hkept₁.live hslot).mp hactive)
  have hsame : recordIn s₂.storage slot = recordIn s₁.storage slot := hothers₂ slot hslot hne
  have hrecord : HasRecord (fun m ↦ m) s₂ (.zero 32) (recordIn s₁.storage slot) :=
    ⟨slot, hslot, hsame, hactive, hfp⟩
  have hprefix : prefixOf (.zero 32) = prefixOf nearZero := by decide +kernel
  have hdiffer : Block.zero 32 ≠ nearZero := by decide +kernel
  exact hdiffer (hdistinct _ _ _ _ hrecord hrecord₂ hprefix)

end ContactStore

end Galdralag.Contacts
