import Galdralag.ContactStore.Fingerprints

/-!
# The order of equal prefixes

At boot the index is rebuilt from the records in the order of their slots. The index of a running
store has the same entries, sorted by prefix as well; but where several have one prefix, they stand
in the order in which the contacts came in. A contact that takes a slot before those with its prefix
is found there in another place than after a reboot, and the bisection comes upon another record.

For as long as every new contact takes a slot behind those with its prefix, nothing tells the two
apart.
-/

set_option linter.all false

namespace Galdralag.Contacts

namespace ContactIndex

variable {index : ContactIndex}

/-- The entries with one prefix are in the order of their slots. -/
def InSlotOrder (index : ContactIndex) : Prop :=
  SortedTable.Tiered IndexEntry.fingerprintPrefix (fun e e' ↦ e.slot < e'.slot) index.entries

theorem inSlotOrder_new : new.InSlotOrder := List.Pairwise.nil

/-- A new entry keeps the order exactly if its slot is behind those with its prefix. -/
theorem inSlotOrder_insert_iff {index' : ContactIndex} {fp : Block 32} {slot : UInt8}
    {flags : ContactFlags} (hsorted : index.Sorted) (h : index.insert fp slot flags = .ok index') :
    index'.InSlotOrder ↔ index.InSlotOrder ∧
      ∀ e ∈ index.entries, e.fingerprintPrefix = fp.toBytes.take 16 → e.slot < slot := by
  rw [insert_eq] at h
  split_ifs at h
  obtain rfl := Except.ok.inj h
  exact SortedTable.tiered_insert_iff hsorted

theorem InSlotOrder.remove (h : index.InSlotOrder) (slot : UInt8) :
    (index.remove slot).InSlotOrder :=
  h.sublist List.filter_sublist

theorem InSlotOrder.updateFlags (h : index.InSlotOrder) (slot : UInt8) (flags : ContactFlags) :
    (index.updateFlags slot flags).InSlotOrder := by
  have hkeep := flagged_keeps slot flags
  refine List.pairwise_map.mpr (h.imp fun {a b} hab heq ↦ ?_)
  rw [(hkeep a).1, (hkeep b).1] at heq
  change _ < _
  rw [(hkeep a).2, (hkeep b).2]
  exact hab heq

/-- An index that is rebuilt is in the order of the slots. -/
theorem inSlotOrder_rebuildFromRecords (records : List ContactRecord)
    (hlen : records.length ≤ contactSlotCount) : (rebuildFromRecords records).InSlotOrder ∧
      ∀ e ∈ (rebuildFromRecords records).entries, e.slot.toNat < records.length := by
  induction records using List.reverseRecOn with
  | nil => exact ⟨inSlotOrder_new, by rintro e ⟨⟩⟩
  | append_singleton records r ih =>
    rw [List.length_append, List.length_singleton] at hlen ⊢
    obtain ⟨horder, hbelow⟩ := ih (Nat.le_of_succ_le hlen)
    have hslot : (UInt8.ofNat records.length).toNat = records.length :=
      UInt8.toNat_ofNat_of_lt' (Nat.lt_of_lt_of_le (Nat.lt_of_succ_le hlen) (by decide))
    rw [rebuildFromRecords_eq, List.zipIdx_append, Nat.zero_add, List.zipIdx_singleton,
      List.foldl_concat, ← rebuildFromRecords_eq, rebuildStep_eq]
    split_ifs
    · rw [inserted_eq]
      split_ifs
      · exact ⟨horder, fun e he ↦ Nat.lt_succ_of_lt (hbelow e he)⟩
      · refine ⟨(SortedTable.tiered_insert_iff (sorted_rebuildFromRecords records)).mpr
          ⟨horder, fun e he _ ↦ ?_⟩, fun e he ↦ ?_⟩
        · refine UInt8.lt_iff_toNat_lt.mpr ?_
          rw [entryOf, hslot]
          exact hbelow e he
        · rcases SortedTable.mem_insert.mp he with rfl | he
          · rw [entryOf, hslot]
            exact Nat.lt_succ_self _
          · exact Nat.lt_succ_of_lt (hbelow e he)
    · exact ⟨horder, fun e he ↦ Nat.lt_succ_of_lt (hbelow e he)⟩

end ContactIndex

namespace ContactStore

open Fallible (bind_of_ok bind_of_error)

variable {S C : Type} {hal : StorePlatform S C} {memory : S → Memory} {s s' s₁ : ContactStore S C}
  {mem : Memory} {index index' : ContactIndex} {slot : UInt8}

/-! ## Transparency -/

/-- A fresh store over the same storage, behind its boot. -/
def rebooted (hal : StorePlatform S C) (counter : C) (s : ContactStore S C) : ContactStore S C :=
  (initOnBoot hal (new s.storage counter s.masterKey)).2

/-- The same items are listed, in whatever order, or the same error is returned. -/
def SameItems {α : Type} :
    Except ContactStoreError (List α) → Except ContactStoreError (List α) → Prop
  | .ok items, .ok items' => items.Perm items'
  | .error e, .error e' => e = e'
  | _, _ => False

/-- **Transparency.** The two stores look up every fingerprint alike, and list the same slots and
fingerprints. -/
structure Transparent (hal : StorePlatform S C) (s s' : ContactStore S C) : Prop where
  lookups : ∀ fp, lookupByFingerprint hal s fp = lookupByFingerprint hal s' fp
  listed : SameItems (list hal s) (list hal s')

/-- Insertions, updates, deletions and reboots, behind a provisioning. -/
def StoreAction.Everyday : StoreAction C → Prop
  | .provisionFresh | .insert _ | .update _ _ | .delete _ | .reboot _ => True
  | _ => False

/-- The insertion succeeds, in this slot: the gate is open, the slot is the first free one, and
there is room for what the contact brings. -/
structure Accepts (hal : StorePlatform S C) (s : ContactStore S C) (input : NewContact)
    (slot : UInt8) : Prop where
  gate : s.integrityGate = true
  slot : freeSlot hal s input.ownIdentity = .ok slot
  key : KeyTaken s input.publicKey
  pin : ∃ pin, pinFields input = .ok pin
  email : StringTaken s.stringHeap.bump.toNat input.email
  name : ∀ bytes, input.displayName = some bytes →
    StringTaken (s.stringHeap.bump.toNat + input.email.length) bytes

/-- A contact that comes in takes a slot behind all contacts whose fingerprints start with the same
16 bytes. -/
def Upward (hal : StorePlatform S C) (memory : S → Memory) (s : ContactStore S C) :
    StoreAction C → Prop
  | .insert input => ∀ slot, Accepts hal s input slot → ∀ slot' ∈ slots,
      (recordIn (memory s.storage) slot').isActive = true →
      prefixOf (recordIn (memory s.storage) slot').fingerprint = prefixOf input.fingerprint →
      slot' < slot
  | _ => True

/-- So does every contact of a run. -/
def AllUpward (hal : StorePlatform S C) (memory : S → Memory) :
    ContactStore S C × C → List (StoreAction C) → Prop
  | _, [] => True
  | p, action :: actions =>
    Upward hal memory p.1 action ∧ AllUpward hal memory (action.after hal p) actions

/-! ## The slots of an index -/

/-- The bytes of a slot that the index sorts by. -/
def prefixAt (mem : Memory) (slot : UInt8) : Bytes := prefixOf (recordIn mem slot).fingerprint

theorem Catalogued.inSlotOrder_iff (h : Catalogued mem index) : index.InSlotOrder ↔
    SortedTable.Tiered (prefixAt mem) (fun a b ↦ a < b) index.slotsOf := by
  have hiff : index.InSlotOrder ↔ index.entries.Pairwise fun e e' ↦
      prefixAt mem e.slot = prefixAt mem e'.slot → e.slot < e'.slot := by
    refine List.Pairwise.iff_of_mem fun {e e'} he he' ↦ ?_
    rw [h.prefix_eq e he, h.prefix_eq e' he']
    rfl
  rw [hiff, SortedTable.Tiered, ContactIndex.slotsOf, List.pairwise_map]

theorem Catalogued.sorted_slotsOf (h : Catalogued mem index) :
    SortedTable.Sorted (prefixAt mem) index.slotsOf := by
  refine List.pairwise_map.mpr (h.sorted.imp_of_mem fun {e e'} he he' hle ↦ ?_)
  rw [h.prefix_eq e he, h.prefix_eq e' he'] at hle
  exact hle

/-- A lookup in the index is a bisection of its slots. -/
theorem Catalogued.lookupPrefix_eq (h : Catalogued mem index) (p : Bytes) :
    index.lookupPrefix p = SortedTable.bisect (prefixAt mem) index.slotsOf p 0
      index.slotsOf.length := by
  have hkeys : ∀ e ∈ index.entries, prefixAt mem e.slot = e.fingerprintPrefix :=
    fun e he ↦ (h.prefix_eq e he).symm
  rw [ContactIndex.lookupPrefix, ContactIndex.slotsOf, SortedTable.bisect_map hkeys,
    List.length_map]

theorem IndexOf.slotsOf_perm (h : IndexOf mem index) (h' : IndexOf mem index') :
    index.slotsOf.Perm index'.slotsOf :=
  (List.perm_ext_iff_of_nodup h.nodup h'.nodup).mpr fun slot ↦
    (h.mem_iff slot).trans (h'.mem_iff slot).symm

/-- Two indices of the same records that are in the order of the slots list them alike. -/
theorem slotsOf_eq_of_inSlotOrder (hof : IndexOf mem index) (hcat : Catalogued mem index)
    (horder : index.InSlotOrder) (hof' : IndexOf mem index') (hcat' : Catalogued mem index')
    (horder' : index'.InSlotOrder) : index.slotsOf = index'.slotsOf :=
  hcat.sorted_slotsOf.eq_of_perm (hcat.inSlotOrder_iff.mp horder) hcat'.sorted_slotsOf
    (hcat'.inSlotOrder_iff.mp horder') (hof.slotsOf_perm hof')

/-- The entries with a prefix are those of the active records with it. -/
theorem forall_entries_iff (hkept : Kept memory s) (hcat : Catalogued (memory s.storage) s.index)
    (p : Bytes) (q : UInt8 → Prop) :
    (∀ e ∈ s.index.entries, e.fingerprintPrefix = p → q e.slot) ↔
      ∀ slot ∈ slots, (recordIn (memory s.storage) slot).isActive = true →
        prefixOf (recordIn (memory s.storage) slot).fingerprint = p → q slot := by
  constructor
  · intro h slot hslot hactive hpre
    have hocc := (isActive_recordIn hkept.live hslot).mp hactive
    obtain ⟨e, he, rfl⟩ := List.mem_map.mp ((hkept.index.mem_iff slot).mpr ⟨hslot, hocc⟩)
    exact h e he ((hcat.prefix_eq e he).trans hpre)
  · intro h e he hpre
    obtain ⟨hslot, hocc⟩ := (hkept.index.mem_iff e.slot).mp (mem_slotsOf he)
    exact h e.slot hslot ((isActive_recordIn hkept.live hslot).mpr hocc)
      ((hcat.prefix_eq e he).symm.trans hpre)

/-! ## Steps -/

/-- What an action does to the index: a contact comes in, or the order stays. -/
inductive IndexStep (hal : StorePlatform S C) (s : ContactStore S C) :
    StoreAction C → ContactIndex → Prop where
  | inserted {input : NewContact} {slot : UInt8} {flags : ContactFlags} {index : ContactIndex}
    (haccepts : Accepts hal s input slot)
    (hinsert : s.index.insert input.fingerprint slot flags = .ok index) :
    IndexStep hal s (.insert input) index
  | ordered {action : StoreAction C} {index : ContactIndex}
    (hrefused : ∀ input slot, action = .insert input → ¬ Accepts hal s input slot)
    (horder : s.index.InSlotOrder → index.InSlotOrder) : IndexStep hal s action index

theorem Commits.ready {r : ContactRecord} {d : Block 32} (h : Commits hal memory s₁ s' slot r d)
    (hgate : s₁.integrityGate = true) : Ready hal memory s' :=
  ⟨h.kept, h.gate.trans hgate, d, h.digest, h.register⟩

section Steps

variable (hf : hal.storage.Faithful contactStoreEnd memory)
include hf

theorem Allots.ready {m n : ℕ} (h : Allots memory s s₁ m n) (hready : Ready hal memory s) :
    Ready hal memory s₁ ∧ s₁.index = s.index := by
  obtain ⟨ws, hws⟩ := h.allocates
  exact ⟨hready.of_allocates hf hws, hws.index⟩

theorem insert_indexStep (input : NewContact) (hready : Ready hal memory s) :
    Ready hal memory (insert hal input s).2 ∧
      IndexStep hal s (.insert input) (insert hal input s).2.index := by
  have hend := insert_outcome hf input hready.kept (hready.keyed hf)
  -- an insertion that fails has not touched the index, and some field of `Accepts` is wrong
  have hrefused : ∀ {t : ContactStore S C}, (∀ slot, ¬ Accepts hal s input slot) →
      Ready hal memory t ∧ t.index = s.index →
      Ready hal memory t ∧ IndexStep hal s (.insert input) t.index := by
    intro t hnot ht
    refine ⟨ht.1, .ordered (fun input' slot heq ↦ ?_) fun horder ↦ ?_⟩
    · obtain rfl := StoreAction.insert.inj heq
      exact hnot slot
    · rw [ht.2]
      exact horder
  generalize insert hal input s = res at hend ⊢
  cases hend with
  | closed hgate => exact absurd (hready.gate.symm.trans hgate) (by decide)
  | full hgate hslot =>
    exact hrefused (fun slot h ↦ by cases h.slot.symm.trans hslot) ⟨hready, rfl⟩
  | keyRefused hgate hslot hkey => exact hrefused (fun slot h ↦ hkey h.key) ⟨hready, rfl⟩
  | unverified hgate hslot hkey hpin halloc =>
    refine hrefused (fun slot h ↦ ?_) (halloc.ready hf hready)
    obtain ⟨pin, hpin'⟩ := h.pin
    cases hpin'.symm.trans hpin
  | emailRefused hgate hslot hkey hpin hemail halloc =>
    exact hrefused (fun slot h ↦ hemail h.email) (halloc.ready hf hready)
  | nameRefused hgate hslot hkey hpin hemail hsome hname halloc =>
    exact hrefused (fun slot h ↦ hname (h.name _ hsome)) (halloc.ready hf hready)
  | done hgate hslot hkey hpin hemail hname halloc hkeyAt hemailAt hoffset hnameAt hindex
      hcommits hrest =>
    exact ⟨hcommits.ready (halloc.ready hf hready).1.gate,
      .inserted ⟨hgate, hslot, hkey, ⟨_, hpin⟩, hemail, fun b hb ↦ (hname b hb).1⟩ hindex⟩

theorem update_indexStep (slot : UInt8) (upd : ContactUpdate) (hready : Ready hal memory s) :
    Ready hal memory (update hal slot upd s).2 ∧
      (s.index.InSlotOrder → (update hal slot upd s).2.index.InSlotOrder) := by
  have hsame : ∀ {t : ContactStore S C}, Ready hal memory t ∧ t.index = s.index →
      Ready hal memory t ∧ (s.index.InSlotOrder → t.index.InSlotOrder) := by
    intro t ht
    rw [ht.2]
    exact ⟨ht.1, id⟩
  have hflags : ∀ r : ContactRecord, s.index.InSlotOrder → (upd.stale.elim s.index fun stale ↦
      s.index.updateFlags slot (staleFlags r stale)).InSlotOrder := by
    intro r horder
    rcases upd.stale with _ | stale
    · exact horder
    · exact horder.updateFlags slot _
  by_cases hslot : slot ∈ slots
  · have hend := update_outcome hf upd hready.kept (hready.keyed hf) hslot
    generalize update hal slot upd s = res at hend ⊢
    cases hend with
    | closed hgate => exact hsame ⟨hready, rfl⟩
    | vacant hgate hfree => exact hsame ⟨hready, rfl⟩
    | emailRefused hgate hocc hsome hemail => exact hsame ⟨hready, rfl⟩
    | nameRefused hgate hocc hemail hsome hname halloc => exact hsame (halloc.ready hf hready)
    | done hgate hocc hemail hemailKept hname hnameKept halloc hindex hcommits hrest =>
      refine ⟨hcommits.ready (halloc.ready hf hready).1.gate, ?_⟩
      rw [hindex]
      exact hflags _
  · have hend := update_behind hf upd hready.kept (hready.keyed hf) hslot
    generalize update hal slot upd s = res at hend ⊢
    cases hend with
    | refused hne => exact hsame ⟨hready, rfl⟩
    | emailRefused hgate hread hactive hsome hemail => exact hsame ⟨hready, rfl⟩
    | nameRefused hgate hread hactive hemail hsome hname halloc =>
      exact hsame (halloc.ready hf hready)
    | done hgate hread hactive hemail hname halloc hindex hcommits =>
      refine ⟨hcommits.ready (halloc.ready hf hready).1.gate, ?_⟩
      rw [hindex]
      exact hflags _

theorem delete_indexStep (slot : UInt8) (hready : Ready hal memory s) :
    Ready hal memory (delete hal slot s).2 ∧
      (s.index.InSlotOrder → (delete hal slot s).2.index.InSlotOrder) := by
  have hend := delete_outcome hf hready.kept (hready.keyed hf) slot
  generalize delete hal slot s = res at hend ⊢
  cases hend with
  | closed hgate => exact ⟨hready, id⟩
  | done hgate hindex hcommits hrest =>
    refine ⟨hcommits.ready hready.gate, fun horder ↦ ?_⟩
    rw [hindex]
    exact horder.remove slot

omit hf in
theorem inSlotOrder_rebuilt (h : Rebuilt memory s) : s.index.InSlotOrder := by
  rw [h.index]
  exact (ContactIndex.inSlotOrder_rebuildFromRecords _ (Nat.le_of_eq (length_map_slots _))).1

/-- A reboot of a ready store. -/
theorem rebooted_ready (counter : C) (hready : Ready hal memory s) :
    Ready hal memory (rebooted hal counter s) ∧ (rebooted hal counter s).storage = s.storage ∧
      Catalogued (memory (rebooted hal counter s).storage) (rebooted hal counter s).index ∧
      (rebooted hal counter s).index.InSlotOrder := by
  obtain ⟨hrebuilt, hstorage, -⟩ :=
    initOnBoot_rebuilt hf (s := new s.storage counter s.masterKey) hready.kept.live
  obtain ⟨t, hboot, ht, -⟩ := initOnBoot_of_current hf (s := new s.storage counter s.masterKey)
    hready.kept.live hready.current
  refine ⟨?_, hstorage, ?_, inSlotOrder_rebuilt hrebuilt⟩
  · rw [rebooted, hboot]
    exact ht
  · rw [rebooted, hrebuilt.index]
    exact catalogued_rebuild _

/-- **Step.** An action of every day on a ready store leaves it ready. -/
theorem everyday_indexStep {p : ContactStore S C × C} {action : StoreAction C}
    (heveryday : action.Everyday) (hready : Ready hal memory p.1) :
    Ready hal memory (action.after hal p).1 ∧
      IndexStep hal p.1 action (action.after hal p).1.index := by
  have hordered : ∀ {t : ContactStore S C}, (∀ input, action ≠ .insert input) →
      Ready hal memory t ∧ (p.1.index.InSlotOrder → t.index.InSlotOrder) →
      Ready hal memory t ∧ IndexStep hal p.1 action t.index :=
    fun hne h ↦ ⟨h.1, .ordered (fun input slot heq ↦ absurd heq (hne input)) h.2⟩
  cases action with
  | provisionFresh =>
    refine hordered (by rintro input ⟨⟩) ?_
    rw [StoreAction.after, provisionFresh_again hf hready.kept.live.sound.marker]
    exact ⟨⟨⟨hready.kept.live, hready.kept.index⟩, hready.gate, hready.current⟩, id⟩
  | insert input => exact insert_indexStep hf input hready
  | update slot upd =>
    exact hordered (by rintro input ⟨⟩) (update_indexStep hf slot upd hready)
  | delete slot => exact hordered (by rintro input ⟨⟩) (delete_indexStep hf slot hready)
  | reboot counter =>
    obtain ⟨hready', -, -, horder⟩ := rebooted_ready hf counter hready
    exact hordered (by rintro input ⟨⟩) ⟨hready', fun _ ↦ horder⟩
  | timingLogAppend slot lastFetched => cases heveryday
  | verifyIntegrity => cases heveryday
  | updateIntegrity => cases heveryday
  | count counter => cases heveryday
  | initOnBoot => cases heveryday
  | interrupted op n counter => cases heveryday

omit hf in
/-- An action keeps the index in the order of the slots exactly if it is upward. -/
theorem IndexStep.inSlotOrder_iff {action : StoreAction C} (h : IndexStep hal s action index)
    (hkept : Kept memory s) (hcat : Catalogued (memory s.storage) s.index)
    (horder : s.index.InSlotOrder) : index.InSlotOrder ↔ Upward hal memory s action := by
  cases h with
  | @inserted input slot flags index haccepts hinsert =>
    rw [ContactIndex.inSlotOrder_insert_iff hcat.sorted hinsert, and_iff_right horder]
    refine (forall_entries_iff hkept hcat (prefixOf input.fingerprint) (· < slot)).trans ?_
    constructor
    · intro h slot' haccepts'
      obtain rfl := Except.ok.inj (haccepts.slot.symm.trans haccepts'.slot)
      exact h
    · exact fun h ↦ h slot haccepts
  | ordered hrefused hkeeps =>
    refine iff_of_true (hkeeps horder) ?_
    cases action with
    | insert input => exact fun slot haccepts ↦ absurd haccepts (hrefused input slot rfl)
    | _ => exact trivial

end Steps

/-! ## Runs -/

/-- A store of such a run: not provisioned yet, or open and with a current register. -/
inductive Standing (hal : StorePlatform S C) (memory : S → Memory) (s : ContactStore S C) : Prop where
  | unprovisioned
    (hmarker : u32OfLe ((memory s.storage).window contactStoreProvisionMarkerOffset 4) = 0)
    (hgate : s.integrityGate = false) : Standing hal memory s
  | provisioned (hready : Ready hal memory s) (hcat : Catalogued (memory s.storage) s.index) :
    Standing hal memory s

/-- Once the store is provisioned, its index is in the order of the slots. -/
def KeepsOrder (hal : StorePlatform S C) (memory : S → Memory) (s : ContactStore S C) : Prop :=
  Ready hal memory s → s.index.InSlotOrder

section Runs

variable (hf : hal.storage.Faithful contactStoreEnd memory)
include hf

theorem Standing.tracked (h : Standing hal memory s) : Tracked hal memory s := by
  rcases h with ⟨hmarker, hgate⟩ | ⟨hready, -⟩
  · exact .unprovisioned hmarker hgate
  · exact .provisioned hready.kept (hready.keyed hf)

theorem standing_step {p : ContactStore S C × C} {action : StoreAction C}
    (heveryday : action.Everyday) (h : Standing hal memory p.1) :
    Standing hal memory (action.after hal p).1 := by
  have hcat : Kept memory p.1 → Catalogued (memory p.1.storage) p.1.index := by
    intro hkept
    rcases h with ⟨hmarker, -⟩ | ⟨-, hcat⟩
    · exact absurd hmarker hkept.live.sound.marker
    · exact hcat
  have hcat' := catalogued_step hf (h.tracked hf) hcat action
  rcases h with ⟨hmarker, hgate⟩ | ⟨hready, -⟩
  · rcases after_unprovisioned hf hmarker hgate action with ⟨hmarker', hgate'⟩ | ⟨-, -, hready, -⟩
    · exact .unprovisioned hmarker' hgate'
    · exact .provisioned hready (hcat' hready.kept)
  · have hready' := (everyday_indexStep hf heveryday hready).1
    exact .provisioned hready' (hcat' hready'.kept)

theorem keepsOrder_step_iff {p : ContactStore S C × C} {action : StoreAction C}
    (heveryday : action.Everyday) (h : Standing hal memory p.1) (horder : KeepsOrder hal memory p.1) :
    KeepsOrder hal memory (action.after hal p).1 ↔ Upward hal memory p.1 action := by
  rcases h with ⟨hmarker, hgate⟩ | ⟨hready, hcat⟩
  · -- nothing comes in before the store is provisioned, and then its index is empty
    refine iff_of_true (fun hready' ↦ ?_) ?_
    · rcases after_unprovisioned hf hmarker hgate action with ⟨hmarker', -⟩ | ⟨-, -, -, hheld⟩
      · exact absurd hmarker' hready'.kept.live.sound.marker
      · rw [ContactIndex.InSlotOrder, entries_of_empty hready'.kept.index hheld]
        exact List.Pairwise.nil
    · cases action with
      | insert input =>
        exact fun slot haccepts ↦ absurd (hgate.symm.trans haccepts.gate) Bool.false_ne_true
      | _ => exact trivial
  · obtain ⟨hready', hstep⟩ := everyday_indexStep hf heveryday hready
    rw [← hstep.inSlotOrder_iff hready.kept hcat (horder hready)]
    exact ⟨fun h ↦ h hready', fun h _ ↦ h⟩

/-- **Run.** The index is in order in every state of a run exactly if every contact takes a slot
behind those with its prefix. -/
theorem keepsOrder_run_iff (actions : List (StoreAction C)) : ∀ {p : ContactStore S C × C},
    (∀ action ∈ actions, action.Everyday) → Standing hal memory p.1 → KeepsOrder hal memory p.1 →
    (AllUpward hal memory p actions ↔
      ∀ actions', actions' <+: actions → KeepsOrder hal memory (afterActions hal p actions').1) := by
  induction actions with
  | nil =>
    intro p _ _ horder
    refine iff_of_true trivial fun actions' hpre ↦ ?_
    rw [List.prefix_nil.mp hpre, afterActions_nil]
    exact horder
  | cons action actions ih =>
    intro p heveryday hstanding horder
    have hfirst := heveryday action List.mem_cons_self
    have hrest := fun a ha ↦ heveryday a (List.mem_cons_of_mem action ha)
    have hiff := keepsOrder_step_iff hf hfirst hstanding horder
    have hstanding' := standing_step hf hfirst hstanding
    rw [AllUpward, ← hiff]
    constructor
    · rintro ⟨horder', hupward⟩ actions' hpre
      rcases List.prefix_cons_iff.mp hpre with rfl | ⟨rest, rfl, hrest'⟩
      · exact horder
      · exact (ih hrest hstanding' horder').mp hupward rest hrest'
    · intro h
      have horder' : KeepsOrder hal memory (action.after hal p).1 :=
        h [action] (List.cons_prefix_cons.mpr ⟨rfl, List.nil_prefix⟩)
      exact ⟨horder', (ih hrest hstanding' horder').mpr fun actions' hpre ↦
        h (action :: actions') (List.cons_prefix_cons.mpr ⟨rfl, hpre⟩)⟩

theorem standing_run (actions : List (StoreAction C)) : ∀ {p : ContactStore S C × C},
    (∀ action ∈ actions, action.Everyday) → Standing hal memory p.1 →
    Standing hal memory (afterActions hal p actions).1 := by
  induction actions with
  | nil => exact fun _ h ↦ h
  | cons action actions ih =>
    exact fun heveryday h ↦ ih (fun a ha ↦ heveryday a (List.mem_cons_of_mem action ha))
      (standing_step hf (heveryday action List.mem_cons_self) h)

/-- A store that was never provisioned answers nothing, and neither does it after a reboot. -/
theorem unprovisioned_answers (counter : C) (fp : Block 32)
    (hmarker : u32OfLe ((memory s.storage).window contactStoreProvisionMarkerOffset 4) = 0)
    (hgate : s.integrityGate = false) :
    list hal s = list hal (rebooted hal counter s) ∧
      lookupByFingerprint hal s fp = lookupByFingerprint hal (rebooted hal counter s) fp := by
  obtain ⟨hgate', -, -⟩ := initOnBoot_unprovisioned hf
    (s := new s.storage counter s.masterKey) hmarker rfl
  have hgate' : (rebooted hal counter s).integrityGate = false := hgate'
  rw [list, list, lookupByFingerprint, lookupByFingerprint, lookupSlotByFp, lookupSlotByFp, hgate,
    hgate']
  exact ⟨rfl, rfl⟩

/-- The lists before and after a reboot are the same, order and all, exactly if the index was in
order. -/
theorem list_rebooted_iff (counter : C) (h : Standing hal memory s) :
    list hal s = list hal (rebooted hal counter s) ↔ KeepsOrder hal memory s := by
  rcases h with ⟨hmarker, hgate⟩ | ⟨hready, hcat⟩
  · exact iff_of_true (unprovisioned_answers hf counter (.zero 32) hmarker hgate).1
      fun hready ↦ absurd hmarker hready.kept.live.sound.marker
  obtain ⟨hready', hstorage, hcat', horder'⟩ := rebooted_ready hf counter hready
  have hof' := hready'.kept.index
  rw [list_of_kept hf hready.kept hready.gate, list_of_kept hf hready'.kept hready'.gate]
  rw [hstorage] at hcat' hof' ⊢
  constructor
  · intro heq _
    have hslots : s.index.slotsOf = (rebooted hal counter s).index.slotsOf :=
      List.map_injective_iff.mpr
        (fun a b hab ↦ (Prod.mk.inj (Except.ok.inj hab)).1) (Except.ok.inj heq)
    rw [hcat.inSlotOrder_iff, hslots]
    exact hcat'.inSlotOrder_iff.mp horder'
  · intro horder
    rw [slotsOf_eq_of_inSlotOrder hready.kept.index hcat (horder hready) hof' hcat' horder']

/-- In whatever order, they have the same items. -/
theorem sameItems_rebooted (counter : C) (h : Standing hal memory s) :
    SameItems (list hal s) (list hal (rebooted hal counter s)) := by
  rcases h with ⟨hmarker, hgate⟩ | ⟨hready, -⟩
  · rw [← (unprovisioned_answers hf counter (.zero 32) hmarker hgate).1, list, hgate]
    exact rfl
  obtain ⟨hready', hstorage, -, -⟩ := rebooted_ready hf counter hready
  have hof' := hready'.kept.index
  rw [list_of_kept hf hready.kept hready.gate, list_of_kept hf hready'.kept hready'.gate]
  rw [hstorage] at hof' ⊢
  exact (hready.kept.index.slotsOf_perm hof').map _

/-- A store whose index is in order is rebooted transparently. -/
theorem transparent_of_keepsOrder (counter : C) (h : Standing hal memory s)
    (horder : KeepsOrder hal memory s) : Transparent hal s (rebooted hal counter s) := by
  refine ⟨fun fp ↦ ?_, sameItems_rebooted hf counter h⟩
  rcases h with ⟨hmarker, hgate⟩ | ⟨hready, hcat⟩
  · exact (unprovisioned_answers hf counter fp hmarker hgate).2
  obtain ⟨hready', hstorage, hcat', horder'⟩ := rebooted_ready hf counter hready
  have hof' := hready'.kept.index
  rw [lookupByFingerprint_eq hf hready.kept hcat hready.gate,
    lookupByFingerprint_eq hf hready'.kept hcat' hready'.gate, hcat.lookupPrefix_eq,
    hcat'.lookupPrefix_eq]
  rw [hstorage] at hcat' hof' ⊢
  rw [slotsOf_eq_of_inSlotOrder hready.kept.index hcat (horder hready) hof' hcat' horder']

end Runs

/-! ## A blank storage -/

/-- Where an insertion that succeeded went. -/
theorem insert_index (hf : hal.storage.Faithful contactStoreEnd memory) (hkept : Kept memory s)
    (hkeyed : Keyed hal s) {input : NewContact} (h : insert hal input s = (.ok slot, s')) :
    freeSlot hal s input.ownIdentity = .ok slot ∧
      s.index.insert input.fingerprint slot (newFlags input) = .ok s'.index := by
  have hend := insert_outcome hf input hkept hkeyed
  rw [h] at hend
  cases hend with
  | done _ hslot _ _ _ _ _ _ _ _ _ hindex => exact ⟨hslot, hindex⟩

/-- The slots for identities of one's own are before those for recipients. -/
theorem own_lt_recipient {slot' : UInt8} (hf : hal.storage.Faithful contactStoreEnd memory)
    (hown : freeSlot hal s true = .ok slot) (hrecipient : freeSlot hal s' false = .ok slot') :
    slot < slot' := by
  have hsorted : (slots.take recipientSlotStart ++ slots.drop recipientSlotStart).Pairwise
      (· < ·) := by
    rw [List.take_append_drop]
    decide +kernel
  exact (List.pairwise_append.mp hsorted).2.2 slot (findEmptySlot_ok hf hown).1 slot'
    (findEmptySlot_ok hf hrecipient).1

/-- With two entries, a lookup comes upon the record of the last. -/
theorem lookup_of_pair (hf : hal.storage.Faithful contactStoreEnd memory) {a b : UInt8}
    (hready : Ready hal memory s) (hcat : Catalogued (memory s.storage) s.index)
    (hslots : s.index.slotsOf = [a, b]) {fp : Block 32}
    (hpre : prefixAt (memory s.storage) b = prefixOf fp) : lookupByFingerprint hal s fp
      = if (recordIn (memory s.storage) b).fingerprint = fp then
          .ok (recordIn (memory s.storage) b)
        else .error .slotNotFound := by
  have hfound : s.index.lookupPrefix (prefixOf fp) = some b := by
    rw [hcat.lookupPrefix_eq, hslots]
    exact SortedTable.bisect_pair hpre
  rw [lookupByFingerprint_eq hf hready.kept hcat hready.gate, hfound, Option.elim_some]

/-- An identity of one's own with a fingerprint that starts like the zero one. -/
def ownNearZero : NewContact := { bareContact nearZero with ownIdentity := true }

/-- A contact takes a slot for recipients, and then an identity of one's own one before it. -/
def contactThenOwn : List (StoreAction UInt32) :=
  [.provisionFresh, .insert (bareContact (.zero 32)), .insert ownNearZero]

/-- The identity goes behind the contact in the index. -/
theorem contactThenOwn_store : ∃ s slot₁ slot₂,
    (afterActions samplePlatform (new blank 0 (.zero 32), 0) contactThenOwn).1 = s ∧
      slot₂ < slot₁ ∧ s.index.slotsOf = [slot₁, slot₂] ∧ s.integrityGate = true ∧
      (recordIn s.storage slot₁).fingerprint = .zero 32 ∧
      (recordIn s.storage slot₂).fingerprint = nearZero := by
  have hf := samplePlatform_faithful
  obtain ⟨slot₁, hslot₁, s₁, hrun₁, hkept₁, hkeyed₁, hgate₁, hrecord₁, hvacant₁⟩ :=
    insert_bareContact (.zero 32)
  obtain ⟨hfound₁, hindex₁⟩ := insert_index hf kept_provisioned keyed_provisioned hrun₁
  obtain ⟨slot₀, hfree⟩ : ∃ slot, freeSlot samplePlatform s₁ true = .ok slot := by
    have hvacant : ¬ Occupied s₁.storage 0 := by
      refine hvacant₁ 0 (by decide) ?_
      rintro rfl
      exact absurd (findEmptySlot_ok hf hfound₁).1 (by decide +kernel)
    exact freeSlot_of_free hf (by decide) hvacant
  obtain ⟨slot₂, hslot₂, s₂, hrun₂, hfree₂, hkept₂, -, hgate₂, hrecord₂, hothers₂⟩ :=
    insert_empty hf ownNearZero hkept₁ hkeyed₁ hgate₁ ⟨slot₀, hfree⟩ rfl rfl rfl rfl
  obtain ⟨hfound₂, hindex₂⟩ := insert_index hf hkept₁ hkeyed₁ hrun₂
  have hlt : slot₂ < slot₁ := own_lt_recipient hf hfound₂ hfound₁
  have hsame : recordIn s₂.storage slot₁ = recordIn s₁.storage slot₁ :=
    hothers₂ slot₁ hslot₁ (Std.ne_of_lt hlt).symm
  obtain ⟨-, -, -, -, hfp₁⟩ := hrecord₁
  obtain ⟨-, -, -, -, hfp₂⟩ := hrecord₂
  refine ⟨s₂, slot₁, slot₂, ?_, hlt, ?_, hgate₂, ?_, ?_⟩
  · rw [contactThenOwn, afterActions_cons, after_provisionFresh, afterActions_cons,
      afterActions_cons, afterActions_nil, StoreAction.after, StoreAction.after, hrun₁, hrun₂]
  · rw [ContactIndex.insert_eq] at hindex₁ hindex₂
    split_ifs at hindex₁ hindex₂
    have hentries₁ := congrArg ContactIndex.entries (Except.ok.inj hindex₁)
    have hentries₂ := congrArg ContactIndex.entries (Except.ok.inj hindex₂)
    have hfirst : s₁.index.entries
        = [ContactIndex.entryOf (.zero 32) slot₁ (newFlags (bareContact (.zero 32)))] :=
      hentries₁.symm.trans (SortedTable.insert_of_not_lt (by rintro e ⟨⟩))
    rw [hfirst, SortedTable.insert_of_not_lt fun e he ↦ ?_] at hentries₂
    · rw [ContactIndex.slotsOf, ← hentries₂]
      rfl
    · rw [List.mem_singleton.mp he]
      change ¬ prefixOf nearZero < prefixOf (.zero 32)
      decide +kernel
  · rw [hsame, hfp₁]
  · exact hfp₂

end ContactStore

end Galdralag.Contacts
