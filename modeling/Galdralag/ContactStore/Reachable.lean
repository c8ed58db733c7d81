import Galdralag.ContactStore.Outcomes

/-!
# Reachable stores

A slot is a byte, and the byte is given by the caller: an update, a deletion or an append to the log
may name a slot behind the last record. Its address lies in the string heap then. The records, the
index and the bump pointers are not changed by that, so a store that is reached by any calls at all
still fits its records.
-/

set_option linter.all false

namespace Galdralag.Contacts

namespace ContactStore

open Fallible (bind_of_ok bind_of_error require_of)

variable {S C : Type} {hal : StorePlatform S C} {memory : S → Memory} {s s₁ : ContactStore S C}
  {mem : Memory} {heap keys : ℕ} {slot : UInt8} {r : ContactRecord}

/-! ## Slots behind the last record -/

/-- A record that is written behind the last one changes none of them. -/
theorem Live.written_outside (h : Live mem heap keys) (hslot : slot ∉ slots)
    (hgood : GoodSlot r.asBytes) : Live (ContactStore.written mem slot r) heap keys where
  sound := h.sound.patch_record slot hgood
  heap_le := h.heap_le
  keys_le := h.keys_le
  fits slot' hslot' hocc := by
    have hne : slot' ≠ slot := fun heq ↦ hslot (heq ▸ hslot')
    rw [occupied_written, if_neg hne] at hocc
    rw [recordIn_written_of_ne hne]
    exact h.fits slot' hslot' hocc

theorem IndexOf.written_outside {index : ContactIndex} (h : IndexOf mem index)
    (hslot : slot ∉ slots) : IndexOf (ContactStore.written mem slot r) index := by
  refine ⟨h.nodup, fun slot' ↦ ?_⟩
  rw [h.mem_iff]
  refine and_congr_right fun hslot' ↦ ?_
  rw [occupied_written, if_neg fun heq : slot' = slot ↦ hslot (heq ▸ hslot')]

/-- What leaves the records alone leaves the index right. -/
theorem IndexOf.of_intact {mem' : Memory} {index : ContactIndex} (h : IndexOf mem index)
    (hintact : Intact heap keys mem mem') : IndexOf mem' index := by
  refine ⟨h.nodup, fun slot ↦ ?_⟩
  rw [h.mem_iff]
  exact and_congr_right fun hslot ↦ (occupied_congr hintact hslot).symm

/-- **The ends of an update** of a slot behind the last record. -/
inductive UpdateBehind (hal : StorePlatform S C) (memory : S → Memory) (s : ContactStore S C)
    (slot : UInt8) (upd : ContactUpdate) :
    Except ContactStoreError PUnit × ContactStore S C → Prop where
  | refused {e : ContactStoreError} (hne : e ≠ .heapFull) :
    UpdateBehind hal memory s slot upd (.error e, s)
  | emailRefused {r : ContactRecord} {email : Bytes} (hgate : s.integrityGate = true)
    (hread : readRecord hal s slot = .ok r) (hactive : r.isActive = true)
    (hsome : upd.email = some email) (hemail : ¬ StringTaken s.stringHeap.bump.toNat email) :
    UpdateBehind hal memory s slot upd (.error (stringRefusal email), s)
  | nameRefused {r : ContactRecord} {s₁ : ContactStore S C} {name : Bytes}
    (hgate : s.integrityGate = true) (hread : readRecord hal s slot = .ok r)
    (hactive : r.isActive = true)
    (hemail : ∀ bytes, upd.email = some bytes → StringTaken s.stringHeap.bump.toNat bytes)
    (hsome : upd.displayName = some name)
    (hname : ¬ StringTaken (s.stringHeap.bump.toNat + (upd.email.getD []).length) name)
    (halloc : Allots memory s s₁ (upd.email.getD []).length 0) :
    UpdateBehind hal memory s slot upd (.error (stringRefusal name), s₁)
  | done {r q : ContactRecord} {s₁ s' : ContactStore S C} {d : Block 32}
    (hgate : s.integrityGate = true) (hread : readRecord hal s slot = .ok r)
    (hactive : r.isActive = true)
    (hemail : ∀ bytes, upd.email = some bytes → StringTaken s.stringHeap.bump.toNat bytes)
    (hname : ∀ bytes, upd.displayName = some bytes →
      StringTaken (s.stringHeap.bump.toNat + (upd.email.getD []).length) bytes)
    (halloc : Allots memory s s₁ ((upd.email.getD []).length + (upd.displayName.getD []).length) 0)
    (hindex : s'.index = upd.stale.elim s.index fun stale ↦
      s.index.updateFlags slot (staleFlags r stale))
    (hcommits : Commits hal memory s₁ s' slot q d)
    (hrest : s' = { s₁ with
      storage := s'.storage, index := s'.index, integrityRegister := s'.integrityRegister }) :
    UpdateBehind hal memory s slot upd (.ok ⟨⟩, s')

section Outside

variable (hf : hal.storage.Faithful contactStoreEnd memory)
include hf

/-- **An update behind the last record** is refused, or allocates and may write what it read there.
-/
theorem update_behind (upd : ContactUpdate) (hkept : Kept memory s) (hkeyed : Keyed hal s)
    (hslot : slot ∉ slots) : UpdateBehind hal memory s slot upd (update hal slot upd s) := by
  rcases Bool.eq_false_or_eq_true s.integrityGate with hgate | hgate
  swap
  · rw [update, bind_of_error (gate_of_closed hgate)]
    exact .refused (by decide)
  rw [update_eq, bind_of_ok (gate_of_open hgate)]
  rcases hread : readRecord hal s slot with e | r
  · rw [bind_of_error (by rw [Fallible.reading_apply, hread])]
    exact .refused (readRecord_errors (P := (· ≠ .heapFull)) (by decide) (by decide) (by decide)
      (by decide) s slot e hread)
  rw [bind_of_ok (by rw [Fallible.reading_apply, hread])]
  by_cases hactive : r.isActive = true
  swap
  · rw [bind_of_error (by rw [Fallible.require, if_neg hactive, Fallible.fail_apply])]
    exact .refused (by decide)
  rw [bind_of_ok (require_of hactive _ _)]
  rcases allocOption_cases hf upd.email r.email with
    ⟨email, hsome, hemail, hrun⟩ | ⟨email, s₁, hrun₁, halloc₁, hemail, -⟩
  · rw [bind_of_error hrun]
    exact .emailRefused hgate hread hactive hsome hemail
  rw [bind_of_ok hrun₁]
  have hheap₁ := halloc₁.heap_eq
  rcases allocOption_cases hf (s := s₁) upd.displayName r.displayName with
    ⟨name, hsome, hname, hrun⟩ | ⟨name, s₂, hrun₂, halloc₂, hname, -⟩
  · rw [bind_of_error hrun]
    rw [hheap₁] at hname
    exact .nameRefused hgate hread hactive (fun b hb ↦ (hemail b hb).1) hsome hname halloc₁
  rw [bind_of_ok hrun₂, Fallible.modify_bind]
  have halloc := halloc₁.trans halloc₂
  obtain ⟨ws, hws⟩ := halloc.allocates
  have hkept₂ := hws.kept hkept
  have hload : r.Loadable := readRecord_ok hread
  have hgood : GoodSlot (updatedRecord upd r email name).recomputeCrc.asBytes :=
    goodSlot_recomputeCrc fun _ ↦ hload hactive
  set index := upd.stale.elim s₂.index fun stale ↦ s₂.index.updateFlags slot (staleFlags r stale)
    with hindex
  have hindexOf : IndexOf (memory s₂.storage) index := by
    rw [hindex]
    rcases upd.stale with _ | stale
    · exact hkept₂.index
    · exact hkept₂.index.updateFlags slot _
  obtain ⟨x, d, s', hwrite, hupdate, hcommits, hrest⟩ :=
    commit_run hf (s := { s₂ with index := index }) (hkept₂.live.written_outside hslot hgood)
      (hkeyed.congr hws.masterKey) (hindexOf.written_outside hslot)
  have hs' : s'.index = index := by rw [hrest]
  rw [bind_of_ok hwrite, hupdate]
  refine .done hgate hread hactive (fun b hb ↦ (hemail b hb).1) (fun b hb ↦ ?_) halloc ?_
    ⟨hcommits.kept, hcommits.gate, hcommits.masterKey, hcommits.live, hcommits.digest,
      hcommits.memory_eq⟩ ?_
  · rw [← hheap₁]
    exact (hname b hb).1
  · rw [hs', hindex, hws.index]
  · rw [hs']
    exact hrest

/-- The digest is computed and stored, or nothing happens. -/
theorem updateIntegrity_cases (s : ContactStore S C) :
    (∃ e, updateIntegrity hal s = (.error e, s)) ∨
      ∃ x d, updateIntegrity hal s = (.ok ⟨⟩, { s with storage := x, integrityRegister := d }) ∧
        memory x = (memory s.storage).patch contactStoreIntegrityOffset d.toBytes := by
  rcases hd : computeIntegrityDigest hal s with e | d
  · refine .inl ⟨e, ?_⟩
    rw [updateIntegrity, bind_of_error (by rw [Fallible.reading_apply, hd])]
  · obtain ⟨x, hrun⟩ := updateIntegrity_runs hf s hd
    exact .inr ⟨x, d, hrun.run, hrun.memory_eq⟩

end Outside

/-! ## Actions -/

/-- Anything that is done to a store. -/
inductive StoreAction (C : Type) where
  | provisionFresh
  | insert (input : NewContact)
  | update (slot : UInt8) (upd : ContactUpdate)
  | delete (slot : UInt8)
  | timingLogAppend (slot : UInt8) (lastFetched : UInt32)
  | verifyIntegrity
  | updateIntegrity
  /-- A PIN attempt moves the counter. -/
  | count (counter : C)
  /-- A boot of the store as it is. -/
  | initOnBoot
  /-- Power cycle: a new store over the same storage, under the same master key, is booted. -/
  | reboot (counter : C)
  /-- The power is lost, or the storage fails, after `n` writes of an operation; then a power cycle.
  -/
  | interrupted (op : Mutation) (n : ℕ) (counter : C)

/-- The store after an action, beside its provisioning counter. -/
def StoreAction.after (hal : StorePlatform S C) (p : ContactStore S C × C) :
    StoreAction C → ContactStore S C × C
  | .provisionFresh => (ContactStore.provisionFresh hal p).2
  | .insert input => ((ContactStore.insert hal input p.1).2, p.2)
  | .update slot upd => ((ContactStore.update hal slot upd p.1).2, p.2)
  | .delete slot => ((ContactStore.delete hal slot p.1).2, p.2)
  | .timingLogAppend slot lastFetched =>
    ((ContactStore.timingLogAppend hal slot lastFetched p.1).2, p.2)
  | .verifyIntegrity => ((ContactStore.verifyIntegrity hal p.1).2, p.2)
  | .updateIntegrity => ((ContactStore.updateIntegrity hal p.1).2, p.2)
  | .count counter => ({ p.1 with counter := counter }, p.2)
  | .initOnBoot => ((ContactStore.initOnBoot hal p.1).2, p.2)
  | .reboot counter =>
    ((ContactStore.initOnBoot hal (new p.1.storage counter p.1.masterKey)).2, p.2)
  | .interrupted op n counter =>
    ((ContactStore.initOnBoot hal (new (op.interrupted hal p.1 n) counter p.1.masterKey)).2, p.2)

/-- The store after some actions. -/
def afterActions (hal : StorePlatform S C) (p : ContactStore S C × C)
    (actions : List (StoreAction C)) : ContactStore S C × C :=
  actions.foldl (StoreAction.after hal) p

/-- The store after some actions, by itself. A store that is defined by a run on fixed inputs unfolds
to this, and not into what the run computes. -/
def storeAfter (hal : StorePlatform S C) (p : ContactStore S C × C)
    (actions : List (StoreAction C)) : ContactStore S C :=
  (afterActions hal p actions).1

theorem storeAfter_eq (p : ContactStore S C × C) (actions : List (StoreAction C)) :
    storeAfter hal p actions = (afterActions hal p actions).1 := rfl

/-! ## What an action does -/

/-- Nothing of the contacts has changed: neither the records nor what they refer to, nor the index,
nor the bump pointers. -/
structure Settled (memory : S → Memory) (s s' : ContactStore S C) : Prop where
  intact : Intact s.stringHeap.bump.toNat s.keyRegion.bump.toNat (memory s.storage)
    (memory s'.storage)
  index : s'.index = s.index
  heap : s'.stringHeap = s.stringHeap
  keys : s'.keyRegion = s.keyRegion
  masterKey : s'.masterKey = s.masterKey

/-- A store behind a boot scan. -/
structure Rebuilt (memory : S → Memory) (s : ContactStore S C) : Prop where
  live : ∃ heap keys, Live (memory s.storage) heap keys
  index : s.index = .rebuildFromRecords (slots.map (recordIn (memory s.storage)))
  heap : s.stringHeap
    = StringHeap.new.setBump (scanBumps (slots.map (recordIn (memory s.storage)))).1
  keys : s.keyRegion
    = KeyMaterialRegion.new.setBump (scanBumps (slots.map (recordIn (memory s.storage)))).2

theorem Settled.kept (h : Settled memory s s₁) (hkept : Kept memory s) : Kept memory s₁ := by
  refine ⟨?_, ?_⟩
  · rw [h.heap, h.keys]
    exact hkept.live.of_intact h.intact
  · rw [h.index]
    exact hkept.index.of_intact h.intact

theorem Rebuilt.kept (h : Rebuilt memory s) : Kept memory s := by
  obtain ⟨heap, keys, hlive⟩ := h.live
  exact kept_of_live hlive h.index h.heap h.keys

/-- What an action does to a provisioned store. The three operations end as their outcomes say. -/
inductive ActionEffect (hal : StorePlatform S C) (memory : S → Memory) (s : ContactStore S C) :
    StoreAction C → ContactStore S C → Prop where
  | settled {action : StoreAction C} {s' : ContactStore S C} (h : Settled memory s s') :
    ActionEffect hal memory s action s'
  | booted {action : StoreAction C} {s' : ContactStore S C} (h : Rebuilt memory s')
    (hstorage : s'.storage = s.storage) (hkey : s'.masterKey = s.masterKey) :
    ActionEffect hal memory s action s'
  | interrupted {op : Mutation} {n : ℕ} {counter : C} {s' : ContactStore S C}
    (h : Rebuilt memory s') (hstorage : s'.storage = op.interrupted hal s n)
    (hkey : s'.masterKey = s.masterKey) :
    ActionEffect hal memory s (.interrupted op n counter) s'
  | insert (input : NewContact) :
    ActionEffect hal memory s (.insert input) (insert hal input s).2
  | update (slot : UInt8) (upd : ContactUpdate) :
    ActionEffect hal memory s (.update slot upd) (update hal slot upd s).2
  | delete (slot : UInt8) : ActionEffect hal memory s (.delete slot) (delete hal slot s).2

section Reachable

variable (hf : hal.storage.Faithful contactStoreEnd memory)
include hf

/-- A boot leaves a store as the scan makes it. -/
theorem initOnBoot_rebuilt (hlive : Live (memory s.storage) heap keys) :
    Rebuilt memory (initOnBoot hal s).2 ∧ (initOnBoot hal s).2.storage = s.storage ∧
      (initOnBoot hal s).2.masterKey = s.masterKey := by
  have hscan : Rebuilt memory (rescanned memory s) := by
    refine ⟨⟨heap, keys, ?_⟩, ?_, ?_, ?_⟩
    · rw [rescanned_storage]
      exact hlive
    · rw [rescanned_index, rescanned_storage]
    · rw [rescanned_heap, rescanned_storage]
    · rw [rescanned_keys, rescanned_storage]
  rw [initOnBoot_eq_verify hf hlive.sound,
    verifyIntegrity_state hf (s := rescanned memory s) hlive.sound.marker]
  exact ⟨⟨hscan.live, hscan.index, hscan.heap, hscan.keys⟩, rfl, rfl⟩

omit hf in
/-- Refreshing the register leaves the record that was written, and all others. -/
theorem Commits.intact {s' : ContactStore S C} {d : Block 32}
    (h : Commits hal memory s₁ s' slot r d) :
    Intact s₁.stringHeap.bump.toNat s₁.keyRegion.bump.toNat
      (written (memory s₁.storage) slot r) (memory s'.storage) := by
  rw [h.memory_eq]
  exact intact_patch_register h.live.heap_le h.live.keys_le d.toBytes

omit hf in
theorem Allots.kept {m n : ℕ} (h : Allots memory s s₁ m n) (hkept : Kept memory s) :
    Kept memory s₁ ∧ s₁.masterKey = s.masterKey := by
  obtain ⟨ws, hws⟩ := h.allocates
  exact ⟨hws.kept hkept, hws.masterKey⟩

omit hf in
theorem Commits.masterKey_eq {s' : ContactStore S C} {d : Block 32} {m n : ℕ}
    (h : Commits hal memory s₁ s' slot r d) (halloc : Allots memory s s₁ m n) :
    s'.masterKey = s.masterKey := by
  obtain ⟨ws, hws⟩ := halloc.allocates
  exact h.masterKey.trans hws.masterKey

/-- **What an action does** to a provisioned store. -/
theorem action_effect {p : ContactStore S C × C} (hkept : Kept memory p.1) (hkeyed : Keyed hal p.1)
    (action : StoreAction C) : ActionEffect hal memory p.1 action (action.after hal p).1 := by
  have hlive := hkept.live
  cases action with
  | provisionFresh =>
    rw [StoreAction.after, provisionFresh_again hf hlive.sound.marker]
    exact .settled ⟨.refl _ _ _, rfl, rfl, rfl, rfl⟩
  | insert input => exact .insert input
  | update slot upd => exact .update slot upd
  | delete slot => exact .delete slot
  | timingLogAppend slot lastFetched =>
    obtain ⟨heq, hsame⟩ := timingLogAppend_frame hf slot lastFetched p.1
    rw [StoreAction.after, heq]
    exact .settled ⟨intact_of_sameButLog hlive.heap_le hlive.keys_le hsame, rfl, rfl, rfl, rfl⟩
  | verifyIntegrity =>
    rw [StoreAction.after, verifyIntegrity_state hf hlive.sound.marker]
    exact .settled ⟨.refl _ _ _, rfl, rfl, rfl, rfl⟩
  | updateIntegrity =>
    rw [StoreAction.after]
    rcases updateIntegrity_cases hf p.1 with ⟨e, hrun⟩ | ⟨x, d, hrun, hmem⟩
    · rw [hrun]
      exact .settled ⟨.refl _ _ _, rfl, rfl, rfl, rfl⟩
    · rw [hrun]
      refine .settled ⟨?_, rfl, rfl, rfl, rfl⟩
      rw [hmem]
      exact intact_patch_register hlive.heap_le hlive.keys_le d.toBytes
  | count counter => exact .settled ⟨.refl _ _ _, rfl, rfl, rfl, rfl⟩
  | initOnBoot =>
    obtain ⟨hrebuilt, hstorage, hkey⟩ := initOnBoot_rebuilt hf hlive
    rw [StoreAction.after]
    exact .booted hrebuilt hstorage hkey
  | reboot counter =>
    obtain ⟨hrebuilt, hstorage, hkey⟩ :=
      initOnBoot_rebuilt hf (s := new p.1.storage counter p.1.masterKey) hlive
    rw [StoreAction.after]
    exact .booted hrebuilt hstorage hkey
  | interrupted op n counter =>
    obtain ⟨heap, keys, hlive'⟩ := Mutation.live_interrupted hf hkept hkeyed op n
    obtain ⟨hrebuilt, hstorage, hkey⟩ :=
      initOnBoot_rebuilt hf (s := new (op.interrupted hal p.1 n) counter p.1.masterKey) hlive'
    rw [StoreAction.after]
    exact .interrupted hrebuilt hstorage hkey

/-- An action on a store that was never provisioned leaves it so, or provisions it. -/
theorem after_unprovisioned {p : ContactStore S C × C}
    (hmarker : u32OfLe ((memory p.1.storage).window contactStoreProvisionMarkerOffset 4) = 0)
    (hgate : p.1.integrityGate = false) (action : StoreAction C) :
    u32OfLe ((memory (action.after hal p).1.storage).window
        contactStoreProvisionMarkerOffset 4) = 0 ∧
        (action.after hal p).1.integrityGate = false ∨
      action = .provisionFresh ∧ (ContactStore.provisionFresh hal p).1 = .ok ⟨⟩ ∧
        Ready hal memory (action.after hal p).1 ∧
        held (memory (action.after hal p).1.storage) = fun _ ↦ none := by
  have hboot : ∀ {s : ContactStore S C},
      u32OfLe ((memory s.storage).window contactStoreProvisionMarkerOffset 4) = 0 →
      s.integrityGate = false →
      u32OfLe ((memory (ContactStore.initOnBoot hal s).2.storage).window
        contactStoreProvisionMarkerOffset 4) = 0 ∧
        (ContactStore.initOnBoot hal s).2.integrityGate = false := by
    intro s hmarker hgate
    obtain ⟨hgate', hstorage, -⟩ := initOnBoot_unprovisioned hf hmarker hgate
    rw [hstorage]
    exact ⟨hmarker, hgate'⟩
  cases action with
  | provisionFresh =>
    rcases provisionFresh_cases hf p.2 hmarker with
      ⟨s', c', hrun, hready, hheld, -⟩ | ⟨e, s', c', hrun, hsame, -, hmarker'⟩
    · have hrun : ContactStore.provisionFresh hal p = (.ok ⟨⟩, (s', c')) := hrun
      rw [StoreAction.after, hrun]
      exact .inr ⟨rfl, rfl, hready, hheld⟩
    · have hrun : ContactStore.provisionFresh hal p = (.error e, (s', c')) := hrun
      rw [StoreAction.after, hrun]
      exact .inl ⟨hmarker', hsame.trans hgate⟩
  | insert input =>
    rw [StoreAction.after, ContactStore.insert, gate_bind_of_closed hgate]
    exact .inl ⟨hmarker, hgate⟩
  | update slot upd =>
    rw [StoreAction.after, ContactStore.update, gate_bind_of_closed hgate]
    exact .inl ⟨hmarker, hgate⟩
  | delete slot =>
    rw [StoreAction.after, ContactStore.delete, gate_bind_of_closed hgate]
    exact .inl ⟨hmarker, hgate⟩
  | timingLogAppend slot lastFetched =>
    rw [StoreAction.after, ContactStore.timingLogAppend, gate_bind_of_closed hgate]
    exact .inl ⟨hmarker, hgate⟩
  | verifyIntegrity =>
    rw [StoreAction.after, ContactStore.verifyIntegrity,
      bind_of_ok (Fallible.reading_eq_ok.mpr ⟨readProvisionMarker_eq hf _, rfl⟩), if_pos hmarker]
    exact .inl ⟨hmarker, rfl⟩
  | updateIntegrity =>
    rw [StoreAction.after]
    rcases updateIntegrity_cases hf p.1 with ⟨e, hrun⟩ | ⟨x, d, hrun, hmem⟩
    · rw [hrun]
      exact .inl ⟨hmarker, hgate⟩
    · rw [hrun]
      refine .inl ⟨?_, hgate⟩
      change u32OfLe ((memory x).window contactStoreProvisionMarkerOffset 4) = 0
      rw [hmem, Memory.window_patch_of_disjoint (.inl (by decide))]
      exact hmarker
  | count counter => exact .inl ⟨hmarker, hgate⟩
  | initOnBoot => exact .inl (hboot hmarker hgate)
  | reboot counter => exact .inl (hboot (s := new p.1.storage counter p.1.masterKey) hmarker rfl)
  | interrupted op n counter =>
    have hclosed : op.run hal.fused (p.1.fuse n) = (.error .notInitialised, p.1.fuse n) :=
      op.run_closed hgate
    have hstorage : op.interrupted hal p.1 n = p.1.storage := by
      rw [Mutation.interrupted, hclosed]
      rfl
    rw [StoreAction.after, hstorage]
    exact .inl (hboot (s := new p.1.storage counter p.1.masterKey) hmarker rfl)

/-- Every action keeps a provisioned store, and its master key. -/
theorem kept_step {p : ContactStore S C × C} (hkept : Kept memory p.1) (hkeyed : Keyed hal p.1)
    (action : StoreAction C) : Kept memory (action.after hal p).1 ∧
      (action.after hal p).1.masterKey = p.1.masterKey := by
  have heffect := action_effect hf hkept hkeyed action
  generalize (action.after hal p).1 = s' at heffect ⊢
  cases heffect with
  | settled h => exact ⟨h.kept hkept, h.masterKey⟩
  | booted h hstorage hkey => exact ⟨h.kept, hkey⟩
  | interrupted h hstorage hkey => exact ⟨h.kept, hkey⟩
  | insert input =>
    have hend := insert_outcome hf input hkept hkeyed
    generalize insert hal input p.1 = res at hend ⊢
    cases hend with
    | closed hgate => exact ⟨hkept, rfl⟩
    | full hgate hslot => exact ⟨hkept, rfl⟩
    | keyRefused hgate hslot hkey => exact ⟨hkept, rfl⟩
    | unverified hgate hslot hkey hpin halloc => exact halloc.kept hkept
    | emailRefused hgate hslot hkey hpin hemail halloc => exact halloc.kept hkept
    | nameRefused hgate hslot hkey hpin hemail hsome hname halloc => exact halloc.kept hkept
    | done hgate hslot hkey hpin hemail hname halloc hkeyAt hemailAt hoffset hnameAt hindex
        hcommits =>
      exact ⟨hcommits.kept, hcommits.masterKey_eq halloc⟩
  | update slot upd =>
    by_cases hslot : slot ∈ slots
    · have hend := update_outcome hf upd hkept hkeyed hslot
      generalize update hal slot upd p.1 = res at hend ⊢
      cases hend with
      | closed hgate => exact ⟨hkept, rfl⟩
      | vacant hgate hfree => exact ⟨hkept, rfl⟩
      | emailRefused hgate hocc hsome hemail => exact ⟨hkept, rfl⟩
      | nameRefused hgate hocc hemail hsome hname halloc => exact halloc.kept hkept
      | done hgate hocc hemail hemailKept hname hnameKept halloc hindex hcommits =>
        exact ⟨hcommits.kept, hcommits.masterKey_eq halloc⟩
    · have hend := update_behind hf upd hkept hkeyed hslot
      generalize update hal slot upd p.1 = res at hend ⊢
      cases hend with
      | refused hne => exact ⟨hkept, rfl⟩
      | emailRefused hgate hread hactive hsome hemail => exact ⟨hkept, rfl⟩
      | nameRefused hgate hread hactive hemail hsome hname halloc => exact halloc.kept hkept
      | done hgate hread hactive hemail hname halloc hindex hcommits =>
        exact ⟨hcommits.kept, hcommits.masterKey_eq halloc⟩
  | delete slot =>
    have hend := delete_outcome hf hkept hkeyed slot
    generalize delete hal slot p.1 = res at hend ⊢
    cases hend with
    | closed hgate => exact ⟨hkept, rfl⟩
    | done hgate hindex hcommits hrest => exact ⟨hcommits.kept, hcommits.masterKey⟩

/-- **Step.** Every action leaves a tracked store. -/
theorem tracked_step {p : ContactStore S C × C} (h : Tracked hal memory p.1)
    (action : StoreAction C) : Tracked hal memory (action.after hal p).1 := by
  rcases h with ⟨hmarker, hgate⟩ | ⟨hkept, hkeyed⟩
  · rcases after_unprovisioned hf hmarker hgate action with ⟨hmarker', hgate'⟩ | ⟨-, -, hready, -⟩
    · exact .unprovisioned hmarker' hgate'
    · exact .provisioned hready.kept (hready.keyed hf)
  · obtain ⟨hkept', hkey⟩ := kept_step hf hkept hkeyed action
    exact .provisioned hkept' (hkeyed.congr hkey)

/-- **Run.** So every reachable store is tracked. -/
theorem tracked_afterActions (actions : List (StoreAction C)) : ∀ {p : ContactStore S C × C},
    Tracked hal memory p.1 → Tracked hal memory (afterActions hal p actions).1 := by
  induction actions with
  | nil => exact id
  | cons action actions ih => exact fun h ↦ ih (tracked_step hf h action)

/-- What every action keeps holds of every reachable store. -/
theorem reachable_induction {P : ContactStore S C → Prop}
    (hstep : ∀ (p : ContactStore S C × C) (action : StoreAction C), Tracked hal memory p.1 → P p.1 →
      P (action.after hal p).1) (actions : List (StoreAction C)) :
    ∀ {p : ContactStore S C × C}, Tracked hal memory p.1 → P p.1 →
      P (afterActions hal p actions).1 := by
  induction actions with
  | nil => exact fun _ hp ↦ hp
  | cons action actions ih =>
    exact fun h hp ↦ ih (tracked_step hf h action) (hstep _ action h hp)

end Reachable

@[simp] theorem afterActions_nil (p : ContactStore S C × C) : afterActions hal p [] = p := rfl

@[simp] theorem afterActions_cons (p : ContactStore S C × C) (action : StoreAction C)
    (actions : List (StoreAction C)) :
    afterActions hal p (action :: actions) = afterActions hal (action.after hal p) actions := rfl

theorem afterActions_append (p : ContactStore S C × C) (actions actions' : List (StoreAction C)) :
    afterActions hal p (actions ++ actions')
      = afterActions hal (afterActions hal p actions) actions' :=
  List.foldl_append

/-! ## A blank storage -/

theorem after_provisionFresh :
    StoreAction.after samplePlatform (new blank 0 (.zero 32), 0) .provisionFresh
      = (provisioned (.zero 32), 1) := by
  rw [StoreAction.after, provisionFresh_blank]

theorem afterActions_provisionFresh :
    afterActions samplePlatform (new blank 0 (.zero 32), 0) [.provisionFresh]
      = (provisioned (.zero 32), 1) := by
  rw [afterActions_cons, after_provisionFresh, afterActions_nil]

end ContactStore

end Galdralag.Contacts
