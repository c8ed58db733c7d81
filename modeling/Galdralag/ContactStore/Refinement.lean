import Galdralag.ContactStore.Mutations

/-!
# The store as a directory

What the store is for: a map from slots to contacts that outlives a loss of power. Over any run of
provisioning, insertions, updates, deletions and reboots, applying to a map each call that succeeded
gives what the store shows.

What carries the proof is that a store keeps its records before the bump pointers, whichever way it
came by them: an allocation moves them on, and a boot finds them again in the records that are left.
-/

set_option linter.all false

namespace Galdralag.Contacts

namespace ContactStore

open Fallible (bind_of_ok bind_of_error require_of)

variable {S C : Type} {hal : StorePlatform S C} {memory : S → Memory} {s s₁ : ContactStore S C}
  {ws : List (ℕ × Bytes)} {heap keys : ℕ}

/-! ## Ready stores -/

/-- An open store that fits its records, with a current register. -/
structure Ready (hal : StorePlatform S C) (memory : S → Memory) (s : ContactStore S C) : Prop where
  kept : Kept memory s
  gate : s.integrityGate = true
  current : Current hal memory s

theorem Ready.keyed (hf : hal.storage.Faithful contactStoreEnd memory) (h : Ready hal memory s) :
    Keyed hal s := by
  obtain ⟨d, hd, -⟩ := h.current
  obtain ⟨k, hk, -⟩ := (computeIntegrityDigest_eq_ok hf).mp hd
  exact ⟨k, hk⟩

/-- The register of a store is as current as that of another one with the same records and log. -/
theorem Current.congr (hf : hal.storage.Faithful contactStoreEnd memory) (h : Current hal memory s)
    (hkey : s₁.masterKey = s.masterKey) (hrec : SameRecords (memory s.storage) (memory s₁.storage))
    (htail : Memory.AgreeOn timingLogOffset contactStoreEnd (memory s.storage) (memory s₁.storage)) :
    Current hal memory s₁ := by
  obtain ⟨d, hd, hreg⟩ := h
  refine ⟨d, ?_, ?_⟩
  · rw [← hd]
    exact computeIntegrityDigest_congr hf hkey hrec (htail.mono (Nat.le_refl _) (by decide))
  · rw [← hreg]
    exact (Memory.window_congr htail (by decide) (by decide)).symm

/-- Allocations keep a store ready. -/
theorem Ready.of_allocates (hf : hal.storage.Faithful contactStoreEnd memory) (h : Ready hal memory s)
    (halloc : Allocates memory s s₁ ws) : Ready hal memory s₁ := by
  have hheap := h.kept.live.heap_le
  exact ⟨halloc.kept h.kept, halloc.gate.trans h.gate, h.current.congr hf halloc.masterKey
    (halloc.intact hheap).sameRecords (halloc.tail_eq hheap)⟩

/-- So does an operation that takes effect, and the directory has changed in one place. -/
theorem Ready.of_effect {s' : ContactStore S C} {slot : UInt8} {c : Option Contact}
    {tail : List (ℕ × Bytes)} (h : Ready hal memory s) (halloc : Allocates memory s s₁ ws)
    (hslot : slot ∈ slots) (heffect : Effect hal memory slot c s₁ s' tail) :
    Ready hal memory s' ∧
      held (memory s'.storage) = Function.update (held (memory s.storage)) slot c := by
  obtain ⟨r, d, -, hcommits, rfl⟩ := heffect
  refine ⟨⟨hcommits.kept, ?_, d, hcommits.digest, hcommits.register⟩, ?_⟩
  · rw [hcommits.gate, halloc.gate, h.gate]
  · rw [hcommits.held_eq hslot, halloc.held_eq h.kept]

/-- How an operation of a ready store ends. -/
theorem Ready.of_mutating {α : Type} {m : StoreM S C α} {m' : StoreM (S × ℕ) C α} {n : ℕ}
    {Q : α → ContactStore S C → ContactStore S C → List (ℕ × Bytes) → Prop}
    (hf : hal.storage.Faithful contactStoreEnd memory) (h : Ready hal memory s)
    (hm : Mutating memory m m' s n Q) :
    (∃ e s', m s = (.error e, s') ∧ Ready hal memory s' ∧
        held (memory s'.storage) = held (memory s.storage)) ∨
      ∃ a s₁ s' ws tail, m s = (.ok a, s') ∧ Allocates memory s s₁ ws ∧ Q a s₁ s' tail := by
  rcases hm with ⟨e, s', ws, hrun, halloc⟩ | ⟨a, s₁, s', ws, tail, -, halloc, hrun, hQ⟩
  · exact .inl ⟨e, s', hrun.run, h.of_allocates hf halloc, halloc.held_eq h.kept⟩
  · exact .inr ⟨a, s₁, s', ws, tail, hrun.run, halloc, hQ⟩

/-! ## Booting -/

/-- What the boot scan makes of a store. -/
def rescanned (memory : S → Memory) (s : ContactStore S C) : ContactStore S C :=
  let records := slots.map (recordIn (memory s.storage))
  { s with
    stringHeap := StringHeap.new.setBump (scanBumps records).1
    keyRegion := KeyMaterialRegion.new.setBump (scanBumps records).2
    index := .rebuildFromRecords records }

@[simp] theorem rescanned_storage : (rescanned memory s).storage = s.storage := by rw [rescanned]

theorem rescanned_index : (rescanned memory s).index
    = .rebuildFromRecords (slots.map (recordIn (memory s.storage))) := by rw [rescanned]

theorem rescanned_heap : (rescanned memory s).stringHeap
    = StringHeap.new.setBump (scanBumps (slots.map (recordIn (memory s.storage)))).1 := by
  rw [rescanned]

theorem rescanned_keys : (rescanned memory s).keyRegion
    = KeyMaterialRegion.new.setBump (scanBumps (slots.map (recordIn (memory s.storage)))).2 := by
  rw [rescanned]

theorem rescanned_kept (h : Live (memory s.storage) heap keys) :
    Kept memory (rescanned memory s) := by
  apply kept_of_live
  · rw [rescanned_storage]
    exact h
  · rw [rescanned_index, rescanned_storage]
  · rw [rescanned_heap, rescanned_storage]
  · rw [rescanned_keys, rescanned_storage]

section Boot

variable (hf : hal.storage.Faithful contactStoreEnd memory)
include hf

/-- Over sound records a boot scans them and then verifies. -/
theorem initOnBoot_eq_verify (h : Sound (memory s.storage)) :
    initOnBoot hal s = verifyIntegrity hal (rescanned memory s) := by
  have hrecords : slots.mapM (readRecord hal s) = .ok (slots.map (recordIn (memory s.storage))) :=
    mapM_eq_ok fun slot hslot ↦ readRecord_of_sound hf h hslot
  have hread : Fallible.reading (fun s ↦ slots.mapM (readRecord hal s)) s
      = (.ok (slots.map (recordIn (memory s.storage))), s) := by
    rw [Fallible.reading_apply, hrecords]
  rw [initOnBoot, bind_of_ok hread]
  rfl

/-- **Boot.** A boot succeeds when the register is current. -/
theorem initOnBoot_of_current (h : Live (memory s.storage) heap keys) (hcur : Current hal memory s) :
    ∃ s', initOnBoot hal s = (.ok ⟨⟩, s') ∧ Ready hal memory s' ∧ s'.storage = s.storage ∧
      s'.masterKey = s.masterKey := by
  obtain ⟨d, hd, hreg⟩ := hcur
  have hkept := rescanned_kept h
  refine ⟨{ rescanned memory s with integrityRegister := d, integrityGate := true }, ?_,
    ⟨⟨hkept.live, hkept.index⟩, rfl, d, hd, hreg⟩, rfl, rfl⟩
  rw [initOnBoot_eq_verify hf h.sound]
  exact verifyIntegrity_eq hf (s := rescanned memory s) h.sound.marker hd hreg

/-- It is refused when the register is not. -/
theorem initOnBoot_of_stale (h : Sound (memory s.storage)) (hkey : Keyed hal s)
    (hstale : ¬ Current hal memory s) : (initOnBoot hal s).1 = .error .integrityMismatch := by
  obtain ⟨d, hd⟩ := digest_of_sound hf h hkey
  rw [initOnBoot_eq_verify hf h]
  exact verifyIntegrity_stale hf (s := rescanned memory s) h.marker hd fun hreg ↦ hstale ⟨d, hd, hreg⟩

/-- Either way the store fits its records. -/
theorem initOnBoot_kept (h : Live (memory s.storage) heap keys) : Kept memory (initOnBoot hal s).2 ∧
    (initOnBoot hal s).2.storage = s.storage ∧ (initOnBoot hal s).2.masterKey = s.masterKey := by
  have hkept := rescanned_kept h
  rw [initOnBoot_eq_verify hf h.sound,
    verifyIntegrity_state hf (s := rescanned memory s) h.sound.marker]
  exact ⟨⟨hkept.live, hkept.index⟩, rfl, rfl⟩

/-- A new store over a storage that is not provisioned stays closed. -/
theorem initOnBoot_unprovisioned
    (hmarker : u32OfLe ((memory s.storage).window contactStoreProvisionMarkerOffset 4) = 0)
    (hgate : s.integrityGate = false) : (initOnBoot hal s).2.integrityGate = false ∧
      (initOnBoot hal s).2.storage = s.storage ∧ (initOnBoot hal s).2.masterKey = s.masterKey := by
  rw [initOnBoot]
  rcases hread : slots.mapM (readRecord hal s) with e | records
  · rw [bind_of_error (by rw [Fallible.reading_apply, hread])]
    exact ⟨hgate, rfl, rfl⟩
  · rw [bind_of_ok (by rw [Fallible.reading_apply, hread]), Fallible.modify_bind, verifyIntegrity,
      bind_of_ok (Fallible.reading_eq_ok.mpr ⟨readProvisionMarker_eq hf _, rfl⟩), if_pos hmarker]
    exact ⟨rfl, rfl, rfl⟩

end Boot

/-! ## Provisioning -/

/-- A store without a record in its band. -/
theorem kept_of_emptyBand (h : EmptyBand (memory s.storage))
    (hmarker : u32OfLe ((memory s.storage).window contactStoreProvisionMarkerOffset 4) ≠ 0)
    (hindex : s.index = .new) (hheap : s.stringHeap = .new) (hkeys : s.keyRegion = .new) :
    Kept memory s ∧ held (memory s.storage) = fun _ ↦ none := by
  have hfree : ∀ slot, ¬ Occupied (memory s.storage) slot := fun slot ↦ h.slotBytes slot
  refine ⟨⟨⟨⟨hmarker, fun slot _ hocc ↦ absurd hocc (hfree slot)⟩, ?_, ?_,
    fun slot _ hocc ↦ absurd hocc (hfree slot)⟩, ?_, fun slot ↦ ?_⟩, ?_⟩
  · rw [hheap]
    exact Nat.zero_le _
  · rw [hkeys]
    exact Nat.zero_le _
  · rw [hindex]
    exact List.nodup_nil
  · rw [hindex]
    exact iff_of_false List.not_mem_nil fun hslot ↦ hfree slot hslot.2
  · funext slot
    exact if_neg fun hslot ↦ hfree slot hslot.2

section Provisioning

variable (hf : hal.storage.Faithful contactStoreEnd memory)
include hf

/-- Once the register and the marker were found zero, provisioning leaves an open store without
contacts; or it fails, before it has written the marker. -/
theorem provisionErased_cases (s : ContactStore S C) (c : C) :
    (∃ s' c', provisionErased hal (s, c) = (.ok ⟨⟩, (s', c')) ∧ Ready hal memory s' ∧
        held (memory s'.storage) = (fun _ ↦ none) ∧ s'.masterKey = s.masterKey) ∨
      ∃ e s' c', provisionErased hal (s, c) = (.error e, (s', c')) ∧
        s'.integrityGate = s.integrityGate ∧ s'.masterKey = s.masterKey ∧
        (memory s'.storage).window contactStoreProvisionMarkerOffset 4
          = (memory s.storage).window contactStoreProvisionMarkerOffset 4 := by
  obtain ⟨x, hchunks, hmem⟩ := eraseChunks_run hf 630 (s := s)
    (by decide : contactRecordArrayOffset + 630 * 256 ≤ contactStoreEnd)
  have hempty : EmptyBand (memory x) := by
    rw [hmem]
    exact emptyBand_erased _
  have hmarker : (memory x).window contactStoreProvisionMarkerOffset 4
      = (memory s.storage).window contactStoreProvisionMarkerOffset 4 := by
    rw [hmem]
    exact erased_window (Nat.le_refl _) (Nat.le_refl _)
  set s₁ : ContactStore S C := { s with
    storage := x, stringHeap := .new, keyRegion := .new, timingLog := .new, index := .new }
  have herase : eraseBand hal s = (.ok ⟨⟩, s₁) := by
    rw [eraseBand_eq, bind_of_ok hchunks]
    rfl
  rw [provisionErased, bind_of_ok (besideCounter_run herase c)]
  rcases hd : computeIntegrityDigest hal s₁ with e | d
  · have hfail : updateIntegrity hal s₁ = (.error e, s₁) := by
      rw [updateIntegrity, bind_of_error (by rw [Fallible.reading_apply, hd])]
    exact .inr ⟨e, s₁, c, by rw [bind_of_error (besideCounter_run hfail c)], rfl, rfl, hmarker⟩
  obtain ⟨y, hupdate, hmem'⟩ := updateIntegrity_run hf hd
  have hunmarked : (memory y).window contactStoreProvisionMarkerOffset 4
      = (memory s.storage).window contactStoreProvisionMarkerOffset 4 := by
    rw [hmem', Memory.window_patch_of_disjoint (.inl (by decide))]
    exact hmarker
  set s₂ : ContactStore S C := { s₁ with storage := y, integrityRegister := d }
  rw [bind_of_ok (besideCounter_run hupdate c)]
  rcases hcount : hal.counter.increment c with ⟨e | v, c'⟩
  · refine .inr ⟨.counterError, s₂, c', ?_, rfl, rfl, hunmarked⟩
    rw [bind_of_error (countUp_of_error hcount s₂)]
  rw [bind_of_ok (countUp_of_ok hcount s₂)]
  obtain ⟨z, hmark, hmem''⟩ := writeProvisionMarker_run hf s₂
  rw [bind_of_ok (besideCounter_run hmark c')]
  set s₃ : ContactStore S C := { s₂ with storage := z, integrityGate := true }
  have hempty₃ : EmptyBand (memory z) := by
    rw [hmem'', hmem']
    exact (hempty.patch _ (by decide)).patch _ (Nat.le_refl _)
  have hmarked : (memory z).window contactStoreProvisionMarkerOffset 4 = u32le 1 := by
    have hwindow := Memory.window_patch (memory s₂.storage) contactStoreProvisionMarkerOffset (u32le 1)
    rw [length_u32le] at hwindow
    rw [hmem'', hwindow]
  obtain ⟨k, hk, -⟩ := (computeIntegrityDigest_eq_ok hf).mp hd
  have hkept := kept_of_emptyBand (s := s₃) hempty₃ (by rw [hmarked, u32OfLe_u32le]; decide) rfl rfl rfl
  have hcur : Current hal memory s₃ := by
    refine ⟨d, ?_, ?_⟩
    · rw [← hd, hempty.digest hf (s := s₁) hk]
      exact hempty₃.digest hf (s := s₃) hk
    · have hwindow := Memory.window_patch (memory s₁.storage) contactStoreIntegrityOffset d.toBytes
      rw [d.length_toBytes] at hwindow
      rw [show memory s₃.storage = memory z from rfl, hmem'',
        Memory.window_patch_of_disjoint (.inr (by rw [length_u32le]; decide)),
        show memory s₂.storage = memory y from rfl, hmem', hwindow]
  exact .inl ⟨s₃, c', rfl, ⟨hkept.1, rfl, hcur⟩, hkept.2, rfl⟩

/-- **Provisioning** of a store that is not provisioned: it opens without contacts, or stays closed.
-/
theorem provisionFresh_cases (c : C)
    (hmarker : u32OfLe ((memory s.storage).window contactStoreProvisionMarkerOffset 4) = 0) :
    (∃ s' c', provisionFresh hal (s, c) = (.ok ⟨⟩, (s', c')) ∧ Ready hal memory s' ∧
        held (memory s'.storage) = (fun _ ↦ none) ∧ s'.masterKey = s.masterKey) ∨
      ∃ e s' c', provisionFresh hal (s, c) = (.error e, (s', c')) ∧
        s'.integrityGate = s.integrityGate ∧ s'.masterKey = s.masterKey ∧
        u32OfLe ((memory s'.storage).window contactStoreProvisionMarkerOffset 4) = 0 := by
  have hread := readAt_eq hf s.storage (Nat.le_refl (contactStoreIntegrityOffset + 32))
  have hmark : readProvisionMarker hal s = .ok 0 := by rw [readProvisionMarker_eq hf, hmarker]
  by_cases hreg : (memory s.storage).window contactStoreIntegrityOffset 32 = List.replicate 32 0
  · rw [hreg] at hread
    rw [provisionFresh_of_zero (p := (s, c)) hread hmark]
    rcases provisionErased_cases hf { s with integrityRegister := .zero 32 } c with
      ⟨s', c', hrun, hrest⟩ | ⟨e, s', c', hrun, hgate, hkey, hsame⟩
    · exact .inl ⟨s', c', hrun, hrest⟩
    · exact .inr ⟨e, s', c', hrun, hgate, hkey, by rw [hsame]; exact hmarker⟩
  · exact .inr ⟨_, _, _, provisionFresh_refused (p := (s, c)) hread (register_ne_zero hreg), rfl, rfl,
      hmarker⟩

end Provisioning

/-! ## Runs -/

/-- A call of a run. -/
inductive DirectoryCall (C : Type) where
  | provisionFresh
  | insert (input : NewContact)
  | update (slot : {slot : UInt8 // slot ∈ slots}) (upd : ContactUpdate)
  | delete (slot : {slot : UInt8 // slot ∈ slots})
  /-- Power cycle: a new store over the same storage, under the same master key, is booted. -/
  | reboot (counter : C)

/-- A store beside its provisioning counter, and the directory that the calls that succeeded make
up. There is none before the store was provisioned. -/
structure DirectoryRun (S C : Type) where
  store : ContactStore S C
  provisioning : C
  directory : Option Directory

namespace DirectoryRun

/-- The directory changes with a call that succeeded. -/
def applied {α : Type} (change : α → Option Directory) (directory : Option Directory) :
    Except ContactStoreError α → Option Directory
  | .ok a => change a
  | .error _ => directory

/-- Make a call. -/
def step (hal : StorePlatform S C) (r : DirectoryRun S C) : DirectoryCall C → DirectoryRun S C
  | .provisionFresh =>
    let result := provisionFresh hal (r.store, r.provisioning)
    ⟨result.2.1, result.2.2, applied (fun _ ↦ some fun _ ↦ none) r.directory result.1⟩
  | .insert input =>
    let result := ContactStore.insert hal input r.store
    { r with
      store := result.2
      directory := applied (fun slot ↦ r.directory.map fun dir ↦
        Function.update dir slot (some input.contact)) r.directory result.1 }
  | .update slot upd =>
    let result := ContactStore.update hal slot.1 upd r.store
    { r with
      store := result.2
      directory := applied (fun _ ↦ r.directory.map fun dir ↦
        Function.update dir slot.1 ((dir slot.1).map upd.apply)) r.directory result.1 }
  | .delete slot =>
    let result := ContactStore.delete hal slot.1 r.store
    { r with
      store := result.2
      directory := applied (fun _ ↦ r.directory.map fun dir ↦ Function.update dir slot.1 none)
        r.directory result.1 }
  | .reboot counter =>
    { r with store := (initOnBoot hal (new r.store.storage counter r.store.masterKey)).2 }

/-- Make the calls of a run. -/
def run (hal : StorePlatform S C) (r : DirectoryRun S C) (calls : List (DirectoryCall C)) :
    DirectoryRun S C :=
  calls.foldl (step hal) r

/-- The store shows the directory of the run; before there is one, it is closed. -/
def Shown (hal : StorePlatform S C) (r : DirectoryRun S C) : Prop :=
  (r.directory = none → list hal r.store = .error .notInitialised) ∧
    ∀ dir, r.directory = some dir → Shows hal r.store dir

end DirectoryRun

/-- **The refinement.** Either there is no directory yet, or the storage holds the directory. -/
inductive DirectoryRun.Refines (hal : StorePlatform S C) (memory : S → Memory) :
    DirectoryRun S C → Prop where
  | unprovisioned {s : ContactStore S C} {c : C} :
    u32OfLe ((memory s.storage).window contactStoreProvisionMarkerOffset 4) = 0 →
    s.integrityGate = false → Refines hal memory ⟨s, c, none⟩
  | provisioned {s : ContactStore S C} {c : C} :
    Ready hal memory s → Refines hal memory ⟨s, c, some (held (memory s.storage))⟩

namespace DirectoryRun

section Refines

variable (hf : hal.storage.Faithful contactStoreEnd memory) {c : C}
include hf

theorem refines_provisionFresh {r : DirectoryRun S C} (h : r.Refines hal memory) :
    (r.step hal .provisionFresh).Refines hal memory := by
  rcases h with ⟨hmarker, hgate⟩ | hready
  · rename_i s c
    rcases provisionFresh_cases hf c hmarker with
      ⟨s', c', hrun, hready, hheld, -⟩ | ⟨e, s', c', hrun, hsame, -, hmarker'⟩
    · simp only [step, hrun, applied]
      rw [← hheld]
      exact .provisioned hready
    · simp only [step, hrun, applied]
      exact .unprovisioned hmarker' (hsame.trans hgate)
  · rename_i s c
    -- a provisioned store is not provisioned again
    have hagain := provisionFresh_again hf (p := (s, c)) hready.kept.live.sound.marker
    simp only [step, hagain, applied]
    exact .provisioned (s := { s with integrityRegister := storedDigest memory s })
      ⟨⟨hready.kept.live, hready.kept.index⟩, hready.gate, hready.current⟩

/-- An operation on a ready store changes the directory as it says, if it succeeds. -/
theorem refines_of_mutating {α : Type} {m : StoreM S C α} {m' : StoreM (S × ℕ) C α} {n : ℕ}
    {Q : α → ContactStore S C → ContactStore S C → List (ℕ × Bytes) → Prop}
    {change : α → Option Directory} (h : Ready hal memory s) (hm : Mutating memory m m' s n Q)
    (hQ : ∀ a s₁ s' tail, Q a s₁ s' tail → ∃ slot ∈ slots, ∃ k, Effect hal memory slot k s₁ s' tail ∧
      change a = some (Function.update (held (memory s.storage)) slot k)) :
    Refines hal memory
      ⟨(m s).2, c, applied change (some (held (memory s.storage))) (m s).1⟩ := by
  rcases h.of_mutating hf hm with ⟨e, s', hrun, hready, hheld⟩ |
    ⟨a, s₁, s', ws, tail, hrun, halloc, hq⟩
  · simp only [hrun, applied]
    rw [← hheld]
    exact .provisioned hready
  · obtain ⟨slot, hslot, k, heffect, hchange⟩ := hQ a s₁ s' tail hq
    obtain ⟨hready, hheld⟩ := h.of_effect halloc hslot heffect
    simp only [hrun, applied, hchange]
    rw [← hheld]
    exact .provisioned hready

omit hf in
/-- Behind a closed gate nothing changes. -/
theorem refines_of_closed {α : Type} {m : StoreM S C α} {change : α → Option Directory}
    (hmarker : u32OfLe ((memory s.storage).window contactStoreProvisionMarkerOffset 4) = 0)
    (hgate : s.integrityGate = false) :
    Refines hal memory ⟨((gate >>= fun _ ↦ m) s).2, c, applied change none ((gate >>= fun _ ↦ m) s).1⟩ := by
  rw [bind_of_error (gate_of_closed hgate)]
  exact .unprovisioned hmarker hgate

/-- **Step.** Every call keeps the refinement. -/
theorem refines_step {r : DirectoryRun S C} (h : r.Refines hal memory) (call : DirectoryCall C) :
    (r.step hal call).Refines hal memory := by
  cases call with
  | provisionFresh => exact refines_provisionFresh hf h
  | insert input =>
    rcases h with ⟨hmarker, hgate⟩ | hready
    · exact refines_of_closed hmarker hgate
    · exact refines_of_mutating hf hready (insert_mutating hf input hready.kept (hready.keyed hf))
        fun slot s₁ s' tail hq ↦ ⟨slot, hq.1, _, hq.2, rfl⟩
  | update slot upd =>
    rcases h with ⟨hmarker, hgate⟩ | hready
    · exact refines_of_closed hmarker hgate
    · refine refines_of_mutating hf hready
        (update_mutating hf upd hready.kept (hready.keyed hf) slot.2) ?_
      rintro _ s₁ s' tail ⟨k, hheld, heffect⟩
      refine ⟨slot.1, slot.2, _, heffect, ?_⟩
      rw [Option.map_some, hheld, Option.map_some]
  | delete slot =>
    rcases h with ⟨hmarker, hgate⟩ | hready
    · exact refines_of_closed hmarker hgate
    · exact refines_of_mutating hf hready
        (delete_mutating hf hready.kept (hready.keyed hf) slot.1)
        fun _ s₁ s' tail heffect ↦ ⟨slot.1, slot.2, _, heffect, rfl⟩
  | reboot counter =>
    rcases h with ⟨hmarker, hgate⟩ | hready
    · rename_i s c
      obtain ⟨hgate', hstorage, -⟩ := initOnBoot_unprovisioned hf
        (s := new s.storage counter s.masterKey) hmarker rfl
      refine .unprovisioned ?_ hgate'
      rw [hstorage]
      exact hmarker
    · rename_i s c
      obtain ⟨s', hboot, hready', hstorage, -⟩ := initOnBoot_of_current hf
        (s := new s.storage counter s.masterKey) hready.kept.live hready.current
      have hheld : held (memory s'.storage) = held (memory s.storage) := by rw [hstorage]; rfl
      simp only [step, hboot]
      rw [← hheld]
      exact .provisioned hready'

/-- **Run.** So do the calls of a run. -/
theorem refines_run (calls : List (DirectoryCall C)) : ∀ {r : DirectoryRun S C},
    r.Refines hal memory → (r.run hal calls).Refines hal memory := by
  induction calls with
  | nil => exact id
  | cons call calls ih => exact fun h ↦ ih (refines_step hf h call)

/-- A refined directory is shown. -/
theorem Refines.shown {r : DirectoryRun S C} (h : r.Refines hal memory) : r.Shown hal := by
  rcases h with ⟨-, hgate⟩ | hready
  · refine ⟨fun _ ↦ ?_, by rintro _ ⟨⟩⟩
    rw [list, ensure, if_neg (by rw [hgate]; exact Bool.false_ne_true)]
    rfl
  · refine ⟨by rintro ⟨⟩, fun dir hdir ↦ ?_⟩
    obtain rfl := Option.some.inj hdir
    exact hready.kept.shows hf hready.gate

/-- **The directory.** Whatever is called on a new store over a storage that is not provisioned, and
in whatever order: from the first provisioning on, the store shows the directory that the calls that
succeeded make up. -/
theorem shows_directory {storage : S} (counter provisioning : C) (key : Block 32)
    (hmarker : u32OfLe ((memory storage).window contactStoreProvisionMarkerOffset 4) = 0)
    (calls : List (DirectoryCall C)) :
    (run hal ⟨new storage counter key, provisioning, none⟩ calls).Shown hal :=
  (refines_run hf calls (.unprovisioned (s := new storage counter key) hmarker rfl)).shown hf

end Refines

/-- A run on a blank storage: provisioning, an insertion that is deleted again, and a power cycle.
-/
theorem shows_directory_blank : (run samplePlatform ⟨new blank 0 (.zero 32), 0, none⟩
    [.provisionFresh, .insert protectedContact, .delete ⟨4, by decide⟩, .reboot 0]).Shown
    samplePlatform :=
  shows_directory samplePlatform_faithful 0 0 (.zero 32) (by rw [window_blank]; decide) _

end DirectoryRun

end ContactStore

end Galdralag.Contacts
