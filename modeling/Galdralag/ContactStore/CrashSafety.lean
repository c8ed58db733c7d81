import Galdralag.ContactStore.Refinement

/-!
# Interrupted mutations

An operation writes beyond the bump pointers first, so that an interruption there is not seen. Its
last two writes are the record and the register. Each of them is one write, but they are two:
between them the records are those after the operation, and the register holds the digest of those
before it. The next boot compares the two and refuses to open the store, and so does every later
one.

The register is stale, too, from an append to the timing log on, until the next operation has
refreshed it. An interruption before that is seen for the same reason.
-/

set_option linter.all false

namespace Galdralag.Contacts

namespace ContactStore

open Fallible (bind_of_ok bind_of_error)

variable {S C : Type} {hal : StorePlatform S C} {memory : S → Memory} {s s₁ : ContactStore S C}

/-! ## Mutations -/

/-- An operation that changes contacts. -/
inductive Mutation where
  | insert (input : NewContact)
  | update (slot : {slot : UInt8 // slot ∈ slots}) (upd : ContactUpdate)
  | delete (slot : {slot : UInt8 // slot ∈ slots})

namespace Mutation

/-- Carry out the operation. -/
def run (hal : StorePlatform S C) : Mutation → StoreM S C PUnit
  | insert input => do let _ ← ContactStore.insert hal input
  | update slot upd => ContactStore.update hal slot.1 upd
  | delete slot => ContactStore.delete hal slot.1

/-- The writes of its allocations: one for each string, and one for the key. -/
def allocations : Mutation → ℕ
  | insert input => 2 + input.displayName.isSome.toNat
  | update _ upd => upd.email.isSome.toNat + upd.displayName.isSome.toNat
  | delete _ => 0

/-- All its writes: those of the allocations, the record and the register. -/
def writes (op : Mutation) : ℕ := op.allocations + 2

/-- The storage that is left when the operation is interrupted after `n` writes. -/
def interrupted (hal : StorePlatform S C) (op : Mutation) (s : ContactStore S C) (n : ℕ) : S :=
  (op.run hal.fused (s.fuse n)).2.storage.1

end Mutation

section Shape

variable (hf : hal.storage.Faithful contactStoreEnd memory)
include hf

/-- All of them have the shape of an operation. -/
theorem Mutation.mutating (op : Mutation) (hkept : Kept memory s) (hkey : Keyed hal s) :
    Mutating memory (op.run hal) (op.run hal.fused) s op.allocations
      fun _ s₁ s' tail ↦ ∃ slot ∈ slots, ∃ c, Effect hal memory slot c s₁ s' tail := by
  cases op with
  | insert input =>
    rcases insert_mutating hf input hkept hkey with ⟨e, s', ws, hrun, halloc⟩ |
      ⟨slot, s₁, s', ws, tail, hlen, halloc, hrun, hslot, heffect⟩
    · exact .inl ⟨e, s', ws, hrun.bind_error, halloc⟩
    · refine .inr ⟨⟨⟩, s₁, s', ws, tail, hlen, halloc, ?_, slot, hslot, _, heffect⟩
      have hdone : Runs memory (ContactStore.insert hal input >>= fun _ ↦ pure PUnit.unit)
          (ContactStore.insert hal.fused input >>= fun _ ↦ pure PUnit.unit) s (.ok PUnit.unit) s'
          (ws ++ tail ++ []) := hrun.bind (.pure PUnit.unit)
      rwa [List.append_nil] at hdone
  | update slot upd =>
    rcases update_mutating hf upd hkept hkey slot.2 with h |
      ⟨_, s₁, s', ws, tail, hlen, halloc, hrun, c, -, heffect⟩
    · exact .inl h
    · exact .inr ⟨⟨⟩, s₁, s', ws, tail, hlen, halloc, hrun, slot.1, slot.2, _, heffect⟩
  | delete slot =>
    rcases delete_mutating hf hkept hkey slot.1 with h |
      ⟨_, s₁, s', ws, tail, hlen, halloc, hrun, heffect⟩
    · exact .inl h
    · exact .inr ⟨⟨⟩, s₁, s', ws, tail, hlen, halloc, hrun, slot.1, slot.2, _, heffect⟩

omit hf in
/-- Some of the writes of an allocation change neither the contacts nor what follows the regions. -/
theorem free_take {ws : List (ℕ × Bytes)} {heap keys : ℕ} {mem : Memory}
    (h : ∀ w ∈ ws, Free heap keys w) (hheap : heap ≤ stringHeapBytes) (n : ℕ) :
    Intact heap keys mem (mem.patchAll (ws.take n)) ∧
      Memory.AgreeOn timingLogOffset contactStoreEnd mem (mem.patchAll (ws.take n)) :=
  intact_of_free (fun w hw ↦ h w (List.mem_of_mem_take hw)) hheap

/-- **What an interruption leaves.** The contacts and the register as they were; or, after all
writes but the last, the new record beside the old register; or all that the operation does. -/
theorem Mutation.interrupted_cases (op : Mutation) (hkept : Kept memory s) (hkey : Keyed hal s) (n : ℕ) :
    (((op.run hal s).1 = .ok ⟨⟩ → n + 1 < op.writes) ∧
        Intact s.stringHeap.bump.toNat s.keyRegion.bump.toNat (memory s.storage)
          (memory (op.interrupted hal s n)) ∧
        Memory.AgreeOn timingLogOffset contactStoreEnd (memory s.storage)
          (memory (op.interrupted hal s n))) ∨
      (n + 1 = op.writes ∧ ∃ s₁ s' ws r d, ∃ slot ∈ slots, op.run hal s = (.ok ⟨⟩, s') ∧
        Allocates memory s s₁ ws ∧ Commits hal memory s₁ s' slot r d ∧
        memory (op.interrupted hal s n) = written (memory s₁.storage) slot r) ∨
      op.writes ≤ n ∧ ∃ s' s₁ ws tail, ∃ slot ∈ slots, ∃ c, op.run hal s = (.ok ⟨⟩, s') ∧
        Allocates memory s s₁ ws ∧ Effect hal memory slot c s₁ s' tail ∧
        op.interrupted hal s n = s'.storage := by
  have hheap := hkept.live.heap_le
  rcases op.mutating hf hkept hkey with ⟨e, s', ws, hrun, halloc⟩ |
    ⟨_, s₁, s', ws, tail, hlen, halloc, hrun, slot, hslot, c, heffect⟩
  · -- the operation fails on its own
    refine .inl ⟨fun hok ↦ ?_, ?_⟩
    · rw [hrun.run] at hok
      cases hok
    have hmem : memory (op.interrupted hal s n) = (memory s.storage).patchAll (ws.take n) := by
      rcases Nat.lt_or_ge n ws.length with hlt | hge
      · obtain ⟨e', t, hcut, hmem⟩ := hrun.cut n hlt
        rw [Mutation.interrupted, hcut, hmem]
      · obtain ⟨k, rfl⟩ := Nat.exists_eq_add_of_le hge
        rw [Mutation.interrupted, hrun.whole k, List.take_of_length_le (Nat.le_add_right _ _)]
        exact hrun.memory_eq
    rw [hmem]
    exact free_take halloc.free hheap n
  obtain ⟨r, d, rfl, hcommits, rfl⟩ := heffect
  have hwrites : (ws ++ [(recordOffset slot, r.asBytes),
      (contactStoreIntegrityOffset, d.toBytes)]).length = op.writes := by
    rw [List.length_append, hlen]
    rfl
  rcases Nat.lt_or_ge n op.writes with hlt | hge
  · obtain ⟨e, t, hcut, hmem⟩ := hrun.cut n (by rw [hwrites]; exact hlt)
    have hstorage : memory (op.interrupted hal s n) = (memory s.storage).patchAll
        ((ws ++ [(recordOffset slot, r.asBytes), (contactStoreIntegrityOffset, d.toBytes)]).take n) := by
      rw [Mutation.interrupted, hcut, hmem]
    rcases Nat.lt_or_ge (n + 1) op.writes with hearly | hlate
    · refine .inl ⟨fun _ ↦ hearly, ?_⟩
      rw [hstorage, List.take_append_of_le_length (by rw [Mutation.writes] at hearly; omega)]
      exact free_take halloc.free hheap n
    · -- between the record and the register
      have hn : n = ws.length + 1 := by
        rw [Mutation.writes] at hlt hlate
        omega
      refine .inr (.inl ⟨by omega, s₁, s', ws, r, d, slot, hslot, hrun.run, halloc, hcommits, ?_⟩)
      rw [hstorage, hn, List.take_length_add_append, Memory.patchAll_append, ← halloc.memory_eq]
      rfl
  · obtain ⟨k, rfl⟩ := Nat.exists_eq_add_of_le hge
    refine .inr (.inr ⟨hge, s', s₁, ws, _, slot, hslot, _, hrun.run, halloc, ⟨r, d, rfl, hcommits, rfl⟩,
      ?_⟩)
    rw [Mutation.interrupted, ← hwrites, hrun.whole k]
    rfl

end Shape

/-! ## What the next boot shows -/

/-- After an interruption the next boot succeeds, and shows the contacts before the operation or
those after it. -/
def Survives (hal : StorePlatform S C) (s : ContactStore S C) (op : Mutation) (n : ℕ) : Prop :=
  ∀ counter, ∃ b, initOnBoot hal (new (op.interrupted hal s n) counter s.masterKey) = (.ok ⟨⟩, b) ∧
    ((∃ dir, Shows hal s dir ∧ Shows hal b dir) ∨
      ∃ dir, Shows hal (op.run hal s).2 dir ∧ Shows hal b dir)

/-- The store is open. Its register was current, and the interruption does not come between the
record and the register; or all the writes were made. -/
def CrashSafe (hal : StorePlatform S C) (memory : S → Memory) (s : ContactStore S C) (op : Mutation)
    (n : ℕ) : Prop :=
  s.integrityGate = true ∧
    (Current hal memory s ∧ ((op.run hal s).1 = .ok ⟨⟩ → n + 1 ≠ op.writes) ∨
      (op.run hal s).1 = .ok ⟨⟩ ∧ op.writes ≤ n)

/-- The interruption comes between the record and the register, but the digest has not changed. -/
def Unnoticed (hal : StorePlatform S C) (memory : S → Memory) (s : ContactStore S C) (op : Mutation)
    (n : ℕ) : Prop :=
  (op.run hal s).1 = .ok ⟨⟩ ∧ n + 1 = op.writes ∧
    storedDigest memory s = storedDigest memory (op.run hal s).2

theorem Shows.gate {dir : Directory} (h : Shows hal s dir) : s.integrityGate = true := by
  obtain ⟨items, hlist, -⟩ := h.listed
  by_contra hgate
  rw [list, ensure, if_neg hgate] at hlist
  cases hlist

theorem Mutation.run_closed (op : Mutation) (h : s.integrityGate = false) :
    op.run hal s = (.error .notInitialised, s) := by
  cases op with
  | insert input =>
    have hinsert : ContactStore.insert hal input s = (.error .notInitialised, s) :=
      bind_of_error (gate_of_closed h)
    exact bind_of_error hinsert
  | update slot upd => exact bind_of_error (gate_of_closed h)
  | delete slot => exact bind_of_error (gate_of_closed h)

/-- Behind a closed gate nothing is shown. -/
theorem not_survives_of_closed (h : s.integrityGate = false) (op : Mutation) (n : ℕ) :
    ¬ Survives hal s op n := by
  intro hsurvives
  obtain ⟨b, -, ⟨dir, hshows, -⟩ | ⟨dir, hshows, -⟩⟩ := hsurvives s.counter
  · exact Bool.false_ne_true (h.symm.trans hshows.gate)
  · rw [op.run_closed h] at hshows
    exact Bool.false_ne_true (h.symm.trans hshows.gate)

section Boot

variable (hf : hal.storage.Faithful contactStoreEnd memory)
include hf

/-- A boot over a storage with a current register shows what it holds. -/
theorem boot_shows {x : S} {counter : C} {key : Block 32} {heap keys : ℕ}
    (hlive : Live (memory x) heap keys)
    (hcur : Current hal memory (new x counter key : ContactStore S C)) :
    ∃ b, initOnBoot hal (new x counter key) = (.ok ⟨⟩, b) ∧ Shows hal b (held (memory x)) := by
  obtain ⟨b, hboot, hready, hstorage, -⟩ := initOnBoot_of_current hf (s := new x counter key) hlive hcur
  have hshows := hready.kept.shows hf hready.gate
  rw [hstorage] at hshows
  exact ⟨b, hboot, hshows⟩

/-- Between the record and the register, what is stored is what the register is about to say. -/
theorem Commits.current_iff {s' : ContactStore S C} {slot : UInt8} {r : ContactRecord} {d : Block 32}
    (h : Commits hal memory s₁ s' slot r d) {x : S} (hmem : memory x = written (memory s₁.storage) slot r)
    {counter : C} : Current hal memory (new x counter s'.masterKey : ContactStore S C) ↔
      (memory s₁.storage).window contactStoreIntegrityOffset 32 = d.toBytes := by
  have hdigest : computeIntegrityDigest hal (new x counter s'.masterKey : ContactStore S C) = .ok d := by
    have hintact : Intact s₁.stringHeap.bump.toNat s₁.keyRegion.bump.toNat
        (written (memory s₁.storage) slot r)
        ((written (memory s₁.storage) slot r).patch contactStoreIntegrityOffset d.toBytes) :=
      intact_patch_register h.live.heap_le h.live.keys_le d.toBytes
    have hsame : computeIntegrityDigest hal s'
        = computeIntegrityDigest hal (new x counter s'.masterKey : ContactStore S C) := by
      refine computeIntegrityDigest_congr hf ?_ ?_ ?_
      · rfl
      · change SameRecords (memory x) (memory s'.storage)
        rw [hmem, h.memory_eq]
        exact hintact.sameRecords
      · change Memory.AgreeOn timingLogOffset contactStoreRramEnd (memory x) (memory s'.storage)
        rw [hmem, h.memory_eq]
        exact (Memory.agreeOn_patch (.inl (by decide))).symm
    rw [← hsame, h.digest]
  have hregister : (memory x).window contactStoreIntegrityOffset 32
      = (memory s₁.storage).window contactStoreIntegrityOffset 32 := by
    have hle := recordOffset_add_le slot
    rw [contactRecordBytes_eq, timingLogOffset_eq] at hle
    rw [hmem]
    refine Memory.window_patch_of_disjoint (.inr ?_)
    rw [r.length_asBytes, contactStoreIntegrityOffset_eq]
    omega
  constructor
  · rintro ⟨d', hd', hreg⟩
    rw [hdigest, Except.ok.injEq] at hd'
    subst hd'
    rw [← hregister]
    exact hreg
  · intro hreg
    exact ⟨d, hdigest, hregister.trans hreg⟩

/-- **Interruptions.** Exactly when a mutation survives. -/
theorem survives_iff_of_kept (hkept : Kept memory s) (hkey : Keyed hal s) (op : Mutation) (n : ℕ) :
    Survives hal s op n ↔
      CrashSafe hal memory s op n ∨ s.integrityGate = true ∧ Unnoticed hal memory s op n := by
  rcases Bool.eq_false_or_eq_true s.integrityGate with hgate | hgate
  swap
  · refine iff_of_false (not_survives_of_closed hgate op n) ?_
    rintro (h | h)
    · exact Bool.false_ne_true (hgate.symm.trans h.1)
    · exact Bool.false_ne_true (hgate.symm.trans h.1)
  have hlive := hkept.live
  have hbefore := hkept.shows hf hgate
  rcases op.interrupted_cases hf hkept hkey n with ⟨hearly, hintact, htail⟩ |
    ⟨hlast, s₁, s', ws, r, d, slot, hslot, hrun, halloc, hcommits, hmem⟩ |
    ⟨hall, s', s₁, ws, tail, slot, hslot, c, hrun, halloc, heffect, hstorage⟩
  · -- the contacts and the register are as they were
    have hlive' := hlive.of_intact hintact
    have hcur : ∀ counter, Current hal memory s ↔
        Current hal memory (new (op.interrupted hal s n) counter s.masterKey : ContactStore S C) :=
      fun counter ↦ ⟨fun h ↦ h.congr hf rfl hintact.sameRecords htail,
        fun h ↦ h.congr hf rfl hintact.symm.sameRecords htail.symm⟩
    constructor
    · intro h
      refine .inl ⟨hgate, .inl ⟨?_, fun hok ↦ Nat.ne_of_lt (hearly hok)⟩⟩
      by_contra hstale
      obtain ⟨b, hboot, -⟩ := h s.counter
      have hrefused := initOnBoot_of_stale hf (s := new (op.interrupted hal s n) s.counter s.masterKey)
        hlive'.sound hkey (mt (hcur s.counter).mpr hstale)
      rw [hboot] at hrefused
      cases hrefused
    · rintro (⟨-, ⟨hcurrent, -⟩ | ⟨hok, hn⟩⟩ | ⟨-, hok, hn, -⟩) counter
      · obtain ⟨b, hboot, hshows⟩ := boot_shows hf hlive' ((hcur counter).mp hcurrent)
        rw [hlive.held_eq hintact] at hshows
        exact ⟨b, hboot, .inl ⟨_, hbefore, hshows⟩⟩
      · exact absurd (hearly hok) (by omega)
      · exact absurd (hearly hok) (by omega)
  · -- the new record is there, and the old register
    have hok : (op.run hal s).1 = .ok ⟨⟩ := by rw [hrun]
    have hkey' : s'.masterKey = s.masterKey := hcommits.masterKey.trans halloc.masterKey
    have hregister : (memory s₁.storage).window contactStoreIntegrityOffset 32
        = (memory s.storage).window contactStoreIntegrityOffset 32 :=
      (Memory.window_congr (halloc.tail_eq hlive.heap_le) (by decide) (Nat.le_refl _)).symm
    have hcur : ∀ counter, Current hal memory
        (new (op.interrupted hal s n) counter s.masterKey : ContactStore S C) ↔
          storedDigest memory s = storedDigest memory s' := by
      intro counter
      rw [← hkey', hcommits.current_iff hf hmem, hregister, storedDigest, storedDigest, hcommits.register,
        Block.ofBytes_toBytes]
      constructor
      · rintro h
        rw [h, Block.ofBytes_toBytes]
      · rintro rfl
        exact (Block.toBytes_ofBytes Memory.length_window).symm
    have hlive' : Live (memory (op.interrupted hal s n)) _ _ := hmem ▸ hcommits.live
    constructor
    · intro h
      refine .inr ⟨hgate, hok, hlast, ?_⟩
      by_contra hchanged
      rw [hrun] at hchanged
      obtain ⟨b, hboot, -⟩ := h s.counter
      have hrefused := initOnBoot_of_stale hf (s := new (op.interrupted hal s n) s.counter s.masterKey)
        hlive'.sound hkey (mt (hcur s.counter).mp hchanged)
      rw [hboot] at hrefused
      cases hrefused
    · rintro (⟨-, ⟨-, hne⟩ | ⟨-, hn⟩⟩ | ⟨-, -, -, hsame⟩) counter
      · exact absurd hlast (hne hok)
      · omega
      · rw [hrun] at hsame
        obtain ⟨b, hboot, hshows⟩ := boot_shows hf hlive' ((hcur counter).mpr hsame)
        have hgate' : s'.integrityGate = true := by rw [hcommits.gate, halloc.gate, hgate]
        have hafter := hcommits.kept.shows hf hgate'
        rw [hmem, ← hcommits.live.held_eq
          (intact_patch_register hcommits.live.heap_le hcommits.live.keys_le d.toBytes),
          ← hcommits.memory_eq] at hshows
        exact ⟨b, hboot, .inr ⟨_, by rw [hrun]; exact hafter, hshows⟩⟩
  · -- all writes were made
    have hok : (op.run hal s).1 = .ok ⟨⟩ := by rw [hrun]
    obtain ⟨r, d, -, hcommits, -⟩ := heffect
    have hkey' : s'.masterKey = s.masterKey := hcommits.masterKey.trans halloc.masterKey
    have hgate' : s'.integrityGate = true := by rw [hcommits.gate, halloc.gate, hgate]
    refine iff_of_true (fun counter ↦ ?_) (.inl ⟨hgate, .inr ⟨hok, hall⟩⟩)
    have hcur : Current hal memory
        (new (op.interrupted hal s n) counter s.masterKey : ContactStore S C) := by
      rw [hstorage, ← hkey']
      exact ⟨d, hcommits.digest, hcommits.register⟩
    have hlive' : Live (memory (op.interrupted hal s n)) _ _ := hstorage ▸ hcommits.kept.live
    obtain ⟨b, hboot, hshows⟩ := boot_shows hf hlive' hcur
    rw [hstorage] at hshows
    exact ⟨b, hboot, .inr ⟨_, by rw [hrun]; exact hcommits.kept.shows hf hgate', hshows⟩⟩

end Boot

/-! ## Reachable stores -/

/-- What happens to a store. -/
inductive StoreEvent (C : Type) where
  | provisionFresh
  | mutate (op : Mutation)
  | timingLogAppend (slot : {slot : UInt8 // slot ∈ slots}) (lastFetched : UInt32)
  /-- A PIN attempt moves the counter. -/
  | count (counter : C)
  /-- A boot of the store as it is. -/
  | initOnBoot
  /-- Power cycle: a new store over the same storage, under the same master key, is booted. -/
  | reboot (counter : C)
  /-- The power is lost, or the storage fails, after `n` writes of an operation; then a power cycle.
  -/
  | interrupted (op : Mutation) (n : ℕ) (counter : C)

/-- The store after an event, beside its provisioning counter. -/
def StoreEvent.after (hal : StorePlatform S C) (p : ContactStore S C × C) :
    StoreEvent C → ContactStore S C × C
  | .provisionFresh => (ContactStore.provisionFresh hal p).2
  | .mutate op => ((op.run hal p.1).2, p.2)
  | .timingLogAppend slot lastFetched => ((ContactStore.timingLogAppend hal slot.1 lastFetched p.1).2, p.2)
  | .count counter => ({ p.1 with counter := counter }, p.2)
  | .initOnBoot => ((ContactStore.initOnBoot hal p.1).2, p.2)
  | .reboot counter =>
    ((ContactStore.initOnBoot hal (new p.1.storage counter p.1.masterKey)).2, p.2)
  | .interrupted op n counter =>
    ((ContactStore.initOnBoot hal (new (op.interrupted hal p.1 n) counter p.1.masterKey)).2, p.2)

/-- The store after some events. -/
def afterAll (hal : StorePlatform S C) (p : ContactStore S C × C) (events : List (StoreEvent C)) :
    ContactStore S C × C :=
  events.foldl (StoreEvent.after hal) p

/-- What holds of every reachable store: it was never provisioned, and is closed; or it fits its
records, and its digest can be computed. -/
inductive Tracked (hal : StorePlatform S C) (memory : S → Memory) : ContactStore S C → Prop where
  | unprovisioned {s : ContactStore S C} :
    u32OfLe ((memory s.storage).window contactStoreProvisionMarkerOffset 4) = 0 →
    s.integrityGate = false → Tracked hal memory s
  | provisioned {s : ContactStore S C} : Kept memory s → Keyed hal s → Tracked hal memory s

section Reachable

variable (hf : hal.storage.Faithful contactStoreEnd memory)
include hf

/-- A boot of a store that was never provisioned. -/
theorem Tracked.boot_unprovisioned
    (hmarker : u32OfLe ((memory s.storage).window contactStoreProvisionMarkerOffset 4) = 0)
    (hgate : s.integrityGate = false) : Tracked hal memory (initOnBoot hal s).2 := by
  obtain ⟨hgate', hstorage, -⟩ := initOnBoot_unprovisioned hf hmarker hgate
  refine .unprovisioned ?_ hgate'
  rw [hstorage]
  exact hmarker

/-- A boot over records that fit. -/
theorem Tracked.boot {heap keys : ℕ} (hlive : Live (memory s.storage) heap keys) (hkey : Keyed hal s) :
    Tracked hal memory (initOnBoot hal s).2 := by
  obtain ⟨hkept, -, hmaster⟩ : Kept memory (initOnBoot hal s).2 ∧ _ ∧ _ := initOnBoot_kept hf hlive
  exact .provisioned hkept (hkey.congr hmaster)

theorem Tracked.mutate (hkept : Kept memory s) (hkey : Keyed hal s) (op : Mutation) :
    Kept memory (op.run hal s).2 ∧ (op.run hal s).2.masterKey = s.masterKey := by
  rcases op.mutating hf hkept hkey with ⟨e, s', ws, hrun, halloc⟩ |
    ⟨_, s₁, s', ws, tail, -, halloc, hrun, slot, hslot, c, r, d, -, hcommits, -⟩
  · rw [hrun.run]
    exact ⟨halloc.kept hkept, halloc.masterKey⟩
  · rw [hrun.run]
    exact ⟨hcommits.kept, hcommits.masterKey.trans halloc.masterKey⟩

/-- An interrupted operation leaves records that fit. -/
theorem Mutation.live_interrupted (hkept : Kept memory s) (hkey : Keyed hal s) (op : Mutation) (n : ℕ) :
    ∃ heap keys, Live (memory (op.interrupted hal s n)) heap keys := by
  rcases op.interrupted_cases hf hkept hkey n with ⟨-, hintact, -⟩ |
    ⟨-, s₁, s', ws, r, d, slot, hslot, -, -, hcommits, hmem⟩ |
    ⟨-, s', s₁, ws, tail, slot, hslot, c, -, -, ⟨r, d, -, hcommits, -⟩, hstorage⟩
  · exact ⟨_, _, hkept.live.of_intact hintact⟩
  · rw [hmem]
    exact ⟨_, _, hcommits.live⟩
  · rw [hstorage]
    exact ⟨_, _, hcommits.kept.live⟩

/-- **Step.** Every event leaves a tracked store. -/
theorem tracked_after {p : ContactStore S C × C} (h : Tracked hal memory p.1) (event : StoreEvent C) :
    Tracked hal memory (event.after hal p).1 := by
  obtain ⟨s, c⟩ := p
  rcases h with ⟨hmarker, hgate⟩ | ⟨hkept, hkey⟩
  · cases event with
    | provisionFresh =>
      rcases provisionFresh_cases hf c hmarker with
        ⟨s', c', hrun, hready, -, -⟩ | ⟨e, s', c', hrun, hsame, -, hmarker'⟩
      · rw [StoreEvent.after, hrun]
        exact .provisioned hready.kept (hready.keyed hf)
      · rw [StoreEvent.after, hrun]
        exact .unprovisioned hmarker' (hsame.trans hgate)
    | mutate op =>
      rw [StoreEvent.after, op.run_closed hgate]
      exact .unprovisioned hmarker hgate
    | timingLogAppend slot lastFetched =>
      rw [StoreEvent.after, timingLogAppend, gate_bind_of_closed hgate]
      exact .unprovisioned hmarker hgate
    | count counter => exact .unprovisioned hmarker hgate
    | initOnBoot => exact .boot_unprovisioned hf hmarker hgate
    | reboot counter => exact .boot_unprovisioned hf hmarker rfl
    | interrupted op n counter =>
      have hclosed : op.run hal.fused (s.fuse n) = (.error .notInitialised, s.fuse n) :=
        op.run_closed hgate
      have hstorage : op.interrupted hal s n = s.storage := by
        rw [Mutation.interrupted, hclosed]
        rfl
      rw [StoreEvent.after, hstorage]
      exact .boot_unprovisioned hf hmarker rfl
  · cases event with
    | provisionFresh =>
      rw [StoreEvent.after, provisionFresh_again hf hkept.live.sound.marker]
      exact .provisioned ⟨hkept.live, hkept.index⟩ hkey
    | mutate op =>
      obtain ⟨hkept', hmaster⟩ := Tracked.mutate hf hkept hkey op
      exact .provisioned hkept' (hkey.congr hmaster)
    | timingLogAppend slot lastFetched =>
      obtain ⟨heq, hsame⟩ := timingLogAppend_frame hf slot lastFetched s
      have hintact := intact_of_sameButLog hkept.live.heap_le hkept.live.keys_le hsame
      rw [StoreEvent.after, heq]
      refine .provisioned ⟨hkept.live.of_intact hintact, hkept.index.nodup, fun slot' ↦ ?_⟩ hkey
      rw [hkept.index.mem_iff]
      exact and_congr_right fun hslot' ↦ (occupied_congr hintact hslot').symm
    | count counter => exact .provisioned ⟨hkept.live, hkept.index⟩ hkey
    | initOnBoot => exact .boot hf hkept.live hkey
    | reboot counter => exact .boot hf hkept.live hkey
    | interrupted op n counter =>
      obtain ⟨heap, keys, hlive⟩ := Mutation.live_interrupted hf hkept hkey op n
      exact .boot hf hlive hkey

/-- **Run.** So every reachable store is tracked. -/
theorem tracked_afterAll (events : List (StoreEvent C)) : ∀ {p : ContactStore S C × C},
    Tracked hal memory p.1 → Tracked hal memory (afterAll hal p events).1 := by
  induction events with
  | nil => exact id
  | cons event events ih => exact fun h ↦ ih (tracked_after hf h event)

/-- **Crash atomicity.** A mutation of a reachable store that is interrupted after any number of its
writes is atomic for the next boot, exactly when the store is open and either the register was
current and the interruption does not come between the record and the register, or all the writes
were made; or the digest is the same before and after it. -/
theorem survives_iff {storage : S} (counter provisioning : C) (key : Block 32)
    (hmarker : u32OfLe ((memory storage).window contactStoreProvisionMarkerOffset 4) = 0)
    (events : List (StoreEvent C)) (op : Mutation) (n : ℕ) :
    let s := (afterAll hal (new storage counter key, provisioning) events).1
    Survives hal s op n ↔
      CrashSafe hal memory s op n ∨ s.integrityGate = true ∧ Unnoticed hal memory s op n := by
  intro s
  have htracked : Tracked hal memory s :=
    tracked_afterAll hf events (p := (new storage counter key, provisioning)) (.unprovisioned hmarker rfl)
  rcases htracked with ⟨-, hgate⟩ | ⟨hkept, hkey⟩
  · refine iff_of_false (not_survives_of_closed hgate op n) ?_
    rintro (h | h)
    · exact Bool.false_ne_true (hgate.symm.trans h.1)
    · exact Bool.false_ne_true (hgate.symm.trans h.1)
  · exact survives_iff_of_kept hf hkept hkey op n

end Reachable

/-! ## A blank storage -/

theorem marker_blank : u32OfLe (blank.window contactStoreProvisionMarkerOffset 4) = 0 := by
  rw [window_blank]
  decide

theorem afterAll_provisionFresh : afterAll samplePlatform (new blank 0 (.zero 32), 0) [.provisionFresh]
    = (provisioned (.zero 32), 1) := by
  rw [afterAll, List.foldl_cons, List.foldl_nil, StoreEvent.after, provisionFresh_blank]

theorem sealed_provisioned :
    Sealed samplePlatform (fun m ↦ m) (.zero 32) (provisioned (.zero 32)) :=
  provisionFresh_sealed samplePlatform_faithful (provisionFresh_blank (.zero 32))

theorem keyed_provisioned : Keyed samplePlatform (provisioned (.zero 32)) := ⟨.zero 32, rfl⟩

theorem kept_provisioned : Kept (fun m ↦ m) (provisioned (.zero 32)) := by
  rcases tracked_after samplePlatform_faithful (p := (new blank 0 (.zero 32), 0))
    (.unprovisioned marker_blank rfl) .provisionFresh with ⟨hmarker, -⟩ | ⟨hkept, -⟩
  · rw [StoreEvent.after, provisionFresh_blank] at hmarker
    exact absurd hmarker sealed_provisioned.sound.marker
  · rwa [StoreEvent.after, provisionFresh_blank] at hkept

/-- The record of the contact is among the hashed bytes, which are not all zero then. -/
theorem keyedHash_holds {s : ContactStore Memory UInt32} {n : UInt32} (h : Holds s n) (k : Block 32) :
    samplePlatform.keyedHash k (hashedBytes s.storage) ≠ blankDigest := by
  have hocc : Occupied s.storage 4 := by
    rw [Occupied, h.record, ContactRecord.take_magic]
    rfl
  have hmem : (0x54 : UInt8) ∈ hashedBytes s.storage := by
    refine List.mem_append_left _ (List.mem_flatten.mpr ⟨slotBytes s.storage 4, ?_, ?_⟩)
    · exact List.mem_map.mpr ⟨4, List.mem_filter.mpr ⟨by decide, decide_eq_true hocc⟩, rfl⟩
    · refine List.mem_of_mem_take (i := 4) ?_
      rw [hocc]
      decide
  have hne : (hashedBytes s.storage).all (· == 0) = false :=
    List.all_eq_false.mpr ⟨0x54, hmem, by decide⟩
  simp only [samplePlatform, hne, Bool.false_eq_true, if_false, blankDigest]
  intro heq
  have hfirst := congrArg (fun b : Block 32 ↦ b.toBytes.head?) heq
  revert hfirst
  decide

end ContactStore

end Galdralag.Contacts
