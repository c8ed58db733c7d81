import Galdralag.ContactStore.Directory
import Galdralag.ContactStore.SharedCounter
import Galdralag.ContactStore.WriteTrace
import Mathlib.Data.List.Perm.Subperm

/-!
# What an operation does to the directory

`insert`, `update` and `delete` have one shape. They allocate, each time behind everything that is
in use; then they write one record; then they refresh the register. An operation that fails has only
allocated, and so has left the directory as it was. One that succeeds has changed it at one slot, in
the write of the record.
-/

set_option linter.all false

namespace Galdralag.Contacts

namespace ContactStore

open Fallible (bind_of_ok bind_of_error require_of)

variable {S C : Type} {hal : StorePlatform S C} {memory : S → Memory} {s s₁ s₂ : ContactStore S C}
  {ws ws₁ ws₂ : List (ℕ × Bytes)} {slot : UInt8} {r : ContactRecord}

/-! ## Allocations -/

/-- A store after some allocations: their writes lie beyond the bump pointers, which moved on. -/
structure Allocates (memory : S → Memory) (s s' : ContactStore S C) (ws : List (ℕ × Bytes)) : Prop where
  rest : s' = { s with
    storage := s'.storage, stringHeap := s'.stringHeap, keyRegion := s'.keyRegion }
  memory_eq : memory s'.storage = (memory s.storage).patchAll ws
  heap_le : s.stringHeap.bump.toNat ≤ s'.stringHeap.bump.toNat
  keys_le : s.keyRegion.bump.toNat ≤ s'.keyRegion.bump.toNat
  heap_max : s.stringHeap.bump.toNat ≤ stringHeapBytes → s'.stringHeap.bump.toNat ≤ stringHeapBytes
  keys_max : s.keyRegion.bump.toNat ≤ keyRegionBytes → s'.keyRegion.bump.toNat ≤ keyRegionBytes
  free : ∀ w ∈ ws, Free s.stringHeap.bump.toNat s.keyRegion.bump.toNat w

theorem Allocates.refl (s : ContactStore S C) : Allocates memory s s [] where
  rest := rfl
  memory_eq := rfl
  heap_le := Nat.le_refl _
  keys_le := Nat.le_refl _
  heap_max := id
  keys_max := id
  free _ hw := absurd hw List.not_mem_nil

theorem Allocates.trans (h₁ : Allocates memory s s₁ ws₁) (h₂ : Allocates memory s₁ s₂ ws₂) :
    Allocates memory s s₂ (ws₁ ++ ws₂) where
  rest := by
    rw [h₂.rest, h₁.rest]
  memory_eq := by rw [h₂.memory_eq, h₁.memory_eq, Memory.patchAll_append]
  heap_le := Nat.le_trans h₁.heap_le h₂.heap_le
  keys_le := Nat.le_trans h₁.keys_le h₂.keys_le
  heap_max := h₂.heap_max ∘ h₁.heap_max
  keys_max := h₂.keys_max ∘ h₁.keys_max
  free w hw := by
    rcases List.mem_append.mp hw with hw | hw
    · exact h₁.free w hw
    · exact (h₂.free w hw).mono h₁.heap_le h₁.keys_le

theorem Allocates.index (h : Allocates memory s s₁ ws) : s₁.index = s.index := by rw [h.rest]

theorem Allocates.gate (h : Allocates memory s s₁ ws) : s₁.integrityGate = s.integrityGate := by
  rw [h.rest]

theorem Allocates.masterKey (h : Allocates memory s s₁ ws) : s₁.masterKey = s.masterKey := by
  rw [h.rest]

theorem Allocates.intact (h : Allocates memory s s₁ ws)
    (hheap : s.stringHeap.bump.toNat ≤ stringHeapBytes) :
    Intact s.stringHeap.bump.toNat s.keyRegion.bump.toNat (memory s.storage) (memory s₁.storage) := by
  rw [h.memory_eq]
  exact (intact_of_free h.free hheap).1

/-- **Allocations** leave the directory as it was. -/
theorem Allocates.kept (h : Allocates memory s s₁ ws) (hkept : Kept memory s) : Kept memory s₁ := by
  have hlive := hkept.live
  have hintact := h.intact hlive.heap_le
  refine ⟨(hlive.of_intact hintact).mono h.heap_le h.keys_le (h.heap_max hlive.heap_le)
    (h.keys_max hlive.keys_le), ?_⟩
  rw [h.index]
  refine ⟨hkept.index.nodup, fun slot ↦ ?_⟩
  rw [hkept.index.mem_iff]
  exact and_congr_right fun hslot ↦ (occupied_congr hintact hslot).symm

/-- The register stays as current as it was. -/
theorem Allocates.tail_eq (h : Allocates memory s s₁ ws)
    (hheap : s.stringHeap.bump.toNat ≤ stringHeapBytes) :
    Memory.AgreeOn timingLogOffset contactStoreEnd (memory s.storage) (memory s₁.storage) := by
  rw [h.memory_eq]
  exact (intact_of_free h.free hheap).2

theorem Allocates.held_eq (h : Allocates memory s s₁ ws) (hkept : Kept memory s) :
    held (memory s₁.storage) = held (memory s.storage) :=
  hkept.live.held_eq (h.intact hkept.live.heap_le)

/-! ## The shape of an operation -/

/-- **The shape of an operation.** It fails, having made allocations and nothing else; or it makes
`n` writes for its allocations and then the writes of its `tail`, and ends as `Q` says. -/
def Mutating {α : Type} (memory : S → Memory) (m : StoreM S C α) (m' : StoreM (S × ℕ) C α)
    (s : ContactStore S C) (n : ℕ)
    (Q : α → ContactStore S C → ContactStore S C → List (ℕ × Bytes) → Prop) : Prop :=
  (∃ e s' ws, Runs memory m m' s (.error e) s' ws ∧ Allocates memory s s' ws) ∨
    ∃ a s₁ s' ws tail, ws.length = n ∧ Allocates memory s s₁ ws ∧
      Runs memory m m' s (.ok a) s' (ws ++ tail) ∧ Q a s₁ s' tail

/-- A step that allocates with `n` writes, and ends as `P` says. -/
abbrev Allocating {α : Type} (memory : S → Memory) (m : StoreM S C α) (m' : StoreM (S × ℕ) C α)
    (s : ContactStore S C) (n : ℕ) (P : α → ContactStore S C → Prop) : Prop :=
  Mutating memory m m' s n fun a s₁ s' tail ↦ tail = [] ∧ s' = s₁ ∧ P a s₁

section Shape

variable {α β : Type} {m : StoreM S C α} {m' : StoreM (S × ℕ) C α} {f : α → StoreM S C β}
  {f' : α → StoreM (S × ℕ) C β} {n k : ℕ}
  {Q : β → ContactStore S C → ContactStore S C → List (ℕ × Bytes) → Prop}

/-- An operation starts with an allocation. -/
theorem Mutating.bind {P : α → ContactStore S C → Prop} (h : Allocating memory m m' s n P)
    (hf : ∀ a s₁ ws, Allocates memory s s₁ ws → P a s₁ → Mutating memory (f a) (f' a) s₁ k Q) :
    Mutating memory (m >>= f) (m' >>= f') s (n + k) Q := by
  rcases h with ⟨e, s', ws, hrun, halloc⟩ | ⟨a, _, _, ws, _, hlen, halloc, hrun, rfl, rfl, hP⟩
  · exact .inl ⟨e, s', ws, hrun.bind_error, halloc⟩
  rw [List.append_nil] at hrun
  rcases hf a _ ws halloc hP with ⟨e, s', ws', hrun', halloc'⟩ |
    ⟨b, s₂, s', ws', tail, hlen', halloc', hrun', hQ⟩
  · exact .inl ⟨e, s', ws ++ ws', hrun.bind hrun', halloc.trans halloc'⟩
  · refine .inr ⟨b, s₂, s', ws ++ ws', tail, ?_, halloc.trans halloc', ?_, hQ⟩
    · rw [List.length_append, hlen, hlen']
    · rw [List.append_assoc]
      exact hrun.bind hrun'

/-- It starts with a step that changes nothing. -/
theorem Mutating.after {a : α} (h : Runs memory m m' s (.ok a) s [])
    (hf : Mutating memory (f a) (f' a) s n Q) : Mutating memory (m >>= f) (m' >>= f') s n Q := by
  rcases hf with ⟨e, s', ws, hrun, halloc⟩ | ⟨b, s₁, s', ws, tail, hlen, halloc, hrun, hQ⟩
  · exact .inl ⟨e, s', ws, h.after hrun, halloc⟩
  · exact .inr ⟨b, s₁, s', ws, tail, hlen, halloc, h.after hrun, hQ⟩

/-- It fails before it has changed anything. -/
theorem Mutating.fail {e : ContactStoreError} (h : Runs memory m m' s (.error e) s []) :
    Mutating memory (m >>= f) (m' >>= f') s n Q :=
  .inl ⟨e, s, [], h.bind_error, .refl s⟩

/-- It starts with a step that reads. -/
theorem Mutating.reading {g : ContactStore S C → Except ContactStoreError α}
    {g' : ContactStore (S × ℕ) C → Except ContactStoreError α} (h : ∀ n, g' (s.fuse n) = g s)
    (hf : ∀ a, g s = .ok a → Mutating memory (f a) (f' a) s n Q) :
    Mutating memory (.reading g >>= f) (.reading g' >>= f') s n Q := by
  have hread : Runs memory (.reading g) (.reading g') s (g s) s [] := .reading h
  rcases hg : g s with e | a
  · rw [hg] at hread
    exact .fail hread
  · rw [hg] at hread
    exact .after hread (hf a hg)

/-- It starts with a requirement. -/
theorem Mutating.require {p : Prop} [Decidable p] {e : ContactStoreError} {g : StoreM S C β}
    {g' : StoreM (S × ℕ) C β} (hf : p → Mutating memory g g' s n Q) :
    Mutating memory (Fallible.require p e >>= fun _ ↦ g) (Fallible.require p e >>= fun _ ↦ g') s n Q := by
  by_cases hp : p
  · exact .after (.quiet (require_of hp e s) rfl fun k ↦ require_of hp e (s.fuse k)) (hf hp)
  · have hfail : ∀ {σ : Type} (t : σ),
        (Fallible.require p e : Fallible σ ContactStoreError PUnit) t = (.error e, t) := by
      intro σ t
      rw [Fallible.require, if_neg hp, Fallible.fail_apply]
    exact .fail (.quiet (hfail s) rfl fun k ↦ hfail (s.fuse k))

/-- It starts at the gate. -/
theorem Mutating.gate {g : StoreM S C β} {g' : StoreM (S × ℕ) C β}
    (hf : s.integrityGate = true → Mutating memory g g' s n Q) :
    Mutating memory (gate >>= fun _ ↦ g) (gate >>= fun _ ↦ g') s n Q := by
  rcases Bool.eq_false_or_eq_true s.integrityGate with hgate | hgate
  · exact .after (.quiet (gate_of_open hgate) rfl fun k ↦ gate_of_open (s := s.fuse k) hgate) (hf hgate)
  · exact .fail (.quiet (gate_of_closed hgate) rfl fun k ↦ gate_of_closed (s := s.fuse k) hgate)

/-- All allocations are made, and the index is changed before the last writes. -/
theorem Mutating.indexed {a : α} {P : ContactIndex → Prop} (h : ∃ index, P index ∧
      Runs memory m m' s (.ok a) { s with index := index } [])
    (hf : ∀ index, P index → ∃ b s' ws, Runs memory (f a) (f' a) { s with index := index } (.ok b) s' ws ∧
      Q b s s' ws) : Mutating memory (m >>= f) (m' >>= f') s 0 Q := by
  obtain ⟨index, hindex, hrun⟩ := h
  obtain ⟨b, s', ws, hrun', hQ⟩ := hf index hindex
  exact .inr ⟨b, s, s', [], ws, rfl, .refl s, hrun.after hrun', hQ⟩

/-- All allocations are made. -/
theorem Mutating.last {b : β} {g : StoreM S C β} {g' : StoreM (S × ℕ) C β} {s' : ContactStore S C}
    (h : Runs memory g g' s (.ok b) s' ws) (hQ : Q b s s' ws) : Mutating memory g g' s 0 Q :=
  .inr ⟨b, s, s', [], ws, rfl, .refl s, h, hQ⟩

end Shape

/-! ## What is allocated -/

/-- A reference to a string that ends before the bump pointer of the heap. -/
structure StringAt (memory : S → Memory) (s : ContactStore S C) (ref : StringRef) (bytes : Bytes) :
    Prop where
  read : (memory s.storage).window (stringHeapOffset + ref.offset.toNat) ref.len.toNat = bytes
  le : ref.offset.toNat + ref.len.toNat ≤ s.stringHeap.bump.toNat
  short : ref.len.toNat ≤ maxStringFieldBytes

/-- A reference to a key that ends before the bump pointer of its region. -/
structure KeyAt (memory : S → Memory) (s : ContactStore S C) (key : UInt32 × UInt16) (bytes : Bytes) :
    Prop where
  read : (memory s.storage).window (keyRegionOffset + key.1.toNat) key.2.toNat = bytes
  le : key.2 = 0 ∨ key.1.toNat + key.2.toNat ≤ s.keyRegion.bump.toNat
  short : key.2.toNat ≤ maxPublicKeyBytes

/-- The absent string. -/
theorem stringAt_default (memory : S → Memory) (s : ContactStore S C) :
    StringAt memory s .default [] := ⟨rfl, Nat.zero_le _, Nat.zero_le _⟩

theorem StringAt.of_allocates {ref : StringRef} {bytes : Bytes} (h : StringAt memory s ref bytes)
    (halloc : Allocates memory s s₁ ws) (hheap : s.stringHeap.bump.toNat ≤ stringHeapBytes) :
    StringAt memory s₁ ref bytes where
  read := by
    have hle := h.le
    rw [← h.read]
    exact (Memory.window_congr (halloc.intact hheap).strings (Nat.le_add_right _ _) (by omega)).symm
  le := Nat.le_trans h.le halloc.heap_le
  short := h.short

theorem KeyAt.of_allocates {key : UInt32 × UInt16} {bytes : Bytes} (h : KeyAt memory s key bytes)
    (halloc : Allocates memory s s₁ ws) (hheap : s.stringHeap.bump.toNat ≤ stringHeapBytes) :
    KeyAt memory s₁ key bytes where
  read := by
    rw [← h.read]
    rcases h.le with hzero | hle
    · rw [hzero]
      rfl
    · exact (Memory.window_congr (halloc.intact hheap).keys (Nat.le_add_right _ _) (by omega)).symm
  le := h.le.imp_right (Nat.le_trans · halloc.keys_le)
  short := h.short

section Steps

variable (hf : hal.storage.Faithful contactStoreEnd memory)
include hf

/-- The key of a contact is allocated. -/
theorem allocKey_allocating (s : ContactStore S C) (keyBytes : Bytes) :
    Allocating memory (allocKey hal keyBytes) (allocKey hal.fused keyBytes) s 1
      fun key s₁ ↦ KeyAt memory s₁ key keyBytes := by
  rcases allocKey_runs hf s keyBytes with ⟨e, hrun⟩ | ⟨hlen, hroom, x, hrun⟩
  · exact .inl ⟨e, s, [], hrun, .refl s⟩
  have hlen16 := toNat_ofNat_length (Nat.lt_of_le_of_lt hlen (by decide))
  have hmemory := hrun.memory_eq
  have hbump : (saturatingAdd s.keyRegion.bump (UInt16.ofNat keyBytes.length).toUInt32).toNat
      = s.keyRegion.bump.toNat + keyBytes.length := by
    rw [keyRegionBytes_eq] at hroom
    rw [toNat_saturatingAdd, UInt16.toNat_toUInt32, hlen16]
    omega
  refine .inr ⟨_, _, _, [_], [], rfl, ⟨rfl, hmemory, Nat.le_refl _, ?_, id, fun _ ↦ ?_, ?_⟩, hrun, rfl,
    rfl, ?_, ?_, ?_⟩
  · rw [hbump]
    exact Nat.le_add_right _ _
  · rw [hbump]
    exact hroom
  · rintro w hw
    rw [List.mem_singleton] at hw
    subst hw
    rw [keyRegionBytes_eq] at hroom
    refine .inr ⟨Nat.le_refl _, ?_⟩
    change keyRegionOffset + s.keyRegion.bump.toNat + keyBytes.length ≤ timingLogOffset
    rw [keyRegionOffset_eq, timingLogOffset_eq]
    omega
  · rw [hmemory, hlen16]
    exact Memory.window_patch _ _ _
  · rw [hlen16]
    exact .inr (Nat.le_of_eq hbump.symm)
  · rw [hlen16]
    exact hlen

/-- A string of a contact is allocated. -/
theorem allocString_allocating (s : ContactStore S C) (bytes : Bytes) :
    Allocating memory (allocString hal bytes) (allocString hal.fused bytes) s 1
      fun ref s₁ ↦ StringAt memory s₁ ref bytes := by
  rcases allocString_runs hf s bytes with ⟨e, hrun⟩ | ⟨hlen, hroom, x, hrun⟩
  · exact .inl ⟨e, s, [], hrun, .refl s⟩
  have hlen16 := toNat_ofNat_length (Nat.lt_of_le_of_lt hlen (by decide))
  have hmemory := hrun.memory_eq
  have hbump : (saturatingAdd s.stringHeap.bump (UInt16.ofNat bytes.length).toUInt32).toNat
      = s.stringHeap.bump.toNat + bytes.length := by
    rw [stringHeapBytes_eq] at hroom
    rw [toNat_saturatingAdd, UInt16.toNat_toUInt32, hlen16]
    omega
  refine .inr ⟨_, _, _, [_], [], rfl, ⟨rfl, hmemory, ?_, Nat.le_refl _, fun _ ↦ ?_, id, ?_⟩, hrun, rfl,
    rfl, ?_, ?_, ?_⟩
  · rw [hbump]
    exact Nat.le_add_right _ _
  · rw [hbump]
    exact hroom
  · rintro w hw
    rw [List.mem_singleton] at hw
    subst hw
    rw [stringHeapBytes_eq] at hroom
    refine .inl ⟨Nat.le_refl _, ?_⟩
    change stringHeapOffset + s.stringHeap.bump.toNat + bytes.length ≤ keyRegionOffset
    rw [stringHeapOffset_eq, keyRegionOffset_eq]
    omega
  · rw [hmemory, hlen16]
    exact Memory.window_patch _ _ _
  · rw [hlen16]
    exact Nat.le_of_eq hbump.symm
  · rw [hlen16]
    exact hlen

end Steps

/-! ## The record and the register -/

/-- A store whose digest can be computed: the key for it was derived when it was provisioned. -/
def Keyed (hal : StorePlatform S C) (s : ContactStore S C) : Prop :=
  ∃ k, hal.deriveSubkey s.masterKey .contactStoreIntegrity = .ok k

theorem Keyed.congr (h : Keyed hal s) (hkey : s₁.masterKey = s.masterKey) : Keyed hal s₁ := by
  rw [Keyed, hkey]
  exact h

/-- The contact of a record that is written, if it is one. -/
def contactWritten (mem : Memory) (r : ContactRecord) : Option Contact :=
  if r.magic = contactRecordMagic then some (contactIn mem r) else none

/-- From `s₁` on, a record was written to a slot, and the digest of what is stored to the register.
-/
structure Commits (hal : StorePlatform S C) (memory : S → Memory) (s₁ s' : ContactStore S C)
    (slot : UInt8) (r : ContactRecord) (d : Block 32) : Prop where
  kept : Kept memory s'
  gate : s'.integrityGate = s₁.integrityGate
  masterKey : s'.masterKey = s₁.masterKey
  live : Live (written (memory s₁.storage) slot r) s₁.stringHeap.bump.toNat s₁.keyRegion.bump.toNat
  digest : computeIntegrityDigest hal s' = .ok d
  memory_eq : memory s'.storage
    = (written (memory s₁.storage) slot r).patch contactStoreIntegrityOffset d.toBytes

section Commit

variable (hf : hal.storage.Faithful contactStoreEnd memory)

include hf in
theorem digest_of_sound (hsound : Sound (memory s.storage)) (hkey : Keyed hal s) :
    ∃ d, computeIntegrityDigest hal s = .ok d := by
  obtain ⟨k, hk⟩ := hkey
  refine ⟨_, (computeIntegrityDigest_eq_ok hf).mpr ⟨k, hk, fun buf hbuf ↦ ?_, rfl⟩⟩
  obtain ⟨slot, hslot, rfl⟩ := List.mem_map.mp hbuf
  rw [List.mem_filter, decide_eq_true_eq] at hslot
  exact (hsound.slots slot hslot.1 hslot.2).1

/-- The register holds the digest. -/
theorem Commits.register {s' : ContactStore S C} {d : Block 32}
    (h : Commits hal memory s₁ s' slot r d) :
    (memory s'.storage).window contactStoreIntegrityOffset 32 = d.toBytes := by
  have hwindow := Memory.window_patch (written (memory s₁.storage) slot r) contactStoreIntegrityOffset
    d.toBytes
  rw [d.length_toBytes] at hwindow
  rw [h.memory_eq, hwindow]

/-- The directory has changed at the slot. -/
theorem Commits.held_eq {s' : ContactStore S C} {d : Block 32} (h : Commits hal memory s₁ s' slot r d)
    (hslot : slot ∈ slots) : held (memory s'.storage)
      = Function.update (held (memory s₁.storage)) slot (contactWritten (memory s₁.storage) r) := by
  rw [h.memory_eq, h.live.held_eq (intact_patch_register h.live.heap_le h.live.keys_le _),
    held_written hslot]
  rfl

include hf in
/-- **Commit.** Over a record that was written, refreshing the register commits it. -/
theorem updateIntegrity_commits {x : S} {index : ContactIndex}
    (hwritten : Live (written (memory s.storage) slot r) s.stringHeap.bump.toNat
      s.keyRegion.bump.toNat)
    (hkey : Keyed hal s) (hmem : memory x = written (memory s.storage) slot r)
    (hindex : IndexOf (written (memory s.storage) slot r) index) :
    ∃ d s', Runs memory (updateIntegrity hal) (updateIntegrity hal.fused)
        { s with storage := x, index := index } (.ok ⟨⟩) s'
        [(contactStoreIntegrityOffset, d.toBytes)] ∧
      Commits hal memory s s' slot r d := by
  have hsound : Sound (memory x) := by
    rw [hmem]
    exact hwritten.sound
  obtain ⟨d, hd⟩ := digest_of_sound hf (s := { s with storage := x, index := index }) hsound hkey
  obtain ⟨y, hrun⟩ := updateIntegrity_runs hf { s with storage := x, index := index } hd
  have hmemory : memory y
      = (written (memory s.storage) slot r).patch contactStoreIntegrityOffset d.toBytes := by
    rw [← hmem]
    exact hrun.memory_eq
  have hintact : Intact s.stringHeap.bump.toNat s.keyRegion.bump.toNat
      (written (memory s.storage) slot r) (memory y) := by
    rw [hmemory]
    exact intact_patch_register hwritten.heap_le hwritten.keys_le d.toBytes
  refine ⟨d, _, hrun, ⟨hwritten.of_intact hintact, hindex.nodup, fun slot' ↦ ?_⟩, rfl, rfl, hwritten, ?_,
    hmemory⟩
  · rw [hindex.mem_iff]
    exact and_congr_right fun hslot' ↦ (occupied_congr hintact hslot').symm
  · rw [← hd]
    refine computeIntegrityDigest_congr hf rfl ?_ ?_
    · change SameRecords (memory x) (memory y)
      rw [hmem]
      exact hintact.sameRecords
    · change Memory.AgreeOn timingLogOffset contactStoreRramEnd (memory x) (memory y)
      rw [hmemory, hmem]
      exact (Memory.agreeOn_patch (.inl (by decide))).symm

end Commit

/-! ## The index follows -/

section Index

variable {mem : Memory} {index : ContactIndex}

theorem IndexOf.remove (h : IndexOf mem index) (slot : UInt8) :
    IndexOf (written mem slot .default) (index.remove slot) := by
  refine ⟨?_, fun slot' ↦ ?_⟩
  · rw [ContactIndex.slotsOf_remove]
    exact h.nodup.filter _
  rw [ContactIndex.slotsOf_remove, List.mem_filter, h.mem_iff, occupied_written, bne_iff_ne]
  by_cases heq : slot' = slot
  · rw [if_pos heq]
    exact iff_of_false (fun h ↦ h.2 heq) fun h ↦ absurd h.2 (by decide)
  · rw [if_neg heq]
    exact and_iff_left heq

/-- A free slot finds room in the index. -/
theorem IndexOf.insert (h : IndexOf mem index) (hslot : slot ∈ slots) (hfree : ¬ Occupied mem slot)
    (hmagic : r.magic = contactRecordMagic) (fp : Block 32) (flags : ContactFlags) :
    ∃ index', index.insert fp slot flags = .ok index' ∧ IndexOf (written mem slot r) index' := by
  have hnew : slot ∉ index.slotsOf := fun hmem ↦ hfree ((h.mem_iff slot).mp hmem).2
  have hnodup : (slot :: index.slotsOf).Nodup := List.nodup_cons.mpr ⟨hnew, h.nodup⟩
  have hsubset : slot :: index.slotsOf ⊆ slots :=
    List.cons_subset.mpr ⟨hslot, fun slot' hmem ↦ ((h.mem_iff slot').mp hmem).1⟩
  have hlen := (List.subperm_of_subset hnodup hsubset).length_le
  rw [slots, List.length_map, List.length_range, List.length_cons] at hlen
  obtain ⟨index', hinsert, hperm⟩ := ContactIndex.insert_of_lt hlen fp slot flags
  refine ⟨index', hinsert, hperm.nodup_iff.mpr hnodup, fun slot' ↦ ?_⟩
  rw [hperm.mem_iff, List.mem_cons, h.mem_iff, occupied_written]
  by_cases heq : slot' = slot
  · subst heq
    rw [if_pos rfl]
    exact iff_of_true (.inl rfl) ⟨hslot, hmagic⟩
  · rw [if_neg heq]
    exact or_iff_right heq

theorem IndexOf.rewrite (h : IndexOf mem index) (hocc : Occupied mem slot)
    (hmagic : r.magic = contactRecordMagic) : IndexOf (written mem slot r) index := by
  refine ⟨h.nodup, fun slot' ↦ ?_⟩
  rw [h.mem_iff, occupied_written]
  split_ifs with heq
  · rw [heq]
    exact and_congr_right fun _ ↦ iff_of_true hocc hmagic
  · rfl

theorem IndexOf.updateFlags (h : IndexOf mem index) (slot : UInt8) (flags : ContactFlags) :
    IndexOf mem (index.updateFlags slot flags) := by
  refine ⟨?_, fun slot' ↦ ?_⟩
  · rw [ContactIndex.slotsOf_updateFlags]
    exact h.nodup
  · rw [ContactIndex.slotsOf_updateFlags]
    exact h.mem_iff slot'

end Index

/-! ## The records that are written -/

/-- A record fits when its key, its two strings and the rest of its references do. -/
theorem fits_of_allocated {publicKey email displayName : Bytes} (hactive : r.isActive = true)
    (hkey : KeyAt memory s (r.keyOffset, r.keyLen) publicKey) (hemail : StringAt memory s r.email email)
    (hname : StringAt memory s r.displayName displayName)
    (hrest : ∀ ref ∈ r.stringRefs.drop 2, ref.offset.toNat + ref.len.toNat ≤ s.stringHeap.bump.toNat ∧
      ref.len.toNat ≤ maxStringFieldBytes) :
    Fits s.stringHeap.bump.toNat s.keyRegion.bump.toNat r := by
  have hrefs : ∀ ref ∈ r.stringRefs, ref.offset.toNat + ref.len.toNat ≤ s.stringHeap.bump.toNat ∧
      ref.len.toNat ≤ maxStringFieldBytes := by
    rw [show r.stringRefs = r.email :: r.displayName :: r.stringRefs.drop 2 from rfl,
      List.forall_mem_cons, List.forall_mem_cons]
    exact ⟨⟨hemail.le, hemail.short⟩, ⟨hname.le, hname.short⟩, hrest⟩
  exact ⟨hactive, fun ref href ↦ (hrefs ref href).1, fun ref href ↦ (hrefs ref href).2, hkey.le,
    hkey.short⟩

/-- The record of a new contact is one. -/
theorem isActive_newRecord (input : NewContact) (key : UInt32 × UInt16)
    (pin : Block 32 × Block 12 × Block 16) (email displayName : StringRef) :
    (newRecord input key pin email displayName).recomputeCrc.isActive = true := by
  have hflags : ∀ own : Bool, (ContactFlags.fromBitsTruncate
      (if own then ContactFlags.active.union .selfKey else .active).bits).contains .active = true := by
    decide
  exact Bool.and_eq_true_iff.mpr ⟨beq_self_eq_true _, hflags input.ownIdentity⟩

theorem pinFields_eq_ok {input : NewContact} {pin : Block 32 × Block 12 × Block 16}
    (h : pinFields input = .ok pin) :
    pin.1 = (if input.pinProtected then input.pinVerifier.getD (.zero 32) else .zero 32) ∧
      pin.2.1 = (if input.pinProtected then input.pinNonce.getD (.zero 12) else .zero 12) ∧
      pin.2.2 = (if input.pinProtected then input.pinTag.getD (.zero 16) else .zero 16) := by
  rw [pinFields] at h
  split_ifs at h ⊢ with hpin
  · rcases hv : input.pinVerifier with _ | pv
    · rw [hv] at h
      cases h
    · rw [hv] at h
      obtain rfl := Except.ok.inj h
      exact ⟨rfl, rfl, rfl⟩
  · obtain rfl := Except.ok.inj h
    exact ⟨rfl, rfl, rfl⟩

/-- It refers to what was allocated for it. -/
theorem contactIn_newRecord {input : NewContact} {key : UInt32 × UInt16}
    {pin : Block 32 × Block 12 × Block 16} {email displayName : StringRef}
    (hpin : pinFields input = .ok pin) (hkey : KeyAt memory s key input.publicKey)
    (hemail : StringAt memory s email input.email)
    (hname : StringAt memory s displayName (input.displayName.getD [])) :
    contactIn (memory s.storage) (newRecord input key pin email displayName).recomputeCrc
      = input.contact := by
  obtain ⟨hverifier, hnonce, htag⟩ := pinFields_eq_ok hpin
  rw [NewContact.contact, ← hverifier, ← hnonce, ← htag, ← hkey.read, ← hemail.read, ← hname.read]
  rfl

theorem fits_newRecord {input : NewContact} {key : UInt32 × UInt16}
    {pin : Block 32 × Block 12 × Block 16} {email displayName : StringRef}
    (hkey : KeyAt memory s key input.publicKey) (hemail : StringAt memory s email input.email)
    (hname : StringAt memory s displayName (input.displayName.getD [])) :
    Fits s.stringHeap.bump.toNat s.keyRegion.bump.toNat
      (newRecord input key pin email displayName).recomputeCrc := by
  refine fits_of_allocated (isActive_newRecord ..) hkey hemail hname fun ref href ↦ ?_
  obtain rfl : ref = .default := List.eq_of_mem_replicate (n := 13) href
  exact ⟨Nat.zero_le _, Nat.zero_le _⟩

/-- The flags of a contact after an update. -/
def flagsAfter (flags : UInt8) (stale : Option Bool) : UInt8 :=
  stale.elim flags fun stale ↦
    (if stale then (ContactFlags.fromBitsTruncate flags).union .stale
      else (ContactFlags.fromBitsTruncate flags).difference .stale).bits

/-- An update leaves the contact active. -/
theorem active_flagsAfter {flags : UInt8} (h : (ContactFlags.fromBitsTruncate flags).contains .active = true)
    (stale : Option Bool) :
    (ContactFlags.fromBitsTruncate (flagsAfter flags stale)).contains .active = true := by
  have hbits : ∀ (b : BitVec 8) (stale : Bool),
      (ContactFlags.fromBitsTruncate ⟨b⟩).contains .active = true →
      (ContactFlags.fromBitsTruncate (flagsAfter ⟨b⟩ (some stale))).contains .active = true := by
    decide +kernel
  rcases stale with _ | stale
  · exact h
  · exact hbits flags.toBitVec stale h

/-- The record of a contact after an update, with the references of its two strings. -/
def updatedRecord (update : ContactUpdate) (r : ContactRecord) (email displayName : StringRef) :
    ContactRecord :=
  { r with
    callsign := update.callsign.getD r.callsign
    dmrId := update.dmrId.getD r.dmrId
    email := email
    displayName := displayName
    lastFetched := update.lastFetched.getD r.lastFetched
    flags := flagsAfter r.flags update.stale }

/-- It shows the update of the contact. -/
theorem contactIn_updatedRecord {update : ContactUpdate} {c : Contact} {email displayName : StringRef}
    (hc : contactIn (memory s.storage) r = c)
    (hemail : StringAt memory s email (update.email.getD c.email))
    (hname : StringAt memory s displayName (update.displayName.getD c.displayName)) :
    contactIn (memory s.storage) (updatedRecord update r email displayName).recomputeCrc
      = update.apply c := by
  rw [ContactUpdate.apply, ← hemail.read, ← hname.read, ← hc]
  rfl

/-- Its other references are those it had. -/
theorem fits_updatedRecord {update : ContactUpdate} {email displayName : StringRef} {e n : Bytes}
    (hfits : Fits s.stringHeap.bump.toNat s.keyRegion.bump.toNat r)
    (hemail : StringAt memory s email e) (hname : StringAt memory s displayName n) :
    Fits s.stringHeap.bump.toNat s.keyRegion.bump.toNat
      (updatedRecord update r email displayName).recomputeCrc := by
  obtain ⟨hmagic, hflags⟩ := Bool.and_eq_true_iff.mp hfits.active
  have hactive : (updatedRecord update r email displayName).recomputeCrc.isActive = true :=
    Bool.and_eq_true_iff.mpr ⟨hmagic, active_flagsAfter hflags update.stale⟩
  have hkey : KeyAt memory s (r.keyOffset, r.keyLen) _ := ⟨rfl, hfits.key, hfits.keyShort⟩
  refine fits_of_allocated hactive hkey hemail hname fun ref href ↦ ?_
  have hdrop : ref ∈ r.stringRefs.drop 2 := href
  have href : ref ∈ r.stringRefs := List.mem_of_mem_drop hdrop
  exact ⟨hfits.strings ref href, hfits.short ref href⟩

/-! ## The operations -/

/-- The last two writes of an operation, after which the slot has the contact `c`. -/
def Effect (hal : StorePlatform S C) (memory : S → Memory) (slot : UInt8) (c : Option Contact)
    (s₁ s' : ContactStore S C) (tail : List (ℕ × Bytes)) : Prop :=
  ∃ r d, tail = [(recordOffset slot, r.asBytes), (contactStoreIntegrityOffset, d.toBytes)] ∧
    Commits hal memory s₁ s' slot r d ∧ contactWritten (memory s₁.storage) r = c

section Operations

variable (hf : hal.storage.Faithful contactStoreEnd memory)
include hf

/-- **Deletion** takes the contact out of its slot. -/
theorem delete_mutating (hkept : Kept memory s) (hkey : Keyed hal s) (slot : UInt8) :
    Mutating memory (delete hal slot) (delete hal.fused slot) s 0
      fun _ s₁ s' tail ↦ Effect hal memory slot none s₁ s' tail := by
  obtain ⟨x, hwrite⟩ := writeRecord_runs hf s slot .default
  have hwritten := hkept.live.written slot goodSlot_default fun hmagic ↦ absurd hmagic (by decide)
  obtain ⟨d, s', hupdate, hcommits⟩ :=
    updateIntegrity_commits hf hwritten hkey hwrite.memory_eq (hkept.index.remove slot)
  refine .gate fun _ ↦ .last (hwrite.bind (.after (.quiet rfl rfl fun _ ↦ rfl) hupdate)) ?_
  exact ⟨.default, d, rfl, hcommits, if_neg (by decide)⟩

/-- The search for a slot looks at the first four bytes of the next one. -/
theorem findEmptySlot_cons (slot : UInt8) (l : List UInt8) : findEmptySlot hal s (slot :: l)
    = if Occupied (memory s.storage) slot then findEmptySlot hal s l else .ok slot := by
  have hle := recordOffset_add_le slot
  rw [contactRecordBytes_eq, timingLogOffset_eq] at hle
  have hread := readAt_eq hf s.storage (by rw [contactStoreEnd_eq]; omega :
    recordOffset slot + 4 ≤ contactStoreEnd)
  have htake : (slotBytes (memory s.storage) slot).take 4
      = (memory s.storage).window (recordOffset slot) 4 := by
    rw [slotBytes, show contactRecordBytes = 4 + 252 from rfl, Memory.window_add,
      List.take_left' Memory.length_window]
  have hmagic : Occupied (memory s.storage) slot
      ↔ u32OfLe ((memory s.storage).window (recordOffset slot) 4) = contactRecordMagic := by
    rw [Occupied, htake]
    constructor
    · intro h
      rw [h, u32OfLe_u32le]
    · intro h
      rw [← h, u32le_u32OfLe Memory.length_window]
  rw [findEmptySlot, hread, ok_bind]
  simp only [ne_eq, ← hmagic, ite_not]
  rfl

/-- A slot that is found free is one of those searched, and is not occupied. -/
theorem findEmptySlot_ok {l : List UInt8} (h : findEmptySlot hal s l = .ok slot) :
    slot ∈ l ∧ ¬ Occupied (memory s.storage) slot := by
  induction l with
  | nil => cases h
  | cons first l ih =>
    rw [findEmptySlot_cons hf] at h
    split_ifs at h with hocc
    · exact (ih h).imp_left (List.mem_cons_of_mem _)
    · obtain rfl := Except.ok.inj h
      exact ⟨List.mem_cons_self, hocc⟩

/-- One is found if there is one. -/
theorem findEmptySlot_of_free {l : List UInt8} (hslot : slot ∈ l)
    (hfree : ¬ Occupied (memory s.storage) slot) : ∃ slot', findEmptySlot hal s l = .ok slot' := by
  induction l with
  | nil => cases hslot
  | cons first l ih =>
    rw [findEmptySlot_cons hf]
    split_ifs with hocc
    · refine ih ((List.mem_cons.mp hslot).resolve_left ?_)
      rintro rfl
      exact hfree hocc
    · exact ⟨first, rfl⟩

omit hf in
theorem findEmptySlot_fused (l : List UInt8) (n : ℕ) :
    findEmptySlot hal.fused (s.fuse n) l = findEmptySlot hal s l := by
  induction l with
  | nil => rfl
  | cons slot l ih =>
    rw [findEmptySlot, findEmptySlot, ih]
    rfl

omit hf in
/-- Whether or not there is a string, its reference is good. -/
theorem Allocating.option {name : Option Bytes} (h : ∀ bytes, Allocating memory
      (allocString hal bytes) (allocString hal.fused bytes) s 1 fun ref s₁ ↦ StringAt memory s₁ ref bytes) :
    Allocating memory (name.elim (pure .default) (allocString hal))
      (name.elim (pure .default) (allocString hal.fused)) s name.isSome.toNat
      fun ref s₁ ↦ StringAt memory s₁ ref (name.getD []) := by
  rcases name with _ | bytes
  · exact .last (.pure _) ⟨rfl, rfl, stringAt_default memory s⟩
  · exact h bytes

/-- **Insertion** puts the new contact into a slot. -/
theorem insert_mutating (input : NewContact) (hkept : Kept memory s) (hkey : Keyed hal s) :
    Mutating memory (insert hal input) (insert hal.fused input) s (2 + input.displayName.isSome.toNat)
      fun slot s₁ s' tail ↦ slot ∈ slots ∧
        Effect hal memory slot (some input.contact) s₁ s' tail := by
  have hcount : 2 + input.displayName.isSome.toNat = 1 + (1 + (input.displayName.isSome.toNat + 0)) := by
    omega
  have hheap := hkept.live.heap_le
  rw [hcount]
  refine .gate fun _ ↦ .reading (fun n ↦ ?_) fun slot hfound ↦ ?_
  · split_ifs
    · exact findEmptySlot_fused _ n
    · exact findEmptySlot_fused _ n
  obtain ⟨hslot, hfree⟩ : slot ∈ slots ∧ ¬ Occupied (memory s.storage) slot := by
    split_ifs at hfound
    · exact (findEmptySlot_ok hf hfound).imp_left List.mem_of_mem_take
    · exact (findEmptySlot_ok hf hfound).imp_left List.mem_of_mem_drop
  refine .bind (allocKey_allocating hf s input.publicKey) fun key s₁ ws₁ halloc₁ hkeyAt ↦ ?_
  rcases hpin : pinFields input with e | pin
  · exact .fail (.quiet rfl rfl fun _ ↦ rfl)
  refine .after (.quiet rfl rfl fun _ ↦ rfl) ?_
  refine .bind (allocString_allocating hf s₁ input.email) fun email s₂ ws₂ halloc₂ hemailAt ↦ ?_
  refine .bind (.option (allocString_allocating hf s₂)) fun name s₃ ws₃ halloc₃ hnameAt ↦ ?_
  -- all allocations are made, and what they stored is still there
  have halloc := (halloc₁.trans halloc₂).trans halloc₃
  have hheap₁ := halloc₁.heap_max hheap
  have hheap₂ := halloc₂.heap_max hheap₁
  have hkeyAt := hkeyAt.of_allocates (halloc₂.trans halloc₃) hheap₁
  have hemailAt := hemailAt.of_allocates halloc₃ hheap₂
  have hkept₃ := halloc.kept hkept
  set r := (newRecord input key pin email name).recomputeCrc with hr
  have hmagic : r.magic = contactRecordMagic := rfl
  have hfree₃ : ¬ Occupied (memory s₃.storage) slot :=
    mt (occupied_congr (halloc.intact hheap) hslot).mp hfree
  obtain ⟨index, hinsert, hindex⟩ := hkept₃.index.insert hslot hfree₃ hmagic r.fingerprint r.contactFlags
  obtain ⟨x, hwrite⟩ := writeRecord_runs hf s₃ slot r
  have hwritten := hkept₃.live.written slot
    (goodSlot_recomputeCrc (loadable_newRecord input key pin email name))
    fun _ ↦ fits_newRecord hkeyAt hemailAt hnameAt
  obtain ⟨d, s', hupdate, hcommits⟩ := updateIntegrity_commits hf hwritten
    (hkey.congr halloc.masterKey) hwrite.memory_eq hindex
  have hpick : Runs memory
      (.reading fun s ↦ s.index.insert r.fingerprint slot r.contactFlags)
      (.reading fun s ↦ s.index.insert r.fingerprint slot r.contactFlags) { s₃ with storage := x }
      (.ok index) { s₃ with storage := x } [] := by
    rw [← hinsert]
    exact .reading fun _ ↦ rfl
  refine .last (hwrite.bind (hpick.after (.after (.quiet rfl rfl fun _ ↦ rfl)
    (hupdate.bind (.pure _))))) ⟨hslot, r, d, rfl, hcommits, ?_⟩
  rw [contactWritten, if_pos hmagic, hr, contactIn_newRecord hpin hkeyAt hemailAt hnameAt]

omit hf in
/-- A string that is given replaces another one; else the other one stays. -/
theorem Allocating.replace {α : Type} (bytes : Option Bytes) {old : Bytes} {ref : StringRef}
    (g : StringRef → α) (h : StringAt memory s ref old) (halloc : ∀ bytes, Allocating memory
      (allocString hal bytes) (allocString hal.fused bytes) s 1 fun ref s₁ ↦ StringAt memory s₁ ref bytes) :
    Allocating memory (bytes.elim (pure (g ref)) fun bytes ↦ allocString hal bytes >>= fun ref ↦ pure (g ref))
      (bytes.elim (pure (g ref)) fun bytes ↦ allocString hal.fused bytes >>= fun ref ↦ pure (g ref)) s
      bytes.isSome.toNat
      fun a s₁ ↦ ∃ ref, a = g ref ∧ StringAt memory s₁ ref (bytes.getD old) := by
  rcases bytes with _ | bytes
  · exact .last (.pure _) ⟨rfl, rfl, ref, rfl, h⟩
  · exact (halloc bytes).bind fun ref s₁ ws _ hat ↦ .last (.pure _) ⟨rfl, rfl, ref, rfl, hat⟩

/-- **Update** changes the contact in its slot. -/
theorem update_mutating (upd : ContactUpdate) (hkept : Kept memory s) (hkey : Keyed hal s)
    (hslot : slot ∈ slots) :
    Mutating memory (update hal slot upd) (update hal.fused slot upd) s
      (upd.email.isSome.toNat + upd.displayName.isSome.toNat)
      fun _ s₁ s' tail ↦ ∃ c, held (memory s.storage) slot = some c ∧
        Effect hal memory slot (some (upd.apply c)) s₁ s' tail := by
  have hlive := hkept.live
  refine .gate fun _ ↦ .reading (fun _ ↦ rfl) fun r hread ↦ .require fun hactive ↦ ?_
  rw [readRecord_of_sound hf hlive.sound hslot, Except.ok.injEq] at hread
  subst hread
  have hocc := (isActive_recordIn hlive hslot).mp hactive
  set r := recordIn (memory s.storage) slot
  have hfits : Fits s.stringHeap.bump.toNat s.keyRegion.bump.toNat r := hlive.fits slot hslot hocc
  set c := contactIn (memory s.storage) r
  have hheld : held (memory s.storage) slot = some c := if_pos ⟨hslot, hocc⟩
  have hold : ∀ ref ∈ r.stringRefs, StringAt memory s ref _ :=
    fun ref href ↦ ⟨rfl, hfits.strings ref href, hfits.short ref href⟩
  set r₀ : ContactRecord :=
    { r with callsign := upd.callsign.getD r.callsign, dmrId := upd.dmrId.getD r.dmrId }
  have hcount : upd.email.isSome.toNat + upd.displayName.isSome.toNat
      = upd.email.isSome.toNat + (upd.displayName.isSome.toNat + 0) := rfl
  rw [hcount]
  refine .bind (P := fun r₁ s₁ ↦ ∃ ref, r₁ = { r₀ with email := ref } ∧
    StringAt memory s₁ ref (upd.email.getD c.email)) ?_ fun r₁ s₁ ws₁ halloc₁ hr₁ ↦ ?_
  · have hstep := Allocating.replace upd.email (fun ref ↦ { r₀ with email := ref })
      (hold r.email List.mem_cons_self) (allocString_allocating hf s)
    generalize upd.email = o at hstep ⊢
    rcases o with _ | email <;> exact hstep
  obtain ⟨email, rfl, hemailAt⟩ := hr₁
  have hheap₁ := halloc₁.heap_max hlive.heap_le
  refine .bind (P := fun r₂ s₂ ↦ ∃ ref, r₂ = { r₀ with email := email, displayName := ref } ∧
    StringAt memory s₂ ref (upd.displayName.getD c.displayName)) ?_ fun r₂ s₂ ws₂ halloc₂ hr₂ ↦ ?_
  · have hname := (hold r.displayName (List.mem_cons_of_mem _ List.mem_cons_self)).of_allocates halloc₁
      hlive.heap_le
    have hstep := Allocating.replace upd.displayName
      (fun ref ↦ { r₀ with email := email, displayName := ref }) hname (allocString_allocating hf s₁)
    generalize upd.displayName = o at hstep ⊢
    rcases o with _ | name <;> exact hstep
  obtain ⟨name, rfl, hnameAt⟩ := hr₂
  -- all allocations are made; what is left is the flag in the index, the record and the register
  have halloc := halloc₁.trans halloc₂
  have hemailAt := hemailAt.of_allocates halloc₂ hheap₁
  have hkept₂ := halloc.kept hkept
  have hintact := halloc.intact hlive.heap_le
  have hc : contactIn (memory s₂.storage) r = c := hfits.contactIn_eq hintact
  have hfits₂ := hfits.mono halloc.heap_le halloc.keys_le
  set r' := (updatedRecord upd r email name).recomputeCrc with hr'
  have hmagic : r'.magic = contactRecordMagic := beq_iff_eq.mp (Bool.and_eq_true_iff.mp hactive).1
  have hocc₂ : Occupied (memory s₂.storage) slot := (occupied_congr hintact hslot).mpr hocc
  have hgood : GoodSlot r'.asBytes := goodSlot_recomputeCrc fun _ ↦
    (readRecord_ok (readRecord_of_sound hf hlive.sound hslot)) hactive
  have hwritten : contactWritten (memory s₂.storage) r' = some (upd.apply c) := by
    rw [contactWritten, if_pos hmagic, hr', contactIn_updatedRecord hc hemailAt hnameAt]
  refine .indexed (a := updatedRecord upd r email name) (P := IndexOf (memory s₂.storage)) ?_
    fun index hindex ↦ ?_
  · rw [updatedRecord]
    generalize upd.stale = o
    rcases o with _ | stale
    · exact ⟨s₂.index, hkept₂.index, .pure _⟩
    · refine ⟨_, hkept₂.index.updateFlags slot (staleFlags r stale), ?_⟩
      exact .after (.quiet rfl rfl fun _ ↦ rfl) (.pure _)
  · obtain ⟨x, hwrite⟩ := writeRecord_runs hf { s₂ with index := index } slot r'
    have hlive' := hkept₂.live.written slot hgood
      fun _ ↦ fits_updatedRecord hfits₂ hemailAt hnameAt
    obtain ⟨d, s', hupdate, hcommits⟩ := updateIntegrity_commits hf hlive'
      (hkey.congr halloc.masterKey) hwrite.memory_eq (hindex.rewrite hocc₂ hmagic)
    exact ⟨⟨⟩, s', _, hwrite.bind hupdate, c, hheld, r', d, rfl, hcommits, hwritten⟩

end Operations

end ContactStore

end Galdralag.Contacts
