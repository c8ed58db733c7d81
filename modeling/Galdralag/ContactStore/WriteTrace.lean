import Galdralag.ContactStore.Interruption

/-!
# The writes of an operation

What an operation does to the storage is a list of writes. `Runs` says at once how an operation
ends, which writes it makes, and what is left when it is interrupted: over a fuse of `n` it ends in
the same way if it makes no more writes than that, and otherwise fails with the first `n` of them
made.

The rules follow the operations: a step that writes nothing, a single write, and two steps one after
the other. Everything an interruption can leave behind is then a prefix of a list.
-/

set_option linter.all false

namespace Galdralag.Contacts

namespace ContactStore

open Fallible (bind_of_ok bind_of_error require_of)

variable {S C : Type} {hal : StorePlatform S C} {memory : S → Memory}

/-- The store with a fuse in its storage. -/
def fuse (s : ContactStore S C) (n : ℕ) : ContactStore (S × ℕ) C where
  storage := (s.storage, n)
  counter := s.counter
  index := s.index
  integrityGate := s.integrityGate
  integrityRegister := s.integrityRegister
  masterKey := s.masterKey
  stringHeap := s.stringHeap
  keyRegion := s.keyRegion
  timingLog := s.timingLog

/-- **How an operation runs.** From `s` the operation `m` ends in `s'` with outcome `r`, having made
the writes `ws`; and `m'`, the same operation over a fuse, makes the writes that the fuse admits. -/
structure Runs {α : Type} (memory : S → Memory) (m : StoreM S C α) (m' : StoreM (S × ℕ) C α)
    (s : ContactStore S C) (r : Except ContactStoreError α) (s' : ContactStore S C)
    (ws : List (ℕ × Bytes)) : Prop where
  run : m s = (r, s')
  memory_eq : memory s'.storage = (memory s.storage).patchAll ws
  whole : ∀ n, m' (s.fuse (ws.length + n)) = (r, s'.fuse n)
  cut : ∀ n < ws.length, ∃ e t, m' (s.fuse n) = (.error e, t) ∧
    memory t.storage.1 = (memory s.storage).patchAll (ws.take n)

section Rules

variable {α β : Type} {m : StoreM S C α} {m' : StoreM (S × ℕ) C α} {f : α → StoreM S C β}
  {f' : α → StoreM (S × ℕ) C β} {s s₁ s₂ : ContactStore S C} {ws ws₁ ws₂ : List (ℕ × Bytes)}

/-- A step that leaves the storage alone. -/
theorem Runs.quiet {r : Except ContactStoreError α} (hrun : m s = (r, s₁))
    (hstorage : s₁.storage = s.storage) (hfused : ∀ n, m' (s.fuse n) = (r, s₁.fuse n)) :
    Runs memory m m' s r s₁ [] where
  run := hrun
  memory_eq := congrArg memory hstorage
  whole n := by
    rw [List.length_nil, Nat.zero_add]
    exact hfused n
  cut n h := absurd h (Nat.not_lt_zero n)

/-- A step that reads. -/
theorem Runs.reading {g : ContactStore S C → Except ContactStoreError α}
    {g' : ContactStore (S × ℕ) C → Except ContactStoreError α} (h : ∀ n, g' (s.fuse n) = g s) :
    Runs memory (.reading g) (.reading g') s (g s) s [] :=
  .quiet rfl rfl fun n ↦ Prod.ext (h n) rfl

theorem Runs.pure (a : α) : Runs memory (pure a) (pure a) s (.ok a) s [] :=
  .quiet rfl rfl fun _ ↦ rfl

/-- Two steps of which the first ends well. -/
theorem Runs.bind {a : α} {r : Except ContactStoreError β} (h₁ : Runs memory m m' s (.ok a) s₁ ws₁)
    (h₂ : Runs memory (f a) (f' a) s₁ r s₂ ws₂) :
    Runs memory (m >>= f) (m' >>= f') s r s₂ (ws₁ ++ ws₂) where
  run := by rw [bind_of_ok h₁.run, h₂.run]
  memory_eq := by rw [Memory.patchAll_append, ← h₁.memory_eq, h₂.memory_eq]
  whole n := by
    rw [List.length_append, Nat.add_assoc, bind_of_ok (h₁.whole _), h₂.whole]
  cut n hn := by
    rcases Nat.lt_or_ge n ws₁.length with hlt | hge
    · -- the fuse blows in the first step
      obtain ⟨e, t, hcut, hmem⟩ := h₁.cut n hlt
      refine ⟨e, t, by rw [bind_of_error hcut], ?_⟩
      rw [hmem, List.take_append_of_le_length (Nat.le_of_lt hlt)]
    · obtain ⟨k, rfl⟩ := Nat.exists_eq_add_of_le hge
      rw [List.length_append] at hn
      obtain ⟨e, t, hcut, hmem⟩ := h₂.cut k (by omega)
      refine ⟨e, t, by rw [bind_of_ok (h₁.whole k), hcut], ?_⟩
      rw [hmem, h₁.memory_eq, List.take_length_add_append, Memory.patchAll_append]

/-- Two steps of which the first fails. -/
theorem Runs.bind_error {e : ContactStoreError} (h : Runs memory m m' s (.error e) s₁ ws) :
    Runs memory (m >>= f) (m' >>= f') s (.error e) s₁ ws where
  run := by rw [bind_of_error h.run]
  memory_eq := h.memory_eq
  whole n := by rw [bind_of_error (h.whole n)]
  cut n hn := by
    obtain ⟨e', t, hcut, hmem⟩ := h.cut n hn
    exact ⟨e', t, by rw [bind_of_error hcut], hmem⟩

/-- A step that writes nothing, followed by another one. -/
theorem Runs.after {a : α} {r : Except ContactStoreError β} (h₁ : Runs memory m m' s (.ok a) s₁ [])
    (h₂ : Runs memory (f a) (f' a) s₁ r s₂ ws) : Runs memory (m >>= f) (m' >>= f') s r s₂ ws :=
  h₁.bind h₂

/-- Operations that do the same from `s`. -/
theorem Runs.congr {n : StoreM S C α} {n' : StoreM (S × ℕ) C α} {r : Except ContactStoreError α}
    (h : Runs memory n n' s r s₁ ws) (hrun : m s = n s) (hfused : ∀ k, m' (s.fuse k) = n' (s.fuse k)) :
    Runs memory m m' s r s₁ ws where
  run := hrun.trans h.run
  memory_eq := h.memory_eq
  whole k := (hfused _).trans (h.whole k)
  cut k hk := by
    rw [hfused]
    exact h.cut k hk

/-- A single write within the band. -/
theorem Runs.write (hf : hal.storage.Faithful contactStoreEnd memory) (s : ContactStore S C) {off : ℕ}
    {bs : Bytes} (hend : off + bs.length ≤ contactStoreEnd) : ∃ x,
    Runs memory (storing (writeAt hal.storage off bs)) (storing (writeAt hal.fused.storage off bs)) s
      (.ok ⟨⟩) { s with storage := x } [(off, bs)] := by
  have hwrite := hf.write_eq s.storage hend
  refine ⟨(hal.storage.write off bs s.storage).2, ?_, hf.memory_write s.storage off bs hend, ?_, ?_⟩
  · rw [storing, Fallible.zoom_apply, writeAt, Fallible.orElse, hwrite]
  · intro n
    have hfused : hal.fused.storage.write off bs (s.storage, 1 + n)
        = (.ok ⟨⟩, ((hal.storage.write off bs s.storage).2, n)) := by
      refine (if_neg (by omega)).trans ?_
      rw [hwrite, Nat.add_sub_cancel_left]
    have hstorage : (s.fuse (1 + n)).storage = (s.storage, 1 + n) := rfl
    rw [List.length_singleton, storing, Fallible.zoom_apply, writeAt, Fallible.orElse, hstorage, hfused]
    rfl
  · intro n hn
    obtain rfl : n = 0 := by
      rw [List.length_singleton] at hn
      omega
    have hblown : (s.fuse 0).storage.2 = 0 := rfl
    exact ⟨_, _, storing_blown hblown off bs, rfl⟩

end Rules

/-! ## The steps of the operations -/

/-- What is left of an allocation of key bytes once its checks have passed. -/
def pushKey (hal : StorePlatform S C) (bump : UInt32) (keyBytes : Bytes) :
    StoreM S C (UInt32 × UInt16) := do
  storing (writeAt hal.storage (keyRegionOffset + bump.toNat) keyBytes)
  .modify fun s ↦ { s with
    keyRegion := ⟨saturatingAdd s.keyRegion.bump (UInt16.ofNat keyBytes.length).toUInt32⟩ }
  pure (bump, .ofNat keyBytes.length)

/-- What is left of an allocation of a string once its checks have passed. -/
def pushString (hal : StorePlatform S C) (bump : UInt32) (bytes : Bytes) : StoreM S C StringRef := do
  storing (writeAt hal.storage (stringHeapOffset + bump.toNat) bytes)
  .modify fun s ↦ { s with
    stringHeap := ⟨saturatingAdd s.stringHeap.bump (UInt16.ofNat bytes.length).toUInt32⟩ }
  pure ⟨bump, .ofNat bytes.length⟩

/-- An allocation of key bytes where there is room. -/
theorem allocKey_of_room {s : ContactStore S C} {keyBytes : Bytes}
    (hlen : keyBytes.length ≤ maxPublicKeyBytes)
    (hroom : s.keyRegion.bump.toNat + (UInt16.ofNat keyBytes.length).toNat ≤ keyRegionBytes) :
    allocKey hal keyBytes s = pushKey hal s.keyRegion.bump keyBytes s := by
  rw [allocKey, pushKey, Fallible.zoom_apply, KeyMaterialRegion.alloc, bind_of_ok (require_of hlen _ _),
    Fallible.gets_bind, bind_of_ok (require_of hroom _ _), Fallible.bind_apply, Fallible.bind_apply,
    onStorage, storing, Fallible.zoom_apply, Fallible.zoom_apply]
  rcases writeAt hal.storage (keyRegionOffset + s.keyRegion.bump.toNat) keyBytes s.storage
    with ⟨_ | _, x⟩ <;> rfl

/-- An allocation of key bytes that do not fit. -/
theorem allocKey_of_full {s : ContactStore S C} {keyBytes : Bytes}
    (h : ¬ (keyBytes.length ≤ maxPublicKeyBytes ∧
      s.keyRegion.bump.toNat + (UInt16.ofNat keyBytes.length).toNat ≤ keyRegionBytes)) :
    allocKey hal keyBytes s
      = (.error (if keyBytes.length ≤ maxPublicKeyBytes then .heapFull else .keyTooLarge), s) := by
  rw [allocKey, Fallible.zoom_apply, KeyMaterialRegion.alloc]
  split_ifs with hlen
  · have hroom := fun hroom ↦ h ⟨hlen, hroom⟩
    rw [bind_of_ok (require_of hlen _ _), Fallible.gets_bind, Fallible.require, if_neg hroom]
    rfl
  · rw [Fallible.require, if_neg hlen]
    rfl

/-- An allocation of a string where there is room. -/
theorem allocString_of_room {s : ContactStore S C} {bytes : Bytes}
    (hlen : bytes.length ≤ maxStringFieldBytes)
    (hroom : s.stringHeap.bump.toNat + (UInt16.ofNat bytes.length).toNat ≤ stringHeapBytes) :
    allocString hal bytes s = pushString hal s.stringHeap.bump bytes s := by
  have hmax : bytes.length ≤ u32Max.toNat := Nat.le_trans hlen (by decide)
  rw [allocString, pushString, bind_of_ok (require_of hlen _ _), Fallible.zoom_apply,
    StringHeap.alloc, bind_of_ok (require_of hmax _ _), Fallible.gets_bind,
    bind_of_ok (require_of hroom _ _), Fallible.bind_apply, Fallible.bind_apply, onStorage, storing,
    Fallible.zoom_apply,
    Fallible.zoom_apply]
  rcases writeAt hal.storage (stringHeapOffset + s.stringHeap.bump.toNat) bytes s.storage
    with ⟨_ | _, x⟩ <;> rfl

/-- An allocation of a string that does not fit. -/
theorem allocString_of_full {s : ContactStore S C} {bytes : Bytes}
    (h : ¬ (bytes.length ≤ maxStringFieldBytes ∧
      s.stringHeap.bump.toNat + (UInt16.ofNat bytes.length).toNat ≤ stringHeapBytes)) :
    allocString hal bytes s
      = (.error (if bytes.length ≤ maxStringFieldBytes then .heapFull else .stringTooLong), s) := by
  rw [allocString]
  split_ifs with hlen
  · have hmax : bytes.length ≤ u32Max.toNat := Nat.le_trans hlen (by decide)
    have hroom := fun hroom ↦ h ⟨hlen, hroom⟩
    rw [bind_of_ok (require_of hlen _ _), Fallible.zoom_apply, StringHeap.alloc,
      bind_of_ok (require_of hmax _ _), Fallible.gets_bind, Fallible.require, if_neg hroom]
    rfl
  · rw [Fallible.require, if_neg hlen]
    rfl

section Steps

variable (hf : hal.storage.Faithful contactStoreEnd memory) (s : ContactStore S C)
include hf

/-- A record is written to a slot. -/
theorem writeRecord_runs (slot : UInt8) (r : ContactRecord) : ∃ x,
    Runs memory (writeRecord hal slot r) (writeRecord hal.fused slot r) s (.ok ⟨⟩)
      { s with storage := x } [(recordOffset slot, r.asBytes)] :=
  Runs.write hf s (recordOffset_write_le slot r)

/-- The register is written. -/
theorem updateIntegrity_runs {d : Block 32} (hd : computeIntegrityDigest hal s = .ok d) : ∃ x,
    Runs memory (updateIntegrity hal) (updateIntegrity hal.fused) s (.ok ⟨⟩)
      { s with storage := x, integrityRegister := d } [(contactStoreIntegrityOffset, d.toBytes)] := by
  have hend : contactStoreIntegrityOffset + d.toBytes.length ≤ contactStoreEnd := by
    rw [d.length_toBytes]
    exact Nat.le_refl _
  obtain ⟨x, hwrite⟩ := Runs.write hf { s with integrityRegister := d } hend
  have hdigest : Runs memory (.reading (computeIntegrityDigest hal))
      (.reading (computeIntegrityDigest hal.fused)) s (computeIntegrityDigest hal s) s [] :=
    .reading fun n ↦ computeIntegrityDigest_fused (s.fuse n)
  rw [hd] at hdigest
  refine ⟨x, hdigest.after (.after (.quiet rfl rfl fun _ ↦ rfl) (.after ?_ hwrite))⟩
  exact .quiet rfl rfl fun _ ↦ rfl

/-- A key is stored behind the others, or there is no room for it. -/
theorem allocKey_runs (keyBytes : Bytes) :
    (∃ e, Runs memory (allocKey hal keyBytes) (allocKey hal.fused keyBytes) s (.error e) s []) ∨
      keyBytes.length ≤ maxPublicKeyBytes ∧
        s.keyRegion.bump.toNat + keyBytes.length ≤ keyRegionBytes ∧
        ∃ x, Runs memory (allocKey hal keyBytes) (allocKey hal.fused keyBytes) s
          (.ok (s.keyRegion.bump, .ofNat keyBytes.length))
          { s with
            storage := x
            keyRegion := ⟨saturatingAdd s.keyRegion.bump (UInt16.ofNat keyBytes.length).toUInt32⟩ }
          [(keyRegionOffset + s.keyRegion.bump.toNat, keyBytes)] := by
  by_cases h : keyBytes.length ≤ maxPublicKeyBytes ∧
      s.keyRegion.bump.toNat + (UInt16.ofNat keyBytes.length).toNat ≤ keyRegionBytes
  swap
  · exact .inl ⟨_, .quiet (allocKey_of_full h) rfl fun n ↦ allocKey_of_full (s := s.fuse n) h⟩
  obtain ⟨hlen, hroom⟩ := h
  have hend : keyRegionOffset + s.keyRegion.bump.toNat + keyBytes.length ≤ contactStoreEnd := by
    rw [toNat_ofNat_length (Nat.lt_of_le_of_lt hlen (by decide)), keyRegionBytes_eq] at hroom
    rw [keyRegionOffset_eq, contactStoreEnd_eq]
    omega
  obtain ⟨x, hwrite⟩ := Runs.write hf s hend
  have hpush : Runs memory (pushKey hal s.keyRegion.bump keyBytes)
      (pushKey hal.fused s.keyRegion.bump keyBytes) s _ _ _ :=
    hwrite.bind (.after (.quiet rfl rfl fun _ ↦ rfl) (.pure _))
  refine .inr ⟨hlen, ?_, x, hpush.congr (allocKey_of_room hlen hroom) fun n ↦
    allocKey_of_room (s := s.fuse n) hlen hroom⟩
  rwa [toNat_ofNat_length (Nat.lt_of_le_of_lt hlen (by decide))] at hroom

/-- A string is stored behind the others, or there is no room for it. -/
theorem allocString_runs (bytes : Bytes) :
    (∃ e, Runs memory (allocString hal bytes) (allocString hal.fused bytes) s (.error e) s []) ∨
      bytes.length ≤ maxStringFieldBytes ∧
        s.stringHeap.bump.toNat + bytes.length ≤ stringHeapBytes ∧
        ∃ x, Runs memory (allocString hal bytes) (allocString hal.fused bytes) s
          (.ok ⟨s.stringHeap.bump, .ofNat bytes.length⟩)
          { s with
            storage := x
            stringHeap := ⟨saturatingAdd s.stringHeap.bump (UInt16.ofNat bytes.length).toUInt32⟩ }
          [(stringHeapOffset + s.stringHeap.bump.toNat, bytes)] := by
  by_cases h : bytes.length ≤ maxStringFieldBytes ∧
      s.stringHeap.bump.toNat + (UInt16.ofNat bytes.length).toNat ≤ stringHeapBytes
  swap
  · exact .inl ⟨_, .quiet (allocString_of_full h) rfl fun n ↦ allocString_of_full (s := s.fuse n) h⟩
  obtain ⟨hlen, hroom⟩ := h
  have hend : stringHeapOffset + s.stringHeap.bump.toNat + bytes.length ≤ contactStoreEnd := by
    rw [toNat_ofNat_length (Nat.lt_of_le_of_lt hlen (by decide)), stringHeapBytes_eq] at hroom
    rw [stringHeapOffset_eq, contactStoreEnd_eq]
    omega
  obtain ⟨x, hwrite⟩ := Runs.write hf s hend
  have hpush : Runs memory (pushString hal s.stringHeap.bump bytes)
      (pushString hal.fused s.stringHeap.bump bytes) s _ _ _ :=
    hwrite.bind (.after (.quiet rfl rfl fun _ ↦ rfl) (.pure _))
  refine .inr ⟨hlen, ?_, x, hpush.congr (allocString_of_room hlen hroom) fun n ↦
    allocString_of_room (s := s.fuse n) hlen hroom⟩
  rwa [toNat_ofNat_length (Nat.lt_of_le_of_lt hlen (by decide))] at hroom

end Steps

end ContactStore

end Galdralag.Contacts
