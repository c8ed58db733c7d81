import Galdralag.ContactStore.Regions
import Mathlib.Data.List.Induction

/-!
# The strings of the heap

An allocation writes behind everything that was allocated before, so a string that is in the heap
stays there, whatever is allocated later. What can go wrong is the length: a reference has sixteen
bits for it, and the check before the narrowing compares with the largest 32-bit number. A string of
64 KiB or more that passes is written whole, past the end of the heap if need be, and its reference
tells a shorter length.

So a heap keeps its strings exactly as long as no such string passes.
-/

set_option linter.all false

namespace Galdralag.Contacts

namespace StringHeap

variable {S : Type} {storage : VaultStorage S} {memory : S → Memory}

/-- The heap after some allocations, each of which may have failed. -/
def allocAll (storage : VaultStorage S) (p : StringHeap × S) (strings : List Bytes) :
    StringHeap × S :=
  strings.foldl (fun p bytes ↦ (alloc storage bytes p).2) p

theorem allocAll_append (p : StringHeap × S) (pre : List Bytes) (bytes : Bytes)
    (post : List Bytes) : allocAll storage p (pre ++ bytes :: post)
      = allocAll storage (alloc storage bytes (allocAll storage p pre)).2 post := by
  rw [allocAll, List.foldl_append, List.foldl_cons]
  rfl

/-- What is promised of a sequence of allocations: one that succeeds writes only into the heap, and
then and after any further ones of the sequence its reference reads as the string. -/
structure KeepsStrings (storage : VaultStorage S) (memory : S → Memory) (p : StringHeap × S)
    (strings : List Bytes) : Prop where
  inside : ∀ pre bytes post r p', strings = pre ++ bytes :: post →
    alloc storage bytes (allocAll storage p pre) = (.ok r, p') →
    Memory.AgreeOutside stringHeapOffset keyRegionOffset (memory p'.2)
      (memory (allocAll storage p pre).2)
  reads : ∀ pre bytes mid post r p', strings = pre ++ bytes :: (mid ++ post) →
    alloc storage bytes (allocAll storage p pre) = (.ok r, p') →
    ∀ bufLen, bytes.length ≤ bufLen → read storage (allocAll storage p' mid).2 r bufLen = .ok bytes

/-! ## One allocation -/

/-- The length that a reference tells. -/
theorem toNat_ofNat_length_mod (bytes : Bytes) :
    (UInt16.ofNat bytes.length).toNat = bytes.length % 2 ^ 16 := UInt16.toNat_ofNat'

/-- The checks before the write. -/
structure Passes (p : StringHeap × S) (bytes : Bytes) : Prop where
  length_le : bytes.length ≤ u32Max.toNat
  room : p.1.bump.toNat + bytes.length % 2 ^ 16 ≤ stringHeapBytes

/-- A string whose length does not fit into a reference, but which passes the checks and is taken by
the storage. -/
structure Overlong (storage : VaultStorage S) (p : StringHeap × S) (bytes : Bytes) : Prop where
  passes : Passes p bytes
  length_ge : 2 ^ 16 ≤ bytes.length
  taken : (storage.write (stringHeapOffset + p.1.bump.toNat) bytes p.2).1 = .ok ⟨⟩

theorem alloc_refused {p : StringHeap × S} {bytes : Bytes} (h : ¬ Passes p bytes) :
    ∃ e, alloc storage bytes p = (.error e, p) := by
  rw [alloc]
  by_cases hlen : bytes.length ≤ u32Max.toNat
  swap
  · refine ⟨.stringTooLong, Fallible.bind_of_error ?_⟩
    rw [Fallible.require, if_neg hlen, Fallible.fail_apply]
  have hroom : ¬ p.1.bump.toNat + (UInt16.ofNat bytes.length).toNat ≤ stringHeapBytes := by
    rw [toNat_ofNat_length_mod]
    exact fun hroom ↦ h ⟨hlen, hroom⟩
  rw [Fallible.bind_of_ok (Fallible.require_of hlen _ p), Fallible.gets_bind]
  refine ⟨.heapFull, Fallible.bind_of_error ?_⟩
  rw [Fallible.require, if_neg hroom, Fallible.fail_apply]

/-- What is left of an allocation once its checks have passed. -/
def push (storage : VaultStorage S) (bump : UInt32) (bytes : Bytes) :
    Fallible (StringHeap × S) ContactStoreError StringRef := do
  onStorage (writeAt storage (stringHeapOffset + bump.toNat) bytes)
  .modify fun p ↦ (⟨saturatingAdd p.1.bump (UInt16.ofNat bytes.length).toUInt32⟩, p.2)
  pure ⟨bump, .ofNat bytes.length⟩

/-- An allocation that passes them writes, and then moves the bump pointer on. -/
theorem Passes.alloc_eq {p : StringHeap × S} {bytes : Bytes} (h : Passes p bytes) :
    alloc storage bytes p = push storage p.1.bump bytes p := by
  have hroom : p.1.bump.toNat + (UInt16.ofNat bytes.length).toNat ≤ stringHeapBytes := by
    rw [toNat_ofNat_length_mod]
    exact h.room
  rw [alloc, Fallible.bind_of_ok (Fallible.require_of h.length_le _ p), Fallible.gets_bind,
    Fallible.bind_of_ok (Fallible.require_of hroom _ p)]
  rfl

theorem Passes.alloc_ok {p : StringHeap × S} {bytes : Bytes} (h : Passes p bytes) {x : S}
    (hwrite : storage.write (stringHeapOffset + p.1.bump.toNat) bytes p.2 = (.ok ⟨⟩, x)) :
    alloc storage bytes p = (.ok ⟨p.1.bump, .ofNat bytes.length⟩,
      (⟨saturatingAdd p.1.bump (UInt16.ofNat bytes.length).toUInt32⟩, x)) := by
  have hon : onStorage (writeAt storage (stringHeapOffset + p.1.bump.toNat) bytes) p
      = (.ok ⟨⟩, (p.1, x)) := by
    rw [onStorage, Fallible.zoom_apply, writeAt, Fallible.orElse, hwrite]
  rw [h.alloc_eq, push, Fallible.bind_of_ok hon]
  rfl

theorem Passes.alloc_error {p : StringHeap × S} {bytes : Bytes} (h : Passes p bytes) {e : HalError}
    {x : S} (hwrite : storage.write (stringHeapOffset + p.1.bump.toNat) bytes p.2 = (.error e, x)) :
    alloc storage bytes p = (.error .storageWrite, (p.1, x)) := by
  have hon : onStorage (writeAt storage (stringHeapOffset + p.1.bump.toNat) bytes) p
      = (.error .storageWrite, (p.1, x)) := by
    rw [onStorage, Fallible.zoom_apply, writeAt, Fallible.orElse, hwrite]
  rw [h.alloc_eq, push, Fallible.bind_of_error hon]

/-- The heap has the string in the reference, before its bump pointer. -/
structure Has (memory : S → Memory) (p : StringHeap × S) (r : StringRef) (bytes : Bytes) :
    Prop where
  window : (memory p.2).window (stringHeapOffset + r.offset.toNat) r.len.toNat = bytes
  end_le : r.offset.toNat + r.len.toNat ≤ p.1.bump.toNat
  bump_le : p.1.bump.toNat ≤ stringHeapBytes

section Faithful

variable (hf : storage.Faithful contactStoreEnd memory)
include hf

theorem Has.read {p : StringHeap × S} {r : StringRef} {bytes : Bytes} (h : Has memory p r bytes)
    {bufLen : ℕ} (hlen : bytes.length ≤ bufLen) : read storage p.2 r bufLen = .ok bytes := by
  have hlength := congrArg List.length h.window
  rw [Memory.length_window] at hlength
  rw [read_eq hf p.2 (by omega) (Nat.le_trans h.end_le h.bump_le), h.window]

variable (hrefuses : storage.RefusesWhole memory)
include hrefuses

/-- **What an allocation does**, unless the string is overlong: nothing, or it puts the string at
the bump pointer and moves that on. -/
theorem alloc_of_not_overlong {p : StringHeap × S} {bytes : Bytes}
    (h : ¬ Overlong storage p bytes) :
    (∃ e p', alloc storage bytes p = (.error e, p') ∧ p'.1 = p.1 ∧ memory p'.2 = memory p.2) ∨
      bytes.length < 2 ^ 16 ∧ p.1.bump.toNat + bytes.length ≤ stringHeapBytes ∧
        ∃ p', alloc storage bytes p = (.ok ⟨p.1.bump, .ofNat bytes.length⟩, p') ∧
          p'.1.bump.toNat = p.1.bump.toNat + bytes.length ∧
          memory p'.2 = (memory p.2).patch (stringHeapOffset + p.1.bump.toNat) bytes := by
  by_cases hpasses : Passes p bytes
  swap
  · obtain ⟨e, halloc⟩ : ∃ e, alloc storage bytes p = (.error e, p) := alloc_refused hpasses
    exact .inl ⟨e, p, halloc, rfl, rfl⟩
  rcases hwrite : storage.write (stringHeapOffset + p.1.bump.toNat) bytes p.2 with ⟨e | _, x⟩
  · exact .inl ⟨_, _, hpasses.alloc_error hwrite, rfl, hrefuses _ _ _ _ _ hwrite⟩
  have hlen : bytes.length < 2 ^ 16 := by
    by_contra hge
    exact h ⟨hpasses, Nat.not_lt.mp hge, by rw [hwrite]⟩
  have hroom := hpasses.room
  rw [Nat.mod_eq_of_lt hlen] at hroom
  have hend : stringHeapOffset + p.1.bump.toNat + bytes.length ≤ contactStoreEnd := by
    rw [stringHeapBytes_eq] at hroom
    rw [stringHeapOffset_eq, contactStoreEnd_eq]
    omega
  have hmem := hf.memory_write p.2 (stringHeapOffset + p.1.bump.toNat) bytes hend
  rw [hwrite] at hmem
  refine .inr ⟨hlen, hroom, _, hpasses.alloc_ok hwrite, ?_, hmem⟩
  rw [stringHeapBytes_eq] at hroom
  rw [toNat_saturatingAdd, UInt16.toNat_toUInt32, toNat_ofNat_length hlen]
  omega

/-- A string that is in the heap stays there. -/
theorem Has.alloc {p : StringHeap × S} {r : StringRef} {bytes : Bytes} (h : Has memory p r bytes)
    {next : Bytes} (hnext : ¬ Overlong storage p next) :
    Has memory (alloc storage next p).2 r bytes := by
  rcases alloc_of_not_overlong hf hrefuses hnext with ⟨e, p', halloc, hheap, hmem⟩ |
    ⟨-, hroom, p', halloc, hbump, hmem⟩
  · rw [halloc]
    exact ⟨by rw [hmem, h.window], by rw [hheap]; exact h.end_le, by rw [hheap]; exact h.bump_le⟩
  · have hend := h.end_le
    rw [halloc]
    refine ⟨?_, ?_, ?_⟩
    · rw [hmem, Memory.window_patch_of_disjoint (.inl (by omega)), h.window]
    · rw [hbump]
      omega
    · rw [hbump]
      exact hroom

/-- So it does over further allocations. -/
theorem Has.allocAll {r : StringRef} {bytes : Bytes} (strings : List Bytes) :
    ∀ {p : StringHeap × S}, Has memory p r bytes →
    (∀ pre next post, strings = pre ++ next :: post →
      ¬ Overlong storage (allocAll storage p pre) next) →
    Has memory (StringHeap.allocAll storage p strings) r bytes := by
  induction strings with
  | nil => exact fun h _ ↦ h
  | cons next strings ih =>
    intro p h hshort
    refine ih (h.alloc hf hrefuses (hshort [] next strings rfl)) fun pre bytes post hsplit ↦ ?_
    exact hshort (next :: pre) bytes post (by rw [hsplit, List.cons_append])

omit hrefuses in
/-- An overlong string is not read back. -/
theorem Overlong.not_read {p : StringHeap × S} {bytes : Bytes} (h : Overlong storage p bytes) :
    ∃ r p', alloc storage bytes p = (.ok r, p') ∧ read storage p'.2 r bytes.length ≠ .ok bytes := by
  have hge := h.length_ge
  have hmod : bytes.length % 2 ^ 16 < 2 ^ 16 := Nat.mod_lt _ (by decide)
  have hlen := toNat_ofNat_length_mod bytes
  refine ⟨_, _, h.passes.alloc_ok (Prod.ext h.taken rfl), fun hread ↦ ?_⟩
  rw [read_eq hf _ (by rw [hlen]; omega) (by rw [hlen]; exact h.passes.room),
    Except.ok.injEq] at hread
  have hlength := congrArg List.length hread
  rw [Memory.length_window, hlen] at hlength
  omega

/-- A string that was allocated is in the heap. -/
theorem has_of_alloc {p p' : StringHeap × S} {bytes : Bytes} {r : StringRef}
    (h : ¬ Overlong storage p bytes) (halloc : alloc storage bytes p = (.ok r, p')) :
    Has memory p' r bytes ∧
      Memory.AgreeOutside stringHeapOffset keyRegionOffset (memory p'.2) (memory p.2) := by
  rcases alloc_of_not_overlong hf hrefuses h with ⟨e, q, hrun, -, -⟩ |
    ⟨hlen, hroom, q, hrun, hbump, hmem⟩
  · rw [hrun] at halloc
    cases halloc
  obtain ⟨hr, rfl⟩ := Prod.mk.inj (hrun.symm.trans halloc)
  obtain rfl := Except.ok.inj hr
  refine ⟨⟨?_, ?_, ?_⟩, ?_⟩
  · rw [hmem, toNat_ofNat_length hlen]
    exact Memory.window_patch _ _ _
  · exact Nat.le_of_eq (by rw [hbump, toNat_ofNat_length hlen])
  · rw [hbump]
    exact hroom
  · rw [hmem]
    refine Memory.agreeOutside_patch (Nat.le_add_right _ _) ?_
    rw [stringHeapBytes_eq] at hroom
    rw [stringHeapOffset_eq, keyRegionOffset_eq]
    omega

/-- **The string heap.** Over any sequence of allocations, from any state of the heap, its strings
are kept exactly when none of them is overlong. -/
theorem keepsStrings_iff (p : StringHeap × S) (strings : List Bytes) :
    KeepsStrings storage memory p strings ↔
      ∀ pre bytes post, strings = pre ++ bytes :: post →
        ¬ Overlong storage (allocAll storage p pre) bytes := by
  constructor
  · intro h pre bytes post hstrings hover
    obtain ⟨r, p', halloc, hread⟩ := hover.not_read hf
    exact hread (h.reads pre bytes [] post r p' hstrings halloc _ (Nat.le_refl _))
  intro hshort
  constructor
  · intro pre bytes post r p' hstrings halloc
    exact (has_of_alloc hf hrefuses (hshort pre bytes post hstrings) halloc).2
  · intro pre bytes mid post r p' hstrings halloc bufLen hlen
    have hhas := (has_of_alloc hf hrefuses (hshort pre bytes (mid ++ post) hstrings) halloc).1
    refine (hhas.allocAll hf hrefuses mid fun pre' next post' hmid ↦ ?_).read hf hlen
    have hnext := hshort (pre ++ bytes :: pre') next (post' ++ post) (by
      rw [hstrings, hmid, List.append_assoc, List.append_assoc, List.cons_append, List.cons_append])
    rwa [allocAll_append, halloc] at hnext

end Faithful

/-- Two strings on a memory that was never written. -/
theorem keepsStrings_blank : KeepsStrings (rramVaultStorage 0) (fun rram a ↦ rram (0 + a))
    (new, fun _ ↦ 0) [[1, 2, 3], [4]] := by
  refine (keepsStrings_iff (rramVaultStorage_faithful 0 _) (rramVaultStorage_refusesWhole 0 _)
    _ _).mpr ?_
  intro pre bytes post hstrings hover
  have hmem : bytes ∈ [[1, 2, 3], [4]] := by
    rw [hstrings]
    exact List.mem_append_right _ List.mem_cons_self
  have hlen : bytes.length ≤ 3 := by
    rcases List.mem_cons.mp hmem with rfl | hmem
    · exact Nat.le_refl _
    · rw [List.mem_singleton.mp hmem]
      decide
  have hge := hover.length_ge
  omega

/-- A string of 64 KiB on an empty heap: its reference is that of the empty string. -/
theorem long_string_not_kept : ¬ KeepsStrings (rramVaultStorage 0) (fun rram a ↦ rram (0 + a))
    (new, fun _ ↦ 0) [List.replicate 65536 1] := by
  intro h
  have hover : Overlong (rramVaultStorage 0) (new, fun _ ↦ 0) (List.replicate 65536 1) := by
    refine ⟨⟨?_, ?_⟩, ?_, rfl⟩
    · rw [List.length_replicate]
      decide
    · rw [List.length_replicate]
      decide
    · rw [List.length_replicate]
      decide
  obtain ⟨r, p', halloc, hread⟩ := hover.not_read (rramVaultStorage_faithful 0 _)
  exact hread (h.reads [] _ [] [] r p' rfl halloc _ (Nat.le_refl _))

end StringHeap

end Galdralag.Contacts
