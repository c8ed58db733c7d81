import Galdralag.OpenPgp.DoStore

/-!
# The object store as a map

Writes, deletions and reads of the object store, in any order, are those of a map from tags to
values: a read returns what was last written to its tag. The mark of a free slot is itself a tag,
and nothing refuses it. An object with tag 0 lies in a slot that still counts as free; the next new
object takes its place, and a read of tag 0 finds whatever free slot comes first.
-/

set_option linter.all false

namespace Galdralag.OpenPgp

namespace DoStore

variable {W : Type}

/-! ## Deleting -/

section Delete

variable (d : DoStore W)

/-- Fill the first of the given slots that has the tag with zeros. -/
def deleteFrom (tag : UInt16) : List ℕ → Fallible W DoStoreError PUnit
  | [] => pure ⟨⟩
  | i :: rest => do
    let slot ← .reading (d.readSlot i)
    if slotTag slot = tag then d.writeSlot i (List.replicate slotBytes 0) else deleteFrom tag rest

/-- Remove an object if it is there; nothing is done when the header cannot be read or is missing.
-/
def delete (tag : UInt16) : Fallible W DoStoreError PUnit := fun w ↦
  match d.probe w with
  | .ok true => d.deleteFrom tag (List.range slotCount) w
  | _ => (.ok ⟨⟩, w)

/-- The slots of a memory; a store without a header is as good as a formatted one. -/
def slots (mem : Memory) : List (UInt16 × Option (Vec 254)) :=
  if d.Valid mem then d.table mem else List.replicate slotCount (0, some .empty)

/-- No tag but 0 stands in two slots. -/
def Sound (mem : Memory) : Prop := SlotTable.Distinct 0 (d.slots mem)

end Delete

variable {d : DoStore W} {limit : ℕ} {memory : W → Memory} {tag : UInt16} {value : Bytes} {w : W}

theorem slots_of_valid {mem : Memory} (hv : d.Valid mem) : d.slots mem = d.table mem := if_pos hv

/-- What the table of a formatted store does not have is missing. -/
theorem lookup_slots_eq_none {mem : Memory} (htag : tag ≠ 0)
    (h : d.Valid mem → SlotTable.lookup tag (d.table mem) = none) :
    SlotTable.lookup tag (d.slots mem) = none := by
  rw [slots]
  split_ifs with hv
  · exact h hv
  · refine SlotTable.lookup_eq_none_iff.mpr fun x hx ↦ ?_
    rw [List.eq_of_mem_replicate hx]
    exact htag.symm

theorem object_eq {mem : Memory} (htag : tag ≠ 0) :
    d.object mem tag = (SlotTable.lookup tag (d.slots mem)).join := by
  rw [object]
  split_ifs with hv
  · rw [slots_of_valid hv]
  · rw [lookup_slots_eq_none htag fun h ↦ absurd h hv]
    rfl

theorem sound_of_not_valid {mem : Memory} (hv : ¬ d.Valid mem) : d.Sound mem := by
  rw [Sound, slots, if_neg hv]
  exact SlotTable.distinct_replicate _ _

section Faithful

variable (hf : d.storage.Faithful limit memory) (hfits : d.base + regionBytes ≤ limit)
include hf hfits

/-! ## Operations on the table -/

/-- Before a write the store is formatted, unless it is already. -/
theorem initIfNeeded_table (w : W) : ∃ w₁, d.initIfNeeded w = (.ok ⟨⟩, w₁) ∧ d.Valid (memory w₁) ∧
    d.table (memory w₁) = d.slots (memory w) ∧ (d.Valid (memory w) → w₁ = w) := by
  have hprobe : Fallible.reading d.probe w = (.ok (decide (d.Valid (memory w))), w) := by
    rw [Fallible.reading_apply, probe_eq hf hfits]
  rw [initIfNeeded, Fallible.bind_of_ok hprobe, slots]
  by_cases hv : d.Valid (memory w)
  · rw [decide_eq_true hv, if_pos hv]
    exact ⟨w, rfl, hv, rfl, fun _ ↦ rfl⟩
  · have hin : d.base + emptyRegion.length ≤ limit := by rwa [length_emptyRegion]
    rw [decide_eq_false hv, if_neg hv]
    refine ⟨(d.storage.write d.base emptyRegion w).2, ?_, ?_, ?_, fun h ↦ absurd h hv⟩
    · change Fallible.mapError _ _ w = _
      rw [Fallible.mapError, hf.write_ok w d.base emptyRegion hin]
      rfl
    · rw [hf.memory_write w d.base emptyRegion hin]
      exact valid_format _
    · rw [hf.memory_write w d.base emptyRegion hin, table_format]

/-- A slot is set. -/
theorem writeSlot_table {i : ℕ} {slot : Bytes} (hi : i < slotCount) (hslot : slot.length = slotBytes)
    (hv : d.Valid (memory w)) : ∃ w', d.writeSlot i slot w = (.ok ⟨⟩, w') ∧ d.Valid (memory w') ∧
      d.table (memory w') = (d.table (memory w)).set i (entry slot) := by
  have hin : d.slotOffset i + slot.length ≤ limit := by
    rw [hslot]
    exact Nat.le_trans (slotOffset_le hi) hfits
  refine ⟨(d.storage.write (d.slotOffset i) slot w).2, ?_, ?_, ?_⟩
  · rw [writeSlot, Fallible.require, if_pos hi, Fallible.bind_of_ok (Fallible.pure_apply _ _),
      Fallible.mapError, hf.write_ok w _ _ hin]
    rfl
  · rw [hf.memory_write w _ _ hin]
    exact valid_patch.mpr hv
  · rw [hf.memory_write w _ _ hin, table_patch hslot]

omit hf hfits in
theorem lt_slotCount {mem : Memory} {i : ℕ} (h : i < (d.table mem).length) : i < slotCount := by
  rwa [table, List.length_map, List.length_range] at h

omit hf hfits in
theorem write_tooLong (hlen : ¬ value.length ≤ 254) (w : W) :
    d.write tag value w = (.error .valueTooLong, w) := by
  rw [write, Fallible.require, if_neg hlen]
  rfl

/-- **Writing**: the object goes to the place of its tag, or there is none and nothing changes. -/
theorem write_table (tag : UInt16) (hlen : value.length ≤ 254) (w : W) :
    (∃ i w', SlotTable.place 0 tag (d.slots (memory w)) = some i ∧ d.write tag value w = (.ok ⟨⟩, w') ∧
      d.Valid (memory w') ∧
      d.table (memory w') = (d.slots (memory w)).set i (tag, Vec.ofBytes? value)) ∨
    (SlotTable.place 0 tag (d.slots (memory w)) = none ∧ d.write tag value w = (.error .full, w)) := by
  obtain ⟨w₁, hinit, hv, htable, hsame⟩ := initIfNeeded_table hf hfits w
  have hfind : Fallible.reading (fun w ↦ d.findFrom tag w none (List.range slotCount)) w₁
      = (.ok (SlotTable.place 0 tag (d.slots (memory w))), w₁) := by
    rw [Fallible.reading_apply, find_eq hf hfits, htable]
  rw [write, Fallible.require, if_pos hlen, Fallible.bind_of_ok (Fallible.pure_apply _ _),
    Fallible.bind_of_ok hinit, Fallible.bind_of_ok hfind]
  cases hplace : SlotTable.place 0 tag (d.slots (memory w)) with
  | some i =>
    obtain ⟨x, hx, -⟩ := SlotTable.place_spec hplace
    rw [← htable] at hx
    have hi := lt_slotCount (List.getElem?_eq_some_iff.mp hx).1
    obtain ⟨w', hrun, hv', htable'⟩ := writeSlot_table hf hfits hi (length_encodeSlot hlen) hv
    rw [htable, entry_encodeSlot hlen] at htable'
    exact .inl ⟨i, w', rfl, hrun, hv', htable'⟩
  | none =>
    have hvalid : d.Valid (memory w) := by
      by_contra hnot
      have hsome : (SlotTable.place 0 tag (d.slots (memory w))).isSome = true := by
        rw [slots, if_neg hnot]
        exact SlotTable.place_isSome ⟨_, List.mem_replicate.mpr ⟨by decide, rfl⟩, rfl⟩
      rw [hplace] at hsome
      cases hsome
    rw [hsame hvalid]
    exact .inr ⟨rfl, rfl⟩

theorem deleteFrom_eq {l : List ℕ} (h : ∀ i ∈ l, i < slotCount) : d.deleteFrom tag l w
    = match l.find? fun i ↦ slotTag (d.slotAt (memory w) i) = tag with
      | some i => d.writeSlot i (List.replicate slotBytes 0) w
      | none => (.ok ⟨⟩, w) := by
  induction l with
  | nil => rfl
  | cons i l ih =>
    rw [List.forall_mem_cons] at h
    have hread : Fallible.reading (d.readSlot i) w = (.ok (d.slotAt (memory w) i), w) := by
      rw [Fallible.reading_apply, readSlot_eq hf hfits h.1]
    rw [deleteFrom, Fallible.bind_of_ok hread, List.find?_cons]
    by_cases htag : slotTag (d.slotAt (memory w) i) = tag
    · rw [if_pos htag, decide_eq_true htag]
    · rw [if_neg htag, decide_eq_false htag]
      exact ih h.2

/-- **Deleting**: the slot with the tag is freed, or there is none and nothing changes. It never
fails. -/
theorem delete_table (tag : UInt16) (w : W) :
    (∃ i w', d.Valid (memory w) ∧ ((d.table (memory w)).findIdx? fun x ↦ x.1 = tag) = some i ∧
      d.delete tag w = (.ok ⟨⟩, w') ∧ d.Valid (memory w') ∧
      d.table (memory w') = (d.table (memory w)).set i (0, some .empty)) ∨
    ((d.Valid (memory w) → SlotTable.lookup tag (d.table (memory w)) = none) ∧
      d.delete tag w = (.ok ⟨⟩, w)) := by
  rw [delete, probe_eq hf hfits]
  by_cases hv : d.Valid (memory w)
  swap
  · rw [decide_eq_false hv]
    exact .inr ⟨fun h ↦ absurd h hv, rfl⟩
  rw [decide_eq_true hv]
  dsimp only
  rw [deleteFrom_eq hf hfits fun i ↦ List.mem_range.mp]
  have hfind : ((List.range slotCount).find? fun i ↦ slotTag (d.slotAt (memory w) i) = tag)
      = (d.table (memory w)).findIdx? fun x ↦ x.1 = tag := by
    rw [table, ← SlotTable.find?_range]
    rfl
  rw [hfind]
  cases hidx : (d.table (memory w)).findIdx? fun x ↦ x.1 = tag with
  | some i =>
    have hi := lt_slotCount (List.findIdx?_eq_some_iff_getElem.mp hidx).1
    obtain ⟨w', hrun, hv', htable⟩ :=
      writeSlot_table hf hfits hi List.length_replicate hv
    exact .inl ⟨i, w', hv, rfl, hrun, hv', htable⟩
  | none =>
    refine .inr ⟨fun _ ↦ SlotTable.lookup_eq_none_iff.mpr fun x hx ↦ ?_, rfl⟩
    exact of_decide_eq_false (List.findIdx?_eq_none_iff.mp hidx x hx)

end Faithful

end DoStore

/-! ## Operations and their map -/

/-- An operation of the object store. -/
inductive StoreOp where
  | write (tag : UInt16) (value : Bytes)
  | delete (tag : UInt16)
  | read (tag : UInt16)
  deriving DecidableEq

/-- Which object there is for each tag. -/
abbrev ObjectMap := UInt16 → Option (Vec 254)

namespace StoreOp

def tag : StoreOp → UInt16
  | .write tag _ => tag
  | .delete tag => tag
  | .read tag => tag

/-- Perform an operation; the result is what a read returns. -/
def perform {W : Type} (d : DoStore W) : StoreOp → Fallible W DoStoreError (Option (Vec 254))
  | .write tag value => do
    d.write tag value
    pure none
  | .delete tag => do
    d.delete tag
    pure none
  | .read tag => .gets (d.read tag)

/-- The operation on maps. -/
def onMap (m : ObjectMap) : StoreOp → ObjectMap
  | .write tag value => fun t ↦ if t = tag then Vec.ofBytes? value else m t
  | .delete tag => fun t ↦ if t = tag then none else m t
  | .read _ => m

theorem onMap_write (m : ObjectMap) (tag : UInt16) (value : Bytes) (t : UInt16) :
    (write tag value).onMap m t = if t = tag then Vec.ofBytes? value else m t := rfl

theorem onMap_delete (m : ObjectMap) (tag t : UInt16) :
    (delete tag).onMap m t = if t = tag then none else m t := rfl

end StoreOp

/-- A store, and the map that it should be. -/
structure MappedStore (W : Type) where
  world : W
  map : ObjectMap

namespace MappedStore

variable {W : Type} (d : DoStore W)

/-- A store as it is found, with the map of what it holds. -/
def found (w : W) : MappedStore W := ⟨w, fun tag ↦ d.read tag w⟩

/-- One operation; the map is changed if it succeeds. -/
def step (s : MappedStore W) (op : StoreOp) : MappedStore W where
  world := (op.perform d s.world).2
  map := if (op.perform d s.world).1.isOk then op.onMap s.map else s.map

def run (s : MappedStore W) (ops : List StoreOp) : MappedStore W := ops.foldl (step d) s

theorem run_concat (s : MappedStore W) (ops : List StoreOp) (op : StoreOp) :
    s.run d (ops ++ [op]) = (s.run d ops).step d op := List.foldl_concat _ _ _ _

variable {d} {s : MappedStore W} {op : StoreOp}

theorem step_of_ok {r : Option (Vec 254)} {w' : W} (h : op.perform d s.world = (.ok r, w')) :
    s.step d op = ⟨w', op.onMap s.map⟩ := by
  rw [step, h]
  rfl

theorem step_of_error {e : DoStoreError} {w' : W} (h : op.perform d s.world = (.error e, w')) :
    s.step d op = ⟨w', s.map⟩ := by
  rw [step, h]
  rfl

end MappedStore

/-- **The store is a map at a tag.** After any operations on any tags, a read returns what was last
written to the tag and not deleted since, an operation on another tag does not change what a read
returns, one that fails changes nothing at all, and neither does opening the store again over the
same storage. -/
structure DoStore.IsMap {W : Type} (d : DoStore W) (w₀ : W) (tag : UInt16) : Prop where
  reads : ∀ ops, d.read tag ((MappedStore.found d w₀).run d ops).world
    = ((MappedStore.found d w₀).run d ops).map tag
  others : ∀ ops (op : StoreOp), op.tag ≠ tag →
    d.read tag ((MappedStore.found d w₀).run d (ops ++ [op])).world
      = d.read tag ((MappedStore.found d w₀).run d ops).world
  errors : ∀ ops (op : StoreOp) e,
    (op.perform d ((MappedStore.found d w₀).run d ops).world).1 = .error e →
    ((MappedStore.found d w₀).run d (ops ++ [op])).world = ((MappedStore.found d w₀).run d ops).world
  reopened : ∀ ops, (⟨d.storage, d.base⟩ : DoStore W).read tag ((MappedStore.found d w₀).run d ops).world
    = d.read tag ((MappedStore.found d w₀).run d ops).world

section Runs

variable {W : Type} {d : DoStore W} {limit : ℕ} {memory : W → Memory} {tag : UInt16}

/-- The invariant: tags are distinct, and the map has the objects of all tags but 0. -/
structure MappedStore.Agrees (d : DoStore W) (memory : W → Memory) (s : MappedStore W) : Prop where
  sound : d.Sound (memory s.world)
  object : ∀ tag ≠ 0, (SlotTable.lookup tag (d.slots (memory s.world))).join = s.map tag

/-- After a change of the table. -/
theorem MappedStore.agrees_of_table {w' : W} {m : ObjectMap} {t : List (UInt16 × Option (Vec 254))}
    (hv : d.Valid (memory w')) (htable : d.table (memory w') = t) (hsound : SlotTable.Distinct 0 t)
    (hobject : ∀ tag ≠ 0, (SlotTable.lookup tag t).join = m tag) :
    MappedStore.Agrees d memory ⟨w', m⟩ := by
  have hslots : d.slots (memory w') = t := (DoStore.slots_of_valid hv).trans htable
  refine ⟨?_, fun tag htag ↦ ?_⟩
  · rw [DoStore.Sound, hslots]
    exact hsound
  · rw [hslots]
    exact hobject tag htag

variable (hf : d.storage.Faithful limit memory) (hfits : d.base + DoStore.regionBytes ≤ limit)
include hf hfits

theorem agrees_found {w₀ : W} (hsound : d.Sound (memory w₀)) :
    (MappedStore.found d w₀).Agrees d memory := by
  refine ⟨hsound, fun tag htag ↦ ?_⟩
  rw [← DoStore.object_eq htag, ← DoStore.read_eq hf hfits]
  rfl

/-- An operation that fails changes nothing. -/
theorem perform_error {op : StoreOp} {w w' : W} {e : DoStoreError}
    (h : op.perform d w = (.error e, w')) : w' = w := by
  cases op with
  | read tag => cases h
  | write tag value =>
    by_cases hlen : value.length ≤ 254
    · rcases DoStore.write_table hf hfits tag hlen w with ⟨i, w₁, -, hrun, -⟩ | ⟨-, hrun⟩
      · rw [StoreOp.perform, Fallible.bind_of_ok hrun] at h
        cases h
      · rw [StoreOp.perform, Fallible.bind_of_error hrun] at h
        exact (Prod.mk.inj h).2.symm
    · rw [StoreOp.perform, Fallible.bind_of_error (DoStore.write_tooLong hlen w)] at h
      exact (Prod.mk.inj h).2.symm
  | delete tag =>
    obtain ⟨w₁, hrun⟩ : ∃ w₁, d.delete tag w = (.ok ⟨⟩, w₁) := by
      rcases DoStore.delete_table hf hfits tag w with ⟨i, w₁, -, -, hrun, -⟩ | ⟨-, hrun⟩
      · exact ⟨w₁, hrun⟩
      · exact ⟨w, hrun⟩
    rw [StoreOp.perform, Fallible.bind_of_ok hrun] at h
    cases h

theorem agrees_write {s : MappedStore W} (h : s.Agrees d memory) (tag : UInt16) (value : Bytes) :
    (s.step d (.write tag value)).Agrees d memory := by
  by_cases hlen : value.length ≤ 254
  swap
  · rw [MappedStore.step_of_error (Fallible.bind_of_error (DoStore.write_tooLong hlen s.world))]
    exact h
  rcases DoStore.write_table hf hfits tag hlen s.world with ⟨i, w', hplace, hrun, hv, htable⟩ | ⟨-, hrun⟩
  · rw [MappedStore.step_of_ok (Fallible.bind_of_ok hrun)]
    refine MappedStore.agrees_of_table hv htable (h.sound.set_place hplace) fun tag' htag' ↦ ?_
    rw [SlotTable.lookup_place hplace htag', StoreOp.onMap_write, ← h.object tag' htag']
    split_ifs <;> rfl
  · rw [MappedStore.step_of_error (Fallible.bind_of_error hrun)]
    exact h

theorem agrees_delete {s : MappedStore W} (h : s.Agrees d memory) (tag : UInt16) :
    (s.step d (.delete tag)).Agrees d memory := by
  have hobject := h.object
  rcases DoStore.delete_table hf hfits tag s.world with
    ⟨i, w', hv, hidx, hrun, hv', htable⟩ | ⟨hnone, hrun⟩ <;>
    rw [MappedStore.step_of_ok (Fallible.bind_of_ok hrun)]
  · have hsound := h.sound
    rw [DoStore.Sound, DoStore.slots_of_valid hv] at hsound
    rw [DoStore.slots_of_valid hv] at hobject
    obtain ⟨hi, hkey, -⟩ := List.findIdx?_eq_some_iff_getElem.mp hidx
    refine MappedStore.agrees_of_table hv' htable hsound.set_free fun tag' htag' ↦ ?_
    rw [hsound.lookup_set_free (List.getElem?_eq_getElem hi) htag', of_decide_eq_true hkey,
      StoreOp.onMap_delete, ← hobject tag' htag']
    split_ifs <;> rfl
  · refine ⟨h.sound, fun tag' htag' ↦ ?_⟩
    change _ = (StoreOp.delete tag).onMap s.map tag'
    rw [StoreOp.onMap_delete]
    split_ifs with htag
    · rw [htag] at htag' ⊢
      dsimp only
      rw [DoStore.lookup_slots_eq_none htag' hnone]
      rfl
    · exact hobject tag' htag'

theorem agrees_step {s : MappedStore W} (h : s.Agrees d memory) (op : StoreOp) :
    (s.step d op).Agrees d memory := by
  cases op with
  | read tag => exact h
  | write tag value => exact agrees_write hf hfits h tag value
  | delete tag => exact agrees_delete hf hfits h tag

/-- **Runs.** The store and its map agree after any operations. -/
theorem agrees_run {s : MappedStore W} (h : s.Agrees d memory) (ops : List StoreOp) :
    (s.run d ops).Agrees d memory := by
  induction ops generalizing s with
  | nil => exact h
  | cons op ops ih => exact ih (agrees_step hf hfits h op)

omit hf hfits in
/-- The map changes at the tag of the operation alone. -/
theorem map_step_other {s : MappedStore W} {op : StoreOp} (h : op.tag ≠ tag) :
    (s.step d op).map tag = s.map tag := by
  have hmap : op.onMap s.map tag = s.map tag := by
    cases op with
    | write tag' value => exact if_neg h.symm
    | delete tag' => exact if_neg h.symm
    | read tag' => rfl
  rw [MappedStore.step]
  dsimp only
  split_ifs
  · exact hmap
  · rfl

/-- For every tag but 0 the store is a map. -/
theorem isMap_of_ne {w₀ : W} (hsound : d.Sound (memory w₀)) (htag : tag ≠ 0) : d.IsMap w₀ tag := by
  have hreads : ∀ ops, d.read tag ((MappedStore.found d w₀).run d ops).world
      = ((MappedStore.found d w₀).run d ops).map tag := by
    intro ops
    have hagrees := agrees_run hf hfits (agrees_found hf hfits hsound) ops
    rw [DoStore.read_eq hf hfits, DoStore.object_eq htag]
    exact hagrees.object tag htag
  refine ⟨hreads, fun ops op hop ↦ ?_, fun ops op e he ↦ ?_, fun _ ↦ rfl⟩
  · rw [hreads, hreads, MappedStore.run_concat, map_step_other hop]
  · rw [MappedStore.run_concat]
    exact perform_error hf hfits (Prod.ext he rfl)

/-! ## Tag 0 -/

omit hf hfits in
/-- In a table of free slots the first one is the place of every tag. -/
theorem place_free (tag : UInt16) (v v' : Option (Vec 254)) (n : ℕ) :
    SlotTable.place 0 tag ((0, v) :: List.replicate n (0, v')) = some 0 := by
  rw [SlotTable.place, List.findIdx?_cons, List.findIdx?_cons]
  by_cases htag : (0 : UInt16) = tag
  · rw [if_pos (decide_eq_true htag)]
    rfl
  · have hnone : ((List.replicate n (0, v')).findIdx? fun x : UInt16 × Option (Vec 254) ↦ x.1 = tag)
        = none := by
      refine List.findIdx?_eq_none_iff.mpr fun x hx ↦ ?_
      rw [List.eq_of_mem_replicate hx]
      exact decide_eq_false htag
    rw [if_neg (fun h ↦ htag (of_decide_eq_true h)), hnone]
    rfl

/-- Every store gets a free slot. -/
theorem exists_free_slot (w₀ : W) : ∃ ops,
    let mem := memory ((MappedStore.found d w₀).run d ops).world
    d.Valid mem ∧ ∃ x ∈ d.table mem, x.1 = 0 := by
  by_cases hv : d.Valid (memory w₀)
  · by_cases hfree : ∃ x ∈ d.table (memory w₀), x.1 = 0
    · exact ⟨[], hv, hfree⟩
    · -- the store is full: any of its objects is deleted
      obtain ⟨x, t, hcons⟩ : ∃ x t, d.table (memory w₀) = x :: t := by
        have hlen : (d.table (memory w₀)).length = 32 := by
          rw [DoStore.table, List.length_map, List.length_range]
          rfl
        exact List.exists_cons_of_length_eq_add_one hlen
      refine ⟨[.delete x.1], ?_⟩
      rcases DoStore.delete_table hf hfits x.1 w₀ with ⟨i, w', -, hidx, hrun, hv', htable⟩ | ⟨hnone, -⟩
      · rw [MappedStore.run, List.foldl_cons, List.foldl_nil,
          MappedStore.step_of_ok (Fallible.bind_of_ok hrun)]
        refine ⟨hv', (0, some .empty), ?_, rfl⟩
        rw [htable]
        exact List.mem_set (List.findIdx?_eq_some_iff_getElem.mp hidx).1 _
      · have hlookup := hnone hv
        rw [hcons, SlotTable.lookup, if_pos rfl] at hlookup
        cases hlookup
  · -- the store is not formatted: one object is written
    refine ⟨[.write 1 []], ?_⟩
    have hslots : d.slots (memory w₀) = (0, some .empty) :: List.replicate 31 (0, some .empty) := if_neg hv
    have hlen : ([] : Bytes).length ≤ 254 := Nat.zero_le _
    rcases DoStore.write_table hf hfits 1 hlen w₀ with
      ⟨i, w', hplace, hrun, hv', htable⟩ | ⟨hplace, -⟩
    · rw [MappedStore.run, List.foldl_cons, List.foldl_nil,
        MappedStore.step_of_ok (Fallible.bind_of_ok hrun)]
      rw [hslots] at hplace htable
      obtain rfl := Option.some.inj ((place_free 1 _ _ _).symm.trans hplace)
      refine ⟨hv', (0, some .empty), ?_, rfl⟩
      rw [htable]
      exact List.mem_cons_of_mem _ (List.mem_replicate.mpr ⟨by decide, rfl⟩)
    · rw [hslots, place_free] at hplace
      cases hplace

/-- In an unformatted store an object with tag 0 gives its slot to the next new object. -/
theorem untagged_overwritten {w₀ : W} (hv : ¬ d.Valid (memory w₀)) {value value' : Bytes}
    (hlen : value.length ≤ 254) (hlen' : value'.length ≤ 254) (htag : tag ≠ 0) :
    let s := (MappedStore.found d w₀).run d [.write 0 value, .write tag value']
    s.map 0 = Vec.ofBytes? value ∧ d.read 0 s.world = some .empty := by
  have hslots : d.slots (memory w₀) = (0, some .empty) :: List.replicate 31 (0, some .empty) := if_neg hv
  have hfirst := DoStore.write_table hf hfits 0 hlen w₀
  rw [hslots, place_free] at hfirst
  obtain ⟨i, w₁, hi, hrun, hv₁, htable⟩ := hfirst.resolve_right (by rintro ⟨⟨⟩, -⟩)
  obtain rfl := Option.some.inj hi
  rw [List.set_cons_zero] at htable
  have hsecond := DoStore.write_table hf hfits tag hlen' w₁
  rw [DoStore.slots_of_valid hv₁, htable, place_free] at hsecond
  obtain ⟨i, w₂, hi, hrun', hv₂, htable'⟩ := hsecond.resolve_right (by rintro ⟨⟨⟩, -⟩)
  obtain rfl := Option.some.inj hi
  rw [List.set_cons_zero] at htable'
  have hstep : (MappedStore.found d w₀).step d (.write 0 value) = _ :=
    MappedStore.step_of_ok (Fallible.bind_of_ok hrun)
  rw [MappedStore.run, List.foldl_cons, List.foldl_cons, List.foldl_nil, hstep,
    MappedStore.step_of_ok (Fallible.bind_of_ok hrun')]
  refine ⟨?_, ?_⟩
  · dsimp only
    rw [StoreOp.onMap_write, if_neg htag.symm, StoreOp.onMap_write, if_pos rfl]
  · rw [DoStore.read_eq hf hfits, DoStore.object, if_pos hv₂, htable', SlotTable.lookup, if_neg htag]
    rfl

/-- **For tag 0 it is not.** A read after a deletion finds the free slot. -/
theorem not_isMap_zero (w₀ : W) : ¬ d.IsMap w₀ 0 := by
  intro h
  obtain ⟨ops, hv, x, hx, hfree⟩ := exists_free_slot (d := d) hf hfits w₀
  have hreads := h.reads (ops ++ [.delete 0])
  rw [MappedStore.run_concat] at hreads
  rcases DoStore.delete_table hf hfits 0 ((MappedStore.found d w₀).run d ops).world with
    ⟨i, w', -, hidx, hrun, hv', htable⟩ | ⟨hnone, -⟩
  · rw [MappedStore.step_of_ok (Fallible.bind_of_ok hrun), DoStore.read_eq hf hfits, DoStore.object,
      if_pos hv', htable, SlotTable.lookup_set_findIdx? hidx] at hreads
    cases hreads
  · exact SlotTable.lookup_eq_none_iff.mp (hnone hv) x hx hfree

/-- **The store as a map.** On a storage that keeps what is written, from any contents in which no
tag but 0 stands in two slots, the store is a map at every tag but 0, and at 0 it is not. -/
theorem isMap_iff {w₀ : W} (hsound : d.Sound (memory w₀)) (tag : UInt16) :
    d.IsMap w₀ tag ↔ tag ≠ 0 := by
  constructor
  · rintro h rfl
    exact not_isMap_zero hf hfits w₀ h
  · exact isMap_of_ne hf hfits hsound

end Runs

/-! ## A store with an object of tag 0 -/

/-- An object store in a memory of zeros. -/
def blankStore : DoStore Memory := ⟨rramVaultStorage 0, 0⟩

theorem blankStore_faithful : blankStore.storage.Faithful (blankStore.base + DoStore.regionBytes) id := by
  have h := rramVaultStorage_faithful 0 DoStore.regionBytes
  have hmemory : (fun (rram : Memory) a ↦ rram (0 + a)) = id := by
    funext rram a
    rw [Nat.zero_add]
    rfl
  rw [hmemory] at h
  exact h

theorem blankStore_not_valid : ¬ blankStore.Valid fun _ ↦ 0 := by decide

/-- The name of the card holder is an object like any other. -/
theorem blankStore_isMap_name : blankStore.IsMap (fun _ ↦ 0) 0x5B :=
  (isMap_iff blankStore_faithful (Nat.le_refl _) (DoStore.sound_of_not_valid blankStore_not_valid) 0x5B).mpr
    (by decide)

/-- An object with tag 0 is lost when another one is written. -/
theorem untagged_object_lost : ∃ s : MappedStore Memory,
    (MappedStore.found blankStore fun _ ↦ 0).run blankStore [.write 0 [0x41], .write 0x5B [0x42]] = s ∧
    s.map 0 = Vec.ofBytes? [0x41] ∧ blankStore.read 0 s.world = some .empty :=
  ⟨_, rfl, untagged_overwritten blankStore_faithful (Nat.le_refl _) blankStore_not_valid (by decide)
    (by decide) (by decide)⟩

end Galdralag.OpenPgp
