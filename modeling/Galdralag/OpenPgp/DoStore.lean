import Galdralag.Foundation.SlotTable
import Galdralag.Hal

/-!
# The data object store

Data objects live in one region of the vault: a header and 32 slots of fixed size, each with a tag,
a length and a payload. Tag 0 marks a free slot. A store whose header is missing reads as empty and
is formatted by the first write.

On a storage that keeps what is written, the region is a slot table, and a write is seen by reads of
its own tag and by no other: `write_object`.
-/

set_option linter.all false

namespace Galdralag.OpenPgp

/-- Errors of the object store. -/
inductive DoStoreError where
  | valueTooLong
  | full
  | io (e : HalError)
  deriving DecidableEq, Repr

/-- The object store: a region of a storage, from `base` on. -/
structure DoStore (W : Type) where
  storage : VaultStorage W
  base : ℕ

namespace DoStore

/-- `OPGP`. -/
def magic : Bytes := [0x4F, 0x50, 0x47, 0x50]

def version : UInt8 := 1

def headerLen : ℕ := 8

/-- Per slot: tag, length and payload. -/
def slotBytes : ℕ := 2 + 1 + 254

def slotCount : ℕ := 32

/-- Bytes reserved for one store. -/
def regionBytes : ℕ := headerLen + slotCount * slotBytes

/-! ## Slots as bytes -/

/-- The tag of a slot. -/
def slotTag (slot : Bytes) : UInt16 := UInt16.ofNat (leNat (slot.take 2))

/-- The payload of a slot; a length byte that is too large makes the slot unreadable. -/
def slotPayload (slot : Bytes) : Option (Vec 254) :=
  let len := (slot[2]?.getD 0).toNat
  if len > 254 then none else Vec.ofBytes? ((slot.drop 3).take len)

/-- The bytes of a slot, padded with zeros. -/
def encodeSlot (tag : UInt16) (value : Bytes) : Bytes :=
  u16le tag ++ UInt8.ofNat value.length :: value ++ List.replicate (254 - value.length) 0

variable {W : Type} (d : DoStore W)

/-- The offset of a slot. -/
def slotOffset (index : ℕ) : ℕ := d.base + headerLen + index * slotBytes

/-! ## Operations -/

/-- Whether the region has a valid header. -/
def probe (w : W) : Except DoStoreError Bool := do
  let hdr ← (d.storage.read w d.base headerLen).mapError .io
  .ok (hdr.take 4 = magic ∧ hdr[4]? = some version)

/-- The region of a formatted store without objects. -/
def emptyRegion : Bytes := magic ++ [version] ++ List.replicate (regionBytes - 5) 0

/-- Format the region unless its header is valid. -/
def initIfNeeded : Fallible W DoStoreError PUnit := do
  let valid ← .reading d.probe
  if valid then pure ⟨⟩
  else .mapError .io (d.storage.write d.base emptyRegion)

def readSlot (index : ℕ) (w : W) : Except DoStoreError Bytes :=
  if index ≥ slotCount then .error (.io .denied)
  else (d.storage.read w (d.slotOffset index) slotBytes).mapError .io

def writeSlot (index : ℕ) (slot : Bytes) : Fallible W DoStoreError PUnit := do
  .require (index < slotCount) (.io .denied)
  .mapError .io (d.storage.write (d.slotOffset index) slot)

/-- The payload of the first of the given slots that has the tag. -/
def readFrom (tag : UInt16) (w : W) : List ℕ → Option (Vec 254)
  | [] => none
  | i :: rest =>
    match d.readSlot i w with
    | .error _ => none
    | .ok slot => if slotTag slot = tag then slotPayload slot else readFrom tag w rest

/-- Read an object by its tag; nothing when it is missing or the store has no header. -/
def read (tag : UInt16) (w : W) : Option (Vec 254) :=
  match d.probe w with
  | .ok true => d.readFrom tag w (List.range slotCount)
  | _ => none

/-- The first of the given slots with the tag, or else the first free one. -/
def findFrom (tag : UInt16) (w : W) (empty : Option ℕ) :
    List ℕ → Except DoStoreError (Option ℕ)
  | [] => .ok empty
  | i :: rest => do
    let slot ← d.readSlot i w
    if slotTag slot = tag then .ok (some i)
    else findFrom tag w (if slotTag slot = 0 then empty.or (some i) else empty) rest

/-- Write or replace an object. -/
def write (tag : UInt16) (value : Bytes) : Fallible W DoStoreError PUnit := do
  .require (value.length ≤ 254) .valueTooLong
  d.initIfNeeded
  let found ← .reading fun w ↦ d.findFrom tag w none (List.range slotCount)
  match found with
  | some idx => d.writeSlot idx (encodeSlot tag value)
  | none => .fail .full

/-! ## The region as a slot table -/

/-- Whether the header in a memory is valid. -/
def Valid (mem : Memory) : Prop :=
  (mem.window d.base headerLen).take 4 = magic ∧ (mem.window d.base headerLen)[4]? = some version

instance (mem : Memory) : Decidable (d.Valid mem) := inferInstanceAs (Decidable (_ ∧ _))

/-- A slot of a memory. -/
def slotAt (mem : Memory) (i : ℕ) : Bytes := mem.window (d.slotOffset i) slotBytes

/-- The tag and payload of a slot. -/
def entry (slot : Bytes) : UInt16 × Option (Vec 254) := (slotTag slot, slotPayload slot)

/-- The slots of a memory, in order. -/
def table (mem : Memory) : List (UInt16 × Option (Vec 254)) :=
  (List.range slotCount).map fun i ↦ entry (d.slotAt mem i)

/-- The object with a tag. -/
def object (mem : Memory) (tag : UInt16) : Option (Vec 254) :=
  if d.Valid mem then (SlotTable.lookup tag (d.table mem)).join else none

/-- The number of free slots, counting a store without a header as free. -/
def room (mem : Memory) : ℕ :=
  if d.Valid mem then (d.table mem).countP (fun x ↦ x.1 = 0) else slotCount

/-- The same objects, the same free slots and the same bytes outside the region. -/
structure SameObjects (mem mem' : Memory) : Prop where
  object : ∀ tag ≠ 0, d.object mem' tag = d.object mem tag
  room : d.room mem' = d.room mem
  outside : Memory.AgreeOutside d.base (d.base + regionBytes) mem' mem

/-- What a successful write does to the objects. -/
structure Written (mem mem' : Memory) (tag : UInt16) (value : Bytes) : Prop where
  length_le : value.length ≤ 254
  object : ∀ tag' ≠ 0, d.object mem' tag' =
    if tag' = tag then Vec.ofBytes? value else d.object mem tag'
  room : d.room mem ≤ d.room mem' + 1
  outside : Memory.AgreeOutside d.base (d.base + regionBytes) mem' mem

theorem slotTag_encodeSlot (tag : UInt16) (value : Bytes) :
    slotTag (encodeSlot tag value) = tag := by
  have hmod : tag.toNat % 256 ^ 2 = tag.toNat := Nat.mod_eq_of_lt tag.toNat_lt
  rw [slotTag, encodeSlot, List.append_assoc, List.take_left' (length_u16le tag), u16le,
    leNat_leBytes, hmod, UInt16.ofNat_toNat]

theorem slotPayload_encodeSlot {tag : UInt16} {value : Bytes} (h : value.length ≤ 254) :
    slotPayload (encodeSlot tag value) = Vec.ofBytes? value := by
  have hbytes : encodeSlot tag value = u16le tag ++
      (UInt8.ofNat value.length :: (value ++ List.replicate (254 - value.length) 0)) := by
    rw [encodeSlot, List.append_assoc, List.cons_append]
  have hlen : (UInt8.ofNat value.length).toNat = value.length := by
    rw [UInt8.toNat_ofNat']
    exact Nat.mod_eq_of_lt (by omega)
  have hthird : (encodeSlot tag value)[2]? = some (UInt8.ofNat value.length) := by
    rw [hbytes, List.getElem?_append_right (Nat.le_of_eq (length_u16le tag)), length_u16le]
    rfl
  have hdrop : (encodeSlot tag value).drop 3
      = value ++ List.replicate (254 - value.length) 0 := by
    rw [hbytes, List.drop_append, length_u16le, List.drop_of_length_le (by rw [length_u16le]; omega)]
    rfl
  have hle : ¬ value.length > 254 := by omega
  rw [slotPayload, hthird, hdrop, Option.getD_some, hlen, if_neg hle, List.take_left]

theorem length_encodeSlot {tag : UInt16} {value : Bytes} (h : value.length ≤ 254) :
    (encodeSlot tag value).length = slotBytes := by
  rw [encodeSlot, List.length_append, List.length_append, length_u16le, List.length_cons,
    List.length_replicate, slotBytes]
  omega

theorem entry_encodeSlot {tag : UInt16} {value : Bytes} (h : value.length ≤ 254) :
    entry (encodeSlot tag value) = (tag, Vec.ofBytes? value) := by
  rw [entry, slotTag_encodeSlot, slotPayload_encodeSlot h]

/-! ## What a faithful storage sees -/

variable {d} {limit : ℕ} {memory : W → Memory} (hf : d.storage.Faithful limit memory)
  (hfits : d.base + regionBytes ≤ limit) {tag tag' : UInt16} {value : Bytes} {i : ℕ} {w : W}

theorem slotOffset_le (h : i < slotCount) : d.slotOffset i + slotBytes ≤ d.base + regionBytes := by
  simp only [slotOffset, regionBytes, slotBytes, slotCount, headerLen] at h ⊢
  omega

section Congr

variable {mem mem' : Memory} (h : Memory.AgreeOn d.base (d.base + regionBytes) mem mem')
include h

theorem valid_congr : d.Valid mem ↔ d.Valid mem' := by
  have hheader : mem.window d.base headerLen = mem'.window d.base headerLen :=
    Memory.window_congr h (Nat.le_refl _) (by rw [regionBytes]; omega)
  rw [Valid, Valid, hheader]

theorem table_congr : d.table mem = d.table mem' := by
  refine List.map_congr_left fun i hi ↦ ?_
  rw [slotAt, slotAt, Memory.window_congr h]
  · rw [slotOffset]; omega
  · exact slotOffset_le (List.mem_range.mp hi)

/-- Two memories with the same region hold the same objects. -/
theorem object_congr (tag : UInt16) : d.object mem tag = d.object mem' tag := by
  rw [object, object, table_congr h]
  exact if_congr (valid_congr h) rfl rfl

/-- Two memories with the same region have the same room. -/
theorem room_congr : d.room mem = d.room mem' := by
  rw [room, room, table_congr h]
  exact if_congr (valid_congr h) rfl rfl

end Congr

/-- Writing one slot changes one entry of the table. -/
theorem table_patch {mem : Memory} {slot : Bytes} (hlen : slot.length = slotBytes) :
    d.table (mem.patch (d.slotOffset i) slot) = (d.table mem).set i (entry slot) := by
  apply List.ext_getElem
  · rw [List.length_set, table, table, List.length_map, List.length_map]
  · intro j hj hj'
    rw [List.getElem_set]
    simp only [table, List.getElem_map, List.getElem_range, slotAt]
    split_ifs with hij
    · rw [← hij, ← hlen, Memory.window_patch]
    · rw [Memory.window_patch_of_disjoint]
      simp only [slotOffset, hlen, slotBytes]
      omega

/-- Writing one slot leaves the header alone. -/
theorem valid_patch {mem : Memory} {slot : Bytes} :
    d.Valid (mem.patch (d.slotOffset i) slot) ↔ d.Valid mem := by
  have hheader : (mem.patch (d.slotOffset i) slot).window d.base headerLen
      = mem.window d.base headerLen :=
    Memory.window_patch_of_disjoint (.inl (by rw [slotOffset]; omega))
  rw [Valid, Valid, hheader]

theorem length_emptyRegion : emptyRegion.length = regionBytes := by
  rw [emptyRegion, List.length_append, List.length_append, List.length_replicate]
  rfl

theorem valid_format (mem : Memory) : d.Valid (mem.patch d.base emptyRegion) := by
  have hall := Memory.window_patch mem d.base emptyRegion
  have hsplit : emptyRegion = (magic ++ [version] ++ List.replicate 3 0)
      ++ List.replicate (regionBytes - 8) 0 := by
    rw [emptyRegion, List.append_assoc (magic ++ [version]), List.replicate_append_replicate]
    rfl
  rw [length_emptyRegion, regionBytes, Memory.window_add] at hall
  have hheader : (mem.patch d.base emptyRegion).window d.base headerLen
      = magic ++ [version] ++ List.replicate 3 0 :=
    (List.append_inj (hall.trans hsplit) (Memory.length_window)).1
  rw [Valid, hheader]
  exact ⟨rfl, rfl⟩

/-- A formatted store has only free slots. -/
theorem table_format (mem : Memory) :
    d.table (mem.patch d.base emptyRegion) = List.replicate slotCount (0, some .empty) := by
  have hslot : ∀ i < slotCount,
      d.slotAt (mem.patch d.base emptyRegion) i = List.replicate slotBytes 0 := by
    intro i hi
    have hin := slotOffset_le (d := d) hi
    apply List.ext_getElem
    · rw [slotAt, Memory.length_window, List.length_replicate]
    · intro j hj hj'
      rw [slotAt, Memory.length_window] at hj
      simp only [slotAt, Memory.window, List.getElem_map, List.getElem_range,
        List.getElem_replicate]
      have hpos : headerLen + i * slotBytes + j < emptyRegion.length := by
        rw [length_emptyRegion]
        rw [slotOffset] at hin
        omega
      have hoff : d.slotOffset i + j = d.base + (headerLen + i * slotBytes + j) := by
        rw [slotOffset]; omega
      have hfive : (magic ++ [version]).length ≤ headerLen + i * slotBytes + j := by
        rw [headerLen]
        change 5 ≤ _
        omega
      rw [hoff, Memory.patch_apply_add hpos]
      simp only [emptyRegion, List.getElem_append_right hfive, List.getElem_replicate]
  rw [table, List.eq_replicate_iff]
  refine ⟨by rw [List.length_map, List.length_range], fun x hx ↦ ?_⟩
  obtain ⟨i, hi, rfl⟩ := List.mem_map.mp hx
  rw [hslot i (List.mem_range.mp hi)]
  rfl

theorem SameObjects.refl (mem : Memory) : d.SameObjects mem mem :=
  ⟨fun _ _ ↦ rfl, rfl, .refl mem⟩

include hf hfits

theorem probe_eq (w : W) : d.probe w = .ok (decide (d.Valid (memory w))) := by
  have hread := hf.read_eq w d.base headerLen (by rw [regionBytes] at hfits; omega)
  rw [probe, hread]
  rfl

theorem readSlot_eq (h : i < slotCount) : d.readSlot i w = .ok (d.slotAt (memory w) i) := by
  have hread := hf.read_eq w (d.slotOffset i) slotBytes (Nat.le_trans (slotOffset_le h) hfits)
  rw [readSlot, if_neg (by omega), hread]
  rfl

theorem readFrom_eq {l : List ℕ} (h : ∀ i ∈ l, i < slotCount) : d.readFrom tag w l
    = (SlotTable.lookup tag (l.map fun i ↦ entry (d.slotAt (memory w) i))).join := by
  induction l with
  | nil => rfl
  | cons i l ih =>
    rw [List.forall_mem_cons] at h
    simp only [readFrom, readSlot_eq hf hfits h.1, List.map_cons, SlotTable.lookup, entry]
    split_ifs with htag
    · rfl
    · exact ih h.2

/-- Reading returns the object. -/
theorem read_eq (tag : UInt16) (w : W) : d.read tag w = d.object (memory w) tag := by
  rw [read, probe_eq hf hfits, object]
  by_cases hv : d.Valid (memory w)
  · simp only [hv, decide_true, if_true]
    exact readFrom_eq hf hfits fun i ↦ List.mem_range.mp
  · simp only [hv, decide_false, if_false]

theorem findFrom_eq {l : List ℕ} (h : ∀ i ∈ l, i < slotCount) (empty : Option ℕ) :
    d.findFrom tag w empty l = .ok (
      (l.find? fun i ↦ slotTag (d.slotAt (memory w) i) = tag).or
        (empty.or (l.find? fun i ↦ slotTag (d.slotAt (memory w) i) = 0))) := by
  induction l generalizing empty with
  | nil => rw [findFrom, List.find?_nil, List.find?_nil, Option.none_or, Option.or_none]
  | cons i l ih =>
    rw [List.forall_mem_cons] at h
    rw [findFrom, Fallible.except_bind_of_ok (readSlot_eq hf hfits h.1)]
    by_cases htag : slotTag (d.slotAt (memory w) i) = tag
    · simp only [htag, if_true, List.find?_cons, decide_true, Option.some_or]
    · rw [if_neg htag, ih h.2]
      by_cases hfree : slotTag (d.slotAt (memory w) i) = 0
      · simp only [if_pos hfree, List.find?_cons, decide_eq_false htag, decide_eq_true hfree,
          Option.or_assoc, Option.some_or]
      · simp only [if_neg hfree, List.find?_cons, decide_eq_false htag, decide_eq_false hfree]

/-- The search of a write finds the place of the tag. -/
theorem find_eq (tag : UInt16) (w : W) :
    d.findFrom tag w none (List.range slotCount)
      = .ok (SlotTable.place 0 tag (d.table (memory w))) := by
  rw [findFrom_eq hf hfits (fun i ↦ List.mem_range.mp), Option.none_or, SlotTable.place, table,
    ← SlotTable.find?_range, ← SlotTable.find?_range]
  rfl

/-! ## Writes -/

/-- Formatting never fails, and loses no object. -/
theorem initIfNeeded_run (w : W) : ∃ w', d.initIfNeeded w = (.ok ⟨⟩, w') ∧
    d.Valid (memory w') ∧ d.SameObjects (memory w) (memory w') := by
  have hprobe : Fallible.reading d.probe w = (.ok (decide (d.Valid (memory w))), w) := by
    rw [Fallible.reading_apply, probe_eq hf hfits]
  by_cases hv : d.Valid (memory w)
  · refine ⟨w, ?_, hv, .refl _⟩
    rw [initIfNeeded, Fallible.bind_of_ok hprobe, decide_eq_true hv]
    rfl
  · have hin : d.base + emptyRegion.length ≤ limit := by rwa [length_emptyRegion]
    refine ⟨(d.storage.write d.base emptyRegion w).2, ?_, ?_⟩
    · rw [initIfNeeded, Fallible.bind_of_ok hprobe, decide_eq_false hv]
      change Fallible.mapError _ _ w = _
      rw [Fallible.mapError, hf.write_ok w d.base emptyRegion hin]
      rfl
    · rw [hf.memory_write w d.base emptyRegion hin]
      have hfmt := valid_format (d := d) (memory w)
      refine ⟨hfmt, fun tag htag ↦ ?_, ?_, ?_⟩
      · rw [object, object, if_pos hfmt, if_neg hv, table_format,
          SlotTable.lookup_eq_none_iff.mpr, Option.join_none]
        intro x hx
        rw [List.eq_of_mem_replicate hx]
        exact htag.symm
      · rw [room, room, if_pos hfmt, if_neg hv, table_format, List.countP_replicate]
        rfl
      · exact Memory.agreeOutside_patch (Nat.le_refl _)
          (Nat.le_of_eq (by rw [length_emptyRegion]))

/-- A write of a value that fits goes to the place of its tag, in a formatted store. -/
theorem write_placed (tag : UInt16) {value : Bytes} (hlen : value.length ≤ 254) (w : W) :
    ∃ w₁, d.Valid (memory w₁) ∧ d.SameObjects (memory w) (memory w₁) ∧
      d.write tag value w = (match SlotTable.place 0 tag (d.table (memory w₁)) with
        | some idx => d.writeSlot idx (encodeSlot tag value)
        | none => .fail .full) w₁ := by
  obtain ⟨w₁, hinit, hv, hsame⟩ := initIfNeeded_run hf hfits w
  have hfind : Fallible.reading (fun w ↦ d.findFrom tag w none (List.range slotCount)) w₁
      = (.ok (SlotTable.place 0 tag (d.table (memory w₁))), w₁) := by
    rw [Fallible.reading_apply, find_eq hf hfits]
  refine ⟨w₁, hv, hsame, ?_⟩
  rw [write, Fallible.require, if_pos hlen, Fallible.bind_of_ok (Fallible.pure_apply _ _),
    Fallible.bind_of_ok hinit, Fallible.bind_of_ok hfind]

/-- A slot that is the place of a tag takes its object. -/
theorem writeSlot_run (hlen : value.length ≤ 254) (hv : d.Valid (memory w))
    (hplace : SlotTable.place 0 tag (d.table (memory w)) = some i) :
    ∃ w', d.writeSlot i (encodeSlot tag value) w = (.ok ⟨⟩, w') ∧
      d.Written (memory w) (memory w') tag value := by
  obtain ⟨x, hx, hkey, -⟩ := SlotTable.place_spec hplace
  have hi : i < slotCount := by
    have h := (List.getElem?_eq_some_iff.mp hx).1
    rwa [table, List.length_map, List.length_range] at h
  have hslot : (encodeSlot tag value).length = slotBytes := length_encodeSlot hlen
  have hin : d.slotOffset i + (encodeSlot tag value).length ≤ limit := by
    rw [hslot]
    exact Nat.le_trans (slotOffset_le hi) hfits
  refine ⟨(d.storage.write (d.slotOffset i) (encodeSlot tag value) w).2, ?_, ?_⟩
  · rw [writeSlot, Fallible.require, if_pos hi, Fallible.bind_of_ok (Fallible.pure_apply _ _),
      Fallible.mapError, hf.write_ok w _ _ hin]
    rfl
  · rw [hf.memory_write w _ _ hin]
    refine ⟨hlen, fun tag' htag' ↦ ?_, ?_, ?_⟩
    · rw [object, object, if_pos (valid_patch.mpr hv), if_pos hv, table_patch hslot,
        entry_encodeSlot hlen, SlotTable.lookup_place hplace htag']
      split_ifs <;> rfl
    · rw [room, room, if_pos (valid_patch.mpr hv), if_pos hv, table_patch hslot,
        List.countP_set (List.getElem?_eq_some_iff.mp hx).1]
      split_ifs <;> omega
    · refine Memory.agreeOutside_patch ?_ ?_
      · rw [slotOffset]; omega
      · rw [hslot]; exact slotOffset_le hi

omit hf hfits in
/-- After a formatting that loses nothing. -/
theorem SameObjects.written {mem mem' mem'' : Memory} (h : d.SameObjects mem mem')
    (hw : d.Written mem' mem'' tag value) : d.Written mem mem'' tag value where
  length_le := hw.length_le
  object tag' htag' := by rw [hw.object tag' htag', h.object tag' htag']
  room := h.room ▸ hw.room
  outside := hw.outside.trans h.outside

/-- **What a write does.** It stores the object and changes no other, or it fails and changes
none. -/
theorem write_run (tag : UInt16) (value : Bytes) (w : W) :
    (∃ w', d.write tag value w = (.ok ⟨⟩, w') ∧ d.Written (memory w) (memory w') tag value) ∨
      ∃ e w', d.write tag value w = (.error e, w') ∧ d.SameObjects (memory w) (memory w') ∧
        (value.length ≤ 254 → d.room (memory w) = 0) := by
  by_cases hlen : value.length ≤ 254
  swap
  · refine .inr ⟨.valueTooLong, w, ?_, .refl _, fun h ↦ absurd h hlen⟩
    rw [write, Fallible.require, if_neg hlen]
    rfl
  obtain ⟨w₁, hv, hsame, hrun⟩ := write_placed hf hfits tag hlen w
  rw [hrun]
  cases hplace : SlotTable.place 0 tag (d.table (memory w₁)) with
  | none =>
    refine .inr ⟨.full, w₁, rfl, hsame, fun _ ↦ ?_⟩
    rw [← hsame.room, room, if_pos hv, List.countP_eq_zero]
    intro x hx hfree
    have hsome := SlotTable.place_isSome (k := tag) ⟨x, hx, of_decide_eq_true hfree⟩
    rw [hplace] at hsome
    cases hsome
  | some i =>
    obtain ⟨w', hwrite, hwritten⟩ := writeSlot_run hf hfits hlen hv hplace
    exact .inl ⟨w', hwrite, hsame.written hwritten⟩

/-- An object that is there can be replaced. -/
theorem write_of_object (htag : tag ≠ 0) (hlen : value.length ≤ 254)
    (h : d.object (memory w) tag ≠ none) : ∃ w', d.write tag value w = (.ok ⟨⟩, w') ∧
      d.Written (memory w) (memory w') tag value := by
  obtain ⟨w₁, hv, hsame, hrun⟩ := write_placed hf hfits tag hlen w
  have hfound : SlotTable.lookup tag (d.table (memory w₁)) ≠ none := by
    intro hnone
    rw [← hsame.object tag htag, object, if_pos hv, hnone] at h
    exact h rfl
  have hsome : (SlotTable.place 0 tag (d.table (memory w₁))).isSome = true := by
    by_contra hnot
    refine hfound (SlotTable.lookup_eq_none_iff.mpr fun x hx hkey ↦ hnot ?_)
    exact SlotTable.place_isSome_iff.mpr ⟨x, hx, .inl hkey⟩
  obtain ⟨i, hplace⟩ := Option.isSome_iff_exists.mp hsome
  obtain ⟨w', hwrite, hwritten⟩ := writeSlot_run hf hfits hlen hv hplace
  rw [hrun, hplace]
  exact ⟨w', hwrite, hsame.written hwritten⟩

omit hf hfits

/-- A write goes through the storage alone, and inside the region. -/
theorem moves_write {R : W → W → Prop} (hrefl : ∀ w, R w w) (htrans : ∀ {a b c}, R a b → R b c → R a c)
    (h : ∀ off (bs : Bytes), d.base ≤ off → off + bs.length ≤ d.base + regionBytes →
      Fallible.Moves R (d.storage.write off bs)) (tag : UInt16) (value : Bytes) :
    Fallible.Moves R (d.write tag value) := by
  refine .require_bind hrefl fun hlen ↦ .bind ?_ htrans fun _ ↦
    (Fallible.Moves.reading hrefl _).bind htrans fun found ↦ ?_
  · refine (Fallible.Moves.reading hrefl _).bind htrans fun valid ↦ ?_
    rcases valid with _ | _
    · have hfits : d.base + emptyRegion.length ≤ d.base + regionBytes :=
        Nat.le_of_eq (by rw [length_emptyRegion])
      exact Fallible.Moves.mapError (h _ _ (Nat.le_refl _) hfits) _
    · exact .pure hrefl _
  · rcases found with _ | idx
    · exact .fail hrefl _
    · refine .require_bind hrefl fun hidx ↦ Fallible.Moves.mapError (h _ _ ?_ ?_) _
      · rw [slotOffset]
        omega
      · rw [length_encodeSlot hlen]
        exact slotOffset_le hidx

end DoStore

end Galdralag.OpenPgp
