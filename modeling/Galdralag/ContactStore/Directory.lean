import Galdralag.ContactStore.Binding
import Mathlib.Data.List.Nodup

/-!
# The contacts a store holds

A contact is a record together with the bytes its references point to. The directory that a storage
holds maps each slot to its contact, if it has one.

Both regions are filled from their start, and an allocator only knows where it will write next. So
the one thing that keeps a contact whole is that no reference of a stored record reaches beyond the
two bump pointers: whatever is written from there on, and whatever is written to other slots, leaves
the directory alone.
-/

set_option linter.all false

namespace Galdralag.Contacts

/-- A contact: the fields of its record and the bytes it refers to. -/
structure Contact where
  flags : UInt8
  keyAlgo : UInt8
  pinProtected : UInt8
  fingerprint : Block 32
  callsign : Block 12
  dmrId : UInt32
  pinNonce : Block 12
  pinTag : Block 16
  lastFetched : UInt32
  sourceMap : UInt64
  pinVerifier : Block 32
  email : Bytes
  displayName : Bytes
  publicKey : Bytes
  deriving DecidableEq

/-- A contact for each slot that has one. -/
abbrev Directory := UInt8 → Option Contact

/-- The contact that is given with an insertion. -/
def NewContact.contact (input : NewContact) : Contact where
  flags := (if input.ownIdentity then ContactFlags.active.union .selfKey else .active).bits
  keyAlgo := input.keyAlgo.toWire
  pinProtected := if input.pinProtected then 1 else 0
  fingerprint := input.fingerprint
  callsign := input.callsign
  dmrId := input.dmrId
  pinNonce := if input.pinProtected then input.pinNonce.getD (.zero 12) else .zero 12
  pinTag := if input.pinProtected then input.pinTag.getD (.zero 16) else .zero 16
  lastFetched := 0
  sourceMap := fieldSourceSet 0 fieldEmail .hostVerified
  pinVerifier := if input.pinProtected then input.pinVerifier.getD (.zero 32) else .zero 32
  email := input.email
  displayName := input.displayName.getD []
  publicKey := input.publicKey

/-- The contact after an update. -/
def ContactUpdate.apply (update : ContactUpdate) (c : Contact) : Contact :=
  { c with
    callsign := update.callsign.getD c.callsign
    dmrId := update.dmrId.getD c.dmrId
    email := update.email.getD c.email
    displayName := update.displayName.getD c.displayName
    lastFetched := update.lastFetched.getD c.lastFetched
    flags := update.stale.elim c.flags fun stale ↦
      (if stale then (ContactFlags.fromBitsTruncate c.flags).union .stale
        else (ContactFlags.fromBitsTruncate c.flags).difference .stale).bits }

namespace ContactStore

variable {S C : Type} {hal : StorePlatform S C} {memory : S → Memory} {s : ContactStore S C}
  {mem mem' : Memory} {heap keys : ℕ} {r : ContactRecord} {slot : UInt8}

/-! ## Reading contacts -/

/-- The contact of a record, read through its references. -/
def contactOf (hal : StorePlatform S C) (s : ContactStore S C) (r : ContactRecord) :
    Except ContactStoreError Contact := do
  let email ← StringHeap.read hal.storage s.storage r.email maxStringFieldBytes
  let displayName ← StringHeap.read hal.storage s.storage r.displayName maxStringFieldBytes
  let publicKey ←
    KeyMaterialRegion.read hal.storage s.storage r.keyOffset r.keyLen maxPublicKeyBytes
  pure
    { flags := r.flags, keyAlgo := r.keyAlgo, pinProtected := r.pinProtected
      fingerprint := r.fingerprint, callsign := r.callsign, dmrId := r.dmrId, pinNonce := r.pinNonce
      pinTag := r.pinTag, lastFetched := r.lastFetched, sourceMap := r.sourceMap
      pinVerifier := r.pinVerifier, email, displayName, publicKey }

/-- The contact in a slot. -/
def readContact (hal : StorePlatform S C) (s : ContactStore S C) (slot : UInt8) :
    Except ContactStoreError (Option Contact) := do
  let r ← readRecord hal s slot
  if r.isActive then (contactOf hal s r).map some else pure none

/-- A store shows a directory: its list has the slots of the directory, each once and with its
fingerprint; every slot reads as the directory says; and the public keys that need no PIN are given
out. -/
structure Shows (hal : StorePlatform S C) (s : ContactStore S C) (dir : Directory) : Prop where
  listed : ∃ items : List (UInt8 × Block 32), list hal s = .ok (items.map .ok) ∧
    (items.map Prod.fst).Nodup ∧
    ∀ slot fingerprint, (slot, fingerprint) ∈ items ↔
      ∃ c, dir slot = some c ∧ c.fingerprint = fingerprint
  contacts : ∀ slot ∈ slots, readContact hal s slot = .ok (dir slot)
  publicKeys : ∀ slot ∈ slots, ∀ c, dir slot = some c → c.pinProtected = 0 →
    ∃ blob, readPublicKey hal s slot = .ok blob ∧ blob.bytes = c.publicKey

/-! ## What a storage holds -/

/-- The contact of a record, with the bytes its references point to. -/
def contactIn (mem : Memory) (r : ContactRecord) : Contact where
  flags := r.flags
  keyAlgo := r.keyAlgo
  pinProtected := r.pinProtected
  fingerprint := r.fingerprint
  callsign := r.callsign
  dmrId := r.dmrId
  pinNonce := r.pinNonce
  pinTag := r.pinTag
  lastFetched := r.lastFetched
  sourceMap := r.sourceMap
  pinVerifier := r.pinVerifier
  email := mem.window (stringHeapOffset + r.email.offset.toNat) r.email.len.toNat
  displayName := mem.window (stringHeapOffset + r.displayName.offset.toNat) r.displayName.len.toNat
  publicKey := mem.window (keyRegionOffset + r.keyOffset.toNat) r.keyLen.toNat

/-- The record in a slot, the empty one if there is none. -/
def recordIn (mem : Memory) (slot : UInt8) : ContactRecord :=
  if Occupied mem slot then .fromBytesUnchecked (slotBytes mem slot) else .default

/-- The directory that a storage holds. -/
def held (mem : Memory) : Directory := fun slot ↦
  if slot ∈ slots ∧ Occupied mem slot then some (contactIn mem (recordIn mem slot)) else none

/-- A record whose references end before the two bump pointers. -/
structure Fits (heap keys : ℕ) (r : ContactRecord) : Prop where
  active : r.isActive = true
  strings : ∀ ref ∈ r.stringRefs, ref.offset.toNat + ref.len.toNat ≤ heap
  short : ∀ ref ∈ r.stringRefs, ref.len.toNat ≤ maxStringFieldBytes
  key : r.keyLen = 0 ∨ r.keyOffset.toNat + r.keyLen.toNat ≤ keys
  keyShort : r.keyLen.toNat ≤ maxPublicKeyBytes

/-- A provisioned storage whose records end before the two bump pointers. -/
structure Live (mem : Memory) (heap keys : ℕ) : Prop where
  sound : Sound mem
  heap_le : heap ≤ stringHeapBytes
  keys_le : keys ≤ keyRegionBytes
  fits : ∀ slot ∈ slots, Occupied mem slot → Fits heap keys (recordIn mem slot)

/-! ## What leaves the contacts alone -/

/-- The memories agree on the records, on both regions up to the bump pointers, and on the marker.
-/
structure Intact (heap keys : ℕ) (mem mem' : Memory) : Prop where
  records : Memory.AgreeOn contactRecordArrayOffset stringHeapOffset mem mem'
  strings : Memory.AgreeOn stringHeapOffset (stringHeapOffset + heap) mem mem'
  keys : Memory.AgreeOn keyRegionOffset (keyRegionOffset + keys) mem mem'
  marker : Memory.AgreeOn contactStoreProvisionMarkerOffset contactStoreIntegrityOffset mem mem'

theorem Intact.refl (heap keys : ℕ) (mem : Memory) : Intact heap keys mem mem :=
  ⟨fun _ _ _ ↦ rfl, fun _ _ _ ↦ rfl, fun _ _ _ ↦ rfl, fun _ _ _ ↦ rfl⟩

theorem Intact.trans {mem'' : Memory} (h : Intact heap keys mem mem')
    (h' : Intact heap keys mem' mem'') : Intact heap keys mem mem'' :=
  ⟨h.records.trans h'.records, h.strings.trans h'.strings, h.keys.trans h'.keys,
    h.marker.trans h'.marker⟩

theorem Intact.mono {heap' keys' : ℕ} (h : Intact heap' keys' mem mem') (hheap : heap ≤ heap')
    (hkeys : keys ≤ keys') : Intact heap keys mem mem' where
  records := h.records
  strings := h.strings.mono (Nat.le_refl _) (Nat.add_le_add_left hheap _)
  keys := h.keys.mono (Nat.le_refl _) (Nat.add_le_add_left hkeys _)
  marker := h.marker

theorem Intact.symm (h : Intact heap keys mem mem') : Intact heap keys mem' mem :=
  ⟨h.records.symm, h.strings.symm, h.keys.symm, h.marker.symm⟩

theorem Intact.sameRecords (h : Intact heap keys mem mem') : SameRecords mem mem' :=
  ⟨h.records, h.marker⟩

/-- A write to one of the two regions, beyond its bump pointer. -/
def Free (heap keys : ℕ) (w : ℕ × Bytes) : Prop :=
  stringHeapOffset + heap ≤ w.1 ∧ w.1 + w.2.length ≤ keyRegionOffset ∨
    keyRegionOffset + keys ≤ w.1 ∧ w.1 + w.2.length ≤ timingLogOffset

theorem Free.mono {heap' keys' : ℕ} {w : ℕ × Bytes} (h : Free heap' keys' w) (hheap : heap ≤ heap')
    (hkeys : keys ≤ keys') : Free heap keys w := by
  rcases h with h | h
  · exact .inl ⟨by omega, h.2⟩
  · exact .inr ⟨by omega, h.2⟩

/-- Writes beyond the bump pointers meet neither what is before them nor the log and what follows
it. -/
theorem intact_of_free {ws : List (ℕ × Bytes)} (h : ∀ w ∈ ws, Free heap keys w)
    (hheap : heap ≤ stringHeapBytes) :
    Intact heap keys mem (mem.patchAll ws) ∧
      Memory.AgreeOn timingLogOffset contactStoreEnd mem (mem.patchAll ws) := by
  simp only [Free, stringHeapOffset_eq, keyRegionOffset_eq, timingLogOffset_eq] at h
  rw [stringHeapBytes_eq] at hheap
  have hagree : ∀ {lo hi : ℕ}, (∀ w ∈ ws, hi ≤ w.1 ∨ w.1 + w.2.length ≤ lo) →
      Memory.AgreeOn lo hi mem (mem.patchAll ws) := fun h ↦ (Memory.agreeOn_patchAll h).symm
  refine ⟨⟨hagree fun w hw ↦ ?_, hagree fun w hw ↦ ?_, hagree fun w hw ↦ ?_, hagree fun w hw ↦ ?_⟩,
    hagree fun w hw ↦ ?_⟩
  · have hfree := h w hw
    rw [stringHeapOffset_eq]
    omega
  · have hfree := h w hw
    rw [stringHeapOffset_eq]
    omega
  · have hfree := h w hw
    rw [keyRegionOffset_eq]
    omega
  · have hfree := h w hw
    rw [contactStoreProvisionMarkerOffset_eq]
    omega
  · have hfree := h w hw
    rw [timingLogOffset_eq]
    omega

/-- A write to the register leaves the contacts alone. -/
theorem intact_patch_register (hheap : heap ≤ stringHeapBytes) (hkeys : keys ≤ keyRegionBytes)
    (bs : Bytes) : Intact heap keys mem (mem.patch contactStoreIntegrityOffset bs) := by
  rw [stringHeapBytes_eq] at hheap
  rw [keyRegionBytes_eq] at hkeys
  have hagree : ∀ {lo hi : ℕ}, hi ≤ contactStoreIntegrityOffset →
      Memory.AgreeOn lo hi mem (mem.patch contactStoreIntegrityOffset bs) :=
    fun h ↦ (Memory.agreeOn_patch (.inl h)).symm
  rw [contactStoreIntegrityOffset_eq] at hagree ⊢
  refine ⟨hagree ?_, hagree ?_, hagree ?_, hagree ?_⟩
  · rw [stringHeapOffset_eq]; omega
  · rw [stringHeapOffset_eq]; omega
  · rw [keyRegionOffset_eq]; omega
  · exact Nat.le_refl _

/-- So does a write to the log. -/
theorem intact_of_sameButLog (hheap : heap ≤ stringHeapBytes) (hkeys : keys ≤ keyRegionBytes)
    (h : TimingLog.SameButLog mem mem') : Intact heap keys mem mem' := by
  rw [stringHeapBytes_eq] at hheap
  rw [keyRegionBytes_eq] at hkeys
  refine ⟨h.1.mono (Nat.zero_le _) (by decide), h.1.mono (Nat.zero_le _) ?_,
    h.1.mono (Nat.zero_le _) ?_, (h.2 _).mono (by decide) (Nat.le_refl _)⟩
  · rw [stringHeapOffset_eq, timingLogOffset_eq]; omega
  · rw [keyRegionOffset_eq, timingLogOffset_eq]; omega

/-! ## The directory stays -/

section Intact

variable (hintact : Intact heap keys mem mem')
include hintact

/-- What a record refers to is left alone with it. -/
theorem Fits.contactIn_eq (h : Fits heap keys r) : contactIn mem' r = contactIn mem r := by
  have hstring : ∀ ref ∈ r.stringRefs,
      mem'.window (stringHeapOffset + ref.offset.toNat) ref.len.toNat
        = mem.window (stringHeapOffset + ref.offset.toNat) ref.len.toNat := by
    intro ref href
    have hend := h.strings ref href
    exact (Memory.window_congr hintact.strings (Nat.le_add_right _ _) (by omega)).symm
  have hkey : mem'.window (keyRegionOffset + r.keyOffset.toNat) r.keyLen.toNat
      = mem.window (keyRegionOffset + r.keyOffset.toNat) r.keyLen.toNat := by
    rcases h.key with hzero | hend
    · rw [hzero]
      rfl
    · exact (Memory.window_congr hintact.keys (Nat.le_add_right _ _) (by omega)).symm
  rw [contactIn, contactIn, hkey, hstring r.email List.mem_cons_self,
    hstring r.displayName (List.mem_cons_of_mem _ List.mem_cons_self)]

theorem occupied_congr (hslot : slot ∈ slots) : Occupied mem' slot ↔ Occupied mem slot := by
  rw [Occupied, Occupied, slotBytes_congr hintact.sameRecords hslot]

theorem recordIn_congr (hslot : slot ∈ slots) : recordIn mem' slot = recordIn mem slot := by
  simp only [recordIn, occupied_congr hintact hslot, slotBytes_congr hintact.sameRecords hslot]

theorem Live.of_intact (h : Live mem heap keys) : Live mem' heap keys where
  sound := h.sound.of_sameRecords hintact.sameRecords
  heap_le := h.heap_le
  keys_le := h.keys_le
  fits slot hslot hocc := by
    rw [recordIn_congr hintact hslot]
    exact h.fits slot hslot ((occupied_congr hintact hslot).mp hocc)

/-- **Frame.** The directory depends on the records and on what is before the bump pointers. -/
theorem Live.held_eq (h : Live mem heap keys) : held mem' = held mem := by
  funext slot
  by_cases hslot : slot ∈ slots
  · by_cases hocc : Occupied mem slot
    · have hfits := h.fits slot hslot hocc
      have hocc' := (occupied_congr hintact hslot).mpr hocc
      rw [held, held, if_pos ⟨hslot, hocc'⟩, if_pos ⟨hslot, hocc⟩, recordIn_congr hintact hslot,
        hfits.contactIn_eq hintact]
    · have hocc' := mt (occupied_congr hintact hslot).mp hocc
      rw [held, held, if_neg (hocc' ·.2), if_neg (hocc ·.2)]
  · rw [held, held, if_neg (hslot ·.1), if_neg (hslot ·.1)]

end Intact

/-- The bump pointers only have to be far enough. -/
theorem Fits.mono {heap' keys' : ℕ} (h : Fits heap keys r) (hheap : heap ≤ heap')
    (hkeys : keys ≤ keys') : Fits heap' keys' r where
  active := h.active
  strings ref href := Nat.le_trans (h.strings ref href) hheap
  short := h.short
  key := h.key.imp_right (Nat.le_trans · hkeys)
  keyShort := h.keyShort

theorem Live.mono {heap' keys' : ℕ} (h : Live mem heap keys) (hheap : heap ≤ heap')
    (hkeys : keys ≤ keys') (hheap' : heap' ≤ stringHeapBytes) (hkeys' : keys' ≤ keyRegionBytes) :
    Live mem heap' keys' where
  sound := h.sound
  heap_le := hheap'
  keys_le := hkeys'
  fits slot hslot hocc := (h.fits slot hslot hocc).mono hheap hkeys

/-! ## A record is written -/

section Written

/-- What is stored once a record was written to a slot. -/
abbrev written (mem : Memory) (slot : UInt8) (r : ContactRecord) : Memory :=
  mem.patch (recordOffset slot) r.asBytes

theorem occupied_written {slot' : UInt8} : Occupied (written mem slot' r) slot ↔
    if slot = slot' then r.magic = contactRecordMagic else Occupied mem slot := by
  rw [Occupied, written, slotBytes_patch]
  split_ifs
  · rw [r.take_magic]
    exact ⟨fun h ↦ u32le_injective h, congrArg u32le⟩
  · rfl

theorem recordIn_written_self (h : r.magic = contactRecordMagic) :
    recordIn (written mem slot r) slot = r := by
  rw [recordIn, if_pos (occupied_written.mpr (by rw [if_pos rfl]; exact h)), written, slotBytes_patch,
    if_pos rfl, ContactRecord.fromBytesUnchecked_asBytes]

theorem recordIn_written_of_ne {slot' : UInt8} (h : slot ≠ slot') :
    recordIn (written mem slot' r) slot = recordIn mem slot := by
  simp only [recordIn, occupied_written, if_neg h, written, slotBytes_patch]

/-- A record in one of the slots does not meet the regions. -/
theorem contactIn_written (hslot : slot ∈ slots) (q : ContactRecord) :
    contactIn (written mem slot r) q = contactIn mem q := by
  have hend : recordOffset slot + r.asBytes.length ≤ stringHeapOffset := by
    rw [mem_slots] at hslot
    rw [recordOffset_eq, r.length_asBytes, stringHeapOffset_eq]
    omega
  have hwindow : ∀ off len, stringHeapOffset ≤ off →
      (written mem slot r).window off len = mem.window off len :=
    fun off len hoff ↦ Memory.window_patch_of_disjoint (.inr (Nat.le_trans hend hoff))
  have hkeys : stringHeapOffset ≤ keyRegionOffset := Nat.le_add_right _ _
  rw [contactIn, contactIn, hwindow _ _ (Nat.le_add_right _ _), hwindow _ _ (Nat.le_add_right _ _),
    hwindow _ _ (Nat.le_trans hkeys (Nat.le_add_right _ _))]

/-- **Writing a record.** The directory changes at its slot. -/
theorem held_written (hslot : slot ∈ slots) : held (written mem slot r)
    = Function.update (held mem) slot
      (if r.magic = contactRecordMagic then some (contactIn mem r) else none) := by
  funext slot'
  rw [held, contactIn_written hslot]
  by_cases heq : slot' = slot
  · subst heq
    rw [Function.update_self]
    by_cases hmagic : r.magic = contactRecordMagic
    · rw [if_pos ⟨hslot, occupied_written.mpr (by rw [if_pos rfl]; exact hmagic)⟩, if_pos hmagic,
        recordIn_written_self hmagic]
    · rw [if_neg hmagic, if_neg]
      rintro ⟨-, hocc⟩
      rw [occupied_written, if_pos rfl] at hocc
      exact hmagic hocc
  · rw [Function.update_of_ne heq, held, recordIn_written_of_ne heq]
    simp only [occupied_written, if_neg heq]

theorem Live.written (h : Live mem heap keys) (slot : UInt8) (hgood : GoodSlot r.asBytes)
    (hfits : r.magic = contactRecordMagic → Fits heap keys r) :
    Live (written mem slot r) heap keys where
  sound := h.sound.patch_record slot hgood
  heap_le := h.heap_le
  keys_le := h.keys_le
  fits slot' hslot' hocc := by
    rw [occupied_written] at hocc
    by_cases heq : slot' = slot
    · subst heq
      rw [if_pos rfl] at hocc
      rw [recordIn_written_self hocc]
      exact hfits hocc
    · rw [if_neg heq] at hocc
      rw [recordIn_written_of_ne heq]
      exact h.fits slot' hslot' hocc

end Written

/-! ## The directory is shown -/

/-- The index has one entry for every occupied slot. -/
structure IndexOf (mem : Memory) (index : ContactIndex) : Prop where
  nodup : index.slotsOf.Nodup
  mem_iff : ∀ slot, slot ∈ index.slotsOf ↔ slot ∈ slots ∧ Occupied mem slot

/-- The records, the index and the bump pointers of a store fit together. -/
structure Kept (memory : S → Memory) (s : ContactStore S C) : Prop where
  live : Live (memory s.storage) s.stringHeap.bump.toNat s.keyRegion.bump.toNat
  index : IndexOf (memory s.storage) s.index

theorem isActive_recordIn (h : Live mem heap keys) (hslot : slot ∈ slots) :
    (recordIn mem slot).isActive = true ↔ Occupied mem slot := by
  by_cases hocc : Occupied mem slot
  · exact iff_of_true (h.fits slot hslot hocc).active hocc
  · rw [recordIn, if_neg hocc]
    exact iff_of_false Bool.false_ne_true hocc

section Shown

variable (hf : hal.storage.Faithful contactStoreEnd memory)
include hf

theorem readRecord_of_sound (h : Sound (memory s.storage)) (hslot : slot ∈ slots) :
    readRecord hal s slot = .ok (recordIn (memory s.storage) slot) := by
  rw [readRecord_eq hf, recordIn]
  split_ifs with hocc
  · obtain ⟨hcrc, hload⟩ := h.slots slot hslot hocc
    exact ContactRecord.fromBytesVerified_of_loadable hcrc hload
  · rfl

/-- The references of a record that ends before the bump pointers can be read. -/
theorem contactOf_of_fits (h : Fits heap keys r) (hheap : heap ≤ stringHeapBytes)
    (hkeys : keys ≤ keyRegionBytes) : contactOf hal s r = .ok (contactIn (memory s.storage) r) := by
  have hstring : ∀ ref ∈ r.stringRefs, StringHeap.read hal.storage s.storage ref maxStringFieldBytes
      = .ok ((memory s.storage).window (stringHeapOffset + ref.offset.toNat) ref.len.toNat) :=
    fun ref href ↦ StringHeap.read_eq hf s.storage (h.short ref href)
      (Nat.le_trans (h.strings ref href) hheap)
  rw [contactOf, hstring r.email List.mem_cons_self, ok_bind,
    hstring r.displayName (List.mem_cons_of_mem _ List.mem_cons_self), ok_bind,
    KeyMaterialRegion.read_eq hf s.storage h.keyShort (h.key.imp_right (Nat.le_trans · hkeys)), ok_bind]
  rfl

theorem readContact_of_live (h : Live (memory s.storage) heap keys) (hslot : slot ∈ slots) :
    readContact hal s slot = .ok (held (memory s.storage) slot) := by
  rw [readContact, readRecord_of_sound hf h.sound hslot, ok_bind, held]
  by_cases hocc : Occupied (memory s.storage) slot
  · have hfits := h.fits slot hslot hocc
    rw [if_pos hfits.active, if_pos ⟨hslot, hocc⟩, contactOf_of_fits hf hfits h.heap_le h.keys_le]
    rfl
  · rw [if_neg (mt (isActive_recordIn h hslot).mp hocc), if_neg (hocc ·.2)]
    rfl

/-- The public key of a contact that needs no PIN. -/
theorem readPublicKey_of_live (h : Live (memory s.storage) heap keys) (hgate : s.integrityGate = true)
    (hslot : slot ∈ slots) {c : Contact} (hc : held (memory s.storage) slot = some c)
    (hpin : c.pinProtected = 0) :
    ∃ blob, readPublicKey hal s slot = .ok blob ∧ blob.bytes = c.publicKey := by
  rw [held, Option.ite_none_right_eq_some] at hc
  obtain ⟨⟨-, hocc⟩, hc⟩ := hc
  obtain rfl := Option.some.inj hc
  have hfits := h.fits slot hslot hocc
  have hkey := KeyMaterialRegion.read_eq hf s.storage hfits.keyShort
    (hfits.key.imp_right (Nat.le_trans · h.keys_le))
  have hpin : (recordIn (memory s.storage) slot).pinProtected = 0 := hpin
  refine ⟨⟨_, Nat.le_trans (Nat.le_of_eq Memory.length_window) hfits.keyShort⟩, ?_, rfl⟩
  rw [readPublicKey, if_neg (not_not_intro hgate), readRecord_of_sound hf h.sound hslot]
  simp only [ok_bind, hpin, ne_eq, not_true_eq_false, if_false, hkey]
  exact dif_pos _

/-- The list of an open store: the slots of the index, each with the fingerprint of its record. -/
theorem list_of_kept (h : Kept memory s) (hgate : s.integrityGate = true) :
    list hal s = .ok (s.index.slotsOf.map fun slot ↦
      .ok (slot, (recordIn (memory s.storage) slot).fingerprint)) := by
  have hslots : ∀ e ∈ s.index.entries, e.slot ∈ slots :=
    fun e he ↦ ((h.index.mem_iff e.slot).mp (List.mem_map_of_mem he)).1
  have hread : (s.index.entries.mapM fun e ↦ do
      let r ← readRecord hal s e.slot
      pure (e.slot, r.fingerprint))
      = (.ok (s.index.entries.map fun e ↦
          (e.slot, (recordIn (memory s.storage) e.slot).fingerprint)) :
        Except ContactStoreError (List (UInt8 × Block 32))) := by
    refine mapM_eq_ok fun e he ↦ ?_
    rw [readRecord_of_sound hf h.live.sound (hslots e he)]
    rfl
  rw [list, ensure, if_pos hgate, ok_bind, hread, ok_bind, ContactIndex.slotsOf, List.map_map,
    List.map_map]
  refine congrArg Except.ok (List.map_congr_left fun e he ↦ ?_)
  have hlt := mem_slots.mp (hslots e he)
  rw [Function.comp_apply, slotFromU8, if_neg (by rw [contactSlotCount_eq]; exact Nat.not_le.mpr hlt)]
  rfl

/-- An open store shows what its storage holds. -/
theorem Kept.shows (h : Kept memory s) (hgate : s.integrityGate = true) :
    Shows hal s (held (memory s.storage)) := by
  set item : UInt8 → UInt8 × Block 32 :=
    fun slot ↦ (slot, (recordIn (memory s.storage) slot).fingerprint)
  refine ⟨⟨s.index.slotsOf.map item, ?_, ?_, fun slot fingerprint ↦ ?_⟩,
    fun slot hslot ↦ readContact_of_live hf h.live hslot,
    fun slot hslot _ hc hpin ↦ readPublicKey_of_live hf h.live hgate hslot hc hpin⟩
  · rw [list_of_kept hf h hgate, List.map_map]
    rfl
  · rw [List.map_map]
    exact (List.map_id _).symm ▸ h.index.nodup
  · rw [List.mem_map]
    constructor
    · rintro ⟨slot, hslot, ⟨⟩⟩
      exact ⟨_, if_pos ((h.index.mem_iff slot).mp hslot), rfl⟩
    · rintro ⟨c, hc, rfl⟩
      rw [held, Option.ite_none_right_eq_some] at hc
      obtain ⟨hslot, hc⟩ := hc
      obtain rfl := Option.some.inj hc
      exact ⟨slot, (h.index.mem_iff slot).mpr hslot, rfl⟩

end Shown

/-! ## Booting

The boot scan takes the largest end of a reference of an active record, so the bump pointers it sets
are far enough again. The strings and keys of deleted records do not count. -/

theorem toNat_max (a b : UInt32) : (max a b).toNat = max a.toNat b.toNat := by
  rw [Nat.max_def]
  simp only [max, UInt32.le_iff_toNat_le]
  split_ifs <;> rfl

/-- A running maximum is no less than its start and than all that went into it. -/
theorem le_foldl_max {α : Type} (f : α → UInt32) (l : List α) : ∀ b : UInt32,
    b.toNat ≤ (l.foldl (fun b x ↦ max b (f x)) b).toNat ∧
      ∀ x ∈ l, (f x).toNat ≤ (l.foldl (fun b x ↦ max b (f x)) b).toNat := by
  induction l with
  | nil => exact fun b ↦ ⟨Nat.le_refl _, fun x hx ↦ absurd hx List.not_mem_nil⟩
  | cons x l ih =>
    intro b
    obtain ⟨hb, hl⟩ := ih (max b (f x))
    rw [toNat_max] at hb
    rw [List.foldl_cons, List.forall_mem_cons]
    exact ⟨by omega, by omega, hl⟩

/-- What a record adds to the scan. -/
def scanStep (bumps : UInt32 × UInt32) (r : ContactRecord) : UInt32 × UInt32 :=
  ((r.stringRefs.filter fun ref ↦ !ref.isEmpty).foldl
      (fun b ref ↦ max b (saturatingAdd ref.offset ref.len.toUInt32)) bumps.1,
    if r.keyLen > 0 then max bumps.2 (saturatingAdd r.keyOffset r.keyLen.toUInt32) else bumps.2)

theorem scanBumps_eq (records : List ContactRecord) :
    scanBumps records = (records.filter ContactRecord.isActive).foldl scanStep (0, 0) := rfl

/-- The ends of all references of a record have been scanned. -/
structure Scanned (bumps : UInt32 × UInt32) (r : ContactRecord) : Prop where
  strings : ∀ ref ∈ r.stringRefs,
    (saturatingAdd ref.offset ref.len.toUInt32).toNat ≤ bumps.1.toNat
  key : r.keyLen = 0 ∨ (saturatingAdd r.keyOffset r.keyLen.toUInt32).toNat ≤ bumps.2.toNat

theorem le_scanStep (bumps : UInt32 × UInt32) (r : ContactRecord) :
    bumps.1.toNat ≤ (scanStep bumps r).1.toNat ∧ bumps.2.toNat ≤ (scanStep bumps r).2.toNat := by
  refine ⟨(le_foldl_max _ _ _).1, ?_⟩
  rw [scanStep]
  split_ifs
  · rw [toNat_max]
    exact Nat.le_max_left _ _
  · exact Nat.le_refl _

theorem scanned_scanStep (bumps : UInt32 × UInt32) (r : ContactRecord) :
    Scanned (scanStep bumps r) r where
  strings ref href := by
    by_cases hempty : ref.isEmpty = true
    · rw [StringRef.isEmpty, Bool.and_eq_true, beq_iff_eq, beq_iff_eq] at hempty
      rw [hempty.1, hempty.2]
      exact Nat.zero_le _
    · refine (le_foldl_max (fun ref : StringRef ↦ saturatingAdd ref.offset ref.len.toUInt32) _ _).2
        ref (List.mem_filter.mpr ⟨href, ?_⟩)
      rwa [Bool.not_eq_true', ← Bool.not_eq_true]
  key := by
    rw [scanStep]
    split_ifs with hlen
    · rw [toNat_max]
      exact .inr (Nat.le_max_right _ _)
    · refine .inl (UInt16.toNat_inj.mp ?_)
      rw [gt_iff_lt, UInt16.lt_iff_toNat_lt] at hlen
      exact Nat.le_zero.mp (Nat.not_lt.mp hlen)

theorem Scanned.mono {bumps bumps' : UInt32 × UInt32} (h : Scanned bumps r)
    (hheap : bumps.1.toNat ≤ bumps'.1.toNat) (hkeys : bumps.2.toNat ≤ bumps'.2.toNat) :
    Scanned bumps' r where
  strings ref href := Nat.le_trans (h.strings ref href) hheap
  key := h.key.imp_right (Nat.le_trans · hkeys)

theorem scanned_foldl (records : List ContactRecord) : ∀ bumps : UInt32 × UInt32,
    bumps.1.toNat ≤ (records.foldl scanStep bumps).1.toNat ∧
      bumps.2.toNat ≤ (records.foldl scanStep bumps).2.toNat ∧
      ∀ r ∈ records, Scanned (records.foldl scanStep bumps) r := by
  induction records with
  | nil =>
    exact fun bumps ↦ ⟨Nat.le_refl _, Nat.le_refl _, fun r hr ↦ absurd hr List.not_mem_nil⟩
  | cons r records ih =>
    intro bumps
    obtain ⟨hheap, hkeys⟩ := le_scanStep bumps r
    obtain ⟨hheap', hkeys', hscanned⟩ := ih (scanStep bumps r)
    rw [List.foldl_cons, List.forall_mem_cons]
    exact ⟨Nat.le_trans hheap hheap', Nat.le_trans hkeys hkeys',
      (scanned_scanStep bumps r).mono hheap' hkeys', hscanned⟩

theorem scanned_scanBumps {records : List ContactRecord} (hr : r ∈ records)
    (hactive : r.isActive = true) : Scanned (scanBumps records) r := by
  rw [scanBumps_eq]
  exact (scanned_foldl _ (0, 0)).2.2 r (List.mem_filter.mpr ⟨hr, hactive⟩)

theorem toNat_setBump_heap (heap : StringHeap) (bump : UInt32) :
    (heap.setBump bump).bump.toNat = min bump.toNat stringHeapBytes := by
  rw [StringHeap.setBump]
  split_ifs with h
  · exact (Nat.min_eq_left h).symm
  · rw [Nat.min_eq_right (by omega)]
    rfl

theorem toNat_setBump_keys (keys : KeyMaterialRegion) (bump : UInt32) :
    (keys.setBump bump).bump.toNat = min bump.toNat keyRegionBytes := by
  rw [KeyMaterialRegion.setBump]
  split_ifs with h
  · exact (Nat.min_eq_left h).symm
  · rw [Nat.min_eq_right (by omega)]
    rfl

/-- The ends that were scanned lie before the bump pointers that are set. -/
theorem Fits.of_scanned {bumps : UInt32 × UInt32} (h : Fits heap keys r) (hscanned : Scanned bumps r)
    (hheap : heap ≤ stringHeapBytes) (hkeys : keys ≤ keyRegionBytes) :
    Fits (min bumps.1.toNat stringHeapBytes) (min bumps.2.toNat keyRegionBytes) r where
  active := h.active
  strings ref href := by
    have hend := h.strings ref href
    have hle := hscanned.strings ref href
    rw [toNat_saturatingAdd, UInt16.toNat_toUInt32] at hle
    rw [stringHeapBytes_eq] at hheap ⊢
    omega
  short := h.short
  key := by
    rcases hscanned.key with hzero | hle
    · exact .inl hzero
    rcases h.key with hzero | hend
    · exact .inl hzero
    rw [toNat_saturatingAdd, UInt16.toNat_toUInt32] at hle
    rw [keyRegionBytes_eq] at hkeys ⊢
    omega
  keyShort := h.keyShort

theorem nodup_slots : (slots : List UInt8).Nodup := by
  have hlt {n : ℕ} (hn : n ∈ List.range contactSlotCount) : n < 256 :=
    Nat.lt_of_lt_of_le (List.mem_range.mp hn) (by decide)
  rw [slots]
  refine List.Nodup.map_on (fun i hi j hj h ↦ ?_) List.nodup_range
  have hnat := congrArg UInt8.toNat h
  rwa [UInt8.toNat_ofNat_of_lt' (hlt hi), UInt8.toNat_ofNat_of_lt' (hlt hj)] at hnat

theorem length_map_slots {α : Type} (f : UInt8 → α) : (slots.map f).length = contactSlotCount := by
  rw [List.length_map, slots, List.length_map, List.length_range]

/-- A list over the slots, numbered. -/
theorem zipIdx_map_slots {α : Type} (f : UInt8 → α) : (slots.map f).zipIdx
    = (List.range contactSlotCount).map fun i ↦ (f (.ofNat i), i) := by
  rw [List.zipIdx_eq_zip_range', length_map_slots, slots, ← List.range_eq_range', List.map_map,
    List.map_prod_right_eq_zip]
  rfl

/-- The index that is rebuilt. -/
theorem indexOf_rebuild (h : Live mem heap keys) :
    IndexOf mem (.rebuildFromRecords (slots.map (recordIn mem))) := by
  have hperm := ContactIndex.slotsOf_rebuildFromRecords
    (Nat.le_of_eq (length_map_slots (recordIn mem)))
  have hfilter : ((slots.map (recordIn mem)).zipIdx.filter fun p ↦ p.1.isActive).map
      (fun p ↦ UInt8.ofNat p.2) = slots.filter fun slot ↦ (recordIn mem slot).isActive := by
    rw [zipIdx_map_slots, List.filter_map, List.map_map, slots, List.filter_map]
    rfl
  rw [hfilter] at hperm
  refine ⟨hperm.nodup_iff.mpr (nodup_slots.filter _), fun slot ↦ ?_⟩
  rw [hperm.mem_iff, List.mem_filter]
  exact and_congr_right fun hslot ↦ isActive_recordIn h hslot

/-- **Booting.** The bump pointers and the index of the boot scan fit the records. -/
theorem kept_of_live (h : Live (memory s.storage) heap keys)
    (hindex : s.index = .rebuildFromRecords (slots.map (recordIn (memory s.storage))))
    (hheap : s.stringHeap
      = StringHeap.new.setBump (scanBumps (slots.map (recordIn (memory s.storage)))).1)
    (hkeys : s.keyRegion
      = KeyMaterialRegion.new.setBump (scanBumps (slots.map (recordIn (memory s.storage)))).2) :
    Kept memory s := by
  refine ⟨⟨h.sound, ?_, ?_, fun slot hslot hocc ↦ ?_⟩, ?_⟩
  · rw [hheap, toNat_setBump_heap]
    exact Nat.min_le_right _ _
  · rw [hkeys, toNat_setBump_keys]
    exact Nat.min_le_right _ _
  · have hfits := h.fits slot hslot hocc
    rw [hheap, hkeys, toNat_setBump_heap, toNat_setBump_keys]
    exact hfits.of_scanned (scanned_scanBumps (List.mem_map_of_mem hslot) hfits.active) h.heap_le
      h.keys_le
  · rw [hindex]
    exact indexOf_rebuild h

end ContactStore

end Galdralag.Contacts
