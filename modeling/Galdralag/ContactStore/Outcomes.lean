import Galdralag.ContactStore.CrashSafety

/-!
# How the operations end

What an operation on the contacts answers is decided by its input and by the store before it: by the
gate, the slots, and how far the two bump pointers are from the ends of their regions. Here is every
way in which each operation ends, with the store that it leaves. What holds of all operations is
then a case analysis.
-/

set_option linter.all false

namespace Galdralag.Contacts

namespace ContactStore

open Fallible (bind_of_ok bind_of_error require_of)

variable {S C : Type} {hal : StorePlatform S C} {memory : S → Memory} {s s₁ s₂ : ContactStore S C}
  {slot : UInt8} {r : ContactRecord}

/-! ## Reading a record -/

theorem fromBytesVerified_errors {P : ContactStoreError → Prop} (hcorrupt : P .corruptRecord)
    (hremoved : P .removedBrainpoolP512) (halgo : P .invalidAlgo) (bytes : Bytes) :
    ErrorsIn P (ContactRecord.fromBytesVerified bytes) := by
  have hwire : ∀ b : UInt8, ErrorsIn P (KeyAlgo.fromWire b) := by
    intro b
    unfold KeyAlgo.fromWire
    split
    all_goals first | exact .ok _ | exact .error hremoved | exact .error halgo
  rw [ContactRecord.fromBytesVerified]
  dsimp only
  split_ifs
  · exact .error hcorrupt
  · exact (hwire _).bind fun _ ↦ .ok _
  · exact .ok _

/-- A record cannot be read when the storage fails or the record is not valid. -/
theorem readRecord_errors {P : ContactStoreError → Prop} (hread : P .storageRead)
    (hcorrupt : P .corruptRecord) (hremoved : P .removedBrainpoolP512) (halgo : P .invalidAlgo)
    (s : ContactStore S C) (slot : UInt8) : ErrorsIn P (readRecord hal s slot) := by
  refine (ErrorsIn.mapError (fun _ ↦ hread) _).bind fun buf ↦ ?_
  split_ifs
  · exact .ok _
  · exact fromBytesVerified_errors hcorrupt hremoved halgo buf

/-! ## Allocations that count -/

/-- Allocations that take up so many bytes of the heap and of the key region. -/
structure Allots (memory : S → Memory) (s s' : ContactStore S C) (strings keys : ℕ) : Prop where
  allocates : ∃ ws, Allocates memory s s' ws
  heap_eq : s'.stringHeap.bump.toNat = s.stringHeap.bump.toNat + strings
  keys_eq : s'.keyRegion.bump.toNat = s.keyRegion.bump.toNat + keys

theorem Allots.refl (s : ContactStore S C) : Allots memory s s 0 0 := ⟨⟨[], .refl s⟩, rfl, rfl⟩

theorem Allots.trans {m n k l : ℕ} (h₁ : Allots memory s s₁ m n) (h₂ : Allots memory s₁ s₂ k l) :
    Allots memory s s₂ (m + k) (n + l) where
  allocates := by
    obtain ⟨ws₁, halloc₁⟩ := h₁.allocates
    obtain ⟨ws₂, halloc₂⟩ := h₂.allocates
    exact ⟨ws₁ ++ ws₂, halloc₁.trans halloc₂⟩
  heap_eq := by rw [h₂.heap_eq, h₁.heap_eq, Nat.add_assoc]
  keys_eq := by rw [h₂.keys_eq, h₁.keys_eq, Nat.add_assoc]

/-- Key bytes for which there is room. -/
structure KeyTaken (s : ContactStore S C) (keyBytes : Bytes) : Prop where
  length_le : keyBytes.length ≤ maxPublicKeyBytes
  room : s.keyRegion.bump.toNat + keyBytes.length ≤ keyRegionBytes

instance (s : ContactStore S C) (keyBytes : Bytes) : Decidable (KeyTaken s keyBytes) :=
  decidable_of_iff (keyBytes.length ≤ maxPublicKeyBytes ∧
      s.keyRegion.bump.toNat + keyBytes.length ≤ keyRegionBytes)
    ⟨fun h ↦ ⟨h.1, h.2⟩, fun h ↦ ⟨h.length_le, h.room⟩⟩

/-- A string for which there is room in a heap that is used up to `heap`. -/
structure StringTaken (heap : ℕ) (bytes : Bytes) : Prop where
  length_le : bytes.length ≤ maxStringFieldBytes
  room : heap + bytes.length ≤ stringHeapBytes

instance (heap : ℕ) (bytes : Bytes) : Decidable (StringTaken heap bytes) :=
  decidable_of_iff (bytes.length ≤ maxStringFieldBytes ∧ heap + bytes.length ≤ stringHeapBytes)
    ⟨fun h ↦ ⟨h.1, h.2⟩, fun h ↦ ⟨h.length_le, h.room⟩⟩

/-- Why a key is refused. -/
def keyRefusal (keyBytes : Bytes) : ContactStoreError :=
  if keyBytes.length ≤ maxPublicKeyBytes then .heapFull else .keyTooLarge

/-- Why a string is refused. -/
def stringRefusal (bytes : Bytes) : ContactStoreError :=
  if bytes.length ≤ maxStringFieldBytes then .heapFull else .stringTooLong

theorem toNat_keyLength {keyBytes : Bytes} (h : keyBytes.length ≤ maxPublicKeyBytes) :
    (UInt16.ofNat keyBytes.length).toNat = keyBytes.length :=
  toNat_ofNat_length (Nat.lt_of_le_of_lt h (by decide))

theorem toNat_stringLength {bytes : Bytes} (h : bytes.length ≤ maxStringFieldBytes) :
    (UInt16.ofNat bytes.length).toNat = bytes.length :=
  toNat_ofNat_length (Nat.lt_of_le_of_lt h (by decide))

theorem allocKey_refused {keyBytes : Bytes} (h : ¬ KeyTaken s keyBytes) :
    allocKey hal keyBytes s = (.error (keyRefusal keyBytes), s) := by
  refine allocKey_of_full fun hroom ↦ h ⟨hroom.1, ?_⟩
  rw [← toNat_keyLength hroom.1]
  exact hroom.2

theorem allocString_refused {bytes : Bytes} (h : ¬ StringTaken s.stringHeap.bump.toNat bytes) :
    allocString hal bytes s = (.error (stringRefusal bytes), s) := by
  refine allocString_of_full fun hroom ↦ h ⟨hroom.1, ?_⟩
  rw [← toNat_stringLength hroom.1]
  exact hroom.2

/-- What an allocation has done, if it has not failed. -/
theorem Allocating.of_ok {α : Type} {m : StoreM S C α} {m' : StoreM (S × ℕ) C α} {n : ℕ}
    {P : α → ContactStore S C → Prop} (h : Allocating memory m m' s n P) {a : α}
    (hok : m s = (.ok a, s₁)) : (∃ ws, Allocates memory s s₁ ws) ∧ P a s₁ := by
  rcases h with ⟨e, s', ws, hrun, -⟩ | ⟨b, _, _, ws, _, -, halloc, hrun, -, rfl, hP⟩
  · cases hrun.run.symm.trans hok
  · obtain ⟨hb, rfl⟩ := Prod.mk.inj (hrun.run.symm.trans hok)
    obtain rfl := Except.ok.inj hb
    exact ⟨⟨ws, halloc⟩, hP⟩

section Steps

variable (hf : hal.storage.Faithful contactStoreEnd memory)
include hf

theorem allocKey_taken {keyBytes : Bytes} (h : KeyTaken s keyBytes) :
    ∃ s₁, allocKey hal keyBytes s = (.ok (s.keyRegion.bump, .ofNat keyBytes.length), s₁) ∧
      Allots memory s s₁ 0 keyBytes.length ∧
      KeyAt memory s₁ (s.keyRegion.bump, .ofNat keyBytes.length) keyBytes := by
  have hlen := toNat_keyLength h.length_le
  have hroom := h.room
  have hend : keyRegionOffset + s.keyRegion.bump.toNat + keyBytes.length ≤ contactStoreEnd := by
    rw [keyRegionBytes_eq] at hroom
    rw [keyRegionOffset_eq, contactStoreEnd_eq]
    omega
  obtain ⟨x, hwrite⟩ := Runs.write hf s hend
  have hpush : pushKey hal s.keyRegion.bump keyBytes s
      = (.ok (s.keyRegion.bump, .ofNat keyBytes.length),
        { s with
          storage := x
          keyRegion := ⟨saturatingAdd s.keyRegion.bump (UInt16.ofNat keyBytes.length).toUInt32⟩ }) := by
    rw [pushKey, bind_of_ok hwrite.run]
    rfl
  have hok := (allocKey_of_room h.length_le (by rwa [hlen])).trans hpush
  obtain ⟨halloc, hat⟩ := (allocKey_allocating hf s keyBytes).of_ok hok
  refine ⟨_, hok, ⟨halloc, rfl, ?_⟩, hat⟩
  rw [keyRegionBytes_eq] at hroom
  rw [toNat_saturatingAdd, UInt16.toNat_toUInt32, hlen]
  omega

theorem allocString_taken {bytes : Bytes} (h : StringTaken s.stringHeap.bump.toNat bytes) :
    ∃ s₁, allocString hal bytes s = (.ok ⟨s.stringHeap.bump, .ofNat bytes.length⟩, s₁) ∧
      Allots memory s s₁ bytes.length 0 ∧
      StringAt memory s₁ ⟨s.stringHeap.bump, .ofNat bytes.length⟩ bytes := by
  have hlen := toNat_stringLength h.length_le
  have hroom := h.room
  have hend : stringHeapOffset + s.stringHeap.bump.toNat + bytes.length ≤ contactStoreEnd := by
    rw [stringHeapBytes_eq] at hroom
    rw [stringHeapOffset_eq, contactStoreEnd_eq]
    omega
  obtain ⟨x, hwrite⟩ := Runs.write hf s hend
  have hpush : pushString hal s.stringHeap.bump bytes s
      = (.ok ⟨s.stringHeap.bump, .ofNat bytes.length⟩,
        { s with
          storage := x
          stringHeap := ⟨saturatingAdd s.stringHeap.bump (UInt16.ofNat bytes.length).toUInt32⟩ }) := by
    rw [pushString, bind_of_ok hwrite.run]
    rfl
  have hok := (allocString_of_room h.length_le (by rwa [hlen])).trans hpush
  obtain ⟨halloc, hat⟩ := (allocString_allocating hf s bytes).of_ok hok
  refine ⟨_, hok, ⟨halloc, ?_, rfl⟩, hat⟩
  rw [stringHeapBytes_eq] at hroom
  rw [toNat_saturatingAdd, UInt16.toNat_toUInt32, hlen]
  omega

/-- A string that may be missing is stored, or refused. -/
theorem allocOption_cases (bytes : Option Bytes) (ref : StringRef) :
    (∃ b, bytes = some b ∧ ¬ StringTaken s.stringHeap.bump.toNat b ∧
      bytes.elim (pure ref) (allocString hal) s = (.error (stringRefusal b), s)) ∨
    ∃ ref' s₁, bytes.elim (pure ref) (allocString hal) s = (.ok ref', s₁) ∧
      Allots memory s s₁ (bytes.getD []).length 0 ∧
      (∀ b, bytes = some b → StringTaken s.stringHeap.bump.toNat b ∧
        ref'.offset = s.stringHeap.bump ∧ StringAt memory s₁ ref' b) ∧
      (bytes = none → ref' = ref) := by
  rcases bytes with _ | bytes
  · refine .inr ⟨ref, s, rfl, .refl s, fun b h ↦ ?_, fun _ ↦ rfl⟩
    cases h
  by_cases htaken : StringTaken s.stringHeap.bump.toNat bytes
  · obtain ⟨s₁, hrun, halloc, hat⟩ := allocString_taken hf htaken
    refine .inr ⟨_, s₁, hrun, halloc, fun b h ↦ ?_, fun h ↦ ?_⟩
    · obtain rfl := Option.some.inj h
      exact ⟨htaken, rfl, hat⟩
    · cases h
  · exact .inl ⟨bytes, rfl, htaken, allocString_refused htaken⟩

end Steps

/-! ## The record and the register -/

/-- Refreshing the register changes nothing else. -/
theorem updateIntegrity_rest {t : ContactStore S C} (h : updateIntegrity hal s = (.ok ⟨⟩, t)) :
    t = { s with storage := t.storage, integrityRegister := t.integrityRegister } := by
  simp only [updateIntegrity, persistIntegrityRegister, storing, Fallible.bind_eq_ok,
    Fallible.reading_eq_ok, Fallible.modify_eq_ok, Fallible.gets_apply, Prod.mk.injEq,
    Except.ok.injEq, Fallible.zoom_eq_ok] at h
  obtain ⟨d, _, ⟨-, rfl⟩, _, _, rfl, _, _, ⟨-, rfl⟩, x, -, rfl⟩ := h
  rfl

section Commit

variable (hf : hal.storage.Faithful contactStoreEnd memory)
include hf

/-- From `s` on, a record is written, the index replaced, and the register refreshed. -/
theorem commit_run {index : ContactIndex}
    (hwritten : Live (written (memory s.storage) slot r) s.stringHeap.bump.toNat
      s.keyRegion.bump.toNat)
    (hkey : Keyed hal s) (hindex : IndexOf (written (memory s.storage) slot r) index) :
    ∃ x d s', writeRecord hal slot r s = (.ok ⟨⟩, { s with storage := x }) ∧
      updateIntegrity hal { s with storage := x, index := index } = (.ok ⟨⟩, s') ∧
      Commits hal memory s s' slot r d ∧
      s' = { s with
        storage := s'.storage, index := index, integrityRegister := s'.integrityRegister } := by
  obtain ⟨x, hwrite⟩ := writeRecord_runs hf s slot r
  obtain ⟨d, s', hupdate, hcommits⟩ :=
    updateIntegrity_commits hf hwritten hkey hwrite.memory_eq hindex
  exact ⟨x, d, s', hwrite.run, hupdate.run, hcommits, updateIntegrity_rest hupdate.run⟩

end Commit

/-! ## Insertion -/

/-- The slot that an insertion finds. -/
def freeSlot (hal : StorePlatform S C) (s : ContactStore S C) (own : Bool) :
    Except ContactStoreError UInt8 :=
  if own then findEmptyOwnSlot hal s else findEmptyRecipientSlot hal s

/-- The flags of a new contact. -/
def newFlags (input : NewContact) : ContactFlags :=
  .fromBitsTruncate (if input.ownIdentity then ContactFlags.active.union .selfKey else .active).bits

/-- **The ends of an insertion.** -/
inductive InsertOutcome (hal : StorePlatform S C) (memory : S → Memory) (s : ContactStore S C)
    (input : NewContact) : Except ContactStoreError UInt8 × ContactStore S C → Prop where
  | closed (hgate : s.integrityGate = false) :
    InsertOutcome hal memory s input (.error .notInitialised, s)
  | full {e : ContactStoreError} (hgate : s.integrityGate = true)
    (hslot : freeSlot hal s input.ownIdentity = .error e) :
    InsertOutcome hal memory s input (.error e, s)
  | keyRefused {slot : UInt8} (hgate : s.integrityGate = true)
    (hslot : freeSlot hal s input.ownIdentity = .ok slot) (hkey : ¬ KeyTaken s input.publicKey) :
    InsertOutcome hal memory s input (.error (keyRefusal input.publicKey), s)
  | unverified {slot : UInt8} {s₁ : ContactStore S C} {e : ContactStoreError}
    (hgate : s.integrityGate = true) (hslot : freeSlot hal s input.ownIdentity = .ok slot)
    (hkey : KeyTaken s input.publicKey) (hpin : pinFields input = .error e)
    (halloc : Allots memory s s₁ 0 input.publicKey.length) :
    InsertOutcome hal memory s input (.error e, s₁)
  | emailRefused {slot : UInt8} {s₁ : ContactStore S C} {pin : Block 32 × Block 12 × Block 16}
    (hgate : s.integrityGate = true) (hslot : freeSlot hal s input.ownIdentity = .ok slot)
    (hkey : KeyTaken s input.publicKey) (hpin : pinFields input = .ok pin)
    (hemail : ¬ StringTaken s.stringHeap.bump.toNat input.email)
    (halloc : Allots memory s s₁ 0 input.publicKey.length) :
    InsertOutcome hal memory s input (.error (stringRefusal input.email), s₁)
  | nameRefused {slot : UInt8} {s₁ : ContactStore S C} {pin : Block 32 × Block 12 × Block 16}
    {name : Bytes} (hgate : s.integrityGate = true)
    (hslot : freeSlot hal s input.ownIdentity = .ok slot) (hkey : KeyTaken s input.publicKey)
    (hpin : pinFields input = .ok pin) (hemail : StringTaken s.stringHeap.bump.toNat input.email)
    (hsome : input.displayName = some name)
    (hname : ¬ StringTaken (s.stringHeap.bump.toNat + input.email.length) name)
    (halloc : Allots memory s s₁ input.email.length input.publicKey.length) :
    InsertOutcome hal memory s input (.error (stringRefusal name), s₁)
  | done {slot : UInt8} {s₁ s' : ContactStore S C} {pin : Block 32 × Block 12 × Block 16}
    {email name : StringRef} {d : Block 32} (hgate : s.integrityGate = true)
    (hslot : freeSlot hal s input.ownIdentity = .ok slot) (hkey : KeyTaken s input.publicKey)
    (hpin : pinFields input = .ok pin) (hemail : StringTaken s.stringHeap.bump.toNat input.email)
    (hname : ∀ bytes, input.displayName = some bytes →
      StringTaken (s.stringHeap.bump.toNat + input.email.length) bytes ∧
        name.offset.toNat = s.stringHeap.bump.toNat + input.email.length)
    (halloc : Allots memory s s₁ (input.email.length + (input.displayName.getD []).length)
      input.publicKey.length)
    (hkeyAt : KeyAt memory s₁ (s.keyRegion.bump, .ofNat input.publicKey.length) input.publicKey)
    (hemailAt : StringAt memory s₁ email input.email) (hoffset : email.offset.toNat = s.stringHeap.bump.toNat)
    (hnameAt : StringAt memory s₁ name (input.displayName.getD []))
    (hindex : s.index.insert input.fingerprint slot (newFlags input) = .ok s'.index)
    (hcommits : Commits hal memory s₁ s' slot
      (newRecord input (s.keyRegion.bump, .ofNat input.publicKey.length) pin email
        name).recomputeCrc d)
    (hrest : s' = { s₁ with
      storage := s'.storage, index := s'.index, integrityRegister := s'.integrityRegister }) :
    InsertOutcome hal memory s input (.ok slot, s')

section Insert

variable (hf : hal.storage.Faithful contactStoreEnd memory)
include hf

theorem freeSlot_ok {own : Bool} (h : freeSlot hal s own = .ok slot) :
    slot ∈ slots ∧ ¬ Occupied (memory s.storage) slot := by
  rw [freeSlot] at h
  split_ifs at h
  · exact (findEmptySlot_ok hf h).imp_left List.mem_of_mem_take
  · exact (findEmptySlot_ok hf h).imp_left List.mem_of_mem_drop

/-- If none is found, none is free. -/
theorem freeSlot_error {own : Bool} {e : ContactStoreError} (h : freeSlot hal s own = .error e) :
    e = .recipientSlotsFull := by
  have hsearch : ∀ l : List UInt8, findEmptySlot hal s l = .error e → e = .recipientSlotsFull := by
    intro l hl
    induction l with
    | nil => exact (Except.error.inj hl).symm
    | cons first l ih =>
      rw [findEmptySlot_cons hf] at hl
      split_ifs at hl
      exact ih hl
  rw [freeSlot] at h
  split_ifs at h
  · exact hsearch _ h
  · exact hsearch _ h

/-- One is found if there is one among those that are searched. -/
theorem freeSlot_of_free {own : Bool}
    (hslot : slot ∈ if own then slots.take recipientSlotStart else slots.drop recipientSlotStart)
    (hfree : ¬ Occupied (memory s.storage) slot) : ∃ slot', freeSlot hal s own = .ok slot' := by
  rw [freeSlot]
  split_ifs at hslot ⊢
  · exact findEmptySlot_of_free hf hslot hfree
  · exact findEmptySlot_of_free hf hslot hfree

theorem insert_outcome (input : NewContact) (hkept : Kept memory s) (hkeyed : Keyed hal s) :
    InsertOutcome hal memory s input (insert hal input s) := by
  have hheap := hkept.live.heap_le
  rcases Bool.eq_false_or_eq_true s.integrityGate with hgate | hgate
  swap
  · rw [insert, bind_of_error (gate_of_closed hgate)]
    exact .closed hgate
  rw [insert, bind_of_ok (gate_of_open hgate)]
  rcases hslot : freeSlot hal s input.ownIdentity with e | slot
  · rw [bind_of_error (by rw [Fallible.reading_apply, ← freeSlot, hslot])]
    exact .full hgate hslot
  rw [bind_of_ok (by rw [Fallible.reading_apply, ← freeSlot, hslot])]
  by_cases hkey : KeyTaken s input.publicKey
  swap
  · rw [bind_of_error (allocKey_refused hkey)]
    exact .keyRefused hgate hslot hkey
  obtain ⟨s₁, hrun₁, halloc₁, hkeyAt⟩ := allocKey_taken hf hkey
  rw [bind_of_ok hrun₁]
  rcases hpin : pinFields input with e | pin
  · rw [bind_of_error (Fallible.lift_apply _ _)]
    exact .unverified hgate hslot hkey hpin halloc₁
  rw [bind_of_ok (Fallible.lift_apply _ _)]
  have hheap₁ : s₁.stringHeap.bump.toNat = s.stringHeap.bump.toNat := halloc₁.heap_eq
  by_cases hemail : StringTaken s.stringHeap.bump.toNat input.email
  swap
  · rw [bind_of_error (allocString_refused (by rwa [hheap₁]))]
    exact .emailRefused hgate hslot hkey hpin hemail halloc₁
  obtain ⟨s₂, hrun₂, halloc₂, hemailAt⟩ : ∃ s₂, allocString hal input.email s₁
        = (.ok ⟨s₁.stringHeap.bump, .ofNat input.email.length⟩, s₂) ∧
      Allots memory s₁ s₂ input.email.length 0 ∧
      StringAt memory s₂ ⟨s₁.stringHeap.bump, .ofNat input.email.length⟩ input.email :=
    allocString_taken hf (by rwa [hheap₁])
  rw [bind_of_ok hrun₂]
  have halloc₁₂ : Allots memory s s₂ (0 + input.email.length) (input.publicKey.length + 0) :=
    halloc₁.trans halloc₂
  rw [Nat.zero_add, Nat.add_zero] at halloc₁₂
  have hheap₂ := halloc₁₂.heap_eq
  rcases allocOption_cases hf (s := s₂) input.displayName .default with
    ⟨name, hsome, hname, hrun₃⟩ | ⟨name, s₃, hrun₃, halloc₃, hname, hnone⟩
  · rw [bind_of_error hrun₃]
    rw [hheap₂] at hname
    exact .nameRefused hgate hslot hkey hpin hemail hsome hname halloc₁₂
  rw [bind_of_ok hrun₃]
  have hnameAt : StringAt memory s₃ name (input.displayName.getD []) := by
    rcases hsome : input.displayName with _ | bytes
    · rw [hnone hsome]
      exact stringAt_default memory s₃
    · exact (hname bytes hsome).2.2
  -- all allocations are made, and what they stored is still there
  have halloc : Allots memory s s₃ (input.email.length + (input.displayName.getD []).length)
      (input.publicKey.length + 0) := halloc₁₂.trans halloc₃
  obtain ⟨ws, hws⟩ := halloc.allocates
  obtain ⟨ws₁, hws₁⟩ := halloc₁.allocates
  obtain ⟨ws₃, hws₃⟩ := halloc₃.allocates
  obtain ⟨ws₂₃, hws₂₃⟩ := (halloc₂.trans halloc₃).allocates
  obtain ⟨ws₁₂, hws₁₂⟩ := halloc₁₂.allocates
  have hkeyAt := hkeyAt.of_allocates hws₂₃ (hws₁.heap_max hheap)
  have hemailAt := hemailAt.of_allocates hws₃ (hws₁₂.heap_max hheap)
  have hkept₃ := hws.kept hkept
  obtain ⟨hmem, hfree⟩ := freeSlot_ok hf hslot
  have hfree₃ : ¬ Occupied (memory s₃.storage) slot :=
    mt (occupied_congr (hws.intact hheap) hmem).mp hfree
  set r := (newRecord input (s.keyRegion.bump, .ofNat input.publicKey.length) pin
    ⟨s₁.stringHeap.bump, .ofNat input.email.length⟩ name).recomputeCrc with hr
  obtain ⟨index, hinsert, hindex⟩ :=
    hkept₃.index.insert (r := r) hmem hfree₃ rfl input.fingerprint (newFlags input)
  have hwritten := hkept₃.live.written slot
    (goodSlot_recomputeCrc (loadable_newRecord input _ pin _ name))
    fun _ ↦ fits_newRecord hkeyAt hemailAt hnameAt
  obtain ⟨x, d, s', hwrite, hupdate, hcommits, hrest⟩ :=
    commit_run hf hwritten (hkeyed.congr hws.masterKey) hindex
  have hpick : (Fallible.reading fun s ↦ s.index.insert r.fingerprint slot r.contactFlags :
      StoreM S C ContactIndex) { s₃ with storage := x } = (.ok index, { s₃ with storage := x }) := by
    rw [← hinsert]
    rfl
  rw [bind_of_ok hwrite, bind_of_ok hpick, Fallible.modify_bind, bind_of_ok hupdate,
    Fallible.pure_apply]
  rw [hws.index] at hinsert
  have hindex' : s'.index = index := by rw [hrest]
  rw [← hindex'] at hinsert hrest
  refine .done hgate hslot hkey hpin hemail (fun bytes hsome ↦ ?_) halloc hkeyAt hemailAt hheap₁
    hnameAt hinsert hcommits hrest
  rw [← hheap₂]
  exact ⟨(hname bytes hsome).1, congrArg UInt32.toNat (hname bytes hsome).2.1⟩

/-- What an insertion without a name needs to succeed. -/
theorem insert_accepted {input : NewContact} {pin : Block 32 × Block 12 × Block 16}
    (hkept : Kept memory s) (hkeyed : Keyed hal s) (hgate : s.integrityGate = true)
    (hslot : freeSlot hal s input.ownIdentity = .ok slot) (hkey : KeyTaken s input.publicKey)
    (hpin : pinFields input = .ok pin)
    (hemail : StringTaken s.stringHeap.bump.toNat input.email) (hname : input.displayName = none) :
    (insert hal input s).1 = .ok slot := by
  have hend := insert_outcome hf input hkept hkeyed
  generalize insert hal input s = res at hend ⊢
  cases hend with
  | closed hclosed => exact absurd (hgate.symm.trans hclosed) (by decide)
  | full _ hfull => cases hslot.symm.trans hfull
  | keyRefused _ _ hrefused => exact absurd hkey hrefused
  | unverified _ _ _ hunverified => cases hpin.symm.trans hunverified
  | emailRefused _ _ _ _ hrefused => exact absurd hemail hrefused
  | nameRefused _ _ _ _ _ hsome => cases hname.symm.trans hsome
  | done _ hfound => exact congrArg Except.ok (Except.ok.inj (hfound.symm.trans hslot))

end Insert

/-! ## Update -/

/-- **The ends of an update** of one of the slots. -/
inductive UpdateOutcome (hal : StorePlatform S C) (memory : S → Memory) (s : ContactStore S C)
    (slot : UInt8) (upd : ContactUpdate) :
    Except ContactStoreError PUnit × ContactStore S C → Prop where
  | closed (hgate : s.integrityGate = false) :
    UpdateOutcome hal memory s slot upd (.error .notInitialised, s)
  | vacant (hgate : s.integrityGate = true) (hfree : ¬ Occupied (memory s.storage) slot) :
    UpdateOutcome hal memory s slot upd (.error .invalidSlot, s)
  | emailRefused {email : Bytes} (hgate : s.integrityGate = true)
    (hocc : Occupied (memory s.storage) slot) (hsome : upd.email = some email)
    (hemail : ¬ StringTaken s.stringHeap.bump.toNat email) :
    UpdateOutcome hal memory s slot upd (.error (stringRefusal email), s)
  | nameRefused {s₁ : ContactStore S C} {name : Bytes} (hgate : s.integrityGate = true)
    (hocc : Occupied (memory s.storage) slot)
    (hemail : ∀ bytes, upd.email = some bytes → StringTaken s.stringHeap.bump.toNat bytes)
    (hsome : upd.displayName = some name)
    (hname : ¬ StringTaken (s.stringHeap.bump.toNat + (upd.email.getD []).length) name)
    (halloc : Allots memory s s₁ (upd.email.getD []).length 0) :
    UpdateOutcome hal memory s slot upd (.error (stringRefusal name), s₁)
  | done {s₁ s' : ContactStore S C} {email name : StringRef} {d : Block 32}
    (hgate : s.integrityGate = true) (hocc : Occupied (memory s.storage) slot)
    (hemail : ∀ bytes, upd.email = some bytes → StringTaken s.stringHeap.bump.toNat bytes ∧
      email.offset.toNat = s.stringHeap.bump.toNat ∧ email.len.toNat = bytes.length)
    (hemailKept : upd.email = none → email = (recordIn (memory s.storage) slot).email)
    (hname : ∀ bytes, upd.displayName = some bytes →
      StringTaken (s.stringHeap.bump.toNat + (upd.email.getD []).length) bytes ∧
      name.offset.toNat = s.stringHeap.bump.toNat + (upd.email.getD []).length ∧
      name.len.toNat = bytes.length)
    (hnameKept : upd.displayName = none → name = (recordIn (memory s.storage) slot).displayName)
    (halloc : Allots memory s s₁ ((upd.email.getD []).length + (upd.displayName.getD []).length) 0)
    (hindex : s'.index = upd.stale.elim s.index fun stale ↦
      s.index.updateFlags slot (staleFlags (recordIn (memory s.storage) slot) stale))
    (hcommits : Commits hal memory s₁ s' slot
      (updatedRecord upd (recordIn (memory s.storage) slot) email name).recomputeCrc d)
    (hrest : s' = { s₁ with
      storage := s'.storage, index := s'.index, integrityRegister := s'.integrityRegister }) :
    UpdateOutcome hal memory s slot upd (.ok ⟨⟩, s')

/-- An update in one line of steps. -/
theorem update_eq (slot : UInt8) (upd : ContactUpdate) : update hal slot upd = (do
    gate
    let r ← .reading fun s ↦ readRecord hal s slot
    .require (r.isActive = true) .invalidSlot
    let email ← upd.email.elim (pure r.email) (allocString hal)
    let name ← upd.displayName.elim (pure r.displayName) (allocString hal)
    .modify fun s ↦ { s with
      index := upd.stale.elim s.index fun stale ↦ s.index.updateFlags slot (staleFlags r stale) }
    writeRecord hal slot (updatedRecord upd r email name).recomputeCrc
    updateIntegrity hal) := by
  rcases upd with ⟨_, _, email, name, _, stale⟩
  refine congrArg (gate >>= ·) (funext fun _ ↦ congrArg (Fallible.reading _ >>= ·) (funext fun r ↦
    congrArg (Fallible.require _ _ >>= ·) (funext fun _ ↦ ?_)))
  rcases email with _ | email
  · rcases name with _ | name
    · rcases stale with _ | stale <;> rfl
    · refine (Fallible.bind_assoc _ _ _).trans
        (congrArg (allocString hal name >>= ·) (funext fun ref ↦ ?_))
      rcases stale with _ | stale <;> rfl
  · refine (Fallible.bind_assoc _ _ _).trans
      (congrArg (allocString hal email >>= ·) (funext fun ref ↦ ?_))
    rcases name with _ | name
    · rcases stale with _ | stale <;> rfl
    · refine (Fallible.bind_assoc _ _ _).trans
        (congrArg (allocString hal name >>= ·) (funext fun ref ↦ ?_))
      rcases stale with _ | stale <;> rfl

section Update

variable (hf : hal.storage.Faithful contactStoreEnd memory)
include hf

theorem update_outcome (upd : ContactUpdate) (hkept : Kept memory s) (hkeyed : Keyed hal s)
    (hslot : slot ∈ slots) : UpdateOutcome hal memory s slot upd (update hal slot upd s) := by
  have hlive := hkept.live
  rcases Bool.eq_false_or_eq_true s.integrityGate with hgate | hgate
  swap
  · rw [update, bind_of_error (gate_of_closed hgate)]
    exact .closed hgate
  rw [update_eq, bind_of_ok (gate_of_open hgate),
    bind_of_ok (by rw [Fallible.reading_apply, readRecord_of_sound hf hlive.sound hslot])]
  by_cases hocc : Occupied (memory s.storage) slot
  swap
  · have hinactive := mt (isActive_recordIn hlive hslot).mp hocc
    rw [bind_of_error (by rw [Fallible.require, if_neg hinactive, Fallible.fail_apply])]
    exact .vacant hgate hocc
  have hactive := (isActive_recordIn hlive hslot).mpr hocc
  rw [bind_of_ok (require_of hactive _ _)]
  set r := recordIn (memory s.storage) slot with hr
  have hfits : Fits s.stringHeap.bump.toNat s.keyRegion.bump.toNat r := hlive.fits slot hslot hocc
  have hold : ∀ ref ∈ r.stringRefs, StringAt memory s ref _ :=
    fun ref href ↦ ⟨rfl, hfits.strings ref href, hfits.short ref href⟩
  rcases allocOption_cases hf upd.email r.email with
    ⟨email, hsome, hemail, hrun⟩ | ⟨email, s₁, hrun₁, halloc₁, hemail, hemailKept⟩
  · rw [bind_of_error hrun]
    exact .emailRefused hgate hocc hsome hemail
  rw [bind_of_ok hrun₁]
  have hheap₁ := halloc₁.heap_eq
  rcases allocOption_cases hf (s := s₁) upd.displayName r.displayName with
    ⟨name, hsome, hname, hrun⟩ | ⟨name, s₂, hrun₂, halloc₂, hname, hnameKept⟩
  · rw [bind_of_error hrun]
    rw [hheap₁] at hname
    exact .nameRefused hgate hocc (fun b hb ↦ (hemail b hb).1) hsome hname halloc₁
  rw [bind_of_ok hrun₂, Fallible.modify_bind]
  -- all allocations are made; what is left is the flag in the index, the record and the register
  have halloc := halloc₁.trans halloc₂
  obtain ⟨ws, hws⟩ := halloc.allocates
  obtain ⟨ws₁, hws₁⟩ := halloc₁.allocates
  obtain ⟨ws₂, hws₂⟩ := halloc₂.allocates
  have hmax₁ := hws₁.heap_max hlive.heap_le
  have hemailAt : ∃ e, StringAt memory s₂ email e := by
    rcases hsome : upd.email with _ | bytes
    · rw [hemailKept hsome]
      exact ⟨_, (hold r.email List.mem_cons_self).of_allocates hws hlive.heap_le⟩
    · exact ⟨_, (hemail bytes hsome).2.2.of_allocates hws₂ hmax₁⟩
  have hnameAt : ∃ n, StringAt memory s₂ name n := by
    rcases hsome : upd.displayName with _ | bytes
    · rw [hnameKept hsome]
      exact ⟨_, (hold r.displayName (List.mem_cons_of_mem _ List.mem_cons_self)).of_allocates hws
        hlive.heap_le⟩
    · exact ⟨_, (hname bytes hsome).2.2⟩
  obtain ⟨_, hemailAt⟩ := hemailAt
  obtain ⟨_, hnameAt⟩ := hnameAt
  have hkept₂ := hws.kept hkept
  have hfits₂ : Fits s₂.stringHeap.bump.toNat s₂.keyRegion.bump.toNat
      (updatedRecord upd r email name).recomputeCrc :=
    fits_updatedRecord (hfits.mono hws.heap_le hws.keys_le) hemailAt hnameAt
  have hmagic : (updatedRecord upd r email name).recomputeCrc.magic = contactRecordMagic :=
    beq_iff_eq.mp (Bool.and_eq_true_iff.mp hactive).1
  have hocc₂ : Occupied (memory s₂.storage) slot :=
    (occupied_congr (hws.intact hlive.heap_le) hslot).mpr hocc
  have hload : r.Loadable := readRecord_ok (readRecord_of_sound hf hlive.sound hslot)
  have hgood : GoodSlot (updatedRecord upd r email name).recomputeCrc.asBytes :=
    goodSlot_recomputeCrc fun _ ↦ hload hactive
  set index := upd.stale.elim s₂.index fun stale ↦ s₂.index.updateFlags slot (staleFlags r stale)
    with hindex
  have hindexOf : IndexOf (memory s₂.storage) index := by
    rw [hindex]
    rcases upd.stale with _ | stale
    · exact hkept₂.index
    · exact hkept₂.index.updateFlags slot _
  obtain ⟨x, d, s', hwrite, hupdate, hcommits, hrest⟩ :=
    commit_run hf (s := { s₂ with index := index }) (hkept₂.live.written slot hgood fun _ ↦ hfits₂)
      (hkeyed.congr hws.masterKey) (hindexOf.rewrite hocc₂ hmagic)
  rw [bind_of_ok hwrite, hupdate]
  have hs' : s'.index = index := by rw [hrest]
  refine .done hgate hocc (fun b hb ↦ ?_) hemailKept (fun b hb ↦ ?_) hnameKept halloc ?_
    ⟨hcommits.kept, hcommits.gate, hcommits.masterKey, hcommits.live, hcommits.digest,
      hcommits.memory_eq⟩ ?_
  · obtain ⟨htaken, hoffset, hat⟩ := hemail b hb
    refine ⟨htaken, congrArg UInt32.toNat hoffset, ?_⟩
    rw [← hat.read, Memory.length_window]
  · obtain ⟨htaken, hoffset, hat⟩ := hname b hb
    rw [← hheap₁]
    refine ⟨htaken, congrArg UInt32.toNat hoffset, ?_⟩
    rw [← hat.read, Memory.length_window]
  · rw [hs', hindex, hws.index]
  · rw [hs']
    exact hrest

end Update

/-! ## Deletion -/

/-- **The ends of a deletion.** -/
inductive DeleteOutcome (hal : StorePlatform S C) (memory : S → Memory) (s : ContactStore S C)
    (slot : UInt8) : Except ContactStoreError PUnit × ContactStore S C → Prop where
  | closed (hgate : s.integrityGate = false) :
    DeleteOutcome hal memory s slot (.error .notInitialised, s)
  | done {s' : ContactStore S C} {d : Block 32} (hgate : s.integrityGate = true)
    (hindex : s'.index = s.index.remove slot) (hcommits : Commits hal memory s s' slot .default d)
    (hrest : s' = { s with
      storage := s'.storage, index := s'.index, integrityRegister := s'.integrityRegister }) :
    DeleteOutcome hal memory s slot (.ok ⟨⟩, s')

theorem delete_outcome (hf : hal.storage.Faithful contactStoreEnd memory) (hkept : Kept memory s)
    (hkeyed : Keyed hal s) (slot : UInt8) :
    DeleteOutcome hal memory s slot (delete hal slot s) := by
  rcases Bool.eq_false_or_eq_true s.integrityGate with hgate | hgate
  swap
  · rw [delete, bind_of_error (gate_of_closed hgate)]
    exact .closed hgate
  have hwritten := hkept.live.written slot goodSlot_default fun hmagic ↦ absurd hmagic (by decide)
  obtain ⟨x, d, s', hwrite, hupdate, hcommits, hrest⟩ :=
    commit_run hf hwritten hkeyed (hkept.index.remove slot)
  have hindex : s'.index = s.index.remove slot := by rw [hrest]
  rw [delete, bind_of_ok (gate_of_open hgate), bind_of_ok hwrite, Fallible.modify_bind, hupdate]
  rw [← hindex] at hrest
  exact .done hgate hindex hcommits hrest

end ContactStore

end Galdralag.Contacts
