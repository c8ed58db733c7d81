import Galdralag.ContactStore.Reachable

/-!
# Slots behind the last record

A slot is a byte that the caller makes up, and only one method compares it with the number of
records: the conversion from a byte, which the others do not call. The address of a record is
computed from the byte as it is. Behind the last record it lies in the string heap, where a read
finds the bytes of strings and a write destroys them. An update is refused there as long as what it
reads is not a record.
-/

set_option linter.all false

namespace Galdralag.Contacts

namespace ContactStore

open Fallible (bind_of_ok bind_of_error require_of)

variable {S C Z : Type} {hal : StorePlatform S C} {memory : S → Memory} {s s₁ s₂ : ContactStore S C}
  {slot : UInt8}

/-! ## Calls on a slot -/

/-- A call that names a slot. -/
inductive SlotCall where
  | delete
  | update (upd : ContactUpdate)
  | readPublicKey
  | unlockPinProtected (pin : PinBuffer)
  | timingLogAppend (lastFetched : UInt32)

/-- Run a method of the store next to the PIN machine and what its wipe hook acts on. -/
def besideMachine {α : Type} (m : StoreM S C α) :
    Fallible (PinPolicyMachine × ContactStore S C × Z) ContactStoreError α :=
  .zoom (fun w ↦ w.2.1) (fun s w ↦ (w.1, s, w.2.2)) m

/-- Make the call; it answers with a key, or with nothing. -/
def SlotCall.run (hal : StorePlatform S C) (zeroisation : ZeroisationTrigger Z) (slot : UInt8) :
    SlotCall →
      Fallible (PinPolicyMachine × ContactStore S C × Z) ContactStoreError (Option PublicKeyBlob)
  | .delete => do
    besideMachine (ContactStore.delete hal slot)
    pure none
  | .update upd => do
    besideMachine (ContactStore.update hal slot upd)
    pure none
  | .readPublicKey => do
    pure (some (← besideMachine (.reading fun s ↦ ContactStore.readPublicKey hal s slot)))
  | .unlockPinProtected pin => do
    pure (some (← ContactStore.unlockPinProtected hal zeroisation slot pin))
  | .timingLogAppend lastFetched => do
    besideMachine (ContactStore.timingLogAppend hal slot lastFetched)
    pure none

/-! ## The answers -/

/-- The errors that do not blame the slot. -/
def Blameless (e : ContactStoreError) : Prop := e ≠ .invalidSlot

instance (e : ContactStoreError) : Decidable (Blameless e) :=
  inferInstanceAs (Decidable (e ≠ .invalidSlot))

section Answers

theorem readAt_blameless (storage : VaultStorage S) (x : S) (off len : ℕ) :
    ErrorsIn Blameless (readAt storage x off len) := .mapError (fun _ ↦ by decide) _

theorem writeAt_blameless (storage : VaultStorage S) (off : ℕ) (bytes : Bytes) :
    Fallible.FailsIn Blameless (writeAt storage off bytes) := .orElse (by decide) _

theorem readRecord_blameless (s : ContactStore S C) (slot : UInt8) :
    ErrorsIn Blameless (readRecord hal s slot) :=
  readRecord_errors (by decide) (by decide) (by decide) (by decide) s slot

theorem computeIntegrityDigest_blameless (s : ContactStore S C) :
    ErrorsIn Blameless (computeIntegrityDigest hal s) := by
  rw [computeIntegrityDigest]
  refine (ErrorsIn.mapError (fun _ ↦ by decide) _).bind fun key ↦ ?_
  refine (ErrorsIn.foldlM (fun hashed slot ↦ ?_) _).bind fun hashed ↦ ?_
  · refine (readAt_blameless _ _ _ _).bind fun buf ↦ ?_
    split_ifs
    · exact .error (by decide)
    · exact .ok _
    · exact .ok _
  · refine (ErrorsIn.foldlM (fun hashed i ↦ ?_) _).bind fun hashed ↦ .ok _
    exact (readAt_blameless _ _ _ _).bind fun _ ↦ .ok _

theorem writeRecord_blameless (slot : UInt8) (r : ContactRecord) :
    Fallible.FailsIn Blameless (writeRecord hal slot r) := (writeAt_blameless _ _ _).zoom _ _

theorem updateIntegrity_blameless : Fallible.FailsIn Blameless (updateIntegrity hal) :=
  (Fallible.FailsIn.reading computeIntegrityDigest_blameless).bind fun _ ↦
    (Fallible.FailsIn.modify _).bind fun _ ↦ (Fallible.FailsIn.gets _).bind fun _ ↦
      (writeAt_blameless _ _ _).zoom _ _

theorem gate_blameless : Fallible.FailsIn Blameless (gate : StoreM S C PUnit) :=
  (Fallible.FailsIn.gets _).bind fun _ ↦ .require (by decide) _

theorem allocString_blameless (bytes : Bytes) :
    Fallible.FailsIn Blameless (allocString hal bytes) := by
  refine (Fallible.FailsIn.require (by decide) _).bind fun _ ↦ Fallible.FailsIn.zoom ?_ _ _
  refine (Fallible.FailsIn.require (by decide) _).bind fun _ ↦
    (Fallible.FailsIn.gets _).bind fun _ ↦ (Fallible.FailsIn.require (by decide) _).bind fun _ ↦ ?_
  exact ((writeAt_blameless _ _ _).zoom _ _).bind fun _ ↦ (Fallible.FailsIn.modify _).bind fun _ ↦
    .pure _

/-- **Deletion** takes any slot. -/
theorem delete_blameless (slot : UInt8) : Fallible.FailsIn Blameless (delete hal slot) :=
  gate_blameless.bind fun _ ↦ (writeRecord_blameless _ _).bind fun _ ↦
    (Fallible.FailsIn.modify _).bind fun _ ↦ updateIntegrity_blameless

theorem keyRead_blameless (x : S) (offset : UInt32) (len : UInt16) (bufLen : ℕ) :
    ErrorsIn Blameless (KeyMaterialRegion.read hal.storage x offset len bufLen) := by
  rw [KeyMaterialRegion.read]
  split_ifs
  · exact .ok _
  · exact .error (by decide)
  · exact .error (by decide)
  · exact readAt_blameless _ _ _ _

theorem fromSlice_blameless (bytes : Bytes) :
    ErrorsIn Blameless (PublicKeyBlob.fromSlice bytes) := by
  rw [PublicKeyBlob.fromSlice]
  split_ifs
  · exact .ok _
  · exact .error (by decide)

/-- **Reading a key** takes any slot. -/
theorem readPublicKey_blameless (s : ContactStore S C) (slot : UInt8) :
    ErrorsIn Blameless (readPublicKey hal s slot) := by
  rw [readPublicKey]
  split_ifs
  · exact .error (by decide)
  refine (readRecord_blameless _ _).bind fun r ↦ ?_
  dsimp only
  split_ifs
  · exact .error (by decide)
  · exact (keyRead_blameless _ _ _ _).bind fun _ ↦ fromSlice_blameless _

theorem aesGcmDecrypt_blameless (key : Block 32) (nonce : Block 12) (tag : Block 16)
    (ciphertext : Bytes) : ErrorsIn Blameless (aesGcmDecrypt hal key nonce tag ciphertext) := by
  rw [aesGcmDecrypt]
  split_ifs
  · exact .error (by decide)
  rcases hal.aeadDecrypt key nonce (ciphertext ++ tag.toBytes) with _ | plain
  · exact .error (by decide)
  · dsimp only
    split_ifs
    · exact .error (by decide)
    · exact .ok _

/-- **Unlocking a key** takes any slot. -/
theorem unlockPinProtected_blameless (zeroisation : ZeroisationTrigger Z) (slot : UInt8)
    (pin : PinBuffer) :
    Fallible.FailsIn Blameless (unlockPinProtected hal zeroisation slot pin) := by
  refine (Fallible.FailsIn.gets _).bind fun _ ↦
    (Fallible.FailsIn.require (by decide) _).bind fun _ ↦
    (Fallible.FailsIn.reading fun _ ↦ readRecord_blameless _ _).bind fun r ↦ ?_
  split_ifs
  · exact .reading fun _ ↦ readPublicKey_blameless _ _
  refine (Fallible.FailsIn.orElse (by decide) _).bind fun outcome ↦ ?_
  rcases outcome with _ | _ | _
  · refine .reading fun w ↦ (ErrorsIn.mapError (fun _ ↦ by decide) _).bind fun _ ↦
      (keyRead_blameless _ _ _ _).bind fun _ ↦ (aesGcmDecrypt_blameless _ _ _ _).bind fun _ ↦
        fromSlice_blameless _
  · exact .fail (by decide)
  · exact .fail (by decide)

theorem readEntry_blameless (storage : VaultStorage S) (x : S) (i : ℕ) :
    ErrorsIn Blameless (TimingLog.readEntry storage x i) := by
  refine (readAt_blameless _ _ _ _).bind fun bytes ↦ ?_
  rw [TimingLogEntry.fromBytes]
  dsimp only
  split_ifs
  · exact .error (by decide)
  · exact .ok _
  · exact .error (by decide)

/-- **The log** takes any slot. -/
theorem timingLogAppend_blameless (slot : UInt8) (lastFetched : UInt32) :
    Fallible.FailsIn Blameless (timingLogAppend hal slot lastFetched) := by
  have hbest : ∀ (x : S) (n : ℕ), ErrorsIn Blameless (TimingLog.best hal.storage x n) := by
    refine fun x n ↦ ErrorsIn.foldlM (fun best i ↦ (readEntry_blameless _ _ _).bind fun e ↦ ?_) _
    rcases best[e.slot.toNat]? with _ | ⟨seq, _⟩ <;> exact .ok _
  have hclear : Fallible.FailsIn Blameless (TimingLog.clear hal.storage) := by
    rw [TimingLog.clear, onStorage]
    exact Fallible.FailsIn.bind (.zoom (.each fun _ ↦ writeAt_blameless _ _ _) _ _)
      fun _ ↦ .modify _
  have hroom : ∀ rs, Fallible.FailsIn Blameless (TimingLog.makeRoom hal.storage rs) := by
    intro rs
    refine (Fallible.FailsIn.gets _).bind fun n ↦ ?_
    by_cases hfull : n ≥ maxEntries
    · rw [if_pos hfull]
      rw [TimingLog.merge]
      refine (Fallible.FailsIn.reading fun _ ↦ hbest _ _).bind fun _ ↦ ?_
      exact Fallible.FailsIn.bind hclear fun _ ↦ .pure _
    · rw [if_neg hfull]
      exact .pure _
  have hpush : ∀ e, Fallible.FailsIn Blameless (TimingLog.push hal.storage e) := fun e ↦
    (Fallible.FailsIn.gets _).bind fun _ ↦
      ((writeAt_blameless _ _ _).zoom _ _).bind fun _ ↦ .modify _
  refine gate_blameless.bind fun _ ↦
    (Fallible.FailsIn.reading fun s ↦ .mapM fun _ ↦ readRecord_blameless _ _).bind fun rs ↦ ?_
  refine Fallible.FailsIn.bind (Fallible.FailsIn.zoom ?_ _ _) fun _ ↦ .pure _
  exact ((Fallible.FailsIn.orElse (by decide) _).zoom _ _).bind fun _ ↦
    Fallible.FailsIn.zoom ((hroom _).bind fun _ ↦ (hpush _).bind fun _ ↦ .pure _) _ _

end Answers

/-! ## What a call changes -/

/-- An address of the slot's record, of what was allocated between two stores, or of the register.
-/
def Touched (slot : UInt8) (s s' : ContactStore S C) (a : ℕ) : Prop :=
  (recordOffset slot ≤ a ∧ a < recordOffset slot + contactRecordBytes) ∨
  (stringHeapOffset + s.stringHeap.bump.toNat ≤ a ∧
    a < stringHeapOffset + s'.stringHeap.bump.toNat) ∨
  (keyRegionOffset + s.keyRegion.bump.toNat ≤ a ∧ a < keyRegionOffset + s'.keyRegion.bump.toNat) ∨
  (contactStoreIntegrityOffset ≤ a ∧ a < contactStoreIntegrityOffset + 32)

/-- Only the slot's record, what was allocated, and the register have changed. Allocations stay
within their regions. -/
structure Confined (memory : S → Memory) (slot : UInt8) (s s' : ContactStore S C) : Prop where
  heap_le : s.stringHeap.bump.toNat ≤ s'.stringHeap.bump.toNat
  keys_le : s.keyRegion.bump.toNat ≤ s'.keyRegion.bump.toNat
  heap_max : s.stringHeap.bump.toNat ≤ stringHeapBytes →
    s'.stringHeap.bump.toNat ≤ stringHeapBytes
  keys_max : s.keyRegion.bump.toNat ≤ keyRegionBytes → s'.keyRegion.bump.toNat ≤ keyRegionBytes
  outside : ∀ a, ¬ Touched slot s s' a → memory s'.storage a = memory s.storage a

theorem Confined.refl (s : ContactStore S C) : Confined memory slot s s :=
  ⟨Nat.le_refl _, Nat.le_refl _, id, id, fun _ _ ↦ rfl⟩

theorem Confined.trans (h₁ : Confined memory slot s s₁) (h₂ : Confined memory slot s₁ s₂) :
    Confined memory slot s s₂ where
  heap_le := Nat.le_trans h₁.heap_le h₂.heap_le
  keys_le := Nat.le_trans h₁.keys_le h₂.keys_le
  heap_max := h₂.heap_max ∘ h₁.heap_max
  keys_max := h₂.keys_max ∘ h₁.keys_max
  outside a ha := by
    have hheap₁ := h₁.heap_le
    have hheap₂ := h₂.heap_le
    have hkeys₁ := h₁.keys_le
    have hkeys₂ := h₂.keys_le
    rw [Touched] at ha
    rw [h₂.outside a, h₁.outside a]
    · rw [Touched]
      omega
    · rw [Touched]
      omega

/-- Only the storage has changed, by a write to addresses that may change. -/
theorem confined_write {s' : ContactStore S C} {off : ℕ} {bytes : Bytes}
    (hheap : s'.stringHeap = s.stringHeap) (hkeys : s'.keyRegion = s.keyRegion)
    (hmem : memory s'.storage = (memory s.storage).patch off bytes)
    (hsub : (recordOffset slot ≤ off ∧
        off + bytes.length ≤ recordOffset slot + contactRecordBytes) ∨
      (contactStoreIntegrityOffset ≤ off ∧
        off + bytes.length ≤ contactStoreIntegrityOffset + 32)) :
    Confined memory slot s s' where
  heap_le := Nat.le_of_eq (by rw [hheap])
  keys_le := Nat.le_of_eq (by rw [hkeys])
  heap_max := by
    rw [hheap]
    exact id
  keys_max := by
    rw [hkeys]
    exact id
  outside a ha := by
    rw [Touched] at ha
    rw [hmem]
    exact Memory.agreeOutside_patch (Nat.le_refl off) (Nat.le_refl _) a (by omega)

theorem confined_index (index : ContactIndex) : Confined memory slot s { s with index := index } :=
  ⟨Nat.le_refl _, Nat.le_refl _, id, id, fun _ _ ↦ rfl⟩

section Faithful

variable (hf : hal.storage.Faithful contactStoreEnd memory)
include hf

theorem allocString_confined (bytes : Bytes) :
    Fallible.Moves (Confined memory slot) (allocString hal bytes) := by
  intro s
  by_cases htaken : StringTaken s.stringHeap.bump.toNat bytes
  swap
  · rw [allocString_refused htaken]
    exact .refl s
  have hlen := toNat_stringLength htaken.length_le
  have hroom := htaken.room
  have hend : stringHeapOffset + s.stringHeap.bump.toNat + bytes.length ≤ contactStoreEnd := by
    rw [stringHeapBytes_eq] at hroom
    rw [stringHeapOffset_eq, contactStoreEnd_eq]
    omega
  obtain ⟨x, hwrite, hmem⟩ := writeAt_run hf s.storage hend
  have hbump : (saturatingAdd s.stringHeap.bump (UInt16.ofNat bytes.length).toUInt32).toNat
      = s.stringHeap.bump.toNat + bytes.length := by
    rw [stringHeapBytes_eq] at hroom
    rw [toNat_saturatingAdd, UInt16.toNat_toUInt32, hlen]
    omega
  rw [allocString_of_room htaken.length_le (by rwa [hlen]), pushString, storing,
    Fallible.bind_apply, Fallible.zoom_apply, hwrite]
  refine ⟨?_, Nat.le_refl _, fun _ ↦ ?_, id, fun a ha ↦ ?_⟩
  · exact Nat.le_trans (Nat.le_add_right _ _) (Nat.le_of_eq hbump.symm)
  · exact Nat.le_trans (Nat.le_of_eq hbump) hroom
  · have hne : ¬ (stringHeapOffset + s.stringHeap.bump.toNat ≤ a ∧
        a < stringHeapOffset + s.stringHeap.bump.toNat + bytes.length) := by
      intro hin
      refine ha (.inr (.inl ⟨hin.1, Nat.lt_of_lt_of_le hin.2 (Nat.le_of_eq ?_)⟩))
      rw [Nat.add_assoc]
      exact congrArg _ hbump.symm
    change memory x a = _
    rw [hmem]
    exact Memory.agreeOutside_patch (Nat.le_refl _) (Nat.le_refl _) a (by omega)

theorem writeRecord_confined (r : ContactRecord) :
    Fallible.Moves (Confined memory slot) (writeRecord hal slot r) := by
  intro s
  have hle := recordOffset_add_le slot
  have hend : recordOffset slot + r.asBytes.length ≤ contactStoreEnd := by
    rw [r.length_asBytes]
    exact Nat.le_trans hle (by decide)
  obtain ⟨x, hwrite, hmem⟩ := writeAt_run hf s.storage hend
  rw [writeRecord, storing, Fallible.zoom_apply, hwrite]
  refine confined_write rfl rfl hmem (.inl ⟨Nat.le_refl _, Nat.le_of_eq ?_⟩)
  rw [r.length_asBytes, contactRecordBytes_eq]

theorem updateIntegrity_confined :
    Fallible.Moves (Confined memory slot) (updateIntegrity hal) := by
  intro s
  rcases updateIntegrity_cases hf s with ⟨e, hrun⟩ | ⟨x, d, hrun, hmem⟩
  · rw [hrun]
    exact .refl s
  · rw [hrun]
    refine confined_write rfl rfl hmem (.inr ⟨Nat.le_refl _, Nat.le_of_eq ?_⟩)
    rw [d.length_toBytes]

omit hf in
theorem gate_confined : Fallible.Moves (Confined memory slot) (gate : StoreM S C PUnit) :=
  (Fallible.Moves.gets .refl _).bind .trans fun _ ↦ .require .refl _ _

/-- **Deletion** of a slot changes its record and the register. -/
theorem delete_confined :
    Fallible.Moves (Confined memory slot) (delete hal slot) :=
  (gate_confined).bind .trans fun _ ↦ (writeRecord_confined hf _).bind .trans fun _ ↦
    (Fallible.Moves.modify fun _ ↦ confined_index _).bind .trans fun _ ↦ updateIntegrity_confined hf

/-- **Update** of a slot changes its record and the register, and allocates. -/
theorem update_confined (upd : ContactUpdate) :
    Fallible.Moves (Confined memory slot) (update hal slot upd) := by
  have halloc : ∀ (bytes : Option Bytes) (ref : StringRef), Fallible.Moves (Confined memory slot)
      (bytes.elim (pure ref) (allocString hal)) := by
    intro bytes ref
    rcases bytes with _ | bytes
    · exact .pure .refl ref
    · exact allocString_confined hf bytes
  rw [update_eq]
  refine (gate_confined).bind .trans fun _ ↦ (Fallible.Moves.reading .refl _).bind .trans fun r ↦
    (Fallible.Moves.require .refl _ _).bind .trans fun _ ↦ ?_
  refine (halloc _ _).bind .trans fun email ↦ (halloc _ _).bind .trans fun name ↦ ?_
  exact (Fallible.Moves.modify fun _ ↦ confined_index _).bind .trans fun _ ↦
    (writeRecord_confined hf _).bind .trans fun _ ↦ updateIntegrity_confined hf

end Faithful

/-! ## The bounds of the calls -/

/-- Deletions and updates change the contacts. -/
def SlotCall.mutates : SlotCall → Bool
  | .delete => true
  | .update _ => true
  | .readPublicKey => false
  | .unlockPinProtected _ => false
  | .timingLogAppend _ => false

/-- A call respects its slot. Behind the last record it is refused and changes no byte; on a record,
a deletion or an update stays where it belongs. -/
structure RespectsSlot (memory : S → Memory) (slot : UInt8) (call : SlotCall)
    (w : PinPolicyMachine × ContactStore S C × Z)
    (res : Except ContactStoreError (Option PublicKeyBlob) ×
      PinPolicyMachine × ContactStore S C × Z) : Prop where
  outside : slot ∉ slots →
    res.1 = .error .invalidSlot ∧ memory res.2.2.1.storage = memory w.2.1.storage
  inside : slot ∈ slots → call.mutates = true → Confined memory slot w.2.1 res.2.2.1

section Bounds

variable {zeroisation : ZeroisationTrigger Z} {call : SlotCall}
  {w : PinPolicyMachine × ContactStore S C × Z}

/-- A run of a method of the store next to the PIN machine, and of a last step that answers. -/
theorem besideMachine_bind_pure {α β : Type} (m : StoreM S C α) (f : α → β)
    (w : PinPolicyMachine × ContactStore S C × Z) :
    (besideMachine m >>= fun a ↦ pure (f a)) w
      = ((m w.2.1).1.map f, (w.1, (m w.2.1).2, w.2.2)) := by
  rw [Fallible.bind_apply, besideMachine, Fallible.zoom_apply]
  rcases m w.2.1 with ⟨_ | _, _⟩ <;> rfl

/-- Behind a closed gate every call is refused before anything else happens. -/
theorem run_of_closed (hgate : w.2.1.integrityGate = false) :
    call.run hal zeroisation slot w = (.error .notInitialised, w) := by
  have hclosed : ∀ {α : Type} {m : StoreM S C α}, (gate >>= fun _ ↦ m) w.2.1
      = (.error .notInitialised, w.2.1) := fun {_ _} ↦ bind_of_error (gate_of_closed hgate)
  cases call with
  | delete =>
    refine (besideMachine_bind_pure _ _ w).trans ?_
    rw [ContactStore.delete, hclosed]
    rfl
  | update upd =>
    refine (besideMachine_bind_pure _ _ w).trans ?_
    rw [ContactStore.update, hclosed]
    rfl
  | readPublicKey =>
    refine (besideMachine_bind_pure _ _ w).trans ?_
    rw [Fallible.reading_apply, ContactStore.readPublicKey, hgate]
    rfl
  | unlockPinProtected pin =>
    refine bind_of_error ?_
    rw [ContactStore.unlockPinProtected, Fallible.gets_bind, hgate]
    rfl
  | timingLogAppend lastFetched =>
    refine (besideMachine_bind_pure _ _ w).trans ?_
    rw [ContactStore.timingLogAppend, hclosed]
    rfl

/-- A call that is no update never blames the slot. -/
theorem run_blameless (h : ∀ upd, call ≠ .update upd) :
    Fallible.FailsIn Blameless (call.run hal zeroisation slot) := by
  cases call with
  | delete => exact ((delete_blameless slot).zoom _ _).bind fun _ ↦ .pure _
  | update upd => exact absurd rfl (h upd)
  | readPublicKey =>
    exact ((Fallible.FailsIn.reading fun s ↦ readPublicKey_blameless s slot).zoom _ _).bind
      fun _ ↦ .pure _
  | unlockPinProtected pin =>
    exact (unlockPinProtected_blameless zeroisation slot pin).bind fun _ ↦ .pure _
  | timingLogAppend lastFetched =>
    exact ((timingLogAppend_blameless slot lastFetched).zoom _ _).bind fun _ ↦ .pure _

/-- An update blames the slot when it reads no active record there, and only then. -/
theorem update_invalidSlot_iff (hgate : s.integrityGate = true) (upd : ContactUpdate) :
    (update hal slot upd s).1 = .error .invalidSlot
      ↔ ∃ r, readRecord hal s slot = .ok r ∧ r.isActive = false := by
  rw [update_eq, bind_of_ok (gate_of_open hgate)]
  rcases hread : readRecord hal s slot with e | r
  · rw [bind_of_error (by rw [Fallible.reading_apply, hread])]
    refine iff_of_false (fun h ↦ readRecord_blameless s slot e hread (Except.error.inj h)) ?_
    rintro ⟨r, hr, -⟩
    cases hr
  rw [bind_of_ok (by rw [Fallible.reading_apply, hread])]
  by_cases hactive : r.isActive = true
  · have halloc : ∀ (bytes : Option Bytes) (ref : StringRef), Fallible.FailsIn Blameless
        (bytes.elim (pure ref) (allocString hal) : StoreM S C StringRef) := by
      intro bytes ref
      rcases bytes with _ | bytes
      · exact .pure ref
      · exact allocString_blameless bytes
    rw [bind_of_ok (require_of hactive _ _)]
    refine iff_of_false (fun h ↦ ?_) ?_
    · refine ((halloc upd.email r.email).bind fun email ↦
        (halloc upd.displayName r.displayName).bind fun name ↦
        (Fallible.FailsIn.modify _).bind fun _ ↦ (writeRecord_blameless _ _).bind fun _ ↦
          updateIntegrity_blameless) s _ h rfl
    · rintro ⟨r', hr', hinactive⟩
      obtain rfl := Except.ok.inj hr'
      exact Bool.false_ne_true (hinactive.symm.trans hactive)
  · rw [bind_of_error (by rw [Fallible.require, if_neg hactive, Fallible.fail_apply])]
    exact iff_of_true rfl ⟨r, rfl, Bool.eq_false_iff.mpr hactive⟩

/-- Then it has changed nothing. -/
theorem update_of_inactive (hgate : s.integrityGate = true) (upd : ContactUpdate)
    {r : ContactRecord} (hread : readRecord hal s slot = .ok r) (hinactive : r.isActive = false) :
    update hal slot upd s = (.error .invalidSlot, s) := by
  rw [update_eq, bind_of_ok (gate_of_open hgate),
    bind_of_ok (by rw [Fallible.reading_apply, hread]), bind_of_error]
  rw [hinactive, Fallible.require, if_neg Bool.false_ne_true, Fallible.fail_apply]

end Bounds

/-- **Slot bounds.** Behind a closed gate every call is refused. Behind an open one a call respects
its slot exactly when the slot has a record, or the call is an update and what it reads is no active
record. -/
theorem respectsSlot_iff (hf : hal.storage.Faithful contactStoreEnd memory)
    (zeroisation : ZeroisationTrigger Z) (slot : UInt8) (call : SlotCall)
    (w : PinPolicyMachine × ContactStore S C × Z) :
    (w.2.1.integrityGate = false → call.run hal zeroisation slot w = (.error .notInitialised, w)) ∧
    (w.2.1.integrityGate = true →
      (RespectsSlot memory slot call w (call.run hal zeroisation slot w) ↔ slot ∈ slots ∨
        ∃ upd r, call = .update upd ∧ readRecord hal w.2.1 slot = .ok r ∧ r.isActive = false)) := by
  refine ⟨run_of_closed, fun hgate ↦ ⟨fun h ↦ ?_, ?_⟩⟩
  · by_cases hslot : slot ∈ slots
    · exact .inl hslot
    have hblame := (h.outside hslot).1
    by_cases hupdate : ∃ upd, call = .update upd
    · obtain ⟨upd, rfl⟩ := hupdate
      obtain ⟨r, hread, hinactive⟩ := (update_invalidSlot_iff hgate upd).mp (by
        have hrun : ((update hal slot upd w.2.1).1.map fun _ ↦ (none : Option PublicKeyBlob))
            = .error .invalidSlot := by
          rw [← hblame]
          exact congrArg Prod.fst (besideMachine_bind_pure _ _ w).symm
        rcases hres : (update hal slot upd w.2.1).1 with e | _
        · rw [hres] at hrun
          exact congrArg _ (Except.error.inj hrun)
        · rw [hres] at hrun
          cases hrun)
      exact .inr ⟨upd, r, rfl, hread, hinactive⟩
    · have hne : ∀ upd, call ≠ .update upd := fun upd heq ↦ hupdate ⟨upd, heq⟩
      exact absurd rfl (run_blameless hne w _ hblame)
  · rintro (hslot | ⟨upd, r, rfl, hread, hinactive⟩)
    · refine ⟨fun hout ↦ absurd hslot hout, fun _ hmutates ↦ ?_⟩
      cases call with
      | delete =>
        rw [SlotCall.run, besideMachine_bind_pure]
        exact delete_confined hf w.2.1
      | update upd =>
        rw [SlotCall.run, besideMachine_bind_pure]
        exact update_confined hf upd w.2.1
      | readPublicKey => cases hmutates
      | unlockPinProtected pin => cases hmutates
      | timingLogAppend lastFetched => cases hmutates
    · have hrun : SlotCall.run hal zeroisation slot (.update upd) w = (.error .invalidSlot, w) := by
        refine (besideMachine_bind_pure _ _ w).trans ?_
        rw [update_of_inactive hgate upd hread hinactive]
        rfl
      rw [hrun]
      exact ⟨fun _ ↦ ⟨rfl, rfl⟩, fun _ _ ↦ .refl _⟩

/-- The deletion of a contact of a new store. -/
theorem respectsSlot_delete : RespectsSlot (fun m ↦ m) 4 .delete
    (PinPolicyMachine.new default, provisioned (.zero 32), ())
    (SlotCall.run samplePlatform id 4 .delete
      (PinPolicyMachine.new default, provisioned (.zero 32), ())) :=
  ((respectsSlot_iff samplePlatform_faithful id 4 .delete
    (PinPolicyMachine.new default, provisioned (.zero 32), ())).2 rfl).mpr (.inl (by decide))

/-- The deletion of the first slot behind the last record is not refused. -/
theorem delete_behind_not_refused : ¬ RespectsSlot (fun m ↦ m) 54 .delete
    (PinPolicyMachine.new default,
      (afterActions samplePlatform (new blank 0 (.zero 32), 0) [.provisionFresh]).1, ())
    (SlotCall.run samplePlatform id 54 .delete (PinPolicyMachine.new default,
      (afterActions samplePlatform (new blank 0 (.zero 32), 0) [.provisionFresh]).1, ())) := by
  intro h
  have hne : ∀ upd, SlotCall.delete ≠ .update upd := by
    rintro upd ⟨⟩
  exact run_blameless hne _ _ (h.outside (by decide)).1 rfl

/-- It is carried out: it empties the first 256 bytes of the string heap. -/
theorem delete_behind (hf : hal.storage.Faithful contactStoreEnd memory) (hkept : Kept memory s)
    (hkeyed : Keyed hal s) (hgate : s.integrityGate = true) :
    ∃ s', delete hal 54 s = (.ok ⟨⟩, s') ∧
      (memory s'.storage).window stringHeapOffset 256 = List.replicate 256 0 := by
  have hend := delete_outcome hf hkept hkeyed 54
  generalize delete hal 54 s = res at hend ⊢
  cases hend with
  | closed hclosed => exact absurd (hgate.symm.trans hclosed) (by decide)
  | done _ hindex hcommits hrest =>
    refine ⟨_, rfl, ?_⟩
    have hoff : recordOffset 54 = stringHeapOffset := rfl
    rw [hcommits.memory_eq, Memory.window_patch_of_disjoint (.inl (by decide)), written, hoff,
      asBytes_default]
    exact Memory.window_patch_zeros _ (Nat.le_refl _) (Nat.le_refl _)

end ContactStore

end Galdralag.Contacts
