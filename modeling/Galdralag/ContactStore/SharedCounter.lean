import Galdralag.ContactStore.Integrity

/-!
# The counter shared by the timing log and the PIN policy

The store hands one monotonic counter to two users: an append to the timing log takes its sequence
number from it, and an unlock charges its attempt to it. The attempt limit is compared with the
shared value, so what appends leave behind is felt by later unlocks.

Two runs of one device are compared, one with some appends that the other does not make. The two
stores stay `Alike`: they agree on everything but the log, the register and the counter. Over alike
stores every operation answers the same, except a PIN attempt that the two counts put on different
sides of the limit, and a check of the register that passes in one run only.
-/

set_option linter.all false

namespace Galdralag.Contacts.ContactStore

open Fallible (Coupled SameOutcome Moves MovesOnError)

variable {S C Z : Type} {hal : StorePlatform S C} {memory : S → Memory} {value : C → UInt32}
  {s t : ContactStore S C}

/-! ## Alike stores -/

/-- Two storages with a provision marker that agree on all but the log and the register. -/
structure AlikeStorage (memory : S → Memory) (x y : S) : Prop where
  marker : u32OfLe ((memory x).window contactStoreProvisionMarkerOffset 4) ≠ 0
  below : Memory.AgreeOn 0 timingLogOffset (memory x) (memory y)
  markers : Memory.AgreeOn contactStoreProvisionMarkerOffset contactStoreIntegrityOffset
    (memory x) (memory y)

/-- Two provisioned stores that agree on all but the log, the register and the counter. -/
structure Alike (memory : S → Memory) (s t : ContactStore S C) : Prop where
  index : t.index = s.index
  gate : t.integrityGate = s.integrityGate
  masterKey : t.masterKey = s.masterKey
  stringHeap : t.stringHeap = s.stringHeap
  keyRegion : t.keyRegion = s.keyRegion
  storage : AlikeStorage memory s.storage t.storage

theorem Alike.refl
    (h : u32OfLe ((memory s.storage).window contactStoreProvisionMarkerOffset 4) ≠ 0) :
    Alike memory s s :=
  ⟨rfl, rfl, rfl, rfl, rfl, h, fun _ _ _ ↦ rfl, fun _ _ _ ↦ rfl⟩

/-- Alike stores stay alike when only their counters move. -/
theorem Alike.set_counter (h : Alike memory s t) (c c' : C) :
    Alike memory { s with counter := c } { t with counter := c' } :=
  ⟨h.index, h.gate, h.masterKey, h.stringHeap, h.keyRegion, h.storage⟩

/-- Writes on both sides that stay off the marker and keep the two memories in agreement. -/
theorem AlikeStorage.of_agree {x y x' y' : S} (h : AlikeStorage memory x y)
    (hx : Memory.AgreeOn contactStoreProvisionMarkerOffset contactStoreIntegrityOffset (memory x)
      (memory x'))
    (hbelow : Memory.AgreeOn 0 timingLogOffset (memory x') (memory y'))
    (hmarkers : Memory.AgreeOn contactStoreProvisionMarkerOffset contactStoreIntegrityOffset
      (memory x') (memory y')) : AlikeStorage memory x' y' where
  marker := by
    rw [← Memory.window_congr hx (Nat.le_refl _) (Nat.le_refl _)]
    exact h.marker
  below := hbelow
  markers := hmarkers

/-- The log may change on both sides. -/
theorem AlikeStorage.of_log {x y x' y' : S} (h : AlikeStorage memory x y)
    (hx : TimingLog.SameButLog (memory x) (memory x'))
    (hy : TimingLog.SameButLog (memory y) (memory y')) : AlikeStorage memory x' y' :=
  h.of_agree ((hx.2 _).mono (by decide) (Nat.le_refl _))
    (hx.1.symm.trans (h.below.trans hy.1))
    (((hx.2 _).mono (by decide) (Nat.le_refl _)).symm.trans
      (h.markers.trans ((hy.2 _).mono (by decide) (Nat.le_refl _))))

/-- The register may change on both sides. -/
theorem AlikeStorage.of_register {x y x' y' : S} (h : AlikeStorage memory x y) {d d' : Bytes}
    (hx : memory x' = (memory x).patch contactStoreIntegrityOffset d)
    (hy : memory y' = (memory y).patch contactStoreIntegrityOffset d') :
    AlikeStorage memory x' y' := by
  have hsame : ∀ {lo hi : ℕ} (m : Memory) (d : Bytes), hi ≤ contactStoreIntegrityOffset →
      Memory.AgreeOn lo hi (m.patch contactStoreIntegrityOffset d) m :=
    fun _ _ hhi ↦ Memory.agreeOn_patch (.inl hhi)
  refine h.of_agree ?_ ?_ ?_
  · rw [hx]
    exact (hsame _ _ (Nat.le_refl _)).symm
  · rw [hx, hy]
    exact (hsame _ _ (by decide)).trans (h.below.trans (hsame _ _ (by decide)).symm)
  · rw [hx, hy]
    exact (hsame _ _ (Nat.le_refl _)).trans (h.markers.trans (hsame _ _ (Nat.le_refl _)).symm)

variable (hf : hal.storage.Faithful contactStoreEnd memory)
include hf

/-! ## Reads -/

theorem Alike.readAt_eq (h : Alike memory s t) {off len : ℕ} (hend : off + len ≤ timingLogOffset) :
    readAt hal.storage s.storage off len = readAt hal.storage t.storage off len := by
  have hend' : off + len ≤ contactStoreEnd := Nat.le_trans hend (by decide)
  rw [Contacts.readAt_eq hf _ hend', Contacts.readAt_eq hf _ hend',
    Memory.window_congr h.storage.below (Nat.zero_le _) hend]

theorem Alike.readRecord_eq (h : Alike memory s t) (slot : UInt8) :
    readRecord hal s slot = readRecord hal t slot := by
  rw [readRecord, readRecord, h.readAt_eq hf (recordOffset_add_le slot)]

theorem Alike.records_eq (h : Alike memory s t) :
    slots.mapM (readRecord hal s) = slots.mapM (readRecord hal t) := by
  rw [funext (h.readRecord_eq hf)]

theorem Alike.readKey_eq (h : Alike memory s t) (off : UInt32) (len : UInt16) (bufLen : ℕ) :
    KeyMaterialRegion.read hal.storage s.storage off len bufLen
      = KeyMaterialRegion.read hal.storage t.storage off len bufLen := by
  rw [KeyMaterialRegion.read, KeyMaterialRegion.read]
  split_ifs with hzero hbuf hend
  · rfl
  · rfl
  · rfl
  · refine h.readAt_eq hf ?_
    rw [keyRegionBytes_eq] at hend
    rw [keyRegionOffset_eq, timingLogOffset_eq]
    omega

theorem Alike.readPublicKey_eq (h : Alike memory s t) (slot : UInt8) :
    readPublicKey hal s slot = readPublicKey hal t slot := by
  simp only [readPublicKey, h.gate, h.readRecord_eq hf, h.readKey_eq hf]

theorem Alike.unwrapKey_eq (h : Alike memory s t) (r : ContactRecord) :
    unwrapKey hal s r = unwrapKey hal t r := by
  simp only [unwrapKey, h.masterKey, h.readKey_eq hf]

theorem Alike.findEmptySlot_eq (h : Alike memory s t) (candidates : List UInt8) :
    findEmptySlot hal s candidates = findEmptySlot hal t candidates := by
  induction candidates with
  | nil => rfl
  | cons slot rest ih =>
    have hend : recordOffset slot + 4 ≤ timingLogOffset :=
      Nat.le_trans (Nat.add_le_add_left (by decide) _) (recordOffset_add_le slot)
    rw [findEmptySlot, findEmptySlot, h.readAt_eq hf hend, ih]

/-- The digests of alike stores differ, but they are computed or not together. -/
theorem Alike.computeIntegrityDigest_coupled (h : Alike memory s t) :
    SameOutcome (fun _ _ ↦ True) (computeIntegrityDigest hal s) (computeIntegrityDigest hal t) := by
  have hslots : ∀ slot ∈ slots, ∀ hashed : Bytes, (do
      let buf ← readAt hal.storage s.storage (recordOffset slot) contactRecordBytes
      if buf.take 4 = u32le contactRecordMagic then
        if !recordCrcOk buf then .error .corruptRecord
        else pure (hashed ++ buf)
      else pure hashed : Except ContactStoreError Bytes) = (do
      let buf ← readAt hal.storage t.storage (recordOffset slot) contactRecordBytes
      if buf.take 4 = u32le contactRecordMagic then
        if !recordCrcOk buf then .error .corruptRecord
        else pure (hashed ++ buf)
      else pure hashed) := by
    intro slot _ hashed
    rw [h.readAt_eq hf (recordOffset_add_le slot)]
  have hrecords := Fallible.foldlM_congr_mem hslots ([] : Bytes)
  rw [computeIntegrityDigest, computeIntegrityDigest, h.masterKey, hrecords]
  refine (SameOutcome.refl _).bind fun key _ hkey ↦ (SameOutcome.refl _).bind fun hashed _ hh ↦ ?_
  rw [← hkey, ← hh, readLog_eq hf, readLog_eq hf]
  exact .ok trivial

/-! ## Operations over alike stores -/

/-- The same write below the log. -/
theorem writeAt_coupled {off : ℕ} {bs : Bytes} (hend : off + bs.length ≤ timingLogOffset) :
    Coupled (AlikeStorage memory) Eq (writeAt hal.storage off bs) (writeAt hal.storage off bs) := by
  intro x y h
  have hend' : off + bs.length ≤ contactStoreEnd := Nat.le_trans hend (by decide)
  obtain ⟨x', hx, hxmem⟩ := writeAt_run hf x hend'
  obtain ⟨y', hy, hymem⟩ := writeAt_run hf y hend'
  rw [hx, hy]
  refine ⟨.ok rfl, h.of_agree ?_ ?_ ?_⟩
  · rw [hxmem]
    exact (Memory.agreeOn_patch (.inr (Nat.le_trans hend (by decide)))).symm
  · change Memory.AgreeOn _ _ (memory x') (memory y')
    rw [hxmem, hymem]
    exact h.below.patch off bs
  · change Memory.AgreeOn _ _ (memory x') (memory y')
    rw [hxmem, hymem]
    exact h.markers.patch off bs

theorem writeRecord_coupled (slot : UInt8) (r : ContactRecord) :
    Coupled (Alike memory) Eq (writeRecord hal slot r : StoreM S C PUnit)
      (writeRecord hal slot r) := by
  have hend : recordOffset slot + r.asBytes.length ≤ timingLogOffset := by
    rw [r.length_asBytes]
    exact recordOffset_add_le slot
  exact .zoom (fun s t h ↦ h.storage)
    (fun s t h x y hxy ↦ ⟨h.index, h.gate, h.masterKey, h.stringHeap, h.keyRegion, hxy⟩)
    (writeAt_coupled hf hend)

/-- Refreshing the registers of alike stores writes two digests. -/
theorem updateIntegrity_coupled :
    Coupled (Alike memory) Eq (updateIntegrity hal : StoreM S C PUnit) (updateIntegrity hal) := by
  refine (Coupled.reading fun s t h ↦ h.computeIntegrityDigest_coupled hf).bind fun d d' _ ↦ ?_
  intro s t h
  have hend : ∀ d : Block 32, contactStoreIntegrityOffset + d.toBytes.length ≤ contactStoreEnd := by
    intro d
    rw [d.length_toBytes]
    exact Nat.le_refl _
  obtain ⟨x, hx, hxmem⟩ := writeAt_run hf s.storage (hend d)
  obtain ⟨y, hy, hymem⟩ := writeAt_run hf t.storage (hend d')
  rw [Fallible.modify_bind, Fallible.modify_bind, persistIntegrityRegister, Fallible.gets_bind,
    Fallible.gets_bind, storing, storing, Fallible.zoom_apply, Fallible.zoom_apply, hx, hy]
  exact ⟨.ok rfl, h.index, h.gate, h.masterKey, h.stringHeap, h.keyRegion,
    h.storage.of_register hxmem hymem⟩

omit hf in
theorem gate_coupled : Coupled (Alike memory) Eq (gate : StoreM S C PUnit) gate := by
  refine (Coupled.gets (V := Eq) fun s t h ↦ h.gate.symm).bind fun a b hab ↦ ?_
  rw [hab]
  exact .require _ _

/-- A region's own write, next to the allocator state. -/
theorem onStorage_coupled {σ : Type} {off : ℕ} {bs : Bytes}
    (hend : off + bs.length ≤ timingLogOffset) :
    Coupled (fun p q : σ × S ↦ q.1 = p.1 ∧ AlikeStorage memory p.2 q.2) Eq
      (onStorage (writeAt hal.storage off bs)) (onStorage (writeAt hal.storage off bs)) :=
  .zoom (fun _ _ h ↦ h.2) (fun _ _ h _ _ hxy ↦ ⟨h.1, hxy⟩) (writeAt_coupled hf hend)

theorem allocKey_coupled (keyBytes : Bytes) :
    Coupled (Alike memory) Eq (allocKey hal keyBytes : StoreM S C _) (allocKey hal keyBytes) := by
  refine .zoom (Q := fun p q ↦ q.1 = p.1 ∧ AlikeStorage memory p.2 q.2)
    (fun s t h ↦ ⟨h.keyRegion, h.storage⟩)
    (fun s t h x y hxy ↦ ⟨h.index, h.gate, h.masterKey, h.stringHeap, hxy.1, hxy.2⟩) ?_
  refine .require_bind fun hmax ↦ ?_
  refine (Coupled.gets (V := Eq) fun p q h ↦ by rw [h.1]).bind fun bump _ hbump ↦ ?_
  subst hbump
  refine .require_bind fun hroom ↦ ?_
  rw [toNat_ofNat_length (Nat.lt_of_le_of_lt hmax (by decide)), keyRegionBytes_eq] at hroom
  have hend : keyRegionOffset + bump.toNat + keyBytes.length ≤ timingLogOffset := by
    rw [keyRegionOffset_eq, timingLogOffset_eq]
    omega
  exact (onStorage_coupled hf hend).bind fun _ _ _ ↦
    (Coupled.modify fun p q h ↦ ⟨by rw [h.1], h.2⟩).bind fun _ _ _ ↦ .pure rfl

theorem allocString_coupled (bytes : Bytes) :
    Coupled (Alike memory) Eq (allocString hal bytes : StoreM S C _) (allocString hal bytes) := by
  refine .require_bind fun hmax ↦ ?_
  refine .zoom (Q := fun p q ↦ q.1 = p.1 ∧ AlikeStorage memory p.2 q.2)
    (fun s t h ↦ ⟨h.stringHeap, h.storage⟩)
    (fun s t h x y hxy ↦ ⟨h.index, h.gate, h.masterKey, hxy.1, h.keyRegion, hxy.2⟩) ?_
  refine .require_bind fun _ ↦ ?_
  refine (Coupled.gets (V := Eq) fun p q h ↦ by rw [h.1]).bind fun bump _ hbump ↦ ?_
  subst hbump
  refine .require_bind fun hroom ↦ ?_
  rw [toNat_ofNat_length (Nat.lt_of_le_of_lt hmax (by decide)), stringHeapBytes_eq] at hroom
  have hend : stringHeapOffset + bump.toNat + bytes.length ≤ timingLogOffset := by
    rw [stringHeapOffset_eq, timingLogOffset_eq]
    omega
  exact (onStorage_coupled hf hend).bind fun _ _ _ ↦
    (Coupled.modify fun p q h ↦ ⟨by rw [h.1], h.2⟩).bind fun _ _ _ ↦ .pure rfl

theorem delete_coupled (slot : UInt8) :
    Coupled (Alike memory) Eq (delete hal slot : StoreM S C PUnit) (delete hal slot) :=
  gate_coupled.bind fun _ _ _ ↦ (writeRecord_coupled hf slot .default).bind fun _ _ _ ↦
    (Coupled.modify fun s t h ↦ ⟨by rw [h.index], h.gate, h.masterKey, h.stringHeap, h.keyRegion,
      h.storage⟩).bind fun _ _ _ ↦ updateIntegrity_coupled hf

theorem insert_coupled (input : NewContact) :
    Coupled (Alike memory) Eq (insert hal input : StoreM S C UInt8) (insert hal input) := by
  refine gate_coupled.bind fun _ _ _ ↦ ?_
  refine (Coupled.reading (V := Eq) fun s t h ↦ ?_).bind fun slot _ hslot ↦ ?_
  · rw [findEmptyOwnSlot, findEmptyOwnSlot, findEmptyRecipientSlot, findEmptyRecipientSlot,
      h.findEmptySlot_eq hf, h.findEmptySlot_eq hf]
    exact .refl _
  subst hslot
  refine (allocKey_coupled hf input.publicKey).bind fun key _ hkey ↦ ?_
  refine (Coupled.lift (pinFields input)).bind fun pin _ hpin ↦ ?_
  refine (allocString_coupled hf input.email).bind fun email _ hemail ↦ ?_
  refine Coupled.bind (V := Eq) ?_ fun name _ hname ↦ ?_
  · cases input.displayName with
    | none => exact .pure rfl
    | some name => exact allocString_coupled hf name
  subst hkey hpin hemail hname
  refine (writeRecord_coupled hf slot _).bind fun _ _ _ ↦ ?_
  refine (Coupled.reading (V := Eq) fun s t h ↦ ?_).bind fun index _ hindex ↦ ?_
  · rw [h.index]
    exact .refl _
  subst hindex
  exact (Coupled.modify fun s t h ↦ ⟨rfl, h.gate, h.masterKey, h.stringHeap, h.keyRegion,
    h.storage⟩).bind fun _ _ _ ↦ (updateIntegrity_coupled hf).bind fun _ _ _ ↦ .pure rfl

theorem update_coupled (slot : UInt8) (upd : ContactUpdate) :
    Coupled (Alike memory) Eq (update hal slot upd : StoreM S C PUnit) (update hal slot upd) := by
  refine gate_coupled.bind fun _ _ _ ↦ ?_
  refine (Coupled.reading (V := Eq) fun s t h ↦ ?_).bind fun r _ hr ↦ ?_
  · rw [h.readRecord_eq hf]
    exact .refl _
  subst hr
  refine .require_bind fun _ ↦ ?_
  refine Coupled.bind (V := Eq) ?_ fun r₁ _ h₁ ↦ ?_
  · cases upd.email with
    | none => exact .pure rfl
    | some email => exact (allocString_coupled hf email).bind fun _ _ h ↦ .pure (by rw [h])
  subst h₁
  refine Coupled.bind (V := Eq) ?_ fun r₂ _ h₂ ↦ ?_
  · cases upd.displayName with
    | none => exact .pure rfl
    | some name => exact (allocString_coupled hf name).bind fun _ _ h ↦ .pure (by rw [h])
  subst h₂
  refine Coupled.bind (V := Eq) ?_ fun r₃ _ h₃ ↦ ?_
  · cases upd.stale with
    | none => exact .pure rfl
    | some stale =>
      exact (Coupled.modify fun s t h ↦ ⟨by rw [h.index], h.gate, h.masterKey, h.stringHeap,
        h.keyRegion, h.storage⟩).bind fun _ _ _ ↦ .pure rfl
  subst h₃
  exact (writeRecord_coupled hf slot _).bind fun _ _ _ ↦ updateIntegrity_coupled hf

/-! ## The integrity check -/

/-- The digest stored in the register. -/
def storedDigest (memory : S → Memory) (s : ContactStore S C) : Block 32 :=
  .ofBytes 32 ((memory s.storage).window contactStoreIntegrityOffset 32)

omit hf in
theorem current_iff : Current hal memory s ↔
    computeIntegrityDigest hal s = .ok (storedDigest memory s) := by
  constructor
  · rintro ⟨d, hd, hreg⟩
    rw [hd, storedDigest, hreg, Block.ofBytes_toBytes]
  · intro h
    exact ⟨_, h, (Block.toBytes_ofBytes Memory.length_window).symm⟩

/-- A check of a provisioned store loads the register; a digest that was computed settles the
gate. -/
theorem verifyIntegrity_state
    (hmarker : u32OfLe ((memory s.storage).window contactStoreProvisionMarkerOffset 4) ≠ 0) :
    (verifyIntegrity hal s).2 = { s with
      integrityRegister := storedDigest memory s
      integrityGate := match computeIntegrityDigest hal s with
        | .error _ => s.integrityGate
        | .ok d => decide (d = storedDigest memory s) } := by
  rw [verifyIntegrity, Fallible.bind_of_ok (Fallible.reading_eq_ok.mpr
    ⟨readProvisionMarker_eq hf s, rfl⟩), if_neg hmarker,
    Fallible.bind_of_ok (loadIntegrityRegister_run hf s)]
  have hdigest : computeIntegrityDigest hal { s with
      integrityRegister := .ofBytes 32 ((memory s.storage).window contactStoreIntegrityOffset 32) }
        = computeIntegrityDigest hal s := rfl
  rcases hd : computeIntegrityDigest hal s with e | d
  · rw [Fallible.bind_of_error (by rw [Fallible.reading_apply, hdigest, hd])]
    rfl
  · rw [Fallible.bind_of_ok (by rw [Fallible.reading_apply, hdigest, hd]), Fallible.gets_bind]
    change ((if d ≠ storedDigest memory s then _ else _ : StoreM S C PUnit) _).2 = _
    by_cases hne : d = storedDigest memory s
    · rw [if_neg (not_not_intro hne)]
      simp only [hne, decide_true]
      rfl
    · rw [if_pos hne, Fallible.modify_bind]
      simp only [hne, decide_false]
      rfl

/-- A check that passes on both sides or on neither keeps stores alike. -/
theorem verifyIntegrity_alike (h : Alike memory s t)
    (hcur : Current hal memory s ↔ Current hal memory t) :
    Alike memory (verifyIntegrity hal s).2 (verifyIntegrity hal t).2 := by
  have hmarker : u32OfLe ((memory t.storage).window contactStoreProvisionMarkerOffset 4) ≠ 0 := by
    rw [← Memory.window_congr h.storage.markers (Nat.le_refl _) (Nat.le_refl _)]
    exact h.storage.marker
  rw [verifyIntegrity_state hf h.storage.marker, verifyIntegrity_state hf hmarker]
  refine ⟨h.index, ?_, h.masterKey, h.stringHeap, h.keyRegion, h.storage⟩
  have hdigest := h.computeIntegrityDigest_coupled hf
  rw [current_iff, current_iff] at hcur
  rcases hs : computeIntegrityDigest hal s with e | d <;>
    rcases ht : computeIntegrityDigest hal t with e' | d' <;> rw [hs, ht] at hdigest
  · exact h.gate
  · cases hdigest
  · cases hdigest
  · rw [hs, ht, Except.ok.injEq, Except.ok.injEq] at hcur
    exact decide_eq_decide.mpr hcur.symm

/-- A boot whose check passes on both sides or on neither keeps stores alike. -/
theorem initOnBoot_alike (h : Alike memory s t)
    (hcur : Current hal memory s ↔ Current hal memory t) :
    Alike memory (initOnBoot hal s).2 (initOnBoot hal t).2 := by
  rw [initOnBoot, Fallible.bind_apply, Fallible.bind_apply, Fallible.reading_apply,
    Fallible.reading_apply, ← h.records_eq hf]
  rcases slots.mapM (readRecord hal s) with e | records
  · exact h
  · exact verifyIntegrity_alike hf
      ⟨rfl, h.gate, h.masterKey, rfl, rfl, h.storage⟩ hcur

/-- A store that is provisioned already is not provisioned again. -/
theorem provisionFresh_again {p : ContactStore S C × C}
    (hmarker : u32OfLe ((memory p.1.storage).window contactStoreProvisionMarkerOffset 4) ≠ 0) :
    provisionFresh hal p = (.error .alreadyProvisioned,
      ({ p.1 with integrityRegister := storedDigest memory p.1 }, p.2)) := by
  have hload : besideCounter (loadIntegrityRegister hal) p
      = (.ok ⟨⟩, ({ p.1 with integrityRegister := storedDigest memory p.1 }, p.2)) := by
    rw [besideCounter, Fallible.zoom_apply, loadIntegrityRegister_run hf]
    rfl
  rw [provisionFresh, Fallible.bind_of_ok hload, Fallible.gets_bind]
  by_cases hzero : (storedDigest memory p.1).toBytes.all (· = 0)
  · rw [Fallible.bind_of_ok (a := ⟨⟩) (Fallible.require_eq_ok.mpr ⟨hzero, rfl⟩),
      Fallible.bind_of_ok (by rw [Fallible.reading_apply, readProvisionMarker_eq hf]),
      Fallible.require, if_neg hmarker]
    rfl
  · rw [Fallible.require, if_neg hzero]
    rfl

/-! ## Unprovisioned stores -/

omit hf

/-- A change that leaves the gate where it was. -/
def SameGate (s s' : ContactStore S C) : Prop := s'.integrityGate = s.integrityGate

theorem SameGate.refl (s : ContactStore S C) : SameGate s s := rfl

theorem SameGate.trans {s s' s'' : ContactStore S C} (h : SameGate s s') (h' : SameGate s' s'') :
    SameGate s s'' := Eq.trans h' h

theorem storing_sameGate {α : Type} (m : Fallible S ContactStoreError α) :
    Moves (SameGate (S := S) (C := C)) (storing m) := fun _ ↦ rfl

theorem zeroRegion_sameGate (len : ℕ) : ∀ off : ℕ,
    Moves (SameGate (S := S) (C := C)) (zeroRegion hal off len) := by
  induction len using Nat.strongRecOn with
  | _ len ih =>
    intro off
    rw [zeroRegion]
    split_ifs with hlen
    · exact .pure .refl _
    · exact (storing_sameGate _).bind .trans fun _ ↦ ih _ (by omega) _

theorem eraseBand_sameGate : Moves (SameGate (S := S) (C := C)) (eraseBand hal) :=
  (Moves.each .refl .trans fun _ ↦ storing_sameGate _).bind .trans fun _ ↦
    (zeroRegion_sameGate _ _).bind .trans fun _ ↦ (zeroRegion_sameGate _ _).bind .trans fun _ ↦
      (zeroRegion_sameGate _ _).bind .trans fun _ ↦ .modify fun _ ↦ rfl

theorem updateIntegrity_sameGate : Moves (SameGate (S := S) (C := C)) (updateIntegrity hal) := by
  refine (Moves.reading .refl _).bind .trans fun digest ↦ ?_
  have hset : Moves SameGate (.modify fun s : ContactStore S C ↦
      { s with integrityRegister := digest } : StoreM S C PUnit) := fun _ ↦ rfl
  refine hset.bind .trans fun _ ↦ ?_
  exact (Moves.gets .refl _).bind .trans fun _ ↦ storing_sameGate _

variable (hal) in
/-- Provisioning opens the gate in its last step, so a provisioning that fails leaves it as it
was. -/
theorem provisionFresh_sameGate :
    MovesOnError (fun p q ↦ SameGate p.1 q.1)
      (provisionFresh hal : Fallible (ContactStore S C × C) _ _) := by
  have hrefl : ∀ p : ContactStore S C × C, SameGate p.1 p.1 := fun _ ↦ rfl
  have htrans : ∀ {p q r : ContactStore S C × C}, SameGate p.1 q.1 → SameGate q.1 r.1 →
      SameGate p.1 r.1 := SameGate.trans
  have hbeside : ∀ {m : StoreM S C PUnit}, Moves SameGate m →
      Moves (fun p q : ContactStore S C × C ↦ SameGate p.1 q.1) (besideCounter m) :=
    fun hm p ↦ hm p.1
  have hload : Moves SameGate (loadIntegrityRegister hal : StoreM S C PUnit) :=
    (Moves.reading .refl _).bind .trans fun _ ↦ .modify fun _ ↦ rfl
  have hcount : Moves (fun p q ↦ SameGate p.1 q.1)
      (.zoom Prod.snd (fun c p ↦ (p.1, c)) (.orElse hal.counter.increment .counterError) :
        Fallible (ContactStore S C × C) ContactStoreError UInt32) := fun _ ↦ rfl
  refine (hbeside hload).bind_onError htrans fun _ ↦ (Moves.gets hrefl _).bind_onError htrans
    fun _ ↦ (Moves.require hrefl _ _).bind_onError htrans fun _ ↦
    (Moves.reading hrefl _).bind_onError htrans fun _ ↦
    (Moves.require hrefl _ _).bind_onError htrans fun _ ↦
    (hbeside eraseBand_sameGate).bind_onError htrans fun _ ↦
    (hbeside updateIntegrity_sameGate).bind_onError htrans fun _ ↦
    hcount.bind_onError htrans fun _ ↦
    (hbeside (storing_sameGate _)).bind_onError htrans fun _ ↦ ?_
  exact fun _ _ h ↦ nomatch h

/-- Two stores of one run with and one without some appends: the same store until provisioning,
alike ones from then on. -/
inductive Related (memory : S → Memory) : ContactStore S C → ContactStore S C → Prop where
  | unprovisioned {s : ContactStore S C} :
    u32OfLe ((memory s.storage).window contactStoreProvisionMarkerOffset 4) = 0 →
    s.integrityGate = false → Related memory s s
  | provisioned {s t : ContactStore S C} : Alike memory s t → Related memory s t

/-- A store whose gate is closed is related to itself. -/
theorem Related.refl (h : s.integrityGate = false) : Related memory s s := by
  by_cases hm : u32OfLe ((memory s.storage).window contactStoreProvisionMarkerOffset 4) = 0
  · exact .unprovisioned hm h
  · exact .provisioned (.refl hm)

/-- Behind an open gate related stores are alike. -/
theorem Related.alike (h : Related memory s t) (hgate : s.integrityGate = true) :
    Alike memory s t := by
  cases h with
  | unprovisioned _ hclosed => exact absurd (hclosed.symm.trans hgate) nofun
  | provisioned h => exact h

/-- New stores over the storages of related ones. -/
theorem Related.fresh (h : Related memory s t) :
    Related memory (new s.storage s.counter s.masterKey : ContactStore S C)
      (new t.storage t.counter t.masterKey) := by
  cases h with
  | unprovisioned hm _ => exact .unprovisioned hm rfl
  | provisioned h => exact .provisioned ⟨rfl, rfl, h.masterKey, rfl, rfl, h.storage⟩

/-- An append to a sound store increments the counter once. -/
theorem timingLogAppend_counter (hf : hal.storage.Faithful contactStoreEnd memory)
    (hgate : s.integrityGate = true) (hsound : Sound (memory s.storage)) (slot : UInt8)
    (lastFetched : UInt32) :
    (timingLogAppend hal slot lastFetched s).2.counter = (hal.counter.increment s.counter).2 := by
  obtain ⟨records, hrecords⟩ : ∃ rs, slots.mapM (readRecord hal s) = .ok rs :=
    Fallible.mapM_isOk_iff.mpr fun slot hslot ↦ readRecord_of_goodSlot hf (hsound.slots slot hslot)
  have hcount := (TimingLog.append_frame hf hal.counter slot lastFetched records
    ((s.timingLog, s.storage), s.counter)).2
  rw [timingLogAppend, Fallible.bind_of_ok (gate_of_open hgate),
    Fallible.bind_of_ok (by rw [Fallible.reading_apply, hrecords]), Fallible.bind_pure_snd,
    Fallible.zoom_apply]
  exact hcount

/-- Behind a closed gate nothing happens. -/
theorem gate_bind_of_closed {α : Type} {m : PUnit → StoreM S C α} (h : s.integrityGate = false) :
    ((gate >>= m) s).2 = s := by
  rw [Fallible.bind_of_error (gate_of_closed h)]

include hf

/-- **Appends keep stores related**, made on either side, both or none. -/
theorem Related.append_left (h : Related memory s t) (slot : UInt8) (lastFetched : UInt32) :
    Related memory (timingLogAppend hal slot lastFetched s).2 t := by
  cases h with
  | unprovisioned hm hgate =>
    rw [timingLogAppend, gate_bind_of_closed hgate]
    exact .unprovisioned hm hgate
  | provisioned h =>
    obtain ⟨heq, hsame⟩ := timingLogAppend_frame hf slot lastFetched s
    refine .provisioned ?_
    rw [heq]
    exact ⟨h.index, h.gate, h.masterKey, h.stringHeap, h.keyRegion,
      h.storage.of_log hsame (.refl _)⟩

theorem Related.append_both (h : Related memory s t) (slot : UInt8) (lastFetched : UInt32) :
    Related memory (timingLogAppend hal slot lastFetched s).2
      (timingLogAppend hal slot lastFetched t).2 := by
  cases h with
  | unprovisioned hm hgate =>
    rw [timingLogAppend, gate_bind_of_closed hgate]
    exact .unprovisioned hm hgate
  | provisioned h =>
    obtain ⟨hs, hsmem⟩ := timingLogAppend_frame hf slot lastFetched s
    obtain ⟨ht, htmem⟩ := timingLogAppend_frame hf slot lastFetched t
    refine .provisioned ?_
    rw [hs, ht]
    exact ⟨h.index, h.gate, h.masterKey, h.stringHeap, h.keyRegion, h.storage.of_log hsmem htmem⟩

/-- A check that passes on both sides or on neither keeps stores related. -/
theorem Related.verifyIntegrity (h : Related memory s t)
    (hcur : Current hal memory s ↔ Current hal memory t) :
    Related memory (verifyIntegrity hal s).2 (verifyIntegrity hal t).2 := by
  cases h with
  | unprovisioned hm hgate =>
    refine .refl ?_
    rw [ContactStore.verifyIntegrity, Fallible.bind_of_ok (Fallible.reading_eq_ok.mpr
      ⟨readProvisionMarker_eq hf s, rfl⟩), if_pos hm]
    rfl
  | provisioned h => exact .provisioned (verifyIntegrity_alike hf h hcur)

theorem Related.initOnBoot (h : Related memory s t)
    (hcur : Current hal memory s ↔ Current hal memory t) :
    Related memory (initOnBoot hal s).2 (initOnBoot hal t).2 := by
  cases h with
  | unprovisioned hm hgate =>
    rw [ContactStore.initOnBoot, Fallible.bind_apply, Fallible.reading_apply]
    rcases slots.mapM (readRecord hal s) with e | records
    · exact .unprovisioned hm hgate
    · exact Related.verifyIntegrity hf (.unprovisioned hm hgate) Iff.rfl
  | provisioned h => exact .provisioned (initOnBoot_alike hf h hcur)

/-- Provisioning keeps stores related: it is refused on both sides, or run on one store. -/
theorem Related.provisionFresh (h : Related memory s t) (provisioning : C) :
    Related memory (provisionFresh hal (s, provisioning)).2.1
        (provisionFresh hal (t, provisioning)).2.1 ∧
      (provisionFresh hal (t, provisioning)).2.2 = (provisionFresh hal (s, provisioning)).2.2 := by
  cases h with
  | unprovisioned hm hgate =>
    refine ⟨?_, rfl⟩
    rcases hrun : ContactStore.provisionFresh hal (s, provisioning) with ⟨e | u, p⟩
    · have hsame := provisionFresh_sameGate hal (s, provisioning) e (by rw [hrun])
      rw [hrun] at hsame
      exact .refl (Eq.trans hsame hgate)
    · exact .provisioned (.refl (provisionFresh_sealed hf hrun).sound.marker)
  | provisioned h =>
    have hmarker : u32OfLe ((memory t.storage).window contactStoreProvisionMarkerOffset 4) ≠ 0 := by
      rw [← Memory.window_congr h.storage.markers (Nat.le_refl _) (Nat.le_refl _)]
      exact h.storage.marker
    have hs := provisionFresh_again hf (p := (s, provisioning)) h.storage.marker
    have ht := provisionFresh_again hf (p := (t, provisioning)) hmarker
    rw [hs, ht]
    exact ⟨.provisioned ⟨h.index, h.gate, h.masterKey, h.stringHeap, h.keyRegion, h.storage⟩, rfl⟩

omit hf in
/-- An operation behind the gate that couples alike stores keeps stores related. -/
theorem Related.of_coupled {α : Type} {m : PUnit → StoreM S C α} (h : Related memory s t)
    (hm : Coupled (Alike memory) Eq (gate >>= m) (gate >>= m)) :
    Related memory ((gate >>= m) s).2 ((gate >>= m) t).2 := by
  cases h with
  | unprovisioned hmarker hgate =>
    rw [gate_bind_of_closed hgate]
    exact .unprovisioned hmarker hgate
  | provisioned h => exact .provisioned (hm s t h).2

omit hf in
theorem call_insert_snd (input : NewContact) (p : ContactStore S C × C) :
    (ContactStore.call hal (.insert input) p).2 = ((insert hal input p.1).2, p.2) := by
  rw [ContactStore.call, Fallible.bind_pure_snd, besideCounter, Fallible.zoom_apply]

/-- **A call made in both runs keeps stores related**, if a boot check passes on both sides or on
neither. -/
theorem Related.call (h : Related memory s t) (c : StoreCall) (provisioning : C)
    (hcur : c = .initOnBoot → (Current hal memory s ↔ Current hal memory t)) :
    Related memory (call hal c (s, provisioning)).2.1 (call hal c (t, provisioning)).2.1 ∧
      (call hal c (t, provisioning)).2.2 = (call hal c (s, provisioning)).2.2 := by
  cases c with
  | provisionFresh => exact h.provisionFresh hf provisioning
  | initOnBoot => exact ⟨h.initOnBoot hf (hcur rfl), rfl⟩
  | insert input =>
    have hinsert := h.of_coupled (insert_coupled hf input)
    rw [call_insert_snd, call_insert_snd]
    exact ⟨hinsert, rfl⟩
  | update slot upd => exact ⟨h.of_coupled (update_coupled hf slot upd), rfl⟩
  | delete slot => exact ⟨h.of_coupled (delete_coupled hf slot), rfl⟩
  | timingLogAppend slot lastFetched => exact ⟨h.append_both hf slot lastFetched, rfl⟩

/-! ## Unlocking -/

omit hf

variable {m : PinPolicyMachine} {z : Z} {zeroisation : ZeroisationTrigger Z} {slot : UInt8}
  {pin : PinBuffer}

/-- An unlock on this machine and store reaches the PIN policy. -/
def Asks (hal : StorePlatform S C) (m : PinPolicyMachine) (slot : UInt8) (s : ContactStore S C) :
    Prop :=
  s.integrityGate = true ∧ m.state ≠ .bricked ∧
    ∃ r, readRecord hal s slot = .ok r ∧ r.pinProtected ≠ 0

/-- The next charge puts both counters on the same side of the limit. -/
def SameVerdict (value : C → UInt32) (m : PinPolicyMachine) (s t : ContactStore S C) : Prop :=
  m.config.maxAttempts < saturatingAdd (value s.counter) 1 ↔
    m.config.maxAttempts < saturatingAdd (value t.counter) 1

/-- The attempt an unlock makes. -/
def attemptOn (hal : StorePlatform S C) (zeroisation : ZeroisationTrigger Z) (pin : PinBuffer)
    (r : ContactRecord) :
    Fallible (PinPolicyMachine × ContactStore S C × Z) HalError PinOutcome :=
  PinPolicyMachine.submitAttempt (storeCounter hal Z) (fun w ↦ (w.1, zeroisation w.2))
    fun w ↦ (pinCompare pin.bytes r.pinVerifier.toBytes, w)

/-- What an unlock answers to the outcome of its attempt. -/
def answerTo (hal : StorePlatform S C) (r : ContactRecord) (s : ContactStore S C) :
    Except HalError PinOutcome → Except ContactStoreError PublicKeyBlob
  | .error _ => .error .counterError
  | .ok .success => unwrapKey hal s r
  | .ok (.failed _) => .error .pinFailed
  | .ok .breach => .error .pinFailed

theorem unlock_closed (h : s.integrityGate ≠ true) :
    unlockPinProtected hal zeroisation slot pin (m, s, z) = (.error .notInitialised, (m, s, z)) := by
  rw [unlockPinProtected, Fallible.gets_bind, Fallible.require, if_neg h]
  rfl

theorem unlock_unreadable {e : ContactStoreError} (h : s.integrityGate = true)
    (hr : readRecord hal s slot = .error e) :
    unlockPinProtected hal zeroisation slot pin (m, s, z) = (.error e, (m, s, z)) := by
  rw [unlockPinProtected, Fallible.gets_bind,
    Fallible.bind_of_ok (a := ⟨⟩) (Fallible.require_eq_ok.mpr ⟨h, rfl⟩),
    Fallible.bind_of_error (by rw [Fallible.reading_apply, hr])]

theorem unlock_public {r : ContactRecord} (h : s.integrityGate = true)
    (hr : readRecord hal s slot = .ok r) (hp : r.pinProtected = 0) :
    unlockPinProtected hal zeroisation slot pin (m, s, z)
      = (readPublicKey hal s slot, (m, s, z)) := by
  rw [unlockPinProtected, Fallible.gets_bind,
    Fallible.bind_of_ok (a := ⟨⟩) (Fallible.require_eq_ok.mpr ⟨h, rfl⟩),
    Fallible.bind_of_ok (by rw [Fallible.reading_apply, hr]), if_pos hp, Fallible.reading_apply]

theorem unlock_protected {r : ContactRecord} (h : s.integrityGate = true)
    (hr : readRecord hal s slot = .ok r) (hp : r.pinProtected ≠ 0) :
    unlockPinProtected hal zeroisation slot pin (m, s, z)
      = (answerTo hal r (attemptOn hal zeroisation pin r (m, s, z)).2.2.1
          (attemptOn hal zeroisation pin r (m, s, z)).1,
        (attemptOn hal zeroisation pin r (m, s, z)).2) := by
  rw [unlockPinProtected, Fallible.gets_bind,
    Fallible.bind_of_ok (a := ⟨⟩) (Fallible.require_eq_ok.mpr ⟨h, rfl⟩),
    Fallible.bind_of_ok (by rw [Fallible.reading_apply, hr]), if_neg hp, Fallible.bind_apply,
    Fallible.orElse]
  rcases hatt : attemptOn hal zeroisation pin r (m, s, z) with ⟨_ | _ | _ | _, w⟩ <;>
    rw [attemptOn] at hatt <;> rw [hatt] <;> rfl

theorem storeCounter_increment (hp : hal.counter.Persistent value) (s : ContactStore S C) (z : Z) :
    (storeCounter hal Z).increment (s, z) = (.ok (saturatingAdd (value s.counter) 1),
      ({ s with counter := (hal.counter.increment s.counter).2 }, z)) :=
  Prod.ext (hp.increment_eq s.counter) rfl

variable (z zeroisation pin) in
/-- An attempt that reaches the counter bricks the machine exactly when the charge exceeds the
limit. -/
theorem attemptOn_bricks_iff (hp : hal.counter.Persistent value) (hm : m.state ≠ .bricked)
    (r : ContactRecord) (s : ContactStore S C) :
    (attemptOn hal zeroisation pin r (m, s, z)).2.1.state = .bricked ↔
      m.config.maxAttempts < saturatingAdd (value s.counter) 1 := by
  have hinc := storeCounter_increment hp s z
  by_cases hgt : m.config.maxAttempts < saturatingAdd (value s.counter) 1
  · rw [attemptOn, PinPolicyMachine.submitAttempt_breach hm hinc hgt]
    exact ⟨fun _ ↦ hgt, fun _ ↦ rfl⟩
  · refine ⟨fun h ↦ ?_, fun h ↦ absurd h hgt⟩
    cases hv : pinCompare pin.bytes r.pinVerifier.toBytes
    · rw [attemptOn, PinPolicyMachine.submitAttempt_failed hm hinc hgt hv] at h
      cases h
    · rw [attemptOn, PinPolicyMachine.submitAttempt_success hm hinc hgt hv] at h
      cases h

variable (hf : hal.storage.Faithful contactStoreEnd memory) (hp : hal.counter.Persistent value)
include hf hp

/-- Attempts over alike stores with the same verdict are answered alike. -/
theorem attemptOn_alike (h : Alike memory s t)
    (hverdict : m.state ≠ .bricked → SameVerdict value m s t) (r : ContactRecord) :
    let a := attemptOn hal zeroisation pin r (m, s, z)
    let b := attemptOn hal zeroisation pin r (m, t, z)
    answerTo hal r b.2.2.1 b.1 = answerTo hal r a.2.2.1 a.1 ∧ b.2.1 = a.2.1 ∧
      Alike memory a.2.2.1 b.2.2.1 ∧ b.2.2.2 = a.2.2.2 := by
  by_cases hm : m.state = .bricked
  · rw [attemptOn, PinPolicyMachine.submitAttempt_bricked hm,
      PinPolicyMachine.submitAttempt_bricked hm]
    exact ⟨rfl, rfl, h, rfl⟩
  have hs := storeCounter_increment hp s z
  have ht := storeCounter_increment hp t z
  by_cases hgt : m.config.maxAttempts < saturatingAdd (value s.counter) 1
  · rw [attemptOn, PinPolicyMachine.submitAttempt_breach hm hs hgt,
      PinPolicyMachine.submitAttempt_breach hm ht ((hverdict hm).mp hgt)]
    exact ⟨rfl, rfl, h.set_counter _ _, rfl⟩
  have hgt' := mt (hverdict hm).mpr hgt
  cases hv : pinCompare pin.bytes r.pinVerifier.toBytes
  · rw [attemptOn, PinPolicyMachine.submitAttempt_failed hm hs hgt hv,
      PinPolicyMachine.submitAttempt_failed hm ht hgt' hv]
    exact ⟨rfl, rfl, h.set_counter _ _, rfl⟩
  · rw [attemptOn, PinPolicyMachine.submitAttempt_success hm hs hgt hv,
      PinPolicyMachine.submitAttempt_success hm ht hgt' hv]
    have halike := h.set_counter (hal.counter.refundOnSuccess (hal.counter.increment s.counter).2).2
      (hal.counter.refundOnSuccess (hal.counter.increment t.counter).2).2
    exact ⟨(halike.unwrapKey_eq hf r).symm, rfl, halike, rfl⟩

variable (z zeroisation pin) in
/-- **An unlock over alike stores** is answered the same when the charges get the same verdict. -/
theorem unlock_alike (h : Alike memory s t)
    (hverdict : Asks hal m slot s → SameVerdict value m s t) :
    let a := unlockPinProtected hal zeroisation slot pin (m, s, z)
    let b := unlockPinProtected hal zeroisation slot pin (m, t, z)
    b.1 = a.1 ∧ b.2.1 = a.2.1 ∧ Alike memory a.2.2.1 b.2.2.1 ∧ b.2.2.2 = a.2.2.2 := by
  by_cases hgate : s.integrityGate = true
  swap
  · rw [unlock_closed hgate, unlock_closed (h.gate ▸ hgate)]
    exact ⟨rfl, rfl, h, rfl⟩
  have hgate' : t.integrityGate = true := h.gate.trans hgate
  rcases hr : readRecord hal s slot with e | r
  · rw [unlock_unreadable hgate hr,
      unlock_unreadable hgate' ((h.readRecord_eq hf slot).symm.trans hr)]
    exact ⟨rfl, rfl, h, rfl⟩
  have hr' : readRecord hal t slot = .ok r := (h.readRecord_eq hf slot).symm.trans hr
  by_cases hpin : r.pinProtected = 0
  · rw [unlock_public hgate hr hpin, unlock_public hgate' hr' hpin]
    exact ⟨(h.readPublicKey_eq hf slot).symm, rfl, h, rfl⟩
  · rw [unlock_protected hgate hr hpin, unlock_protected hgate' hr' hpin]
    exact attemptOn_alike hf hp h (fun hm ↦ hverdict ⟨hgate, hm, r, hr, hpin⟩) r

/-- An unlock that reaches the policy over alike stores leaves machines in the same state exactly
when the charges get the same verdict. -/
theorem unlock_agrees_iff (h : Alike memory s t) (hasks : Asks hal m slot s) :
    ((unlockPinProtected hal zeroisation slot pin (m, t, z)).1
          = (unlockPinProtected hal zeroisation slot pin (m, s, z)).1 ∧
        (unlockPinProtected hal zeroisation slot pin (m, t, z)).2.1.state
          = (unlockPinProtected hal zeroisation slot pin (m, s, z)).2.1.state) ↔
      SameVerdict value m s t := by
  constructor
  · rintro ⟨-, hstate⟩
    obtain ⟨hgate, hm, r, hr, hpin⟩ := hasks
    have hr' : readRecord hal t slot = .ok r := (h.readRecord_eq hf slot).symm.trans hr
    rw [unlock_protected hgate hr hpin, unlock_protected (h.gate.trans hgate) hr' hpin] at hstate
    have hbricks := attemptOn_bricks_iff z zeroisation pin hp hm r
    rw [SameVerdict, ← hbricks s, ← hbricks t]
    exact ⟨fun hs ↦ hstate.trans hs, fun ht ↦ hstate.symm.trans ht⟩
  · intro hverdict
    obtain ⟨hanswer, hmachine, -, -⟩ := unlock_alike hf z zeroisation
      pin hp h fun _ ↦ hverdict
    exact ⟨hanswer, by rw [hmachine]⟩

variable (z zeroisation pin) in
/-- Unlocks keep stores related. -/
theorem Related.unlock (h : Related memory s t)
    (hverdict : Asks hal m slot s → SameVerdict value m s t) :
    let a := unlockPinProtected hal zeroisation slot pin (m, s, z)
    let b := unlockPinProtected hal zeroisation slot pin (m, t, z)
    b.1 = a.1 ∧ b.2.1 = a.2.1 ∧ Related memory a.2.2.1 b.2.2.1 ∧ b.2.2.2 = a.2.2.2 := by
  cases h with
  | unprovisioned hm hgate =>
    rw [unlock_closed (by rw [hgate]; exact nofun)]
    exact ⟨rfl, rfl, .unprovisioned hm hgate, rfl⟩
  | provisioned h =>
    obtain ⟨hanswer, hmachine, halike, hz⟩ := unlock_alike hf z zeroisation
      pin hp h hverdict
    exact ⟨hanswer, hmachine, .provisioned halike, hz⟩

/-! ## Runs of a device -/

omit hf hp

/-- A store with its provisioning counter, the machines its callers hold, and what the wipe hook
acts on. -/
structure Device (S C Z : Type) where
  store : ContactStore S C
  provisioning : C
  machines : ℕ → PinPolicyMachine
  wiped : Z

/-- A call on the device. -/
inductive DeviceCall where
  | store (c : StoreCall)
  | verifyIntegrity
  /-- Power cycle: a new store over the same storage and counter, and new machines. -/
  | reboot (config : PinPolicyConfig)
  | newMachine (who : ℕ) (config : PinPolicyConfig)
  | unlock (who : ℕ) (slot : UInt8) (pin : PinBuffer)

/-- What an unlock shows: its answer and the state it leaves the machine in, which tells a failed
attempt from a breach. -/
structure UnlockOutcome where
  answer : Except ContactStoreError PublicKeyBlob
  state : PinState

/-- Make a call; only unlocks are observed. -/
def Device.step (hal : StorePlatform S C) (zeroisation : ZeroisationTrigger Z) (d : Device S C Z) :
    DeviceCall → List UnlockOutcome × Device S C Z
  | .store c =>
    let p := (ContactStore.call hal c (d.store, d.provisioning)).2
    ([], { d with store := p.1, provisioning := p.2 })
  | .verifyIntegrity => ([], { d with store := (ContactStore.verifyIntegrity hal d.store).2 })
  | .reboot config =>
    let store := new d.store.storage d.store.counter d.store.masterKey
    ([], { d with store := (initOnBoot hal store).2, machines := fun _ ↦ .new config })
  | .newMachine who config =>
    ([], { d with machines := fun i ↦ if i = who then .new config else d.machines i })
  | .unlock who slot pin =>
    let r := unlockPinProtected hal zeroisation slot pin (d.machines who, d.store, d.wiped)
    ([⟨r.1, r.2.1.state⟩], { d with
      store := r.2.2.1
      machines := fun i ↦ if i = who then r.2.1 else d.machines i
      wiped := r.2.2.2 })

/-- The outcomes of all unlocks of a run. -/
def Device.unlocks (hal : StorePlatform S C) (zeroisation : ZeroisationTrigger Z) :
    Device S C Z → List DeviceCall → List UnlockOutcome
  | _, [] => []
  | d, c :: cs => (d.step hal zeroisation c).1 ++ unlocks hal zeroisation (d.step hal zeroisation c).2 cs

/-- An event of a run: a call, or an append that is inserted into it. -/
inductive DeviceEvent where
  | call (c : DeviceCall)
  | inserted (slot : UInt8) (lastFetched : UInt32)

/-- The run with the inserted appends. -/
def withInserted : List DeviceEvent → List DeviceCall :=
  List.map fun
    | .call c => c
    | .inserted slot lastFetched => .store (.timingLogAppend slot lastFetched)

/-- The run without them. -/
def withoutInserted : List DeviceEvent → List DeviceCall :=
  List.filterMap fun
    | .call c => some c
    | .inserted _ _ => none

/-- A call that the inserted appends do not interfere with, given the device of the run with them
and that of the run without: an unlock that reaches the policy gets the same verdict, and a check
of the register passes in both runs or in neither. -/
def Undisturbed (hal : StorePlatform S C) (memory : S → Memory) (value : C → UInt32)
    (d e : Device S C Z) : DeviceCall → Prop
  | .unlock who slot _ =>
    Asks hal (d.machines who) slot d.store → SameVerdict value (d.machines who) d.store e.store
  | .verifyIntegrity | .reboot _ | .store .initOnBoot =>
    Current hal memory d.store ↔ Current hal memory e.store
  | _ => True

/-- Every call of a run is undisturbed, as the two devices stand when it is made. -/
def AllUndisturbed (hal : StorePlatform S C) (memory : S → Memory) (value : C → UInt32)
    (zeroisation : ZeroisationTrigger Z) :
    Device S C Z → Device S C Z → List DeviceEvent → Prop
  | _, _, [] => True
  | d, e, .call c :: events =>
    Undisturbed hal memory value d e c ∧
      AllUndisturbed hal memory value zeroisation (d.step hal zeroisation c).2
        (e.step hal zeroisation c).2 events
  | d, e, .inserted slot lastFetched :: events =>
    AllUndisturbed hal memory value zeroisation
      (d.step hal zeroisation (.store (.timingLogAppend slot lastFetched))).2 e events

/-- The devices of the two runs. -/
structure Device.Related (memory : S → Memory) (d e : Device S C Z) : Prop where
  store : ContactStore.Related memory d.store e.store
  provisioning : e.provisioning = d.provisioning
  machines : e.machines = d.machines
  wiped : e.wiped = d.wiped

variable {d e : Device S C Z}

include hf

/-- An append made in the first run only. -/
theorem Device.Related.inserted (h : d.Related memory e) (slot : UInt8) (lastFetched : UInt32) :
    (d.step hal zeroisation (.store (.timingLogAppend slot lastFetched))).2.Related memory e :=
  ⟨h.store.append_left hf slot lastFetched, h.provisioning, h.machines, h.wiped⟩

include hp

variable (zeroisation) in
/-- **Step.** An undisturbed call is answered the same and keeps the devices related. -/
theorem Device.Related.step (h : d.Related memory e) (c : DeviceCall)
    (hc : Undisturbed hal memory value d e c) :
    (d.step hal zeroisation c).1 = (e.step hal zeroisation c).1 ∧
      (d.step hal zeroisation c).2.Related memory (e.step hal zeroisation c).2 := by
  cases c with
  | store c =>
    obtain ⟨hstore, hprov⟩ := h.store.call hf c d.provisioning (by rintro rfl; exact hc)
    refine ⟨rfl, ?_, ?_, h.machines, h.wiped⟩
    · rw [Device.step, Device.step, h.provisioning]
      exact hstore
    · rw [Device.step, Device.step, h.provisioning]
      exact hprov
  | verifyIntegrity =>
    exact ⟨rfl, h.store.verifyIntegrity hf hc, h.provisioning, h.machines, h.wiped⟩
  | reboot config =>
    exact ⟨rfl, h.store.fresh.initOnBoot hf hc, h.provisioning, rfl, h.wiped⟩
  | newMachine who config =>
    exact ⟨rfl, h.store, h.provisioning, by rw [Device.step, Device.step, h.machines], h.wiped⟩
  | unlock who slot pin =>
    obtain ⟨hanswer, hmachine, hstore, hwiped⟩ := h.store.unlock hf d.wiped zeroisation
      pin (m := d.machines who) hp hc
    simp only [Device.step, h.machines, h.wiped]
    refine ⟨?_, hstore, h.provisioning, ?_, hwiped⟩
    · rw [hanswer, hmachine]
    · rw [hmachine]

/-- **Run.** Undisturbed runs on related devices have the same unlock outcomes. -/
theorem Device.Related.unlocks_eq (events : List DeviceEvent) : ∀ {d e : Device S C Z},
    d.Related memory e → AllUndisturbed hal memory value zeroisation d e events →
    d.unlocks hal zeroisation (withInserted events)
      = e.unlocks hal zeroisation (withoutInserted events) := by
  induction events with
  | nil => exact fun _ _ ↦ rfl
  | cons event events ih =>
    intro d e h hsafe
    cases event with
    | call c =>
      obtain ⟨hc, hrest⟩ := hsafe
      obtain ⟨hout, hrel⟩ := h.step hf zeroisation hp c hc
      have hih := ih hrel hrest
      change (d.step hal zeroisation c).1 ++ _ = (e.step hal zeroisation c).1 ++ _
      rw [hout]
      exact congrArg _ hih
    | inserted slot lastFetched => exact ih (h.inserted hf slot lastFetched) hsafe

omit hf hp

/-- A contact under a PIN. -/
def protectedContact : NewContact where
  fingerprint := .zero 32
  callsign := .zero 12
  dmrId := 0
  keyAlgo := .ed25519
  publicKey := []
  email := []
  displayName := none
  ownIdentity := false
  pinProtected := true
  pinVerifier := some (.zero 32)
  pinNonce := none
  pinTag := none

/-- The record of the protected contact. -/
def protectedRecord : ContactRecord :=
  (newRecord protectedContact (0, 0) (.zero 32, .zero 12, .zero 16) ⟨0, 0⟩ .default).recomputeCrc

/-- A new device on blank memory. -/
def sampleDevice : Device Memory UInt32 Bool :=
  ⟨new blank 0 (.zero 32), 0, fun _ ↦ .new default, false⟩

/-- A wipe hook that leaves a mark. -/
def zeroiseFlag : ZeroisationTrigger Bool := fun _ ↦ true

/-- A provisioned store that holds the protected contact. -/
structure Holds (s : ContactStore Memory UInt32) (count : UInt32) : Prop where
  gate : s.integrityGate = true
  counter : s.counter = count
  sound : Sound s.storage
  record : slotBytes s.storage 4 = protectedRecord.asBytes

theorem updateIntegrity_sample (s : ContactStore Memory UInt32) :
    ∃ d : Block 32, (updateIntegrity samplePlatform s).2 = s ∨
      (updateIntegrity samplePlatform s).2 = { s with
        integrityRegister := d
        storage := s.storage.patch contactStoreIntegrityOffset d.toBytes } := by
  rcases hd : computeIntegrityDigest samplePlatform s with e | d
  · refine ⟨.zero 32, .inl ?_⟩
    rw [updateIntegrity, Fallible.bind_of_error (by rw [Fallible.reading_apply, hd])]
  · refine ⟨d, .inr ?_⟩
    rw [updateIntegrity, Fallible.bind_of_ok (by rw [Fallible.reading_apply, hd]),
      Fallible.modify_bind, persistIntegrityRegister, Fallible.gets_bind, storing,
      Fallible.zoom_apply, writeAt_rram]

/-- The provisioned store with the bytes of a record in the first recipient slot. -/
def recorded (bytes : Bytes) : ContactStore Memory UInt32 :=
  { provisioned (.zero 32) with storage := provisionedMemory.patch (recordOffset 4) bytes }

/-- The store that `insert` hands to the refresh of the register. -/
def inserted (bytes : Bytes) (index : ContactIndex) : ContactStore Memory UInt32 :=
  { recorded bytes with index := index }

theorem storing_sample (off : ℕ) (bs : Bytes) (s : ContactStore Memory UInt32) :
    storing (writeAt samplePlatform.storage off bs) s
      = (.ok ⟨⟩, { s with storage := s.storage.patch off bs }) := by
  rw [storing, Fallible.zoom_apply, writeAt_rram]

theorem inserted_storage (bytes : Bytes) (index : ContactIndex) :
    (inserted bytes index).storage = provisionedMemory.patch (recordOffset 4) bytes := by
  simp only [inserted, recorded]

/-- An empty write leaves storage as it is. -/
theorem onStorage_nil {σ : Type} (a : σ) (off : ℕ) (mem : Memory) :
    onStorage (writeAt samplePlatform.storage off []) (a, mem) = (.ok ⟨⟩, (a, mem)) := by
  rw [onStorage, Fallible.zoom_apply, writeAt_rram, Memory.patch_nil]

theorem allocKey_nil :
    allocKey samplePlatform [] (provisioned (.zero 32)) = (.ok (0, 0), provisioned (.zero 32)) := by
  have halloc : KeyMaterialRegion.alloc samplePlatform.storage []
      ((provisioned (.zero 32)).keyRegion, (provisioned (.zero 32)).storage)
        = (.ok (0, 0), (⟨0⟩, provisionedMemory)) := by
    rw [KeyMaterialRegion.alloc,
      Fallible.bind_of_ok (a := ⟨⟩) (Fallible.require_eq_ok.mpr ⟨by decide, rfl⟩),
      Fallible.gets_bind,
      Fallible.bind_of_ok (a := ⟨⟩) (Fallible.require_eq_ok.mpr ⟨by decide, rfl⟩),
      Fallible.bind_of_ok (onStorage_nil _ _ _)]
    rfl
  rw [allocKey, Fallible.zoom_apply, halloc]
  rfl

theorem allocString_nil :
    allocString samplePlatform [] (provisioned (.zero 32))
      = (.ok ⟨0, 0⟩, provisioned (.zero 32)) := by
  have halloc : StringHeap.alloc samplePlatform.storage []
      ((provisioned (.zero 32)).stringHeap, (provisioned (.zero 32)).storage)
        = (.ok ⟨0, 0⟩, (⟨0⟩, provisionedMemory)) := by
    rw [StringHeap.alloc,
      Fallible.bind_of_ok (a := ⟨⟩) (Fallible.require_eq_ok.mpr ⟨by decide, rfl⟩),
      Fallible.gets_bind,
      Fallible.bind_of_ok (a := ⟨⟩) (Fallible.require_eq_ok.mpr ⟨by decide, rfl⟩),
      Fallible.bind_of_ok (onStorage_nil _ _ _)]
    rfl
  rw [allocString, Fallible.bind_of_ok (a := ⟨⟩) (Fallible.require_eq_ok.mpr ⟨by decide, rfl⟩),
    Fallible.zoom_apply, halloc]
  rfl

/-- The last steps of an insertion: the index, and the refresh. -/
theorem insert_tail {r : ContactRecord} {index : ContactIndex}
    (h : ContactIndex.new.insert r.fingerprint 4 r.contactFlags = .ok index) :
    ((do
        let index ← .reading fun s ↦ s.index.insert r.fingerprint 4 r.contactFlags
        .modify fun s ↦ { s with index := index }
        updateIntegrity samplePlatform
        pure 4 : StoreM Memory UInt32 UInt8) (recorded r.asBytes)).2
      = (updateIntegrity samplePlatform (inserted r.asBytes index)).2 := by
  have hread : Fallible.reading (fun s : ContactStore Memory UInt32 ↦
      s.index.insert r.fingerprint 4 r.contactFlags) (recorded r.asBytes)
        = (.ok index, recorded r.asBytes) := Prod.ext h rfl
  rw [Fallible.bind_of_ok hread, Fallible.modify_bind, Fallible.bind_pure_snd]
  rfl

theorem insert_protected : ∃ index,
    (insert samplePlatform protectedContact (provisioned (.zero 32))).2
      = (updateIntegrity samplePlatform (inserted protectedRecord.asBytes index)).2 := by
  have hslot : Fallible.reading (fun s ↦
      if protectedContact.ownIdentity then findEmptyOwnSlot samplePlatform s
      else findEmptyRecipientSlot samplePlatform s) (provisioned (.zero 32))
        = (.ok 4, provisioned (.zero 32)) := rfl
  have hwrite : ∀ r : ContactRecord, writeRecord samplePlatform 4 r (provisioned (.zero 32))
      = (.ok ⟨⟩, recorded r.asBytes) := fun r ↦ storing_sample _ _ _
  have hfresh : ∀ (fp : Block 32) (flags : ContactFlags),
      ∃ index, ContactIndex.new.insert fp 4 flags = .ok index := fun _ _ ↦ ⟨_, rfl⟩
  obtain ⟨index, hindex⟩ := hfresh protectedRecord.fingerprint protectedRecord.contactFlags
  refine ⟨index, ?_⟩
  have hkey : allocKey samplePlatform protectedContact.publicKey (provisioned (.zero 32))
      = (.ok (0, 0), provisioned (.zero 32)) := allocKey_nil
  have hpin : Fallible.lift (pinFields protectedContact) (provisioned (.zero 32))
      = (.ok (.zero 32, .zero 12, .zero 16), provisioned (.zero 32)) := rfl
  have hemail : allocString samplePlatform protectedContact.email (provisioned (.zero 32))
      = (.ok ⟨0, 0⟩, provisioned (.zero 32)) := allocString_nil
  have hname : protectedContact.displayName.elim (pure .default) (allocString samplePlatform)
      (provisioned (.zero 32)) = (.ok .default, provisioned (.zero 32)) := rfl
  rw [insert, Fallible.bind_of_ok (gate_of_open rfl), Fallible.bind_of_ok hslot,
    Fallible.bind_of_ok hkey, Fallible.bind_of_ok hpin, Fallible.bind_of_ok hemail]
  refine (congrArg Prod.snd (Fallible.bind_of_ok hname)).trans ?_
  have hrecord : (newRecord protectedContact (0, 0) (.zero 32, .zero 12, .zero 16) ⟨0, 0⟩
      .default).recomputeCrc = protectedRecord := rfl
  simp only [hrecord]
  rw [Fallible.bind_of_ok (hwrite protectedRecord)]
  exact insert_tail hindex

theorem Holds.of_sameRecords {s t : ContactStore Memory UInt32} {n : UInt32} (h : Holds s n)
    (hgate : t.integrityGate = s.integrityGate) {n' : UInt32} (hcount : t.counter = n')
    (hsame : SameRecords s.storage t.storage) : Holds t n' where
  gate := hgate.trans h.gate
  counter := hcount
  sound := h.sound.of_sameRecords hsame
  record := by rw [← slotBytes_congr hsame (by decide), h.record]

theorem holds_insert :
    Holds (insert samplePlatform protectedContact (provisioned (.zero 32))).2 0 := by
  obtain ⟨index, hindex⟩ := insert_protected
  have hsound : Sound provisionedMemory :=
    (provisionFresh_sealed samplePlatform_faithful (provisionFresh_blank (.zero 32))).sound
  have hloads : GoodSlot protectedRecord.asBytes :=
    goodSlot_recomputeCrc (loadable_newRecord _ _ _ _ _)
  have hholds : Holds (inserted protectedRecord.asBytes index) 0 :=
    ⟨rfl, rfl, by rw [inserted_storage]; exact hsound.patch_record 4 hloads,
      by rw [inserted_storage, slotBytes_patch, if_pos rfl]⟩
  rw [hindex]
  generalize inserted protectedRecord.asBytes index = s at hholds
  obtain ⟨d, hd | hd⟩ := updateIntegrity_sample s
  · rw [hd]
    exact hholds
  · have hsame : SameRecords s.storage (s.storage.patch contactStoreIntegrityOffset d.toBytes) :=
      sameRecords_patch (by decide) (.inr (Nat.le_refl _))
    rw [hd]
    exact ⟨hholds.gate, hholds.counter, hholds.sound.of_sameRecords hsame, by
      rw [← slotBytes_congr hsame (by decide), hholds.record]⟩

/-- Each append takes one from the shared budget. -/
theorem Holds.append {s : ContactStore Memory UInt32} {n : UInt32} (h : Holds s n) (slot : UInt8)
    (lastFetched : UInt32) :
    Holds (timingLogAppend samplePlatform slot lastFetched s).2 (saturatingAdd n 1) := by
  obtain ⟨heq, hsame⟩ := timingLogAppend_frame samplePlatform_faithful slot lastFetched s
  have hcount : (timingLogAppend samplePlatform slot lastFetched s).2.counter
      = saturatingAdd n 1 := by
    rw [timingLogAppend_counter samplePlatform_faithful h.gate h.sound, h.counter]
    rfl
  have hgate := congrArg ContactStore.integrityGate heq
  exact h.of_sameRecords hgate hcount (sameRecords_of_sameButLog hsame)

theorem Holds.asks {s : ContactStore Memory UInt32} {n : UInt32} (h : Holds s n) :
    Asks samplePlatform (.new default) 4 s := by
  refine ⟨h.gate, by decide, protectedRecord, ?_, by decide⟩
  have hmagic : (slotBytes s.storage 4).take 4 = u32le contactRecordMagic := by
    rw [h.record, ContactRecord.take_magic]
    rfl
  rw [readRecord, readRecord_bytes samplePlatform_faithful]
  change (if (slotBytes s.storage 4).take 4 ≠ u32le contactRecordMagic then pure .default
    else ContactRecord.fromBytesVerified (slotBytes s.storage 4)) = _
  rw [if_neg (not_not_intro hmagic), h.record, ContactRecord.fromBytesVerified_of_loadable]
  · rw [ContactRecord.fromBytesUnchecked_asBytes]
  · exact ContactRecord.recordCrcOk_recomputeCrc _
  · rw [ContactRecord.fromBytesUnchecked_asBytes]
    exact fun _ ↦ ⟨.ed25519, rfl⟩

/-- The device once it is provisioned. -/
def provisionedDevice (store : ContactStore Memory UInt32) : Device Memory UInt32 Bool :=
  { sampleDevice with store := store, provisioning := 1 }

theorem step_provision : sampleDevice.step samplePlatform zeroiseFlag (.store .provisionFresh)
    = ([], provisionedDevice (provisioned (.zero 32))) := by
  have hcall : ContactStore.call samplePlatform .provisionFresh
      (sampleDevice.store, sampleDevice.provisioning) = (.ok ⟨⟩, (provisioned (.zero 32), 1)) := by
    rw [ContactStore.call]
    exact provisionFresh_blank (.zero 32)
  rw [Device.step, hcall, provisionedDevice]

theorem step_insert (s : ContactStore Memory UInt32) (input : NewContact) :
    (provisionedDevice s).step samplePlatform zeroiseFlag (.store (.insert input))
      = ([], provisionedDevice (insert samplePlatform input s).2) := by
  rw [Device.step, call_insert_snd]
  rfl

/-- The wrong PIN of the sample runs. -/
def samplePin : PinBuffer := ⟨[49], by decide, by decide⟩

/-- Provision, take in the contact, and carry on. -/
def loadRun (events : List DeviceEvent) : List DeviceEvent :=
  .call (.store .provisionFresh) :: .call (.store (.insert protectedContact)) :: events

/-- `n` fetches, and one unlock. -/
def fetchRun (n : ℕ) : List DeviceEvent :=
  List.replicate n (.inserted 4 0) ++ [.call (.unlock 0 4 samplePin)]

/-- The device that holds the protected contact is reached. -/
theorem exists_loaded : ∃ s, Holds s 0 ∧ ∀ events,
    sampleDevice.unlocks samplePlatform zeroiseFlag (withInserted (loadRun events))
        = (provisionedDevice s).unlocks samplePlatform zeroiseFlag (withInserted events) ∧
      sampleDevice.unlocks samplePlatform zeroiseFlag (withoutInserted (loadRun events))
        = (provisionedDevice s).unlocks samplePlatform zeroiseFlag (withoutInserted events) ∧
      (AllUndisturbed samplePlatform (fun m ↦ m) id zeroiseFlag (provisionedDevice s)
          (provisionedDevice s) events →
        AllUndisturbed samplePlatform (fun m ↦ m) id zeroiseFlag sampleDevice sampleDevice
          (loadRun events)) := by
  refine ⟨_, holds_insert, fun events ↦ ⟨?_, ?_, fun h ↦ ⟨trivial, ?_⟩⟩⟩
  · change sampleDevice.unlocks samplePlatform zeroiseFlag (.store .provisionFresh ::
      .store (.insert protectedContact) :: withInserted events) = _
    rw [Device.unlocks, step_provision, Device.unlocks, step_insert, List.nil_append,
      List.nil_append]
  · change sampleDevice.unlocks samplePlatform zeroiseFlag (.store .provisionFresh ::
      .store (.insert protectedContact) :: withoutInserted events) = _
    rw [Device.unlocks, step_provision, Device.unlocks, step_insert, List.nil_append,
      List.nil_append]
  · rw [step_provision]
    refine ⟨trivial, ?_⟩
    rw [step_insert]
    exact h

/-- A device after `n` fetches. -/
def fetched (d : Device Memory UInt32 Bool) : ℕ → Device Memory UInt32 Bool
  | 0 => d
  | n + 1 => fetched (d.step samplePlatform zeroiseFlag (.store (.timingLogAppend 4 0))).2 n

/-- The shared count after `n` fetches. -/
def fetchCount (count : UInt32) : ℕ → UInt32
  | 0 => count
  | n + 1 => fetchCount (saturatingAdd count 1) n

theorem holds_fetched (n : ℕ) : ∀ {d : Device Memory UInt32 Bool} {count : UInt32},
    Holds d.store count → Holds (fetched d n).store (fetchCount count n) := by
  induction n with
  | zero => exact fun h ↦ h
  | succ n ih => exact fun h ↦ ih (h.append 4 0)

theorem related_fetched (n : ℕ) : ∀ {d e : Device Memory UInt32 Bool},
    d.Related (fun m ↦ m) e → (fetched d n).Related (fun m ↦ m) e := by
  induction n with
  | zero => exact fun h ↦ h
  | succ n ih => exact fun h ↦ ih (h.inserted samplePlatform_faithful 4 0)

theorem unlocks_fetched (n : ℕ) (calls : List DeviceEvent) :
    ∀ d : Device Memory UInt32 Bool, d.unlocks samplePlatform zeroiseFlag
        (withInserted (List.replicate n (.inserted 4 0) ++ calls))
      = (fetched d n).unlocks samplePlatform zeroiseFlag (withInserted calls) := by
  induction n with
  | zero => exact fun _ ↦ rfl
  | succ n ih => exact fun d ↦ ih _

theorem withoutInserted_fetchRun (n : ℕ) :
    withoutInserted (fetchRun n) = [.unlock 0 4 samplePin] := by
  induction n with
  | zero => rfl
  | succ n ih => exact ih

/-- The unlock behind `n` fetches gets the verdict of the unlock without them as long as the
fetches leave room below the limit. -/
theorem sameVerdict_fetched {d : Device Memory UInt32 Bool} (h : Holds d.store 0) (n : ℕ) :
    SameVerdict id (.new default) (fetched d n).store d.store ↔
      saturatingAdd (fetchCount 0 n) 1 ≤ defaultMaxPinAttempts := by
  rw [SameVerdict, (holds_fetched n h).counter, h.counter]
  have hone : ¬ defaultMaxPinAttempts < saturatingAdd 0 1 := by decide
  change (defaultMaxPinAttempts < saturatingAdd (fetchCount 0 n) 1 ↔
    defaultMaxPinAttempts < saturatingAdd 0 1) ↔ _
  rw [iff_false_right hone, UInt32.not_lt]

/-- The machine of a sample device, and its wipe flag, are untouched by fetches. -/
theorem fetched_rest {d : Device Memory UInt32 Bool} (h : Holds d.store 0) (n : ℕ) :
    Alike (fun m ↦ m) (fetched d n).store d.store ∧ (fetched d n).machines = d.machines ∧
      (fetched d n).wiped = d.wiped := by
  have hrel := related_fetched n (d := d) (e := d) ⟨.provisioned (.refl h.sound.marker), rfl, rfl,
    rfl⟩
  exact ⟨hrel.store.alike (holds_fetched n h).gate, hrel.machines.symm, hrel.wiped.symm⟩

end Galdralag.Contacts.ContactStore
