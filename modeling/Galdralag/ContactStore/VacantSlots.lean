import Galdralag.ContactStore.FetchTimes
import Galdralag.ContactStore.SecondaryLookups
import Galdralag.ContactStore.SlotBounds

/-!
# Calls on a vacant slot

A slot without a record reads as the empty record, which has no flags, no key and no PIN. Each call
that names a slot decides by a field of its own whether there is a contact. An update asks for the
active flag and refuses. Reading a public key asks whether a PIN is needed, which it is not, and
then reads a key of no bytes; so does unlocking. An append to the log asks nothing.

No lookup and no list refers to a vacant slot, as these ask for active records.
-/

set_option linter.all false

namespace Galdralag.Contacts

namespace ContactStore

open Fallible (bind_of_ok bind_of_error require_of)

variable {S C Z : Type} {hal : StorePlatform S C} {memory : S → Memory} {s : ContactStore S C}
  {slot : UInt8}

/-! ## What a vacant slot should do -/

/-- There is no active contact in the slot. -/
def VacantIn (mem : Memory) (slot : UInt8) : Prop :=
  slot ∈ slots ∧ (recordIn mem slot).isActive = false

theorem VacantIn.not_occupied (h : VacantIn (memory s.storage) slot) (hkept : Kept memory s) :
    ¬ Occupied (memory s.storage) slot := fun hocc ↦
  Bool.false_ne_true (h.2.symm.trans ((isActive_recordIn hkept.live h.1).mpr hocc))

/-- The call fails, and leaves the storage, the index and the counter as they are. -/
structure Refused (w : PinPolicyMachine × ContactStore S C × Z)
    (res : Except ContactStoreError (Option PublicKeyBlob) ×
      PinPolicyMachine × ContactStore S C × Z) : Prop where
  failed : ∃ e, res.1 = .error e
  storage : res.2.2.1.storage = w.2.1.storage
  index : res.2.2.1.index = w.2.1.index
  counter : res.2.2.1.counter = w.2.1.counter

/-- The answer, if there is one, is the record of another slot. -/
def Elsewhere (mem : Memory) (slot : UInt8) (answer : Except ContactStoreError ContactRecord) :
    Prop :=
  ∀ r, answer = .ok r → ∃ slot' ∈ slots, slot' ≠ slot ∧ recordIn mem slot' = r

/-- No lookup and no list entry refers to the slot. -/
structure Unreferenced (hal : StorePlatform S C) (memory : S → Memory) (s : ContactStore S C)
    (slot : UInt8) : Prop where
  slotOf : ∀ fp, lookupSlotByFp hal s fp ≠ .ok slot
  fingerprint : ∀ fp, Elsewhere (memory s.storage) slot (lookupByFingerprint hal s fp)
  callsign : ∀ callsign, Elsewhere (memory s.storage) slot (lookupByCallsign hal s callsign)
  dmrId : ∀ dmrId, Elsewhere (memory s.storage) slot (lookupByDmrId hal s dmrId)
  email : ∀ email, Elsewhere (memory s.storage) slot (lookupByEmail hal s email)
  listed : ∀ items fp, list hal s = .ok items → .ok (slot, fp) ∉ items

/-- **Answering as vacant.** Every call on the slot that is no deletion is refused, and nothing
refers to the slot. -/
structure AnswersAsVacant (hal : StorePlatform S C) (memory : S → Memory)
    (zeroisation : ZeroisationTrigger Z) (slot : UInt8)
    (w : PinPolicyMachine × ContactStore S C × Z) : Prop where
  refused : ∀ call, call ≠ SlotCall.delete → Refused w (call.run hal zeroisation slot w)
  unreferenced : Unreferenced hal memory w.2.1 slot

/-- A key of no bytes. -/
def emptyKey : PublicKeyBlob := ⟨[], Nat.zero_le _⟩

/-- What a vacant slot does behind an open gate: updates are refused and nothing refers to it, but
it gives out a key of no bytes, with a PIN and without one, and an append to it is stored. -/
structure TakenForContact (hal : StorePlatform S C) (memory : S → Memory)
    (zeroisation : ZeroisationTrigger Z) (slot : UInt8)
    (w : PinPolicyMachine × ContactStore S C × Z) : Prop where
  update : ∀ upd, SlotCall.run hal zeroisation slot (.update upd) w = (.error .invalidSlot, w)
  readPublicKey : SlotCall.run hal zeroisation slot .readPublicKey w = (.ok (some emptyKey), w)
  unlockPinProtected : ∀ pin,
    SlotCall.run hal zeroisation slot (.unlockPinProtected pin) w = (.ok (some emptyKey), w)
  timingLogAppend : ∀ lastFetched seq c, w.2.1.timingLog.count < maxEntries →
    hal.counter.increment w.2.1.counter = (.ok seq, c) →
    ∃ x, SlotCall.run hal zeroisation slot (.timingLogAppend lastFetched) w
      = (.ok none, (w.1, { w.2.1 with
          storage := x, counter := c, timingLog := ⟨w.2.1.timingLog.count + 1⟩ }, w.2.2))
  unreferenced : Unreferenced hal memory w.2.1 slot

/-! ## References -/

section References

/-- Behind a closed gate nothing is found. -/
theorem unreferenced_of_closed (hgate : s.integrityGate = false) : Unreferenced hal memory s slot := by
  have hclosed : ensure (s.integrityGate = true) ContactStoreError.notInitialised
      = .error .notInitialised := by
    rw [ensure, hgate, if_neg Bool.false_ne_true]
  have hlookup : ∀ fp, lookupSlotByFp hal s fp = .error .notInitialised := by
    intro fp
    rw [lookupSlotByFp, hclosed, error_bind]
  constructor
  · intro fp
    rw [hlookup]
    rintro ⟨⟩
  · intro fp r h
    rw [lookupByFingerprint, hlookup] at h
    cases h
  · intro callsign r h
    rw [lookupByCallsign, hclosed] at h
    cases h
  · intro dmrId r h
    rw [lookupByDmrId, hclosed] at h
    cases h
  · intro email r h
    rw [lookupByEmail, hclosed] at h
    cases h
  · intro items fp h
    rw [list, hclosed] at h
    cases h

/-- A scan for active records does not stop at a vacant slot. -/
theorem elsewhere_firstOf {mem : Memory} {f : ContactRecord → Bool}
    (hvacant : (recordIn mem slot).isActive = false) (hf : ∀ r, f r = true → r.isActive = true) :
    Elsewhere mem slot (firstOf (slots.map (recordIn mem)) f) := by
  intro r h
  rcases hfind : (slots.map (recordIn mem)).find? f with _ | q
  · rw [firstOf, hfind] at h
    cases h
  · rw [firstOf, hfind] at h
    obtain rfl : q = r := Except.ok.inj h
    obtain ⟨slot', hslot', rfl⟩ := List.mem_map.mp (List.mem_of_find?_eq_some hfind)
    refine ⟨slot', hslot', ?_, rfl⟩
    rintro rfl
    exact Bool.false_ne_true (hvacant.symm.trans (hf _ (List.find?_some hfind)))

variable (hf : hal.storage.Faithful contactStoreEnd memory)
include hf

/-- Of a store that fits its records nothing refers to a vacant slot. -/
theorem unreferenced_of_kept (hkept : Kept memory s)
    (hcat : Catalogued (memory s.storage) s.index) (hgate : s.integrityGate = true)
    (hvacant : VacantIn (memory s.storage) slot) : Unreferenced hal memory s slot := by
  have hfree := hvacant.not_occupied hkept
  constructor
  · intro fp h
    rw [lookupSlotByFp, ensure_eq_ok.mpr hgate, ok_bind] at h
    obtain ⟨found, hfound, h⟩ := except_bind_eq_ok.mp h
    obtain ⟨r, -, h⟩ := except_bind_eq_ok.mp h
    obtain ⟨-, h⟩ := ensure_bind_eq_ok.mp h
    obtain rfl : found = slot := Except.ok.inj h
    rcases hpre : s.index.lookupPrefix (prefixOf fp) with _ | found
    · rw [hpre] at hfound
      cases hfound
    · rw [hpre] at hfound
      obtain rfl := Except.ok.inj hfound
      exact Bool.false_ne_true
        (hvacant.2.symm.trans (lookupPrefix_some hkept hcat hpre).2.1)
  · intro fp r h
    rw [lookupByFingerprint_eq hf hkept hcat hgate] at h
    rcases hpre : s.index.lookupPrefix (prefixOf fp) with _ | found
    · rw [hpre] at h
      cases h
    obtain ⟨hfound, hactive, -⟩ := lookupPrefix_some hkept hcat hpre
    rw [hpre, Option.elim_some] at h
    split_ifs at h
    refine ⟨found, hfound, ?_, Except.ok.inj h⟩
    rintro rfl
    exact Bool.false_ne_true (hvacant.2.symm.trans hactive)
  · intro callsign
    rw [lookupByCallsign_eq hf hkept hgate]
    exact elsewhere_firstOf hvacant.2 fun r hr ↦ (Bool.and_eq_true_iff.mp hr).1
  · intro dmrId
    by_cases hzero : dmrId = 0
    · intro r h
      rw [lookupByDmrId, ensure_eq_ok.mpr hgate, ok_bind, ensure, if_neg (not_not.mpr hzero)] at h
      cases h
    · rw [lookupByDmrId_eq hf hkept hgate hzero]
      exact elsewhere_firstOf hvacant.2 fun r hr ↦ (Bool.and_eq_true_iff.mp hr).1
  · intro email
    rw [lookupByEmail_eq hf hkept hgate]
    exact elsewhere_firstOf hvacant.2 fun r hr ↦ (Bool.and_eq_true_iff.mp hr).1
  · intro items fp h hmem
    rw [list_of_kept hf hkept hgate] at h
    obtain rfl := Except.ok.inj h
    obtain ⟨listed, hlisted, heq⟩ := List.mem_map.mp hmem
    obtain ⟨rfl, -⟩ := Prod.mk.inj (Except.ok.inj heq)
    exact hfree ((hkept.index.mem_iff listed).mp hlisted).2

end References

/-! ## Calls -/

section Calls

variable {zeroisation : ZeroisationTrigger Z} {w : PinPolicyMachine × ContactStore S C × Z}

theorem refused_of_error {e : ContactStoreError} : Refused w (.error e, w) :=
  ⟨⟨e, rfl⟩, rfl, rfl, rfl⟩

variable (hf : hal.storage.Faithful contactStoreEnd memory)
include hf

/-- A vacant slot reads as the empty record. -/
theorem readRecord_vacant (hkept : Kept memory s) (hvacant : VacantIn (memory s.storage) slot) :
    readRecord hal s slot = .ok .default := by
  rw [readRecord_of_sound hf hkept.live.sound hvacant.1, recordIn,
    if_neg (hvacant.not_occupied hkept)]

/-- Its public key has no bytes. -/
theorem readPublicKey_vacant (hkept : Kept memory s) (hgate : s.integrityGate = true)
    (hvacant : VacantIn (memory s.storage) slot) : readPublicKey hal s slot = .ok emptyKey := by
  rw [readPublicKey, if_neg (not_not_intro hgate), readRecord_vacant hf hkept hvacant]
  rfl

/-- Unlocking asks for no PIN there, and gives the same key. -/
theorem unlockPinProtected_vacant (hkept : Kept memory w.2.1) (hgate : w.2.1.integrityGate = true)
    (hvacant : VacantIn (memory w.2.1.storage) slot) (pin : PinBuffer) :
    unlockPinProtected hal zeroisation slot pin w = (.ok emptyKey, w) := by
  have hread := readRecord_vacant hf hkept hvacant
  rw [unlockPinProtected, Fallible.gets_bind, bind_of_ok (require_of hgate _ _),
    bind_of_ok (by rw [Fallible.reading_apply, hread])]
  refine Eq.trans (b := Fallible.reading (fun w ↦ readPublicKey hal w.2.1 slot) w) rfl ?_
  rw [Fallible.reading_apply, readPublicKey_vacant hf hkept hgate hvacant]

/-- An update is refused. -/
theorem update_vacant (hkept : Kept memory s) (hgate : s.integrityGate = true)
    (hvacant : VacantIn (memory s.storage) slot) (upd : ContactUpdate) :
    update hal slot upd s = (.error .invalidSlot, s) :=
  update_of_inactive hgate upd (readRecord_vacant hf hkept hvacant) rfl

/-- So a vacant slot of an open store is taken for a contact. -/
theorem takenForContact_of_kept (hkept : Kept memory w.2.1)
    (hcat : Catalogued (memory w.2.1.storage) w.2.1.index) (hgate : w.2.1.integrityGate = true)
    (hvacant : VacantIn (memory w.2.1.storage) slot) :
    TakenForContact hal memory zeroisation slot w := by
  constructor
  · intro upd
    refine (besideMachine_bind_pure _ _ w).trans ?_
    rw [update_vacant hf hkept hgate hvacant]
    rfl
  · refine (besideMachine_bind_pure _ _ w).trans ?_
    rw [Fallible.reading_apply, readPublicKey_vacant hf hkept hgate hvacant]
    rfl
  · intro pin
    exact bind_of_ok (unlockPinProtected_vacant hf hkept hgate hvacant pin)
  · intro lastFetched seq c hroom hcount
    obtain ⟨x, hrun, -⟩ :=
      timingLogAppend_run hf hgate hkept.live.sound hroom hcount slot lastFetched
    refine ⟨x, (besideMachine_bind_pure _ _ w).trans ?_⟩
    rw [hrun]
    rfl
  · exact unreferenced_of_kept hf hkept hcat hgate hvacant

/-- **Vacant slots.** In a reachable store a vacant slot answers as vacant exactly if the gate is
closed, so that nothing is answered at all. Behind an open gate it is taken for a contact. -/
theorem vacant_slots_iff {storage : S} (counter provisioning : C) (key : Block 32)
    (hmarker : u32OfLe ((memory storage).window contactStoreProvisionMarkerOffset 4) = 0)
    (actions : List (StoreAction C)) (zeroisation : ZeroisationTrigger Z)
    (machine : PinPolicyMachine) (z : Z) (slot : UInt8) :
    let s := (afterActions hal (new storage counter key, provisioning) actions).1
    VacantIn (memory s.storage) slot →
      (AnswersAsVacant hal memory zeroisation slot (machine, s, z) ↔ s.integrityGate = false) ∧
        (s.integrityGate = true → TakenForContact hal memory zeroisation slot (machine, s, z)) := by
  intro s hvacant
  have hopen : s.integrityGate = true →
      TakenForContact hal memory zeroisation slot (machine, s, z) := by
    intro hgate
    have hstart : Tracked hal memory (new storage counter key, provisioning).1 :=
      .unprovisioned hmarker rfl
    rcases tracked_afterActions hf actions hstart with ⟨-, hclosed⟩ | ⟨hkept, -⟩
    · exact absurd (hclosed.symm.trans hgate) Bool.false_ne_true
    · exact takenForContact_of_kept hf hkept
        (catalogued_afterActions hf hmarker counter provisioning key actions hkept) hgate hvacant
  refine ⟨⟨fun h ↦ ?_, fun hgate ↦ ?_⟩, hopen⟩
  · -- the key of no bytes is an answer that is no refusal
    refine Bool.eq_false_iff.mpr fun hgate ↦ ?_
    obtain ⟨e, he⟩ := (h.refused .readPublicKey (by rintro ⟨⟩)).failed
    rw [(hopen hgate).readPublicKey] at he
    cases he
  · refine ⟨fun call _ ↦ ?_, unreferenced_of_closed hgate⟩
    rw [run_of_closed hgate]
    exact refused_of_error

end Calls

/-! ## A blank storage -/

/-- A new store has no contacts. -/
theorem vacantIn_provisioned (hslot : slot ∈ slots) :
    VacantIn (provisioned (.zero 32)).storage slot := by
  refine ⟨hslot, Bool.eq_false_iff.mpr fun hactive ↦ ?_⟩
  exact slotBytes_provisioned_ne (.refl _) hslot
    ((isActive_recordIn kept_provisioned.live hslot).mp hactive)

/-- A slot of a new store is taken for a contact. -/
theorem takenForContact_provisioned : TakenForContact samplePlatform (fun m ↦ m) id 4
    (PinPolicyMachine.new default,
      (afterActions samplePlatform (new blank 0 (.zero 32), 0) [.provisionFresh]).1, ()) := by
  have hslots := (vacant_slots_iff samplePlatform_faithful 0 0 (.zero 32) marker_blank
    [.provisionFresh] id (PinPolicyMachine.new default) () 4)
  rw [afterActions_provisionFresh] at hslots ⊢
  exact (hslots (vacantIn_provisioned (by decide))).2 rfl

/-- It was never used, and gives out a public key. -/
theorem unused_slot_has_key : ¬ AnswersAsVacant samplePlatform (fun m ↦ m) id 4
    (PinPolicyMachine.new default,
      (afterActions samplePlatform (new blank 0 (.zero 32), 0) [.provisionFresh]).1, ()) := by
  rw [afterActions_provisionFresh]
  intro h
  obtain ⟨e, he⟩ := (h.refused .readPublicKey (by rintro ⟨⟩)).failed
  have hread : readPublicKey samplePlatform (provisioned (.zero 32)) 4 = .ok emptyKey :=
    readPublicKey_vacant samplePlatform_faithful kept_provisioned rfl
      (vacantIn_provisioned (by decide))
  rw [SlotCall.run, besideMachine_bind_pure, Fallible.reading_apply, hread] at he
  cases he

end ContactStore

end Galdralag.Contacts
