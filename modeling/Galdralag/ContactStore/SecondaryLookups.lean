import Galdralag.ContactStore.Fingerprints

/-!
# Looking up a contact by other identifiers

A contact can also be looked up by its callsign, its DMR id and its e-mail address. The index does
not have these: the slots are scanned, and the first active record whose identifier is that of the
query is returned. A contact may lack each of the three, and then the field is zero, or the string
empty.

Asked for the DMR id zero, a lookup finds nothing. Asked for the callsign of zeros, it finds the
first contact that has none. An e-mail address of no bytes counts as lacking only where its offset
is zero too, which it is in a store whose string heap was empty when the contact came in; anywhere
else, asking for the address of no bytes finds the contact.
-/

set_option linter.all false

namespace Galdralag.Contacts

namespace ContactStore

open Fallible (bind_of_ok bind_of_error)

variable {S C : Type} {hal : StorePlatform S C} {memory : S → Memory} {s : ContactStore S C}

/-! ## The lookups -/

/-- The first record, among those in the given slots, that passes a check. -/
def scanSlots (hal : StorePlatform S C) (s : ContactStore S C)
    (check : ContactRecord → Except ContactStoreError Bool) :
    List UInt8 → Except ContactStoreError ContactRecord
  | [] => .error .slotNotFound
  | slot :: rest => do
    let r ← readRecord hal s slot
    if ← check r then pure r else scanSlots hal s check rest

/-- Lookup by callsign (fixed 12-byte field). -/
def lookupByCallsign (hal : StorePlatform S C) (s : ContactStore S C) (callsign : Block 12) :
    Except ContactStoreError ContactRecord := do
  let _ ← ensure (s.integrityGate = true) .notInitialised
  scanSlots hal s (fun r ↦ pure (r.isActive && decide (r.callsign = callsign))) slots

/-- Lookup by DMR subscriber id. -/
def lookupByDmrId (hal : StorePlatform S C) (s : ContactStore S C) (dmrId : UInt32) :
    Except ContactStoreError ContactRecord := do
  let _ ← ensure (s.integrityGate = true) .notInitialised
  let _ ← ensure (dmrId ≠ 0) .slotNotFound
  scanSlots hal s (fun r ↦ pure (r.isActive && decide (r.dmrId = dmrId))) slots

/-- The record is active, and its e-mail address is the target. -/
def hasEmail (hal : StorePlatform S C) (s : ContactStore S C) (target : Bytes) (r : ContactRecord) :
    Except ContactStoreError Bool :=
  if !r.isActive || r.email.isEmpty then pure false
  else if r.email.len.toNat > 256 then pure false
  else do
    let buf ← StringHeap.read hal.storage s.storage r.email r.email.len.toNat
    pure (decide (buf = target))

/-- Lookup by e-mail (scans string heap). -/
def lookupByEmail (hal : StorePlatform S C) (s : ContactStore S C) (email : Bytes) :
    Except ContactStoreError ContactRecord := do
  let _ ← ensure (s.integrityGate = true) .notInitialised
  scanSlots hal s (hasEmail hal s email) slots

/-! ## What a lookup should return -/

/-- The store has an active record of which `has` holds. -/
def HasActive (mem : Memory) (has : ContactRecord → Prop) : Prop :=
  ∃ slot ∈ slots, (recordIn mem slot).isActive = true ∧ has (recordIn mem slot)

/-- **A right answer.** An active record with the identifier is returned if there is one, and
otherwise none is found. -/
structure Finds (mem : Memory) (has : ContactRecord → Prop)
    (answer : Except ContactStoreError ContactRecord) : Prop where
  sound : ∀ r, answer = .ok r → ∃ slot ∈ slots, recordIn mem slot = r ∧ r.isActive = true ∧ has r
  complete : HasActive mem has → ∃ r, answer = .ok r
  notFound : ¬ HasActive mem has → answer = .error .slotNotFound

/-- The callsign of the query, where it is one. -/
def HasCallsign (callsign : Block 12) (r : ContactRecord) : Prop :=
  callsign ≠ .zero 12 ∧ r.callsign = callsign

/-- The DMR id of the query, where it is one. -/
def HasDmrId (dmrId : UInt32) (r : ContactRecord) : Prop := dmrId ≠ 0 ∧ r.dmrId = dmrId

/-- The e-mail address of the query, where it is one. -/
def HasAddress (mem : Memory) (email : Bytes) (r : ContactRecord) : Prop :=
  email ≠ [] ∧ (contactIn mem r).email = email

/-! ## Scanning -/

section Scanning

variable {check : ContactRecord → Except ContactStoreError Bool} {f : ContactRecord → Bool}
  {mem : Memory}

/-- The answer of a scan that comes upon no failure. -/
def firstOf (records : List ContactRecord) (f : ContactRecord → Bool) :
    Except ContactStoreError ContactRecord :=
  (records.find? f).elim (.error .slotNotFound) .ok

theorem scanSlots_eq {among : List UInt8}
    (hread : ∀ slot ∈ among, readRecord hal s slot = .ok (recordIn mem slot))
    (hcheck : ∀ slot ∈ among, check (recordIn mem slot) = .ok (f (recordIn mem slot))) :
    scanSlots hal s check among = firstOf (among.map (recordIn mem)) f := by
  induction among with
  | nil => rfl
  | cons slot among ih =>
    have hrest := ih (fun x hx ↦ hread x (List.mem_cons_of_mem slot hx))
      fun x hx ↦ hcheck x (List.mem_cons_of_mem slot hx)
    rw [scanSlots, hread slot List.mem_cons_self, ok_bind, hcheck slot List.mem_cons_self, ok_bind,
      firstOf, List.map_cons, List.find?_cons]
    cases f (recordIn mem slot) with
    | true => rfl
    | false => exact hrest

/-- **Scans that ask for a present identifier.** Where the query has an identifier, and the scan
stops at the active records with it, the answer is right. Where the query has none, the answer is
right only if the scan stops nowhere. -/
theorem finds_iff {present : Prop} {eq : ContactRecord → Prop}
    (hf : present → ∀ slot ∈ slots, f (recordIn mem slot) = true ↔
      (recordIn mem slot).isActive = true ∧ eq (recordIn mem slot)) :
    Finds mem (fun r ↦ present ∧ eq r) (firstOf (slots.map (recordIn mem)) f) ↔
      present ∨ ∀ slot ∈ slots, f (recordIn mem slot) = false := by
  constructor
  · intro h
    refine or_iff_not_imp_left.mpr fun habsent slot hslot ↦ ?_
    have hnone : ¬ HasActive mem fun r ↦ present ∧ eq r := by
      rintro ⟨-, -, -, hpresent, -⟩
      exact habsent hpresent
    rcases hfind : (slots.map (recordIn mem)).find? f with _ | r
    · exact Bool.eq_false_iff.mpr (List.find?_eq_none.mp hfind _ (List.mem_map_of_mem hslot))
    · have hanswer := h.notFound hnone
      rw [firstOf, hfind] at hanswer
      cases hanswer
  · intro h
    have hmatch : ∀ slot ∈ slots, f (recordIn mem slot) = true →
        (recordIn mem slot).isActive = true ∧ present ∧ eq (recordIn mem slot) := by
      intro slot hslot hstop
      rcases h with hpresent | hnowhere
      · obtain ⟨hactive, heq⟩ := (hf hpresent slot hslot).mp hstop
        exact ⟨hactive, hpresent, heq⟩
      · rw [hnowhere slot hslot] at hstop
        cases hstop
    have hstops : HasActive mem (fun r ↦ present ∧ eq r) →
        ∃ r, (slots.map (recordIn mem)).find? f = some r := by
      rintro ⟨slot, hslot, hactive, hpresent, heq⟩
      have hsome : ((slots.map (recordIn mem)).find? f).isSome = true :=
        List.find?_isSome.mpr ⟨_, List.mem_map_of_mem hslot,
          (hf hpresent slot hslot).mpr ⟨hactive, heq⟩⟩
      exact Option.isSome_iff_exists.mp hsome
    rcases hfind : (slots.map (recordIn mem)).find? f with _ | r
    · have hnone : ¬ HasActive mem fun r ↦ present ∧ eq r := by
        intro hhas
        obtain ⟨r, hr⟩ := hstops hhas
        rw [hfind] at hr
        cases hr
      rw [firstOf, hfind]
      refine ⟨?_, fun hhas ↦ absurd hhas hnone, fun _ ↦ rfl⟩
      rintro r ⟨⟩
    · obtain ⟨slot, hslot, rfl⟩ := List.mem_map.mp (List.mem_of_find?_eq_some hfind)
      have hhas := hmatch slot hslot (List.find?_some hfind)
      rw [firstOf, hfind]
      refine ⟨?_, fun _ ↦ ⟨_, rfl⟩, fun hnone ↦ absurd ⟨slot, hslot, hhas⟩ hnone⟩
      rintro r ⟨⟩
      exact ⟨slot, hslot, rfl, hhas⟩

end Scanning

/-! ## The three lookups -/

section Kept

variable (hf : hal.storage.Faithful contactStoreEnd memory)
include hf

/-- Every active contact has a callsign. -/
def CallsignsPresent (mem : Memory) : Prop :=
  ∀ slot ∈ slots, (recordIn mem slot).isActive = true → (recordIn mem slot).callsign ≠ .zero 12

/-- Every active contact without an e-mail address has the absent string for it. -/
def AddressesAbsent (mem : Memory) : Prop :=
  ∀ slot ∈ slots, (recordIn mem slot).isActive = true → (recordIn mem slot).email.len = 0 →
    (recordIn mem slot).email.offset = 0

theorem lookupByCallsign_eq (hkept : Kept memory s) (hgate : s.integrityGate = true)
    (callsign : Block 12) : lookupByCallsign hal s callsign
      = firstOf (slots.map (recordIn (memory s.storage)))
        fun r ↦ r.isActive && decide (r.callsign = callsign) := by
  rw [lookupByCallsign, ensure, if_pos hgate, ok_bind]
  exact scanSlots_eq (fun slot hslot ↦ readRecord_of_sound hf hkept.live.sound hslot)
    fun _ _ ↦ rfl

theorem finds_callsign_iff (hkept : Kept memory s) (hgate : s.integrityGate = true)
    (callsign : Block 12) :
    Finds (memory s.storage) (HasCallsign callsign) (lookupByCallsign hal s callsign) ↔
      callsign ≠ .zero 12 ∨ CallsignsPresent (memory s.storage) := by
  rw [lookupByCallsign_eq hf hkept hgate]
  refine (finds_iff fun _ slot _ ↦ ?_).trans (or_congr_right' fun hzero ↦ ?_)
  · rw [Bool.and_eq_true, decide_eq_true_eq]
  · rw [not_not.mp hzero]
    refine forall₂_congr fun slot _ ↦ ?_
    rw [Bool.and_eq_false_imp]
    exact imp_congr_right fun _ ↦ decide_eq_false_iff_not

theorem lookupByDmrId_eq (hkept : Kept memory s) (hgate : s.integrityGate = true) {dmrId : UInt32}
    (hne : dmrId ≠ 0) : lookupByDmrId hal s dmrId
      = firstOf (slots.map (recordIn (memory s.storage)))
        fun r ↦ r.isActive && decide (r.dmrId = dmrId) := by
  rw [lookupByDmrId, ensure, if_pos hgate, ok_bind, ensure_eq_ok.mpr hne, ok_bind]
  exact scanSlots_eq (fun slot hslot ↦ readRecord_of_sound hf hkept.live.sound hslot)
    fun _ _ ↦ rfl

theorem finds_dmrId (hkept : Kept memory s) (hgate : s.integrityGate = true) (dmrId : UInt32) :
    Finds (memory s.storage) (HasDmrId dmrId) (lookupByDmrId hal s dmrId) := by
  by_cases hzero : dmrId = 0
  · have hnone : ¬ HasActive (memory s.storage) (HasDmrId dmrId) := by
      rintro ⟨-, -, -, hne, -⟩
      exact hne hzero
    rw [lookupByDmrId, ensure, if_pos hgate, ok_bind, ensure, if_neg (not_not.mpr hzero), error_bind]
    refine ⟨?_, fun hhas ↦ absurd hhas hnone, fun _ ↦ rfl⟩
    rintro r ⟨⟩
  · rw [lookupByDmrId_eq hf hkept hgate hzero]
    refine (finds_iff fun _ slot _ ↦ ?_).mpr (.inl hzero)
    rw [Bool.and_eq_true, decide_eq_true_eq]

/-- The scan for an e-mail address stops at the record. -/
def stopsAtAddress (mem : Memory) (email : Bytes) (r : ContactRecord) : Bool :=
  r.isActive && (!r.email.isEmpty && decide ((contactIn mem r).email = email))

/-- The e-mail address of a record is read, unless it counts as lacking. -/
theorem hasEmail_eq (hkept : Kept memory s) {slot : UInt8} (hslot : slot ∈ slots) (email : Bytes) :
    hasEmail hal s email (recordIn (memory s.storage) slot)
      = .ok (stopsAtAddress (memory s.storage) email (recordIn (memory s.storage) slot)) := by
  rw [hasEmail, stopsAtAddress]
  by_cases hactive : (recordIn (memory s.storage) slot).isActive = true
  swap
  · rw [Bool.eq_false_iff.mpr hactive]
    rfl
  rw [hactive, Bool.not_true, Bool.false_or, Bool.true_and]
  by_cases hempty : (recordIn (memory s.storage) slot).email.isEmpty = true
  · rw [if_pos hempty, hempty]
    rfl
  have hfits := hkept.live.fits slot hslot ((isActive_recordIn hkept.live hslot).mp hactive)
  have hmem : (recordIn (memory s.storage) slot).email
      ∈ (recordIn (memory s.storage) slot).stringRefs := List.mem_cons_self
  have hshort := hfits.short _ hmem
  have hend := Nat.le_trans (hfits.strings _ hmem) hkept.live.heap_le
  rw [if_neg hempty, if_neg (by rw [maxStringFieldBytes] at hshort; omega),
    StringHeap.read_eq hf _ (Nat.le_refl _) hend, ok_bind, Bool.eq_false_iff.mpr hempty]
  rfl

theorem lookupByEmail_eq (hkept : Kept memory s) (hgate : s.integrityGate = true) (email : Bytes) :
    lookupByEmail hal s email = firstOf (slots.map (recordIn (memory s.storage)))
      (stopsAtAddress (memory s.storage) email) := by
  rw [lookupByEmail, ensure, if_pos hgate, ok_bind]
  exact scanSlots_eq (fun slot hslot ↦ readRecord_of_sound hf hkept.live.sound hslot)
    fun slot hslot ↦ hasEmail_eq hf hkept hslot email

omit hf in
theorem address_eq_nil_iff {mem : Memory} {r : ContactRecord} :
    (contactIn mem r).email = [] ↔ r.email.len = 0 := by
  rw [contactIn, ← List.length_eq_zero_iff, Memory.length_window]
  exact ⟨fun h ↦ UInt16.toNat_inj.mp h, fun h ↦ congrArg UInt16.toNat h⟩

theorem finds_email_iff (hkept : Kept memory s) (hgate : s.integrityGate = true) (email : Bytes) :
    Finds (memory s.storage) (HasAddress (memory s.storage) email) (lookupByEmail hal s email) ↔
      email ≠ [] ∨ AddressesAbsent (memory s.storage) := by
  rw [lookupByEmail_eq hf hkept hgate]
  refine (finds_iff fun hne slot _ ↦ ?_).trans (or_congr_right' fun hempty ↦ ?_)
  · rw [stopsAtAddress, Bool.and_eq_true, Bool.and_eq_true, decide_eq_true_eq, Bool.not_eq_true']
    refine and_congr_right fun _ ↦ and_iff_right_of_imp ?_
    -- an address with bytes is not the absent string
    rintro rfl
    refine Bool.eq_false_iff.mpr fun habsent ↦ hne ?_
    rw [StringRef.isEmpty, Bool.and_eq_true, beq_iff_eq, beq_iff_eq] at habsent
    rw [contactIn, habsent.2]
    rfl
  · rw [not_not.mp hempty]
    refine forall₂_congr fun slot _ ↦ ?_
    rw [stopsAtAddress, Bool.and_eq_false_imp]
    refine imp_congr_right fun _ ↦ ?_
    rw [Bool.and_eq_false_imp, Bool.not_eq_true', decide_eq_false_iff_not, address_eq_nil_iff,
      StringRef.isEmpty, Bool.and_eq_false_imp, beq_iff_eq, beq_eq_false_iff_ne]
    tauto

/-- **Secondary lookups.** A reachable store that is closed refuses them. One that is open answers
every DMR id right. It answers a callsign right exactly if it is not the one of zeros, or every
active contact has a callsign; and an e-mail address exactly if it has a byte, or every active
contact without an address has the absent string for it. -/
theorem secondary_lookups_iff {storage : S} (counter provisioning : C) (key : Block 32)
    (hmarker : u32OfLe ((memory storage).window contactStoreProvisionMarkerOffset 4) = 0)
    (actions : List (StoreAction C)) :
    let s := (afterActions hal (new storage counter key, provisioning) actions).1
    (s.integrityGate = false → ∀ callsign dmrId email,
      lookupByCallsign hal s callsign = .error .notInitialised ∧
        lookupByDmrId hal s dmrId = .error .notInitialised ∧
        lookupByEmail hal s email = .error .notInitialised) ∧
      (s.integrityGate = true → ∀ callsign dmrId email,
        (Finds (memory s.storage) (HasCallsign callsign) (lookupByCallsign hal s callsign) ↔
          callsign ≠ .zero 12 ∨ CallsignsPresent (memory s.storage)) ∧
        Finds (memory s.storage) (HasDmrId dmrId) (lookupByDmrId hal s dmrId) ∧
        (Finds (memory s.storage) (HasAddress (memory s.storage) email)
            (lookupByEmail hal s email) ↔
          email ≠ [] ∨ AddressesAbsent (memory s.storage))) := by
  intro s
  refine ⟨fun hgate callsign dmrId email ↦ ?_, fun hgate callsign dmrId email ↦ ?_⟩
  · have hclosed : ensure (s.integrityGate = true) ContactStoreError.notInitialised
        = .error .notInitialised := by
      rw [ensure, hgate, if_neg Bool.false_ne_true]
    refine ⟨?_, ?_, ?_⟩
    · rw [lookupByCallsign, hclosed, error_bind]
    · rw [lookupByDmrId, hclosed, error_bind]
    · rw [lookupByEmail, hclosed, error_bind]
  · have hstart : Tracked hal memory (new storage counter key, provisioning).1 :=
      .unprovisioned hmarker rfl
    rcases tracked_afterActions hf actions hstart with ⟨-, hclosed⟩ | ⟨hkept, -⟩
    · exact absurd (hclosed.symm.trans hgate) Bool.false_ne_true
    · exact ⟨finds_callsign_iff hf hkept hgate callsign, finds_dmrId hf hkept hgate dmrId,
        finds_email_iff hf hkept hgate email⟩

end Kept

/-! ## A blank storage -/

theorem after_insert_fst (s : ContactStore S C) (provisioning : C) (input : NewContact) :
    (StoreAction.after hal (s, provisioning) (.insert input)).1 = (insert hal input s).2 := rfl

/-- The store after a contact without identifiers came in. -/
theorem afterActions_insert_protected :
    (afterActions samplePlatform (new blank 0 (.zero 32), 0)
        [.provisionFresh, .insert protectedContact]).1
      = (insert samplePlatform protectedContact (provisioned (.zero 32))).2 := by
  rw [afterActions_cons, after_provisionFresh, afterActions_cons, afterActions_nil]
  exact after_insert_fst _ _ _

theorem recordIn_of_slotBytes {mem : Memory} {slot : UInt8} {r : ContactRecord}
    (h : slotBytes mem slot = r.asBytes) (hmagic : r.magic = contactRecordMagic) :
    recordIn mem slot = r := by
  have hocc : Occupied mem slot := by
    rw [Occupied, h, ContactRecord.take_magic, hmagic]
  rw [recordIn, if_pos hocc, h, ContactRecord.fromBytesUnchecked_asBytes]

/-- The callsign `W1ABC`, padded. -/
def sampleCallsign : Block 12 := .ofBytes 12 [0x57, 0x31, 0x41, 0x42, 0x43]

/-- Asked for a callsign, the store answers right that it has no contact with it. -/
theorem secondary_lookups_sample :
    Finds (afterActions samplePlatform (new blank 0 (.zero 32), 0)
        [.provisionFresh, .insert protectedContact]).1.storage (HasCallsign sampleCallsign)
      (lookupByCallsign samplePlatform (afterActions samplePlatform (new blank 0 (.zero 32), 0)
        [.provisionFresh, .insert protectedContact]).1 sampleCallsign) := by
  have hiff := (secondary_lookups_iff samplePlatform_faithful 0 0 (.zero 32) marker_blank
    [.provisionFresh, .insert protectedContact]).2
  rw [afterActions_insert_protected] at hiff ⊢
  exact (hiff holds_insert.gate sampleCallsign 0 []).1.mpr (.inl (by decide))

/-- Asked for the callsign of zeros, the store answers with the contact, which has no callsign. -/
theorem contact_without_callsign_found :
    ¬ Finds (afterActions samplePlatform (new blank 0 (.zero 32), 0)
        [.provisionFresh, .insert protectedContact]).1.storage (HasCallsign (.zero 12))
      (lookupByCallsign samplePlatform (afterActions samplePlatform (new blank 0 (.zero 32), 0)
        [.provisionFresh, .insert protectedContact]).1 (.zero 12)) := by
  have hstart : Tracked samplePlatform (fun m ↦ m) (new blank (0 : UInt32) (.zero 32)) :=
    .unprovisioned marker_blank rfl
  have htracked := tracked_afterActions samplePlatform_faithful
    [.provisionFresh, .insert protectedContact] (p := (new blank 0 (.zero 32), 0)) hstart
  rw [afterActions_insert_protected] at htracked ⊢
  have hrecord := recordIn_of_slotBytes holds_insert.record rfl
  rcases htracked with ⟨-, hclosed⟩ | ⟨hkept, -⟩
  · exact absurd (hclosed.symm.trans holds_insert.gate) Bool.false_ne_true
  intro hfinds
  rcases (finds_callsign_iff samplePlatform_faithful hkept holds_insert.gate _).mp hfinds with
    hne | hpresent
  · exact hne rfl
  · refine hpresent 4 (by decide) ?_ ?_
    · rw [hrecord]
      rfl
    · rw [hrecord]
      rfl

end ContactStore

end Galdralag.Contacts
