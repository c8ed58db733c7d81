import Galdralag.ContactStore.Reachable

/-!
# Insertions that fail

An insertion stores the key first, then the e-mail, then the name, and checks each when its turn
comes; the PIN verifier is asked for after the key. What was stored before a check that fails is not
taken back, and the bump pointers stay where they are. So an insertion that fails has no effect
exactly when there was nothing before the check, or nothing but empty strings.
-/

set_option linter.all false

namespace Galdralag.Contacts

namespace ContactStore

open Fallible (bind_of_ok bind_of_error)

variable {S C : Type} {hal : StorePlatform S C} {memory : S → Memory} {s s₁ : ContactStore S C}
  {input : NewContact}

/-- Nothing that counts has changed: the records, the index, the register and its mirror, and the
space that is left in both regions. -/
structure Unaffected (memory : S → Memory) (s s' : ContactStore S C) : Prop where
  records : Memory.AgreeOn contactRecordArrayOffset stringHeapOffset (memory s.storage)
    (memory s'.storage)
  index : s'.index = s.index
  mirror : s'.integrityRegister = s.integrityRegister
  register : (memory s'.storage).window contactStoreIntegrityOffset 32
    = (memory s.storage).window contactStoreIntegrityOffset 32
  heapSpace : s'.stringHeap.freeSpace = s.stringHeap.freeSpace
  keySpace : s'.keyRegion.freeSpace = s.keyRegion.freeSpace

theorem Unaffected.refl (s : ContactStore S C) : Unaffected memory s s :=
  ⟨fun _ _ _ ↦ rfl, rfl, rfl, rfl, rfl, rfl⟩

/-- An insertion that fails has no effect. -/
def FailsWhole (hal : StorePlatform S C) (memory : S → Memory) (s : ContactStore S C)
    (input : NewContact) : Prop :=
  ∀ e s', insert hal input s = (.error e, s') → Unaffected memory s s'

/-- The contact is not PIN-protected, or brings a verifier. -/
def Verified (input : NewContact) : Prop :=
  input.pinProtected = true → input.pinVerifier.isSome = true

/-- There is a name, and it does not fit behind the e-mail. -/
def NameRefused (s : ContactStore S C) (input : NewContact) : Prop :=
  ∃ name, input.displayName = some name ∧
    ¬ StringTaken (s.stringHeap.bump.toNat + input.email.length) name

/-- An insertion that fails after it has stored something: there is a slot and room for the key, and
behind a key that is not empty the verifier is missing or a string is refused; or, behind an e-mail
that is not empty, the name. -/
structure Leaks (hal : StorePlatform S C) (s : ContactStore S C) (input : NewContact) : Prop where
  gate : s.integrityGate = true
  slot : ∃ slot, freeSlot hal s input.ownIdentity = .ok slot
  key : KeyTaken s input.publicKey
  late : input.publicKey ≠ [] ∧ (¬ Verified input ∨
        ¬ StringTaken s.stringHeap.bump.toNat input.email ∨ NameRefused s input) ∨
      Verified input ∧ StringTaken s.stringHeap.bump.toNat input.email ∧ input.email ≠ [] ∧
        NameRefused s input

theorem verified_of_ok {pin : Block 32 × Block 12 × Block 16} (h : pinFields input = .ok pin) :
    Verified input := by
  intro hprotected
  rw [pinFields, if_pos hprotected] at h
  rcases hv : input.pinVerifier with _ | pv
  · rw [hv] at h
    cases h
  · rfl

theorem not_verified_of_error {e : ContactStoreError} (h : pinFields input = .error e) :
    ¬ Verified input := by
  intro hverified
  rw [pinFields] at h
  split_ifs at h with hprotected
  obtain ⟨pv, hpv⟩ := Option.isSome_iff_exists.mp (hverified hprotected)
  rw [hpv] at h
  cases h

/-- Allocations are without effect when they take up nothing. -/
theorem Allots.unaffected_iff {m n : ℕ} (h : Allots memory s s₁ m n) (hkept : Kept memory s) :
    Unaffected memory s s₁ ↔ m = 0 ∧ n = 0 := by
  obtain ⟨ws, hws⟩ := h.allocates
  have hheap := hws.heap_max hkept.live.heap_le
  have hkeys := hws.keys_max hkept.live.keys_le
  have hheapEq := h.heap_eq
  have hkeysEq := h.keys_eq
  constructor
  · intro hsame
    have hheapSpace := hsame.heapSpace
    have hkeySpace := hsame.keySpace
    rw [StringHeap.freeSpace, StringHeap.freeSpace] at hheapSpace
    rw [KeyMaterialRegion.freeSpace, KeyMaterialRegion.freeSpace] at hkeySpace
    omega
  · rintro ⟨rfl, rfl⟩
    refine ⟨(hws.intact hkept.live.heap_le).records, hws.index, ?_, ?_, ?_, ?_⟩
    · rw [hws.rest]
    · exact (Memory.window_congr (hws.tail_eq hkept.live.heap_le) (by decide) (Nat.le_refl _)).symm
    · rw [StringHeap.freeSpace, StringHeap.freeSpace, hheapEq, Nat.add_zero]
    · rw [KeyMaterialRegion.freeSpace, KeyMaterialRegion.freeSpace, hkeysEq, Nat.add_zero]

section Faithful

variable (hf : hal.storage.Faithful contactStoreEnd memory)
include hf

theorem failsWhole_iff_of_kept (hkept : Kept memory s) (hkeyed : Keyed hal s) (input : NewContact) :
    FailsWhole hal memory s input ↔ ¬ Leaks hal s input := by
  have hend := insert_outcome hf input hkept hkeyed
  rw [FailsWhole]
  generalize insert hal input s = res at hend ⊢
  have hfailed : ∀ {e : ContactStoreError} {s₁ : ContactStore S C},
      (∀ e' s', ((.error e, s₁) : Except ContactStoreError UInt8 × ContactStore S C)
        = (.error e', s') → Unaffected memory s s') ↔ Unaffected memory s s₁ := by
    intro e s₁
    constructor
    · exact fun h ↦ h e s₁ rfl
    · intro h e' s' heq
      obtain rfl := (Prod.mk.inj heq).2
      exact h
  cases hend with
  | closed hgate =>
    rw [hfailed]
    exact iff_of_true (.refl s) fun h ↦ Bool.false_ne_true (hgate.symm.trans h.gate)
  | full hgate hslot =>
    rw [hfailed]
    refine iff_of_true (.refl s) fun h ↦ ?_
    obtain ⟨slot, hslot'⟩ := h.slot
    cases hslot.symm.trans hslot'
  | keyRefused hgate hslot hkey =>
    rw [hfailed]
    exact iff_of_true (.refl s) fun h ↦ hkey h.key
  | unverified hgate hslot hkey hpin halloc =>
    -- the key is allotted by then, and an allotment that takes no byte is none
    have hverified := not_verified_of_error hpin
    rw [hfailed, halloc.unaffected_iff hkept, List.length_eq_zero_iff]
    constructor
    · rintro ⟨-, hnil⟩ h
      rcases h.late with ⟨hne, -⟩ | ⟨hv, -⟩
      · exact hne hnil
      · exact hverified hv
    · intro h
      refine ⟨rfl, ?_⟩
      by_contra hne
      exact h ⟨hgate, ⟨_, hslot⟩, hkey, .inl ⟨hne, .inl hverified⟩⟩
  | emailRefused hgate hslot hkey hpin hemail halloc =>
    rw [hfailed, halloc.unaffected_iff hkept, List.length_eq_zero_iff]
    constructor
    · rintro ⟨-, hnil⟩ h
      rcases h.late with ⟨hne, -⟩ | ⟨-, htaken, -⟩
      · exact hne hnil
      · exact hemail htaken
    · intro h
      refine ⟨rfl, ?_⟩
      by_contra hne
      exact h ⟨hgate, ⟨_, hslot⟩, hkey, .inl ⟨hne, .inr (.inl hemail)⟩⟩
  | nameRefused hgate hslot hkey hpin hemail hsome hname halloc =>
    have hrefused : NameRefused s input := ⟨_, hsome, hname⟩
    have hverified := verified_of_ok hpin
    rw [hfailed, halloc.unaffected_iff hkept, List.length_eq_zero_iff, List.length_eq_zero_iff]
    constructor
    · rintro ⟨hemailNil, hkeyNil⟩ h
      rcases h.late with ⟨hne, -⟩ | ⟨-, -, hne, -⟩
      · exact hne hkeyNil
      · exact hne hemailNil
    · intro h
      constructor
      · by_contra hne
        exact h ⟨hgate, ⟨_, hslot⟩, hkey, .inr ⟨hverified, hemail, hne, hrefused⟩⟩
      · by_contra hne
        exact h ⟨hgate, ⟨_, hslot⟩, hkey, .inl ⟨hne, .inr (.inr hrefused)⟩⟩
  | done hgate hslot hkey hpin hemail hname =>
    -- nothing failed, so none of the reasons to fail late was there
    refine iff_of_true (fun e s' heq ↦ ?_) fun h ↦ ?_
    · cases (Prod.mk.inj heq).1
    · have hrefused : NameRefused s input → False := by
        rintro ⟨name, hsome, hrefused⟩
        exact hrefused (hname name hsome).1
      rcases h.late with ⟨-, hlate⟩ | ⟨-, -, -, hlate⟩
      · rcases hlate with hlate | hlate | hlate
        · exact hlate (verified_of_ok hpin)
        · exact hlate hemail
        · exact hrefused hlate
      · exact hrefused hlate

/-- **Failed insertions.** Of a reachable store, an insertion that fails has no effect exactly when
it does not fail after it has stored something. -/
theorem failsWhole_iff {storage : S} (counter provisioning : C) (key : Block 32)
    (hmarker : u32OfLe ((memory storage).window contactStoreProvisionMarkerOffset 4) = 0)
    (actions : List (StoreAction C)) (input : NewContact) :
    let s := (afterActions hal (new storage counter key, provisioning) actions).1
    FailsWhole hal memory s input ↔ ¬ Leaks hal s input := by
  intro s
  have htracked : Tracked hal memory s := tracked_afterActions hf actions
    (p := (new storage counter key, provisioning)) (.unprovisioned hmarker rfl)
  rcases htracked with ⟨-, hgate⟩ | ⟨hkept, hkeyed⟩
  · refine iff_of_true (fun e s' hrun ↦ ?_) fun h ↦ Bool.false_ne_true (hgate.symm.trans h.gate)
    rw [insert, bind_of_error (gate_of_closed hgate)] at hrun
    obtain rfl := (Prod.mk.inj hrun).2
    exact .refl s
  · exact failsWhole_iff_of_kept hf hkept hkeyed input

end Faithful

/-- A protected contact with a verifier, on a new store. -/
theorem failsWhole_protected : FailsWhole samplePlatform (fun m ↦ m)
    (afterActions samplePlatform (new blank 0 (.zero 32), 0) [.provisionFresh]).1
    protectedContact := by
  refine (failsWhole_iff samplePlatform_faithful 0 0 (.zero 32) marker_blank [.provisionFresh]
    protectedContact).mpr fun h ↦ ?_
  rcases h.late with ⟨hne, -⟩ | ⟨-, -, hne, -⟩
  · exact hne rfl
  · exact hne rfl

/-- A protected contact with a key of one byte and without a verifier. -/
def unverifiedContact : NewContact :=
  { protectedContact with publicKey := [1], pinVerifier := none }

/-- Its insertion fails, and the byte stays. -/
theorem unverified_not_whole : ¬ FailsWhole samplePlatform (fun m ↦ m)
    (afterActions samplePlatform (new blank 0 (.zero 32), 0) [.provisionFresh]).1
    unverifiedContact := by
  rw [afterActions_provisionFresh, failsWhole_iff_of_kept samplePlatform_faithful kept_provisioned
    keyed_provisioned]
  intro h
  have hfree : ¬ Occupied (provisioned (.zero 32)).storage 4 :=
    slotBytes_provisioned_ne (.refl _) (by decide)
  refine h ⟨rfl, ?_, ⟨by decide, by decide⟩, .inl ⟨List.cons_ne_nil _ _, .inl fun hv ↦ ?_⟩⟩
  · exact freeSlot_of_free samplePlatform_faithful (by decide) hfree
  · exact Bool.false_ne_true (hv rfl)

end ContactStore

end Galdralag.Contacts
