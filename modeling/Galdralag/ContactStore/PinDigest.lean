import Galdralag.ContactStore.Unlocking

/-!
# PINs and their digests

The record of a PIN-protected contact has 32 bytes for the digest of the PIN. An unlock compares
them with the bytes of the PIN as they come, and hashes nothing: the PIN that was meant is refused,
and the bytes of its digest are taken for a PIN.
-/

set_option linter.all false

namespace Galdralag.Contacts

namespace ContactStore

variable {S C Z : Type} {hal : StorePlatform S C} {memory : S → Memory} {s : ContactStore S C}
  {slot : UInt8} {l : Lock} {key : Block 32} {m : PinPolicyMachine} {z : Z}
  {zeroisation : ZeroisationTrigger Z} {pin : PinBuffer}

/-- The unlock counts as a successful attempt: the machine is unlocked, and the answer is not that
of a store that is closed or of an attempt that failed. -/
def CountsAsSuccess (hal : StorePlatform S C) (zeroisation : ZeroisationTrigger Z) (slot : UInt8)
    (m : PinPolicyMachine) (s : ContactStore S C) (z : Z) (pin : PinBuffer) : Prop :=
  (unlockPinProtected hal zeroisation slot pin (m, s, z)).1 ≠ .error .notInitialised ∧
    (unlockPinProtected hal zeroisation slot pin (m, s, z)).1 ≠ .error .pinFailed ∧
    (unlockPinProtected hal zeroisation slot pin (m, s, z)).2.1.state = .unlocked

/-- The unlock counts as a failed attempt. -/
def CountsAsFailure (hal : StorePlatform S C) (zeroisation : ZeroisationTrigger Z) (slot : UInt8)
    (m : PinPolicyMachine) (s : ContactStore S C) (z : Z) (pin : PinBuffer) : Prop :=
  (unlockPinProtected hal zeroisation slot pin (m, s, z)).1 = .error .pinFailed ∧
    (unlockPinProtected hal zeroisation slot pin (m, s, z)).2.1.state = .lockedIdle

/-- The right PIN, and no PIN with another digest, unlocks. -/
def RightPinUnlocks (hal : StorePlatform S C) (zeroisation : ZeroisationTrigger Z) (slot : UInt8)
    (digest : Bytes → Block 32) (m : PinPolicyMachine) (s : ContactStore S C) (z : Z)
    (pin : PinBuffer) : Prop :=
  CountsAsSuccess hal zeroisation slot m s z pin ∧
    ∀ other : PinBuffer, digest other.bytes ≠ digest pin.bytes →
      CountsAsFailure hal zeroisation slot m s z other

/-- No attempt counts both ways. -/
theorem CountsAsFailure.not_success (h : CountsAsFailure hal zeroisation slot m s z pin) :
    ¬ CountsAsSuccess hal zeroisation slot m s z pin := fun hsuccess ↦ hsuccess.2.1 h.1

/-- Byte strings are compared as they are. -/
theorem pinCompare_eq_true_iff (a b : Bytes) : pinCompare a b = true ↔ a = b := by
  rw [pinCompare]
  split_ifs with hlength
  · refine iff_of_false id ?_
    rintro rfl
    exact hlength rfl
  · exact beq_iff_eq

/-- A decryption that fails is not taken for a closed store or a wrong PIN. -/
theorem unwrapKey_errors (s : ContactStore S C) (r : ContactRecord) :
    ErrorsIn (fun e ↦ e ≠ .notInitialised ∧ e ≠ .pinFailed) (unwrapKey hal s r) := by
  rw [unwrapKey]
  refine (ErrorsIn.mapError (fun _ ↦ by decide) _).bind fun wrapKey ↦ ?_
  refine ErrorsIn.bind ?_ fun ct ↦ ErrorsIn.bind ?_ fun plain ↦ ?_
  · rw [KeyMaterialRegion.read]
    split_ifs
    · exact .ok _
    · exact .error (by decide)
    · exact .error (by decide)
    · exact .mapError (fun _ ↦ by decide) _
  · rw [aesGcmDecrypt]
    split_ifs
    · exact .error (by decide)
    · cases hal.aeadDecrypt wrapKey r.pinNonce (ct ++ r.pinTag.toBytes) with
      | none => exact .error (by decide)
      | some plain =>
        dsimp only
        split_ifs
        · exact .error (by decide)
        · exact .ok plain
  · rw [PublicKeyBlob.fromSlice]
    split_ifs
    · exact .ok _
    · exact .error (by decide)

theorem not_success_of_closed (h : s.integrityGate ≠ true) :
    ¬ CountsAsSuccess hal zeroisation slot m s z pin := by
  rintro ⟨hne, -⟩
  rw [unlock_closed h] at hne
  exact hne rfl

section Guards

variable (hf : hal.storage.Faithful contactStoreEnd memory)
include hf

/-- **Attempts.** An attempt that is admitted counts as a success if the PIN has the bytes of the
verifier, and as a failure otherwise. -/
theorem counts_of_guards (zeroisation : ZeroisationTrigger Z) (z : Z)
    (h : Guards hal memory key slot l s) (hprotected : l.pinProtected ≠ 0)
    (hgate : s.integrityGate = true) (hadmits : Admits hal m s) (pin : PinBuffer) :
    (pin.bytes = l.pinVerifier.toBytes → CountsAsSuccess hal zeroisation slot m s z pin) ∧
      (pin.bytes ≠ l.pinVerifier.toBytes → CountsAsFailure hal zeroisation slot m s z pin) := by
  obtain ⟨hslot, -⟩ := h.locks.occupied
  have hread := readRecord_of_sound hf h.kept.live.sound hslot
  obtain ⟨hstate, count, c, hcount, hle⟩ := hadmits
  have hcharge := storeCounter_run z hcount
  have hlimit := UInt32.not_lt.mpr hle
  rw [h.locks.eq] at hprotected ⊢
  have hverifier : (contactIn (memory s.storage) (recordIn (memory s.storage) slot)).lock.pinVerifier
      = (recordIn (memory s.storage) slot).pinVerifier := rfl
  have hunlock : unlockPinProtected hal zeroisation slot pin (m, s, z) = _ :=
    unlock_protected hgate hread hprotected
  rw [CountsAsSuccess, CountsAsFailure, hunlock, hverifier]
  set r := recordIn (memory s.storage) slot
  constructor
  · intro heq
    have hcompare := (pinCompare_eq_true_iff pin.bytes r.pinVerifier.toBytes).mpr heq
    rw [attemptOn, PinPolicyMachine.submitAttempt_success hstate hcharge hlimit hcompare]
    have herrors : ErrorsIn (fun e ↦ e ≠ .notInitialised ∧ e ≠ .pinFailed)
        (unwrapKey hal { s with counter := (hal.counter.refundOnSuccess c).2 } r) :=
      unwrapKey_errors _ r
    exact ⟨fun he ↦ (herrors _ he).1 rfl, fun he ↦ (herrors _ he).2 rfl, rfl⟩
  · intro hne
    have hcompare : pinCompare pin.bytes r.pinVerifier.toBytes = false :=
      Bool.eq_false_iff.mpr fun htrue ↦ hne ((pinCompare_eq_true_iff _ _).mp htrue)
    rw [attemptOn, PinPolicyMachine.submitAttempt_failed hstate hcharge hlimit hcompare]
    exact ⟨rfl, rfl⟩

/-- **The right PIN.** A PIN-protected contact is inserted into any reachable store, with the digest
of the PIN as its verifier. Whatever is done then, except deleting it, as long as attempts are
admitted the PIN unlocks, and those with another digest do not, exactly when the store is open and
the PIN is its own digest. -/
theorem rightPinUnlocks_iff {storage : S} (counter provisioning : C) (masterKey : Block 32)
    (hmarker : u32OfLe ((memory storage).window contactStoreProvisionMarkerOffset 4) = 0)
    (before later : List (StoreAction C)) {input : NewContact} (digest : Bytes → Block 32)
    (pin : PinBuffer) (hprotected : input.pinProtected = true)
    (hverifier : input.pinVerifier = some (digest pin.bytes))
    (haccepted : (insert hal input
      (afterActions hal (new storage counter masterKey, provisioning) before).1).1 = .ok slot)
    (hlater : ∀ action ∈ later, ¬ Removes slot action) (zeroisation : ZeroisationTrigger Z)
    (m : PinPolicyMachine) (z : Z) :
    let t := (afterActions hal (new storage counter masterKey, provisioning)
      (before ++ .insert input :: later)).1
    Admits hal m t → (RightPinUnlocks hal zeroisation slot digest m t z pin ↔
      t.integrityGate = true ∧ pin.bytes = (digest pin.bytes).toBytes) := by
  intro t hadmits
  have hguards : Guards hal memory _ slot input.contact.lock t :=
    guards_afterInsert hf counter provisioning masterKey hmarker before later haccepted hlater
  rw [lock_contact hprotected, hverifier, Option.getD_some] at hguards
  have hcounts := fun hgate ↦ counts_of_guards hf zeroisation z hguards
    (by decide : (1 : UInt8) ≠ 0) hgate hadmits
  refine ⟨fun hright ↦ ?_, fun ⟨hgate, hself⟩ ↦ ⟨?_, fun other hother ↦ ?_⟩⟩
  · have hgate : t.integrityGate = true := by
      by_contra hclosed
      exact not_success_of_closed hclosed hright.1
    refine ⟨hgate, ?_⟩
    by_contra hne
    exact ((hcounts hgate pin).2 hne).not_success hright.1
  · exact (hcounts hgate pin).1 hself
  · refine (hcounts hgate other).2 fun heq ↦ hother ?_
    -- the other PIN would be the digest, which is the PIN
    rw [heq.trans hself.symm]

end Guards

/-! ## A PIN of six digits -/

/-- The PIN `123456`. -/
def sixDigits : PinBuffer := ⟨[49, 50, 51, 52, 53, 54], by decide, by decide⟩

/-- Its BLAKE3 digest. -/
def sixDigitsDigest : Block 32 :=
  .ofBytes 32 [0x7a, 0xdb, 0x78, 0x76, 0x27, 0xad, 0x5e, 0xe3, 0x41, 0xfa, 0x0b, 0xa4, 0x6a, 0x95,
    0x6e, 0x78, 0xfd, 0x85, 0xc3, 0x9e, 0x19, 0x51, 0x19, 0xbb, 0x26, 0x0d, 0x51, 0x81, 0xb4, 0xf1,
    0xe4, 0xba]

/-- The digest of these 32 bytes. -/
def digestDigest : Block 32 :=
  .ofBytes 32 [0x8b, 0x3c, 0xcd, 0x8b, 0xef, 0xc1, 0x2a, 0xa1, 0x51, 0xab, 0x88, 0xea, 0x65, 0xbb,
    0xb8, 0xe9, 0xff, 0xd7, 0xc8, 0x93, 0x9d, 0xf9, 0x10, 0x6f, 0x91, 0x59, 0xff, 0xdd, 0x98, 0xe2,
    0x2f, 0x45]

/-- A function that is BLAKE3 at these two byte strings. -/
def sampleDigest (bytes : Bytes) : Block 32 :=
  if bytes = sixDigits.bytes then sixDigitsDigest
  else if bytes = sixDigitsDigest.toBytes then digestDigest
  else .zero 32

/-- The bytes of the digest, taken for a PIN. -/
def digestPin : PinBuffer where
  bytes := sixDigitsDigest.toBytes
  length_pos := Nat.lt_of_lt_of_eq (by decide) (Block.length_toBytes _).symm
  length_le := Nat.le_of_eq (Block.length_toBytes _)

/-- A protected contact under this PIN. -/
def pinnedContact : NewContact :=
  { wrappedContact zeroSealed with pinVerifier := some (sampleDigest sixDigits.bytes) }

theorem insert_pinned_provisioned :
    (insert sealingPlatform pinnedContact (provisioned (.zero 32))).1 = .ok 4 :=
  insert_first rfl (by decide) rfl rfl rfl

theorem insert_pinned :
    (insert sealingPlatform pinnedContact
      (afterActions sealingPlatform (new blank 0 (.zero 32), 0) [.provisionFresh]).1).1 = .ok 4 := by
  rw [afterActions_cons, after_provisionFresh_sealing, afterActions_nil]
  exact insert_pinned_provisioned

/-- A new store with this contact. -/
def withPinned : ContactStore Memory UInt32 :=
  (afterActions sealingPlatform (new blank 0 (.zero 32), 0)
    [.provisionFresh, .insert pinnedContact]).1

theorem withPinned_run : withPinned = storeAfter sealingPlatform (new blank 0 (.zero 32), 0)
    [.provisionFresh, .insert pinnedContact] := rfl

theorem withPinned_eq :
    withPinned = (insert sealingPlatform pinnedContact (provisioned (.zero 32))).2 := by
  rw [withPinned_run, storeAfter_eq, after_insertFirst]

theorem withPinned_admits : withPinned.integrityGate = true ∧
    Admits sealingPlatform ⟨default, .lockedIdle⟩ withPinned := by
  rw [withPinned_eq]
  exact admits_first insert_pinned_provisioned

/-- The six digits are not their own digest, so they do not unlock. -/
theorem sixDigits_not_right :
    ¬ RightPinUnlocks sealingPlatform id 4 sampleDigest ⟨default, .lockedIdle⟩ withPinned ()
      sixDigits := by
  have hiff := rightPinUnlocks_iff sealingPlatform_faithful 0 0 (.zero 32) marker_blank
    [.provisionFresh] [] sampleDigest sixDigits rfl rfl insert_pinned
    (fun _ haction ↦ absurd haction List.not_mem_nil) id ⟨default, .lockedIdle⟩ ()
  rw [List.singleton_append, ← storeAfter_eq, ← withPinned_run] at hiff
  intro hright
  have hself := ((hiff withPinned_admits.2).mp hright).2
  have hlength := congrArg List.length hself
  rw [Block.length_toBytes] at hlength
  exact absurd hlength (by decide)

/-- With the BLAKE3 digest as the verifier, the PIN counts as a failed attempt, and the bytes of the
digest, which are another PIN with another digest, as a successful one. -/
theorem sixDigits_refused :
    (insert sealingPlatform pinnedContact
        (afterActions sealingPlatform (new blank 0 (.zero 32), 0) [.provisionFresh]).1).1 = .ok 4 ∧
      pinnedContact.pinVerifier = some (sampleDigest sixDigits.bytes) ∧
      Admits sealingPlatform ⟨default, .lockedIdle⟩ withPinned ∧
      CountsAsFailure sealingPlatform id 4 ⟨default, .lockedIdle⟩ withPinned () sixDigits ∧
      sampleDigest digestPin.bytes ≠ sampleDigest sixDigits.bytes ∧
      CountsAsSuccess sealingPlatform id 4 ⟨default, .lockedIdle⟩ withPinned () digestPin := by
  obtain ⟨hgate, hadmits⟩ := withPinned_admits
  have hguards := guards_inserted sealingPlatform_faithful kept_provisioned keyed_sealing
    insert_pinned_provisioned
  rw [← withPinned_eq, lock_contact rfl] at hguards
  have hcounts := counts_of_guards sealingPlatform_faithful id () hguards
    (by decide : (1 : UInt8) ≠ 0) hgate hadmits
  have hverifier : sampleDigest sixDigits.bytes = sixDigitsDigest := if_pos rfl
  have hpinned : pinnedContact.pinVerifier.getD (.zero 32) = sixDigitsDigest := hverifier
  rw [hpinned] at hcounts
  refine ⟨insert_pinned, rfl, hadmits, (hcounts sixDigits).2 ?_, ?_, (hcounts digestPin).1 ?_⟩
  · intro heq
    have hlength := congrArg List.length heq
    rw [Block.length_toBytes] at hlength
    exact absurd hlength (by decide)
  · have hdigest : sampleDigest digestPin.bytes = digestDigest := by
      rw [sampleDigest, if_neg (by decide)]
      exact if_pos rfl
    rw [hverifier, hdigest]
    decide
  · rfl

end ContactStore

end Galdralag.Contacts
