import Galdralag.ContactStore.Reachable

/-!
# Wrapped keys

The key of a PIN-protected contact is stored encrypted, its nonce and tag are in the record. An
unlock charges an attempt, compares the PIN, decrypts the key into a buffer of the size of the
longest key, and asks that there be room for the tag in that buffer too. Whatever is done to the
store in the meantime, short of deleting the contact, leaves the record's nonce, tag and verifier
and the bytes of the key as they were inserted.
-/

set_option linter.all false

namespace Galdralag.Contacts

/-- What an unlock uses of a contact. -/
structure Lock where
  pinProtected : UInt8
  pinNonce : Block 12
  pinTag : Block 16
  pinVerifier : Block 32
  publicKey : Bytes

/-- The lock of a contact. -/
def Contact.lock (c : Contact) : Lock :=
  ⟨c.pinProtected, c.pinNonce, c.pinTag, c.pinVerifier, c.publicKey⟩

/-- No update changes it. -/
@[simp] theorem ContactUpdate.lock_apply (upd : ContactUpdate) (c : Contact) :
    (upd.apply c).lock = c.lock := rfl

namespace ContactStore

open Fallible (bind_of_ok bind_of_error)

variable {S C Z : Type} {hal : StorePlatform S C} {memory : S → Memory} {s s₁ : ContactStore S C}
  {mem mem' : Memory} {slot slot' : UInt8} {r : ContactRecord} {l : Lock}

/-! ## The lock of a slot -/

/-- The slot has a contact with this lock. -/
def Locks (mem : Memory) (slot : UInt8) (l : Lock) : Prop :=
  ∃ c, held mem slot = some c ∧ c.lock = l

theorem Locks.congr (h : Locks mem slot l) (hheld : held mem' slot = held mem slot) :
    Locks mem' slot l := by
  rwa [Locks, hheld]

theorem Locks.occupied (h : Locks mem slot l) : slot ∈ slots ∧ Occupied mem slot := by
  obtain ⟨c, hc, -⟩ := h
  rw [held, Option.ite_none_right_eq_some] at hc
  exact hc.1

/-- The lock is read from the record of the slot. -/
theorem Locks.eq (h : Locks mem slot l) : l = (contactIn mem (recordIn mem slot)).lock := by
  obtain ⟨c, hc, rfl⟩ := h
  rw [held, Option.ite_none_right_eq_some] at hc
  rw [Option.some.inj hc.2]

/-- A record that is written behind the last slot does not meet the keys. -/
theorem Locks.written_behind (h : Locks mem slot l) (hslot' : slot' ∉ slots) :
    Locks (written mem slot' r) slot l := by
  obtain ⟨hslot, hocc⟩ := h.occupied
  have hne : slot ≠ slot' := fun heq ↦ hslot' (heq ▸ hslot)
  have hocc' : Occupied (written mem slot' r) slot := by
    rw [occupied_written, if_neg hne]
    exact hocc
  refine ⟨_, if_pos ⟨hslot, hocc'⟩, ?_⟩
  have hkey : ∀ n len, (written mem slot' r).window (keyRegionOffset + n) len
      = mem.window (keyRegionOffset + n) len := by
    intro n len
    apply Memory.window_patch_of_disjoint
    have hlt := slot'.toNat_lt
    rw [r.length_asBytes, recordOffset_eq, keyRegionOffset_eq]
    omega
  rw [h.eq, recordIn_written_of_ne hne, Contact.lock, Contact.lock]
  simp only [contactIn, hkey]

theorem Commits.locks_behind {s' : ContactStore S C} {d : Block 32}
    (hcommits : Commits hal memory s₁ s' slot' r d) (hslot' : slot' ∉ slots)
    (h : Locks (memory s₁.storage) slot l) : Locks (memory s'.storage) slot l :=
  (h.written_behind hslot').congr (by rw [hcommits.live.held_eq hcommits.intact])

theorem Allots.locks {m n : ℕ} (halloc : Allots memory s s₁ m n) (hkept : Kept memory s)
    (h : Locks (memory s.storage) slot l) : Locks (memory s₁.storage) slot l := by
  obtain ⟨ws, hws⟩ := halloc.allocates
  exact h.congr (by rw [hws.held_eq hkept])

/-- An operation that takes effect in another slot, or on the same contact. -/
theorem Effect.locks {s' : ContactStore S C} {ws tail : List (ℕ × Bytes)} {c : Option Contact}
    (heffect : Effect hal memory slot' c s₁ s' tail) (halloc : Allocates memory s s₁ ws)
    (hkept : Kept memory s) (hslot' : slot' ∈ slots) (h : Locks (memory s.storage) slot l)
    (hsame : slot = slot' → ∃ k, c = some k ∧ k.lock = l) : Locks (memory s'.storage) slot l := by
  obtain ⟨r, d, -, hcommits, rfl⟩ := heffect
  rw [Locks, hcommits.held_eq hslot', halloc.held_eq hkept]
  by_cases heq : slot = slot'
  · rw [heq, Function.update_self]
    exact hsame heq
  · rw [Function.update_of_ne heq]
    exact h

section Operations

variable (hf : hal.storage.Faithful contactStoreEnd memory)
include hf

/-- An insertion takes a free slot. -/
theorem insert_free {input : NewContact} {s' : ContactStore S C} (hkept : Kept memory s)
    (hkeyed : Keyed hal s) (h : insert hal input s = (.ok slot, s')) :
    ¬ Occupied (memory s.storage) slot := by
  have hend := insert_outcome hf input hkept hkeyed
  rw [h] at hend
  cases hend with
  | done hgate hslot => exact (freeSlot_ok hf hslot).2

/-- The contact that is inserted has its lock. -/
theorem locks_inserted {input : NewContact} {s' : ContactStore S C} (hkept : Kept memory s)
    (hkeyed : Keyed hal s) (h : insert hal input s = (.ok slot, s')) :
    Locks (memory s'.storage) slot input.contact.lock := by
  rcases insert_mutating hf input hkept hkeyed with ⟨e, t, ws, hrun, -⟩ |
    ⟨slot', s₁, t, ws, tail, -, -, hrun, hslot, r, d, -, hcommits, hwritten⟩
  · cases h.symm.trans hrun.run
  · obtain ⟨⟨⟩, rfl⟩ := Prod.mk.inj (h.symm.trans hrun.run)
    refine ⟨input.contact, ?_, rfl⟩
    rw [hcommits.held_eq hslot, Function.update_self, hwritten]

/-- The other contacts keep theirs. -/
theorem insert_locks (input : NewContact) (hkept : Kept memory s) (hkeyed : Keyed hal s)
    (h : Locks (memory s.storage) slot l) :
    Locks (memory (insert hal input s).2.storage) slot l := by
  rcases insert_mutating hf input hkept hkeyed with ⟨e, t, ws, hrun, halloc⟩ |
    ⟨slot', s₁, t, ws, tail, -, halloc, hrun, hslot', heffect⟩
  · rw [hrun.run]
    exact h.congr (by rw [halloc.held_eq hkept])
  · have hfree := insert_free hf hkept hkeyed hrun.run
    rw [hrun.run]
    refine heffect.locks halloc hkept hslot' h ?_
    rintro rfl
    exact absurd h.occupied.2 hfree

theorem update_locks (upd : ContactUpdate) (hkept : Kept memory s) (hkeyed : Keyed hal s)
    (hslot' : slot' ∈ slots) (h : Locks (memory s.storage) slot l) :
    Locks (memory (update hal slot' upd s).2.storage) slot l := by
  rcases update_mutating hf upd hkept hkeyed hslot' with ⟨e, t, ws, hrun, halloc⟩ |
    ⟨_, s₁, t, ws, tail, -, halloc, hrun, c, hc, heffect⟩
  · rw [hrun.run]
    exact h.congr (by rw [halloc.held_eq hkept])
  · rw [hrun.run]
    refine heffect.locks halloc hkept hslot' h ?_
    rintro rfl
    obtain ⟨k, hk, rfl⟩ := h
    obtain rfl := Option.some.inj (hc.symm.trans hk)
    exact ⟨_, rfl, upd.lock_apply c⟩

theorem delete_locks (hkept : Kept memory s) (hkeyed : Keyed hal s) (hslot' : slot' ∈ slots)
    (hne : slot ≠ slot') (h : Locks (memory s.storage) slot l) :
    Locks (memory (delete hal slot' s).2.storage) slot l := by
  rcases delete_mutating hf hkept hkeyed slot' with ⟨e, t, ws, hrun, halloc⟩ |
    ⟨_, s₁, t, ws, tail, -, halloc, hrun, heffect⟩
  · rw [hrun.run]
    exact h.congr (by rw [halloc.held_eq hkept])
  · rw [hrun.run]
    exact heffect.locks halloc hkept hslot' h fun heq ↦ absurd heq hne

/-- A deletion of the slot, whole or cut short. -/
inductive Removes (slot : UInt8) : StoreAction C → Prop where
  | deleted : Removes slot (.delete slot)
  | interrupted {hslot : slot ∈ slots} {n : ℕ} {counter : C} :
    Removes slot (.interrupted (.delete ⟨slot, hslot⟩) n counter)

/-- An operation that succeeds. -/
theorem Mutation.locks (op : Mutation) (hkept : Kept memory s) (hkeyed : Keyed hal s)
    (hne : ∀ hslot : slot ∈ slots, op ≠ .delete ⟨slot, hslot⟩)
    (h : Locks (memory s.storage) slot l) : Locks (memory (op.run hal s).2.storage) slot l := by
  cases op with
  | insert input =>
    rw [Mutation.run, Fallible.bind_pure_snd]
    exact insert_locks hf input hkept hkeyed h
  | update slot' upd => exact update_locks hf upd hkept hkeyed slot'.2 h
  | delete slot' =>
    refine delete_locks hf hkept hkeyed slot'.2 ?_ h
    rintro rfl
    exact hne slot'.2 rfl

/-- **Step.** An action that does not delete the contact leaves its lock. -/
theorem locks_step {p : ContactStore S C × C} {action : StoreAction C} (hkept : Kept memory p.1)
    (hkeyed : Keyed hal p.1) (hne : ¬ Removes slot action) (h : Locks (memory p.1.storage) slot l) :
    Locks (memory (action.after hal p).1.storage) slot l := by
  have heffect := action_effect hf hkept hkeyed action
  generalize (action.after hal p).1 = s' at heffect ⊢
  cases heffect with
  | settled hsettled => exact h.congr (by rw [hkept.live.held_eq hsettled.intact])
  | booted hrebuilt hstorage hkey =>
    rw [hstorage]
    exact h
  | @interrupted op n counter s' hrebuilt hstorage hkey =>
    rw [hstorage]
    have hrun := op.locks hf hkept hkeyed
      (fun hslot heq ↦ hne (heq ▸ .interrupted)) h
    rcases op.interrupted_cases hf hkept hkeyed n with ⟨-, hintact, -⟩ |
      ⟨-, s₁, t, ws, r, d, slot', -, heq, -, hcommits, hmem⟩ |
      ⟨-, t, s₁, ws, tail, slot', -, c, heq, -, -, hafter⟩
    · -- the record was not written
      exact h.congr (by rw [hkept.live.held_eq hintact])
    · -- it was, and the register does not matter
      rw [heq] at hrun
      exact hrun.congr (by rw [hmem, hcommits.live.held_eq hcommits.intact])
    · rw [heq] at hrun
      rwa [hafter]
  | insert input => exact insert_locks hf input hkept hkeyed h
  | update slot' upd =>
    by_cases hslot' : slot' ∈ slots
    · exact update_locks hf upd hkept hkeyed hslot' h
    · have hend := update_behind hf upd hkept hkeyed hslot'
      generalize update hal slot' upd p.1 = res at hend ⊢
      cases hend with
      | refused hrefused => exact h
      | emailRefused hgate hread hactive hsome hemail => exact h
      | nameRefused hgate hread hactive hemail hsome hname halloc => exact halloc.locks hkept h
      | done hgate hread hactive hemail hname halloc hindex hcommits =>
        exact hcommits.locks_behind hslot' (halloc.locks hkept h)
  | delete slot' =>
    by_cases hslot' : slot' ∈ slots
    · refine delete_locks hf hkept hkeyed hslot' ?_ h
      rintro rfl
      exact hne .deleted
    · have hend := delete_outcome hf hkept hkeyed slot'
      generalize delete hal slot' p.1 = res at hend ⊢
      cases hend with
      | closed hgate => exact h
      | done hgate hindex hcommits => exact hcommits.locks_behind hslot' h

/-- A provisioned store whose slot has this lock. -/
structure Guards (hal : StorePlatform S C) (memory : S → Memory) (key : Block 32) (slot : UInt8)
    (l : Lock) (s : ContactStore S C) : Prop where
  kept : Kept memory s
  keyed : Keyed hal s
  masterKey : s.masterKey = key
  locks : Locks (memory s.storage) slot l

/-- **Run.** As long as the contact is not deleted, its lock stays. -/
theorem guards_afterActions {key : Block 32} (actions : List (StoreAction C)) :
    ∀ {p : ContactStore S C × C}, Guards hal memory key slot l p.1 →
      (∀ action ∈ actions, ¬ Removes slot action) →
        Guards hal memory key slot l (afterActions hal p actions).1 := by
  induction actions with
  | nil => exact fun h _ ↦ h
  | cons action actions ih =>
    intro p h hne
    obtain ⟨hkept, hkey⟩ := kept_step hf h.kept h.keyed action
    rw [afterActions_cons]
    refine ih ⟨hkept, h.keyed.congr hkey, hkey.trans h.masterKey, ?_⟩
      fun action' haction' ↦ hne action' (List.mem_cons_of_mem _ haction')
    exact locks_step hf h.kept h.keyed (hne action List.mem_cons_self) h.locks

/-- A contact that is inserted. -/
theorem guards_inserted {input : NewContact} (hkept : Kept memory s) (hkeyed : Keyed hal s)
    (haccepted : (insert hal input s).1 = .ok slot) :
    Guards hal memory s.masterKey slot input.contact.lock (insert hal input s).2 := by
  obtain ⟨hkept', hkey⟩ := kept_step hf (p := (s, s.counter)) hkept hkeyed (.insert input)
  exact ⟨hkept', hkeyed.congr hkey, hkey, locks_inserted hf hkept hkeyed (Prod.ext haccepted rfl)⟩

/-- **Insertion.** A contact that a reachable store accepts is there until it is deleted. -/
theorem guards_afterInsert {storage : S} (counter provisioning : C) (masterKey : Block 32)
    (hmarker : u32OfLe ((memory storage).window contactStoreProvisionMarkerOffset 4) = 0)
    (before later : List (StoreAction C)) {input : NewContact}
    (haccepted : (insert hal input
      (afterActions hal (new storage counter masterKey, provisioning) before).1).1 = .ok slot)
    (hlater : ∀ action ∈ later, ¬ Removes slot action) :
    Guards hal memory
      (afterActions hal (new storage counter masterKey, provisioning) before).1.masterKey
      slot input.contact.lock (afterActions hal (new storage counter masterKey, provisioning)
        (before ++ .insert input :: later)).1 := by
  rw [afterActions_append, afterActions_cons]
  set p := afterActions hal (new storage counter masterKey, provisioning) before
  rcases tracked_afterActions hf before (p := (new storage counter masterKey, provisioning))
    (.unprovisioned hmarker rfl) with ⟨-, hgate⟩ | ⟨hkept, hkeyed⟩
  · rw [insert, bind_of_error (gate_of_closed hgate)] at haccepted
    cases haccepted
  · exact guards_afterActions hf later (p := StoreAction.after hal p (.insert input))
      (guards_inserted hf hkept hkeyed haccepted) hlater

end Operations

/-- The lock of a new contact that is PIN-protected. -/
theorem lock_contact {input : NewContact} (h : input.pinProtected = true) : input.contact.lock
    = ⟨1, input.pinNonce.getD (.zero 12), input.pinTag.getD (.zero 16),
      input.pinVerifier.getD (.zero 32), input.publicKey⟩ := by
  simp only [Contact.lock, NewContact.contact, h, if_true]

/-! ## Unlocking -/

/-- An authenticated encryption that fits the decryption of the platform: the ciphertext, which is
as long as the plaintext, and its tag decrypt to the plaintext again. -/
structure RoundTrips (decrypt : Block 32 → Block 12 → Bytes → Option Bytes)
    (encrypt : Block 32 → Block 12 → Bytes → Bytes × Block 16) : Prop where
  length_eq : ∀ key nonce plain, plain.length ≤ maxPublicKeyBytes →
    (encrypt key nonce plain).1.length = plain.length
  decrypt_eq : ∀ key nonce plain, plain.length ≤ maxPublicKeyBytes →
    decrypt key nonce ((encrypt key nonce plain).1 ++ (encrypt key nonce plain).2.toBytes)
      = some plain

/-- A PIN-protected contact whose key material is a public key, encrypted under the key that the
store derives for this purpose. -/
structure Wraps (hal : StorePlatform S C)
    (encrypt : Block 32 → Block 12 → Bytes → Bytes × Block 16) (s : ContactStore S C)
    (publicKey : Bytes) (input : NewContact) : Prop where
  isProtected : input.pinProtected = true
  sealed : ∃ wrapKey, hal.deriveSubkey s.masterKey .contactKeyWrap = .ok wrapKey ∧
    encrypt wrapKey (input.pinNonce.getD (.zero 12)) publicKey
      = (input.publicKey, input.pinTag.getD (.zero 16))

/-- The PIN machine lets an attempt through to the comparison. -/
def Admits (hal : StorePlatform S C) (m : PinPolicyMachine) (s : ContactStore S C) : Prop :=
  m.state ≠ .bricked ∧ ∃ count c, hal.counter.increment s.counter = (.ok count, c) ∧
    count ≤ m.config.maxAttempts

/-- The unlock answers with this key. -/
def Unlocks (hal : StorePlatform S C) (zeroisation : ZeroisationTrigger Z) (slot : UInt8)
    (pin : PinBuffer) (m : PinPolicyMachine) (s : ContactStore S C) (z : Z) (publicKey : Bytes) :
    Prop :=
  ∃ blob, (unlockPinProtected hal zeroisation slot pin (m, s, z)).1 = .ok blob ∧
    blob.bytes = publicKey

variable {m : PinPolicyMachine} {z : Z} {zeroisation : ZeroisationTrigger Z} {pin : PinBuffer}
  {encrypt : Block 32 → Block 12 → Bytes → Bytes × Block 16} {key wrapKey : Block 32}
  {publicKey : Bytes}

theorem pinCompare_self (bytes : Bytes) : pinCompare bytes bytes = true := by
  rw [pinCompare, if_neg (not_not_intro rfl), beq_self_eq_true]

/-- The counter of the store is that of the platform. -/
theorem storeCounter_run (z : Z) {res : Except HalError UInt32} {c : C}
    (h : hal.counter.increment s.counter = (res, c)) :
    (storeCounter hal Z).increment (s, z) = (res, ({ s with counter := c }, z)) := by
  have hzoom : (storeCounter hal Z).increment (s, z) = ((hal.counter.increment s.counter).1,
      ({ s with counter := (hal.counter.increment s.counter).2 }, z)) := rfl
  rw [hzoom, h]

/-- Decryption needs room for the tag in the buffer of the key. -/
theorem aesGcmDecrypt_wrapped (haead : RoundTrips hal.aeadDecrypt encrypt) {nonce : Block 12}
    {tag : Block 16} {ciphertext : Bytes} (hlength : publicKey.length ≤ maxPublicKeyBytes)
    (hsealed : encrypt wrapKey nonce publicKey = (ciphertext, tag)) :
    aesGcmDecrypt hal wrapKey nonce tag ciphertext
      = if publicKey.length + 16 ≤ maxPublicKeyBytes then .ok publicKey else .error .crypto := by
  have hlen := haead.length_eq wrapKey nonce publicKey hlength
  have hplain := haead.decrypt_eq wrapKey nonce publicKey hlength
  rw [hsealed] at hlen hplain
  have hlen : ciphertext.length = publicKey.length := hlen
  rw [aesGcmDecrypt, hlen]
  split_ifs with hroom hfits hfits
  · omega
  · rfl
  · rw [hplain]
    exact if_neg (Nat.not_lt.mpr hlength)
  · omega

section Guards

variable (hf : hal.storage.Faithful contactStoreEnd memory)
include hf

/-- What the decryption of a key that was stored encrypted gives. -/
theorem unwrapKey_wrapped (haead : RoundTrips hal.aeadDecrypt encrypt)
    (hlength : publicKey.length ≤ maxPublicKeyBytes)
    (h : Guards hal memory key slot l s)
    (hderive : hal.deriveSubkey key .contactKeyWrap = .ok wrapKey)
    (hsealed : encrypt wrapKey l.pinNonce publicKey = (l.publicKey, l.pinTag)) :
    (∃ blob, unwrapKey hal s (recordIn (memory s.storage) slot) = .ok blob ∧
      blob.bytes = publicKey) ↔ publicKey.length + 16 ≤ maxPublicKeyBytes := by
  obtain ⟨hslot, hocc⟩ := h.locks.occupied
  have hlive := h.kept.live
  have hfits := hlive.fits slot hslot hocc
  have hread := KeyMaterialRegion.read_eq hf s.storage hfits.keyShort
    (hfits.key.imp_right (Nat.le_trans · hlive.keys_le))
  rw [h.locks.eq] at hsealed
  set r := recordIn (memory s.storage) slot
  have hdecrypt : aesGcmDecrypt hal wrapKey r.pinNonce r.pinTag
      ((memory s.storage).window (keyRegionOffset + r.keyOffset.toNat) r.keyLen.toNat)
        = if publicKey.length + 16 ≤ maxPublicKeyBytes then .ok publicKey else .error .crypto :=
    aesGcmDecrypt_wrapped haead hlength hsealed
  have hunwrap : unwrapKey hal s r = (do
      let plain ← aesGcmDecrypt hal wrapKey r.pinNonce r.pinTag
        ((memory s.storage).window (keyRegionOffset + r.keyOffset.toNat) r.keyLen.toNat)
      PublicKeyBlob.fromSlice plain) := by
    rw [unwrapKey, h.masterKey, hderive, Except.mapError, ok_bind, hread, ok_bind]
  rw [hunwrap, hdecrypt]
  by_cases hroom : publicKey.length + 16 ≤ maxPublicKeyBytes
  · rw [if_pos hroom, ok_bind]
    exact iff_of_true ⟨⟨publicKey, hlength⟩, dif_pos hlength, rfl⟩ hroom
  · rw [if_neg hroom, error_bind]
    refine iff_of_false ?_ hroom
    rintro ⟨blob, hblob, -⟩
    cases hblob

/-- **Unlocking.** The right PIN gives a key that was stored encrypted exactly when the store is
open, the PIN machine admits the attempt, and there is room for the tag. -/
theorem unlocks_iff_of_guards (haead : RoundTrips hal.aeadDecrypt encrypt)
    (hlength : publicKey.length ≤ maxPublicKeyBytes)
    (h : Guards hal memory key slot l s) (hprotected : l.pinProtected ≠ 0)
    (hderive : hal.deriveSubkey key .contactKeyWrap = .ok wrapKey)
    (hsealed : encrypt wrapKey l.pinNonce publicKey = (l.publicKey, l.pinTag))
    (hpin : pin.bytes = l.pinVerifier.toBytes) :
    Unlocks hal zeroisation slot pin m s z publicKey ↔
      s.integrityGate = true ∧ Admits hal m s ∧ publicKey.length + 16 ≤ maxPublicKeyBytes := by
  obtain ⟨hslot, hocc⟩ := h.locks.occupied
  rw [Unlocks]
  by_cases hgate : s.integrityGate = true
  swap
  · rw [unlock_closed hgate]
    refine iff_of_false ?_ fun hopen ↦ hgate hopen.1
    rintro ⟨blob, hblob, -⟩
    cases hblob
  have hread := readRecord_of_sound hf h.kept.live.sound hslot
  have hunwrap : ∀ c, (∃ blob, unwrapKey hal { s with counter := c }
      (recordIn (memory s.storage) slot) = .ok blob ∧ blob.bytes = publicKey) ↔
        publicKey.length + 16 ≤ maxPublicKeyBytes := fun c ↦
    unwrapKey_wrapped hf haead hlength (s := { s with counter := c })
      ⟨⟨h.kept.live, h.kept.index⟩, h.keyed, h.masterKey, h.locks⟩ hderive hsealed
  rw [h.locks.eq] at hprotected hpin
  have hcompare : pinCompare pin.bytes (recordIn (memory s.storage) slot).pinVerifier.toBytes
      = true := by
    have hpin : pin.bytes = (recordIn (memory s.storage) slot).pinVerifier.toBytes := hpin
    rw [hpin]
    exact pinCompare_self _
  rw [unlock_protected hgate hread hprotected]
  set r := recordIn (memory s.storage) slot
  have hrefused : ∀ {e : ContactStoreError}, ¬ Admits hal m s →
      ((∃ blob : PublicKeyBlob, Except.error e = .ok blob ∧ blob.bytes = publicKey) ↔
        s.integrityGate = true ∧ Admits hal m s ∧ publicKey.length + 16 ≤ maxPublicKeyBytes) := by
    intro e hadmits
    refine iff_of_false ?_ fun hall ↦ hadmits hall.2.1
    rintro ⟨blob, hblob, -⟩
    cases hblob
  by_cases hbricked : m.state = .bricked
  · rw [attemptOn, PinPolicyMachine.submitAttempt_bricked hbricked]
    exact hrefused fun hadmits ↦ hadmits.1 hbricked
  rcases hcount : hal.counter.increment s.counter with ⟨e | count, c⟩
  · rw [attemptOn, PinPolicyMachine.submitAttempt_charge_error hbricked (storeCounter_run z hcount)]
    refine hrefused fun hadmits ↦ ?_
    obtain ⟨-, count, c', hcount', -⟩ := hadmits
    cases hcount.symm.trans hcount'
  have hcharge := storeCounter_run z hcount
  by_cases hlimit : m.config.maxAttempts < count
  · rw [attemptOn, PinPolicyMachine.submitAttempt_breach hbricked hcharge hlimit]
    refine hrefused fun hadmits ↦ ?_
    obtain ⟨-, count', c', hcount', hle⟩ := hadmits
    obtain ⟨⟨⟩, -⟩ := Prod.mk.inj (hcount.symm.trans hcount')
    exact absurd hlimit (UInt32.not_lt.mpr hle)
  · rw [attemptOn, PinPolicyMachine.submitAttempt_success hbricked hcharge hlimit hcompare]
    have hadmits : Admits hal m s := ⟨hbricked, count, c, hcount, UInt32.not_lt.mp hlimit⟩
    exact (hunwrap _).trans ⟨fun hroom ↦ ⟨hgate, hadmits, hroom⟩, fun hall ↦ hall.2.2⟩

/-- **Wrapped keys.** Into any reachable store a PIN-protected contact is inserted, with a public
key that was encrypted under the key the store derives. Whatever is done then, except deleting it,
an unlock with the right PIN gives the public key exactly when the store is open, the PIN machine
admits the attempt, and there is room for the tag. -/
theorem unlocks_iff {storage : S} (counter provisioning : C) (masterKey : Block 32)
    (hmarker : u32OfLe ((memory storage).window contactStoreProvisionMarkerOffset 4) = 0)
    (haead : RoundTrips hal.aeadDecrypt encrypt) (before later : List (StoreAction C))
    {input : NewContact} (hlength : publicKey.length ≤ maxPublicKeyBytes)
    (hwraps : Wraps hal encrypt
      (afterActions hal (new storage counter masterKey, provisioning) before).1 publicKey input)
    (haccepted : (insert hal input
      (afterActions hal (new storage counter masterKey, provisioning) before).1).1 = .ok slot)
    (hlater : ∀ action ∈ later, ¬ Removes slot action)
    (hpin : input.pinVerifier.map Block.toBytes = some pin.bytes)
    (zeroisation : ZeroisationTrigger Z) (m : PinPolicyMachine) (z : Z) :
    let t := (afterActions hal (new storage counter masterKey, provisioning)
      (before ++ .insert input :: later)).1
    Unlocks hal zeroisation slot pin m t z publicKey ↔ t.integrityGate = true ∧ Admits hal m t ∧
      publicKey.length + 16 ≤ maxPublicKeyBytes := by
  intro t
  have hguards : Guards hal memory _ slot input.contact.lock t :=
    guards_afterInsert hf counter provisioning masterKey hmarker before later haccepted hlater
  obtain ⟨wrapKey, hderive, hsealed⟩ := hwraps.sealed
  rw [lock_contact hwraps.isProtected] at hguards
  refine unlocks_iff_of_guards hf haead hlength hguards (by decide : (1 : UInt8) ≠ 0) hderive hsealed
    ?_
  obtain ⟨verifier, hverifier, hbytes⟩ := Option.map_eq_some_iff.mp hpin
  rw [hverifier, Option.getD_some]
  exact hbytes.symm

end Guards

/-! ## A blank storage -/

/-- The ciphertext and the tag of 16 zero bytes under the zero key and the zero nonce. -/
def zeroSealed : Bytes × Block 16 :=
  ([0xce, 0xa7, 0x40, 0x3d, 0x4d, 0x60, 0x6b, 0x6e, 0x07, 0x4e, 0xc5, 0xd3, 0xba, 0xf3, 0x9d, 0x18],
    .ofBytes 16 [0xd0, 0xd1, 0xc8, 0xa7, 0x99, 0x99, 0x6b, 0xf0, 0x26, 0x5b, 0x98, 0xb5, 0xd4, 0x8a,
      0xb9, 0x19])

/-- An encryption that is right for the 16 zero bytes, and leaves all else in the clear. -/
def sampleEncrypt (key : Block 32) (nonce : Block 12) (plain : Bytes) : Bytes × Block 16 :=
  if key = .zero 32 ∧ nonce = .zero 12 ∧ plain = .replicate 16 0 then zeroSealed
  else (plain, .zero 16)

/-- Its decryption. -/
def sampleDecrypt (key : Block 32) (nonce : Block 12) (ciphertext : Bytes) : Option Bytes :=
  if key = .zero 32 ∧ nonce = .zero 12 ∧ ciphertext = zeroSealed.1 ++ zeroSealed.2.toBytes then
    some (.replicate 16 0)
  else some (ciphertext.take (ciphertext.length - 16))

theorem sample_roundTrips : RoundTrips sampleDecrypt sampleEncrypt where
  length_eq key nonce plain _ := by
    rw [sampleEncrypt]
    split_ifs with h
    · rw [h.2.2]
      rfl
    · rfl
  decrypt_eq key nonce plain _ := by
    rw [sampleEncrypt]
    split_ifs with h
    · rw [sampleDecrypt, if_pos ⟨h.1, h.2.1, rfl⟩, h.2.2]
    · have hne : (plain ++ (Block.zero 16).toBytes : Bytes)
          ≠ zeroSealed.1 ++ zeroSealed.2.toBytes := by
        intro heq
        have htags : (Block.zero 16).toBytes = zeroSealed.2.toBytes :=
          (List.append_inj' heq (by rw [Block.length_toBytes, Block.length_toBytes])).2
        exact absurd htags (by decide)
      rw [sampleDecrypt, if_neg fun hzero ↦ hne hzero.2.2, List.length_append, Block.length_toBytes,
        Nat.add_sub_cancel, List.take_left]

/-- The platform of the samples, with this decryption. -/
def sealingPlatform : StorePlatform Memory UInt32 :=
  { samplePlatform with aeadDecrypt := sampleDecrypt }

theorem sealingPlatform_faithful :
    sealingPlatform.storage.Faithful contactStoreEnd (fun m ↦ m) := samplePlatform_faithful

theorem eraseChunks_of_aead (hal : StorePlatform S C)
    (decrypt : Block 32 → Block 12 → Bytes → Option Bytes) (n : ℕ) : ∀ off,
    eraseChunks { hal with aeadDecrypt := decrypt } off n = eraseChunks hal off n := by
  induction n with
  | zero => exact fun _ ↦ rfl
  | succ n ih =>
    intro off
    rw [eraseChunks, eraseChunks, ih]

/-- Provisioning does not decrypt anything. -/
theorem provisionFresh_of_aead (hal : StorePlatform S C)
    (decrypt : Block 32 → Block 12 → Bytes → Option Bytes) :
    provisionFresh { hal with aeadDecrypt := decrypt } = provisionFresh hal := by
  rw [provisionFresh, provisionFresh, eraseBand_eq, eraseBand_eq, eraseChunks_of_aead]
  rfl

theorem after_provisionFresh_sealing :
    StoreAction.after sealingPlatform (new blank 0 (.zero 32), 0) .provisionFresh
      = (provisioned (.zero 32), 1) := by
  rw [StoreAction.after, sealingPlatform, provisionFresh_of_aead, provisionFresh_blank]

/-- A contact that is inserted into a new store. -/
theorem after_insertFirst (input : NewContact) :
    (afterActions sealingPlatform (new blank 0 (.zero 32), 0) [.provisionFresh, .insert input]).1
      = (insert sealingPlatform input (provisioned (.zero 32))).2 := by
  rw [afterActions_cons, after_provisionFresh_sealing, afterActions_cons, afterActions_nil,
    StoreAction.after]

theorem keyed_sealing : Keyed sealingPlatform (provisioned (.zero 32)) := ⟨.zero 32, rfl⟩

/-- A protected contact with this key material, under the zero nonce. -/
def wrappedContact (wrapped : Bytes × Block 16) : NewContact :=
  { protectedContact with publicKey := wrapped.1, pinTag := some wrapped.2 }

/-- The PIN that is the zero verifier. -/
def zeroPin : PinBuffer := ⟨.replicate 32 0, by decide, by decide⟩

/-- A new store with such a contact. -/
def withWrapped (wrapped : Bytes × Block 16) : ContactStore Memory UInt32 :=
  (afterActions sealingPlatform (new blank 0 (.zero 32), 0)
    [.provisionFresh, .insert (wrappedContact wrapped)]).1

theorem withWrapped_run (wrapped : Bytes × Block 16) : withWrapped wrapped
    = storeAfter sealingPlatform (new blank 0 (.zero 32), 0)
      [.provisionFresh, .insert (wrappedContact wrapped)] := rfl

theorem withWrapped_eq (wrapped : Bytes × Block 16) : withWrapped wrapped
    = (insert sealingPlatform (wrappedContact wrapped) (provisioned (.zero 32))).2 := by
  rw [withWrapped_run, storeAfter_eq, after_insertFirst]

/-- The first contact is accepted, if it is complete and its key is no longer than a key may be. -/
theorem insert_first {input : NewContact} {pin : Block 32 × Block 12 × Block 16}
    (hown : input.ownIdentity = false) (hkey : input.publicKey.length ≤ maxPublicKeyBytes)
    (hpin : pinFields input = .ok pin) (hemail : input.email = [])
    (hname : input.displayName = none) :
    (insert sealingPlatform input (provisioned (.zero 32))).1 = .ok 4 := by
  have hf := sealingPlatform_faithful
  have hfree : ¬ Occupied (provisioned (.zero 32)).storage 4 :=
    slotBytes_provisioned_ne (.refl _) (by decide)
  have hslot : freeSlot sealingPlatform (provisioned (.zero 32)) input.ownIdentity = .ok 4 := by
    have hfirst : slots.drop recipientSlotStart = 4 :: slots.drop (recipientSlotStart + 1) := rfl
    rw [freeSlot, hown, if_neg Bool.false_ne_true, findEmptyRecipientSlot, hfirst,
      findEmptySlot_cons hf, if_neg hfree]
  have hroom : KeyTaken (provisioned (.zero 32)) input.publicKey := by
    refine ⟨hkey, ?_⟩
    have hbump : (provisioned (.zero 32)).keyRegion.bump.toNat = 0 := rfl
    rw [hbump, Nat.zero_add, keyRegionBytes_eq]
    exact Nat.le_trans hkey (by decide)
  have hempty : StringTaken (provisioned (.zero 32)).stringHeap.bump.toNat input.email := by
    rw [hemail]
    exact ⟨Nat.zero_le _, kept_provisioned.live.heap_le⟩
  exact insert_accepted hf kept_provisioned keyed_sealing rfl hslot hroom hpin hempty hname

/-- The store is open then, and an attempt is admitted. -/
theorem admits_first {input : NewContact}
    (haccepted : (insert sealingPlatform input (provisioned (.zero 32))).1 = .ok slot) :
    (insert sealingPlatform input (provisioned (.zero 32))).2.integrityGate = true ∧
      Admits sealingPlatform ⟨default, .lockedIdle⟩
        (insert sealingPlatform input (provisioned (.zero 32))).2 := by
  have hend := insert_outcome sealingPlatform_faithful input kept_provisioned keyed_sealing
  rw [Fallible.eq_ok_of_fst haccepted] at hend
  generalize (insert sealingPlatform input (provisioned (.zero 32))).2 = s' at hend ⊢
  cases hend with
  | done hgate hslot hkey hpin hemail hname halloc hkeyAt hemailAt hoffset hnameAt hindex hcommits
      hrest =>
    obtain ⟨ws, hws⟩ := halloc.allocates
    refine ⟨(hcommits.gate.trans hws.gate).trans hgate, by decide, 1, 1, ?_, by decide⟩
    rw [hrest, hws.rest]
    rfl

/-- What was wrapped is accepted if it is no longer than a key may be. -/
theorem insert_wrapped {wrapped : Bytes × Block 16} (h : wrapped.1.length ≤ maxPublicKeyBytes) :
    (insert sealingPlatform (wrappedContact wrapped) (provisioned (.zero 32))).1 = .ok 4 :=
  insert_first rfl h rfl rfl rfl

theorem withWrapped_admits (wrapped : Bytes × Block 16) (h : wrapped.1.length ≤ maxPublicKeyBytes) :
    (withWrapped wrapped).integrityGate = true ∧
      Admits sealingPlatform ⟨default, .lockedIdle⟩ (withWrapped wrapped) := by
  rw [withWrapped_eq]
  exact admits_first (insert_wrapped h)

theorem wraps_sealed (publicKey : Bytes) :
    Wraps sealingPlatform sampleEncrypt
      (afterActions sealingPlatform (new blank 0 (.zero 32), 0) [.provisionFresh]).1 publicKey
      (wrappedContact (sampleEncrypt (.zero 32) (.zero 12) publicKey)) := by
  rw [afterActions_cons, after_provisionFresh_sealing, afterActions_nil]
  exact ⟨rfl, .zero 32, rfl, rfl⟩

theorem accepted_sealed {wrapped : Bytes × Block 16} (h : wrapped.1.length ≤ maxPublicKeyBytes) :
    (insert sealingPlatform (wrappedContact wrapped)
      (afterActions sealingPlatform (new blank 0 (.zero 32), 0) [.provisionFresh]).1).1
      = .ok 4 := by
  rw [afterActions_cons, after_provisionFresh_sealing, afterActions_nil]
  exact insert_wrapped h

/-- A key of 16 zero bytes is given out again. -/
theorem unlocks_zeroSealed : Unlocks sealingPlatform id 4 zeroPin ⟨default, .lockedIdle⟩
    (withWrapped zeroSealed) () (.replicate 16 0) := by
  have hsealed : sampleEncrypt (.zero 32) (.zero 12) (.replicate 16 0) = zeroSealed :=
    if_pos ⟨rfl, rfl, rfl⟩
  have hwraps := wraps_sealed (.replicate 16 0)
  rw [hsealed] at hwraps
  have hpin : (wrappedContact zeroSealed).pinVerifier.map Block.toBytes = some zeroPin.bytes := rfl
  obtain ⟨hgate, hadmits⟩ := withWrapped_admits zeroSealed (by decide)
  have hiff := unlocks_iff sealingPlatform_faithful 0 0 (.zero 32) marker_blank sample_roundTrips
    [.provisionFresh] [] (by decide) hwraps (accepted_sealed (by decide))
    (fun _ haction ↦ absurd haction List.not_mem_nil) hpin id ⟨default, .lockedIdle⟩ ()
  rw [List.singleton_append, ← storeAfter_eq, ← withWrapped_run] at hiff
  exact hiff.mpr ⟨hgate, hadmits, by decide⟩

/-- A key with room for no more than 15 bytes behind it, and what is stored for it. -/
def longKey : Bytes := .replicate 753 0

def longSealed : Bytes × Block 16 := sampleEncrypt (.zero 32) (.zero 12) longKey

theorem length_longSealed : longSealed.1.length = 753 := by
  have hle : longKey.length ≤ maxPublicKeyBytes := by
    rw [longKey, List.length_replicate]
    decide
  rw [longSealed, sample_roundTrips.length_eq _ _ _ hle, longKey, List.length_replicate]

/-- It is accepted, and not given out. -/
theorem longKey_not_unlocked :
    Wraps sealingPlatform sampleEncrypt
        (afterActions sealingPlatform (new blank 0 (.zero 32), 0) [.provisionFresh]).1 longKey
        (wrappedContact longSealed) ∧
      (insert sealingPlatform (wrappedContact longSealed)
        (afterActions sealingPlatform (new blank 0 (.zero 32), 0) [.provisionFresh]).1).1 = .ok 4 ∧
      (withWrapped longSealed).integrityGate = true ∧
      Admits sealingPlatform ⟨default, .lockedIdle⟩ (withWrapped longSealed) ∧
      ¬ Unlocks sealingPlatform id 4 zeroPin ⟨default, .lockedIdle⟩ (withWrapped longSealed) ()
        longKey := by
  have hlength : longSealed.1.length ≤ maxPublicKeyBytes := by
    rw [length_longSealed]
    decide
  have hkey : longKey.length = 753 := List.length_replicate
  obtain ⟨hgate, hadmits⟩ := withWrapped_admits longSealed hlength
  refine ⟨wraps_sealed longKey, accepted_sealed hlength, hgate, hadmits, fun hunlocks ↦ ?_⟩
  have hguards := guards_inserted sealingPlatform_faithful kept_provisioned keyed_sealing
    (insert_wrapped hlength)
  rw [← withWrapped_eq, lock_contact rfl] at hguards
  have hroom := (unlocks_iff_of_guards sealingPlatform_faithful sample_roundTrips
    (by rw [hkey]; decide) hguards (by decide : (1 : UInt8) ≠ 0) rfl rfl rfl).mp hunlocks
  rw [hkey] at hroom
  exact absurd hroom.2.2 (by decide)

end ContactStore

end Galdralag.Contacts
