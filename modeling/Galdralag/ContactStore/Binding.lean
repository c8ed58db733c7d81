import Galdralag.ContactStore.Integrity

/-!
# What the register binds

The digest is the keyed hash of one byte string: the bytes of the occupied slots, one record behind
the other in the order of the slots, and then the log. All records have one length, and so has the
log, so the string says what the records are and what the log is.

It does not say in which slots the records are. And it has no byte of the string heap or of the key
region, where the records only point to.
-/

set_option linter.all false

namespace Galdralag.Contacts

namespace ContactStore

variable {S C : Type} {hal : StorePlatform S C} {memory : S → Memory}
  {s s₁ s₂ t₁ t₂ : ContactStore S C}

/-- Whether a slot starts with the magic of a record. -/
def Occupied (mem : Memory) (slot : UInt8) : Prop :=
  (slotBytes mem slot).take 4 = u32le contactRecordMagic

instance (mem : Memory) : DecidablePred (Occupied mem) :=
  fun slot ↦ inferInstanceAs (Decidable ((slotBytes mem slot).take 4 = u32le contactRecordMagic))

/-- The stored records of the given slots, in their order. -/
def recordsOf (mem : Memory) (l : List UInt8) : List Bytes :=
  (l.filter fun slot ↦ Occupied mem slot).map (slotBytes mem)

/-- The stored records, in the order of their slots. -/
def storedRecords (mem : Memory) : List Bytes := recordsOf mem slots

/-- The bytes of the log. -/
def logBytes (mem : Memory) : Bytes := mem.window timingLogOffset timingLogBytes

/-- The byte string under the hash. -/
def hashedBytes (mem : Memory) : Bytes := (storedRecords mem).flatten ++ logBytes mem

theorem recordsOf_cons_of_occupied {mem : Memory} {slot : UInt8} (h : Occupied mem slot)
    (l : List UInt8) : recordsOf mem (slot :: l) = slotBytes mem slot :: recordsOf mem l := by
  rw [recordsOf, List.filter_cons, if_pos (decide_eq_true h), List.map_cons]
  rfl

theorem recordsOf_cons_of_not_occupied {mem : Memory} {slot : UInt8} (h : ¬ Occupied mem slot)
    (l : List UInt8) : recordsOf mem (slot :: l) = recordsOf mem l := by
  rw [recordsOf, List.filter_cons, if_neg (by rw [decide_eq_true_eq]; exact h)]
  rfl

/-! ## The hashed string -/

section Hashed

variable (hf : hal.storage.Faithful contactStoreEnd memory)
include hf

/-- Going through the slots collects the stored records, if their checksums are good. -/
theorem collectRecords_eq_ok (l : List UInt8) : ∀ {hashed bs : Bytes},
    l.foldlM (fun hashed slot ↦ do
        let buf ← readAt hal.storage s.storage (recordOffset slot) contactRecordBytes
        if buf.take 4 = u32le contactRecordMagic then
          if !recordCrcOk buf then .error ContactStoreError.corruptRecord
          else pure (hashed ++ buf)
        else pure hashed) hashed = .ok bs ↔
      (∀ buf ∈ recordsOf (memory s.storage) l, recordCrcOk buf = true) ∧
        hashed ++ (recordsOf (memory s.storage) l).flatten = bs := by
  induction l with
  | nil =>
    intro hashed bs
    rw [show recordsOf (memory s.storage) [] = [] from rfl, List.flatten_nil, List.append_nil]
    exact ⟨fun h ↦ ⟨fun _ hbuf ↦ absurd hbuf List.not_mem_nil, Except.ok.inj h⟩,
      fun h ↦ congrArg Except.ok h.2⟩
  | cons slot l ih =>
    intro hashed bs
    rw [List.foldlM_cons, readRecord_bytes hf]
    by_cases hocc : (slotBytes (memory s.storage) slot).take 4 = u32le contactRecordMagic
    · rw [recordsOf_cons_of_occupied hocc, List.flatten_cons, ← List.append_assoc,
        List.forall_mem_cons, ok_bind, if_pos hocc]
      cases hcrc : recordCrcOk (slotBytes (memory s.storage) slot)
      · refine iff_of_false ?_ fun h ↦ Bool.false_ne_true h.1.1
        rw [Bool.not_false, if_pos rfl, error_bind]
        rintro ⟨⟩
      · rw [Bool.not_true, if_neg Bool.false_ne_true]
        exact ih.trans (and_congr_left' (and_iff_right rfl).symm)
    · rw [recordsOf_cons_of_not_occupied hocc, ok_bind, if_neg hocc]
      exact ih

/-- **The digest.** It is the keyed hash of the stored records and the log. -/
theorem computeIntegrityDigest_eq_ok {d : Block 32} : computeIntegrityDigest hal s = .ok d ↔
    ∃ k, hal.deriveSubkey s.masterKey .contactStoreIntegrity = .ok k ∧
      (∀ buf ∈ storedRecords (memory s.storage), recordCrcOk buf = true) ∧
      hal.keyedHash k (hashedBytes (memory s.storage)) = d := by
  rw [computeIntegrityDigest]
  rcases hal.deriveSubkey s.masterKey .contactStoreIntegrity with e | k
  · refine iff_of_false ?_ ?_
    · rintro ⟨⟩
    · rintro ⟨_, ⟨⟩, -⟩
  constructor
  · intro h
    obtain ⟨_, ⟨⟩, h⟩ := except_bind_eq_ok.mp h
    obtain ⟨hashed, hrecords, h⟩ := except_bind_eq_ok.mp h
    rw [Fallible.except_bind_of_ok (readLog_eq hf s hashed)] at h
    obtain ⟨hcrc, rfl⟩ := (collectRecords_eq_ok hf slots).mp hrecords
    exact ⟨k, rfl, hcrc, Except.ok.inj h⟩
  · rintro ⟨_, ⟨⟩, hcrc, rfl⟩
    refine except_bind_eq_ok.mpr ⟨k, rfl, ?_⟩
    rw [Fallible.except_bind_of_ok ((collectRecords_eq_ok hf slots).mpr ⟨hcrc, rfl⟩),
      Fallible.except_bind_of_ok (readLog_eq hf s _)]
    rfl

end Hashed

/-! ## Reading the string back -/

theorem length_of_mem_storedRecords {mem : Memory} {buf : Bytes} (h : buf ∈ storedRecords mem) :
    buf.length = 256 := by
  obtain ⟨slot, -, rfl⟩ := List.mem_map.mp h
  exact Memory.length_window

/-- Records of one length are told by the bytes they make up. -/
theorem eq_of_flatten_eq {l l' : List Bytes} (hl : ∀ buf ∈ l, buf.length = 256)
    (hl' : ∀ buf ∈ l', buf.length = 256) (h : l.flatten = l'.flatten) : l = l' := by
  have hlengths : ∀ {m : List Bytes}, (∀ buf ∈ m, buf.length = 256) →
      m.map List.length = List.replicate m.length 256 := by
    intro m hm
    rw [List.eq_replicate_iff, List.length_map]
    refine ⟨rfl, fun n hn ↦ ?_⟩
    obtain ⟨buf, hbuf, rfl⟩ := List.mem_map.mp hn
    exact hm buf hbuf
  have htotal : l.length = l'.length := by
    have hsum := congrArg List.length h
    rw [List.length_flatten, List.length_flatten, hlengths hl, hlengths hl', List.sum_replicate_nat,
      List.sum_replicate_nat] at hsum
    omega
  exact List.eq_iff_flatten_eq.mpr ⟨h, by rw [hlengths hl, hlengths hl', htotal]⟩

/-- The hashed string says what the records are and what the log is. -/
theorem hashedBytes_injective {mem mem' : Memory} (h : hashedBytes mem = hashedBytes mem') :
    storedRecords mem = storedRecords mem' ∧ logBytes mem = logBytes mem' := by
  have hlog : (logBytes mem).length = (logBytes mem').length :=
    Memory.length_window.trans Memory.length_window.symm
  obtain ⟨hrecords, hlog⟩ := List.append_inj' h hlog
  exact ⟨eq_of_flatten_eq (fun _ ↦ length_of_mem_storedRecords)
    (fun _ ↦ length_of_mem_storedRecords) hrecords, hlog⟩

/-- Where the same slots are occupied, the stored records say what each slot holds. -/
theorem slotBytes_eq_of_storedRecords {mem mem' : Memory}
    (h : storedRecords mem = storedRecords mem')
    (hocc : ∀ slot ∈ slots, Occupied mem slot ↔ Occupied mem' slot) {slot : UInt8}
    (hslot : slot ∈ slots) (ho : Occupied mem slot) : slotBytes mem slot = slotBytes mem' slot := by
  have hsame : slots.filter (fun slot ↦ Occupied mem slot)
      = slots.filter fun slot ↦ Occupied mem' slot :=
    List.filter_congr fun slot hslot ↦ decide_eq_decide.mpr (hocc slot hslot)
  rw [storedRecords, storedRecords, recordsOf, recordsOf, hsame, List.map_inj_left] at h
  exact h slot (List.mem_filter.mpr ⟨hslot, decide_eq_true ((hocc slot hslot).mp ho)⟩)

/-! ## What is bound -/

/-- Every slot reads the same in both stores. -/
def SameSlots (hal : StorePlatform S C) (s₁ s₂ : ContactStore S C) : Prop :=
  ∀ slot ∈ slots, readRecord hal s₁ slot = readRecord hal s₂ slot

/-- The active records of the first store refer to the same key bytes in both stores. -/
def SameKeys (hal : StorePlatform S C) (s₁ s₂ : ContactStore S C) : Prop :=
  ∀ slot ∈ slots, ∀ r, readRecord hal s₁ slot = .ok r → r.isActive = true →
    KeyMaterialRegion.read hal.storage s₁.storage r.keyOffset r.keyLen maxPublicKeyBytes
      = KeyMaterialRegion.read hal.storage s₂.storage r.keyOffset r.keyLen maxPublicKeyBytes

/-- The active records of the first store refer to the same strings in both stores. -/
def SameStrings (hal : StorePlatform S C) (s₁ s₂ : ContactStore S C) : Prop :=
  ∀ slot ∈ slots, ∀ r, readRecord hal s₁ slot = .ok r → r.isActive = true → ∀ ref ∈ r.stringRefs,
    StringHeap.read hal.storage s₁.storage ref maxStringFieldBytes
      = StringHeap.read hal.storage s₂.storage ref maxStringFieldBytes

/-- What holds of any two stores under one master key that verify against the same register. -/
def Binds (hal : StorePlatform S C) (memory : S → Memory)
    (same : ContactStore S C → ContactStore S C → Prop) : Prop :=
  ∀ s₁ s₂ t₁ t₂ : ContactStore S C, s₁.masterKey = s₂.masterKey →
    verifyIntegrity hal s₁ = (.ok ⟨⟩, t₁) → verifyIntegrity hal s₂ = (.ok ⟨⟩, t₂) →
    (memory s₁.storage).window contactStoreIntegrityOffset 32
      = (memory s₂.storage).window contactStoreIntegrityOffset 32 → same s₁ s₂

section Bound

variable (hf : hal.storage.Faithful contactStoreEnd memory)
include hf

theorem readRecord_eq (s : ContactStore S C) (slot : UInt8) : readRecord hal s slot
    = if Occupied (memory s.storage) slot
      then ContactRecord.fromBytesVerified (slotBytes (memory s.storage) slot)
      else .ok .default := by
  rw [readRecord, readRecord_bytes hf, ok_bind]
  exact ite_not ..

/-- Memories with the same records read the same. -/
theorem readRecord_congr {s t : ContactStore S C} (h : SameRecords (memory s.storage) (memory t.storage))
    {slot : UInt8} (hslot : slot ∈ slots) : readRecord hal s slot = readRecord hal t slot := by
  rw [readRecord, readRecord, readRecord_bytes hf, readRecord_bytes hf, slotBytes_congr h hslot]

/-- **What the register binds.** Two stores under one master key that verify against the same
register, and whose hashed strings do not collide, hold the same records in the same order and the
same log. Where they have the same slots occupied, every slot reads the same. -/
theorem register_binds (hkey : s₁.masterKey = s₂.masterKey)
    (h₁ : verifyIntegrity hal s₁ = (.ok ⟨⟩, t₁)) (h₂ : verifyIntegrity hal s₂ = (.ok ⟨⟩, t₂))
    (hreg : (memory s₁.storage).window contactStoreIntegrityOffset 32
      = (memory s₂.storage).window contactStoreIntegrityOffset 32)
    (hcollision : ∀ k, hal.keyedHash k (hashedBytes (memory s₁.storage))
        = hal.keyedHash k (hashedBytes (memory s₂.storage)) →
      hashedBytes (memory s₁.storage) = hashedBytes (memory s₂.storage)) :
    storedRecords (memory s₁.storage) = storedRecords (memory s₂.storage) ∧
      logBytes (memory s₁.storage) = logBytes (memory s₂.storage) ∧
      ((∀ slot ∈ slots, Occupied (memory s₁.storage) slot ↔ Occupied (memory s₂.storage) slot) →
        SameSlots hal s₁ s₂) := by
  obtain ⟨-, ⟨d₁, hd₁, hreg₁⟩, -, hkey₁, hstorage₁⟩ := verifyIntegrity_ok hf h₁
  obtain ⟨-, ⟨d₂, hd₂, hreg₂⟩, -, hkey₂, hstorage₂⟩ := verifyIntegrity_ok hf h₂
  obtain ⟨k₁, hk₁, -, hhash₁⟩ := (computeIntegrityDigest_eq_ok hf).mp hd₁
  obtain ⟨k₂, hk₂, -, hhash₂⟩ := (computeIntegrityDigest_eq_ok hf).mp hd₂
  rw [hstorage₁] at hreg₁ hhash₁
  rw [hstorage₂] at hreg₂ hhash₂
  obtain rfl : k₁ = k₂ := by
    rw [hkey₁, hkey] at hk₁
    rw [hkey₂, hk₁, Except.ok.injEq] at hk₂
    exact hk₂
  have hd : d₁ = d₂ := Block.ext (hreg₁.symm.trans (hreg.trans hreg₂))
  have hsame := hcollision k₁ (hhash₁.trans (hd.trans hhash₂.symm))
  obtain ⟨hrecords, hlog⟩ := hashedBytes_injective hsame
  refine ⟨hrecords, hlog, fun hocc slot hslot ↦ ?_⟩
  rw [readRecord_eq hf, readRecord_eq hf]
  by_cases ho : Occupied (memory s₁.storage) slot
  · rw [if_pos ho, if_pos ((hocc slot hslot).mp ho),
      slotBytes_eq_of_storedRecords hrecords hocc hslot ho]
  · rw [if_neg ho, if_neg (ho ∘ (hocc slot hslot).mpr)]

end Bound

/-! ## What is not

Two stores with one and the same hashed string, so that no hash tells them apart. -/

/-- The platform of the samples with another keyed hash. -/
def hashing (hash : Block 32 → Bytes → Block 32) : StorePlatform Memory UInt32 :=
  { samplePlatform with keyedHash := hash }

theorem hashing_faithful (hash : Block 32 → Bytes → Block 32) :
    (hashing hash).storage.Faithful contactStoreEnd fun m ↦ m := samplePlatform_faithful

/-- A record with a public key and an e-mail address of one byte each. -/
def peer : ContactRecord :=
  (newRecord
    { fingerprint := .zero 32, callsign := .zero 12, dmrId := 0, keyAlgo := .ed25519, publicKey := [1],
      email := [1], displayName := none, ownIdentity := false, pinProtected := false,
      pinVerifier := none, pinNonce := none, pinTag := none }
    (0, 1) (.zero 32, .zero 12, .zero 16) ⟨0, 1⟩ .default).recomputeCrc

theorem recordCrcOk_peer : recordCrcOk peer.asBytes = true := ContactRecord.recordCrcOk_recomputeCrc _

/-- The record in a slot, with its e-mail address and its public key, and a register. -/
def holding (slot email key : UInt8) (register : Block 32) : Memory :=
  ((((blank.patch contactStoreProvisionMarkerOffset (u32le 1)).patch (recordOffset slot)
    peer.asBytes).patch stringHeapOffset [email]).patch keyRegionOffset [key]).patch
    contactStoreIntegrityOffset register.toBytes

section Holding

variable (slot email key : UInt8) (register : Block 32)

theorem sameRecords_holding : SameRecords ((blank.patch contactStoreProvisionMarkerOffset
    (u32le 1)).patch (recordOffset slot) peer.asBytes) (holding slot email key register) := by
  have hheap : stringHeapOffset + [email].length ≤ contactStoreProvisionMarkerOffset :=
    (by decide : stringHeapOffset + 1 ≤ contactStoreProvisionMarkerOffset)
  have hkeys : keyRegionOffset + [key].length ≤ contactStoreProvisionMarkerOffset :=
    (by decide : keyRegionOffset + 1 ≤ contactStoreProvisionMarkerOffset)
  refine .trans (.trans ?_ (sameRecords_patch (by decide) (.inl hkeys)))
    (sameRecords_patch (by decide) (.inr (Nat.le_refl _)))
  exact sameRecords_patch (Nat.le_refl _) (.inl hheap)

theorem slotBytes_holding {slot' : UInt8} (h : slot' ∈ slots) :
    slotBytes (holding slot email key register) slot'
      = if slot' = slot then peer.asBytes else List.replicate 256 0 := by
  have hle := recordOffset_add_le slot'
  rw [← slotBytes_congr (sameRecords_holding slot email key register) h, slotBytes_patch, slotBytes,
    Memory.window_patch_of_disjoint (.inl (Nat.le_trans hle (by decide))), window_blank]
  rfl

theorem marker_holding :
    u32OfLe ((holding slot email key register).window contactStoreProvisionMarkerOffset 4) ≠ 0 := by
  have hle := recordOffset_add_le slot
  have hmarker := Memory.window_patch blank contactStoreProvisionMarkerOffset (u32le 1)
  have hsame := Memory.window_congr (sameRecords_holding slot email key register).2
    (Nat.le_refl _) (Nat.le_refl (contactStoreProvisionMarkerOffset + 4))
  rw [length_u32le] at hmarker
  rw [← hsame, Memory.window_patch_of_disjoint
    (.inr (by rw [peer.length_asBytes]; exact Nat.le_trans hle (by decide))), hmarker, u32OfLe_u32le]
  decide

theorem register_holding :
    (holding slot email key register).window contactStoreIntegrityOffset 32 = register.toBytes := by
  have hregister := Memory.window_patch (((((blank.patch contactStoreProvisionMarkerOffset
    (u32le 1)).patch (recordOffset slot) peer.asBytes).patch stringHeapOffset [email]).patch
    keyRegionOffset [key])) contactStoreIntegrityOffset register.toBytes
  rwa [register.length_toBytes] at hregister

theorem logBytes_holding :
    logBytes (holding slot email key register) = List.replicate timingLogBytes 0 := by
  have hle := recordOffset_add_le slot
  have hheap : stringHeapOffset + 1 ≤ timingLogOffset := by decide
  have hkeys : keyRegionOffset + 1 ≤ timingLogOffset := by decide
  rw [logBytes, holding, Memory.window_patch_of_disjoint (.inl (by decide)),
    Memory.window_patch_of_disjoint (.inr hkeys), Memory.window_patch_of_disjoint (.inr hheap),
    Memory.window_patch_of_disjoint (.inr (by rw [peer.length_asBytes]; exact hle)),
    Memory.window_patch_of_disjoint (.inl (by decide)), window_blank]

theorem occupied_holding {slot' : UInt8} (h : slot' ∈ slots) :
    Occupied (holding slot email key register) slot' ↔ slot' = slot := by
  rw [Occupied, slotBytes_holding slot email key register h]
  split_ifs with heq
  · exact iff_of_true peer.take_magic heq
  · exact iff_of_false (by decide) heq

theorem storedRecords_holding {slot : UInt8} (hslot : slots.filter (· = slot) = [slot]) :
    storedRecords (holding slot email key register) = [peer.asBytes] := by
  have hmem : slot ∈ slots := (List.mem_filter.mp (hslot ▸ List.mem_singleton_self slot)).1
  have hfilter : slots.filter (fun slot' ↦ Occupied (holding slot email key register) slot') = [slot] :=
    (List.filter_congr fun slot' h ↦
      decide_eq_decide.mpr (occupied_holding slot email key register h)).trans hslot
  rw [storedRecords, recordsOf, hfilter, List.map_singleton,
    slotBytes_holding slot email key register hmem, if_pos rfl]

/-- The string that is hashed, whatever the slot, the e-mail address and the key are. -/
theorem hashedBytes_holding {slot : UInt8} (hslot : slots.filter (· = slot) = [slot]) :
    hashedBytes (holding slot email key register)
      = peer.asBytes ++ List.replicate timingLogBytes 0 := by
  rw [hashedBytes, storedRecords_holding _ _ _ hslot, logBytes_holding, List.flatten_singleton]

end Holding

/-- The digest of the hashed string. -/
def peerDigest (hash : Block 32 → Bytes → Block 32) : Block 32 :=
  hash (.zero 32) (peer.asBytes ++ List.replicate timingLogBytes 0)

/-- A store that holds the record, with the register that belongs to it. -/
def holder (hash : Block 32 → Bytes → Block 32) (slot email key : UInt8) : ContactStore Memory UInt32 :=
  new (holding slot email key (peerDigest hash)) 0 (.zero 32)

section Holder

variable (hash : Block 32 → Bytes → Block 32) {slot : UInt8} (email key : UInt8)

/-- The store verifies, whatever the slot, the e-mail address and the key are. -/
theorem verifyIntegrity_holder (hslot : slots.filter (· = slot) = [slot]) :
    verifyIntegrity (hashing hash) (holder hash slot email key) = (.ok ⟨⟩, { holder hash slot email key with
      integrityRegister := peerDigest hash, integrityGate := true }) := by
  refine verifyIntegrity_eq (hashing_faithful hash) (marker_holding _ _ _ _) ?_
    (register_holding _ _ _ _)
  refine (computeIntegrityDigest_eq_ok (hashing_faithful hash)).mpr ⟨.zero 32, rfl, ?_, ?_⟩
  · intro buf hbuf
    have hrecords : storedRecords (holder hash slot email key).storage = [peer.asBytes] :=
      storedRecords_holding email key _ hslot
    rw [hrecords, List.mem_singleton] at hbuf
    rw [hbuf]
    exact recordCrcOk_peer
  · exact congrArg (hash _) (hashedBytes_holding email key _ hslot)

theorem masterKey_holder (slot email key : UInt8) :
    (holder hash slot email key).masterKey = .zero 32 := rfl

theorem register_holder (slot email key : UInt8) :
    (holder hash slot email key).storage.window contactStoreIntegrityOffset 32
      = (peerDigest hash).toBytes := register_holding _ _ _ _

/-- The record is read from its slot. -/
theorem readRecord_holder (hslot : slot ∈ slots) :
    readRecord (hashing hash) (holder hash slot email key) slot = .ok peer := by
  have hload : (ContactRecord.fromBytesUnchecked peer.asBytes).Loadable := by
    rw [ContactRecord.fromBytesUnchecked_asBytes]
    exact fun _ ↦ ⟨.ed25519, rfl⟩
  have hbytes : slotBytes (holder hash slot email key).storage slot = peer.asBytes :=
    (slotBytes_holding slot email key _ hslot).trans (if_pos rfl)
  have hocc : Occupied (holder hash slot email key).storage slot :=
    (occupied_holding slot email key _ hslot).mpr rfl
  rw [readRecord_eq (hashing_faithful hash), if_pos hocc, hbytes,
    ContactRecord.fromBytesVerified_of_loadable recordCrcOk_peer hload,
    ContactRecord.fromBytesUnchecked_asBytes]

/-- The other slots are empty. -/
theorem readRecord_holder_of_ne {slot' : UInt8} (hslot : slot' ∈ slots) (h : slot' ≠ slot) :
    readRecord (hashing hash) (holder hash slot email key) slot' = .ok .default := by
  rw [readRecord_eq (hashing_faithful hash)]
  exact if_neg fun hocc ↦ h ((occupied_holding slot email key _ hslot).mp hocc)

/-- The public key that the record refers to. -/
theorem readKey_holder : KeyMaterialRegion.read (hashing hash).storage
    (holder hash slot email key).storage peer.keyOffset peer.keyLen maxPublicKeyBytes = .ok [key] := by
  have hread := readAt_eq (hashing_faithful hash) (holder hash slot email key).storage
    (by decide : keyRegionOffset + 1 ≤ contactStoreEnd)
  have hwindow : (holding slot email key (peerDigest hash)).window keyRegionOffset 1 = [key] := by
    rw [holding, Memory.window_patch_of_disjoint (.inl (by decide))]
    exact Memory.window_patch _ keyRegionOffset [key]
  exact hread.trans (congrArg Except.ok hwindow)

/-- The e-mail address that the record refers to. -/
theorem readEmail_holder : StringHeap.read (hashing hash).storage
    (holder hash slot email key).storage peer.email maxStringFieldBytes = .ok [email] := by
  have hread := readAt_eq (hashing_faithful hash) (holder hash slot email key).storage
    (by decide : stringHeapOffset + 1 ≤ contactStoreEnd)
  have hwindow : (holding slot email key (peerDigest hash)).window stringHeapOffset 1 = [email] := by
    rw [holding, Memory.window_patch_of_disjoint (.inl (by decide)),
      Memory.window_patch_of_disjoint (.inl (by decide))]
    exact Memory.window_patch _ stringHeapOffset [email]
  exact hread.trans (congrArg Except.ok hwindow)

end Holder

/-- **What the register does not bind.** Whatever the keyed hash is, two stores that verify against
the same register can hold a record in different slots, and the same record can refer to other key
bytes or to other strings. -/
theorem register_not_binding : ¬ ∃ hash : Block 32 → Bytes → Block 32,
    Binds (hashing hash) (fun m ↦ m) (SameSlots (hashing hash)) ∨
      Binds (hashing hash) (fun m ↦ m) (SameKeys (hashing hash)) ∨
      Binds (hashing hash) (fun m ↦ m) (SameStrings (hashing hash)) := by
  have h4 : (4 : UInt8) ∈ slots := by decide
  have hfour : slots.filter (· = 4) = [4] := by decide
  have hfive : slots.filter (· = 5) = [5] := by decide
  rintro ⟨hash, hslots | hkeys | hstrings⟩
  · have hsame := hslots (holder hash 4 0 0) (holder hash 5 0 0) _ _
      ((masterKey_holder ..).trans (masterKey_holder ..).symm)
      (verifyIntegrity_holder hash 0 0 hfour) (verifyIntegrity_holder hash 0 0 hfive)
      ((register_holder ..).trans (register_holder ..).symm) 4 h4
    rw [readRecord_holder hash 0 0 h4, readRecord_holder_of_ne hash 0 0 h4 (by decide)] at hsame
    have hmagic := congrArg ContactRecord.magic (Except.ok.inj hsame)
    exact absurd hmagic (by decide)
  · have hsame := hkeys (holder hash 4 0 0) (holder hash 4 0 1) _ _
      ((masterKey_holder ..).trans (masterKey_holder ..).symm)
      (verifyIntegrity_holder hash 0 0 hfour) (verifyIntegrity_holder hash 0 1 hfour)
      ((register_holder ..).trans (register_holder ..).symm) 4 h4 peer
      (readRecord_holder hash 0 0 h4) rfl
    rw [readKey_holder, readKey_holder, Except.ok.injEq] at hsame
    exact absurd hsame (by decide)
  · have hsame := hstrings (holder hash 4 0 0) (holder hash 4 1 0) _ _
      ((masterKey_holder ..).trans (masterKey_holder ..).symm)
      (verifyIntegrity_holder hash 0 0 hfour) (verifyIntegrity_holder hash 1 0 hfour)
      ((register_holder ..).trans (register_holder ..).symm) 4 h4 peer
      (readRecord_holder hash 0 0 h4) rfl peer.email List.mem_cons_self
    rw [readEmail_holder, readEmail_holder, Except.ok.injEq] at hsame
    exact absurd hsame (by decide)

/-- Two stores whose records refer to different key bytes hold the same records. -/
theorem register_binds_holder :
    storedRecords (holder samplePlatform.keyedHash 4 0 0).storage
      = storedRecords (holder samplePlatform.keyedHash 4 0 1).storage :=
  have hfour : slots.filter (· = 4) = [4] := by decide
  (register_binds (hashing_faithful samplePlatform.keyedHash)
    ((masterKey_holder ..).trans (masterKey_holder ..).symm)
    (verifyIntegrity_holder samplePlatform.keyedHash 0 0 hfour)
    (verifyIntegrity_holder samplePlatform.keyedHash 0 1 hfour)
    ((register_holder ..).trans (register_holder ..).symm)
    fun _ _ ↦ (hashedBytes_holding 0 0 _ hfour).trans (hashedBytes_holding 0 1 _ hfour).symm).1

end ContactStore

end Galdralag.Contacts
