import Galdralag.ContactStore.Index
import Galdralag.ContactStore.TimingLog
import Galdralag.PinPolicy.Machine

/-!
# The contact store

Contact records with an integrity gate. Every mutation ends by recomputing a keyed digest over the
records and the timing log and mirroring it in a register; at boot the digest is recomputed and
compared, and only then does the gate open.

The platform is a parameter: the storage and the counter, and the three cryptographic functions
the store calls.
-/

set_option linter.all false

namespace Galdralag.Contacts

/-- The derivation purposes the store uses. -/
inductive KeyPurpose where
  | contactKeyWrap
  | contactStoreIntegrity
  deriving DecidableEq, Repr

/-- What the store runs on. -/
structure StorePlatform (S C : Type) where
  storage : VaultStorage S
  counter : MonotonicCounter C
  /-- Key derivation from the master key, with an empty salt. -/
  deriveSubkey : Block 32 → KeyPurpose → Except Unit (Block 32)
  /-- The keyed hash of a byte string. -/
  keyedHash : Block 32 → Bytes → Block 32
  /-- Authenticated decryption of a ciphertext followed by its tag, under key and nonce. -/
  aeadDecrypt : Block 32 → Block 12 → Bytes → Option Bytes

/-- Public-key bytes returned to callers. -/
structure PublicKeyBlob where
  bytes : Bytes
  length_le : bytes.length ≤ maxPublicKeyBytes
  deriving DecidableEq

/-- Construct from key bytes (length must fit). -/
def PublicKeyBlob.fromSlice (bytes : Bytes) : Except ContactStoreError PublicKeyBlob :=
  if h : bytes.length ≤ maxPublicKeyBytes then .ok ⟨bytes, h⟩ else .error .keyTooLarge

/-- PIN bytes for unlock. -/
structure PinBuffer where
  bytes : Bytes
  length_pos : 0 < bytes.length
  length_le : bytes.length ≤ 32
  deriving DecidableEq

/-- Build from PIN bytes (at most 32). -/
def PinBuffer.fromUtf8 (pin : Bytes) : Except ContactStoreError PinBuffer :=
  if h : 0 < pin.length ∧ pin.length ≤ 32 then .ok ⟨pin, h.1, h.2⟩ else .error .pinFailed

/-- Input for creating a contact. -/
structure NewContact where
  fingerprint : Block 32
  callsign : Block 12
  dmrId : UInt32
  keyAlgo : KeyAlgo
  publicKey : Bytes
  email : Bytes
  displayName : Option Bytes
  ownIdentity : Bool
  pinProtected : Bool
  pinVerifier : Option (Block 32)
  pinNonce : Option (Block 12)
  pinTag : Option (Block 16)

/-- Partial update for an existing record. -/
structure ContactUpdate where
  callsign : Option (Block 12) := none
  dmrId : Option UInt32 := none
  email : Option Bytes := none
  displayName : Option Bytes := none
  lastFetched : Option UInt32 := none
  stale : Option Bool := none

/-- On-chip contact directory with integrity gate. -/
structure ContactStore (S C : Type) where
  storage : S
  counter : C
  index : ContactIndex
  integrityGate : Bool
  integrityRegister : Block 32
  masterKey : Block 32
  stringHeap : StringHeap
  keyRegion : KeyMaterialRegion
  timingLog : TimingLog

namespace ContactStore

variable {S C : Type} (hal : StorePlatform S C)

/-- A method of the store. -/
abbrev StoreM (S C α : Type) := Fallible (ContactStore S C) ContactStoreError α

/-- Construct in the pre-integrity-check state (does not read storage). -/
def new (storage : S) (counter : C) (masterKey : Block 32) : ContactStore S C where
  storage := storage
  counter := counter
  index := .new
  integrityGate := false
  integrityRegister := .zero 32
  masterKey := masterKey
  stringHeap := .new
  keyRegion := .new
  timingLog := .new

/-! ## Storage access -/

/-- Run a storage operation. -/
def storing {α : Type} (m : Fallible S ContactStoreError α) : StoreM S C α :=
  .zoom ContactStore.storage (fun x s ↦ { s with storage := x }) m

def readProvisionMarker (s : ContactStore S C) : Except ContactStoreError UInt32 := do
  pure (u32OfLe (← readAt hal.storage s.storage contactStoreProvisionMarkerOffset 4))

def writeProvisionMarker (value : UInt32) : StoreM S C PUnit :=
  storing (writeAt hal.storage contactStoreProvisionMarkerOffset (u32le value))

def loadIntegrityRegister : StoreM S C PUnit := do
  let bytes ← .reading fun s ↦ readAt hal.storage s.storage contactStoreIntegrityOffset 32
  .modify fun s ↦ { s with integrityRegister := .ofBytes 32 bytes }

def persistIntegrityRegister : StoreM S C PUnit := do
  let register ← .gets ContactStore.integrityRegister
  storing (writeAt hal.storage contactStoreIntegrityOffset register.toBytes)

/-- Overwrite `len` bytes from `offset` on with zeros, in chunks of 256. -/
def zeroRegion (offset len : ℕ) : StoreM S C PUnit :=
  if _h : len = 0 then pure ⟨⟩
  else do
    storing (writeAt hal.storage offset (List.replicate (min len 256) 0))
    zeroRegion (offset + min len 256) (len - min len 256)
termination_by len

def recordOffset (slot : UInt8) : ℕ :=
  contactRecordArrayOffset + slot.toNat * contactRecordBytes

def readRecord (s : ContactStore S C) (slot : UInt8) : Except ContactStoreError ContactRecord := do
  let buf ← readAt hal.storage s.storage (recordOffset slot) contactRecordBytes
  if buf.take 4 ≠ u32le contactRecordMagic then pure .default
  else ContactRecord.fromBytesVerified buf

def writeRecord (slot : UInt8) (r : ContactRecord) : StoreM S C PUnit :=
  storing (writeAt hal.storage (recordOffset slot) r.asBytes)

/-- The record slots, in order. -/
def slots : List UInt8 := (List.range contactSlotCount).map UInt8.ofNat

/-- Stop unless the integrity gate is open. -/
def gate : StoreM S C PUnit := do
  .require ((← .gets ContactStore.integrityGate) = true) .notInitialised

/-! ## Integrity -/

/-- The keyed digest over the occupied records and the timing log. -/
def computeIntegrityDigest (s : ContactStore S C) : Except ContactStoreError (Block 32) := do
  let key ← (hal.deriveSubkey s.masterKey .contactStoreIntegrity).mapError fun _ ↦ .crypto
  let hashed ← slots.foldlM
    (fun hashed slot ↦ do
      let buf ← readAt hal.storage s.storage (recordOffset slot) contactRecordBytes
      if buf.take 4 = u32le contactRecordMagic then
        if !recordCrcOk buf then .error .corruptRecord
        else pure (hashed ++ buf)
      else pure hashed) []
  let hashed ← (List.range (timingLogBytes / 256)).foldlM
    (fun hashed i ↦ do
      pure (hashed ++ (← readAt hal.storage s.storage (timingLogOffset + i * 256) 256))) hashed
  pure (hal.keyedHash key hashed)

/-- Update the register mirror after a committed mutation. -/
def updateIntegrity : StoreM S C PUnit := do
  let digest ← .reading (computeIntegrityDigest hal)
  .modify fun s ↦ { s with integrityRegister := digest }
  persistIntegrityRegister hal

/-- Recompute the digest and compare it to the register mirror; opens the gate on success. -/
def verifyIntegrity : StoreM S C PUnit := do
  if (← .reading (readProvisionMarker hal)) = 0 then
    .modify fun s ↦ { s with integrityGate := false }
    .fail .notProvisioned
  else
    loadIntegrityRegister hal
    let digest ← .reading (computeIntegrityDigest hal)
    if digest ≠ (← .gets ContactStore.integrityRegister) then
      .modify fun s ↦ { s with integrityGate := false }
      .fail .integrityMismatch
    else
      .modify fun s ↦ { s with integrityGate := true }

/-- Empty every slot and region, and start the allocators, the log and the index afresh. -/
def eraseBand : StoreM S C PUnit := do
  .each (fun slot ↦ writeRecord hal slot .default) slots
  zeroRegion hal stringHeapOffset stringHeapBytes
  zeroRegion hal keyRegionOffset keyRegionBytes
  zeroRegion hal timingLogOffset timingLogBytes
  .modify fun s ↦
    { s with stringHeap := .new, keyRegion := .new, timingLog := .new, index := .new }

/-- Run a method of the store next to the provisioning counter. -/
def besideCounter {α : Type} (m : StoreM S C α) :
    Fallible (ContactStore S C × C) ContactStoreError α :=
  .zoom Prod.fst (fun s p ↦ (s, p.2)) m

/-- Factory-fresh provisioning: zero the band, write the digest and the provision marker. The
provisioning counter is a counter of its own, next to the store. -/
def provisionFresh : Fallible (ContactStore S C × C) ContactStoreError PUnit := do
  besideCounter (loadIntegrityRegister hal)
  .require ((← .gets fun p ↦ p.1.integrityRegister).toBytes.all (· = 0)) .alreadyProvisioned
  .require ((← .reading fun p ↦ readProvisionMarker hal p.1) = 0) .alreadyProvisioned
  besideCounter (eraseBand hal)
  besideCounter (updateIntegrity hal)
  let _ ← .zoom Prod.snd (fun c p ↦ (p.1, c)) (.orElse hal.counter.increment .counterError)
  besideCounter (writeProvisionMarker hal 1)
  besideCounter (.modify fun s ↦ { s with integrityGate := true })

/-! ## Boot -/

/-- The end of a region that is in use: the largest end of a live reference. -/
def scanBumps (records : List ContactRecord) : UInt32 × UInt32 :=
  (records.filter ContactRecord.isActive).foldl
    (fun bumps r ↦
      let heap := (r.stringRefs.filter fun ref ↦ !ref.isEmpty).foldl
        (fun b ref ↦ max b (saturatingAdd ref.offset ref.len.toUInt32)) bumps.1
      let key :=
        if r.keyLen > 0 then max bumps.2 (saturatingAdd r.keyOffset r.keyLen.toUInt32)
        else bumps.2
      (heap, key))
    (0, 0)

/-- Boot path: verify the checksum of occupied slots, rebuild the index, verify integrity and open
the gate. -/
def initOnBoot : StoreM S C PUnit := do
  let records ← .reading fun s ↦ slots.mapM (readRecord hal s)
  let bumps := scanBumps records
  .modify fun s ↦
    { s with
      stringHeap := s.stringHeap.setBump bumps.1
      keyRegion := s.keyRegion.setBump bumps.2
      index := .rebuildFromRecords records }
  verifyIntegrity hal

/-! ## Operations -/

/-- Append a timing-log entry. The records read for a merge are a local copy. -/
def timingLogAppend (slot : UInt8) (lastFetched : UInt32) : StoreM S C PUnit := do
  gate
  let records ← .reading fun s ↦ slots.mapM (readRecord hal s)
  let _ ← .zoom (fun s ↦ ((s.timingLog, s.storage), s.counter))
    (fun x s ↦ { s with timingLog := x.1.1, storage := x.1.2, counter := x.2 })
    (TimingLog.append hal.storage hal.counter slot lastFetched records)

def allocString (bytes : Bytes) : StoreM S C StringRef := do
  .require (bytes.length ≤ maxStringFieldBytes) .stringTooLong
  .zoom (fun s ↦ (s.stringHeap, s.storage))
    (fun x s ↦ { s with stringHeap := x.1, storage := x.2 })
    (StringHeap.alloc hal.storage bytes)

def allocKey (keyBytes : Bytes) : StoreM S C (UInt32 × UInt16) :=
  .zoom (fun s ↦ (s.keyRegion, s.storage))
    (fun x s ↦ { s with keyRegion := x.1, storage := x.2 })
    (KeyMaterialRegion.alloc hal.storage keyBytes)

/-- The first of the given slots whose magic is not that of a record. -/
def findEmptySlot (s : ContactStore S C) : List UInt8 → Except ContactStoreError UInt8
  | [] => .error .recipientSlotsFull
  | slot :: rest => do
    let buf ← readAt hal.storage s.storage (recordOffset slot) 4
    if u32OfLe buf ≠ contactRecordMagic then pure slot else findEmptySlot s rest

def findEmptyRecipientSlot (s : ContactStore S C) : Except ContactStoreError UInt8 :=
  findEmptySlot hal s (slots.drop recipientSlotStart)

def findEmptyOwnSlot (s : ContactStore S C) : Except ContactStoreError UInt8 :=
  findEmptySlot hal s (slots.take recipientSlotStart)

/-- The PIN fields of a new record; a protected contact must bring its verifier. -/
def pinFields (input : NewContact) :
    Except ContactStoreError (Block 32 × Block 12 × Block 16) :=
  if input.pinProtected then
    match input.pinVerifier with
    | none => .error .pinFailed
    | some pv => .ok (pv, input.pinNonce.getD (.zero 12), input.pinTag.getD (.zero 16))
  else .ok (.zero 32, .zero 12, .zero 16)

/-- The record of a new contact, before its checksum. -/
def newRecord (input : NewContact) (key : UInt32 × UInt16) (pin : Block 32 × Block 12 × Block 16)
    (email displayName : StringRef) : ContactRecord :=
  { ContactRecord.default with
    magic := contactRecordMagic
    flags :=
      (if input.ownIdentity then ContactFlags.active.union .selfKey else .active).bits
    keyAlgo := input.keyAlgo.toWire
    pinProtected := if input.pinProtected then 1 else 0
    fingerprint := input.fingerprint
    callsign := input.callsign
    dmrId := input.dmrId
    keyOffset := key.1
    keyLen := key.2
    pinNonce := pin.2.1
    pinTag := pin.2.2
    sourceMap := fieldSourceSet 0 fieldEmail .hostVerified
    pinVerifier := pin.1
    email := email
    displayName := displayName }

/-- Insert a new contact. -/
def insert (input : NewContact) : StoreM S C UInt8 := do
  gate
  let slot ← .reading fun s ↦
    if input.ownIdentity then findEmptyOwnSlot hal s else findEmptyRecipientSlot hal s
  let key ← allocKey hal input.publicKey
  let pin ← .lift (pinFields input)
  let email ← allocString hal input.email
  let displayName ← input.displayName.elim (pure .default) (allocString hal)
  let r := (newRecord input key pin email displayName).recomputeCrc
  writeRecord hal slot r
  let index ← .reading fun s ↦ s.index.insert r.fingerprint slot r.contactFlags
  .modify fun s ↦ { s with index := index }
  updateIntegrity hal
  pure slot

/-- The flags of a record with the stale flag of an update applied. -/
def staleFlags (r : ContactRecord) (stale : Bool) : ContactFlags :=
  if stale then r.contactFlags.union .stale else r.contactFlags.difference .stale

/-- Update mutable fields. -/
def update (slot : UInt8) (update : ContactUpdate) : StoreM S C PUnit := do
  gate
  let r ← .reading fun s ↦ readRecord hal s slot
  .require (r.isActive = true) .invalidSlot
  let r := { r with callsign := update.callsign.getD r.callsign }
  let r := { r with dmrId := update.dmrId.getD r.dmrId }
  let r ← (match update.email with
    | some email => do pure { r with email := ← allocString hal email }
    | none => pure r)
  let r ← (match update.displayName with
    | some name => do pure { r with displayName := ← allocString hal name }
    | none => pure r)
  let r := { r with lastFetched := update.lastFetched.getD r.lastFetched }
  let r ← (match update.stale with
    | some stale => do
      let f := staleFlags r stale
      .modify fun s ↦ { s with index := s.index.updateFlags slot f }
      pure (r.setContactFlags f)
    | none => pure r)
  writeRecord hal slot r.recomputeCrc
  updateIntegrity hal

/-- Mark a slot inactive (zero magic). -/
def delete (slot : UInt8) : StoreM S C PUnit := do
  gate
  writeRecord hal slot .default
  .modify fun s ↦ { s with index := s.index.remove slot }
  updateIntegrity hal

/-! ## Listing -/

/-- A slot index from a byte. -/
def slotFromU8 (v : UInt8) : Except ContactStoreError UInt8 :=
  if v.toNat ≥ contactSlotCount then .error .invalidSlot else .ok v

/-- List occupied slots with fingerprints, as the iterator yields them. -/
def list (s : ContactStore S C) :
    Except ContactStoreError (List (Except ContactStoreError (UInt8 × Block 32))) := do
  let _ ← ensure (s.integrityGate = true) .notInitialised
  let items ← s.index.entries.mapM fun e ↦ do
    let r ← readRecord hal s e.slot
    pure (e.slot, r.fingerprint)
  pure (items.map fun item ↦ (slotFromU8 item.1).map fun slot ↦ (slot, item.2))

/-! ## Public keys -/

/-- Read the public key of a record that is not PIN-protected. -/
def readPublicKey (s : ContactStore S C) (slot : UInt8) :
    Except ContactStoreError PublicKeyBlob := do
  if s.integrityGate ≠ true then .error .notInitialised
  let r ← readRecord hal s slot
  if r.pinProtected ≠ 0 then .error .pinRequired
  PublicKeyBlob.fromSlice
    (← KeyMaterialRegion.read hal.storage s.storage r.keyOffset r.keyLen maxPublicKeyBytes)

/-- Authenticated decryption into a buffer of the size of a public key. -/
def aesGcmDecrypt (key : Block 32) (nonce : Block 12) (tag : Block 16) (ciphertext : Bytes) :
    Except ContactStoreError Bytes :=
  if ciphertext.length + 16 > maxPublicKeyBytes then .error .crypto
  else match hal.aeadDecrypt key nonce (ciphertext ++ tag.toBytes) with
    | none => .error .crypto
    | some plain => if plain.length > maxPublicKeyBytes then .error .crypto else .ok plain

/-- Decrypt the key material of a record whose PIN was verified. -/
def unwrapKey (s : ContactStore S C) (r : ContactRecord) :
    Except ContactStoreError PublicKeyBlob := do
  let wrapKey ← (hal.deriveSubkey s.masterKey .contactKeyWrap).mapError fun _ ↦ .crypto
  let ct ← KeyMaterialRegion.read hal.storage s.storage r.keyOffset r.keyLen maxPublicKeyBytes
  PublicKeyBlob.fromSlice (← aesGcmDecrypt hal wrapKey r.pinNonce r.pinTag ct)

/-- The counter of the store, as a counter of the store next to what the wipe hook acts on. -/
def storeCounter (Z : Type) : MonotonicCounter (ContactStore S C × Z) where
  read w := hal.counter.read w.1.counter
  increment := .zoom (fun w ↦ w.1.counter)
    (fun c w ↦ ({ w.1 with counter := c }, w.2)) hal.counter.increment
  refundOnSuccess := .zoom (fun w ↦ w.1.counter)
    (fun c w ↦ ({ w.1 with counter := c }, w.2)) hal.counter.refundOnSuccess

/-- Unlock PIN-protected key material; the machine is the caller's. -/
def unlockPinProtected {Z : Type} (zeroisation : ZeroisationTrigger Z) (slot : UInt8)
    (pin : PinBuffer) :
    Fallible (PinPolicyMachine × ContactStore S C × Z) ContactStoreError PublicKeyBlob := do
  .require ((← .gets fun w ↦ w.2.1.integrityGate) = true) .notInitialised
  let r ← .reading fun w ↦ readRecord hal w.2.1 slot
  if r.pinProtected = 0 then
    .reading fun w ↦ readPublicKey hal w.2.1 slot
  else
    let outcome ← .orElse
      (PinPolicyMachine.submitAttempt (storeCounter hal Z) (fun w ↦ (w.1, zeroisation w.2))
        fun w ↦ (pinCompare pin.bytes r.pinVerifier.toBytes, w))
      .counterError
    match outcome with
    | .success => .reading fun w ↦ unwrapKey hal w.2.1 r
    | .failed _ => .fail .pinFailed
    | .breach => .fail .pinFailed

end ContactStore

end Galdralag.Contacts
