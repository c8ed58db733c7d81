import Galdralag.ContactStore.Layout
import Galdralag.Foundation.Bytes
import Mathlib.Logic.Basic

/-!
# Contact records

One contact occupies a fixed 256-byte record: a magic number, flags, the fingerprint and the other
fixed fields, references into the string heap and the key region, and a checksum over everything
before it. The codec is written and read field by field, and a record is read back from its own
bytes.
-/

set_option linter.all false

namespace Galdralag.Contacts

/-- Fallible contact-store outcomes. -/
inductive ContactStoreError where
  | storageRead
  | storageWrite
  | corruptRecord
  | corruptLogEntry
  | slotNotFound
  | recipientSlotsFull
  | heapFull
  | pinRequired
  | pinFailed
  | integrityMismatch
  | notInitialised
  | invalidSlot
  | keyTooLarge
  | stringTooLong
  | invalidAlgo
  | removedBrainpoolP512
  | counterError
  | crypto
  | invalidRecord
  | alreadyProvisioned
  | notProvisioned
  deriving DecidableEq, Repr

/-! ## Checksum -/

/-- One byte into the reflected 32-bit checksum register. -/
def crcByte (crc : UInt32) (b : UInt8) : UInt32 :=
  (List.range 8).foldl
    (fun c _ ↦ if c &&& 1 = 1 then (c >>> 1) ^^^ 0xEDB88320 else c >>> 1) (crc ^^^ b.toUInt32)

/-- The record checksum, as the `crc32fast` hasher computes it. -/
def crc32c (data : Bytes) : UInt32 := (data.foldl crcByte 0xFFFFFFFF) ^^^ 0xFFFFFFFF

/-- Verify the stored checksum against all bytes before it. -/
def recordCrcOk (bytes : Bytes) : Bool :=
  if bytes.length < 4 then false
  else crc32c (bytes.take (bytes.length - 4)) == u32OfLe (bytes.drop (bytes.length - 4))

/-! ## Flags and algorithms -/

/-- Persisted contact flags; only the four named bits can be set. -/
structure ContactFlags where
  bits : UInt8
  deriving DecidableEq, Repr

namespace ContactFlags

def active : ContactFlags := ⟨0b0001⟩

def revoked : ContactFlags := ⟨0b0010⟩

def stale : ContactFlags := ⟨0b0100⟩

def selfKey : ContactFlags := ⟨0b1000⟩

def fromBitsTruncate (bits : UInt8) : ContactFlags := ⟨bits &&& 0b1111⟩

def contains (f g : ContactFlags) : Bool := f.bits &&& g.bits == g.bits

def union (f g : ContactFlags) : ContactFlags := ⟨f.bits ||| g.bits⟩

def difference (f g : ContactFlags) : ContactFlags := ⟨f.bits &&& ~~~g.bits⟩

end ContactFlags

/-- Public-key algorithm tag. -/
inductive KeyAlgo where
  | ed25519
  | x25519
  | brainpoolP256r1
  | brainpoolP384r1
  | nistP256
  | nistP384
  | rsa2048
  | rsa3072
  | rsa4096
  deriving DecidableEq, Repr

namespace KeyAlgo

/-- Parse the wire byte; `5` is the retired `keyAlgoWireBrainpoolP512`. -/
def fromWire (byte : UInt8) : Except ContactStoreError KeyAlgo :=
  match byte with
  | 1 => .ok ed25519
  | 2 => .ok x25519
  | 3 => .ok brainpoolP256r1
  | 4 => .ok brainpoolP384r1
  | 5 => .error .removedBrainpoolP512
  | 6 => .ok nistP256
  | 7 => .ok nistP384
  | 8 => .ok rsa2048
  | 9 => .ok rsa3072
  | 10 => .ok rsa4096
  | _ => .error .invalidAlgo

def toWire : KeyAlgo → UInt8
  | ed25519 => 1
  | x25519 => 2
  | brainpoolP256r1 => 3
  | brainpoolP384r1 => 4
  | nistP256 => 6
  | nistP384 => 7
  | rsa2048 => 8
  | rsa3072 => 9
  | rsa4096 => 10

@[simp] theorem fromWire_toWire (a : KeyAlgo) : fromWire a.toWire = .ok a := by
  cases a <;> rfl

end KeyAlgo

/-- Provenance of a single logical field, two bits in `sourceMap`. -/
inductive FieldSource where
  | selfAttested
  | hostVerified
  | registrySync
  | oobVerified
  deriving DecidableEq, Repr

namespace FieldSource

def fromBits (bits : UInt64) : FieldSource :=
  match bits &&& 0b11 with
  | 1 => hostVerified
  | 2 => registrySync
  | 3 => oobVerified
  | _ => selfAttested

def toBits : FieldSource → UInt64
  | selfAttested => 0
  | hostVerified => 1
  | registrySync => 2
  | oobVerified => 3

end FieldSource

/-- The `sourceMap` index of the e-mail string. -/
def fieldEmail : UInt8 := 2

/-- Read provenance bits for a logical field. -/
def fieldSourceGet (map : UInt64) (fieldId : UInt8) : FieldSource :=
  .fromBits ((map >>> (fieldId.toUInt64 * 2)) &&& 0b11)

/-- Update provenance for one field. -/
def fieldSourceSet (map : UInt64) (fieldId : UInt8) (source : FieldSource) : UInt64 :=
  let shift := fieldId.toUInt64 * 2
  let mask := ~~~((0b11 : UInt64) <<< shift)
  (map &&& mask) ||| (source.toBits <<< shift)

/-! ## The record -/

/-- Offset and length of a string in the heap. -/
structure StringRef where
  offset : UInt32
  len : UInt16
  deriving DecidableEq, Repr, Inhabited

namespace StringRef

/-- True when both offset and length are zero (absent string). -/
def isEmpty (r : StringRef) : Bool := r.offset == 0 && r.len == 0

/-- The absent string. -/
def default : StringRef := ⟨0, 0⟩

def asBytes (r : StringRef) : Bytes := u32le r.offset ++ u16le r.len

/-- The next reference in front of the cursor. -/
def read : Reader StringRef := do
  let offset ← Reader.u32
  let len ← Reader.u16
  pure ⟨offset, len⟩

@[simp] theorem length_asBytes (r : StringRef) : r.asBytes.length = 6 := by
  rw [asBytes, List.length_append, length_u32le, length_u16le]

theorem reads_read (r : StringRef) : Reader.Reads read r.asBytes r :=
  (Reader.reads_u32 r.offset).bind ((Reader.reads_u16 r.len).last (.pure r))

end StringRef

/-- In-memory contact record. -/
structure ContactRecord where
  /-- `contactRecordMagic` when occupied, zero when deleted. -/
  magic : UInt32
  flags : UInt8
  /-- Wire byte of the key algorithm. -/
  keyAlgo : UInt8
  /-- Non-zero when the public key requires a PIN. -/
  pinProtected : UInt8
  reserved0 : UInt8
  fingerprint : Block 32
  callsign : Block 12
  dmrId : UInt32
  keyOffset : UInt32
  keyLen : UInt16
  reserved1 : UInt16
  pinNonce : Block 12
  pinTag : Block 16
  lastFetched : UInt32
  sourceMap : UInt64
  pinVerifier : Block 32
  email : StringRef
  displayName : StringRef
  badgeNumber : StringRef
  organisation : StringRef
  department : StringRef
  role : StringRef
  note : StringRef
  radioAffiliation : StringRef
  street : StringRef
  country : StringRef
  postalCode : StringRef
  region : StringRef
  fluxerId : StringRef
  discordId : StringRef
  ircId : StringRef
  reserved2 : Block 26
  /-- Checksum over the bytes before it. -/
  crc32c : UInt32
  deriving DecidableEq

namespace ContactRecord

/-- The all-zero record of an empty slot. -/
def default : ContactRecord where
  magic := 0
  flags := 0
  keyAlgo := 0
  pinProtected := 0
  reserved0 := 0
  fingerprint := .zero 32
  callsign := .zero 12
  dmrId := 0
  keyOffset := 0
  keyLen := 0
  reserved1 := 0
  pinNonce := .zero 12
  pinTag := .zero 16
  lastFetched := 0
  sourceMap := 0
  pinVerifier := .zero 32
  email := .default
  displayName := .default
  badgeNumber := .default
  organisation := .default
  department := .default
  role := .default
  note := .default
  radioAffiliation := .default
  street := .default
  country := .default
  postalCode := .default
  region := .default
  fluxerId := .default
  discordId := .default
  ircId := .default
  reserved2 := .zero 26
  crc32c := 0

instance : Inhabited ContactRecord := ⟨default⟩

/-- Flags as a typed bitset. -/
def contactFlags (r : ContactRecord) : ContactFlags := .fromBitsTruncate r.flags

def setContactFlags (r : ContactRecord) (f : ContactFlags) : ContactRecord :=
  { r with flags := f.bits }

/-- True when magic and the active flag indicate an occupied slot. -/
def isActive (r : ContactRecord) : Bool :=
  r.magic == contactRecordMagic && r.contactFlags.contains .active

/-- The string references, in the order in which they are stored and scanned. -/
def stringRefs (r : ContactRecord) : List StringRef :=
  [r.email, r.displayName, r.badgeNumber, r.organisation, r.department, r.role, r.note,
    r.radioAffiliation, r.street, r.country, r.postalCode, r.region, r.fluxerId, r.discordId,
    r.ircId]

/-- The bytes before the checksum. -/
def body (r : ContactRecord) : Bytes :=
  u32le r.magic ++ ([r.flags] ++ ([r.keyAlgo] ++ ([r.pinProtected] ++ ([r.reserved0] ++
  (r.fingerprint.toBytes ++ (r.callsign.toBytes ++ (u32le r.dmrId ++ (u32le r.keyOffset ++
  (u16le r.keyLen ++ (u16le r.reserved1 ++ (r.pinNonce.toBytes ++ (r.pinTag.toBytes ++
  (u32le r.lastFetched ++ (u64le r.sourceMap ++ (r.pinVerifier.toBytes ++
  (r.email.asBytes ++ (r.displayName.asBytes ++ (r.badgeNumber.asBytes ++
  (r.organisation.asBytes ++ (r.department.asBytes ++ (r.role.asBytes ++ (r.note.asBytes ++
  (r.radioAffiliation.asBytes ++ (r.street.asBytes ++ (r.country.asBytes ++
  (r.postalCode.asBytes ++ (r.region.asBytes ++ (r.fluxerId.asBytes ++ (r.discordId.asBytes ++
  (r.ircId.asBytes ++ r.reserved2.toBytes))))))))))))))))))))))))))))))

/-- Serialize to 256 bytes. -/
def asBytes (r : ContactRecord) : Bytes := r.body ++ u32le r.crc32c

/-- Read the fields one after the other, without checking the checksum. -/
def read : Reader ContactRecord := do
  let magic ← Reader.u32
  let flags ← Reader.u8
  let keyAlgo ← Reader.u8
  let pinProtected ← Reader.u8
  let reserved0 ← Reader.u8
  let fingerprint ← Reader.block 32
  let callsign ← Reader.block 12
  let dmrId ← Reader.u32
  let keyOffset ← Reader.u32
  let keyLen ← Reader.u16
  let reserved1 ← Reader.u16
  let pinNonce ← Reader.block 12
  let pinTag ← Reader.block 16
  let lastFetched ← Reader.u32
  let sourceMap ← Reader.u64
  let pinVerifier ← Reader.block 32
  let email ← StringRef.read
  let displayName ← StringRef.read
  let badgeNumber ← StringRef.read
  let organisation ← StringRef.read
  let department ← StringRef.read
  let role ← StringRef.read
  let note ← StringRef.read
  let radioAffiliation ← StringRef.read
  let street ← StringRef.read
  let country ← StringRef.read
  let postalCode ← StringRef.read
  let region ← StringRef.read
  let fluxerId ← StringRef.read
  let discordId ← StringRef.read
  let ircId ← StringRef.read
  let reserved2 ← Reader.block 26
  let crc32c ← Reader.u32
  pure
    { magic, flags, keyAlgo, pinProtected, reserved0, fingerprint, callsign, dmrId, keyOffset,
      keyLen, reserved1, pinNonce, pinTag, lastFetched, sourceMap, pinVerifier, email,
      displayName, badgeNumber, organisation, department, role, note, radioAffiliation, street,
      country, postalCode, region, fluxerId, discordId, ircId, reserved2, crc32c }

/-- Load without a checksum check. -/
def fromBytesUnchecked (bytes : Bytes) : ContactRecord := (read bytes).1

/-- Load from storage bytes: verify the checksum, and the algorithm of an active record. -/
def fromBytesVerified (bytes : Bytes) : Except ContactStoreError ContactRecord :=
  if !recordCrcOk bytes then .error .corruptRecord
  else
    let r := fromBytesUnchecked bytes
    if r.magic == contactRecordMagic && r.isActive then do
      let _ ← KeyAlgo.fromWire r.keyAlgo
      .ok r
    else .ok r

/-- Recompute and store the checksum over the bytes before it. -/
def recomputeCrc (r : ContactRecord) : ContactRecord :=
  { r with crc32c := Contacts.crc32c (r.asBytes.take (contactRecordBytes - 4)) }

/-! ### Round trips -/

@[simp] theorem length_body (r : ContactRecord) : r.body.length = 252 := by
  simp only [body, List.length_append, List.length_cons, List.length_nil, length_u16le,
    length_u32le, length_u64le, Block.length_toBytes, StringRef.length_asBytes]

@[simp] theorem length_asBytes (r : ContactRecord) : r.asBytes.length = 256 := by
  rw [asBytes, List.length_append, length_body, length_u32le]

theorem take_body (r : ContactRecord) : r.asBytes.take 252 = r.body :=
  List.take_left' r.length_body

theorem drop_body (r : ContactRecord) : r.asBytes.drop 252 = u32le r.crc32c :=
  List.drop_left' r.length_body

/-- The magic number is what a scan of the slots sees first. -/
theorem take_magic (r : ContactRecord) : r.asBytes.take 4 = u32le r.magic := by
  rw [asBytes, body, List.append_assoc]
  exact List.take_left' (length_u32le r.magic)

/-- A record is read back from its bytes. -/
theorem reads_read (r : ContactRecord) : Reader.Reads read r.asBytes r := by
  simp only [asBytes, body, List.append_assoc]
  exact (Reader.reads_u32 _).bind <| (Reader.reads_u8 _).bind <| (Reader.reads_u8 _).bind <|
    (Reader.reads_u8 _).bind <| (Reader.reads_u8 _).bind <| (Reader.reads_block _).bind <|
    (Reader.reads_block _).bind <| (Reader.reads_u32 _).bind <| (Reader.reads_u32 _).bind <|
    (Reader.reads_u16 _).bind <| (Reader.reads_u16 _).bind <| (Reader.reads_block _).bind <|
    (Reader.reads_block _).bind <| (Reader.reads_u32 _).bind <| (Reader.reads_u64 _).bind <|
    (Reader.reads_block _).bind <| (StringRef.reads_read _).bind <|
    (StringRef.reads_read _).bind <| (StringRef.reads_read _).bind <|
    (StringRef.reads_read _).bind <| (StringRef.reads_read _).bind <|
    (StringRef.reads_read _).bind <| (StringRef.reads_read _).bind <|
    (StringRef.reads_read _).bind <| (StringRef.reads_read _).bind <|
    (StringRef.reads_read _).bind <| (StringRef.reads_read _).bind <|
    (StringRef.reads_read _).bind <| (StringRef.reads_read _).bind <|
    (StringRef.reads_read _).bind <| (StringRef.reads_read _).bind <|
    (Reader.reads_block _).bind <| (Reader.reads_u32 _).last <| .pure _

@[simp] theorem fromBytesUnchecked_asBytes (r : ContactRecord) :
    fromBytesUnchecked r.asBytes = r := r.reads_read.fst_eq

/-- The checksum of a record's bytes is good exactly when the record stores the checksum of its
body. -/
theorem recordCrcOk_asBytes (r : ContactRecord) :
    recordCrcOk r.asBytes = (Contacts.crc32c r.body == r.crc32c) := by
  rw [recordCrcOk, length_asBytes, if_neg (by decide), take_body, drop_body, u32OfLe_u32le]

theorem crc32c_recomputeCrc (r : ContactRecord) :
    r.recomputeCrc.crc32c = Contacts.crc32c r.recomputeCrc.body := by
  change Contacts.crc32c (r.asBytes.take 252) = Contacts.crc32c r.body
  rw [take_body]

theorem recordCrcOk_recomputeCrc (r : ContactRecord) :
    recordCrcOk r.recomputeCrc.asBytes = true := by
  rw [recordCrcOk_asBytes, ← crc32c_recomputeCrc]
  exact beq_self_eq_true _

/-- A record is loadable: not active, or active with a known algorithm. -/
def Loadable (r : ContactRecord) : Prop := r.isActive → ∃ a, KeyAlgo.fromWire r.keyAlgo = .ok a

/-- Loading verified bytes gives a loadable record, with a good checksum. -/
theorem fromBytesVerified_eq_ok {bytes : Bytes} {r : ContactRecord}
    (h : fromBytesVerified bytes = .ok r) :
    recordCrcOk bytes = true ∧ fromBytesUnchecked bytes = r ∧ r.Loadable := by
  rw [fromBytesVerified] at h
  cases hcrc : recordCrcOk bytes
  · rw [hcrc] at h
    cases h
  rw [hcrc] at h
  by_cases hact : (fromBytesUnchecked bytes).isActive = true
  · have hmagic : ((fromBytesUnchecked bytes).magic == contactRecordMagic) = true := by
      rw [isActive, Bool.and_eq_true] at hact
      exact hact.1
    rcases halgo : KeyAlgo.fromWire (fromBytesUnchecked bytes).keyAlgo with e | a
    · simp only [Bool.not_true, Bool.false_eq_true, if_false, hmagic, hact, Bool.and_self, if_true,
        halgo] at h
      cases h
    · simp only [Bool.not_true, Bool.false_eq_true, if_false, hmagic, hact, Bool.and_self, if_true,
        halgo] at h
      cases h
      exact ⟨rfl, rfl, fun _ ↦ ⟨a, halgo⟩⟩
  · rw [Bool.not_eq_true] at hact
    simp only [Bool.not_true, Bool.false_eq_true, if_false, hact, Bool.and_false] at h
    cases h
    exact ⟨rfl, rfl, fun ha ↦ by rw [hact] at ha; cases ha⟩

/-- Bytes with a good checksum that decode to a loadable record are accepted. -/
theorem fromBytesVerified_of_loadable {bytes : Bytes} (hcrc : recordCrcOk bytes = true)
    (h : (fromBytesUnchecked bytes).Loadable) :
    fromBytesVerified bytes = .ok (fromBytesUnchecked bytes) := by
  rw [fromBytesVerified, hcrc]
  by_cases hact : (fromBytesUnchecked bytes).isActive = true
  · obtain ⟨a, halgo⟩ := h hact
    simp only [Bool.not_true, Bool.false_eq_true, if_false, halgo]
    split <;> rfl
  · rw [Bool.not_eq_true] at hact
    simp only [Bool.not_true, Bool.false_eq_true, if_false, hact, Bool.and_false]

end ContactRecord

end Galdralag.Contacts
