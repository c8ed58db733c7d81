import Mathlib.Data.Nat.Notation

/-!
# Layout of the contact store

Byte offsets of the contact-store band: the record array, the string heap, the key-material
region, the timing log, the provision marker and the mirrored integrity digest, in this order and
without gaps.
-/

set_option linter.all false

namespace Galdralag.Contacts

/-- First byte of the contact-store region. -/
def contactStoreBase : ℕ := 76800

/-- One persisted contact record. -/
def contactRecordBytes : ℕ := 256

/-- Total contact slots: 4 own-identity and 50 recipient. -/
def contactSlotCount : ℕ := 54

/-- Recipient slots occupy indices `4..=53`. -/
def recipientSlotStart : ℕ := 4

def recipientSlotCount : ℕ := 50

/-- Span of the fixed record array. -/
def contactRecordArrayBytes : ℕ := contactRecordBytes * contactSlotCount

def stringHeapBytes : ℕ := 64 * 1024

def keyRegionBytes : ℕ := 64 * 1024

def timingLogBytes : ℕ := 16 * 1024

def contactRecordArrayOffset : ℕ := contactStoreBase

def stringHeapOffset : ℕ := contactStoreBase + contactRecordArrayBytes

def keyRegionOffset : ℕ := stringHeapOffset + stringHeapBytes

def timingLogOffset : ℕ := keyRegionOffset + keyRegionBytes

/-- Exclusive end of the contact-store band. -/
def contactStoreRramEnd : ℕ := timingLogOffset + timingLogBytes

/-- Four-byte provision marker, `0` when not provisioned. -/
def contactStoreProvisionMarkerOffset : ℕ := contactStoreRramEnd

/-- Mirrored 256-bit integrity digest. -/
def contactStoreIntegrityOffset : ℕ := contactStoreProvisionMarkerOffset + 4

/-- End of the span including the provision marker and the integrity mirror. -/
def contactStoreEnd : ℕ := contactStoreIntegrityOffset + 32

/-- Magic written to active records, `CTAC` little-endian. -/
def contactRecordMagic : UInt32 := 0x43414354

/-- Maximum public-key blob stored in the key region. -/
def maxPublicKeyBytes : ℕ := 768

/-- Maximum heap-backed string field length. -/
def maxStringFieldBytes : ℕ := 240

/-! ## The band in numbers

The equations that linear arithmetic needs to see that regions do not meet. -/

theorem contactRecordBytes_eq : contactRecordBytes = 256 := rfl

theorem contactSlotCount_eq : contactSlotCount = 54 := rfl

theorem contactRecordArrayOffset_eq : contactRecordArrayOffset = 76800 := rfl

theorem stringHeapOffset_eq : stringHeapOffset = 90624 := rfl

theorem stringHeapBytes_eq : stringHeapBytes = 65536 := rfl

theorem keyRegionOffset_eq : keyRegionOffset = 156160 := rfl

theorem keyRegionBytes_eq : keyRegionBytes = 65536 := rfl

theorem timingLogOffset_eq : timingLogOffset = 221696 := rfl

theorem timingLogBytes_eq : timingLogBytes = 16384 := rfl

theorem contactStoreProvisionMarkerOffset_eq : contactStoreProvisionMarkerOffset = 238080 := rfl

theorem contactStoreIntegrityOffset_eq : contactStoreIntegrityOffset = 238084 := rfl

theorem contactStoreEnd_eq : contactStoreEnd = 238116 := rfl

end Galdralag.Contacts
