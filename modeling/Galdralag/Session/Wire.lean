import Galdralag.Cipher.Profile
import Galdralag.Foundation.Outcome

/-!
# The wire format of the handshake

Each message is a version byte, a curve byte and its fields behind their lengths: one byte for a key
and a fingerprint, two for the signature. Parsing walks an offset through the packet and asks before
each field whether there are bytes enough. It never asks whether there are bytes left over.

So parsing accepts a message exactly on the packets that begin with its serialisation. A packet that
is a message and more is accepted as the message.
-/

set_option linter.all false

namespace Galdralag.Session

/-! ## Parts of both messages -/

/-- Maximum serialised handshake message size. -/
def maxHandshakeBytes : ℕ := 512

/-- The curve of a wire byte. -/
def curveOfWire (byte : UInt8) : Except EphemeralSessionError SessionCurve :=
  match Cipher.tryFromWire byte with
  | .ok c => .ok c
  | .error .removedBrainpoolP512 => .error .removedBrainpoolP512Curve
  | .error .unknown => .error .malformedHandshake

theorem curveOfWire_eq_ok {byte : UInt8} {c : SessionCurve} :
    curveOfWire byte = .ok c ↔ byte = c.wireId := by
  constructor
  · intro h
    unfold curveOfWire at h
    split at h
    · cases h
      exact Cipher.eq_wireId_of_tryFromWire (by assumption)
    · cases h
    · cases h
  · rintro rfl
    cases c <;> rfl

/-- Put bytes behind those of a vector. -/
def extend {cap : ℕ} (out : Vec cap) (bs : Bytes) : Except EphemeralSessionError (Vec cap) :=
  pushAll (out.toBytes ++ bs)

/-- The low byte of a number. -/
def lowByte (n : ℕ) : UInt8 := .ofNat n

/-- Bytes behind their number in one byte. -/
def short (bs : Bytes) : Bytes := lowByte bs.length :: bs

/-- Bytes behind their number in two bytes. -/
def long (bs : Bytes) : Bytes := u16be (.ofNat bs.length) ++ bs

/-- Read a field behind one length byte, which must be accepted and leave `room` bytes behind the
field. The offset moves behind the field. -/
def parseShort {cap : ℕ} (accepts : ℕ → Prop) [DecidablePred accepts] (room : ℕ) (bytes : Bytes)
    (o : ℕ) : Outcome EphemeralSessionError (Vec cap × ℕ) := do
  let len ← .index bytes o
  let o := o + 1
  let _ ← .check (accepts len.toNat) .malformedHandshake
  let _ ← .check (¬ bytes.length < o + len.toNat + room) .malformedHandshake
  let field ← .slice bytes o (o + len.toNat)
  let v ← .lift (pushAll field)
  pure (v, o + len.toNat)

/-- Read the signature behind its two length bytes. -/
def parseSignature (bytes : Bytes) (o : ℕ) : Outcome EphemeralSessionError (Vec 200) := do
  let hi ← .index bytes o
  let lo ← .index bytes (o + 1)
  let slen := (u16OfBe hi lo).toNat
  let o := o + 2
  let _ ← .check (¬ bytes.length < o + slen) .malformedHandshake
  let sig ← .slice bytes o (o + slen)
  .lift (pushAll sig)

/-- Read the version, which must be the given one, and the curve. -/
def parseHead (expected : UInt8) (bytes : Bytes) :
    Outcome EphemeralSessionError (UInt8 × SessionCurve) := do
  let _ ← .check (¬ bytes.length < 6) .malformedHandshake
  let version ← .index bytes 0
  let _ ← .check (version = expected) .malformedHandshake
  let wire ← .index bytes 1
  let curve ← .lift (curveOfWire wire)
  pure (version, curve)

/-- Write a field behind its length, which must fit one byte. -/
def writeShort {cap : ℕ} (out : Vec cap) (field : Bytes) : Except EphemeralSessionError (Vec cap) := do
  let _ ← ensure (¬ field.length > 255) .malformedHandshake
  let out ← extend out [lowByte field.length]
  extend out field

/-- Write the signature behind its length, which must fit two bytes. -/
def writeSignature {cap : ℕ} (out : Vec cap) (sig : Bytes) : Except EphemeralSessionError (Vec cap) := do
  let _ ← ensure (¬ sig.length > 65535) .malformedHandshake
  let slen : UInt16 := .ofNat sig.length
  let out ← extend out [(slen >>> 8).toUInt8]
  let out ← extend out [slen.toUInt8]
  extend out sig

/-! ## Messages -/

namespace InitMessage

/-- Serialise to a flat byte array. -/
def serialise (m : InitMessage) : Except EphemeralSessionError (Vec maxHandshakeBytes) := do
  let out ← extend .empty [m.version]
  let out ← extend out [m.curve.wireId]
  let out ← writeShort out m.ephemeralPublicKey.toBytes
  let out ← writeShort out m.longTermFingerprint.toBytes
  writeSignature out m.signature.toBytes

/-- Parse from wire bytes. -/
def parse (bytes : Bytes) : Outcome EphemeralSessionError InitMessage := do
  let head ← parseHead initProtocolVersion bytes
  let epk ← parseShort (· = head.2.publicKeyLen) 1 bytes 2
  let fp ← parseShort (fun _ ↦ True) 2 bytes epk.2
  let sig ← parseSignature bytes fp.2
  pure ⟨head.1, head.2, epk.1, fp.1, sig⟩

/-- The bytes of a message. -/
def encode (m : InitMessage) : Bytes :=
  m.version :: m.curve.wireId :: (short m.ephemeralPublicKey.toBytes ++
    (short m.longTermFingerprint.toBytes ++ long m.signature.toBytes))

/-- The version is the one there is, and the key has the length of its curve. -/
def Valid (m : InitMessage) : Prop :=
  m.version = initProtocolVersion ∧ m.ephemeralPublicKey.length = m.curve.publicKeyLen

end InitMessage

namespace ResponseMessage

/-- Serialise to a flat byte array. -/
def serialise (m : ResponseMessage) : Except EphemeralSessionError (Vec maxHandshakeBytes) := do
  let out ← extend .empty [m.version]
  let out ← extend out [m.curve.wireId]
  let out ← writeShort out m.ephemeralPublicKey.toBytes
  let out ← writeShort out m.longTermFingerprint.toBytes
  let out ← writeShort out m.initiatorEphemeralPublicKey.toBytes
  writeSignature out m.signature.toBytes

/-- Parse from wire bytes. -/
def parse (bytes : Bytes) : Outcome EphemeralSessionError ResponseMessage := do
  let head ← parseHead respProtocolVersion bytes
  let epk ← parseShort (· = head.2.publicKeyLen) 1 bytes 2
  let fp ← parseShort (fun _ ↦ True) 1 bytes epk.2
  let iepk ← parseShort (· = head.2.publicKeyLen) 2 bytes fp.2
  let sig ← parseSignature bytes iepk.2
  pure ⟨head.1, head.2, epk.1, fp.1, iepk.1, sig⟩

/-- The bytes of a message. -/
def encode (m : ResponseMessage) : Bytes :=
  m.version :: m.curve.wireId :: (short m.ephemeralPublicKey.toBytes ++
    (short m.longTermFingerprint.toBytes ++ (short m.initiatorEphemeralPublicKey.toBytes ++
      long m.signature.toBytes)))

/-- The version is the one there is, and both keys have the length of the curve. -/
def Valid (m : ResponseMessage) : Prop :=
  m.version = respProtocolVersion ∧ m.ephemeralPublicKey.length = m.curve.publicKeyLen ∧
    m.initiatorEphemeralPublicKey.length = m.curve.publicKeyLen

end ResponseMessage

/-! ## Serialising -/

section Serialise

variable {cap : ℕ} {out : Vec cap} {a bs c : Bytes} {e : EphemeralSessionError}
  {f : Vec cap → Except EphemeralSessionError (Vec cap)}

/-- The vector that comes out holds the bytes. -/
def Writes (r : Except EphemeralSessionError (Vec cap)) (c : Bytes) : Prop :=
  ∃ v, r = .ok v ∧ v.toBytes = c

theorem Writes.bind {r : Except EphemeralSessionError (Vec cap)} (hr : Writes r a)
    (h : ∀ out, out.toBytes = a → Writes (f out) c) : Writes (r >>= f) c := by
  obtain ⟨v, rfl, hv⟩ := hr
  exact h v hv

/-- Bytes that fit are put behind those that are there. -/
theorem writes_extend (ha : out.toBytes = a) (hfit : a.length + bs.length ≤ cap) :
    Writes (extend out bs) (a ++ bs) := by
  rw [← List.length_append] at hfit
  rw [extend, ha, pushAll, Vec.ofBytes?_of_le hfit]
  exact ⟨_, rfl, Vec.toBytes_truncated hfit⟩

theorem writes_writeShort (ha : out.toBytes = a) (hlen : bs.length ≤ 255)
    (hfit : a.length + 1 + bs.length ≤ cap) : Writes (writeShort out bs) (a ++ short bs) := by
  have hlong : ¬ bs.length > 255 := Nat.not_lt_of_le hlen
  rw [writeShort, ensure_eq_ok.mpr hlong, ok_bind, short, List.append_cons]
  refine (writes_extend ha (by rw [List.length_singleton]; omega)).bind fun out₁ h₁ ↦ ?_
  exact writes_extend h₁ (by rw [List.length_append, List.length_singleton]; omega)

theorem writes_writeSignature (ha : out.toBytes = a) (hlen : bs.length ≤ 65535)
    (hfit : a.length + 2 + bs.length ≤ cap) : Writes (writeSignature out bs) (a ++ long bs) := by
  have hlong : ¬ bs.length > 65535 := Nat.not_lt_of_le hlen
  rw [writeSignature, ensure_eq_ok.mpr hlong, ok_bind, long, u16be, List.cons_append,
    List.append_cons, List.singleton_append, List.append_cons]
  refine (writes_extend ha (by rw [List.length_singleton]; omega)).bind fun out₁ h₁ ↦ ?_
  refine (writes_extend h₁ (by simp; omega)).bind fun out₂ h₂ ↦ ?_
  exact writes_extend h₂ (by simp; omega)

end Serialise

/-! ## Fields behind an offset -/

section Fields

open Outcome

variable {bytes field rest : Bytes} {o : ℕ} {len hi lo : UInt8}

theorem toNat_lowByte (h : field.length ≤ 255) : (lowByte field.length).toNat = field.length := by
  rw [lowByte, UInt8.toNat_ofNat']
  exact Nat.mod_eq_of_lt (by omega)

/-- A length byte and a field, read. -/
theorem drop_eq_short (hbyte : bytes.drop o = len :: bytes.drop (o + 1)) (hlen : field.length = len.toNat)
    (hfield : bytes.drop (o + 1) = field ++ bytes.drop (o + 1 + len.toNat)) :
    bytes.drop o = short field ++ bytes.drop (o + 1 + len.toNat) := by
  rw [hbyte, short, lowByte, hlen, UInt8.ofNat_toNat, List.cons_append]
  exact congrArg _ hfield

/-- Two length bytes and a field, read. -/
theorem drop_eq_long (hhi : bytes.drop o = hi :: bytes.drop (o + 1))
    (hlo : bytes.drop (o + 1) = lo :: bytes.drop (o + 2)) (hlen : field.length = (u16OfBe hi lo).toNat)
    (hfield : bytes.drop (o + 2) = field ++ rest) : bytes.drop o = long field ++ rest := by
  rw [hhi, hlo, hfield, long, hlen, UInt16.ofNat_toNat, u16be_u16OfBe]
  rfl

/-- What comes behind an offset where a short field stands. -/
theorem drop_of_short (hfield : field.length ≤ 255) (h : bytes.drop o = short field ++ rest) :
    bytes.drop o = lowByte field.length :: bytes.drop (o + 1) ∧
      bytes.drop (o + 1) = field ++ bytes.drop (o + 1 + (lowByte field.length).toNat) ∧
      bytes.drop (o + 1 + (lowByte field.length).toNat) = rest := by
  have hnext : bytes.drop (o + 1) = field ++ rest := drop_succ h
  have hrest := drop_add hnext (toNat_lowByte hfield).symm
  refine ⟨?_, ?_, hrest⟩
  · rw [h, hnext, short, List.cons_append]
  · rw [hrest, hnext]

theorem length_short (bs : Bytes) : (short bs).length = bs.length + 1 := rfl

theorem length_long (bs : Bytes) : (long bs).length = bs.length + 2 := by
  rw [long, List.length_append, length_u16be, Nat.add_comm]

/-- The offset behind a short field. -/
theorem drop_behind_short (h : bytes.drop o = short field ++ rest) :
    bytes.drop (o + 1 + field.length) = rest := drop_add (drop_succ h) rfl

theorem toNat_sigLen (h : field.length ≤ 200) : (UInt16.ofNat field.length).toNat = field.length := by
  rw [UInt16.toNat_ofNat']
  exact Nat.mod_eq_of_lt (by omega)

/-- What comes behind an offset where a long field stands. -/
theorem drop_of_long (h : bytes.drop o = long field ++ rest) :
    bytes.drop o = (UInt16.ofNat field.length >>> 8).toUInt8 :: bytes.drop (o + 1) ∧
      bytes.drop (o + 1) = (UInt16.ofNat field.length).toUInt8 :: bytes.drop (o + 2) ∧
      bytes.drop (o + 2) = field ++ rest := by
  have hnext : bytes.drop (o + 1) = (UInt16.ofNat field.length).toUInt8 :: (field ++ rest) := drop_succ h
  have hlast : bytes.drop (o + 2) = field ++ rest := drop_succ hnext
  refine ⟨?_, ?_, hlast⟩
  · rw [h, hnext]
    rfl
  · rw [hnext, hlast]

end Fields

theorem pushAll_toBytes {cap : ℕ} (v : Vec cap) : pushAll v.toBytes = .ok v := by
  rw [pushAll, Vec.ofBytes?_of_le v.length_le]
  exact congrArg Except.ok (Subtype.ext (Vec.toBytes_truncated v.length_le))

theorem publicKeyLen_pos (c : SessionCurve) : 65 ≤ c.publicKeyLen ∧ c.publicKeyLen ≤ 97 := by
  cases c <;> decide

/-! ## What the parts accept -/

section Parts

open Outcome

variable {cap o o' room : ℕ} {accepts : ℕ → Prop} [DecidablePred accepts] {bytes : Bytes}
  {expected version : UInt8} {curve : SessionCurve}

/-- A short field is accepted with the bytes it stands in and the room it leaves. -/
theorem parseShort_eq_ok {v : Vec cap} (hcap : cap ≤ 255) :
    parseShort accepts room bytes o = .ok (v, o') ↔ accepts v.length ∧ o' = o + 1 + v.length ∧
      o' + room ≤ bytes.length ∧ bytes.drop o = short v.toBytes ++ bytes.drop o' := by
  rw [parseShort]
  dsimp only
  constructor
  · intro h
    obtain ⟨len, hbyte, h⟩ := index_bind_eq_ok.mp h
    obtain ⟨haccepts, h⟩ := checked_bind_eq_ok.mp h
    obtain ⟨hroom, h⟩ := checked_bind_eq_ok.mp h
    obtain ⟨field, hlen, hfield, h⟩ := (slice_bind_eq_ok (by omega)).mp h
    obtain ⟨w, hw, h⟩ := lift_bind_eq_ok.mp h
    obtain ⟨rfl, rfl⟩ := Prod.mk.inj (pure_eq_ok.mp h)
    obtain rfl := pushAll_eq_ok hw
    rw [← hlen] at haccepts
    exact ⟨haccepts, by rw [Vec.length, hlen], by omega, drop_eq_short hbyte hlen hfield⟩
  · rintro ⟨haccepts, rfl, hroom, hdrop⟩
    have hle : v.toBytes.length ≤ 255 := Nat.le_trans v.length_le hcap
    obtain ⟨hbyte, hfield, -⟩ := drop_of_short hle hdrop
    rw [Vec.length] at haccepts hroom
    rw [toNat_lowByte hle] at hfield
    refine index_bind_eq_ok.mpr ⟨_, hbyte, ?_⟩
    rw [toNat_lowByte hle]
    refine checked_bind_eq_ok.mpr ⟨haccepts, checked_bind_eq_ok.mpr ⟨by omega, ?_⟩⟩
    refine (slice_bind_eq_ok (by omega)).mpr ⟨_, rfl, hfield, ?_⟩
    exact lift_bind_eq_ok.mpr ⟨v, pushAll_toBytes v, rfl⟩

theorem returns_parseShort (ho : o < bytes.length) :
    Returns (parseShort accepts room bytes o : Outcome _ (Vec cap × ℕ)) := by
  rw [parseShort]
  refine returns_index_bind ho fun len ↦ returns_checked_bind fun _ ↦ returns_checked_bind fun hroom ↦ ?_
  exact returns_slice_bind (by omega) fun field ↦ returns_lift_bind fun v _ ↦ returns_pure _

/-- A signature is accepted with the bytes it stands in. -/
theorem parseSignature_eq_ok {sig : Vec 200} : parseSignature bytes o = .ok sig ↔
    long sig.toBytes <+: bytes.drop o := by
  rw [parseSignature]
  dsimp only
  constructor
  · intro h
    obtain ⟨hi, hhi, h⟩ := index_bind_eq_ok.mp h
    obtain ⟨lo, hlo, h⟩ := index_bind_eq_ok.mp h
    obtain ⟨hroom, h⟩ := checked_bind_eq_ok.mp h
    obtain ⟨field, hlen, hfield, h⟩ := (slice_bind_eq_ok (by omega)).mp h
    obtain rfl := pushAll_eq_ok (lift_eq_ok.mp h)
    exact ⟨_, (drop_eq_long hhi hlo hlen hfield).symm⟩
  · rintro ⟨rest, hrest⟩
    obtain ⟨hhi, hlo, hfield⟩ := drop_of_long hrest.symm
    have hlen := congrArg List.length hfield
    rw [List.length_drop, List.length_append] at hlen
    have hle : o + 2 ≤ bytes.length := by
      have h := congrArg List.length hrest
      rw [List.length_append, long, List.length_append, length_u16be, List.length_drop] at h
      omega
    refine index_bind_eq_ok.mpr ⟨_, hhi, index_bind_eq_ok.mpr ⟨_, hlo, ?_⟩⟩
    rw [u16OfBe_u16be, toNat_sigLen sig.length_le]
    refine checked_bind_eq_ok.mpr ⟨by omega, (slice_bind_eq_ok (by omega)).mpr ⟨_, rfl, ?_, ?_⟩⟩
    · rw [hfield, drop_add hfield rfl]
    · exact lift_eq_ok.mpr (pushAll_toBytes sig)

theorem returns_parseSignature (ho : o + 2 ≤ bytes.length) : Returns (parseSignature bytes o) := by
  rw [parseSignature]
  refine returns_index_bind (by omega) fun hi ↦ returns_index_bind (by omega) fun lo ↦ ?_
  refine returns_checked_bind fun hroom ↦ returns_slice_bind (by omega) fun sig ↦ ?_
  exact returns_lift _

/-- The first two bytes are accepted in a packet of six at least. -/
theorem parseHead_eq_ok : parseHead expected bytes = .ok (version, curve) ↔
    version = expected ∧ 6 ≤ bytes.length ∧ bytes = version :: curve.wireId :: bytes.drop 2 := by
  rw [parseHead]
  constructor
  · intro h
    obtain ⟨hsix, h⟩ := checked_bind_eq_ok.mp h
    obtain ⟨version', h0, h⟩ := index_bind_eq_ok.mp h
    obtain ⟨hversion, h⟩ := checked_bind_eq_ok.mp h
    obtain ⟨wire, h1, h⟩ := index_bind_eq_ok.mp h
    obtain ⟨curve', hcurve, h⟩ := lift_bind_eq_ok.mp h
    obtain ⟨rfl, rfl⟩ := Prod.mk.inj (pure_eq_ok.mp h)
    rw [h1, curveOfWire_eq_ok.mp hcurve] at h0
    exact ⟨hversion, by omega, h0⟩
  · rintro ⟨hversion, hsix, hbytes⟩
    have h0 : bytes.drop 0 = version :: curve.wireId :: bytes.drop 2 := hbytes
    have h1 : bytes.drop 1 = curve.wireId :: bytes.drop 2 := drop_succ h0
    refine checked_bind_eq_ok.mpr ⟨by omega, index_bind_eq_ok.mpr ⟨version, by rw [h0, h1], ?_⟩⟩
    refine checked_bind_eq_ok.mpr ⟨hversion, index_bind_eq_ok.mpr ⟨_, h1, ?_⟩⟩
    exact lift_bind_eq_ok.mpr ⟨curve, curveOfWire_eq_ok.mpr rfl, rfl⟩

theorem returns_parseHead : Returns (parseHead expected bytes) := by
  rw [parseHead]
  refine returns_checked_bind fun hsix ↦ returns_index_bind (by omega) fun version ↦ ?_
  refine returns_checked_bind fun _ ↦ returns_index_bind (by omega) fun wire ↦ ?_
  exact returns_lift_bind fun curve _ ↦ returns_pure _

end Parts

/-! ## Messages -/

namespace InitMessage

open Outcome

theorem writes_serialise (m : InitMessage) : Writes m.serialise m.encode := by
  have hepk := m.ephemeralPublicKey.length_le
  have hfp := m.longTermFingerprint.length_le
  have hsig := m.signature.length_le
  rw [Vec.length] at hepk hfp hsig
  have hmax : maxHandshakeBytes = 512 := rfl
  have hencode : m.encode = [m.version] ++ [m.curve.wireId] ++ short m.ephemeralPublicKey.toBytes ++
      short m.longTermFingerprint.toBytes ++ long m.signature.toBytes := by
    simp only [encode, List.cons_append, List.nil_append, List.append_assoc]
  rw [hencode, serialise]
  refine (writes_extend Vec.toBytes_empty (by simp [hmax])).bind fun out₁ h₁ ↦ ?_
  refine (writes_extend h₁ (by simp [hmax])).bind fun out₂ h₂ ↦ ?_
  refine (writes_writeShort h₂ (by omega) (by simp [hmax]; omega)).bind fun out₃ h₃ ↦ ?_
  refine (writes_writeShort h₃ (by omega) (by simp [hmax, short]; omega)).bind fun out₄ h₄ ↦ ?_
  exact writes_writeSignature h₄ (by omega) (by simp [hmax, short]; omega)

/-- Parsing accepts a message exactly on the packets that begin with its bytes. -/
theorem parse_readsPrefix : ReadsPrefix parse encode Valid := by
  intro bytes m
  constructor
  · intro h
    obtain ⟨⟨version, curve⟩, hhead, h⟩ := bind_eq_ok.mp h
    obtain ⟨⟨epk, o₁⟩, hepk, h⟩ := bind_eq_ok.mp h
    obtain ⟨⟨fp, o₂⟩, hfp, h⟩ := bind_eq_ok.mp h
    obtain ⟨sig, hsig, h⟩ := bind_eq_ok.mp h
    obtain rfl := pure_eq_ok.mp h
    obtain ⟨hversion, -, hbytes⟩ := parseHead_eq_ok.mp hhead
    obtain ⟨hkey, -, -, hepk⟩ := (parseShort_eq_ok (by decide)).mp hepk
    obtain ⟨-, -, -, hfp⟩ := (parseShort_eq_ok (by decide)).mp hfp
    obtain ⟨rest, hrest⟩ := parseSignature_eq_ok.mp hsig
    -- field by field, the packet is the encoding and what stands behind the signature
    refine ⟨⟨hversion, hkey⟩, rest, (hbytes.trans ?_).symm⟩
    dsimp only at hepk hfp hrest
    rw [hepk, hfp, ← hrest, encode]
    simp only [List.cons_append, List.append_assoc]
  · rintro ⟨⟨hversion, hkey⟩, rest, hbytes⟩
    have hkeylen := publicKeyLen_pos m.curve
    have hlen := congrArg List.length hbytes
    simp only [encode, List.length_append, List.length_cons, length_short, length_long] at hlen
    rw [Vec.length] at hkey
    -- what stands behind each field
    have h0 : bytes = m.version :: m.curve.wireId :: (short m.ephemeralPublicKey.toBytes ++
        (short m.longTermFingerprint.toBytes ++ (long m.signature.toBytes ++ rest))) := by
      simp only [← hbytes, encode, List.cons_append, List.append_assoc]
    have h2 := drop_succ (drop_succ (i := 0) h0)
    have h4 := drop_behind_short h2
    have h6 := drop_behind_short h4
    refine bind_eq_ok.mpr ⟨(m.version, m.curve), parseHead_eq_ok.mpr ⟨hversion, by omega, ?_⟩, ?_⟩
    · rw [h2]
      exact h0
    refine bind_eq_ok.mpr ⟨(m.ephemeralPublicKey, _), (parseShort_eq_ok (by decide)).mpr
      ⟨hkey, rfl, by rw [Vec.length]; omega, h2.trans (congrArg _ h4.symm)⟩, ?_⟩
    refine bind_eq_ok.mpr ⟨(m.longTermFingerprint, _), (parseShort_eq_ok (by decide)).mpr
      ⟨trivial, rfl, by rw [Vec.length, Vec.length]; omega, h4.trans (congrArg _ h6.symm)⟩, ?_⟩
    refine bind_eq_ok.mpr ⟨m.signature, parseSignature_eq_ok.mpr ⟨rest, h6.symm⟩, rfl⟩

theorem returns_parse (bytes : Bytes) : (parse bytes).Returns := by
  rw [parse]
  refine returns_bind returns_parseHead fun head hhead ↦ ?_
  have hsix := (parseHead_eq_ok.mp hhead).2.1
  refine returns_bind (returns_parseShort (by omega)) fun epk hepk ↦ ?_
  have hroom := ((parseShort_eq_ok (by decide)).mp hepk).2.2.1
  refine returns_bind (returns_parseShort (by omega)) fun fp hfp ↦ ?_
  have hroom := ((parseShort_eq_ok (by decide)).mp hfp).2.2.1
  exact returns_bind (returns_parseSignature (by omega)) fun sig _ ↦ returns_pure _

end InitMessage

namespace ResponseMessage

open Outcome

/-- A message whose second key is as long as that of a curve fits. -/
theorem writes_serialise {m : ResponseMessage} (hm : m.Valid) : Writes m.serialise m.encode := by
  have hfp := m.longTermFingerprint.length_le
  have hsig := m.signature.length_le
  obtain ⟨-, hepk, hiepk⟩ := hm
  have hcurve := publicKeyLen_pos m.curve
  rw [Vec.length] at hepk hiepk hfp hsig
  have hmax : maxHandshakeBytes = 512 := rfl
  have hencode : m.encode = [m.version] ++ [m.curve.wireId] ++ short m.ephemeralPublicKey.toBytes ++
      short m.longTermFingerprint.toBytes ++ short m.initiatorEphemeralPublicKey.toBytes ++
      long m.signature.toBytes := by
    simp only [encode, List.cons_append, List.nil_append, List.append_assoc]
  rw [hencode, serialise]
  refine (writes_extend Vec.toBytes_empty (by simp [hmax])).bind fun out₁ h₁ ↦ ?_
  refine (writes_extend h₁ (by simp [hmax])).bind fun out₂ h₂ ↦ ?_
  refine (writes_writeShort h₂ (by omega) (by simp [hmax]; omega)).bind fun out₃ h₃ ↦ ?_
  refine (writes_writeShort h₃ (by omega) (by simp [hmax, short]; omega)).bind fun out₄ h₄ ↦ ?_
  refine (writes_writeShort h₄ (by omega) (by simp [hmax, short]; omega)).bind fun out₅ h₅ ↦ ?_
  exact writes_writeSignature h₅ (by omega) (by simp [hmax, short]; omega)

/-- Parsing accepts a message exactly on the packets that begin with its bytes. -/
theorem parse_readsPrefix : ReadsPrefix parse encode Valid := by
  intro bytes m
  constructor
  · intro h
    obtain ⟨⟨version, curve⟩, hhead, h⟩ := bind_eq_ok.mp h
    obtain ⟨⟨epk, o₁⟩, hepk, h⟩ := bind_eq_ok.mp h
    obtain ⟨⟨fp, o₂⟩, hfp, h⟩ := bind_eq_ok.mp h
    obtain ⟨⟨iepk, o₃⟩, hiepk, h⟩ := bind_eq_ok.mp h
    obtain ⟨sig, hsig, h⟩ := bind_eq_ok.mp h
    obtain rfl := pure_eq_ok.mp h
    obtain ⟨hversion, -, hbytes⟩ := parseHead_eq_ok.mp hhead
    obtain ⟨hkey, -, -, hepk⟩ := (parseShort_eq_ok (by decide)).mp hepk
    obtain ⟨-, -, -, hfp⟩ := (parseShort_eq_ok (by decide)).mp hfp
    obtain ⟨hikey, -, -, hiepk⟩ := (parseShort_eq_ok (by decide)).mp hiepk
    obtain ⟨rest, hrest⟩ := parseSignature_eq_ok.mp hsig
    refine ⟨⟨hversion, hkey, hikey⟩, rest, (hbytes.trans ?_).symm⟩
    dsimp only at hepk hfp hiepk hrest
    rw [hepk, hfp, hiepk, ← hrest, encode]
    simp only [List.cons_append, List.append_assoc]
  · rintro ⟨⟨hversion, hkey, hikey⟩, rest, hbytes⟩
    have hkeylen := publicKeyLen_pos m.curve
    have hlen := congrArg List.length hbytes
    simp only [encode, List.length_append, List.length_cons, length_short, length_long] at hlen
    rw [Vec.length] at hkey hikey
    -- what stands behind each field
    have h0 : bytes = m.version :: m.curve.wireId :: (short m.ephemeralPublicKey.toBytes ++
        (short m.longTermFingerprint.toBytes ++ (short m.initiatorEphemeralPublicKey.toBytes ++
          (long m.signature.toBytes ++ rest)))) := by
      simp only [← hbytes, encode, List.cons_append, List.append_assoc]
    have h2 := drop_succ (drop_succ (i := 0) h0)
    have h4 := drop_behind_short h2
    have h6 := drop_behind_short h4
    have h8 := drop_behind_short h6
    refine bind_eq_ok.mpr ⟨(m.version, m.curve), parseHead_eq_ok.mpr ⟨hversion, by omega, ?_⟩, ?_⟩
    · rw [h2]
      exact h0
    refine bind_eq_ok.mpr ⟨(m.ephemeralPublicKey, _), (parseShort_eq_ok (by decide)).mpr
      ⟨hkey, rfl, by rw [Vec.length]; omega, h2.trans (congrArg _ h4.symm)⟩, ?_⟩
    refine bind_eq_ok.mpr ⟨(m.longTermFingerprint, _), (parseShort_eq_ok (by decide)).mpr
      ⟨trivial, rfl, by rw [Vec.length, Vec.length]; omega, h4.trans (congrArg _ h6.symm)⟩, ?_⟩
    refine bind_eq_ok.mpr ⟨(m.initiatorEphemeralPublicKey, _), (parseShort_eq_ok (by decide)).mpr
      ⟨hikey, rfl, by rw [Vec.length, Vec.length, Vec.length]; omega,
        h6.trans (congrArg _ h8.symm)⟩, ?_⟩
    exact bind_eq_ok.mpr ⟨m.signature, parseSignature_eq_ok.mpr ⟨rest, h8.symm⟩, rfl⟩

theorem returns_parse (bytes : Bytes) : (parse bytes).Returns := by
  rw [parse]
  refine returns_bind returns_parseHead fun head hhead ↦ ?_
  have hsix := (parseHead_eq_ok.mp hhead).2.1
  refine returns_bind (returns_parseShort (by omega)) fun epk hepk ↦ ?_
  have hroom := ((parseShort_eq_ok (by decide)).mp hepk).2.2.1
  refine returns_bind (returns_parseShort (by omega)) fun fp hfp ↦ ?_
  have hroom := ((parseShort_eq_ok (by decide)).mp hfp).2.2.1
  refine returns_bind (returns_parseShort (by omega)) fun iepk hiepk ↦ ?_
  have hroom := ((parseShort_eq_ok (by decide)).mp hiepk).2.2.1
  exact returns_bind (returns_parseSignature (by omega)) fun sig _ ↦ returns_pure _

end ResponseMessage

/-! ## The result -/

section Codec

open Outcome

variable {α : Type}

/-- What parsing can return is serialised and read back. -/
def RoundTrips (parse : Bytes → Outcome EphemeralSessionError α)
    (serialise : α → Except EphemeralSessionError (Vec maxHandshakeBytes)) : Prop :=
  ∀ m, (∃ bytes, parse bytes = .ok m) → ∃ v, serialise m = .ok v ∧ parse v.toBytes = .ok m

/-- Parsing returns, and a message only if the packet is its serialisation. -/
def Exact (parse : Bytes → Outcome EphemeralSessionError α)
    (serialise : α → Except EphemeralSessionError (Vec maxHandshakeBytes)) (bytes : Bytes) : Prop :=
  (parse bytes).Returns ∧ ∀ m, parse bytes = .ok m → ∃ v, serialise m = .ok v ∧ v.toBytes = bytes

variable {parse : Bytes → Outcome EphemeralSessionError α} {encode : α → Bytes} {Valid : α → Prop}
  {serialise : α → Except EphemeralSessionError (Vec maxHandshakeBytes)}

theorem roundTrips_of (hparse : ReadsPrefix parse encode Valid)
    (hwrites : ∀ m, Valid m → Writes (serialise m) (encode m)) : RoundTrips parse serialise := by
  rintro m ⟨bytes, hm⟩
  have hvalid := ((hparse bytes m).mp hm).1
  obtain ⟨v, hv, hbytes⟩ := hwrites m hvalid
  exact ⟨v, hv, by rw [hbytes]; exact hparse.parse_encode hvalid⟩

theorem exact_iff_of (hparse : ReadsPrefix parse encode Valid)
    (hwrites : ∀ m, Valid m → Writes (serialise m) (encode m)) {bytes : Bytes}
    (hreturns : (parse bytes).Returns) :
    Exact parse serialise bytes ↔ ¬ Followed encode Valid bytes := by
  rw [Exact, and_iff_right hreturns, ← hparse.exact_iff]
  refine forall_congr' fun m ↦ forall_congr' fun hm ↦ ?_
  obtain ⟨v, hv, hbytes⟩ := hwrites m ((hparse bytes m).mp hm).1
  rw [hv]
  constructor
  · rintro ⟨w, hw, rfl⟩
    rw [← hbytes, Except.ok.inj hw]
  · rintro rfl
    exact ⟨v, rfl, hbytes⟩

end Codec

/-- **The wire format.** Messages that parsing can return are serialised and read back. No packet
makes parsing panic, and what it accepts is the serialisation of what it returns exactly if the
packet is not a message with further bytes behind it. -/
theorem wire_format_iff (bytes : Bytes) :
    (RoundTrips InitMessage.parse InitMessage.serialise ∧
      (Exact InitMessage.parse InitMessage.serialise bytes ↔
        ¬ Outcome.Followed InitMessage.encode InitMessage.Valid bytes)) ∧
    (RoundTrips ResponseMessage.parse ResponseMessage.serialise ∧
      (Exact ResponseMessage.parse ResponseMessage.serialise bytes ↔
        ¬ Outcome.Followed ResponseMessage.encode ResponseMessage.Valid bytes)) :=
  ⟨⟨roundTrips_of InitMessage.parse_readsPrefix fun m _ ↦ m.writes_serialise,
      exact_iff_of InitMessage.parse_readsPrefix (fun m _ ↦ m.writes_serialise)
        (InitMessage.returns_parse bytes)⟩,
    roundTrips_of ResponseMessage.parse_readsPrefix fun _ ↦ ResponseMessage.writes_serialise,
    exact_iff_of ResponseMessage.parse_readsPrefix
      (fun _ ↦ ResponseMessage.writes_serialise) (ResponseMessage.returns_parse bytes)⟩

/-- A first message with a key of zeros, without fingerprint and signature. -/
def bareInit : InitMessage where
  version := initProtocolVersion
  curve := .brainpoolP256r1
  ephemeralPublicKey := .truncated (List.replicate 65 0)
  longTermFingerprint := .empty
  signature := .empty

/-- With one more byte behind it, the message is accepted all the same. -/
theorem wire_format_followed :
    InitMessage.parse (bareInit.encode ++ [0xFF]) = .ok bareInit ∧
      ¬ Exact InitMessage.parse InitMessage.serialise (bareInit.encode ++ [0xFF]) := by
  have hvalid : bareInit.Valid := ⟨rfl, by decide +kernel⟩
  refine ⟨(InitMessage.parse_readsPrefix _ _).mpr ⟨hvalid, List.prefix_append _ _⟩, fun h ↦ ?_⟩
  refine (exact_iff_of InitMessage.parse_readsPrefix (fun m _ ↦ m.writes_serialise)
    (InitMessage.returns_parse _)).mp h ⟨bareInit, [0xFF], hvalid, ?_, rfl⟩
  exact List.cons_ne_nil _ _

end Galdralag.Session
