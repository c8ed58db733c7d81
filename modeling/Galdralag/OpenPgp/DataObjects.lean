import Galdralag.Foundation.Bytes

/-!
# Data objects

The values a card exchanges with its host: the application identifier, the algorithm attributes of
a key slot, tag-length-value encoding for responses, and the nested tag-length-value structure that
wraps the peer key of an ECDH decipherment.
-/

set_option linter.all false

namespace Galdralag.OpenPgp

/-! ## Curves and algorithm attributes -/

/-- Object identifiers of the supported curves, as they stand in algorithm attributes. -/
def brainpoolP256r1Oid : Bytes := [0x2B, 0x24, 0x03, 0x03, 0x02, 0x08, 0x01, 0x01, 0x07]

def brainpoolP384r1Oid : Bytes := [0x2B, 0x24, 0x03, 0x03, 0x02, 0x08, 0x01, 0x01, 0x0B]

def nistP256Oid : Bytes := [0x2A, 0x86, 0x48, 0xCE, 0x3D, 0x03, 0x01, 0x07]

def nistP384Oid : Bytes := [0x2B, 0x81, 0x04, 0x00, 0x22]

def ed25519Oid : Bytes := [0x2B, 0x06, 0x01, 0x04, 0x01, 0xDA, 0x47, 0x0F, 0x01]

def curve25519Oid : Bytes := [0x2B, 0x06, 0x01, 0x04, 0x01, 0x97, 0x55, 0x01, 0x05, 0x01]

/-- Parsed algorithm attributes of a key slot. -/
inductive AlgorithmAttributes where
  | rsa (modulusBits exponentBits : UInt16) (importFormat : UInt8)
  | ecdh (curveOid : Vec 16)
  | ecdsa (curveOid : Vec 16)
  | edDsa (curveOid : Vec 16)
  deriving DecidableEq

namespace AlgorithmAttributes

/-- Encode for storage in the data objects `C1`, `C2` and `C3`. -/
def toBytes : AlgorithmAttributes → Vec 32
  | rsa modulusBits exponentBits importFormat =>
    .truncated (0x01 :: u16be modulusBits ++ u16be exponentBits ++ [importFormat])
  | ecdh oid => .truncated (0x12 :: oid.toBytes)
  | ecdsa oid => .truncated (0x13 :: oid.toBytes)
  | edDsa oid => .truncated (0x16 :: oid.toBytes)

/-- Parse the contents of a data object. -/
def parse : Bytes → Option AlgorithmAttributes
  | [] => none
  | tag :: rest =>
    if tag = 0x01 then
      match rest with
      | m₁ :: m₀ :: e₁ :: e₀ :: f :: _ => some (rsa (u16OfBe m₁ m₀) (u16OfBe e₁ e₀) f)
      | _ => none
    else if tag = 0x12 then (Vec.ofBytes? rest).map ecdh
    else if tag = 0x13 then (Vec.ofBytes? rest).map ecdsa
    else if tag = 0x16 then (Vec.ofBytes? rest).map edDsa
    else none

end AlgorithmAttributes

/-! ## Application identifier -/

/-- OpenPGP application identifier prefix. -/
def openpgpAidPrefix : Bytes := [0xD2, 0x76, 0x00, 0x01, 0x24]

/-- Whether an identifier selects the OpenPGP application: prefix, then version 3.4. -/
def aidMatchesOpenpgp (aid : Bytes) : Bool :=
  if aid.length < 7 then false
  else openpgpAidPrefix.isPrefixOf aid && aid[5]? == some 0x03 && aid[6]? == some 0x04

/-- Default extended capabilities. -/
def extendedCapabilitiesDefault : Bytes :=
  [0xB0, 0x00, 0x00, 0x40, 0x00, 0x00, 0x00, 0x00, 0x00, 0x00]

/-- OpenPGP smart card profile answer to reset. -/
def atrOpenpgpProfile : Bytes :=
  [0x3B, 0xDA, 0x18, 0xFF, 0x81, 0xB1, 0xFE, 0x75, 0x1F, 0x03, 0x00, 0x31, 0xC5, 0x73, 0xC0,
    0x01, 0x40, 0x00, 0x90, 0x00, 0x0C]

/-! ## Tag-length-value encoding -/

/-- Append one object to a response under construction; `none` when it does not fit. -/
def encodeTlv (tag : UInt16) (value : Bytes) (out : Vec 512) : Option (Vec 512) :=
  let tagBytes := if tag ≤ 0xFF then [tag.toUInt8] else u16be tag
  let len := value.length
  let lenBytes :=
    if len ≤ 0x7F then [UInt8.ofNat len]
    else if len ≤ 0xFF then [0x81, UInt8.ofNat len]
    else [0x82, UInt8.ofNat (len / 256), UInt8.ofNat len]
  Vec.ofBytes? (out.toBytes ++ tagBytes ++ lenBytes ++ value)

/-- The length field in front of `buf`: one byte, or a count of up to four length bytes. -/
def parseBerLength : Bytes → Option (ℕ × Bytes)
  | [] => none
  | b :: rest =>
    if b &&& 0x80 = 0 then some (b.toNat, rest)
    else
      let n := (b &&& 0x7F).toNat
      if n = 0 ∨ n > 4 ∨ rest.length < n then none
      else some ((rest.take n).foldl (fun len c ↦ len * 256 + c.toNat) 0, rest.drop n)

/-- The tag in front of `buf`: one byte, or two when its low five bits are set. -/
def parseBerTag : Bytes → Option (UInt16 × Bytes)
  | [] => none
  | b :: rest =>
    if b &&& 0x1F ≠ 0x1F then some (b.toUInt16, rest)
    else
      match rest with
      | [] => none
      | c :: rest' => if c &&& 0x80 ≠ 0 then none else some (u16OfBe b c, rest')

/-- One object: its tag, its value, and what follows. -/
def readTlv (buf : Bytes) : Option (UInt16 × Bytes × Bytes) := do
  let (tag, rest) ← parseBerTag buf
  let (len, rest) ← parseBerLength rest
  if rest.length < len then none
  else some (tag, rest.take len, rest.drop len)

/-- The value of the first object, if it has the expected tag. -/
def taggedValue (expected : UInt16) (buf : Bytes) : Option Bytes := do
  let (tag, value, _) ← readTlv buf
  if tag ≠ expected then none else some value

/-- Peer public key of an ECDH decipherment: the object `86` inside `7F49` inside `A6`. -/
def parseEcdhPeerPublicKey (data : Bytes) : Option Bytes := do
  let inner ← taggedValue 0xA6 data
  let inner ← taggedValue 0x7F49 inner
  let peer ← taggedValue 0x86 inner
  if peer.isEmpty then none else some peer

theorem parseBerTag_suffix {buf rest : Bytes} {tag : UInt16}
    (h : parseBerTag buf = some (tag, rest)) : rest <:+ buf := by
  rcases buf with _ | ⟨b, _ | ⟨c, rest'⟩⟩ <;> simp only [parseBerTag] at h
  · cases h
  · split_ifs at h
    obtain ⟨-, rfl⟩ := Prod.mk.inj (Option.some.inj h)
    exact List.suffix_cons _ _
  · split_ifs at h
    · obtain ⟨-, rfl⟩ := Prod.mk.inj (Option.some.inj h)
      exact List.suffix_cons _ _
    · obtain ⟨-, rfl⟩ := Prod.mk.inj (Option.some.inj h)
      exact (List.suffix_cons _ _).trans (List.suffix_cons _ _)

theorem parseBerLength_suffix {buf rest : Bytes} {len : ℕ}
    (h : parseBerLength buf = some (len, rest)) : rest <:+ buf := by
  rcases buf with _ | ⟨b, rest'⟩
  · cases h
  · simp only [parseBerLength] at h
    split_ifs at h
    · obtain ⟨-, rfl⟩ := Prod.mk.inj (Option.some.inj h)
      exact List.suffix_cons _ _
    · obtain ⟨-, rfl⟩ := Prod.mk.inj (Option.some.inj h)
      exact (List.drop_suffix _ _).trans (List.suffix_cons _ _)

/-- The value of an object is part of what it was read from. -/
theorem readTlv_isInfix {buf value rest : Bytes} {tag : UInt16}
    (h : readTlv buf = some (tag, value, rest)) : value <:+: buf := by
  rw [readTlv, Option.bind_eq_bind, Option.bind_eq_some_iff] at h
  obtain ⟨⟨t, r₁⟩, h₁, h⟩ := h
  obtain ⟨⟨n, r₂⟩, h₂, h⟩ := Option.bind_eq_some_iff.mp h
  change (if r₂.length < n then none else some (t, r₂.take n, r₂.drop n)) = _ at h
  split_ifs at h with hn
  simp only [Option.some.injEq, Prod.mk.injEq] at h
  obtain ⟨-, rfl, -⟩ := h
  have hvalue : r₂.take n <:+: r₂ := List.IsPrefix.isInfix <| List.take_prefix n r₂
  exact hvalue.trans ((parseBerLength_suffix h₂).trans (parseBerTag_suffix h₁)).isInfix

theorem taggedValue_isInfix {expected : UInt16} {buf value : Bytes}
    (h : taggedValue expected buf = some value) : value <:+: buf := by
  rw [taggedValue, Option.bind_eq_bind, Option.bind_eq_some_iff] at h
  obtain ⟨⟨tag, v, rest⟩, hread, h⟩ := h
  change (if tag ≠ expected then none else some v) = some value at h
  split_ifs at h
  obtain rfl := Option.some.inj h
  exact readTlv_isInfix hread

/-- The peer key an ECDH decipherment uses is a non-empty part of the command data. -/
theorem parseEcdhPeerPublicKey_isInfix {data peer : Bytes}
    (h : parseEcdhPeerPublicKey data = some peer) : peer ≠ [] ∧ peer <:+: data := by
  rw [parseEcdhPeerPublicKey, Option.bind_eq_bind, Option.bind_eq_some_iff] at h
  obtain ⟨v₁, h₁, h⟩ := h
  obtain ⟨v₂, h₂, h⟩ := Option.bind_eq_some_iff.mp h
  obtain ⟨v₃, h₃, h⟩ := Option.bind_eq_some_iff.mp h
  split_ifs at h with hne
  obtain rfl := Option.some.inj h
  refine ⟨?_, (taggedValue_isInfix h₃).trans
    ((taggedValue_isInfix h₂).trans (taggedValue_isInfix h₁))⟩
  rintro rfl
  exact hne rfl

end Galdralag.OpenPgp
