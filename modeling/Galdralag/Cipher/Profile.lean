import Galdralag.Foundation.Decoder
import Galdralag.Session.Handshake

/-!
# Cipher profiles

A cipher profile names a stack of symmetric cipher layers, a curve for the handshake and a Shamir
configuration. Profiles come into being in two ways, through a builder and out of their serialised
bytes, and a profile carries what both must check: a name of letters, digits and hyphens, a
description that fits, one to four different layers and a threshold between one and the number of
shares.

The serialised form writes the two strings behind their lengths, then one byte for each remaining
item. The last byte, a flag, was added later: bytes without it are read with the flag set.
-/

set_option linter.all false

namespace Galdralag.Cipher

open Session (SessionCurve)
open Fallible (except_bind_of_ok)

/-- Failures of profile construction, parsing, the registry and cascades. -/
inductive CipherProfileError where
  | noLayers
  | tooManyLayers
  | duplicateCipher
  | authenticationFailed
  | cipherError (layer : UInt8)
  | invalidProfileName
  | profileMismatch
  | malformedEncoding
  | removedBrainpoolP512Curve
  | invalidShamirConfig
  | keyDerivation
  | curveMismatch
  | payloadTooLarge
  | profileLocked
  | profileNotFound
  | registryFull
  deriving DecidableEq, Repr

/-! ## Strings as bytes -/

/-- The UTF-8 bytes of a string. -/
def utf8 (s : String) : Bytes := s.toByteArray.data.toList

/-- The string that bytes encode, if they are UTF-8. -/
def fromUtf8 (bs : Bytes) : Option String := String.fromUTF8? ⟨bs.toArray⟩

theorem length_utf8 (s : String) : (utf8 s).length = s.utf8ByteSize := rfl

/-- The bytes of a text are those of its characters. -/
theorem utf8_eq_flatMap (s : String) : utf8 s = s.toList.flatMap String.utf8EncodeChar := by
  rw [utf8, ← String.utf8Encode_toList, List.utf8Encode, List.data_toByteArray, List.toList_toArray]

theorem fromUtf8_utf8 (s : String) : fromUtf8 (utf8 s) = some s := by
  have hvalid : (⟨(utf8 s).toArray⟩ : ByteArray).IsValidUTF8 := s.isValidUTF8
  rw [fromUtf8, String.fromUTF8?, dif_pos hvalid]
  rfl

theorem utf8_injective : Function.Injective utf8 := by
  intro s t h
  rw [← Option.some_inj, ← fromUtf8_utf8 s, h, fromUtf8_utf8]

theorem utf8_of_fromUtf8 {bs : Bytes} {s : String} (h : fromUtf8 bs = some s) : utf8 s = bs := by
  rw [fromUtf8, String.fromUTF8?] at h
  split_ifs at h
  rw [← Option.some.inj h]
  rfl

/-- The text that bytes encode. -/
def text (bs : Bytes) : Except CipherProfileError String :=
  (fromUtf8 bs).elim (.error .malformedEncoding) .ok

theorem text_utf8 (s : String) : text (utf8 s) = .ok s := by
  rw [text, fromUtf8_utf8]
  rfl

theorem utf8_of_text {bs : Bytes} {s : String} (h : text bs = .ok s) : utf8 s = bs := by
  rw [text] at h
  cases hs : fromUtf8 bs with
  | none =>
    rw [hs] at h
    cases h
  | some t =>
    rw [hs] at h
    obtain rfl : t = s := Except.ok.inj h
    exact utf8_of_fromUtf8 hs

/-- Copy a string into one of bounded capacity. -/
def pushStr (cap : ℕ) (s : String) (e : CipherProfileError) : Except CipherProfileError Unit :=
  ensure (s.utf8ByteSize ≤ cap) e

/-! ## Layers, curves and Shamir configurations -/

/-- One symmetric cipher layer in a cascade. -/
inductive CipherLayer where
  | aes256Gcm
  | chaCha20Poly1305
  | twofish256
  | serpent256
  | camellia256
  deriving DecidableEq, Repr

namespace CipherLayer

/-- Wire byte for serialised profiles. -/
def wireId : CipherLayer → UInt8
  | aes256Gcm => 0x01
  | chaCha20Poly1305 => 0x02
  | twofish256 => 0x03
  | serpent256 => 0x04
  | camellia256 => 0x05

/-- Parse from the wire byte. -/
def fromWire (byte : UInt8) : Option CipherLayer :=
  match byte with
  | 0x01 => some aes256Gcm
  | 0x02 => some chaCha20Poly1305
  | 0x03 => some twofish256
  | 0x04 => some serpent256
  | 0x05 => some camellia256
  | _ => none

theorem fromWire_eq_some {byte : UInt8} {layer : CipherLayer} :
    fromWire byte = some layer ↔ byte = layer.wireId := by
  constructor
  · intro h
    unfold fromWire at h
    split at h <;> cases h <;> rfl
  · rintro rfl
    cases layer <;> rfl

end CipherLayer

/-- A curve byte that cannot be used. -/
inductive SessionCurveWireError where
  | unknown
  /-- Retired curve byte. -/
  | removedBrainpoolP512
  deriving DecidableEq, Repr

/-- Parse a curve from its wire byte. -/
def tryFromWire (byte : UInt8) : Except SessionCurveWireError SessionCurve :=
  match byte with
  | 0x01 => .ok .brainpoolP256r1
  | 0x02 => .ok .brainpoolP384r1
  | 0x03 => .error .removedBrainpoolP512
  | _ => .error .unknown

theorem eq_wireId_of_tryFromWire {byte : UInt8} {c : SessionCurve} (h : tryFromWire byte = .ok c) :
    byte = c.wireId := by
  unfold tryFromWire at h
  split at h <;> cases h <;> rfl

/-- The curve of a profile, from its wire byte. -/
def curveFromWire (byte : UInt8) : Except CipherProfileError SessionCurve :=
  match tryFromWire byte with
  | .ok c => .ok c
  | .error .removedBrainpoolP512 => .error .removedBrainpoolP512Curve
  | .error .unknown => .error .malformedEncoding

theorem curveFromWire_eq_ok {byte : UInt8} {c : SessionCurve} :
    curveFromWire byte = .ok c ↔ byte = c.wireId := by
  constructor
  · intro h
    unfold curveFromWire at h
    split at h
    · cases h
      exact eq_wireId_of_tryFromWire (by assumption)
    · cases h
    · cases h
  · rintro rfl
    cases c <;> rfl

/-- Shamir K-of-N configuration of a profile. -/
structure ShamirConfig where
  threshold : UInt8
  total : UInt8
  deriving DecidableEq, Repr

namespace ShamirConfig

/-- Create and validate a configuration. -/
def new (threshold total : UInt8) : Except CipherProfileError ShamirConfig := do
  let _ ← ensure (threshold ≠ 0) .invalidShamirConfig
  let _ ← ensure (total ≠ 0) .invalidShamirConfig
  let _ ← ensure (threshold ≤ total) .invalidShamirConfig
  pure ⟨threshold, total⟩

/-- No splitting. -/
def none : ShamirConfig := ⟨1, 1⟩

/-- A configuration that validates is the one that was asked for. -/
theorem eq_of_new {threshold total : UInt8} {c : ShamirConfig} (h : new threshold total = .ok c) :
    c = ⟨threshold, total⟩ := by
  unfold new at h
  obtain ⟨_, -, h⟩ := except_bind_eq_ok.mp h
  obtain ⟨_, -, h⟩ := except_bind_eq_ok.mp h
  obtain ⟨_, -, h⟩ := except_bind_eq_ok.mp h
  exact (Except.ok.inj h).symm

theorem new_self {threshold total : UInt8} {c : ShamirConfig} (h : new threshold total = .ok c) :
    new c.threshold c.total = .ok c := by
  obtain rfl := eq_of_new h
  exact h

end ShamirConfig

/-! ## Profiles -/

/-- Longest profile name in bytes. -/
def maxName : ℕ := 64

/-- Longest description in bytes. -/
def maxDesc : ℕ := 128

def validateProfileName (name : String) : Except CipherProfileError Unit := do
  let _ ← ensure (name ≠ "") .invalidProfileName
  let _ ← ensure (name.utf8ByteSize ≤ maxName) .invalidProfileName
  ensure (name.toList.all (fun c ↦ c.isAlphanum || c == '-') = true) .invalidProfileName

def checkLayers (layers : List CipherLayer) : Except CipherProfileError Unit := do
  let _ ← ensure (layers ≠ []) .noLayers
  let _ ← ensure (layers.length ≤ 4) .tooManyLayers
  ensure layers.Nodup .duplicateCipher

/-- A validated cipher profile. -/
@[ext]
structure CipherProfile where
  name : String
  description : String
  curve : SessionCurve
  /-- Inner layer first. -/
  layers : List CipherLayer
  shamir : ShamirConfig
  ephemeralEcdh : Bool
  name_valid : validateProfileName name = .ok ()
  description_le : description.utf8ByteSize ≤ maxDesc
  layers_valid : checkLayers layers = .ok ()
  shamir_valid : ShamirConfig.new shamir.threshold shamir.total = .ok shamir
  deriving DecidableEq

/-! ## The codec -/

/-- What stands in the serialised bytes before the flag. -/
structure ProfileFields where
  name : Bytes
  description : Bytes
  curve : SessionCurve
  layers : List CipherLayer
  threshold : UInt8
  total : UInt8

/-- The bytes of the fields before the flag. -/
def ProfileFields.encode (p : ProfileFields) : Bytes :=
  [.ofNat p.name.length] ++ (p.name ++ ([.ofNat p.description.length] ++ (p.description ++
    ([p.curve.wireId] ++ ([.ofNat p.layers.length] ++ (p.layers.map CipherLayer.wireId ++
    ([p.threshold] ++ [p.total])))))))

/-- The bounds of the fields of a serialised profile. -/
structure ProfileFields.Fits (p : ProfileFields) : Prop where
  name : p.name.length ≤ maxName
  description : p.description.length ≤ maxDesc
  layers_ne : p.layers.length ≠ 0
  layers_le : p.layers.length ≤ 4

namespace CipherProfile

/-- The fields of a profile that are serialised before the flag. -/
def fields (p : CipherProfile) : ProfileFields where
  name := utf8 p.name
  description := utf8 p.description
  curve := p.curve
  layers := p.layers
  threshold := p.shamir.threshold
  total := p.shamir.total

/-- Serialise to compact bytes. -/
def toBytes (p : CipherProfile) : Vec 256 :=
  .truncated (p.fields.encode ++ [if p.ephemeralEcdh then 1 else 0])

/-- The next layer byte. -/
def decodeLayer : Decoder CipherProfileError CipherLayer := do
  let wid ← .byte .malformedEncoding
  .lift ((CipherLayer.fromWire wid).elim (.error .malformedEncoding) .ok)

/-- The bytes of a string behind their number, which is at most `max`. -/
def decodeText (max : ℕ) : Decoder CipherProfileError Bytes := do
  let len ← .byte .malformedEncoding
  let _ ← .lift (ensure (len.toNat ≤ max) .malformedEncoding)
  .take len.toNat .malformedEncoding

/-- The fields before the flag. -/
def decodeFields : Decoder CipherProfileError ProfileFields := do
  let name ← decodeText maxName
  let description ← decodeText maxDesc
  let cw ← .byte .malformedEncoding
  let curve ← .lift (curveFromWire cw)
  let lc ← .byte .malformedEncoding
  let _ ← .lift (ensure (lc ≠ 0 ∧ lc.toNat ≤ 4) .malformedEncoding)
  let layers ← decodeLayer.times lc.toNat
  let threshold ← .byte .malformedEncoding
  let total ← .byte .malformedEncoding
  pure { name, description, curve, layers, threshold, total }

/-- The flag, from the bytes behind the fields; set when there are none. -/
def decodeFlag : Bytes → Except CipherProfileError Bool
  | [] => .ok true
  | [0] => .ok false
  | [1] => .ok true
  | _ => .error .malformedEncoding

/-- Parse from serialised bytes. -/
def fromBytes (bytes : Bytes) : Except CipherProfileError CipherProfile := do
  let p ← decodeFields bytes
  let ephemeralEcdh ← decodeFlag p.2
  let shamir ← certify (ShamirConfig.new p.1.threshold p.1.total)
  let name ← text p.1.name
  let description ← text p.1.description
  let hname ← certify (validateProfileName name)
  let hdesc ← certify (pushStr maxDesc description .malformedEncoding)
  let hlayers ← certify (checkLayers p.1.layers)
  pure
    { name, description, curve := p.1.curve, layers := p.1.layers, shamir := shamir.1, ephemeralEcdh
      name_valid := hname.2
      description_le := ensure_eq_ok.mp hdesc.2
      layers_valid := hlayers.2
      shamir_valid := ShamirConfig.new_self shamir.2 }

/-! ### What is decoded -/

open Decoder (Describes describes_byte describes_lift describes_take describes_times describes_pure)

theorem describes_decodeLayer :
    Describes decodeLayer fun used layer ↦ used = [layer.wireId] := by
  refine ((describes_byte _).bind fun wid ↦ describes_lift _).congr fun used layer ↦ ?_
  constructor
  · rintro ⟨_, _, wid, rfl, rfl, rfl, hlayer⟩
    cases hwire : CipherLayer.fromWire wid with
    | none =>
      rw [hwire] at hlayer
      cases hlayer
    | some l =>
      rw [hwire] at hlayer
      obtain rfl : l = layer := Except.ok.inj hlayer
      rw [CipherLayer.fromWire_eq_some.mp hwire]
      rfl
  · rintro rfl
    refine ⟨_, [], layer.wireId, rfl, rfl, rfl, ?_⟩
    rw [CipherLayer.fromWire_eq_some.mpr rfl]
    rfl

/-- Text is written behind its length. -/
theorem describes_decodeText {max : ℕ} (hmax : max < 256) :
    Describes (decodeText max)
      fun used bs ↦ used = UInt8.ofNat bs.length :: bs ∧ bs.length ≤ max := by
  refine ((describes_byte _).bind fun len ↦ (describes_lift _).bind fun _ ↦
    describes_take _ _).congr fun used bs ↦ ?_
  constructor
  · rintro ⟨_, _, len, rfl, rfl, _, _, _, rfl, ⟨rfl, hle⟩, rfl, hlen⟩
    rw [hlen, UInt8.ofNat_toNat]
    exact ⟨rfl, ensure_eq_ok.mp hle⟩
  · rintro ⟨rfl, hle⟩
    have hlen : (UInt8.ofNat bs.length).toNat = bs.length := by
      rw [UInt8.toNat_ofNat']
      exact Nat.mod_eq_of_lt (Nat.lt_of_le_of_lt hle hmax)
    refine ⟨_, bs, UInt8.ofNat bs.length, rfl, rfl, [], bs, (), rfl, ⟨rfl, ?_⟩, rfl, hlen.symm⟩
    rw [hlen]
    exact ensure_eq_ok.mpr hle

theorem describes_decodeFields :
    Describes decodeFields fun used p ↦ used = p.encode ∧ p.Fits := by
  refine ((describes_decodeText (by decide)).bind fun name ↦
    (describes_decodeText (by decide)).bind fun description ↦ (describes_byte _).bind fun cw ↦
    (describes_lift _).bind fun curve ↦ (describes_byte _).bind fun lc ↦
    (describes_lift _).bind fun _ ↦ (describes_times describes_decodeLayer _).bind fun layers ↦
    (describes_byte _).bind fun threshold ↦ (describes_byte _).bind fun total ↦
    describes_pure _).congr fun used p ↦ ?_
  constructor
  · rintro ⟨_, _, name, rfl, ⟨rfl, hname⟩, _, _, desc, rfl, ⟨rfl, hdesc⟩, _, _, cw, rfl, rfl, _, _,
      curve, rfl, ⟨rfl, hcurve⟩, _, _, lc, rfl, rfl, _, _, _, rfl, ⟨rfl, hlc⟩, _, _, layers, rfl,
      ⟨rfl, hlen⟩, _, _, threshold, rfl, rfl, _, _, total, rfl, rfl, rfl, rfl⟩
    obtain ⟨hpos, hle⟩ := ensure_eq_ok.mp hlc
    refine ⟨?_, hname, hdesc, ?_, hlen ▸ hle⟩
    · rw [ProfileFields.encode, ← curveFromWire_eq_ok.mp hcurve, hlen, UInt8.ofNat_toNat]
      simp only [List.nil_append, List.append_nil, List.cons_append]
    · rw [hlen]
      exact fun h ↦ hpos (UInt8.toNat_inj.mp h)
  · rintro ⟨rfl, hfits⟩
    have hlen : (UInt8.ofNat p.layers.length).toNat = p.layers.length := by
      rw [UInt8.toNat_ofNat']
      exact Nat.mod_eq_of_lt (Nat.lt_of_le_of_lt hfits.layers_le (by decide))
    have hpos : UInt8.ofNat p.layers.length ≠ 0 :=
      fun h ↦ hfits.layers_ne (hlen.symm.trans (congrArg UInt8.toNat h))
    refine ⟨.ofNat p.name.length :: p.name, _, p.name, rfl, ⟨rfl, hfits.name⟩,
      .ofNat p.description.length :: p.description, _, p.description, rfl,
      ⟨rfl, hfits.description⟩, [p.curve.wireId], _, p.curve.wireId, rfl, rfl, [], _, p.curve, rfl,
      ⟨rfl, curveFromWire_eq_ok.mpr rfl⟩, [.ofNat p.layers.length], _, .ofNat p.layers.length, rfl,
      rfl, [], _, (), rfl, ⟨rfl, ensure_eq_ok.mpr ⟨hpos, ?_⟩⟩, p.layers.map CipherLayer.wireId, _,
      p.layers, rfl, ⟨rfl, hlen.symm⟩, [p.threshold], _, p.threshold, rfl, rfl, [p.total], [],
      p.total, (List.append_nil _).symm, rfl, rfl, rfl⟩
    rw [hlen]
    exact hfits.layers_le

/-- The fields of a profile are within their bounds. -/
theorem fits_fields (p : CipherProfile) : p.fields.Fits := by
  have hname := p.name_valid
  have hlayers := p.layers_valid
  simp only [validateProfileName, checkLayers, ensure_bind_eq_ok, ensure_eq_ok] at hname hlayers
  exact ⟨hname.2.1, p.description_le,
    fun h ↦ hlayers.1 (List.length_eq_zero_iff.mp h), hlayers.2.1⟩

/-- A serialised profile fits its buffer. -/
theorem toBytes_toBytes (p : CipherProfile) :
    p.toBytes.toBytes = p.fields.encode ++ [if p.ephemeralEcdh then 1 else 0] := by
  refine Vec.toBytes_truncated ?_
  obtain ⟨hname, hdesc, -, hlayers⟩ := p.fits_fields
  rw [maxName] at hname
  rw [maxDesc] at hdesc
  simp only [ProfileFields.encode, List.length_append, List.length_cons, List.length_nil,
    List.length_map]
  omega

/-- **What is parsed.** The parser accepts exactly the fields of a profile followed by its flag. -/
theorem fromBytes_eq_ok {bs : Bytes} {p : CipherProfile} : fromBytes bs = .ok p ↔
    ∃ tail, bs = p.fields.encode ++ tail ∧ decodeFlag tail = .ok p.ephemeralEcdh := by
  unfold fromBytes
  rw [except_bind_eq_ok]
  constructor
  · rintro ⟨⟨q, tail⟩, hq, h₁⟩
    obtain ⟨used, rfl, rfl, -⟩ := (describes_decodeFields bs q tail).mp hq
    obtain ⟨flag, hflag, h₂⟩ := except_bind_eq_ok.mp h₁
    obtain ⟨shamir, -, h₃⟩ := except_bind_eq_ok.mp h₂
    obtain ⟨name, hname, h₄⟩ := except_bind_eq_ok.mp h₃
    obtain ⟨desc, hdesc, h₅⟩ := except_bind_eq_ok.mp h₄
    obtain ⟨_, -, h₆⟩ := except_bind_eq_ok.mp h₅
    obtain ⟨_, -, h₇⟩ := except_bind_eq_ok.mp h₆
    obtain ⟨_, -, h₈⟩ := except_bind_eq_ok.mp h₇
    obtain rfl := Except.ok.inj h₈
    refine ⟨tail, ?_, hflag⟩
    have hfields : (⟨utf8 name, utf8 desc, q.curve, q.layers, shamir.1.threshold, shamir.1.total⟩ :
        ProfileFields) = q := by
      rw [utf8_of_text hname, utf8_of_text hdesc, ShamirConfig.eq_of_new shamir.2]
    exact congrArg (fun q' ↦ q'.encode ++ tail) hfields.symm
  · rintro ⟨tail, rfl, hflag⟩
    refine ⟨(p.fields, tail), (describes_decodeFields _ _ _).mpr ⟨_, rfl, rfl, p.fits_fields⟩, ?_⟩
    refine (except_bind_of_ok hflag).trans ?_
    refine (except_bind_of_ok (certify_of_ok p.shamir_valid)).trans ?_
    refine (except_bind_of_ok (text_utf8 p.name)).trans ?_
    refine (except_bind_of_ok (text_utf8 p.description)).trans ?_
    refine (except_bind_of_ok (certify_of_ok p.name_valid)).trans ?_
    refine (except_bind_of_ok (certify_of_ok (ensure_eq_ok.mpr p.description_le))).trans ?_
    exact except_bind_of_ok (certify_of_ok p.layers_valid)

end CipherProfile

/-! ## The builder -/

/-- Builder of a profile. -/
structure CipherProfileBuilder where
  name : String
  description : String
  curve : Option SessionCurve
  layers : List CipherLayer
  shamir : ShamirConfig
  ephemeralEcdh : Bool
  name_valid : validateProfileName name = .ok ()
  description_le : description.utf8ByteSize ≤ maxDesc

namespace CipherProfileBuilder

/-- Start a builder; validates `name`. -/
def new (name : String) : Except CipherProfileError CipherProfileBuilder := do
  let hname ← certify (validateProfileName name)
  let _ ← pushStr maxName name .invalidProfileName
  pure
    { name
      description := ""
      curve := none
      layers := []
      shamir := .none
      ephemeralEcdh := true
      name_valid := hname.2
      description_le := Nat.zero_le _ }

variable (b : CipherProfileBuilder)

/-- Set the description; one that is too long is dropped. -/
def setDescription (desc : String) : CipherProfileBuilder :=
  if h : desc.utf8ByteSize ≤ maxDesc then { b with description := desc, description_le := h }
  else { b with description := "", description_le := Nat.zero_le _ }

/-- Set the curve, which is required before `build`. -/
def setCurve (curve : SessionCurve) : CipherProfileBuilder := { b with curve := some curve }

/-- Append a cipher layer. -/
def layer (cipher : CipherLayer) : Except CipherProfileError CipherProfileBuilder := do
  let _ ← ensure (b.layers.length < 4) .tooManyLayers
  let _ ← ensure (cipher ∉ b.layers) .duplicateCipher
  pure { b with layers := b.layers ++ [cipher] }

def setShamir (config : ShamirConfig) : CipherProfileBuilder := { b with shamir := config }

def setEphemeralEcdh (on : Bool) : CipherProfileBuilder := { b with ephemeralEcdh := on }

/-- Validate and build. -/
def build : Except CipherProfileError CipherProfile := do
  let _ ← ensure (b.layers ≠ []) .noLayers
  let curve ← b.curve.elim (.error .curveMismatch) .ok
  let hlayers ← certify (checkLayers b.layers)
  let hshamir ← certify (ShamirConfig.new b.shamir.threshold b.shamir.total)
  pure
    { name := b.name
      description := b.description
      curve
      layers := b.layers
      shamir := b.shamir
      ephemeralEcdh := b.ephemeralEcdh
      name_valid := b.name_valid
      description_le := b.description_le
      layers_valid := hlayers.2
      shamir_valid := hshamir.2.trans (congrArg _ (ShamirConfig.eq_of_new hshamir.2)) }

/-- A call on the builder. -/
inductive Call where
  | description (desc : String)
  | curve (curve : SessionCurve)
  | layer (cipher : CipherLayer)
  | shamir (config : ShamirConfig)
  | ephemeralEcdh (on : Bool)

/-- Make a call. -/
def call (b : CipherProfileBuilder) : Call → Except CipherProfileError CipherProfileBuilder
  | .description desc => .ok (b.setDescription desc)
  | .curve c => .ok (b.setCurve c)
  | .layer cipher => b.layer cipher
  | .shamir config => .ok (b.setShamir config)
  | .ephemeralEcdh on => .ok (b.setEphemeralEcdh on)

end CipherProfileBuilder

/-- A profile that some sequence of calls on a builder makes. -/
def Built (p : CipherProfile) : Prop :=
  ∃ (name : String) (calls : List CipherProfileBuilder.Call) (b b' : CipherProfileBuilder),
    CipherProfileBuilder.new name = .ok b ∧ calls.foldlM CipherProfileBuilder.call b = .ok b' ∧
      b'.build = .ok p

namespace CipherProfileBuilder

/-- Different layers can be appended one after the other, up to four. -/
theorem call_layers {b : CipherProfileBuilder} {todo : List CipherLayer}
    (hnodup : (b.layers ++ todo).Nodup) (hlen : (b.layers ++ todo).length ≤ 4) :
    (todo.map Call.layer).foldlM call b = .ok { b with layers := b.layers ++ todo } := by
  induction todo generalizing b with
  | nil =>
    rw [List.append_nil]
    rfl
  | cons cipher todo ih =>
    have hfresh : cipher ∉ b.layers := fun hmem ↦
      (List.nodup_append.mp hnodup).2.2 cipher hmem cipher List.mem_cons_self rfl
    have hroom : b.layers.length < 4 := by
      rw [List.length_append, List.length_cons] at hlen
      omega
    have hcall : call b (.layer cipher) = .ok { b with layers := b.layers ++ [cipher] } := by
      rw [call, layer]
      exact ensure_bind_eq_ok.mpr ⟨hroom, ensure_bind_eq_ok.mpr ⟨hfresh, rfl⟩⟩
    rw [List.map_cons, List.foldlM_cons, hcall, ok_bind,
      ih (by rwa [List.append_assoc]) (by rwa [List.append_assoc])]
    simp only [List.append_assoc, List.singleton_append]

end CipherProfileBuilder

/-- Every profile can be built. -/
theorem built (p : CipherProfile) : Built p := by
  have hname := p.name_valid
  have hlayers := p.layers_valid
  simp only [validateProfileName, checkLayers, ensure_bind_eq_ok, ensure_eq_ok] at hname hlayers
  obtain ⟨hne, hlen, hnodup⟩ := hlayers
  let b : CipherProfileBuilder :=
    { name := p.name, description := "", curve := none, layers := [], shamir := .none
      ephemeralEcdh := true, name_valid := p.name_valid, description_le := Nat.zero_le _ }
  let b' : CipherProfileBuilder :=
    { b with description := p.description, curve := some p.curve, layers := p.layers
             shamir := p.shamir, ephemeralEcdh := p.ephemeralEcdh
             description_le := p.description_le }
  refine ⟨p.name, [.description p.description, .curve p.curve] ++ (p.layers.map .layer ++
    [.shamir p.shamir, .ephemeralEcdh p.ephemeralEcdh]), b, b', ?_, ?_, ?_⟩
  · rw [CipherProfileBuilder.new, certify_of_ok p.name_valid, ok_bind]
    exact ensure_bind_eq_ok.mpr ⟨hname.2.1, rfl⟩
  · have hdesc : b.setDescription p.description
        = { b with description := p.description, description_le := p.description_le } :=
      dif_pos p.description_le
    rw [List.foldlM_append, List.foldlM_cons, CipherProfileBuilder.call, ok_bind, hdesc,
      List.foldlM_cons, CipherProfileBuilder.call, ok_bind, List.foldlM_nil, pure_bind,
      List.foldlM_append, CipherProfileBuilder.call_layers (by exact hnodup) (by exact hlen)]
    rfl
  · rw [CipherProfileBuilder.build]
    refine ensure_bind_eq_ok.mpr ⟨hne, ?_⟩
    refine (except_bind_of_ok (certify_of_ok p.layers_valid)).trans ?_
    exact except_bind_of_ok (certify_of_ok p.shamir_valid)

/-! ## The codec and the builder agree -/

/-- The flag byte alone is read as itself. -/
theorem decodeFlag_singleton (on : Bool) :
    CipherProfile.decodeFlag [if on then 1 else 0] = .ok on := by
  cases on <;> rfl

/-- What stands behind the fields is the flag byte, or nothing when the flag is set. -/
theorem eq_of_decodeFlag {tail : Bytes} {on : Bool} (h : CipherProfile.decodeFlag tail = .ok on) :
    tail = [if on then 1 else 0] ∨ on = true ∧ tail = [] := by
  unfold CipherProfile.decodeFlag at h
  split at h <;> cases h
  · exact .inr ⟨rfl, rfl⟩
  · exact .inl rfl
  · exact .inl rfl

/-- The serialised bytes of a profile are parsed back to it. -/
theorem CipherProfile.fromBytes_toBytes (p : CipherProfile) :
    CipherProfile.fromBytes p.toBytes.toBytes = .ok p :=
  CipherProfile.fromBytes_eq_ok.mpr ⟨_, p.toBytes_toBytes, decodeFlag_singleton _⟩

/-- **Profile codec.** A profile made by the builder is parsed back from its bytes. Bytes that the
parser accepts yield a profile that the builder makes too, and are that profile's bytes, or those
bytes without the flag byte of a profile whose flag is set. -/
theorem profile_codec :
    (∀ p, Built p → CipherProfile.fromBytes p.toBytes.toBytes = .ok p) ∧
      ∀ bs p, CipherProfile.fromBytes bs = .ok p → Built p ∧
        (p.toBytes.toBytes = bs ∨ p.ephemeralEcdh = true ∧ p.toBytes.toBytes = bs ++ [1]) := by
  refine ⟨fun p _ ↦ p.fromBytes_toBytes, fun bs p h ↦ ⟨built p, ?_⟩⟩
  obtain ⟨tail, rfl, hflag⟩ := CipherProfile.fromBytes_eq_ok.mp h
  rw [p.toBytes_toBytes]
  rcases eq_of_decodeFlag hflag with rfl | ⟨hset, rfl⟩
  · exact .inl rfl
  · rw [hset, List.append_nil]
    exact .inr ⟨rfl, rfl⟩

/-- A profile with one layer. -/
def sampleProfile : CipherProfile where
  name := "ab-c"
  description := "d"
  curve := .brainpoolP256r1
  layers := [.chaCha20Poly1305]
  shamir := ⟨2, 3⟩
  ephemeralEcdh := true
  name_valid := by decide
  description_le := by decide
  layers_valid := by decide
  shamir_valid := by decide

theorem profile_codec_sample :
    CipherProfile.fromBytes sampleProfile.toBytes.toBytes = .ok sampleProfile ∧
      (sampleProfile.toBytes.toBytes = sampleProfile.fields.encode ∨
        sampleProfile.toBytes.toBytes = sampleProfile.fields.encode ++ [1]) := by
  refine ⟨profile_codec.1 sampleProfile (built sampleProfile), ?_⟩
  -- The legacy form: the fields without a flag byte.
  have hlegacy : CipherProfile.fromBytes sampleProfile.fields.encode = .ok sampleProfile :=
    CipherProfile.fromBytes_eq_ok.mpr ⟨[], (List.append_nil _).symm, rfl⟩
  rcases (profile_codec.2 _ _ hlegacy).2 with h | ⟨-, h⟩
  · exact .inl h
  · exact .inr h

end Galdralag.Cipher
