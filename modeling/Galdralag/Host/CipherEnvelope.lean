import Galdralag.Cipher.Cascade
import Galdralag.Cipher.ModeA
import Galdralag.Cipher.Registry
import Galdralag.Host.Error

/-!
# Cipher envelopes

An inner blob begins with a magic word and a version. Behind them stand the time, the sender's
fingerprint, the key material and the output of a cascade, which names its profile. In Mode A the
blob is sealed once more, together with the suite identifier of the profile.

The receiver tells the two forms apart by the first eight bytes. An inner blob has the magic word
there, a message in Mode A has the first bytes of its nonce, and nothing keeps the sender from
choosing the magic word for them: with any other nonce the outer layer comes off as it was put on,
with such a nonce it stays.

When the outer layer has come off, its suite identifier is checked against the registry and dropped.
The profile is the one that the inner blob names.
-/

set_option linter.all false

namespace Galdralag.Host

open Cipher hiding CipherProfile ShamirConfig

/-! ## Errors -/

/-- What a user is told about a session on the retired curve. -/
def msgSessionCurveP512 : String :=
  "This session was negotiated with BrainpoolP512r1 ephemeral ECDH, which is no longer supported. " ++
  "The peer must use a supported curve."

/-- The error as it is printed for debugging. -/
def cipherProfileErrorText : CipherProfileError → String
  | .noLayers => "NoLayers"
  | .tooManyLayers => "TooManyLayers"
  | .duplicateCipher => "DuplicateCipher"
  | .authenticationFailed => "AuthenticationFailed"
  | .cipherError layer => "CipherError \x7b layer: ".append ((toString layer).append " \x7d")
  | .invalidProfileName => "InvalidProfileName"
  | .profileMismatch => "ProfileMismatch"
  | .malformedEncoding => "MalformedEncoding"
  | .removedBrainpoolP512Curve => "RemovedBrainpoolP512Curve"
  | .invalidShamirConfig => "InvalidShamirConfig"
  | .keyDerivation => "KeyDerivation"
  | .curveMismatch => "CurveMismatch"
  | .payloadTooLarge => "PayloadTooLarge"
  | .profileLocked => "ProfileLocked"
  | .profileNotFound => "ProfileNotFound"
  | .registryFull => "RegistryFull"

def mapCipherProfileErr (e : CipherProfileError) : GaldraError :=
  if e = .removedBrainpoolP512Curve then .removedLegacyCrypto msgSessionCurveP512
  else .cipherProfile (cipherProfileErrorText e)

def mapCessWireErr (e : CessWireError) : GaldraError :=
  if e = .removedHighAssuranceSuite then .removedLegacyCrypto msgCiphertextHighAssurance
  else .cipherProfile ("cess outer plaintext: " ++ e.text)

/-! ## The inner blob -/

/-- The magic word, `GALDRACP`. -/
def magic : Bytes := [0x47, 0x41, 0x4c, 0x44, 0x52, 0x41, 0x43, 0x50]

def version : UInt8 := 1

/-- The name of the retired profile. -/
def profileNameHighAssurance : String := "high-assurance"

/-- Associated data of a cascade. -/
def buildCipherAad (profileName senderFingerprintHex : String) (tsUnix : UInt64) : Bytes :=
  utf8 profileName ++ utf8 "|" ++ utf8 senderFingerprintHex ++ utf8 "|" ++ u64be tsUnix

def serializeCascadeCt (ct : CascadeCiphertext) : Except GaldraError Bytes := do
  let name := utf8 ct.profileName
  let _ ← ensure (name.length ≤ 64) (GaldraError.cipherProfile "profile name too long")
  let body := ct.ciphertext.toBytes
  let _ ← ensure (body.length ≤ 65536) (GaldraError.cipherProfile "ciphertext too large")
  pure (UInt8.ofNat name.length :: name ++ u32be (.ofNat body.length) ++ body)

def deserializeCascadeCt : Bytes → Except GaldraError CascadeCiphertext
  | [] => .error (.cipherProfile "truncated cascade blob")
  | nl :: data => do
    let _ ← ensure (nl.toNat + 4 ≤ data.length) (GaldraError.cipherProfile "truncated cascade blob")
    let name ← okOr (fromUtf8 (data.take nl.toNat))
      (GaldraError.cipherProfile "invalid profile name utf8")
    let data := data.drop nl.toNat
    let _ ← ensure (4 ≤ data.length) (GaldraError.cipherProfile "truncated cascade length")
    let cl := beNat (data.take 4)
    let data := data.drop 4
    let _ ← ensure (cl ≤ data.length) (GaldraError.cipherProfile "truncated cascade body")
    let _ ← ensure (name.utf8ByteSize ≤ 64) (GaldraError.cipherProfile "profile name buffer")
    let ciphertext ← pushAll maxCt (GaldraError.cipherProfile "ciphertext buffer") (data.take cl)
    pure ⟨name, ciphertext⟩

/-- What stands in an inner blob behind the magic word and the version. -/
structure InnerBlob where
  tsUnix : UInt64
  senderFp : String
  prk : Block 32
  cascade : CascadeCiphertext

/-- Read an inner blob from behind the version on. -/
def readInnerBlob : Decoder GaldraError InnerBlob := do
  let ts ← .take 8 (.cipherProfile "truncated timestamp")
  let fpl ← .byte (.cipherProfile "truncated fp len")
  let fp ← .take fpl.toNat (.cipherProfile "truncated fingerprint")
  let senderFp ← .lift (okOr (fromUtf8 fp) (.cipherProfile "sender fingerprint utf8"))
  let prk ← .take 32 (.cipherProfile "truncated prk")
  let cbl ← .take 4 (.cipherProfile "truncated cascade len")
  let raw ← .take (beNat cbl) (.cipherProfile "truncated cascade blob")
  let cascade ← .lift (deserializeCascadeCt raw)
  pure ⟨.ofNat (beNat ts), senderFp, .ofBytes 32 prk, cascade⟩

/-- Read an inner blob from behind the magic word on. -/
def readVersioned : Decoder GaldraError InnerBlob := do
  let ver ← .byte (.cipherProfile "truncated header")
  let _ ← .lift (ensure (ver = version) (.cipherProfile ("unsupported version " ++ toString ver)))
  readInnerBlob

/-- Whether the bytes begin with the magic word. -/
def isCipherProfileEnvelope (data : Bytes) : Bool :=
  magic.length ≤ data.length && data.take magic.length = magic

section Envelope

variable (P : Primitives)

/-- Seal a message at the time `tsUnix` under the drawn key material `prk`. -/
def sealPlaintextWithProfile (tsUnix : UInt64) (prk : Block 32) (profile : Cipher.CipherProfile)
    (userPlaintext : Bytes) (senderFingerprintHex : String) : Except GaldraError Bytes := do
  let fp := utf8 senderFingerprintHex
  let _ ← ensure (fp.length ≤ 255) (GaldraError.cipherProfile "sender fingerprint too long")
  let aad := buildCipherAad profile.name senderFingerprintHex tsUnix
  let cascade ← (cascadeEncrypt P profile prk.toBytes aad userPlaintext).mapError fun e ↦
    GaldraError.cipherProfile (cipherProfileErrorText e)
  let cascadeBytes ← serializeCascadeCt cascade
  pure (magic ++ version :: u64be tsUnix ++ UInt8.ofNat fp.length :: fp ++ prk.toBytes ++
    u32be (.ofNat cascadeBytes.length) ++ cascadeBytes)

/-- Decrypt the cascade of an inner blob under the profile that it names. -/
def openInnerBlob (getProfile : String → Option Cipher.CipherProfile) (blob : InnerBlob) :
    Except GaldraError (Bytes × String) := do
  let pname := blob.cascade.profileName
  let _ ← ensure (pname ≠ profileNameHighAssurance)
    (GaldraError.removedLegacyCrypto msgCiphertextHighAssurance)
  let profile ← okOr (getProfile pname) (.profileNotFound pname)
  let aad := buildCipherAad profile.name blob.senderFp blob.tsUnix
  let plain ← (cascadeDecrypt P profile blob.prk.toBytes aad blob.cascade).mapError
    mapCipherProfileErr
  pure (plain.toBytes, pname)

/-- The plaintext of an inner blob, and the name of the profile it was encrypted with. -/
def openPlaintextAfterOpenpgp (inner : Bytes) (getProfile : String → Option Cipher.CipherProfile) :
    Except GaldraError (Bytes × String) := do
  let _ ← ensure (isCipherProfileEnvelope inner = true)
    (GaldraError.cipherProfile "not a Galdra cipher-profile message (missing magic)")
  let blob ← readVersioned (inner.drop magic.length)
  openInnerBlob P getProfile blob.1

/-- Seal an inner blob once more, together with the suite of the profile of the given name. -/
def wrapInnerWithCessModeA (innerGaldra : Bytes) (profileName : String) (kOuter : Block 32)
    (nonce : Block 12) : Except GaldraError Bytes := do
  let suiteId ← okOr (suiteIdForProfileName profileName)
    (GaldraError.cipherProfile ("no CESS registry suite_id for profile '" ++ profileName ++
      "' (Mode A supports built-in profiles only)"))
  let outerPlain ← (assembleModeAOuterPlaintext suiteId innerGaldra).mapError fun e ↦
    GaldraError.cipherProfile ("cess outer plaintext: " ++ e.text)
  (sealModeAOuter P kOuter nonce outerPlain).mapError fun e ↦
    GaldraError.cipherProfile ("cess Mode A seal: " ++ e.text)

def openCessModeAOuterToInnerBlob (wire : Bytes) (kOuter : Block 32) : Except GaldraError Bytes := do
  let plain ← (openModeAOuter P kOuter wire).mapError fun e ↦
    GaldraError.cipherProfile ("cess Mode A open: " ++ e.text)
  let parsed ← (parseModeAOuterPlaintext plain).mapError mapCessWireErr
  pure parsed.2

/-- Open a payload that is not an inner blob. -/
def openOther (inner : Bytes) (getProfile : String → Option Cipher.CipherProfile) :
    Option (Block 32) → Except GaldraError (Bytes × String)
  | none => .ok (inner, "legacy-openpgp")
  | some k => do
    let blob ← openCessModeAOuterToInnerBlob P inner k
    let _ ← ensure (isCipherProfileEnvelope blob = true) (GaldraError.cipherProfile
      "CESS outer decrypted but inner is not a Galdra cipher-profile envelope")
    openPlaintextAfterOpenpgp P blob getProfile

/-- Recover plaintext and profile name from the payload that OpenPGP yields. -/
def openPlaintextFromOpenpgpLiteral (inner : Bytes) (cessKOuter : Option (Block 32))
    (getProfile : String → Option Cipher.CipherProfile) : Except GaldraError (Bytes × String) :=
  if isCipherProfileEnvelope inner = true then openPlaintextAfterOpenpgp P inner getProfile
  else openOther P inner getProfile cessKOuter

end Envelope

/-! ## Sealing and opening -/

theorem isCipherProfileEnvelope_iff {data : Bytes} :
    isCipherProfileEnvelope data = true ↔ magic <+: data := by
  rw [isCipherProfileEnvelope, Bool.and_eq_true, decide_eq_true_iff, decide_eq_true_iff,
    List.prefix_iff_eq_take]
  constructor
  · rintro ⟨-, h⟩
    exact h.symm
  · intro h
    refine ⟨?_, h.symm⟩
    rw [h, List.length_take]
    exact Nat.min_le_right _ _

theorem deserialize_of_serialize {ct : CascadeCiphertext} {raw : Bytes}
    (h : serializeCascadeCt ct = .ok raw) : deserializeCascadeCt raw = .ok ct := by
  rw [serializeCascadeCt, ensure_bind_eq_ok, ensure_bind_eq_ok] at h
  obtain ⟨hname, hbody, h⟩ := h
  obtain rfl := Except.ok.inj h
  have hnl : (UInt8.ofNat (utf8 ct.profileName).length).toNat = (utf8 ct.profileName).length := by
    rw [UInt8.toNat_ofNat']
    exact Nat.mod_eq_of_lt (by omega)
  have hcl : beNat (u32be (.ofNat ct.ciphertext.toBytes.length)) = ct.ciphertext.toBytes.length := by
    rw [beNat_u32be, UInt32.toNat_ofNat']
    exact Nat.mod_eq_of_lt (by omega)
  have hname64 : ct.profileName.utf8ByteSize ≤ 64 := hname
  rw [List.cons_append, List.cons_append, List.append_assoc, deserializeCascadeCt, hnl,
    List.take_left, List.drop_left, fromUtf8_utf8]
  refine ensure_bind_eq_ok.mpr ⟨?_, except_bind_eq_ok.mpr ⟨ct.profileName, rfl, ?_⟩⟩
  · rw [List.length_append, List.length_append, length_u32be]
    omega
  · dsimp only
    rw [List.take_left' (length_u32be _), List.drop_left' (length_u32be _), hcl, List.take_length,
      pushAll_of_le ct.ciphertext.length_le]
    refine ensure_bind_eq_ok.mpr ⟨?_, ensure_bind_eq_ok.mpr ⟨Nat.le_refl _,
      ensure_bind_eq_ok.mpr ⟨hname64, rfl⟩⟩⟩
    rw [List.length_append, length_u32be]
    omega

theorem exists_serialize {ct : CascadeCiphertext} (hname : (utf8 ct.profileName).length ≤ 64) :
    ∃ raw, serializeCascadeCt ct = .ok raw ∧
      raw.length = 1 + (utf8 ct.profileName).length + 4 + ct.ciphertext.length := by
  refine ⟨_, ensure_bind_eq_ok.mpr ⟨hname, ensure_bind_eq_ok.mpr ⟨ct.ciphertext.length_le, rfl⟩⟩, ?_⟩
  simp only [List.length_append, List.length_cons, length_u32be, Vec.length]
  omega

/-- A serialised cascade is short enough for its length field. -/
theorem length_of_serialize {ct : CascadeCiphertext} {raw : Bytes}
    (h : serializeCascadeCt ct = .ok raw) : raw.length < 2 ^ 32 := by
  rw [serializeCascadeCt, ensure_bind_eq_ok, ensure_bind_eq_ok] at h
  obtain ⟨hname, hbody, h⟩ := h
  obtain rfl := Except.ok.inj h
  simp only [List.length_append, List.length_cons, length_u32be]
  omega

section Seal

variable {P : Primitives} {tsUnix : UInt64} {prk : Block 32} {profile : Cipher.CipherProfile}
  {plaintext : Bytes} {fp : String} {inner : Bytes}

/-- What a sealed blob consists of. -/
theorem sealPlaintext_eq_ok : sealPlaintextWithProfile P tsUnix prk profile plaintext fp = .ok inner ↔
    ∃ ct raw, (utf8 fp).length ≤ 255 ∧ cascadeEncrypt P profile prk.toBytes
      (buildCipherAad profile.name fp tsUnix) plaintext = .ok ct ∧ serializeCascadeCt ct = .ok raw ∧
      inner = magic ++ (version :: u64be tsUnix ++ UInt8.ofNat (utf8 fp).length :: utf8 fp ++
        prk.toBytes ++ u32be (.ofNat raw.length) ++ raw) := by
  rw [sealPlaintextWithProfile, ensure_bind_eq_ok]
  constructor
  · rintro ⟨hfp, h⟩
    obtain ⟨ct, hct, h⟩ := except_bind_eq_ok.mp h
    obtain ⟨raw, hraw, h⟩ := except_bind_eq_ok.mp h
    refine ⟨ct, raw, hfp, mapError_eq_ok_iff.mp hct, hraw, ?_⟩
    rw [← Except.ok.inj h]
    simp only [List.append_assoc]
  · rintro ⟨ct, raw, hfp, hct, hraw, rfl⟩
    refine ⟨hfp, except_bind_eq_ok.mpr ⟨ct, mapError_eq_ok_iff.mpr hct, ?_⟩⟩
    refine except_bind_eq_ok.mpr ⟨raw, hraw, ?_⟩
    simp only [List.append_assoc]
    rfl

/-- An inner blob is read back. -/
theorem readVersioned_append {ct : CascadeCiphertext} {raw : Bytes} (hfp : (utf8 fp).length ≤ 255)
    (hraw : serializeCascadeCt ct = .ok raw) :
    readVersioned (version :: u64be tsUnix ++ UInt8.ofNat (utf8 fp).length :: utf8 fp ++
      prk.toBytes ++ u32be (.ofNat raw.length) ++ raw) = .ok (⟨tsUnix, fp, prk, ct⟩, []) := by
  have hfpl : (UInt8.ofNat (utf8 fp).length).toNat = (utf8 fp).length := by
    rw [UInt8.toNat_ofNat']
    exact Nat.mod_eq_of_lt (by omega)
  have hcbl : beNat (u32be (.ofNat raw.length)) = raw.length := by
    rw [beNat_u32be, UInt32.toNat_ofNat']
    exact Nat.mod_eq_of_lt (length_of_serialize hraw)
  have hlast := Decoder.take_append (rfl : raw.length = raw.length)
    (GaldraError.cipherProfile "truncated cascade blob") []
  rw [List.append_nil] at hlast
  simp only [List.cons_append, List.append_assoc]
  have hversion : ensure (version = version)
      (GaldraError.cipherProfile ("unsupported version " ++ toString version)) = .ok () :=
    ensure_eq_ok.mpr rfl
  rw [readVersioned, Decoder.bind_of_ok rfl, Decoder.bind_of_ok (Decoder.lift_of_ok hversion _),
    readInnerBlob, Decoder.bind_of_ok (Decoder.take_append (length_u64be _) _ _),
    Decoder.bind_of_ok rfl, hfpl, Decoder.bind_of_ok (Decoder.take_append rfl _ _),
    Decoder.bind_of_ok (Decoder.lift_of_ok (okOr_eq_ok.mpr (fromUtf8_utf8 fp)) _),
    Decoder.bind_of_ok (Decoder.take_append prk.length_toBytes _ _),
    Decoder.bind_of_ok (Decoder.take_append (length_u32be _) _ _), hcbl,
    Decoder.bind_of_ok hlast,
    Decoder.bind_of_ok (Decoder.lift_of_ok (deserialize_of_serialize hraw) _), beNat_u64be,
    UInt64.ofNat_toNat, Block.ofBytes_toBytes]
  rfl

/-- **Round trip.** A sealed blob opens to the message that was sealed, under the profile that
sealed it. -/
theorem open_sealed (hP : AeadRecovers P) {getProfile : String → Option Cipher.CipherProfile}
    (hprofile : getProfile profile.name = some profile)
    (hname : profile.name ≠ profileNameHighAssurance)
    (h : sealPlaintextWithProfile P tsUnix prk profile plaintext fp = .ok inner) :
    openPlaintextAfterOpenpgp P inner getProfile = .ok (plaintext, profile.name) := by
  obtain ⟨ct, raw, hfp, hct, hraw, rfl⟩ := sealPlaintext_eq_ok.mp h
  obtain ⟨v, hv, rfl⟩ := cascadeDecrypt_of_encrypt hP hct
  have hctname := (cascadeEncrypt_eq_ok.mp hct).2.2.2
  rw [openPlaintextAfterOpenpgp, List.drop_left, readVersioned_append hfp hraw, ok_bind]
  refine ensure_bind_eq_ok.mpr ⟨isCipherProfileEnvelope_iff.mpr (List.prefix_append _ _), ?_⟩
  rw [openInnerBlob, hctname, hprofile]
  refine ensure_bind_eq_ok.mpr ⟨hname, except_bind_eq_ok.mpr ⟨profile, rfl, ?_⟩⟩
  exact except_bind_eq_ok.mpr ⟨v, mapError_eq_ok_iff.mpr hv, rfl⟩

end Seal

/-! ## What tells the two forms apart -/

section Wrap

variable {P : Primitives} {inner wire : Bytes} {name : String} {k : Block 32} {nonce : Block 12}
  {getProfile : String → Option Cipher.CipherProfile}

/-- A wrapped blob is the blob behind the suite identifier, sealed. -/
theorem wrap_eq_ok : wrapInnerWithCessModeA P inner name k nonce = .ok wire ↔
    ∃ suiteId, suiteIdForProfileName name = some suiteId ∧ Operational suiteId ∧
      sealModeAOuter P k nonce (u16be suiteId ++ inner) = .ok wire := by
  rw [wrapInnerWithCessModeA, except_bind_eq_ok]
  constructor
  · rintro ⟨suiteId, hid, h⟩
    obtain ⟨plain, hplain, hseal⟩ := except_bind_eq_ok.mp h
    obtain ⟨hop, rfl⟩ := assemble_eq_ok.mp (mapError_eq_ok_iff.mp hplain)
    exact ⟨suiteId, okOr_eq_ok.mp hid, hop, mapError_eq_ok_iff.mp hseal⟩
  · rintro ⟨suiteId, hid, hop, hseal⟩
    refine ⟨suiteId, okOr_eq_ok.mpr hid, except_bind_eq_ok.mpr ⟨_, ?_, mapError_eq_ok_iff.mpr hseal⟩⟩
    exact mapError_eq_ok_iff.mpr (assemble_eq_ok.mpr ⟨hop, rfl⟩)

/-- The outer layer comes off. -/
theorem openOuter_eq_ok : openCessModeAOuterToInnerBlob P wire k = .ok inner ↔
    ∃ suiteId, Operational suiteId ∧ openModeAOuter P k wire = .ok (u16be suiteId ++ inner) := by
  rw [openCessModeAOuterToInnerBlob, except_bind_eq_ok]
  constructor
  · rintro ⟨plain, hplain, h⟩
    obtain ⟨⟨suiteId, blob⟩, hparse, heq⟩ := except_bind_eq_ok.mp h
    obtain ⟨hop, rfl⟩ := parse_eq_ok.mp (mapError_eq_ok_iff.mp hparse)
    obtain rfl : blob = inner := Except.ok.inj heq
    exact ⟨suiteId, hop, mapError_eq_ok_iff.mp hplain⟩
  · rintro ⟨suiteId, hop, hopen⟩
    refine ⟨_, mapError_eq_ok_iff.mpr hopen, except_bind_eq_ok.mpr ⟨(suiteId, inner), ?_, rfl⟩⟩
    exact mapError_eq_ok_iff.mpr (parse_eq_ok.mpr ⟨hop, rfl⟩)

/-- The first bytes of a wrapped blob are those of the nonce. -/
theorem isEnvelope_of_wrap (h : wrapInnerWithCessModeA P inner name k nonce = .ok wire) :
    isCipherProfileEnvelope wire = true ↔ magic <+: nonce.toBytes := by
  obtain ⟨suiteId, -, -, hseal⟩ := wrap_eq_ok.mp h
  rw [isCipherProfileEnvelope_iff, List.prefix_iff_eq_take, List.prefix_iff_eq_take,
    ← take_of_seal hseal, List.take_take]
  exact Iff.rfl

/-- With another nonce the outer layer comes off as it was put on. -/
theorem open_wrapped (hP : ChachaRecovers P) (hinner : isCipherProfileEnvelope inner = true)
    (h : wrapInnerWithCessModeA P inner name k nonce = .ok wire) (hnonce : ¬ magic <+: nonce.toBytes) :
    openPlaintextFromOpenpgpLiteral P wire (some k) getProfile =
      openPlaintextAfterOpenpgp P inner getProfile := by
  obtain ⟨suiteId, -, hop, hseal⟩ := wrap_eq_ok.mp h
  have houter : openCessModeAOuterToInnerBlob P wire k = .ok inner :=
    openOuter_eq_ok.mpr ⟨suiteId, hop, open_of_seal hP hseal⟩
  have hcheck : ensure (isCipherProfileEnvelope inner = true) (GaldraError.cipherProfile
      "CESS outer decrypted but inner is not a Galdra cipher-profile envelope") = .ok () :=
    ensure_eq_ok.mpr hinner
  rw [openPlaintextFromOpenpgpLiteral, if_neg (mt (isEnvelope_of_wrap h).mp hnonce), openOther, houter,
    ok_bind, hcheck, ok_bind]

end Wrap

/-! ## A nonce that looks like an inner blob -/

/-- The error that the magic word alone leads to. -/
def truncatedHeader : GaldraError := .cipherProfile "truncated header"

/-- An error that comes from farther behind. -/
def Later (e : GaldraError) : Prop := e ≠ truncatedHeader

/-- Texts that begin differently are different. -/
theorem later_of_head {s : String} (h : s.toList.head? ≠ some 't') : Later (.cipherProfile s) := by
  intro heq
  rw [GaldraError.cipherProfile.inj heq] at h
  exact h rfl

theorem later_of_ne {s : String} (h : s ≠ "truncated header") : Later (.cipherProfile s) :=
  fun heq ↦ h (GaldraError.cipherProfile.inj heq)

theorem cipherProfileErrorText_head (e : CipherProfileError) :
    (cipherProfileErrorText e).toList.head? ≠ some 't' := by
  cases e with
  | cipherError layer =>
    have h : cipherProfileErrorText (.cipherError layer)
        = "CipherError \x7b layer: " ++ (toString layer ++ " \x7d") := rfl
    rw [h, String.toList_append]
    simp
  | _ => decide +kernel

theorem mapCipherProfileErr_later (e : CipherProfileError) : Later (mapCipherProfileErr e) := by
  rw [mapCipherProfileErr]
  split_ifs with he
  · rintro ⟨⟩
  · exact later_of_head (cipherProfileErrorText_head e)

section Header

variable (P : Primitives) {data : Bytes} {getProfile : String → Option Cipher.CipherProfile}

theorem deserializeCascadeCt_later (raw : Bytes) : ErrorsIn Later (deserializeCascadeCt raw) := by
  cases raw with
  | nil => exact .error (later_of_ne (by decide))
  | cons nl data =>
    rw [deserializeCascadeCt]
    refine .bind (.ensure (later_of_ne (by decide)) _) fun _ ↦ ?_
    refine .bind (errorsIn_okOr (later_of_ne (by decide)) _) fun name ↦ ?_
    refine .bind (.ensure (later_of_ne (by decide)) _) fun _ ↦ ?_
    refine .bind (.ensure (later_of_ne (by decide)) _) fun _ ↦ ?_
    refine .bind (.ensure (later_of_ne (by decide)) _) fun _ ↦ ?_
    exact .bind (errorsIn_pushAll (later_of_ne (by decide)) _ _) fun _ ↦ .ok _

theorem readInnerBlob_stops : readInnerBlob.Stops Later := by
  rw [readInnerBlob]
  refine (Decoder.stops_take _ (later_of_ne (by decide))).bind fun ts ↦ ?_
  refine (Decoder.stops_byte (later_of_ne (by decide))).bind fun fpl ↦ ?_
  refine (Decoder.stops_take _ (later_of_ne (by decide))).bind fun fp ↦ ?_
  refine (Decoder.stops_lift (errorsIn_okOr (later_of_ne (by decide)) _)).bind fun senderFp ↦ ?_
  refine (Decoder.stops_take _ (later_of_ne (by decide))).bind fun prk ↦ ?_
  refine (Decoder.stops_take _ (later_of_ne (by decide))).bind fun cbl ↦ ?_
  refine (Decoder.stops_take _ (later_of_ne (by decide))).bind fun raw ↦ ?_
  exact (Decoder.stops_lift (deserializeCascadeCt_later raw)).bind fun _ ↦ Decoder.stops_pure _

theorem openInnerBlob_later (blob : InnerBlob) :
    ErrorsIn Later (openInnerBlob P getProfile blob) := by
  rw [openInnerBlob]
  refine .bind (.ensure (by rintro ⟨⟩) _) fun _ ↦ .bind (errorsIn_okOr (by rintro ⟨⟩) _) fun _ ↦ ?_
  exact .bind (.mapError mapCipherProfileErr_later _) fun _ ↦ .ok _

theorem readVersioned_later (ver : UInt8) (rest : Bytes) :
    ErrorsIn Later (readVersioned (ver :: rest)) := by
  have hversion : (Decoder.lift (ensure (ver = version)
      (GaldraError.cipherProfile ("unsupported version " ++ toString ver)))).Stops Later :=
    Decoder.stops_lift (.ensure (later_of_head (by simp)) _)
  exact (hversion.bind fun _ ↦ readInnerBlob_stops) rest

/-- A byte behind the magic word is a header. -/
theorem openPlaintextAfterOpenpgp_later (hdata : magic.length < data.length) :
    ErrorsIn Later (openPlaintextAfterOpenpgp P data getProfile) := by
  have hread : ErrorsIn Later (readVersioned (data.drop magic.length)) := by
    rcases hrest : data.drop magic.length with _ | ⟨ver, rest⟩
    · rw [List.drop_eq_nil_iff] at hrest
      exact absurd hdata (Nat.not_lt.mpr hrest)
    · exact readVersioned_later ver rest
  rw [openPlaintextAfterOpenpgp]
  refine .bind (.ensure (later_of_ne (by decide)) _) fun _ ↦ ?_
  exact .bind hread fun blob ↦ openInnerBlob_later P blob.1

/-- The magic word alone is not an inner blob. -/
theorem openPlaintextAfterOpenpgp_magic :
    openPlaintextAfterOpenpgp P magic getProfile = .error truncatedHeader := rfl

end Header

/-! ## Wrapping and opening -/

section Claims

variable {P : Primitives} {k : Block 32}

/-- The suites of the built-in profiles can be used. -/
theorem builtin_suite {name : String} (hname : name ∈ builtinNames) :
    ∃ suiteId, suiteIdForProfileName name = some suiteId ∧ Operational suiteId := by
  simp only [builtinNames, List.mem_cons, List.not_mem_nil, or_false] at hname
  rcases hname with rfl | rfl | rfl
  · exact ⟨0x0001, rfl, by decide, rfl, rfl⟩
  · exact ⟨0x0003, rfl, by decide, rfl, rfl⟩
  · exact ⟨0x0003, rfl, by decide, rfl, rfl⟩

/-- A blob of up to 8190 bytes is wrapped under every built-in name. -/
theorem exists_wrap (hP : ChachaAccepts P) {name : String} (hname : name ∈ builtinNames)
    (nonce : Block 12) {inner : Bytes} (hlen : inner.length + 2 ≤ maxPlaintext) :
    ∃ wire, wrapInnerWithCessModeA P inner name k nonce = .ok wire := by
  obtain ⟨suiteId, hid, hop⟩ := builtin_suite hname
  have hplain : (u16be suiteId ++ inner).length ≤ maxPlaintext := by
    rw [List.length_append, Nat.add_comm]
    exact hlen
  have hseal : ∃ wire, sealModeAOuter P k nonce (u16be suiteId ++ inner) = .ok wire :=
    exists_seal hP hplain nonce
  obtain ⟨wire, hwire⟩ := hseal
  exact ⟨wire, wrap_eq_ok.mpr ⟨suiteId, hid, hop, hwire⟩⟩

/-- Under the name, the key and the nonce, every inner blob that is wrapped opens to what it would
open to by itself. -/
def WrapOpens (P : Primitives) (name : String) (k : Block 32) (nonce : Block 12) : Prop :=
  ∀ inner wire, isCipherProfileEnvelope inner = true →
    wrapInnerWithCessModeA P inner name k nonce = .ok wire → ∀ getProfile,
    openPlaintextFromOpenpgpLiteral P wire (some k) getProfile =
      openPlaintextAfterOpenpgp P inner getProfile

/-- With the magic word in the nonce, the magic word alone does not open as it would by itself. -/
theorem not_wrapOpens (hP : ChachaAccepts P) {name : String} (hname : name ∈ builtinNames)
    {nonce : Block 12} (hnonce : magic <+: nonce.toBytes) : ¬ WrapOpens P name k nonce := by
  intro h
  have hfits : magic.length + 2 ≤ maxPlaintext := by decide
  obtain ⟨wire, hwire⟩ := exists_wrap (k := k) hP hname nonce hfits
  obtain ⟨suiteId, -, -, hseal⟩ := wrap_eq_ok.mp hwire
  have henv := (isEnvelope_of_wrap hwire).mpr hnonce
  have hlen : magic.length < wire.length := Nat.lt_of_lt_of_le (by decide) (length_of_seal hseal)
  -- the magic word has no header behind it, the wire message has one
  have hopen := h magic wire rfl hwire fun _ ↦ none
  rw [openPlaintextFromOpenpgpLiteral, if_pos henv, openPlaintextAfterOpenpgp_magic] at hopen
  exact openPlaintextAfterOpenpgp_later P hlen _ hopen rfl

/-- **Wrap, then open.** Under a built-in name, a key and a nonce, what is wrapped opens to what it
would open to by itself exactly when the nonce does not begin with the magic word. -/
theorem wrap_open_iff (haccepts : ChachaAccepts P) (hrecovers : ChachaRecovers P) {name : String}
    (hname : name ∈ builtinNames) (k : Block 32) (nonce : Block 12) :
    WrapOpens P name k nonce ↔ ¬ magic <+: nonce.toBytes := by
  constructor
  · exact fun h hnonce ↦ not_wrapOpens haccepts hname hnonce h
  · intro hnonce inner wire hinner hwire getProfile
    exact open_wrapped hrecovers hinner hwire hnonce

end Claims

/-- Under the nonce of zeros, everything opens. -/
theorem wrap_open_zero : WrapOpens benchPrimitives "standard" (.zero 32) (.zero 12) :=
  (wrap_open_iff benchPrimitives_laws.chacha_accepts benchPrimitives_recovers.chacha (by decide) _
    _).mpr (by decide)

/-- The nonce `GALDRACP`, with four zeros behind it. -/
def magicNonce : Block 12 := ⟨magic ++ List.replicate 4 0, rfl⟩

/-- Under that nonce, not everything does, whatever ChaCha20-Poly1305 makes of it. -/
theorem magicNonce_not_opened : ¬ ∃ P, ChachaAccepts P ∧ ChachaRecovers P ∧
    WrapOpens P "standard" (.zero 32) magicNonce := by
  rintro ⟨P, haccepts, -, h⟩
  exact not_wrapOpens haccepts (by decide) (List.prefix_append _ _) h

/-! ## The suite identifier -/

/-- The cascade of the profile decrypts the inner blob. -/
def DecryptedBy (P : Primitives) (profile : Cipher.CipherProfile) (inner plain : Bytes) : Prop :=
  ∃ blob rest v, readVersioned (inner.drop magic.length) = .ok (blob, rest) ∧
    cascadeDecrypt P profile blob.prk.toBytes
      (buildCipherAad profile.name blob.senderFp blob.tsUnix) blob.cascade = .ok v ∧
    v.toBytes = plain

section Claims

variable {P : Primitives} {k : Block 32} {wire plain : Bytes} {pname : String}
  {getProfile : String → Option Cipher.CipherProfile}

/-- An inner blob that opens was decrypted by the cascade of the profile that it names. -/
theorem openPlaintextAfterOpenpgp_ok {inner : Bytes}
    (h : openPlaintextAfterOpenpgp P inner getProfile = .ok (plain, pname)) :
    ∃ profile, getProfile pname = some profile ∧ profile.name = pname ∧
      DecryptedBy P profile inner plain := by
  rw [openPlaintextAfterOpenpgp, ensure_bind_eq_ok] at h
  obtain ⟨⟨blob, rest⟩, hread, h⟩ := except_bind_eq_ok.mp h.2
  obtain ⟨-, h⟩ := ensure_bind_eq_ok.mp h
  obtain ⟨profile, hprofile, h⟩ := except_bind_eq_ok.mp h
  obtain ⟨v, hv, h⟩ := except_bind_eq_ok.mp h
  obtain ⟨rfl, rfl⟩ := Prod.mk.inj (Except.ok.inj h)
  have hdecrypt := mapError_eq_ok_iff.mp hv
  have hname := (cascadeDecrypt_eq_ok.mp hdecrypt).1
  exact ⟨profile, okOr_eq_ok.mp hprofile, hname.symm, blob, rest, v, hread, hdecrypt, rfl⟩

/-- A message of which the outer layer came off. -/
theorem openPlaintextFromOpenpgpLiteral_ok (hwire : isCipherProfileEnvelope wire = false)
    (h : openPlaintextFromOpenpgpLiteral P wire (some k) getProfile = .ok (plain, pname)) :
    ∃ suiteId inner, Operational suiteId ∧ openModeAOuter P k wire = .ok (u16be suiteId ++ inner) ∧
      openPlaintextAfterOpenpgp P inner getProfile = .ok (plain, pname) := by
  rw [openPlaintextFromOpenpgpLiteral, if_neg (by rw [hwire]; decide), openOther] at h
  obtain ⟨inner, houter, h⟩ := except_bind_eq_ok.mp h
  obtain ⟨-, h⟩ := ensure_bind_eq_ok.mp h
  obtain ⟨suiteId, hop, hopen⟩ := openOuter_eq_ok.mp houter
  exact ⟨suiteId, inner, hop, hopen, h⟩

/-- **What the suite identifier says.** Where the outer layer comes off and a plaintext is returned,
the suite identifier is one that can be used. It is the suite of the profile whose cascade decrypted
the inner blob exactly when the message is one that wrapping the blob under the name of that profile
makes. -/
theorem opened_suite (hrecovers : ChachaRecovers P) (hexact : ChachaExact P)
    (hwire : isCipherProfileEnvelope wire = false)
    (h : openPlaintextFromOpenpgpLiteral P wire (some k) getProfile = .ok (plain, pname)) :
    ∃ suiteId inner profile, openModeAOuter P k wire = .ok (u16be suiteId ++ inner) ∧
      Operational suiteId ∧ getProfile pname = some profile ∧ profile.name = pname ∧
      DecryptedBy P profile inner plain ∧
      (suiteIdForProfileName profile.name = some suiteId ↔
        ∃ nonce, wrapInnerWithCessModeA P inner profile.name k nonce = .ok wire) := by
  obtain ⟨suiteId, inner, hop, houter, hinner⟩ := openPlaintextFromOpenpgpLiteral_ok hwire h
  obtain ⟨profile, hprofile, hname, hdecrypt⟩ := openPlaintextAfterOpenpgp_ok hinner
  refine ⟨suiteId, inner, profile, houter, hop, hprofile, hname, hdecrypt, ?_⟩
  constructor
  · intro hsuite
    obtain ⟨nonce, hseal⟩ := (open_iff_seal hrecovers hexact).mp houter
    exact ⟨nonce, wrap_eq_ok.mpr ⟨suiteId, hsuite, hop, hseal⟩⟩
  · rintro ⟨nonce, hwrap⟩
    obtain ⟨suiteId', hsuite, -, hseal⟩ := wrap_eq_ok.mp hwrap
    have hsame := Except.ok.inj (houter.symm.trans (open_of_seal hrecovers hseal))
    rw [hsuite, u16be_injective (List.append_inj_left hsame (by rw [length_u16be, length_u16be]))]

/-- The suite identifier of every message that opens is that of the profile that decrypted it. -/
def SuiteHonest (P : Primitives) : Prop := ∀ wire k getProfile plain pname,
  isCipherProfileEnvelope wire = false →
  openPlaintextFromOpenpgpLiteral P wire (some k) getProfile = .ok (plain, pname) →
  ∀ suiteId inner, openModeAOuter P k wire = .ok (u16be suiteId ++ inner) →
  ∀ profile, getProfile pname = some profile → DecryptedBy P profile inner plain →
  suiteIdForProfileName profile.name = some suiteId

/-- An empty message sealed with the built-in profile of one layer. -/
theorem exists_sealed (hP : AeadLaws P) : ∃ inner, sealPlaintextWithProfile P 0 (.zero 32)
    builtinStandard [] "" = .ok inner ∧ inner.length + 2 ≤ maxPlaintext := by
  have haad : (buildCipherAad builtinStandard.name "" 0).length ≤ maxAad := by decide
  have hikm : suiteIdForProfileName builtinStandard.name ≠ none ∨
      (Block.zero 32).toBytes.length = 32 := .inr rfl
  have hshort : ([] : Bytes).length ≤ maxCascadePlaintext := Nat.zero_le _
  obtain ⟨ct, hct⟩ := (cascadeEncrypt_isOk_iff hP haad hikm hshort).mpr (by decide)
  have hlen := length_of_cascadeEncrypt hP haad hct
  have hadded : addedFrom builtinStandard 0 builtinStandard.layers = 16 := rfl
  have hctname : ct.profileName = "standard" := (cascadeEncrypt_eq_ok.mp hct).2.2.2
  have hname : (utf8 ct.profileName).length = 8 := by rw [hctname]; rfl
  have hfits : (utf8 ct.profileName).length ≤ 64 := by omega
  obtain ⟨raw, hraw, hrawlen⟩ := exists_serialize hfits
  refine ⟨_, sealPlaintext_eq_ok.mpr ⟨ct, raw, by decide, hct, hraw, rfl⟩, ?_⟩
  have hempty : (utf8 "").length = 0 := rfl
  have hmagic : magic.length = 8 := rfl
  have hmax : maxPlaintext = 8192 := rfl
  simp only [List.length_append, List.length_cons, length_u32be, length_u64be, Block.length_toBytes]
  rw [List.length_nil, hadded] at hlen
  omega

end Claims

/-- A lookup that knows one built-in profile. -/
def standardOnly (name : String) : Option Cipher.CipherProfile :=
  if name = "standard" then some builtinStandard else none

/-- Whatever the ciphers are, a blob of the profile of one layer wrapped under the name of the
profile of two opens, with the suite of the other. -/
theorem suite_not_honest : ¬ ∃ P, AeadLaws P ∧ AeadRecovers P ∧ SuiteHonest P := by
  rintro ⟨P, hP, hrecovers, hhonest⟩
  obtain ⟨inner, hinner, hlen⟩ := exists_sealed hP
  obtain ⟨wire, hwire⟩ := exists_wrap (k := .zero 32) hP.chacha_accepts
    (by decide : "conservative" ∈ builtinNames) (.zero 12) hlen
  have hnonce : ¬ magic <+: (Block.zero 12).toBytes := by decide
  have hname : builtinStandard.name ≠ profileNameHighAssurance := by decide
  have hprofile : standardOnly builtinStandard.name = some builtinStandard := rfl
  have hblob := open_sealed hrecovers hprofile hname hinner
  obtain ⟨suiteId, hsuite, -, hseal⟩ := wrap_eq_ok.mp hwire
  obtain rfl : 0x0003 = suiteId := Option.some.inj hsuite
  have hopen : openPlaintextFromOpenpgpLiteral P wire (some (.zero 32)) standardOnly
      = .ok ([], "standard") := by
    rw [open_wrapped hrecovers.chacha ?_ hwire hnonce]
    · exact hblob
    · obtain ⟨ct, raw, -, -, -, rfl⟩ := sealPlaintext_eq_ok.mp hinner
      exact isCipherProfileEnvelope_iff.mpr (List.prefix_append _ _)
  have henv : isCipherProfileEnvelope wire = false :=
    Bool.eq_false_iff.mpr (mt (isEnvelope_of_wrap hwire).mp hnonce)
  obtain ⟨profile, hget, -, hdecrypt⟩ := openPlaintextAfterOpenpgp_ok hblob
  obtain rfl : builtinStandard = profile := Option.some.inj hget
  have h := hhonest _ _ _ _ _ henv hopen _ _ (open_of_seal hrecovers.chacha hseal) _ rfl hdecrypt
  exact absurd (Option.some.inj h) (by decide)

/-- A blob of the profile of one layer, wrapped under its own name. -/
def benchWire : Bytes :=
  (sealPlaintextWithProfile benchPrimitives 0 (.zero 32) builtinStandard [1, 2, 3] "" >>= fun inner ↦
    wrapInnerWithCessModeA benchPrimitives inner "standard" (.zero 32) (.zero 12)).toOption.getD []

theorem opened_suite_bench : ∃ suiteId inner profile,
    openModeAOuter benchPrimitives (.zero 32) benchWire = .ok (u16be suiteId ++ inner) ∧
      Operational suiteId ∧ standardOnly "standard" = some profile ∧ profile.name = "standard" ∧
      DecryptedBy benchPrimitives profile inner [1, 2, 3] ∧
      (suiteIdForProfileName profile.name = some suiteId ↔
        ∃ nonce, wrapInnerWithCessModeA benchPrimitives inner profile.name (.zero 32) nonce
          = .ok benchWire) :=
  opened_suite benchPrimitives_recovers.chacha benchPrimitives_exact.chacha (by decide +kernel)
    (by decide +kernel)

end Galdralag.Host
