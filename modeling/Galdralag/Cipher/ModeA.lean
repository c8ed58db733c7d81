import Galdralag.Cipher.Layers

/-!
# Mode A

The outer layer of a message. Its plaintext is the identifier of a suite, in two bytes, and the
inner blob behind it. The plaintext is sealed with ChaCha20-Poly1305 under a key of its own, without
associated data, and what is sent is the nonce, the ciphertext and the tag.

A suite identifier is accepted when the registry of suites lists it and it is not retired. What it
stands for plays no part here: packing and parsing are inverse to each other for every accepted
identifier and every blob.
-/

set_option linter.all false

namespace Galdralag.Cipher

/-! ## Suite identifiers -/

/-- Errors of packing or parsing the outer plaintext. -/
inductive CessWireError where
  | reservedSuiteId
  | removedHighAssuranceSuite
  | unlistedSuiteId
  | tooShort
  deriving DecidableEq, Repr

/-- What a user is told about a ciphertext of the retired profile. -/
def msgCiphertextHighAssurance : String :=
  "This ciphertext was encrypted with the high-assurance profile, which has been removed and cannot " ++
  "be decrypted by this version. Decrypt with a prior version before upgrading, or the data is " ++
  "permanently inaccessible."

def CessWireError.text : CessWireError → String
  | reservedSuiteId => "suite_id 0x0000 is reserved"
  | removedHighAssuranceSuite => msgCiphertextHighAssurance
  | unlistedSuiteId => "suite_id is not listed in the CESS algorithm registry lookup table"
  | tooShort => "buffer shorter than 2 octets"

/-- The reserved identifier. -/
def suiteIdReserved : UInt16 := 0

/-- The identifier of the retired profile. -/
def cessSuiteIdHighAssurance : UInt16 := 0x0012

/-- A suite identifier that is not reserved. -/
structure SuiteId where
  raw : UInt16
  ne_reserved : raw ≠ suiteIdReserved

/-- Build from a raw value. -/
def SuiteId.new (raw : UInt16) : Except CessWireError SuiteId :=
  if h : raw = suiteIdReserved then .error .reservedSuiteId else .ok ⟨raw, h⟩

def isRetiredSuiteId (id : UInt16) : Bool := id = cessSuiteIdHighAssurance

/-- The identifiers with a row in the registry, as ranges of which both ends are listed. -/
def listedSuiteIdRanges : List (UInt16 × UInt16) :=
  [(0x0001, 0x0007), (0x0008, 0x000f), (0x0010, 0x0030), (0x0100, 0x0102), (0x0110, 0x0112),
    (0x0120, 0x0122), (0x0200, 0x0207)]

def isListedSuiteId (id : UInt16) : Bool :=
  if id = 0 then false else listedSuiteIdRanges.any fun r ↦ id ≥ r.1 && id ≤ r.2

/-- The checks that an identifier passes before it is packed and after it is parsed. -/
def checkSuiteId (id : UInt16) : Except CessWireError Unit := do
  let _ ← SuiteId.new id
  let _ ← ensure (isRetiredSuiteId id = false) CessWireError.removedHighAssuranceSuite
  ensure (isListedSuiteId id = true) CessWireError.unlistedSuiteId

/-- The identifier is listed, not reserved and not retired. -/
structure Operational (id : UInt16) : Prop where
  ne_reserved : id ≠ suiteIdReserved
  not_retired : isRetiredSuiteId id = false
  listed : isListedSuiteId id = true

theorem checkSuiteId_eq_ok {id : UInt16} : checkSuiteId id = .ok () ↔ Operational id := by
  have hnew : (∃ s, SuiteId.new id = .ok s) ↔ id ≠ suiteIdReserved := by
    rw [SuiteId.new]
    split_ifs with h
    · exact iff_of_false (by rintro ⟨s, ⟨⟩⟩) (not_not_intro h)
    · exact iff_of_true ⟨_, rfl⟩ h
  rw [checkSuiteId, except_bind_eq_ok]
  constructor
  · rintro ⟨s, hs, h⟩
    obtain ⟨hretired, hlisted⟩ := ensure_bind_eq_ok.mp h
    exact ⟨hnew.mp ⟨s, hs⟩, hretired, ensure_eq_ok.mp hlisted⟩
  · intro h
    obtain ⟨s, hs⟩ := hnew.mpr h.ne_reserved
    exact ⟨s, hs, ensure_bind_eq_ok.mpr ⟨h.not_retired, ensure_eq_ok.mpr h.listed⟩⟩

/-! ## The outer plaintext -/

/-- Assemble the outer plaintext. -/
def assembleModeAOuterPlaintext (suiteId : UInt16) (innerBlob : Bytes) :
    Except CessWireError Bytes := do
  let _ ← checkSuiteId suiteId
  pure (u16be suiteId ++ innerBlob)

/-- Parse the outer plaintext after decryption. -/
def parseModeAOuterPlaintext : Bytes → Except CessWireError (UInt16 × Bytes)
  | [] => .error .tooShort
  | [_] => .error .tooShort
  | hi :: lo :: inner => do
    let _ ← checkSuiteId (u16OfBe hi lo)
    pure (u16OfBe hi lo, inner)

theorem assemble_eq_ok {suiteId : UInt16} {inner plain : Bytes} :
    assembleModeAOuterPlaintext suiteId inner = .ok plain ↔
      Operational suiteId ∧ plain = u16be suiteId ++ inner := by
  rw [assembleModeAOuterPlaintext, check_bind_eq_ok, checkSuiteId_eq_ok]
  exact and_congr_right fun _ ↦ ⟨fun h ↦ (Except.ok.inj h).symm, fun h ↦ congrArg Except.ok h.symm⟩

theorem parse_eq_ok {suiteId : UInt16} {inner plain : Bytes} :
    parseModeAOuterPlaintext plain = .ok (suiteId, inner) ↔
      Operational suiteId ∧ plain = u16be suiteId ++ inner := by
  rcases plain with _ | ⟨hi, _ | ⟨lo, rest⟩⟩
  · exact iff_of_false (by rintro ⟨⟩) (by rintro ⟨-, ⟨⟩⟩)
  · exact iff_of_false (by rintro ⟨⟩) (by rintro ⟨-, ⟨⟩⟩)
  · rw [parseModeAOuterPlaintext, check_bind_eq_ok, checkSuiteId_eq_ok]
    constructor
    · rintro ⟨h, heq⟩
      obtain ⟨rfl, rfl⟩ := Prod.mk.inj (Except.ok.inj heq)
      rw [u16be_u16OfBe]
      exact ⟨h, rfl⟩
    · rintro ⟨h, heq⟩
      obtain ⟨rfl, htail⟩ := List.cons.inj heq
      obtain ⟨rfl, rfl⟩ := List.cons.inj htail
      rw [u16OfBe_u16be]
      exact ⟨h, rfl⟩

/-- Parsing and assembling are inverse to each other. -/
theorem parse_eq_ok_iff_assemble {suiteId : UInt16} {inner plain : Bytes} :
    parseModeAOuterPlaintext plain = .ok (suiteId, inner) ↔
      assembleModeAOuterPlaintext suiteId inner = .ok plain :=
  parse_eq_ok.trans assemble_eq_ok.symm

/-! ## The outer cipher -/

/-- Failures of the outer cipher. -/
inductive CessCryptoError where
  | aeadEncrypt
  | aeadDecrypt
  | wireTooShort
  deriving DecidableEq, Repr

def CessCryptoError.text : CessCryptoError → String
  | aeadEncrypt => "ChaCha20-Poly1305 encrypt failed"
  | aeadDecrypt => "ChaCha20-Poly1305 decrypt failed"
  | wireTooShort => "wire shorter than nonce + tag"

section Outer

variable (P : Primitives)

/-- Seal the outer plaintext: the nonce, the ciphertext and the tag. -/
def sealModeAOuter (kOuter : Block 32) (nonce : Block 12) (outerPlaintext : Bytes) :
    Except CessCryptoError Bytes := do
  let sealed ← okOr (P.chachaEncryptDetached kOuter nonce [] outerPlaintext) .aeadEncrypt
  pure (nonce.toBytes ++ (sealed.1 ++ sealed.2.toBytes))

/-- Open a wire message. -/
def openModeAOuter (kOuter : Block 32) (wire : Bytes) : Except CessCryptoError Bytes := do
  let _ ← ensure (12 + 16 ≤ wire.length) CessCryptoError.wireTooShort
  let ct := wire.drop 12
  let tag := Block.ofBytes 16 (ct.drop (ct.length - 16))
  okOr (P.chachaDecryptDetached kOuter (.ofBytes 12 (wire.take 12)) []
    (ct.take (ct.length - 16)) tag) .aeadDecrypt

end Outer

/-- **Round trip.** ChaCha20-Poly1305 decrypts what it encrypted. -/
def ChachaRecovers (P : Primitives) : Prop := ∀ {key nonce aad data body tag},
  P.chachaEncryptDetached key nonce aad data = some (body, tag) →
    P.chachaDecryptDetached key nonce aad body tag = some data

/-- **Exactness.** ChaCha20-Poly1305 accepts nothing else. -/
def ChachaExact (P : Primitives) : Prop := ∀ {key nonce aad data body tag},
  P.chachaDecryptDetached key nonce aad body tag = some data →
    P.chachaEncryptDetached key nonce aad data = some (body, tag)

/-- **Acceptance.** ChaCha20-Poly1305 encrypts messages within the documented bounds. -/
def ChachaAccepts (P : Primitives) : Prop := ∀ key nonce {aad data : Bytes}, aad.length ≤ maxAad →
  data.length ≤ maxPlaintext → ∃ sealed, P.chachaEncryptDetached key nonce aad data = some sealed

section Outer

variable {P : Primitives} {kOuter : Block 32} {plain wire : Bytes}

theorem seal_eq_ok {nonce : Block 12} : sealModeAOuter P kOuter nonce plain = .ok wire ↔
    ∃ body tag, P.chachaEncryptDetached kOuter nonce [] plain = some (body, tag) ∧
      wire = nonce.toBytes ++ (body ++ tag.toBytes) := by
  rw [sealModeAOuter, except_bind_eq_ok]
  constructor
  · rintro ⟨⟨body, tag⟩, h, hwire⟩
    exact ⟨body, tag, okOr_eq_ok.mp h, (Except.ok.inj hwire).symm⟩
  · rintro ⟨body, tag, h, rfl⟩
    exact ⟨(body, tag), okOr_eq_ok.mpr h, rfl⟩

theorem exists_seal (hP : ChachaAccepts P) (hlen : plain.length ≤ maxPlaintext) (nonce : Block 12) :
    ∃ wire, sealModeAOuter P kOuter nonce plain = .ok wire := by
  have haad : ([] : Bytes).length ≤ maxAad := Nat.zero_le _
  obtain ⟨⟨body, tag⟩, h⟩ := hP kOuter nonce haad hlen
  exact ⟨_, seal_eq_ok.mpr ⟨body, tag, h, rfl⟩⟩

/-- A wire message begins with its nonce. -/
theorem take_of_seal {nonce : Block 12} (h : sealModeAOuter P kOuter nonce plain = .ok wire) :
    wire.take 12 = nonce.toBytes := by
  obtain ⟨body, tag, -, rfl⟩ := seal_eq_ok.mp h
  exact List.take_left' nonce.length_toBytes

theorem length_of_seal {nonce : Block 12} (h : sealModeAOuter P kOuter nonce plain = .ok wire) :
    28 ≤ wire.length := by
  obtain ⟨body, tag, -, rfl⟩ := seal_eq_ok.mp h
  rw [List.length_append, List.length_append, nonce.length_toBytes, tag.length_toBytes]
  omega

/-- What is opened is a nonce, a body and a tag that decrypt. -/
theorem open_eq_ok : openModeAOuter P kOuter wire = .ok plain ↔
    ∃ nonce body tag, P.chachaDecryptDetached kOuter nonce [] body tag = some plain ∧
      wire = nonce.toBytes ++ (body ++ tag.toBytes) := by
  rw [openModeAOuter, ensure_bind_eq_ok, okOr_eq_ok]
  constructor
  · rintro ⟨hlen, h⟩
    refine ⟨_, _, _, h, ?_⟩
    have hct : (wire.drop 12).length = wire.length - 12 := List.length_drop
    rw [Block.toBytes_ofBytes (List.length_take_of_le (by omega)),
      Block.toBytes_ofBytes (by rw [List.length_drop]; omega), List.take_append_drop,
      List.take_append_drop]
  · rintro ⟨nonce, body, tag, h, rfl⟩
    have hlen : (body ++ tag.toBytes).length - 16 = body.length := by
      rw [List.length_append, tag.length_toBytes, Nat.add_sub_cancel]
    refine ⟨?_, ?_⟩
    · rw [List.length_append, List.length_append, nonce.length_toBytes, tag.length_toBytes]
      omega
    · rw [List.take_left' nonce.length_toBytes, List.drop_left' nonce.length_toBytes, hlen,
        List.take_left, List.drop_left, Block.ofBytes_toBytes, Block.ofBytes_toBytes]
      exact h

theorem open_of_seal (hP : ChachaRecovers P) {nonce : Block 12}
    (h : sealModeAOuter P kOuter nonce plain = .ok wire) :
    openModeAOuter P kOuter wire = .ok plain := by
  obtain ⟨body, tag, hseal, rfl⟩ := seal_eq_ok.mp h
  exact open_eq_ok.mpr ⟨nonce, body, tag, hP hseal, rfl⟩

/-- **What is opened was sealed.** A wire message opens to exactly the plaintext it was made of. -/
theorem open_iff_seal (hP : ChachaRecovers P) (hexact : ChachaExact P) :
    openModeAOuter P kOuter wire = .ok plain ↔
      ∃ nonce, sealModeAOuter P kOuter nonce plain = .ok wire := by
  constructor
  · intro h
    obtain ⟨nonce, body, tag, hopen, rfl⟩ := open_eq_ok.mp h
    exact ⟨nonce, seal_eq_ok.mpr ⟨body, tag, hexact hopen, rfl⟩⟩
  · rintro ⟨nonce, h⟩
    exact open_of_seal hP h

end Outer

end Galdralag.Cipher
