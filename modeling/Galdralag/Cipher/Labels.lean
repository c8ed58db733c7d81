import Galdralag.Foundation.CounterMode
import Galdralag.Cipher.Profile

/-!
# Key derivation labels

Every layer of a cascade has its own key and nonce, derived under a label that names the layer.
Custom profiles spell out the profile, the cipher and the index of the layer; the built-in profiles
belong to a registered suite, whose labels carry the suite identifier instead. The derivation of the
latter is HKDF over BLAKE3, built here from the hash.
-/

set_option linter.all false

namespace Galdralag.Cipher

/-- The cryptographic primitives of the third-party packages. -/
structure Primitives where
  blake3 : Bytes → Block 32
  hmacSha256 : Block 32 → Bytes → Block 32
  /-- HKDF-SHA256 expand, at the lengths for which it never fails. -/
  hkdfExpand : Block 32 → Bytes → (n : ℕ) → Block n
  /-- AES-256-GCM with the tag behind the ciphertext: key, nonce, associated data and message. -/
  aesGcmEncrypt : Block 32 → Block 12 → Bytes → Bytes → Option Bytes
  aesGcmDecrypt : Block 32 → Block 12 → Bytes → Bytes → Option Bytes
  /-- ChaCha20-Poly1305 with a detached tag. -/
  chachaEncryptDetached : Block 32 → Block 12 → Bytes → Bytes → Option (Bytes × Block 16)
  chachaDecryptDetached : Block 32 → Block 12 → Bytes → Bytes → Block 16 → Option Bytes
  twofish : Block 32 → Block 16 → Block 16
  serpent : Block 32 → Block 16 → Block 16
  camellia : Block 32 → Block 16 → Block 16

/-- Push every byte of `bs` into an empty vector. -/
def pushAll {ε : Type} (cap : ℕ) (e : ε) (bs : Bytes) : Except ε (Vec cap) :=
  if h : bs.length ≤ cap then .ok ⟨bs, h⟩ else .error e

theorem pushAll_eq_ok {ε : Type} {cap : ℕ} {e : ε} {bs : Bytes} {v : Vec cap} :
    pushAll cap e bs = .ok v ↔ bs = v.toBytes := by
  constructor
  · intro h
    rw [pushAll] at h
    split_ifs at h
    rw [← Except.ok.inj h]
    rfl
  · rintro rfl
    exact dif_pos v.length_le

theorem pushAll_of_le {ε : Type} {cap : ℕ} {e : ε} {bs : Bytes} (h : bs.length ≤ cap) :
    pushAll cap e bs = .ok (⟨bs, h⟩ : Vec cap) := dif_pos h

theorem errorsIn_pushAll {ε : Type} {Q : ε → Prop} {e : ε} (h : Q e) (cap : ℕ) (bs : Bytes) :
    ErrorsIn Q (pushAll cap e bs) := by
  rw [pushAll]
  split_ifs
  · exact .ok _
  · exact .error h

/-- The array of `n` bytes that `bs` is. -/
def toArray {ε : Type} (n : ℕ) (e : ε) (bs : Bytes) : Except ε (Block n) :=
  if h : bs.length = n then .ok ⟨bs, h⟩ else .error e

theorem toArray_of_length {ε : Type} {n : ℕ} {e : ε} {bs : Bytes} (h : bs.length = n) :
    toArray n e bs = .ok ⟨bs, h⟩ := dif_pos h

/-- The first `n` bytes of an array. -/
def firstBytes {m : ℕ} (n : ℕ) (b : Block m) : Block n := .ofBytes n (b.toBytes.take n)

/-! ## Decimal and hexadecimal digits -/

/-- An index in decimal. -/
def decimal (i : UInt8) : Bytes :=
  if i < 10 then [48 + i]
  else if i < 100 then [48 + i / 10, 48 + i % 10]
  else [48 + i / 100, 48 + i / 10 % 10, 48 + i % 10]

theorem length_decimal (i : UInt8) : (decimal i).length ≤ 3 := by
  rw [decimal]
  split_ifs <;> simp

/-- A digit in lower-case hexadecimal. -/
def hexDigit (nib : UInt16) : UInt8 := if nib < 10 then 48 + nib.toUInt8 else 87 + nib.toUInt8

/-- A suite identifier as four hexadecimal digits. -/
def hexU16 (v : UInt16) : Bytes :=
  [hexDigit (v >>> 12 &&& 0xf), hexDigit (v >>> 8 &&& 0xf), hexDigit (v >>> 4 &&& 0xf),
    hexDigit (v &&& 0xf)]

/-! ## Labels of custom profiles -/

namespace CipherLayer

/-- The cipher in a label. -/
def domainFragment : CipherLayer → String
  | aes256Gcm => "aes256gcm"
  | chaCha20Poly1305 => "chacha20poly1305"
  | twofish256 => "twofish256"
  | serpent256 => "serpent256"
  | camellia256 => "camellia256"

theorem length_domainFragment (layer : CipherLayer) : (utf8 layer.domainFragment).length ≤ 16 := by
  cases layer <;> decide

end CipherLayer

def buildLayerInfo (profileName : String) (cipher : CipherLayer) (layerIndex : UInt8)
    (suffix : String) : Except CipherProfileError (Vec 128) :=
  pushAll 128 .keyDerivation (utf8 "galdralag/profile/" ++ (utf8 profileName ++ (utf8 "/" ++
    (utf8 cipher.domainFragment ++ (utf8 "/layer-" ++ (decimal layerIndex ++ utf8 suffix))))))

/-- The label of the key of a layer. -/
def layerKeyInfo (profileName : String) (cipher : CipherLayer) (layerIndex : UInt8) :
    Except CipherProfileError (Vec 128) :=
  buildLayerInfo profileName cipher layerIndex "/key/v1"

/-- The label of the nonce of a layer. -/
def layerNonceInfo (profileName : String) (cipher : CipherLayer) (layerIndex : UInt8) :
    Except CipherProfileError (Vec 128) :=
  buildLayerInfo profileName cipher layerIndex "/nonce/v1"

/-- The labels of a profile always fit. -/
theorem buildLayerInfo_ok {profileName suffix : String} (hname : profileName.utf8ByteSize ≤ maxName)
    (hsuffix : (utf8 suffix).length ≤ 9) (cipher : CipherLayer) (layerIndex : UInt8) :
    ∃ info, buildLayerInfo profileName cipher layerIndex suffix = .ok info := by
  have hstart : (utf8 "galdralag/profile/").length = 18 := by decide
  have hslash : (utf8 "/").length = 1 := by decide
  have hlayer : (utf8 "/layer-").length = 7 := by decide
  have hfragment := cipher.length_domainFragment
  have hdecimal := length_decimal layerIndex
  refine ⟨_, pushAll_of_le ?_⟩
  simp only [List.length_append, hstart, hslash, hlayer, length_utf8 profileName]
  rw [maxName] at hname
  omega

/-! ## HKDF over BLAKE3 -/

section Blake3

variable (P : Primitives)

/-- The key as one hash block: hashed when it is longer, padded with zeros. -/
def normalizeHmacKey (key : Bytes) : Block 64 :=
  if 64 < key.length then .ofBytes 64 (P.blake3 key).toBytes else .ofBytes 64 key

def hmacBlake3 (key data : Bytes) : Block 32 :=
  let k := (normalizeHmacKey P key).toBytes
  let inner := P.blake3 (k.map (· ^^^ 0x36) ++ data)
  P.blake3 (k.map (· ^^^ 0x5c) ++ inner.toBytes)

/-- The next `k` blocks of key material behind the block `t`. -/
def expandBlocks (prk : Block 32) (info : Bytes) : ℕ → Bytes → UInt8 → Bytes
  | 0, _, _ => []
  | k + 1, t, counter =>
    let t := (hmacBlake3 P prk.toBytes (t ++ info ++ [counter])).toBytes
    t ++ expandBlocks prk info k t (counter + 1)

def hkdfBlake3 (ikm salt info : Bytes) (length : ℕ) : Bytes :=
  let salt := if salt.isEmpty then List.replicate 32 0 else salt
  let prk := hmacBlake3 P salt ikm
  (expandBlocks P prk info ((length + 31) / 32) [] 1).take length

theorem length_expandBlocks (prk : Block 32) (info : Bytes) (k : ℕ) (t : Bytes) (counter : UInt8) :
    (expandBlocks P prk info k t counter).length = k * 32 := by
  induction k generalizing t counter with
  | zero => rfl
  | succ k ih =>
    rw [expandBlocks, List.length_append, Block.length_toBytes, ih]
    omega

/-- The derivation returns as many bytes as were asked for. -/
theorem length_hkdfBlake3 (ikm salt info : Bytes) (length : ℕ) :
    (hkdfBlake3 P ikm salt info length).length = length := by
  rw [hkdfBlake3, List.length_take, length_expandBlocks]
  omega

end Blake3

/-! ## Labels of registered suites -/

/-- The registered suite of a built-in profile. -/
def suiteIdForProfileName (name : String) : Option UInt16 :=
  if name = "standard" then some 0x0001
  else if name = "conservative" ∨ name = "conservative-shamir" then some 0x0003
  else none

/-- The block ciphers whose two keys come from one derivation of 64 bytes. -/
inductive CessInnerEtM64Cipher where
  | camellia256
  | serpent256
  | twofish256
  deriving DecidableEq

def pushLayerIndex (layerIndex : UInt8) : Bytes := utf8 "-l" ++ decimal layerIndex

def cessInnerCascadeLayerKeyInfo (suiteId : UInt16) (layerIndex : UInt8) : Bytes :=
  utf8 "cess-inner-" ++ hexU16 suiteId ++ pushLayerIndex layerIndex ++ utf8 "-key"

def cessInnerCascadeLayerNonceInfo (suiteId : UInt16) (layerIndex : UInt8) : Bytes :=
  utf8 "cess-inner-" ++ hexU16 suiteId ++ pushLayerIndex layerIndex ++ utf8 "-nonce"

def cessInnerCascadeEtm64Info (suiteId : UInt16) (layerIndex : UInt8)
    (cipher : CessInnerEtM64Cipher) : Bytes :=
  utf8 "cess-inner-" ++ hexU16 suiteId ++ pushLayerIndex layerIndex ++
    match cipher with
    | .camellia256 => utf8 "-camellia256"
    | .serpent256 => utf8 "-serpent256"
    | .twofish256 => utf8 "-twofish256"

def cessBlake3IntegrityInfo (suiteId : UInt16) : Bytes :=
  utf8 "cess-blake3-integrity-" ++ hexU16 suiteId

theorem length_cessBlake3IntegrityInfo (suiteId : UInt16) :
    (cessBlake3IntegrityInfo suiteId).length = 26 := rfl

def cessBlake3IntegrityGapInfo (suiteId : UInt16) (afterLayerIndex : UInt8) : Bytes :=
  utf8 "cess-blake3-integrity-" ++ hexU16 suiteId ++ utf8 "-gap" ++ pushLayerIndex afterLayerIndex

example : cessInnerCascadeLayerKeyInfo 0x0003 0 = utf8 "cess-inner-0003-l0-key" := by decide

end Galdralag.Cipher
