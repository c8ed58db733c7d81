import Galdralag.Foundation.Stages
import Galdralag.Cipher.Labels

/-!
# The ciphers of a layer

Each layer of a cascade is an authenticated cipher. AES-256-GCM and ChaCha20-Poly1305 come from
third-party packages and are assumed to be what they say (`AeadLaws`). Twofish, Serpent and Camellia
come as bare block ciphers; the authenticated cipher is built here, counter mode followed by an HMAC
of the associated data, the nonce and the body, and needs no assumption.

All of these but AES-256-GCM refuse messages of more than 8192 bytes.
-/

set_option linter.all false

namespace Galdralag.Cipher

open Fallible (except_bind_of_ok)

/-- Capacity of the working buffer of a cascade. -/
def maxCt : ℕ := 65536

/-- The outcome with another error. -/
def orFail {ε δ α : Type} (r : Except δ α) (e : ε) : Except ε α :=
  match r with
  | .ok a => .ok a
  | .error _ => .error e

theorem orFail_eq_ok {ε δ α : Type} {r : Except δ α} {e : ε} {a : α} :
    orFail r e = .ok a ↔ r = .ok a := by
  rcases r with d | b
  · exact iff_of_false (by rintro ⟨⟩) (by rintro ⟨⟩)
  · refine ⟨fun h ↦ ?_, fun h ↦ ?_⟩
    · rw [Except.ok.inj h]
    · rw [Except.ok.inj h]
      rfl

/-- A value that may be missing. -/
def okOr {ε α : Type} (o : Option α) (e : ε) : Except ε α := o.elim (.error e) .ok

theorem okOr_eq_ok {ε α : Type} {o : Option α} {e : ε} {a : α} : okOr o e = .ok a ↔ o = some a := by
  rcases o with _ | b
  · exact iff_of_false (by rintro ⟨⟩) (by rintro ⟨⟩)
  · refine ⟨fun h ↦ ?_, fun h ↦ ?_⟩
    · rw [Except.ok.inj h]
    · rw [Option.some.inj h]
      rfl

theorem errorsIn_okOr {ε α : Type} {Q : ε → Prop} {e : ε} (h : Q e) (o : Option α) :
    ErrorsIn Q (okOr o e) := by
  rcases o with _ | a
  · exact .error h
  · exact .ok a

/-! ## ChaCha20-Poly1305 -/

/-- Failures of the single ciphers. -/
inductive AeadError where
  | authenticationFailed
  | keyDerivation
  | trngFailure
  | invalidLength
  | cipherError
  deriving DecidableEq, Repr

/-- Longest message of every layer cipher but AES-256-GCM. -/
def maxPlaintext : ℕ := 8192

/-- Longest ChaCha20-Poly1305 ciphertext. -/
def maxChachaCiphertext : ℕ := maxPlaintext + 16

section Chacha

variable (P : Primitives)

def chachaEncrypt (key : Block 32) (nonce : Block 12) (aad plaintext : Bytes) :
    Except AeadError (Vec maxChachaCiphertext) := do
  let _ ← ensure (plaintext.length ≤ maxPlaintext) .invalidLength
  let sealed ← okOr (P.chachaEncryptDetached key nonce aad plaintext) .authenticationFailed
  pushAll maxChachaCiphertext .invalidLength (sealed.1 ++ sealed.2.toBytes)

def chachaDecrypt (key : Block 32) (nonce : Block 12) (aad : Bytes)
    (ct : Vec maxChachaCiphertext) : Except AeadError (Vec maxPlaintext) := do
  let _ ← ensure (16 ≤ ct.length) .authenticationFailed
  let body := ct.toBytes.take (ct.length - 16)
  let _ ← ensure (body.length ≤ maxPlaintext) .invalidLength
  let tag ← toArray 16 .authenticationFailed (ct.toBytes.drop (ct.length - 16))
  let plaintext ← okOr (P.chachaDecryptDetached key nonce aad body tag) .authenticationFailed
  pushAll maxPlaintext .invalidLength plaintext

end Chacha

/-! ## Encrypt-then-MAC over a block cipher -/

/-- Longest ciphertext of a block cipher layer. -/
def maxEtmCiphertext : ℕ := maxPlaintext + 32

/-- A cipher key and an independent MAC key. -/
structure EtmKey where
  cipherKey : Block 32
  macKey : Block 32

/-- The two keys from one derivation of 64 bytes. -/
def EtmKey.fromOkm64 (okm : Block 64) : EtmKey where
  cipherKey := firstBytes 32 okm
  macKey := .ofBytes 32 (okm.toBytes.drop 32)

/-- The next counter block. -/
def incrementCtr (ctr : Block 16) : Block 16 :=
  ⟨(leBytes 16 ((beNat ctr.toBytes + 1) % 2 ^ 128)).reverse, by
    rw [List.length_reverse, length_leBytes]⟩

section EncryptThenMac

variable (P : Primitives) (cipher : Block 32 → Block 16 → Block 16)

/-- The tag of a body. -/
def computeTag (macKey : Block 32) (aad : Bytes) (nonce : Block 16) (body : Bytes) : Block 32 :=
  P.hmacSha256 macKey (aad ++ nonce.toBytes ++ body)

def etmEncrypt (key : EtmKey) (nonce : Block 16) (aad plaintext : Bytes) :
    Except AeadError (Vec maxEtmCiphertext) := do
  let _ ← ensure (plaintext.length ≤ maxPlaintext) .invalidLength
  let body := ctrXor (cipher key.cipherKey) incrementCtr nonce plaintext
  pushAll maxEtmCiphertext .invalidLength (tagged (computeTag P key.macKey aad nonce) body)

def etmDecrypt (key : EtmKey) (nonce : Block 16) (aad : Bytes) (ct : Vec maxEtmCiphertext) :
    Except AeadError (Vec maxPlaintext) := do
  let _ ← ensure (32 ≤ ct.length) .authenticationFailed
  let _ ← ensure (ct.length - 32 ≤ maxPlaintext) .invalidLength
  let body ← okOr (untag (computeTag P key.macKey aad nonce) ct.toBytes) .authenticationFailed
  pushAll maxPlaintext .invalidLength (ctrXor (cipher key.cipherKey) incrementCtr nonce body)

end EncryptThenMac

def twofishEncrypt (P : Primitives) := etmEncrypt P P.twofish

def twofishDecrypt (P : Primitives) := etmDecrypt P P.twofish

def serpentEncrypt (P : Primitives) := etmEncrypt P P.serpent

def serpentDecrypt (P : Primitives) := etmDecrypt P P.serpent

def camelliaEncrypt (P : Primitives) := etmEncrypt P P.camellia

def camelliaDecrypt (P : Primitives) := etmDecrypt P P.camellia

/-! ## Into and out of the working buffer -/

/-- Copy a ciphertext into the working buffer. -/
def copyCt {n : ℕ} (ct : Vec n) : Except CipherProfileError (Vec maxCt) :=
  pushAll maxCt .payloadTooLarge ct.toBytes

/-- Copy a plaintext into the working buffer. -/
def copyPt {n : ℕ} (pt : Vec n) : Except CipherProfileError (Vec maxCt) :=
  pushAll maxCt .authenticationFailed pt.toBytes

/-- The ciphertext of a layer, its failures mapped to an error that names the layer. -/
def sealLayer {n : ℕ} (r : Except AeadError (Vec n)) (layer : UInt8) :
    Except CipherProfileError (Vec maxCt) := do
  let ct ← orFail r (.cipherError layer)
  copyCt ct

/-- The plaintext of a layer out of the bytes of its ciphertext, all failures mapped to one. -/
def openLayer {n m : ℕ} (decrypt : Vec n → Except AeadError (Vec m)) (data : Bytes) :
    Except CipherProfileError (Vec maxCt) := do
  let ct ← pushAll n .authenticationFailed data
  let pt ← orFail (decrypt ct) .authenticationFailed
  copyPt pt

def aesEncrypt (P : Primitives) (key : Block 32) (nonce : Block 12) (aad data : Bytes)
    (layer : UInt8) : Except CipherProfileError (Vec maxCt) := do
  let ct ← okOr (P.aesGcmEncrypt key nonce aad data) (.cipherError layer)
  pushAll maxCt .payloadTooLarge ct

def aesDecrypt (P : Primitives) (key : Block 32) (nonce : Block 12) (aad data : Bytes) :
    Except CipherProfileError (Vec maxCt) := do
  let pt ← okOr (P.aesGcmDecrypt key nonce aad data) .authenticationFailed
  pushAll maxCt .authenticationFailed pt

/-! ## One layer -/

section Layer

variable (P : Primitives)

def hkdfBlake3Okm32 (ikm info : Bytes) : Except CipherProfileError (Block 32) :=
  toArray 32 .keyDerivation (hkdfBlake3 P ikm [] info 32)

def hkdfBlake3Okm64 (ikm info : Bytes) : Except CipherProfileError (Block 64) :=
  toArray 64 .keyDerivation (hkdfBlake3 P ikm [] info 64)

/-- The twelve bytes of an AES nonce in a registered suite. -/
def hkdfBlake3Nonce12 (ikm info : Bytes) : Except CipherProfileError (Block 12) :=
  toArray 12 .keyDerivation (hkdfBlake3 P ikm [] info 12)

def legacyPrk32 (ikm : Bytes) : Except CipherProfileError (Block 32) :=
  toArray 32 .keyDerivation ikm

/-- Keys and nonce of a block cipher layer in a registered suite. -/
def cessEtmKeys (ikm : Bytes) (sid : UInt16) (cipher : CessInnerEtM64Cipher) (layerIdx : UInt8) :
    Except CipherProfileError (EtmKey × Block 16) := do
  let okm ← hkdfBlake3Okm64 P ikm (cessInnerCascadeEtm64Info sid layerIdx cipher)
  let nOkm ← hkdfBlake3Okm32 P ikm (cessInnerCascadeLayerNonceInfo sid layerIdx)
  pure (.fromOkm64 okm, firstBytes 16 nOkm)

/-- Key and nonce of a ChaCha20-Poly1305 layer in a registered suite. -/
def cessChachaKeys (ikm : Bytes) (sid : UInt16) (layerIdx : UInt8) :
    Except CipherProfileError (Block 32 × Block 12) := do
  let key ← hkdfBlake3Okm32 P ikm (cessInnerCascadeLayerKeyInfo sid layerIdx)
  let nOkm ← hkdfBlake3Okm32 P ikm (cessInnerCascadeLayerNonceInfo sid layerIdx)
  pure (key, firstBytes 12 nOkm)

/-- Key and nonce of an AES-256-GCM layer in a registered suite. -/
def cessAesKeys (ikm : Bytes) (sid : UInt16) (layerIdx : UInt8) :
    Except CipherProfileError (Block 32 × Block 12) := do
  let key ← hkdfBlake3Okm32 P ikm (cessInnerCascadeLayerKeyInfo sid layerIdx)
  let nonce ← hkdfBlake3Nonce12 P ikm (cessInnerCascadeLayerNonceInfo sid layerIdx)
  pure (key, nonce)

def encryptLayerCess (ikm : Bytes) (sid : UInt16) (layer : CipherLayer) (aad data : Bytes)
    (layerIdx : UInt8) : Except CipherProfileError (Vec maxCt) :=
  match layer with
  | .aes256Gcm => do
    let k ← cessAesKeys P ikm sid layerIdx
    aesEncrypt P k.1 k.2 aad data layerIdx
  | .chaCha20Poly1305 => do
    let k ← cessChachaKeys P ikm sid layerIdx
    sealLayer (chachaEncrypt P k.1 k.2 aad data) layerIdx
  | .twofish256 => do
    let k ← cessEtmKeys P ikm sid .twofish256 layerIdx
    sealLayer (twofishEncrypt P k.1 k.2 aad data) layerIdx
  | .serpent256 => do
    let k ← cessEtmKeys P ikm sid .serpent256 layerIdx
    sealLayer (serpentEncrypt P k.1 k.2 aad data) layerIdx
  | .camellia256 => do
    let k ← cessEtmKeys P ikm sid .camellia256 layerIdx
    sealLayer (camelliaEncrypt P k.1 k.2 aad data) layerIdx

def decryptLayerCess (ikm : Bytes) (sid : UInt16) (layer : CipherLayer) (aad data : Bytes)
    (layerIdx : UInt8) : Except CipherProfileError (Vec maxCt) :=
  match layer with
  | .aes256Gcm => do
    let k ← orFail (cessAesKeys P ikm sid layerIdx) .authenticationFailed
    aesDecrypt P k.1 k.2 aad data
  | .chaCha20Poly1305 => do
    let k ← orFail (cessChachaKeys P ikm sid layerIdx) .authenticationFailed
    openLayer (chachaDecrypt P k.1 k.2 aad) data
  | .twofish256 => do
    let k ← orFail (cessEtmKeys P ikm sid .twofish256 layerIdx) .authenticationFailed
    openLayer (twofishDecrypt P k.1 k.2 aad) data
  | .serpent256 => do
    let k ← orFail (cessEtmKeys P ikm sid .serpent256 layerIdx) .authenticationFailed
    openLayer (serpentDecrypt P k.1 k.2 aad) data
  | .camellia256 => do
    let k ← orFail (cessEtmKeys P ikm sid .camellia256 layerIdx) .authenticationFailed
    openLayer (camelliaDecrypt P k.1 k.2 aad) data

/-- Keys of a block cipher layer of a custom profile. -/
def EtmKey.deriveFromPrkLabel (prk : Block 32) (info : Bytes) : EtmKey :=
  .fromOkm64 (P.hkdfExpand prk info 64)

/-- The nonce of `n` bytes of a layer of a custom profile, cut from a derivation of 32 bytes. -/
def nonceFromPrkLabel (n : ℕ) (prk : Block 32) (info : Bytes) : Block n :=
  firstBytes n (P.hkdfExpand prk info 32)

def encryptLayer (ikm : Bytes) (cessSuiteId : Option UInt16) (layer : CipherLayer)
    (aad data keyInfo nonceInfo : Bytes) (layerIdx : UInt8) :
    Except CipherProfileError (Vec maxCt) :=
  match cessSuiteId with
  | some sid => encryptLayerCess P ikm sid layer aad data layerIdx
  | none => do
    let prk ← legacyPrk32 ikm
    match layer with
    | .aes256Gcm =>
      aesEncrypt P (P.hkdfExpand prk keyInfo 32) (P.hkdfExpand prk nonceInfo 12) aad data 0
    | .chaCha20Poly1305 =>
      sealLayer (chachaEncrypt P (P.hkdfExpand prk keyInfo 32)
        (nonceFromPrkLabel P 12 prk nonceInfo) aad data) layerIdx
    | .twofish256 =>
      sealLayer (twofishEncrypt P (.deriveFromPrkLabel P prk keyInfo)
        (nonceFromPrkLabel P 16 prk nonceInfo) aad data) layerIdx
    | .serpent256 =>
      sealLayer (serpentEncrypt P (.deriveFromPrkLabel P prk keyInfo)
        (nonceFromPrkLabel P 16 prk nonceInfo) aad data) layerIdx
    | .camellia256 =>
      sealLayer (camelliaEncrypt P (.deriveFromPrkLabel P prk keyInfo)
        (nonceFromPrkLabel P 16 prk nonceInfo) aad data) layerIdx

def decryptLayer (ikm : Bytes) (cessSuiteId : Option UInt16) (layer : CipherLayer)
    (aad data keyInfo nonceInfo : Bytes) (layerIdx : UInt8) :
    Except CipherProfileError (Vec maxCt) :=
  match cessSuiteId with
  | some sid => decryptLayerCess P ikm sid layer aad data layerIdx
  | none => do
    let prk ← orFail (legacyPrk32 ikm) .authenticationFailed
    match layer with
    | .aes256Gcm =>
      aesDecrypt P (P.hkdfExpand prk keyInfo 32) (P.hkdfExpand prk nonceInfo 12) aad data
    | .chaCha20Poly1305 =>
      openLayer (chachaDecrypt P (P.hkdfExpand prk keyInfo 32)
        (nonceFromPrkLabel P 12 prk nonceInfo) aad) data
    | .twofish256 =>
      openLayer (twofishDecrypt P (.deriveFromPrkLabel P prk keyInfo)
        (nonceFromPrkLabel P 16 prk nonceInfo) aad) data
    | .serpent256 =>
      openLayer (serpentDecrypt P (.deriveFromPrkLabel P prk keyInfo)
        (nonceFromPrkLabel P 16 prk nonceInfo) aad) data
    | .camellia256 =>
      openLayer (camelliaDecrypt P (.deriveFromPrkLabel P prk keyInfo)
        (nonceFromPrkLabel P 16 prk nonceInfo) aad) data

end Layer

/-! ## What sealing and opening a layer means -/

section Outcomes

variable {P : Primitives} {aad : Bytes} {d v : Vec maxCt}

theorem sealLayer_eq_ok {n : ℕ} {r : Except AeadError (Vec n)} {layer : UInt8} :
    sealLayer r layer = .ok v ↔ ∃ ct, r = .ok ct ∧ ct.toBytes = v.toBytes := by
  simp only [sealLayer, copyCt, except_bind_eq_ok, orFail_eq_ok, pushAll_eq_ok]

theorem openLayer_eq_ok {n m : ℕ} {decrypt : Vec n → Except AeadError (Vec m)} :
    openLayer decrypt v.toBytes = .ok d ↔
      ∃ ct, v.toBytes = ct.toBytes ∧ ∃ pt, decrypt ct = .ok pt ∧ pt.toBytes = d.toBytes := by
  simp only [openLayer, copyPt, except_bind_eq_ok, orFail_eq_ok, pushAll_eq_ok]

theorem aesEncrypt_eq_ok {key : Block 32} {nonce : Block 12} {layer : UInt8} :
    aesEncrypt P key nonce aad d.toBytes layer = .ok v ↔
      P.aesGcmEncrypt key nonce aad d.toBytes = some v.toBytes := by
  simp only [aesEncrypt, except_bind_eq_ok, okOr_eq_ok, pushAll_eq_ok]
  exact exists_eq_right

theorem aesDecrypt_eq_ok {key : Block 32} {nonce : Block 12} :
    aesDecrypt P key nonce aad v.toBytes = .ok d ↔
      P.aesGcmDecrypt key nonce aad v.toBytes = some d.toBytes := by
  simp only [aesDecrypt, except_bind_eq_ok, okOr_eq_ok, pushAll_eq_ok]
  exact exists_eq_right

theorem sealChacha_eq_ok {key : Block 32} {nonce : Block 12} {layer : UInt8} :
    sealLayer (chachaEncrypt P key nonce aad d.toBytes) layer = .ok v ↔
      d.length ≤ maxPlaintext ∧ v.length ≤ maxChachaCiphertext ∧ ∃ body tag,
        P.chachaEncryptDetached key nonce aad d.toBytes = some (body, tag) ∧
        v.toBytes = body ++ tag.toBytes := by
  rw [sealLayer_eq_ok]
  simp only [chachaEncrypt, ensure_bind_eq_ok]
  simp only [except_bind_eq_ok, okOr_eq_ok, pushAll_eq_ok]
  constructor
  · rintro ⟨ct, ⟨hd, ⟨body, tag⟩, hseal, hct⟩, hv⟩
    refine ⟨hd, ?_, body, tag, hseal, ?_⟩
    · rw [Vec.length, ← hv]
      exact ct.length_le
    · rw [← hv, ← hct]
  · rintro ⟨hd, hlen, body, tag, hseal, hv⟩
    exact ⟨⟨v.toBytes, hlen⟩, ⟨hd, (body, tag), hseal, hv.symm⟩, rfl⟩

theorem openChacha_eq_ok {key : Block 32} {nonce : Block 12} :
    openLayer (chachaDecrypt P key nonce aad) v.toBytes = .ok d ↔
      d.length ≤ maxPlaintext ∧ v.length ≤ maxChachaCiphertext ∧ ∃ body tag,
        P.chachaDecryptDetached key nonce aad body tag = some d.toBytes ∧
        v.toBytes = body ++ tag.toBytes := by
  rw [openLayer_eq_ok]
  simp only [chachaDecrypt, ensure_bind_eq_ok]
  simp only [except_bind_eq_ok, okOr_eq_ok, pushAll_eq_ok]
  constructor
  · rintro ⟨ct, hv, pt, ⟨hge, -, tag, htag, plaintext, hopen, hpt⟩, hd⟩
    rw [toArray] at htag
    split_ifs at htag with hlen
    obtain rfl := Except.ok.inj htag
    subst hpt
    refine ⟨?_, ?_, _, _, by rwa [hd] at hopen, ?_⟩
    · rw [Vec.length, ← hd]
      exact pt.length_le
    · rw [Vec.length, hv]
      exact ct.length_le
    · rw [hv]
      exact (List.take_append_drop (ct.length - 16) ct.toBytes).symm
  · rintro ⟨hd, hlen, body, tag, hopen, hv⟩
    have htag := tag.length_toBytes
    have hsum : v.length = body.length + 16 := by rw [Vec.length, hv, List.length_append, htag]
    have hbody : v.length - 16 = body.length := by rw [hsum]; omega
    have htake : v.toBytes.take (v.length - 16) = body := by rw [hbody, hv, List.take_left]
    have hdrop : v.toBytes.drop (v.length - 16) = tag.toBytes := by rw [hbody, hv, List.drop_left]
    refine ⟨⟨v.toBytes, hlen⟩, rfl, ⟨d.toBytes, hd⟩, ⟨?_, ?_, tag, ?_, d.toBytes, ?_, rfl⟩, rfl⟩
    · change 16 ≤ v.length
      omega
    · change (v.toBytes.take (v.length - 16)).length ≤ maxPlaintext
      rw [htake]
      rw [maxChachaCiphertext] at hlen
      omega
    · change toArray 16 _ (v.toBytes.drop (v.length - 16)) = _
      rw [hdrop]
      exact toArray_of_length htag
    · change P.chachaDecryptDetached key nonce aad (v.toBytes.take (v.length - 16)) tag = _
      rw [htake, hopen]

variable {cipher : Block 32 → Block 16 → Block 16} {key : EtmKey} {nonce : Block 16}

theorem etmEncrypt_eq_ok {plaintext : Bytes} {ct : Vec maxEtmCiphertext} :
    etmEncrypt P cipher key nonce aad plaintext = .ok ct ↔
      plaintext.length ≤ maxPlaintext ∧ ct.toBytes = tagged (computeTag P key.macKey aad nonce)
        (ctrXor (cipher key.cipherKey) incrementCtr nonce plaintext) := by
  rw [etmEncrypt, ensure_bind_eq_ok, pushAll_eq_ok]
  exact and_congr_right fun _ ↦ eq_comm

theorem etmDecrypt_eq_ok {ct : Vec maxEtmCiphertext} {pt : Vec maxPlaintext} :
    etmDecrypt P cipher key nonce aad ct = .ok pt ↔
      ct.toBytes = tagged (computeTag P key.macKey aad nonce)
        (ctrXor (cipher key.cipherKey) incrementCtr nonce pt.toBytes) := by
  simp only [etmDecrypt, ensure_bind_eq_ok]
  simp only [except_bind_eq_ok, okOr_eq_ok, pushAll_eq_ok, untag_eq_some]
  constructor
  · rintro ⟨-, -, body, hct, hpt⟩
    rw [hct, ← hpt, ctrXor_ctrXor (by decide)]
  · intro hct
    have hbody : (ctrXor (cipher key.cipherKey) incrementCtr nonce pt.toBytes).length = pt.length :=
      length_ctrXor (by decide) _ _
    have hlen : ct.length = pt.length + 32 := by rw [Vec.length, hct, length_tagged, hbody]
    have hpt : pt.length ≤ maxPlaintext := pt.length_le
    exact ⟨by omega, by omega, _, hct, ctrXor_ctrXor (by decide) _ _⟩

theorem sealEtm_eq_ok {layer : UInt8} :
    sealLayer (etmEncrypt P cipher key nonce aad d.toBytes) layer = .ok v ↔
      d.length ≤ maxPlaintext ∧ v.toBytes = tagged (computeTag P key.macKey aad nonce)
        (ctrXor (cipher key.cipherKey) incrementCtr nonce d.toBytes) := by
  rw [sealLayer_eq_ok]
  constructor
  · rintro ⟨ct, hct, hv⟩
    rw [etmEncrypt_eq_ok, hv] at hct
    exact hct
  · rintro ⟨hd, hv⟩
    have hle : v.length ≤ maxEtmCiphertext := by
      rw [Vec.length, hv, length_tagged, length_ctrXor (by decide)]
      exact Nat.add_le_add_right hd 32
    exact ⟨⟨v.toBytes, hle⟩, etmEncrypt_eq_ok.mpr ⟨hd, hv⟩, rfl⟩

theorem openEtm_eq_ok :
    openLayer (etmDecrypt P cipher key nonce aad) v.toBytes = .ok d ↔
      d.length ≤ maxPlaintext ∧ v.toBytes = tagged (computeTag P key.macKey aad nonce)
        (ctrXor (cipher key.cipherKey) incrementCtr nonce d.toBytes) := by
  rw [openLayer_eq_ok]
  constructor
  · rintro ⟨ct, hv, pt, hpt, hd⟩
    rw [etmDecrypt_eq_ok, ← hv, hd] at hpt
    refine ⟨?_, hpt⟩
    rw [Vec.length, ← hd]
    exact pt.length_le
  · rintro ⟨hd, hv⟩
    have hle : v.length ≤ maxEtmCiphertext := by
      rw [Vec.length, hv, length_tagged, length_ctrXor (by decide)]
      exact Nat.add_le_add_right hd 32
    exact ⟨⟨v.toBytes, hle⟩, rfl, ⟨d.toBytes, hd⟩, etmDecrypt_eq_ok.mpr hv, rfl⟩

end Outcomes

/-! ## Laws of the packaged ciphers -/

/-- Longest associated data the packaged ciphers accept. -/
def maxAad : ℕ := 2 ^ 36

/-- **Acceptance.** Messages and associated data within the documented bounds are accepted, and the
tag adds sixteen bytes. -/
structure AeadLaws (P : Primitives) : Prop where
  aes_accepts : ∀ key nonce {aad data : Bytes}, aad.length ≤ maxAad → data.length ≤ maxCt →
    ∃ ct, P.aesGcmEncrypt key nonce aad data = some ct
  aes_length : ∀ {key nonce aad data ct}, P.aesGcmEncrypt key nonce aad data = some ct →
    ct.length = data.length + 16
  chacha_accepts : ∀ key nonce {aad data : Bytes}, aad.length ≤ maxAad →
    data.length ≤ maxPlaintext → ∃ sealed, P.chachaEncryptDetached key nonce aad data = some sealed
  chacha_length : ∀ {key nonce aad data sealed},
    P.chachaEncryptDetached key nonce aad data = some sealed → sealed.1.length = data.length

/-- **Round trip.** What was encrypted is decrypted. -/
structure AeadRecovers (P : Primitives) : Prop where
  aes : ∀ {key nonce aad data ct}, P.aesGcmEncrypt key nonce aad data = some ct →
    P.aesGcmDecrypt key nonce aad ct = some data
  chacha : ∀ {key nonce aad data body tag},
    P.chachaEncryptDetached key nonce aad data = some (body, tag) →
    P.chachaDecryptDetached key nonce aad body tag = some data

/-- **Exactness.** Nothing but the output of the encryption is accepted. -/
structure AeadExact (P : Primitives) : Prop where
  aes : ∀ {key nonce aad data ct}, P.aesGcmDecrypt key nonce aad ct = some data →
    P.aesGcmEncrypt key nonce aad data = some ct
  chacha : ∀ {key nonce aad data body tag},
    P.chachaDecryptDetached key nonce aad body tag = some data →
    P.chachaEncryptDetached key nonce aad data = some (body, tag)

/-! ## Layers as stages -/

namespace CipherLayer

/-- The messages a layer accepts, by their length. -/
def Accepts (layer : CipherLayer) (length : ℕ) : Prop :=
  match layer with
  | aes256Gcm => length + 16 ≤ maxCt
  | _ => length ≤ maxPlaintext

/-- The bytes a layer adds. -/
def overhead : CipherLayer → ℕ
  | aes256Gcm => 16
  | chaCha20Poly1305 => 16
  | _ => 32

/-- The block cipher of a layer that has one. -/
def blockCipher (P : Primitives) : CipherLayer → Option (Block 32 → Block 16 → Block 16)
  | twofish256 => some P.twofish
  | serpent256 => some P.serpent
  | camellia256 => some P.camellia
  | _ => none

theorem accepts_of_blockCipher {P : Primitives} {layer : CipherLayer}
    {cipher : Block 32 → Block 16 → Block 16} (h : layer.blockCipher P = some cipher) (length : ℕ) :
    (layer.Accepts length ↔ length ≤ maxPlaintext) ∧ layer.overhead = 32 := by
  cases layer with
  | aes256Gcm => cases h
  | chaCha20Poly1305 => cases h
  | twofish256 => exact ⟨Iff.rfl, rfl⟩
  | serpent256 => exact ⟨Iff.rfl, rfl⟩
  | camellia256 => exact ⟨Iff.rfl, rfl⟩

end CipherLayer

/-- The stages of a layer under all its keys. -/
inductive IsLayerStage (P : Primitives) (aad : Bytes) :
    CipherLayer → Stage CipherProfileError (Vec maxCt) → Prop
  | aes (key : Block 32) (nonce : Block 12) (idx : UInt8) :
    IsLayerStage P aad .aes256Gcm
      ⟨fun d ↦ aesEncrypt P key nonce aad d.toBytes idx,
        fun d ↦ aesDecrypt P key nonce aad d.toBytes⟩
  | chacha (key : Block 32) (nonce : Block 12) (idx : UInt8) :
    IsLayerStage P aad .chaCha20Poly1305
      ⟨fun d ↦ sealLayer (chachaEncrypt P key nonce aad d.toBytes) idx,
        fun d ↦ openLayer (chachaDecrypt P key nonce aad) d.toBytes⟩
  | etm (layer : CipherLayer) (cipher : Block 32 → Block 16 → Block 16) (key : EtmKey)
      (nonce : Block 16) (idx : UInt8) (h : layer.blockCipher P = some cipher) :
    IsLayerStage P aad layer
      ⟨fun d ↦ sealLayer (etmEncrypt P cipher key nonce aad d.toBytes) idx,
        fun d ↦ openLayer (etmDecrypt P cipher key nonce aad) d.toBytes⟩

namespace IsLayerStage

variable {P : Primitives} {aad : Bytes} {layer : CipherLayer}
  {s : Stage CipherProfileError (Vec maxCt)}

theorem recovers (hP : AeadRecovers P) (hs : IsLayerStage P aad layer s) :
    Recovers s.wrap s.unwrap := by
  intro d v hdv
  cases hs with
  | aes key nonce idx => exact aesDecrypt_eq_ok.mpr (hP.aes (aesEncrypt_eq_ok.mp hdv))
  | chacha key nonce idx =>
    obtain ⟨hd, hlen, body, tag, hseal, hv⟩ := sealChacha_eq_ok.mp hdv
    exact openChacha_eq_ok.mpr ⟨hd, hlen, body, tag, hP.chacha hseal, hv⟩
  | etm layer cipher key nonce idx h => exact openEtm_eq_ok.mpr (sealEtm_eq_ok.mp hdv)

theorem exact (hP : AeadExact P) (hs : IsLayerStage P aad layer s) :
    Recovers s.unwrap s.wrap := by
  intro v d hvd
  cases hs with
  | aes key nonce idx => exact aesEncrypt_eq_ok.mpr (hP.aes (aesDecrypt_eq_ok.mp hvd))
  | chacha key nonce idx =>
    obtain ⟨hd, hlen, body, tag, hopen, hv⟩ := openChacha_eq_ok.mp hvd
    exact sealChacha_eq_ok.mpr ⟨hd, hlen, body, tag, hP.chacha hopen, hv⟩
  | etm layer cipher key nonce idx h => exact sealEtm_eq_ok.mpr (openEtm_eq_ok.mp hvd)

/-- A layer seals the messages it accepts, which grow by its overhead. -/
theorem grows (hP : AeadLaws P) (haad : aad.length ≤ maxAad) (hs : IsLayerStage P aad layer s) :
    Grows Vec.length s.wrap layer.Accepts layer.overhead := by
  -- a step that succeeds exactly on the accepted messages refuses the others with some error
  have refuses : ∀ d, (∀ v, s.wrap d ≠ .ok v) → ∃ e, s.wrap d = .error e := by
    intro d hne
    cases hr : s.wrap d with
    | error e => exact ⟨e, rfl⟩
    | ok v => exact absurd hr (hne v)
  cases hs with
  | aes key nonce idx =>
    refine ⟨fun d hd ↦ ?_, fun d hd ↦ refuses d fun v hv ↦ hd ?_⟩
    · obtain ⟨ct, hct⟩ := hP.aes_accepts key nonce haad d.length_le
      have hlen : ct.length = d.length + 16 := hP.aes_length hct
      have hle : ct.length ≤ maxCt := by rw [hlen]; exact hd
      exact ⟨⟨ct, hle⟩, aesEncrypt_eq_ok.mpr hct, hlen⟩
    · have hlen : v.length = d.length + 16 := hP.aes_length (aesEncrypt_eq_ok.mp hv)
      change d.length + 16 ≤ maxCt
      rw [← hlen]
      exact v.length_le
  | chacha key nonce idx =>
    refine ⟨fun d hd ↦ ?_, fun d hd ↦ refuses d fun v hv ↦ hd (sealChacha_eq_ok.mp hv).1⟩
    obtain ⟨⟨body, tag⟩, hseal⟩ := hP.chacha_accepts key nonce haad hd
    have hbody : body.length = d.length := hP.chacha_length hseal
    have hlen : (body ++ tag.toBytes).length = d.length + 16 := by
      rw [List.length_append, hbody, tag.length_toBytes]
    have hle : (body ++ tag.toBytes).length ≤ maxChachaCiphertext := by
      rw [hlen]
      exact Nat.add_le_add_right hd 16
    have hfit : (body ++ tag.toBytes).length ≤ maxCt := Nat.le_trans hle (by decide)
    exact ⟨⟨body ++ tag.toBytes, hfit⟩, sealChacha_eq_ok.mpr ⟨hd, hle, body, tag, hseal, rfl⟩, hlen⟩
  | etm layer cipher key nonce idx h =>
    obtain ⟨-, hover⟩ := CipherLayer.accepts_of_blockCipher h 0
    have haccepts := fun n ↦ (CipherLayer.accepts_of_blockCipher h n).1
    refine ⟨fun d hd ↦ ?_, fun d hd ↦ refuses d fun v hv ↦ hd ?_⟩
    · have hd' := (haccepts _).mp hd
      let ct := tagged (computeTag P key.macKey aad nonce)
        (ctrXor (cipher key.cipherKey) incrementCtr nonce d.toBytes)
      have hlen : ct.length = d.length + 32 := by
        rw [length_tagged, length_ctrXor (by decide)]
        rfl
      have hfit : ct.length ≤ maxCt := by
        rw [hlen]
        exact Nat.le_trans (Nat.add_le_add_right hd' 32) (by decide)
      refine ⟨⟨ct, hfit⟩, sealEtm_eq_ok.mpr ⟨hd', rfl⟩, ?_⟩
      rw [hover]
      exact hlen
    · exact (haccepts _).mpr (sealEtm_eq_ok.mp hv).1

/-- What a capped layer opens to is short. -/
theorem unwrap_length_le (hs : IsLayerStage P aad layer s) (hlayer : layer ≠ .aes256Gcm)
    {d v : Vec maxCt} (h : s.unwrap v = .ok d) : d.length ≤ maxPlaintext := by
  cases hs with
  | aes key nonce idx => exact absurd rfl hlayer
  | chacha key nonce idx => exact (openChacha_eq_ok.mp h).1
  | etm layer cipher key nonce idx h' => exact (openEtm_eq_ok.mp h).1

/-- Opening a layer of AES-256-GCM is opening under some key and nonce. -/
theorem aes_unwrap (hs : IsLayerStage P aad .aes256Gcm s) :
    ∃ key nonce, ∀ v d : Vec maxCt,
      s.unwrap v = .ok d ↔ P.aesGcmDecrypt key nonce aad v.toBytes = some d.toBytes := by
  cases hs with
  | aes key nonce idx => exact ⟨key, nonce, fun v d ↦ aesDecrypt_eq_ok⟩
  | etm layer cipher key nonce idx h' => cases h'

theorem aes_length (hP : AeadLaws P) (hs : IsLayerStage P aad .aes256Gcm s) {d v : Vec maxCt}
    (h : s.wrap d = .ok v) : v.length = d.length + 16 := by
  cases hs with
  | aes key nonce idx => exact hP.aes_length (aesEncrypt_eq_ok.mp h)
  | etm layer cipher key nonce idx h' => cases h'

end IsLayerStage

end Galdralag.Cipher
