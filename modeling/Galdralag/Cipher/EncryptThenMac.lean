import Galdralag.Cipher.Cascade
import Mathlib.Data.Set.Function

/-!
# Encrypt-then-MAC

Twofish, Serpent and Camellia become authenticated ciphers in one way: counter mode, and behind the
body an HMAC of the associated data, the nonce and the body. Encryption and decryption are two
functions, which accept the same pairs (`decrypt_eq_ok_iff`).

The HMAC is fed the three parts one after the other, without a length between them. Among triples
whose associated data are equally long, or whose bodies are, the bytes determine the triple
(`macInput_injOn`); in general they do not, and then the tag of one triple opens another
(`decrypt_of_macInput_eq`).
-/

set_option linter.all false

namespace Galdralag.Cipher

namespace CessInnerEtM64Cipher

/-- Encryption with one of the three ciphers. -/
def encrypt (P : Primitives) : CessInnerEtM64Cipher → EtmKey → Block 16 → Bytes → Bytes →
    Except AeadError (Vec maxEtmCiphertext)
  | .twofish256 => twofishEncrypt P
  | .serpent256 => serpentEncrypt P
  | .camellia256 => camelliaEncrypt P

/-- Decryption with one of the three ciphers. -/
def decrypt (P : Primitives) : CessInnerEtM64Cipher → EtmKey → Block 16 → Bytes → Vec maxEtmCiphertext →
    Except AeadError (Vec maxPlaintext)
  | .twofish256 => twofishDecrypt P
  | .serpent256 => serpentDecrypt P
  | .camellia256 => camelliaDecrypt P

/-- The block cipher of each. -/
def block (P : Primitives) : CessInnerEtM64Cipher → Block 32 → Block 16 → Block 16
  | .twofish256 => P.twofish
  | .serpent256 => P.serpent
  | .camellia256 => P.camellia

section Directions

variable (P : Primitives) (c : CessInnerEtM64Cipher)

theorem encrypt_eq : c.encrypt P = etmEncrypt P (c.block P) := by
  cases c <;> rfl

theorem decrypt_eq : c.decrypt P = etmDecrypt P (c.block P) := by
  cases c <;> rfl

/-- **The two directions agree.** A ciphertext is decrypted to a plaintext exactly when the
plaintext is encrypted to the ciphertext. -/
theorem decrypt_eq_ok_iff (key : EtmKey) (nonce : Block 16) (aad : Bytes) (ct : Vec maxEtmCiphertext)
    (pt : Vec maxPlaintext) :
    c.decrypt P key nonce aad ct = .ok pt ↔ c.encrypt P key nonce aad pt.toBytes = .ok ct := by
  rw [decrypt_eq, encrypt_eq, etmDecrypt_eq_ok, etmEncrypt_eq_ok]
  exact (and_iff_right pt.length_le).symm

end Directions

end CessInnerEtM64Cipher

/-! ## What the tag covers -/

/-- What a tag is computed for. -/
@[ext]
structure EtmTriple where
  aad : Bytes
  nonce : Block 16
  body : Bytes

namespace EtmTriple

/-- The bytes fed to the HMAC. -/
def macInput (t : EtmTriple) : Bytes := t.aad ++ t.nonce.toBytes ++ t.body

theorem computeTag_eq (P : Primitives) (macKey : Block 32) (t : EtmTriple) :
    computeTag P macKey t.aad t.nonce t.body = P.hmacSha256 macKey t.macInput := rfl

section Accepted

variable (P : Primitives) (c : CessInnerEtM64Cipher) (key : EtmKey)

/-- The body followed by its tag. -/
def ciphertext (t : EtmTriple) : Bytes := tagged (computeTag P key.macKey t.aad t.nonce) t.body

/-- The triple of an encryption or a decryption that succeeds. -/
def Accepted (t : EtmTriple) : Prop :=
  (∃ pt ct, c.encrypt P key t.nonce t.aad pt = .ok ct ∧ ct.toBytes = t.ciphertext P key) ∨
    ∃ ct pt, c.decrypt P key t.nonce t.aad ct = .ok pt ∧ ct.toBytes = t.ciphertext P key

variable {P c key} {t t' : EtmTriple}

/-- What decrypts is the ciphertext of a triple. -/
theorem decrypt_of_length_le (h : t.body.length ≤ maxPlaintext) : ∃ ct pt,
    c.decrypt P key t.nonce t.aad ct = .ok pt ∧ ct.toBytes = t.ciphertext P key := by
  set plain := ctrXor (c.block P key.cipherKey) incrementCtr t.nonce t.body with hplain
  have hlen : plain.length ≤ maxPlaintext := by
    rw [hplain, length_ctrXor (by decide)]
    exact h
  have hfits : (t.ciphertext P key).length ≤ maxEtmCiphertext := by
    rw [ciphertext, length_tagged]
    exact Nat.add_le_add_right h 32
  refine ⟨⟨t.ciphertext P key, hfits⟩, ⟨plain, hlen⟩, ?_, rfl⟩
  rw [CessInnerEtM64Cipher.decrypt_eq]
  refine etmDecrypt_eq_ok.mpr ?_
  change t.ciphertext P key = tagged _ (ctrXor _ _ _ plain)
  rw [hplain, ctrXor_ctrXor (by decide)]
  rfl

/-- Nothing but the length of the body is checked. -/
theorem accepted_iff : t.Accepted P c key ↔ t.body.length ≤ maxPlaintext := by
  constructor
  · rintro (⟨pt, ct, henc, hct⟩ | ⟨ct, pt, hdec, hct⟩)
    · rw [CessInnerEtM64Cipher.encrypt_eq, etmEncrypt_eq_ok] at henc
      have hlen := congrArg List.length (henc.2.symm.trans hct)
      rw [ciphertext, length_tagged, length_tagged, length_ctrXor (by decide)] at hlen
      omega
    · rw [CessInnerEtM64Cipher.decrypt_eq, etmDecrypt_eq_ok] at hdec
      have hlen := congrArg List.length (hdec.symm.trans hct)
      rw [ciphertext, length_tagged, length_tagged, length_ctrXor (by decide)] at hlen
      have hpt : pt.toBytes.length ≤ maxPlaintext := pt.length_le
      omega
  · exact fun h ↦ .inr (decrypt_of_length_le h)

/-! ## Equal inputs -/

/-- With equally long associated data the parts are found again. -/
theorem eq_of_aad (h : t.macInput = t'.macInput) (haad : t.aad.length = t'.aad.length) : t = t' := by
  rw [macInput, macInput, List.append_assoc, List.append_assoc] at h
  obtain ⟨ha, h⟩ := List.append_inj h haad
  obtain ⟨hn, hb⟩ := List.append_inj h (t.nonce.length_toBytes.trans t'.nonce.length_toBytes.symm)
  exact EtmTriple.ext ha (Block.ext hn) hb

/-- And so they are with equally long bodies. -/
theorem eq_of_body (h : t.macInput = t'.macInput) (hbody : t.body.length = t'.body.length) : t = t' := by
  refine eq_of_aad h ?_
  have hlen := congrArg List.length h
  have hn := t.nonce.length_toBytes
  have hn' := t'.nonce.length_toBytes
  rw [macInput, macInput, List.length_append, List.length_append, List.length_append,
    List.length_append, hn, hn'] at hlen
  omega

/-- The tag of one triple opens every other with the same bytes. -/
theorem decrypt_of_macInput_eq (h : t.macInput = t'.macInput) (ht' : t'.body.length ≤ maxPlaintext) :
    ∃ ct pt, c.decrypt P key t'.nonce t'.aad ct = .ok pt ∧
      ct.toBytes = t'.body ++ (computeTag P key.macKey t.aad t.nonce t.body).toBytes := by
  obtain ⟨ct, pt, hdec, hct⟩ : ∃ ct pt, c.decrypt P key t'.nonce t'.aad ct = .ok pt ∧
      ct.toBytes = t'.ciphertext P key := decrypt_of_length_le ht'
  refine ⟨ct, pt, hdec, ?_⟩
  rw [hct, computeTag_eq, h, ← computeTag_eq]
  rfl

variable (P c key)

/-- **What the bytes fed to the HMAC determine.** Among the triples that are accepted under some key
and whose associated data have one length they determine the triple, and so they do among those
whose bodies have one length. -/
theorem macInput_injOn (n : ℕ) :
    Set.InjOn macInput {t | (∃ key, t.Accepted P c key) ∧ t.aad.length = n} ∧
      Set.InjOn macInput {t | (∃ key, t.Accepted P c key) ∧ t.body.length = n} :=
  ⟨fun _ ht _ ht' h ↦ eq_of_aad h (ht.2.trans ht'.2.symm),
    fun _ ht _ ht' h ↦ eq_of_body h (ht.2.trans ht'.2.symm)⟩

/-- A byte moves from the associated data through the nonce into the body. -/
theorem not_injOn_macInput : ¬ Set.InjOn macInput {t | t.Accepted P c key} := by
  intro h
  have haad : EtmTriple.Accepted P c key ⟨[0], .zero 16, []⟩ := accepted_iff.mpr (by decide)
  have hbody : EtmTriple.Accepted P c key ⟨[], .zero 16, [0]⟩ := accepted_iff.mpr (by decide)
  have heq := congrArg EtmTriple.aad (h haad hbody rfl)
  cases heq

end Accepted

/-- For each of the three ciphers and every key. -/
theorem macInput_ambiguous : ¬ ∀ (P : Primitives) (c : CessInnerEtM64Cipher) (key : EtmKey),
    Set.InjOn macInput {t | t.Accepted P c key} :=
  fun h ↦ not_injOn_macInput benchPrimitives .twofish256 ⟨.zero 32, .zero 32⟩ (h _ _ _)

end EtmTriple

end Galdralag.Cipher
