import Galdralag.Host.CipherEnvelope

/-!
# What an inner blob holds

A sealed blob opens again, except under the name of the retired profile: sealing does not look at
the name, opening refuses it.

In the other direction, a blob that opens is the encoding of what was read from it, but for bytes
that nobody reads. They may stand behind the blob, and they may stand inside the length that is
announced for the cascade, behind the body of the cascade.
-/

set_option linter.all false

namespace Galdralag.Host

open Cipher hiding CipherProfile ShamirConfig

/-! ## Encodings -/

/-- The bytes of a cascade. -/
def cascadeBlob (ct : CascadeCiphertext) : Bytes :=
  UInt8.ofNat (utf8 ct.profileName).length :: utf8 ct.profileName ++
    u32be (.ofNat ct.ciphertext.length) ++ ct.ciphertext.toBytes

namespace InnerBlob

/-- The bytes of a blob behind the version, with `extra` behind the body of its cascade. -/
def fields (blob : InnerBlob) (extra : Bytes) : Bytes :=
  u64be blob.tsUnix ++ UInt8.ofNat (utf8 blob.senderFp).length :: utf8 blob.senderFp ++
    blob.prk.toBytes ++ u32be (.ofNat (cascadeBlob blob.cascade ++ extra).length) ++
    (cascadeBlob blob.cascade ++ extra)

/-- The bytes of a blob with `extra` behind the body of its cascade. -/
def padded (blob : InnerBlob) (extra : Bytes) : Bytes := magic ++ version :: blob.fields extra

/-- The encoding of a blob. -/
def encode (blob : InnerBlob) : Bytes := blob.padded []

/-- Every length fits the field that it is written to. -/
structure Fits (blob : InnerBlob) (extra : Bytes) : Prop where
  senderFp : (utf8 blob.senderFp).length ≤ 255
  profileName : (utf8 blob.cascade.profileName).length ≤ 64
  cascade : (cascadeBlob blob.cascade ++ extra).length < 2 ^ 32

end InnerBlob

/-! ## What the readers accept -/

/-- A number below 256 is the byte that it is written as. -/
theorem toNat_ofNat_byte {n : ℕ} (h : n < 256) : (UInt8.ofNat n).toNat = n := by
  rw [UInt8.toNat_ofNat', Nat.mod_eq_of_lt h]

theorem beNat_u32be_ofNat {n : ℕ} (h : n < 2 ^ 32) : beNat (u32be (.ofNat n)) = n := by
  rw [beNat_u32be, UInt32.toNat_ofNat', Nat.mod_eq_of_lt h]

/-- Four bytes are the word that they write. -/
theorem u32be_beNat {bs : Bytes} (h : bs.length = 4) : u32be (.ofNat (beNat bs)) = bs := by
  obtain ⟨v, rfl⟩ := exhausts_u32be bs h
  rw [beNat_u32be, UInt32.ofNat_toNat]

/-- Eight bytes are the word that they write. -/
theorem u64be_beNat {bs : Bytes} (h : bs.length = 8) : u64be (.ofNat (beNat bs)) = bs := by
  obtain ⟨v, rfl⟩ := exhausts_u64be bs h
  rw [beNat_u64be, UInt64.ofNat_toNat]

theorem beNat_lt {bs : Bytes} (h : bs.length = 4) : beNat bs < 2 ^ 32 := by
  obtain ⟨v, rfl⟩ := exhausts_u32be bs h
  rw [beNat_u32be]
  exact v.toNat_lt

/-- What is written is the encoding. -/
theorem serializeCascadeCt_eq_ok {ct : CascadeCiphertext} {raw : Bytes} :
    serializeCascadeCt ct = .ok raw ↔ (utf8 ct.profileName).length ≤ 64 ∧ raw = cascadeBlob ct := by
  rw [serializeCascadeCt, ensure_bind_eq_ok, ensure_bind_eq_ok]
  constructor
  · rintro ⟨hname, -, h⟩
    exact ⟨hname, (Except.ok.inj h).symm⟩
  · rintro ⟨hname, rfl⟩
    exact ⟨hname, ct.ciphertext.length_le, rfl⟩

/-- A cascade is read off the front, and what stands behind its body is passed over. -/
theorem deserializeCascadeCt_eq_ok {raw : Bytes} {ct : CascadeCiphertext} :
    deserializeCascadeCt raw = .ok ct ↔
      (utf8 ct.profileName).length ≤ 64 ∧ cascadeBlob ct <+: raw := by
  constructor
  · intro h
    rcases raw with _ | ⟨nl, data⟩
    · cases h
    rw [deserializeCascadeCt] at h
    obtain ⟨hlen, h⟩ := ensure_bind_eq_ok.mp h
    obtain ⟨name, hname, h⟩ := except_bind_eq_ok.mp h
    dsimp only at h
    obtain ⟨hfour, h⟩ := ensure_bind_eq_ok.mp h
    obtain ⟨hbody, h⟩ := ensure_bind_eq_ok.mp h
    obtain ⟨hshort, h⟩ := ensure_bind_eq_ok.mp h
    obtain ⟨body, hpush, h⟩ := except_bind_eq_ok.mp h
    obtain rfl := Except.ok.inj h
    -- the checks say how long the parts are, and put together the parts are the bytes
    have hutf8 : utf8 name = data.take nl.toNat := utf8_of_fromUtf8 (okOr_eq_ok.mp hname)
    have hnl : (utf8 name).length = nl.toNat := by
      rw [hutf8, List.length_take_of_le (by omega)]
    have hwidth : ((data.drop nl.toNat).take 4).length = 4 := List.length_take_of_le hfour
    have hbytes := pushAll_eq_ok.mp hpush
    have hcl : body.length = beNat ((data.drop nl.toNat).take 4) := by
      rw [Vec.length, ← hbytes, List.length_take_of_le hbody]
    refine ⟨hshort, ((data.drop nl.toNat).drop 4).drop (beNat ((data.drop nl.toNat).take 4)), ?_⟩
    dsimp only [cascadeBlob]
    rw [hnl, UInt8.ofNat_toNat, hutf8, hcl, u32be_beNat hwidth, ← hbytes, List.cons_append,
      List.cons_append, List.cons_append, List.append_assoc, List.append_assoc,
      List.take_append_drop, List.take_append_drop, List.take_append_drop]
  · rintro ⟨hname, extra, rfl⟩
    -- each length is short enough for its field, so it is read back
    have hnl := toNat_ofNat_byte (Nat.lt_of_le_of_lt hname (by decide))
    have hmax : maxCt < 2 ^ 32 := by decide
    have hcl := beNat_u32be_ofNat (Nat.lt_of_le_of_lt ct.ciphertext.length_le hmax)
    rw [cascadeBlob, List.cons_append, List.cons_append, List.cons_append, List.append_assoc,
      List.append_assoc, deserializeCascadeCt, hnl, List.take_left, List.drop_left, fromUtf8_utf8]
    refine ensure_bind_eq_ok.mpr ⟨?_, except_bind_eq_ok.mpr ⟨ct.profileName, rfl, ?_⟩⟩
    · rw [List.length_append, List.length_append, length_u32be]
      omega
    · dsimp only
      have hbody : (ct.ciphertext.toBytes ++ extra).take ct.ciphertext.length =
          ct.ciphertext.toBytes := List.take_left
      rw [List.take_left' (length_u32be _), List.drop_left' (length_u32be _), hcl, hbody,
        pushAll_of_le ct.ciphertext.length_le]
      refine ensure_bind_eq_ok.mpr ⟨?_, ensure_bind_eq_ok.mpr ⟨?_,
        ensure_bind_eq_ok.mpr ⟨hname, rfl⟩⟩⟩
      · rw [List.length_append, length_u32be]
        omega
      · rw [List.length_append]
        exact Nat.le_add_right _ _

/-- What a blob is read from: its fields, and bytes behind its cascade. -/
theorem describes_readInnerBlob : readInnerBlob.Describes fun used blob ↦
    ∃ extra, blob.Fits extra ∧ used = blob.fields extra := by
  refine ((Decoder.describes_take 8 _).bind fun ts ↦ (Decoder.describes_byte _).bind fun fpl ↦
    (Decoder.describes_take _ _).bind fun fp ↦ (Decoder.describes_lift _).bind fun senderFp ↦
    (Decoder.describes_take 32 _).bind fun prk ↦ (Decoder.describes_take 4 _).bind fun cbl ↦
    (Decoder.describes_take _ _).bind fun raw ↦ (Decoder.describes_lift _).bind fun cascade ↦
    Decoder.describes_pure _).congr fun used blob ↦ ?_
  constructor
  · rintro ⟨_, _, ts, rfl, ⟨rfl, hts⟩, _, _, fpl, rfl, rfl, _, _, fp, rfl, ⟨rfl, hfp⟩, _, _,
      senderFp, rfl, ⟨rfl, hsender⟩, _, _, prk, rfl, ⟨rfl, hprk⟩, _, _, cbl, rfl, ⟨rfl, hcbl⟩, _, _,
      raw, rfl, ⟨rfl, hraw⟩, _, _, cascade, rfl, ⟨rfl, hcascade⟩, rfl, rfl⟩
    obtain ⟨hname, extra, rfl⟩ := deserializeCascadeCt_eq_ok.mp hcascade
    obtain rfl := utf8_of_fromUtf8 (okOr_eq_ok.mp hsender)
    have hfpl := fpl.toNat_lt
    refine ⟨extra, ⟨?_, hname, ?_⟩, ?_⟩
    · dsimp only
      omega
    · dsimp only
      rw [hraw]
      exact beNat_lt hcbl
    · dsimp only [InnerBlob.fields]
      rw [u64be_beNat hts, hfp, UInt8.ofNat_toNat, Block.toBytes_ofBytes hprk, hraw,
        u32be_beNat hcbl, List.nil_append, List.nil_append, List.append_nil]
      simp only [List.append_assoc, List.cons_append, List.nil_append]
  · rintro ⟨extra, hfits, rfl⟩
    have hfpl := toNat_ofNat_byte (Nat.lt_of_le_of_lt hfits.senderFp (by decide))
    have hcbl := beNat_u32be_ofNat hfits.cascade
    have hcascade := deserializeCascadeCt_eq_ok.mpr
      ⟨hfits.profileName, List.prefix_append (cascadeBlob blob.cascade) extra⟩
    refine ⟨_, _, _, ?_, ⟨rfl, length_u64be blob.tsUnix⟩, _, _, _, rfl, rfl, _, _, _, rfl,
      ⟨rfl, hfpl.symm⟩, _, _, _, rfl, ⟨rfl, okOr_eq_ok.mpr (fromUtf8_utf8 _)⟩, _, _, _, rfl,
      ⟨rfl, blob.prk.length_toBytes⟩, _, _, _, rfl, ⟨rfl, length_u32be _⟩, _, _, _, rfl,
      ⟨rfl, hcbl.symm⟩, _, _, _, rfl, ⟨rfl, hcascade⟩, rfl, ?_⟩
    · rw [InnerBlob.fields]
      simp only [List.append_assoc, List.cons_append, List.nil_append, List.append_nil]
    · rw [beNat_u64be, UInt64.ofNat_toNat, Block.ofBytes_toBytes]

theorem describes_readVersioned : readVersioned.Describes fun used blob ↦
    ∃ extra, blob.Fits extra ∧ used = version :: blob.fields extra := by
  refine ((Decoder.describes_byte _).bind fun ver ↦ (Decoder.describes_lift _).bind fun _ ↦
    describes_readInnerBlob).congr fun used blob ↦ ?_
  constructor
  · rintro ⟨_, _, ver, rfl, rfl, _, _, _, rfl, ⟨rfl, hver⟩, extra, hfits, rfl⟩
    obtain rfl := ensure_eq_ok.mp hver
    exact ⟨extra, hfits, rfl⟩
  · rintro ⟨extra, hfits, rfl⟩
    exact ⟨[version], _, version, rfl, rfl, [], _, (), rfl, ⟨rfl, ensure_eq_ok.mpr rfl⟩, extra,
      hfits, rfl⟩

/-! ## What is accounted for -/

/-- The bytes are the encoding of the fields and the cascade that are read from them. -/
def Accounted (inner : Bytes) : Prop := ∃ blob rest,
  readVersioned (inner.drop magic.length) = .ok (blob, rest) ∧ inner = blob.encode

/-- Bytes stand behind the body of the cascade, inside its length, or behind the blob. -/
def Padded (inner : Bytes) : Prop := ∃ (blob : InnerBlob) (extra rest : Bytes),
  blob.Fits extra ∧ inner = blob.padded extra ++ rest ∧ ¬ (extra = [] ∧ rest = [])

/-- A padded blob is read as the blob. -/
theorem read_padded {blob : InnerBlob} {extra : Bytes} (h : blob.Fits extra) (rest : Bytes) :
    readVersioned ((blob.padded extra ++ rest).drop magic.length) = .ok (blob, rest) := by
  rw [InnerBlob.padded, List.append_assoc, List.drop_left]
  exact (describes_readVersioned _ _ _).mpr ⟨_, rfl, extra, h, rfl⟩

/-- As many bytes are behind the version as the lengths say. -/
theorem length_padded (blob : InnerBlob) (extra : Bytes) :
    (blob.padded extra).length = blob.encode.length + extra.length := by
  simp only [InnerBlob.encode, InnerBlob.padded, InnerBlob.fields, List.length_append,
    List.length_cons, length_u64be, length_u32be, Block.length_toBytes, List.length_nil]
  omega

/-- What is read from the bytes accounts for all of them exactly when there are no bytes that
nobody reads. -/
theorem accounted_iff {blob : InnerBlob} {extra rest : Bytes} (h : blob.Fits extra) :
    Accounted (blob.padded extra ++ rest) ↔ extra = [] ∧ rest = [] := by
  constructor
  · rintro ⟨blob', rest', hread, heq⟩
    rw [read_padded h] at hread
    obtain ⟨rfl, rfl⟩ := Prod.mk.inj (Except.ok.inj hread)
    have hlen := congrArg List.length heq
    rw [List.length_append, length_padded] at hlen
    exact ⟨List.length_eq_zero_iff.mp (by omega), List.length_eq_zero_iff.mp (by omega)⟩
  · rintro ⟨rfl, rfl⟩
    exact ⟨blob, [], read_padded h [], List.append_nil _⟩

section Open

variable {P : Primitives} {getProfile : String → Option Cipher.CipherProfile} {inner : Bytes}
  {opened : Bytes × String}

/-- **What opens.** A blob with whatever padding opens as the blob does. -/
theorem openPlaintextAfterOpenpgp_eq_ok :
    openPlaintextAfterOpenpgp P inner getProfile = .ok opened ↔ ∃ blob extra rest,
      blob.Fits extra ∧ inner = blob.padded extra ++ rest ∧
      openInnerBlob P getProfile blob = .ok opened := by
  rw [openPlaintextAfterOpenpgp, ensure_bind_eq_ok, isCipherProfileEnvelope_iff]
  constructor
  · rintro ⟨⟨tail, rfl⟩, h⟩
    obtain ⟨⟨blob, rest⟩, hread, hopen⟩ := except_bind_eq_ok.mp h
    rw [List.drop_left] at hread
    obtain ⟨_, rfl, extra, hfits, rfl⟩ := (describes_readVersioned _ _ _).mp hread
    exact ⟨blob, extra, rest, hfits, (List.append_assoc _ _ _).symm, hopen⟩
  · rintro ⟨blob, extra, rest, hfits, rfl, hopen⟩
    refine ⟨⟨_, (List.append_assoc _ _ _).symm⟩, ?_⟩
    rw [read_padded hfits, ok_bind]
    exact hopen

/-- Every byte of an accepted blob is accounted for exactly when the blob is not padded. -/
theorem accounted_iff_not_padded (h : openPlaintextAfterOpenpgp P inner getProfile = .ok opened) :
    Accounted inner ↔ ¬ Padded inner := by
  obtain ⟨blob, extra, rest, hfits, rfl, -⟩ := openPlaintextAfterOpenpgp_eq_ok.mp h
  constructor
  · rintro haccounted ⟨blob', extra', rest', hfits', heq, hne⟩
    rw [heq] at haccounted
    exact hne ((accounted_iff hfits').mp haccounted)
  · intro hpadded
    refine (accounted_iff hfits).mpr (not_not.mp fun hne ↦ ?_)
    exact hpadded ⟨blob, extra, rest, hfits, rfl, hne⟩

/-- Behind a blob that opens, bytes may be added. -/
theorem open_append (h : openPlaintextAfterOpenpgp P inner getProfile = .ok opened) (more : Bytes) :
    openPlaintextAfterOpenpgp P (inner ++ more) getProfile = .ok opened := by
  obtain ⟨blob, extra, rest, hfits, rfl, hopen⟩ := openPlaintextAfterOpenpgp_eq_ok.mp h
  exact openPlaintextAfterOpenpgp_eq_ok.mpr
    ⟨blob, extra, rest ++ more, hfits, List.append_assoc _ _ _, hopen⟩

/-- They are not accounted for. -/
theorem not_accounted_append (h : openPlaintextAfterOpenpgp P inner getProfile = .ok opened)
    {more : Bytes} (hmore : more ≠ []) : ¬ Accounted (inner ++ more) := by
  obtain ⟨blob, extra, rest, hfits, rfl, -⟩ := openPlaintextAfterOpenpgp_eq_ok.mp h
  rw [List.append_assoc, accounted_iff hfits]
  rintro ⟨-, hnil⟩
  exact hmore (List.append_eq_nil_iff.mp hnil).2

end Open

/-! ## The codec -/

/-- A blob that was sealed opens, where its profile is known. -/
def OpensSealed (P : Primitives) : Prop := ∀ tsUnix prk profile plaintext fp inner getProfile,
  sealPlaintextWithProfile P tsUnix prk profile plaintext fp = .ok inner →
  getProfile profile.name = some profile →
  openPlaintextAfterOpenpgp P inner getProfile = .ok (plaintext, profile.name)

/-- Every byte of what opens is accounted for. -/
def AccountsForAll (P : Primitives) : Prop := ∀ inner getProfile opened,
  openPlaintextAfterOpenpgp P inner getProfile = .ok opened → Accounted inner

section Codec

variable {P : Primitives}

/-- A blob that names the retired profile is refused. -/
theorem openInnerBlob_retired {blob : InnerBlob}
    (h : blob.cascade.profileName = profileNameHighAssurance)
    (getProfile : String → Option Cipher.CipherProfile) :
    openInnerBlob P getProfile blob =
      .error (.removedLegacyCrypto msgCiphertextHighAssurance) := by
  have hcheck : ensure (blob.cascade.profileName ≠ profileNameHighAssurance)
      (GaldraError.removedLegacyCrypto msgCiphertextHighAssurance) =
        .error (.removedLegacyCrypto msgCiphertextHighAssurance) := if_neg (not_not.mpr h)
  rw [openInnerBlob, hcheck, error_bind]

/-- What was sealed under the name of the retired profile does not open. -/
theorem retired_not_opened {tsUnix : UInt64} {prk : Block 32} {profile : Cipher.CipherProfile}
    {plaintext inner : Bytes} {fp : String}
    (h : sealPlaintextWithProfile P tsUnix prk profile plaintext fp = .ok inner)
    (hname : profile.name = profileNameHighAssurance)
    (getProfile : String → Option Cipher.CipherProfile) (opened : Bytes × String) :
    openPlaintextAfterOpenpgp P inner getProfile ≠ .ok opened := by
  obtain ⟨ct, raw, hfp, hct, hraw, rfl⟩ := sealPlaintext_eq_ok.mp h
  have hctname := (cascadeEncrypt_eq_ok.mp hct).2.2.2
  rw [openPlaintextAfterOpenpgp, List.drop_left, readVersioned_append hfp hraw, ok_bind]
  intro hopen
  rw [openInnerBlob_retired (hctname.trans hname)] at hopen
  cases (ensure_bind_eq_ok.mp hopen).2

/-- **The codec.** What was sealed opens to what was sealed exactly when the profile does not have
the name of the retired one. Of what opens, every byte is accounted for exactly when it is not
padded. -/
theorem codec_iff (hP : AeadRecovers P) :
    (∀ tsUnix prk profile plaintext fp inner getProfile,
      sealPlaintextWithProfile P tsUnix prk profile plaintext fp = .ok inner →
      getProfile profile.name = some profile →
      (openPlaintextAfterOpenpgp P inner getProfile = .ok (plaintext, profile.name) ↔
        profile.name ≠ profileNameHighAssurance)) ∧
    ∀ inner getProfile opened, openPlaintextAfterOpenpgp P inner getProfile = .ok opened →
      (Accounted inner ↔ ¬ Padded inner) := by
  constructor
  · intro tsUnix prk profile plaintext fp inner getProfile hseal hprofile
    constructor
    · exact fun hopen hname ↦ retired_not_opened hseal hname getProfile _ hopen
    · exact fun hname ↦ open_sealed hP hprofile hname hseal
  · exact fun inner getProfile opened hopen ↦ accounted_iff_not_padded hopen

end Codec

theorem codec_iff_bench :
    (∀ tsUnix prk profile plaintext fp inner getProfile,
      sealPlaintextWithProfile benchPrimitives tsUnix prk profile plaintext fp = .ok inner →
      getProfile profile.name = some profile →
      (openPlaintextAfterOpenpgp benchPrimitives inner getProfile = .ok (plaintext, profile.name) ↔
        profile.name ≠ profileNameHighAssurance)) ∧
    ∀ inner getProfile opened,
      openPlaintextAfterOpenpgp benchPrimitives inner getProfile = .ok opened →
      (Accounted inner ↔ ¬ Padded inner) := codec_iff benchPrimitives_recovers

/-! ## Blobs that the codec gets wrong -/

/-- An empty message is sealed under every profile whose layers take it. -/
theorem exists_sealed_under {P : Primitives} (hP : AeadLaws P) {profile : Cipher.CipherProfile}
    (haccept : LayersAccept profile 0 profile.layers 0) :
    ∃ inner, sealPlaintextWithProfile P 0 (.zero 32) profile [] "" = .ok inner := by
  have hname := name_length_le profile
  have haad : (buildCipherAad profile.name "" 0).length ≤ maxAad := by
    have hmax : maxName + 10 ≤ maxAad := by decide
    have hbar : (utf8 "|").length = 1 := rfl
    have hempty : (utf8 "").length = 0 := rfl
    simp only [buildCipherAad, List.length_append, length_u64be, length_utf8 profile.name]
    omega
  have hikm : suiteIdForProfileName profile.name ≠ none ∨ (Block.zero 32).toBytes.length = 32 :=
    .inr rfl
  have hshort : ([] : Bytes).length ≤ maxCascadePlaintext := Nat.zero_le _
  obtain ⟨ct, hct⟩ := (cascadeEncrypt_isOk_iff hP haad hikm hshort).mpr haccept
  have hctname := (cascadeEncrypt_eq_ok.mp hct).2.2.2
  have hfits : (utf8 ct.profileName).length ≤ 64 := by
    rw [hctname]
    exact Nat.le_trans hname (by decide)
  have hraw := serializeCascadeCt_eq_ok.mpr ⟨hfits, rfl⟩
  exact ⟨_, sealPlaintext_eq_ok.mpr ⟨ct, cascadeBlob ct, by decide, hct, hraw, rfl⟩⟩

/-- A profile with the name of the retired one. -/
def retiredName : Cipher.CipherProfile :=
  { builtinStandard with
    name := profileNameHighAssurance
    name_valid := by decide }

/-- Whatever the ciphers are, neither half holds: what was sealed under the name of the retired
profile does not open, and a blob with a byte behind it does. -/
theorem codec_fails : ¬ ∃ P, AeadLaws P ∧ AeadRecovers P ∧ (OpensSealed P ∨ AccountsForAll P) := by
  have hretired : LayersAccept retiredName 0 retiredName.layers 0 := by decide
  have hstandard : LayersAccept builtinStandard 0 builtinStandard.layers 0 := by decide
  have hknown : standardOnly builtinStandard.name = some builtinStandard := rfl
  have hname : builtinStandard.name ≠ profileNameHighAssurance := by decide
  have hone : ([0] : Bytes) ≠ [] := List.cons_ne_nil 0 []
  rintro ⟨P, hP, hrecovers, hopens | haccounts⟩
  · obtain ⟨inner, hinner⟩ := exists_sealed_under hP hretired
    have hopen := hopens _ _ _ _ _ _ (fun _ ↦ some retiredName) hinner rfl
    exact retired_not_opened hinner rfl _ _ hopen
  · obtain ⟨inner, hinner⟩ := exists_sealed_under hP hstandard
    have hopen := open_sealed hrecovers hknown hname hinner
    exact not_accounted_append hopen hone (haccounts _ _ _ (open_append hopen [0]))

end Galdralag.Host
