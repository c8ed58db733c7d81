import Galdralag.Cipher.Labels
import Mathlib.Data.List.Nodup

/-!
# Labels are told apart

A label is put together from parts: the name of a profile or the identifier of a suite, the cipher,
the index of the layer, and what is derived. The identifier has four digits. The other parts have no
fixed length, but each ends at a separator that does not occur in it, so that the parts are found
again in the label. Two different requests for a key or a nonce never share one.
-/

set_option linter.all false

namespace Galdralag.Cipher

/-! ## Cutting at a separator -/

/-- The parts before the first separators agree, and so do the parts behind them. -/
theorem cut_at_separator {α : Type*} {sep : α} {a b x y : List α} (ha : sep ∉ a) (hb : sep ∉ b)
    (h : a ++ sep :: x = b ++ sep :: y) : a = b ∧ x = y := by
  induction a generalizing b with
  | nil =>
    rcases b with _ | ⟨c, b⟩
    · exact ⟨rfl, (List.cons.inj h).2⟩
    · exact absurd ((List.cons.inj h).1 ▸ List.mem_cons_self) hb
  | cons c a ih =>
    rcases b with _ | ⟨d, b⟩
    · exact absurd ((List.cons.inj h).1 ▸ List.mem_cons_self) ha
    · obtain ⟨rfl, hrest⟩ := List.cons.inj h
      obtain ⟨rfl, rfl⟩ := ih (List.not_mem_of_not_mem_cons ha) (List.not_mem_of_not_mem_cons hb) hrest
      exact ⟨rfl, rfl⟩

/-! ## Digits -/

/-- The index that decimal digits denote. -/
def undecimal (digits : Bytes) : UInt8 := digits.foldl (fun i d ↦ 10 * i + (d - 48)) 0

theorem decimal_spec (i : UInt8) : undecimal (decimal i) = i ∧ ∀ d ∈ decimal i, 48 ≤ d := by
  have hall : (List.range 256).all (fun n ↦ undecimal (decimal (.ofNat n)) == .ofNat n &&
      (decimal (.ofNat n)).all fun d ↦ decide (48 ≤ d)) = true := by decide +kernel
  have hi := List.all_eq_true.mp hall i.toNat (List.mem_range.mpr i.toNat_lt)
  rw [UInt8.ofNat_toNat, Bool.and_eq_true, beq_iff_eq, List.all_eq_true] at hi
  exact ⟨hi.1, fun d hd ↦ of_decide_eq_true (hi.2 d hd)⟩

theorem decimal_injective : Function.Injective decimal := by
  intro i j h
  rw [← (decimal_spec i).1, h, (decimal_spec j).1]

theorem notMem_decimal {sep : UInt8} (hsep : sep < 48) (i : UInt8) : sep ∉ decimal i :=
  fun h ↦ absurd ((decimal_spec i).2 sep h) (UInt8.not_le.mpr hsep)

/-- A digit in hexadecimal denotes one number. -/
theorem hexDigit_inj {a b : UInt16} (ha : a < 16) (hb : b < 16) (h : hexDigit a = hexDigit b) :
    a = b := by
  have hall : ((List.range 16).map fun n ↦ hexDigit (.ofNat n)).Nodup := by decide
  have hat : ∀ v : UInt16, v < 16 → v.toNat ∈ List.range 16 := fun v hv ↦
    List.mem_range.mpr (UInt16.lt_iff_toNat_lt.mp hv)
  have hab := List.inj_on_of_nodup_map hall (hat a ha) (hat b hb)
  rw [UInt16.ofNat_toNat, UInt16.ofNat_toNat] at hab
  exact UInt16.toNat_inj.mp (hab h)

theorem nibble_lt (v : UInt16) : v &&& 0xf < 16 := by
  rw [UInt16.lt_iff_toNat_lt, UInt16.toNat_and]
  exact Nat.lt_succ_of_le Nat.and_le_right

/-- The four digits denote one identifier. -/
theorem hexU16_injective : Function.Injective hexU16 := by
  intro v w h
  simp only [hexU16, List.cons.injEq, and_true] at h
  obtain ⟨h3, h2, h1, h0⟩ := h
  have e3 := congrArg UInt16.toNat (hexDigit_inj (nibble_lt _) (nibble_lt _) h3)
  have e2 := congrArg UInt16.toNat (hexDigit_inj (nibble_lt _) (nibble_lt _) h2)
  have e1 := congrArg UInt16.toNat (hexDigit_inj (nibble_lt _) (nibble_lt _) h1)
  have e0 := congrArg UInt16.toNat (hexDigit_inj (nibble_lt _) (nibble_lt _) h0)
  have hmask : ∀ n : ℕ, n &&& 15 = n % 16 := fun n ↦ Nat.and_two_pow_sub_one_eq_mod n 4
  have hv := v.toNat_lt
  have hw := w.toNat_lt
  simp [hmask, Nat.shiftRight_eq_div_pow] at e3 e2 e1 e0
  apply UInt16.toNat_inj.mp
  omega

/-! ## Labels of custom profiles -/

/-- A character of a name is below the range of two bytes, and is no slash. -/
theorem code_of_nameChar {c : Char} (h : (c.isAlphanum || c == '-') = true) :
    c.val.toNat ≤ 122 ∧ c.val.toNat ≠ 47 := by
  have hranges : (((decide (65 ≤ c.val ∧ c.val ≤ 90) || (97 ≤ c.val && c.val ≤ 122))
      || (48 ≤ c.val && c.val ≤ 57)) || c == '-') = true := h
  simp only [Bool.or_eq_true, Bool.and_eq_true, decide_eq_true_eq, UInt32.le_iff_toNat_le,
    beq_iff_eq] at hranges
  rcases hranges with ((⟨hlo, hhi⟩ | ⟨hlo, hhi⟩) | ⟨hlo, hhi⟩) | rfl
  · change 65 ≤ _ at hlo
    change _ ≤ 90 at hhi
    omega
  · change 97 ≤ _ at hlo
    change _ ≤ 122 at hhi
    omega
  · change 48 ≤ _ at hlo
    change _ ≤ 57 at hhi
    omega
  · decide

/-- A valid name holds no slash. -/
theorem slash_notMem_name {name : String} (h : validateProfileName name = .ok ()) : 47 ∉ utf8 name := by
  simp only [validateProfileName, ensure_bind_eq_ok, ensure_eq_ok] at h
  rw [utf8_eq_flatMap, List.mem_flatMap]
  rintro ⟨c, hc, hslash⟩
  have hchar := List.all_eq_true.mp h.2.2 c hc
  obtain ⟨hle, hne⟩ := code_of_nameChar hchar
  -- so the character is a single byte
  have hsize : c.utf8Size = 1 := by
    rw [Char.utf8Size, if_pos]
    exact UInt32.le_iff_toNat_le.mpr (Nat.le_trans hle (by decide))
  rw [String.utf8EncodeChar_eq_singleton hsize, List.mem_singleton] at hslash
  have hcode := congrArg UInt8.toNat hslash
  rw [UInt32.toNat_toUInt8] at hcode
  change 47 = c.val.toNat % 256 at hcode
  omega

theorem slash_notMem_domainFragment (c : CipherLayer) : 47 ∉ utf8 c.domainFragment := by
  cases c <;> decide

theorem domainFragment_inj {c c' : CipherLayer} (h : utf8 c.domainFragment = utf8 c'.domainFragment) :
    c = c' := by
  revert h
  cases c <;> cases c' <;> decide

/-- What is derived for a layer. -/
inductive LayerPurpose where
  | key
  | nonce
  deriving DecidableEq

/-- A request for the key or the nonce of a layer. -/
@[ext]
structure LayerLabel where
  profileName : String
  cipher : CipherLayer
  layerIndex : UInt8
  purpose : LayerPurpose
  name_valid : validateProfileName profileName = .ok ()

namespace LayerLabel

/-- The label of a request. -/
def info (l : LayerLabel) : Except CipherProfileError (Vec 128) :=
  match l.purpose with
  | .key => layerKeyInfo l.profileName l.cipher l.layerIndex
  | .nonce => layerNonceInfo l.profileName l.cipher l.layerIndex

/-- The end of a label, behind its last separator. -/
def ending : LayerPurpose → Bytes
  | .key => utf8 "key/v1"
  | .nonce => utf8 "nonce/v1"

/-- The parts of a label between their separators. -/
def parts (l : LayerLabel) : Bytes :=
  utf8 "galdralag/profile/" ++ (utf8 l.profileName ++ 47 :: (utf8 l.cipher.domainFragment ++ 47 ::
    (utf8 "layer-" ++ (decimal l.layerIndex ++ 47 :: ending l.purpose))))

theorem info_eq (l : LayerLabel) : l.info = pushAll 128 .keyDerivation l.parts := by
  have hslash : utf8 "/" = [47] := by decide
  have hlayer : utf8 "/layer-" = 47 :: utf8 "layer-" := by decide
  have hkey : utf8 "/key/v1" = 47 :: ending .key := by decide
  have hnonce : utf8 "/nonce/v1" = 47 :: ending .nonce := by decide
  obtain ⟨name, cipher, i, purpose, hname⟩ := l
  cases purpose with
  | key =>
    change buildLayerInfo _ _ _ _ = _
    rw [buildLayerInfo, hslash, hlayer, hkey]
    rfl
  | nonce =>
    change buildLayerInfo _ _ _ _ = _
    rw [buildLayerInfo, hslash, hlayer, hnonce]
    rfl

/-- Every label fits its buffer. -/
theorem info_ok (l : LayerLabel) : ∃ info, l.info = .ok info ∧ info.toBytes = l.parts := by
  have hname := l.name_valid
  simp only [validateProfileName, ensure_bind_eq_ok] at hname
  have hsuffix : ∀ s ∈ ["/key/v1", "/nonce/v1"], (utf8 s).length ≤ 9 := by decide
  have hok : ∃ info, l.info = .ok info := by
    rw [info]
    cases l.purpose with
    | key => exact buildLayerInfo_ok hname.2.1 (hsuffix _ List.mem_cons_self) _ _
    | nonce => exact buildLayerInfo_ok hname.2.1 (hsuffix _ (by decide)) _ _
  obtain ⟨info, hinfo⟩ := hok
  refine ⟨info, hinfo, ?_⟩
  rw [info_eq, pushAll_eq_ok] at hinfo
  exact hinfo.symm

theorem ending_inj {p p' : LayerPurpose} (h : ending p = ending p') : p = p' := by
  revert h
  cases p <;> cases p' <;> decide

/-- The parts of a label are found again. -/
theorem parts_injective : Function.Injective parts := by
  intro l l' h
  obtain ⟨hname, h⟩ := cut_at_separator (slash_notMem_name l.name_valid) (slash_notMem_name l'.name_valid)
    (List.append_cancel_left h)
  obtain ⟨hcipher, h⟩ := cut_at_separator (slash_notMem_domainFragment _) (slash_notMem_domainFragment _) h
  obtain ⟨hindex, hpurpose⟩ := cut_at_separator (notMem_decimal (by decide) _)
    (notMem_decimal (by decide) _) (List.append_cancel_left h)
  exact LayerLabel.ext (utf8_injective hname) (domainFragment_inj hcipher) (decimal_injective hindex)
    (ending_inj hpurpose)

theorem info_injective : Function.Injective info := by
  intro l l' h
  obtain ⟨v, hv, hparts⟩ := l.info_ok
  obtain ⟨v', hv', hparts'⟩ := l'.info_ok
  rw [hv, hv'] at h
  rw [Except.ok.inj h, hparts'] at hparts
  exact (parts_injective hparts).symm

end LayerLabel

/-! ## Labels of registered suites -/

/-- What is derived for a layer of a registered suite. -/
inductive CessLayerKind where
  | key
  | nonce
  | etm64 (cipher : CessInnerEtM64Cipher)
  deriving DecidableEq

/-- A request for key material of a registered suite. -/
inductive CessLabel where
  | layer (kind : CessLayerKind) (suiteId : UInt16) (layerIndex : UInt8)
  | integrity (suiteId : UInt16)
  | integrityGap (suiteId : UInt16) (afterLayerIndex : UInt8)

namespace CessLabel

/-- The label of a request. -/
def info : CessLabel → Bytes
  | layer .key suiteId i => cessInnerCascadeLayerKeyInfo suiteId i
  | layer .nonce suiteId i => cessInnerCascadeLayerNonceInfo suiteId i
  | layer (.etm64 cipher) suiteId i => cessInnerCascadeEtm64Info suiteId i cipher
  | integrity suiteId => cessBlake3IntegrityInfo suiteId
  | integrityGap suiteId i => cessBlake3IntegrityGapInfo suiteId i

/-- The end of the label of a layer, behind its last separator. -/
def ending : CessLayerKind → Bytes
  | .key => utf8 "key"
  | .nonce => utf8 "nonce"
  | .etm64 .camellia256 => utf8 "camellia256"
  | .etm64 .serpent256 => utf8 "serpent256"
  | .etm64 .twofish256 => utf8 "twofish256"

theorem ending_inj {k k' : CessLayerKind} (h : ending k = ending k') : k = k' := by
  revert h
  rcases k with _ | _ | (_ | _ | _) <;> rcases k' with _ | _ | (_ | _ | _) <;> decide

theorem info_layer (k : CessLayerKind) (suiteId : UInt16) (i : UInt8) :
    (layer k suiteId i).info = utf8 "cess-inner-" ++ (hexU16 suiteId ++ (utf8 "-l" ++
      (decimal i ++ 45 :: ending k))) := by
  have hinfo : (layer k suiteId i).info = utf8 "cess-inner-" ++ hexU16 suiteId ++ pushLayerIndex i ++
      (45 :: ending k) := by
    rcases k with _ | _ | (_ | _ | _) <;> rfl
  rw [hinfo, pushLayerIndex, List.append_assoc, List.append_assoc, List.append_assoc]

theorem info_integrityGap (suiteId : UInt16) (i : UInt8) :
    (integrityGap suiteId i).info = utf8 "cess-blake3-integrity-" ++ (hexU16 suiteId ++
      (utf8 "-gap-l" ++ decimal i)) := by
  have hgap : utf8 "-gap-l" = utf8 "-gap" ++ utf8 "-l" := by decide
  rw [info, cessBlake3IntegrityGapInfo, pushLayerIndex, hgap, List.append_assoc, List.append_assoc,
    List.append_assoc]

theorem layer_inj {k k' : CessLayerKind} {s s' : UInt16} {i i' : UInt8}
    (h : (layer k s i).info = (layer k' s' i').info) : layer k s i = layer k' s' i' := by
  rw [info_layer, info_layer] at h
  obtain ⟨hsuite, h⟩ := List.append_inj (List.append_cancel_left h) rfl
  obtain ⟨hindex, hkind⟩ := cut_at_separator (notMem_decimal (by decide) _)
    (notMem_decimal (by decide) _) (List.append_cancel_left h)
  rw [hexU16_injective hsuite, decimal_injective hindex, ending_inj hkind]

theorem integrityGap_inj {s s' : UInt16} {i i' : UInt8}
    (h : (integrityGap s i).info = (integrityGap s' i').info) :
    integrityGap s i = integrityGap s' i' := by
  rw [info_integrityGap, info_integrityGap] at h
  obtain ⟨hsuite, h⟩ := List.append_inj (List.append_cancel_left h) rfl
  rw [hexU16_injective hsuite, decimal_injective (List.append_cancel_left h)]

/-- The labels of layers and those between layers begin differently. -/
theorem inner_ne_integrity (x y : Bytes) :
    utf8 "cess-inner-" ++ x ≠ utf8 "cess-blake3-integrity-" ++ y := by
  intro h
  have hinner : 6 ≤ (utf8 "cess-inner-").length := by decide
  have hblake : 6 ≤ (utf8 "cess-blake3-integrity-").length := by decide
  have htake := congrArg (List.take 6) h
  rw [List.take_append_of_le_length hinner, List.take_append_of_le_length hblake] at htake
  revert htake
  decide

/-- The label of a gap is longer than that of a suite. -/
theorem integrity_ne_gap (s s' : UInt16) (i : UInt8) :
    (integrity s).info ≠ (integrityGap s' i).info := by
  intro h
  have hlen := congrArg List.length h
  have hprefix : (utf8 "cess-blake3-integrity-").length = 22 := by decide
  have hgap : (utf8 "-gap-l").length = 6 := by decide
  have hhex : (hexU16 s').length = 4 := rfl
  have hleft : (integrity s).info.length = 26 := length_cessBlake3IntegrityInfo s
  rw [hleft, info_integrityGap, List.length_append, List.length_append, List.length_append, hprefix, hgap,
    hhex] at hlen
  omega

theorem info_injective : Function.Injective info := by
  intro l l' h
  cases l with
  | layer k s i =>
    cases l' with
    | layer k' s' i' => exact layer_inj h
    | integrity s' => exact absurd ((info_layer k s i).symm.trans h) (inner_ne_integrity _ _)
    | integrityGap s' i' =>
      rw [info_layer, info_integrityGap] at h
      exact absurd h (inner_ne_integrity _ _)
  | integrity s =>
    cases l' with
    | layer k' s' i' => exact absurd ((info_layer k' s' i').symm.trans h.symm) (inner_ne_integrity _ _)
    | integrity s' => rw [hexU16_injective (List.append_cancel_left h)]
    | integrityGap s' i' => exact absurd h (integrity_ne_gap s s' i')
  | integrityGap s i =>
    cases l' with
    | layer k' s' i' =>
      rw [info_layer, info_integrityGap] at h
      exact absurd h.symm (inner_ne_integrity _ _)
    | integrity s' => exact absurd h.symm (integrity_ne_gap s' s i)
    | integrityGap s' i' => exact integrityGap_inj h

end CessLabel

/-- **Labels never collide.** Every label of a custom profile fits its buffer, different requests
have different labels, and so have different requests of registered suites. -/
theorem labels_injective :
    (∀ l : LayerLabel, ∃ info, l.info = .ok info) ∧ Function.Injective LayerLabel.info ∧
      Function.Injective CessLabel.info := by
  refine ⟨fun l ↦ ?_, LayerLabel.info_injective, CessLabel.info_injective⟩
  obtain ⟨info, hinfo, -⟩ := l.info_ok
  exact ⟨info, hinfo⟩

end Galdralag.Cipher
