import Galdralag.Foundation.Bytes
import Galdralag.Host.Text

/-!
# Galdralag fingerprints

A fingerprint is `G:` and the forty lower-case digits of a hash. It is shown in groups of four digits
and typed back in by hand, so the parser drops white space and takes either case.

The parser compares the length of the text with that of the prefix and then cuts the prefix off. The
length is in bytes, and the text is one that a user typed: a character may lie across the place.
-/

set_option linter.all false

namespace Galdralag.Host

open Outcome

inductive GaldraFingerprintParseError where
  | invalidFormat
  | invalidHex
  deriving DecidableEq

/-- `PREFIX`. -/
def fpPrefix : List Char := ['G', ':']

/-- `HASH_PREFIX_LEN`. -/
def hashPrefixLen : ℕ := 20

/-- A digit that a canonical fingerprint may hold. -/
def isLowerHexdigit (c : Char) : Bool := isAsciiHexdigit c && c.toLower = c

/-- The prefix, and forty lower-case digits. -/
def Canonical (s : List Char) : Prop :=
  s.take 2 = fpPrefix ∧ (s.drop 2).length = 40 ∧ ∀ c ∈ s.drop 2, isLowerHexdigit c = true

instance (s : List Char) : Decidable (Canonical s) :=
  inferInstanceAs (Decidable (_ ∧ _ ∧ _))

/-- A fingerprint in canonical form. -/
structure GaldraFingerprint where
  canonical : List Char
  valid : Canonical canonical
  deriving DecidableEq

namespace GaldraFingerprint

/-- The digits of a fingerprint. -/
def hexPart (fp : GaldraFingerprint) : List Char := fp.canonical.drop 2

theorem canonical_eq (fp : GaldraFingerprint) : fp.canonical = fpPrefix ++ fp.hexPart := by
  rw [← fp.valid.1, hexPart, List.take_append_drop]

theorem length_hexPart (fp : GaldraFingerprint) : fp.hexPart.length = 40 := fp.valid.2.1

theorem isLowerHexdigit_hexPart (fp : GaldraFingerprint) {c : Char} (hc : c ∈ fp.hexPart) :
    isLowerHexdigit c = true := fp.valid.2.2 c hc

end GaldraFingerprint

/-! ## Digits -/

theorem isAsciiHexdigit_of_lower {c : Char} (h : isLowerHexdigit c = true) :
    isAsciiHexdigit c = true := (Bool.and_eq_true _ _ ▸ h).1

theorem toLower_of_lower {c : Char} (h : isLowerHexdigit c = true) : c.toLower = c :=
  of_decide_eq_true (Bool.and_eq_true _ _ ▸ h).2

theorem isLowerHexdigit_toLower {c : Char} (h : isAsciiHexdigit c = true) :
    isLowerHexdigit c.toLower = true :=
  hexdigit_all (p := fun c ↦ isLowerHexdigit c.toLower = true) (by decide) h

/-- The prefix in front of forty digits makes a fingerprint, once the digits are lower-case. -/
theorem canonical_toLower {hex : List Char} (hlen : hex.length = 40)
    (hhex : ∀ c ∈ hex, isAsciiHexdigit c = true) : Canonical (fpPrefix ++ hex.map Char.toLower) := by
  refine ⟨rfl, ?_, ?_⟩
  · change (hex.map Char.toLower).length = 40
    rw [List.length_map, hlen]
  · change ∀ c ∈ hex.map Char.toLower, isLowerHexdigit c = true
    rintro c hc
    obtain ⟨d, hd, rfl⟩ := List.mem_map.mp hc
    exact isLowerHexdigit_toLower (hhex d hd)

/-- A half byte in hexadecimal. -/
def hexChar (n : ℕ) : Char := if n < 10 then Char.ofNat (48 + n) else Char.ofNat (87 + n)

/-- Bytes in lower-case hexadecimal. -/
def hexEncode (bs : Bytes) : List Char :=
  bs.flatMap fun b ↦ [hexChar (b.toNat / 16), hexChar (b.toNat % 16)]

theorem length_hexEncode (bs : Bytes) : (hexEncode bs).length = 2 * bs.length := by
  induction bs with
  | nil => rfl
  | cons b bs ih =>
    have htwo : [hexChar (b.toNat / 16), hexChar (b.toNat % 16)].length = 2 := rfl
    rw [hexEncode, List.flatMap_cons, List.length_append, ← hexEncode, ih, htwo, List.length_cons]
    omega

theorem isLowerHexdigit_hexEncode {bs : Bytes} {c : Char} (hc : c ∈ hexEncode bs) :
    isLowerHexdigit c = true := by
  have hdigit : ∀ n < 16, isLowerHexdigit (hexChar n) = true := by decide
  obtain ⟨b, -, hb⟩ := List.mem_flatMap.mp hc
  have hlt := b.toNat_lt
  rcases List.mem_cons.mp hb with rfl | hb
  · exact hdigit _ (by omega)
  · rw [List.mem_singleton.mp hb]
    exact hdigit _ (by omega)

namespace GaldraFingerprint

/-- The fingerprint of a public key, where `blake3` is the hash. -/
def fromPublicKeyBytes (blake3 : Bytes → Block 32) (publicKeyBytes : Bytes) : GaldraFingerprint where
  canonical := fpPrefix ++ hexEncode ((blake3 publicKeyBytes).toBytes.take hashPrefixLen)
  valid := by
    refine ⟨rfl, ?_, fun c hc ↦ isLowerHexdigit_hexEncode hc⟩
    change (hexEncode ((blake3 publicKeyBytes).toBytes.take hashPrefixLen)).length = 40
    rw [length_hexEncode, List.length_take, Block.length_toBytes]
    rfl

end GaldraFingerprint

/-! ## Parsing -/

/-- A text without its white space. -/
def strip (s : List Char) : List Char := s.filter fun c ↦ !isWhitespace c

/-- The two texts agree but for the case of ASCII letters. -/
def eqIgnoreAsciiCase (s t : List Char) : Prop := s.map Char.toLower = t.map Char.toLower

instance (s t : List Char) : Decidable (eqIgnoreAsciiCase s t) :=
  inferInstanceAs (Decidable (_ = _))

def normalizeInput (s : List Char) :
    Outcome GaldraFingerprintParseError { t : List Char // Canonical t } := do
  let stripped := strip s
  let _ ← check (byteLength fpPrefix ≤ byteLength stripped) .invalidFormat
  let front ← sliceTo stripped (byteLength fpPrefix)
  let _ ← check (eqIgnoreAsciiCase front fpPrefix) .invalidFormat
  let hexPart ← sliceFrom stripped (byteLength fpPrefix)
  let hlen ← certified (byteLength hexPart = 40) .invalidFormat
  let hhex ← certified (hexPart.all isAsciiHexdigit = true) .invalidHex
  have hdigits := List.all_eq_true.mp hhex.down
  pure ⟨fpPrefix ++ hexPart.map Char.toLower,
    canonical_toLower (byteLength_hexdigits hdigits ▸ hlen.down) hdigits⟩

namespace GaldraFingerprint

def fromStr (s : List Char) : Outcome GaldraFingerprintParseError GaldraFingerprint := do
  let t ← normalizeInput s
  pure ⟨t.1, t.2⟩

end GaldraFingerprint

/-! ## Showing -/

/-- The blocks of `k` elements that a list falls into. -/
def chunks {α : Type} (k : ℕ) (xs : List α) : List (List α) :=
  (List.range ((xs.length + k - 1) / k)).map fun i ↦ (xs.drop (k * i)).take k

/-- What is shown before the group with the given number. -/
def separator (i : ℕ) : List Char :=
  if 0 < i then if i = 5 then [' ', ' '] else [' '] else []

namespace GaldraFingerprint

/-- The digits in groups of four, with a wider gap in the middle. -/
def display (fp : GaldraFingerprint) : List Char :=
  fpPrefix ++ (chunks 4 fp.hexPart).zipIdx.flatMap fun p ↦ separator p.2 ++ p.1

end GaldraFingerprint

/-! ## What is accepted -/

/-- Without its white space, the text is the prefix in either case with forty digits behind it. -/
def WellFormed (s : List Char) (hex : List Char) : Prop :=
  (strip s = 'G' :: ':' :: hex ∨ strip s = 'g' :: ':' :: hex) ∧ hex.length = 40 ∧
    ∀ c ∈ hex, isAsciiHexdigit c = true

theorem toLower_eq_iff {c : Char} : c.toLower = 'g' ↔ c = 'G' ∨ c = 'g' := by
  rcases Nat.lt_or_ge c.toNat 128 with hc | hc
  · exact ascii_all (p := fun c ↦ c.toLower = 'g' ↔ c = 'G' ∨ c = 'g') (by decide) hc
  · rw [toLower_of_not_ascii hc]
    exact ⟨.inr, fun h ↦ h.elim (fun h ↦ absurd (h ▸ hc) (by decide)) id⟩

theorem toLower_eq_colon {c : Char} : c.toLower = ':' ↔ c = ':' := by
  rcases Nat.lt_or_ge c.toNat 128 with hc | hc
  · exact ascii_all (p := fun c ↦ c.toLower = ':' ↔ c = ':') (by decide) hc
  · rw [toLower_of_not_ascii hc]

theorem eqIgnoreAsciiCase_fpPrefix {front : List Char} :
    eqIgnoreAsciiCase front fpPrefix ↔ front = ['G', ':'] ∨ front = ['g', ':'] := by
  constructor
  · intro h
    obtain ⟨a, rest, rfl, ha, hrest⟩ := List.map_eq_cons_iff.mp h
    obtain ⟨b, rest, rfl, hb, hnil⟩ := List.map_eq_cons_iff.mp hrest
    obtain rfl := List.map_eq_nil_iff.mp hnil
    obtain rfl := toLower_eq_colon.mp hb
    rcases toLower_eq_iff.mp ha with rfl | rfl
    · exact .inl rfl
    · exact .inr rfl
  · rintro (rfl | rfl)
    · rfl
    · rfl

namespace GaldraFingerprint

/-- **Acceptance.** A fingerprint is read from the texts that are well formed. -/
theorem fromStr_eq_ok {s : List Char} {fp : GaldraFingerprint} :
    fromStr s = .ok fp ↔ ∃ hex, WellFormed s hex ∧
      fp.canonical = fpPrefix ++ hex.map Char.toLower := by
  rw [fromStr, bind_eq_ok]
  constructor
  · rintro ⟨t, ht, hfp⟩
    obtain rfl := ok.inj hfp
    rw [normalizeInput, checked_bind_eq_ok] at ht
    obtain ⟨front, hfront, h⟩ := bind_eq_ok.mp ht.2
    obtain ⟨hcase, h⟩ := checked_bind_eq_ok.mp h
    obtain ⟨hex, hhex, h⟩ := bind_eq_ok.mp h
    obtain ⟨hlen, h⟩ := certified_bind_eq_ok.mp h
    obtain ⟨hall, h⟩ := certified_bind_eq_ok.mp h
    have hdigits := List.all_eq_true.mp hall
    obtain rfl := ok.inj h
    obtain ⟨back, hback, htwo⟩ := sliceTo_eq_ok.mp hfront
    rw [hback, sliceFrom_append htwo] at hhex
    obtain rfl := ok.inj hhex
    refine ⟨back, ⟨?_, byteLength_hexdigits hdigits ▸ hlen, hdigits⟩, rfl⟩
    rcases eqIgnoreAsciiCase_fpPrefix.mp hcase with rfl | rfl
    · exact .inl hback
    · exact .inr hback
  · rintro ⟨hex, ⟨hstrip, hlen, hdigits⟩, hfp⟩
    obtain ⟨front, htwo, hcase, heq⟩ : ∃ front, byteLength front = 2 ∧
        eqIgnoreAsciiCase front fpPrefix ∧ strip s = front ++ hex := by
      rcases hstrip with h | h
      · exact ⟨['G', ':'], rfl, rfl, h⟩
      · exact ⟨['g', ':'], rfl, rfl, h⟩
    have hbytes : byteLength hex = 40 := (byteLength_hexdigits hdigits).trans hlen
    refine ⟨⟨_, fp.valid⟩, ?_, rfl⟩
    rw [normalizeInput, heq]
    refine checked_bind_eq_ok.mpr ⟨?_, bind_eq_ok.mpr ⟨front, sliceTo_eq_ok.mpr ⟨hex, rfl, htwo⟩,
      checked_bind_eq_ok.mpr ⟨hcase, bind_eq_ok.mpr ⟨hex, sliceFrom_append htwo,
      certified_bind_eq_ok.mpr ⟨hbytes, certified_bind_eq_ok.mpr ⟨List.all_eq_true.mpr hdigits, ?_⟩⟩⟩⟩⟩⟩
    · rw [byteLength_append, htwo]
      exact Nat.le_add_right 2 _
    · exact congrArg ok (Subtype.ext hfp.symm)

/-- **Panics.** Parsing returns unless a character lies across the end of the prefix. -/
theorem returns_fromStr_iff (s : List Char) :
    Returns (fromStr s) ↔ ¬ Across (strip s) (byteLength fpPrefix) := by
  constructor
  · intro hreturns hacross
    have hcheck : (check (byteLength fpPrefix ≤ byteLength (strip s))
        GaldraFingerprintParseError.invalidFormat) = .ok () := if_pos hacross.le
    apply hreturns
    rw [fromStr, normalizeInput, hcheck, sliceTo_across hacross]
    rfl
  · intro hacross
    refine returns_bind ?_ fun t _ ↦ returns_pure _
    rw [normalizeInput]
    refine returns_checked_bind fun hle ↦ ?_
    obtain ⟨front, back, heq, htwo⟩ := exists_cut hle hacross
    rw [heq, sliceFrom_append htwo, sliceTo_eq_ok.mpr ⟨back, rfl, htwo⟩]
    refine returns_checked_bind fun _ ↦ ?_
    exact returns_certified_bind fun _ ↦ returns_certified_bind fun _ ↦ returns_pure _

end GaldraFingerprint

/-! ## What is shown -/

/-- The blocks of a list make up the list. -/
theorem flatten_chunks {α : Type} {k : ℕ} (hk : 0 < k) (xs : List α) : (chunks k xs).flatten = xs := by
  have htake (n : ℕ) : ((List.range n).map fun i ↦ (xs.drop (k * i)).take k).flatten =
      xs.take (k * n) := by
    induction n with
    | zero => rw [Nat.mul_zero]; rfl
    | succ n ih =>
      rw [List.range_succ, List.map_append, List.flatten_append, ih, Nat.mul_succ, List.take_add]
      exact congrArg _ (List.append_nil _)
  rw [chunks, htake]
  refine List.take_of_length_le ?_
  have hdiv := Nat.div_add_mod (xs.length + k - 1) k
  have hmod := Nat.mod_lt (xs.length + k - 1) hk
  omega

theorem strip_append (s t : List Char) : strip (s ++ t) = strip s ++ strip t := List.filter_append ..

/-- Nothing is dropped from a text without white space. -/
theorem strip_of_dark {s : List Char} (h : ∀ c ∈ s, isWhitespace c = false) : strip s = s := by
  refine List.filter_eq_self.mpr fun c hc ↦ ?_
  rw [h c hc]
  rfl

theorem strip_separator (i : ℕ) : strip (separator i) = [] := by
  rw [separator]
  split_ifs
  · rfl
  · rfl
  · rfl

/-- What stands between the groups is dropped. -/
theorem strip_groups {groups : List (List Char)}
    (h : ∀ group ∈ groups, ∀ c ∈ group, isWhitespace c = false) (i : ℕ) :
    strip ((groups.zipIdx i).flatMap fun p ↦ separator p.2 ++ p.1) = groups.flatten := by
  induction groups generalizing i with
  | nil => rfl
  | cons group groups ih =>
    have hgroup := h group List.mem_cons_self
    have hgroups := ih (fun g hg ↦ h g (List.mem_cons_of_mem group hg)) (i + 1)
    rw [List.zipIdx_cons, List.flatMap_cons, strip_append, strip_append, strip_separator, hgroups,
      strip_of_dark hgroup, List.nil_append, List.flatten_cons]

namespace GaldraFingerprint

variable (fp : GaldraFingerprint)

theorem not_isWhitespace_hexPart {c : Char} (hc : c ∈ fp.hexPart) : isWhitespace c = false :=
  not_isWhitespace_hexdigit (isAsciiHexdigit_of_lower (fp.isLowerHexdigit_hexPart hc))

theorem strip_canonical : strip fp.canonical = fp.canonical := by
  rw [canonical_eq, strip_append, strip_of_dark fun c hc ↦ fp.not_isWhitespace_hexPart hc]
  rfl

/-- White space apart, what is shown is the canonical form. -/
theorem strip_display : strip fp.display = fp.canonical := by
  have hdark : ∀ group ∈ chunks 4 fp.hexPart, ∀ c ∈ group, isWhitespace c = false := by
    intro group hgroup c hc
    apply fp.not_isWhitespace_hexPart
    rw [← flatten_chunks (by decide : 0 < 4) fp.hexPart]
    exact List.mem_flatten_of_mem hgroup hc
  rw [display, strip_append, strip_groups hdark, flatten_chunks (by decide), canonical_eq]
  rfl

/-- Every text that is the canonical form but for white space is read as the fingerprint. -/
theorem fromStr_of_strip {s : List Char} (h : strip s = fp.canonical) : fromStr s = .ok fp := by
  have hlower : fp.hexPart.map Char.toLower = fp.hexPart := by
    refine List.map_congr_left (fun c hc ↦ ?_) |>.trans (List.map_id _)
    exact toLower_of_lower (fp.isLowerHexdigit_hexPart hc)
  refine fromStr_eq_ok.mpr ⟨fp.hexPart, ⟨.inl ?_, fp.length_hexPart, fun c hc ↦ ?_⟩, ?_⟩
  · rw [h, canonical_eq]
    rfl
  · exact isAsciiHexdigit_of_lower (fp.isLowerHexdigit_hexPart hc)
  · rw [hlower, ← canonical_eq]

/-- **Parsing fingerprints.** For every text, parsing returns and accepts exactly what is well
formed, if and only if without white space no character lies across the end of the prefix. Both
forms of every fingerprint are read back. -/
theorem fromStr_iff (s : List Char) :
    ((Returns (fromStr s) ∧ ((∃ fp, fromStr s = .ok fp) ↔ ∃ hex, WellFormed s hex)) ↔
      ¬ Across (strip s) (byteLength fpPrefix)) ∧
    ∀ fp, fromStr fp.canonical = .ok fp ∧ fromStr fp.display = .ok fp := by
  constructor
  · rw [returns_fromStr_iff, and_iff_left_iff_imp]
    intro _
    constructor
    · rintro ⟨fp, hfp⟩
      obtain ⟨hex, hwell, -⟩ := fromStr_eq_ok.mp hfp
      exact ⟨hex, hwell⟩
    · rintro ⟨hex, hwell⟩
      have hvalid := canonical_toLower hwell.2.1 hwell.2.2
      exact ⟨⟨_, hvalid⟩, fromStr_eq_ok.mpr ⟨hex, hwell, rfl⟩⟩
  · exact fun fp ↦ ⟨fp.fromStr_of_strip fp.strip_canonical, fp.fromStr_of_strip fp.strip_display⟩

/-- A euro sign lies across the end of the prefix. -/
theorem fromStr_panics : ¬ ∀ s, Returns (fromStr s) := by
  intro h
  exact (returns_fromStr_iff ['€']).mp (h _) ⟨[], '€', [], rfl, by decide, by decide⟩

end GaldraFingerprint

end Galdralag.Host
