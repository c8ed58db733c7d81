import Galdralag.Foundation.Outcome
import Galdralag.OpenPgp.DataObjects
import Mathlib.Data.Nat.Bitwise

/-!
# Reading and writing objects

An object is a tag, a length and a value. The encoder writes tags of one or two bytes and lengths in
the shortest of three forms; the decoder takes any length of up to four bytes, leading zeros
included. `BerTag` and `BerLength` say what a tag and a length look like, and the decoder returns an
object exactly when the input begins with one (`readTlv_eq_some`). Both the round trip and the
nested objects of a decipherment follow.

The decoder of the source indexes and slices, and computes the length in a machine word; it never
leaves its input (`parseEcdhPeerPublicKeyIn_eq`).
-/

set_option linter.all false

namespace Galdralag.OpenPgp

/-! ## Tags, lengths and objects -/

/-- The bytes of a tag: one, or two when the low five bits of the first are set. -/
inductive BerTag : UInt16 → Bytes → Prop
  | one {b : UInt8} (h : b &&& 0x1F ≠ 0x1F) : BerTag b.toUInt16 [b]
  | two {b c : UInt8} (hb : b &&& 0x1F = 0x1F) (hc : c &&& 0x80 = 0) : BerTag (u16OfBe b c) [b, c]

/-- The bytes of a length: one, or a count of one to four and as many bytes. -/
inductive BerLength : ℕ → Bytes → Prop
  | short {b : UInt8} (h : b &&& 0x80 = 0) : BerLength b.toNat [b]
  | long {b : UInt8} {bs : Bytes} (hb : b &&& 0x80 ≠ 0) (hcount : (b &&& 0x7F).toNat = bs.length)
      (hpos : bs ≠ []) (hle : bs.length ≤ 4) : BerLength (beNat bs) (b :: bs)

/-- The bytes `buf` are an object and `rest`. -/
def Object (tag : UInt16) (value rest buf : Bytes) : Prop :=
  ∃ t l, BerTag tag t ∧ BerLength value.length l ∧ buf = t ++ (l ++ (value ++ rest))

theorem parseBerTag_eq_some {buf rest : Bytes} {tag : UInt16} :
    parseBerTag buf = some (tag, rest) ↔ ∃ t, BerTag tag t ∧ buf = t ++ rest := by
  constructor
  · intro h
    rcases buf with _ | ⟨b, _ | ⟨c, tail⟩⟩ <;> simp only [parseBerTag] at h
    · cases h
    · split_ifs at h with hb
      obtain ⟨rfl, rfl⟩ := Prod.mk.inj (Option.some.inj h)
      exact ⟨[b], .one hb, rfl⟩
    · split_ifs at h with hb hc
      · obtain ⟨rfl, rfl⟩ := Prod.mk.inj (Option.some.inj h)
        exact ⟨[b], .one hb, rfl⟩
      · obtain ⟨rfl, rfl⟩ := Prod.mk.inj (Option.some.inj h)
        exact ⟨[b, c], .two (not_not.mp hb) (not_not.mp hc), rfl⟩
  · rintro ⟨t, ht, rfl⟩
    cases ht with
    | one hb => exact if_pos hb
    | two hb hc => exact (if_neg (not_not.mpr hb)).trans (if_neg (not_not.mpr hc))

theorem parseBerLength_eq_some {buf rest : Bytes} {len : ℕ} :
    parseBerLength buf = some (len, rest) ↔ ∃ l, BerLength len l ∧ buf = l ++ rest := by
  constructor
  · intro h
    rcases buf with _ | ⟨b, tail⟩
    · cases h
    · simp only [parseBerLength] at h
      split_ifs at h with hb hn
      · obtain ⟨rfl, rfl⟩ := Prod.mk.inj (Option.some.inj h)
        exact ⟨[b], .short hb, rfl⟩
      · obtain ⟨rfl, rfl⟩ := Prod.mk.inj (Option.some.inj h)
        have htake : (tail.take (b &&& 0x7F).toNat).length = (b &&& 0x7F).toNat := by
          rw [List.length_take]
          omega
        refine ⟨b :: tail.take (b &&& 0x7F).toNat, .long hb htake.symm ?_ ?_, ?_⟩
        · rw [← List.length_pos_iff_ne_nil]
          omega
        · omega
        · rw [List.cons_append, List.take_append_drop]
  · rintro ⟨l, hl, rfl⟩
    cases hl with
    | short hb => exact if_pos hb
    | @long b bs hb hcount hpos hle =>
      have hlen := List.length_pos_iff_ne_nil.mpr hpos
      have hfits : ¬ (bs.length = 0 ∨ bs.length > 4 ∨ (bs ++ rest).length < bs.length) := by
        rw [List.length_append]
        omega
      rw [List.cons_append, parseBerLength, if_neg hb, hcount, if_neg hfits, List.take_left,
        List.drop_left]
      rfl

/-- **The decoder returns an object** exactly when the input begins with one. -/
theorem readTlv_eq_some {buf value rest : Bytes} {tag : UInt16} :
    readTlv buf = some (tag, value, rest) ↔ Object tag value rest buf := by
  constructor
  · intro h
    rw [readTlv, Option.bind_eq_bind, Option.bind_eq_some_iff] at h
    obtain ⟨⟨t, behindTag⟩, htag, h⟩ := h
    obtain ⟨⟨len, behindLen⟩, hlen, h⟩ := Option.bind_eq_some_iff.mp h
    change (if behindLen.length < len then none
      else some (t, behindLen.take len, behindLen.drop len)) = _ at h
    split_ifs at h with hfits
    simp only [Option.some.injEq, Prod.mk.injEq] at h
    obtain ⟨rfl, rfl, rfl⟩ := h
    obtain ⟨tagBytes, htagBytes, rfl⟩ := parseBerTag_eq_some.mp htag
    obtain ⟨lenBytes, hlenBytes, rfl⟩ := parseBerLength_eq_some.mp hlen
    have hlength : (behindLen.take len).length = len := by
      rw [List.length_take]
      omega
    refine ⟨tagBytes, lenBytes, htagBytes, ?_, ?_⟩
    · rwa [hlength]
    · rw [List.take_append_drop]
  · rintro ⟨t, l, ht, hl, rfl⟩
    have htag : parseBerTag (t ++ (l ++ (value ++ rest))) = some (tag, l ++ (value ++ rest)) :=
      parseBerTag_eq_some.mpr ⟨t, ht, rfl⟩
    have hlen : parseBerLength (l ++ (value ++ rest)) = some (value.length, value ++ rest) :=
      parseBerLength_eq_some.mpr ⟨l, hl, rfl⟩
    rw [readTlv, htag]
    change (parseBerLength (l ++ (value ++ rest)) >>= _) = _
    rw [hlen]
    change (if (value ++ rest).length < value.length then none
      else some (tag, (value ++ rest).take value.length, (value ++ rest).drop value.length)) = _
    have hfits : ¬ (value ++ rest).length < value.length := by
      rw [List.length_append]
      omega
    rw [if_neg hfits, List.take_left, List.drop_left]

/-! ## The encoder -/

/-- The tags of the card: one byte, or `5F` or `7F` and a byte below `80`. -/
inductive CardTag : UInt16 → Prop
  | one {b : UInt8} (h : b &&& 0x1F ≠ 0x1F) : CardTag b.toUInt16
  | two {b c : UInt8} (hb : b = 0x5F ∨ b = 0x7F) (hc : c < 0x80) : CardTag (u16OfBe b c)

theorem high_clear_iff (c : UInt8) : c &&& 0x80 = 0 ↔ c < 0x80 := by
  have hbit : c.toNat &&& 2 ^ 7 = (c.toNat.testBit 7).toNat * 2 ^ 7 := Nat.and_two_pow _ 7
  have htest : c.toNat.testBit 7 = decide (c.toNat / 2 ^ 7 % 2 = 1) :=
    Nat.testBit_eq_decide_div_mod_eq
  have hlt := c.toNat_lt
  rw [← UInt8.toNat_inj, UInt8.toNat_and, UInt8.lt_iff_toNat_lt]
  change c.toNat &&& 2 ^ 7 = 0 ↔ c.toNat < 128
  rw [hbit, htest]
  by_cases h : c.toNat / 2 ^ 7 % 2 = 1
  · rw [decide_eq_true h]
    exact iff_of_false (by decide) (by omega)
  · rw [decide_eq_false h]
    exact iff_of_true (by decide) (by omega)

/-- The tag bytes of the encoder. -/
theorem berTag_of_cardTag {tag : UInt16} (h : CardTag tag) :
    BerTag tag (if tag ≤ 0xFF then [tag.toUInt8] else u16be tag) := by
  cases h with
  | @one b hb =>
    have hle : b.toUInt16 ≤ 0xFF := by
      have hlt := b.toNat_lt
      change b.toUInt16.toNat ≤ 255
      rw [UInt8.toNat_toUInt16]
      omega
    have hbyte : b.toUInt16.toUInt8 = b := UInt8.toUInt8_toUInt16 b
    rw [if_pos hle, hbyte]
    exact .one hb
  | @two b c hb hc =>
    have hlow : b &&& 0x1F = 0x1F := by
      rcases hb with rfl | rfl <;> decide
    have hgt : ¬ u16OfBe b c ≤ 0xFF := by
      change ¬ (u16OfBe b c).toNat ≤ 255
      rw [toNat_u16OfBe]
      rcases hb with rfl | rfl
      · change ¬ 95 * 256 + c.toNat ≤ 255
        omega
      · change ¬ 127 * 256 + c.toNat ≤ 255
        omega
    rw [if_neg hgt, u16be_u16OfBe]
    exact .two hlow ((high_clear_iff c).mpr hc)

/-- The length bytes of the encoder. -/
theorem berLength_encoded {len : ℕ} (h : len < 65536) :
    BerLength len (if len ≤ 0x7F then [UInt8.ofNat len]
      else if len ≤ 0xFF then [0x81, UInt8.ofNat len]
      else [0x82, UInt8.ofNat (len / 256), UInt8.ofNat len]) := by
  have hlow : (UInt8.ofNat len).toNat = len % 256 := UInt8.toNat_ofNat'
  have hhigh : (UInt8.ofNat (len / 256)).toNat = len / 256 % 256 := UInt8.toNat_ofNat'
  split_ifs with hshort hmiddle
  · have hclear : UInt8.ofNat len &&& 0x80 = 0 := by
      rw [high_clear_iff]
      change (UInt8.ofNat len).toNat < 128
      omega
    have hnum : (UInt8.ofNat len).toNat = len := by omega
    have hform := BerLength.short hclear
    rwa [hnum] at hform
  · have hnum : beNat [UInt8.ofNat len] = len := by
      change 0 * 256 + (UInt8.ofNat len).toNat = len
      omega
    have hform : BerLength _ [0x81, UInt8.ofNat len] :=
      .long (by decide) rfl (List.cons_ne_nil _ _) (Nat.le_of_ble_eq_true rfl)
    rwa [hnum] at hform
  · have hnum : beNat [UInt8.ofNat (len / 256), UInt8.ofNat len] = len := by
      change (0 * 256 + (UInt8.ofNat (len / 256)).toNat) * 256 + (UInt8.ofNat len).toNat = len
      omega
    have hcount : (0x82 &&& 0x7F : UInt8).toNat = 2 := by decide
    have hform : BerLength _ [0x82, UInt8.ofNat (len / 256), UInt8.ofNat len] :=
      .long (by decide) hcount (List.cons_ne_nil _ _) (Nat.le_of_ble_eq_true rfl)
    rwa [hnum] at hform

/-- What the encoder writes for a tag of the card is an object. -/
theorem object_of_encodeTlv {tag : UInt16} {value suffix : Bytes} {out : Vec 512}
    (htag : CardTag tag) (hlen : value.length < 65536)
    (h : encodeTlv tag value .empty = some out) : Object tag value suffix (out.toBytes ++ suffix) := by
  have hbytes := Vec.toBytes_of_ofBytes? h
  refine ⟨_, _, berTag_of_cardTag htag, berLength_encoded hlen, ?_⟩
  rw [hbytes, Vec.toBytes_empty, List.nil_append]
  simp only [List.append_assoc]

/-- Values of up to 500 bytes fit into a response. -/
theorem encodeTlv_fits (tag : UInt16) {value : Bytes} (hlen : value.length ≤ 500) :
    ∃ out, encodeTlv tag value .empty = some out := by
  refine ⟨_, Vec.ofBytes?_of_le ?_⟩
  rw [Vec.toBytes_empty, List.nil_append, List.length_append, List.length_append]
  split_ifs <;> simp only [List.length_cons, List.length_nil, length_u16be] <;> omega

/-! ## The decoder of the source -/

/-- A result that is missing is an error. -/
def ofOption {α : Type} : Option α → Outcome Unit α
  | some a => .ok a
  | none => .error ()

theorem ofOption_bind {α β : Type} (o : Option α) (f : α → Option β) {g : α → Outcome Unit β}
    (h : ∀ a, o = some a → g a = ofOption (f a)) : (ofOption o >>= g) = ofOption (o >>= f) := by
  cases o with
  | none => rfl
  | some a => exact h a rfl

theorem ofOption_eq_ok {α : Type} {o : Option α} {a : α} : ofOption o = .ok a ↔ o = some a := by
  cases o with
  | none => exact iff_of_false (by rintro ⟨⟩) (by rintro ⟨⟩)
  | some b => exact ⟨fun h ↦ congrArg _ (Outcome.ok.inj h), fun h ↦ congrArg _ (Option.some.inj h)⟩

theorem returns_ofOption {α : Type} (o : Option α) : Outcome.Returns (ofOption o) := by
  cases o with
  | none => exact Outcome.returns_error ()
  | some a => exact Outcome.returns_ok a

section Source

-- the width of a machine word
variable (w : ℕ)

/-- The loop over the bytes of a length: `rounds` rounds from the index `i` on. -/
def lengthLoop (buf : Bytes) : ℕ → ℕ → ℕ → Outcome Unit ℕ
  | 0, _, len => .ok len
  | rounds + 1, i, len => do
    let b ← Outcome.index buf (1 + i)
    lengthLoop buf rounds (i + 1) (len <<< 8 % 2 ^ w ||| b.toNat)

/-- `parse_ber_length`, with its indices, slices and machine words. -/
def parseBerLengthIn (buf : Bytes) : Outcome Unit (ℕ × Bytes) :=
  if buf = [] then .error ()
  else do
    let b ← Outcome.index buf 0
    if b.toNat &&& 0x80 = 0 then do
      let rest ← Outcome.slice buf 1 buf.length
      .ok (b.toNat, rest)
    else if b.toNat &&& 0x7F = 0 ∨ b.toNat &&& 0x7F > 4 ∨ buf.length < 1 + (b.toNat &&& 0x7F) then
      .error ()
    else do
      let len ← lengthLoop w buf (b.toNat &&& 0x7F) 0 0
      let rest ← Outcome.slice buf (1 + (b.toNat &&& 0x7F)) buf.length
      .ok (len, rest)

/-- `parse_ber_tag`, with its indices and slices. -/
def parseBerTagIn (buf : Bytes) : Outcome Unit (UInt16 × Bytes) :=
  if buf = [] then .error ()
  else do
    let b ← Outcome.index buf 0
    if b &&& 0x1F ≠ 0x1F then do
      let rest ← Outcome.slice buf 1 buf.length
      .ok (b.toUInt16, rest)
    else if buf.length < 2 then .error ()
    else do
      let c ← Outcome.index buf 1
      if c &&& 0x80 ≠ 0 then .error ()
      else do
        let rest ← Outcome.slice buf 2 buf.length
        .ok (b.toUInt16 <<< 8 ||| c.toUInt16, rest)

/-- `split_at`: the two parts of a slice, which must be long enough. -/
def splitAt (buf : Bytes) (len : ℕ) : Outcome Unit (Bytes × Bytes) :=
  if len ≤ buf.length then .ok (buf.take len, buf.drop len) else .panicked

/-- `read_tlv`. -/
def readTlvIn (buf : Bytes) : Outcome Unit (UInt16 × Bytes × Bytes) := do
  let tagged ← parseBerTagIn buf
  let sized ← parseBerLengthIn w tagged.2
  if sized.2.length < sized.1 then .error ()
  else do
    let parts ← splitAt sized.2 sized.1
    .ok (tagged.1, parts.1, parts.2)

/-- The value of the first object, if it has the expected tag. -/
def taggedValueIn (expected : UInt16) (buf : Bytes) : Outcome Unit Bytes := do
  let object ← readTlvIn w buf
  if object.1 ≠ expected then .error () else .ok object.2.1

/-- `parse_ecdh_peer_public_key`. -/
def parseEcdhPeerPublicKeyIn (data : Bytes) : Outcome Unit Bytes := do
  let inner ← taggedValueIn w 0xA6 data
  let inner ← taggedValueIn w 0x7F49 inner
  let peer ← taggedValueIn w 0x86 inner
  if peer.isEmpty then .error () else .ok peer

variable {w}

theorem index_cons_zero (b : UInt8) (buf : Bytes) :
    (Outcome.index (b :: buf) 0 : Outcome Unit UInt8) = .ok b := rfl

theorem slice_to_end {buf : Bytes} {start : ℕ} (h : start ≤ buf.length) :
    (Outcome.slice buf start buf.length : Outcome Unit Bytes) = .ok (buf.drop start) := by
  rw [Outcome.slice, if_pos ⟨h, Nat.le_refl _⟩]
  exact congrArg _ (List.take_of_length_le (Nat.le_of_eq List.length_drop))

theorem parseBerTagIn_eq (buf : Bytes) : parseBerTagIn buf = ofOption (parseBerTag buf) := by
  rcases buf with _ | ⟨b, _ | ⟨c, tail⟩⟩
  · rfl
  · rw [parseBerTagIn, if_neg (List.cons_ne_nil _ _)]
    change (if b &&& 0x1F ≠ 0x1F then _ else if 1 < 2 then Outcome.error () else _) = _
    rw [parseBerTag]
    by_cases hb : b &&& 0x1F ≠ 0x1F
    · rw [if_pos hb, if_pos hb]
      rfl
    · rw [if_neg hb, if_neg hb]
      rfl
  · rw [parseBerTagIn, if_neg (List.cons_ne_nil _ _), parseBerTag]
    change (if b &&& 0x1F ≠ 0x1F then _ else if tail.length + 2 < 2 then Outcome.error ()
      else (if c &&& 0x80 ≠ 0 then Outcome.error () else _)) = _
    have hslice (start : ℕ) (h : start ≤ (b :: c :: tail).length) := slice_to_end h
    by_cases hb : b &&& 0x1F ≠ 0x1F
    · rw [if_pos hb, if_pos hb, hslice 1 (by simp)]
      rfl
    · rw [if_neg hb, if_neg hb, if_neg (by omega)]
      by_cases hc : c &&& 0x80 ≠ 0
      · rw [if_pos hc]
        simp only [if_pos hc]
        rfl
      · rw [if_neg hc, hslice 2 (by simp)]
        simp only [if_neg hc]
        rfl

theorem beNat_concat (bs : Bytes) (b : UInt8) : beNat (bs ++ [b]) = beNat bs * 256 + b.toNat := by
  rw [beNat, List.foldl_append]
  rfl

theorem beNat_lt_pow (bs : Bytes) : beNat bs < 256 ^ bs.length := by
  have h := leNat_lt bs.reverse
  rwa [← beNat_reverse, List.reverse_reverse, List.length_reverse] at h

/-- One more byte of a length. -/
theorem shift_or {len : ℕ} (hlen : len < 2 ^ 24) (hw : 32 ≤ w) (b : UInt8) :
    len <<< 8 % 2 ^ w ||| b.toNat = len * 256 + b.toNat := by
  have hpow : (2 : ℕ) ^ 32 ≤ 2 ^ w := Nat.pow_le_pow_right (by decide) hw
  have hshift : len <<< 8 = len * 256 := Nat.shiftLeft_eq _ _
  have hmod : len * 256 % 2 ^ w = len * 256 := Nat.mod_eq_of_lt (by omega)
  have hor := Nat.shiftLeft_add_eq_or_of_lt b.toNat_lt len
  rw [hshift, hmod, ← hshift, ← hor, hshift]

/-- **The loop** computes the number that the bytes write. -/
theorem lengthLoop_eq (hw : 32 ≤ w) {b : UInt8} {tail : Bytes} (rounds : ℕ) :
    ∀ i, i + rounds ≤ 4 → i + rounds ≤ tail.length →
      lengthLoop w (b :: tail) rounds i (beNat (tail.take i)) =
        .ok (beNat (tail.take (i + rounds))) := by
  induction rounds with
  | zero => exact fun i _ _ ↦ rfl
  | succ rounds ih =>
    intro i hfour hlen
    have hi : i < tail.length := by omega
    have hindex : (Outcome.index (b :: tail) (1 + i) : Outcome Unit UInt8) = .ok tail[i] := by
      rw [Outcome.index, Nat.add_comm, List.getElem?_cons_succ, List.getElem?_eq_getElem hi]
    have hsmall : beNat (tail.take i) < 2 ^ 24 := by
      have hlt := beNat_lt_pow (tail.take i)
      have hle : (tail.take i).length ≤ 3 := by
        rw [List.length_take]
        omega
      have hpow : 256 ^ (tail.take i).length ≤ 256 ^ 3 := Nat.pow_le_pow_right (by decide) hle
      exact Nat.lt_of_lt_of_le hlt hpow
    have htake : tail.take (i + 1) = tail.take i ++ [tail[i]] := by
      rw [List.take_add_one, List.getElem?_eq_getElem hi, Option.toList_some]
    rw [lengthLoop, hindex]
    change lengthLoop w (b :: tail) rounds (i + 1) _ = _
    rw [shift_or hsmall hw, ← beNat_concat, ← htake, ih (i + 1) (by omega) (by omega),
      Nat.add_right_comm, Nat.add_assoc]

theorem parseBerLengthIn_eq (hw : 32 ≤ w) (buf : Bytes) :
    parseBerLengthIn w buf = ofOption (parseBerLength buf) := by
  rcases buf with _ | ⟨b, tail⟩
  · rfl
  · have hhigh : b.toNat &&& 0x80 = 0 ↔ b &&& 0x80 = 0 := by
      rw [← UInt8.toNat_inj, UInt8.toNat_and]
      exact Iff.rfl
    have hcount : b.toNat &&& 0x7F = (b &&& 0x7F).toNat := (UInt8.toNat_and b 0x7F).symm
    have hslice (start : ℕ) (h : start ≤ (b :: tail).length) := slice_to_end h
    rw [parseBerLengthIn, if_neg (List.cons_ne_nil _ _), index_cons_zero, parseBerLength]
    change (if b.toNat &&& 0x80 = 0 then _ else if _ then _ else _) = _
    by_cases hb : b &&& 0x80 = 0
    · rw [if_pos (hhigh.mpr hb), if_pos hb, hslice 1 (by simp)]
      rfl
    · rw [if_neg (mt hhigh.mp hb), if_neg hb, hcount]
      by_cases hn : (b &&& 0x7F).toNat = 0 ∨ (b &&& 0x7F).toNat > 4 ∨
          tail.length < (b &&& 0x7F).toNat
      · have hn' : (b &&& 0x7F).toNat = 0 ∨ (b &&& 0x7F).toNat > 4 ∨
            (b :: tail).length < 1 + (b &&& 0x7F).toNat := by
          rw [List.length_cons]
          omega
        rw [if_pos hn, if_pos hn']
        rfl
      · have hn' : ¬ ((b &&& 0x7F).toNat = 0 ∨ (b &&& 0x7F).toNat > 4 ∨
            (b :: tail).length < 1 + (b &&& 0x7F).toNat) := by
          rw [List.length_cons]
          omega
        have hloop : lengthLoop w (b :: tail) (b &&& 0x7F).toNat 0 0 = _ :=
          lengthLoop_eq hw (b := b) (b &&& 0x7F).toNat 0 (by omega) (by omega)
        rw [if_neg hn, if_neg hn', hloop, hslice (1 + (b &&& 0x7F).toNat) (by
          rw [List.length_cons]
          omega), Nat.zero_add, Nat.add_comm 1]
        rfl

theorem readTlvIn_eq (hw : 32 ≤ w) (buf : Bytes) : readTlvIn w buf = ofOption (readTlv buf) := by
  rw [readTlvIn, readTlv, parseBerTagIn_eq]
  refine ofOption_bind _ _ fun tagged _ ↦ ?_
  rw [parseBerLengthIn_eq hw]
  refine ofOption_bind _ _ fun sized _ ↦ ?_
  change _ = ofOption (if sized.2.length < sized.1 then none
    else some (tagged.1, sized.2.take sized.1, sized.2.drop sized.1))
  by_cases hlen : sized.2.length < sized.1
  · rw [if_pos hlen, if_pos hlen]
    rfl
  · rw [if_neg hlen, if_neg hlen, splitAt, if_pos (Nat.not_lt.mp hlen)]
    rfl

theorem taggedValueIn_eq (hw : 32 ≤ w) (expected : UInt16) (buf : Bytes) :
    taggedValueIn w expected buf = ofOption (taggedValue expected buf) := by
  rw [taggedValueIn, taggedValue, readTlvIn_eq hw]
  refine ofOption_bind _ _ fun object _ ↦ ?_
  change _ = ofOption (if object.1 ≠ expected then none else some object.2.1)
  split_ifs <;> rfl

/-- **The decoder of the source** never panics, and returns what the decoder on lists does. -/
theorem parseEcdhPeerPublicKeyIn_eq (hw : 32 ≤ w) (data : Bytes) :
    parseEcdhPeerPublicKeyIn w data = ofOption (parseEcdhPeerPublicKey data) := by
  rw [parseEcdhPeerPublicKeyIn, parseEcdhPeerPublicKey, taggedValueIn_eq hw]
  refine ofOption_bind _ _ fun outer _ ↦ ?_
  rw [taggedValueIn_eq hw]
  refine ofOption_bind _ _ fun inner _ ↦ ?_
  rw [taggedValueIn_eq hw]
  refine ofOption_bind _ _ fun peer _ ↦ ?_
  split_ifs <;> rfl

end Source

/-! ## Encoder and decoder agree -/

/-- The data wrap a peer key in the objects `86`, `7F49` and `A6`; each may be followed by more. -/
def WrapsPeer (peer data : Bytes) : Prop :=
  ∃ outer inner r₁ r₂ r₃, Object 0xA6 outer r₁ data ∧ Object 0x7F49 inner r₂ outer ∧
    Object 0x86 peer r₃ inner

theorem taggedValue_of_object {tag : UInt16} {value rest buf : Bytes}
    (h : Object tag value rest buf) : taggedValue tag buf = some value := by
  rw [taggedValue, readTlv_eq_some.mpr h]
  exact if_neg (not_not.mpr rfl)

theorem parseEcdhPeerPublicKey_of_wraps {peer data : Bytes} (hne : peer ≠ [])
    (h : WrapsPeer peer data) : parseEcdhPeerPublicKey data = some peer := by
  obtain ⟨outer, inner, r₁, r₂, r₃, houter, hinner, hpeer⟩ := h
  rw [parseEcdhPeerPublicKey, taggedValue_of_object houter]
  change (taggedValue 0x7F49 outer >>= _) = _
  rw [taggedValue_of_object hinner]
  change (taggedValue 0x86 inner >>= _) = _
  rw [taggedValue_of_object hpeer]
  exact if_neg (mt List.isEmpty_iff.mp hne)

/-- **Encoding and decoding agree.** On a machine with words of 32 bits or more, what the encoder
writes for a tag of the card and a value of up to 500 bytes is read back with whatever follows; a
peer key is found whatever forms the lengths around it have; and on no input does the decoder panic
or return bytes that are not in it. -/
theorem tlv_codec_agrees {w : ℕ} (hw : 32 ≤ w) :
    (∀ tag value, CardTag tag → value.length ≤ 500 → ∃ out, encodeTlv tag value .empty = some out ∧
      ∀ suffix, readTlvIn w (out.toBytes ++ suffix) = .ok (tag, value, suffix)) ∧
    (∀ peer data, peer ≠ [] → WrapsPeer peer data → parseEcdhPeerPublicKeyIn w data = .ok peer) ∧
    ∀ data, (readTlvIn w data).Returns ∧ (parseEcdhPeerPublicKeyIn w data).Returns ∧
      (∀ tag value rest, readTlvIn w data = .ok (tag, value, rest) →
        value <:+: data ∧ rest <:+: data) ∧
      ∀ peer, parseEcdhPeerPublicKeyIn w data = .ok peer → peer <:+: data := by
  refine ⟨fun tag value htag hlen ↦ ?_, fun peer data hne hwraps ↦ ?_, fun data ↦ ⟨?_, ?_, ?_, ?_⟩⟩
  · obtain ⟨out, hout⟩ := encodeTlv_fits tag hlen
    refine ⟨out, hout, fun suffix ↦ ?_⟩
    rw [readTlvIn_eq hw, ofOption_eq_ok, readTlv_eq_some]
    exact object_of_encodeTlv htag (by omega) hout
  · rw [parseEcdhPeerPublicKeyIn_eq hw, ofOption_eq_ok]
    exact parseEcdhPeerPublicKey_of_wraps hne hwraps
  · rw [readTlvIn_eq hw]
    exact returns_ofOption _
  · rw [parseEcdhPeerPublicKeyIn_eq hw]
    exact returns_ofOption _
  · intro tag value rest h
    rw [readTlvIn_eq hw, ofOption_eq_ok] at h
    obtain ⟨t, l, -, -, rfl⟩ := readTlv_eq_some.mp h
    refine ⟨readTlv_isInfix h, List.IsSuffix.isInfix ⟨t ++ (l ++ value), ?_⟩⟩
    simp only [List.append_assoc]
  · intro peer h
    rw [parseEcdhPeerPublicKeyIn_eq hw, ofOption_eq_ok] at h
    exact (parseEcdhPeerPublicKey_isInfix h).2

/-- On the device, whose words have 32 bits, an empty object is written in two bytes and read back.
-/
theorem tlv_codec_agrees_empty : ∃ out, encodeTlv 0x4F [] .empty = some out ∧
    ∀ suffix, readTlvIn 32 (out.toBytes ++ suffix) = .ok (0x4F, [], suffix) :=
  (tlv_codec_agrees (Nat.le_refl 32)).1 0x4F [] (CardTag.one (b := 0x4F) (by decide)) (Nat.zero_le _)

end Galdralag.OpenPgp
