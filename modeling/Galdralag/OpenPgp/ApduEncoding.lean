import Galdralag.OpenPgp.Apdu

/-!
# Encodings of a command

ISO 7816-4 writes a command in one of four cases, by whether it has data and whether it expects a
response, and the cases with a length in a short and an extended form. Nothing in the bytes names
the form: a parser tells the seven apart by the total length and by a zero in the first length byte.

Parsing undoes all of them. The delicate one is an extended expected length without data, which has
no room for the extended form of the parser and is read as a short command without data.
-/

set_option linter.all false

namespace Galdralag.OpenPgp

namespace CommandApdu

/-- Class, instruction and parameters. -/
def header (cmd : CommandApdu) : Bytes := [cmd.cla, cmd.ins, cmd.p1, cmd.p2]

/-- An expected length of 1 to 256 in one byte, where 256 is written as zero. -/
def leByte (le : UInt16) : UInt8 := if le = 256 then 0 else le.toUInt8

/-- The ISO 7816-4 encodings of a command. -/
inductive Encodes : CommandApdu → Bytes → Prop
  | case1 {cmd : CommandApdu} (hdata : cmd.data = .empty) (hle : cmd.le = none) :
      Encodes cmd cmd.header
  | case2Short {cmd : CommandApdu} {le : UInt16} (hdata : cmd.data = .empty) (hle : cmd.le = some le)
      (hrange : 1 ≤ le.toNat ∧ le.toNat ≤ 256) :
      Encodes cmd (cmd.header ++ [leByte le])
  | case3Short {cmd : CommandApdu} (hdata : 1 ≤ cmd.data.length ∧ cmd.data.length ≤ 255)
      (hle : cmd.le = none) :
      Encodes cmd (cmd.header ++ UInt8.ofNat cmd.data.length :: cmd.data.toBytes)
  | case4Short {cmd : CommandApdu} {le : UInt16}
      (hdata : 1 ≤ cmd.data.length ∧ cmd.data.length ≤ 255) (hle : cmd.le = some le)
      (hrange : 1 ≤ le.toNat ∧ le.toNat ≤ 256) :
      Encodes cmd (cmd.header ++ UInt8.ofNat cmd.data.length :: (cmd.data.toBytes ++ [leByte le]))
  | case2Extended {cmd : CommandApdu} {le : UInt16} (hdata : cmd.data = .empty)
      (hle : cmd.le = some le) (hrange : 1 ≤ le.toNat) :
      Encodes cmd (cmd.header ++ 0 :: u16be le)
  | case3Extended {cmd : CommandApdu} (hdata : 1 ≤ cmd.data.length) (hle : cmd.le = none) :
      Encodes cmd (cmd.header ++ 0 :: (u16be (UInt16.ofNat cmd.data.length) ++ cmd.data.toBytes))
  | case4Extended {cmd : CommandApdu} {le : UInt16} (hdata : 1 ≤ cmd.data.length)
      (hle : cmd.le = some le) (hrange : 1 ≤ le.toNat) :
      Encodes cmd (cmd.header
        ++ 0 :: (u16be (UInt16.ofNat cmd.data.length) ++ (cmd.data.toBytes ++ u16be le)))

variable {cmd : CommandApdu} {le : UInt16} {body tail : Bytes}

/-- Every command has an encoding, the extended one of its case, unless it expects a length of zero,
which stands for another length in every form. -/
theorem exists_encodes (hle : cmd.le ≠ some 0) : ∃ raw, Encodes cmd raw := by
  have hpos : ∀ le, cmd.le = some le → 1 ≤ le.toNat := fun le h ↦
    Nat.one_le_iff_ne_zero.mpr fun hzero ↦ hle (h.trans (congrArg some (UInt16.toNat_inj.mp hzero)))
  rcases Nat.eq_zero_or_pos cmd.data.length with hnone | hsome
  · have hdata : cmd.data = .empty := Subtype.ext (List.eq_nil_of_length_eq_zero hnone)
    rcases h : cmd.le with _ | le
    · exact ⟨_, .case1 hdata h⟩
    · exact ⟨_, .case2Extended hdata h (hpos le h)⟩
  · rcases h : cmd.le with _ | le
    · exact ⟨_, .case3Extended hsome h⟩
    · exact ⟨_, .case4Extended hsome h (hpos le h)⟩

/-! ## Lengths -/

theorem leShort_leByte (h : 1 ≤ le.toNat ∧ le.toNat ≤ 256) : leShort (leByte le) = le := by
  rw [leByte]
  split_ifs with hmax
  · rw [hmax]
    rfl
  · have hlt : le.toNat < 256 :=
      Nat.lt_of_le_of_ne h.2 fun heq ↦ hmax (UInt16.toNat_inj.mp heq)
    have hbyte : le.toUInt8.toNat = le.toNat := by
      rw [UInt16.toNat_toUInt8, Nat.mod_eq_of_lt hlt]
    have hne : le.toUInt8 ≠ 0 := by
      intro hzero
      rw [hzero] at hbyte
      have hpos := h.1
      rw [← hbyte] at hpos
      exact absurd hpos (by decide)
    rw [leShort, if_neg hne]
    refine UInt16.toNat_inj.mp ?_
    rw [UInt8.toNat_toUInt16, hbyte]

/-- The length byte of short data. -/
theorem lcByte (h : 1 ≤ cmd.data.length ∧ cmd.data.length ≤ 255) :
    (UInt8.ofNat cmd.data.length).toNat = cmd.data.length ∧ UInt8.ofNat cmd.data.length ≠ 0 := by
  have hnat : (UInt8.ofNat cmd.data.length).toNat = cmd.data.length := by
    rw [UInt8.toNat_ofNat', Nat.mod_eq_of_lt (by omega)]
  refine ⟨hnat, fun hzero ↦ ?_⟩
  rw [hzero] at hnat
  have hnone : (0 : UInt8).toNat = 0 := rfl
  omega

/-- The two length bytes of extended data. -/
theorem lcBytes (cmd : CommandApdu) :
    (u16OfBe (UInt16.ofNat cmd.data.length >>> 8).toUInt8 (UInt16.ofNat cmd.data.length).toUInt8).toNat
      = cmd.data.length := by
  have hle := cmd.data.length_le
  rw [u16OfBe_u16be, UInt16.toNat_ofNat', Nat.mod_eq_of_lt (by omega)]

/-! ## The forms of the parser -/

/-- Data and what follows it. -/
theorem parseBody_data {parseLe : Bytes → Except ApduError (Option UInt16)}
    (h : parseLe tail = .ok cmd.le) :
    parseBody cmd.cla cmd.ins cmd.p1 cmd.p2 cmd.data.length (cmd.data.toBytes ++ tail) parseLe
      = .ok cmd := by
  have hlen : ¬ (cmd.data.toBytes ++ tail).length < cmd.data.length := by
    rw [List.length_append]
    exact Nat.not_lt_of_le (Nat.le_add_right _ _)
  have htake : (cmd.data.toBytes ++ tail).take cmd.data.length = cmd.data.toBytes := List.take_left' rfl
  have hdrop : (cmd.data.toBytes ++ tail).drop cmd.data.length = tail := List.drop_left' rfl
  have hvec : Vec.ofBytes? cmd.data.toBytes = some cmd.data := dif_pos cmd.data.length_le
  rw [parseBody, if_neg hlen, htake, hdrop, hvec, h]
  rfl

/-- A length byte other than zero, with something behind it. -/
theorem parse_short {l0 : UInt8} (hl0 : l0 ≠ 0) (hbody : body ≠ []) :
    parse (cmd.header ++ l0 :: body)
      = parseBody cmd.cla cmd.ins cmd.p1 cmd.p2 l0.toNat body parseShortLe := by
  rcases body with _ | ⟨h, _ | ⟨l, _ | ⟨b, body⟩⟩⟩
  · exact absurd rfl hbody
  · rfl
  · rfl
  · exact if_neg hl0

/-- A zero, a length of two bytes, and something behind it. -/
theorem parse_extended {h l : UInt8} (hbody : body ≠ []) :
    parse (cmd.header ++ 0 :: h :: l :: body)
      = parseBody cmd.cla cmd.ins cmd.p1 cmd.p2 (u16OfBe h l).toNat body parseExtendedLe := by
  rcases body with _ | ⟨b, body⟩
  · exact absurd rfl hbody
  · rfl

/-! ## Parsing undoes encoding -/

theorem ne_nil_of_data (h : 1 ≤ cmd.data.length) (tail : Bytes) : cmd.data.toBytes ++ tail ≠ [] := by
  refine List.ne_nil_of_length_pos ?_
  rw [List.length_append]
  exact Nat.lt_of_lt_of_le h (Nat.le_add_right _ _)

/-- A zero and two bytes: without data there is no room for the extended form, and the two bytes are
what follows short data of no bytes. -/
theorem parse_extended_le (cmd : CommandApdu) (le : UInt16) : parse (cmd.header ++ 0 :: u16be le)
    = parseBody cmd.cla cmd.ins cmd.p1 cmd.p2 0 (u16be le) parseShortLe := rfl

theorem parseShortLe_u16be (hle : cmd.le = some le) : parseShortLe (u16be le) = .ok cmd.le := by
  have hboth := u16OfBe_u16be le
  rw [hle, u16be, parseShortLe]
  split_ifs with hhigh
  · rw [hhigh] at hboth
    rw [hboth]
  · rw [hboth]

/-- Short data and what follows it. -/
theorem parse_short_data (hdata : 1 ≤ cmd.data.length ∧ cmd.data.length ≤ 255)
    (htail : parseShortLe tail = .ok cmd.le) :
    parse (cmd.header ++ UInt8.ofNat cmd.data.length :: (cmd.data.toBytes ++ tail)) = .ok cmd := by
  obtain ⟨hlen, hne⟩ := lcByte hdata
  rw [parse_short hne (ne_nil_of_data hdata.1 tail), hlen]
  exact parseBody_data htail

/-- Extended data and what follows it. -/
theorem parse_extended_data (hdata : 1 ≤ cmd.data.length) (htail : parseExtendedLe tail = .ok cmd.le) :
    parse (cmd.header ++ 0 :: (u16be (UInt16.ofNat cmd.data.length) ++ (cmd.data.toBytes ++ tail)))
      = .ok cmd := by
  have hform : parse (cmd.header
      ++ 0 :: (u16be (UInt16.ofNat cmd.data.length) ++ (cmd.data.toBytes ++ tail))) = _ :=
    parse_extended (ne_nil_of_data hdata tail)
  rw [hform, lcBytes]
  exact parseBody_data htail

/-- Without data the fields of a command are its header and its expected length. -/
theorem eq_of_no_data (hdata : cmd.data = .empty) :
    (⟨cmd.cla, cmd.ins, cmd.p1, cmd.p2, .empty, cmd.le⟩ : CommandApdu) = cmd := by
  rw [← hdata]

/-- **Parsing undoes encoding.** Every ISO 7816-4 encoding of a command, in short and in extended
form, is parsed to that command. -/
theorem parse_of_encodes {raw : Bytes} (h : Encodes cmd raw) : parse raw = .ok cmd := by
  cases h with
  | case1 hdata hle =>
    have hcmd := eq_of_no_data hdata
    rw [hle] at hcmd
    exact congrArg Except.ok hcmd
  | case2Short hdata hle hrange =>
    have hcmd := eq_of_no_data hdata
    rw [hle, ← leShort_leByte hrange] at hcmd
    exact congrArg Except.ok hcmd
  | case3Short hdata hle =>
    have htail : parseShortLe [] = .ok cmd.le := hle ▸ rfl
    have hend := parse_short_data hdata htail
    rwa [List.append_nil] at hend
  | case4Short hdata hle hrange =>
    refine parse_short_data hdata ?_
    rw [hle]
    exact congrArg (fun le ↦ Except.ok (some le)) (leShort_leByte hrange)
  | case2Extended hdata hle hrange =>
    refine (parse_extended_le cmd _).trans ?_
    have hbody : parseBody cmd.cla cmd.ins cmd.p1 cmd.p2 cmd.data.length (cmd.data.toBytes ++ _)
        parseShortLe = .ok cmd := parseBody_data (parseShortLe_u16be hle)
    rwa [hdata] at hbody
  | case3Extended hdata hle =>
    have htail : parseExtendedLe [] = .ok cmd.le := hle ▸ rfl
    have hend := parse_extended_data hdata htail
    rwa [List.append_nil] at hend
  | case4Extended hdata hle hrange =>
    refine parse_extended_data hdata ?_
    rw [hle]
    exact congrArg (fun le ↦ Except.ok (some le)) (u16OfBe_u16be _)

/-- PUT DATA of one byte, with 300 bytes expected. -/
def putOneByte : CommandApdu := ⟨0x00, 0xDA, 0x00, 0x5B, .truncated [0x41], some 300⟩

/-- In extended form. -/
theorem parse_of_encodes_put :
    parse [0x00, 0xDA, 0x00, 0x5B, 0x00, 0x00, 0x01, 0x41, 0x01, 0x2C] = .ok putOneByte := by
  have hdata : 1 ≤ putOneByte.data.length := by decide
  have hrange : 1 ≤ (300 : UInt16).toNat := by decide
  exact parse_of_encodes (.case4Extended hdata rfl hrange)

end CommandApdu

end Galdralag.OpenPgp
