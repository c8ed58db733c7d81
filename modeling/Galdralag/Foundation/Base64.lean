import Galdralag.Foundation.Bytes

/-!
# Base64

Three bytes are written as four characters of an alphabet of sixty-four, and one or two bytes at the
end are filled up with equals signs. Decoding accepts what encoding writes and nothing else: the
padding has to be there, and the bits that it stands for have to be zero.
-/

set_option linter.all false

namespace Galdralag.Base64

/-- The character for six bits. -/
def symbol (n : ℕ) : Char :=
  if n < 26 then Char.ofNat (65 + n)
  else if n < 52 then Char.ofNat (71 + n)
  else if n < 62 then Char.ofNat (n - 4)
  else if n = 62 then '+' else '/'

/-- The six bits that a character stands for. -/
def value (c : Char) : Option ℕ :=
  if 65 ≤ c.toNat ∧ c.toNat ≤ 90 then some (c.toNat - 65)
  else if 97 ≤ c.toNat ∧ c.toNat ≤ 122 then some (c.toNat - 71)
  else if 48 ≤ c.toNat ∧ c.toNat ≤ 57 then some (c.toNat + 4)
  else if c = '+' then some 62
  else if c = '/' then some 63 else none

/-- Write bytes. -/
def encode : Bytes → List Char
  | [] => []
  | [a] => [symbol (a.toNat / 4), symbol (a.toNat % 4 * 16), '=', '=']
  | [a, b] => [symbol (a.toNat / 4), symbol (a.toNat % 4 * 16 + b.toNat / 16),
      symbol (b.toNat % 16 * 4), '=']
  | a :: b :: c :: rest => symbol (a.toNat / 4) :: symbol (a.toNat % 4 * 16 + b.toNat / 16) ::
      symbol (b.toNat % 16 * 4 + c.toNat / 64) :: symbol (c.toNat % 64) :: encode rest

/-- One byte, from two characters. -/
def decodeOne (a b : Char) : Option Bytes := do
  let x ← value a
  let y ← value b
  if y % 16 = 0 then some [.ofNat (x * 4 + y / 16)] else none

/-- Two bytes, from three characters. -/
def decodeTwo (a b c : Char) : Option Bytes := do
  let x ← value a
  let y ← value b
  let z ← value c
  if z % 4 = 0 then some [.ofNat (x * 4 + y / 16), .ofNat (y % 16 * 16 + z / 4)] else none

/-- Three bytes, from four characters. -/
def decodeThree (a b c d : Char) : Option Bytes := do
  let x ← value a
  let y ← value b
  let z ← value c
  let w ← value d
  some [.ofNat (x * 4 + y / 16), .ofNat (y % 16 * 16 + z / 4), .ofNat (z % 4 * 64 + w)]

/-- Read bytes. -/
def decode : List Char → Option Bytes
  | [] => some []
  | a :: b :: c :: d :: rest =>
    if d = '=' then
      if rest = [] then if c = '=' then decodeOne a b else decodeTwo a b c else none
    else do
      let front ← decodeThree a b c d
      let tail ← decode rest
      some (front ++ tail)
  | _ => none

/-! ## The round trip -/

/-- The alphabet is read back, and the filling is not part of it. -/
theorem value_symbol {n : ℕ} (h : n < 64) : value (symbol n) = some n ∧ symbol n ≠ '=' := by
  have hall : ∀ n < 64, value (symbol n) = some n ∧ symbol n ≠ '=' := by decide
  exact hall n h

/-- A byte is its upper six bits and its lower two. -/
theorem ofNat_six_two (a : UInt8) (n : ℕ) (h : n < 16) :
    UInt8.ofNat (a.toNat / 4 * 4 + (a.toNat % 4 * 16 + n) / 16) = a := by
  have hsum : a.toNat / 4 * 4 + (a.toNat % 4 * 16 + n) / 16 = a.toNat := by omega
  rw [hsum, UInt8.ofNat_toNat]

/-- A byte is its upper four bits and its lower four. -/
theorem ofNat_four_four (m : ℕ) (b : UInt8) (n : ℕ) (h : n < 4) :
    UInt8.ofNat ((m * 16 + b.toNat / 16) % 16 * 16 + (b.toNat % 16 * 4 + n) / 4) = b := by
  have hb := b.toNat_lt
  have hsum : (m * 16 + b.toNat / 16) % 16 * 16 + (b.toNat % 16 * 4 + n) / 4 = b.toNat := by omega
  rw [hsum, UInt8.ofNat_toNat]

/-- A byte is its upper two bits and its lower six. -/
theorem ofNat_two_six (m : ℕ) (c : UInt8) :
    UInt8.ofNat ((m * 4 + c.toNat / 64) % 4 * 64 + c.toNat % 64) = c := by
  have hc := c.toNat_lt
  have hsum : (m * 4 + c.toNat / 64) % 4 * 64 + c.toNat % 64 = c.toNat := by omega
  rw [hsum, UInt8.ofNat_toNat]

/-- **Round trip.** What is written is read back. -/
theorem decode_encode (bs : Bytes) : decode (encode bs) = some bs := by
  induction bs using encode.induct with
  | case1 => rfl
  | case2 a =>
    have ha := a.toNat_lt
    have hx := value_symbol (n := a.toNat / 4) (by omega)
    have hy := value_symbol (n := a.toNat % 4 * 16) (by omega)
    have hzero : a.toNat % 4 * 16 % 16 = 0 := Nat.mul_mod_left _ _
    have hbyte := ofNat_six_two a 0 (by decide)
    rw [Nat.add_zero] at hbyte
    rw [encode, decode, if_pos rfl, if_pos rfl, if_pos rfl, decodeOne, hx.1, hy.1]
    change (if a.toNat % 4 * 16 % 16 = 0 then _ else _) = _
    rw [if_pos hzero, hbyte]
  | case3 a b =>
    have ha := a.toNat_lt
    have hb := b.toNat_lt
    have hx := value_symbol (n := a.toNat / 4) (by omega)
    have hy := value_symbol (n := a.toNat % 4 * 16 + b.toNat / 16) (by omega)
    have hz := value_symbol (n := b.toNat % 16 * 4) (by omega)
    have hzero : b.toNat % 16 * 4 % 4 = 0 := Nat.mul_mod_left _ _
    have hbyte := ofNat_four_four (a.toNat % 4) b 0 (by decide)
    rw [Nat.add_zero] at hbyte
    rw [encode, decode, if_pos rfl, if_pos rfl, if_neg hz.2, decodeTwo, hx.1, hy.1, hz.1]
    change (if b.toNat % 16 * 4 % 4 = 0 then _ else _) = _
    rw [if_pos hzero, ofNat_six_two a (b.toNat / 16) (by omega), hbyte]
  | case4 a b c rest ih =>
    have ha := a.toNat_lt
    have hb := b.toNat_lt
    have hc := c.toNat_lt
    have hx := value_symbol (n := a.toNat / 4) (by omega)
    have hy := value_symbol (n := a.toNat % 4 * 16 + b.toNat / 16) (by omega)
    have hz := value_symbol (n := b.toNat % 16 * 4 + c.toNat / 64) (by omega)
    have hw := value_symbol (n := c.toNat % 64) (by omega)
    rw [encode, decode, if_neg hw.2, decodeThree, hx.1, hy.1, hz.1, hw.1, ih]
    change some ([_, _, _] ++ rest) = _
    rw [ofNat_six_two a (b.toNat / 16) (by omega),
      ofNat_four_four (a.toNat % 4) b (c.toNat / 64) (by omega),
      ofNat_two_six (b.toNat % 16) c]
    rfl

/-- What is written consists of letters, digits, plus signs, slashes and equals signs. -/
theorem mem_encode {bs : Bytes} {c : Char} (hc : c ∈ encode bs) :
    c.isAlphanum = true ∨ c ∈ ['+', '/', '='] := by
  have hsymbol : ∀ n < 64, (symbol n).isAlphanum = true ∨ symbol n ∈ ['+', '/', '='] := by decide
  have hfill : '=' ∈ ['+', '/', '='] := by decide
  induction bs using encode.induct with
  | case1 => exact absurd hc List.not_mem_nil
  | case2 a =>
    have ha := a.toNat_lt
    simp only [encode, List.mem_cons, List.not_mem_nil, or_false, or_self] at hc
    rcases hc with rfl | rfl | rfl
    · exact hsymbol _ (by omega)
    · exact hsymbol _ (by omega)
    · exact .inr hfill
  | case3 a b =>
    have ha := a.toNat_lt
    have hb := b.toNat_lt
    simp only [encode, List.mem_cons, List.not_mem_nil, or_false] at hc
    rcases hc with rfl | rfl | rfl | rfl
    · exact hsymbol _ (by omega)
    · exact hsymbol _ (by omega)
    · exact hsymbol _ (by omega)
    · exact .inr hfill
  | case4 a b c' rest ih =>
    have ha := a.toNat_lt
    have hb := b.toNat_lt
    have hc' := c'.toNat_lt
    simp only [encode, List.mem_cons] at hc
    rcases hc with rfl | rfl | rfl | rfl | hc
    · exact hsymbol _ (by omega)
    · exact hsymbol _ (by omega)
    · exact hsymbol _ (by omega)
    · exact hsymbol _ (by omega)
    · exact ih hc

end Galdralag.Base64
