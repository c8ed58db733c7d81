import Galdralag.Cipher.Profile
import Galdralag.PinPolicy.PinInput

/-!
# PINs as text

A card gets a PIN as bytes, the parser for PINs gets it as text. The characters of a text are the
bytes of its encoding that can come first in one: the others continue a character.
-/

set_option linter.all false

namespace Galdralag.OpenPgp

open Cipher (utf8 fromUtf8 utf8_of_fromUtf8 utf8_eq_flatMap)

/-- The number of characters that begin in some bytes. -/
def charCount (data : Bytes) : ℕ := data.countP fun b ↦ decide b.IsUTF8FirstByte

/-- The parser accepts no text with these bytes. -/
def Malformed (data : Bytes) : Prop :=
  ∀ input, fromUtf8 data = some input → ∃ e, parseUnlockPin input = .error e

theorem charCount_nil : charCount [] = 0 := List.countP_nil

theorem charCount_append (data rest : Bytes) :
    charCount (data ++ rest) = charCount data + charCount rest := List.countP_append

theorem charCount_le_length (data : Bytes) : charCount data ≤ data.length := List.countP_le_length

/-- The encoding of a character begins one. -/
theorem charCount_utf8EncodeChar (c : Char) : charCount (String.utf8EncodeChar c) = 1 := by
  have hne : String.utf8EncodeChar c ≠ [] := String.utf8EncodeChar_ne_nil
  have hfirst : ∀ i (hi : i < (String.utf8EncodeChar c).length),
      ((String.utf8EncodeChar c)[i]).IsUTF8FirstByte ↔ i = 0 := fun i hi ↦
    UInt8.isUTF8FirstByte_getElem_utf8EncodeChar
  rw [charCount]
  generalize String.utf8EncodeChar c = l at hne hfirst ⊢
  cases l with
  | nil => exact absurd rfl hne
  | cons b l =>
    have hhead : b.IsUTF8FirstByte := (hfirst 0 (Nat.succ_pos _)).mpr rfl
    have htail : ∀ x ∈ l, ¬ decide x.IsUTF8FirstByte = true := by
      intro x hx
      obtain ⟨i, hi, rfl⟩ := List.mem_iff_getElem.mp hx
      rw [decide_eq_true_eq]
      intro hx
      exact absurd ((hfirst (i + 1) (Nat.succ_lt_succ hi)).mp hx) (Nat.succ_ne_zero i)
    rw [List.countP_cons, List.countP_eq_zero.mpr htail, if_pos (decide_eq_true hhead)]

/-- A text has as many characters as begin in its bytes. -/
theorem charCount_utf8 (s : String) : charCount (utf8 s) = s.length := by
  have hlist : ∀ l : List Char, charCount (l.flatMap String.utf8EncodeChar) = l.length := by
    intro l
    induction l with
    | nil => exact charCount_nil
    | cons c l ih =>
      rw [List.flatMap_cons, charCount_append, charCount_utf8EncodeChar, ih, List.length_cons,
        Nat.add_comm]
  rw [utf8_eq_flatMap, hlist, String.length_toList]

/-- Bytes in which fewer than five characters begin are rejected. -/
theorem malformed_of_charCount_lt {data : Bytes} (h : charCount data < 5) : Malformed data := by
  intro input hinput
  rw [← utf8_of_fromUtf8 hinput, charCount_utf8] at h
  exact ⟨.tooShort, by rw [parseUnlockPin, if_pos h]⟩

end Galdralag.OpenPgp
