import Mathlib.Data.Nat.Notation
import Mathlib.Data.List.Basic

/-!
# PINs as they are entered

A PIN or passphrase is checked before an attempt is made with it: it has at least five characters,
and they are letters and digits.
-/

set_option linter.all false

namespace Galdralag

/-- Errors returned before any PIN policy state transition. -/
inductive PinParseError where
  | tooShort
  | invalidCharacter
  deriving DecidableEq, Repr

/-- Parse a PIN or passphrase. -/
def parseUnlockPin (input : String) : Except PinParseError String :=
  if input.length < 5 then .error .tooShort
  else if input.toList.all Char.isAlphanum = false then .error .invalidCharacter
  else .ok input

/-- What is accepted is returned as it is, and has the documented form. -/
theorem parseUnlockPin_eq_ok_iff {input pin : String} : parseUnlockPin input = .ok pin ↔
    pin = input ∧ 5 ≤ input.length ∧ ∀ c ∈ input.toList, c.isAlphanum = true := by
  rw [parseUnlockPin, ← List.all_eq_true]
  by_cases hlen : input.length < 5
  · rw [if_pos hlen]
    constructor
    · rintro ⟨⟩
    · rintro ⟨-, hle, -⟩
      omega
  · rw [if_neg hlen]
    cases hall : input.toList.all Char.isAlphanum with
    | false =>
      rw [if_pos rfl]
      constructor
      · rintro ⟨⟩
      · rintro ⟨-, -, ⟨⟩⟩
    | true =>
      have hne : ¬ true = false := by rintro ⟨⟩
      rw [if_neg hne]
      constructor
      · rintro ⟨⟩
        exact ⟨rfl, Nat.not_lt.mp hlen, rfl⟩
      · rintro ⟨rfl, -, -⟩
        rfl

end Galdralag
