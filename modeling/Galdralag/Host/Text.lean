import Galdralag.Foundation.TextSlice
import Mathlib.Data.List.TakeWhile
import Mathlib.Data.Nat.Notation

/-!
# Characters of texts

Some texts are trimmed before they are stored or compared: the white space at both ends goes. Of
others only the hexadecimal digits count. What such a digit is like is checked once for every ASCII
character.
-/

set_option linter.all false

namespace Galdralag.Host

/-- The characters of a literal, without a walk through its bytes. -/
theorem toList_of_eq {s : String} {cs : List Char} (h : s = String.ofList cs) : s.toList = cs := by
  rw [h, String.toList_ofList]

/-- Characters that are trimmed from the ends of a text. -/
def isWhitespace (c : Char) : Bool :=
  (9 ≤ c.toNat ∧ c.toNat ≤ 13) ∨ (0x2000 ≤ c.toNat ∧ c.toNat ≤ 0x200A) ∨
    c.toNat ∈ [0x20, 0x85, 0xA0, 0x1680, 0x2028, 0x2029, 0x202F, 0x205F, 0x3000]

/-- A text without the white space at its ends. -/
def trim (s : List Char) : List Char :=
  ((s.dropWhile isWhitespace).reverse.dropWhile isWhitespace).reverse

theorem isWhitespace_head_dropWhile {s : List Char} {c : Char} {rest : List Char}
    (h : s.dropWhile isWhitespace = c :: rest) : isWhitespace c = false := by
  have hnot := List.head?_dropWhile_not isWhitespace s
  rw [h, List.head?_cons] at hnot
  simpa using hnot

/-- A text that starts with no white space loses nothing in front. -/
theorem dropWhile_of_head {s : List Char} (h : ∀ c rest, s = c :: rest → isWhitespace c = false) :
    s.dropWhile isWhitespace = s := by
  rcases s with _ | ⟨c, rest⟩
  · rfl
  · rw [List.dropWhile_cons, h c rest rfl]
    rfl

/-- What is trimmed starts where the text starts after its leading white space. -/
theorem isWhitespace_head_trim {s : List Char} {c : Char} {rest : List Char}
    (h : trim s = c :: rest) : isWhitespace c = false := by
  have hpre : trim s <+: s.dropWhile isWhitespace := by
    rw [← List.reverse_suffix, trim, List.reverse_reverse]
    exact List.dropWhile_suffix _
  obtain ⟨tail, htail⟩ := hpre
  rw [h, List.cons_append] at htail
  exact isWhitespace_head_dropWhile htail.symm

theorem isWhitespace_last_trim {s : List Char} {c : Char} {rest : List Char}
    (h : (trim s).reverse = c :: rest) : isWhitespace c = false := by
  rw [trim, List.reverse_reverse] at h
  exact isWhitespace_head_dropWhile h

/-- A text that has no white space at its ends stays. -/
theorem trim_eq_self {s : List Char} (hfront : ∀ c rest, s = c :: rest → isWhitespace c = false)
    (hback : ∀ c rest, s.reverse = c :: rest → isWhitespace c = false) : trim s = s := by
  rw [trim, dropWhile_of_head hfront, dropWhile_of_head hback, List.reverse_reverse]

/-- Trimming once is enough. -/
@[simp] theorem trim_trim (s : List Char) : trim (trim s) = trim s :=
  trim_eq_self (fun _ _ h ↦ isWhitespace_head_trim h) fun _ _ h ↦ isWhitespace_last_trim h

/-- A text without white space stays. -/
theorem trim_of_dark {s : List Char} (h : ∀ c ∈ s, isWhitespace c = false) : trim s = s := by
  refine trim_eq_self (fun c rest hs ↦ ?_) fun c rest hs ↦ ?_
  · exact h c (hs ▸ List.mem_cons_self)
  · exact h c (List.mem_reverse.mp (hs ▸ List.mem_cons_self))

/-- White space in front goes. -/
theorem trim_append_left {w : List Char} (hw : ∀ c ∈ w, isWhitespace c = true) (s : List Char) :
    trim (w ++ s) = trim s := by
  rw [trim, List.dropWhile_append_of_pos hw, trim]

/-- White space behind goes. -/
theorem trim_append_right {w : List Char} (hw : ∀ c ∈ w, isWhitespace c = true) (s : List Char) :
    trim (s ++ w) = trim s := by
  have hback : ∀ c ∈ w.reverse, isWhitespace c = true := fun c hc ↦ hw c (List.mem_reverse.mp hc)
  have hnil : w.dropWhile isWhitespace = [] := List.dropWhile_eq_nil_iff.mpr hw
  rw [trim, trim, List.dropWhile_append]
  rcases hs : s.dropWhile isWhitespace with _ | ⟨c, rest⟩
  · rw [List.isEmpty_nil, if_pos rfl, hnil]
  · rw [List.isEmpty_cons, if_neg Bool.false_ne_true, List.reverse_append,
      List.dropWhile_append_of_pos hback]

/-! ## Lines -/

/-- A line without a carriage return at its end. -/
def stripCr (line : List Char) : List Char :=
  if line.getLast? = some '\r' then line.dropLast else line

/-- The lines of a text, of which the first has begun with `line`. -/
def linesFrom (line : List Char) : List Char → List (List Char)
  | [] => if line = [] then [] else [line]
  | c :: s => if c = '\n' then stripCr line :: linesFrom [] s else linesFrom (line ++ [c]) s

/-- The lines of a text. -/
def lines (s : List Char) : List (List Char) := linesFrom [] s

theorem linesFrom_append {l : List Char} (hl : '\n' ∉ l) (line rest : List Char) :
    linesFrom line (l ++ '\n' :: rest) = stripCr (line ++ l) :: lines rest := by
  induction l generalizing line with
  | nil => rw [List.nil_append, linesFrom, if_pos rfl, List.append_nil, lines]
  | cons c l ih =>
    rw [List.mem_cons, not_or] at hl
    rw [List.cons_append, linesFrom, if_neg (Ne.symm hl.1), ih hl.2, List.append_assoc,
      List.singleton_append]

/-- Lines that are written one after the other are read back. -/
theorem lines_flatMap {ls : List (List Char)} (h : ∀ l ∈ ls, '\n' ∉ l) :
    lines (ls.flatMap fun l ↦ l ++ ['\n']) = ls.map stripCr := by
  induction ls with
  | nil => rfl
  | cons l ls ih =>
    rw [List.flatMap_cons, List.append_assoc, List.singleton_append, lines,
      linesFrom_append (h l List.mem_cons_self), List.nil_append,
      ih fun l' hl' ↦ h l' (List.mem_cons_of_mem l hl'), List.map_cons]

/-- A carriage return is trimmed anyway. -/
theorem trim_stripCr (l : List Char) : trim (stripCr l) = trim l := by
  rw [stripCr]
  by_cases h : l.getLast? = some '\r'
  · obtain ⟨front, rfl⟩ := List.getLast?_eq_some_iff.mp h
    have hcr : ∀ c ∈ ['\r'], isWhitespace c = true := List.forall_mem_singleton.mpr rfl
    rw [if_pos h, List.dropLast_concat, trim_append_right hcr]
  · rw [if_neg h]

/-! ## Hexadecimal digits -/

/-- A property of the first 128 characters is one of every ASCII character. -/
theorem ascii_all {p : Char → Prop} (h : ∀ n < 128, p (Char.ofNat n)) {c : Char}
    (hc : c.toNat < 128) : p c := by
  have hp := h c.toNat hc
  rwa [Char.ofNat_toNat] at hp

/-- Only ASCII letters change case. -/
theorem toLower_of_not_ascii {c : Char} (hc : 128 ≤ c.toNat) : c.toLower = c := by
  have hle : ¬ (c.val ≥ 'A'.val ∧ c.val ≤ 'Z'.val) := by
    rintro ⟨-, hz⟩
    have hz' : c.toNat ≤ 90 := hz
    omega
  exact dif_neg hle

theorem toUpper_of_not_ascii {c : Char} (hc : 128 ≤ c.toNat) : c.toUpper = c := by
  have hle : ¬ ('a'.val ≤ c.val ∧ c.val ≤ 'z'.val) := by
    rintro ⟨-, hz⟩
    have hz' : c.toNat ≤ 122 := hz
    omega
  exact dif_neg hle

def isAsciiHexdigit (c : Char) : Bool :=
  (48 ≤ c.toNat ∧ c.toNat ≤ 57) ∨ (65 ≤ c.toNat ∧ c.toNat ≤ 70) ∨ (97 ≤ c.toNat ∧ c.toNat ≤ 102)

theorem ascii_of_hexdigit {c : Char} (h : isAsciiHexdigit c = true) : c.toNat < 128 := by
  rw [isAsciiHexdigit, decide_eq_true_iff] at h
  omega

/-- A property of the hexadecimal digits among the first 128 characters is one of all of them. -/
theorem hexdigit_all {p : Char → Prop}
    (h : ∀ n < 128, isAsciiHexdigit (Char.ofNat n) = true → p (Char.ofNat n)) {c : Char}
    (hc : isAsciiHexdigit c = true) : p c :=
  ascii_all (p := fun c ↦ isAsciiHexdigit c = true → p c) h (ascii_of_hexdigit hc) hc

theorem not_isWhitespace_hexdigit {c : Char} (h : isAsciiHexdigit c = true) :
    isWhitespace c = false :=
  hexdigit_all (p := fun c ↦ isWhitespace c = false) (by decide +kernel) h

theorem utf8Size_hexdigit {c : Char} (h : isAsciiHexdigit c = true) : c.utf8Size = 1 :=
  hexdigit_all (p := fun c ↦ c.utf8Size = 1) (by decide +kernel) h

theorem byteLength_hexdigits {hex : List Char} (h : ∀ c ∈ hex, isAsciiHexdigit c = true) :
    byteLength hex = hex.length := byteLength_of_ascii fun c hc ↦ utf8Size_hexdigit (h c hc)

end Galdralag.Host
