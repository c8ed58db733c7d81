import Galdralag.Foundation.FixedWidth
import Galdralag.Host.Clock

/-!
# Instants and their order as texts

An instant is a day of a year between 0 and 9999, a second of the day and a number of nanoseconds,
which is 10⁹ or more within a leap second. Its text has fixed-width numbers up to the seconds, then a
fraction of three, six or nine digits, as few as do not lose anything and none at all for a full
second, and then the offset `+00:00`.

Two texts differ in length when their fractions do. Where a shorter one ends, a `+` meets a digit or
the point, and it is below both; so texts compare as the instants do (`text_lt_iff`).
-/

set_option linter.all false

namespace Galdralag.Host

/-! ## The calendar -/

def isLeapYear (year : ℕ) : Bool := year % 4 = 0 && (year % 100 ≠ 0 || year % 400 = 0)

/-- The lengths of the months of a year. -/
def monthLengths (year : ℕ) : List ℕ :=
  [31, if isLeapYear year then 29 else 28, 31, 30, 31, 30, 31, 31, 30, 31, 30, 31]

def daysInYear (year : ℕ) : ℕ := if isLeapYear year then 366 else 365

/-- The month and the day in it of the `d`-th day, counted from the start of the month `m`. -/
def civil : List ℕ → ℕ → ℕ → ℕ × ℕ
  | [], m, d => (m, d)
  | len :: lens, m, d => if d ≤ len then (m, d) else civil lens (m + 1) (d - len)

/-- An instant in UTC. -/
structure UtcTime where
  year : ℕ
  /-- The day of the year, from 1. -/
  ordinal : ℕ
  /-- The second of the day. -/
  secs : ℕ
  /-- Nanoseconds, 10⁹ or more in a leap second. -/
  frac : ℕ
  year_le : year ≤ 9999
  ordinal_pos : 0 < ordinal
  ordinal_le : ordinal ≤ daysInYear year
  secs_lt : secs < 86400
  frac_lt : frac < 2000000000
  leap_second : 1000000000 ≤ frac → secs % 60 = 59

namespace UtcTime

/-- One instant is before another. -/
def Before (s t : UtcTime) : Prop :=
  s.year < t.year ∨ s.year = t.year ∧ (s.ordinal < t.ordinal ∨ s.ordinal = t.ordinal ∧
    (s.secs < t.secs ∨ s.secs = t.secs ∧ s.frac < t.frac))

instance (s t : UtcTime) : Decidable (s.Before t) := inferInstanceAs (Decidable (_ ∨ _))

instance : LT UtcTime := ⟨Before⟩

instance : DecidableLT UtcTime := fun s t ↦ inferInstanceAs (Decidable (s.Before t))

def month (t : UtcTime) : ℕ := (civil (monthLengths t.year) 1 t.ordinal).1

def day (t : UtcTime) : ℕ := (civil (monthLengths t.year) 1 t.ordinal).2

/-- The second of the minute, which is the 60th in a leap second. -/
def second (t : UtcTime) : ℕ := t.secs % 60 + t.frac / 1000000000

def nano (t : UtcTime) : ℕ := t.frac % 1000000000

end UtcTime

/-! ## Texts -/

def decimalDigit (i : ℕ) : Char := Char.ofNat (48 + i)

/-- The last `w` decimal digits of a number. -/
def dec (w n : ℕ) : List Char := pad 10 decimalDigit w n

/-- The fraction of a second, in three, six or nine digits. -/
def fraction (n : ℕ) : List Char :=
  if n = 0 then []
  else if n % 1000000 = 0 then '.' :: dec 3 (n / 1000000)
  else if n % 1000 = 0 then '.' :: dec 6 (n / 1000)
  else '.' :: dec 9 n

def zone : List Char := ['+', '0', '0', ':', '0', '0']

/-- The text of an instant. -/
def UtcTime.text (t : UtcTime) : String :=
  .ofList (dec 4 t.year ++ '-' :: (dec 2 t.month ++ '-' :: (dec 2 t.day ++ 'T' ::
    (dec 2 (t.secs / 3600) ++ ':' :: (dec 2 (t.secs / 60 % 60) ++ ':' :: (dec 2 t.second ++
      (fraction t.nano ++ zone)))))))

/-! ## Days -/

/-- The number of days of the months. -/
def totalDays : List ℕ → ℕ
  | [] => 0
  | len :: lens => len + totalDays lens

theorem totalDays_monthLengths (year : ℕ) : totalDays (monthLengths year) = daysInYear year := by
  rw [monthLengths, daysInYear]
  split_ifs <;> rfl

section Civil

variable {lens : List ℕ} {m d e : ℕ}

theorem le_civil (lens : List ℕ) : ∀ m d, m ≤ (civil lens m d).1 := by
  induction lens with
  | nil => exact fun m d ↦ Nat.le_refl m
  | cons len lens ih =>
    intro m d
    rw [civil]
    split_ifs
    · exact Nat.le_refl m
    · exact Nat.le_trans (Nat.le_succ m) (ih (m + 1) (d - len))

/-- Days compare as their months and days do. -/
theorem civil_lt_iff (lens : List ℕ) : ∀ {m d e}, d ≤ totalDays lens → e ≤ totalDays lens →
    ((civil lens m d).1 < (civil lens m e).1 ∨ (civil lens m d).1 = (civil lens m e).1 ∧
      (civil lens m d).2 < (civil lens m e).2 ↔ d < e) := by
  induction lens with
  | nil =>
    intro m d e _ _
    change m < m ∨ m = m ∧ d < e ↔ d < e
    omega
  | cons len lens ih =>
    intro m d e hd he
    rw [totalDays] at hd he
    rw [civil, civil]
    split_ifs with hd' he' he'
    · change m < m ∨ m = m ∧ d < e ↔ d < e
      omega
    · have hle := le_civil lens (m + 1) (e - len)
      exact iff_of_true (.inl hle) (by omega)
    · have hle := le_civil lens (m + 1) (d - len)
      exact iff_of_false (by omega) (by omega)
    · rw [ih (m := m + 1) (d := d - len) (e := e - len) (by omega) (by omega)]
      omega

theorem civil_le (hlens : ∀ len ∈ lens, len ≤ 31) : ∀ {m d}, d ≤ totalDays lens →
    (civil lens m d).1 ≤ m + lens.length ∧ (civil lens m d).2 ≤ 31 := by
  induction lens with
  | nil =>
    intro m d hd
    exact ⟨Nat.le_refl m, Nat.le_trans hd (Nat.zero_le 31)⟩
  | cons len lens ih =>
    intro m d hd
    rw [totalDays] at hd
    rw [civil, List.length_cons]
    split_ifs with hd'
    · exact ⟨Nat.le_add_right _ _, Nat.le_trans hd' (hlens len List.mem_cons_self)⟩
    · obtain ⟨hmonth, hday⟩ := ih (fun l hl ↦ hlens l (List.mem_cons_of_mem _ hl)) (m := m + 1)
        (d := d - len) (by omega)
      exact ⟨by omega, hday⟩

end Civil

theorem monthLengths_le (year : ℕ) : ∀ len ∈ monthLengths year, len ≤ 31 := by
  intro len hlen
  rw [monthLengths] at hlen
  split_ifs at hlen <;> simp at hlen <;> omega

namespace UtcTime

variable (s t : UtcTime)

theorem month_lt : t.month < 10 ^ 2 := by
  have hle := (civil_le (monthLengths_le t.year) (m := 1)
    (Nat.le_trans t.ordinal_le (Nat.le_of_eq (totalDays_monthLengths t.year).symm))).1
  change t.month ≤ 1 + 12 at hle
  omega

theorem day_lt : t.day < 10 ^ 2 := by
  have hle := (civil_le (monthLengths_le t.year) (m := 1)
    (Nat.le_trans t.ordinal_le (Nat.le_of_eq (totalDays_monthLengths t.year).symm))).2
  change t.day ≤ 31 at hle
  omega

/-- Days of one year compare as their months and days do. -/
theorem date_lt_iff (hyear : s.year = t.year) :
    (s.month < t.month ∨ s.month = t.month ∧ s.day < t.day) ↔ s.ordinal < t.ordinal := by
  have hs := s.ordinal_le
  have ht := t.ordinal_le
  rw [← totalDays_monthLengths] at hs ht
  rw [month, month, day, day, ← hyear]
  exact civil_lt_iff _ hs (by rwa [hyear])

/-- Seconds and nanoseconds compare as what is shown of them. -/
theorem time_lt_iff :
    (s.secs / 3600 < t.secs / 3600 ∨ s.secs / 3600 = t.secs / 3600 ∧
      (s.secs / 60 % 60 < t.secs / 60 % 60 ∨ s.secs / 60 % 60 = t.secs / 60 % 60 ∧
        (s.second < t.second ∨ s.second = t.second ∧ s.nano < t.nano))) ↔
      s.secs < t.secs ∨ s.secs = t.secs ∧ s.frac < t.frac := by
  have hs := s.frac_lt
  have ht := t.frac_lt
  have hsleap := s.leap_second
  have htleap := t.leap_second
  rw [second, second, nano, nano]
  omega

end UtcTime

/-! ## Fractions -/

theorem decimalDigit_lt_iff : ∀ i < 10, ∀ j < 10, (decimalDigit i < decimalDigit j ↔ i < j) := by
  decide

theorem decimalDigit_inj : ∀ i < 10, ∀ j < 10, decimalDigit i = decimalDigit j → i = j := by decide

theorem plus_lt_decimalDigit : ∀ i < 10, '+' < decimalDigit i := by decide

theorem not_decimalDigit_lt_plus : ∀ i < 10, ¬ decimalDigit i < '+' := by decide

theorem numerals_decimalDigit : Numerals 10 decimalDigit where
  lt_iff hi hj := decimalDigit_lt_iff _ hi _ hj
  eq_of_eq hi hj := decimalDigit_inj _ hi _ hj

theorem belowDigits_plus : BelowDigits 10 decimalDigit '+' where
  lt hi := plus_lt_decimalDigit _ hi
  not_lt hi := not_decimalDigit_lt_plus _ hi
  ne hi h := not_decimalDigit_lt_plus _ hi (by
    have hlt := plus_lt_decimalDigit _ hi
    rwa [h] at hlt ⊢)

theorem dec_append_lt_iff {w m n : ℕ} {us vs : List Char} (hm : m < 10 ^ w) (hn : n < 10 ^ w) :
    dec w m ++ us < dec w n ++ vs ↔ m < n ∨ m = n ∧ us < vs :=
  pad_append_lt_iff numerals_decimalDigit (by decide) hm hn

/-- The forms of a fraction: the shortest number of digits that says it exactly. -/
inductive FractionForm : ℕ → List Char → Prop
  | none : FractionForm 0 []
  | milli {a : ℕ} (hpos : 0 < a) (hlt : a < 10 ^ 3) : FractionForm (a * 10 ^ 6) ('.' :: dec 3 a)
  | micro {a : ℕ} (hlt : a < 10 ^ 6) (hne : a % 10 ^ 3 ≠ 0) :
    FractionForm (a * 10 ^ 3) ('.' :: dec 6 a)
  | nano {a : ℕ} (hlt : a < 10 ^ 9) (hne : a % 10 ^ 3 ≠ 0) : FractionForm a ('.' :: dec 9 a)

theorem fractionForm_fraction {n : ℕ} (h : n < 1000000000) : FractionForm n (fraction n) := by
  rw [fraction]
  split_ifs with hzero hmilli hmicro
  · rw [hzero]
    exact .none
  · have hn : n / 1000000 * 10 ^ 6 = n := by omega
    have hform := FractionForm.milli (a := n / 1000000) (by omega) (by omega)
    rwa [hn] at hform
  · have hn : n / 1000 * 10 ^ 3 = n := by omega
    have hform := FractionForm.micro (a := n / 1000) (by omega) (by omega)
    rwa [hn] at hform
  · exact .nano h hmicro

section Points

variable {w j k a b : ℕ}

theorem not_zone_lt : ¬ zone < zone := by decide

/-- Fractions with as many digits. -/
theorem point_lt_iff (ha : a < 10 ^ w) (hb : b < 10 ^ w) :
    '.' :: dec w a ++ zone < '.' :: dec w b ++ zone ↔ a < b := by
  rw [List.cons_append, List.cons_append, cons_lt_cons_same (by decide), dec_append_lt_iff ha hb]
  exact or_iff_left fun h ↦ not_zone_lt h.2

/-- A fraction against one with more digits. -/
theorem point_short_lt_iff (ha : a < 10 ^ j) (hb : b < 10 ^ (j + (k + 1))) :
    '.' :: dec j a ++ zone < '.' :: dec (j + (k + 1)) b ++ zone ↔ a * 10 ^ (k + 1) ≤ b := by
  rw [List.cons_append, List.cons_append, cons_lt_cons_same (by decide)]
  exact short_lt_iff numerals_decimalDigit (by decide) belowDigits_plus ha hb

theorem point_lt_short_iff (ha : a < 10 ^ j) (hb : b < 10 ^ (j + (k + 1))) :
    '.' :: dec (j + (k + 1)) b ++ zone < '.' :: dec j a ++ zone ↔ b < a * 10 ^ (k + 1) := by
  rw [List.cons_append, List.cons_append, cons_lt_cons_same (by decide)]
  exact lt_short_iff numerals_decimalDigit (by decide) belowDigits_plus ha hb

/-- No fraction is below every fraction. -/
theorem zone_lt_point (us : List Char) : zone < '.' :: us :=
  List.cons_lt_cons_iff.mpr (.inl (by decide))

theorem not_point_lt_zone (us : List Char) : ¬ '.' :: us < zone := by
  rw [zone, List.cons_lt_cons_iff]
  rintro (h | ⟨h, -⟩)
  · exact absurd h (by decide)
  · exact absurd h (by decide)

end Points

/-- Fractions compare as the numbers of nanoseconds. -/
theorem FractionForm.lt_iff {m n : ℕ} {us vs : List Char} (hm : FractionForm m us)
    (hn : FractionForm n vs) : us ++ zone < vs ++ zone ↔ m < n := by
  cases hm with
  | none =>
    cases hn with
    | none => exact iff_of_false not_zone_lt (Nat.lt_irrefl 0)
    | milli hpos _ => exact iff_of_true (zone_lt_point _) (by omega)
    | micro _ hne => exact iff_of_true (zone_lt_point _) (by omega)
    | nano _ hne => exact iff_of_true (zone_lt_point _) (by omega)
  | milli hpos hlt =>
    cases hn with
    | none => exact iff_of_false (not_point_lt_zone _) (Nat.not_lt_zero _)
    | milli _ hlt' =>
      rw [point_lt_iff hlt hlt']
      omega
    | micro hlt' hne =>
      rw [point_short_lt_iff (k := 2) hlt hlt']
      omega
    | nano hlt' hne =>
      rw [point_short_lt_iff (k := 5) hlt hlt']
      omega
  | micro hlt hne =>
    cases hn with
    | none => exact iff_of_false (not_point_lt_zone _) (Nat.not_lt_zero _)
    | milli _ hlt' =>
      rw [point_lt_short_iff (k := 2) hlt' hlt]
      omega
    | micro hlt' _ =>
      rw [point_lt_iff hlt hlt']
      omega
    | nano hlt' hne' =>
      rw [point_short_lt_iff (k := 2) hlt hlt']
      omega
  | nano hlt hne =>
    cases hn with
    | none => exact iff_of_false (not_point_lt_zone _) (Nat.not_lt_zero _)
    | milli _ hlt' => exact point_lt_short_iff (k := 5) hlt' hlt
    | micro hlt' _ => exact point_lt_short_iff (k := 2) hlt' hlt
    | nano hlt' _ => exact point_lt_iff hlt hlt'

theorem fraction_lt_iff {m n : ℕ} (hm : m < 1000000000) (hn : n < 1000000000) :
    fraction m ++ zone < fraction n ++ zone ↔ m < n :=
  (fractionForm_fraction hm).lt_iff (fractionForm_fraction hn)

/-! ## Texts of instants -/

namespace UtcTime

variable (s t : UtcTime)

theorem year_lt : t.year < 10 ^ 4 := by
  have hle := t.year_le
  omega

theorem hour_lt : t.secs / 3600 < 10 ^ 2 := by
  have hlt := t.secs_lt
  omega

theorem minute_lt : t.secs / 60 % 60 < 10 ^ 2 := by omega

theorem second_lt : t.second < 10 ^ 2 := by
  have hlt := t.frac_lt
  rw [second]
  omega

theorem nano_lt : t.nano < 1000000000 := Nat.mod_lt _ (by decide)

/-- **Texts compare as instants.** -/
theorem text_lt_iff : s.text < t.text ↔ s < t := by
  have hdash : ¬ '-' < '-' := by decide
  have hdate : ¬ 'T' < 'T' := by decide
  have hcolon : ¬ ':' < ':' := by decide
  rw [String.lt_iff, text, text, String.toList_ofList, String.toList_ofList]
  simp only [dec_append_lt_iff s.year_lt t.year_lt, dec_append_lt_iff s.month_lt t.month_lt,
    dec_append_lt_iff s.day_lt t.day_lt, dec_append_lt_iff s.hour_lt t.hour_lt,
    dec_append_lt_iff s.minute_lt t.minute_lt, dec_append_lt_iff s.second_lt t.second_lt,
    cons_lt_cons_same hdash, cons_lt_cons_same hdate, cons_lt_cons_same hcolon,
    fraction_lt_iff s.nano_lt t.nano_lt, time_lt_iff]
  refine or_congr_right (and_congr_right fun hyear ↦ ?_)
  have hlt := date_lt_iff s t hyear
  have hgt := date_lt_iff t s hyear.symm
  omega

/-- Instants of which neither is before the other are equal. -/
theorem eq_of_not_lt {s t : UtcTime} (hst : ¬ s < t) (hts : ¬ t < s) : s = t := by
  have hfields : s.year = t.year ∧ s.ordinal = t.ordinal ∧ s.secs = t.secs ∧ s.frac = t.frac := by
    change ¬ (_ ∨ _) at hst hts
    omega
  cases s
  cases t
  simp only at hfields
  obtain ⟨rfl, rfl, rfl, rfl⟩ := hfields
  rfl

/-- Texts tell instants apart. -/
theorem text_injective {s t : UtcTime} (h : s.text = t.text) : s = t := by
  have hirrefl : ¬ t < t := by
    change ¬ (_ ∨ _)
    omega
  refine eq_of_not_lt (fun hlt ↦ hirrefl ?_) fun hlt ↦ hirrefl ?_
  · rwa [← text_lt_iff, h, text_lt_iff] at hlt
  · rwa [← text_lt_iff, h, text_lt_iff] at hlt

/-- Half a second into a year. -/
example : (⟨2025, 1, 0, 500000000, by decide, by decide, by decide, by decide, by decide,
    by decide⟩ : UtcTime).text = "2025-01-01T00:00:00.500+00:00" := by decide

end UtcTime

end Galdralag.Host
