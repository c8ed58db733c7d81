import Galdralag.Host.Contacts

/-!
# Finding a contact by its OpenPGP fingerprint

A fingerprint is stored as it was given and asked for as it is typed. Both are normalised first, the
query by the program and the stored text by the database, and the two do not do the same: the program
drops every character that is no hexadecimal digit, the database drops spaces and colons.

What the database finds is what the program takes for the same. The converse fails for stored texts
that hold any other character.
-/

set_option linter.all false

namespace Galdralag.Host

/-! ## The two normalisers -/

/-- Forty hexadecimal digits in upper case, if the text holds forty. -/
def normalizeOpenpgpFingerprintHex (raw : String) : Option String :=
  let compact := raw.toList.filter isAsciiHexdigit
  if byteLength compact ≠ 40 then none else some (String.ofList (compact.map Char.toUpper))

/-- `upper`, which changes ASCII letters only. -/
def sqlUpper (s : List Char) : List Char := s.map Char.toUpper

/-- `trim`, which removes spaces only. -/
def sqlTrim (s : List Char) : List Char :=
  ((s.dropWhile (· = ' ')).reverse.dropWhile (· = ' ')).reverse

/-- `replace`, with one character and nothing in its place. -/
def sqlRemove (c : Char) (s : List Char) : List Char := s.filter (· ≠ c)

/-- What the stored column is compared as. -/
def sqlNormalized (pgpFingerprint : Option String) : String :=
  String.ofList (sqlRemove ':' (sqlRemove ' ' (sqlUpper (sqlTrim (pgpFingerprint.getD "").toList))))

/-- Load the first contact whose stored fingerprint matches. -/
def contactGetByPgpFingerprintNormalized {Time : Type} (clock : Rfc3339 Time)
    (db : Db ContactColumns) (fpNormalized : String) :
    Except GaldraError (Identity Time ContactColumns) :=
  (db.identities.find? fun r ↦ sqlNormalized r.columns.pgpFingerprint = fpNormalized).elim
    (.error (.contactNotFound fpNormalized)) fun row ↦ .ok (identityFromRow clock row)

/-! ## What they have in common -/

/-- A character that the database drops. -/
def IsSeparator (c : Char) : Prop := c = ' ' ∨ c = ':'

instance (c : Char) : Decidable (IsSeparator c) := inferInstanceAs (Decidable (_ ∨ _))

/-- The stored text holds a character that only the program drops. -/
def Foreign (s : String) : Prop := ∃ c ∈ s.toList, isAsciiHexdigit c = false ∧ ¬ IsSeparator c

/-- A digit is a digit in either case. -/
theorem isAsciiHexdigit_toUpper (c : Char) : isAsciiHexdigit c.toUpper = isAsciiHexdigit c := by
  rcases Nat.lt_or_ge c.toNat 128 with hc | hc
  · exact ascii_all (p := fun c ↦ isAsciiHexdigit c.toUpper = isAsciiHexdigit c)
      (by decide +kernel) hc
  · rw [toUpper_of_not_ascii hc]

/-- So is a separator, which has no case. -/
theorem toUpper_eq_separator (c : Char) :
    (c.toUpper = ' ' ↔ c = ' ') ∧ (c.toUpper = ':' ↔ c = ':') := by
  rcases Nat.lt_or_ge c.toNat 128 with hc | hc
  · exact ascii_all (p := fun c ↦ (c.toUpper = ' ' ↔ c = ' ') ∧ (c.toUpper = ':' ↔ c = ':'))
      (by decide) hc
  · rw [toUpper_of_not_ascii hc]
    exact ⟨Iff.rfl, Iff.rfl⟩

theorem not_isSeparator_hexdigit {c : Char} (h : isAsciiHexdigit c = true) : ¬ IsSeparator c :=
  hexdigit_all (p := fun c ↦ ¬ IsSeparator c) (by decide) h

/-- What is dropped at an end is dropped anyway. -/
theorem filter_dropWhile {α : Type} (p : α → Bool) (s : List α) :
    (s.dropWhile p).filter (fun c ↦ !p c) = s.filter fun c ↦ !p c := by
  induction s with
  | nil => rfl
  | cons c s ih =>
    rcases hc : p c with _ | _
    · rw [List.dropWhile_cons_of_neg (by rw [hc]; exact Bool.false_ne_true)]
    · rw [List.dropWhile_cons_of_pos hc, ih, List.filter_cons_of_neg]
      rw [hc]
      exact Bool.false_ne_true

/-- The database drops the separators, and nothing else. -/
theorem sqlNormalized_eq (s : String) : sqlNormalized (some s) =
    String.ofList ((s.toList.filter fun c ↦ ¬ IsSeparator c).map Char.toUpper) := by
  have htrim : (sqlTrim s.toList).filter (fun c ↦ !decide (c = ' ')) =
      s.toList.filter fun c ↦ !decide (c = ' ') := by
    rw [sqlTrim, List.filter_reverse, filter_dropWhile, List.filter_reverse, List.reverse_reverse,
      filter_dropWhile]
  have hspace : sqlRemove ' ' (sqlUpper (sqlTrim s.toList)) =
      (s.toList.filter fun c ↦ !decide (c = ' ')).map Char.toUpper := by
    rw [← htrim, sqlRemove, sqlUpper, List.filter_map]
    refine congrArg (List.map Char.toUpper) (List.filter_congr fun c _ ↦ ?_)
    simp [(toUpper_eq_separator c).1]
  rw [sqlNormalized, Option.getD_some, hspace, sqlRemove, List.filter_map, List.filter_filter]
  refine congrArg (fun t ↦ String.ofList (t.map Char.toUpper)) (List.filter_congr fun c _ ↦ ?_)
  simp [IsSeparator, (toUpper_eq_separator c).2, Bool.and_comm]

theorem normalize_eq_some {raw n : String} : normalizeOpenpgpFingerprintHex raw = some n ↔
    (raw.toList.filter isAsciiHexdigit).length = 40 ∧
      n = String.ofList ((raw.toList.filter isAsciiHexdigit).map Char.toUpper) := by
  have hbytes : byteLength (raw.toList.filter isAsciiHexdigit) =
      (raw.toList.filter isAsciiHexdigit).length :=
    byteLength_hexdigits fun c hc ↦ (List.mem_filter.mp hc).2
  rw [normalizeOpenpgpFingerprintHex, hbytes]
  by_cases hlen : (raw.toList.filter isAsciiHexdigit).length = 40
  · rw [if_neg (not_not.mpr hlen), Option.some_inj]
    exact ⟨fun h ↦ ⟨hlen, h.symm⟩, fun h ↦ h.2.symm⟩
  · rw [if_pos hlen]
    exact iff_of_false (by rintro ⟨⟩) fun h ↦ hlen h.1

/-- **The two normalisers.** A stored text is compared as `n`, where `n` is what the program makes
of some query, exactly if the program makes `n` of it and it holds no foreign character. -/
theorem sqlNormalized_eq_iff {q s n : String} (hq : normalizeOpenpgpFingerprintHex q = some n) :
    sqlNormalized (some s) = n ↔ normalizeOpenpgpFingerprintHex s = some n ∧ ¬ Foreign s := by
  obtain ⟨hlen, rfl⟩ := normalize_eq_some.mp hq
  -- the digits are among the characters that the database keeps
  have hkept : (s.toList.filter fun c ↦ ¬ IsSeparator c).filter isAsciiHexdigit =
      s.toList.filter isAsciiHexdigit := by
    rw [List.filter_filter]
    refine List.filter_congr fun c _ ↦ ?_
    rcases hc : isAsciiHexdigit c with _ | _
    · rfl
    · simpa using not_isSeparator_hexdigit hc
  have hforeign : ¬ Foreign s ↔ (s.toList.filter fun c ↦ ¬ IsSeparator c) =
      s.toList.filter isAsciiHexdigit := by
    rw [← hkept, eq_comm, List.filter_eq_self]
    constructor
    · intro h c hc
      obtain ⟨hmem, hsep⟩ := List.mem_filter.mp hc
      exact Bool.not_eq_false _ ▸ fun hdigit ↦ h ⟨c, hmem, hdigit, of_decide_eq_true hsep⟩
    · rintro h ⟨c, hmem, hdigit, hsep⟩
      have hc := h c (List.mem_filter.mpr ⟨hmem, decide_eq_true hsep⟩)
      rw [hdigit] at hc
      cases hc
  rw [sqlNormalized_eq, normalize_eq_some, hforeign, String.ofList_inj, String.ofList_inj]
  constructor
  · intro heq
    have hall : (s.toList.filter fun c ↦ ¬ IsSeparator c) = s.toList.filter isAsciiHexdigit := by
      rw [← hkept, eq_comm, List.filter_eq_self]
      intro c hc
      have hupper : c.toUpper ∈ (q.toList.filter isAsciiHexdigit).map Char.toUpper :=
        heq ▸ List.mem_map_of_mem hc
      obtain ⟨d, hd, hdc⟩ := List.mem_map.mp hupper
      rw [← isAsciiHexdigit_toUpper, ← hdc, isAsciiHexdigit_toUpper]
      exact (List.mem_filter.mp hd).2
    rw [hall] at heq
    refine ⟨⟨?_, heq.symm⟩, hall⟩
    rw [← List.length_map Char.toUpper, heq, List.length_map, hlen]
  · rintro ⟨⟨-, heq⟩, hall⟩
    rw [hall, heq]

/-! ## Lookups -/

/-- The first contact of whose stored text the program makes `n`. -/
def firstSame (db : Db ContactColumns) (n : String) : Option (IdentityRow ContactColumns) :=
  db.identities.find? fun r ↦
    r.columns.pgpFingerprint.bind normalizeOpenpgpFingerprintHex = some n

/-- The first contact of whose stored text the program makes `n` is one with a foreign character in
that text. -/
def ForeignFirst (db : Db ContactColumns) (n : String) : Prop :=
  ∃ row s, firstSame db n = some row ∧ row.columns.pgpFingerprint = some s ∧ Foreign s

section Lookup

variable {Time : Type} (clock : Rfc3339 Time)

/-- The query, if it is one, finds the first contact of whose stored text the program makes the same
as of the query, and nothing if there is none. -/
def FindsSame (db : Db ContactColumns) (q : String) : Prop :=
  ∀ n, normalizeOpenpgpFingerprintHex q = some n →
    contactGetByPgpFingerprintNormalized clock db n =
      (firstSame db n).elim (.error (.contactNotFound n)) fun row ↦ .ok (identityFromRow clock row)

/-- The database takes a contact for the same as the program does, unless the stored text holds a
foreign character. -/
theorem sqlNormalized_stored_iff {q n : String} (hq : normalizeOpenpgpFingerprintHex q = some n)
    (stored : Option String) : sqlNormalized stored = n ↔
      stored.bind normalizeOpenpgpFingerprintHex = some n ∧ ∀ s ∈ stored, ¬ Foreign s := by
  rcases stored with _ | s
  · -- an empty column is compared as the empty text, which is no fingerprint
    refine iff_of_false ?_ (by rintro ⟨⟨⟩, -⟩)
    rintro rfl
    obtain ⟨hlen, hempty⟩ := normalize_eq_some.mp hq
    have hnil := List.map_eq_nil_iff.mp (String.ofList_inj.mp hempty).symm
    rw [hnil] at hlen
    cases hlen
  · rw [sqlNormalized_eq_iff hq, Option.bind_some]
    refine and_congr_right fun _ ↦ ⟨fun h t ht ↦ Option.mem_some.mp ht ▸ h, fun h ↦ h s rfl⟩

/-- What both take for the same is found. -/
theorem finds_of_not_foreign {db : Db ContactColumns} {q n : String}
    (hq : normalizeOpenpgpFingerprintHex q = some n) (hfirst : ¬ ForeignFirst db n) :
    contactGetByPgpFingerprintNormalized clock db n =
      (firstSame db n).elim (.error (.contactNotFound n)) fun row ↦
        .ok (identityFromRow clock row) := by
  have hiff := fun r : IdentityRow ContactColumns ↦ sqlNormalized_stored_iff hq r.columns.pgpFingerprint
  have hsame : (db.identities.find? fun r ↦ sqlNormalized r.columns.pgpFingerprint = n) =
      firstSame db n := by
    rcases hrow : firstSame db n with _ | row
    · rw [List.find?_eq_none]
      intro r hr hmatch
      have hnot := List.find?_eq_none.mp hrow r hr
      exact hnot (decide_eq_true ((hiff r).mp (of_decide_eq_true hmatch)).1)
    · obtain ⟨hsame, before, after, hdb, hbefore⟩ := List.find?_eq_some_iff_append.mp hrow
      have hmatch := (hiff row).mpr ⟨of_decide_eq_true hsame, fun s hs hforeign ↦
        hfirst ⟨row, s, hrow, hs, hforeign⟩⟩
      refine List.find?_eq_some_iff_append.mpr ⟨decide_eq_true hmatch, before, after, hdb, ?_⟩
      intro r hr
      have hnot := hbefore r hr
      rw [Bool.not_eq_true', decide_eq_false_iff_not] at hnot ⊢
      exact fun h ↦ hnot ((hiff r).mp h).1
  rw [contactGetByPgpFingerprintNormalized, hsame]

/-- Where the program's first match is stored with a foreign character, something else is found, or
nothing. -/
theorem not_finds_of_foreign {db : Db ContactColumns} {q n : String}
    (hq : normalizeOpenpgpFingerprintHex q = some n) (hfirst : ForeignFirst db n) :
    contactGetByPgpFingerprintNormalized clock db n ≠
      (firstSame db n).elim (.error (.contactNotFound n)) fun row ↦
        .ok (identityFromRow clock row) := by
  obtain ⟨row, s, hrow, hs, hforeign⟩ := hfirst
  intro hlookup
  rw [contactGetByPgpFingerprintNormalized, hrow] at hlookup
  rcases hfind : db.identities.find? fun r ↦ sqlNormalized r.columns.pgpFingerprint = n
    with _ | found
  · rw [hfind] at hlookup
    cases hlookup
  · -- what is found has the columns of the contact, and so its fingerprint
    rw [hfind] at hlookup
    have hcolumns : found.columns = row.columns := congrArg Identity.columns (Except.ok.inj hlookup)
    have hmatch := List.find?_some hfind
    rw [hcolumns] at hmatch
    exact ((sqlNormalized_stored_iff hq _).mp (of_decide_eq_true hmatch)).2 s hs hforeign

/-- **Finding a contact.** A query finds the contact with the same fingerprint exactly when that
contact is not stored with a foreign character in its fingerprint. -/
theorem fingerprint_lookup_iff (db : Db ContactColumns) (q : String) :
    FindsSame clock db q ↔
      ∀ n, normalizeOpenpgpFingerprintHex q = some n → ¬ ForeignFirst db n := by
  constructor
  · exact fun hfinds n hq hforeign ↦ not_finds_of_foreign clock hq hforeign (hfinds n hq)
  · exact fun h n hq ↦ finds_of_not_foreign clock hq (h n hq)

end Lookup

/-- A contact with a fingerprint. -/
def storedWith (s : String) : IdentityRow ContactColumns :=
  ⟨"1", none, { ContactColumns.named "Alice" with pgpFingerprint := some s }⟩

/-- A fingerprint in groups with dashes. -/
def dashed : String := "0123-4567-89ab-cdef-0123-4567-89ab-cdef-0123-4567"

/-- Stored with dashes, it is not found, not even by the text that is stored, of which the program
makes the same. -/
theorem dashed_not_found : ∃ n, normalizeOpenpgpFingerprintHex dashed = some n ∧
    contactGetByPgpFingerprintNormalized textClock ⟨[storedWith dashed], [], []⟩ n =
      .error (.contactNotFound n) ∧
    ¬ FindsSame textClock ⟨[storedWith dashed], [], []⟩ dashed := by
  have hsome : (normalizeOpenpgpFingerprintHex dashed).isSome = true := by decide +kernel
  obtain ⟨n, hn⟩ := Option.isSome_iff_exists.mp hsome
  have hforeign : Foreign dashed := ⟨'-', by decide +kernel, by decide, by decide⟩
  have hfirst : firstSame ⟨[storedWith dashed], [], []⟩ n = some (storedWith dashed) :=
    List.find?_cons_of_pos (decide_eq_true hn)
  have hne : sqlNormalized (some dashed) ≠ n := fun h ↦ ((sqlNormalized_eq_iff hn).mp h).2 hforeign
  have hnone : [storedWith dashed].find? (fun r ↦ sqlNormalized r.columns.pgpFingerprint = n) =
      none := List.find?_cons_of_neg fun h ↦ hne (of_decide_eq_true h)
  refine ⟨n, hn, ?_, fun hfinds ↦ ?_⟩
  · rw [contactGetByPgpFingerprintNormalized, hnone]
    rfl
  · exact not_finds_of_foreign textClock hn ⟨_, dashed, hfirst, rfl, hforeign⟩ (hfinds n hn)

end Galdralag.Host
