import Galdralag.Foundation.LikePattern
import Galdralag.Host.Contacts

/-!
# Searching contacts

A search puts the text of the user between two percent signs and lets the database match it, and so
do the filters of a list. The search escapes the percent signs and underscores of the text, but not
the escape character itself. The filters escape nothing.

A search is a literal one exactly for the texts without an escape character, a filter exactly for the
texts without any special character, as far as the database says what it does at all: texts hold no
NUL, and patterns have a greatest length.
-/

set_option linter.all false

namespace Galdralag.Host

open LikeToken

/-! ## Statements -/

/-- How `LIKE` decides a pattern, its first argument, on a text. -/
abbrev Like := List Char → List Char → Except SqlError Bool

/-- The greatest length of a pattern in bytes. -/
def maxLikePattern : ℕ := 50000

/-- What is laid down of `LIKE` with the escape character `\`: nothing for texts that hold a NUL. -/
structure Documented (like : Like) : Prop where
  matches_of : ∀ pattern text, '\x00' ∉ pattern → '\x00' ∉ text →
    byteLength pattern ≤ maxLikePattern →
    like pattern text = .ok (Matches (tokens '\\' pattern) text)
  too_complex : ∀ pattern text, maxLikePattern < byteLength pattern →
    like pattern text = .error .patternTooComplex

/-- Whether one of the texts matches, asked one after the other. -/
def anyLike (like : Like) (pattern : List Char) : List (List Char) → Except SqlError Bool
  | [] => .ok false
  | t :: ts => do
    let b ← like pattern t
    if b then pure true else anyLike like pattern ts

/-- The rows that a condition selects. -/
def selectWhere {Row : Type} (p : Row → Except SqlError Bool) : List Row → Except SqlError (List Row)
  | [] => .ok []
  | r :: rows => do
    let b ← p r
    let rest ← selectWhere p rows
    pure (if b then r :: rest else rest)

/-- `ORDER BY display_name COLLATE NOCASE`. -/
def orderByName (rows : List (IdentityRow ContactColumns)) : List (IdentityRow ContactColumns) :=
  rows.mergeSort fun r s ↦
    decide (String.ofList (r.columns.displayName.toList.map Char.toLower) ≤
      String.ofList (s.columns.displayName.toList.map Char.toLower))

/-- The text of a column, empty where there is none. -/
def ifNull (column : Option String) : List Char := (column.getD "").toList

/-- The texts of a contact that are searched. -/
def searchedTexts (c : ContactColumns) : List (List Char) :=
  [c.displayName.toList, ifNull c.callsign, ifNull c.email, ifNull c.badgeNumber, ifNull c.role,
    ifNull c.organisation, ifNull c.department, ifNull c.note, ifNull c.radioAffiliation] ++
  (c.dmrId.map fun d ↦ (toString d).toList).toList ++
  [ifNull c.street, ifNull c.country, ifNull c.postalCode, ifNull c.region, ifNull c.fluxerId,
    ifNull c.discordId, ifNull c.ircId, ifNull c.phoneNumber]

/-! ## Searching and listing -/

/-- Put a text in the place of a character. -/
def replaceChar (c : Char) (text s : List Char) : List Char :=
  s.flatMap fun d ↦ if d = c then text else [d]

/-- A query with the escape character in front of its wildcards. -/
def escapeWildcards (query : List Char) : List Char :=
  replaceChar '_' ['\\', '_'] (replaceChar '%' ['\\', '%'] query)

/-- The text between two percent signs. -/
def between (s : List Char) : List Char := '%' :: (s ++ ['%'])

/-- Filters for listing contacts. -/
structure ContactFilter where
  expired : Bool
  organisation : Option String
  role : Option String

section Operations

variable {Time : Type} (clock : Rfc3339 Time) (like : Like)

/-- Select contacts by a condition, in the order of their names. -/
def queryContacts (p : IdentityRow ContactColumns → Except SqlError Bool) (db : Db ContactColumns) :
    Except GaldraError (List (Identity Time ContactColumns)) := do
  let rows ← (selectWhere p db.identities).mapError GaldraError.database
  pure ((orderByName rows).map (identityFromRow clock))

/-- Search contacts across textual fields using `LIKE`. -/
def contactSearch (db : Db ContactColumns) (query : String) :
    Except GaldraError (List (Identity Time ContactColumns)) :=
  queryContacts clock
    (fun r ↦ anyLike like (between (escapeWildcards query.toList)) (searchedTexts r.columns)) db

/-- The condition of one filter. -/
def filterLike (filter : Option String) (column : Option String) : Except SqlError Bool :=
  match filter with
  | none => .ok true
  | some f => like (between f.toList) (ifNull column)

/-- The row has a date of expiry that is past. -/
def isExpiredRow (now : Time) (r : IdentityRow ContactColumns) : Bool :=
  r.expiresAt.any (· < clock.toRfc3339 now)

/-- The conditions of a list. -/
def isListed (now : Time) (filter : ContactFilter) (r : IdentityRow ContactColumns) :
    Except SqlError Bool :=
  if filter.expired && !isExpiredRow clock now r then .ok false
  else do
    let b ← filterLike like filter.organisation r.columns.organisation
    if b then filterLike like filter.role r.columns.role else pure false

/-- List contacts with optional filters. -/
def contactList (now : Time) (db : Db ContactColumns) (filter : ContactFilter) :
    Except GaldraError (List (Identity Time ContactColumns)) :=
  queryContacts clock (isListed clock like now filter) db

end Operations

/-! ## What literal means -/

/-- One of the texts of the contact contains the query. -/
def Mentions (query : String) (r : IdentityRow ContactColumns) : Prop :=
  ∃ t ∈ searchedTexts r.columns, Contains query.toList t

instance (query : String) (r : IdentityRow ContactColumns) : Decidable (Mentions query r) :=
  inferInstanceAs (Decidable (∃ t ∈ searchedTexts r.columns, Contains query.toList t))

/-- The column contains what is asked for, if anything is. -/
def PassesFilter (filter column : Option String) : Prop :=
  ∀ f ∈ filter, Contains f.toList (ifNull column)

instance (filter column : Option String) : Decidable (PassesFilter filter column) :=
  inferInstanceAs (Decidable (∀ f ∈ filter, Contains f.toList (ifNull column)))

section Literal

variable {Time : Type} (clock : Rfc3339 Time)

/-- The answer consists of exactly the contacts with a property. -/
def Selects (db : Db ContactColumns) (p : IdentityRow ContactColumns → Prop) [DecidablePred p]
    (answer : Except GaldraError (List (Identity Time ContactColumns))) : Prop :=
  ∃ found, answer = .ok found ∧
    found.Perm ((db.identities.filter fun r ↦ p r).map (identityFromRow clock))

/-- No text that is looked at holds a NUL. -/
def NulFree (db : Db ContactColumns) : Prop :=
  ∀ r ∈ db.identities, ∀ t ∈ searchedTexts r.columns, '\x00' ∉ t

/-! ## Selecting -/

theorem selectWhere_of_ok {Row : Type} {p : Row → Except SqlError Bool} {f : Row → Bool}
    {rows : List Row} (h : ∀ r ∈ rows, p r = .ok (f r)) :
    selectWhere p rows = .ok (rows.filter f) := by
  induction rows with
  | nil => rfl
  | cons r rows ih =>
    rw [selectWhere, h r List.mem_cons_self, ok_bind,
      ih fun r' hr' ↦ h r' (List.mem_cons_of_mem r hr'), ok_bind]
    rcases hf : f r with _ | _
    · rw [List.filter_cons_of_neg (by rw [hf]; exact Bool.false_ne_true)]
      rfl
    · rw [List.filter_cons_of_pos hf]
      rfl

theorem anyLike_of_ok {like : Like} {pattern : List Char} {f : List Char → Bool}
    {texts : List (List Char)} (h : ∀ t ∈ texts, like pattern t = .ok (f t)) :
    anyLike like pattern texts = .ok (texts.any f) := by
  induction texts with
  | nil => rfl
  | cons t texts ih =>
    rw [anyLike, h t List.mem_cons_self, ok_bind, List.any_cons,
      ih fun t' ht' ↦ h t' (List.mem_cons_of_mem t ht')]
    rcases f t with _ | _
    · rfl
    · rfl

theorem orderByName_perm (rows : List (IdentityRow ContactColumns)) :
    (orderByName rows).Perm rows := List.mergeSort_perm rows _

/-- A condition that decides a property of every row selects the rows with it. -/
theorem selects_queryContacts {p : IdentityRow ContactColumns → Except SqlError Bool}
    {db : Db ContactColumns} {q : IdentityRow ContactColumns → Prop} [DecidablePred q]
    (h : ∀ r ∈ db.identities, p r = .ok (decide (q r))) :
    Selects clock db q (queryContacts clock p db) := by
  refine ⟨(orderByName (db.identities.filter fun r ↦ q r)).map (identityFromRow clock), ?_,
    (orderByName_perm _).map _⟩
  rw [queryContacts, selectWhere_of_ok h]
  rfl

/-- On a single row, the answer is right if the condition decides the property there. -/
theorem selects_single {p : IdentityRow ContactColumns → Except SqlError Bool}
    {r : IdentityRow ContactColumns} {q : IdentityRow ContactColumns → Prop} [DecidablePred q]
    {b : Bool} (hr : p r = .ok b) :
    Selects clock ⟨[r], [], []⟩ q (queryContacts clock p ⟨[r], [], []⟩) ↔ (b = true ↔ q r) := by
  have hanswer : queryContacts clock p ⟨[r], [], []⟩ =
      .ok ((if b then [r] else []).map (identityFromRow clock)) := by
    have hrows : selectWhere p [r] = .ok (if b then [r] else []) := by
      rw [selectWhere, hr]
      rfl
    have horder : orderByName (if b then [r] else []) = if b then [r] else [] := by
      rcases b with _ | _
      · exact List.mergeSort_nil
      · exact List.mergeSort_singleton r
    rw [queryContacts, hrows]
    exact congrArg (fun rows ↦ Except.ok (rows.map (identityFromRow clock))) horder
  have hselects : Selects clock ⟨[r], [], []⟩ q (queryContacts clock p ⟨[r], [], []⟩) ↔
      ((if b then [r] else []).map (identityFromRow clock)).Perm
        (([r].filter fun r ↦ q r).map (identityFromRow clock)) := by
    rw [Selects, hanswer]
    constructor
    · rintro ⟨found, hfound, hperm⟩
      rwa [← Except.ok.inj hfound] at hperm
    · exact fun hperm ↦ ⟨_, rfl, hperm⟩
  rw [hselects]
  by_cases hq : q r
  · have hfilter : ([r].filter fun r ↦ decide (q r)) = [r] :=
      List.filter_cons_of_pos (decide_eq_true hq)
    rw [hfilter, iff_true_right hq]
    rcases b with _ | _
    · exact iff_of_false (by simp) Bool.false_ne_true
    · exact iff_of_true (List.Perm.refl _) rfl
  · have hfilter : ([r].filter fun r ↦ decide (q r)) = [] :=
      List.filter_cons_of_neg (by simpa using hq)
    rw [hfilter, iff_false_right hq]
    rcases b with _ | _
    · exact iff_of_true (List.Perm.refl _) Bool.false_ne_true
    · exact iff_of_false (by simp) (by simp)

/-- A condition that is not false on the only row is true there, and so is the property, if the
answer is right. -/
theorem of_selects_single {p : IdentityRow ContactColumns → Except SqlError Bool}
    {r : IdentityRow ContactColumns} {q : IdentityRow ContactColumns → Prop} [DecidablePred q]
    (h : Selects clock ⟨[r], [], []⟩ q (queryContacts clock p ⟨[r], [], []⟩)) (hp : p r ≠ .ok false) :
    p r = .ok true ∧ q r := by
  rcases hr : p r with e | _ | _
  · obtain ⟨found, hanswer, -⟩ := h
    rw [queryContacts, selectWhere, hr] at hanswer
    cases hanswer
  · exact absurd hr hp
  · exact ⟨rfl, ((selects_single clock hr).mp h).mp rfl⟩

end Literal

/-! ## Escaping -/

theorem replaceChar_append (c : Char) (text s t : List Char) :
    replaceChar c text (s ++ t) = replaceChar c text s ++ replaceChar c text t :=
  List.flatMap_append

theorem replaceChar_singleton (c d : Char) (text : List Char) :
    replaceChar c text [d] = if d = c then text else [d] := List.flatMap_singleton _ _

theorem escapeWildcards_append (s t : List Char) :
    escapeWildcards (s ++ t) = escapeWildcards s ++ escapeWildcards t := by
  rw [escapeWildcards, replaceChar_append, replaceChar_append]
  rfl

/-- What is put for a character. -/
def escapeChar (c : Char) : List Char :=
  if c = '%' then ['\\', '%'] else if c = '_' then ['\\', '_'] else [c]

theorem escapeWildcards_cons (c : Char) (q : List Char) :
    escapeWildcards (c :: q) = escapeChar c ++ escapeWildcards q := by
  have hsplit : escapeWildcards (c :: q) = escapeWildcards [c] ++ escapeWildcards q :=
    escapeWildcards_append [c] q
  rw [hsplit, escapeChar, escapeWildcards, replaceChar_singleton]
  by_cases hp : c = '%'
  · rw [if_pos hp, if_pos hp]
    rfl
  · rw [if_neg hp, if_neg hp, replaceChar_singleton]

/-- The tokens of an escaped query before the last percent sign, and the percent sign. -/
def searchTokens (q : List Char) : List LikeToken := tokens '\\' (escapeWildcards q ++ ['%'])

/-- A character other than the escape character is read as itself. -/
theorem searchTokens_cons {c : Char} (hc : c ≠ '\\') (q : List Char) :
    searchTokens (c :: q) = lit c :: searchTokens q := by
  rw [searchTokens, escapeWildcards_cons, escapeChar]
  by_cases hp : c = '%'
  · rw [if_pos hp, hp]
    exact tokens_escaped '%' _
  · by_cases hu : c = '_'
    · rw [if_neg hp, if_pos hu, hu]
      exact tokens_escaped '_' _
    · rw [if_neg hp, if_neg hu, List.append_assoc, List.singleton_append, tokens_of_ne hc,
        LikeToken.single, if_neg hp, if_neg hu]
      rfl

/-- An escape character takes the character behind it for its own, and lays the wildcards bare. -/
theorem searchTokens_escape (c : Char) (q : List Char) :
    searchTokens ('\\' :: c :: q) =
      if c = '%' then lit '\\' :: any :: searchTokens q
      else if c = '_' then lit '\\' :: one :: searchTokens q
      else lit c :: searchTokens q := by
  have hescape : escapeChar '\\' = ['\\'] := rfl
  have hbare {d : Char} (hd : d ≠ '\\') (p : List Char) : tokens '\\' ('\\' :: '\\' :: d :: p) =
      lit '\\' :: single d :: tokens '\\' p := by rw [tokens_escaped, tokens_of_ne hd]
  rw [searchTokens, escapeWildcards_cons, escapeWildcards_cons, hescape, escapeChar]
  split_ifs with hp hu
  · exact hbare (by decide) _
  · exact hbare (by decide) _
  · exact tokens_escaped c _

theorem searchTokens_last : searchTokens ['\\'] = [lit '%'] := rfl

/-- A query without escape characters is read as itself. -/
theorem searchTokens_literal {q : List Char} (h : '\\' ∉ q) :
    searchTokens q = q.map lit ++ [any] := by
  induction q with
  | nil => rfl
  | cons c q ih =>
    rw [List.mem_cons, not_or] at h
    rw [searchTokens_cons (Ne.symm h.1), ih h.2]
    rfl

/-- **Escape characters show.** The shortest match of a search is no longer than the query, and
equal to it at most if there is no escape character in the query. -/
theorem shortest_searchTokens (q : List Char) :
    (shortest (searchTokens q)).length ≤ q.length ∧
      ((shortest (searchTokens q)).map Char.toLower = q.map Char.toLower → '\\' ∉ q) := by
  induction hn : q.length using Nat.strong_induction_on generalizing q with
  | _ n ih =>
    rcases q with _ | ⟨c, q⟩
    · exact ⟨Nat.zero_le _, fun _ ↦ List.not_mem_nil⟩
    rw [List.length_cons] at hn
    by_cases hc : c = '\\'
    · obtain rfl := hc
      rcases q with _ | ⟨d, q⟩
      · rw [searchTokens_last]
        refine ⟨hn ▸ Nat.le_refl 1, fun h ↦ absurd h (by decide)⟩
      · -- the escape character goes, or a wildcard stands in its place
        rw [List.length_cons] at hn
        obtain ⟨hle, -⟩ := ih q.length (by omega) q rfl
        rw [searchTokens_escape]
        split_ifs with hp hu
        · refine ⟨?_, fun h ↦ ?_⟩
          · rw [shortest, shortest, List.length_cons]
            omega
          · have hlen := congrArg List.length h
            rw [shortest, shortest, List.length_map, List.length_map, List.length_cons,
              List.length_cons, List.length_cons] at hlen
            omega
        · refine ⟨?_, fun h ↦ ?_⟩
          · rw [shortest, shortest, List.length_cons, List.length_cons]
            omega
          · rw [shortest, shortest, hu] at h
            have hx := (List.cons.inj (List.cons.inj h).2).1
            exact absurd hx (by decide)
        · refine ⟨?_, fun h ↦ ?_⟩
          · rw [shortest, List.length_cons]
            omega
          · have hlen := congrArg List.length h
            rw [shortest, List.length_map, List.length_map, List.length_cons, List.length_cons,
              List.length_cons] at hlen
            omega
    · obtain ⟨hle, heq⟩ := ih q.length (by omega) q rfl
      rw [searchTokens_cons hc, shortest]
      refine ⟨?_, fun h ↦ ?_⟩
      · rw [List.length_cons]
        omega
      · rw [List.mem_cons, not_or]
        exact ⟨Ne.symm hc, heq (List.cons.inj h).2⟩

/-- **Special characters show.** The shortest match of a filter is no longer than the filter, and
equal to it at most if all its characters are plain. -/
theorem shortest_filterTokens (f : List Char) :
    (shortest (tokens '\\' (f ++ ['%']))).length ≤ f.length ∧
      ((shortest (tokens '\\' (f ++ ['%']))).map Char.toLower = f.map Char.toLower →
        ∀ c ∈ f, Plain '\\' c) := by
  induction hn : f.length using Nat.strong_induction_on generalizing f with
  | _ n ih =>
    rcases f with _ | ⟨c, f⟩
    · exact ⟨Nat.zero_le _, fun _ c hc ↦ absurd hc List.not_mem_nil⟩
    rw [List.length_cons] at hn
    by_cases hc : c = '\\'
    · obtain rfl := hc
      rcases f with _ | ⟨d, f⟩
      · exact ⟨hn ▸ Nat.le_refl 1, fun h ↦ absurd h (by decide)⟩
      · rw [List.length_cons] at hn
        obtain ⟨hle, -⟩ := ih f.length (by omega) f rfl
        rw [List.cons_append, List.cons_append, tokens_escaped, shortest]
        refine ⟨?_, fun h ↦ ?_⟩
        · rw [List.length_cons]
          omega
        · have hlen := congrArg List.length h
          rw [List.length_map, List.length_map, List.length_cons, List.length_cons,
            List.length_cons] at hlen
          omega
    · obtain ⟨hle, heq⟩ := ih f.length (by omega) f rfl
      rw [List.cons_append, tokens_of_ne hc, single]
      split_ifs with hp hu
      · rw [shortest]
        refine ⟨by omega, fun h ↦ ?_⟩
        have hlen := congrArg List.length h
        rw [List.length_map, List.length_map, List.length_cons] at hlen
        omega
      · rw [shortest]
        refine ⟨?_, fun h ↦ ?_⟩
        · rw [List.length_cons]
          omega
        · rw [hu] at h
          exact absurd (List.cons.inj h).1 (by decide)
      · rw [shortest]
        refine ⟨?_, fun h ↦ ?_⟩
        · rw [List.length_cons]
          omega
        · exact List.forall_mem_cons.mpr ⟨⟨hc, hp, hu⟩, heq (List.cons.inj h).2⟩

/-! ## What the database may answer -/

/-- A `LIKE` that takes a NUL for a match. -/
def nulLike : Like := fun pattern text ↦
  if maxLikePattern < byteLength pattern then .error .patternTooComplex
  else if '\x00' ∈ pattern ∨ '\x00' ∈ text then .ok true
  else .ok (Matches (tokens '\\' pattern) text)

theorem nulLike_documented : Documented nulLike where
  matches_of := by
    intro pattern text hpattern htext hlen
    rw [nulLike, if_neg (Nat.not_lt.mpr hlen), if_neg (not_or.mpr ⟨hpattern, htext⟩)]
  too_complex := by
    intro pattern text hlen
    rw [nulLike, if_pos hlen]

/-- A text that the pattern around `s` matches. -/
def matched (s : List Char) : List Char :=
  if '\x00' ∈ s then [] else shortest (tokens '\\' (s ++ ['%']))

theorem nul_mem_between {s : List Char} : '\x00' ∈ between s ↔ '\x00' ∈ s := by
  simp [between]

theorem nul_notMem_matched (s : List Char) : '\x00' ∉ matched s := by
  rw [matched]
  split_ifs with hs
  · exact List.not_mem_nil
  · intro h
    rcases mem_shortest _ h with h | h
    · rcases List.mem_append.mp h with h | h
      · exact hs h
      · exact absurd (List.mem_singleton.mp h) (by decide)
    · exact absurd h (by decide)

theorem tokens_between (s : List Char) :
    tokens '\\' (between s) = any :: tokens '\\' (s ++ ['%']) := tokens_of_ne (by decide) _

/-- A pattern that is not too long takes the text for a match. -/
theorem nulLike_matched (s : List Char) : nulLike (between s) (matched s) ≠ .ok false := by
  rw [nulLike]
  split_ifs with hlen hnul
  · rintro ⟨⟩
  · rintro ⟨⟩
  · have hs : '\x00' ∉ s := fun h ↦ hnul (.inl (nul_mem_between.mpr h))
    have hend : '%' ≠ '\\' := by decide
    have hmatch := matches_shortest (dangling_notMem hend s)
    have hany : Matches (any :: tokens '\\' (s ++ ['%'])) (shortest (tokens '\\' (s ++ ['%'])))
        = true := matches_any.mpr ⟨[], _, rfl, hmatch⟩
    rw [matched, if_neg hs, tokens_between, hany]
    rintro ⟨⟩

/-- It is the text that tells whether the pattern is too long. -/
theorem length_le_of_nulLike {pattern text : List Char} {b : Bool}
    (h : nulLike pattern text = .ok b) : byteLength pattern ≤ maxLikePattern := by
  rw [nulLike] at h
  split_ifs at h with hlen
  · exact Nat.not_lt.mp hlen
  · exact Nat.not_lt.mp hlen

/-- A text that contains what holds a NUL holds one. -/
theorem nul_notMem_of_contains {q s : List Char} (h : Contains q s) (hs : '\x00' ∉ s) :
    '\x00' ∉ q := by
  intro hq
  have hmem := h.subset (List.mem_map_of_mem hq)
  obtain ⟨c, hc, hlower⟩ := List.mem_map.mp hmem
  have hnul : c = '\x00' := by
    rcases Nat.lt_or_ge c.toNat 128 with hlt | hge
    · exact ascii_all (p := fun c ↦ c.toLower = Char.toLower '\x00' → c = '\x00') (by decide) hlt
        hlower
    · rwa [toLower_of_not_ascii hge] at hlower
  exact hs (hnul ▸ hc)

/-! ## Literal searches -/

/-- A query that is searched for literally. -/
structure LiteralQuery (q : List Char) : Prop where
  nulFree : '\x00' ∉ q
  notEscape : '\\' ∉ q
  length_le : byteLength (between (escapeWildcards q)) ≤ maxLikePattern

/-- A filter that is taken literally. -/
structure LiteralFilter (f : List Char) : Prop where
  nulFree : '\x00' ∉ f
  plain : ∀ c ∈ f, Plain '\\' c
  length_le : byteLength (between f) ≤ maxLikePattern

theorem nul_mem_escapeWildcards {q : List Char} : '\x00' ∈ escapeWildcards q ↔ '\x00' ∈ q := by
  induction q with
  | nil => rfl
  | cons c q ih =>
    have hchar : '\x00' ∈ escapeChar c ↔ '\x00' = c := by
      rw [escapeChar]
      split_ifs with hp hu
      · rw [hp]
        decide
      · rw [hu]
        decide
      · exact List.mem_singleton
    rw [escapeWildcards_cons, List.mem_append, hchar, ih, List.mem_cons]

/-- The database decides a literal query literally. -/
theorem LiteralQuery.like {q t : List Char} (hq : LiteralQuery q) {like : Like}
    (hlike : Documented like) (ht : '\x00' ∉ t) :
    like (between (escapeWildcards q)) t = .ok (decide (Contains q t)) := by
  have hnul : '\x00' ∉ between (escapeWildcards q) := by
    rw [nul_mem_between, nul_mem_escapeWildcards]
    exact hq.nulFree
  rw [hlike.matches_of _ _ hnul ht hq.length_le, tokens_between]
  refine congrArg Except.ok (Bool.eq_iff_iff.mpr ?_)
  rw [decide_eq_true_iff, ← matches_literal, ← searchTokens_literal hq.notEscape]
  rfl

/-- It decides a literal filter literally. -/
theorem LiteralFilter.like {f t : List Char} (hf : LiteralFilter f) {like : Like}
    (hlike : Documented like) (ht : '\x00' ∉ t) :
    like (between f) t = .ok (decide (Contains f t)) := by
  have hnul : '\x00' ∉ between f := mt nul_mem_between.mp hf.nulFree
  rw [hlike.matches_of _ _ hnul ht hf.length_le, tokens_between, tokens_plain hf.plain]
  exact congrArg Except.ok (Bool.eq_iff_iff.mpr (matches_literal.trans decide_eq_true_iff.symm))

/-- A query that its match contains is literal. -/
theorem literalQuery_of_contains {q : List Char}
    (hcontains : Contains q (matched (escapeWildcards q)))
    (hlen : byteLength (between (escapeWildcards q)) ≤ maxLikePattern) : LiteralQuery q := by
  have hnul := nul_notMem_of_contains hcontains (nul_notMem_matched _)
  rw [matched, if_neg (mt nul_mem_escapeWildcards.mp hnul)] at hcontains
  obtain ⟨hshort, hescape⟩ := shortest_searchTokens q
  exact ⟨hnul, hescape (hcontains.eq_of_length_le hshort), hlen⟩

/-- A filter that its match contains is literal. -/
theorem literalFilter_of_contains {f : List Char} (hcontains : Contains f (matched f))
    (hlen : byteLength (between f) ≤ maxLikePattern) : LiteralFilter f := by
  have hnul := nul_notMem_of_contains hcontains (nul_notMem_matched _)
  rw [matched, if_neg hnul] at hcontains
  obtain ⟨hshort, hplain⟩ := shortest_filterTokens f
  exact ⟨hnul, hplain (hcontains.eq_of_length_le hshort), hlen⟩

section Claims

variable {Time : Type} (clock : Rfc3339 Time)

/-- Whatever is not laid down of `LIKE`, a search selects the contacts that mention the query. -/
def SearchesLiterally (query : String) : Prop := ∀ like, Documented like → ∀ db, NulFree db →
  Selects clock db (Mentions query) (contactSearch clock like db query)

/-- What a list with the filters should hold. -/
def Listed (now : Time) (filter : ContactFilter) (r : IdentityRow ContactColumns) : Prop :=
  (filter.expired = true → isExpiredRow clock now r = true) ∧
    PassesFilter filter.organisation r.columns.organisation ∧ PassesFilter filter.role r.columns.role

instance (now : Time) (filter : ContactFilter) (r : IdentityRow ContactColumns) :
    Decidable (Listed clock now filter r) := inferInstanceAs (Decidable (_ ∧ _ ∧ _))

/-- Whatever is not laid down of `LIKE`, a list holds the contacts that pass the filters. -/
def ListsLiterally (now : Time) (organisation role : Option String) : Prop :=
  ∀ like, Documented like → ∀ expired db, NulFree db →
    Selects clock db (Listed clock now ⟨expired, organisation, role⟩)
      (contactList clock like now db ⟨expired, organisation, role⟩)

theorem searchesLiterally {query : String} (h : LiteralQuery query.toList) :
    SearchesLiterally clock query := by
  intro like hlike db hdb
  refine selects_queryContacts clock fun r hr ↦ ?_
  rw [anyLike_of_ok fun t ht ↦ h.like hlike (hdb r hr t ht)]
  refine congrArg Except.ok (Bool.eq_iff_iff.mpr ?_)
  rw [List.any_eq_true, decide_eq_true_iff]
  simp only [decide_eq_true_iff]
  rfl

/-- A contact with a name, an organisation and a role. -/
def bearing (name organisation role : List Char) : IdentityRow ContactColumns where
  id := "1"
  expiresAt := none
  columns := { ContactColumns.named (String.ofList name) with
    organisation := some (String.ofList organisation)
    role := some (String.ofList role) }

theorem searchedTexts_bearing (name organisation role : List Char) :
    searchedTexts (bearing name organisation role).columns =
      [name, [], [], [], role, organisation] ++ List.replicate 11 [] := by
  simp [searchedTexts, bearing, ContactColumns.named, OptionalFields.none, ifNull, List.replicate]

theorem nulFree_bearing {name organisation role : List Char} (hname : '\x00' ∉ name)
    (horganisation : '\x00' ∉ organisation) (hrole : '\x00' ∉ role) :
    NulFree ⟨[bearing name organisation role], [], []⟩ := by
  intro r hr t ht
  rw [List.mem_singleton.mp hr, searchedTexts_bearing] at ht
  simp only [List.mem_append, List.mem_cons, List.not_mem_nil, or_false, List.mem_replicate] at ht
  rcases ht with (rfl | rfl | rfl | rfl | rfl | rfl) | ⟨-, rfl⟩
  · exact hname
  · exact List.not_mem_nil
  · exact List.not_mem_nil
  · exact List.not_mem_nil
  · exact hrole
  · exact horganisation
  · exact List.not_mem_nil

/-- The first text decides if it is not refused. -/
theorem anyLike_head {like : Like} {pattern t : List Char} {ts : List (List Char)}
    (h : like pattern t ≠ .ok false) : anyLike like pattern (t :: ts) = like pattern t := by
  rw [anyLike]
  rcases hlike : like pattern t with e | _ | _
  · rfl
  · exact absurd hlike h
  · rfl

/-- What an empty text contains, every text contains. -/
theorem contains_of_nil {q : List Char} (h : Contains q []) (t : List Char) : Contains q t := by
  rw [Contains, List.map_nil, List.infix_nil] at h
  rw [Contains, h]
  exact List.nil_infix

theorem literalQuery_of_searches {query : String} (h : SearchesLiterally clock query) :
    LiteralQuery query.toList := by
  -- the only contact has the match of the query for its name
  have hselects := h nulLike nulLike_documented _
    (nulFree_bearing (nul_notMem_matched (escapeWildcards query.toList)) List.not_mem_nil
      List.not_mem_nil)
  have hmatched := nulLike_matched (escapeWildcards query.toList)
  have hany : anyLike nulLike (between (escapeWildcards query.toList))
      (searchedTexts (bearing (matched (escapeWildcards query.toList)) [] []).columns) =
        nulLike (between (escapeWildcards query.toList))
          (matched (escapeWildcards query.toList)) := by
    rw [searchedTexts_bearing]
    exact anyLike_head hmatched
  obtain ⟨htrue, t, ht, hcontains⟩ := of_selects_single clock hselects (by rwa [hany])
  rw [hany] at htrue
  refine literalQuery_of_contains ?_ (length_le_of_nulLike htrue)
  rw [searchedTexts_bearing] at ht
  rcases List.mem_append.mp ht with ht | ht
  · rcases List.mem_cons.mp ht with rfl | ht
    · exact hcontains
    · simp only [List.mem_cons, List.not_mem_nil, or_false, or_self] at ht
      exact contains_of_nil (ht ▸ hcontains) _
  · exact contains_of_nil ((List.mem_replicate.mp ht).2 ▸ hcontains) _

/-- A text for the column that a filter looks at. -/
def matchedBy (filter : Option String) : List Char := (filter.map fun f ↦ matched f.toList).getD []

theorem nul_notMem_matchedBy (filter : Option String) : '\x00' ∉ matchedBy filter := by
  rcases filter with _ | f
  · exact List.not_mem_nil
  · exact nul_notMem_matched _

/-- The database does not refuse the text for the filter. -/
theorem filterLike_matchedBy (filter : Option String) :
    filterLike nulLike filter (some (String.ofList (matchedBy filter))) ≠ .ok false := by
  rcases filter with _ | f
  · rintro ⟨⟩
  · rw [filterLike, ifNull, Option.getD_some, String.toList_ofList]
    exact nulLike_matched _

theorem literalFilter_of_passes {f : String}
    (hlike : filterLike nulLike (some f) (some (String.ofList (matchedBy (some f)))) = .ok true)
    (hpasses : PassesFilter (some f) (some (String.ofList (matchedBy (some f))))) :
    LiteralFilter f.toList := by
  have hcontains := hpasses f rfl
  rw [ifNull, Option.getD_some, String.toList_ofList] at hcontains
  exact literalFilter_of_contains hcontains (length_le_of_nulLike hlike)

/-- A filter that is literal, or none, decides whether the column passes. -/
theorem filterLike_eq_ok {like : Like} (hlike : Documented like) {filter column : Option String}
    (hfilter : ∀ f ∈ filter, LiteralFilter f.toList) (hcolumn : '\x00' ∉ ifNull column) :
    filterLike like filter column = .ok (decide (PassesFilter filter column)) := by
  rcases filter with _ | f
  · have hpasses : PassesFilter none column := by rintro f ⟨⟩
    rw [decide_eq_true hpasses]
    rfl
  · have hiff : PassesFilter (some f) column ↔ Contains f.toList (ifNull column) :=
      ⟨fun h ↦ h f rfl, fun h g hg ↦ Option.some.inj hg ▸ h⟩
    rw [filterLike, (hfilter f rfl).like hlike hcolumn]
    exact congrArg Except.ok (decide_eq_decide.mpr hiff.symm)

theorem listsLiterally {now : Time} {organisation role : Option String}
    (horganisation : ∀ f ∈ organisation, LiteralFilter f.toList)
    (hrole : ∀ f ∈ role, LiteralFilter f.toList) :
    ListsLiterally clock now organisation role := by
  intro like hlike expired db hdb
  refine selects_queryContacts clock fun r hr ↦ ?_
  have hcolumns : ifNull r.columns.organisation ∈ searchedTexts r.columns ∧
      ifNull r.columns.role ∈ searchedTexts r.columns := by simp [searchedTexts]
  rw [isListed, filterLike_eq_ok hlike horganisation (hdb r hr _ hcolumns.1),
    filterLike_eq_ok hlike hrole (hdb r hr _ hcolumns.2), ok_bind]
  rcases expired with _ | _
  · by_cases ho : PassesFilter organisation r.columns.organisation
    · simp [Listed, ho]
    · simp [Listed, ho]
      rfl
  · rcases hr : isExpiredRow clock now r with _ | _
    · simp [Listed, hr]
    · by_cases ho : PassesFilter organisation r.columns.organisation
      · simp [Listed, hr, ho]
      · simp [Listed, hr, ho]
        rfl

/-- Two conditions, neither of which refuses, are both asked. -/
theorem both_asked {a b : Except SqlError Bool} (ha : a ≠ .ok false) (hb : b ≠ .ok false) :
    (a >>= fun x ↦ if x then b else pure false) ≠ .ok false ∧
      ((a >>= fun x ↦ if x then b else pure false) = .ok true → a = .ok true ∧ b = .ok true) := by
  rcases a with e | _ | _
  · exact ⟨by rintro ⟨⟩, by rintro ⟨⟩⟩
  · exact absurd rfl ha
  · exact ⟨hb, fun h ↦ ⟨rfl, h⟩⟩

theorem literalFilters_of_lists {now : Time} {organisation role : Option String}
    (h : ListsLiterally clock now organisation role) :
    (∀ f ∈ organisation, LiteralFilter f.toList) ∧ ∀ f ∈ role, LiteralFilter f.toList := by
  -- the only contact has the match of each filter in the column that the filter looks at
  have hselects := h nulLike nulLike_documented false _
    (nulFree_bearing List.not_mem_nil (nul_notMem_matchedBy organisation)
      (nul_notMem_matchedBy role))
  have hasked := both_asked (filterLike_matchedBy organisation) (filterLike_matchedBy role)
  obtain ⟨htrue, -, hpasses⟩ := of_selects_single clock hselects hasked.1
  obtain ⟨horganisation, hrole⟩ := hasked.2 htrue
  constructor
  · rintro f rfl
    exact literalFilter_of_passes horganisation hpasses.1
  · rintro f rfl
    exact literalFilter_of_passes hrole hpasses.2

/-- **Literal searches and filters.** A search selects the contacts that mention the query, whatever
the contacts are and whatever is not laid down of `LIKE`, exactly if the query holds no NUL and no
escape character and is not too long. A list holds the contacts that contain the filters exactly if
the filters hold no NUL and no special character and are not too long. -/
theorem literal_iff (now : Time) :
    (∀ query, SearchesLiterally clock query ↔ LiteralQuery query.toList) ∧
    ∀ organisation role, ListsLiterally clock now organisation role ↔
      (∀ f ∈ organisation, LiteralFilter f.toList) ∧ ∀ f ∈ role, LiteralFilter f.toList :=
  ⟨fun _ ↦ ⟨literalQuery_of_searches clock, searchesLiterally clock⟩,
    fun _ _ ↦ ⟨literalFilters_of_lists clock, fun h ↦ listsLiterally clock h.1 h.2⟩⟩

end Claims

/-- Whatever is not laid down of `LIKE`, a search for a backslash does not find the contact of that
name, and a percent sign passes the role that is empty. -/
theorem not_literal : ¬ ∃ like, Documented like ∧
    ((∀ query db, NulFree db →
      Selects textClock db (Mentions query) (contactSearch textClock like db query)) ∨
    ∀ role db, NulFree db →
      Selects textClock db (Listed textClock "" ⟨false, none, role⟩)
        (contactList textClock like "" db ⟨false, none, role⟩)) := by
  rintro ⟨like, hlike, h | h⟩
  · have hfree : NulFree ⟨[bearing ['\\'] [] []], [], []⟩ :=
      nulFree_bearing (by decide) List.not_mem_nil List.not_mem_nil
    have htexts : ∀ t ∈ searchedTexts (bearing ['\\'] [] []).columns,
        like ['%', '\\', '%'] t = .ok (Matches [any, lit '%'] t) := fun t ht ↦
      hlike.matches_of _ _ (by decide) (hfree _ List.mem_cons_self t ht) (by decide)
    have hnot : (searchedTexts (bearing ['\\'] [] []).columns).any (Matches [any, lit '%']) =
        false := by
      rw [searchedTexts_bearing]
      decide
    have hlisted : Mentions "\\" (bearing ['\\'] [] []) := by
      rw [Mentions, searchedTexts_bearing]
      exact ⟨['\\'], List.mem_cons_self, by decide⟩
    have hselects := h "\\" _ hfree
    rw [contactSearch, selects_single textClock ((anyLike_of_ok htexts).trans (congrArg _ hnot))]
      at hselects
    exact Bool.false_ne_true (hselects.mpr hlisted)
  · have hfree : NulFree ⟨[bearing [] [] []], [], []⟩ :=
      nulFree_bearing List.not_mem_nil List.not_mem_nil List.not_mem_nil
    have hpattern : like ['%', '%', '%'] [] = .ok true :=
      hlike.matches_of _ _ (by decide) (by decide) (by decide)
    have hrole : isListed textClock like "" ⟨false, none, some "%"⟩ (bearing [] [] []) = .ok true :=
      hpattern
    obtain ⟨-, -, -, hpasses⟩ := of_selects_single textClock (h (some "%") _ hfree)
      (by rw [hrole]; rintro ⟨⟩)
    exact absurd (hpasses "%" rfl) (by decide)

end Galdralag.Host
