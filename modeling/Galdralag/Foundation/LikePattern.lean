import Mathlib.Data.List.Basic
import Mathlib.Data.List.Infix
import Mathlib.Data.Nat.Notation

/-!
# Patterns with wildcards

The patterns of `LIKE`: a percent sign stands for any text, an underscore for any character, and
behind the escape character every character stands for itself. Letters match in either case.

A pattern is read into tokens first. Its `shortest` match leaves out what a percent sign stands for;
it is what tells a pattern that was meant as a literal text from one that says something else.
-/

set_option linter.all false

namespace Galdralag

/-- A piece of a pattern. -/
inductive LikeToken where
  /-- Any text. -/
  | any
  /-- Any character. -/
  | one
  /-- A character, in either case. -/
  | lit (c : Char)
  /-- An escape character with nothing behind it, which nothing matches. -/
  | dangling
  deriving DecidableEq

namespace LikeToken

/-- What an unescaped character stands for. -/
def single (c : Char) : LikeToken := if c = '%' then any else if c = '_' then one else lit c

/-- The pieces of a pattern with the escape character `e`. -/
def tokens (e : Char) : List Char → List LikeToken
  | [] => []
  | [c] => if c = e then [dangling] else [single c]
  | c :: d :: p => if c = e then lit d :: tokens e p else single c :: tokens e (d :: p)

/-- Whether a text matches. -/
def Matches : List LikeToken → List Char → Bool
  | [], s => s.isEmpty
  | any :: p, s => s.tails.any (Matches p)
  | one :: _, [] => false
  | one :: p, _ :: s => Matches p s
  | lit _ :: _, [] => false
  | lit c :: p, d :: s => c.toLower = d.toLower && Matches p s
  | dangling :: _, _ => false

/-- One text contains another, ASCII letters in either case. -/
def Contains (q s : List Char) : Prop := q.map Char.toLower <:+: s.map Char.toLower

instance (q s : List Char) : Decidable (Contains q s) := inferInstanceAs (Decidable (_ <:+: _))

/-! ## Matching -/

variable {e c : Char} {p : List LikeToken} {q s t : List Char}

theorem matches_any : Matches (any :: p) s = true ↔ ∃ u v, s = u ++ v ∧ Matches p v = true := by
  rw [Matches, List.any_eq_true]
  constructor
  · rintro ⟨v, hv, hmatch⟩
    obtain ⟨u, rfl⟩ := (List.mem_tails _ _).mp hv
    exact ⟨u, v, rfl, hmatch⟩
  · rintro ⟨u, v, rfl, hmatch⟩
    exact ⟨v, (List.mem_tails _ _).mpr (List.suffix_append u v), hmatch⟩

theorem matches_rest : Matches [any] s = true := matches_any.mpr ⟨s, [], (List.append_nil s).symm, rfl⟩

/-- A literal text matches its like, and what follows matches what follows. -/
theorem matches_lits : Matches (q.map lit ++ p) s = true ↔
    ∃ u v, s = u ++ v ∧ q.map Char.toLower = u.map Char.toLower ∧ Matches p v = true := by
  induction q generalizing s with
  | nil =>
    constructor
    · exact fun h ↦ ⟨[], s, rfl, rfl, h⟩
    · rintro ⟨u, v, rfl, hu, hmatch⟩
      rw [List.map_eq_nil_iff.mp hu.symm]
      exact hmatch
  | cons c q ih =>
    rcases s with _ | ⟨d, s⟩
    · refine iff_of_false Bool.false_ne_true ?_
      rintro ⟨u, v, hnil, hu, -⟩
      rw [(List.append_eq_nil_iff.mp hnil.symm).1] at hu
      cases hu
    · rw [List.map_cons, List.cons_append, Matches, Bool.and_eq_true, decide_eq_true_iff, ih]
      constructor
      · rintro ⟨hc, u, v, rfl, hu, hmatch⟩
        refine ⟨d :: u, v, rfl, ?_, hmatch⟩
        rw [List.map_cons, List.map_cons, hc, hu]
      · rintro ⟨u, v, heq, hu, hmatch⟩
        obtain ⟨d', u', rfl, hd, hu'⟩ := List.map_eq_cons_iff.mp hu.symm
        obtain ⟨rfl, rfl⟩ := List.cons.inj heq
        exact ⟨hd.symm, u', v, rfl, hu'.symm, hmatch⟩

/-- **Literal patterns.** A literal text between two percent signs matches what contains it. -/
theorem matches_literal : Matches (any :: (q.map lit ++ [any])) s = true ↔ Contains q s := by
  rw [matches_any]
  constructor
  · rintro ⟨u, v, rfl, hmatch⟩
    obtain ⟨w, v, rfl, hw, -⟩ := matches_lits.mp hmatch
    refine ⟨u.map Char.toLower, v.map Char.toLower, ?_⟩
    rw [hw, List.map_append, List.map_append, List.append_assoc]
  · rintro ⟨u, v, heq⟩
    obtain ⟨uw, v', rfl, huw, -⟩ := List.map_eq_append_iff.mp heq.symm
    obtain ⟨u', w, rfl, -, hw⟩ := List.map_eq_append_iff.mp huw
    exact ⟨u', w ++ v', List.append_assoc _ _ _, matches_lits.mpr ⟨w, v', rfl, hw.symm, matches_rest⟩⟩

/-! ## Reading patterns -/

theorem tokens_of_ne (h : c ≠ e) (p : List Char) : tokens e (c :: p) = single c :: tokens e p := by
  rcases p with _ | ⟨d, p⟩
  · simp only [tokens, if_neg h]
  · rw [tokens, if_neg h]

theorem tokens_escaped (c : Char) (p : List Char) : tokens e (e :: c :: p) = lit c :: tokens e p := by
  rw [tokens, if_pos rfl]

/-- A character that stands for itself. -/
def Plain (e c : Char) : Prop := c ≠ e ∧ c ≠ '%' ∧ c ≠ '_'

theorem Plain.single (h : Plain e c) : single c = lit c := by
  rw [LikeToken.single, if_neg h.2.1, if_neg h.2.2]

/-- A text of plain characters is read as itself. -/
theorem tokens_plain {f : List Char} (h : ∀ c ∈ f, Plain e c) (p : List Char) :
    tokens e (f ++ p) = f.map lit ++ tokens e p := by
  induction f with
  | nil => rfl
  | cons c f ih =>
    have hc := h c List.mem_cons_self
    rw [List.cons_append, tokens_of_ne hc.1, hc.single, ih fun d hd ↦ h d (List.mem_cons_of_mem c hd)]
    rfl

/-- Nothing dangles before a character that is not the escape character. -/
theorem dangling_notMem (h : c ≠ e) (f : List Char) : dangling ∉ tokens e (f ++ [c]) := by
  have hsingle (c : Char) : dangling ≠ single c := by
    rw [single]
    split_ifs
    · rintro ⟨⟩
    · rintro ⟨⟩
    · rintro ⟨⟩
  -- on the length, because the escape character takes the next one with it
  induction hn : f.length using Nat.strong_induction_on generalizing f with
  | _ n ih =>
    rcases f with _ | ⟨d, f⟩
    · rw [List.nil_append, tokens_of_ne h, List.mem_cons, not_or]
      exact ⟨hsingle c, List.not_mem_nil⟩
    · rw [List.length_cons] at hn
      by_cases hd : d = e
      · obtain rfl := hd
        rcases f with _ | ⟨d', f⟩
        · rw [List.singleton_append, tokens_escaped, List.mem_cons, not_or]
          exact ⟨by rintro ⟨⟩, List.not_mem_nil⟩
        · rw [List.length_cons] at hn
          rw [List.cons_append, List.cons_append, tokens_escaped, List.mem_cons, not_or]
          exact ⟨by rintro ⟨⟩, ih f.length (by omega) f rfl⟩
      · rw [List.cons_append, tokens_of_ne hd, List.mem_cons, not_or]
        exact ⟨hsingle d, ih f.length (by omega) f rfl⟩

/-! ## The shortest match -/

/-- What is matched when percent signs stand for nothing. -/
def shortest : List LikeToken → List Char
  | [] => []
  | any :: p => shortest p
  | one :: p => 'x' :: shortest p
  | lit c :: p => c :: shortest p
  | dangling :: p => shortest p

theorem matches_shortest (h : dangling ∉ p) : Matches p (shortest p) = true := by
  induction p with
  | nil => rfl
  | cons token p ih =>
    rw [List.mem_cons, not_or] at h
    have hrest := ih h.2
    cases token with
    | any => exact matches_any.mpr ⟨[], shortest p, rfl, hrest⟩
    | one => exact hrest
    | lit c =>
      rw [shortest, Matches, hrest, Bool.and_true]
      exact decide_eq_true rfl
    | dangling => exact absurd rfl h.1

/-- The shortest match consists of characters of the pattern, and of the letter that is put for any
character. -/
theorem mem_shortest (f : List Char) (hc : c ∈ shortest (tokens e f)) : c ∈ f ∨ c = 'x' := by
  have hsingle (d : Char) (p : List LikeToken) (h : c ∈ shortest (single d :: p)) :
      c = d ∨ c = 'x' ∨ c ∈ shortest p := by
    rw [single] at h
    split_ifs at h
    · exact .inr (.inr h)
    · exact (List.mem_cons.mp h).elim (fun h ↦ .inr (.inl h)) fun h ↦ .inr (.inr h)
    · exact (List.mem_cons.mp h).elim .inl fun h ↦ .inr (.inr h)
  induction hn : f.length using Nat.strong_induction_on generalizing f with
  | _ n ih =>
    rcases f with _ | ⟨d, f⟩
    · cases hc
    · rw [List.length_cons] at hn
      by_cases hd : d = e
      · obtain rfl := hd
        rcases f with _ | ⟨d', f⟩
        · rw [tokens, if_pos rfl] at hc
          cases hc
        · rw [List.length_cons] at hn
          rw [tokens_escaped] at hc
          rcases List.mem_cons.mp hc with rfl | hc
          · exact .inl (List.mem_cons_of_mem _ List.mem_cons_self)
          · exact (ih f.length (by omega) f hc rfl).imp_left fun h ↦
              List.mem_cons_of_mem _ (List.mem_cons_of_mem _ h)
      · rw [tokens_of_ne hd] at hc
        rcases hsingle d _ hc with rfl | rfl | hc
        · exact .inl List.mem_cons_self
        · exact .inr rfl
        · exact (ih f.length (by omega) f hc rfl).imp_left (List.mem_cons_of_mem _)

/-- A text that is no longer than what it contains is the same, but for the case of letters. -/
theorem Contains.eq_of_length_le (h : Contains q s) (hlen : s.length ≤ q.length) :
    s.map Char.toLower = q.map Char.toLower := by
  have hle := h.length_le
  rw [List.length_map, List.length_map] at hle
  refine (h.eq_of_length ?_).symm
  rw [List.length_map, List.length_map]
  omega

end LikeToken

end Galdralag
