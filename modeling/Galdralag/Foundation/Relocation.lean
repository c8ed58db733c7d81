import Galdralag.Foundation.Fallible
import Galdralag.Foundation.Memory
import Mathlib.Data.List.Forall2
import Mathlib.Data.List.Induction

/-!
# Moving data inside a memory

Spans of a memory are moved, in a given order, to one place one behind the other. Each is read as a
whole before it is written, so it does not matter whether a span meets its own new place; but it may
meet the new place of a span that was moved before it, and then it has been overwritten when its
turn comes.

Where a byte of the memory comes from does not depend on what the bytes are (`origin`). So exactly
when all spans survive, whatever the memory holds, can be read off the spans: when each was spared
by the moves before it, that is when none of these went to another place that meets it.
-/

set_option linter.all false

namespace Galdralag

/-- A range of addresses. -/
structure Span where
  start : ℕ
  length : ℕ
  deriving DecidableEq, Repr

namespace Span

/-- An address in the range. -/
def Has (r : Span) (a : ℕ) : Prop := r.start ≤ a ∧ a < r.start + r.length

instance (r : Span) (a : ℕ) : Decidable (r.Has a) := inferInstanceAs (Decidable (_ ∧ _))

/-- No address is in both ranges. -/
def Apart (r q : Span) : Prop :=
  r.length = 0 ∨ q.length = 0 ∨ r.start + r.length ≤ q.start ∨ q.start + q.length ≤ r.start

instance (r q : Span) : Decidable (r.Apart q) := inferInstanceAs (Decidable (_ ∨ _))

theorem apart_iff {r q : Span} : r.Apart q ↔ ∀ a, r.Has a → ¬ q.Has a := by
  constructor
  · rintro h a ⟨hr, hr'⟩ ⟨hq, hq'⟩
    rcases h with h | h | h | h <;> omega
  · intro h
    -- the larger one of the two starts is the first address they can have in common
    have hmax := h (max r.start q.start)
    simp only [Has] at hmax
    simp only [Apart]
    omega

/-- The range lies between two addresses. -/
def Within (lo hi : ℕ) (r : Span) : Prop := lo ≤ r.start ∧ r.start + r.length ≤ hi

end Span

namespace Memory

variable {mem mem' : Memory} {dst lo hi : ℕ} {r q : Span} {moved rest : List Span}

/-- The addresses that some ranges take up together. -/
def total : List Span → ℕ
  | [] => 0
  | r :: rs => r.length + total rs

@[simp] theorem total_cons (r : Span) (rs : List Span) : total (r :: rs) = r.length + total rs := rfl

/-! ## Where a byte comes from -/

/-- Move the spans to `dst`, one behind the other. -/
def slide (mem : Memory) (dst : ℕ) : List Span → Memory
  | [] => mem
  | r :: rs => slide (mem.patch dst (mem.window r.start r.length)) (dst + r.length) rs

/-- Where the byte comes from that is at an address after the span was moved to `dst`. -/
def shift (dst : ℕ) (r : Span) (a : ℕ) : ℕ :=
  if dst ≤ a ∧ a < dst + r.length then r.start + (a - dst) else a

/-- Where the byte comes from that is at an address after all were moved. -/
def origin (dst : ℕ) : List Span → ℕ → ℕ
  | [], a => a
  | r :: rs, a => shift dst r (origin (dst + r.length) rs a)

theorem shift_of_lt {a : ℕ} (h : a < dst) : shift dst r a = a := if_neg (by omega)

theorem shift_of_ge {a : ℕ} (h : dst + r.length ≤ a) : shift dst r a = a := if_neg (by omega)

theorem shift_add {k : ℕ} (h : k < r.length) : shift dst r (dst + k) = r.start + k := by
  rw [shift, if_pos (by omega), Nat.add_sub_cancel_left]

theorem patch_window (mem : Memory) (dst : ℕ) (r : Span) (a : ℕ) :
    mem.patch dst (mem.window r.start r.length) a = mem (shift dst r a) := by
  rw [shift]
  split_ifs with h
  · obtain ⟨k, rfl⟩ := Nat.exists_eq_add_of_le h.1
    have hk : k < (mem.window r.start r.length).length := by
      rw [length_window]
      omega
    rw [patch_apply_add hk, Nat.add_sub_cancel_left]
    simp only [window, List.getElem_map, List.getElem_range]
  · rcases Nat.lt_or_ge a dst with hlt | hge
    · exact patch_apply_of_lt hlt
    · exact patch_apply_of_ge (by rw [length_window]; omega)

theorem slide_apply (rs : List Span) : ∀ (mem : Memory) (dst a : ℕ),
    slide mem dst rs a = mem (origin dst rs a) := by
  induction rs with
  | nil => exact fun _ _ _ ↦ rfl
  | cons r rs ih =>
    intro mem dst a
    rw [slide, ih, patch_window, origin]

/-- Nothing moves before the place to which the spans go. -/
theorem origin_of_lt (rs : List Span) : ∀ {dst a : ℕ}, a < dst → origin dst rs a = a := by
  induction rs with
  | nil => exact fun _ ↦ rfl
  | cons r rs ih =>
    intro dst a h
    rw [origin, ih (by omega), shift_of_lt h]

/-- Nor behind it. -/
theorem origin_of_ge (rs : List Span) : ∀ {dst a : ℕ}, dst + total rs ≤ a →
    origin dst rs a = a := by
  induction rs with
  | nil => exact fun _ ↦ rfl
  | cons r rs ih =>
    intro dst a h
    rw [total_cons] at h
    rw [origin, ih (by omega), shift_of_ge (by omega)]

theorem origin_append (rs qs : List Span) : ∀ (dst a : ℕ),
    origin dst (rs ++ qs) a = origin dst rs (origin (dst + total rs) qs a) := by
  induction rs with
  | nil => exact fun _ _ ↦ rfl
  | cons r rs ih =>
    intro dst a
    rw [List.cons_append, origin, origin, ih, total_cons, Nat.add_assoc]

/-- Bytes come from the spans that are moved or from where they are. -/
theorem origin_within {rs : List Span} (hrs : ∀ r ∈ rs, r.Within lo hi) : ∀ {dst a : ℕ},
    lo ≤ a → a < hi → lo ≤ origin dst rs a ∧ origin dst rs a < hi := by
  induction rs with
  | nil => exact fun h h' ↦ ⟨h, h'⟩
  | cons r rs ih =>
    intro dst a h h'
    rw [List.forall_mem_cons] at hrs
    obtain ⟨hlo, hhi⟩ : lo ≤ origin (dst + r.length) rs a ∧ origin (dst + r.length) rs a < hi :=
      ih hrs.2 h h'
    have hstart := hrs.1.1
    have hend := hrs.1.2
    rw [origin, shift]
    split_ifs <;> omega

/-! ## Spans that survive -/

/-- The moves of `pre`, which go to `dst`, leave a span alone: each of them that goes to another
place goes to one that does not meet it. -/
def Spares (dst : ℕ) (pre : List Span) (q : Span) : Prop :=
  ∀ p r p', pre = p ++ r :: p' → r.start = dst + total p ∨ Span.Apart ⟨dst + total p, r.length⟩ q

/-- Every span is spared by the moves before it. -/
structure Clear (dst : ℕ) (moved rest : List Span) : Prop where
  before : ∀ pre r post, moved = pre ++ r :: post → Spares dst pre r
  behind : ∀ q ∈ rest, Spares dst moved q

/-- Its bytes are where they were. -/
def Intact (dst : ℕ) (pre : List Span) (q : Span) : Prop := ∀ a, q.Has a → origin dst pre a = a

theorem spares_nil : Spares dst [] q := by
  intro p r p' h
  cases p <;> cases h

theorem spares_concat : Spares dst (moved ++ [r]) q ↔
    Spares dst moved q ∧
      (r.start = dst + total moved ∨ Span.Apart ⟨dst + total moved, r.length⟩ q) := by
  constructor
  · intro h
    refine ⟨fun p s p' heq ↦ h p s (p' ++ [r]) ?_, h moved r [] rfl⟩
    rw [heq, List.append_assoc, List.cons_append]
  · rintro ⟨h, hlast⟩ p s p' heq
    rcases List.eq_nil_or_concat p' with rfl | ⟨p'', t, rfl⟩
    · obtain ⟨rfl, hs⟩ := List.append_inj' heq rfl
      obtain rfl := (List.cons.inj hs).1
      exact hlast
    · rw [List.concat_eq_append, ← List.cons_append, ← List.append_assoc] at heq
      exact h p s p'' (List.append_inj' heq rfl).1

/-- Where no span was overwritten before its own turn, a span is intact when it was spared. -/
theorem intact_iff_spares (hmoved : ∀ pre r post, moved = pre ++ r :: post → Intact dst pre r) :
    Intact dst moved q ↔ Spares dst moved q := by
  induction moved using List.reverseRecOn with
  | nil => exact iff_of_true (fun _ _ ↦ rfl) spares_nil
  | append_singleton moved r ih =>
    have hr : Intact dst moved r := hmoved moved r [] rfl
    have ih := ih fun pre s post heq ↦ hmoved pre s (post ++ [r]) (by
      rw [heq, List.append_assoc, List.cons_append])
    have horigin : ∀ a, origin dst (moved ++ [r]) a
        = if dst + total moved ≤ a ∧ a < dst + total moved + r.length then
          r.start + (a - (dst + total moved)) else origin dst moved a := by
      intro a
      rw [origin_append, origin, origin, shift]
      split_ifs with h
      · exact hr _ ⟨by omega, by omega⟩
      · rfl
    rw [spares_concat, ← ih]
    constructor
    · intro h
      constructor
      · intro a ha
        by_cases hin : dst + total moved ≤ a ∧ a < dst + total moved + r.length
        · exact origin_of_ge moved hin.1
        · have heq := h a ha
          rwa [horigin, if_neg hin] at heq
      · by_cases hplace : r.start = dst + total moved
        · exact .inl hplace
        · refine .inr (Span.apart_iff.mpr ?_)
          rintro a ⟨hlo, hhi⟩ ha
          have heq := h a ha
          rw [horigin, if_pos ⟨hlo, hhi⟩] at heq
          have hlo : dst + total moved ≤ a := hlo
          omega
    · rintro ⟨h, hlast⟩ a ha
      rw [horigin]
      split_ifs with hin
      · rcases hlast with hplace | hapart
        · omega
        · exact absurd ha (Span.apart_iff.mp hapart a hin)
      · exact h a ha

theorem intact_of_spares (moved : List Span)
    (h : ∀ pre r post, moved = pre ++ r :: post → Spares dst pre r) :
    ∀ pre r post, moved = pre ++ r :: post → Intact dst pre r := by
  induction moved using List.reverseRecOn with
  | nil =>
    intro pre r post heq
    cases pre <;> cases heq
  | append_singleton moved s ih =>
    have ih := ih fun pre r post heq ↦ h pre r (post ++ [s]) (by
      rw [heq, List.append_assoc, List.cons_append])
    intro pre r post heq
    rcases List.eq_nil_or_concat post with rfl | ⟨post', t, rfl⟩
    · have hspares := h pre r [] heq
      obtain ⟨rfl, -⟩ := List.append_inj' heq rfl
      exact (intact_iff_spares ih).mpr hspares
    · rw [List.concat_eq_append, ← List.cons_append, ← List.append_assoc] at heq
      exact ih pre r post' (List.append_inj' heq rfl).1

/-- **Spans.** No span is overwritten before its turn, and none of the rest at all, when all are
spared. -/
theorem intact_iff_clear : ((∀ pre r post, moved = pre ++ r :: post → Intact dst pre r) ∧
    ∀ q ∈ rest, Intact dst moved q) ↔ Clear dst moved rest := by
  constructor
  · rintro ⟨hmoved, hrest⟩
    refine ⟨fun pre r post heq ↦ ?_, fun q hq ↦ (intact_iff_spares hmoved).mp (hrest q hq)⟩
    refine (intact_iff_spares fun p s p' hpre ↦ ?_).mp (hmoved pre r post heq)
    exact hmoved p s (p' ++ r :: post) (by rw [heq, hpre, List.append_assoc, List.cons_append])
  · rintro ⟨hmoved, hrest⟩
    have hintact := intact_of_spares moved hmoved
    exact ⟨hintact, fun q hq ↦ (intact_iff_spares hintact).mpr (hrest q hq)⟩

/-! ## The bytes of the spans -/

/-- The bytes of the spans are there after the moves: those that were moved at their new places, the
rest where they were. -/
def Relocated (mem mem' : Memory) (dst : ℕ) : List Span → List Span → Prop
  | [], rest => ∀ q ∈ rest, mem'.window q.start q.length = mem.window q.start q.length
  | r :: moved, rest => mem'.window dst r.length = mem.window r.start r.length ∧
      Relocated mem mem' (dst + r.length) moved rest

theorem relocated_iff (moved : List Span) : ∀ {dst : ℕ}, Relocated mem mem' dst moved rest ↔
    (∀ pre r post, moved = pre ++ r :: post →
      mem'.window (dst + total pre) r.length = mem.window r.start r.length) ∧
    ∀ q ∈ rest, mem'.window q.start q.length = mem.window q.start q.length := by
  induction moved with
  | nil =>
    intro dst
    refine ⟨fun h ↦ ⟨fun pre r post heq ↦ ?_, h⟩, And.right⟩
    cases pre <;> cases heq
  | cons s moved ih =>
    intro dst
    rw [Relocated, ih, ← and_assoc]
    refine and_congr_left fun _ ↦ ?_
    constructor
    · rintro ⟨hs, h⟩ pre r post heq
      rcases pre with _ | ⟨t, pre⟩
      · obtain ⟨rfl, -⟩ := List.cons.inj heq
        exact hs
      · obtain ⟨rfl, htail⟩ := List.cons.inj heq
        rw [total_cons, ← Nat.add_assoc]
        exact h pre r post htail
    · intro h
      refine ⟨h [] s moved rfl, fun pre r post heq ↦ ?_⟩
      rw [Nat.add_assoc, ← total_cons]
      exact h (s :: pre) r post (by rw [heq, List.cons_append])

/-- The window at the new place of a span shows where its bytes come from. -/
theorem window_slide_iff {n off len : ℕ} :
    (slide mem dst moved).window n len = mem.window off len ↔
      ∀ k < len, mem (origin dst moved (n + k)) = mem (off + k) := by
  rw [window, window, List.map_inj_left]
  simp only [slide_apply, List.mem_range]

theorem origin_split {pre post : List Span} {k : ℕ} (hk : k < r.length) :
    origin dst (pre ++ r :: post) (dst + total pre + k) = origin dst pre (r.start + k) := by
  have hlater : origin (dst + total pre + r.length) post (dst + total pre + k)
      = dst + total pre + k := origin_of_lt post (by omega)
  rw [origin_append, origin, hlater, shift_add hk]

/-- **Moving spans.** Over contents that tell any two addresses apart, the spans survive all
contents exactly when each is spared by the moves before it. -/
theorem relocated_iff_clear {σ : Type} {memory : σ → Memory}
    (happart : ∀ a b, lo ≤ a → a < hi → lo ≤ b → b < hi → a ≠ b → ∃ s, memory s a ≠ memory s b)
    (hmoved : ∀ r ∈ moved, r.Within lo hi) (hrest : ∀ q ∈ rest, q.Within lo hi) :
    (∀ s, Relocated (memory s) (slide (memory s) dst moved) dst moved rest) ↔
      Clear dst moved rest := by
  -- contents that tell addresses apart show where a byte comes from
  have hsame : ∀ {pre : List Span} {a : ℕ}, (∀ r ∈ pre, r.Within lo hi) → lo ≤ a → a < hi →
      (∀ s, memory s (origin dst pre a) = memory s a) → origin dst pre a = a := by
    intro pre a hpre hlo hhi h
    by_contra hne
    obtain ⟨hlo', hhi'⟩ : lo ≤ origin dst pre a ∧ origin dst pre a < hi :=
      origin_within hpre hlo hhi
    obtain ⟨s, hs⟩ := happart _ _ hlo' hhi' hlo hhi hne
    exact hs (h s)
  rw [← intact_iff_clear]
  simp only [relocated_iff]
  constructor
  · intro h
    constructor
    · rintro pre r post rfl a ⟨hlo, hhi⟩
      have hr := hmoved r (List.mem_append_right _ List.mem_cons_self)
      refine hsame (fun s hs ↦ hmoved s (List.mem_append_left _ hs)) (Nat.le_trans hr.1 hlo)
        (Nat.lt_of_lt_of_le hhi hr.2) fun s ↦ ?_
      obtain ⟨k, rfl⟩ := Nat.exists_eq_add_of_le hlo
      have hk : k < r.length := by omega
      have hwindow := window_slide_iff.mp ((h s).1 pre r post rfl) k hk
      rwa [origin_split hk] at hwindow
    · rintro q hq a ⟨hlo, hhi⟩
      have hwithin := hrest q hq
      refine hsame hmoved (Nat.le_trans hwithin.1 hlo) (Nat.lt_of_lt_of_le hhi hwithin.2) fun s ↦ ?_
      obtain ⟨k, rfl⟩ := Nat.exists_eq_add_of_le hlo
      exact window_slide_iff.mp ((h s).2 q hq) k (by omega)
  · rintro ⟨hintact, hkeeps⟩ s
    constructor
    · rintro pre r post rfl
      refine window_slide_iff.mpr fun k hk ↦ ?_
      rw [origin_split hk, hintact pre r post rfl _ ⟨by omega, by omega⟩]
    · intro q hq
      refine window_slide_iff.mpr fun k hk ↦ ?_
      rw [hkeeps q hq _ ⟨by omega, by omega⟩]

/-! ## Moving in a loop

A loop over things that own spans. It moves the spans into a region of `cap` bytes, through a buffer
of `scratch` bytes, and stops at the first one that is too long for the buffer or does not fit any
more. -/

/-- The spans that are moved, when `n` bytes of the region are in use. -/
def movedSpans (scratch cap n : ℕ) : List Span → List Span
  | [] => []
  | r :: rs =>
    if r.length ≤ scratch ∧ n + r.length ≤ cap then r :: movedSpans scratch cap (n + r.length) rs
    else []

/-- The spans from that on where the loop stops. -/
def stuckSpans (scratch cap n : ℕ) : List Span → List Span
  | [] => []
  | r :: rs =>
    if r.length ≤ scratch ∧ n + r.length ≤ cap then stuckSpans scratch cap (n + r.length) rs
    else r :: rs

theorem movedSpans_append_stuckSpans (scratch cap : ℕ) (rs : List Span) :
    ∀ n, movedSpans scratch cap n rs ++ stuckSpans scratch cap n rs = rs := by
  induction rs with
  | nil => exact fun _ ↦ rfl
  | cons r rs ih =>
    intro n
    rw [movedSpans, stuckSpans]
    by_cases hfits : r.length ≤ scratch ∧ n + r.length ≤ cap
    · rw [if_pos hfits, if_pos hfits, List.cons_append, ih]
    · rw [if_neg hfits, if_neg hfits, List.nil_append]

section Loop

variable {α τ ε : Type} {base scratch cap : ℕ}

/-- The things after the loop, with the places of their spans. -/
def placed (scratch cap : ℕ) (span : α → Option Span) (place : ℕ → α → α) (n : ℕ) : List α → List α
  | [] => []
  | x :: xs =>
    match span x with
    | none => x :: placed scratch cap span place n xs
    | some r =>
      if r.length ≤ scratch ∧ n + r.length ≤ cap then
        place n x :: placed scratch cap span place (n + r.length) xs
      else x :: xs

/-- The body of such a loop, for things with a property. -/
structure Slides (base scratch cap : ℕ) (used : τ → ℕ) (memory : τ → Memory)
    (span : α → Option Span) (place : ℕ → α → α) (Valid : α → Prop)
    (f : Fallible (α × τ) ε PUnit) : Prop where
  skip : ∀ x t, Valid x → span x = none → f (x, t) = (.ok ⟨⟩, (x, t))
  move : ∀ x t r, Valid x → span x = some r → r.length ≤ scratch → used t + r.length ≤ cap →
    ∃ t', f (x, t) = (.ok ⟨⟩, (place (used t) x, t')) ∧ used t' = used t + r.length ∧
      memory t' = (memory t).patch (base + used t) ((memory t).window r.start r.length)
  stop : ∀ x t r, Valid x → span x = some r → ¬ (r.length ≤ scratch ∧ used t + r.length ≤ cap) →
    ∃ e, f (x, t) = (.error e, (x, t))

variable {used : τ → ℕ} {memory : τ → Memory} {span : α → Option Span} {place : ℕ → α → α}
  {Valid : α → Prop} {f : Fallible (α × τ) ε PUnit}

/-- What the loop leaves. -/
theorem Slides.run (h : Slides base scratch cap used memory span place Valid f) (xs : List α) :
    ∀ t : τ, (∀ x ∈ xs, Valid x) →
      ∃ res t', f.eachMut xs t = (res, (placed scratch cap span place (used t) xs, t')) ∧
        memory t' = slide (memory t) (base + used t)
          (movedSpans scratch cap (used t) (xs.filterMap span)) := by
  induction xs with
  | nil => exact fun t _ ↦ ⟨_, t, rfl, rfl⟩
  | cons x xs ih =>
    intro t hvalid
    rw [List.forall_mem_cons] at hvalid
    rcases hspan : span x with _ | r
    · obtain ⟨res, t', hrun, hmem⟩ := ih t hvalid.2
      refine ⟨res, t', ?_, ?_⟩
      · rw [Fallible.eachMut_cons_of_ok (h.skip x t hvalid.1 hspan), hrun, placed, hspan]
      · rw [hmem, List.filterMap_cons_none hspan]
    rw [List.filterMap_cons_some hspan, movedSpans, placed, hspan]
    by_cases hfits : r.length ≤ scratch ∧ used t + r.length ≤ cap
    · obtain ⟨t₁, hstep, hused, hmem₁⟩ := h.move x t r hvalid.1 hspan hfits.1 hfits.2
      obtain ⟨res, t', hrun, hmem⟩ := ih t₁ hvalid.2
      refine ⟨res, t', ?_, ?_⟩
      · rw [Fallible.eachMut_cons_of_ok hstep, hrun, hused]
        simp only [if_pos hfits]
      · rw [hmem, hmem₁, hused, if_pos hfits, slide, Nat.add_assoc]
    · obtain ⟨e, hstep⟩ := h.stop x t r hvalid.1 hspan hfits
      refine ⟨.error e, t, ?_, ?_⟩
      · rw [Fallible.eachMut_cons_of_error hstep]
        simp only [if_neg hfits]
      · rw [if_neg hfits]
        rfl

/-- A relation between the things before and after the loop that says the bytes of their spans are
the same, says that the spans were relocated. -/
theorem forall₂_placed {R : α → α → Prop} (hskip : ∀ x, Valid x → span x = none → R x x)
    (hmove : ∀ x r n, Valid x → span x = some r → n + r.length ≤ cap →
      (R x (place n x) ↔ mem'.window (base + n) r.length = mem.window r.start r.length))
    (hstay : ∀ x r, Valid x → span x = some r →
      (R x x ↔ mem'.window r.start r.length = mem.window r.start r.length)) (xs : List α) :
    ∀ n, (∀ x ∈ xs, Valid x) → (List.Forall₂ R xs (placed scratch cap span place n xs) ↔
      Relocated mem mem' (base + n) (movedSpans scratch cap n (xs.filterMap span))
        (stuckSpans scratch cap n (xs.filterMap span))) := by
  have hstuck : ∀ xs : List α, (∀ x ∈ xs, Valid x) → (List.Forall₂ R xs xs ↔
      ∀ q ∈ xs.filterMap span, mem'.window q.start q.length = mem.window q.start q.length) := by
    intro xs hvalid
    rw [List.forall₂_same]
    constructor
    · intro h q hq
      obtain ⟨x, hx, hspan⟩ := List.mem_filterMap.mp hq
      exact (hstay x q (hvalid x hx) hspan).mp (h x hx)
    · intro h x hx
      rcases hspan : span x with _ | r
      · exact hskip x (hvalid x hx) hspan
      · exact (hstay x r (hvalid x hx) hspan).mpr (h r (List.mem_filterMap.mpr ⟨x, hx, hspan⟩))
  induction xs with
  | nil => exact fun n _ ↦ iff_of_true .nil fun q hq ↦ absurd hq List.not_mem_nil
  | cons x xs ih =>
    intro n hvalid
    have hx := hvalid x List.mem_cons_self
    have htail := (List.forall_mem_cons.mp hvalid).2
    rcases hspan : span x with _ | r
    · rw [List.filterMap_cons_none hspan, placed, hspan, ← ih n htail]
      simp only [List.forall₂_cons, hskip x hx hspan, true_and]
    rw [List.filterMap_cons_some hspan, movedSpans, stuckSpans, placed, hspan]
    by_cases hfits : r.length ≤ scratch ∧ n + r.length ≤ cap
    · simp only [if_pos hfits, List.forall₂_cons, Relocated, hmove x r n hx hspan hfits.2,
        ih (n + r.length) htail, Nat.add_assoc]
    · simp only [if_neg hfits]
      rw [hstuck _ hvalid, List.filterMap_cons_some hspan]
      rfl

/-- **Compaction.** A loop that moves the spans of its things to the start of a region keeps what is
in them, whatever the memory holds, exactly when each span is spared by the moves before it. -/
theorem Slides.keeps_iff_clear {σ : Type}
    (h : Slides base scratch cap used memory span place Valid f) (start : σ → τ)
    (R : τ → τ → α → α → Prop) (hstart : ∀ s, used (start s) = 0)
    (happart : ∀ a b, lo ≤ a → a < hi → lo ≤ b → b < hi → a ≠ b →
      ∃ s, memory (start s) a ≠ memory (start s) b)
    (hskip : ∀ t t' x, Valid x → span x = none → R t t' x x)
    (hmove : ∀ t t' x r n, Valid x → span x = some r → n + r.length ≤ cap →
      (R t t' x (place n x) ↔
        (memory t').window (base + n) r.length = (memory t).window r.start r.length))
    (hstay : ∀ t t' x r, Valid x → span x = some r →
      (R t t' x x ↔ (memory t').window r.start r.length = (memory t).window r.start r.length))
    {xs : List α} (hvalid : ∀ x ∈ xs, Valid x)
    (hwithin : ∀ x ∈ xs, ∀ r, span x = some r → r.Within lo hi) :
    (∀ s, List.Forall₂ (R (start s) (f.eachMut xs (start s)).2.2) xs
        (f.eachMut xs (start s)).2.1) ↔
      Clear base (movedSpans scratch cap 0 (xs.filterMap span))
        (stuckSpans scratch cap 0 (xs.filterMap span)) := by
  have hall := movedSpans_append_stuckSpans scratch cap (xs.filterMap span) 0
  have hspans : ∀ r ∈ xs.filterMap span, r.Within lo hi := by
    intro r hr
    obtain ⟨x, hx, hspan⟩ := List.mem_filterMap.mp hr
    exact hwithin x hx r hspan
  rw [← relocated_iff_clear happart
    (fun r hr ↦ hspans r (hall ▸ List.mem_append_left _ hr))
    (fun r hr ↦ hspans r (hall ▸ List.mem_append_right _ hr))]
  refine forall_congr' fun s ↦ ?_
  obtain ⟨res, t', hrun, hmem⟩ := h.run xs (start s) hvalid
  rw [hstart] at hrun hmem
  rw [hrun, forall₂_placed (hskip _ _) (hmove _ _) (hstay _ _) xs 0 hvalid, hmem]
  rfl

end Loop

end Memory

end Galdralag
