import Galdralag.Cipher.Registry
import Galdralag.Foundation.Trace
import Galdralag.Session.Handshake

/-!
# Revocation in the trust store

The in-memory trust store keeps certificates in a vector of fixed capacity. Nothing keeps one
fingerprint from being added twice. Removing takes out the first entry it finds and stops, and looking
up answers nothing when there are two: so a fingerprint with two entries is not trusted, and removing
it once makes it trusted.

What looking up says of a fingerprint depends on the number of its entries only, and each call moves
these numbers by one at most. Removal keeps its promise over a run exactly if no step removes a
fingerprint that has exactly two entries.
-/

set_option linter.all false

namespace Galdralag.Session

open Fallible
open Cipher (swapRemove perm_swapRemove length_swapRemove_le)

/-! ## The store -/

/-- A trust store with room for `N` certificates. -/
structure InMemoryTrustStore (N : ℕ) where
  entries : List LongTermCert
  length_le : entries.length ≤ N

namespace InMemoryTrustStore

variable {N : ℕ}

/-- An empty trust store. -/
def new : InMemoryTrustStore N := ⟨[], Nat.zero_le N⟩

/-- Insert a certificate; a full store stays as it is. -/
def add (cert : LongTermCert) : Fallible (InMemoryTrustStore N) EphemeralSessionError PUnit :=
  fun s ↦
    if h : s.entries.length < N then
      (.ok ⟨⟩, ⟨s.entries ++ [cert], by rw [List.length_append, List.length_singleton]; exact h⟩)
    else (.error .trustStoreFull, s)

/-- The entry has the fingerprint. -/
def Matches (fingerprint : Bytes) (e : LongTermCert) : Bool := e.fingerprint.toBytes = fingerprint

/-- Remove the first entry of a fingerprint, and say whether there was one. -/
def remove (fingerprint : Bytes) (s : InMemoryTrustStore N) : Bool × InMemoryTrustStore N :=
  match s.entries.findIdx? (Matches fingerprint) with
  | some i => (true, ⟨swapRemove s.entries i, Nat.le_trans length_swapRemove_le s.length_le⟩)
  | none => (false, s)

/-- Go through the entries with the one found so far. -/
def find (fingerprint : Bytes) : List LongTermCert → Option LongTermCert → Option LongTermCert
  | [], found => found
  | e :: es, found =>
    if e.fingerprint.toBytes = fingerprint then
      if found.isSome then none else find fingerprint es (some e)
    else find fingerprint es found

/-- Look up a certificate by its fingerprint. -/
def lookup (fingerprint : Bytes) (s : InMemoryTrustStore N) : Option LongTermCert :=
  if fingerprint.length ≠ 32 then none else find fingerprint s.entries none

/-! ## Counting entries -/

/-- The number of entries of a fingerprint. -/
def held (fingerprint : Bytes) (s : InMemoryTrustStore N) : ℕ :=
  s.entries.countP (Matches fingerprint)

theorem find_some_eq_none {fp : Bytes} {c : LongTermCert} {es : List LongTermCert} :
    find fp es (some c) = none ↔ es.countP (Matches fp) ≠ 0 := by
  induction es with
  | nil => exact iff_of_false (by rintro ⟨⟩) (not_not_intro rfl)
  | cons e es ih =>
    rw [find, List.countP_cons, Matches]
    by_cases he : e.fingerprint.toBytes = fp
    · simp [he]
    · simp [he, ih]

/-- With nothing found yet, exactly one entry is an answer. -/
theorem find_none_eq_none {fp : Bytes} {es : List LongTermCert} :
    find fp es none = none ↔ es.countP (Matches fp) ≠ 1 := by
  induction es with
  | nil => exact iff_of_true rfl Nat.zero_ne_one
  | cons e es ih =>
    rw [find, List.countP_cons, Matches]
    by_cases he : e.fingerprint.toBytes = fp
    · simp [he, find_some_eq_none]
    · simp [he, ih]

/-- **Looking up** answers nothing unless there is exactly one entry. -/
theorem lookup_eq_none {fp : Bytes} {s : InMemoryTrustStore N} :
    s.lookup fp = none ↔ fp.length ≠ 32 ∨ s.held fp ≠ 1 := by
  rw [lookup]
  by_cases hlen : fp.length = 32
  · rw [if_neg (not_not_intro hlen), find_none_eq_none, held]
    exact (or_iff_right (not_not_intro hlen)).symm
  · rw [if_pos hlen]
    exact iff_of_true rfl (.inl hlen)

/-- **Adding** counts one more, where there is room. -/
theorem held_add {cert : LongTermCert} {s s' : InMemoryTrustStore N} {u : PUnit}
    (h : add cert s = (.ok u, s')) (fp : Bytes) :
    s'.held fp = s.held fp + if cert.fingerprint.toBytes = fp then 1 else 0 := by
  rw [add] at h
  split_ifs at h
  · obtain rfl := (Prod.mk.inj h).2
    rw [held, held, List.countP_append, List.countP_singleton, Matches]
    simp
  · cases h

theorem state_of_add_error {cert : LongTermCert} {s s' : InMemoryTrustStore N}
    {e : EphemeralSessionError} (h : add cert s = (.error e, s')) : s' = s := by
  rw [add] at h
  split_ifs at h
  · cases (Prod.mk.inj h).1
  · exact (Prod.mk.inj h).2.symm

/-- **Removing** counts one less, where there was one. -/
theorem held_remove (fingerprint fp : Bytes) (s : InMemoryTrustStore N) :
    (s.remove fingerprint).2.held fp =
      if fp = fingerprint then s.held fp - 1 else s.held fp := by
  rw [remove]
  rcases hi : s.entries.findIdx? (Matches fingerprint) with _ | i
  · split_ifs with hfp
    · have hzero : s.held fp = 0 := by
        rw [held, List.countP_eq_zero]
        intro e he
        rw [hfp, List.findIdx?_eq_none_iff.mp hi e he]
        exact Bool.false_ne_true
      rw [hzero]
    · rfl
  · obtain ⟨hlt, hmatch, -⟩ := List.findIdx?_eq_some_iff_getElem.mp hi
    have hperm := perm_swapRemove (List.getElem?_eq_getElem hlt)
    have hcount := hperm.countP_eq (Matches fp)
    rw [List.countP_cons] at hcount
    change (swapRemove s.entries i).countP (Matches fp) = _
    rw [held, hcount]
    have hfp : s.entries[i].fingerprint.toBytes = fingerprint := of_decide_eq_true hmatch
    -- the entry that goes counts for `fp` exactly if `fp` is the fingerprint that is removed
    split_ifs with h₁ h₂ h₂
    · rw [Nat.add_sub_cancel]
    · exact absurd (by rw [Matches, hfp, h₁]; exact decide_eq_true rfl) h₂
    · rw [Matches, hfp] at h₂
      exact absurd (of_decide_eq_true h₂).symm h₁
    · rfl

end InMemoryTrustStore

/-! ## Histories -/

/-- A call that changes the store. -/
inductive TrustCall where
  | add (cert : LongTermCert)
  | remove (fingerprint : Bytes)
  deriving DecidableEq

/-- What has happened to a fingerprint. -/
inductive TrustEvent where
  | added (fingerprint : Bytes)
  | removed (fingerprint : Bytes)
  deriving DecidableEq

/-- A store and what has happened to it, oldest first. -/
structure TrustHistory (N : ℕ) where
  store : InMemoryTrustStore N
  events : List TrustEvent

namespace TrustHistory

variable {N : ℕ}

/-- An empty store to which nothing has happened. -/
def start : TrustHistory N := ⟨.new, []⟩

/-- Perform a call. An addition that finds the store full has added nothing. -/
def step (h : TrustHistory N) : TrustCall → TrustHistory N
  | .add cert =>
    match InMemoryTrustStore.add cert h.store with
    | (.ok _, s) => ⟨s, h.events ++ [.added cert.fingerprint.toBytes]⟩
    | (.error _, s) => ⟨s, h.events⟩
  | .remove fingerprint =>
    ⟨(h.store.remove fingerprint).2, h.events ++ [.removed fingerprint]⟩

/-- The fingerprint was removed and has not been added since. -/
def Removed (h : TrustHistory N) (fingerprint : Bytes) : Prop :=
  Since (· = .removed fingerprint) (· = .added fingerprint) h.events

/-- What was removed is not found. -/
def Revoking (h : TrustHistory N) : Prop :=
  ∀ fingerprint, h.Removed fingerprint → h.store.lookup fingerprint = none

/-- The call does not remove one of exactly two entries of a fingerprint of 32 bytes. -/
def Careful (h : TrustHistory N) : TrustCall → Prop
  | .add _ => True
  | .remove fingerprint => fingerprint.length = 32 → h.store.held fingerprint ≠ 2

theorem revoking_start : (start : TrustHistory N).Revoking := by
  rintro fp ⟨pre, e, post, heq, -, -⟩
  exact absurd heq.symm (List.append_ne_nil_of_right_ne_nil pre (List.cons_ne_nil e post))

/-- What becomes of a fingerprint when certificates are added. -/
theorem revoking_add {h : TrustHistory N} (hh : h.Revoking) (cert : LongTermCert) :
    (h.step (.add cert)).Revoking := by
  rw [step]
  rcases hadd : InMemoryTrustStore.add cert h.store with ⟨e | u, s⟩
  · rw [InMemoryTrustStore.state_of_add_error hadd]
    exact hh
  · intro fp hfp
    rcases since_concat_iff.mp hfp with hset | ⟨hclear, hbefore⟩
    · cases hset
    have hne : cert.fingerprint.toBytes ≠ fp := fun heq ↦ hclear (congrArg _ heq)
    have hheld := InMemoryTrustStore.held_add hadd fp
    rw [if_neg hne, Nat.add_zero] at hheld
    rw [InMemoryTrustStore.lookup_eq_none, hheld, ← InMemoryTrustStore.lookup_eq_none]
    exact hh fp hbefore

/-- **The step lemma.** A call on a store that finds nothing it removed leaves such a store exactly
if it does not remove one of two entries. -/
theorem revoking_step {h : TrustHistory N} (c : TrustCall) (hh : h.Revoking) :
    (h.step c).Revoking ↔ h.Careful c := by
  cases c with
  | add cert => exact iff_of_true (revoking_add hh cert) trivial
  | remove fingerprint =>
    have hheld := fun fp ↦ InMemoryTrustStore.held_remove fingerprint fp h.store
    constructor
    · intro hnext hlen htwo
      have hremoved : (h.step (.remove fingerprint)).Removed fingerprint :=
        since_concat_iff.mpr (.inl rfl)
      rcases InMemoryTrustStore.lookup_eq_none.mp (hnext fingerprint hremoved) with hne | hne
      · exact hne hlen
      · refine hne ?_
        change (h.store.remove fingerprint).2.held fingerprint = 1
        rw [hheld, if_pos rfl, htwo]
    · intro hcareful fp hfp
      rw [step, InMemoryTrustStore.lookup_eq_none, hheld]
      rcases since_concat_iff.mp hfp with hset | ⟨-, hbefore⟩
      · obtain rfl : fingerprint = fp := TrustEvent.removed.inj hset
        rw [if_pos rfl]
        by_cases hlen : fingerprint.length = 32
        · have htwo := hcareful hlen
          exact .inr (by omega)
        · exact .inl hlen
      · -- a fingerprint removed before: the one that is removed now, or another
        have hnone := InMemoryTrustStore.lookup_eq_none.mp (hh fp hbefore)
        split_ifs with heq
        · by_cases hlen : fingerprint.length = 32
          · have htwo := hcareful hlen
            rw [← heq] at htwo
            exact .inr (by omega)
          · exact .inl (heq ▸ hlen)
        · exact hnone

/-- **Revocation.** Over a run from the empty store, what was removed and not added since is never
found exactly if no call removes one of exactly two entries of a fingerprint. -/
theorem revocation_iff (calls : List TrustCall) :
    (∀ pre, pre <+: calls → (pre.foldl step (start : TrustHistory N)).Revoking) ↔
      ∀ pre c, pre ++ [c] <+: calls → (pre.foldl step (start : TrustHistory N)).Careful c :=
  prefixes_iff (fun c hh ↦ revoking_step c hh) calls revoking_start

/-- A certificate with a fingerprint of zeros. -/
def zeroCert : LongTermCert := ⟨.truncated (List.replicate 32 0), .brainpoolP256r1, .empty⟩

/-- Added twice and removed once, it is found. -/
theorem revocation_fails :
    ([.add zeroCert, .add zeroCert, .remove (List.replicate 32 0)].foldl step
        (start : TrustHistory 4)).store.lookup (List.replicate 32 0) = some zeroCert ∧
      ¬ ([.add zeroCert, .add zeroCert, .remove (List.replicate 32 0)].foldl step
        (start : TrustHistory 4)).Revoking := by
  have hfound : ([.add zeroCert, .add zeroCert, .remove (List.replicate 32 0)].foldl step
      (start : TrustHistory 4)).store.lookup (List.replicate 32 0) = some zeroCert := by
    decide +kernel
  refine ⟨hfound, fun h ↦ ?_⟩
  have hnone := h (List.replicate 32 0) ⟨[.added (List.replicate 32 0), .added (List.replicate 32 0)],
    .removed (List.replicate 32 0), [], rfl, rfl, fun x hx ↦ absurd hx List.not_mem_nil⟩
  rw [hfound] at hnone
  cases hnone

end TrustHistory

end Galdralag.Session
