import Galdralag.Cipher.Registry
import Mathlib.Data.List.Nodup

/-!
# The history of a registry

The registry is changed in place: a call has an outcome and leaves the registry in some state, also
when it fails. `registerMut` and `removeMut` are the two calls in that form, and agree with
`register` and `remove` (`registerMut_apply`, `removeMut_apply`).

A history is a registry together with the calls that were made, each with its outcome. What is
looked up under a name depends on nothing else: it is the profile that was last registered under it
and not removed since (`registry_sound`).
-/

set_option linter.all false

namespace Galdralag.Cipher

namespace ProfileRegistry

/-! ## Calls in place -/

/-- Put a profile behind the others. -/
def push (profile : CipherProfile) : Fallible ProfileRegistry CipherProfileError PUnit := fun r ↦
  if h : r.profiles.length < 16 then
    (.ok ⟨⟩, ⟨r.profiles ++ [profile], by rwa [List.length_append]⟩)
  else (.error .registryFull, r)

/-- Register a user profile. -/
def registerMut (profile : CipherProfile) : Fallible ProfileRegistry CipherProfileError PUnit := do
  let len ← .gets fun r ↦ r.profiles.length
  .require (len < 16) .registryFull
  let found ← .gets fun r ↦ r.get profile.name
  .require (found.isNone = true) .invalidProfileName
  push profile

/-- Take the profile at an index out. -/
def swapRemoveAt (i : ℕ) (r : ProfileRegistry) : ProfileRegistry :=
  ⟨swapRemove r.profiles i, Nat.le_trans length_swapRemove_le r.length_le⟩

/-- Look for a name among the `n` profiles from index `i` on, and take the first that has it out. -/
def removeFrom (name : String) : ℕ → ℕ → Fallible ProfileRegistry CipherProfileError PUnit
  | 0, _ => .fail .profileNotFound
  | n + 1, i => do
    let found ← .gets fun r ↦ r.profiles[i]?.any (·.name = name)
    if found then .modify (swapRemoveAt i) else removeFrom name n (i + 1)

/-- Remove a user profile. -/
def removeMut (name : String) : Fallible ProfileRegistry CipherProfileError PUnit := do
  .require (name ∉ builtinNames) .profileLocked
  let len ← .gets fun r ↦ r.profiles.length
  removeFrom name len 0

/-- The outcome of a call, and the registry it leaves behind. -/
def settled (r : ProfileRegistry) (x : Except CipherProfileError ProfileRegistry) :
    Except CipherProfileError PUnit × ProfileRegistry :=
  match x with
  | .ok r' => (.ok ⟨⟩, r')
  | .error e => (.error e, r)

theorem registerMut_apply (profile : CipherProfile) (r : ProfileRegistry) :
    registerMut profile r = settled r (r.register profile) := by
  rw [registerMut, Fallible.gets_bind, register]
  by_cases hroom : r.profiles.length < 16
  · rw [Fallible.bind_of_ok (Fallible.require_of hroom _ _), Fallible.gets_bind,
      certify_of_ok (ensure_eq_ok.mpr hroom), ok_bind]
    by_cases hfree : (r.get profile.name).isNone = true
    · rw [Fallible.bind_of_ok (Fallible.require_of hfree _ _), ensure_eq_ok.mpr hfree, ok_bind, push,
        dif_pos hroom]
      rfl
    · rw [Fallible.require, if_neg hfree, ensure, if_neg hfree]
      rfl
  · have hfull : ensure (r.profiles.length < 16) CipherProfileError.registryFull = .error .registryFull :=
      if_neg hroom
    rw [Fallible.require, if_neg hroom, certify_of_error hfull]
    rfl

/-- The loop finds the first index of the name. -/
theorem removeFrom_apply (name : String) (r : ProfileRegistry) {n i : ℕ}
    (hn : i + n = r.profiles.length) : removeFrom name n i r
      = (((r.profiles.drop i).findIdx? (·.name = name)).elim (.error .profileNotFound, r)
        fun k ↦ (.ok ⟨⟩, swapRemoveAt (i + k) r)) := by
  induction n generalizing i with
  | zero =>
    rw [List.drop_of_length_le (by omega)]
    rfl
  | succ n ih =>
    have hlt : i < r.profiles.length := by omega
    rw [removeFrom, Fallible.gets_bind, List.getElem?_eq_getElem hlt, List.drop_eq_getElem_cons hlt,
      List.findIdx?_cons, Option.any_some]
    by_cases hname : decide (r.profiles[i].name = name) = true
    · rw [if_pos hname, if_pos hname]
      rfl
    · rw [if_neg hname, if_neg hname, ih (by omega)]
      cases (r.profiles.drop (i + 1)).findIdx? (·.name = name) with
      | none => rfl
      | some k =>
        have hadd : i + 1 + k = i + (k + 1) := by omega
        change (_, swapRemoveAt (i + 1 + k) r) = (_, swapRemoveAt (i + (k + 1)) r)
        rw [hadd]

theorem removeMut_apply (name : String) (r : ProfileRegistry) :
    removeMut name r = settled r (r.remove name) := by
  rw [removeMut, remove]
  by_cases hname : name ∉ builtinNames
  · rw [Fallible.bind_of_ok (Fallible.require_of hname _ _), Fallible.gets_bind,
      removeFrom_apply name r (Nat.zero_add _), ensure_eq_ok.mpr hname, ok_bind, List.drop_zero]
    cases r.profiles.findIdx? (·.name = name) with
    | none => rfl
    | some i =>
      rw [Option.elim_some, Nat.zero_add]
      rfl
  · rw [Fallible.require, if_neg hname, ensure, if_neg hname]
    rfl

/-! ## What the calls do -/

variable {r : ProfileRegistry}

theorem settled_cases (x : Except CipherProfileError ProfileRegistry) :
    (∃ e, settled r x = (.error e, r)) ∨ ∃ r', x = .ok r' ∧ settled r x = (.ok ⟨⟩, r') := by
  rcases x with e | r'
  · exact .inl ⟨e, rfl⟩
  · exact .inr ⟨r', rfl, rfl⟩

/-- The names of a registry are different. -/
def Distinct (r : ProfileRegistry) : Prop := (r.profiles.map (·.name)).Nodup

/-- With different names, looking up a name finds the profile that has it. -/
theorem Distinct.get_eq_some (h : r.Distinct) {name : String} {p : CipherProfile} :
    r.get name = some p ↔ p ∈ r.profiles ∧ p.name = name := by
  constructor
  · intro hp
    exact ⟨List.mem_of_find?_eq_some hp, by simpa using List.find?_some hp⟩
  · rintro ⟨hp, rfl⟩
    rcases hq : r.get p.name with _ | q
    · have hnone := List.find?_eq_none.mp hq p hp
      simp at hnone
    · have hmem := List.mem_of_find?_eq_some hq
      have hname : q.name = p.name := by simpa using List.find?_some hq
      rw [List.inj_on_of_nodup_map h hmem hp hname]

/-- Registries with the same profiles under a name find the same there. -/
theorem Distinct.get_congr {r' : ProfileRegistry} (h : r.Distinct) (h' : r'.Distinct) {name : String}
    (hmem : ∀ p, p.name = name → (p ∈ r'.profiles ↔ p ∈ r.profiles)) : r'.get name = r.get name := by
  apply Option.ext
  intro p
  rw [h'.get_eq_some, h.get_eq_some]
  exact and_congr_left (hmem p)

theorem Distinct.register (h : r.Distinct) {p : CipherProfile} {r' : ProfileRegistry}
    (hr : r.register p = .ok r') :
    r'.Distinct ∧ ∀ name, r'.get name = if p.name = name then some p else r.get name := by
  obtain ⟨hfree, hprofiles⟩ := register_eq_ok hr
  have hdistinct : r'.Distinct := by
    rw [Distinct, hprofiles, List.map_append]
    refine List.Nodup.append h (List.nodup_singleton _) fun name hname hp ↦ ?_
    obtain ⟨q, hq, rfl⟩ := List.mem_map.mp hname
    exact hfree q hq (List.mem_singleton.mp hp)
  refine ⟨hdistinct, fun name ↦ ?_⟩
  split_ifs with hname
  · refine hdistinct.get_eq_some.mpr ⟨?_, hname⟩
    rw [hprofiles]
    exact List.mem_append_right _ (List.mem_singleton_self p)
  · refine h.get_congr hdistinct fun q hq ↦ ?_
    rw [hprofiles, List.mem_append, List.mem_singleton, or_iff_left]
    rintro rfl
    exact hname hq

/-- One profile goes, and it has the name that was given. -/
theorem remove_perm {name : String} {r' : ProfileRegistry} (hr : r.remove name = .ok r') :
    ∃ p, p.name = name ∧ r.profiles.Perm (p :: r'.profiles) := by
  obtain ⟨-, hr⟩ := ensure_bind_eq_ok.mp hr
  obtain ⟨i, hi, hr⟩ := except_bind_eq_ok.mp hr
  obtain ⟨hlt, hat, -⟩ := List.findIdx?_eq_some_iff_getElem.mp (okOr_eq_ok.mp hi)
  rw [← Except.ok.inj hr]
  exact ⟨r.profiles[i], by simpa using hat, perm_swapRemove (List.getElem?_eq_getElem hlt)⟩

theorem Distinct.remove (h : r.Distinct) {name : String} {r' : ProfileRegistry}
    (hr : r.remove name = .ok r') :
    r'.Distinct ∧ ∀ other, r'.get other = if name = other then none else r.get other := by
  obtain ⟨p, rfl, hperm⟩ := remove_perm hr
  have hnames : (p.name :: r'.profiles.map (·.name)).Nodup :=
    (hperm.map CipherProfile.name).nodup_iff.mp h
  have hdistinct : r'.Distinct := hnames.of_cons
  refine ⟨hdistinct, fun other ↦ ?_⟩
  split_ifs with hother
  · rw [Option.eq_none_iff_forall_ne_some]
    intro q hq
    obtain ⟨hmem, hname⟩ := hdistinct.get_eq_some.mp hq
    refine (List.nodup_cons.mp hnames).1 ?_
    rw [hother, ← hname]
    exact List.mem_map_of_mem hmem
  · refine h.get_congr hdistinct fun q hq ↦ ?_
    rw [hperm.mem_iff, List.mem_cons, or_iff_right]
    rintro rfl
    exact hother hq

/-! ## Histories -/

/-- Make a call. -/
def answer : Call → Fallible ProfileRegistry CipherProfileError PUnit
  | .register profile => registerMut profile
  | .remove name => removeMut name

theorem call_eq (r : ProfileRegistry) (c : Call) : r.call c = (answer c r).2 := by
  cases c with
  | register p =>
    rw [call, answer, registerMut_apply]
    cases r.register p <;> rfl
  | remove name =>
    rw [call, answer, removeMut_apply]
    cases r.remove name <;> rfl

/-- A call and its outcome. -/
abbrev Entry : Type := Call × Except CipherProfileError PUnit

/-- A registry and the calls it went through, the last one first. -/
structure History where
  registry : ProfileRegistry
  log : List Entry

namespace History

def start : History := ⟨withBuiltins, []⟩

def step (h : History) (c : Call) : History :=
  ⟨(answer c h.registry).2, (c, (answer c h.registry).1) :: h.log⟩

/-- The history of some calls. -/
def ofCalls (calls : List Call) : History := calls.foldl step start

/-- The registry of a history is the one that the calls lead to. -/
theorem registry_foldl (calls : List Call) (h : History) :
    (calls.foldl step h).registry = h.registry.run calls := by
  induction calls generalizing h with
  | nil => rfl
  | cons c calls ih =>
    rw [List.foldl_cons, ih, run, run, List.foldl_cons, call_eq]
    rfl

/-- The profile that was last registered under a name and not removed since. -/
def lastRegistered (name : String) : List Entry → Option CipherProfile
  | [] => withBuiltins.get name
  | (.register p, .ok _) :: log => if p.name = name then some p else lastRegistered name log
  | (.remove removed, .ok _) :: log => if removed = name then none else lastRegistered name log
  | (_, .error _) :: log => lastRegistered name log

/-- The built-in profiles are there, the names are different, there is room for all, and what is
looked up is what was last registered. -/
structure Sound (h : History) : Prop where
  builtins_mem : ∀ p, .ok p ∈ builtins → p ∈ h.registry.profiles
  distinct : h.registry.Distinct
  length_le : h.registry.profiles.length ≤ 16
  get_eq : ∀ name, h.registry.get name = lastRegistered name h.log

theorem sound_start : start.Sound where
  builtins_mem p hp := List.mem_filterMap.mpr ⟨.ok p, hp, rfl⟩
  distinct := by
    change ["standard", "conservative", "conservative-shamir"].Nodup
    decide
  length_le := start.registry.length_le
  get_eq _ := rfl

end History

/-- A call that fails leaves the registry as it is. -/
theorem answer_error {c : Call} {e : CipherProfileError} (h : (answer c r).1 = .error e) :
    (answer c r).2 = r := by
  have hsettled : ∃ x, answer c r = settled r x := by
    cases c with
    | register p => exact ⟨_, registerMut_apply p r⟩
    | remove name => exact ⟨_, removeMut_apply name r⟩
  obtain ⟨x, hx⟩ := hsettled
  rw [hx] at h ⊢
  rcases x with e' | r'
  · rfl
  · cases h

theorem name_mem_builtinNames {p : CipherProfile} (h : .ok p ∈ builtins) : p.name ∈ builtinNames := by
  rw [builtins_eq] at h
  simp only [List.mem_cons, Except.ok.injEq, List.not_mem_nil, or_false] at h
  rcases h with rfl | rfl | rfl <;> decide

namespace History

variable {h : History}

/-- A failed call adds an entry that counts for nothing. -/
theorem Sound.failed (hs : h.Sound) (c : Call) (e : CipherProfileError) :
    Sound ⟨h.registry, (c, .error e) :: h.log⟩ where
  builtins_mem := hs.builtins_mem
  distinct := hs.distinct
  length_le := hs.length_le
  get_eq name := by
    rw [hs.get_eq]
    cases c <;> rfl

theorem Sound.registered (hs : h.Sound) {p : CipherProfile} {r : ProfileRegistry}
    (hr : h.registry.register p = .ok r) : Sound ⟨r, (.register p, .ok ⟨⟩) :: h.log⟩ where
  builtins_mem q hq := by
    rw [(register_eq_ok hr).2]
    exact List.mem_append_left _ (hs.builtins_mem q hq)
  distinct := (hs.distinct.register hr).1
  length_le := r.length_le
  get_eq name := by
    rw [(hs.distinct.register hr).2, hs.get_eq]
    rfl

theorem Sound.removed (hs : h.Sound) {name : String} {r : ProfileRegistry}
    (hr : h.registry.remove name = .ok r) : Sound ⟨r, (.remove name, .ok ⟨⟩) :: h.log⟩ where
  builtins_mem q hq := by
    obtain ⟨hname, -, hkeep⟩ := remove_eq_ok hr
    refine hkeep q (hs.builtins_mem q hq) ?_
    rintro rfl
    exact hname (name_mem_builtinNames hq)
  distinct := (hs.distinct.remove hr).1
  length_le := r.length_le
  get_eq other := by
    rw [(hs.distinct.remove hr).2, hs.get_eq]
    rfl

/-- **Step.** -/
theorem Sound.step (hs : h.Sound) (c : Call) : (h.step c).Sound := by
  rw [History.step]
  cases c with
  | register p =>
    rw [answer, registerMut_apply]
    rcases settled_cases (h.registry.register p) with ⟨e, he⟩ | ⟨r, hr, hok⟩
    · rw [he]
      exact hs.failed _ e
    · rw [hok]
      exact hs.registered hr
  | remove name =>
    rw [answer, removeMut_apply]
    rcases settled_cases (h.registry.remove name) with ⟨e, he⟩ | ⟨r, hr, hok⟩
    · rw [he]
      exact hs.failed _ e
    · rw [hok]
      exact hs.removed hr

/-- **Run.** -/
theorem Sound.foldl (hs : h.Sound) (calls : List Call) : (calls.foldl History.step h).Sound := by
  induction calls generalizing h with
  | nil => exact hs
  | cons c calls ih => exact ih (hs.step c)

end History

/-- **The registry.** After every sequence of calls the built-in profiles are in the registry as
they were made, the names are different, there are at most 16 profiles, and looking up a name gives
the profile that was last registered under it and not removed since. A call that fails changes
nothing. -/
theorem registry_sound (calls : List Call) :
    (History.ofCalls calls).Sound ∧ ∀ (r : ProfileRegistry) (c : Call) (e : CipherProfileError),
      (answer c r).1 = .error e → (answer c r).2 = r :=
  ⟨History.sound_start.foldl calls, fun _ _ _ ↦ answer_error⟩

end ProfileRegistry

end Galdralag.Cipher
