import Galdralag.Cipher.Cascade
import Mathlib.Data.List.Perm.Basic

/-!
# The profile registry

The cascade looks up the suite of a profile by its name, and derives its keys and labels under that
suite. The layers come from whoever made the profile, and neither the builder nor the decoder asks
whether a name is taken. The registry does: it starts with the built-in profiles, lets in a profile
only under a name that none of its own has, and never gives a built-in one away. So the names of the
registered suites belong to the built-in profiles, in every registry that registrations and removals
lead to.
-/

set_option linter.all false

namespace Galdralag.Cipher

open Session (SessionCurve)

/-! ## The suites -/

/-- The layers of a suite in the registry of suites, inner layer first. -/
def registryRow (suiteId : UInt16) : Option (List CipherLayer) :=
  if suiteId = 0x0001 then some [.chaCha20Poly1305]
  else if suiteId = 0x0003 then some [.chaCha20Poly1305, .serpent256]
  else none

/-- A profile that the cascade takes for a registered suite has the layers of that suite. -/
def CipherProfile.Honest (p : CipherProfile) : Prop :=
  ∀ sid, suiteIdForProfileName p.name = some sid → registryRow sid = some p.layers

/-! ## Built-in profiles -/

/-- The names of the built-in profiles. -/
def builtinNames : List String := ["standard", "conservative", "conservative-shamir"]

/-- A built-in profile, as the builder makes it. -/
def builtinProfile (name description : String) (layers : List CipherLayer)
    (shamir : Except CipherProfileError ShamirConfig) :
    Except CipherProfileError CipherProfile := do
  let b ← CipherProfileBuilder.new name
  let b ← layers.foldlM CipherProfileBuilder.layer
    ((b.setDescription description).setCurve .brainpoolP256r1)
  let config ← shamir
  (b.setShamir config).build

def builtins : List (Except CipherProfileError CipherProfile) :=
  [builtinProfile "standard" "Single ChaCha20-Poly1305; BP256r1 ECDHE" [.chaCha20Poly1305]
      (.ok .none),
    builtinProfile "conservative" "ChaCha inner, Serpent outer (CESS suite_id 0x0003); BP256r1"
      [.chaCha20Poly1305, .serpent256] (.ok .none),
    builtinProfile "conservative-shamir" "Same cascade as conservative; Shamir 3-of-5"
      [.chaCha20Poly1305, .serpent256] (ShamirConfig.new 3 5)]

theorem standardName_valid : validateProfileName "standard" = .ok () := by decide

theorem standardDescription_le :
    "Single ChaCha20-Poly1305; BP256r1 ECDHE".utf8ByteSize ≤ maxDesc := by decide

theorem standardLayers_valid : checkLayers [.chaCha20Poly1305] = .ok () := rfl

/-- The built-in profile of one layer. -/
def builtinStandard : CipherProfile where
  name := "standard"
  description := "Single ChaCha20-Poly1305; BP256r1 ECDHE"
  curve := .brainpoolP256r1
  layers := [.chaCha20Poly1305]
  shamir := .none
  ephemeralEcdh := true
  name_valid := standardName_valid
  description_le := standardDescription_le
  layers_valid := standardLayers_valid
  shamir_valid := builtinConservative.shamir_valid

/-- The built-in profile of two layers with three shares out of five. -/
def builtinConservativeShamir : CipherProfile where
  name := "conservative-shamir"
  description := "Same cascade as conservative; Shamir 3-of-5"
  curve := .brainpoolP256r1
  layers := [.chaCha20Poly1305, .serpent256]
  shamir := ⟨3, 5⟩
  ephemeralEcdh := true
  name_valid := by decide
  description_le := by decide
  layers_valid := builtinConservative.layers_valid
  shamir_valid := by decide

/-- The builder makes every built-in profile. -/
theorem builtins_eq : builtins
    = [.ok builtinStandard, .ok builtinConservative, .ok builtinConservativeShamir] := rfl

/-! ## Removal from a list -/

/-- Put the last element in the place of the one at index `i`, which goes. -/
def swapRemove {α : Type} (l : List α) (i : ℕ) : List α :=
  l.getLast?.elim [] fun last ↦ (l.set i last).dropLast

section SwapRemove

variable {α : Type} {l : List α} {i : ℕ} {x : α}

theorem swapRemove_concat (last : α) :
    swapRemove (l ++ [last]) i = if i < l.length then l.set i last else l := by
  rw [swapRemove, List.getLast?_concat, Option.elim_some]
  split_ifs with hi
  · rw [List.set_append_left _ _ hi, List.dropLast_concat]
  · rw [List.set_append_right _ _ (Nat.le_of_not_lt hi)]
    rcases Nat.eq_zero_or_pos (i - l.length) with h | h
    · rw [h, List.set_cons_zero, List.dropLast_concat]
    · rw [List.set_eq_of_length_le h, List.dropLast_concat]

theorem length_swapRemove_le : (swapRemove l i).length ≤ l.length := by
  rcases l.eq_nil_or_concat' with rfl | ⟨l, last, rfl⟩
  · exact Nat.le_refl _
  · rw [swapRemove_concat]
    split_ifs <;> simp

theorem mem_of_mem_swapRemove (h : x ∈ swapRemove l i) : x ∈ l := by
  rcases l.eq_nil_or_concat' with rfl | ⟨l, last, rfl⟩
  · exact h
  · rw [swapRemove_concat] at h
    rw [List.mem_append, List.mem_singleton]
    split_ifs at h
    · exact List.mem_or_eq_of_mem_set h
    · exact .inl h

/-- The element at the index goes, and the others stay in some order. -/
theorem perm_swapRemove (hx : l[i]? = some x) : l.Perm (x :: swapRemove l i) := by
  obtain ⟨hlt, hget⟩ := List.getElem?_eq_some_iff.mp hx
  rcases l.eq_nil_or_concat' with rfl | ⟨l, last, rfl⟩
  · exact absurd hlt (Nat.not_lt_zero i)
  rw [swapRemove_concat]
  split_ifs with hi
  · rw [List.getElem_append_left hi] at hget
    -- The last element is put where `x` was.
    have herase : (l[i] :: l.eraseIdx i).Perm l := List.getElem_cons_eraseIdx_perm hi
    rw [hget] at herase
    calc (l ++ [last]).Perm (last :: l) := List.perm_append_singleton last l
      _ |>.Perm (last :: x :: l.eraseIdx i) := herase.symm.cons last
      _ |>.Perm (x :: last :: l.eraseIdx i) := .swap _ _ _
      _ |>.Perm (x :: l.set i last) := (List.set_perm_cons_eraseIdx hi last).symm.cons x
  · have hlast : i = l.length := by
      rw [List.length_append, List.length_singleton] at hlt
      omega
    subst hlast
    rw [List.getElem_concat_length rfl] at hget
    rw [← hget]
    exact List.perm_append_singleton last l

/-- Only the element at the index goes. -/
theorem mem_swapRemove (hlt : i < l.length) (h : x ∈ l) (hne : l[i]? ≠ some x) :
    x ∈ swapRemove l i := by
  rcases List.mem_cons.mp ((perm_swapRemove (List.getElem?_eq_getElem hlt)).subset h) with rfl | h
  · exact absurd (List.getElem?_eq_getElem hlt) hne
  · exact h

end SwapRemove

/-! ## The registry -/

/-- A registry of up to 16 profiles. -/
structure ProfileRegistry where
  profiles : List CipherProfile
  length_le : profiles.length ≤ 16

namespace ProfileRegistry

/-- The built-in profiles only. -/
def withBuiltins : ProfileRegistry where
  profiles := builtins.filterMap Except.toOption
  length_le := Nat.le_trans (List.length_filterMap_le _ _) (by decide)

variable (r : ProfileRegistry)

/-- Look up by name. -/
def get (name : String) : Option CipherProfile := r.profiles.find? (·.name = name)

/-- Register a user profile. -/
def register (profile : CipherProfile) : Except CipherProfileError ProfileRegistry := do
  let hroom ← certify (ensure (r.profiles.length < 16) CipherProfileError.registryFull)
  let _ ← ensure ((r.get profile.name).isNone = true) .invalidProfileName
  pure ⟨r.profiles ++ [profile], by
    rw [List.length_append]
    exact ensure_eq_ok.mp hroom.2⟩

/-- Remove a user profile. -/
def remove (name : String) : Except CipherProfileError ProfileRegistry := do
  let _ ← ensure (name ∉ builtinNames) .profileLocked
  let i ← okOr (r.profiles.findIdx? (·.name = name)) .profileNotFound
  pure ⟨swapRemove r.profiles i, Nat.le_trans length_swapRemove_le r.length_le⟩

/-- A call on the registry. -/
inductive Call where
  | register (profile : CipherProfile)
  | remove (name : String)

/-- Make a call; one that fails leaves the registry as it is. -/
def call (r : ProfileRegistry) : Call → ProfileRegistry
  | .register profile => ((r.register profile).toOption).getD r
  | .remove name => ((r.remove name).toOption).getD r

/-- The registry after the calls. -/
def run (r : ProfileRegistry) (calls : List Call) : ProfileRegistry := calls.foldl call r

/-! ## What a call does -/

variable {r}

theorem register_eq_ok {profile : CipherProfile} {r' : ProfileRegistry}
    (h : r.register profile = .ok r') :
    (∀ p ∈ r.profiles, p.name ≠ profile.name) ∧ r'.profiles = r.profiles ++ [profile] := by
  obtain ⟨hroom, -, h⟩ := except_bind_eq_ok.mp h
  obtain ⟨hfree, h⟩ := ensure_bind_eq_ok.mp h
  refine ⟨fun p hp hname ↦ ?_, ?_⟩
  · rw [Option.isNone_iff_eq_none, get, List.find?_eq_none] at hfree
    exact hfree p hp (by simpa using hname)
  · rw [← Except.ok.inj h]

theorem remove_eq_ok {name : String} {r' : ProfileRegistry} (h : r.remove name = .ok r') :
    name ∉ builtinNames ∧ (∀ p ∈ r'.profiles, p ∈ r.profiles) ∧
      ∀ p ∈ r.profiles, p.name ≠ name → p ∈ r'.profiles := by
  obtain ⟨hname, h⟩ := ensure_bind_eq_ok.mp h
  obtain ⟨i, hi, h⟩ := except_bind_eq_ok.mp h
  obtain ⟨hlt, hat, -⟩ := List.findIdx?_eq_some_iff_getElem.mp (okOr_eq_ok.mp hi)
  rw [← Except.ok.inj h]
  refine ⟨hname, fun p ↦ mem_of_mem_swapRemove, fun p hp hne ↦ mem_swapRemove hlt hp fun hat' ↦ ?_⟩
  rw [List.getElem?_eq_getElem hlt, Option.some.injEq] at hat'
  rw [hat'] at hat
  exact hne (by simpa using hat)

/-- The built-in names stand for the built-in profiles. -/
def KeepsBuiltins (r : ProfileRegistry) : Prop :=
  (∀ name ∈ builtinNames, ∃ p ∈ r.profiles, p.name = name) ∧
    ∀ p ∈ r.profiles, p.name ∈ builtinNames → .ok p ∈ builtins

theorem keepsBuiltins_withBuiltins : withBuiltins.KeepsBuiltins := by
  have hprofiles : withBuiltins.profiles
      = [builtinStandard, builtinConservative, builtinConservativeShamir] := rfl
  constructor
  · rw [hprofiles]
    decide
  · intro p hp _
    rw [builtins_eq]
    rw [hprofiles] at hp
    exact List.mem_map_of_mem (f := Except.ok) hp

/-- A new profile takes none of the built-in names, which are taken already. -/
theorem KeepsBuiltins.register (h : r.KeepsBuiltins) {profile : CipherProfile}
    {r' : ProfileRegistry} (hr : r.register profile = .ok r') : r'.KeepsBuiltins := by
  obtain ⟨hfree, hprofiles⟩ := register_eq_ok hr
  rw [KeepsBuiltins, hprofiles]
  constructor
  · intro name hname
    obtain ⟨p, hp, rfl⟩ := h.1 name hname
    exact ⟨p, List.mem_append_left _ hp, rfl⟩
  · intro p hp hname
    rcases List.mem_append.mp hp with hp | hp
    · exact h.2 p hp hname
    · rw [List.mem_singleton.mp hp] at hname
      obtain ⟨q, hq, hqname⟩ := h.1 _ hname
      exact absurd hqname (hfree q hq)

theorem KeepsBuiltins.remove (h : r.KeepsBuiltins) {name : String} {r' : ProfileRegistry}
    (hr : r.remove name = .ok r') : r'.KeepsBuiltins := by
  obtain ⟨hname, hsub, hkeep⟩ := remove_eq_ok hr
  constructor
  · intro builtin hbuiltin
    obtain ⟨p, hp, rfl⟩ := h.1 builtin hbuiltin
    exact ⟨p, hkeep p hp (fun heq ↦ hname (heq ▸ hbuiltin)), rfl⟩
  · exact fun p hp ↦ h.2 p (hsub p hp)

/-- **Step.** -/
theorem KeepsBuiltins.call (h : r.KeepsBuiltins) (c : Call) : (r.call c).KeepsBuiltins := by
  rcases c with profile | name
  · rcases hr : r.register profile with e | r' <;> simp only [ProfileRegistry.call, hr]
    · exact h
    · exact h.register hr
  · rcases hr : r.remove name with e | r' <;> simp only [ProfileRegistry.call, hr]
    · exact h
    · exact h.remove hr

/-- **Run.** -/
theorem KeepsBuiltins.run (calls : List Call) {r : ProfileRegistry} (h : r.KeepsBuiltins) :
    (r.run calls).KeepsBuiltins := by
  induction calls generalizing r with
  | nil => exact h
  | cons c calls ih => exact ih (h.call c)

end ProfileRegistry

/-! ## Honest profiles -/

theorem mem_builtinNames_of_suiteId {name : String} {sid : UInt16}
    (h : suiteIdForProfileName name = some sid) : name ∈ builtinNames := by
  rw [suiteIdForProfileName] at h
  split_ifs at h with h1 h2
  · simp [builtinNames, h1]
  · rcases h2 with rfl | rfl <;> simp [builtinNames]

theorem honest_of_mem_builtins {p : CipherProfile} (h : .ok p ∈ builtins) : p.Honest := by
  intro sid hsid
  rw [builtins_eq] at h
  simp only [List.mem_cons, Except.ok.injEq, List.not_mem_nil, or_false] at h
  rcases h with rfl | rfl | rfl <;> obtain rfl := Option.some.inj hsid <;> rfl

/-- **Registered suites.** Whatever is registered and removed, and in whatever order: a profile in
the registry that the cascade takes for a registered suite has the layers of that suite. -/
theorem registered_honest (calls : List ProfileRegistry.Call) {p : CipherProfile}
    (hp : p ∈ (ProfileRegistry.withBuiltins.run calls).profiles) : p.Honest := by
  intro sid hsid
  have hkeeps := ProfileRegistry.keepsBuiltins_withBuiltins.run calls
  exact honest_of_mem_builtins (hkeeps.2 p hp (mem_builtinNames_of_suiteId hsid)) sid hsid

theorem aesLayers_valid : checkLayers [.aes256Gcm] = .ok () := rfl

/-- A profile of one AES layer under the name of a built-in one. -/
def aesStandard : CipherProfile where
  name := "standard"
  description := ""
  curve := .brainpoolP256r1
  layers := [.aes256Gcm]
  shamir := .none
  ephemeralEcdh := true
  name_valid := standardName_valid
  description_le := Nat.zero_le maxDesc
  layers_valid := aesLayers_valid
  shamir_valid := builtinConservative.shamir_valid

/-- The built-in profile of one layer, in a registry that turned another of its name away. -/
theorem registered_honest_standard :
    builtinStandard ∈ (ProfileRegistry.withBuiltins.run
        [.register aesStandard, .register aesProfile, .remove "aes"]).profiles ∧
      builtinStandard.Honest := by
  have hmem : builtinStandard ∈ (ProfileRegistry.withBuiltins.run
      [.register aesStandard, .register aesProfile, .remove "aes"]).profiles := by decide
  exact ⟨hmem, registered_honest _ hmem⟩

/-- Outside the registry the name is free: the builder makes the profile of one AES layer, the
decoder reads it back, and the cascade takes it for the suite of one ChaCha20-Poly1305 layer. -/
theorem aesStandard_not_honest :
    Built aesStandard ∧ CipherProfile.fromBytes aesStandard.toBytes.toBytes = .ok aesStandard ∧
      ¬ aesStandard.Honest := by
  refine ⟨built _, aesStandard.fromBytes_toBytes, fun h ↦ ?_⟩
  exact absurd (h 0x0001 rfl) (by decide)

end Galdralag.Cipher
