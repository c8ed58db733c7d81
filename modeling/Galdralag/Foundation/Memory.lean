import Galdralag.Foundation.Bytes
import Mathlib.Data.List.GetD

/-!
# Byte-addressed memory

A memory assigns a byte to every address. Reading is taking a `window`, writing is laying a byte
string over the old contents with `patch`. The lemmas are the frame rules: a write is read back by
the window it fills, and a window that a write does not meet is unchanged.
-/

set_option linter.all false

namespace Galdralag

/-- A byte at every address. -/
abbrev Memory := ℕ → UInt8

namespace Memory

variable {mem mem' : Memory} {off len n : ℕ} {bs : Bytes}

/-- The `len` bytes from address `off` on. -/
def window (mem : Memory) (off len : ℕ) : Bytes := (List.range len).map fun i ↦ mem (off + i)

/-- The memory with `bs` written from address `off` on. -/
def patch (mem : Memory) (off : ℕ) (bs : Bytes) : Memory := fun a ↦
  if off ≤ a then bs.getD (a - off) (mem a) else mem a

/-- Two memories with the same bytes at the addresses from `lo` up to `hi`. -/
def AgreeOn (lo hi : ℕ) (mem mem' : Memory) : Prop := ∀ a, lo ≤ a → a < hi → mem a = mem' a

@[simp] theorem length_window : (mem.window off len).length = len := by
  rw [window, List.length_map, List.length_range]

theorem window_eq_iff : mem.window off len = mem'.window off len ↔
    AgreeOn off (off + len) mem mem' := by
  rw [window, window, List.map_inj_left]
  constructor
  · intro h a hlo hhi
    have ha := h (a - off) (by rw [List.mem_range]; omega)
    rwa [Nat.add_sub_cancel' hlo] at ha
  · intro h i hi
    rw [List.mem_range] at hi
    exact h _ (by omega) (by omega)

theorem window_congr {lo hi : ℕ} (h : AgreeOn lo hi mem mem') (hlo : lo ≤ off)
    (hhi : off + len ≤ hi) : mem.window off len = mem'.window off len :=
  window_eq_iff.mpr fun a h₁ h₂ ↦ h a (by omega) (by omega)

/-- A window split at an inner address. -/
theorem window_add (m n : ℕ) :
    mem.window off (m + n) = mem.window off m ++ mem.window (off + m) n := by
  rw [window, window, window, List.range_add, List.map_append, List.map_map]
  simp only [Function.comp_def, Nat.add_assoc]

theorem patch_apply_of_lt {a : ℕ} (h : a < off) : mem.patch off bs a = mem a := by
  rw [patch, if_neg (by omega)]

theorem patch_apply_of_ge {a : ℕ} (h : off + bs.length ≤ a) : mem.patch off bs a = mem a := by
  rw [patch, if_pos (by omega), List.getD_eq_default _ _ (by omega)]

theorem patch_apply_add {i : ℕ} (h : i < bs.length) : mem.patch off bs (off + i) = bs[i] := by
  rw [patch, if_pos (by omega), Nat.add_sub_cancel_left, List.getD_eq_getElem _ _ h]

theorem patch_nil : mem.patch off [] = mem := by
  funext a
  rw [patch]
  split_ifs <;> rfl

/-- Two writes one behind the other are one write. -/
theorem patch_append (mem : Memory) (off : ℕ) (bs cs : Bytes) :
    (mem.patch off bs).patch (off + bs.length) cs = mem.patch off (bs ++ cs) := by
  funext a
  rcases Nat.lt_or_ge a off with h | h
  · rw [patch_apply_of_lt (by omega), patch_apply_of_lt h, patch_apply_of_lt h]
  · rw [patch, patch, patch, if_pos h, if_pos h]
    rcases Nat.lt_or_ge (a - off) bs.length with hlt | hge
    · rw [if_neg (by omega), List.getD_append _ _ _ _ hlt]
    · rw [if_pos (by omega), List.getD_append_right _ _ _ _ hge, Nat.sub_sub,
        List.getD_eq_default _ _ hge]

/-- What was written is read back. -/
theorem window_patch (mem : Memory) (off : ℕ) (bs : Bytes) :
    (mem.patch off bs).window off bs.length = bs := by
  apply List.ext_getElem
  · rw [length_window]
  · intro i h₁ h₂
    simp only [window, List.getElem_map, List.getElem_range]
    exact patch_apply_add h₂

/-- Zeros that were written are read back, in every window inside. -/
theorem window_patch_zeros (mem : Memory) (h : off ≤ n) {k : ℕ} (hk : n + len ≤ off + k) :
    (mem.patch off (List.replicate k 0)).window n len = List.replicate len 0 := by
  refine List.eq_replicate_iff.mpr ⟨length_window, fun b hb ↦ ?_⟩
  obtain ⟨i, hi, rfl⟩ := List.mem_map.mp hb
  have hlt := List.mem_range.mp hi
  rw [patch, if_pos (by omega), List.getD_eq_getElem _ _ (by rw [List.length_replicate]; omega),
    List.getElem_replicate]

/-- A write changes nothing outside the addresses it fills. -/
theorem agreeOn_patch {lo hi : ℕ} (h : hi ≤ off ∨ off + bs.length ≤ lo) :
    AgreeOn lo hi (mem.patch off bs) mem := by
  intro a h₁ h₂
  rcases h with h | h
  · exact patch_apply_of_lt (by omega)
  · exact patch_apply_of_ge (by omega)

/-- A window that a write does not meet is unchanged. -/
theorem window_patch_of_disjoint (h : off + len ≤ n ∨ n + bs.length ≤ off) :
    (mem.patch n bs).window off len = mem.window off len :=
  window_congr (agreeOn_patch h) (Nat.le_refl off) (Nat.le_refl _)

/-- The same write over agreeing memories leaves agreeing memories. -/
theorem AgreeOn.patch {lo hi : ℕ} (h : AgreeOn lo hi mem mem') (n : ℕ) (bs : Bytes) :
    AgreeOn lo hi (mem.patch n bs) (mem'.patch n bs) := by
  intro a h₁ h₂
  rw [Memory.patch, Memory.patch, h a h₁ h₂]

theorem AgreeOn.symm {lo hi : ℕ} (h : AgreeOn lo hi mem mem') : AgreeOn lo hi mem' mem :=
  fun a h₁ h₂ ↦ (h a h₁ h₂).symm

theorem AgreeOn.trans {lo hi : ℕ} {mem'' : Memory} (h : AgreeOn lo hi mem mem')
    (h' : AgreeOn lo hi mem' mem'') : AgreeOn lo hi mem mem'' :=
  fun a h₁ h₂ ↦ (h a h₁ h₂).trans (h' a h₁ h₂)

theorem AgreeOn.mono {lo hi lo' hi' : ℕ} (h : AgreeOn lo hi mem mem') (hlo : lo ≤ lo')
    (hhi : hi' ≤ hi) : AgreeOn lo' hi' mem mem' :=
  fun a h₁ h₂ ↦ h a (by omega) (by omega)

/-- Two memories with the same bytes at all addresses but those from `lo` up to `hi`. -/
def AgreeOutside (lo hi : ℕ) (mem mem' : Memory) : Prop := ∀ a, a < lo ∨ hi ≤ a → mem a = mem' a

theorem AgreeOutside.refl {lo hi : ℕ} (mem : Memory) : AgreeOutside lo hi mem mem := fun _ _ ↦ rfl

theorem AgreeOutside.trans {lo hi : ℕ} {mem'' : Memory} (h : AgreeOutside lo hi mem mem')
    (h' : AgreeOutside lo hi mem' mem'') : AgreeOutside lo hi mem mem'' :=
  fun a ha ↦ (h a ha).trans (h' a ha)

theorem AgreeOutside.mono {lo hi lo' hi' : ℕ} (h : AgreeOutside lo hi mem mem') (hlo : lo' ≤ lo)
    (hhi : hi ≤ hi') : AgreeOutside lo' hi' mem mem' :=
  fun a ha ↦ h a (by omega)

theorem AgreeOutside.agreeOn {lo hi lo' hi' : ℕ} (h : AgreeOutside lo hi mem mem')
    (hdisj : hi' ≤ lo ∨ hi ≤ lo') : AgreeOn lo' hi' mem mem' :=
  fun a h₁ h₂ ↦ h a (by omega)

/-- A write inside a region changes nothing outside of it. -/
theorem agreeOutside_patch {lo hi : ℕ} (hlo : lo ≤ off) (hhi : off + bs.length ≤ hi) :
    AgreeOutside lo hi (mem.patch off bs) mem := by
  intro a ha
  rcases ha with ha | ha
  · exact patch_apply_of_lt (by omega)
  · exact patch_apply_of_ge (by omega)

/-! ## Sequences of writes -/

/-- The memory after some writes, made one after the other. -/
def patchAll (mem : Memory) (ws : List (ℕ × Bytes)) : Memory :=
  ws.foldl (fun mem w ↦ mem.patch w.1 w.2) mem

@[simp] theorem patchAll_nil : mem.patchAll [] = mem := rfl

@[simp] theorem patchAll_cons (w : ℕ × Bytes) (ws : List (ℕ × Bytes)) :
    mem.patchAll (w :: ws) = (mem.patch w.1 w.2).patchAll ws := rfl

theorem patchAll_append (ws ws' : List (ℕ × Bytes)) :
    mem.patchAll (ws ++ ws') = (mem.patchAll ws).patchAll ws' := List.foldl_append

/-- Writes change nothing at addresses that none of them fills. -/
theorem agreeOn_patchAll {lo hi : ℕ} {ws : List (ℕ × Bytes)}
    (h : ∀ w ∈ ws, hi ≤ w.1 ∨ w.1 + w.2.length ≤ lo) : AgreeOn lo hi (mem.patchAll ws) mem := by
  induction ws generalizing mem with
  | nil => exact fun _ _ _ ↦ rfl
  | cons w ws ih =>
    rw [List.forall_mem_cons] at h
    exact (ih h.2).trans (agreeOn_patch h.1)

end Memory

end Galdralag
