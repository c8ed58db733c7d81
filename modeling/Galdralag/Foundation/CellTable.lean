import Galdralag.Foundation.Memory
import Mathlib.Logic.Function.Basic

/-!
# Tables of cells

A table of cells of one size in a byte-addressed memory: every index has an address, and the cells
of different indices do not meet. Overwriting a cell as a whole is an update of the function from
indices to contents, and a write somewhere else is none.
-/

set_option linter.all false

namespace Galdralag

/-- Cells of one size at addresses of their own. -/
structure CellTable (ι : Type) where
  offset : ι → ℕ
  size : ℕ
  apart : ∀ {i j}, i ≠ j → offset i + size ≤ offset j ∨ offset j + size ≤ offset i

namespace CellTable

variable {ι : Type} (t : CellTable ι) {mem mem' : Memory} {i : ι} {bs : Bytes}

/-- What a cell holds. -/
def cell (mem : Memory) (i : ι) : Bytes := mem.window (t.offset i) t.size

@[simp] theorem length_cell : (t.cell mem i).length = t.size := Memory.length_window

/-- The first bytes of a cell. -/
theorem take_cell {n : ℕ} (h : n ≤ t.size) :
    (t.cell mem i).take n = mem.window (t.offset i) n := by
  obtain ⟨k, hk⟩ := Nat.exists_eq_add_of_le h
  rw [cell, hk, Memory.window_add, List.take_left' Memory.length_window]

/-- **Overwriting a cell** updates one index. -/
theorem cell_patch [DecidableEq ι] (mem : Memory) (i : ι) (h : bs.length = t.size) :
    t.cell (mem.patch (t.offset i) bs) = Function.update (t.cell mem) i bs := by
  funext j
  by_cases hij : j = i
  · subst hij
    rw [Function.update_self, cell, ← h, Memory.window_patch]
  · rw [Function.update_of_ne hij, cell, cell]
    refine Memory.window_patch_of_disjoint ?_
    rw [h]
    exact t.apart hij

/-- **Frame.** A write that does not meet a cell leaves it alone. -/
theorem cell_patch_of_disjoint {n : ℕ}
    (h : t.offset i + t.size ≤ n ∨ n + bs.length ≤ t.offset i) :
    t.cell (mem.patch n bs) i = t.cell mem i := Memory.window_patch_of_disjoint h

end CellTable

end Galdralag
