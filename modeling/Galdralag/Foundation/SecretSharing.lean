import Mathlib.Algebra.Polynomial.OfFn
import Mathlib.LinearAlgebra.Lagrange

/-!
# Sharing a secret by a polynomial

A secret is the constant term of a polynomial of degree below `m + 1`, and a share is the value of
the polynomial at a nonzero point. Everything here holds over any field.

* **Reconstruction**: the values at `k` distinct points determine a polynomial of degree below `k`,
  so a weighted sum of the values is the secret.
* **Secrecy**: fewer values than that are compatible with every secret. A *mask* is a polynomial
  that vanishes at the observed points and takes a prescribed value at zero; adding its coefficients
  carries every polynomial that shares one secret to one that shares another, with the same shares.
-/

set_option linter.all false

namespace Galdralag.SecretSharing

open Polynomial

variable {F : Type*} [Field F] {m : ℕ}

/-- The value at `x` of the polynomial with constant term `secret` and higher coefficients `cs`. -/
def share (secret : F) (cs : Fin m → F) (x : F) : F := secret + ∑ j, cs j * x ^ (j.val + 1)

/-- The value at zero is the secret. -/
@[simp] theorem share_zero (secret : F) (cs : Fin m → F) : share secret cs 0 = secret := by
  simp [share]

/-- Shares are added by adding the secrets and the coefficients. -/
theorem share_add (s s' : F) (cs cs' : Fin m → F) (x : F) :
    share (s + s') (cs + cs') x = share s cs x + share s' cs' x := by
  simp only [share, Pi.add_apply, add_mul, Finset.sum_add_distrib]
  ring

/-! ## Reconstruction -/

/-- The weight of the value at `x i` in the value at zero. -/
def weight {ι : Type*} [DecidableEq ι] (s : Finset ι) (x : ι → F) (i : ι) : F :=
  (∏ j ∈ s.erase i, x j) * (∏ j ∈ s.erase i, (x j - x i))⁻¹

theorem eval_zero_basis {ι : Type*} [DecidableEq ι] (s : Finset ι) (x : ι → F) (i : ι) :
    (Lagrange.basis s x i).eval 0 = weight s x i := by
  rw [Lagrange.basis, eval_prod, weight, ← Finset.prod_inv_distrib, ← Finset.prod_mul_distrib]
  refine Finset.prod_congr rfl fun j _ ↦ ?_
  rw [Lagrange.basisDivisor, eval_mul, eval_C, eval_sub, eval_X, eval_C, zero_sub, mul_neg,
    ← neg_mul, ← inv_neg, neg_sub, mul_comm]

variable [DecidableEq F]

/-- The polynomial behind a share. -/
noncomputable def sharing (secret : F) (cs : Fin m → F) : F[X] := ofFn (m + 1) (Fin.cons secret cs)

theorem eval_sharing (secret : F) (cs : Fin m → F) (x : F) :
    (sharing secret cs).eval x = share secret cs x := by
  rw [sharing, ofFn_eq_sum_monomial, eval_finsetSum, Fin.sum_univ_succ, share]
  simp only [eval_monomial, Fin.cons_zero, Fin.cons_succ, Fin.val_zero, Fin.val_succ, pow_zero,
    mul_one]

theorem degree_sharing_lt (secret : F) (cs : Fin m → F) :
    (sharing secret cs).degree < (m + 1 : ℕ) := ofFn_degree_lt _

/-- **Reconstruction.** A weighted sum of values at more points than there are coefficients is the
secret. -/
theorem reconstruct {ι : Type*} [DecidableEq ι] {s : Finset ι} {x : ι → F} (hx : Set.InjOn x s)
    (secret : F) (cs : Fin m → F) (hm : m < s.card) :
    ∑ i ∈ s, share secret cs (x i) * weight s x i = secret := by
  have hdeg : (sharing secret cs).degree < s.card :=
    (degree_sharing_lt secret cs).trans_le (Nat.cast_le.mpr hm)
  have h := congrArg (eval 0) (Lagrange.eq_interpolate hx hdeg)
  rw [eval_sharing, share_zero, Lagrange.interpolate_apply, eval_finsetSum] at h
  refine Eq.trans (Finset.sum_congr rfl fun i _ ↦ ?_) h.symm
  rw [eval_mul, eval_C, eval_zero_basis, eval_sharing]

/-! ## Secrecy -/

/-- **Masks.** At no more than `m` nonzero points some `m` coefficients cancel a given secret. -/
theorem exists_mask (secret : F) {points : Finset F} (hzero : 0 ∉ points) (hm : points.card ≤ m) :
    ∃ cs : Fin m → F, ∀ x ∈ points, share secret cs x = 0 := by
  set p : F[X] := C secret * ∏ x ∈ points, (1 - C x⁻¹ * X) with hp
  have hdeg : p.natDegree ≤ points.card := by
    refine (natDegree_C_mul_le _ _).trans ((natDegree_prod_le _ _).trans ?_)
    refine (Finset.sum_le_card_nsmul points _ 1 fun x _ ↦ ?_).trans_eq (by simp)
    refine (natDegree_sub_le _ _).trans (max_le (by simp) ?_)
    exact (natDegree_C_mul_le _ _).trans natDegree_X_le
  have hfn : ofFn (m + 1) (toFn (m + 1) p) = p :=
    ofFn_comp_toFn_eq_id_of_natDegree_lt (by omega)
  have hconst : toFn (m + 1) p 0 = secret := by
    have h : toFn (m + 1) p 0 = p.eval 0 := (coeff_zero_eq_eval_zero p)
    rw [h, hp, eval_mul, eval_C, eval_prod]
    simp
  refine ⟨Fin.tail (toFn (m + 1) p), fun x hx ↦ ?_⟩
  have hcons : Fin.cons secret (Fin.tail (toFn (m + 1) p)) = toFn (m + 1) p := by
    rw [← hconst, Fin.cons_self_tail]
  have hx0 : x ≠ 0 := fun h ↦ hzero (h ▸ hx)
  rw [← eval_sharing, sharing, hcons, hfn, hp, eval_mul, eval_prod]
  refine mul_eq_zero_of_right _ (Finset.prod_eq_zero hx ?_)
  rw [eval_sub, eval_one, eval_mul, eval_C, eval_X, inv_mul_cancel₀ hx0, sub_self]

/-- **Uniqueness.** The values at `m` nonzero points determine the coefficients of a secret. -/
theorem share_injective {secret : F} {points : Finset F} (hzero : 0 ∉ points)
    (hm : m ≤ points.card) {cs cs' : Fin m → F}
    (h : ∀ x ∈ points, share secret cs x = share secret cs' x) : cs = cs' := by
  have hcard : m + 1 ≤ (insert 0 points).card := by
    rw [Finset.card_insert_of_notMem hzero]
    omega
  have hlt : ∀ cs : Fin m → F, (sharing secret cs).degree < (insert 0 points).card := fun cs ↦
    (degree_sharing_lt secret cs).trans_le (Nat.cast_le.mpr hcard)
  have heq : sharing secret cs = sharing secret cs' := by
    refine eq_of_degrees_lt_of_eval_finset_eq _ (hlt cs) (hlt cs') fun x hx ↦ ?_
    rw [eval_sharing, eval_sharing]
    rcases Finset.mem_insert.mp hx with rfl | hx
    · rw [share_zero, share_zero]
    · exact h x hx
  exact (Fin.cons_injective2 (injective_ofFn _ heq)).2

end Galdralag.SecretSharing
