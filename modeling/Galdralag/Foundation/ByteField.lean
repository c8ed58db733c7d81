import Mathlib.Algebra.Field.Basic
import Mathlib.Tactic.Ring
import Mathlib.Data.Nat.Notation
import Mathlib.Algebra.Group.Nat.Defs

/-!
# The field of bytes

The field with 256 elements as bytes: a byte is a polynomial over the field with two elements,
addition is the exclusive or, and multiplication is modulo `x⁸ + x⁴ + x³ + x + 1`.

Both arguments of the product are additive, and an additive map is determined by its values at the
eight powers of `x`. The laws are decided there, and not at every pair or triple of bytes.
-/

set_option linter.all false

namespace Galdralag

/-- A byte as an element of the field with 256 elements. -/
structure ByteField where
  bits : BitVec 8
  deriving DecidableEq, Repr

namespace ByteField

/-- Multiplication by `x`. -/
def xtime (a : BitVec 8) : BitVec 8 := a <<< 1 ^^^ if a.msb then 0x1B#8 else 0#8

/-- The product by shifts, from the highest bit of `b` down. -/
def mulBits (a b : BitVec 8) : BitVec 8 :=
  (List.range 8).foldr (fun i acc ↦ xtime acc ^^^ if b.getLsbD i then a else 0#8) 0#8

/-! ## Additive maps -/

/-- A map that respects addition. -/
def Additive (f : BitVec 8 → BitVec 8) : Prop := ∀ a b, f (a ^^^ b) = f a ^^^ f b

variable {f g : BitVec 8 → BitVec 8}

theorem Additive.zero (hf : Additive f) : f 0#8 = 0#8 := by
  have h : f 0#8 = f 0#8 ^^^ f 0#8 := hf 0#8 0#8
  rw [h, BitVec.xor_self]

theorem Additive.comp (hf : Additive f) (hg : Additive g) : Additive fun a ↦ f (g a) := fun a b ↦
  (congrArg f (hg a b)).trans (hf (g a) (g b))

theorem Additive.iterate (hf : Additive f) (n : ℕ) : Additive f^[n] := by
  induction n with
  | zero => exact fun _ _ ↦ rfl
  | succ n ih => exact ih.comp hf

/-- Additive maps are equal when they agree on the powers of `x`. -/
theorem Additive.ext (hf : Additive f) (hg : Additive g)
    (h : ∀ i < 8, f (BitVec.twoPow 8 i) = g (BitVec.twoPow 8 i)) (a : BitVec 8) : f a = g a := by
  have hbits : a = (List.range 8).foldr
      (fun i acc ↦ (if a.getLsbD i then BitVec.twoPow 8 i else 0#8) ^^^ acc) 0#8 := by
    revert a
    decide +kernel
  have hsum : ∀ is : List ℕ, (∀ i ∈ is, i < 8) →
      f (is.foldr (fun i acc ↦ (if a.getLsbD i then BitVec.twoPow 8 i else 0#8) ^^^ acc) 0#8)
        = g (is.foldr (fun i acc ↦ (if a.getLsbD i then BitVec.twoPow 8 i else 0#8) ^^^ acc) 0#8) := by
    intro is his
    induction is with
    | nil => exact hf.zero.trans hg.zero.symm
    | cons i is ih =>
      rw [List.foldr_cons, hf, hg, ih fun j hj ↦ his j (List.mem_cons_of_mem i hj)]
      split_ifs
      · rw [h i (his i List.mem_cons_self)]
      · rw [hf.zero, hg.zero]
  rw [hbits]
  exact hsum _ fun i hi ↦ List.mem_range.mp hi

theorem Additive.id : Additive fun a ↦ a := fun _ _ ↦ rfl

theorem xor_swap (a b c d : BitVec 8) : a ^^^ b ^^^ (c ^^^ d) = a ^^^ c ^^^ (b ^^^ d) := by
  rw [BitVec.xor_assoc, BitVec.xor_assoc, ← BitVec.xor_assoc b, BitVec.xor_comm b,
    BitVec.xor_assoc c]

theorem additive_xtime : Additive xtime := by
  intro a b
  rw [xtime, BitVec.shiftLeft_xor_distrib, BitVec.msb_xor, xtime, xtime, xor_swap]
  cases a.msb <;> cases b.msb <;> rfl

theorem additive_mulBits_right (a : BitVec 8) : Additive (mulBits a) := by
  intro b c
  rw [mulBits, mulBits, mulBits]
  induction List.range 8 with
  | nil => exact (BitVec.xor_self).symm
  | cons i is ih =>
    rw [List.foldr_cons, ih, List.foldr_cons, List.foldr_cons, additive_xtime, BitVec.getLsbD_xor,
      xor_swap]
    congr 1
    cases b.getLsbD i <;> cases c.getLsbD i <;> simp

theorem additive_mulBits_left (b : BitVec 8) : Additive fun a ↦ mulBits a b := by
  intro a c
  simp only [mulBits]
  induction List.range 8 with
  | nil => exact (BitVec.xor_self).symm
  | cons i is ih =>
    rw [List.foldr_cons, ih, List.foldr_cons, List.foldr_cons, additive_xtime, xor_swap]
    congr 1
    split_ifs
    · rfl
    · exact (BitVec.xor_self).symm

/-! ## The product -/

theorem mulBits_xtime (a b : BitVec 8) : mulBits (xtime a) b = xtime (mulBits a b) := by
  rw [mulBits, mulBits]
  induction List.range 8 with
  | nil => exact additive_xtime.zero.symm
  | cons i is ih =>
    rw [List.foldr_cons, ih, List.foldr_cons, additive_xtime]
    congr 1
    split_ifs
    · rfl
    · exact additive_xtime.zero.symm

theorem one_mulBits (a : BitVec 8) : mulBits 1#8 a = a := by
  refine (additive_mulBits_right 1#8).ext .id ?_ a
  decide

theorem mulBits_iterate (n : ℕ) (a b : BitVec 8) :
    mulBits (xtime^[n] a) b = xtime^[n] (mulBits a b) := by
  induction n with
  | zero => rfl
  | succ n ih => rw [Function.iterate_succ_apply', mulBits_xtime, ih, Function.iterate_succ_apply']

theorem twoPow_mulBits {i : ℕ} (hi : i < 8) (a : BitVec 8) :
    mulBits (BitVec.twoPow 8 i) a = xtime^[i] a := by
  have hpow : ∀ i < 8, BitVec.twoPow 8 i = xtime^[i] 1#8 := by decide
  rw [hpow i hi, mulBits_iterate, one_mulBits]

theorem mulBits_comm (a b : BitVec 8) : mulBits a b = mulBits b a := by
  refine (additive_mulBits_left b).ext (additive_mulBits_right b) (fun i hi ↦ ?_) a
  refine (additive_mulBits_right _).ext (additive_mulBits_left _) (fun j hj ↦ ?_) b
  revert i j
  decide

theorem mulBits_assoc (a b c : BitVec 8) : mulBits (mulBits a b) c = mulBits a (mulBits b c) := by
  refine ((additive_mulBits_left c).comp (additive_mulBits_left b)).ext
    (additive_mulBits_left (mulBits b c)) (fun i hi ↦ ?_) a
  rw [twoPow_mulBits hi, mulBits_iterate, twoPow_mulBits hi]

/-! ## The ring -/

instance : Zero ByteField := ⟨⟨0#8⟩⟩

instance : One ByteField := ⟨⟨1#8⟩⟩

instance : Add ByteField := ⟨fun a b ↦ ⟨a.bits ^^^ b.bits⟩⟩

instance : Neg ByteField := ⟨fun a ↦ a⟩

instance : Mul ByteField := ⟨fun a b ↦ ⟨mulBits a.bits b.bits⟩⟩

instance : CommRing ByteField where
  nsmul := nsmulRec
  zsmul := zsmulRec
  add_assoc a b c := congrArg mk (BitVec.xor_assoc _ _ _)
  zero_add a := congrArg mk BitVec.zero_xor
  add_zero a := congrArg mk BitVec.xor_zero
  add_comm a b := congrArg mk (BitVec.xor_comm _ _)
  neg_add_cancel a := congrArg mk BitVec.xor_self
  left_distrib a b c := congrArg mk (additive_mulBits_right _ _ _)
  right_distrib a b c := congrArg mk (additive_mulBits_left _ _ _)
  zero_mul a := congrArg mk (additive_mulBits_left _).zero
  mul_zero a := congrArg mk (additive_mulBits_right _).zero
  mul_assoc a b c := congrArg mk (mulBits_assoc _ _ _)
  one_mul a := congrArg mk (one_mulBits _)
  mul_one a := congrArg mk ((mulBits_comm _ _).trans (one_mulBits _))
  mul_comm a b := congrArg mk (mulBits_comm _ _)

theorem ext_bits {a b : ByteField} (h : a.bits = b.bits) : a = b := congrArg mk h

theorem add_self (a : ByteField) : a + a = 0 := congrArg mk BitVec.xor_self

/-- The inverse, as the power with exponent 254. -/
def inverse (a : ByteField) : ByteField :=
  let a2 := a * a
  let a4 := a2 * a2
  let a8 := a4 * a4
  let a16 := a8 * a8
  let a32 := a16 * a16
  let a64 := a32 * a32
  let a128 := a64 * a64
  a2 * a4 * (a8 * a16) * (a32 * a64 * a128)

theorem inverse_eq (a : ByteField) : inverse a = a ^ 254 := by
  rw [inverse]
  ring

example : (⟨0x02⟩ * ⟨0xB7⟩ : ByteField) = ⟨0x75⟩ := by decide

/-! ## The field

Squaring is additive, so the power with exponent 256 is the identity: it is on the powers of `x`.
Then `a ^ 255` is idempotent, and there are no idempotents but zero and one. -/

theorem additive_square : Additive fun a ↦ mulBits a a := by
  intro a b
  have h : (⟨a⟩ + ⟨b⟩ : ByteField) * (⟨a⟩ + ⟨b⟩) = ⟨a⟩ * ⟨a⟩ + ⟨b⟩ * ⟨b⟩ := by
    calc (⟨a⟩ + ⟨b⟩ : ByteField) * (⟨a⟩ + ⟨b⟩)
        = ⟨a⟩ * ⟨a⟩ + ⟨b⟩ * ⟨b⟩ + (⟨a⟩ * ⟨b⟩ + ⟨a⟩ * ⟨b⟩) := by ring
      _ = ⟨a⟩ * ⟨a⟩ + ⟨b⟩ * ⟨b⟩ := by rw [add_self, add_zero]
  exact congrArg bits h

theorem pow_card (a : ByteField) : a ^ 256 = a := by
  have hpow : ∀ n, (⟨(fun a ↦ mulBits a a)^[n] a.bits⟩ : ByteField) = a ^ 2 ^ n := by
    intro n
    induction n with
    | zero => exact (pow_one a).symm
    | succ n ih =>
      rw [Function.iterate_succ_apply', pow_succ, pow_mul, ← ih, sq]
      rfl
  have h : (fun a ↦ mulBits a a)^[8] a.bits = a.bits :=
    (additive_square.iterate 8).ext .id (by decide +kernel) a.bits
  have h256 : a ^ 2 ^ 8 = a := (hpow 8).symm.trans (ext_bits h)
  exact h256

theorem idempotent (a : ByteField) (h : a * a = a) : a = 0 ∨ a = 1 := by
  have hbits : ∀ b : BitVec 8, mulBits b b = b → b = 0#8 ∨ b = 1#8 := by
    decide +kernel
  exact (hbits a.bits (congrArg bits h)).imp ext_bits ext_bits

theorem mul_inverse {a : ByteField} (ha : a ≠ 0) : a * inverse a = 1 := by
  have h255 : a * inverse a = a ^ 255 := by rw [inverse_eq, ← pow_succ']
  have hidem : a ^ 255 * a ^ 255 = a ^ 255 := by
    calc a ^ 255 * a ^ 255 = a ^ 256 * a ^ 254 := by ring
      _ = a ^ 255 := by rw [pow_card, ← pow_succ']
  rw [h255]
  refine (idempotent _ hidem).resolve_left fun hzero ↦ ha ?_
  calc a = a ^ 255 * a := by rw [← pow_succ, pow_card]
    _ = 0 := by rw [hzero, zero_mul]

instance : Field ByteField where
  inv := inverse
  exists_pair_ne := ⟨0, 1, by decide⟩
  mul_inv_cancel _ := mul_inverse
  inv_zero := (inverse_eq 0).trans (zero_pow (by decide))
  nnqsmul := _
  qsmul := _

end ByteField

end Galdralag
