import Galdralag.Foundation.Fallible
import Galdralag.Foundation.Bytes

/-!
# Decoders

A decoder reads a value off the front of a byte string and hands on the bytes behind it, or stops
with an error. `Describes m R` says exactly what a decoder accepts: `R used a` holds of the byte
strings `used` that encode `a`, and `m` succeeds with `a` precisely on those. The description of a
sequence follows from the descriptions of its parts, so that both halves of a codec, the round trip
and the form of what is accepted, are read off one statement.
-/

set_option linter.all false

namespace Galdralag

/-- A computation that consumes bytes from the front, or fails. -/
def Decoder (ε α : Type) : Type := Bytes → Except ε (α × Bytes)

namespace Decoder

variable {ε α β : Type}

instance : Monad (Decoder ε) where
  pure a := fun bs ↦ .ok (a, bs)
  bind m f := fun bs ↦ m bs >>= fun p ↦ f p.1 p.2

/-- Use an outcome that does not depend on the input. -/
def lift (r : Except ε α) : Decoder ε α := fun bs ↦ r >>= fun a ↦ .ok (a, bs)

/-- The next byte; `e` when there is none. -/
def byte (e : ε) : Decoder ε UInt8
  | [] => .error e
  | b :: bs => .ok (b, bs)

/-- The next `n` bytes; `e` when there are fewer. -/
def take (n : ℕ) (e : ε) : Decoder ε Bytes := fun bs ↦
  if n ≤ bs.length then .ok (bs.take n, bs.drop n) else .error e

/-- `n` values, one after the other. -/
def times (m : Decoder ε α) : ℕ → Decoder ε (List α)
  | 0 => pure []
  | n + 1 => do
    let a ← m
    let as ← times m n
    pure (a :: as)

/-! ## Descriptions -/

/-- `m` succeeds with `a` exactly on the byte strings that `R` relates to `a`, whatever follows. -/
def Describes (m : Decoder ε α) (R : Bytes → α → Prop) : Prop :=
  ∀ bs a rest, m bs = .ok (a, rest) ↔ ∃ used, bs = used ++ rest ∧ R used a

variable {m : Decoder ε α} {f : α → Decoder ε β} {R : Bytes → α → Prop}
  {Q : α → Bytes → β → Prop}

theorem Describes.congr {R' : Bytes → α → Prop} (h : Describes m R)
    (hR : ∀ used a, R used a ↔ R' used a) : Describes m R' := by
  intro bs a rest
  rw [h bs a rest]
  exact exists_congr fun used ↦ and_congr_right fun _ ↦ hR used a

theorem bind_apply (m : Decoder ε α) (f : α → Decoder ε β) (bs : Bytes) :
    (m >>= f) bs = m bs >>= fun p ↦ f p.1 p.2 := rfl

/-- A sequence goes on with what its first part read. -/
theorem bind_of_ok {bs rest : Bytes} {a : α} (h : m bs = .ok (a, rest)) :
    (m >>= f) bs = f a rest := by
  rw [bind_apply, h, ok_bind]

theorem take_append {bs : Bytes} {n : ℕ} (h : bs.length = n) (e : ε) (rest : Bytes) :
    take n e (bs ++ rest) = .ok (bs, rest) := by
  rw [take, if_pos (by rw [List.length_append]; omega), List.take_left' h, List.drop_left' h]

theorem lift_of_ok {r : Except ε α} {a : α} (h : r = .ok a) (bs : Bytes) :
    lift r bs = .ok (a, bs) := by
  rw [lift, h, ok_bind]

theorem describes_pure (a : α) :
    Describes (pure a : Decoder ε α) fun used b ↦ used = [] ∧ b = a := by
  intro bs b rest
  constructor
  · intro h
    obtain ⟨rfl, rfl⟩ := Prod.mk.inj (Except.ok.inj h)
    exact ⟨[], rfl, rfl, rfl⟩
  · rintro ⟨_, rfl, rfl, rfl⟩
    rfl

/-- **Sequences.** What a sequence accepts is what its first part accepts, followed by what the
rest accepts from there. -/
theorem Describes.bind (hm : Describes m R) (hf : ∀ a, Describes (f a) (Q a)) :
    Describes (m >>= f) fun used b ↦ ∃ us vs a, used = us ++ vs ∧ R us a ∧ Q a vs b := by
  intro bs b rest
  rw [bind_apply, except_bind_eq_ok]
  constructor
  · rintro ⟨⟨a, mid⟩, hma, hfb⟩
    obtain ⟨us, rfl, hR⟩ := (hm bs a mid).mp hma
    obtain ⟨vs, rfl, hQ⟩ := (hf a mid b rest).mp hfb
    exact ⟨us ++ vs, (List.append_assoc us vs rest).symm, us, vs, a, rfl, hR, hQ⟩
  · rintro ⟨_, rfl, us, vs, a, rfl, hR, hQ⟩
    refine ⟨(a, vs ++ rest), (hm _ a _).mpr ⟨us, ?_, hR⟩, (hf a _ b rest).mpr ⟨vs, rfl, hQ⟩⟩
    rw [List.append_assoc]

theorem describes_lift (r : Except ε α) :
    Describes (lift r) fun used a ↦ used = [] ∧ r = .ok a := by
  intro bs a rest
  rw [lift, except_bind_eq_ok]
  constructor
  · rintro ⟨a', hr, h⟩
    obtain ⟨rfl, rfl⟩ := Prod.mk.inj (Except.ok.inj h)
    exact ⟨[], rfl, rfl, hr⟩
  · rintro ⟨_, rfl, rfl, hr⟩
    exact ⟨a, hr, rfl⟩

theorem describes_byte (e : ε) : Describes (byte e) fun used b ↦ used = [b] := by
  intro bs b rest
  constructor
  · intro h
    cases bs with
    | nil => cases h
    | cons c cs =>
      obtain ⟨rfl, rfl⟩ := Prod.mk.inj (Except.ok.inj h)
      exact ⟨[c], rfl, rfl⟩
  · rintro ⟨_, rfl, rfl⟩
    rfl

theorem describes_take (n : ℕ) (e : ε) :
    Describes (take n e) fun used bs ↦ used = bs ∧ bs.length = n := by
  intro bs a rest
  rw [take]
  constructor
  · intro h
    split_ifs at h with hn
    obtain ⟨rfl, rfl⟩ := Prod.mk.inj (Except.ok.inj h)
    exact ⟨bs.take n, (List.take_append_drop n bs).symm, rfl, List.length_take_of_le hn⟩
  · rintro ⟨used, rfl, rfl, rfl⟩
    rw [if_pos (by rw [List.length_append]; omega), List.take_left, List.drop_left]

/-- A repeated element whose encodings are single bytes. -/
theorem describes_times {enc : α → UInt8} (hm : Describes m fun used a ↦ used = [enc a]) (n : ℕ) :
    Describes (times m n) fun used as ↦ used = as.map enc ∧ as.length = n := by
  induction n with
  | zero =>
    refine (describes_pure _).congr fun used as ↦ ?_
    constructor
    · rintro ⟨rfl, rfl⟩
      exact ⟨rfl, rfl⟩
    · rintro ⟨rfl, h⟩
      obtain rfl := List.length_eq_zero_iff.mp h
      exact ⟨rfl, rfl⟩
  | succ n ih =>
    refine (hm.bind fun a ↦ ih.bind fun as ↦ describes_pure (a :: as)).congr fun used as ↦ ?_
    constructor
    · rintro ⟨_, _, a, rfl, rfl, _, _, as', rfl, ⟨rfl, rfl⟩, rfl, rfl⟩
      refine ⟨?_, rfl⟩
      rw [List.append_nil]
      rfl
    · rintro ⟨rfl, hlen⟩
      cases as with
      | nil => cases hlen
      | cons a as =>
        exact ⟨[enc a], as.map enc, a, rfl, rfl, as.map enc, [], as, (List.append_nil _).symm,
          ⟨rfl, Nat.succ.inj hlen⟩, rfl, rfl⟩

/-! ## Errors -/

/-- Every error of the decoder is one of `P`, whatever it reads. -/
def Stops (P : ε → Prop) (m : Decoder ε α) : Prop := ∀ bs, ErrorsIn P (m bs)

variable {P : ε → Prop}

theorem Stops.bind (hm : Stops P m) (hf : ∀ a, Stops P (f a)) : Stops P (m >>= f) :=
  fun bs ↦ (hm bs).bind fun p ↦ hf p.1 p.2

theorem stops_pure (a : α) : Stops P (pure a : Decoder ε α) := fun bs ↦ .ok (a, bs)

theorem stops_lift {r : Except ε α} (h : ErrorsIn P r) : Stops P (lift r) :=
  fun bs ↦ h.bind fun a ↦ .ok (a, bs)

theorem stops_byte {e : ε} (h : P e) : Stops P (byte e) := by
  intro bs
  cases bs with
  | nil => exact .error h
  | cons b bs => exact .ok (b, bs)

theorem stops_take (n : ℕ) {e : ε} (h : P e) : Stops P (take n e) := by
  intro bs
  rw [take]
  by_cases hn : n ≤ bs.length
  · rw [if_pos hn]
    exact .ok _
  · rw [if_neg hn]
    exact .error h

end Decoder

end Galdralag
