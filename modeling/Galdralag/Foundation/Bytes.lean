import Mathlib.Data.List.Basic
import Mathlib.Algebra.Group.Nat.Defs
import Mathlib.Data.Nat.Notation

/-!
# Byte strings, fixed-size blocks and words

Byte strings are lists of bytes. A `Block n` is a byte string whose length is part of its type, the
counterpart of a fixed-size byte array. A `Vec cap` is a byte string whose length is bounded by its
type, the counterpart of a vector with inline capacity.

A record on a medium is written field after field and read back with a cursor that moves from
field to field. `Reader` is that cursor: it carries the bytes not yet read. `Reads m bs a` says
that `m` consumes exactly `bs` and returns `a`, whatever follows, and it composes, so the round
trip of a record follows from the round trips of its fields. `Exhausts enc n` says that every string
of `n` bytes is an encoding, so that nothing is lost in the other direction either.
-/

set_option linter.all false

namespace Galdralag

/-- Byte strings. -/
abbrev Bytes := List UInt8

/-! ## Blocks -/

/-- A byte string of exactly `n` bytes. -/
def Block (n : ℕ) : Type := { bs : Bytes // bs.length = n }

namespace Block

variable {n : ℕ}

instance : DecidableEq (Block n) := inferInstanceAs (DecidableEq { bs : Bytes // bs.length = n })

/-- The bytes of a block. -/
def toBytes (b : Block n) : Bytes := b.1

@[simp] theorem length_toBytes (b : Block n) : b.toBytes.length = n := b.2

@[ext] theorem ext {b c : Block n} (h : b.toBytes = c.toBytes) : b = c := Subtype.ext h

/-- The all-zero block. -/
def zero (n : ℕ) : Block n := ⟨List.replicate n 0, List.length_replicate⟩

instance : Inhabited (Block n) := ⟨zero n⟩

/-- The first `n` bytes of a byte string, padded with zeros when there are fewer. -/
def ofBytes (n : ℕ) (bs : Bytes) : Block n :=
  ⟨bs.take n ++ List.replicate (n - bs.length) 0, by
    rw [List.length_append, List.length_take, List.length_replicate]; omega⟩

@[simp] theorem toBytes_zero : (zero n).toBytes = List.replicate n 0 := rfl

theorem toBytes_ofBytes {bs : Bytes} (h : bs.length = n) : (ofBytes n bs).toBytes = bs := by
  change bs.take n ++ List.replicate (n - bs.length) 0 = bs
  rw [h, Nat.sub_self, List.take_of_length_le (Nat.le_of_eq h)]
  exact List.append_nil bs

@[simp] theorem ofBytes_toBytes (b : Block n) : ofBytes n b.toBytes = b :=
  Block.ext (toBytes_ofBytes b.length_toBytes)

end Block

/-! ## Bounded byte strings -/

/-- A byte string of at most `cap` bytes. -/
def Vec (cap : ℕ) : Type := { bs : Bytes // bs.length ≤ cap }

namespace Vec

variable {cap : ℕ}

instance : DecidableEq (Vec cap) := inferInstanceAs (DecidableEq { bs : Bytes // bs.length ≤ cap })

/-- The bytes of a vector. -/
def toBytes (v : Vec cap) : Bytes := v.1

/-- The number of bytes of a vector. -/
def length (v : Vec cap) : ℕ := v.toBytes.length

theorem length_le (v : Vec cap) : v.length ≤ cap := v.2

/-- The empty vector. -/
def empty : Vec cap := ⟨[], Nat.zero_le cap⟩

instance : Inhabited (Vec cap) := ⟨empty⟩

/-- Push every byte of `bs`; `none` when one does not fit. -/
def ofBytes? (bs : Bytes) : Option (Vec cap) := if h : bs.length ≤ cap then some ⟨bs, h⟩ else none

/-- Push the bytes of `bs`, dropping those that do not fit. -/
def truncated (bs : Bytes) : Vec cap :=
  ⟨bs.take cap, Nat.le_trans (Nat.le_of_eq List.length_take) (Nat.min_le_left _ _)⟩

@[simp] theorem toBytes_empty : (empty : Vec cap).toBytes = [] := rfl

theorem toBytes_of_ofBytes? {bs : Bytes} {v : Vec cap} (h : ofBytes? bs = some v) :
    v.toBytes = bs := by
  rw [ofBytes?] at h
  split_ifs at h
  rw [← Option.some.inj h]
  rfl

theorem toBytes_truncated {bs : Bytes} (h : bs.length ≤ cap) :
    (truncated bs : Vec cap).toBytes = bs := List.take_of_length_le h

/-- Bytes that fit are not cut off. -/
theorem ofBytes?_of_le {bs : Bytes} (h : bs.length ≤ cap) :
    (ofBytes? bs : Option (Vec cap)) = some (truncated bs) := by
  rw [ofBytes?, dif_pos h]
  exact congrArg some (Subtype.ext (toBytes_truncated h).symm)

end Vec

/-! ## Big-endian words -/

/-- The two bytes of a 16-bit word, most significant first. -/
def u16be (v : UInt16) : Bytes := [(v >>> 8).toUInt8, v.toUInt8]

/-- The 16-bit word with the given high and low byte. -/
def u16OfBe (hi lo : UInt8) : UInt16 := hi.toUInt16 <<< 8 ||| lo.toUInt16

theorem toNat_u16OfBe (hi lo : UInt8) : (u16OfBe hi lo).toNat = hi.toNat * 256 + lo.toNat := by
  have hhi := hi.toNat_lt
  have hlo := lo.toNat_lt
  have hor := Nat.shiftLeft_add_eq_or_of_lt hlo hi.toNat
  have hshift : hi.toNat <<< 8 = hi.toNat * 256 := Nat.shiftLeft_eq _ _
  have h8 : (8 : UInt16).toNat % 16 = 8 := rfl
  rw [u16OfBe, UInt16.toNat_or, UInt16.toNat_shiftLeft, UInt8.toNat_toUInt16,
    UInt8.toNat_toUInt16, h8, hshift, Nat.mod_eq_of_lt (by omega), ← hshift, ← hor, hshift]

theorem toNat_u16_high (v : UInt16) : (v >>> 8).toUInt8.toNat = v.toNat / 256 := by
  have hshift : v.toNat >>> 8 = v.toNat / 256 := Nat.shiftRight_eq_div_pow _ _
  have h8 : (8 : UInt16).toNat % 16 = 8 := rfl
  have hv := v.toNat_lt
  rw [UInt16.toNat_toUInt8, UInt16.toNat_shiftRight, h8, hshift]
  omega

/-- The word is read back. -/
theorem u16OfBe_u16be (v : UInt16) : u16OfBe (v >>> 8).toUInt8 v.toUInt8 = v := by
  rw [← UInt16.toNat_inj, toNat_u16OfBe, toNat_u16_high, UInt16.toNat_toUInt8]
  omega

/-- So are the bytes. -/
theorem u16be_u16OfBe (hi lo : UInt8) : u16be (u16OfBe hi lo) = [hi, lo] := by
  have h := toNat_u16OfBe hi lo
  have hlo := lo.toNat_lt
  have hfst : (u16OfBe hi lo >>> 8).toUInt8 = hi := by
    rw [← UInt8.toNat_inj, toNat_u16_high]
    omega
  have hsnd : (u16OfBe hi lo).toUInt8 = lo := by
    rw [← UInt8.toNat_inj, UInt16.toNat_toUInt8]
    omega
  rw [u16be, hfst, hsnd]

@[simp] theorem length_u16be (v : UInt16) : (u16be v).length = 2 := rfl

theorem u16be_injective : Function.Injective u16be := by
  intro v w h
  obtain ⟨hhi, hlo⟩ := List.cons.inj h
  rw [← u16OfBe_u16be v, hhi, (List.cons.inj hlo).1, u16OfBe_u16be]

/-- The number written by `bs`, most significant byte first. -/
def beNat (bs : Bytes) : ℕ := bs.foldl (fun n b ↦ n * 256 + b.toNat) 0

/-! ## Little-endian words -/

/-- The `k` low-order bytes of `v`, least significant first. -/
def leBytes : ℕ → ℕ → Bytes
  | 0, _ => []
  | k + 1, v => UInt8.ofNat (v % 256) :: leBytes k (v / 256)

/-- The number written by `bs`, least significant byte first. -/
def leNat : Bytes → ℕ
  | [] => 0
  | b :: bs => b.toNat + 256 * leNat bs

@[simp] theorem length_leBytes (k v : ℕ) : (leBytes k v).length = k := by
  induction k generalizing v with
  | zero => rfl
  | succ k ih => rw [leBytes, List.length_cons, ih]

theorem leNat_lt (bs : Bytes) : leNat bs < 256 ^ bs.length := by
  induction bs with
  | nil => decide
  | cons b bs ih =>
    have hb : b.toNat < 256 := b.toNat_lt
    rw [leNat, List.length_cons, Nat.pow_succ]
    omega

theorem leNat_leBytes (k v : ℕ) : leNat (leBytes k v) = v % 256 ^ k := by
  induction k generalizing v with
  | zero => rw [leBytes, leNat, Nat.pow_zero, Nat.mod_one]
  | succ k ih =>
    have hmod : (UInt8.ofNat (v % 256)).toNat = v % 256 := by
      rw [UInt8.toNat_ofNat']
      exact Nat.mod_mod v 256
    rw [leBytes, leNat, ih, hmod, Nat.pow_succ, Nat.mul_comm (256 ^ k), Nat.mod_mul]

theorem leBytes_leNat (bs : Bytes) : leBytes bs.length (leNat bs) = bs := by
  induction bs with
  | nil => rfl
  | cons b bs ih =>
    have hb : b.toNat < 256 := b.toNat_lt
    have hmod : (b.toNat + 256 * leNat bs) % 256 = b.toNat := by omega
    have hdiv : (b.toNat + 256 * leNat bs) / 256 = leNat bs := by omega
    rw [List.length_cons, leBytes, leNat, hmod, hdiv, ih, UInt8.ofNat_toNat]

/-- The two bytes of a 16-bit word. -/
def u16le (v : UInt16) : Bytes := leBytes 2 v.toNat

/-- The four bytes of a 32-bit word. -/
def u32le (v : UInt32) : Bytes := leBytes 4 v.toNat

/-- The eight bytes of a 64-bit word. -/
def u64le (v : UInt64) : Bytes := leBytes 8 v.toNat

/-- The 32-bit word written by four bytes. -/
def u32OfLe (bs : Bytes) : UInt32 := UInt32.ofNat (leNat bs)

@[simp] theorem length_u16le (v : UInt16) : (u16le v).length = 2 := length_leBytes 2 _

@[simp] theorem length_u32le (v : UInt32) : (u32le v).length = 4 := length_leBytes 4 _

@[simp] theorem length_u64le (v : UInt64) : (u64le v).length = 8 := length_leBytes 8 _

@[simp] theorem u32OfLe_u32le (v : UInt32) : u32OfLe (u32le v) = v := by
  have hmod : v.toNat % 256 ^ 4 = v.toNat := Nat.mod_eq_of_lt v.toNat_lt
  rw [u32OfLe, u32le, leNat_leBytes, hmod, UInt32.ofNat_toNat]

theorem u32le_u32OfLe {bs : Bytes} (h : bs.length = 4) : u32le (u32OfLe bs) = bs := by
  have hbytes : leBytes 4 (leNat bs) = bs := h ▸ leBytes_leNat bs
  have hlt : leNat bs < 2 ^ 32 := by
    have hlt := leNat_lt bs
    rwa [h] at hlt
  rw [u32le, u32OfLe, UInt32.toNat_ofNat', Nat.mod_eq_of_lt hlt, hbytes]

theorem u32le_injective : Function.Injective u32le :=
  Function.LeftInverse.injective u32OfLe_u32le

/-- Big-endian bytes are little-endian bytes in reverse. -/
theorem beNat_reverse (bs : Bytes) : beNat bs.reverse = leNat bs := by
  induction bs with
  | nil => rfl
  | cons b bs ih =>
    have hstep : beNat (bs.reverse ++ [b]) = beNat bs.reverse * 256 + b.toNat := by
      rw [beNat, List.foldl_append]
      rfl
    rw [List.reverse_cons, hstep, ih, leNat]
    omega

/-- The four bytes of a 32-bit word, most significant first. -/
def u32be (v : UInt32) : Bytes := (u32le v).reverse

/-- The eight bytes of a 64-bit word, most significant first. -/
def u64be (v : UInt64) : Bytes := (u64le v).reverse

@[simp] theorem length_u32be (v : UInt32) : (u32be v).length = 4 := by
  rw [u32be, List.length_reverse, length_u32le]

@[simp] theorem length_u64be (v : UInt64) : (u64be v).length = 8 := by
  rw [u64be, List.length_reverse, length_u64le]

theorem beNat_u32be (v : UInt32) : beNat (u32be v) = v.toNat := by
  rw [u32be, beNat_reverse, u32le, leNat_leBytes]
  exact Nat.mod_eq_of_lt v.toNat_lt

theorem beNat_u64be (v : UInt64) : beNat (u64be v) = v.toNat := by
  rw [u64be, beNat_reverse, u64le, leNat_leBytes]
  exact Nat.mod_eq_of_lt v.toNat_lt

/-! ## Encodings that miss nothing -/

/-- Every string of `n` bytes encodes something. -/
def Exhausts {α : Type} (enc : α → Bytes) (n : ℕ) : Prop := ∀ bs : Bytes, bs.length = n → ∃ a, enc a = bs

section Exhausts

variable {α β : Type} {enc : α → Bytes} {enc' : β → Bytes} {n m : ℕ}

/-- Two encodings, one behind the other. -/
theorem Exhausts.append (h : Exhausts enc n) (h' : Exhausts enc' m) :
    Exhausts (fun p : α × β ↦ enc p.1 ++ enc' p.2) (n + m) := by
  intro bs hlen
  obtain ⟨a, ha⟩ := h (bs.take n) (List.length_take_of_le (by omega))
  obtain ⟨b, hb⟩ := h' (bs.drop n) (by rw [List.length_drop, hlen]; omega)
  refine ⟨(a, b), ?_⟩
  change enc a ++ enc' b = bs
  rw [ha, hb, List.take_append_drop]

theorem exhausts_byte : Exhausts (fun b : UInt8 ↦ [b]) 1 := by
  intro bs hlen
  obtain ⟨b, rfl⟩ := List.length_eq_one_iff.mp hlen
  exact ⟨b, rfl⟩

theorem exhausts_block (n : ℕ) : Exhausts (Block.toBytes : Block n → Bytes) n :=
  fun bs hlen ↦ ⟨⟨bs, hlen⟩, rfl⟩

theorem exhausts_u16le : Exhausts u16le 2 := by
  intro bs hlen
  have hlt : leNat bs < 2 ^ 16 := by
    have hlt := leNat_lt bs
    rwa [hlen] at hlt
  refine ⟨.ofNat (leNat bs), ?_⟩
  rw [u16le, UInt16.toNat_ofNat', Nat.mod_eq_of_lt hlt, ← hlen, leBytes_leNat]

theorem exhausts_u32le : Exhausts u32le 4 := fun _ hlen ↦ ⟨_, u32le_u32OfLe hlen⟩

theorem exhausts_u64le : Exhausts u64le 8 := by
  intro bs hlen
  have hlt : leNat bs < 2 ^ 64 := by
    have hlt := leNat_lt bs
    rwa [hlen] at hlt
  refine ⟨.ofNat (leNat bs), ?_⟩
  rw [u64le, UInt64.toNat_ofNat', Nat.mod_eq_of_lt hlt, ← hlen, leBytes_leNat]

/-- Big-endian words miss nothing that little-endian words do not. -/
theorem Exhausts.reverse (h : Exhausts enc n) : Exhausts (fun a ↦ (enc a).reverse) n := by
  intro bs hlen
  obtain ⟨a, ha⟩ := h bs.reverse (by rw [List.length_reverse, hlen])
  refine ⟨a, ?_⟩
  change (enc a).reverse = bs
  rw [ha, List.reverse_reverse]

theorem exhausts_u32be : Exhausts u32be 4 := exhausts_u32le.reverse

theorem exhausts_u64be : Exhausts u64be 8 := exhausts_u64le.reverse

end Exhausts

/-! ## Registers -/

/-- Injective steps are injective one after the other. -/
theorem foldl_injective {σ β : Type} {step : σ → β → σ} (hstep : ∀ b, Function.Injective fun s ↦ step s b)
    (bs : List β) : Function.Injective fun s ↦ bs.foldl step s := by
  induction bs with
  | nil => exact Function.injective_id
  | cons b bs ih => exact fun s t h ↦ hstep b (ih h)

/-- Two registers that differ after one item differ to the end. -/
theorem foldl_append_cons_inj {σ β : Type} {step : σ → β → σ}
    (hstep : ∀ b, Function.Injective fun s ↦ step s b) (hitem : ∀ s, Function.Injective (step s))
    {xs ys : List β} {b b' : β} {s : σ}
    (h : (xs ++ b :: ys).foldl step s = (xs ++ b' :: ys).foldl step s) : b = b' := by
  rw [List.foldl_append, List.foldl_append, List.foldl_cons, List.foldl_cons] at h
  exact hitem _ (foldl_injective hstep ys h)

/-! ## Reading with a cursor -/

/-- A reader consumes a prefix of the bytes in front of the cursor. -/
def Reader (α : Type) : Type := Bytes → α × Bytes

namespace Reader

variable {α β : Type}

instance : Monad Reader where
  pure a := fun bs ↦ (a, bs)
  bind m f := fun bs ↦ f (m bs).1 (m bs).2

/-- The next `n` bytes. -/
def block (n : ℕ) : Reader (Block n) := fun bs ↦ (.ofBytes n (bs.take n), bs.drop n)

/-- The next byte. -/
def u8 : Reader UInt8 := fun bs ↦ (bs.headD 0, bs.drop 1)

/-- The next 16-bit word. -/
def u16 : Reader UInt16 := fun bs ↦ (.ofNat (leNat (bs.take 2)), bs.drop 2)

/-- The next 32-bit word. -/
def u32 : Reader UInt32 := fun bs ↦ (u32OfLe (bs.take 4), bs.drop 4)

/-- The next 64-bit word. -/
def u64 : Reader UInt64 := fun bs ↦ (.ofNat (leNat (bs.take 8)), bs.drop 8)

/-- `m` consumes exactly `bs` and returns `a`, whatever follows. -/
def Reads (m : Reader α) (bs : Bytes) (a : α) : Prop := ∀ rest, m (bs ++ rest) = (a, rest)

variable {m : Reader α} {f : α → Reader β} {a : α} {b : β} {bs cs : Bytes}

theorem Reads.pure (a : α) : Reads (pure a) [] a := fun _ ↦ rfl

/-- Reading two fields one after the other. -/
theorem Reads.bind (hm : Reads m bs a) (hf : Reads (f a) cs b) : Reads (m >>= f) (bs ++ cs) b := by
  intro rest
  have h := hm (cs ++ rest)
  change f (m _).1 (m _).2 = _
  rw [List.append_assoc, h]
  exact hf rest

/-- Reading a last field and packing it. -/
theorem Reads.last (hm : Reads m bs a) (hf : Reads (f a) [] b) : Reads (m >>= f) bs b := by
  have h := hm.bind hf
  rwa [List.append_nil] at h

/-- A reader that consumes all of its input. -/
theorem Reads.fst_eq (h : Reads m bs a) : (m bs).1 = a := by
  rw [← List.append_nil bs, h []]

theorem reads_block {n : ℕ} (c : Block n) : Reads (block n) c.toBytes c := by
  intro rest
  have hlen : c.toBytes.length = n := c.length_toBytes
  rw [block, List.take_left' hlen, List.drop_left' hlen, Block.ofBytes_toBytes]

theorem reads_u8 (v : UInt8) : Reads u8 [v] v := fun _ ↦ rfl

theorem reads_u16 (v : UInt16) : Reads u16 (u16le v) v := by
  intro rest
  have hmod : v.toNat % 256 ^ 2 = v.toNat := Nat.mod_eq_of_lt v.toNat_lt
  rw [u16, List.take_left' (length_u16le v), List.drop_left' (length_u16le v), u16le,
    leNat_leBytes, hmod, UInt16.ofNat_toNat]

theorem reads_u32 (v : UInt32) : Reads u32 (u32le v) v := by
  intro rest
  rw [u32, List.take_left' (length_u32le v), List.drop_left' (length_u32le v), u32OfLe_u32le]

theorem reads_u64 (v : UInt64) : Reads u64 (u64le v) v := by
  intro rest
  have hmod : v.toNat % 256 ^ 8 = v.toNat := Nat.mod_eq_of_lt v.toNat_lt
  rw [u64, List.take_left' (length_u64le v), List.drop_left' (length_u64le v), u64le,
    leNat_leBytes, hmod, UInt64.ofNat_toNat]

end Reader

end Galdralag
