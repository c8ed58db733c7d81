import Galdralag.Foundation.Bytes

/-!
# Counter mode and appended tags

Counter mode turns a function on counters into a stream cipher: the outputs on successive counters,
one after the other, are the key stream, and a message is combined with it byte by byte. The code
runs block after block (`ctrXor`); read as one combination with a key stream (`ctrXor_eq`), the
cipher keeps lengths and undoes itself.

A tag is appended behind the bytes it protects. A receiver cuts off the last bytes and compares;
`untag_eq_some` says that what passes is exactly a body followed by its tag.
-/

set_option linter.all false

namespace Galdralag

/-! ## Combining byte strings -/

/-- The bytes of `bs`, each combined with the byte of `ks` at its place. -/
def xorBytes (bs ks : Bytes) : Bytes := List.zipWith (· ^^^ ·) bs ks

@[simp] theorem length_xorBytes (bs ks : Bytes) :
    (xorBytes bs ks).length = min bs.length ks.length := List.length_zipWith

/-- Combining twice with the same bytes changes nothing. -/
theorem xorBytes_xorBytes {bs ks : Bytes} (h : bs.length ≤ ks.length) :
    xorBytes (xorBytes bs ks) ks = bs := by
  induction bs generalizing ks with
  | nil => rfl
  | cons b bs ih =>
    cases ks with
    | nil =>
      rw [List.length_cons, List.length_nil] at h
      omega
    | cons k ks =>
      have htail : xorBytes (xorBytes bs ks) ks = bs := ih (Nat.le_of_succ_le_succ h)
      have hhead : b ^^^ k ^^^ k = b := by rw [UInt8.xor_assoc, UInt8.xor_self, UInt8.xor_zero]
      change (b ^^^ k ^^^ k) :: xorBytes (xorBytes bs ks) ks = b :: bs
      rw [hhead, htail]

/-- Combining with a concatenation goes piece by piece. -/
theorem xorBytes_append (bs ks ls : Bytes) :
    xorBytes bs (ks ++ ls) = xorBytes (bs.take ks.length) ks ++ xorBytes (bs.drop ks.length) ls := by
  induction ks generalizing bs with
  | nil => rfl
  | cons k ks ih =>
    cases bs with
    | nil => rfl
    | cons b bs =>
      have htail := ih bs
      change (b ^^^ k) :: xorBytes bs (ks ++ ls) =
        (b ^^^ k) :: (xorBytes (bs.take ks.length) ks ++ xorBytes (bs.drop ks.length) ls)
      rw [htail]

/-! ## Counter mode -/

section CounterMode

variable {κ : Type} {n : ℕ} (enc : κ → Block n) (next : κ → κ)

/-- The outputs on `k` successive counters. -/
def keystream : ℕ → κ → Bytes
  | 0, _ => []
  | k + 1, ctr => (enc ctr).toBytes ++ keystream k (next ctr)

/-- Run over `k` blocks of `bs`, each combined with the output on its counter. -/
def ctrBlocks : ℕ → κ → Bytes → Bytes
  | 0, _, _ => []
  | k + 1, ctr, bs =>
    xorBytes (bs.take n) (enc ctr).toBytes ++ ctrBlocks k (next ctr) (bs.drop n)

/-- Run over all blocks of `bs`, the last of which may be short. -/
def ctrXor (ctr : κ) (bs : Bytes) : Bytes := ctrBlocks enc next ((bs.length + n - 1) / n) ctr bs

@[simp] theorem length_keystream (k : ℕ) (ctr : κ) : (keystream enc next k ctr).length = k * n := by
  induction k generalizing ctr with
  | zero => rw [keystream, List.length_nil, Nat.zero_mul]
  | succ k ih => rw [keystream, List.length_append, Block.length_toBytes, ih, Nat.succ_mul, Nat.add_comm]

/-- Block by block is one combination with the key stream. -/
theorem ctrBlocks_eq (k : ℕ) (ctr : κ) (bs : Bytes) :
    ctrBlocks enc next k ctr bs = xorBytes bs (keystream enc next k ctr) := by
  induction k generalizing ctr bs with
  | zero => exact (List.zipWith_nil_right).symm
  | succ k ih => rw [ctrBlocks, keystream, ih, xorBytes_append, Block.length_toBytes]

variable {enc next}

theorem length_le_blocks (hn : 0 < n) (bs : Bytes) : bs.length ≤ (bs.length + n - 1) / n * n := by
  have hmod := Nat.div_add_mod (bs.length + n - 1) n
  have hlt := Nat.mod_lt (bs.length + n - 1) hn
  rw [Nat.mul_comm] at hmod
  omega

@[simp] theorem length_ctrXor (hn : 0 < n) (ctr : κ) (bs : Bytes) :
    (ctrXor enc next ctr bs).length = bs.length := by
  rw [ctrXor, ctrBlocks_eq, length_xorBytes, length_keystream]
  exact Nat.min_eq_left (length_le_blocks hn bs)

/-- **Counter mode undoes itself.** -/
theorem ctrXor_ctrXor (hn : 0 < n) (ctr : κ) (bs : Bytes) :
    ctrXor enc next ctr (ctrXor enc next ctr bs) = bs := by
  have hlen : (ctrXor enc next ctr bs).length = bs.length := length_ctrXor hn ctr bs
  rw [ctrXor, hlen, ctrXor, ctrBlocks_eq, ctrBlocks_eq]
  refine xorBytes_xorBytes ?_
  rw [length_keystream]
  exact length_le_blocks hn bs

end CounterMode

/-! ## Appended tags -/

section Tags

variable {t : ℕ} (tag : Bytes → Block t)

/-- A body followed by its tag. -/
def tagged (body : Bytes) : Bytes := body ++ (tag body).toBytes

/-- The body, when the bytes behind it are its tag. -/
def untag (bs : Bytes) : Option Bytes :=
  if bs.length < t then none
  else if (tag (bs.take (bs.length - t))).toBytes = bs.drop (bs.length - t) then
    some (bs.take (bs.length - t))
  else none

@[simp] theorem length_tagged (body : Bytes) : (tagged tag body).length = body.length + t := by
  rw [tagged, List.length_append, Block.length_toBytes]

variable {tag} {bs body : Bytes}

/-- **What passes the check** is exactly a body followed by its tag. -/
theorem untag_eq_some : untag tag bs = some body ↔ bs = tagged tag body := by
  constructor
  · intro h
    rw [untag] at h
    split_ifs at h with hlen htag
    rw [← Option.some.inj h, tagged, htag, List.take_append_drop]
  · rintro rfl
    have hlen : (tagged tag body).length - t = body.length := by rw [length_tagged]; omega
    have htake : (tagged tag body).take body.length = body := List.take_left
    have hdrop : (tagged tag body).drop body.length = (tag body).toBytes := List.drop_left
    have hge : ¬ (tagged tag body).length < t := by rw [length_tagged]; omega
    rw [untag, if_neg hge, hlen, htake, hdrop, if_pos rfl]

end Tags

end Galdralag
