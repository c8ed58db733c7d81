import Galdralag.Foundation.Bytes

/-!
# HMAC and HKDF

HMAC turns a hash with blocks of `b` bytes into a keyed function: the key becomes one block, and the
message is hashed behind the block combined with one constant, the result behind the block combined
with another. HKDF (RFC 5869) derives key material from a keyed function: a key is extracted from
the input and then expanded. The expansion is a chain of blocks,

  `T(0) = ""`, `T(i + 1) = prf prk (T(i) ‖ info ‖ i + 1)`,

whose number is a single byte, so that at most `255` blocks exist; the output is the start of
`T(1) ‖ T(2) ‖ …` (`stream`). An output is therefore a prefix of every longer one (`derive_prefix`).
-/

set_option linter.all false

namespace Galdralag

/-! ## HMAC -/

section Hmac

variable {n : ℕ} (H : Bytes → Block n) (b : ℕ)

/-- The key as one block of the hash: hashed first when it is longer than a block, and padded with
zeros. -/
def hmacKey (key : Bytes) : Bytes :=
  let short := if b < key.length then (H key).toBytes else key
  short ++ List.replicate (b - short.length) 0

/-- HMAC with the hash `H`, which works on blocks of `b` bytes. -/
def hmac (key data : Bytes) : Block n :=
  H ((hmacKey H b key).map (· ^^^ 0x5c) ++
    (H ((hmacKey H b key).map (· ^^^ 0x36) ++ data)).toBytes)

end Hmac

/-! ## HKDF -/

namespace Hkdf

variable {n : ℕ} (prf : Bytes → Bytes → Block n)

/-- The block `T(i)` of the expansion. -/
def block (prk info : Bytes) : ℕ → Bytes
  | 0 => []
  | i + 1 => (prf prk (block prk info i ++ info ++ [UInt8.ofNat (i + 1)])).toBytes

/-- The first `k` blocks, `T(1) ‖ … ‖ T(k)`. -/
def stream (prk info : Bytes) : ℕ → Bytes
  | 0 => []
  | k + 1 => stream prk info k ++ block prf prk info (k + 1)

/-- HKDF-Expand: `length` bytes from as many blocks as they need, of which there are at most 255. -/
def expand (prk info : Bytes) (length : ℕ) : Option Bytes :=
  if length ≤ 255 * n then some ((stream prf prk info ((length + n - 1) / n)).take length) else none

/-- HKDF: extract a key from `ikm` under `salt`, then expand it. -/
def derive (ikm salt info : Bytes) (length : ℕ) : Option Bytes :=
  expand prf (prf salt ikm).toBytes info length

variable (prk info : Bytes)

@[simp] theorem length_stream (k : ℕ) : (stream prf prk info k).length = k * n := by
  induction k with
  | zero => rw [stream, List.length_nil, Nat.zero_mul]
  | succ k ih => rw [stream, block, List.length_append, Block.length_toBytes, ih, Nat.succ_mul]

/-- More blocks only add at the end. -/
theorem stream_prefix {k m : ℕ} (h : k ≤ m) : stream prf prk info k <+: stream prf prk info m := by
  induction h with
  | refl => exact List.prefix_rfl
  | step _ ih => exact ih.trans (List.prefix_append _ _)

/-- As many bytes as the first `k` blocks hold come from these blocks. -/
theorem take_stream {k m length : ℕ} (hk : length ≤ k * n) (hm : length ≤ m * n) :
    (stream prf prk info k).take length = (stream prf prk info m).take length := by
  have hle : ∀ {i j : ℕ}, i ≤ j → length ≤ i * n →
      (stream prf prk info i).take length = (stream prf prk info j).take length := by
    intro i j hij hi
    obtain ⟨more, hmore⟩ := stream_prefix prf prk info hij
    rw [← hmore, List.take_append_of_le_length (by rw [length_stream]; exact hi)]
  rcases Nat.le_total k m with h | h
  · exact hle h hk
  · exact (hle h hm).symm

/-- The number of blocks of an expansion is enough. -/
theorem length_le_blocks (hn : 0 < n) (length : ℕ) : length ≤ (length + n - 1) / n * n := by
  have hmod := Nat.div_add_mod (length + n - 1) n
  have hlt := Nat.mod_lt (length + n - 1) hn
  rw [Nat.mul_comm] at hmod
  omega

/-- An expansion is the start of any stream that is long enough. -/
theorem expand_eq_some (hn : 0 < n) {k length : ℕ} (hlength : length ≤ 255 * n)
    (hk : length ≤ k * n) :
    expand prf prk info length = some ((stream prf prk info k).take length) := by
  rw [expand, if_pos hlength, take_stream prf prk info (length_le_blocks hn length) hk]

/-- **An output is a prefix of every longer one.** -/
theorem derive_prefix (hn : 0 < n) {ikm salt short long : Bytes} {s l : ℕ} (hsl : s ≤ l)
    (hshort : derive prf ikm salt info s = some short)
    (hlong : derive prf ikm salt info l = some long) : short <+: long := by
  have hl : l ≤ 255 * n := by
    by_contra h
    rw [derive, expand, if_neg h] at hlong
    cases hlong
  have hs : s ≤ 255 * n := Nat.le_trans hsl hl
  rw [derive, expand_eq_some prf _ info hn hs hs] at hshort
  rw [derive, expand_eq_some prf _ info hn hl hl] at hlong
  rw [← Option.some.inj hshort, ← Option.some.inj hlong]
  exact List.take_prefix_take_left hsl

end Hkdf

end Galdralag
