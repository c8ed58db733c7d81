import Galdralag.Foundation.Hkdf
import Galdralag.Cipher.Cascade

/-!
# Key derivation with BLAKE3

The keys of the built-in profiles come out of a loop: as long as bytes are missing, the last block,
the label and a counter are hashed under the extracted key, and the result is appended. The counter
is one byte that wraps around. The loop is HKDF over HMAC with BLAKE3 (`expandLoop_eq`): before its
`i`-th round the output is the first `i` blocks of the expansion, the last block is `T(i)` and the
counter is `i + 1`. An output of at most `255` blocks never sees the counter wrap.

The derivation that the layers use (`hkdfBlake3`) counts its blocks beforehand and is the same
function (`hkdfBlake3_eq_loop`).
-/

set_option linter.all false

namespace Galdralag.Cipher

variable (P : Primitives)

/-- The rounds of `hkdf_blake3`: the output so far, the last block and the counter. -/
def expandLoop (prk : Block 32) (info : Bytes) (length : ℕ) (okm t : Bytes) (counter : UInt8) :
    Bytes :=
  if okm.length < length then
    let t := (hmacBlake3 P prk.toBytes (t ++ info ++ [counter])).toBytes
    expandLoop prk info length (okm ++ t) t (counter + 1)
  else okm.take length
termination_by length - okm.length
decreasing_by
  rw [List.length_append, Block.length_toBytes]
  omega

/-- `hkdf_blake3` as the source runs it. -/
def hkdfBlake3Loop (ikm salt info : Bytes) (length : ℕ) : Bytes :=
  let salt := if salt.isEmpty then List.replicate 32 0 else salt
  expandLoop P (hmacBlake3 P salt ikm) info length [] [] 1

/-! ## HMAC -/

/-- The key block of the code is the one of HMAC. -/
theorem toBytes_normalizeHmacKey (key : Bytes) :
    (normalizeHmacKey P key).toBytes = hmacKey P.blake3 64 key := by
  rw [normalizeHmacKey, hmacKey]
  split_ifs with h
  · have htake : (P.blake3 key).toBytes.take 64 = (P.blake3 key).toBytes :=
      List.take_of_length_le (by rw [Block.length_toBytes]; decide)
    change (P.blake3 key).toBytes.take 64 ++ _ = _
    rw [htake]
  · have htake : key.take 64 = key := List.take_of_length_le (by omega)
    change key.take 64 ++ _ = _
    rw [htake]

theorem hmacBlake3_eq (key data : Bytes) : hmacBlake3 P key data = hmac P.blake3 64 key data := by
  rw [hmacBlake3, hmac, toBytes_normalizeHmacKey]

/-! ## The rounds -/

/-- The expansion over HMAC with BLAKE3. -/
def blake3Stream (prk : Block 32) (info : Bytes) (k : ℕ) : Bytes :=
  Hkdf.stream (hmac P.blake3 64) prk.toBytes info k

def blake3Block (prk : Block 32) (info : Bytes) (i : ℕ) : Bytes :=
  Hkdf.block (hmac P.blake3 64) prk.toBytes info i

variable (prk : Block 32) (info : Bytes)

@[simp] theorem length_blake3Stream (k : ℕ) : (blake3Stream P prk info k).length = k * 32 :=
  Hkdf.length_stream _ _ _ k

/-- One round appends the next block. -/
theorem round_eq (i : ℕ) :
    (hmacBlake3 P prk.toBytes (blake3Block P prk info i ++ info ++ [UInt8.ofNat (i + 1)])).toBytes
      = blake3Block P prk info (i + 1) := by
  rw [hmacBlake3_eq]
  rfl

theorem counter_succ (i : ℕ) : UInt8.ofNat (i + 1) + 1 = UInt8.ofNat (i + 1 + 1) :=
  (UInt8.ofNat_add (i + 1) 1).symm

/-- **The loop**, from its `i`-th round on, returns the start of the expansion. -/
theorem expandLoop_eq {length m : ℕ} (hm : length ≤ m * 32) (k : ℕ) :
    ∀ i, i + k = m → expandLoop P prk info length (blake3Stream P prk info i)
      (blake3Block P prk info i) (UInt8.ofNat (i + 1)) = (blake3Stream P prk info m).take length := by
  induction k with
  | zero =>
    intro i hi
    obtain rfl : i = m := hi
    rw [expandLoop, if_neg (by rw [length_blake3Stream]; omega)]
  | succ k ih =>
    intro i hi
    rw [expandLoop]
    split_ifs with hmore
    · have hnext : blake3Stream P prk info i ++ blake3Block P prk info (i + 1) =
          blake3Stream P prk info (i + 1) := rfl
      dsimp only
      rw [round_eq, hnext, counter_succ]
      exact ih (i + 1) (by omega)
    · rw [length_blake3Stream] at hmore
      exact Hkdf.take_stream _ _ _ (by omega) hm

/-- The blocks counted beforehand are the same blocks. -/
theorem stream_append_expandBlocks (k : ℕ) : ∀ i, blake3Stream P prk info i ++
    expandBlocks P prk info k (blake3Block P prk info i) (UInt8.ofNat (i + 1)) =
      blake3Stream P prk info (i + k) := by
  induction k with
  | zero => exact fun i ↦ List.append_nil _
  | succ k ih =>
    intro i
    have hnext : blake3Stream P prk info i ++ blake3Block P prk info (i + 1) =
      blake3Stream P prk info (i + 1) := rfl
    have hsum : i + (k + 1) = i + 1 + k := by omega
    rw [expandBlocks]
    rw [round_eq, counter_succ, ← List.append_assoc, hnext, ih, hsum]

/-- The derivation of the layers is the loop. -/
theorem hkdfBlake3_eq_loop (ikm salt info : Bytes) (length : ℕ) :
    hkdfBlake3 P ikm salt info length = hkdfBlake3Loop P ikm salt info length := by
  set prk := hmacBlake3 P (if salt.isEmpty then List.replicate 32 0 else salt) ikm with hprk
  have hblocks : length ≤ (length + 31) / 32 * 32 := by omega
  have hcounted : expandBlocks P prk info ((length + 31) / 32) [] 1 =
      blake3Stream P prk info (0 + (length + 31) / 32) := stream_append_expandBlocks P prk info _ 0
  have hloop : expandLoop P prk info length [] [] 1 = _ :=
    expandLoop_eq P prk info hblocks ((length + 31) / 32) 0 (Nat.zero_add _)
  rw [hkdfBlake3, hkdfBlake3Loop]
  rw [← hprk, hcounted, hloop, Nat.zero_add]

theorem derive_eq_some {length : ℕ} (hlength : length ≤ 255 * 32) (ikm salt info : Bytes) :
    Hkdf.derive (hmac P.blake3 64) ikm (if salt.isEmpty then List.replicate 32 0 else salt) info
      length = some (hkdfBlake3Loop P ikm salt info length) := by
  set key := if salt.isEmpty then List.replicate 32 0 else salt with hkey
  have hloop : expandLoop P (hmacBlake3 P key ikm) info length [] [] 1 = _ :=
    expandLoop_eq P (hmacBlake3 P key ikm) info hlength 255 0 (Nat.zero_add _)
  have hderive := Hkdf.expand_eq_some (hmac P.blake3 64) (hmacBlake3 P key ikm).toBytes info
    (by decide) hlength hlength
  rw [Hkdf.derive, hkdfBlake3Loop]
  rw [← hkey, hloop, ← hmacBlake3_eq, hderive]
  rfl

/-- **Key derivation is RFC 5869**: an output of at most `255` blocks has the requested length, is
what HKDF over HMAC with BLAKE3 derives, an empty salt read as zeros, and starts with every shorter
output. -/
theorem hkdfBlake3_is_hkdf (P : Primitives) (ikm salt info : Bytes) {length : ℕ}
    (hlength : length ≤ 255 * 32) :
    (hkdfBlake3Loop P ikm salt info length).length = length ∧
      Hkdf.derive (hmac P.blake3 64) ikm (if salt.isEmpty then List.replicate 32 0 else salt) info
        length = some (hkdfBlake3Loop P ikm salt info length) ∧
      ∀ shorter ≤ length,
        hkdfBlake3Loop P ikm salt info shorter <+: hkdfBlake3Loop P ikm salt info length := by
  refine ⟨?_, derive_eq_some P hlength ikm salt info, fun shorter hshorter ↦ ?_⟩
  · rw [← hkdfBlake3_eq_loop, length_hkdfBlake3]
  · have hless : shorter ≤ 255 * 32 := Nat.le_trans hshorter hlength
    exact Hkdf.derive_prefix _ _ (by decide) hshorter (derive_eq_some P hless ikm salt info)
      (derive_eq_some P hlength ikm salt info)

/-- Three blocks and four bytes, under a hash that returns the start of its input. -/
theorem hkdfBlake3_is_hkdf_hundred :
    (hkdfBlake3Loop { benchPrimitives with blake3 := .ofBytes 32 } [1] [] [2] 100).length = 100 :=
  (hkdfBlake3_is_hkdf { benchPrimitives with blake3 := .ofBytes 32 } [1] [] [2]
    (by decide : 100 ≤ 255 * 32)).1

end Galdralag.Cipher
