import Galdralag.Hal
import Mathlib.Algebra.Field.Basic
import Mathlib.Logic.Equiv.Defs

/-!
# Shamir shares

Splitting a secret of 16 to 64 bytes into `n` shares with threshold `k`, and recovering it. Each
byte of the secret is the constant term of a polynomial of its own, whose other coefficients are
drawn from the random generator, and a share holds the value of every polynomial at its index.

The field comes from a library. It is a parameter: a field whose elements are written as bytes.

Every working vector has inline capacity. Shares fit into 255 places, coefficients and interpolation
points into 64.
-/

set_option linter.all false

namespace Galdralag.Vault

/-- The field with 256 elements, as a way to read a byte as a field element. -/
structure Gf256 (F : Type) [Field F] where
  equiv : UInt8 ≃ F
  equiv_zero : equiv 0 = 0
  equiv_one : equiv 1 = 1

/-- Errors from splitting and recovery. -/
inductive ShamirError where
  | insufficientShares
  | invalidShare (index : UInt8)
  | duplicateIndex (index : UInt8)
  | invalidParameters
  | trngFailure
  | secretTooShort
  | secretTooLong
  deriving DecidableEq, Repr

/-- A share: its index and its value, as long as the secret. -/
structure ShamirShare where
  index : UInt8
  value : Vec 64
  deriving DecidableEq

/-- Recovered secret bytes. -/
abbrev ShamirSecret := Vec 64

/-- Append to a vector of capacity `cap`. -/
def push {α : Type} (cap : ℕ) (xs : List α) (x : α) : Except ShamirError (List α) :=
  if xs.length < cap then .ok (xs ++ [x]) else .error .invalidParameters

/-- A value of `len` zero bytes. -/
def zeroValue (len : ℕ) : Except ShamirError (Vec 64) :=
  (Vec.ofBytes? (List.replicate len 0)).elim (.error .invalidParameters) .ok

/-- Overwrite the byte at `pos`. -/
def setByte (value : Vec 64) (pos : ℕ) (b : UInt8) : Vec 64 :=
  ⟨value.toBytes.set pos b, by rw [List.length_set]; exact value.length_le⟩

/-- Build a share from an index and raw bytes. -/
def ShamirShare.tryFromIndexValue (index : UInt8) (value : Bytes) :
    Except ShamirError ShamirShare :=
  if index = 0 then .error (.invalidShare index)
  else if ¬ (16 ≤ value.length ∧ value.length ≤ 64) then .error (.invalidShare index)
  else (Vec.ofBytes? value).elim (.error .invalidParameters) fun buf ↦ .ok ⟨index, buf⟩

variable {F T : Type} [Field F] (gf : Gf256 F) (trng : HardwareTrng T)

/-! ## Field arithmetic -/

/-- The field element of a share index. -/
def gfXForIndex (index : UInt8) : Except ShamirError F :=
  if index = 0 then .error (.invalidShare 0) else .ok (gf.equiv index)

/-- The value of a polynomial, lowest coefficient first. -/
def evalPoly (coeffs : List F) (x : F) : F :=
  (coeffs.foldl (fun s c ↦ (s.1 + c * s.2, s.2 * x)) (gf.equiv 0, gf.equiv 1)).1

/-- The inverse of a nonzero element. -/
def invert [DecidableEq F] (a : F) : Option F := if a = 0 then none else some a⁻¹

/-- Numerator and denominator of the weight of the `i`-th point. Addition is also subtraction. -/
def lagrangeTerm (xs : List F) (i : ℕ) : F × F :=
  (List.range xs.length).foldl (fun s j ↦
    if i = j then s
    else (s.1 * xs.getD j 0, s.2 * (xs.getD i 0 + xs.getD j 0))) (gf.equiv 1, gf.equiv 1)

/-- The value at zero of the polynomial through the points. -/
def lagrangeAtZero [DecidableEq F] (xs ys : List F) : Option F :=
  if xs.length ≠ ys.length ∨ xs.isEmpty then none
  else (List.range xs.length).foldlM (fun acc i ↦
    (invert (lagrangeTerm gf xs i).2).map fun inv ↦
      acc + ys.getD i 0 * ((lagrangeTerm gf xs i).1 * inv)) (gf.equiv 0)

/-! ## Splitting -/

/-- The bounds on the parameters of a split. -/
def validateSplitParams (secret : Bytes) (k n : UInt8) : Except ShamirError PUnit :=
  if secret.length < 16 then .error .secretTooShort
  else if secret.length > 64 then .error .secretTooLong
  else if k = 0 ∨ n = 0 then .error .invalidParameters
  else if k > n then .error .invalidParameters
  else if n.toNat > 255 then .error .invalidParameters
  else .ok ⟨⟩

/-- The indices of `n` shares. -/
def indices (n : UInt8) : List UInt8 := (List.range n.toNat).map fun i ↦ .ofNat (i + 1)

/-- Shares with zero values. -/
def newShares (len : ℕ) (n : UInt8) : Except ShamirError (List ShamirShare) :=
  (indices n).foldlM (fun shares idx ↦ do
    let value ← zeroValue len
    push 255 shares ⟨idx, value⟩) []

/-- Draw `m` further coefficients. -/
def drawCoeffs : ℕ → List F → Fallible T ShamirError (List F)
  | 0, coeffs => pure coeffs
  | m + 1, coeffs => do
    let b ← .mapError (fun _ ↦ .trngFailure) (trng.tryFillBytes 1)
    let coeffs ← .lift (push 64 coeffs (gf.equiv (b.toBytes.headD 0)))
    drawCoeffs m coeffs

/-- Write the value of one polynomial into the shares with numbers `1` to `n`. -/
def fillByte (coeffs : List F) (bytePos : ℕ) (n : UInt8) (shares : List ShamirShare) :
    Except ShamirError (List ShamirShare) :=
  (List.range n.toNat).foldlM (fun shares i ↦ do
    let x ← gfXForIndex gf (.ofNat (i + 1))
    let entry ← shares[i]?.elim (.error .invalidParameters) .ok
    let value := setByte entry.value bytePos (gf.equiv.symm (evalPoly gf coeffs x))
    pure (shares.set i { entry with value := value })) shares

/-- Share the bytes of a secret from position `bytePos` on. -/
def splitBytes (k n : UInt8) : ℕ → Bytes → List ShamirShare →
    Fallible T ShamirError (List ShamirShare)
  | _, [], shares => pure shares
  | bytePos, sb :: rest, shares => do
    let coeffs ← .lift (push 64 [] (gf.equiv sb))
    let coeffs ← drawCoeffs gf trng (k.toNat - 1) coeffs
    let shares ← .lift (fillByte gf coeffs bytePos n shares)
    splitBytes k n (bytePos + 1) rest shares

/-- Split `secret` into `n` shares with threshold `k`. -/
def shamirSplit (secret : Bytes) (k n : UInt8) : Fallible T ShamirError (List ShamirShare) := do
  .lift (validateSplitParams secret k n)
  let shares ← .lift (newShares secret.length n)
  splitBytes gf trng k n 0 secret shares

/-! ## Recovery -/

/-- No index is zero or occurs twice; `seen` holds the indices so far. -/
def checkIndices : List UInt8 → List ShamirShare → Except ShamirError PUnit
  | _, [] => .ok ⟨⟩
  | seen, s :: rest =>
    if s.index = 0 then .error (.invalidShare s.index)
    else if s.index ∈ seen then .error (.duplicateIndex s.index)
    else checkIndices (s.index :: seen) rest

/-- The common length of the values. -/
def valueLength (shares : List ShamirShare) : Except ShamirError ℕ :=
  match shares.head? with
  | none => .error .insufficientShares
  | some first =>
    if ¬ (16 ≤ first.value.length ∧ first.value.length ≤ 64) then .error (.invalidShare first.index)
    else match shares.find? fun s ↦ s.value.length ≠ first.value.length with
      | some s => .error (.invalidShare s.index)
      | none => .ok first.value.length

/-- One pass over the first `m` adjacent pairs, swapping those out of order. -/
def sortPass : ℕ → List ShamirShare → List ShamirShare
  | m + 1, a :: b :: rest =>
    if a.index > b.index then b :: sortPass m (a :: rest) else a :: sortPass m (b :: rest)
  | _, shares => shares

/-- Sort by index, one pass for each element. -/
def sortSharesByIndex (shares : List ShamirShare) : List ShamirShare :=
  (List.range shares.length).foldl (fun l i ↦ sortPass (shares.length - 1 - i) l) shares

/-- Collect shares into a vector of capacity 255. -/
def collectShares (shares : List ShamirShare) : Except ShamirError (List ShamirShare) :=
  shares.foldlM (push 255) []

/-- The interpolation points of one byte position. -/
def pointsAt (chosen : List ShamirShare) (bytePos : ℕ) : Except ShamirError (List F × List F) :=
  chosen.foldlM (fun points sh ↦ do
    let x ← gfXForIndex gf sh.index
    let xs ← push 64 points.1 x
    let ys ← push 64 points.2 (gf.equiv (sh.value.toBytes.getD bytePos 0))
    pure (xs, ys)) ([], [])

/-- Recover one byte of the secret. -/
def recoverByte [DecidableEq F] (chosen : List ShamirShare) (bytePos : ℕ) : Except ShamirError UInt8 := do
  let points ← pointsAt gf chosen bytePos
  let s ← (lagrangeAtZero gf points.1 points.2).elim (.error (.invalidShare 0)) .ok
  pure (gf.equiv.symm s)

/-- The shares that are interpolated: the `k` with the lowest indices. -/
def chooseShares (shares : List ShamirShare) (k : UInt8) :
    Except ShamirError (List ShamirShare) := do
  let sorted ← collectShares shares
  let chosen ← collectShares ((sortSharesByIndex sorted).take k.toNat)
  if chosen.length < k.toNat then .error .insufficientShares else .ok chosen

/-- Recover the secret from at least `k` shares. -/
def shamirRecover [DecidableEq F] (shares : List ShamirShare) (k : UInt8) :
    Except ShamirError ShamirSecret :=
  if k = 0 then .error .invalidParameters
  else if shares.length < k.toNat then .error .insufficientShares
  else do
    checkIndices [] shares
    let len ← valueLength shares
    let chosen ← chooseShares shares k
    let out ← zeroValue len
    (List.range len).foldlM (fun out bytePos ↦ do
      let b ← recoverByte gf chosen bytePos
      pure (setByte out bytePos b)) out

end Galdralag.Vault
