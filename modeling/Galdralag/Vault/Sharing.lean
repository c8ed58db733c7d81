import Galdralag.Vault.Shamir
import Galdralag.Foundation.SecretSharing
import Mathlib.Data.Fintype.EquivFin

/-!
# What splitting and recovery compute

Over draws that do not fail, a split with a threshold of at most 64 yields the values of the sharing
polynomials at the indices from one up, and with a higher threshold it fails for want of room.
Recovery from well formed shares yields the weighted sums of their values.
-/

set_option linter.all false

namespace Galdralag

/-- From `t`, byte after byte, the generator yields `bs` and ends in `t'`. -/
def HardwareTrng.Draws {T : Type} (trng : HardwareTrng T) : T → Bytes → T → Prop
  | t, [], t' => t = t'
  | t, b :: bs, t' => ∃ t₁, trng.tryFillBytes 1 t = (.ok (.ofBytes 1 [b]), t₁) ∧ Draws trng t₁ bs t'

theorem HardwareTrng.Draws.concat {T : Type} {trng : HardwareTrng T} {bs cs : Bytes} {t t₁ t' : T}
    (hbs : trng.Draws t bs t₁) (hcs : trng.Draws t₁ cs t') : trng.Draws t (bs ++ cs) t' := by
  induction bs generalizing t with
  | nil =>
    obtain rfl : t = t₁ := hbs
    exact hcs
  | cons b bs ih =>
    obtain ⟨t₂, hb, hbs⟩ := hbs
    exact ⟨t₂, hb, ih hbs⟩

theorem Block.eq_ofBytes_one (b : Block 1) : b = .ofBytes 1 [b.toBytes.headD 0] := by
  obtain ⟨x, hx⟩ := List.length_eq_one_iff.mp b.length_toBytes
  have hblock : (Block.ofBytes 1 [x]).toBytes = [x] := Block.toBytes_ofBytes rfl
  refine Block.ext (hx.trans ?_)
  rw [hx]
  exact hblock.symm

theorem HardwareTrng.Draws.append {T : Type} {trng : HardwareTrng T} {bs cs : Bytes} {t t' : T}
    (h : trng.Draws t (bs ++ cs) t') : ∃ t₁, trng.Draws t bs t₁ ∧ trng.Draws t₁ cs t' := by
  induction bs generalizing t with
  | nil => exact ⟨t, rfl, h⟩
  | cons b bs ih =>
    obtain ⟨t₁, hb, h⟩ := h
    obtain ⟨t₂, hbs, hcs⟩ := ih h
    exact ⟨t₂, ⟨t₁, hb, hbs⟩, hcs⟩

namespace Vault

/-! ## Loops over positions -/

section Loops

variable {α ε : Type}

/-- A loop that changes the entry at each position in turn changes every entry. -/
theorem foldlM_modify (g : List α → ℕ → Except ε (List α)) (f : ℕ → α → α) (l : List α)
    (h : ∀ i < l.length, ∀ l', l'.length = l.length → g l' i = .ok (l'.modify i (f i))) :
    (List.range l.length).foldlM g l = .ok (l.mapIdx f) := by
  have htaken : ∀ m ≤ l.length, (List.range m).foldlM g l
      = .ok (l.mapIdx fun i a ↦ if i < m then f i a else a) := by
    intro m hm
    induction m with
    | zero =>
      refine congrArg Except.ok (List.ext_getElem? fun i ↦ ?_)
      simp
    | succ m ih =>
      rw [List.range_succ, List.foldlM_append, ih (by omega), ok_bind, List.foldlM_cons,
        h m hm _ (List.length_mapIdx)]
      refine congrArg Except.ok (List.ext_getElem? fun i ↦ ?_)
      rw [List.getElem?_modify, List.getElem?_mapIdx, List.getElem?_mapIdx]
      rcases l[i]? with _ | a
      · simp
      · rcases Nat.lt_trichotomy i m with hi | rfl | hi
        · simp [hi, Nat.ne_of_gt hi, Nat.lt_succ_of_lt hi]
        · simp
        · simp [Nat.not_lt_of_gt hi, Nat.ne_of_lt hi, show ¬ i < m + 1 by omega]
  rw [htaken l.length (Nat.le_refl _)]
  refine congrArg Except.ok (List.ext_getElem? fun i ↦ ?_)
  rw [List.getElem?_mapIdx, List.getElem?_mapIdx]
  rcases hi : l[i]? with _ | a
  · rfl
  · rw [Option.map_some, Option.map_some, if_pos (List.getElem?_eq_some_iff.mp hi).1]

/-- Collecting within the capacity keeps everything. -/
theorem foldlM_push {cap : ℕ} (xs acc : List α) (h : acc.length + xs.length ≤ cap) :
    xs.foldlM (push cap) acc = .ok (acc ++ xs) := by
  induction xs generalizing acc with
  | nil => rw [List.foldlM_nil, List.append_nil]; rfl
  | cons x xs ih =>
    rw [List.length_cons] at h
    rw [List.foldlM_cons, push, if_pos (by omega)]
    change xs.foldlM (push cap) (acc ++ [x]) = _
    rw [ih _ (by rw [List.length_append, List.length_singleton]; omega), List.append_assoc]
    rfl

end Loops

variable {F T : Type} [Field F] {gf : Gf256 F} {trng : HardwareTrng T}

/-! ## The field -/

/-- A field with 256 elements has characteristic two. -/
theorem Gf256.add_self (gf : Gf256 F) (a : F) : a + a = 0 := by
  have hbytes : UInt8 ≃ Fin 256 := ⟨UInt8.toFin, UInt8.ofFin, fun _ ↦ rfl, fun _ ↦ rfl⟩
  have hcard : Nat.card F = 2 ^ 8 := by
    rw [← Nat.card_congr gf.equiv, Nat.card_congr hbytes, Nat.card_eq_fintype_card, Fintype.card_fin]
    rfl
  have hpow : (2 : F) ^ 8 = 0 := by
    have h := card_nsmul_eq_zero' (x := (1 : F))
    rw [hcard, nsmul_one] at h
    exact_mod_cast h
  rw [← two_mul, pow_eq_zero_iff (by decide)] at *
  rw [hpow, zero_mul]

theorem Gf256.add_eq_sub (gf : Gf256 F) (a b : F) : a + b = b - a := by
  rw [eq_sub_iff_add_eq, add_right_comm, gf.add_self, zero_add]

/-! ## Polynomials -/

open SecretSharing

theorem foldl_evalPoly {m : ℕ} (cs : Fin m → F) (x acc xp : F) :
    ((List.ofFn cs).foldl (fun s c ↦ (s.1 + c * s.2, s.2 * x)) (acc, xp)).1
      = acc + ∑ j, cs j * (xp * x ^ j.val) := by
  induction m generalizing acc xp with
  | zero => simp
  | succ m ih =>
    rw [List.ofFn_succ, List.foldl_cons, ih, Fin.sum_univ_succ, add_assoc]
    congr 2
    · rw [Fin.val_zero, pow_zero, mul_one]
    · refine Finset.sum_congr rfl fun j _ ↦ ?_
      rw [Fin.val_succ, pow_succ', mul_assoc]

/-- The polynomial of a split takes the value of a share. -/
theorem evalPoly_ofFn {m : ℕ} (secret : F) (cs : Fin m → F) (x : F) :
    evalPoly gf (secret :: List.ofFn cs) x = share secret cs x := by
  rw [evalPoly, List.foldl_cons, foldl_evalPoly, gf.equiv_zero, gf.equiv_one, zero_add, mul_one,
    one_mul, share]
  refine congrArg _ (Finset.sum_congr rfl fun j _ ↦ ?_)
  rw [pow_succ']

theorem lagrangeTerm_eq (xs : List F) (i : ℕ) : lagrangeTerm gf xs i =
    (∏ j ∈ (Finset.range xs.length).erase i, xs.getD j 0,
      ∏ j ∈ (Finset.range xs.length).erase i, (xs.getD i 0 + xs.getD j 0)) := by
  have hloop : ∀ n, (List.range n).foldl (fun (s : F × F) j ↦
      if i = j then s
      else (s.1 * xs.getD j 0, s.2 * (xs.getD i 0 + xs.getD j 0))) (1, 1)
      = (∏ j ∈ (Finset.range n).erase i, xs.getD j 0,
        ∏ j ∈ (Finset.range n).erase i, (xs.getD i 0 + xs.getD j 0)) := by
    intro n
    induction n with
    | zero => simp
    | succ n ih =>
      rw [List.range_succ, List.foldl_append, ih, List.foldl_cons, List.foldl_nil,
        Finset.range_add_one]
      by_cases hin : i = n
      · subst hin
        rw [if_pos rfl, Finset.erase_insert Finset.notMem_range_self,
          Finset.erase_eq_of_notMem Finset.notMem_range_self]
      · have hn : n ∉ (Finset.range n).erase i := fun h ↦
          Finset.notMem_range_self (Finset.mem_of_mem_erase h)
        rw [if_neg hin, Finset.erase_insert_of_ne (Ne.symm hin), Finset.prod_insert hn,
          Finset.prod_insert hn, mul_comm, mul_comm (∏ j ∈ _, (_ + _))]
  rw [lagrangeTerm, gf.equiv_one, hloop]

/-- Interpolation at distinct points is a weighted sum of the values. -/
theorem lagrangeAtZero_eq [DecidableEq F] {xs ys : List F} (hlen : xs.length = ys.length) (hne : xs ≠ [])
    (hnodup : xs.Nodup) : lagrangeAtZero gf xs ys = some (∑ i ∈ Finset.range xs.length,
      ys.getD i 0 * weight (Finset.range xs.length) (fun j ↦ xs.getD j 0) i) := by
  have hden : ∀ i < xs.length, (lagrangeTerm gf xs i).2 ≠ 0 := by
    intro i hi
    rw [lagrangeTerm_eq]
    change ∏ j ∈ (Finset.range xs.length).erase i, (xs.getD i 0 + xs.getD j 0) ≠ 0
    refine Finset.prod_ne_zero_iff.mpr fun j hj ↦ ?_
    obtain ⟨hji, hj⟩ := Finset.mem_erase.mp hj
    rw [Finset.mem_range] at hj
    rw [gf.add_eq_sub, sub_ne_zero, List.getD_eq_getElem _ _ hi, List.getD_eq_getElem _ _ hj]
    exact fun h ↦ hji ((hnodup.getElem_inj_iff).mp h)
  have hterm : ∀ i, (lagrangeTerm gf xs i).1 * ((lagrangeTerm gf xs i).2)⁻¹
      = weight (Finset.range xs.length) (fun j ↦ xs.getD j 0) i := by
    intro i
    rw [lagrangeTerm_eq, weight]
    simp only [gf.add_eq_sub]
  have hloop : ∀ n ≤ xs.length, (List.range n).foldlM (fun acc i ↦
      (invert (lagrangeTerm gf xs i).2).map fun inv ↦
        acc + ys.getD i 0 * ((lagrangeTerm gf xs i).1 * inv)) 0
      = some (∑ i ∈ Finset.range n,
        ys.getD i 0 * weight (Finset.range xs.length) (fun j ↦ xs.getD j 0) i) := by
    intro n hn
    induction n with
    | zero => rfl
    | succ n ih =>
      rw [List.range_succ, List.foldlM_append, ih (by omega), Finset.sum_range_succ, Option.bind_eq_bind,
        Option.bind_some, List.foldlM_cons, invert, if_neg (hden n hn), Option.map_some, hterm]
      rfl
  rw [lagrangeAtZero, if_neg, gf.equiv_zero, hloop _ (Nat.le_refl _)]
  rw [not_or, not_not]
  exact ⟨hlen, by rwa [List.isEmpty_iff]⟩

/-! ## Runs of a split -/

/-- The share of one byte at an index. -/
def shareByte (gf : Gf256 F) {m : ℕ} (sb : UInt8) (cs : Fin m → UInt8) (index : UInt8) : UInt8 :=
  gf.equiv.symm (share (gf.equiv sb) (fun j ↦ gf.equiv (cs j)) (gf.equiv index))

/-- The share of a secret at an index, given the drawn coefficients of each byte. -/
def shareOf (gf : Gf256 F) {m : ℕ} (secret : Bytes) (rows : List (Fin m → UInt8))
    (index : UInt8) : ShamirShare :=
  ⟨index, .truncated (List.zipWith (fun sb cs ↦ shareByte gf sb cs index) secret rows)⟩

/-- The bytes of the drawn coefficients, in the order of the draws. -/
def drawn {m : ℕ} (rows : List (Fin m → UInt8)) : Bytes := (rows.map fun cs ↦ List.ofFn cs).flatten

theorem mem_indices {n index : UInt8} : index ∈ indices n ↔ index ≠ 0 ∧ index ≤ n := by
  rw [indices, List.mem_map]
  constructor
  · rintro ⟨i, hi, rfl⟩
    rw [List.mem_range] at hi
    have hn := n.toNat_lt
    have hnat : (UInt8.ofNat (i + 1)).toNat = i + 1 := by
      rw [UInt8.toNat_ofNat']
      omega
    refine ⟨fun h ↦ ?_, UInt8.le_iff_toNat_le.mpr (by omega)⟩
    rw [h] at hnat
    exact Nat.succ_ne_zero i hnat.symm
  · rintro ⟨h0, hle⟩
    have hpos : index.toNat ≠ 0 := fun h ↦ h0 (UInt8.toNat_inj.mp h)
    have hle := UInt8.le_iff_toNat_le.mp hle
    refine ⟨index.toNat - 1, List.mem_range.mpr (by omega), ?_⟩
    rw [Nat.sub_add_cancel (Nat.one_le_iff_ne_zero.mpr hpos), UInt8.ofNat_toNat]

theorem length_indices (n : UInt8) : (indices n).length = n.toNat := by
  rw [indices, List.length_map, List.length_range]

theorem zeroValue_eq {len : ℕ} (h : len ≤ 64) :
    zeroValue len = .ok (.truncated (List.replicate len 0)) := by
  rw [zeroValue, Vec.ofBytes?_of_le (by rwa [List.length_replicate])]
  rfl

theorem newShares_eq {len : ℕ} (h : len ≤ 64) (n : UInt8) : newShares len n
    = .ok ((indices n).map fun idx ↦ ⟨idx, .truncated (List.replicate len 0)⟩) := by
  have hpush : ((indices n).map fun idx ↦
      (⟨idx, .truncated (List.replicate len 0)⟩ : ShamirShare)).foldlM (push 255) []
      = .ok ((indices n).map fun idx ↦ ⟨idx, .truncated (List.replicate len 0)⟩) := by
    refine foldlM_push _ [] ?_
    have hn := n.toNat_lt
    rw [List.length_map, length_indices, List.length_nil]
    omega
  rw [List.foldlM_map] at hpush
  rw [newShares, zeroValue_eq h]
  exact hpush

variable (gf) in
theorem drawCoeffs_run {bs : Bytes} {t t' : T} (h : trng.Draws t bs t') (coeffs : List F)
    (hcap : coeffs.length + bs.length ≤ 64) :
    drawCoeffs gf trng bs.length coeffs t = (.ok (coeffs ++ bs.map gf.equiv), t') := by
  induction bs generalizing t coeffs with
  | nil =>
    obtain rfl := h
    rw [List.map_nil, List.append_nil]
    rfl
  | cons b bs ih =>
    obtain ⟨t₁, hb, h⟩ := h
    rw [List.length_cons] at hcap ⊢
    have hdraw : (Fallible.mapError (fun _ ↦ .trngFailure) (trng.tryFillBytes 1) :
        Fallible T ShamirError _) t = (.ok (.ofBytes 1 [b]), t₁) := Fallible.mapError_eq_ok.mpr hb
    rw [drawCoeffs, Fallible.bind_of_ok hdraw, push, if_pos (by omega)]
    change drawCoeffs gf trng bs.length (coeffs ++ [gf.equiv b]) t₁ = _
    rw [ih h _ (by rw [List.length_append, List.length_singleton]; omega), List.append_assoc]
    rfl

variable (gf) in
/-- More coefficients than there is room for. -/
theorem drawCoeffs_full {bs : Bytes} {t t' : T} (h : trng.Draws t bs t') (coeffs : List F)
    (hlen : coeffs.length ≤ 64) (hcap : 64 < coeffs.length + bs.length) :
    (drawCoeffs gf trng bs.length coeffs t).1 = .error .invalidParameters := by
  induction bs generalizing t coeffs with
  | nil =>
    rw [List.length_nil] at hcap
    omega
  | cons b bs ih =>
    obtain ⟨t₁, hb, h⟩ := h
    rw [List.length_cons] at hcap ⊢
    have hdraw : (Fallible.mapError (fun _ ↦ .trngFailure) (trng.tryFillBytes 1) :
        Fallible T ShamirError _) t = (.ok (.ofBytes 1 [b]), t₁) := Fallible.mapError_eq_ok.mpr hb
    rw [drawCoeffs, Fallible.bind_of_ok hdraw, push]
    split_ifs with hroom
    · refine ih h _ ?_ ?_ <;> rw [List.length_append, List.length_singleton] <;> omega
    · rfl

theorem fillByte_eq {m : ℕ} (sb : UInt8) (cs : Fin m → UInt8) (pos : ℕ) (n : UInt8)
    (value : UInt8 → Vec 64) :
    fillByte gf (gf.equiv sb :: (List.ofFn cs).map gf.equiv) pos n
        ((indices n).map fun idx ↦ ⟨idx, value idx⟩)
      = .ok ((indices n).map fun idx ↦
        ⟨idx, setByte (value idx) pos (shareByte gf sb cs idx)⟩) := by
  have hlen : ((indices n).map fun idx ↦ (⟨idx, value idx⟩ : ShamirShare)).length = n.toNat := by
    rw [List.length_map, length_indices]
  have hn := n.toNat_lt
  rw [fillByte, ← hlen, foldlM_modify _ fun i s ↦ { s with
    value := setByte s.value pos (shareByte gf sb cs (.ofNat (i + 1))) }]
  · refine congrArg Except.ok (List.ext_getElem? fun i ↦ ?_)
    rw [List.getElem?_mapIdx, List.getElem?_map, List.getElem?_map, Option.map_map, indices,
      List.getElem?_map, Option.map_map, Option.map_map]
    rcases hi : (List.range n.toNat)[i]? with _ | j
    · rfl
    · obtain ⟨hlt, rfl⟩ := List.getElem?_eq_some_iff.mp hi
      rw [List.getElem_range]
      rfl
  · intro i hi l hl
    have hx : gfXForIndex gf (.ofNat (i + 1)) = .ok (gf.equiv (.ofNat (i + 1))) := by
      have hnat : (UInt8.ofNat (i + 1)).toNat = i + 1 := by
        rw [UInt8.toNat_ofNat']
        omega
      rw [gfXForIndex, if_neg fun h ↦ ?_]
      rw [h] at hnat
      exact Nat.succ_ne_zero i hnat.symm
    have hil : i < l.length := by omega
    have hpoly : gf.equiv.symm (evalPoly gf (gf.equiv sb :: List.ofFn (gf.equiv ∘ cs))
        (gf.equiv (.ofNat (i + 1)))) = shareByte gf sb cs (.ofNat (i + 1)) := by
      rw [evalPoly_ofFn]
      rfl
    rw [hx, List.map_ofFn, List.getElem?_eq_getElem hil, List.modify_eq_set_getElem?,
      List.getElem?_eq_getElem hil, ← hpoly]
    rfl

theorem toBytes_setByte (value : Vec 64) (pos : ℕ) (b : UInt8) :
    (setByte value pos b).toBytes = value.toBytes.set pos b := rfl

/-- The first `done.length` bytes of a share are written, and the next one is. -/
theorem setByte_next (done : Bytes) (len : ℕ) (b : UInt8) (h : done.length + (len + 1) ≤ 64) :
    setByte (.truncated (done ++ List.replicate (len + 1) 0)) done.length b
      = .truncated (done ++ [b] ++ List.replicate len 0) := by
  refine Subtype.ext ?_
  change (setByte _ _ _).toBytes = (Vec.truncated _ : Vec 64).toBytes
  rw [toBytes_setByte, Vec.toBytes_truncated, Vec.toBytes_truncated, List.replicate_succ,
    List.set_append_right _ _ (Nat.le_refl _), Nat.sub_self, List.set_cons_zero, List.append_assoc]
  · rfl
  · simp only [List.length_append, List.length_singleton, List.length_replicate]
    omega
  · simp only [List.length_append, List.length_replicate]
    omega

section Runs

variable {k n : UInt8} {rest : Bytes} {rows : List (Fin (k.toNat - 1) → UInt8)} {t t' : T}

theorem splitBytes_run (hk : k.toNat ≤ 64) (hrows : rows.length = rest.length)
    (h : trng.Draws t (drawn rows) t') (pos : ℕ) (done : UInt8 → Bytes)
    (hdone : ∀ idx, (done idx).length = pos) (hcap : pos + rest.length ≤ 64) :
    splitBytes gf trng k n pos rest ((indices n).map fun idx ↦
        ⟨idx, .truncated (done idx ++ List.replicate rest.length 0)⟩) t
      = (.ok ((indices n).map fun idx ↦ ⟨idx, .truncated (done idx ++
        List.zipWith (fun sb cs ↦ shareByte gf sb cs idx) rest rows)⟩), t') := by
  induction rest generalizing rows t pos done with
  | nil =>
    obtain rfl := List.length_eq_zero_iff.mp hrows
    obtain rfl : t = t' := h
    rfl
  | cons sb rest ih =>
    rcases rows with _ | ⟨cs, rows⟩
    · cases hrows
    rw [drawn, List.map_cons, List.flatten_cons] at h
    obtain ⟨t₁, hcs, h⟩ := h.append
    rw [List.length_cons] at hcap
    have hrow : (List.ofFn cs).length = k.toNat - 1 := List.length_ofFn
    have hdraw := drawCoeffs_run gf hcs [gf.equiv sb] (by
      rw [hrow, List.length_singleton]
      omega)
    rw [hrow] at hdraw
    rw [splitBytes]
    change (drawCoeffs gf trng (k.toNat - 1) [gf.equiv sb] >>= _ : Fallible T ShamirError _) t = _
    rw [Fallible.bind_of_ok hdraw, List.singleton_append, fillByte_eq]
    change splitBytes gf trng k n (pos + 1) rest _ t₁ = _
    have hset : ∀ idx, setByte (.truncated (done idx ++ List.replicate (rest.length + 1) 0)) pos
        (shareByte gf sb cs idx)
          = .truncated (done idx ++ [shareByte gf sb cs idx] ++ List.replicate rest.length 0) := by
      intro idx
      rw [← hdone idx]
      refine setByte_next _ _ _ ?_
      rw [hdone idx]
      omega
    simp only [List.length_cons, hset]
    rw [ih (Nat.succ.inj hrows) h (pos + 1) (fun idx ↦ done idx ++ [shareByte gf sb cs idx])
      (fun idx ↦ by rw [List.length_append, hdone idx, List.length_singleton]) (by omega)]
    simp only [List.zipWith_cons_cons, List.append_assoc, List.singleton_append]

/-- The parameters a split accepts. -/
def ValidSplit (secret : Bytes) (k n : UInt8) : Prop :=
  16 ≤ secret.length ∧ secret.length ≤ 64 ∧ 1 ≤ k ∧ k ≤ n

theorem validateSplitParams_ok {secret : Bytes} (h : ValidSplit secret k n) :
    validateSplitParams secret k n = .ok ⟨⟩ := by
  obtain ⟨hmin, hmax, hk, hkn⟩ := h
  have hk' := UInt8.le_iff_toNat_le.mp hk
  have hkn' := UInt8.le_iff_toNat_le.mp hkn
  have hn := n.toNat_lt
  have h0 : ∀ x : UInt8, 1 ≤ x.toNat → x ≠ 0 := by
    rintro x hx rfl
    exact Nat.not_succ_le_zero 0 hx
  have h1 : (1 : UInt8).toNat = 1 := rfl
  rw [validateSplitParams, if_neg (by omega), if_neg (by omega), if_neg, if_neg (UInt8.not_lt.mpr hkn),
    if_neg (by omega)]
  rw [not_or]
  exact ⟨h0 k (by omega), h0 n (by omega)⟩

/-- **A split yields the values of the sharing polynomials**, up to a threshold of 64. -/
theorem shamirSplit_run {secret : Bytes} (hvalid : ValidSplit secret k n) (hk : k.toNat ≤ 64)
    (hrows : rows.length = secret.length) (h : trng.Draws t (drawn rows) t') :
    shamirSplit gf trng secret k n t
      = (.ok ((indices n).map (shareOf gf secret rows)), t') := by
  have hlen : secret.length ≤ 64 := hvalid.2.1
  rw [shamirSplit, validateSplitParams_ok hvalid, newShares_eq hlen]
  exact splitBytes_run hk hrows h 0 (fun _ ↦ []) (fun _ ↦ rfl) (by omega)

/-- Above it, a split fails. -/
theorem shamirSplit_full {secret : Bytes} (hvalid : ValidSplit secret k n) (hk : 64 < k.toNat)
    (hrows : rows.length = secret.length) (h : trng.Draws t (drawn rows) t') :
    (shamirSplit gf trng secret k n t).1 = .error .invalidParameters := by
  obtain ⟨hmin, hmax, -, -⟩ := id hvalid
  rw [shamirSplit, validateSplitParams_ok hvalid, newShares_eq hmax]
  change (splitBytes gf trng k n 0 secret _ t).1 = _
  rcases secret with _ | ⟨sb, rest⟩
  · cases hmin
  rcases rows with _ | ⟨cs, rows⟩
  · cases hrows
  rw [drawn, List.map_cons, List.flatten_cons] at h
  obtain ⟨t₁, hcs, -⟩ := h.append
  have hrow : (List.ofFn cs).length = k.toNat - 1 := List.length_ofFn
  have hdraw := drawCoeffs_full gf hcs [gf.equiv sb] (Nat.one_le_of_lt (by decide : 1 < 64)) (by
    rw [hrow, List.length_singleton]
    omega)
  rw [hrow] at hdraw
  rw [splitBytes]
  change ((drawCoeffs gf trng (k.toNat - 1) [gf.equiv sb] >>= _ : Fallible T ShamirError _) t).1 = _
  rcases hrun : drawCoeffs gf trng (k.toNat - 1) [gf.equiv sb] t with ⟨r, t₂⟩
  rw [hrun] at hdraw
  obtain rfl : r = .error .invalidParameters := hdraw
  rw [Fallible.bind_of_error hrun]

end Runs

/-! ## Splits that succeed -/

theorem validSplit_of_ok {secret : Bytes} {k n : UInt8}
    (h : validateSplitParams secret k n = .ok ⟨⟩) : ValidSplit secret k n := by
  rw [validateSplitParams] at h
  split_ifs at h with hmin hmax hzero hlt hn
  have hzero := not_or.mp hzero
  refine ⟨by omega, by omega, UInt8.le_iff_toNat_le.mpr ?_, UInt8.not_lt.mp hlt⟩
  exact Nat.one_le_iff_ne_zero.mpr fun h ↦ hzero.1 (UInt8.toNat_inj.mp h)

theorem draws_of_drawCoeffs {m : ℕ} {coeffs cs : List F} {t t' : T}
    (h : drawCoeffs gf trng m coeffs t = (.ok cs, t')) :
    ∃ row : Fin m → UInt8, trng.Draws t (List.ofFn row) t' := by
  induction m generalizing coeffs t with
  | zero => exact ⟨Fin.elim0, (Prod.mk.inj h).2⟩
  | succ m ih =>
    rw [drawCoeffs] at h
    obtain ⟨b, t₁, hb, h⟩ := Fallible.bind_eq_ok.mp h
    obtain ⟨coeffs', t₂, hpush, h⟩ := Fallible.bind_eq_ok.mp h
    obtain rfl : t₁ = t₂ := (Prod.mk.inj hpush).2
    obtain ⟨row, hrow⟩ := ih h
    refine ⟨Fin.cons (b.toBytes.headD 0) row, ?_⟩
    rw [List.ofFn_succ]
    exact ⟨t₁, b.eq_ofBytes_one ▸ Fallible.mapError_eq_ok.mp hb, hrow⟩

theorem draws_of_splitBytes {k n : UInt8} {rest : Bytes} {pos : ℕ} {shares shares' : List ShamirShare}
    {t t' : T} (h : splitBytes gf trng k n pos rest shares t = (.ok shares', t')) :
    ∃ rows : List (Fin (k.toNat - 1) → UInt8), rows.length = rest.length ∧
      trng.Draws t (drawn rows) t' := by
  induction rest generalizing pos shares t with
  | nil => exact ⟨[], rfl, (Prod.mk.inj h).2⟩
  | cons sb rest ih =>
    rw [splitBytes] at h
    obtain ⟨coeffs, t₁, hpush, h⟩ := Fallible.bind_eq_ok.mp h
    obtain rfl : t = t₁ := (Prod.mk.inj hpush).2
    obtain ⟨cs, t₂, hdraw, h⟩ := Fallible.bind_eq_ok.mp h
    obtain ⟨shares₁, t₃, hfill, h⟩ := Fallible.bind_eq_ok.mp h
    obtain rfl : t₂ = t₃ := (Prod.mk.inj hfill).2
    obtain ⟨row, hrow⟩ := draws_of_drawCoeffs hdraw
    obtain ⟨rows, hlen, hrows⟩ := ih h
    refine ⟨row :: rows, congrArg (· + 1) hlen, ?_⟩
    rw [drawn, List.map_cons, List.flatten_cons]
    exact hrow.concat hrows

/-- Where a split succeeds, its shares are values of sharing polynomials. -/
theorem shamirSplit_ok {secret : Bytes} {k n : UInt8} {t : T} {shares : List ShamirShare}
    (h : (shamirSplit gf trng secret k n t).1 = .ok shares) :
    ValidSplit secret k n ∧ k.toNat ≤ 64 ∧ ∃ rows : List (Fin (k.toNat - 1) → UInt8),
      rows.length = secret.length ∧ shares = (indices n).map (shareOf gf secret rows) := by
  have hrun := Fallible.eq_ok_of_fst h
  rw [shamirSplit] at hrun
  obtain ⟨u, t₁, hv, hrun⟩ := Fallible.bind_eq_ok.mp hrun
  obtain rfl : t = t₁ := (Prod.mk.inj hv).2
  obtain ⟨zeros, t₂, hz, hrun⟩ := Fallible.bind_eq_ok.mp hrun
  obtain rfl : t = t₂ := (Prod.mk.inj hz).2
  obtain ⟨rows, hrows, hdraws⟩ := draws_of_splitBytes hrun
  have hvalid := validSplit_of_ok (Prod.mk.inj hv).1
  have hk : k.toNat ≤ 64 := by
    by_contra hk
    rw [shamirSplit_full hvalid (Nat.lt_of_not_le hk) hrows hdraws] at h
    cases h
  refine ⟨hvalid, hk, rows, hrows, ?_⟩
  rw [shamirSplit_run hvalid hk hrows hdraws] at h
  exact (Except.ok.inj h).symm

/-! ## Recovery -/

theorem checkIndices_ok {seen : List UInt8} {shares : List ShamirShare}
    (hidx : ∀ s ∈ shares, s.index ≠ 0) (hnodup : (shares.map ShamirShare.index).Nodup)
    (hseen : ∀ s ∈ shares, s.index ∉ seen) : checkIndices seen shares = .ok ⟨⟩ := by
  induction shares generalizing seen with
  | nil => rfl
  | cons s rest ih =>
    rw [List.map_cons, List.nodup_cons] at hnodup
    rw [checkIndices, if_neg (hidx s List.mem_cons_self), if_neg (hseen s List.mem_cons_self)]
    refine ih (fun r hr ↦ hidx r (List.mem_cons_of_mem s hr)) hnodup.2 fun r hr hmem ↦ ?_
    rcases List.mem_cons.mp hmem with heq | hmem
    · exact hnodup.1 (heq ▸ List.mem_map_of_mem hr)
    · exact hseen r (List.mem_cons_of_mem s hr) hmem

theorem nodup_of_checkIndices {seen : List UInt8} {shares : List ShamirShare}
    (h : checkIndices seen shares = .ok ⟨⟩) : (shares.map ShamirShare.index).Nodup ∧
      ∀ s ∈ shares, s.index ∉ seen := by
  induction shares generalizing seen with
  | nil => exact ⟨List.nodup_nil, fun _ h ↦ absurd h List.not_mem_nil⟩
  | cons s rest ih =>
    rw [checkIndices] at h
    split_ifs at h with hzero hseen
    obtain ⟨hnodup, hrest⟩ := ih h
    refine ⟨List.nodup_cons.mpr ⟨fun hmem ↦ ?_, hnodup⟩, fun r hr ↦ ?_⟩
    · obtain ⟨r, hr, heq⟩ := List.mem_map.mp hmem
      exact hrest r hr (heq ▸ List.mem_cons_self)
    · rcases List.mem_cons.mp hr with rfl | hr
      · exact hseen
      · exact fun hmem ↦ hrest r hr (List.mem_cons_of_mem s.index hmem)

theorem valueLength_ok {shares : List ShamirShare} {len : ℕ} (hne : shares ≠ [])
    (hlen : ∀ s ∈ shares, s.value.length = len) (hmin : 16 ≤ len) (hmax : len ≤ 64) :
    valueLength shares = .ok len := by
  rcases shares with _ | ⟨first, rest⟩
  · exact absurd rfl hne
  have hfirst := hlen first List.mem_cons_self
  have hfind : (first :: rest).find? (fun s ↦ decide (s.value.length ≠ first.value.length)) = none := by
    refine List.find?_eq_none.mpr fun s hs ↦ ?_
    rw [hlen s hs, hfirst]
    simp
  rw [valueLength, List.head?_cons]
  dsimp only
  rw [if_neg (by rw [hfirst]; exact not_not_intro ⟨hmin, hmax⟩), hfind, hfirst]

theorem sortPass_perm (m : ℕ) (shares : List ShamirShare) :
    (sortPass m shares).Perm shares := by
  induction m generalizing shares with
  | zero => rw [sortPass]; exact fun _ _ _ _ h ↦ by cases h
  | succ m ih =>
    rcases shares with _ | ⟨a, _ | ⟨b, rest⟩⟩
    · rfl
    · rfl
    · rw [sortPass]
      split_ifs
      · exact ((ih (a :: rest)).cons b).trans (List.Perm.swap a b rest)
      · exact (ih (b :: rest)).cons a

/-- Sorting only reorders. -/
theorem sortSharesByIndex_perm (shares : List ShamirShare) :
    (sortSharesByIndex shares).Perm shares := by
  have hloop : ∀ (is : List ℕ) l, (is.foldl (fun l i ↦ sortPass (shares.length - 1 - i) l) l).Perm l := by
    intro is
    induction is with
    | nil => exact fun l ↦ List.Perm.refl l
    | cons i is ih => exact fun l ↦ (ih _).trans (sortPass_perm _ l)
  exact hloop _ shares

/-- Shares that can be interpolated: distinct nonzero indices, and values of one accepted length. -/
structure WellFormed (shares : List ShamirShare) (len : ℕ) : Prop where
  index_ne_zero : ∀ s ∈ shares, s.index ≠ 0
  nodup : (shares.map ShamirShare.index).Nodup
  length_value : ∀ s ∈ shares, s.value.length = len

theorem WellFormed.length_le {shares : List ShamirShare} {len : ℕ} (h : WellFormed shares len) :
    shares.length ≤ 255 := by
  have hsub : shares.map ShamirShare.index ⊆ indices 255 := by
    intro i hi
    obtain ⟨s, hs, rfl⟩ := List.mem_map.mp hi
    exact mem_indices.mpr ⟨h.index_ne_zero s hs, UInt8.le_iff_toNat_le.mpr (by
      have hlt := s.index.toNat_lt
      have h255 : (255 : UInt8).toNat = 255 := rfl
      omega)⟩
  have hle := (h.nodup.subperm hsub).length_le
  rwa [List.length_map, length_indices] at hle

theorem WellFormed.sublist_perm {shares taken : List ShamirShare} {len : ℕ}
    (h : WellFormed shares len) (hsub : taken.Subperm shares) : WellFormed taken len where
  index_ne_zero s hs := h.index_ne_zero s (hsub.subset hs)
  nodup := by
    obtain ⟨l, hperm, hsub⟩ := hsub
    exact (hperm.map _).nodup_iff.mp ((hsub.map _).nodup h.nodup)
  length_value s hs := h.length_value s (hsub.subset hs)

/-- The shares that are interpolated. -/
def chosenShares (shares : List ShamirShare) (k : UInt8) : List ShamirShare :=
  (sortSharesByIndex shares).take k.toNat

theorem chosenShares_subperm (shares : List ShamirShare) (k : UInt8) :
    (chosenShares shares k).Subperm shares :=
  (List.take_sublist _ _).subperm.trans (sortSharesByIndex_perm shares).subperm

theorem length_chosenShares {shares : List ShamirShare} {k : UInt8} (h : k.toNat ≤ shares.length) :
    (chosenShares shares k).length = k.toNat := by
  rw [chosenShares, List.length_take, (sortSharesByIndex_perm shares).length_eq, Nat.min_eq_left h]

theorem chooseShares_ok {shares : List ShamirShare} {k : UInt8} (h : k.toNat ≤ shares.length)
    (hmax : shares.length ≤ 255) : chooseShares shares k = .ok (chosenShares shares k) := by
  have hk := length_chosenShares h
  have hcollect : ∀ l : List ShamirShare, l.length ≤ 255 → collectShares l = .ok l := fun l hl ↦
    foldlM_push l [] (by rw [List.length_nil]; omega)
  rw [chooseShares, hcollect shares hmax]
  change collectShares (chosenShares shares k) >>= _ = _
  rw [hcollect _ (by omega)]
  change (if (chosenShares shares k).length < k.toNat then _ else _) = _
  rw [if_neg (by omega)]

/-- The interpolation points of a byte position. -/
def pointsOf (gf : Gf256 F) (chosen : List ShamirShare) (pos : ℕ) : List F × List F :=
  (chosen.map fun s ↦ gf.equiv s.index, chosen.map fun s ↦ gf.equiv (s.value.toBytes.getD pos 0))

theorem pointsAt_step (points : List F × List F) {s : ShamirShare} (hs : s.index ≠ 0) (pos : ℕ)
    (hlen : points.1.length = points.2.length) :
    (do
      let x ← gfXForIndex gf s.index
      let xs ← push 64 points.1 x
      let ys ← push 64 points.2 (gf.equiv (s.value.toBytes.getD pos 0))
      pure (xs, ys) : Except ShamirError (List F × List F))
      = if points.1.length < 64 then .ok (points.1 ++ [gf.equiv s.index],
          points.2 ++ [gf.equiv (s.value.toBytes.getD pos 0)])
        else .error .invalidParameters := by
  rw [gfXForIndex, if_neg hs]
  change (push 64 points.1 (gf.equiv s.index) >>= _) = _
  rw [push, push, ← hlen]
  split_ifs <;> rfl

theorem pointsAt_eq {chosen : List ShamirShare} (hidx : ∀ s ∈ chosen, s.index ≠ 0) (pos : ℕ) :
    pointsAt gf chosen pos = if chosen.length ≤ 64 then .ok (pointsOf gf chosen pos)
      else .error .invalidParameters := by
  have hloop : ∀ (rest : List ShamirShare) (points : List F × List F),
      (∀ s ∈ rest, s.index ≠ 0) → points.1.length = points.2.length → points.1.length ≤ 64 →
      rest.foldlM (fun points sh ↦ do
        let x ← gfXForIndex gf sh.index
        let xs ← push 64 points.1 x
        let ys ← push 64 points.2 (gf.equiv (sh.value.toBytes.getD pos 0))
        pure (xs, ys)) points
      = if points.1.length + rest.length ≤ 64 then .ok (points.1 ++ (pointsOf gf rest pos).1,
          points.2 ++ (pointsOf gf rest pos).2)
        else .error .invalidParameters := by
    intro rest
    induction rest with
    | nil =>
      intro points _ _ hroom
      rw [if_pos (by rwa [List.length_nil, Nat.add_zero])]
      simp only [pointsOf, List.map_nil, List.append_nil]
      rfl
    | cons s rest ih =>
      intro points hidx hlen hroom
      rw [List.foldlM_cons, pointsAt_step points (hidx s List.mem_cons_self) pos hlen]
      by_cases hlt : points.1.length < 64
      · rw [if_pos hlt]
        change rest.foldlM _ (points.1 ++ [gf.equiv s.index], points.2 ++ [_]) = _
        rw [ih _ (fun r hr ↦ hidx r (List.mem_cons_of_mem s hr))]
        · simp only [List.length_append, List.length_cons, List.length_nil, Nat.zero_add,
            Nat.add_assoc, Nat.add_comm 1, pointsOf, List.map_cons, List.append_assoc,
            List.singleton_append]
        · simp only [List.length_append, List.length_singleton, hlen]
        · simp only [List.length_append, List.length_singleton]
          omega
      · rw [if_neg hlt, if_neg (by rw [List.length_cons]; omega)]
        rfl
  have h := hloop chosen ([], []) hidx rfl (Nat.zero_le _)
  simp only [List.length_nil, Nat.zero_add, List.nil_append] at h
  exact h

variable [DecidableEq F]

/-- The byte that interpolation yields at a position. -/
def interpolated (gf : Gf256 F) (chosen : List ShamirShare) (pos : ℕ) : UInt8 :=
  gf.equiv.symm (∑ i ∈ Finset.range chosen.length, (pointsOf gf chosen pos).2.getD i 0
    * weight (Finset.range chosen.length) (fun j ↦ (pointsOf gf chosen pos).1.getD j 0) i)

theorem recoverByte_eq {chosen : List ShamirShare} {len : ℕ} (h : WellFormed chosen len)
    (hne : chosen ≠ []) (pos : ℕ) : recoverByte gf chosen pos
      = if chosen.length ≤ 64 then .ok (interpolated gf chosen pos)
        else .error .invalidParameters := by
  rw [recoverByte, pointsAt_eq h.index_ne_zero]
  by_cases hle : chosen.length ≤ 64
  · rw [if_pos hle, if_pos hle]
    have hxs : (pointsOf gf chosen pos).1.Nodup := by
      have hmap := h.nodup.map gf.equiv.injective
      rwa [List.map_map] at hmap
    have hlen : (pointsOf gf chosen pos).1.length = chosen.length := List.length_map _
    have hlen' : (pointsOf gf chosen pos).2.length = chosen.length := List.length_map _
    have hlag : lagrangeAtZero gf (pointsOf gf chosen pos).1 (pointsOf gf chosen pos).2 = _ :=
      lagrangeAtZero_eq (hlen.trans hlen'.symm) (by simpa [pointsOf] using hne) hxs
    rw [hlen] at hlag
    rw [ok_bind, hlag]
    rfl
  · rw [if_neg hle, if_neg hle]
    rfl

/-- **Recovery from well formed shares** interpolates those with the lowest indices. -/
theorem shamirRecover_run {shares : List ShamirShare} {len : ℕ} {k : UInt8}
    (h : WellFormed shares len) (hk : k ≠ 0) (hk64 : k.toNat ≤ 64) (hkl : k.toNat ≤ shares.length)
    (hmin : 16 ≤ len) (hmax : len ≤ 64) : shamirRecover gf shares k
      = .ok (.truncated ((List.range len).map (interpolated gf (chosenShares shares k)))) := by
  have hpos : 0 < k.toNat := Nat.pos_of_ne_zero fun h ↦ hk (UInt8.toNat_inj.mp h)
  have hne : shares ≠ [] := by
    rintro rfl
    rw [List.length_nil] at hkl
    omega
  have hchosen := h.sublist_perm (chosenShares_subperm shares k)
  have hlen := length_chosenShares hkl
  have hchosenne : chosenShares shares k ≠ [] := by
    intro hnil
    rw [hnil, List.length_nil] at hlen
    omega
  rw [shamirRecover, if_neg hk, if_neg (by omega),
    checkIndices_ok h.index_ne_zero h.nodup (fun _ _ ↦ List.not_mem_nil),
    valueLength_ok hne h.length_value hmin hmax, chooseShares_ok hkl h.length_le]
  change (zeroValue len >>= _) = _
  rw [zeroValue_eq hmax]
  change (List.range len).foldlM (fun out pos ↦ do
    let b ← recoverByte gf (chosenShares shares k) pos
    pure (setByte out pos b)) (.truncated (List.replicate len 0)) = _
  have hloop : ∀ m ≤ len, (List.range m).foldlM (fun out pos ↦ do
      let b ← recoverByte gf (chosenShares shares k) pos
      pure (setByte out pos b)) (.truncated (List.replicate len 0))
      = .ok (.truncated ((List.range m).map (interpolated gf (chosenShares shares k))
        ++ List.replicate (len - m) 0)) := by
    intro m hm
    induction m with
    | zero => rfl
    | succ m ih =>
      rw [List.range_succ, List.foldlM_append, ih (by omega), ok_bind, List.foldlM_cons,
        recoverByte_eq hchosen hchosenne, if_pos (by omega)]
      have hnext := setByte_next ((List.range m).map (interpolated gf (chosenShares shares k)))
        (len - (m + 1)) (interpolated gf (chosenShares shares k) m) (by
          rw [List.length_map, List.length_range]
          omega)
      rw [List.length_map, List.length_range, show len - (m + 1) + 1 = len - m by omega] at hnext
      rw [List.map_append, List.map_singleton, ← hnext]
      rfl
  rw [hloop len (Nat.le_refl _), Nat.sub_self, List.replicate_zero, List.append_nil]

/-- Recovery succeeds only on enough shares with distinct indices. -/
theorem shamirRecover_ok {shares : List ShamirShare} {k : UInt8} {out : ShamirSecret}
    (h : shamirRecover gf shares k = .ok out) :
    k.toNat ≤ shares.length ∧ (shares.map ShamirShare.index).Nodup := by
  rw [shamirRecover] at h
  split_ifs at h with hk hlen
  refine ⟨Nat.le_of_not_lt hlen, ?_⟩
  rcases hcheck : checkIndices [] shares with e | u
  · rw [hcheck, error_bind] at h
    cases h
  · exact (nodup_of_checkIndices hcheck).1

end Vault

end Galdralag
