import Galdralag.Vault.Sharing
import Galdralag.Foundation.ByteField

/-!
# A split secret is recovered

Any `k` shares of a split with threshold `k` hold the values of the sharing polynomials at `k`
distinct points, so interpolation returns the secret, whatever was drawn and in whatever order the
shares are given. The bound is the capacity of the coefficient vector: the documented range of
thresholds goes up to 255, but a split with a threshold above 64 fails.
-/

set_option linter.all false

namespace Galdralag

/-- The generator never fails. -/
def HardwareTrng.Supplies {T : Type} (trng : HardwareTrng T) : Prop :=
  ∀ n t, ∃ b t', trng.tryFillBytes n t = (.ok b, t')

theorem HardwareTrng.Supplies.draws {T : Type} {trng : HardwareTrng T} (h : trng.Supplies) (m : ℕ)
    (t : T) : ∃ (cs : Fin m → UInt8) (t' : T), trng.Draws t (List.ofFn cs) t' := by
  induction m generalizing t with
  | zero => exact ⟨Fin.elim0, t, rfl⟩
  | succ m ih =>
    obtain ⟨b, t₁, hb⟩ := h 1 t
    obtain ⟨cs, t', hcs⟩ := ih t₁
    refine ⟨Fin.cons (b.toBytes.headD 0) cs, t', ?_⟩
    rw [List.ofFn_succ]
    exact ⟨t₁, b.eq_ofBytes_one ▸ hb, hcs⟩

namespace Vault

open SecretSharing

variable {F T : Type} [Field F] {gf : Gf256 F} {trng : HardwareTrng T}

theorem exists_rows (h : trng.Supplies) (m len : ℕ) (t : T) :
    ∃ (rows : List (Fin m → UInt8)) (t' : T), rows.length = len ∧ trng.Draws t (drawn rows) t' := by
  induction len generalizing t with
  | zero => exact ⟨[], t, rfl, rfl⟩
  | succ len ih =>
    obtain ⟨cs, t₁, hcs⟩ := h.draws m t
    obtain ⟨rows, t', hlen, hrows⟩ := ih t₁
    refine ⟨cs :: rows, t', congrArg (· + 1) hlen, ?_⟩
    rw [drawn, List.map_cons, List.flatten_cons]
    exact hcs.concat hrows

section Shares

variable {m : ℕ} {secret : Bytes} {rows : List (Fin m → UInt8)} (hmax : secret.length ≤ 64)
  (hrows : rows.length = secret.length)
include hmax hrows

theorem toBytes_shareOf (index : UInt8) : (shareOf gf secret rows index).value.toBytes
    = List.zipWith (fun sb cs ↦ shareByte gf sb cs index) secret rows :=
  Vec.toBytes_truncated (by rw [List.length_zipWith, hrows, Nat.min_self]; exact hmax)

theorem length_shareOf (index : UInt8) : (shareOf gf secret rows index).value.length
    = secret.length := by
  rw [Vec.length, toBytes_shareOf hmax hrows, List.length_zipWith, hrows, Nat.min_self]

theorem getD_shareOf (index : UInt8) {pos : ℕ} (hpos : pos < secret.length) :
    (shareOf gf secret rows index).value.toBytes.getD pos 0
      = shareByte gf secret[pos] (rows.get ⟨pos, hrows ▸ hpos⟩) index := by
  rw [toBytes_shareOf hmax hrows, List.getD_eq_getElem _ _ (by
    rw [List.length_zipWith, hrows, Nat.min_self]
    exact hpos), List.getElem_zipWith]
  rfl

variable [DecidableEq F]

/-- Interpolation through enough shares of one split returns the byte of the secret. -/
theorem interpolated_shareOf {chosen : List ShamirShare}
    (hshares : ∀ s ∈ chosen, s = shareOf gf secret rows s.index)
    (hnodup : (chosen.map ShamirShare.index).Nodup) (hm : m < chosen.length) {pos : ℕ}
    (hpos : pos < secret.length) : interpolated gf chosen pos = secret[pos] := by
  set cs := rows.get ⟨pos, hrows ▸ hpos⟩
  have hx : ∀ i ∈ Finset.range chosen.length, ∃ s ∈ chosen,
      (pointsOf gf chosen pos).1.getD i 0 = gf.equiv s.index ∧
        (pointsOf gf chosen pos).2.getD i 0
          = share (gf.equiv secret[pos]) (fun j ↦ gf.equiv (cs j)) (gf.equiv s.index) := by
    intro i hi
    rw [Finset.mem_range] at hi
    refine ⟨chosen[i], List.getElem_mem hi, ?_, ?_⟩
    · simp [pointsOf, hi]
    · have hbyte : (shareOf gf secret rows chosen[i].index).value.toBytes.getD pos 0
          = shareByte gf secret[pos] cs chosen[i].index := getD_shareOf hmax hrows _ hpos
      rw [← hshares _ (List.getElem_mem hi)] at hbyte
      have hget : (pointsOf gf chosen pos).2.getD i 0
          = gf.equiv (chosen[i].value.toBytes.getD pos 0) := by simp [pointsOf, hi]
      rw [hget, hbyte, shareByte, Equiv.apply_symm_apply]
  have hinj : Set.InjOn (fun j ↦ (pointsOf gf chosen pos).1.getD j 0)
      (Finset.range chosen.length) := by
    intro i hi j hj h
    rw [Finset.coe_range, Set.mem_Iio] at hi hj
    have hmap : ((chosen.map ShamirShare.index).map gf.equiv).Nodup := hnodup.map gf.equiv.injective
    rw [List.map_map] at hmap
    have hlen : ∀ {i}, i < chosen.length → i < (pointsOf gf chosen pos).1.length := fun hi ↦ by
      rw [pointsOf, List.length_map]
      exact hi
    change (pointsOf gf chosen pos).1.getD i 0 = (pointsOf gf chosen pos).1.getD j 0 at h
    rw [List.getD_eq_getElem _ _ (hlen hi), List.getD_eq_getElem _ _ (hlen hj)] at h
    exact (hmap.getElem_inj_iff).mp h
  have hrec := reconstruct hinj (gf.equiv secret[pos]) (fun j ↦ gf.equiv (cs j))
    (by rwa [Finset.card_range])
  rw [interpolated, Equiv.symm_apply_eq, ← hrec]
  refine Finset.sum_congr rfl fun i hi ↦ ?_
  obtain ⟨s, -, hxi, hyi⟩ := hx i hi
  rw [hyi, hxi]

end Shares

variable [DecidableEq F]

/-- Every list of at least `k` of the shares with distinct indices recovers the secret. -/
def Recovers (gf : Gf256 F) (k : UInt8) (secret : Bytes) (shares : List ShamirShare) : Prop :=
  ∀ taken : List ShamirShare, (∀ s ∈ taken, s ∈ shares) → (taken.map ShamirShare.index).Nodup →
    k.toNat ≤ taken.length →
    ∃ out, shamirRecover gf taken k = .ok out ∧ out.toBytes = secret

theorem recovers_shareOf {k n : UInt8} {secret : Bytes} {rows : List (Fin (k.toNat - 1) → UInt8)}
    (hvalid : ValidSplit secret k n) (hk64 : k.toNat ≤ 64) (hrows : rows.length = secret.length) :
    Recovers gf k secret ((indices n).map (shareOf gf secret rows)) := by
  intro taken hsub hnodup hlen
  obtain ⟨hmin, hmax, hk1, -⟩ := hvalid
  have hk : 1 ≤ k.toNat := UInt8.le_iff_toNat_le.mp hk1
  have hk0 : k ≠ 0 := by
    rintro rfl
    exact Nat.not_succ_le_zero 0 hk
  have hshare : ∀ s ∈ taken, s.index ∈ indices n ∧ s = shareOf gf secret rows s.index := by
    intro s hs
    obtain ⟨i, hi, rfl⟩ := List.mem_map.mp (hsub s hs)
    exact ⟨hi, rfl⟩
  have hwf : WellFormed taken secret.length :=
    { index_ne_zero := fun s hs ↦ (mem_indices.mp (hshare s hs).1).1
      nodup := hnodup
      length_value := fun s hs ↦ by rw [(hshare s hs).2, length_shareOf hmax hrows] }
  have hchosen := chosenShares_subperm taken k
  refine ⟨_, shamirRecover_run hwf hk0 hk64 hlen hmin hmax, ?_⟩
  rw [Vec.toBytes_truncated (by rwa [List.length_map, List.length_range])]
  refine List.ext_getElem (by rw [List.length_map, List.length_range]) fun pos h₁ h₂ ↦ ?_
  rw [List.getElem_map, List.getElem_range]
  exact interpolated_shareOf hmax hrows (fun s hs ↦ (hshare s (hchosen.subset hs)).2)
    (hwf.sublist_perm hchosen).nodup (by rw [length_chosenShares hlen]; omega) h₂

/-! ## The field of bytes -/

/-- Bytes as elements of the field of bytes. -/
def byteGf : Gf256 ByteField where
  equiv := ⟨fun b ↦ ⟨b.toBitVec⟩, fun a ↦ ⟨a.bits⟩, fun _ ↦ rfl, fun _ ↦ rfl⟩
  equiv_zero := rfl
  equiv_one := rfl

/-- A generator that yields the same byte again and again. -/
def steadyTrng : HardwareTrng UInt8 where
  fillBytes n t := (.ofBytes n (List.replicate n t), t)
  tryFillBytes n := fun t ↦ (.ok (.ofBytes n (List.replicate n t)), t)

theorem steadyTrng_supplies : steadyTrng.Supplies := fun _ _ ↦ ⟨_, _, rfl⟩

/-! ## The result -/

/-- **Split, then recover.** Whatever is drawn, a split with accepted parameters yields shares that
recover the secret exactly when the threshold is at most 64. -/
theorem split_recovers_iff (htrng : trng.Supplies) {secret : Bytes} {k n : UInt8}
    (hvalid : ValidSplit secret k n) (t : T) :
    (∃ shares, (shamirSplit gf trng secret k n t).1 = .ok shares ∧ Recovers gf k secret shares) ↔
      k.toNat ≤ 64 := by
  obtain ⟨rows, t', hrows, h⟩ := exists_rows htrng (k.toNat - 1) secret.length t
  constructor
  · rintro ⟨shares, hrun, -⟩
    by_contra hk
    rw [shamirSplit_full hvalid (Nat.lt_of_not_le hk) hrows h] at hrun
    cases hrun
  · intro hk
    exact ⟨_, congrArg Prod.fst (shamirSplit_run hvalid hk hrows h), recovers_shareOf hvalid hk hrows⟩

/-- A 16-byte secret in 65 shares cannot be recovered from all of them: it is not shared at all. -/
theorem split_recovers_fails : ¬ ∃ shares,
    (shamirSplit byteGf steadyTrng (List.replicate 16 0) 65 65 0).1 = .ok shares ∧
      Recovers byteGf 65 (List.replicate 16 0) shares := by
  obtain ⟨rows, t', hrows, h⟩ := exists_rows steadyTrng_supplies ((65 : UInt8).toNat - 1) 16 0
  rintro ⟨shares, hrun, -⟩
  have hvalid : ValidSplit (List.replicate 16 0) 65 65 :=
    ⟨by decide, by decide, by decide, by decide⟩
  rw [shamirSplit_full hvalid (by decide) hrows h] at hrun
  cases hrun

theorem split_recovers_bench :
    (∃ shares, (shamirSplit byteGf steadyTrng (List.replicate 16 0) 2 3 7).1 = .ok shares ∧
      Recovers byteGf 2 (List.replicate 16 0) shares) ↔ (2 : UInt8).toNat ≤ 64 :=
  split_recovers_iff steadyTrng_supplies ⟨by decide, by decide, by decide, by decide⟩ 7

end Vault

end Galdralag
