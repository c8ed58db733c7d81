import Galdralag.Vault.Recovery
import Mathlib.Data.Fintype.Pi

/-!
# Shares below the threshold say nothing

The coefficients of a split are one byte for each byte position and each power from one below the
threshold on. Fix fewer share indices than the threshold. Adding a mask to the coefficients, a
translation of the field at each of them, carries the splits of one secret to the splits of another
with the same shares at the fixed indices. A translation is a bijection, so each outcome at these
indices comes from equally many choices, whichever secret was split.
-/

set_option linter.all false

namespace Galdralag.Vault

open SecretSharing

/-- A generator that yields the bytes of a tape. -/
def tapeTrng : HardwareTrng Bytes where
  fillBytes n tape := (.ofBytes n tape, tape.drop n)
  tryFillBytes n := fun tape ↦
    if n ≤ tape.length then (.ok (.ofBytes n (tape.take n)), tape.drop n) else (.error ⟨⟩, tape)

theorem tapeTrng_draws (bs : Bytes) : tapeTrng.Draws bs bs [] := by
  induction bs with
  | nil => rfl
  | cons b bs ih => exact ⟨bs, rfl, ih⟩

/-- A choice of coefficients: for each byte of the secret, all but the constant one. -/
abbrev Coefficients (len : ℕ) (k : UInt8) : Type := Fin len → Fin (k.toNat - 1) → UInt8

variable {F : Type} [Field F] {gf : Gf256 F} {secret secret' : Bytes} {k n : UInt8}

/-- The outcome of a split with given coefficients. -/
def splitWith (gf : Gf256 F) {len : ℕ} (secret : Bytes) (k n : UInt8) (c : Coefficients len k) :
    Except ShamirError (List ShamirShare) :=
  (shamirSplit gf tapeTrng secret k n (drawn (List.ofFn c))).1

/-- The part of an outcome that the holders of some indices see. -/
def seenBy (holders : Finset UInt8) (outcome : Except ShamirError (List ShamirShare)) :
    Except ShamirError (List ShamirShare) :=
  outcome.map fun shares ↦ shares.filter fun s ↦ s.index ∈ holders

theorem splitWith_ok (hvalid : ValidSplit secret k n) (hk : k.toNat ≤ 64) {len : ℕ}
    (hlen : secret.length = len) (c : Coefficients len k) :
    splitWith gf secret k n c = .ok ((indices n).map (shareOf gf secret (List.ofFn c))) :=
  congrArg Prod.fst
    (shamirSplit_run hvalid hk (List.length_ofFn.trans hlen.symm) (tapeTrng_draws _))

variable (gf) in
/-- A split that fails, fails for every secret of the length and every choice of coefficients. -/
theorem splitWith_error (h : ¬ (ValidSplit secret k n ∧ k.toNat ≤ 64)) :
    ∃ e, ∀ (s : Bytes) (c : Coefficients secret.length k), s.length = secret.length →
      splitWith gf s k n c = .error e := by
  rcases hv : validateSplitParams secret k n with e | u
  · refine ⟨e, fun s c hs ↦ ?_⟩
    have hv' : validateSplitParams s k n = .error e := by
      rw [validateSplitParams, hs]
      exact hv
    rw [splitWith, shamirSplit, hv']
    rfl
  · have hvalid := validSplit_of_ok hv
    have hk : 64 < k.toNat := Nat.lt_of_not_le fun hk ↦ h ⟨hvalid, hk⟩
    refine ⟨.invalidParameters, fun s c hs ↦ ?_⟩
    have hvalid' : ValidSplit s k n := by
      rw [ValidSplit, hs]
      exact hvalid
    exact shamirSplit_full hvalid' hk (by rw [List.length_ofFn, hs]) (tapeTrng_draws _)

/-! ## The translation -/

/-- Add field elements to the coefficients. -/
def translate (gf : Gf256 F) {len : ℕ} (δ : Fin len → Fin (k.toNat - 1) → F) :
    Coefficients len k ≃ Coefficients len k :=
  Equiv.piCongrRight fun i ↦ Equiv.piCongrRight fun j ↦
    (gf.equiv.trans (Equiv.addRight (δ i j))).trans gf.equiv.symm

theorem equiv_translate {len : ℕ} (δ : Fin len → Fin (k.toNat - 1) → F) (c : Coefficients len k)
    (i : Fin len) : (fun j ↦ gf.equiv (translate gf δ c i j)) = (fun j ↦ gf.equiv (c i j)) + δ i := by
  funext j
  exact gf.equiv.apply_symm_apply _

/-- Two splits show one holder the same share when they agree at each byte. -/
theorem shareOf_eq_iff (hlen : secret'.length = secret.length) (hmax : secret.length ≤ 64)
    (c c' : Coefficients secret.length k) (index : UInt8) :
    shareOf gf secret' (List.ofFn c') index = shareOf gf secret (List.ofFn c) index ↔
      ∀ i : Fin secret.length, shareByte gf (secret'.get (i.cast hlen.symm)) (c' i) index
        = shareByte gf secret[i.val] (c i) index := by
  have hrows : ∀ c : Coefficients secret.length k, (List.ofFn c).length = secret.length :=
    fun c ↦ List.length_ofFn
  have hbytes : (shareOf gf secret (List.ofFn c) index).value.toBytes = _ :=
    toBytes_shareOf hmax (hrows c) index
  have hbytes' : (shareOf gf secret' (List.ofFn c') index).value.toBytes = _ :=
    toBytes_shareOf (hlen.trans_le hmax) ((hrows c').trans hlen.symm) index
  constructor
  · intro h i
    have hget := congrArg (fun s ↦ s.value.toBytes[i.val]?) h
    simp only [hbytes, hbytes', List.getElem?_zipWith] at hget
    rw [List.getElem?_eq_getElem (i.isLt.trans_eq hlen.symm), List.getElem?_eq_getElem i.isLt,
      List.getElem?_ofFn, List.getElem?_ofFn] at hget
    simpa using hget
  · intro h
    refine congrArg (ShamirShare.mk index) (Subtype.ext ?_)
    refine (hbytes'.trans (List.ext_getElem ?_ fun i h₁ h₂ ↦ ?_)).trans hbytes.symm
    · simp [hlen]
    · rw [List.getElem_zipWith, List.getElem_zipWith, List.getElem_ofFn, List.getElem_ofFn]
      exact h ⟨i, by simpa using h₂⟩

theorem shareByte_eq_iff {m : ℕ} (sb sb' : UInt8) (cs cs' : Fin m → UInt8) (index : UInt8) :
    shareByte gf sb' cs' index = shareByte gf sb cs index ↔
      share (gf.equiv sb') (fun j ↦ gf.equiv (cs' j)) (gf.equiv index)
        = share (gf.equiv sb) (fun j ↦ gf.equiv (cs j)) (gf.equiv index) := by
  rw [shareByte, shareByte, Equiv.apply_eq_iff_eq]

section Holders

variable (hlen : secret'.length = secret.length) {holders : Finset UInt8}

/-- The points of the holders. -/
def points (gf : Gf256 F) (holders : Finset UInt8) : Finset F :=
  (holders.erase 0).map gf.equiv.toEmbedding

theorem zero_notMem_points : 0 ∉ points gf holders := by
  intro h
  obtain ⟨i, hi, hz⟩ := Finset.mem_map.mp h
  have hzero : i = 0 := gf.equiv.injective (hz.trans gf.equiv_zero.symm)
  exact (Finset.mem_erase.mp hi).1 hzero

variable (gf) in
include hlen in
/-- **Masking.** Some translation carries the splits of one secret to the splits of the other that
show the holders the same shares. -/
theorem exists_translation [DecidableEq F] (hcard : holders.card ≤ k.toNat - 1) :
    ∃ δ : Fin secret.length → Fin (k.toNat - 1) → F, ∀ (c : Coefficients secret.length k),
      ∀ index ∈ holders, index ≠ 0 → ∀ i : Fin secret.length,
        shareByte gf (secret'.get (i.cast hlen.symm)) (translate gf δ c i) index
          = shareByte gf secret[i.val] (c i) index := by
  have hpoints : (points gf holders).card ≤ k.toNat - 1 := by
    rw [points, Finset.card_map]
    exact (Finset.card_erase_le).trans hcard
  have hmask : ∀ i : Fin secret.length, ∃ δ : Fin (k.toNat - 1) → F, ∀ x ∈ points gf holders,
      share (gf.equiv (secret'.get (i.cast hlen.symm)) - gf.equiv secret[i.val]) δ x
        = 0 := fun i ↦ exists_mask _ zero_notMem_points hpoints
  choose δ hδ using hmask
  refine ⟨δ, fun c index hindex h0 i ↦ (shareByte_eq_iff _ _ _ _ _).mpr ?_⟩
  have hx : gf.equiv index ∈ points gf holders :=
    Finset.mem_map.mpr ⟨index, Finset.mem_erase.mpr ⟨h0, hindex⟩, rfl⟩
  calc share (gf.equiv (secret'.get (i.cast hlen.symm)))
        (fun j ↦ gf.equiv (translate gf δ c i j)) (gf.equiv index)
      = share (gf.equiv secret[i.val]
          + (gf.equiv (secret'.get (i.cast hlen.symm)) - gf.equiv secret[i.val]))
          ((fun j ↦ gf.equiv (c i j)) + δ i) (gf.equiv index) := by
        rw [equiv_translate, add_sub_cancel]
    _ = share (gf.equiv secret[i.val]) (fun j ↦ gf.equiv (c i j)) (gf.equiv index) := by
        rw [share_add, hδ i _ hx, add_zero]

theorem seenBy_splitWith (hvalid : ValidSplit secret k n) (hk : k.toNat ≤ 64) {len : ℕ}
    (hlen : secret.length = len) (c : Coefficients len k) :
    seenBy holders (splitWith gf secret k n c)
      = .ok (((indices n).filter fun i ↦ i ∈ holders).map (shareOf gf secret (List.ofFn c))) := by
  rw [splitWith_ok hvalid hk hlen]
  refine congrArg Except.ok ?_
  beta_reduce
  rw [List.filter_map]
  rfl

include hlen in
/-- What the holders see are their shares. -/
theorem seenBy_eq_iff (hvalid : ValidSplit secret k n) (hk : k.toNat ≤ 64)
    (c c' : Coefficients secret.length k) :
    seenBy holders (splitWith gf secret' k n c') = seenBy holders (splitWith gf secret k n c) ↔
      ∀ index ∈ holders, index ∈ indices n →
        shareOf gf secret' (List.ofFn c') index = shareOf gf secret (List.ofFn c) index := by
  have hvalid' : ValidSplit secret' k n := by
    rw [ValidSplit, hlen]
    exact hvalid
  rw [seenBy_splitWith hvalid hk rfl, seenBy_splitWith hvalid' hk hlen, Except.ok.injEq,
    List.map_inj_left]
  simp only [List.mem_filter, decide_eq_true_eq]
  constructor
  · intro h index hin hmem
    exact h index ⟨hmem, hin⟩
  · rintro h index ⟨hmem, hin⟩
    exact h index hin hmem

end Holders

/-- What the holders see does not depend on which of two secrets was split. A bijection between the
choices of coefficients carries the splits of one secret to the splits of the other that show the
holders the same, so every outcome for them comes from equally many choices; and with one holder
fewer than the threshold there is no other choice. -/
def Independent (gf : Gf256 F) (secret secret' : Bytes) (k n : UInt8) (holders : Finset UInt8) :
    Prop :=
  (∃ φ : Coefficients secret.length k ≃ Coefficients secret.length k,
    (∀ c, seenBy holders (splitWith gf secret' k n (φ c))
      = seenBy holders (splitWith gf secret k n c)) ∧
    (ValidSplit secret k n → k.toNat ≤ 64 → (∀ i ∈ holders, i ∈ indices n) →
      holders.card = k.toNat - 1 → ∀ c c', seenBy holders (splitWith gf secret' k n c')
        = seenBy holders (splitWith gf secret k n c) → c' = φ c)) ∧
  ∀ seen, Nat.card {c : Coefficients secret.length k //
      seenBy holders (splitWith gf secret' k n c) = seen}
    = Nat.card {c : Coefficients secret.length k //
      seenBy holders (splitWith gf secret k n c) = seen}

/-- **Secrecy below the threshold.** Holders of fewer shares than the threshold cannot tell two
secrets of one length apart. -/
theorem shares_below_threshold_independent [DecidableEq F] (gf : Gf256 F)
    (hlen : secret'.length = secret.length) (k n : UInt8) {holders : Finset UInt8}
    (hcard : holders.card ≤ k.toNat - 1) : Independent gf secret secret' k n holders := by
  have hcount : ∀ φ : Coefficients secret.length k ≃ Coefficients secret.length k,
      (∀ c, seenBy holders (splitWith gf secret' k n (φ c))
        = seenBy holders (splitWith gf secret k n c)) →
      ∀ seen, Nat.card {c : Coefficients secret.length k //
          seenBy holders (splitWith gf secret' k n c) = seen}
        = Nat.card {c : Coefficients secret.length k //
          seenBy holders (splitWith gf secret k n c) = seen} := fun φ hφ seen ↦
    (Nat.card_congr (φ.subtypeEquiv fun c ↦ by rw [hφ c])).symm
  by_cases hok : ValidSplit secret k n ∧ k.toNat ≤ 64
  · obtain ⟨hvalid, hk⟩ := hok
    obtain ⟨δ, hδ⟩ := exists_translation gf hlen hcard
    have hsame : ∀ c, seenBy holders (splitWith gf secret' k n (translate gf δ c))
        = seenBy holders (splitWith gf secret k n c) := by
      intro c
      rw [seenBy_eq_iff hlen hvalid hk]
      intro index hin hmem
      exact (shareOf_eq_iff hlen hvalid.2.1 _ _ _).mpr (hδ c index hin (mem_indices.mp hmem).1)
    refine ⟨⟨translate gf δ, hsame, fun _ _ hholders hcard c c' h ↦ ?_⟩, hcount _ hsame⟩
    have hboth := (seenBy_eq_iff hlen hvalid hk c c').mp h
    have hmask := (seenBy_eq_iff hlen hvalid hk c _).mp (hsame c)
    funext i
    have hshares : ∀ x ∈ points gf holders,
        share (gf.equiv (secret'.get (i.cast hlen.symm)))
          (fun j ↦ gf.equiv (c' i j)) x
          = share (gf.equiv (secret'.get (i.cast hlen.symm)))
            (fun j ↦ gf.equiv (translate gf δ c i j)) x := by
      intro x hx
      obtain ⟨index, hindex, rfl⟩ := Finset.mem_map.mp hx
      obtain ⟨-, hin⟩ := Finset.mem_erase.mp hindex
      have h₁ := (shareOf_eq_iff hlen hvalid.2.1 c c' index).mp (hboth index hin (hholders index hin)) i
      have h₂ := (shareOf_eq_iff hlen hvalid.2.1 c _ index).mp (hmask index hin (hholders index hin)) i
      exact (shareByte_eq_iff _ _ _ _ _).mp (h₁.trans h₂.symm)
    have hpoints : k.toNat - 1 ≤ (points gf holders).card := by
      have h0 : 0 ∉ holders := fun h ↦ (mem_indices.mp (hholders 0 h)).1 rfl
      rw [points, Finset.card_map, Finset.erase_eq_of_notMem h0, hcard]
    have heq := share_injective zero_notMem_points hpoints hshares
    funext j
    exact gf.equiv.injective (congrFun heq j)
  · obtain ⟨e, he⟩ := splitWith_error gf hok
    have hsame : ∀ c, seenBy holders (splitWith gf secret' k n (Equiv.refl _ c))
        = seenBy holders (splitWith gf secret k n c) := fun c ↦ by
      rw [he secret' _ hlen, he secret _ rfl]
    exact ⟨⟨Equiv.refl _, hsame, fun hvalid hk ↦ absurd ⟨hvalid, hk⟩ hok⟩, hcount _ hsame⟩

/-- The holder of one share of a split with threshold two. -/
theorem shares_below_threshold_independent_bench :
    Independent byteGf (List.replicate 16 0) (List.replicate 16 1) 2 3 {3} :=
  shares_below_threshold_independent byteGf (by decide) 2 3 (by decide)

end Galdralag.Vault
