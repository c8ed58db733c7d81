import Galdralag.Host.ShamirOps

/-!
# Which lists of shares recover a key

Recovery interpolates the shares at the front of the list, as many as the threshold says, and the
vault rejects them if an index occurs twice among them. Whether a list of shares of one split gives
the key back is decided there: surplus shares behind them do no harm, and a share that is given twice
at the front is not passed over for one behind.
-/

set_option linter.all false

namespace Galdralag.Vault

/-- An index that occurs twice, or again, is reported. -/
theorem checkIndices_duplicate {seen : List UInt8} {shares : List ShamirShare}
    (hzero : ∀ s ∈ shares, s.index ≠ 0)
    (hdup : (∃ s ∈ shares, s.index ∈ seen) ∨ ¬ (shares.map ShamirShare.index).Nodup) :
    ∃ i, checkIndices seen shares = .error (.duplicateIndex i) := by
  induction shares generalizing seen with
  | nil =>
    rcases hdup with ⟨s, hs, -⟩ | hdup
    · exact absurd hs List.not_mem_nil
    · exact absurd List.nodup_nil hdup
  | cons s rest ih =>
    rw [checkIndices, if_neg (hzero s List.mem_cons_self)]
    by_cases hseen : s.index ∈ seen
    · exact ⟨s.index, if_pos hseen⟩
    · rw [if_neg hseen]
      refine ih (fun r hr ↦ hzero r (List.mem_cons_of_mem s hr)) ?_
      rcases hdup with ⟨r, hr, hmem⟩ | hdup
      · rcases List.mem_cons.mp hr with rfl | hr
        · exact absurd hmem hseen
        · exact .inl ⟨r, hr, List.mem_cons_of_mem _ hmem⟩
      · -- the index occurs again behind, or the rest has one that occurs twice
        rw [List.map_cons, List.nodup_cons, not_and_or, not_not] at hdup
        refine hdup.imp_left fun hmem ↦ ?_
        obtain ⟨r, hr, heq⟩ := List.mem_map.mp hmem
        exact ⟨r, hr, heq ▸ List.mem_cons_self⟩

/-- So recovery rejects enough shares if an index occurs twice. -/
theorem shamirRecover_duplicate {F : Type} [Field F] [DecidableEq F] {gf : Gf256 F}
    {shares : List ShamirShare} {k : UInt8} (hk : k ≠ 0) (hlen : k.toNat ≤ shares.length)
    (hzero : ∀ s ∈ shares, s.index ≠ 0) (hdup : ¬ (shares.map ShamirShare.index).Nodup) :
    ∃ i, shamirRecover gf shares k = .error (.duplicateIndex i) := by
  obtain ⟨i, hi⟩ := checkIndices_duplicate hzero (.inr hdup)
  refine ⟨i, ?_⟩
  rw [shamirRecover, if_neg hk, if_neg (Nat.not_lt.mpr hlen), hi, error_bind]

end Galdralag.Vault

namespace Galdralag.Host

open Vault

variable {F D T : Type} [Field F] [DecidableEq F]

/-- The key material that the shares at the front yield. -/
def frontMaterial (gf : Gf256 F) (k : UInt8) (front : List ShamirShareExport) :
    Except GaldraError (Block 32) := do
  let shares ← vaultShares front
  let recovered ← (shamirRecover gf shares k).mapError mapShamirErr
  if recovered.length ≠ 32 then .error (.shamir "recovered secret length unexpected")
  else .ok (.ofBytes 32 recovered.toBytes)

section Recovery

variable {gf : Gf256 F} {dev : Device D} {trng : HardwareTrng T} {key : Block 32} {fp : String}
  {shares : List ShamirShareExport}

/-- What a list of shares with the threshold `k` yields, as long as its length is a byte. -/
theorem recoveredMaterial_eq {k : UInt8} (hk : k ≠ 0) (hthreshold : ∀ s ∈ shares, s.threshold = k)
    (hlen : shares.length ≤ 255) : recoveredMaterial gf shares =
      if shares.length < k.toNat then .error (.shamir "insufficient shares for recovery")
      else frontMaterial gf k (shares.take k.toNat) := by
  rcases shares with _ | ⟨first, rest⟩
  · have hpos : 0 < k.toNat := Nat.pos_of_ne_zero fun h ↦ hk (UInt8.toNat_inj.mp h)
    rw [if_pos (by rwa [List.length_nil])]
    rfl
  · obtain rfl := hthreshold first List.mem_cons_self
    have hbyte : (UInt8.ofNat (first :: rest).length).toNat = (first :: rest).length := by
      rw [UInt8.toNat_ofNat']
      exact Nat.mod_eq_of_lt (by omega)
    have hfew : UInt8.ofNat (first :: rest).length < first.threshold ↔
        (first :: rest).length < first.threshold.toNat := by
      rw [UInt8.lt_iff_toNat_lt, hbyte]
    rw [recoveredMaterial, List.head?_cons]
    dsimp only
    rw [if_neg hk]
    by_cases h : (first :: rest).length < first.threshold.toNat
    · rw [if_pos h, if_pos (hfew.mpr h)]
    · rw [if_neg h, if_neg (mt hfew.mp h)]
      rfl

/-- **The front decides.** As many shares of one split as the threshold says yield the key that was
split if their indices are distinct, and are rejected if an index occurs twice. -/
theorem frontMaterial_eq {k n : UInt8} {rows : List (Fin (k.toNat - 1) → UInt8)}
    {front : List ShamirShareExport} (hvalid : ValidSplit key.toBytes k n) (hk64 : k.toNat ≤ 64)
    (hrows : rows.length = key.toBytes.length) (hlen : front.length = k.toNat)
    (hfront : ∀ s ∈ front, s.index ∈ indices n ∧
      s.value = (shareOf gf key.toBytes rows s.index).value.toBytes) :
    ((front.map ShamirShareExport.index).Nodup → frontMaterial gf k front = .ok key) ∧
      (¬ (front.map ShamirShareExport.index).Nodup →
        ∃ i, frontMaterial gf k front = .error (mapShamirErr (.duplicateIndex i))) := by
  set shares := front.map fun s ↦ shareOf gf key.toBytes rows s.index with hshares
  have hvault : vaultShares front = .ok shares := vaultShares_eq hrows hfront
  have hindices : shares.map ShamirShare.index = front.map ShamirShareExport.index := by
    rw [hshares, List.map_map]
    rfl
  have hcount : k.toNat ≤ shares.length := by rw [hshares, List.length_map, hlen]
  have hk : k ≠ 0 := by
    rintro rfl
    exact absurd hvalid.2.2.1 (by decide)
  rw [frontMaterial, hvault, ok_bind]
  constructor
  · intro hnodup
    have hmem : ∀ s ∈ shares, s ∈ (indices n).map (shareOf gf key.toBytes rows) := by
      intro s hs
      obtain ⟨ex, hex, rfl⟩ := List.mem_map.mp hs
      exact List.mem_map_of_mem (hfront ex hex).1
    obtain ⟨out, hout, hbytes⟩ :=
      recovers_shareOf hvalid hk64 hrows _ hmem (hindices ▸ hnodup) hcount
    have hlen32 : out.length = 32 := by rw [Vec.length, hbytes, key.length_toBytes]
    rw [hout]
    change (if out.length ≠ 32 then _ else _) = _
    rw [if_neg (not_not_intro hlen32), hbytes, Block.ofBytes_toBytes]
  · intro hdup
    have hzero : ∀ s ∈ shares, s.index ≠ 0 := by
      intro s hs
      obtain ⟨ex, hex, rfl⟩ := List.mem_map.mp hs
      exact (mem_indices.mp (hfront ex hex).1).1
    obtain ⟨i, hi⟩ : ∃ i, shamirRecover gf shares k = .error (.duplicateIndex i) :=
      shamirRecover_duplicate hk hcount hzero (hindices ▸ hdup)
    refine ⟨i, ?_⟩
    rw [hi]
    rfl

theorem shamirRecoverKey_of_status {d : D} {u : PUnit} (hstatus : dev.status d = .ok u)
    (slot : UInt32) : shamirRecoverKey gf dev shares slot d =
      (do
        let material ← Fallible.lift (recoveredMaterial gf shares)
        dev.importShamirRecoveredSigningKey slot material : Fallible D GaldraError PUnit) d := by
  have hread : (Fallible.reading dev.status : Fallible D GaldraError PUnit) d = (.ok u, d) := by
    rw [Fallible.reading_apply, hstatus]
  rw [shamirRecoverKey, Fallible.bind_of_ok hread]

/-- **Recovery from one split.** Where the token answers, a list of at most 255 shares of one split
is refused if it is too short for the threshold. Otherwise the shares at the front decide: with
distinct indices the key that was split is imported, else an index that occurs twice is reported, and
the token is left alone. -/
theorem recover_front_decides (h : FromSplit gf dev trng key fp shares)
    (hlen : shares.length ≤ 255) {d : D} {u : PUnit} (hstatus : dev.status d = .ok u)
    (slot : UInt32) :
    ∃ k : UInt8, 1 ≤ k ∧ k.toNat ≤ 64 ∧ (∀ s ∈ shares, s.threshold = k) ∧
      (shares.length < k.toNat → shamirRecoverKey gf dev shares slot d =
        (.error (.shamir "insufficient shares for recovery"), d)) ∧
      (k.toNat ≤ shares.length →
        (((shares.take k.toNat).map ShamirShareExport.index).Nodup →
          shamirRecoverKey gf dev shares slot d =
            dev.importShamirRecoveredSigningKey slot key d) ∧
        (¬ ((shares.take k.toNat).map ShamirShareExport.index).Nodup →
          ∃ i, shamirRecoverKey gf dev shares slot d =
            (.error (mapShamirErr (.duplicateIndex i)), d))) := by
  obtain ⟨k, n, rows, hvalid, hk64, hrows, hspec⟩ := h.spec
  have hk : k ≠ 0 := by
    rintro rfl
    exact absurd hvalid.2.2.1 (by decide)
  have hmaterial : recoveredMaterial gf shares = _ :=
    recoveredMaterial_eq hk (fun s hs ↦ (hspec s hs).1) hlen
  refine ⟨k, hvalid.2.2.1, hk64, fun s hs ↦ (hspec s hs).1, fun hfew ↦ ?_, fun henough ↦ ?_⟩
  · rw [shamirRecoverKey_of_status hstatus, hmaterial, if_pos hfew]
    rfl
  · rw [if_neg (Nat.not_lt.mpr henough)] at hmaterial
    obtain ⟨hdistinct, hdup⟩ := frontMaterial_eq hvalid hk64 hrows (List.length_take_of_le henough)
      fun s hs ↦ (hspec s (List.mem_of_mem_take hs)).2.2
    constructor
    · intro hnodup
      rw [shamirRecoverKey_of_status hstatus, hmaterial, hdistinct hnodup]
      rfl
    · intro hrepeated
      obtain ⟨i, hi⟩ := hdup hrepeated
      refine ⟨i, ?_⟩
      rw [shamirRecoverKey_of_status hstatus, hmaterial, hi]
      rfl

end Recovery

/-- Two shares of the key of zeros. -/
def zeroShares : List ShamirShareExport := [benchShare 0 1 "00", benchShare 0 2 "00"]

theorem recover_front_decides_bench :
    ∃ k : UInt8, 1 ≤ k ∧ k.toNat ≤ 64 ∧ (∀ s ∈ zeroShares, s.threshold = k) ∧
      (zeroShares.length < k.toNat → shamirRecoverKey byteGf benchDevice zeroShares 5 [] =
        (.error (.shamir "insufficient shares for recovery"), [])) ∧
      (k.toNat ≤ zeroShares.length →
        (((zeroShares.take k.toNat).map ShamirShareExport.index).Nodup →
          shamirRecoverKey byteGf benchDevice zeroShares 5 [] =
            benchDevice.importShamirRecoveredSigningKey 5 (.ofBytes 32 (List.replicate 32 0)) []) ∧
        (¬ ((zeroShares.take k.toNat).map ShamirShareExport.index).Nodup →
          ∃ i, shamirRecoverKey byteGf benchDevice zeroShares 5 [] =
            (.error (mapShamirErr (.duplicateIndex i)), []))) :=
  recover_front_decides fromSplit_zeros (by decide) rfl 5

/-- The same shares with the first of them given twice. -/
def repeatedShares : List ShamirShareExport := benchShare 0 1 "00" :: zeroShares

/-- They are of one split with two different indices among them, which is enough, but recovery
reports the index that is given twice and imports nothing. -/
theorem repeated_share_rejected :
    FromSplit byteGf benchDevice steadyTrng (.ofBytes 32 (List.replicate 32 0)) "00"
        repeatedShares ∧
      (∀ i ∈ [1, 2], i ∈ repeatedShares.map ShamirShareExport.index) ∧
      shamirRecoverKey byteGf benchDevice repeatedShares 5 [] =
        (.error (mapShamirErr (.duplicateIndex 1)), []) := by
  have hindices : ∀ i ∈ [1, 2], i ∈ repeatedShares.map ShamirShareExport.index :=
    List.forall_mem_cons.mpr ⟨List.mem_cons_self, List.forall_mem_singleton.mpr (by decide)⟩
  refine ⟨?_, hindices, rfl⟩
  obtain ⟨d, profile, slot, now, t, l, hkey, hfp, hrun, hsub⟩ := fromSplit_zeros
  refine ⟨d, profile, slot, now, t, l, hkey, hfp, hrun, fun s hs ↦ hsub s ?_⟩
  rcases List.mem_cons.mp hs with rfl | hs
  · exact List.mem_cons_self
  · exact hs

end Galdralag.Host
