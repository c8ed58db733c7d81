import Galdralag.Vault.Recovery
import Galdralag.Host.Error

/-!
# Shamir shares of a token's signing key

The host splits the signing key of a token into exported shares, each with a header, and recovers a
key from shares and imports it into a slot. Recovery reads the threshold of the first share and
interpolates that many shares from the front of the list. It does not compare the headers.

The token is a parameter, because the repository has only a stub for it, which never connects.
-/

set_option linter.all false

namespace Galdralag.Host

open Vault

/-- Shamir parameters of a cipher profile. -/
structure ShamirConfig where
  threshold : UInt8
  total : UInt8
  deriving DecidableEq

/-- There is more than one share. -/
def ShamirConfig.isActive (c : ShamirConfig) : Bool := c.total > 1

/-- A cipher profile, as far as sharing reads it. -/
structure CipherProfile where
  name : String
  shamir : ShamirConfig
  deriving DecidableEq

/-- An exported share. -/
structure ShamirShareExport where
  profileName : String
  threshold : UInt8
  total : UInt8
  index : UInt8
  value : Bytes
  /-- Fingerprint of the key the share belongs to. -/
  fingerprint : String
  createdAtRfc3339 : String
  deriving DecidableEq

/-- A connected token, over a type of its states. -/
structure Device (D : Type) where
  status : D → Except GaldraError PUnit
  exportSigningKeyShamirMaterial : D → UInt32 → Except GaldraError (Block 32)
  signingKeyFingerprintHex : D → UInt32 → Except GaldraError String
  importShamirRecoveredSigningKey : UInt32 → Block 32 → Fallible D GaldraError PUnit

/-- The token of the repository. -/
def Device.stub (D : Type) : Device D where
  status _ := .error .deviceNotConnected
  exportSigningKeyShamirMaterial _ _ := .error .deviceNotConnected
  signingKeyFingerprintHex _ _ := .error .deviceNotConnected
  importShamirRecoveredSigningKey _ _ := .fail .deviceNotConnected

/-- The text of an error of the vault. -/
def shamirErrorText : ShamirError → String
  | .insufficientShares => "InsufficientShares"
  | .invalidShare index => "InvalidShare \x7b index: ".append ((toString index).append " \x7d")
  | .duplicateIndex index => "DuplicateIndex \x7b index: ".append ((toString index).append " \x7d")
  | .invalidParameters => "InvalidParameters"
  | .trngFailure => "TrngFailure"
  | .secretTooShort => "SecretTooShort"
  | .secretTooLong => "SecretTooLong"

def mapShamirErr (e : ShamirError) : GaldraError := .shamir (shamirErrorText e)

variable {F D T : Type} [Field F] (gf : Gf256 F) (dev : Device D)

/-- Split the signing key in `slot` with the parameters of a profile. -/
def shamirSplitKey (trng : HardwareTrng T) (d : D) (profile : CipherProfile) (slot : UInt32)
    (now : String) : Fallible T GaldraError (List ShamirShareExport) := do
  .lift (dev.status d)
  .require (profile.shamir.isActive = true)
    (.config "profile does not enable Shamir (total must be > 1)")
  let secret ← .lift (dev.exportSigningKeyShamirMaterial d slot)
  let shares ← .mapError mapShamirErr
    (shamirSplit gf trng secret.toBytes profile.shamir.threshold profile.shamir.total)
  let fp ← .lift (dev.signingKeyFingerprintHex d slot)
  pure (shares.map fun sh ↦ {
    profileName := profile.name
    threshold := profile.shamir.threshold
    total := profile.shamir.total
    index := sh.index
    value := sh.value.toBytes
    fingerprint := fp
    createdAtRfc3339 := now })

/-- The shares in the form of the vault. -/
def vaultShares (shares : List ShamirShareExport) : Except GaldraError (List ShamirShare) :=
  shares.mapM fun ex ↦
    (ShamirShare.tryFromIndexValue ex.index ex.value).mapError mapShamirErr

/-- The key material that a list of shares yields. -/
def recoveredMaterial [DecidableEq F] (shares : List ShamirShareExport) :
    Except GaldraError (Block 32) :=
  match shares.head? with
  | none => .error (.shamir "insufficient shares for recovery")
  | some first =>
    if first.threshold = 0 then .error (.shamir "invalid threshold")
    -- The number of shares is cut to eight bits.
    else if UInt8.ofNat shares.length < first.threshold then
      .error (.shamir "insufficient shares for recovery")
    else do
      let shares ← vaultShares (shares.take first.threshold.toNat)
      let recovered ← (shamirRecover gf shares first.threshold).mapError mapShamirErr
      if recovered.length ≠ 32 then .error (.shamir "recovered secret length unexpected")
      else .ok (.ofBytes 32 recovered.toBytes)

/-- Recover a key from shares and import it into `slot`. -/
def shamirRecoverKey [DecidableEq F] (shares : List ShamirShareExport) (slot : UInt32) :
    Fallible D GaldraError PUnit := do
  .reading dev.status
  let material ← .lift (recoveredMaterial gf shares)
  dev.importShamirRecoveredSigningKey slot material

/-! ## What recovery imports -/

/-- The shares that recovery interpolates. -/
def frontShares (shares : List ShamirShareExport) : List ShamirShareExport :=
  match shares.head? with
  | none => []
  | some first => shares.take first.threshold.toNat

/-- One split of `key`, with fingerprint `fp`, produced all of these shares. -/
def FromSplit (trng : HardwareTrng T) (key : Block 32) (fp : String)
    (shares : List ShamirShareExport) : Prop :=
  ∃ d profile slot now t l, dev.exportSigningKeyShamirMaterial d slot = .ok key ∧
    dev.signingKeyFingerprintHex d slot = .ok fp ∧
    (shamirSplitKey gf dev trng d profile slot now t).1 = .ok l ∧ ∀ s ∈ shares, s ∈ l

/-- A share that some split produced. -/
def Genuine (trng : HardwareTrng T) (s : ShamirShareExport) : Prop :=
  ∃ key fp, FromSplit gf dev trng key fp [s]

/-- A token whose key has the fingerprint of a share. -/
def Carries (s : ShamirShareExport) (key : Block 32) : Prop :=
  ∃ d slot, dev.exportSigningKeyShamirMaterial d slot = .ok key ∧
    dev.signingKeyFingerprintHex d slot = .ok s.fingerprint

section Recovery

variable {gf dev} {trng : HardwareTrng T} {key : Block 32} {fp : String}
  {shares : List ShamirShareExport}

/-- What the shares of one split are. -/
theorem FromSplit.spec (h : FromSplit gf dev trng key fp shares) :
    ∃ (k n : UInt8) (rows : List (Fin (k.toNat - 1) → UInt8)),
      ValidSplit key.toBytes k n ∧ k.toNat ≤ 64 ∧ rows.length = key.toBytes.length ∧
      ∀ s ∈ shares, s.threshold = k ∧ s.fingerprint = fp ∧ s.index ∈ indices n ∧
        s.value = (shareOf gf key.toBytes rows s.index).value.toBytes := by
  obtain ⟨d, profile, slot, now, t, l, hkey, hfp, hrun, hsub⟩ := h
  have hrun := Fallible.eq_ok_of_fst hrun
  rw [shamirSplitKey] at hrun
  obtain ⟨_, t₁, hstatus, hrun⟩ := Fallible.bind_eq_ok.mp hrun
  obtain rfl : t = t₁ := (Prod.mk.inj hstatus).2
  obtain ⟨_, t₂, hactive, hrun⟩ := Fallible.bind_eq_ok.mp hrun
  obtain ⟨-, rfl⟩ := Fallible.require_eq_ok.mp hactive
  rw [hkey] at hrun
  obtain ⟨secret, t₃, hsecret, hrun⟩ := Fallible.bind_eq_ok.mp hrun
  obtain rfl : key = secret := Except.ok.inj (Prod.mk.inj hsecret).1
  obtain rfl := (Prod.mk.inj hsecret).2
  obtain ⟨split, t₄, hsplit, hrun⟩ := Fallible.bind_eq_ok.mp hrun
  have hsplit := congrArg Prod.fst (Fallible.mapError_eq_ok.mp hsplit)
  rw [hfp] at hrun
  obtain ⟨fp', t₅, hfp', hrun⟩ := Fallible.bind_eq_ok.mp hrun
  obtain rfl : fp = fp' := Except.ok.inj (Prod.mk.inj hfp').1
  obtain rfl := Except.ok.inj (Prod.mk.inj hrun).1
  obtain ⟨hvalid, hk, rows, hrows, rfl⟩ := shamirSplit_ok hsplit
  refine ⟨_, _, rows, hvalid, hk, hrows, fun s hs ↦ ?_⟩
  obtain ⟨sh, hsh, rfl⟩ := List.mem_map.mp (hsub s hs)
  obtain ⟨i, hi, rfl⟩ := List.mem_map.mp hsh
  exact ⟨rfl, rfl, hi, rfl⟩

/-- Shares of one split are accepted by the vault as they were made. -/
theorem vaultShares_eq {k n : UInt8} {rows : List (Fin (k.toNat - 1) → UInt8)}
    (hrows : rows.length = key.toBytes.length)
    (h : ∀ s ∈ shares, s.index ∈ indices n ∧
      s.value = (shareOf gf key.toBytes rows s.index).value.toBytes) :
    vaultShares shares = .ok (shares.map fun s ↦ shareOf gf key.toBytes rows s.index) := by
  have hmax : key.toBytes.length ≤ 64 := by
    rw [key.length_toBytes]
    decide
  induction shares with
  | nil => rfl
  | cons s rest ih =>
    obtain ⟨hi, hv⟩ := h s List.mem_cons_self
    have hlen : (shareOf gf key.toBytes rows s.index).value.length = key.toBytes.length :=
      length_shareOf hmax hrows s.index
    rw [Vec.length, ← hv, key.length_toBytes] at hlen
    have hshare : ShamirShare.tryFromIndexValue s.index s.value
        = .ok (shareOf gf key.toBytes rows s.index) := by
      rw [ShamirShare.tryFromIndexValue, if_neg (mem_indices.mp hi).1, hlen,
        if_neg (by decide), Vec.ofBytes?_of_le (by rw [hlen]; decide)]
      refine congrArg (fun v ↦ Except.ok (ShamirShare.mk s.index v)) (Subtype.ext ?_)
      exact (Vec.toBytes_truncated (by rw [hlen]; decide)).trans hv
    have hrest := ih fun r hr ↦ h r (List.mem_cons_of_mem s hr)
    rw [vaultShares] at hrest ⊢
    rw [List.mapM_cons, hshare, hrest]
    rfl

variable (gf dev) [DecidableEq F]

/-- Recovery stops with an error and leaves the token alone, or imports the key whose fingerprint
`carriers` carry. -/
def ImportsOnly (carriers shares : List ShamirShareExport) (slot : UInt32) (d : D) : Prop :=
  (∃ e, shamirRecoverKey gf dev shares slot d = (.error e, d)) ∨
    ∃ key, (∀ s ∈ carriers, Carries dev s key) ∧
      shamirRecoverKey gf dev shares slot d = dev.importShamirRecoveredSigningKey slot key d

/-- The stub of the repository imports nothing. -/
theorem stub_imports_nothing (shares : List ShamirShareExport) (slot : UInt32) (d : D) :
    shamirRecoverKey gf (Device.stub D) shares slot d = (.error .deviceNotConnected, d) := rfl

variable {gf dev}

/-- Shares of one split at the front yield the key that was split, or an error. -/
theorem FromSplit.recoveredMaterial (h : FromSplit gf dev trng key fp (frontShares shares)) :
    (∃ e, Host.recoveredMaterial gf shares = .error e) ∨
      Host.recoveredMaterial gf shares = .ok key := by
  obtain ⟨k, n, rows, hvalid, hk64, hrows, hspec⟩ := h.spec
  rcases shares with _ | ⟨first, rest⟩
  · exact .inl ⟨_, rfl⟩
  rw [Host.recoveredMaterial, List.head?_cons]
  dsimp only
  split_ifs with hzero hfew
  · exact .inl ⟨_, rfl⟩
  · exact .inl ⟨_, rfl⟩
  have hpos : 0 < first.threshold.toNat :=
    Nat.pos_of_ne_zero fun h ↦ hzero (UInt8.toNat_inj.mp h)
  have hfront : frontShares (first :: rest) = (first :: rest).take first.threshold.toNat := rfl
  rw [hfront] at hspec
  have hthreshold : first.threshold = k := by
    refine (hspec first ?_).1
    rw [← Nat.sub_add_cancel hpos, List.take_succ_cons]
    exact List.mem_cons_self
  set front := (first :: rest).take first.threshold.toNat
  rw [vaultShares_eq hrows fun s hs ↦ (hspec s hs).2.2, ok_bind, hthreshold]
  rcases hrec : shamirRecover gf (front.map fun s ↦ shareOf gf key.toBytes rows s.index) k
    with e | out
  · exact .inl ⟨mapShamirErr e, by rw [hrec]; rfl⟩
  · obtain ⟨hlen, hnodup⟩ := shamirRecover_ok hrec
    have hmem : ∀ s ∈ front.map fun s ↦ shareOf gf key.toBytes rows s.index,
        s ∈ (indices n).map (shareOf gf key.toBytes rows) := by
      intro s hs
      obtain ⟨ex, hex, rfl⟩ := List.mem_map.mp hs
      exact List.mem_map_of_mem (hspec ex hex).2.2.1
    obtain ⟨out', hout, hbytes⟩ := recovers_shareOf hvalid hk64 hrows _ hmem hnodup hlen
    obtain rfl : out = out' := Except.ok.inj (hrec.symm.trans hout)
    have hlen32 : out.length = 32 := by rw [Vec.length, hbytes, key.length_toBytes]
    refine .inr ?_
    rw [hrec]
    change (if out.length ≠ 32 then _ else _) = _
    rw [if_neg (not_not_intro hlen32), hbytes, Block.ofBytes_toBytes]

end Recovery

/-! ## The result -/

/-- A token with a key of zeros in slot 0 and a key of ones elsewhere, which logs what is imported.
-/
def benchDevice : Device (List (UInt32 × Block 32)) where
  status _ := .ok ⟨⟩
  exportSigningKeyShamirMaterial _ slot :=
    .ok (.ofBytes 32 (List.replicate 32 (if slot = 0 then 0 else 1)))
  signingKeyFingerprintHex _ slot := .ok (if slot = 0 then "00" else "01")
  importShamirRecoveredSigningKey slot key := .modify fun log ↦ (slot, key) :: log

def benchProfile : CipherProfile := ⟨"quorum", ⟨2, 2⟩⟩

/-- A share of the key of zeros or of ones, whose sharing polynomials are constant. -/
def benchShare (b index : UInt8) (fp : String) : ShamirShareExport :=
  ⟨"quorum", 2, 2, index, List.replicate 32 b, fp, "2026-01-01T00:00:00Z"⟩

theorem fromSplit_bench (slot : UInt32) {key : Block 32} {fp : String} {l : List ShamirShareExport}
    (hkey : key = .ofBytes 32 (List.replicate 32 (if slot = 0 then 0 else 1)))
    (hfp : fp = if slot = 0 then "00" else "01")
    (h : (shamirSplitKey byteGf benchDevice steadyTrng [] benchProfile slot
      "2026-01-01T00:00:00Z" 0).1.toOption = some l) :
    FromSplit byteGf benchDevice steadyTrng key fp l := by
  refine ⟨[], benchProfile, slot, "2026-01-01T00:00:00Z", 0, l, by rw [hkey]; rfl,
    by rw [hfp]; rfl, ?_, fun _ h ↦ h⟩
  rcases hrun : (shamirSplitKey byteGf benchDevice steadyTrng [] benchProfile slot
    "2026-01-01T00:00:00Z" 0).1 with e | l'
  · rw [hrun] at h
    cases h
  · rw [hrun] at h
    rw [Option.some.inj h]

theorem fromSplit_zeros : FromSplit byteGf benchDevice steadyTrng (.ofBytes 32 (List.replicate 32 0))
    "00" [benchShare 0 1 "00", benchShare 0 2 "00"] :=
  fromSplit_bench 0 rfl rfl (by decide +kernel)

theorem fromSplit_ones : FromSplit byteGf benchDevice steadyTrng (.ofBytes 32 (List.replicate 32 1))
    "01" [benchShare 1 1 "01", benchShare 1 2 "01"] :=
  fromSplit_bench 1 rfl rfl (by decide +kernel)

/-- A share of the key of zeros and a share of the key of ones. -/
def mixedShares : List ShamirShareExport := [benchShare 0 1 "00", benchShare 1 2 "01"]

/-- The two shares in the form of the vault. -/
def mixedVaultShares : List ShamirShare :=
  [⟨1, .truncated (List.replicate 32 0)⟩, ⟨2, .truncated (List.replicate 32 1)⟩]

theorem wellFormed_mixedVaultShares : Vault.WellFormed mixedVaultShares 32 := by
  refine ⟨?_, by decide, ?_⟩
  · intro s hs
    rcases List.mem_pair.mp hs with rfl | rfl
    · decide
    · decide
  · intro s hs
    rcases List.mem_pair.mp hs with rfl | rfl
    · decide
    · decide

/-- Both are constant, so every byte is interpolated like the first. -/
theorem interpolated_mixed {pos : ℕ} (hpos : pos < 32) :
    interpolated byteGf (chosenShares mixedVaultShares 2) pos = 0xF6 := by
  have hchosen : chosenShares mixedVaultShares 2 = mixedVaultShares := rfl
  have hpoints : pointsOf byteGf mixedVaultShares pos = pointsOf byteGf mixedVaultShares 0 := by
    have hconst (b : UInt8) : (Vec.truncated (List.replicate 32 b) : Vec 64).toBytes.getD pos 0
        = (Vec.truncated (List.replicate 32 b) : Vec 64).toBytes.getD 0 0 := by
      rw [Vec.toBytes_truncated (by rw [List.length_replicate]; decide),
        List.getD_replicate _ hpos, List.getD_replicate _ (by decide)]
    rw [pointsOf, pointsOf, mixedVaultShares, List.map_cons, List.map_cons, List.map_cons,
      List.map_cons, hconst, hconst]
    rfl
  have hfirst : (recoverByte byteGf mixedVaultShares 0).toOption = some 0xF6 := by decide +kernel
  rw [recoverByte_eq wellFormed_mixedVaultShares (List.cons_ne_nil _ _), if_pos (by decide)]
    at hfirst
  rw [hchosen, ← Option.some.inj hfirst, interpolated, interpolated, hpoints]

theorem recoveredMaterial_mixed : recoveredMaterial byteGf mixedShares
    = .ok (.ofBytes 32 (List.replicate 32 0xF6)) := by
  have hvault : vaultShares mixedShares = .ok mixedVaultShares := rfl
  have hrun : shamirRecover byteGf mixedVaultShares 2 = .ok _ :=
    shamirRecover_run wellFormed_mixedVaultShares (by decide) (by decide) (by decide) (by decide)
      (by decide)
  have hbytes : (List.range 32).map (interpolated byteGf (chosenShares mixedVaultShares 2))
      = List.replicate 32 0xF6 := by
    refine List.eq_replicate_iff.mpr ⟨by rw [List.length_map, List.length_range], fun b hb ↦ ?_⟩
    obtain ⟨pos, hpos, rfl⟩ := List.mem_map.mp hb
    exact interpolated_mixed (List.mem_range.mp hpos)
  rw [hbytes] at hrun
  have heq : recoveredMaterial byteGf mixedShares = (do
      let shares ← vaultShares mixedShares
      let recovered ← (shamirRecover byteGf shares 2).mapError mapShamirErr
      if recovered.length ≠ 32 then .error (.shamir "recovered secret length unexpected")
      else .ok (.ofBytes 32 recovered.toBytes)) := rfl
  rw [heq, hvault, ok_bind, hrun]
  rfl

end Galdralag.Host
