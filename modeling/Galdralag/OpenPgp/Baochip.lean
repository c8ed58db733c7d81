import Galdralag.OpenPgp.Opening

/-!
# The card of the Baochip

On the Baochip all that a card keeps lies in one resistive memory, from a base address on: the
sealed keys, the object store, the PIN digests, the attempt counters, the salt of the master key and
the PINs a new card is provisioned with. A breach overwrites this whole span with zeros.
-/

set_option linter.all false

namespace Galdralag.OpenPgp

/-! ## Layout -/

namespace Baochip

/-- The object store, behind the sealed keys. -/
def openpgpDoStoreLogical : ℕ := 67072

def pinUserLogicalOff : ℕ := openpgpDoStoreLogical + DoStore.regionBytes

def pinAdminLogicalOff : ℕ := pinUserLogicalOff + 32

def userCtrLogicalOff : ℕ := pinAdminLogicalOff + 32

def adminCtrLogicalOff : ℕ := userCtrLogicalOff + 4

def masterRecordLogicalOff : ℕ := adminCtrLogicalOff + 4

/-- `OGMK`. -/
def openpgpMasterMagic : Bytes := [0x4F, 0x47, 0x4D, 0x4B]

/-- Magic and salt. -/
def openpgpMasterRecordBytes : ℕ := 4 + 32

/-- The longest PIN that a provisioning slot holds. -/
def ccidPinProvisionPayloadMaxBytes : ℕ := 32

/-- Magic, length and PIN. -/
def ccidPinProvisionSlotBytes : ℕ := 4 + 1 + ccidPinProvisionPayloadMaxBytes

/-- `PNU1` and `PNA1`. -/
def pinProvisionMagic : CardPin → Bytes
  | .user => [0x50, 0x4E, 0x55, 0x31]
  | .admin => [0x50, 0x4E, 0x41, 0x31]

def pinProvisionLogicalOff : CardPin → ℕ
  | .user => masterRecordLogicalOff + openpgpMasterRecordBytes
  | .admin => masterRecordLogicalOff + openpgpMasterRecordBytes + ccidPinProvisionSlotBytes

/-- The bytes from the first sealed key to the last provisioning slot. -/
def openpgpVaultLogicalSpanEnd : ℕ := pinProvisionLogicalOff .admin + ccidPinProvisionSlotBytes

theorem openpgpVaultLogicalSpanEnd_eq : openpgpVaultLogicalSpanEnd = 75486 := rfl

/-! ## Wiping -/

/-- Write zeros over a window, at most 256 bytes at a time. -/
def zeroFrom (physBase span pos : ℕ) (rram : Memory) : Memory :=
  if pos < span then
    let n := min (span - pos) 256
    zeroFrom physBase span (pos + n) (rram.patch (physBase + pos) (List.replicate n 0))
  else rram
termination_by span - pos

def zeroRramWindow (physBase span : ℕ) (rram : Memory) : Memory := zeroFrom physBase span 0 rram

theorem zeroFrom_apply (physBase span pos : ℕ) (rram : Memory) (a : ℕ) :
    zeroFrom physBase span pos rram a =
      if physBase + pos ≤ a ∧ a < physBase + span then 0 else rram a := by
  induction pos, rram using zeroFrom.induct physBase span with
  | case1 pos rram hlt n ih =>
    rw [zeroFrom, if_pos hlt, ih]
    have hn : 0 < n := by
      have : n = min (span - pos) 256 := rfl
      omega
    have hle : pos + n ≤ span := by
      have : n = min (span - pos) 256 := rfl
      omega
    by_cases ha : physBase + pos ≤ a ∧ a < physBase + (pos + n)
    · obtain ⟨i, rfl⟩ := Nat.exists_eq_add_of_le ha.1
      have hi : i < (List.replicate n (0 : UInt8)).length := by
        rw [List.length_replicate]
        omega
      rw [if_neg (by omega), Memory.patch_apply_add hi, List.getElem_replicate,
        if_pos ⟨ha.1, by omega⟩]
    · have hout : rram.patch (physBase + pos) (List.replicate n 0) a = rram a := by
        by_cases hlo : a < physBase + pos
        · exact Memory.patch_apply_of_lt hlo
        · refine Memory.patch_apply_of_ge ?_
          rw [List.length_replicate]
          omega
      rw [hout]
      by_cases hin : physBase + pos ≤ a ∧ a < physBase + span
      · rw [if_pos hin, if_pos (by omega)]
      · rw [if_neg hin, if_neg (by omega)]
  | case2 pos rram hge =>
    rw [zeroFrom, if_neg hge, if_neg (by omega)]

/-- A wiped window is zero, and nothing else changes. -/
theorem zeroRramWindow_apply (physBase span : ℕ) (rram : Memory) (a : ℕ) :
    zeroRramWindow physBase span rram a =
      if physBase ≤ a ∧ a < physBase + span then 0 else rram a := zeroFrom_apply _ _ _ _ _

end Baochip

/-! ## The platform -/

/-- What the firmware of a Baochip card is built with. -/
structure Baochip (T : Type) where
  /-- Where the vault begins in the memory. -/
  vaultPhysBase : ℕ
  trng : HardwareTrng T
  crypto : CardCrypto
  /-- HKDF-SHA512 with an empty salt and the purpose of the card's master key. -/
  deriveMaster : Bytes → Block 32
  deviceBinding : Bytes
  aid : Block 16

namespace Baochip

variable {T : Type} (bp : Baochip T)

/-- The storage of the vault. -/
def vaultStorage : VaultStorage Memory := rramVaultStorage bp.vaultPhysBase

/-- The vault, as its storage sees it. -/
def vault (rram : Memory) : Memory := fun a ↦ rram (bp.vaultPhysBase + a)

/-- The wipe of a breach. -/
def pinZeroise : ZeroisationTrigger Memory :=
  zeroRramWindow bp.vaultPhysBase openpgpVaultLogicalSpanEnd

/-- The platform of a session. -/
def platform (masterKey : Block 32) : CardPlatform Memory T where
  doStore := ⟨bp.vaultStorage, openpgpDoStoreLogical⟩
  pinStorage := bp.vaultStorage
  pinUserOff := pinUserLogicalOff
  pinAdminOff := pinAdminLogicalOff
  keyStorage := bp.vaultStorage
  masterKey := masterKey
  trng := bp.trng
  aid := bp.aid
  userCounter := rramMonotonicCounter (bp.vaultPhysBase + userCtrLogicalOff)
  adminCounter := rramMonotonicCounter (bp.vaultPhysBase + adminCtrLogicalOff)
  newUserCounter := id
  newAdminCounter := id
  userZeroise := bp.pinZeroise
  adminZeroise := bp.pinZeroise
  crypto := bp.crypto

theorem vaultStorage_faithful (limit : ℕ) : bp.vaultStorage.Faithful limit bp.vault :=
  rramVaultStorage_faithful _ _

/-- A wipe leaves nothing but zeros in the span of the vault. -/
theorem vault_pinZeroise (rram : Memory) {a : ℕ} (ha : a < openpgpVaultLogicalSpanEnd) :
    bp.vault (bp.pinZeroise rram) a = 0 := by
  rw [vault, pinZeroise, zeroRramWindow_apply, if_pos (by omega)]

/-- A write at a logical offset. -/
theorem vault_patch (rram : Memory) (off : ℕ) (bs : Bytes) :
    bp.vault (rram.patch (bp.vaultPhysBase + off) bs) = (bp.vault rram).patch off bs :=
  (bp.vaultStorage_faithful (off + bs.length)).memory_write rram off bs (Nat.le_refl _)

/-! ### Regions -/

/-- The region of a device. -/
def deviceStart : Device → ℕ
  | .objects => openpgpDoStoreLogical
  | .pins => pinUserLogicalOff
  | .cells => sealedOffset .openPgpSig
  | .counters => userCtrLogicalOff

def deviceEnd : Device → ℕ
  | .objects => pinUserLogicalOff
  | .pins => userCtrLogicalOff
  | .cells => sealedKeyRegionEnd
  | .counters => masterRecordLogicalOff

/-- The regions of two devices do not meet. -/
theorem device_disjoint {d e : Device} (h : d ≠ e) :
    deviceEnd d ≤ deviceStart e ∨ deviceEnd e ≤ deviceStart d := by
  cases d <;> cases e <;> first | exact absurd rfl h | decide

/-- All of them lie in the span that a breach wipes. -/
theorem deviceEnd_le (d : Device) : deviceEnd d ≤ openpgpVaultLogicalSpanEnd := by
  cases d <;> decide

variable {masterKey : Block 32} {lo hi : ℕ}

/-- A device writes within its region. -/
theorem platform_spares (d : Device) (h : deviceEnd d ≤ lo ∨ hi ≤ deviceStart d) :
    (bp.platform masterKey).Spares
      (fun w w' ↦ Memory.AgreeOn lo hi (bp.vault w') (bp.vault w)) d := by
  have hwrite : ∀ off (bs : Bytes), off + bs.length ≤ lo ∨ hi ≤ off → ∀ w,
      Memory.AgreeOn lo hi (bp.vault (bp.vaultStorage.write off bs w).2) (bp.vault w) := by
    intro off bs hoff w
    rw [(bp.vaultStorage_faithful (off + bs.length)).memory_write w off bs (Nat.le_refl _)]
    exact Memory.agreeOn_patch (by omega)
  cases d with
  | objects =>
    intro tag value w
    have hf := bp.vaultStorage_faithful (openpgpDoStoreLogical + DoStore.regionBytes)
    rcases DoStore.write_run (d := (bp.platform masterKey).doStore) hf (Nat.le_refl _) tag value w
      with ⟨w', hrun, hwritten⟩ | ⟨e, w', hrun, hsame, -⟩ <;> rw [hrun]
    · exact hwritten.outside.agreeOn h.symm
    · exact hsame.outside.agreeOn h.symm
  | pins =>
    intro p digest w
    refine hwrite _ _ ?_ w
    have hlen := digest.length_toBytes
    rw [deviceStart, deviceEnd, userCtrLogicalOff, pinAdminLogicalOff] at h
    cases p
    · change pinUserLogicalOff + _ ≤ lo ∨ hi ≤ pinUserLogicalOff
      omega
    · change pinAdminLogicalOff + _ ≤ lo ∨ hi ≤ pinAdminLogicalOff
      rw [pinAdminLogicalOff]
      omega
  | cells =>
    intro purpose cell w
    refine hwrite _ _ ?_ w
    have hlen := cell.length_toBytes
    obtain ⟨hlo, hhi⟩ := sealedOffset_le purpose
    rw [sealedBlobBytes] at hhi
    rw [deviceStart, deviceEnd] at h
    omega
  | counters =>
    have hcell : ∀ off, off = userCtrLogicalOff ∨ off = adminCtrLogicalOff → ∀ (v : UInt32) w,
        Memory.AgreeOn lo hi (bp.vault (w.patch (bp.vaultPhysBase + off) (u32le v)))
          (bp.vault w) := by
      intro off hoff v w
      rw [vault_patch]
      refine Memory.agreeOn_patch ?_
      rw [length_u32le]
      rw [deviceStart, deviceEnd, masterRecordLogicalOff, adminCtrLogicalOff] at h
      rw [adminCtrLogicalOff] at hoff
      omega
    intro p w
    cases p
    · exact ⟨hcell _ (.inl rfl) _ w, hcell _ (.inl rfl) _ w, fun _ _ _ ↦ rfl⟩
    · exact ⟨hcell _ (.inr rfl) _ w, hcell _ (.inr rfl) _ w, fun _ _ _ ↦ rfl⟩

/-- **The storages of a Baochip card.** The three storages share one memory and do not get into each
other's way. -/
theorem platform_keeps : (bp.platform masterKey).Keeps bp.vault bp.vault bp.vault
    openpgpVaultLogicalSpanEnd where
  objectsFaithful := bp.vaultStorage_faithful _
  pinsFaithful := bp.vaultStorage_faithful _
  pinsFit p := by
    have huser : pinUserLogicalOff + 32 ≤ openpgpVaultLogicalSpanEnd := by decide
    have hadmin : pinAdminLogicalOff + 32 ≤ openpgpVaultLogicalSpanEnd := by decide
    cases p
    · exact huser
    · exact hadmin
  cellsFaithful := bp.vaultStorage_faithful _
  objectsApart d hd := bp.platform_spares d (device_disjoint hd)
  cellsApart d hd := bp.platform_spares d (device_disjoint hd)

end Baochip

/-! ## A bench -/

/-- The tag of the bench cipher. -/
def benchTag : Bytes := List.replicate 16 0xA5

/-- Stand-ins for the libraries: a digest that pads and a cipher that appends a tag. -/
def benchCrypto : CardCrypto where
  sha256 := .ofBytes 32
  hkdfSha256 key _ := key
  aesGcmEncrypt _ _ _ m := some (m ++ benchTag)
  aesGcmDecrypt _ _ _ c :=
    if c.drop (c.length - 16) = benchTag then some (c.take (c.length - 16)) else none
  isScalar _ := true
  brainpoolPublic key := .ofBytes 33 (0x02 :: key.toBytes)
  ecdsaSignPrehash key digest := some (.truncated (key.toBytes ++ digest.toBytes))
  isPoint _ := true
  brainpoolEcdh key peer := some (.ofBytes 32 (List.zipWith (· ^^^ ·) key.toBytes peer))
  ed25519Public key := key
  ed25519Sign key message := .ofBytes 64 (key.toBytes ++ message)
  x25519Public key := key
  x25519Ecdh key peer := .ofBytes 32 (List.zipWith (· ^^^ ·) key.toBytes peer.toBytes)

theorem benchCrypto_aead : benchCrypto.Aead where
  decrypt_encrypt := by
    rintro k n aad m c h
    obtain rfl : m ++ benchTag = c := Option.some.inj h
    have hlen : (m ++ benchTag).length - 16 = m.length := by
      rw [List.length_append, benchTag, List.length_replicate]
      omega
    change (if _ then _ else _ : Option Bytes) = _
    rw [hlen, List.drop_left, if_pos rfl, List.take_left]
  length_decrypt := by
    rintro k n aad m c h
    change (if c.drop (c.length - 16) = benchTag then some (c.take (c.length - 16)) else none)
      = some m at h
    split_ifs at h with htag
    have hlen := congrArg List.length htag
    rw [List.length_drop, benchTag, List.length_replicate] at hlen
    rw [← Option.some.inj h, List.length_take]
    omega

/-- The tag ends in no zero. -/
theorem benchCrypto_rejectsPadding : benchCrypto.RejectsPadding := by
  rintro k n aad m c - z hz
  change (if _ then _ else _ : Option Bytes) = _
  rw [if_neg]
  intro htag
  have hlast := congrArg List.getLast? htag
  have hlen := congrArg List.length htag
  rw [List.length_drop, List.length_append, List.length_replicate, benchTag,
    List.length_replicate] at hlen
  rw [List.getLast?_drop, if_neg (by rw [List.length_append, List.length_replicate]; omega),
    List.getLast?_append, List.getLast?_replicate, if_neg (by omega)] at hlast
  cases hlast

/-- A card on the bench; its random generator counts. -/
def Baochip.bench : Baochip ℕ where
  vaultPhysBase := 0
  trng :=
    { fillBytes := fun n t ↦ (.ofBytes n (List.replicate n (UInt8.ofNat t)), t + 1)
      tryFillBytes := fun n t ↦ (.ok (.ofBytes n (List.replicate n (UInt8.ofNat t))), t + 1) }
  crypto := benchCrypto
  deriveMaster := .ofBytes 32
  deviceBinding := []
  aid := .ofBytes 16 openpgpAidPrefix

/-- The platform of a session on the bench. -/
def benchPlatform : CardPlatform Memory ℕ := Baochip.bench.platform (.zero 32)

theorem benchPlatform_keeps : benchPlatform.Keeps Baochip.bench.vault Baochip.bench.vault
    Baochip.bench.vault Baochip.openpgpVaultLogicalSpanEnd := Baochip.bench.platform_keeps

/-- `12345` and `12345678`. -/
def benchPin : CardPin → Bytes
  | .user => [0x31, 0x32, 0x33, 0x34, 0x35]
  | .admin => [0x31, 0x32, 0x33, 0x34, 0x35, 0x36, 0x37, 0x38]

def benchKey : Block 32 := .ofBytes 32 (List.replicate 32 0x07)

/-- The sealed signature key of the bench card. -/
def benchCell : Block 93 :=
  .ofBytes 93 (SealedKeyBlob.blobBytes .openPgpSig (.zero 12) (benchKey.toBytes ++ benchTag))

/-- A storage with both PIN digests and a sealed signature key. -/
def benchStorage : Memory :=
  ((Memory.patch (fun _ ↦ 0) Baochip.pinUserLogicalOff (Block.ofBytes 32 (benchPin .user)).toBytes).patch
    Baochip.pinAdminLogicalOff (Block.ofBytes 32 (benchPin .admin)).toBytes).patch
    (sealedOffset .openPgpSig) benchCell.toBytes

theorem vault_bench (rram : Memory) : Baochip.bench.vault rram = rram := by
  funext a
  exact congrArg rram (Nat.zero_add a)

/-- The PIN digests of every storage that agrees with the bench storage where they lie. -/
theorem storedVerifier_bench {rram : Memory} (h : Memory.AgreeOn Baochip.pinUserLogicalOff
    Baochip.userCtrLogicalOff rram benchStorage) (p : CardPin) :
    storedVerifier benchPlatform Baochip.bench.vault rram p = .ofBytes 32 (benchPin p) := by
  have hlen : ∀ p, (Block.ofBytes 32 (benchPin p)).toBytes.length = 32 :=
    fun p ↦ Block.length_toBytes _
  have hcell := benchCell.length_toBytes
  rw [storedVerifier, vault_bench]
  cases p with
  | user =>
    have hwindow : rram.window Baochip.pinUserLogicalOff 32
        = (Block.ofBytes 32 (benchPin .user)).toBytes := by
      rw [Memory.window_congr h (Nat.le_refl _) (by decide), benchStorage,
        Memory.window_patch_of_disjoint (.inr (by rw [hcell]; decide)),
        Memory.window_patch_of_disjoint (.inl (by decide))]
      have hpatch := Memory.window_patch (fun _ ↦ 0) Baochip.pinUserLogicalOff
        (Block.ofBytes 32 (benchPin .user)).toBytes
      rwa [hlen] at hpatch
    exact (congrArg (Block.ofBytes 32) hwindow).trans (Block.ofBytes_toBytes _)
  | admin =>
    have hwindow : rram.window Baochip.pinAdminLogicalOff 32
        = (Block.ofBytes 32 (benchPin .admin)).toBytes := by
      rw [Memory.window_congr h (by decide) (by decide), benchStorage,
        Memory.window_patch_of_disjoint (.inr (by rw [hcell]; decide))]
      have hpatch := Memory.window_patch (Memory.patch (fun _ ↦ 0) Baochip.pinUserLogicalOff
        (Block.ofBytes 32 (benchPin .user)).toBytes) Baochip.pinAdminLogicalOff
        (Block.ofBytes 32 (benchPin .admin)).toBytes
      rwa [hlen] at hpatch
    exact (congrArg (Block.ofBytes 32) hwindow).trans (Block.ofBytes_toBytes _)

/-- The signature key of every storage that agrees with the bench storage where it lies. -/
theorem unsealedKeys_bench {rram : Memory} (h : Memory.AgreeOn (sealedOffset .openPgpSig)
    sealedKeyRegionEnd rram benchStorage) (attrs : AlgorithmAttributes) :
    unsealedKeys benchPlatform (cellOf (Baochip.bench.vault rram) .sig) .sig attrs
      = (kindFor .sig attrs).elim .empty (SlotKeys.only benchKey) := by
  have hcell : cellOf (Baochip.bench.vault rram) .sig = benchCell := by
    have hlen := benchCell.length_toBytes
    have hpatch := Memory.window_patch ((Memory.patch (fun _ ↦ 0) Baochip.pinUserLogicalOff
      (Block.ofBytes 32 (benchPin .user)).toBytes).patch Baochip.pinAdminLogicalOff
      (Block.ofBytes 32 (benchPin .admin)).toBytes) (sealedOffset .openPgpSig) benchCell.toBytes
    rw [hlen] at hpatch
    have hcells : Memory.AgreeOn (sealedOffset .openPgpSig) sealedKeyRegionEnd
        (Baochip.bench.vault rram) benchStorage := by
      rw [vault_bench]
      exact h
    rw [cellOf_congr hcells]
    exact (congrArg (Block.ofBytes 93) hpatch).trans (Block.ofBytes_toBytes _)
  have hseals : SealedKeyBlob.Seals benchPlatform.crypto benchPlatform.masterKey (purposeOf .sig)
      benchKey.toBytes (.zero 12) (benchKey.toBytes ++ benchTag) :=
    ⟨by decide, by decide, rfl, rfl⟩
  have hkey : sealedKey benchPlatform benchCell .sig = some benchKey :=
    sealedKey_of_seals benchCrypto_aead benchCrypto_rejectsPadding hseals
  rw [unsealedKeys_eq, hcell, hkey]
  rcases kindFor .sig attrs with _ | _ | _ <;> rfl

end Galdralag.OpenPgp
