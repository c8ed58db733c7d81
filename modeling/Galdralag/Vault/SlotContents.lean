import Galdralag.Foundation.CellTable
import Galdralag.Vault.SessionKeys

/-!
# What the slots hold

Public keys, wrapped RSA keys and signing keys of sessions lie in three tables of cells in one
storage. `Contents` says what the vault is for: a finite map for each of the three. Public keys and
session keys are known to it exactly, from whatever the storage held at the start. Of an RSA slot it
knows whether it is empty, or under which master key which private key was stored, or nothing.

Every result of every operation is the one these maps explain, in any order of operations on the
three tables, as long as the slots lie in the regions of their tables. What an operation does is
said once for each, in `memory` terms; the tables then turn a write into an update of one map.
-/

set_option linter.all false

namespace Galdralag.Vault

open Cipher (Primitives AeadError chachaEncrypt chachaDecrypt maxChachaCiphertext maxPlaintext)

/-! ## The tables -/

theorem toNat_ne_of_ne {a b : UInt32} (h : a ≠ b) : a.toNat ≠ b.toNat :=
  fun heq ↦ h (UInt32.toNat_inj.mp heq)

theorem PublicKeySlot.apart {i j : PublicKeySlot} (h : i ≠ j) :
    i.offset + publicKeySlotBytes ≤ j.offset ∨ j.offset + publicKeySlotBytes ≤ i.offset := by
  have hne := toNat_ne_of_ne fun heq ↦ h (congrArg PublicKeySlot.mk heq)
  rw [i.offset_eq, j.offset_eq, publicKeySlotBytes]
  omega

theorem KeySlot.apart {i j : KeySlot} (h : i ≠ j) :
    i.offset + rsaSlotBytes ≤ j.offset ∨ j.offset + rsaSlotBytes ≤ i.offset := by
  have hne := toNat_ne_of_ne fun heq ↦ h (congrArg KeySlot.mk heq)
  rw [i.offset_eq, j.offset_eq, rsaSlotBytes]
  omega

theorem KeySlot.session_apart {i j : KeySlot} (h : i ≠ j) :
    i.sessionOffset + sessionLtSlotBytes ≤ j.sessionOffset ∨
      j.sessionOffset + sessionLtSlotBytes ≤ i.sessionOffset := by
  have hne := toNat_ne_of_ne fun heq ↦ h (congrArg KeySlot.mk heq)
  rw [i.sessionOffset_eq, j.sessionOffset_eq, sessionLtSlotBytes]
  omega

/-- The slots of public keys. -/
def publicKeyTable : CellTable PublicKeySlot where
  offset := PublicKeySlot.offset
  size := publicKeySlotBytes
  apart := PublicKeySlot.apart

/-- The slots of wrapped RSA keys. -/
def rsaTable : CellTable KeySlot where
  offset := KeySlot.offset
  size := rsaSlotBytes
  apart := KeySlot.apart

/-- The slots of session keys. -/
def sessionTable : CellTable KeySlot where
  offset := KeySlot.sessionOffset
  size := sessionLtSlotBytes
  apart := KeySlot.session_apart

/-! ## What the cells mean -/

section Decoding

variable {κ ρ κ₂ κ₃ : Type} (P : Primitives) (rsa : RsaLibrary κ ρ)

/-- The public key in the bytes of a slot. -/
def decodePublicKey (buf : Bytes) : Except PublicKeyVaultError Bytes := do
  let _ ← ensure (buf.take 4 = publicKeyMagic) .slotEmpty
  let len := leNat ((buf.drop 4).take 4)
  let _ ← ensure (len ≤ publicKeySlotBytes - 8) .slotInvalid
  pure ((buf.drop 8).take len)

/-- The private key in the bytes of an RSA slot. -/
def decodeRsaKey (vaultMasterPrk : Bytes) (slot : KeySlot) (buf : Bytes) :
    Except (RsaVaultError ρ) κ := do
  let _ ← ensure (buf.take 4 = rsaVaultMagic) .slotEmpty
  let ctLen := leNat ((buf.drop 4).take 4)
  let _ ← ensure (16 ≤ ctLen ∧ rsaHeaderLen + ctLen ≤ rsaSlotBytes) .slotInvalid
  let nonce : Block 12 := .ofBytes 12 ((buf.drop 8).take 12)
  let ct ← Cipher.pushAll maxChachaCiphertext .slotInvalid ((buf.drop 20).take ctLen)
  let wrapKey ← deriveWrapKey rsa vaultMasterPrk slot
  let plain ← (chachaDecrypt P wrapKey nonce rsaWrapAad ct).mapError .wrap
  (rsa.fromPkcs8Der plain.toBytes).mapError .rsa

/-- What a slot with a public key holds. -/
def publicKeyCell (der : Bytes) : Bytes :=
  let buf := publicKeyMagic ++ u32le (.ofNat der.length) ++ der
  buf ++ List.replicate (publicKeySlotBytes - buf.length) 0

/-- What a slot with a wrapped key holds. -/
def rsaKeyCell (nonce : Block 12) (ct : Vec maxChachaCiphertext) : Bytes :=
  let buf := rsaVaultMagic ++ u32le (.ofNat ct.length) ++ nonce.toBytes ++ ct.toBytes
  buf ++ List.replicate (rsaSlotBytes - buf.length) 0

variable {der : Bytes} {nonce : Block 12} {ct : Vec maxChachaCiphertext}

theorem length_publicKeyCell (h : 8 + der.length ≤ publicKeySlotBytes) :
    (publicKeyCell der).length = publicKeySlotBytes := by
  refine length_padded ?_
  rw [List.length_append, List.length_append, length_u32le]
  exact h

theorem length_rsaKeyCell (h : rsaHeaderLen + ct.length ≤ rsaSlotBytes) :
    (rsaKeyCell nonce ct).length = rsaSlotBytes := by
  refine length_padded ?_
  rw [List.length_append, List.length_append, List.length_append, length_u32le,
    Block.length_toBytes]
  exact h

/-- A length that fits into 32 bits is read back from a header. -/
theorem leNat_header {magic rest : Bytes} (hmagic : magic.length = 4) {n : ℕ} (hn : n < 2 ^ 32) :
    leNat (((magic ++ u32le (.ofNat n) ++ rest).drop 4).take 4) = n := by
  rw [List.append_assoc, List.drop_left' hmagic, List.take_left' (length_u32le _), u32le,
    leNat_leBytes, UInt32.toNat_ofNat']
  omega

/-- **A public key is read back.** -/
theorem decodePublicKey_cell (h : 8 + der.length ≤ publicKeySlotBytes) :
    decodePublicKey (publicKeyCell der) = .ok der := by
  have hsize : publicKeySlotBytes = 2048 := rfl
  have htake : (publicKeyCell der).take 4 = publicKeyMagic := rfl
  have hlen : leNat (((publicKeyCell der).drop 4).take 4) = der.length := by
    rw [publicKeyCell, List.append_assoc]
    exact leNat_header rfl (by omega)
  have hder : ((publicKeyCell der).drop 8).take der.length = der := by
    have hhead : (publicKeyMagic ++ u32le (.ofNat der.length)).length = 8 := rfl
    rw [publicKeyCell, List.append_assoc, List.drop_left' hhead]
    exact List.take_left
  rw [decodePublicKey, ensure, if_pos htake, ok_bind, hlen]
  dsimp only
  rw [ensure, if_pos (by omega), hder]
  rfl

/-- **A wrapped key is read back** under the master key it was wrapped with. -/
theorem decodeRsaKey_cell (hP : Cipher.AeadRecovers P) {prk : Bytes} {slot : KeySlot}
    {wrapKey : Block 32} {plain : Bytes} {key : κ} (hfits : rsaHeaderLen + ct.length ≤ rsaSlotBytes)
    (hwrap : deriveWrapKey rsa prk slot = .ok wrapKey)
    (hct : chachaEncrypt P wrapKey nonce rsaWrapAad plain = .ok ct)
    (hkey : rsa.fromPkcs8Der plain = .ok key) :
    decodeRsaKey P rsa prk slot (rsaKeyCell nonce ct) = .ok key := by
  have hsize : rsaSlotBytes = 8192 := rfl
  have hheader : rsaHeaderLen = 20 := rfl
  have htake : (rsaKeyCell nonce ct).take 4 = rsaVaultMagic := rfl
  have hlen : leNat (((rsaKeyCell nonce ct).drop 4).take 4) = ct.length := by
    rw [rsaKeyCell, List.append_assoc, List.append_assoc]
    exact leNat_header rfl (by omega)
  have hnonce : ((rsaKeyCell nonce ct).drop 8).take 12 = nonce.toBytes := by
    have hhead : (rsaVaultMagic ++ u32le (.ofNat ct.length)).length = 8 := rfl
    rw [rsaKeyCell, List.append_assoc, List.append_assoc, List.drop_left' hhead]
    exact List.take_left' nonce.length_toBytes
  have hbody : ((rsaKeyCell nonce ct).drop 20).take ct.length = ct.toBytes := by
    have hhead : (rsaVaultMagic ++ u32le (.ofNat ct.length) ++ nonce.toBytes).length = 20 := by
      rw [List.length_append, Block.length_toBytes]
      rfl
    rw [rsaKeyCell, List.append_assoc, List.drop_left' hhead]
    exact List.take_left
  -- what was encrypted is a body and its tag
  simp only [chachaEncrypt, ensure_bind_eq_ok] at hct
  simp only [except_bind_eq_ok, Cipher.okOr_eq_ok, Cipher.pushAll_eq_ok] at hct
  obtain ⟨hplain, ⟨body, tag⟩, hseal, hbytes⟩ := hct
  have htag := tag.length_toBytes
  have hsum : ct.length = body.length + 16 := by
    rw [Vec.length, ← hbytes, List.length_append, htag]
  obtain ⟨opened, rfl⟩ : ∃ opened : Vec maxPlaintext, opened.toBytes = plain := ⟨⟨plain, hplain⟩, rfl⟩
  have hopen : chachaDecrypt P wrapKey nonce rsaWrapAad ct = .ok opened := by
    have hcut : ct.length - 16 = body.length := by omega
    simp only [chachaDecrypt, ensure_bind_eq_ok]
    simp only [except_bind_eq_ok, Cipher.okOr_eq_ok, Cipher.pushAll_eq_ok]
    refine ⟨by omega, ?_, tag, ?_, opened.toBytes, ?_, rfl⟩
    · rw [← hbytes, hcut, List.take_left]
      have hmax : maxChachaCiphertext = maxPlaintext + 16 := rfl
      have hle := ct.length_le
      omega
    · rw [← hbytes, hcut, List.drop_left]
      exact Cipher.toArray_of_length htag
    · rw [← hbytes, hcut, List.take_left]
      exact hP.chacha hseal
  rw [decodeRsaKey, ensure, if_pos htake, ok_bind, hlen]
  dsimp only
  have hpush : Cipher.pushAll maxChachaCiphertext (RsaVaultError.slotInvalid : RsaVaultError ρ)
      ct.toBytes = .ok ct := Cipher.pushAll_eq_ok.mpr rfl
  rw [ensure, if_pos (by omega), ok_bind, hnonce, hbody, Block.ofBytes_toBytes, hpush, ok_bind,
    hwrap, ok_bind, hopen]
  change Except.mapError _ (rsa.fromPkcs8Der opened.toBytes) = _
  rw [hkey]
  rfl

end Decoding

/-! ## What the operations do -/

section Operations

variable {W T κ ρ κ₂ κ₃ : Type} {storage : VaultStorage W} {memory : W → Memory} {limit : ℕ}
  (hfaithful : storage.Faithful limit memory)
include hfaithful

/-- Reading a part of the storage, where that cannot fail. -/
theorem read_orElse {ε : Type} {e : ε} {off n : ℕ} (h : off + n ≤ limit) (w : W) :
    (Fallible.orElse (.reading fun w ↦ storage.read w off n) e : Fallible W ε Bytes) w
      = (.ok ((memory w).window off n), w) :=
  Fallible.orElse_eq_ok.mpr (Fallible.reading_eq_ok.mpr ⟨hfaithful.read_eq w off n h, rfl⟩)

/-- Writing, where that cannot fail. -/
theorem write_orElse {ε : Type} {e : ε} {off : ℕ} {bs : Bytes} (h : off + bs.length ≤ limit) (w : W) :
    (Fallible.orElse (storage.write off bs) e : Fallible W ε PUnit) w
      = (.ok ⟨⟩, (storage.write off bs w).2) :=
  Fallible.orElse_eq_ok.mpr (hfaithful.write_eq w h)

theorem loadPublicKey_eq {slot : PublicKeySlot} (h : slot.offset + publicKeySlotBytes ≤ limit)
    (w : W) : vaultLoadPublicKeyDer storage slot w
      = (decodePublicKey (publicKeyTable.cell (memory w) slot), w) := by
  have hcell : (memory w).window slot.offset publicKeySlotBytes
      = publicKeyTable.cell (memory w) slot := rfl
  rw [vaultLoadPublicKeyDer, Fallible.bind_of_ok (read_orElse hfaithful h w), hcell,
    decodePublicKey, Fallible.require_bind_apply, ensure_bind]
  dsimp only
  rw [Fallible.require_bind_apply, ensure_bind]
  split_ifs <;> rfl

theorem storePublicKey_eq {slot : PublicKeySlot} (h : slot.offset + publicKeySlotBytes ≤ limit)
    (der : Bytes) (overwrite : Bool) (w : W) :
    vaultStorePublicKeyDer storage slot der overwrite w =
      if 8 + der.length ≤ publicKeySlotBytes then
        if (publicKeyTable.cell (memory w) slot).take 4 ≠ publicKeyMagic ∨ overwrite = true then
          (.ok ⟨⟩, (storage.write slot.offset (publicKeyCell der) w).2)
        else (.error .slotOccupied, w)
      else (.error .derTooLarge, w) := by
  have hsize : 4 ≤ publicKeySlotBytes := by decide
  have hprobe : (memory w).window slot.offset 4 = (publicKeyTable.cell (memory w) slot).take 4 :=
    (publicKeyTable.take_cell hsize).symm
  rw [vaultStorePublicKeyDer, Fallible.require_bind_apply]
  split_ifs with hlen hfree
  · have hbound : slot.offset + (publicKeyCell der).length ≤ limit := by
      rwa [length_publicKeyCell hlen]
    rw [Fallible.bind_of_ok (read_orElse hfaithful (by omega) w), Fallible.require_bind_apply,
      hprobe, if_pos hfree]
    exact write_orElse hfaithful hbound w
  · rw [Fallible.bind_of_ok (read_orElse hfaithful (by omega) w), Fallible.require_bind_apply,
      hprobe, if_neg hfree]
  · rfl

theorem loadSessionKey_eq (lib : SessionKeyLibrary κ₂ κ₃) {slot : KeySlot}
    (h : slot.sessionOffset + sessionLtSlotBytes ≤ limit) (c : UInt8) (w : W) :
    vaultLoadSessionLongTermSigningKey storage lib slot c w
      = (decodeSessionKey lib c (sessionTable.cell (memory w) slot), w) := by
  rw [vaultLoadSessionLongTermSigningKey, Fallible.bind_of_ok (read_orElse hfaithful h w)]
  rfl

theorem storeSessionKey_eq (lib : SessionKeyLibrary κ₂ κ₃) {slot : KeySlot}
    (h : slot.sessionOffset + sessionLtSlotBytes ≤ limit) (key : SessionLongTermSigningKey κ₂ κ₃)
    (overwrite : Bool) (w : W) :
    vaultStoreSessionLongTermSigningKey storage lib slot key overwrite w =
      if (sessionTable.cell (memory w) slot).take 4 ≠ sessionLtMagic ∨ overwrite = true then
        (.ok ⟨⟩, (storage.write slot.sessionOffset (sessionKeyCell lib key) w).2)
      else (.error .slotOccupied, w) := by
  have hsize : 4 ≤ sessionLtSlotBytes := by decide
  have hprobe : (memory w).window slot.sessionOffset 4 = (sessionTable.cell (memory w) slot).take 4 :=
    (sessionTable.take_cell hsize).symm
  rw [vaultStoreSessionLongTermSigningKey,
    Fallible.bind_of_ok (read_orElse hfaithful (by omega) w), Fallible.require_bind_apply,
    hprobe]
  split_ifs
  · have hbound : slot.sessionOffset + (sessionKeyCell lib key).length ≤ limit := by
      rwa [length_sessionKeyCell]
    exact write_orElse hfaithful hbound w
  · rfl

variable (trng : HardwareTrng T) (P : Primitives) (rsa : RsaLibrary κ ρ)

theorem loadRsaKey_eq (prk : Bytes) {slot : KeySlot} (h : slot.offset + rsaSlotBytes ≤ limit)
    (w : W) : vaultLoadRsaKey storage P rsa prk slot w
      = (decodeRsaKey P rsa prk slot (rsaTable.cell (memory w) slot), w) := by
  have hcell : (memory w).window slot.offset rsaSlotBytes = rsaTable.cell (memory w) slot := rfl
  rw [vaultLoadRsaKey, Fallible.bind_of_ok (read_orElse hfaithful h w), hcell, decodeRsaKey,
    Fallible.require_bind_apply, ensure_bind]
  dsimp only
  simp only [Fallible.lift_bind_lift]
  rw [Fallible.require_bind_apply, ensure_bind]
  split_ifs <;> rfl

/-- A store that succeeds has written a cell from which the key is read back. -/
theorem storeRsaKey_ok (hP : Cipher.AeadRecovers P)
    (hrsa : ∀ key der, rsa.toPkcs8Der key = .ok der → rsa.fromPkcs8Der der = .ok key) {prk : Bytes}
    {slot : KeySlot} (h : slot.offset + rsaSlotBytes ≤ limit) {key : κ} {overwrite : Bool}
    {s s' : W × T} {u : PUnit}
    (hrun : vaultStoreRsaKey storage trng P rsa prk slot key overwrite s = (.ok u, s')) :
    ∃ cell, cell.length = rsaSlotBytes ∧ cell.take 4 = rsaVaultMagic ∧
      decodeRsaKey P rsa prk slot cell = .ok key ∧
      memory s'.1 = (memory s.1).patch slot.offset cell := by
  simp only [vaultStoreRsaKey, Fallible.bind_eq_ok, Fallible.orElse_eq_ok, Fallible.reading_eq_ok,
    Fallible.require_eq_ok, Fallible.lift_eq_ok, Fallible.zoom_eq_ok, mapError_eq_ok_iff] at hrun
  obtain ⟨probe, _, ⟨-, rfl⟩, _, _, ⟨-, rfl⟩, der, _, ⟨hder, rfl⟩, wrapKey, _,
    ⟨hwrap, rfl⟩, nonce, _, ⟨t, -, rfl⟩, ct, _, ⟨hct, rfl⟩, _, _, ⟨hfits, rfl⟩, w, hwrite, rfl⟩ :=
    hrun
  have hlen : (rsaKeyCell nonce ct).length = rsaSlotBytes := length_rsaKeyCell hfits
  have hbound : slot.offset + (rsaKeyCell nonce ct).length ≤ limit := by rwa [hlen]
  have hmemory := hfaithful.memory_write s.1 slot.offset (rsaKeyCell nonce ct) hbound
  refine ⟨rsaKeyCell nonce ct, hlen, rfl, ?_, ?_⟩
  · exact decodeRsaKey_cell P rsa hP hfits hwrap hct (hrsa key der hder)
  · rw [← hmemory]
    exact congrArg memory (congrArg Prod.snd hwrite).symm

/-- A store is refused as occupied where the slot has the magic and may not be overwritten, and
nowhere else. -/
theorem storeRsaKey_occupied (prk : Bytes) {slot : KeySlot} (h : slot.offset + rsaSlotBytes ≤ limit)
    (key : κ) (overwrite : Bool) (s : W × T) :
    (vaultStoreRsaKey storage trng P rsa prk slot key overwrite s).1 = .error .slotOccupied ↔
      (rsaTable.cell (memory s.1) slot).take 4 = rsaVaultMagic ∧ overwrite = false := by
  have hsize : 4 ≤ rsaSlotBytes := by decide
  have hprobe : (memory s.1).window slot.offset 4 = (rsaTable.cell (memory s.1) slot).take 4 :=
    (rsaTable.take_cell hsize).symm
  have hread : (Fallible.orElse (.reading fun s : W × T ↦ storage.read s.1 slot.offset 4)
      RsaVaultError.storageError : Fallible (W × T) (RsaVaultError ρ) Bytes) s
        = (.ok ((rsaTable.cell (memory s.1) slot).take 4), s) := by
    rw [← hprobe]
    exact Fallible.orElse_eq_ok.mpr (Fallible.reading_eq_ok.mpr
      ⟨hfaithful.read_eq s.1 slot.offset 4 (by omega), rfl⟩)
  rw [vaultStoreRsaKey, Fallible.bind_of_ok hread, Fallible.require_bind_apply]
  generalize (rsaTable.cell (memory s.1) slot).take 4 = probe
  by_cases hfree : probe ≠ rsaVaultMagic ∨ overwrite = true
  · rw [if_pos hfree]
    refine iff_of_false (fun he ↦ ?_) fun hocc ↦ ?_
    · have hlift : ∀ {ε α : Type} (f : ε → RsaVaultError ρ) (r : Except ε α),
          (∀ e, f e ≠ .slotOccupied) → Fallible.FailsIn (· ≠ RsaVaultError.slotOccupied)
            (.lift (r.mapError f) : Fallible (W × T) (RsaVaultError ρ) α) :=
        fun f r hf ↦ .lift (ErrorsIn.mapError (P := (· ≠ RsaVaultError.slotOccupied)) hf r)
      refine Fallible.FailsIn.bind (P := (· ≠ RsaVaultError.slotOccupied)) (hlift _ _ nofun)
        (fun der ↦ .bind (hlift _ _ nofun) fun wrapKey ↦ .bind (.orElse nofun _) fun nonce ↦
          .bind (hlift _ _ nofun) fun ct ↦ .bind (.require nofun _) fun _ ↦ .orElse nofun _) s _ he
        rfl
    · rcases hfree with hfree | hover
      · exact hfree hocc.1
      · exact absurd (hocc.2.symm.trans hover) nofun
  · rw [if_neg hfree]
    rw [not_or, not_not, Bool.not_eq_true] at hfree
    exact iff_of_true rfl hfree

/-- A store that fails leaves the storage as it was. -/
theorem storeRsaKey_error {prk : Bytes} {slot : KeySlot} (h : slot.offset + rsaSlotBytes ≤ limit)
    (key : κ) (overwrite : Bool) :
    Fallible.MovesOnError (fun s s' : W × T ↦ s'.1 = s.1)
      (vaultStoreRsaKey storage trng P rsa prk slot key overwrite) := by
  have htrans : ∀ {a b c : W × T}, b.1 = a.1 → c.1 = b.1 → c.1 = a.1 := fun h h' ↦ h'.trans h
  have hrefl : ∀ s : W × T, s.1 = s.1 := fun s ↦ rfl
  refine Fallible.Moves.bind_onError (.orElse (.reading hrefl _) _) htrans fun probe ↦ ?_
  refine .require_bind hrefl fun _ ↦ ?_
  refine Fallible.Moves.bind_onError (.lift hrefl _) htrans fun der ↦ ?_
  refine Fallible.Moves.bind_onError (.lift hrefl _) htrans fun wrapKey ↦ ?_
  refine Fallible.Moves.bind_onError (.orElse (fun s ↦ hrefl s) _) htrans fun nonce ↦ ?_
  refine Fallible.Moves.bind_onError (.lift hrefl _) htrans fun ct ↦ ?_
  refine .require_bind hrefl fun hfits s e he ↦ ?_
  have hbound : slot.offset + (rsaKeyCell nonce ct).length ≤ limit := by
    rwa [length_rsaKeyCell hfits]
  have hwrite := hfaithful.write_ok s.1 slot.offset (rsaKeyCell nonce ct) hbound
  have hok : (Fallible.orElse (.zoom Prod.fst (fun w (s : W × T) ↦ (w, s.2))
      (storage.write slot.offset (rsaKeyCell nonce ct))) RsaVaultError.storageError :
        Fallible (W × T) (RsaVaultError ρ) PUnit) s
      = (.ok ⟨⟩, ((storage.write slot.offset (rsaKeyCell nonce ct) s.1).2, s.2)) :=
    Fallible.orElse_eq_ok.mpr (Fallible.zoom_eq_ok.mpr ⟨_, Prod.ext hwrite rfl, rfl⟩)
  have hne := (congrArg Prod.fst hok).symm.trans he
  cases hne

end Operations

/-! ## The maps -/

section Contents

variable {κ ρ κ₂ κ₃ : Type}

/-- What is known of an RSA slot. -/
inductive RsaContent (κ : Type) where
  | unknown
  | empty
  | holds (vaultMasterPrk : Bytes) (key : κ)

/-- What the vault holds: a map for each table. A session slot answers for each curve. -/
structure Contents (κ κ₂ κ₃ : Type) where
  publicKey : PublicKeySlot → Except PublicKeyVaultError Bytes
  rsaKey : KeySlot → RsaContent κ
  sessionKey : KeySlot → UInt8 →
    Except SessionLongTermSigningVaultError (SessionLongTermSigningKey κ₂ κ₃)

/-- What a session slot answers once it holds a key. -/
def SessionLongTermSigningKey.answers (key : SessionLongTermSigningKey κ₂ κ₃) (c : UInt8) :
    Except SessionLongTermSigningVaultError (SessionLongTermSigningKey κ₂ κ₃) :=
  if key.curveId = c then .ok key else .error .invalidEncoding

/-- The operations on the three tables. -/
inductive VaultCall (κ κ₂ κ₃ : Type) where
  | storePublicKey (slot : PublicKeySlot) (der : Bytes) (overwrite : Bool)
  | loadPublicKey (slot : PublicKeySlot)
  | deletePublicKey (slot : PublicKeySlot)
  | storeRsaKey (vaultMasterPrk : Bytes) (slot : KeySlot) (key : κ) (overwrite : Bool)
  | loadRsaKey (vaultMasterPrk : Bytes) (slot : KeySlot)
  | deleteRsaKey (slot : KeySlot)
  | storeSessionKey (slot : KeySlot) (key : SessionLongTermSigningKey κ₂ κ₃) (overwrite : Bool)
  | loadSessionKey (slot : KeySlot) (expectedCurve : UInt8)

/-- What an operation returns. -/
@[reducible] def VaultCall.Result (ρ : Type) : VaultCall κ κ₂ κ₃ → Type
  | .storePublicKey _ _ _ => Except PublicKeyVaultError PUnit
  | .loadPublicKey _ => Except PublicKeyVaultError Bytes
  | .deletePublicKey _ => Except PublicKeyVaultError PUnit
  | .storeRsaKey _ _ _ _ => Except (RsaVaultError ρ) PUnit
  | .loadRsaKey _ _ => Except (RsaVaultError ρ) κ
  | .deleteRsaKey _ => Except (RsaVaultError ρ) PUnit
  | .storeSessionKey _ _ _ => Except SessionLongTermSigningVaultError PUnit
  | .loadSessionKey _ _ =>
    Except SessionLongTermSigningVaultError (SessionLongTermSigningKey κ₂ κ₃)

/-- The maps after an operation with a result. -/
def Contents.after (C : Contents κ κ₂ κ₃) :
    (c : VaultCall κ κ₂ κ₃) → c.Result ρ → Contents κ κ₂ κ₃
  | .storePublicKey slot der _, .ok _ =>
    { C with publicKey := Function.update C.publicKey slot (.ok der) }
  | .deletePublicKey slot, .ok _ =>
    { C with publicKey := Function.update C.publicKey slot (.error .slotEmpty) }
  | .storeRsaKey prk slot key _, .ok _ =>
    { C with rsaKey := Function.update C.rsaKey slot (.holds prk key) }
  | .deleteRsaKey slot, .ok _ => { C with rsaKey := Function.update C.rsaKey slot .empty }
  | .storeSessionKey slot key _, .ok _ =>
    { C with sessionKey := Function.update C.sessionKey slot key.answers }
  | _, _ => C

/-- The maps explain a result. A store fails where the slot is occupied and may not be overwritten,
and a public key that is too long is refused before that; storing an RSA key may fail for other
reasons as well. -/
def Contents.Explains (C : Contents κ κ₂ κ₃) : (c : VaultCall κ κ₂ κ₃) → c.Result ρ → Prop
  | .storePublicKey slot der overwrite, r =>
    (publicKeySlotBytes < 8 + der.length → r = .error .derTooLarge) ∧
    (8 + der.length ≤ publicKeySlotBytes →
      (C.publicKey slot = .error .slotEmpty ∨ overwrite = true → r = .ok ⟨⟩) ∧
      (C.publicKey slot ≠ .error .slotEmpty ∧ overwrite = false → r = .error .slotOccupied))
  | .loadPublicKey slot, r => r = C.publicKey slot
  | .deletePublicKey _, r => r = .ok ⟨⟩
  | .storeRsaKey _ slot _ overwrite, r =>
    (∀ prk key, C.rsaKey slot = .holds prk key → overwrite = false → r = .error .slotOccupied) ∧
    (C.rsaKey slot = .empty ∨ overwrite = true → r ≠ .error .slotOccupied)
  | .loadRsaKey prk slot, r =>
    match C.rsaKey slot with
    | .unknown => True
    | .empty => r = .error .slotEmpty
    | .holds prk' key => prk = prk' → r = .ok key
  | .deleteRsaKey _, r => r = .ok ⟨⟩
  | .storeSessionKey slot key overwrite, r =>
    (C.sessionKey slot key.curveId = .error .slotEmpty ∨ overwrite = true → r = .ok ⟨⟩) ∧
    (C.sessionKey slot key.curveId ≠ .error .slotEmpty ∧ overwrite = false →
      r = .error .slotOccupied)
  | .loadSessionKey slot c, r => r = C.sessionKey slot c

/-- The maps explain every result of a record, one after the other. -/
def Contents.ExplainsAll (C : Contents κ κ₂ κ₃) :
    List ((c : VaultCall κ κ₂ κ₃) × c.Result ρ) → Prop
  | [] => True
  | e :: es => C.Explains e.1 e.2 ∧ (C.after e.1 e.2).ExplainsAll es

/-- The RSA slots that meet none of the other tables. -/
def KeySlot.InRsaRegion (slot : KeySlot) : Prop := 9 ≤ slot.index.toNat ∧ slot.index.toNat < 128

instance (slot : KeySlot) : Decidable slot.InRsaRegion :=
  inferInstanceAs (Decidable (9 ≤ slot.index.toNat ∧ slot.index.toNat < 128))

/-- The operation is on a slot in the region of its table. -/
def VaultCall.InRegion (limit : ℕ) : VaultCall κ κ₂ κ₃ → Prop
  | .storePublicKey slot _ _ => slot.InTable
  | .loadPublicKey slot => slot.InTable
  | .deletePublicKey slot => slot.InTable
  | .storeRsaKey _ slot _ _ => slot.InRsaRegion
  | .loadRsaKey _ slot => slot.InRsaRegion
  | .deleteRsaKey slot => slot.InRsaRegion
  | .storeSessionKey slot _ _ => slot.sessionOffset + sessionLtSlotBytes ≤ limit
  | .loadSessionKey slot _ => slot.sessionOffset + sessionLtSlotBytes ≤ limit

end Contents

/-! ### A memory and its maps -/

section Describes

variable {κ ρ κ₂ κ₃ : Type} (P : Primitives) (rsa : RsaLibrary κ ρ) (lib : SessionKeyLibrary κ₂ κ₃)

/-- What is known of an RSA slot holds of its bytes. -/
def RsaContent.Describes (slot : KeySlot) (buf : Bytes) : RsaContent κ → Prop
  | .unknown => True
  | .empty => buf.take 4 ≠ rsaVaultMagic
  | .holds prk key => buf.take 4 = rsaVaultMagic ∧ decodeRsaKey P rsa prk slot buf = .ok key

/-- The maps say what a memory holds. -/
structure Contents.Describes (C : Contents κ κ₂ κ₃) (mem : Memory) : Prop where
  publicKey : ∀ slot, slot.InTable → decodePublicKey (publicKeyTable.cell mem slot) = C.publicKey slot
  rsaKey : ∀ slot, slot.InRsaRegion →
    (C.rsaKey slot).Describes P rsa slot (rsaTable.cell mem slot)
  sessionKey : ∀ slot c, decodeSessionKey lib c (sessionTable.cell mem slot) = C.sessionKey slot c

/-- The maps of a memory, where no RSA key has been stored yet. -/
def Contents.ofMemory (mem : Memory) : Contents κ κ₂ κ₃ where
  publicKey slot := decodePublicKey (publicKeyTable.cell mem slot)
  rsaKey slot := if (rsaTable.cell mem slot).take 4 = rsaVaultMagic then .unknown else .empty
  sessionKey slot c := decodeSessionKey lib c (sessionTable.cell mem slot)

theorem describes_ofMemory (mem : Memory) :
    (Contents.ofMemory lib mem : Contents κ κ₂ κ₃).Describes P rsa lib mem where
  publicKey _ _ := rfl
  rsaKey slot _ := by
    rw [Contents.ofMemory]
    dsimp only
    generalize rsaTable.cell mem slot = buf
    by_cases h : buf.take 4 = rsaVaultMagic
    · rw [if_pos h]
      exact True.intro
    · rw [if_neg h]
      exact h
  sessionKey _ _ := rfl

variable {P rsa lib} {C : Contents κ κ₂ κ₃} {mem : Memory} {bs : Bytes}

/-! The three regions lie one behind the other. -/

theorem publicKey_end {slot : PublicKeySlot} (h : slot.InTable) :
    slot.offset + publicKeySlotBytes ≤ 65792 := by
  rw [PublicKeySlot.InTable] at h
  rw [slot.offset_eq, publicKeySlotBytes]
  omega

theorem rsaKey_bounds {slot : KeySlot} (h : slot.InRsaRegion) :
    73728 ≤ slot.offset ∧ slot.offset + rsaSlotBytes ≤ 1048576 := by
  rw [KeySlot.InRsaRegion] at h
  rw [slot.offset_eq, rsaSlotBytes]
  omega

theorem sessionKey_start (slot : KeySlot) : 1048576 ≤ slot.sessionOffset := by
  rw [slot.sessionOffset_eq]
  omega

/-- Overwriting a slot of public keys. -/
theorem Contents.Describes.patch_publicKey (h : C.Describes P rsa lib mem) {slot : PublicKeySlot}
    (hslot : slot.InTable) (hlen : bs.length = publicKeySlotBytes) :
    Contents.Describes P rsa lib
      { C with publicKey := Function.update C.publicKey slot (decodePublicKey bs) }
      (mem.patch slot.offset bs) := by
  have hend := publicKey_end hslot
  rw [← hlen] at hend
  constructor
  · intro slot' hslot'
    change decodePublicKey (publicKeyTable.cell (mem.patch (publicKeyTable.offset slot) bs) slot') = _
    rw [publicKeyTable.cell_patch mem slot hlen]
    dsimp only
    by_cases heq : slot' = slot
    · rw [heq, Function.update_self, Function.update_self]
    · rw [Function.update_of_ne heq, Function.update_of_ne heq]
      exact h.publicKey slot' hslot'
  · intro slot' hslot'
    have hstart := (rsaKey_bounds hslot').1
    have hapart : slot.offset + bs.length ≤ slot'.offset := by omega
    rw [rsaTable.cell_patch_of_disjoint (.inr hapart)]
    exact h.rsaKey slot' hslot'
  · intro slot' c
    have hstart := sessionKey_start slot'
    have hapart : slot.offset + bs.length ≤ slot'.sessionOffset := by omega
    rw [sessionTable.cell_patch_of_disjoint (.inr hapart)]
    exact h.sessionKey slot' c

/-- Overwriting an RSA slot. -/
theorem Contents.Describes.patch_rsaKey (h : C.Describes P rsa lib mem) {slot : KeySlot}
    (hslot : slot.InRsaRegion) (hlen : bs.length = rsaSlotBytes) {content : RsaContent κ}
    (hcontent : content.Describes P rsa slot bs) :
    Contents.Describes P rsa lib { C with rsaKey := Function.update C.rsaKey slot content }
      (mem.patch slot.offset bs) := by
  obtain ⟨hstart, hend⟩ := rsaKey_bounds hslot
  rw [← hlen] at hend
  constructor
  · intro slot' hslot'
    have hend' := publicKey_end hslot'
    have hapart : slot'.offset + publicKeySlotBytes ≤ slot.offset := by omega
    rw [publicKeyTable.cell_patch_of_disjoint (.inl hapart)]
    exact h.publicKey slot' hslot'
  · intro slot' hslot'
    change RsaContent.Describes P rsa slot'
      (rsaTable.cell (mem.patch (rsaTable.offset slot) bs) slot') _
    rw [rsaTable.cell_patch mem slot hlen]
    dsimp only
    by_cases heq : slot' = slot
    · subst heq
      rw [Function.update_self, Function.update_self]
      exact hcontent
    · rw [Function.update_of_ne heq, Function.update_of_ne heq]
      exact h.rsaKey slot' hslot'
  · intro slot' c
    have hstart' := sessionKey_start slot'
    have hapart : slot.offset + bs.length ≤ slot'.sessionOffset := by omega
    rw [sessionTable.cell_patch_of_disjoint (.inr hapart)]
    exact h.sessionKey slot' c

/-- Overwriting a slot of session keys. -/
theorem Contents.Describes.patch_sessionKey (h : C.Describes P rsa lib mem) (slot : KeySlot)
    (hlen : bs.length = sessionLtSlotBytes) :
    Contents.Describes P rsa lib { C with
        sessionKey := Function.update C.sessionKey slot fun c ↦ decodeSessionKey lib c bs }
      (mem.patch slot.sessionOffset bs) := by
  have hstart := sessionKey_start slot
  constructor
  · intro slot' hslot'
    have hend' := publicKey_end hslot'
    have hapart : slot'.offset + publicKeySlotBytes ≤ slot.sessionOffset := by omega
    rw [publicKeyTable.cell_patch_of_disjoint (.inl hapart)]
    exact h.publicKey slot' hslot'
  · intro slot' hslot'
    obtain ⟨-, hend'⟩ := rsaKey_bounds hslot'
    have hapart : slot'.offset + rsaSlotBytes ≤ slot.sessionOffset := by omega
    rw [rsaTable.cell_patch_of_disjoint (.inl hapart)]
    exact h.rsaKey slot' hslot'
  · intro slot' c
    change decodeSessionKey lib c
      (sessionTable.cell (mem.patch (sessionTable.offset slot) bs) slot') = _
    rw [sessionTable.cell_patch mem slot hlen]
    dsimp only
    by_cases heq : slot' = slot
    · rw [heq, Function.update_self, Function.update_self]
    · rw [Function.update_of_ne heq, Function.update_of_ne heq]
      exact h.sessionKey slot' c

end Describes

/-! ## Runs -/

section Runs

variable {W T κ ρ κ₂ κ₃ : Type} (storage : VaultStorage W) (trng : HardwareTrng T) (P : Primitives)
  (rsa : RsaLibrary κ ρ) (lib : SessionKeyLibrary κ₂ κ₃)

/-- Perform an operation. -/
def VaultCall.perform : (c : VaultCall κ κ₂ κ₃) → W × T → c.Result ρ × (W × T)
  | .storePublicKey slot der overwrite, s =>
    let r := vaultStorePublicKeyDer storage slot der overwrite s.1
    (r.1, (r.2, s.2))
  | .loadPublicKey slot, s =>
    let r := vaultLoadPublicKeyDer storage slot s.1
    (r.1, (r.2, s.2))
  | .deletePublicKey slot, s =>
    let r := vaultDeletePublicKey storage slot s.1
    (r.1, (r.2, s.2))
  | .storeRsaKey prk slot key overwrite, s =>
    vaultStoreRsaKey storage trng P rsa prk slot key overwrite s
  | .loadRsaKey prk slot, s =>
    let r := vaultLoadRsaKey storage P rsa prk slot s.1
    (r.1, (r.2, s.2))
  | .deleteRsaKey slot, s =>
    let r := vaultDeleteRsaKey storage slot s.1
    (r.1, (r.2, s.2))
  | .storeSessionKey slot key overwrite, s =>
    let r := vaultStoreSessionLongTermSigningKey storage lib slot key overwrite s.1
    (r.1, (r.2, s.2))
  | .loadSessionKey slot c, s =>
    let r := vaultLoadSessionLongTermSigningKey storage lib slot c s.1
    (r.1, (r.2, s.2))

/-- The record of a run: the operations with their results. -/
def vaultRecord : List (VaultCall κ κ₂ κ₃) → W × T → List ((c : VaultCall κ κ₂ κ₃) × c.Result ρ)
  | [], _ => []
  | c :: cs, s =>
    let r := c.perform storage trng P rsa lib s
    ⟨c, r.1⟩ :: vaultRecord cs r.2

variable {storage trng P rsa lib} {memory : W → Memory} {limit : ℕ} {C : Contents κ κ₂ κ₃}

/-- An empty public-key slot is one without the magic. -/
theorem decodePublicKey_eq_empty_iff {buf : Bytes} :
    decodePublicKey buf = .error .slotEmpty ↔ buf.take 4 ≠ publicKeyMagic := by
  rw [decodePublicKey, ensure_bind]
  dsimp only
  rw [ensure_bind]
  split_ifs with hmagic hlen
  · exact iff_of_false nofun (not_not_intro hmagic)
  · exact iff_of_false nofun (not_not_intro hmagic)
  · exact iff_of_true rfl hmagic

/-- An empty session slot is one without the magic, for every curve. -/
theorem decodeSessionKey_eq_empty_iff {c : UInt8} {buf : Bytes} :
    decodeSessionKey lib c buf = .error .slotEmpty ↔ buf.take 4 ≠ sessionLtMagic := by
  have hencoding : SessionLongTermSigningVaultError.invalidEncoding ≠ .slotEmpty := by
    rintro ⟨⟩
  have hensure : ∀ (p : Prop) [Decidable p],
      ErrorsIn (· ≠ .slotEmpty) (ensure p SessionLongTermSigningVaultError.invalidEncoding) :=
    fun p _ ↦ .ensure (by rintro ⟨⟩) p
  have hinvalid : SessionLongTermSigningVaultError.invalidScalar ≠ .slotEmpty := by
    rintro ⟨⟩
  have hscalar : ∀ (c : UInt8) n bs, ErrorsIn (· ≠ .slotEmpty) (keyOfScalar lib c n bs) := by
    intro c n bs
    rw [keyOfScalar]
    split_ifs
    · refine .bind (hensure _) fun _ ↦ ?_
      cases lib.p256OfBytes (.ofBytes 32 bs) with
      | none => exact .error hinvalid
      | some key => exact .ok _
    · refine .bind (hensure _) fun _ ↦ ?_
      cases lib.p384OfBytes (.ofBytes 48 bs) with
      | none => exact .error hinvalid
      | some key => exact .ok _
    · exact .error hencoding
  rw [decodeSessionKey, ensure_bind]
  split_ifs with hmagic
  · refine iff_of_false (fun h ↦ ?_) (not_not_intro hmagic)
    have herrors : ErrorsIn (· ≠ SessionLongTermSigningVaultError.slotEmpty) (do
        let curveId := buf.getD 4 0
        let _ ← ensure (curveId = c) .invalidEncoding
        let slen := (buf.getD 5 0).toNat
        let _ ← ensure (slen ≠ 0 ∧ slen ≤ 64 ∧ 6 + slen ≤ sessionLtSlotBytes) .invalidEncoding
        keyOfScalar lib curveId slen ((buf.drop 6).take slen)) :=
      .bind (hensure _) fun _ ↦ .bind (hensure _) fun _ ↦ hscalar _ _ _
    exact herrors _ h rfl
  · exact iff_of_true rfl hmagic

/-- A cell of zeros has no magic. -/
theorem take_zeros {n : ℕ} {magic : Bytes} (h : magic.headD 0 ≠ 0) :
    (List.replicate n (0 : UInt8)).take 4 ≠ magic := by
  rintro rfl
  rw [List.take_replicate] at h
  cases hn : min 4 n with
  | zero => exact h (by rw [hn]; rfl)
  | succ k => exact h (by rw [hn]; rfl)

/-- **Step.** Where the maps describe the memory, they explain what an operation in its region
returns, and the maps after it describe the memory after it. -/
theorem Contents.Describes.perform (hfaithful : storage.Faithful limit memory)
    (hlimit : sessionLtRegionBase ≤ limit) (hP : Cipher.AeadRecovers P)
    (hrsa : ∀ key der, rsa.toPkcs8Der key = .ok der → rsa.fromPkcs8Der der = .ok key)
    (hlib : lib.Faithful) {s : W × T} (h : C.Describes P rsa lib (memory s.1))
    {c : VaultCall κ κ₂ κ₃} (hc : c.InRegion limit) :
    let r := c.perform storage trng P rsa lib s
    C.Explains c r.1 ∧ (C.after c r.1).Describes P rsa lib (memory r.2.1) := by
  have hbase : sessionLtRegionBase = 1048576 := rfl
  cases c with
  | storePublicKey slot der overwrite =>
    have hslot : slot.offset + publicKeySlotBytes ≤ limit := by
      have hend := publicKey_end hc
      omega
    have hrun := storePublicKey_eq hfaithful hslot der overwrite s.1
    have hempty := h.publicKey slot hc
    dsimp only [VaultCall.perform]
    rw [hrun]
    split_ifs with hlen hfree
    · have hmemory := hfaithful.memory_write s.1 slot.offset (publicKeyCell der)
        (by rwa [length_publicKeyCell hlen])
      refine ⟨⟨fun hlong ↦ absurd hlen (by omega), fun _ ↦ ⟨fun _ ↦ rfl, fun hocc ↦ ?_⟩⟩, ?_⟩
      · rw [← hempty, Ne, decodePublicKey_eq_empty_iff] at hocc
        rcases hfree with hfree | hover
        · exact absurd hfree hocc.1
        · exact absurd (hocc.2.symm.trans hover) nofun
      · have hdesc := h.patch_publicKey hc (length_publicKeyCell hlen)
        rw [decodePublicKey_cell hlen, ← hmemory] at hdesc
        exact hdesc
    -- A key is there and may not be overwritten.
    · refine ⟨⟨fun hlong ↦ absurd hlen (by omega), fun _ ↦ ⟨fun hno ↦ ?_, fun _ ↦ rfl⟩⟩, h⟩
      rw [← hempty, decodePublicKey_eq_empty_iff] at hno
      exact absurd hno hfree
    · exact ⟨⟨fun _ ↦ rfl, fun hshort ↦ absurd hshort hlen⟩, h⟩
  | loadPublicKey slot =>
    have hslot : slot.offset + publicKeySlotBytes ≤ limit := by
      have hend := publicKey_end hc
      omega
    dsimp only [VaultCall.perform]
    rw [loadPublicKey_eq hfaithful hslot]
    refine ⟨h.publicKey slot hc, ?_⟩
    cases decodePublicKey (publicKeyTable.cell (memory s.1) slot) <;> exact h
  | deletePublicKey slot =>
    have hbound : slot.offset + (List.replicate publicKeySlotBytes (0 : UInt8)).length ≤ limit := by
      have hend := publicKey_end hc
      rw [List.length_replicate]
      omega
    -- A slot of zeros has no magic, so it reads as empty.
    have hmemory := hfaithful.memory_write s.1 slot.offset _ hbound
    have hzero : decodePublicKey (List.replicate publicKeySlotBytes 0) = .error .slotEmpty :=
      decodePublicKey_eq_empty_iff.mpr (take_zeros (by decide))
    have hlen : (List.replicate publicKeySlotBytes (0 : UInt8)).length = publicKeySlotBytes :=
      List.length_replicate
    have hdesc := h.patch_publicKey hc hlen
    rw [hzero, ← hmemory] at hdesc
    dsimp only [VaultCall.perform]
    rw [vaultDeletePublicKey, write_orElse hfaithful hbound]
    exact ⟨rfl, hdesc⟩
  | storeRsaKey prk slot key overwrite =>
    have hslot : slot.offset + rsaSlotBytes ≤ limit := by
      have hend := (rsaKey_bounds hc).2
      omega
    have hcell := h.rsaKey slot hc
    have hocc := storeRsaKey_occupied hfaithful trng P rsa prk hslot key overwrite s
    dsimp only [VaultCall.perform]
    refine ⟨⟨fun prk' key' hholds hover ↦ ?_, fun hfree hfull ↦ ?_⟩, ?_⟩
    · rw [hholds] at hcell
      exact hocc.mpr ⟨hcell.1, hover⟩
    · obtain ⟨hmagic, hover⟩ := hocc.mp hfull
      rcases hfree with hempty | hover'
      · rw [hempty] at hcell
        exact hcell hmagic
      · exact absurd (hover.symm.trans hover') nofun
    rcases hrun : vaultStoreRsaKey storage trng P rsa prk slot key overwrite s with ⟨e | u, s'⟩
    -- Whatever goes wrong goes wrong before the one write.
    · have herror : Fallible.MovesOnError (fun s s' : W × T ↦ s'.1 = s.1)
          (vaultStoreRsaKey storage trng P rsa prk slot key overwrite) :=
        storeRsaKey_error hfaithful trng P rsa hslot key overwrite
      have hsame := herror s e (congrArg Prod.fst hrun)
      rw [hrun] at hsame
      dsimp only at hsame ⊢
      rw [hsame]
      exact h
    · obtain ⟨cell, hlen, hmagic, hdecode, hmemory⟩ :=
        storeRsaKey_ok hfaithful trng P rsa hP hrsa hslot hrun
      have hholds : (RsaContent.holds prk key).Describes P rsa slot cell := ⟨hmagic, hdecode⟩
      have hdesc := h.patch_rsaKey hc hlen hholds
      rw [← hmemory] at hdesc
      exact hdesc
  | loadRsaKey prk slot =>
    have hslot : slot.offset + rsaSlotBytes ≤ limit := by
      have hend := (rsaKey_bounds hc).2
      omega
    have hcell := h.rsaKey slot hc
    dsimp only [VaultCall.perform]
    rw [loadRsaKey_eq hfaithful P rsa prk hslot]
    refine ⟨?_, ?_⟩
    · dsimp only [Contents.Explains]
      cases hknown : C.rsaKey slot with
      | unknown => exact True.intro
      | empty =>
        rw [hknown] at hcell
        dsimp only
        rw [decodeRsaKey, ensure_bind, if_neg hcell]
      | holds prk' key =>
        rw [hknown] at hcell
        rintro rfl
        exact hcell.2
    · cases decodeRsaKey P rsa prk slot (rsaTable.cell (memory s.1) slot) <;> exact h
  | deleteRsaKey slot =>
    have hbound : slot.offset + (List.replicate rsaSlotBytes (0 : UInt8)).length ≤ limit := by
      have hend := (rsaKey_bounds hc).2
      rw [List.length_replicate]
      omega
    have hmemory := hfaithful.memory_write s.1 slot.offset _ hbound
    have hzero : (RsaContent.empty : RsaContent κ).Describes P rsa slot
        (List.replicate rsaSlotBytes 0) := take_zeros (by decide)
    have hdesc := h.patch_rsaKey hc List.length_replicate hzero
    rw [← hmemory] at hdesc
    dsimp only [VaultCall.perform]
    rw [vaultDeleteRsaKey, write_orElse hfaithful hbound]
    exact ⟨rfl, hdesc⟩
  | storeSessionKey slot key overwrite =>
    have hrun := storeSessionKey_eq hfaithful lib hc key overwrite s.1
    have hempty := h.sessionKey slot key.curveId
    dsimp only [VaultCall.perform]
    rw [hrun]
    split_ifs with hfree
    · have hmemory := hfaithful.memory_write s.1 slot.sessionOffset (sessionKeyCell lib key)
        (by rw [length_sessionKeyCell]; exact hc)
      refine ⟨⟨fun _ ↦ rfl, fun hocc ↦ ?_⟩, ?_⟩
      · rw [← hempty, Ne, decodeSessionKey_eq_empty_iff] at hocc
        rcases hfree with hfree | hover
        · exact absurd hfree hocc.1
        · exact absurd (hocc.2.symm.trans hover) nofun
      · have hlen : (sessionKeyCell lib key).length = sessionLtSlotBytes := length_sessionKeyCell key
        have hdesc := h.patch_sessionKey slot hlen
        rw [← hmemory, funext (decodeSessionKey_cell hlib key)] at hdesc
        exact hdesc
    · refine ⟨⟨fun hno ↦ ?_, fun _ ↦ rfl⟩, h⟩
      rw [← hempty, decodeSessionKey_eq_empty_iff] at hno
      exact absurd hno hfree
  | loadSessionKey slot c =>
    dsimp only [VaultCall.perform]
    rw [loadSessionKey_eq hfaithful lib hc]
    refine ⟨h.sessionKey slot c, ?_⟩
    cases decodeSessionKey lib c (sessionTable.cell (memory s.1) slot) <;> exact h

/-- **Run.** The maps explain the record of every run. -/
theorem Contents.Describes.explainsAll (hfaithful : storage.Faithful limit memory)
    (hlimit : sessionLtRegionBase ≤ limit) (hP : Cipher.AeadRecovers P)
    (hrsa : ∀ key der, rsa.toPkcs8Der key = .ok der → rsa.fromPkcs8Der der = .ok key)
    (hlib : lib.Faithful) {cs : List (VaultCall κ κ₂ κ₃)} (hcs : ∀ c ∈ cs, c.InRegion limit)
    {s : W × T} (h : C.Describes P rsa lib (memory s.1)) :
    C.ExplainsAll (vaultRecord storage trng P rsa lib cs s) := by
  induction cs generalizing s C with
  | nil => trivial
  | cons c cs ih =>
    rw [List.forall_mem_cons] at hcs
    obtain ⟨hexplains, hafter⟩ : C.Explains c (c.perform storage trng P rsa lib s).1 ∧
        (C.after c (c.perform storage trng P rsa lib s).1).Describes P rsa lib
          (memory (c.perform storage trng P rsa lib s).2.1) :=
      h.perform hfaithful hlimit hP hrsa hlib hcs.1
    exact ⟨hexplains, ih hcs.2 hafter⟩

/-- **The vault is three finite maps.** Over a faithful storage, with libraries that read back what
they write: in every run of operations on slots in the regions of their tables, in any order and
from whatever the storage held, each result is the one that the three maps explain, each map
changed by the successful stores and deletions before it. -/
theorem vault_is_finite_maps (trng : HardwareTrng T) (P : Primitives) (rsa : RsaLibrary κ ρ)
    (lib : SessionKeyLibrary κ₂ κ₃) (hfaithful : storage.Faithful limit memory)
    (hlimit : sessionLtRegionBase ≤ limit) (hP : Cipher.AeadRecovers P)
    (hrsa : ∀ key der, rsa.toPkcs8Der key = .ok der → rsa.fromPkcs8Der der = .ok key)
    (hlib : lib.Faithful) (cs : List (VaultCall κ κ₂ κ₃)) (hcs : ∀ c ∈ cs, c.InRegion limit)
    (s : W × T) : (Contents.ofMemory lib (memory s.1)).ExplainsAll
      (vaultRecord storage trng P rsa lib cs s) :=
  (describes_ofMemory P rsa lib (memory s.1)).explainsAll hfaithful hlimit hP hrsa hlib hcs

/-- Signing keys of which there is one on each curve. -/
def oneSessionKeyLibrary : SessionKeyLibrary Unit Unit where
  p256Bytes _ := .zero 32
  p256OfBytes _ := some ()
  p384Bytes _ := .zero 48
  p384OfBytes _ := some ()

/-- One key for each table, stored in an erased memory and loaded again. -/
def oneKeyEach : List (VaultCall Unit Unit Unit) :=
  [.storePublicKey ⟨0⟩ [0x30] false, .storeRsaKey [] ⟨9⟩ () false,
    .storeSessionKey ⟨0⟩ (.p256 ()) false, .loadPublicKey ⟨0⟩, .loadRsaKey [] ⟨9⟩,
    .loadSessionKey ⟨0⟩ 1]

theorem vault_is_finite_maps_rram :
    (Contents.ofMemory oneSessionKeyLibrary (vaultMemory fun _ ↦ 0)).ExplainsAll
      (vaultRecord (rramVaultStorage 0) zeroTrng Cipher.benchPrimitives oneKeyLibrary
        oneSessionKeyLibrary oneKeyEach ((fun _ ↦ 0 : Memory), ())) := by
  have hlimit : sessionLtRegionBase ≤ 2 ^ 21 := by
    rw [sessionLtRegionBase]
    omega
  have hsession : KeySlot.sessionOffset ⟨0⟩ + sessionLtSlotBytes ≤ 2 ^ 21 := by
    rw [KeySlot.sessionOffset_eq, sessionLtSlotBytes]
    decide
  have hpublic : PublicKeySlot.InTable ⟨0⟩ := by decide
  have hrsa : KeySlot.InRsaRegion ⟨9⟩ := by decide
  have hregions : ∀ c ∈ oneKeyEach, c.InRegion (2 ^ 21) :=
    List.forall_mem_cons.mpr ⟨hpublic, List.forall_mem_cons.mpr ⟨hrsa, List.forall_mem_cons.mpr
      ⟨hsession, List.forall_mem_cons.mpr ⟨hpublic, List.forall_mem_cons.mpr
        ⟨hrsa, List.forall_mem_cons.mpr ⟨hsession, List.forall_mem_nil _⟩⟩⟩⟩⟩⟩
  have hfaithful : (rramVaultStorage 0).Faithful (2 ^ 21) vaultMemory :=
    rramVaultStorage_faithful 0 (2 ^ 21)
  exact vault_is_finite_maps zeroTrng Cipher.benchPrimitives oneKeyLibrary oneSessionKeyLibrary
    hfaithful hlimit Cipher.benchPrimitives_recovers (fun _ _ _ ↦ rfl) ⟨fun _ ↦ rfl, fun _ ↦ rfl⟩
    oneKeyEach hregions ((fun _ ↦ 0 : Memory), ())

end Runs

end Galdralag.Vault
