import Galdralag.OpenPgp.RetryCounter
import Galdralag.Provisioning.Boot
import Galdralag.Provisioning.Personality

/-!
# Using provisioned PINs

The personality lets through PINs of up to 32 bytes, and the slots hold them. VERIFY takes a PIN of
any length. CHANGE REFERENCE DATA takes the old PIN and the new one in fields of a fixed length,
which is the longest PIN of the PW status bytes: 5 bytes for the user and 8 for the administrator on
a new card. A longer PIN does not fit into its field, so the holder can present it and can never
replace it.

A PIN that fits is padded with `0xFF`, and is read back from its field, since no byte of a PIN from
the personality is the padding byte.
-/

set_option linter.all false

namespace Galdralag.Provisioning

open OpenPgp OpenPgp.Baochip

variable {W T : Type} {pf : CardPlatform W T} {b b' : OpenPgpVaultBackend W T} {p : CardPin}
  {s : Session (OpenPgpVaultBackend W T)} {cmd : CommandApdu} {pin newPin : Bytes}

/-! ## Commands -/

/-- VERIFY for a PIN: the user PIN in one of two modes. -/
def Verifies (cmd : CommandApdu) : CardPin → Prop
  | .user => cmd.ins = 0x20 ∧ (cmd.p2 = 0x81 ∨ cmd.p2 = 0x82)
  | .admin => cmd.ins = 0x20 ∧ cmd.p2 = 0x83

/-- The parameter of CHANGE REFERENCE DATA. -/
def changeP2 : CardPin → UInt8
  | .user => 0x81
  | .admin => 0x83

/-- CHANGE REFERENCE DATA for a PIN, which presents the old PIN and the new one in the two halves of
its data. -/
structure Changes (cmd : CommandApdu) (p : CardPin) (oldPin newPin : Bytes) : Prop where
  ins : cmd.ins = 0x24
  p1 : cmd.p1 = 0x00
  p2 : cmd.p2 = changeP2 p
  old : trimOpenpgpPinPadding (cmd.data.toBytes.take (cmd.data.length / 2)) = oldPin
  new : trimOpenpgpPinPadding (cmd.data.toBytes.drop (cmd.data.length / 2)) = newPin

/-- The answer to a command. -/
abbrev answer (pf : CardPlatform W T) (cmd : CommandApdu) (s : Session (OpenPgpVaultBackend W T)) :
    ResponseApdu := (handleApdu (vaultBackend pf) cmd s).1

/-- No status word but the one of success is answered as success. -/
theorem error_ne_okEmpty {sw : StatusWord} (h : sw.sw1 ≠ 0x90) : ResponseApdu.error sw ≠ .okEmpty :=
  fun heq ↦ h (congrArg ResponseApdu.sw1 heq)

/-- The answer to a call whose outcome is all that is told. -/
def verdict : Except OpenPgpBackendError PUnit → ResponseApdu
  | .ok _ => .okEmpty
  | .error e => mapErr e

/-! ### VERIFY -/

/-- VERIFY is answered with the outcome of an attempt. -/
theorem answer_verify (ht : s.backend.termination = false) (hcmd : Verifies cmd p) :
    answer pf cmd s = verdict (verifyPin pf p cmd.data.toBytes s.backend).1 := by
  have hterm : (vaultBackend pf).isTerminationState s.backend = false := ht
  have hins : cmd.ins = 0x20 := by rcases p with _ | _ <;> exact hcmd.1
  have hi : Instruction.ofByte cmd.ins = some .verify := by rw [hins]; rfl
  have hsign : ∀ {r b'}, verifyPin pf .user cmd.data.toBytes s.backend = (r, b') →
      (vaultBackend pf).perform (.verifyPw1Sign cmd.data.toBytes) s.backend = (r, b') := id
  have hother : ∀ {r b'}, verifyPin pf .user cmd.data.toBytes s.backend = (r, b') →
      (vaultBackend pf).perform (.verifyPw1Other cmd.data.toBytes) s.backend = (r, b') := id
  have hadmin : ∀ {r b'}, verifyPin pf .admin cmd.data.toBytes s.backend = (r, b') →
      (vaultBackend pf).perform (.verifyPw3 cmd.data.toBytes) s.backend = (r, b') := id
  rw [answer, handleApdu, handle_run hterm hi, Instruction.handler, handleVerify]
  dsimp only
  rcases hrun : verifyPin pf p cmd.data.toBytes s.backend with ⟨e | _, b'⟩
  · rcases p with _ | _
    · obtain ⟨-, hp2 | hp2⟩ := hcmd
      · rw [if_pos hp2, Fallible.bind_of_error (call_error (hsign hrun))]
        rfl
      · rw [if_neg (by rw [hp2]; decide), if_pos hp2,
          Fallible.bind_of_error (call_error (hother hrun))]
        rfl
    · have hp2 : cmd.p2 = 0x83 := hcmd.2
      rw [if_neg (by rw [hp2]; decide), if_neg (by rw [hp2]; decide), if_pos hp2,
        Fallible.bind_of_error (call_error (hadmin hrun))]
      rfl
  · rcases p with _ | _
    · obtain ⟨-, hp2 | hp2⟩ := hcmd
      · rw [if_pos hp2, Fallible.bind_of_ok (call_ok (hsign hrun))]
        rfl
      · rw [if_neg (by rw [hp2]; decide), if_pos hp2, Fallible.bind_of_ok (call_ok (hother hrun))]
        rfl
    · have hp2 : cmd.p2 = 0x83 := hcmd.2
      rw [if_neg (by rw [hp2]; decide), if_neg (by rw [hp2]; decide), if_pos hp2,
        Fallible.bind_of_ok (call_ok (hadmin hrun))]
      rfl

/-! ### CHANGE REFERENCE DATA -/

theorem demand_error {β : Type} {s : Session β} {q : Prop} [Decidable q] (hq : ¬ q) (sw : StatusWord) :
    (demand q sw : Handler β PUnit) s = (.error (.error sw), s) := by
  rw [demand, Fallible.require, if_neg hq]
  rfl

/-- CHANGE REFERENCE DATA for a PIN, on a card whose longest PIN has a known length. -/
structure ChangeOn (pf : CardPlatform W T) (s : Session (OpenPgpVaultBackend W T)) (cmd : CommandApdu)
    (p : CardPin) (pinLen : ℕ) : Prop where
  running : s.backend.termination = false
  ins : cmd.ins = 0x24
  p1 : cmd.p1 = 0x00
  p2 : cmd.p2 = changeP2 p
  length : maxPinLength pf s.backend p = pinLen

/-- The field of the old PIN, and that of the new one. -/
def oldField (cmd : CommandApdu) (pinLen : ℕ) : Bytes :=
  trimOpenpgpPinPadding (cmd.data.toBytes.take pinLen)

def newField (cmd : CommandApdu) (pinLen : ℕ) : Bytes :=
  trimOpenpgpPinPadding (cmd.data.toBytes.drop pinLen)

section Change

variable {pinLen : ℕ} (h : ChangeOn pf s cmd p pinLen)
include h

/-- The checks of the two fields come before the change. -/
theorem ChangeOn.handle : handle (vaultBackend pf) cmd s = (do
    demand (pinLen ≠ 0 ∧ pinLen ≤ 127) .incorrectParameters
    demand (cmd.data.length = pinLen * 2) .wrongLength
    demand (newField cmd pinLen ≠ []) .incorrectParameters
    call (vaultBackend pf) (.changePin (cmd.p2 == 0x83) (oldField cmd pinLen) (newField cmd pinLen))
    logEvent (vaultBackend pf) (0x240000 ||| cmd.p2.toUInt32)
    pure .okEmpty : Handler (OpenPgpVaultBackend W T) ResponseApdu) s := by
  have hterm : (vaultBackend pf).isTerminationState s.backend = false := h.running
  have hi : Instruction.ofByte cmd.ins = some .changeReference := by rw [h.ins]; rfl
  have hp2 : cmd.p2 = 0x81 ∨ cmd.p2 = 0x83 := by
    rw [h.p2]
    rcases p with _ | _
    · exact .inl rfl
    · exact .inr rfl
  have hfield : ((if (cmd.p2 == 0x83) = true then
      ((vaultBackend pf).pwStatusBytes s.backend).toBytes[3]?
      else ((vaultBackend pf).pwStatusBytes s.backend).toBytes[1]?).getD 0).toNat = pinLen := by
    rw [← h.length, h.p2]
    rcases p with _ | _ <;> rfl
  rw [handle_run hterm hi, Instruction.handler, handleChangeReference,
    Fallible.bind_of_ok (demand_run h.p1 _), Fallible.bind_of_ok (demand_run hp2 _)]
  dsimp only
  rw [Fallible.gets_bind, hfield]
  rfl

theorem ChangeOn.perform (oldPin newPin : Bytes) : (vaultBackend pf).perform
    (.changePin (cmd.p2 == 0x83) oldPin newPin) s.backend = changePin pf p oldPin newPin s.backend := by
  rw [h.p2]
  rcases p with _ | _ <;> rfl

/-- A change whose fields are not in order is refused. -/
theorem ChangeOn.refused (hbad : ¬ ((pinLen ≠ 0 ∧ pinLen ≤ 127) ∧ cmd.data.length = pinLen * 2 ∧
    newField cmd pinLen ≠ [])) : answer pf cmd s ≠ .okEmpty := by
  rw [answer, handleApdu, h.handle]
  by_cases hrange : pinLen ≠ 0 ∧ pinLen ≤ 127
  · rw [Fallible.bind_of_ok (demand_run hrange _)]
    by_cases hdata : cmd.data.length = pinLen * 2
    · have hnew : ¬ newField cmd pinLen ≠ [] := fun hnew ↦ hbad ⟨hrange, hdata, hnew⟩
      rw [Fallible.bind_of_ok (demand_run hdata _), Fallible.bind_of_error (demand_error hnew _)]
      exact error_ne_okEmpty (by decide)
    · rw [Fallible.bind_of_error (demand_error hdata _)]
      exact error_ne_okEmpty (by decide)
  · rw [Fallible.bind_of_error (demand_error hrange _)]
    exact error_ne_okEmpty (by decide)

variable (hrange : pinLen ≠ 0 ∧ pinLen ≤ 127) (hdata : cmd.data.length = pinLen * 2)
  (hnew : newField cmd pinLen ≠ [])
include hrange hdata hnew

/-- A change that fails is answered with its error. -/
theorem ChangeOn.answer_error {e : OpenPgpBackendError}
    (hrun : changePin pf p (oldField cmd pinLen) (newField cmd pinLen) s.backend = (.error e, b')) :
    answer pf cmd s = mapErr e := by
  rw [answer, handleApdu, h.handle, Fallible.bind_of_ok (demand_run hrange _),
    Fallible.bind_of_ok (demand_run hdata _), Fallible.bind_of_ok (demand_run hnew _),
    Fallible.bind_of_error (call_error ((h.perform _ _).trans hrun))]

/-- A change that succeeds is answered with success, and the session goes on with its backend. -/
theorem ChangeOn.answer_ok
    (hrun : changePin pf p (oldField cmd pinLen) (newField cmd pinLen) s.backend = (.ok ⟨⟩, b')) :
    answer pf cmd s = .okEmpty ∧
      (handleApdu (vaultBackend pf) cmd s).2.backend.verifier p = b'.verifier p := by
  rw [answer, handleApdu, h.handle, Fallible.bind_of_ok (demand_run hrange _),
    Fallible.bind_of_ok (demand_run hdata _), Fallible.bind_of_ok (demand_run hnew _),
    Fallible.bind_of_ok (call_ok ((h.perform _ _).trans hrun))]
  refine ⟨rfl, ?_⟩
  rcases p with _ | _ <;> rfl

end Change

/-! ## Attempts

A card that was just opened has live machines and the default limit of three attempts. What an
attempt answers depends on the count in its counter cell and on the PIN. -/

section Attempts

variable {value : CardPin → W → UInt32} (hpersist : ∀ p, (pf.counter p).Persistent (value p))

/-- A backend that was just opened, with the digest of a PIN. -/
structure Started (pf : CardPlatform W T) (p : CardPin) (pin : Bytes) (b : OpenPgpVaultBackend W T) :
    Prop where
  running : b.termination = false
  machine : b.machine p = .new default
  verifier : b.verifier p = pinBytesToVerifierDigest pf pin

variable (h : Started pf p pin b)
include hpersist h

/-- Over the limit an attempt blocks the card. -/
theorem Started.blocked (hcount : 2 < (value p b.world).toNat) (pin' : Bytes) :
    ∃ b', verifyPin pf p pin' b = (.error (.status .authMethodBlocked), b') := by
  have hgt : (b.machine p).config.maxAttempts < saturatingAdd (value p b.world) 1 := by
    have hthree : (b.machine p).config.maxAttempts.toNat = 3 := by rw [h.machine]; rfl
    have hone : (1 : UInt32).toNat = 1 := rfl
    rw [UInt32.lt_iff_toNat_lt, toNat_saturatingAdd, hthree, hone]
    omega
  refine ⟨_, verifyPin_breach h.running ?_ ((hpersist p).increment_run b.world) hgt⟩
  rw [h.machine]
  rintro ⟨⟩

variable (hcount : (value p b.world).toNat ≤ 2)
include hcount

omit hpersist in
theorem Started.within : ¬ (b.machine p).config.maxAttempts < saturatingAdd (value p b.world) 1 := by
  have hthree : (b.machine p).config.maxAttempts.toNat = 3 := by rw [h.machine]; rfl
  have hone : (1 : UInt32).toNat = 1 := rfl
  rw [UInt32.lt_iff_toNat_lt, toNat_saturatingAdd, hthree, hone]
  omega

theorem Started.accepted {pin' : Bytes}
    (hpin : pinBytesToVerifierDigest pf pin' = pinBytesToVerifierDigest pf pin) : ∃ w,
    verifyPin pf p pin' b = (.ok ⟨⟩, b.attempted p .unlocked w) := by
  refine ⟨_, verifyPin_success h.running ?_ ((hpersist p).increment_run b.world)
    (h.within hcount) (hpin.trans h.verifier.symm)⟩
  rw [h.machine]
  rintro ⟨⟩

theorem Started.rejected {pin' : Bytes}
    (hpin : pinBytesToVerifierDigest pf pin' ≠ pinBytesToVerifierDigest pf pin) : ∃ x b',
    verifyPin pf p pin' b = (.error (.status (.verificationFailedRetries x)), b') := by
  refine ⟨_, _, verifyPin_failed h.running ?_ ((hpersist p).increment_run b.world)
    (h.within hcount) (fun heq ↦ hpin (heq.trans h.verifier))⟩
  rw [h.machine]
  rintro ⟨⟩

end Attempts

/-! ## Changing -/

section Changing

variable {pins : W → Memory} {pinLimit : ℕ} (hpins : pf.pinStorage.Faithful pinLimit pins)
  (hfit : ∀ p, pf.pinOff p + 32 ≤ pinLimit)
include hpins hfit

/-- Storing the digests never fails. -/
theorem persistPinHashes_run (b : OpenPgpVaultBackend W T) :
    ∃ w, persistPinHashes pf b = (.ok ⟨⟩, { b with world := w }) := by
  have hwrite : ∀ p (d : Block 32) (b : OpenPgpVaultBackend W T), ∃ w,
      (Fallible.orElse (onWorld (pf.pinStorage.write (pf.pinOff p) d.toBytes)) (.status .executionError) :
        VaultM W T PUnit) b = (.ok ⟨⟩, { b with world := w }) := by
    intro p d b
    have hin : pf.pinOff p + d.toBytes.length ≤ pinLimit := by
      rw [d.length_toBytes]
      exact hfit p
    refine ⟨(pf.pinStorage.write (pf.pinOff p) d.toBytes b.world).2, ?_⟩
    rw [Fallible.orElse, onWorld, Fallible.zoom_apply, hpins.write_eq b.world hin]
  obtain ⟨w, hw⟩ := hwrite .user b.userVerifier b
  obtain ⟨w', hw'⟩ := hwrite .admin b.adminVerifier { b with world := w }
  refine ⟨w', ?_⟩
  rw [persistPinHashes, Fallible.gets_bind, Fallible.bind_of_ok hw, Fallible.gets_bind]
  exact hw'

variable {value : CardPin → W → UInt32} (hpersist : ∀ p, (pf.counter p).Persistent (value p))
include hpersist

/-- The right PIN is changed to a new one that is not too long. -/
theorem Started.changed (h : Started pf p pin b) (hcount : (value p b.world).toNat ≤ 2)
    (hlen : newPin.length ≤ maxPinLength pf b p) : ∃ b', changePin pf p pin newPin b = (.ok ⟨⟩, b') ∧
      b'.verifier p = pinBytesToVerifierDigest pf newPin := by
  obtain ⟨w, hverify⟩ : ∃ w, verifyPin pf p pin b = (.ok ⟨⟩, b.attempted p .unlocked w) :=
    h.accepted hpersist hcount rfl
  obtain ⟨w', hpersisted⟩ := persistPinHashes_run hpins hfit
    ((b.attempted p .unlocked w).setVerifier (pinBytesToVerifierDigest pf newPin) p)
  have hrequire : (Fallible.require (newPin.length ≤ maxPinLength pf b p)
      (.status .incorrectParameters) : VaultM W T PUnit) b = (.ok ⟨⟩, b) :=
    Fallible.require_of hlen _ _
  have hrun : changePin pf p pin newPin b = resetMachine pf p { (b.attempted p .unlocked w).setVerifier
      (pinBytesToVerifierDigest pf newPin) p with world := w' } := by
    rw [changePin, Fallible.bind_of_ok (ensureNotTerminated_run h.running), Fallible.gets_bind,
      Fallible.bind_of_ok hrequire, Fallible.bind_of_ok hverify, Fallible.modify_bind,
      Fallible.bind_of_ok hpersisted]
  refine ⟨_, hrun, ?_⟩
  rcases p with _ | _ <;> rfl

omit hpins hfit in
/-- Over the limit no PIN is changed. -/
theorem Started.change_blocked (h : Started pf p pin b) (hcount : 2 < (value p b.world).toNat)
    {oldPin : Bytes} (hlen : newPin.length ≤ maxPinLength pf b p) : ∃ b',
      changePin pf p oldPin newPin b = (.error (.status .authMethodBlocked), b') := by
  obtain ⟨b', hverify⟩ := h.blocked hpersist hcount oldPin
  have hrequire : (Fallible.require (newPin.length ≤ maxPinLength pf b p)
      (.status .incorrectParameters) : VaultM W T PUnit) b = (.ok ⟨⟩, b) :=
    Fallible.require_of hlen _ _
  refine ⟨b', ?_⟩
  rw [changePin, Fallible.bind_of_ok (ensureNotTerminated_run h.running), Fallible.gets_bind,
    Fallible.bind_of_ok hrequire, Fallible.bind_of_error hverify]

end Changing

/-! ## Fields -/

/-- A PIN is read back from its padded field. -/
theorem trim_padded (h : 0xFF ∉ pin) (n : ℕ) :
    trimOpenpgpPinPadding (pin ++ List.replicate n 0xFF) = pin := by
  have hpad : ∀ x ∈ List.replicate n (0xFF : UInt8), (x == 0xFF) = true := by
    intro x hx
    rw [List.eq_of_mem_replicate hx]
    rfl
  have hself : pin.rdropWhile (· == 0xFF) = pin := by
    rw [List.rdropWhile_eq_self_iff]
    intro hne heq
    have hlast : pin.getLast hne = 0xFF := beq_iff_eq.mp heq
    exact h (hlast ▸ List.getLast_mem hne)
  rw [List.rdropWhile] at hself
  rw [trimOpenpgpPinPadding, List.rdropWhile, List.reverse_append, List.reverse_replicate,
    List.dropWhile_append_of_pos hpad, hself]

/-- A PIN padded to a field. -/
def padded (pinLen : ℕ) (pin : Bytes) : Bytes := pin ++ List.replicate (pinLen - pin.length) 0xFF

theorem length_padded {pinLen : ℕ} (h : pin.length ≤ pinLen) : (padded pinLen pin).length = pinLen := by
  rw [padded, List.length_append, List.length_replicate]
  omega

/-- The command of a holder who changes a PIN that fits. -/
def changeCommand (p : CardPin) (pinLen : ℕ) (oldPin newPin : Bytes) : CommandApdu where
  cla := 0x00
  ins := 0x24
  p1 := 0x00
  p2 := changeP2 p
  data := .truncated (padded pinLen oldPin ++ padded pinLen newPin)
  le := none

section Fields

variable {pinLen : ℕ} {oldPin : Bytes} (hold : oldPin.length ≤ pinLen) (hnew : newPin.length ≤ pinLen)
  (hmax : pinLen ≤ 127)
include hold hnew hmax

theorem data_changeCommand (p : CardPin) : (changeCommand p pinLen oldPin newPin).data.toBytes
    = padded pinLen oldPin ++ padded pinLen newPin := by
  refine Vec.toBytes_truncated ?_
  rw [List.length_append, length_padded hold, length_padded hnew]
  omega

theorem length_changeCommand (p : CardPin) :
    (changeCommand p pinLen oldPin newPin).data.length = pinLen * 2 := by
  rw [Vec.length, data_changeCommand hold hnew hmax, List.length_append, length_padded hold,
    length_padded hnew]
  omega

/-- The command presents both PINs. -/
theorem changeCommand_changes (p : CardPin) (holdPin : 0xFF ∉ oldPin) (hnewPin : 0xFF ∉ newPin) :
    Changes (changeCommand p pinLen oldPin newPin) p oldPin newPin where
  ins := rfl
  p1 := rfl
  p2 := rfl
  old := by
    rw [length_changeCommand hold hnew hmax, Nat.mul_div_cancel _ (by decide),
      data_changeCommand hold hnew hmax, List.take_left' (length_padded hold), padded,
      trim_padded holdPin]
  new := by
    rw [length_changeCommand hold hnew hmax, Nat.mul_div_cancel _ (by decide),
      data_changeCommand hold hnew hmax, List.drop_left' (length_padded hold), padded,
      trim_padded hnewPin]

end Fields

/-! ## Usable PINs -/

/-- A PIN that the holder of a card can use: VERIFY accepts it and nothing else, as far as digests
tell data apart, and it can be replaced by some new PIN that CHANGE REFERENCE DATA permits. -/
structure Usable (pf : CardPlatform W T) (b : OpenPgpVaultBackend W T) (p : CardPin) (pin : Bytes) :
    Prop where
  verified : ∀ s cmd, s.backend = b → Verifies cmd p →
    (pinBytesToVerifierDigest pf cmd.data.toBytes = pinBytesToVerifierDigest pf pin →
      cmd.data.toBytes = pin) →
    (answer pf cmd s = .okEmpty ↔ cmd.data.toBytes = pin)
  replaced : ∀ s, s.backend = b → ∃ cmd newPin, Changes cmd p pin newPin ∧
    answer pf cmd s = .okEmpty ∧ (handleApdu (vaultBackend pf) cmd s).2.backend.verifier p
      = pinBytesToVerifierDigest pf newPin

/-- A session with a card that was just opened. -/
def firstSession (b : OpenPgpVaultBackend W T) : Session (OpenPgpVaultBackend W T) := ⟨.new, b, []⟩

/-- VERIFY with given data. -/
def verifyCommand (p : CardPin) (pin : Bytes) : CommandApdu where
  cla := 0x00
  ins := 0x20
  p1 := 0x00
  p2 := changeP2 p
  data := .truncated pin
  le := none

theorem verifyCommand_verifies (p : CardPin) (pin : Bytes) : Verifies (verifyCommand p pin) p := by
  rcases p with _ | _
  · exact ⟨rfl, .inl rfl⟩
  · exact ⟨rfl, rfl⟩

section Iff

variable {pins : W → Memory} {pinLimit : ℕ} (hpins : pf.pinStorage.Faithful pinLimit pins)
  (hfit : ∀ p, pf.pinOff p + 32 ≤ pinLimit) {value : CardPin → W → UInt32}
  (hpersist : ∀ p, (pf.counter p).Persistent (value p)) (h : Started pf p pin b) (hpin : IsPin pin)
include hpersist h

theorem Started.verified (hcount : (value p b.world).toNat ≤ 2) (hs : s.backend = b)
    (hcmd : Verifies cmd p)
    (hcollides : pinBytesToVerifierDigest pf cmd.data.toBytes = pinBytesToVerifierDigest pf pin →
      cmd.data.toBytes = pin) : answer pf cmd s = .okEmpty ↔ cmd.data.toBytes = pin := by
  subst hs
  rw [answer_verify h.running hcmd]
  by_cases hdigest : pinBytesToVerifierDigest pf cmd.data.toBytes = pinBytesToVerifierDigest pf pin
  · obtain ⟨w, hrun⟩ : ∃ w, verifyPin pf p cmd.data.toBytes s.backend = (.ok ⟨⟩, _) :=
      h.accepted hpersist hcount hdigest
    rw [hrun]
    exact iff_of_true rfl (hcollides hdigest)
  · obtain ⟨x, b', hrun⟩ := h.rejected hpersist hcount hdigest
    rw [hrun]
    refine iff_of_false (error_ne_okEmpty ?_) fun heq ↦ hdigest (congrArg _ heq)
    rintro ⟨⟩

include hpin

/-- A PIN that VERIFY accepts has tries left. -/
theorem Started.count_of_usable (husable : Usable pf b p pin) : (value p b.world).toNat ≤ 2 := by
  by_contra hcount
  have hdata : (verifyCommand p pin).data.toBytes = pin :=
    Vec.toBytes_truncated (hpin.length_le.trans (by decide))
  have hverified := (husable.verified (firstSession b) _ rfl (verifyCommand_verifies p pin)
    fun _ ↦ hdata).mpr hdata
  obtain ⟨b', hrun⟩ := h.blocked hpersist (Nat.lt_of_not_le hcount)
    (verifyCommand p pin).data.toBytes
  rw [answer_verify h.running (verifyCommand_verifies p pin)] at hverified
  have hrun' : verifyPin pf p (verifyCommand p pin).data.toBytes (firstSession b).backend = _ := hrun
  rw [hrun'] at hverified
  exact error_ne_okEmpty (by decide) hverified

omit hpersist hpin in
/-- A PIN that can be replaced fits into its field. -/
theorem Started.fits_of_usable (husable : Usable pf b p pin) :
    pin.length ≤ maxPinLength pf b p ∧ maxPinLength pf b p ≤ 127 := by
  obtain ⟨cmd, new, hchanges, hanswer, -⟩ := husable.replaced (firstSession b) rfl
  have hon : ChangeOn pf (firstSession b) cmd p (maxPinLength pf b p) :=
    ⟨h.running, hchanges.ins, hchanges.p1, hchanges.p2, rfl⟩
  by_contra hbad
  refine hon.refused ?_ hanswer
  rintro ⟨⟨-, hmax⟩, hdata, -⟩
  refine hbad ⟨?_, hmax⟩
  have hold := hchanges.old
  rw [hdata, Nat.mul_div_cancel _ (by decide)] at hold
  rw [← hold]
  refine (length_trimOpenpgpPinPadding_le _).trans ?_
  rw [List.length_take]
  exact Nat.min_le_left _ _

include hpins hfit

/-- **Usable PINs.** On a card that was just opened a PIN is usable exactly when it fits into the
field of CHANGE REFERENCE DATA, that field is not too long for a command, and a wrong attempt is
left. -/
theorem Started.usable_iff : Usable pf b p pin ↔ pin.length ≤ maxPinLength pf b p ∧
    maxPinLength pf b p ≤ 127 ∧ (value p b.world).toNat ≤ 2 := by
  constructor
  · intro husable
    obtain ⟨hfits, hmax⟩ := h.fits_of_usable husable
    exact ⟨hfits, hmax, h.count_of_usable hpersist hpin husable⟩
  · rintro ⟨hfits, hmax, hcount⟩
    refine ⟨fun s cmd hs hcmd hcollides ↦ h.verified hpersist hcount hs hcmd hcollides, ?_⟩
    rintro s rfl
    -- the new PIN is the single byte `1`
    have hpos : 0 < pin.length := List.length_pos_of_ne_nil hpin.ne_nil
    have hone : [(0x31 : UInt8)].length ≤ maxPinLength pf s.backend p := Nat.le_trans hpos hfits
    have hunpadded : (0xFF : UInt8) ∉ [0x31] := by decide
    have hchanges := changeCommand_changes hfits hone hmax p hpin.unpadded hunpadded
    have hlen := length_changeCommand hfits hone hmax p
    have hon : ChangeOn pf s (changeCommand p (maxPinLength pf s.backend p) pin [0x31]) p
        (maxPinLength pf s.backend p) := ⟨h.running, rfl, rfl, rfl, rfl⟩
    have hold := hchanges.old
    have hnew := hchanges.new
    rw [hlen, Nat.mul_div_cancel _ (by decide)] at hold hnew
    obtain ⟨b', hrun, hverifier⟩ := h.changed hpins hfit hpersist hcount hone
    have hrun' : changePin pf p (oldField (changeCommand p (maxPinLength pf s.backend p) pin [0x31])
        (maxPinLength pf s.backend p)) (newField (changeCommand p (maxPinLength pf s.backend p) pin
          [0x31]) (maxPinLength pf s.backend p)) s.backend = (.ok ⟨⟩, b') := by
      rw [oldField, newField, hold, hnew]
      exact hrun
    obtain ⟨hanswer, hbackend⟩ := hon.answer_ok ⟨by omega, hmax⟩ hlen
      (by rw [newField, hnew]; exact List.cons_ne_nil _ _) hrun'
    exact ⟨_, _, hchanges, hanswer, hbackend.trans hverifier⟩

end Iff

/-! ## From the personality to the card -/

section Baochip

variable {bp : Baochip T} {key : Block 32} {rram w w' : Memory} {t : T} {user admin : Bytes}

/-- The PW status bytes that a card reads in a world. -/
def storedPwStatus (pf : CardPlatform W T) (w : W) : Block 7 :=
  match pf.doStore.read 0xC4 w with
  | some v => .ofBytes 7 v.toBytes
  | none => .ofBytes 7 defaultPwStatusBytes

/-- The longest PIN of a card over a world. -/
def storedMaxLength (pf : CardPlatform W T) (w : W) : CardPin → ℕ
  | .user => ((storedPwStatus pf w).toBytes[1]?.getD 0).toNat
  | .admin => ((storedPwStatus pf w).toBytes[3]?.getD 0).toNat

theorem maxPinLength_eq (b : OpenPgpVaultBackend W T) (p : CardPin) :
    maxPinLength pf b p = storedMaxLength pf b.world p := by
  rcases p with _ | _ <;> rfl

/-- Where the attempts on a PIN are counted. -/
def counterLogicalOff : CardPin → ℕ
  | .user => userCtrLogicalOff
  | .admin => adminCtrLogicalOff

/-- The attempts that are charged on a PIN. -/
def charged (bp : Baochip T) (p : CardPin) (w : Memory) : UInt32 :=
  rramCell (bp.vaultPhysBase + counterLogicalOff p) w

theorem counter_persistent (bp : Baochip T) (key : Block 32) (p : CardPin) :
    ((bp.platform key).counter p).Persistent (charged bp p) := by
  rcases p with _ | _
  · exact rramMonotonicCounter_persistent _
  · exact rramMonotonicCounter_persistent _

theorem charged_congr (h : Memory.AgreeOn userCtrLogicalOff masterRecordLogicalOff (bp.vault w)
    (bp.vault w')) (p : CardPin) : charged bp p w = charged bp p w' := by
  have hwindow : ∀ w : Memory, w.window (bp.vaultPhysBase + counterLogicalOff p) 4
      = (bp.vault w).window (counterLogicalOff p) 4 := fun w ↦ by
    simp only [vault, Memory.window, Nat.add_assoc]
  rw [charged, charged, rramCell, rramCell, hwindow, hwindow]
  refine congrArg u32OfLe (Memory.window_congr h ?_ ?_) <;> rcases p with _ | _ <;> decide

theorem read_congr (h : Memory.AgreeOn openpgpDoStoreLogical pinUserLogicalOff (bp.vault w)
    (bp.vault w')) (tag : UInt16) :
    (bp.platform key).doStore.read tag w = (bp.platform key).doStore.read tag w' := by
  have hkeeps : (bp.platform key).Keeps bp.vault bp.vault bp.vault openpgpVaultLogicalSpanEnd :=
    bp.platform_keeps
  rw [DoStore.read_eq hkeeps.objectsFaithful (Nat.le_refl _),
    DoStore.read_eq hkeeps.objectsFaithful (Nat.le_refl _)]
  exact DoStore.object_congr h tag

/-- Seeding does not change the PW status bytes that a card reads: a store without a header is read
as if it held the default. -/
theorem storedPwStatus_seed (hseed : seedDefaultsIfFresh (bp.platform key) w = (.ok ⟨⟩, w')) :
    storedPwStatus (bp.platform key) w' = storedPwStatus (bp.platform key) w := by
  have hkeeps : (bp.platform key).Keeps bp.vault bp.vault bp.vault openpgpVaultLogicalSpanEnd :=
    bp.platform_keeps
  obtain ⟨w'', hseed', hsame, hobjects, -⟩ :=
    seedDefaultsIfFresh_run hkeeps.objectsFaithful (Nat.le_refl _) w
  obtain rfl := (Prod.mk.inj (hseed.symm.trans hseed')).2
  by_cases hvalid : (bp.platform key).doStore.Valid (bp.vault w)
  · rw [hsame hvalid]
  · have hdefault : (defaultObject 0xC4).bind (fun v ↦ (Vec.ofBytes? v : Option (Vec 254)))
        = some (.truncated defaultPwStatusBytes) := rfl
    have hnew := hobjects hvalid 0xC4 (by decide)
    have hold : (bp.platform key).doStore.object (bp.vault w) 0xC4 = none := by
      rw [DoStore.object, if_neg hvalid]
    rw [hdefault] at hnew
    rw [storedPwStatus, storedPwStatus, DoStore.read_eq hkeeps.objectsFaithful (Nat.le_refl _),
      DoStore.read_eq hkeeps.objectsFaithful (Nat.le_refl _), hnew, hold]
    rfl

/-- What provisioning leaves of the world that the personality found. -/
theorem provisioned_world (hout : Memory.AgreeOutside (pinProvisionLogicalOff .user)
    openpgpVaultLogicalSpanEnd (bp.vault w) (bp.vault rram))
    (hseed : seedDefaultsIfFresh (bp.platform key) (digested bp user admin w) = (.ok ⟨⟩, w'))
    (p : CardPin) :
    storedMaxLength (bp.platform key) (wiped bp w') p = storedMaxLength (bp.platform key) rram p ∧
      charged bp p (wiped bp w') = charged bp p rram := by
  obtain ⟨w'', hseed', hobjects⟩ := seed_run bp key (digested bp user admin w)
  obtain rfl := (Prod.mk.inj (hseed.symm.trans hseed')).2
  have hstatus : storedPwStatus (bp.platform key) (wiped bp w') = storedPwStatus (bp.platform key) rram := by
    have hwiped : storedPwStatus (bp.platform key) (wiped bp w') = storedPwStatus (bp.platform key) w' := by
      rw [storedPwStatus, storedPwStatus, read_congr ((wiped_outside w').agreeOn (.inl (by decide)))]
    have hdigested : storedPwStatus (bp.platform key) (digested bp user admin w)
        = storedPwStatus (bp.platform key) rram := by
      rw [storedPwStatus, storedPwStatus, read_congr (((digested_outside w).agreeOn
        (.inl (by decide))).trans (hout.agreeOn (.inl (by decide))))]
    rw [hwiped, storedPwStatus_seed hseed, hdigested]
  constructor
  · rcases p with _ | _ <;> rw [storedMaxLength, storedMaxLength, hstatus]
  · refine charged_congr ?_ p
    refine ((wiped_outside w').agreeOn (.inl (by decide))).trans ?_
    refine (hobjects.agreeOn (.inr (by decide))).trans ?_
    exact ((digested_outside w).agreeOn (.inr (by decide))).trans (hout.agreeOn (.inl (by decide)))

/-- A world, with the PINs that the personality committed last: the slots hold them, and nothing
else has changed. -/
def Committed (bp : Baochip T) (rram : Memory) (s : Memory × Option (Bytes × Bytes)) (_ok : Bool) :
    Prop :=
  Memory.AgreeOutside (pinProvisionLogicalOff .user) openpgpVaultLogicalSpanEnd (bp.vault s.1)
      (bp.vault rram) ∧
    ∀ pins : CardPin → Bytes, s.2 = some (pins .user, pins .admin) →
      ∀ p, IsPin (pins p) ∧ slotOf (bp.vault s.1) p = (provisionRecord p (pins p)).toBytes

theorem IsPin.fitsSlot (h : IsPin pin) : FitsSlot pin := ⟨h.ne_nil, h.length_le⟩

/-- **Commits.** Every commit of two PINs succeeds, and the slots hold them. -/
theorem Committed.commit {s : Memory × Option (Bytes × Bytes)} {ok : Bool} (huser : IsPin user)
    (hadmin : IsPin admin) (h : Committed bp rram s ok) :
    Committed bp rram (ProvisioningClass.recording (writeProvisioningPins (bp.platform key)) user admin
      s).2 (ok || (ProvisioningClass.recording (writeProvisioningPins (bp.platform key)) user admin
        s).1.isOk) := by
  have hrun : writeProvisioningPins (bp.platform key) user admin s.1 = _ :=
    writeProvisioningPins_run huser.fitsSlot hadmin.fitsSlot
  obtain ⟨hslotU, hslotA, hout⟩ := vault_writeProvisioningPins huser.fitsSlot hadmin.fitsSlot hrun
  have hrecord : ProvisioningClass.recording (writeProvisioningPins (bp.platform key)) user admin s
      = _ := ProvisioningClass.recording_ok hrun
  rw [hrecord]
  refine ⟨hout.trans h.1, fun pins hpins p ↦ ?_⟩
  obtain ⟨rfl, rfl⟩ := Prod.mk.inj (Option.some.inj hpins)
  rcases p with _ | _
  · exact ⟨huser, hslotU⟩
  · exact ⟨hadmin, hslotA⟩

/-- The personality over a storage, after some events. -/
def personality (bp : Baochip T) (key : Block 32) (rram : Memory)
    (events : List ProvisioningClass.UsbEvent) : ProvisioningClass (Memory × Option (Bytes × Bytes)) :=
  ProvisioningClass.run (ProvisioningClass.recording (writeProvisioningPins (bp.platform key)))
    (.new (rram, none)) events

/-- What the personality leaves in the storage. -/
theorem personality_committed (bp : Baochip T) (key : Block 32) (rram : Memory)
    (events : List ProvisioningClass.UsbEvent) : Committed bp rram
      (personality bp key rram events).world (personality bp key rram events).commitOk := by
  have hnew : Committed bp rram (rram, none) false := ⟨.refl _, fun _ h ↦ absurd h (by rintro ⟨⟩)⟩
  refine ProvisioningClass.run_holds ?_ hnew events
  intro user admin s ok huser hadmin h
  exact h.commit huser hadmin

/-- Every two PINs that can be typed can be committed. -/
theorem personality_provisioning (bp : Baochip T) (key : Block 32) (rram : Memory) {user admin : String}
    (huser : ProvisioningClass.Typed user) (hadmin : ProvisioningClass.Typed admin) :
    ∃ w, (personality bp key rram (ProvisioningClass.provisioning user admin)).world
      = (w, some (Cipher.utf8 user, Cipher.utf8 admin)) := by
  have hrun : writeProvisioningPins (bp.platform key) (Cipher.utf8 user) (Cipher.utf8 admin) rram = _ :=
    writeProvisioningPins_run huser.isPin.fitsSlot hadmin.isPin.fitsSlot
  exact ⟨_, (ProvisioningClass.run_provisioning huser hadmin (ProvisioningClass.recording_ok hrun)).2⟩

/-- A card that starts on PINs in its slots. -/
theorem start_on_slots {pins : CardPin → Bytes} (t : T)
    (hmissing : ccidPinHashesUnprovisioned (bp.platform key) rram = true)
    (hout : Memory.AgreeOutside (pinProvisionLogicalOff .user) openpgpVaultLogicalSpanEnd (bp.vault w)
      (bp.vault rram))
    (hpins : ∀ p, IsPin (pins p) ∧ slotOf (bp.vault w) p = (provisionRecord p (pins p)).toBytes) :
    (∀ p, loadOrProvisionCcidPin (bp.platform key) p w = .ok (pins p)) ∧
      ∃ b, openOrProvisionBackend (bp.platform key) false (pins .user) (pins .admin) w t
          = (.ok ⟨⟩, b) ∧
        ∀ p, Usable (bp.platform key) b p (pins p) ↔
          (pins p).length ≤ storedMaxLength (bp.platform key) rram p ∧
            storedMaxLength (bp.platform key) rram p ≤ 127 ∧ (charged bp p rram).toNat ≤ 2 := by
  have hload : ∀ p, loadOrProvisionCcidPin (bp.platform key) p w = .ok (pins p) ∧
      pinProvisionRecordValid (bp.platform key) w p = true :=
    fun p ↦ load_of_record (hpins p).1.fitsSlot (hpins p).2
  refine ⟨fun p ↦ (hload p).1, ?_⟩
  -- the start provisions the card
  have hunprovisioned : Unprovisioned (bp.vault w) :=
    (Unprovisioned.congr (hout.agreeOn (.inl (by decide)))).mpr (unprovisioned_iff.mp hmissing)
  have hvalid : provisionSlotsHaveValidPins (bp.platform key) w = true := by
    rw [provisionSlotsHaveValidPins, (hload .user).2, (hload .admin).2]
    rfl
  obtain ⟨w', hseed, -⟩ := seed_run bp key (digested bp (pins .user) (pins .admin) w)
  refine ⟨_, openOrProvision_new hunprovisioned hvalid (hpins .user).1.length_le
    (hpins .admin).1.length_le hseed, fun p ↦ ?_⟩
  -- and each PIN is what it was provisioned with
  have hkeeps : (bp.platform key).Keeps bp.vault bp.vault bp.vault openpgpVaultLogicalSpanEnd :=
    bp.platform_keeps
  have hstarted : Started (bp.platform key) p (pins p)
      (provisioned bp key (pins .user) (pins .admin) w' t) := by
    rcases p with _ | _ <;> exact ⟨rfl, rfl, rfl⟩
  obtain ⟨hmax, hcharged⟩ := provisioned_world hout hseed p
  rw [hstarted.usable_iff hkeeps.pinsFaithful hkeeps.pinsFit (counter_persistent bp key) (hpins p).1,
    maxPinLength_eq]
  rw [← hmax, ← hcharged]
  rfl

/-- **Provisioned PINs.** The personality has run over a card without digests, and has committed two
PINs. Then the card starts with these PINs, and both are usable exactly when they are no longer than
the PW status bytes say, these lengths fit into a command, and no more than two attempts are charged
on either counter. -/
theorem provisioned_usable_iff (bp : Baochip T) (key : Block 32) (rram w : Memory) (t : T)
    (pins : CardPin → Bytes) (hmissing : ccidPinHashesUnprovisioned (bp.platform key) rram = true)
    (events : List ProvisioningClass.UsbEvent)
    (hcommitted : (personality bp key rram events).world = (w, some (pins .user, pins .admin))) :
    (∀ p, loadOrProvisionCcidPin (bp.platform key) p w = .ok (pins p)) ∧
      ∃ b, openOrProvisionBackend (bp.platform key) false (pins .user) (pins .admin) w t
          = (.ok ⟨⟩, b) ∧
        ((∀ p, Usable (bp.platform key) b p (pins p)) ↔
          ∀ p, (pins p).length ≤ storedMaxLength (bp.platform key) rram p ∧
            storedMaxLength (bp.platform key) rram p ≤ 127 ∧ (charged bp p rram).toNat ≤ 2) := by
  have hstate := personality_committed bp key rram events
  rw [hcommitted] at hstate
  obtain ⟨hload, b, hopen, husable⟩ := start_on_slots t hmissing hstate.1 (hstate.2 pins rfl)
  exact ⟨hload, b, hopen, forall_congr' husable⟩

/-- A card whose objects have never been written has the default lengths. -/
theorem storedMaxLength_of_fresh (h : ¬ (bp.platform key).doStore.Valid (bp.vault rram)) (p : CardPin) :
    storedMaxLength (bp.platform key) rram p = if p = .user then 5 else 8 := by
  have hkeeps : (bp.platform key).Keeps bp.vault bp.vault bp.vault openpgpVaultLogicalSpanEnd :=
    bp.platform_keeps
  have hread : (bp.platform key).doStore.read 0xC4 rram = none := by
    rw [DoStore.read_eq hkeeps.objectsFaithful (Nat.le_refl _), DoStore.object, if_neg h]
  rcases p with _ | _ <;> rw [storedMaxLength, storedPwStatus, hread] <;> decide

/-- The PINs that an operator types. -/
def typedPins (user admin : String) : CardPin → Bytes
  | .user => Cipher.utf8 user
  | .admin => Cipher.utf8 admin

end Baochip

/-! ## The bench -/

section Bench

/-- The bench card before anything is written. -/
abbrev blankPlatform : CardPlatform Memory ℕ := Baochip.bench.platform (.zero 32)

theorem missing_zero : ccidPinHashesUnprovisioned blankPlatform (fun _ ↦ 0) = true :=
  unprovisioned_iff.mpr unprovisioned_zero

theorem fresh_zero : ¬ blankPlatform.doStore.Valid (Baochip.bench.vault fun _ ↦ 0) := by
  rintro ⟨hmagic, -⟩
  rw [vault_bench, Memory.window, List.map_const', List.length_range] at hmagic
  exact absurd hmagic (by decide)

theorem charged_zero (p : CardPin) : charged Baochip.bench p (fun _ ↦ 0) = 0 := by
  rw [charged, rramCell, Memory.window, List.map_const', List.length_range]
  rfl

theorem typed_five : ProvisioningClass.Typed "12345" := ⟨by decide, by decide, by decide, by decide⟩

theorem typed_six : ProvisioningClass.Typed "123456" := ⟨by decide, by decide, by decide, by decide⟩

theorem typed_eight : ProvisioningClass.Typed "12345678" :=
  ⟨by decide, by decide, by decide, by decide⟩

theorem provisioned_usable_iff_bench : ∃ w b,
    (personality Baochip.bench (.zero 32) (fun _ ↦ 0)
      (ProvisioningClass.provisioning "12345" "12345678")).world
      = (w, some (Cipher.utf8 "12345", Cipher.utf8 "12345678")) ∧
    openOrProvisionBackend blankPlatform false (Cipher.utf8 "12345") (Cipher.utf8 "12345678") w 0
      = (.ok ⟨⟩, b) ∧
    ∀ p, Usable blankPlatform b p (typedPins "12345" "12345678" p) := by
  obtain ⟨w, hworld⟩ := personality_provisioning Baochip.bench (.zero 32) (fun _ ↦ 0) typed_five typed_eight
  obtain ⟨-, b, hopen, husable⟩ := provisioned_usable_iff Baochip.bench (.zero 32) (fun _ ↦ 0) w 0
    (typedPins "12345" "12345678") missing_zero _ hworld
  refine ⟨w, b, hworld, hopen, husable.mpr fun p ↦ ?_⟩
  rw [storedMaxLength_of_fresh fresh_zero, charged_zero]
  rcases p with _ | _ <;> decide

/-- Not every pair of PINs that the personality commits is usable: a user PIN of six bytes is not.
-/
theorem long_pin_not_usable : ¬ ∀ (rram w : Memory) (pins : CardPin → Bytes)
    (events : List ProvisioningClass.UsbEvent),
    ccidPinHashesUnprovisioned blankPlatform rram = true →
    (personality Baochip.bench (.zero 32) rram events).world = (w, some (pins .user, pins .admin)) →
    ∃ b, openOrProvisionBackend blankPlatform false (pins .user) (pins .admin) w 0 = (.ok ⟨⟩, b) ∧
      ∀ p, Usable blankPlatform b p (pins p) := by
  intro h
  obtain ⟨w, hworld⟩ := personality_provisioning Baochip.bench (.zero 32) (fun _ ↦ 0) typed_six typed_eight
  obtain ⟨b, hopen, husable⟩ := h (fun _ ↦ 0) w (typedPins "123456" "12345678") _ missing_zero hworld
  have hstate := personality_committed Baochip.bench (.zero 32) (fun _ ↦ 0)
    (ProvisioningClass.provisioning "123456" "12345678")
  rw [hworld] at hstate
  obtain ⟨-, b', hopen', husable'⟩ := start_on_slots 0 missing_zero hstate.1
    (hstate.2 (typedPins "123456" "12345678") rfl)
  obtain rfl := (Prod.mk.inj (hopen.symm.trans hopen')).2
  obtain ⟨hfits, -⟩ := (husable' .user).mp (husable .user)
  rw [storedMaxLength_of_fresh fresh_zero] at hfits
  exact absurd hfits (by decide)

end Bench

end Galdralag.Provisioning
