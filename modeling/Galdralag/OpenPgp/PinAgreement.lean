import Galdralag.OpenPgp.PinChange
import Galdralag.OpenPgp.RetryCounter
import Galdralag.OpenPgp.Verification

/-!
# PIN changes and VERIFY

CHANGE REFERENCE DATA and RESET RETRY COUNTER cut the padding off a new PIN and take the digest of
the rest. VERIFY takes the digest of its whole data field. A PIN that was set with padding is
therefore not accepted in the form in which it was set, unless the two digests are the same.
-/

set_option linter.all false

namespace Galdralag.OpenPgp

variable {W T : Type} {pf : CardPlatform W T} {s t u : Session (OpenPgpVaultBackend W T)}
  {cmd : CommandApdu} {c : PinChange}

/-- The field of a command that holds the new PIN, with padding. -/
def newPinField (pf : CardPlatform W T) (b : OpenPgpVaultBackend W T) (cmd : CommandApdu) : Bytes :=
  if cmd.ins = 0x24 then cmd.data.toBytes.drop (maxPinLength pf b (changedPin cmd.p2))
  else cmd.data.toBytes

theorem length_newPinField_le (pf : CardPlatform W T) (b : OpenPgpVaultBackend W T) (cmd : CommandApdu) :
    (newPinField pf b cmd).length ≤ 512 := by
  have hlen := cmd.data.length_le
  rw [newPinField]
  split_ifs
  · rw [List.length_drop]
    exact (Nat.sub_le _ _).trans hlen
  · exact hlen

/-- A change that succeeded leaves the digest of the new PIN in memory. -/
theorem verifier_of_changed {r : ResponseApdu} (h : requestedChange pf s cmd = some c)
    (hrun : handle (vaultBackend pf) cmd s = (.ok r, t)) :
    t.backend.verifier c.pin = pinBytesToVerifierDigest pf c.new := by
  rcases handle_requested h with ⟨e, t', -, -, hrun'⟩ | ⟨b, audit, t', happly, ht, -, hrun'⟩
  · cases (Prod.mk.inj (hrun.symm.trans hrun')).1
  obtain rfl := (Prod.mk.inj (hrun.symm.trans hrun')).2
  have hverifier := verifier_apply pf c s.backend c.pin
  rw [happly, if_pos ⟨rfl, attempt_of_apply happly⟩] at hverifier
  rw [ht, ← hverifier]
  cases c.pin <;> rfl

/-- After a change, VERIFY accepts the new PIN as its field had it, and none of the old ones but the
new one. -/
structure PinChange.Agrees (pf : CardPlatform W T) (c : PinChange) (field : Bytes) (old : Set Bytes)
    (u : Session (OpenPgpVaultBackend W T)) : Prop where
  accepts : ∀ cmd : CommandApdu, cmd.ins = 0x20 → passwordOf cmd.p2 = some c.pin →
    cmd.data.toBytes = field → (handle (vaultBackend pf) cmd u).1.isOk = true
  rejects : ∀ cmd : CommandApdu, cmd.ins = 0x20 → passwordOf cmd.p2 = some c.pin →
    cmd.data.toBytes ∈ old → cmd.data.toBytes ≠ c.new → (handle (vaultBackend pf) cmd u).1.isOk = false

/-- **PIN changes and VERIFY.** While attempts are left on a PIN that was changed, VERIFY agrees
with the change exactly if the padding makes no difference to the digest of the new PIN, and none of
the old PINs has the digest of another, new one. -/
theorem agrees_iff {r : ResponseApdu} (h : requestedChange pf s cmd = some c)
    (hrun : handle (vaultBackend pf) cmd s = (.ok r, t))
    (hu : u.backend.verifier c.pin = t.backend.verifier c.pin) (hleft : AttemptsLeft pf c.pin u.backend) :
    c.Agrees pf (newPinField pf s.backend cmd) (accepted pf s.backend c.pin) u ↔
      pinBytesToVerifierDigest pf (newPinField pf s.backend cmd) = pinBytesToVerifierDigest pf c.new ∧
      ∀ old : Vec 512, old.toBytes ∈ accepted pf s.backend c.pin → old.toBytes ≠ c.new →
        pinBytesToVerifierDigest pf old.toBytes ≠ pinBytesToVerifierDigest pf c.new := by
  have hverifier := hu.trans (verifier_of_changed h hrun)
  have hmem : ∀ pin, pin ∈ accepted pf u.backend c.pin ↔
      pinBytesToVerifierDigest pf pin = pinBytesToVerifierDigest pf c.new := by
    intro pin
    rw [accepted, Set.mem_ofPred_eq, hverifier]
  -- a VERIFY for every field
  obtain ⟨p2, hp2⟩ : ∃ p2, passwordOf p2 = some c.pin := by
    cases c.pin
    · exact ⟨0x81, rfl⟩
    · exact ⟨0x83, rfl⟩
  constructor
  · rintro ⟨haccepts, hrejects⟩
    have hfield := Vec.toBytes_truncated (length_newPinField_le pf s.backend cmd)
    refine ⟨?_, fun old hold hne ↦ ?_⟩
    · have hok := haccepts ⟨0x00, 0x20, 0x00, p2, .truncated (newPinField pf s.backend cmd), none⟩ rfl hp2
        hfield
      rwa [verify_isOk_iff rfl hp2 hleft, hmem, hfield] at hok
    · have hfails := hrejects ⟨0x00, 0x20, 0x00, p2, old, none⟩ rfl hp2 hold hne
      rwa [← Bool.not_eq_true, verify_isOk_iff rfl hp2 hleft, hmem] at hfails
  · rintro ⟨hsame, hother⟩
    refine ⟨fun v hins hp hdata ↦ ?_, fun v hins hp hold hne ↦ ?_⟩
    · rw [verify_isOk_iff hins hp hleft, hmem, hdata]
      exact hsame
    · rw [← Bool.not_eq_true, verify_isOk_iff hins hp hleft, hmem]
      exact hother _ hold hne

/-! ## A padded PIN -/

/-- CHANGE REFERENCE DATA of PW1, from `12345` to the PIN in a field of five bytes. -/
def changePw1 (field : Bytes) : CommandApdu :=
  ⟨0x00, 0x24, 0x00, 0x81, .truncated (benchPin .user ++ field), none⟩

/-- PIN lengths depend on the object store alone. -/
theorem maxPinLength_congr {pf' : CardPlatform W T} {b : OpenPgpVaultBackend W T}
    (h : pf'.doStore = pf.doStore) (p : CardPin) : maxPinLength pf' b p = maxPinLength pf b p := by
  cases p
  · rw [maxPinLength, maxPinLength, pwStatusBytes, pwStatusBytes, h]
  · rw [maxPinLength, maxPinLength, pwStatusBytes, pwStatusBytes, h]

section Bench

variable {w₀ : Memory} (h₀ : benchPlatform.doStore.write 0x93 [0x00, 0x00, 0x00] benchStorage
  = (.ok ⟨⟩, w₀)) {field : Bytes}

theorem toBytes_changePw1 (hlen : field.length = 5) :
    (changePw1 field).data.toBytes = benchPin .user ++ field := by
  refine Vec.toBytes_truncated ?_
  rw [List.length_append, hlen]
  decide

include h₀

section Requests

variable {pf : CardPlatform Memory ℕ} (hstore : pf.doStore = benchPlatform.doStore)
include hstore

theorem maxPinLength_opened : maxPinLength pf (benchOpened w₀) .user = (benchPin .user).length := by
  have hbench := (benchReady_opened h₀).maxPinLength_eq h₀
  rw [maxPinLength_congr hstore]
  exact hbench

/-- The new PIN is in the second half of the data. -/
theorem newPinField_changePw1 (hlen : field.length = 5) :
    newPinField pf (benchOpened w₀) (changePw1 field) = field := by
  have hins : (changePw1 field).ins = 0x24 := rfl
  have hpin : changedPin (changePw1 field).p2 = .user := rfl
  rw [newPinField, if_pos hins, hpin, maxPinLength_opened h₀ hstore, toBytes_changePw1 hlen,
    List.drop_left]

theorem requested_changePw1 (hlen : field.length = 5) (hne : trimOpenpgpPinPadding field ≠ []) :
    requestedChange pf (.new (benchOpened w₀)) (changePw1 field)
      = some ⟨.user, some (benchPin .user), trimOpenpgpPinPadding field⟩ := by
  have hready := benchReady_opened h₀
  have hmax := maxPinLength_opened h₀ hstore
  have hbytes := toBytes_changePw1 hlen
  have hpin : changedPin (changePw1 field).p2 = .user := rfl
  have hfrom : changedFrom pf (benchOpened w₀) (changePw1 field) = benchPin .user := by
    rw [changedFrom, hpin, hmax, hbytes, List.take_left]
    decide
  have hto : changedTo pf (benchOpened w₀) (changePw1 field) = trimOpenpgpPinPadding field := by
    rw [changedTo, hpin, hmax, hbytes, List.drop_left]
  have hchecked : ChangeChecked pf (benchOpened w₀) (changePw1 field) := by
    rw [ChangeChecked, hpin, hmax, hto]
    refine ⟨rfl, .inl rfl, by decide, ?_, hne⟩
    have hdata := congrArg List.length hbytes
    rw [List.length_append, hlen] at hdata
    exact hdata
  have hchange : (changePw1 field).ins = 0x24 ∧
      ChangeChecked pf (Session.new (benchOpened w₀)).backend (changePw1 field) := ⟨rfl, hchecked⟩
  rw [requestedChange, if_neg (ne_true_of_eq_false hready.running), if_pos hchange, hpin]
  exact congrArg some (PinChange.mk.injEq .. ▸ ⟨rfl, congrArg some hfrom, hto⟩)

end Requests

/-- `12345` is taken on a card that has just been opened. -/
theorem verifyPin_opened {pf : CardPlatform Memory ℕ} (hcounter : pf.userCounter = benchPlatform.userCounter)
    (hdigest : pf.crypto.sha256 = benchCrypto.sha256) :
    ∃ w, verifyPin pf .user (benchPin .user) (benchOpened w₀)
      = (.ok ⟨⟩, (benchOpened w₀).attempted .user .unlocked w) := by
  have hready := benchReady_opened h₀
  have hinc := benchIncrement .user (benchOpened w₀).world
  have hcell : rramCell (benchCtr .user) (benchOpened w₀).world = 0 := hready.userCell
  rw [hcell] at hinc
  have hcharge : (pf.counter .user).increment (benchOpened w₀).world = _ :=
    (congrArg (fun k : MonotonicCounter Memory ↦ k.increment (benchOpened w₀).world) hcounter).trans hinc
  have hle : ¬ ((benchOpened w₀).machine .user).config.maxAttempts < 1 := by
    have hconfig : ((benchOpened w₀).machine .user).config = default := hready.config .user
    rw [hconfig]
    decide
  have hpin : pinBytesToVerifierDigest pf (benchPin .user) = (benchOpened w₀).verifier .user := by
    have hverifier : (benchOpened w₀).verifier .user = .ofBytes 32 (benchPin .user) :=
      hready.verifier .user
    rw [hverifier, pinBytesToVerifierDigest, hdigest]
    rfl
  exact ⟨_, verifyPin_success hready.running (hready.live .user) hcharge hle hpin⟩

/-- The change is carried out, and all attempts are left after it. -/
theorem changed_bench (hlen : field.length = 5) (hne : trimOpenpgpPinPadding field ≠ []) : ∃ t,
    handle (vaultBackend benchPlatform) (changePw1 field) (.new (benchOpened w₀)) = (.ok .okEmpty, t) ∧
      AttemptsLeft benchPlatform .user t.backend := by
  have hrequested := requested_changePw1 h₀ rfl hlen hne
  obtain ⟨w, hattempt⟩ := verifyPin_opened h₀ rfl rfl
  have happly : ∃ b, PinChange.apply benchPlatform ⟨.user, some (benchPin .user), trimOpenpgpPinPadding field⟩
      (benchOpened w₀) = (.ok ⟨⟩, b) := by
    rw [PinChange.apply, PinChange.attempt, Fallible.bind_of_ok hattempt]
    exact ⟨_, rfl⟩
  obtain ⟨b, happly⟩ := happly
  rcases handle_requested hrequested with ⟨e, t, hfails, -⟩ | ⟨b', audit, t, -, -, -, hrun⟩
  · cases (Prod.mk.inj (hfails.symm.trans happly)).1
  refine ⟨t, hrun, ?_⟩
  obtain ⟨n, hcounting, hn⟩ := counting_of_resetsPw1 (fun _ ↦ rfl) benchPlatform_pinsSpare
    benchPlatform_persistent (.inr ⟨rfl, rfl⟩) hrun
  have hready := benchReady_opened h₀
  have hzero : rramCell (benchCtr .user) t.backend.world = 0 := by
    rw [← UInt32.toNat_inj, hcounting.count]
    exact hn.mpr hready.userCell
  have hinc := benchIncrement .user t.backend.world
  rw [hzero] at hinc
  refine ⟨hcounting.running, hcounting.live, _, _, hinc, ?_⟩
  rw [hcounting.config, hready.limit]
  decide

end Bench

/-- PW1 becomes `54321`, which fills its field. -/
theorem agrees_unpadded : ∃ s t : Session (OpenPgpVaultBackend Memory ℕ), ∃ c,
    requestedChange benchPlatform s (changePw1 [0x35, 0x34, 0x33, 0x32, 0x31]) = some c ∧
      handle (vaultBackend benchPlatform) (changePw1 [0x35, 0x34, 0x33, 0x32, 0x31]) s = (.ok .okEmpty, t) ∧
      c.Agrees benchPlatform [0x35, 0x34, 0x33, 0x32, 0x31] (accepted benchPlatform s.backend .user) t := by
  obtain ⟨w₀, h₀⟩ : ∃ w₀, benchPlatform.doStore.write 0x93 [0x00, 0x00, 0x00] benchStorage = (.ok ⟨⟩, w₀) :=
    ⟨_, benchCounted_run 0⟩
  have hready := benchReady_opened h₀
  have hlen : [0x35, 0x34, 0x33, 0x32, (0x31 : UInt8)].length = 5 := rfl
  have hrequested := requested_changePw1 h₀ rfl hlen (by decide)
  have hfield := newPinField_changePw1 h₀ rfl hlen
  obtain ⟨t, hrun, hleft⟩ := changed_bench h₀ hlen (by decide)
  refine ⟨_, t, _, hrequested, hrun, ?_⟩
  have hiff := agrees_iff hrequested hrun rfl hleft
  have hbackend : (Session.new (benchOpened w₀)).backend = benchOpened w₀ := rfl
  rw [hbackend, hfield] at hiff
  refine hiff.mpr ⟨rfl, fun old hold _ hsame ↦ ?_⟩
  have hverifier : (benchOpened w₀).verifier .user = .ofBytes 32 (benchPin .user) := hready.verifier .user
  rw [accepted, Set.mem_ofPred_eq, hverifier] at hold
  have hdiffer : Block.ofBytes 32 (benchPin .user) ≠ .ofBytes 32 [0x35, 0x34, 0x33, 0x32, 0x31] := by
    decide +kernel
  exact hdiffer (hold.symm.trans hsame)

/-- **A holder locked out.** PW1 becomes `1234`, padded to its field. The command succeeds, and
VERIFY of the same field fails. -/
theorem padded_change_rejected : ∃ s t : Session (OpenPgpVaultBackend Memory ℕ), ∃ c,
    requestedChange benchPlatform s (changePw1 [0x31, 0x32, 0x33, 0x34, 0xFF]) = some c ∧
      handle (vaultBackend benchPlatform) (changePw1 [0x31, 0x32, 0x33, 0x34, 0xFF]) s = (.ok .okEmpty, t) ∧
      AttemptsLeft benchPlatform .user t.backend ∧
      (handle (vaultBackend benchPlatform)
        ⟨0x00, 0x20, 0x00, 0x81, .truncated [0x31, 0x32, 0x33, 0x34, 0xFF], none⟩ t).1.isOk = false ∧
      ¬ c.Agrees benchPlatform [0x31, 0x32, 0x33, 0x34, 0xFF] (accepted benchPlatform s.backend .user) t := by
  obtain ⟨w₀, h₀⟩ : ∃ w₀, benchPlatform.doStore.write 0x93 [0x00, 0x00, 0x00] benchStorage = (.ok ⟨⟩, w₀) :=
    ⟨_, benchCounted_run 0⟩
  have hlen : [0x31, 0x32, 0x33, 0x34, (0xFF : UInt8)].length = 5 := rfl
  have hrequested := requested_changePw1 h₀ rfl hlen (by decide)
  obtain ⟨t, hrun, hleft⟩ := changed_bench h₀ hlen (by decide)
  have hverifier := verifier_of_changed hrequested hrun
  have hfails : (handle (vaultBackend benchPlatform)
      ⟨0x00, 0x20, 0x00, 0x81, .truncated [0x31, 0x32, 0x33, 0x34, 0xFF], none⟩ t).1.isOk = false := by
    rw [← Bool.not_eq_true, verify_isOk_iff rfl rfl hleft, accepted, Set.mem_ofPred_eq, hverifier]
    change Block.ofBytes 32 _ ≠ Block.ofBytes 32 _
    decide +kernel
  refine ⟨_, t, _, hrequested, hrun, hleft, hfails, fun hagrees ↦ ?_⟩
  have hok := hagrees.accepts ⟨0x00, 0x20, 0x00, 0x81, .truncated [0x31, 0x32, 0x33, 0x34, 0xFF], none⟩
    rfl rfl rfl
  rw [hfails] at hok
  cases hok

end Galdralag.OpenPgp
