import Galdralag.OpenPgp.KeyReload
import Galdralag.OpenPgp.Projection
import Galdralag.Foundation.Trace

/-!
# A record of the private keys

Whether a key that a card computes with is an old one cannot be read off the key. So the calls of
the backend keep a record: a key was generated, a key was used, a PIN attempt was answered with a
breach. The record is a ghost, for the dispatcher does the same with it and without it
(`projects_recording`).

A key is fresh when no breach is recorded behind its generation. The keys in memory and in the cells
are fresh for as long as nothing breaches, and only a generation adds a key. What a call does to
this is `performCall_record`, and what a command does is `keepsRecord_handle`.
-/

set_option linter.all false

namespace Galdralag.OpenPgp

variable {W T : Type}

/-! ## The record -/

/-- What happens to the private keys of a card. -/
inductive KeyEvent where
  /-- A PIN attempt was answered with a breach. -/
  | breached
  /-- A key was generated. -/
  | made (key : Block 32)
  /-- A key was computed with: a signature, a key agreement, an internal authentication. -/
  | used (key : Block 32)

/-- No breach is behind the generation of a key, if there was a breach. -/
def Fresh (log : List KeyEvent) (key : Block 32) : Prop :=
  .breached ∈ log → Since (· = .made key) (· = .breached) log

/-- A key is used that is fresh. -/
def Justified (log : List KeyEvent) : KeyEvent → Prop
  | .used key => Fresh log key
  | _ => True

/-- The private key that a call computes with. -/
def BackendCall.privateKey (pf : CardPlatform W T) (b : OpenPgpVaultBackend W T) :
    BackendCall → Option (Block 32)
  | .psoSignHash _ => (b.keys .sig).brainpool
  | .ed25519Sign purpose _ => ed25519Key b purpose
  | .ecdhDec _ _ => (b.keys .dec).brainpool
  | .x25519Ecdh _ _ => (b.keys .dec).curve25519
  | .internalAuthenticate _ =>
    if kindFor .aut (algorithmAttributesForSlot pf b .aut) = some .curve25519 then
      (b.keys .aut).curve25519
    else (b.keys .aut).brainpool
  | _ => none

/-- The private key that a call has left in memory, from the backends before and after it. -/
def BackendCall.newKey (pf : CardPlatform W T) (b b' : OpenPgpVaultBackend W T) :
    BackendCall → Option (Block 32)
  | .generateOrReadKey p1 slot =>
    if p1 = 0x80 then
      (kindFor slot (algorithmAttributesForSlot pf b slot)).bind (b'.keys slot).get
    else none
  | _ => none

/-- What a call adds to the record. -/
def BackendCall.keyEvents (pf : CardPlatform W T) (c : BackendCall)
    (b b' : OpenPgpVaultBackend W T) : Except OpenPgpBackendError c.Result → List KeyEvent
  | .ok _ => (c.newKey pf b b').toList.map .made ++ (c.privateKey pf b).toList.map .used
  | .error e => if c.attempts.isSome ∧ e = .status .authMethodBlocked then [.breached] else []

/-- A backend with its record, oldest event first. -/
structure Recorded (W T : Type) where
  backend : OpenPgpVaultBackend W T
  log : List KeyEvent

/-- The vault backend, with a record of its calls. -/
def recording (pf : CardPlatform W T) : OpenPgpBackend (Recorded W T) where
  isTerminationState x := (vaultBackend pf).isTerminationState x.backend
  aidBytes x := (vaultBackend pf).aidBytes x.backend
  pwStatusBytes x := (vaultBackend pf).pwStatusBytes x.backend
  getDo x := (vaultBackend pf).getDo x.backend
  algorithmAttributes x := (vaultBackend pf).algorithmAttributes x.backend
  logEvent code x := { x with backend := (vaultBackend pf).logEvent code x.backend }
  onLockDisconnect x := { x with backend := (vaultBackend pf).onLockDisconnect x.backend }
  perform c x :=
    let r := performCall pf c x.backend
    (r.1, ⟨r.2, x.log ++ c.keyEvents pf x.backend r.2 r.1⟩)

/-- **The record is a ghost.** -/
theorem projects_recording (pf : CardPlatform W T) :
    Projects Recorded.backend (recording pf) (vaultBackend pf) where
  isTerminationState _ := rfl
  aidBytes _ := rfl
  pwStatusBytes _ := rfl
  getDo _ _ := rfl
  algorithmAttributes _ _ := rfl
  logEvent _ _ := rfl
  perform_fst _ _ := rfl
  perform_snd _ _ := rfl

/-! ## Fresh keys -/

variable {log : List KeyEvent} {key k : Block 32}

theorem Fresh.concat (h : Fresh log key) {e : KeyEvent} (he : e ≠ .breached) :
    Fresh (log ++ [e]) key := by
  intro hmem
  have hbreach : KeyEvent.breached ∈ log := by
    rcases List.mem_append.mp hmem with hmem | hmem
    · exact hmem
    · exact absurd (List.mem_singleton.mp hmem).symm he
  refine (h hbreach).append fun x hx ↦ ?_
  rw [List.mem_singleton.mp hx]
  exact he

/-- A key that was just generated. -/
theorem fresh_made (log : List KeyEvent) (key : Block 32) : Fresh (log ++ [.made key]) key :=
  fun _ ↦ Since.concat log rfl

/-! ## Calls and their record -/

variable {pf : CardPlatform W T} {b : OpenPgpVaultBackend W T} {p : CardPin} {pin : Bytes}

/-- A terminated card refuses every call. -/
theorem performCall_terminated (ht : b.termination = true) (c : BackendCall) :
    performCall pf c b = (.error (.status .terminationState), b) := by
  cases c <;> exact Fallible.bind_of_error (ensureNotTerminated_terminated ht)

/-- The operations with a private key. -/
def BackendCall.UsesKey : BackendCall → Prop
  | .psoSignHash _ => True
  | .ed25519Sign _ _ => True
  | .ecdhDec _ _ => True
  | .x25519Ecdh _ _ => True
  | .internalAuthenticate _ => True
  | _ => False

theorem orDeny_eq_ok {α : Type} {o : Option α} {sw : StatusWord} {b b' : OpenPgpVaultBackend W T}
    {a : α} (h : (orDeny o sw : VaultM W T α) b = (.ok a, b')) : o = some a := by
  cases o with
  | none => cases (Prod.mk.inj h).1
  | some a' => rw [Except.ok.inj (Prod.mk.inj h).1]

/-- An operation with a private key that succeeds has computed with one. -/
theorem exists_privateKey {c : BackendCall} (hc : c.UsesKey) {a : c.Result}
    {b' : OpenPgpVaultBackend W T} (h : performCall pf c b = (.ok a, b')) :
    ∃ key, c.privateKey pf b = some key := by
  cases c with
  | psoSignHash hash =>
    have hrun := (running_of_ok h).2
    rw [Fallible.gets_bind] at hrun
    obtain ⟨key, _, hkey, -⟩ := Fallible.bind_eq_ok.mp hrun
    exact ⟨key, orDeny_eq_ok hkey⟩
  | ed25519Sign purpose message =>
    have hrun := (running_of_ok h).2
    rw [Fallible.gets_bind] at hrun
    obtain ⟨key, _, hkey, -⟩ := Fallible.bind_eq_ok.mp hrun
    exact ⟨key, orDeny_eq_ok hkey⟩
  | ecdhDec purpose peer =>
    obtain ⟨_, b₁, hpurpose, hrun⟩ := Fallible.bind_eq_ok.mp (running_of_ok h).2
    obtain ⟨-, rfl⟩ := Fallible.require_eq_ok.mp hpurpose
    rw [Fallible.gets_bind] at hrun
    obtain ⟨key, _, hkey, -⟩ := Fallible.bind_eq_ok.mp hrun
    exact ⟨key, orDeny_eq_ok hkey⟩
  | x25519Ecdh purpose peer =>
    obtain ⟨_, b₁, hpurpose, hrun⟩ := Fallible.bind_eq_ok.mp (running_of_ok h).2
    obtain ⟨-, rfl⟩ := Fallible.require_eq_ok.mp hpurpose
    obtain ⟨_, b₂, hpeer, hrun⟩ := Fallible.bind_eq_ok.mp hrun
    obtain ⟨-, rfl⟩ := Fallible.require_eq_ok.mp hpeer
    rw [Fallible.gets_bind] at hrun
    obtain ⟨key, _, hkey, -⟩ := Fallible.bind_eq_ok.mp hrun
    exact ⟨key, orDeny_eq_ok hkey⟩
  | internalAuthenticate challenge =>
    have hrun := (running_of_ok h).2
    rw [Fallible.gets_bind, Fallible.gets_bind] at hrun
    by_cases hkind : kindFor .aut (algorithmAttributesForSlot pf b .aut) = some .curve25519
    · rw [if_pos hkind] at hrun
      obtain ⟨key, _, hkey, -⟩ := Fallible.bind_eq_ok.mp hrun
      exact ⟨key, (if_pos hkind).trans (orDeny_eq_ok hkey)⟩
    · rw [if_neg hkind] at hrun
      obtain ⟨key, _, hkey, -⟩ := Fallible.bind_eq_ok.mp hrun
      exact ⟨key, (if_neg hkind).trans (orDeny_eq_ok hkey)⟩
  | _ => exact absurd hc id

/-- **Uses in the record.** Every operation with a private key that succeeds is recorded. -/
theorem used_mem_of_ok {c : BackendCall} (hc : c.UsesKey) {a : c.Result}
    {b' : OpenPgpVaultBackend W T} (h : performCall pf c b = (.ok a, b')) :
    ∃ key, c.privateKey pf b = some key ∧ .used key ∈ c.keyEvents pf b b' (.ok a) := by
  obtain ⟨key, hkey⟩ := exists_privateKey hc h
  refine ⟨key, hkey, ?_⟩
  rw [BackendCall.keyEvents, hkey]
  exact List.mem_append_right _ List.mem_cons_self

/-- The key that a call computes with is in memory. -/
theorem mem_of_privateKey {c : BackendCall} (h : c.privateKey pf b = some k) :
    ∃ slot kind, (b.keys slot).get kind = some k := by
  cases c with
  | psoSignHash hash => exact ⟨.sig, .brainpool, h⟩
  | ecdhDec purpose peer => exact ⟨.dec, .brainpool, h⟩
  | x25519Ecdh purpose peer => exact ⟨.dec, .curve25519, h⟩
  | ed25519Sign purpose message =>
    cases purpose with
    | openPgpSig => exact ⟨.sig, .curve25519, h⟩
    | openPgpAut => exact ⟨.aut, .curve25519, h⟩
    | openPgpDec => cases h
  | internalAuthenticate challenge =>
    rw [BackendCall.privateKey] at h
    split_ifs at h
    · exact ⟨.aut, .curve25519, h⟩
    · exact ⟨.aut, .brainpool, h⟩
  | _ => cases h

/-! ## Attempts -/

/-- An attempt is answered as blocked exactly if the machine answers it with a breach. -/
theorem verifyPin_blocked_iff (hterm : b.termination = false) :
    (verifyPin pf p pin b).1 = .error (.status .authMethodBlocked) ↔
      (attemptPin pf p pin b).1 = .ok .breach := by
  rw [verifyPin_eq hterm, Fallible.bind_apply, Fallible.orElse]
  rcases attemptPin pf p pin b with ⟨_ | outcome, b₁⟩
  · exact iff_of_false (by rintro ⟨⟩) (by rintro ⟨⟩)
  · cases outcome with
    | success => exact iff_of_false (by rintro ⟨⟩) (by rintro ⟨⟩)
    | failed attemptsUsed => exact iff_of_false (by rintro ⟨⟩) (by rintro ⟨⟩)
    | breach => exact iff_of_true rfl rfl

/-- An attempt that does not breach is not answered as blocked. -/
theorem verifyPin_not_blocked (h : ¬ Breaches pf p b) :
    (verifyPin pf p pin b).1 ≠ .error (.status .authMethodBlocked) := by
  refine verifyPin_cases (P := fun r _ ↦ r ≠ .error (.status .authMethodBlocked)) ?_ ?_ ?_ ?_ ?_ ?_
  · rintro - ⟨⟩
  · exact fun hb ↦ absurd (.inl hb) h
  · rintro e w' - - ⟨⟩
  · exact fun count w' _ hc hgt ↦ absurd (.inr ⟨count, w', hc, hgt⟩) h
  · rintro count w' - - - ⟨⟩
  · rintro count w' - - - ⟨⟩

/-- The last steps of a change of PIN are not answered so either. -/
theorem changed_not_blocked (p : CardPin) (d : Block 32) :
    Fallible.FailsIn (· ≠ .status .authMethodBlocked) (do
      .modify fun b ↦ b.setVerifier d p
      persistPinHashes pf
      resetMachine pf p : VaultM W T PUnit) := by
  have hwrite : ∀ m : Fallible (OpenPgpVaultBackend W T) HalError PUnit,
      Fallible.FailsIn (· ≠ OpenPgpBackendError.status .authMethodBlocked)
        (Fallible.orElse m (.status .executionError)) := fun m ↦ .orElse (by decide) m
  have hpersist : Fallible.FailsIn (· ≠ .status .authMethodBlocked)
      (persistPinHashes pf : VaultM W T PUnit) :=
    (Fallible.FailsIn.gets _).bind fun uv ↦ (hwrite _).bind fun _ ↦
      (Fallible.FailsIn.gets _).bind fun av ↦ hwrite _
  exact (Fallible.FailsIn.modify _).bind fun _ ↦ hpersist.bind fun _ ↦ .modify _

/-- A change of PIN is answered as blocked exactly if the attempt on the old PIN is made and is
answered so. -/
theorem changePin_blocked_iff {newPin : Bytes} (hterm : b.termination = false) :
    (changePin pf p pin newPin b).1 = .error (.status .authMethodBlocked) ↔
      newPin.length ≤ maxPinLength pf b p ∧
        (verifyPin pf p pin b).1 = .error (.status .authMethodBlocked) := by
  rw [changePin, Fallible.bind_of_ok (ensureNotTerminated_run hterm), Fallible.gets_bind]
  by_cases hfits : newPin.length ≤ maxPinLength pf b p
  · rw [Fallible.bind_of_ok (Fallible.require_of hfits _ _), and_iff_right hfits,
      Fallible.bind_apply]
    rcases verifyPin pf p pin b with ⟨e | _, b₁⟩
    · rfl
    · exact iff_of_false (fun h ↦ changed_not_blocked _ _ b₁ _ h rfl) (by rintro ⟨⟩)
  · rw [Fallible.bind_apply, Fallible.require, if_neg hfits]
    exact iff_of_false (by rintro ⟨⟩) fun h ↦ hfits h.1

theorem changePin_not_blocked {newPin : Bytes} (h : ¬ Breaches pf p b) :
    (changePin pf p pin newPin b).1 ≠ .error (.status .authMethodBlocked) := by
  intro hblocked
  cases hterm : b.termination with
  | true =>
    rw [changePin, Fallible.bind_of_error (ensureNotTerminated_terminated hterm)] at hblocked
    cases hblocked
  | false => exact verifyPin_not_blocked h ((changePin_blocked_iff hterm).mp hblocked).2

/-- A call whose attempt does not breach is not answered as blocked. -/
theorem performCall_not_blocked {c : BackendCall} (h : ¬ c.Breaching pf b)
    (hc : c.attempts.isSome = true) :
    (performCall pf c b).1 ≠ .error (.status .authMethodBlocked) := by
  have hno : ∀ q, c.attempts = some q → ¬ Breaches pf q b := fun q hq hb ↦ h ⟨q, hq, hb⟩
  cases c with
  | verifyPw1Sign pin => exact verifyPin_not_blocked (hno _ rfl)
  | verifyPw1Other pin => exact verifyPin_not_blocked (hno _ rfl)
  | verifyPw3 pin => exact verifyPin_not_blocked (hno _ rfl)
  | changePin pw3 oldPin newPin => exact changePin_not_blocked (hno _ rfl)
  | _ => cases hc

/-- The attempt that a call makes: the PIN, and what is presented for it. -/
def BackendCall.presented (pf : CardPlatform W T) (b : OpenPgpVaultBackend W T) :
    BackendCall → Option (CardPin × Bytes)
  | .verifyPw1Sign pin => some (.user, pin)
  | .verifyPw1Other pin => some (.user, pin)
  | .verifyPw3 pin => some (.admin, pin)
  | .changePin pw3 oldPin newPin =>
    let p := if pw3 then CardPin.admin else .user
    if newPin.length ≤ maxPinLength pf b p then some (p, oldPin) else none
  | _ => none

/-- **Breaches in the record.** A call adds a breach exactly if it makes an attempt that the machine
answers with one. -/
theorem breached_mem_iff (hterm : b.termination = false) (c : BackendCall) :
    .breached ∈ c.keyEvents pf b (performCall pf c b).2 (performCall pf c b).1 ↔
      ∃ q pin, c.presented pf b = some (q, pin) ∧ (attemptPin pf q pin b).1 = .ok .breach := by
  have hevents : ∀ (r : Except OpenPgpBackendError c.Result) b', .breached ∈ c.keyEvents pf b b' r ↔
      c.attempts.isSome = true ∧ r = .error (.status .authMethodBlocked) := by
    intro r b'
    rcases r with e | a
    · rw [BackendCall.keyEvents]
      split_ifs with h
      · exact iff_of_true (List.mem_singleton.mpr rfl) ⟨h.1, by rw [h.2]⟩
      · exact iff_of_false List.not_mem_nil fun hb ↦ h ⟨hb.1, Except.error.inj hb.2⟩
    · simp [BackendCall.keyEvents]
  have hverify : ∀ {q pin}, (verifyPin pf q pin b).1 = .error (.status .authMethodBlocked) ↔
      ∃ q' pin', some (q, pin) = some (q', pin') ∧ (attemptPin pf q' pin' b).1 = .ok .breach := by
    intro q pin
    rw [verifyPin_blocked_iff hterm]
    constructor
    · exact fun h ↦ ⟨q, pin, rfl, h⟩
    · rintro ⟨q', pin', ⟨⟩, h⟩
      exact h
  rw [hevents]
  cases c with
  | verifyPw1Sign pin => exact (and_iff_right rfl).trans hverify
  | verifyPw1Other pin => exact (and_iff_right rfl).trans hverify
  | verifyPw3 pin => exact (and_iff_right rfl).trans hverify
  | changePin pw3 oldPin newPin =>
    have hchange : ∀ q, (newPin.length ≤ maxPinLength pf b q ∧
        (verifyPin pf q oldPin b).1 = .error (.status .authMethodBlocked)) ↔
        ∃ q' pin', (if newPin.length ≤ maxPinLength pf b q then some (q, oldPin) else none)
          = some (q', pin') ∧ (attemptPin pf q' pin' b).1 = .ok .breach := by
      intro q
      by_cases hfits : newPin.length ≤ maxPinLength pf b q
      · rw [and_iff_right hfits, if_pos hfits]
        exact hverify
      · rw [if_neg hfits]
        exact iff_of_false (fun h ↦ hfits h.1) (by rintro ⟨_, _, ⟨⟩, -⟩)
    exact (and_iff_right rfl).trans ((changePin_blocked_iff hterm).trans (hchange _))
  | _ => exact iff_of_false (by rintro ⟨⟨⟩, -⟩) (by rintro ⟨_, _, ⟨⟩, -⟩)

section Breaching

variable (hlive : ∀ q, (b.machine q).state ≠ .bricked) (hterm : b.termination = false)
include hlive hterm

/-- An attempt that breaches on a card in service wipes the vault and terminates the card. -/
theorem verifyPin_breaches (h : Breaches pf p b) : ∃ w',
    verifyPin pf p pin b = (.error (.status .authMethodBlocked),
      { b.attempted p .bricked (pf.zeroise p w') with termination := true }) := by
  obtain ⟨count, w', hc, hgt⟩ := h.resolve_left (hlive p)
  exact ⟨w', verifyPin_breach hterm (hlive p) hc hgt⟩

/-- A call with an attempt that breaches does so, unless it stops before the attempt. -/
theorem performCall_breaches {c : BackendCall} (h : c.Breaching pf b) :
    performCall pf c b = (.error (.status .incorrectParameters), b) ∨
      ∃ q w', performCall pf c b = (.error (.status .authMethodBlocked),
        { b.attempted q .bricked (pf.zeroise q w') with termination := true }) := by
  obtain ⟨q, hq, hbreach⟩ := h
  cases c with
  | verifyPw1Sign pin =>
    obtain rfl := Option.some.inj hq
    exact .inr ⟨_, verifyPin_breaches hlive hterm hbreach⟩
  | verifyPw1Other pin =>
    obtain rfl := Option.some.inj hq
    exact .inr ⟨_, verifyPin_breaches hlive hterm hbreach⟩
  | verifyPw3 pin =>
    obtain rfl := Option.some.inj hq
    exact .inr ⟨_, verifyPin_breaches hlive hterm hbreach⟩
  | changePin pw3 oldPin newPin =>
    have hq : (if pw3 then CardPin.admin else .user) = q := Option.some.inj hq
    obtain ⟨w', hverify⟩ : ∃ w', verifyPin pf q oldPin b = _ :=
      verifyPin_breaches hlive hterm hbreach
    rw [performCall, hq, changePin, Fallible.bind_of_ok (ensureNotTerminated_run hterm),
      Fallible.gets_bind]
    by_cases hfits : newPin.length ≤ maxPinLength pf b q
    · rw [Fallible.bind_of_ok (Fallible.require_of hfits _ _), Fallible.bind_of_error hverify]
      exact .inr ⟨q, w', rfl⟩
    · rw [Fallible.bind_apply, Fallible.require, if_neg hfits]
      exact .inl rfl
  | _ => cases hq

end Breaching

/-! ## The keys of a card in service -/

variable {cells objects pins : W → Memory} {pinLimit : ℕ} {b' : OpenPgpVaultBackend W T}

/-- No machine is bricked, and the keys in memory and in the cells are fresh. -/
structure KeysFresh (pf : CardPlatform W T) (cells : W → Memory) (log : List KeyEvent)
    (b : OpenPgpVaultBackend W T) : Prop where
  unbricked : ∀ p, (b.machine p).state ≠ .bricked
  memory : ∀ slot kind k, (b.keys slot).get kind = some k → Fresh log k
  cells : ∀ slot k, sealedKey pf (cellOf (cells b.world) slot) slot = some k → Fresh log k

theorem KeysFresh.concat (h : KeysFresh pf cells log b) {e : KeyEvent} (he : e ≠ .breached) :
    KeysFresh pf cells (log ++ [e]) b where
  unbricked := h.unbricked
  memory slot kind k hk := (h.memory slot kind k hk).concat he
  cells slot k hk := (h.cells slot k hk).concat he

/-- A move that changes no key. -/
structure KeepsKeys (cells : W → Memory) (b b' : OpenPgpVaultBackend W T) : Prop where
  world : SameCells cells b.world b'.world
  keys : b'.keys = b.keys
  termination : b'.termination = b.termination
  bricked : ∀ p, (b'.machine p).state = .bricked → (b.machine p).state = .bricked

theorem Calm.keepsKeys (h : Calm (SameCells cells) b b') : KeepsKeys cells b b' :=
  ⟨h.world, h.keys, h.termination, h.bricked⟩

theorem KeysFresh.keep (h : KeysFresh pf cells log b) (hkeep : KeepsKeys cells b b') :
    KeysFresh pf cells log b' where
  unbricked q hq := h.unbricked q (hkeep.bricked q hq)
  memory slot kind k hk := by
    rw [hkeep.keys] at hk
    exact h.memory slot kind k hk
  cells slot k hk := by
    rw [cellOf_congr hkeep.world slot] at hk
    exact h.cells slot k hk

/-- A slot with one key holds no other. -/
theorem eq_of_get_only {kind kind' : KeyKind} (h : (SlotKeys.only key kind).get kind' = some k) :
    k = key := by
  cases kind <;> cases kind' <;> first | exact (Option.some.inj h).symm | cases h

theorem newKey_eq_none {c : BackendCall} (h : ¬ c.Generates) : c.newKey pf b b' = none := by
  cases c with
  | generateOrReadKey p1 slot =>
    have hp1 : p1 ≠ 0x80 := fun hp1 ↦ h ⟨slot, by rw [hp1]⟩
    exact if_neg hp1
  | _ => rfl

/-- What a call leaves behind that does not breach. -/
structure Unbroken (pf : CardPlatform W T) (cells : W → Memory) (log events : List KeyEvent)
    (b : OpenPgpVaultBackend W T) : Prop where
  silent : .breached ∉ events
  running : b.termination = false
  fresh : KeysFresh pf cells (log ++ events) b
  guarded : Guarded Justified log → Guarded Justified (log ++ events)

theorem unbroken_nil (hterm : b.termination = false) (h : KeysFresh pf cells log b) :
    Unbroken pf cells log [] b := by
  refine ⟨List.not_mem_nil, hterm, ?_, ?_⟩
  · rwa [List.append_nil]
  · rw [List.append_nil]
    exact id

section Calls

variable (hk : pf.Keeps objects pins cells pinLimit) (hterm : b.termination = false)
  (h : KeysFresh pf cells log b)
include hk hterm h

omit hk in
/-- A call that changes no key uses a fresh one, if any. -/
theorem unbroken_of_keepsKeys {c : BackendCall} (hc : ¬ c.Generates) (hkeep : KeepsKeys cells b b')
    {r : Except OpenPgpBackendError c.Result}
    (hr : c.attempts.isSome = true → r ≠ .error (.status .authMethodBlocked)) :
    Unbroken pf cells log (c.keyEvents pf b b' r) b' := by
  have hafter := h.keep hkeep
  have hterm' := hkeep.termination.trans hterm
  cases r with
  | error e =>
    have hno : ¬ (c.attempts.isSome = true ∧ e = .status .authMethodBlocked) := by
      rintro ⟨hattempts, rfl⟩
      exact hr hattempts rfl
    rw [BackendCall.keyEvents, if_neg hno]
    exact unbroken_nil hterm' hafter
  | ok a =>
    rw [BackendCall.keyEvents, newKey_eq_none hc]
    cases hkey : c.privateKey pf b with
    | none => exact unbroken_nil hterm' hafter
    | some key =>
      obtain ⟨slot, kind, hmem⟩ := mem_of_privateKey hkey
      refine ⟨?_, hterm', hafter.concat ?_, fun hg ↦ hg.concat (h.memory slot kind key hmem)⟩
      · rintro (_ | ⟨_, ⟨⟩⟩)
      · rintro ⟨⟩

omit h in
/-- A call that neither generates nor breaches changes no key. -/
theorem keepsKeys_performCall {c : BackendCall} (hc : ¬ c.Generates)
    (hbreach : ¬ c.Breaching pf b) : KeepsKeys cells b (performCall pf c b).2 := by
  have hrefl : ∀ w, SameCells cells w w := fun _ _ _ _ ↦ rfl
  have htrans : ∀ u v w, SameCells cells u v → SameCells cells v w → SameCells cells u w :=
    fun _ _ _ h h' ↦ h'.trans h
  have hapart : ∀ d ≠ .cells, pf.Spares (SameCells cells) d := hk.cellsApart
  rcases c.generates_or_counts_or_plain with hgen | rfl | hplain
  · exact absurd hgen hc
  · change KeepsKeys cells b (incrementSignatureCounter pf b).2
    rw [incrementSignatureCounter_run hterm]
    refine ⟨hapart .objects (by decide) _ _ b.world, rfl, rfl, fun q hq ↦ ?_⟩
    cases q <;> exact hq
  · exact (calm_performCall_of_apart hrefl htrans hplain hapart hbreach).keepsKeys

/-- A generation leaves a fresh key behind. -/
theorem unbroken_generate (haead : pf.crypto.Aead) (slot : OpenPgpKeySlot) :
    Unbroken pf cells log (BackendCall.keyEvents pf (.generateOrReadKey 0x80 slot) b
      (performCall pf (.generateOrReadKey 0x80 slot) b).2
      (performCall pf (.generateOrReadKey 0x80 slot) b).1)
      (performCall pf (.generateOrReadKey 0x80 slot) b).2 := by
  set kind := kindFor slot (algorithmAttributesForSlot pf b slot) with hkind
  have hrun : performCall pf (.generateOrReadKey 0x80 slot) b = generateKey pf slot kind b := by
    change generateOrReadKey pf 0x80 slot b = _
    rw [generateOrReadKey, Fallible.bind_of_ok (ensureNotTerminated_run hterm), Fallible.gets_bind,
      if_neg (by decide), if_neg (by decide)]
  rw [hrun]
  rcases generateKey_cases hk slot kind b with
    ⟨e, b', hgen, hcalm⟩ |
    ⟨out, k, key, nonce, combined, b', hsome, -, hgen, hcalm, hseals, hcells⟩ <;> rw [hgen]
  · have hsame : KeepsKeys cells b b' := by
      refine ⟨?_, hcalm.keys, hcalm.termination, hcalm.bricked⟩
      rw [← hcalm.world]
      exact fun _ _ _ ↦ rfl
    exact unbroken_nil (hcalm.termination.trans hterm) (h.keep hsame)
  have hnew : BackendCall.keyEvents pf (.generateOrReadKey 0x80 slot) b
      (b'.setKeys slot (.only key k)) (.ok out) = [.made key] := by
    have hkey : BackendCall.newKey pf b (b'.setKeys slot (.only key k))
        (.generateOrReadKey 0x80 slot) = some key := by
      rw [BackendCall.newKey, if_pos rfl, ← hkind, hsome]
      change (if slot = slot then SlotKeys.only key k else b'.keys slot).get k = some key
      rw [if_pos rfl]
      cases k <;> rfl
    rw [BackendCall.keyEvents, hkey]
    rfl
  rw [hnew]
  -- the slot of the new key is fresh by its generation, the other slots stay what they were
  have hget : ∀ s, (b'.setKeys slot (.only key k)).keys s
      = if s = slot then SlotKeys.only key k else b.keys s := by
    intro s
    rw [← hcalm.keys]
    rfl
  refine ⟨?_, hcalm.termination.trans hterm,
    ⟨fun q hq ↦ ?_, fun s kind' k' hk' ↦ ?_, fun s k' hk' ↦ ?_⟩, fun hg ↦ hg.concat trivial⟩
  · rintro (_ | ⟨_, ⟨⟩⟩)
  · cases q
    · exact h.unbricked .user (hcalm.bricked .user hq)
    · exact h.unbricked .admin (hcalm.bricked .admin hq)
  · rw [hget] at hk'
    by_cases hs : s = slot
    · rw [if_pos hs] at hk'
      rw [eq_of_get_only hk']
      exact fresh_made log key
    · rw [if_neg hs] at hk'
      exact (h.memory s kind' k' hk').concat (by rintro ⟨⟩)
  · have hcell : sealedKey pf (if s = slot
        then .ofBytes 93 (SealedKeyBlob.blobBytes (purposeOf slot) nonce combined)
        else cellOf (cells b.world) s) s = some k' := by
      rw [← hcells]
      exact hk'
    by_cases hs : s = slot
    · rw [if_pos hs, hs] at hcell
      rw [eq_of_sealedKey haead hseals hcell]
      exact fresh_made log key
    · rw [if_neg hs] at hcell
      exact (h.cells s k' hcell).concat (by rintro ⟨⟩)

end Calls

/-- A call that does not breach moves the world along what no device leaves. -/
theorem world_performCall {R : W → W → Prop} (hrefl : ∀ w, R w w)
    (htrans : ∀ u v w, R u v → R v w → R u w) (hspares : ∀ d, pf.Spares R d)
    (hterm : b.termination = false) {c : BackendCall} (hbreach : ¬ c.Breaching pf b) :
    R b.world (performCall pf c b).2.world := by
  rcases c.generates_or_counts_or_plain with ⟨slot, rfl⟩ | rfl | hplain
  · exact (calmBut_generate hrefl htrans (hspares .cells) slot b).world
  · change R b.world (incrementSignatureCounter pf b).2.world
    rw [incrementSignatureCounter_run hterm]
    exact hspares .objects _ _ b.world
  · exact (calm_performCall hrefl htrans hplain (fun d _ ↦ hspares d) b hbreach).world

/-! ## Recorded cards -/

/-- A record in which only fresh keys are used, of a card that is in service with fresh keys, or
terminated with its vault wiped. -/
structure SoundRecord (pf : CardPlatform W T) (cells : W → Memory) (Held Wiped : W → Prop)
    (x : Recorded W T) : Prop where
  guarded : Guarded Justified x.log
  state : (x.backend.termination = true ∧ Wiped x.backend.world) ∨
    (x.backend.termination = false ∧ Held x.backend.world ∧ KeysFresh pf cells x.log x.backend)

/-- What a command does with a sound record: it leaves it sound and adds events; a breach among them
terminates the card, for good. -/
def KeepsRecord (pf : CardPlatform W T) (cells : W → Memory) (Held Wiped : W → Prop)
    (x y : Recorded W T) : Prop :=
  SoundRecord pf cells Held Wiped x → SoundRecord pf cells Held Wiped y ∧
    (x.backend.termination = true → y.backend.termination = true) ∧
    ∃ events, y.log = x.log ++ events ∧ (.breached ∈ events → y.backend.termination = true)

variable {Held Wiped : W → Prop} {x y z : Recorded W T}

theorem KeepsRecord.refl (x : Recorded W T) : KeepsRecord pf cells Held Wiped x x := fun h ↦
  ⟨h, id, [], (List.append_nil _).symm, fun hmem ↦ absurd hmem List.not_mem_nil⟩

theorem KeepsRecord.trans (h : KeepsRecord pf cells Held Wiped x y)
    (h' : KeepsRecord pf cells Held Wiped y z) : KeepsRecord pf cells Held Wiped x z := by
  intro hx
  obtain ⟨hy, hterm, events, hlog, hbreached⟩ := h hx
  obtain ⟨hz, hterm', events', hlog', hbreached'⟩ := h' hy
  refine ⟨hz, fun ht ↦ hterm' (hterm ht), events ++ events', ?_, fun hmem ↦ ?_⟩
  · rw [hlog', hlog, List.append_assoc]
  · rcases List.mem_append.mp hmem with hmem | hmem
    · exact hterm' (hbreached hmem)
    · exact hbreached' hmem

section Recording

variable (hk : pf.Keeps objects pins cells pinLimit) (haead : pf.crypto.Aead)
  (hheld : ∀ d, pf.Spares (fun w w' ↦ Held w → Held w') d)
  (hwiped : ∀ q w, Wiped (pf.zeroise q w))
include hk haead

/-- **Calls.** On a card in service a call breaches, which wipes the vault and terminates the card,
or it leaves the keys fresh. -/
theorem performCall_record (hterm : b.termination = false) (h : KeysFresh pf cells log b)
    (c : BackendCall) :
    (∃ q w', c.keyEvents pf b (performCall pf c b).2 (performCall pf c b).1 = [.breached] ∧
      (performCall pf c b).2 = { b.attempted q .bricked (pf.zeroise q w') with termination := true }) ∨
    (performCall pf c b).2 = b ∧
      Unbroken pf cells log (c.keyEvents pf b (performCall pf c b).2 (performCall pf c b).1) b ∨
    ¬ c.Breaching pf b ∧ Unbroken pf cells log
      (c.keyEvents pf b (performCall pf c b).2 (performCall pf c b).1) (performCall pf c b).2 := by
  by_cases hbreach : c.Breaching pf b
  -- a change of PIN may stop at the length of the new PIN, before its attempt
  · have hattempts : c.attempts.isSome = true := by
      obtain ⟨q, hq, -⟩ := hbreach
      rw [hq]
      rfl
    rcases performCall_breaches h.unbricked hterm hbreach with hrun | ⟨q, w', hrun⟩
    · refine .inr (.inl ?_)
      rw [hrun, BackendCall.keyEvents, if_neg (by rintro ⟨-, ⟨⟩⟩)]
      exact ⟨rfl, unbroken_nil hterm h⟩
    · refine .inl ⟨q, w', ?_⟩
      rw [hrun, BackendCall.keyEvents, if_pos ⟨hattempts, rfl⟩]
      exact ⟨rfl, rfl⟩
  · refine .inr (.inr ⟨hbreach, ?_⟩)
    by_cases hgen : c.Generates
    · obtain ⟨slot, rfl⟩ := hgen
      exact unbroken_generate hk hterm h haead slot
    · exact unbroken_of_keepsKeys hterm h hgen (keepsKeys_performCall hk hterm hgen hbreach)
        (performCall_not_blocked hbreach)

include hheld hwiped

theorem keepsRecord_perform (c : BackendCall) :
    Fallible.Moves (KeepsRecord pf cells Held Wiped) ((recording pf).perform c) := by
  intro x hx
  have hafter : ((recording pf).perform c x).2 = ⟨(performCall pf c x.backend).2, x.log ++
      c.keyEvents pf x.backend (performCall pf c x.backend).2 (performCall pf c x.backend).1⟩ := rfl
  rw [hafter]
  rcases hx.state with ⟨hterm, -⟩ | ⟨hterm, hworld, hfresh⟩
  · -- a terminated card refuses the call
    rw [performCall_terminated hterm, BackendCall.keyEvents, if_neg (by rintro ⟨-, ⟨⟩⟩),
      List.append_nil]
    exact KeepsRecord.refl x hx
  have hunbroken : ∀ {b' : OpenPgpVaultBackend W T} {events : List KeyEvent}, Held b'.world →
      Unbroken pf cells x.log events b' →
        KeepsRecord pf cells Held Wiped x ⟨b', x.log ++ events⟩ := by
    intro b' events hw h _
    refine ⟨⟨h.guarded hx.guarded, .inr ⟨h.running, hw, h.fresh⟩⟩, fun ht ↦ ?_, events, rfl,
      fun hmem ↦ absurd hmem h.silent⟩
    rw [hterm] at ht
    cases ht
  rcases performCall_record hk haead hterm hfresh c with
    ⟨q, w', hevents, hbackend⟩ | ⟨hsame, h⟩ | ⟨hbreach, h⟩
  · rw [hevents, hbackend]
    refine ⟨⟨hx.guarded.concat trivial, .inl ⟨rfl, ?_⟩⟩, fun _ ↦ rfl, _, rfl, fun _ ↦ rfl⟩
    exact hwiped q w'
  · rw [hsame] at h ⊢
    exact hunbroken hworld h hx
  · refine hunbroken ?_ h hx
    exact world_performCall (R := fun w w' ↦ Held w → Held w') (fun _ ↦ id)
      (fun _ _ _ h h' hw ↦ h' (h hw)) hheld hterm hbreach hworld

/-- **Commands.** A command keeps the record sound. -/
theorem keepsRecord_handle (cmd : CommandApdu) (s : Session (Recorded W T)) :
    KeepsRecord pf cells Held Wiped s.backend (handle (recording pf) cmd s).2.backend := by
  have hlifts : Lifts (recording pf) cmd (fun _ ↦ True) (KeepsRecord pf cells Held Wiped) := by
    refine ⟨KeepsRecord.refl, KeepsRecord.trans, fun code x hx ↦ ?_, fun _ _ _ ↦ trivial,
      fun c _ ↦ (keepsRecord_perform hk haead hheld hwiped c).movesFrom, fun _ _ _ _ _ ↦ trivial⟩
    refine ⟨⟨hx.guarded, hx.state.imp id fun h ↦ ⟨h.1, h.2.1, ?_⟩⟩, id, [],
      (List.append_nil _).symm, fun hmem ↦ absurd hmem List.not_mem_nil⟩
    exact ⟨h.2.2.unbricked, h.2.2.memory, h.2.2.cells⟩
  exact hlifts.handle s trivial

end Recording

end Galdralag.OpenPgp
