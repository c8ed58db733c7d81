import Galdralag.OpenPgp.Baochip
import Galdralag.OpenPgp.CardLife
import Galdralag.OpenPgp.CommandRuns

/-!
# The signature counter over the life of a card

The counter is kept twice: in memory, where it starts at zero whenever the card is opened, and in
the object `93`, which survives. A signature steps the copy in memory and overwrites the object with
it. The object therefore counts up only while the two agree, and nothing makes them agree again
after a power cycle, after PUT DATA has written the object, or after the three bytes of the object
have overflowed.

`CountSafe` says, of a card and the step it is about to make, that none of this matters to the step;
`signature_counter_monotone` is the counter's behaviour over runs of such steps.
-/

set_option linter.all false

namespace Galdralag.OpenPgp

variable {W T : Type} {pf : CardPlatform W T}

/-- The number in the object `93`; a missing object counts as zero. -/
def signatureNumber (pf : CardPlatform W T) (w : W) : ℕ :=
  match pf.doStore.read 0x93 w with
  | some v => beNat v.toBytes
  | none => 0

/-- A step that completes a signature. -/
def Card.Signs (pf : CardPlatform W T) (c : Card W T) (a : CardStep T) : Prop :=
  ∃ x, c.exchange pf a = some x ∧ x.isSignature = true

/-- What the counter does in one step: a signature adds one, and nothing takes away. -/
def Card.Counts (pf : CardPlatform W T) (c : Card W T) (a : CardStep T) : Prop :=
  (c.Signs pf a → signatureNumber pf (c.step pf a).world = signatureNumber pf c.world + 1) ∧
    signatureNumber pf c.world ≤ signatureNumber pf (c.step pf a).world

/-- The counter in memory stands at the number in the object, and there is room for one more. -/
def Agrees (pf : CardPlatform W T) (b : OpenPgpVaultBackend W T) : Prop :=
  b.sigCounter.toNat % 2 ^ 24 = signatureNumber pf b.world ∧
    signatureNumber pf b.world + 1 < 2 ^ 24

/-- The counter is safe in a command: where the command may count a signature the two copies agree,
where it may write the object it does not lower the number, and a PIN attempt it makes is no
breach. -/
structure CommandSafe (pf : CardPlatform W T) (cmd : CommandApdu) (b : OpenPgpVaultBackend W T) :
    Prop where
  agrees : cmd.Asks .incrementSignatureCounter → Agrees pf b
  raises : ∀ value, cmd.Asks (.putDo 0x93 value) → value.length ≤ 254 →
    signatureNumber pf b.world ≤ beNat value
  quiet : ∀ c, cmd.Asks c → ¬ c.Breaching pf b

/-- Whether a session lets a command through to the calls that touch the counter. -/
def Session.Admits (s : Session (OpenPgpVaultBackend W T)) (cmd : CommandApdu) : Prop :=
  s.backend.termination = false ∧
    (cmd.Asks .incrementSignatureCounter → s.card.pw1VerifiedSign = true) ∧
    ∀ tag value, cmd.Asks (.putDo tag value) → putAllowed s.card tag = true

/-- The counter is safe in a step: always, unless the step is a command that the session admits and
that puts the counter at risk. -/
def Card.CountSafe (pf : CardPlatform W T) : Card W T → CardStep T → Prop
  | .on s, .apdu cmd => s.Admits cmd → CommandSafe pf cmd s.backend
  | _, _ => True

/-! ## The wiring -/

/-- The object store is on a storage that keeps what is written, and the other devices of the card
do not write into its region. -/
structure ObjectsKept (pf : CardPlatform W T) (memory : W → Memory) (limit : ℕ) : Prop where
  faithful : pf.doStore.storage.Faithful limit memory
  fits : pf.doStore.base + DoStore.regionBytes ≤ limit
  spares : ∀ d ≠ .objects, pf.Spares (fun w w' ↦ Memory.AgreeOn pf.doStore.base
    (pf.doStore.base + DoStore.regionBytes) (memory w') (memory w)) d

/-! ## The number -/

theorem beNat_counterBytes (c : UInt32) : beNat (counterBytes c) = c.toNat % 2 ^ 24 := by
  have h₁ : (c >>> 16).toUInt8.toNat = c.toNat / 2 ^ 16 % 2 ^ 8 := by
    rw [UInt32.toNat_toUInt8, UInt32.toNat_shiftRight, Nat.shiftRight_eq_div_pow]
    rfl
  have h₂ : (c >>> 8).toUInt8.toNat = c.toNat / 2 ^ 8 % 2 ^ 8 := by
    rw [UInt32.toNat_toUInt8, UInt32.toNat_shiftRight, Nat.shiftRight_eq_div_pow]
    rfl
  have h₃ : c.toUInt8.toNat = c.toNat % 2 ^ 8 := UInt32.toNat_toUInt8 c
  simp only [beNat, counterBytes, List.foldl_cons, List.foldl_nil, h₁, h₂, h₃]
  omega

variable {memory : W → Memory} {limit : ℕ} (hk : ObjectsKept pf memory limit) {w w' : W}
include hk

theorem signatureNumber_eq (w : W) : signatureNumber pf w =
    ((pf.doStore.object (memory w) 0x93).elim 0 fun v ↦ beNat v.toBytes) := by
  rw [signatureNumber, DoStore.read_eq hk.faithful hk.fits]
  cases pf.doStore.object (memory w) 0x93 <;> rfl

/-- The number depends on the region alone. -/
theorem signatureNumber_congr (h : Memory.AgreeOn pf.doStore.base
    (pf.doStore.base + DoStore.regionBytes) (memory w') (memory w)) :
    signatureNumber pf w' = signatureNumber pf w := by
  rw [signatureNumber_eq hk, signatureNumber_eq hk, DoStore.object_congr h]

/-- Writing an object leaves the number alone, or sets it when the object is `93`. -/
theorem signatureNumber_write (tag : UInt16) (value : Bytes) (w : W) :
    (∃ w', pf.doStore.write tag value w = (.ok ⟨⟩, w') ∧ value.length ≤ 254 ∧
      signatureNumber pf w' = if tag = 0x93 then beNat value else signatureNumber pf w) ∨
    ∃ e w', pf.doStore.write tag value w = (.error e, w') ∧
      signatureNumber pf w' = signatureNumber pf w := by
  rcases DoStore.write_run hk.faithful hk.fits tag value w with
    ⟨w', hrun, hwritten⟩ | ⟨e, w', hrun, hsame, -⟩
  · refine .inl ⟨w', hrun, hwritten.length_le, ?_⟩
    rw [signatureNumber_eq hk, signatureNumber_eq hk, hwritten.object 0x93 (by decide)]
    by_cases htag : tag = 0x93
    · rw [if_pos htag, if_pos htag.symm, Vec.ofBytes?, dif_pos hwritten.length_le]
      rfl
    · rw [if_neg htag, if_neg (Ne.symm htag)]
  · refine .inr ⟨e, w', hrun, ?_⟩
    rw [signatureNumber_eq hk, signatureNumber_eq hk, hsame.object 0x93 (by decide)]

/-- The number is the same. -/
def SameNumber (pf : CardPlatform W T) (w w' : W) : Prop :=
  signatureNumber pf w' = signatureNumber pf w

/-- No device but the object store touches the number. -/
theorem ObjectsKept.sameNumber {d : Device} (hd : d ≠ .objects) :
    pf.Spares (SameNumber pf) d := by
  have h := hk.spares d hd
  cases d with
  | objects => exact absurd rfl hd
  | pins => exact fun p digest w ↦ signatureNumber_congr hk (h p digest w)
  | cells => exact fun purpose cell w ↦ signatureNumber_congr hk (h purpose cell w)
  | counters =>
    exact fun p w ↦ ⟨signatureNumber_congr hk (h p w).1, signatureNumber_congr hk (h p w).2.1,
      signatureNumber_congr hk (h p w).2.2⟩

omit hk in
/-- The calls that do not write objects. -/
theorem ne_objects_of_mem_devices {c : BackendCall} (hput : ∀ tag value, c ≠ .putDo tag value)
    (hinc : c ≠ .incrementSignatureCounter) : ∀ d ∈ c.devices, d ≠ .objects := by
  intro d hd
  cases c with
  | putDo tag value => exact absurd rfl (hput tag value)
  | incrementSignatureCounter => exact absurd rfl hinc
  | changePin pw3 oldPin newPin =>
    rcases List.mem_pair.mp hd with rfl | rfl <;> decide
  | generateOrReadKey p1 slot => rw [List.mem_singleton.mp hd]; decide
  | verifyPw1Sign pin => rw [List.mem_singleton.mp hd]; decide
  | verifyPw1Other pin => rw [List.mem_singleton.mp hd]; decide
  | verifyPw3 pin => rw [List.mem_singleton.mp hd]; decide
  | setPw1VerifierAdminOnly newPin => rw [List.mem_singleton.mp hd]; decide
  | resetPw1RetryCounter => rw [List.mem_singleton.mp hd]; decide
  | _ => cases hd

/-! ## Calls -/

variable {c : BackendCall} {cmd : CommandApdu}

/-- The backend's number does not go down. -/
def Raises (pf : CardPlatform W T) (b b' : OpenPgpVaultBackend W T) : Prop :=
  signatureNumber pf b.world ≤ signatureNumber pf b'.world

theorem raises_putDo {tag : UInt16} {value : Bytes} {b : OpenPgpVaultBackend W T}
    (h : tag = 0x93 → value.length ≤ 254 → signatureNumber pf b.world ≤ beNat value) :
    Raises pf b (putDo pf tag value b).2 := by
  rw [putDo, Fallible.bind_apply]
  cases ht : b.termination with
  | true =>
    rw [ensureNotTerminated_terminated ht]
    exact Nat.le_refl _
  | false =>
    rw [ensureNotTerminated_run ht]
    dsimp only
    rw [Fallible.bind_apply, Fallible.require]
    split_ifs
    · change Raises pf b (Fallible.orElse (onWorld (pf.doStore.write tag value)) _ b).2
      rw [Fallible.orElse, onWorld, Fallible.zoom_apply]
      rcases signatureNumber_write hk tag value b.world with
        ⟨w', hrun, hlen, hn⟩ | ⟨e, w', hrun, hn⟩ <;> rw [hrun]
      · change signatureNumber pf b.world ≤ signatureNumber pf w'
        rw [hn]
        split_ifs with htag
        · exact h htag hlen
        · exact Nat.le_refl _
      · exact Nat.le_of_eq hn.symm
    · exact Nat.le_refl _

/-- A count on agreeing copies: one more, or the object is unchanged. -/
theorem incrementSignatureCounter_number {b : OpenPgpVaultBackend W T} (h : Agrees pf b) :
    (∃ b', incrementSignatureCounter pf b = (.ok ⟨⟩, b') ∧
      signatureNumber pf b'.world = signatureNumber pf b.world + 1) ∨
    ∃ e b', incrementSignatureCounter pf b = (.error e, b') ∧
      signatureNumber pf b'.world = signatureNumber pf b.world := by
  cases ht : b.termination with
  | true =>
    have hrun : incrementSignatureCounter pf b = (.error (.status .terminationState), b) := by
      rw [incrementSignatureCounter, Fallible.bind_of_error (ensureNotTerminated_terminated ht)]
    exact .inr ⟨_, b, hrun, rfl⟩
  | false =>
    rw [incrementSignatureCounter_run ht]
    dsimp only [Fallible.orElse]
    rcases signatureNumber_write hk 0x93 (counterBytes (saturatingAdd b.sigCounter 1)) b.world with
      ⟨w', hrun, -, hn⟩ | ⟨e, w', hrun, hn⟩ <;> rw [hrun]
    · refine .inl ⟨_, rfl, ?_⟩
      obtain ⟨hmod, hroom⟩ := h
      have hone : (1 : UInt32).toNat = 1 := rfl
      have hlt := b.sigCounter.toNat_lt
      rw [hn, if_pos rfl, beNat_counterBytes, toNat_saturatingAdd, hone]
      omega
    · exact .inr ⟨_, _, rfl, hn⟩

/-- **Calls.** A call that is safe does not lower the number. -/
theorem raises_performCall (hasks : cmd.Asks c) :
    Fallible.MovesFrom (CommandSafe pf cmd) (Raises pf) (performCall pf c) := by
  intro b hb
  by_cases hput : ∃ tag value, c = .putDo tag value
  · obtain ⟨tag, value, rfl⟩ := hput
    refine raises_putDo hk fun htag hlen ↦ hb.raises value ?_ hlen
    rwa [← htag]
  by_cases hinc : c = .incrementSignatureCounter
  · rw [hinc] at hasks ⊢
    change Raises pf b (incrementSignatureCounter pf b).2
    rcases incrementSignatureCounter_number hk (hb.agrees hasks) with
      ⟨b', h, hn⟩ | ⟨e, b', h, hn⟩ <;> rw [h]
    · exact Nat.le_of_lt (by rw [hn]; exact Nat.lt_succ_self _)
    · exact Nat.le_of_eq hn.symm
  have hspares : ∀ d ∈ c.devices, pf.Spares (SameNumber pf) d := fun d hd ↦
    hk.sameNumber (ne_objects_of_mem_devices (fun t v h ↦ hput ⟨t, v, h⟩) hinc d hd)
  have hrefl : ∀ w, SameNumber pf w w := fun _ ↦ rfl
  have htrans : ∀ u v w, SameNumber pf u v → SameNumber pf v w → SameNumber pf u w :=
    fun _ _ _ h h' ↦ h'.trans h
  rcases c.generates_or_counts_or_plain with ⟨slot, rfl⟩ | hcounts | hplain
  · have h := calmBut_generate hrefl htrans (hspares _ List.mem_cons_self) slot b
    exact Nat.le_of_eq h.world.symm
  · exact absurd hcounts hinc
  · have h := calm_performCall hrefl htrans hplain hspares b (hb.quiet c hasks)
    exact Nat.le_of_eq h.world.symm

/-! ## Commands -/

omit hk in
/-- Only VERIFY and CHANGE REFERENCE DATA make PIN attempts. -/
theorem ins_of_attempts (hasks : cmd.Asks c) {p : CardPin} (hp : c.attempts = some p) :
    cmd.ins = 0x20 ∨ cmd.ins = 0x24 := by
  cases c with
  | verifyPw1Sign pin => exact .inl hasks.1
  | verifyPw1Other pin => exact .inl hasks.1
  | verifyPw3 pin => exact .inl hasks.1
  | changePin pw3 oldPin newPin => exact .inr hasks.1
  | _ => cases hp

omit hk in
/-- A backend that differs in nothing the counter depends on is as safe. -/
theorem CommandSafe.congr {b b' : OpenPgpVaultBackend W T} (h : CommandSafe pf cmd b)
    (hworld : b'.world = b.world) (hsig : b'.sigCounter = b.sigCounter)
    (hquiet : ∀ c, cmd.Asks c → c.Breaching pf b' → c.Breaching pf b) : CommandSafe pf cmd b' where
  agrees hasks := by
    have hag := h.agrees hasks
    rw [Agrees] at hag ⊢
    rwa [hworld, hsig]
  raises value hasks hlen := by
    rw [hworld]
    exact h.raises value hasks hlen
  quiet c hasks hb := h.quiet c hasks (hquiet c hasks hb)

omit hk in
theorem commandSafe_prelude (hasks : cmd.Asks c) (hc : c.Precedes) :
    Fallible.MovesFrom (CommandSafe pf cmd) (fun _ b ↦ CommandSafe pf cmd b) (performCall pf c) := by
  intro b hb
  have hno : ∀ {ins : UInt8}, cmd.ins = ins → ins ≠ 0x20 → ins ≠ 0x24 →
      ∀ c' b', cmd.Asks c' → ¬ c'.Breaching pf b' := by
    rintro ins rfl h₁ h₂ c' b' hasks' ⟨p, hp, -⟩
    exact (ins_of_attempts hasks' hp).elim h₁ h₂
  have hsame : c.devices = [] → c.Plain → (cmd.ins = 0x2A) → CommandSafe pf cmd (performCall pf c b).2 := by
    intro hdev hplain hins
    have hcalm : Calm Eq b (performCall pf c b).2 :=
      calm_performCall (fun _ ↦ rfl) (fun _ _ _ ↦ Eq.trans) hplain (by rw [hdev]; exact nofun) b
        (hb.quiet c hasks)
    exact hb.congr hcalm.world.symm hcalm.sigCounter fun c' hasks' hbr ↦
      absurd hbr (hno hins (by decide) (by decide) c' _ hasks')
  cases c with
  | setPw1VerifierAdminOnly newPin =>
    have hins : cmd.ins = 0x2C := hasks
    refine ⟨fun h ↦ ?_, fun value h ↦ ?_, fun c' hasks' ↦
      hno hins (by decide) (by decide) c' _ hasks'⟩
    · rw [CommandApdu.Asks, hins] at h
      exact absurd h.1 (by decide)
    · rw [CommandApdu.Asks, hins] at h
      exact absurd h.1 (by decide)
  | psoSignHash hash => exact hsame rfl trivial hasks.1
  | ed25519Sign purpose message => exact hsame rfl trivial hasks.2.1
  | _ => exact absurd hc id

theorem lifts_raises : Lifts (vaultBackend pf) cmd (CommandSafe pf cmd) (Raises pf) where
  refl _ := Nat.le_refl _
  trans := Nat.le_trans
  log _ _ := Nat.le_refl _
  log_keeps code b hb := hb.congr rfl rfl fun _ _ hbr ↦ by
    obtain ⟨p, hp, h⟩ := hbr
    exact ⟨p, hp, by cases p <;> exact h⟩
  asked _ hasks := raises_performCall hk hasks
  prelude _ hasks hc := commandSafe_prelude hasks hc

omit hk in
/-- A handler behind a flag that is not set. -/
theorem demandFlag_bind_backend {α : Type} {s : Session (OpenPgpVaultBackend W T)}
    {flag : CardState → Bool} (hflag : flag s.card ≠ true) (sw : StatusWord)
    (m : PUnit → Handler (OpenPgpVaultBackend W T) α) :
    ((demandFlag flag sw >>= m) s).2.backend = s.backend := by
  rw [demandFlag, Fallible.bind_assoc, Fallible.gets_bind, demand, Fallible.require, if_neg hflag]
  rfl

omit hk in
/-- A command that is not admitted leaves the backend alone. -/
theorem handle_of_not_admits {s : Session (OpenPgpVaultBackend W T)} (h : ¬ s.Admits cmd) :
    (handle (vaultBackend pf) cmd s).2.backend = s.backend := by
  by_cases ht : s.backend.termination = true
  · rw [handle, Fallible.gets_bind]
    change ((if s.backend.termination then _ else _ : Handler _ ResponseApdu) s).2.backend = _
    rw [if_pos ht]
    split_ifs <;> rfl
  rw [Bool.not_eq_true] at ht
  rcases handle_cases (vaultBackend pf) cmd s with ⟨sw, hr⟩ | ⟨i, hi, hr⟩
  · rw [hr]
    rfl
  rw [hr]
  by_cases hcount : cmd.Asks .incrementSignatureCounter ∧ s.card.pw1VerifiedSign ≠ true
  · obtain ⟨⟨hins, hp⟩, hflag⟩ := hcount
    rw [hins] at hi
    obtain rfl : Instruction.pso = i := Option.some.inj hi
    rw [Instruction.handler, handlePso, if_pos hp]
    exact demandFlag_bind_backend hflag _ _
  by_cases hput : ∃ tag value, cmd.Asks (.putDo tag value) ∧ putAllowed s.card tag ≠ true
  · obtain ⟨tag, value, ⟨hins, htag, -⟩, hflag⟩ := hput
    have hi' : Instruction.ofByte cmd.ins = some .putData := by
      rcases hins with hins | hins <;> rw [hins] <;> rfl
    obtain rfl := Option.some.inj (hi'.symm.trans hi)
    rw [htag] at hflag
    exact demandFlag_bind_backend hflag _ _
  · refine absurd ⟨ht, fun hasks ↦ ?_, fun tag value hasks ↦ ?_⟩ h
    · by_contra hflag
      exact hcount ⟨hasks, hflag⟩
    · by_contra hflag
      exact hput ⟨tag, value, hasks, hflag⟩

omit hk in
theorem asks_of_isSignature {s : Session (OpenPgpVaultBackend W T)}
    (h : (s.exchange (vaultBackend pf) cmd).isSignature = true) :
    cmd.Asks .incrementSignatureCounter := by
  simp only [Exchange.isSignature, Session.exchange, Bool.and_eq_true, beq_iff_eq] at h
  obtain ⟨⟨⟨-, hins⟩, hp1⟩, hp2⟩ := h
  exact ⟨Instruction.encoded_of_ofByte hins, hp1, hp2⟩

omit hk in
/-- A command that completes a signature is admitted. -/
theorem admits_of_isSignature {s : Session (OpenPgpVaultBackend W T)}
    (h : (s.exchange (vaultBackend pf) cmd).isSignature = true) : s.Admits cmd := by
  have hins : cmd.ins = 0x2A := (asks_of_isSignature h).1
  refine ⟨?_, fun _ ↦ (ticket_of_isSignature _ s cmd h).1, fun tag value hasks ↦ ?_⟩
  · rw [← Bool.not_eq_true]
    intro ht
    have hr : (handle (vaultBackend pf) cmd s).1.isOk = false := by
      rw [handle, Fallible.gets_bind]
      change ((if s.backend.termination then _ else _ : Handler _ ResponseApdu) s).1.isOk = _
      rw [if_pos ht]
      split_ifs <;> rfl
    rw [Exchange.isSignature, Session.exchange, hr] at h
    cases h
  · rw [CommandApdu.Asks, hins] at hasks
    exact absurd hasks.1 (by decide)

omit hk in
/-- Making a signature touches neither the objects nor the counter in memory. -/
theorem signHash_keeps {hash : Bytes} {attrs : AlgorithmAttributes} {sig : Vec 512}
    {s t : Session (OpenPgpVaultBackend W T)}
    (h : signHash (vaultBackend pf) hash attrs s = (.ok sig, t)) :
    t.backend.world = s.backend.world ∧ t.backend.sigCounter = s.backend.sigCounter := by
  have hcalm : ∀ {c : BackendCall} {a : c.Result} {b b' : OpenPgpVaultBackend W T}, c.Plain →
      c.devices = [] → c.attempts = none → performCall pf c b = (.ok a, b') →
      b'.world = b.world ∧ b'.sigCounter = b.sigCounter := by
    intro c a b b' hplain hdev hattempts hrun
    have hc : Calm Eq b (performCall pf c b).2 :=
      calm_performCall (fun _ ↦ rfl) (fun _ _ _ ↦ Eq.trans) hplain (by rw [hdev]; exact nofun) b
        fun ⟨p, hp, _⟩ ↦ by rw [hattempts] at hp; cases hp
    rw [hrun] at hc
    exact ⟨hc.world.symm, hc.sigCounter⟩
  cases attrs with
  | rsa m e f => cases (Prod.mk.inj h).1
  | ecdh oid => cases (Prod.mk.inj h).1
  | ecdsa oid => exact hcalm (c := .psoSignHash hash) trivial rfl rfl (call_eq_ok h)
  | edDsa oid =>
    rw [signHash] at h
    split_ifs at h
    · obtain ⟨out, s₁, hcall, h⟩ := Fallible.bind_eq_ok.mp h
      have hkeep := hcalm (c := .ed25519Sign .openPgpSig hash) trivial rfl rfl (call_eq_ok hcall)
      have hend := aside_orRefuse (Vec.ofBytes? out.toBytes : Option (Vec 512)) .executionError s₁
      rw [h] at hend
      rw [show t.backend = s₁.backend from hend]
      exact hkeep
    · cases (Prod.mk.inj h).1

/-- A completed signature adds one. -/
theorem handle_signs {s : Session (OpenPgpVaultBackend W T)}
    (h : (s.exchange (vaultBackend pf) cmd).isSignature = true) (hag : Agrees pf s.backend) :
    signatureNumber pf (handle (vaultBackend pf) cmd s).2.backend.world
      = signatureNumber pf s.backend.world + 1 := by
  simp only [Exchange.isSignature, Session.exchange, Bool.and_eq_true, beq_iff_eq] at h
  obtain ⟨⟨⟨hok, hins⟩, hp1⟩, hp2⟩ := h
  rcases handle_cases (vaultBackend pf) cmd s with ⟨sw, hh⟩ | ⟨i, hi, hh⟩
  · rw [hh] at hok
    cases hok
  obtain rfl := Option.some.inj (hi.symm.trans hins)
  rw [hh] at hok ⊢
  rw [Instruction.handler, handlePso, if_pos ⟨hp1, hp2⟩] at hok ⊢
  rcases hr : handleComputeSignature (vaultBackend pf) cmd s with ⟨e | r, t⟩
  · rw [hr] at hok
    cases hok
  obtain ⟨_, s₁, hflag, hr⟩ := Fallible.bind_eq_ok.mp hr
  obtain ⟨-, rfl⟩ := Fallible.require_eq_ok.mp hflag
  rw [Fallible.gets_bind] at hr
  obtain ⟨sig, s₂, hsig, hr⟩ := Fallible.bind_eq_ok.mp hr
  obtain ⟨hworld, hcounter⟩ := signHash_keeps hsig
  obtain ⟨_, s₃, hinc, hr⟩ := Fallible.bind_eq_ok.mp hr
  have hinc' : (vaultBackend pf).perform .incrementSignatureCounter s₂.backend
      = (.ok ⟨⟩, s₃.backend) := call_eq_ok hinc
  change incrementSignatureCounter pf s₂.backend = _ at hinc'
  have hag₂ : Agrees pf s₂.backend := by
    rw [Agrees] at hag ⊢
    rwa [hworld, hcounter]
  have hlast : signatureNumber pf s₃.backend.world = signatureNumber pf s.backend.world + 1 := by
    rcases incrementSignatureCounter_number hk hag₂ with ⟨b', hb, hn⟩ | ⟨e, b', hb, -⟩
    · obtain rfl := (Prod.mk.inj (hb.symm.trans hinc')).2
      rw [hn, hworld]
    · cases (Prod.mk.inj (hb.symm.trans hinc')).1
  rw [setCard, Fallible.modify_bind] at hr
  have haside : Aside (chunkResponse cmd sig : Handler (OpenPgpVaultBackend W T) ResponseApdu) :=
    aside_chunkResponse sig
  have hend := haside ⟨{ s₃.card with pw1VerifiedSign := false },
    (vaultBackend pf).logEvent 0x2A9E9A s₃.backend, s₃.events⟩
  have ht : t.backend = (vaultBackend pf).logEvent 0x2A9E9A s₃.backend :=
    (congrArg (fun x ↦ x.2.backend) hr).symm.trans hend
  rw [ht]
  exact hlast

/-! ## Opening -/

omit hk in
/-- Loading what is stored does not write. -/
theorem openCard_world (user admin : PinPolicyMachine) (w : W) (trng : T) :
    (openCard pf user admin w trng).2.world = (seedDefaultsIfFresh pf w).2 := by
  have hload : Fallible.Moves (fun b b' ↦ b'.world = b.world) (do
      loadPinVerifiersFromStorage pf
      loadPrivateKeys pf : Fallible (OpenPgpVaultBackend W T) HalError PUnit) := by
    have hrefl : ∀ b : OpenPgpVaultBackend W T, b.world = b.world := fun _ ↦ rfl
    have htrans : ∀ {a b c : OpenPgpVaultBackend W T}, b.world = a.world → c.world = b.world →
        c.world = a.world := fun h h' ↦ h'.trans h
    have hkey : ∀ slot, Fallible.Moves (fun b b' ↦ b'.world = b.world) (loadKey pf slot) :=
      fun slot ↦ Fallible.Moves.bind (.reading hrefl _) htrans fun _ ↦
        Fallible.Moves.bind (.gets hrefl _) htrans fun _ ↦ .modify fun _ ↦ rfl
    refine Fallible.Moves.bind ?_ htrans fun _ ↦ ?_
    · exact Fallible.Moves.bind (.reading hrefl _) htrans fun _ ↦
        Fallible.Moves.bind (.reading hrefl _) htrans fun _ ↦ .modify fun _ ↦ rfl
    · exact Fallible.Moves.bind (.modify fun _ ↦ rfl) htrans fun _ ↦
        (hkey .sig).bind htrans fun _ ↦ (hkey .dec).bind htrans fun _ ↦ hkey .aut
  rcases hrun : seedDefaultsIfFresh pf w with ⟨e | u, w'⟩
  · have hseed : (onWorld (seedDefaultsIfFresh pf) : Fallible (OpenPgpVaultBackend W T) _ _)
        (.blank user admin w trng) = (.error e, .blank user admin w' trng) := by
      rw [onWorld, Fallible.zoom_apply]
      exact congrArg (fun x ↦ (x.1, OpenPgpVaultBackend.blank user admin x.2 trng)) hrun
    rw [openCard, Fallible.bind_of_error hseed]
    rfl
  · have hseed : (onWorld (seedDefaultsIfFresh pf) : Fallible (OpenPgpVaultBackend W T) _ _)
        (.blank user admin w trng) = (.ok u, .blank user admin w' trng) := by
      rw [onWorld, Fallible.zoom_apply]
      exact congrArg (fun x ↦ (x.1, OpenPgpVaultBackend.blank user admin x.2 trng)) hrun
    rw [openCard, Fallible.bind_of_ok hseed]
    exact hload _

/-- Opening a card does not lower the number. -/
theorem openCard_number (user admin : PinPolicyMachine) (w : W) (trng : T) :
    signatureNumber pf w ≤ signatureNumber pf (openCard pf user admin w trng).2.world := by
  rw [openCard_world, seedDefaultsIfFresh, DoStore.probe_eq hk.faithful hk.fits]
  by_cases hvalid : pf.doStore.Valid (memory w)
  · rw [decide_eq_true hvalid]
  · have hzero : signatureNumber pf w = 0 := by
      rw [signatureNumber_eq hk, DoStore.object, if_neg hvalid]
      rfl
    rw [hzero]
    exact Nat.zero_le _

/-! ## Runs -/

/-- A safe step counts as it should. -/
theorem Card.CountSafe.counts {c : Card W T} {a : CardStep T} (h : c.CountSafe pf a) :
    c.Counts pf a := by
  cases a with
  | powerCycle trng user admin =>
    constructor
    · rintro ⟨x, hx, -⟩
      cases c <;> cases hx
    · have hopen := openCard_number hk (.new user) (.new admin) c.world trng
      rw [step, opened]
      rcases hrun : openCard pf (.new user) (.new admin) c.world trng with ⟨_ | _, b⟩ <;>
        rw [hrun] at hopen <;> exact hopen
  | reset =>
    constructor
    · rintro ⟨x, hx, -⟩
      cases c <;> cases hx
    · cases c <;> exact Nat.le_refl _
  | apdu cmd =>
    cases c with
    | off w =>
      refine ⟨?_, Nat.le_refl _⟩
      rintro ⟨x, hx, -⟩
      cases hx
    | on s =>
      have hworld : ((Card.on s).step pf (.apdu cmd)).world
          = (handle (vaultBackend pf) cmd s).2.backend.world := by
        rw [step, handleApdu_snd]
        rfl
      rw [Counts, hworld]
      by_cases hadmits : s.Admits cmd
      · have hsafe : CommandSafe pf cmd s.backend := h hadmits
        refine ⟨?_, (lifts_raises hk).handle s hsafe⟩
        rintro ⟨x, hx, hsig⟩
        obtain rfl := Option.some.inj hx
        exact handle_signs hk hsig (hsafe.agrees (asks_of_isSignature hsig))
      · have hsame : (handle (vaultBackend pf) cmd s).2.backend = s.backend :=
          handle_of_not_admits hadmits
        refine ⟨?_, Nat.le_of_eq (by rw [hsame]; rfl)⟩
        rintro ⟨x, hx, hsig⟩
        obtain rfl := Option.some.inj hx
        exact absurd (admits_of_isSignature hsig) hadmits

/-- **The signature counter over runs.** In every run whose steps are safe, each completed signature
adds one to the number in the object, and no step lowers it. -/
theorem signature_counter_monotone {c : Card W T} {steps : List (CardStep T)}
    (h : Card.Throughout pf (Card.CountSafe pf) c steps) :
    Card.Throughout pf (Card.Counts pf) c steps ∧
      signatureNumber pf c.world ≤ signatureNumber pf (c.run pf steps).world := by
  have hcounts : Card.Throughout pf (Card.Counts pf) c steps :=
    Card.Throughout.mono pf (fun _ _ ↦ Card.CountSafe.counts hk) h
  refine ⟨hcounts, ?_⟩
  clear h
  induction steps generalizing c with
  | nil => exact Nat.le_refl _
  | cons a steps ih => exact Nat.le_trans hcounts.1.2 (ih hcounts.2)

omit hk

/-! ## A card that is opened again -/

/-- VERIFY `12345` for signing, and a signature. -/
def benchVerify : CommandApdu := ⟨0x00, 0x20, 0x00, 0x81, .truncated (benchPin .user), none⟩

def benchSign : CommandApdu := ⟨0x00, 0x2A, 0x9E, 0x9A, .truncated [0x01, 0x02, 0x03], none⟩

theorem benchPlatform_objectsKept :
    ObjectsKept benchPlatform Baochip.bench.vault Baochip.openpgpVaultLogicalSpanEnd where
  faithful := Baochip.bench.vaultStorage_faithful _
  fits := by decide
  spares d hd := Baochip.bench.platform_spares d (Baochip.device_disjoint hd)

/-- The bench storage is empty behind the sealed keys, but for the PIN digests. -/
theorem benchStorage_window {off len : ℕ} (h : sealedKeyRegionEnd ≤ off)
    (hpins : off + len ≤ Baochip.pinUserLogicalOff ∨ Baochip.userCtrLogicalOff ≤ off) :
    benchStorage.window off len = List.replicate len 0 := by
  have hdigest : ∀ p, (Block.ofBytes 32 (benchPin p)).toBytes.length = 32 :=
    fun p ↦ Block.length_toBytes _
  have hcell := benchCell.length_toBytes
  have hkeys : sealedOffset .openPgpSig + 93 ≤ sealedKeyRegionEnd := by decide
  have hadmin : Baochip.pinAdminLogicalOff = Baochip.pinUserLogicalOff + 32 := rfl
  have hctr : Baochip.userCtrLogicalOff = Baochip.pinAdminLogicalOff + 32 := rfl
  rw [benchStorage, Memory.window_patch_of_disjoint (.inr (by rw [hcell]; omega)),
    Memory.window_patch_of_disjoint (by rw [hdigest]; omega),
    Memory.window_patch_of_disjoint (by rw [hdigest]; omega), Memory.window, List.map_const',
    List.length_range]

theorem benchStorage_not_valid : ¬ benchPlatform.doStore.Valid (Baochip.bench.vault benchStorage) := by
  rw [vault_bench, DoStore.Valid]
  have hwindow : benchStorage.window benchPlatform.doStore.base DoStore.headerLen
      = List.replicate 8 0 := benchStorage_window (by decide) (.inl (by decide))
  rw [hwindow]
  decide

/-- Writing the counter of the bench card succeeds. -/
theorem benchCounted_run (n : UInt8) : benchPlatform.doStore.write 0x93 [0x00, 0x00, n] benchStorage
    = (.ok ⟨⟩, (benchPlatform.doStore.write 0x93 [0x00, 0x00, n] benchStorage).2) := by
  have hk := benchPlatform_objectsKept
  refine Fallible.eq_ok_of_fst ?_
  rcases DoStore.write_run hk.faithful hk.fits 0x93 [0x00, 0x00, n] benchStorage with
    ⟨w, hrun, -⟩ | ⟨e, w, -, -, hroom⟩
  · rw [hrun]
  · have hlen : ([0x00, 0x00, n] : Bytes).length ≤ 254 := by
      change 3 ≤ 254
      omega
    have hzero := hroom hlen
    rw [DoStore.room, if_neg benchStorage_not_valid] at hzero
    cases hzero

section Counted

variable {n : UInt8} {w₀ : Memory}
  (h₀ : benchPlatform.doStore.write 0x93 [0x00, 0x00, n] benchStorage = (.ok ⟨⟩, w₀))
include h₀

theorem written_of_counted : benchPlatform.doStore.Written (Baochip.bench.vault benchStorage)
    (Baochip.bench.vault w₀) 0x93 [0x00, 0x00, n] := by
  have hk := benchPlatform_objectsKept
  rcases DoStore.write_run hk.faithful hk.fits 0x93 [0x00, 0x00, n] benchStorage with
    ⟨w, hrun, hwritten⟩ | ⟨e, w, hrun, -, -⟩
  · obtain rfl := (Prod.mk.inj (h₀.symm.trans hrun)).2
    exact hwritten
  · cases (Prod.mk.inj (h₀.symm.trans hrun)).1

theorem number_of_counted : signatureNumber benchPlatform w₀ = n.toNat := by
  have hwritten := written_of_counted h₀
  have hobj := hwritten.object 0x93 (by decide)
  rw [if_pos rfl, Vec.ofBytes?_of_le hwritten.length_le] at hobj
  rw [signatureNumber_eq benchPlatform_objectsKept, hobj, Option.elim_some,
    Vec.toBytes_truncated hwritten.length_le]
  simp [beNat]

theorem agreeOn_of_counted {lo hi : ℕ}
    (h : hi ≤ Baochip.openpgpDoStoreLogical ∨ Baochip.pinUserLogicalOff ≤ lo) :
    Memory.AgreeOn lo hi w₀ benchStorage := by
  have hout := (written_of_counted h₀).outside
  rw [vault_bench, vault_bench] at hout
  exact hout.agreeOn h

/-- The attempt cell of PW1 is zero. -/
theorem userTries_of_counted : rramCell (0 + Baochip.userCtrLogicalOff) w₀ = 0 := by
  have hwindow : w₀.window Baochip.userCtrLogicalOff 4
      = benchStorage.window Baochip.userCtrLogicalOff 4 :=
    Memory.window_congr (agreeOn_of_counted h₀ (.inr (by decide))) (Nat.le_refl _) (Nat.le_refl _)
  rw [Nat.zero_add, rramCell, hwindow, benchStorage_window (by decide) (.inr (Nat.le_refl _))]
  rfl

/-- Only the counter is in the store: the signature slot has its default attributes. -/
theorem attributes_of_counted {w : Memory} (hw : Memory.AgreeOn Baochip.openpgpDoStoreLogical
    Baochip.pinUserLogicalOff w w₀) : attributesIn benchPlatform w .sig = defaultAttributes .sig := by
  have hk := benchPlatform_objectsKept
  have hregion : Memory.AgreeOn benchPlatform.doStore.base
      (benchPlatform.doStore.base + DoStore.regionBytes) (Baochip.bench.vault w)
      (Baochip.bench.vault w₀) := by
    rw [vault_bench, vault_bench]
    exact hw
  have hnone : benchPlatform.doStore.object (Baochip.bench.vault benchStorage) 0xC1 = none := by
    rw [DoStore.object, if_neg benchStorage_not_valid]
  rw [attributesIn, DoStore.read_eq hk.faithful hk.fits, DoStore.object_congr hregion, attributesTag,
    (written_of_counted h₀).object 0xC1 (by decide), if_neg (by decide), hnone]
  rfl

theorem key_of_counted :
    storedKeys benchPlatform Baochip.bench.vault w₀ .sig = .only benchKey .brainpool := by
  rw [storedKeys, attributes_of_counted h₀ fun _ _ _ ↦ rfl,
    unsealedKeys_bench (agreeOn_of_counted h₀ (.inl (by decide)))]
  rfl

/-- The store has room for the counter. -/
theorem room_of_counted {w : Memory} (hw : Memory.AgreeOn Baochip.openpgpDoStoreLogical
    Baochip.pinUserLogicalOff w w₀) :
    benchPlatform.doStore.room (Baochip.bench.vault w) ≠ 0 := by
  have hregion : Memory.AgreeOn benchPlatform.doStore.base
      (benchPlatform.doStore.base + DoStore.regionBytes) (Baochip.bench.vault w)
      (Baochip.bench.vault w₀) := by
    rw [vault_bench, vault_bench]
    exact hw
  have hleft := (written_of_counted h₀).room
  rw [DoStore.room, if_neg benchStorage_not_valid, ← DoStore.room_congr hregion] at hleft
  intro hzero
  rw [hzero] at hleft
  exact absurd hleft (by decide)

/-- The backend that is opened over a storage. -/
def benchOpened (w : Memory) : OpenPgpVaultBackend Memory ℕ :=
  .loaded benchPlatform Baochip.bench.vault Baochip.bench.vault (.new default) (.new default) w 0

theorem opened_of_counted :
    Card.opened benchPlatform w₀ 0 default default = .on (.new (benchOpened w₀)) := by
  have hvalid : benchPlatform.doStore.Valid (Baochip.bench.vault w₀) := by
    by_contra hv
    have hobj := (written_of_counted h₀).object 0x93 (by decide)
    rw [DoStore.object, if_neg hv, if_pos rfl,
      Vec.ofBytes?_of_le (written_of_counted h₀).length_le] at hobj
    cases hobj
  have hk := benchPlatform_objectsKept
  obtain ⟨w', hseed, hsame, -, -⟩ := seedDefaultsIfFresh_run hk.faithful hk.fits w₀
  rw [hsame hvalid] at hseed
  have hopen : openCard benchPlatform (.new default) (.new default) w₀ 0
      = (.ok ⟨⟩, benchOpened w₀) := openCard_run Baochip.bench.platform_keeps _ _ 0 hseed
  rw [Card.opened, hopen]

/-- VERIFY on the opened card: an attempt counter steps up and down. -/
theorem verify_of_counted : ∃ w b, Memory.AgreeOn Baochip.openpgpDoStoreLogical
    Baochip.pinUserLogicalOff w w₀ ∧ ¬ Breaches benchPlatform .user (benchOpened w₀) ∧
    verifyPin benchPlatform .user benchVerify.data.toBytes (benchOpened w₀) = (.ok ⟨⟩, b) ∧
    b = (benchOpened w₀).attempted .user .unlocked w := by
  obtain ⟨w₁, hinc⟩ : ∃ w₁, (benchPlatform.counter .user).increment w₀ = (.ok 1, w₁) := by
    have hrun := (rramMonotonicCounter_persistent (0 + Baochip.userCtrLogicalOff)).increment_run w₀
    rw [userTries_of_counted h₀] at hrun
    exact ⟨_, hrun⟩
  have hbricked : ((benchOpened w₀).machine .user).state ≠ .bricked := by rintro ⟨⟩
  have hmax : ¬ ((benchOpened w₀).machine .user).config.maxAttempts < 1 := by
    change ¬ ((3 : UInt32) < 1)
    decide
  have hpin : pinBytesToVerifierDigest benchPlatform benchVerify.data.toBytes
      = (benchOpened w₀).verifier .user := by
    have hdata : benchVerify.data.toBytes = benchPin .user := Vec.toBytes_truncated (by decide)
    rw [hdata]
    exact (storedVerifier_bench (agreeOn_of_counted h₀ (.inr (Nat.le_refl _))) .user).symm
  have hkeeps : Memory.AgreeOn Baochip.openpgpDoStoreLogical Baochip.pinUserLogicalOff
      ((benchPlatform.counter .user).refundOnSuccess w₁).2 w₀ := by
    have hspares : benchPlatform.Spares (fun w w' ↦ Memory.AgreeOn Baochip.openpgpDoStoreLogical
        Baochip.pinUserLogicalOff (Baochip.bench.vault w') (Baochip.bench.vault w)) .counters :=
      Baochip.bench.platform_spares .counters (.inr (by decide))
    simp only [vault_bench] at hspares
    have hup := (hspares .user w₀).1
    have hdown := (hspares .user w₁).2.1
    rw [hinc] at hup
    exact hdown.trans hup
  refine ⟨_, _, hkeeps, ?_, verifyPin_success rfl hbricked hinc hmax hpin, rfl⟩
  rintro (h | ⟨count, w', h, hgt⟩)
  · exact hbricked h
  · obtain rfl := Except.ok.inj (Prod.mk.inj (hinc.symm.trans h)).1
    exact hmax hgt

/-- A signature after that: the object says one, whatever it said before. -/
theorem sign_of_counted {w : Memory} (hw : Memory.AgreeOn Baochip.openpgpDoStoreLogical
      Baochip.pinUserLogicalOff w w₀) {s : Session (OpenPgpVaultBackend Memory ℕ)}
    (hflag : s.card.pw1VerifiedSign = true) (hworld : s.backend.world = w)
    (hkeys : s.backend.keys = (benchOpened w₀).keys) (hcounter : s.backend.sigCounter = 0)
    (hterm : s.backend.termination = false) :
    (s.exchange (vaultBackend benchPlatform) benchSign).isSignature = true ∧
      signatureNumber benchPlatform
        (handle (vaultBackend benchPlatform) benchSign s).2.backend.world = 1 := by
  have hk := benchPlatform_objectsKept
  have hattrs : (vaultBackend benchPlatform).algorithmAttributes s.backend .sig
      = defaultAttributes .sig := by
    change attributesIn benchPlatform s.backend.world .sig = _
    rw [hworld, attributes_of_counted h₀ hw]
  have hkey : (s.backend.keys .sig).brainpool = some benchKey := by
    have hstored : s.backend.keys .sig = storedKeys benchPlatform Baochip.bench.vault w₀ .sig := by
      rw [hkeys]
      rfl
    rw [hstored, key_of_counted h₀]
    rfl
  obtain ⟨sig, hsign, hlen⟩ : ∃ sig, psoSignHash benchPlatform benchSign.data.toBytes s.backend
      = (.ok sig, s.backend) ∧ sig.length ≤ benchSign.leLimit :=
    ⟨_, psoSignHash_run hterm hkey rfl, by decide⟩
  obtain ⟨b, hinc, hnumber⟩ : ∃ b, incrementSignatureCounter benchPlatform s.backend = (.ok ⟨⟩, b) ∧
      signatureNumber benchPlatform b.world = 1 := by
    rw [incrementSignatureCounter_run hterm, hcounter, hworld]
    rcases signatureNumber_write hk 0x93 (counterBytes (saturatingAdd 0 1)) w with
      ⟨w', hrun, -, hn⟩ | ⟨e, w', hrun, -⟩
    · refine ⟨{ s.backend with sigCounter := saturatingAdd 0 1, world := w' }, ?_, ?_⟩
      · dsimp only [Fallible.orElse]
        rw [hrun]
      · rw [if_pos rfl, beNat_counterBytes] at hn
        exact hn
    · rcases DoStore.write_run hk.faithful hk.fits 0x93 (counterBytes (saturatingAdd 0 1)) w with
        ⟨w'', hrun', -⟩ | ⟨e, w'', -, -, hroom⟩
      · cases (Prod.mk.inj (hrun.symm.trans hrun')).1
      · exact absurd (hroom (by decide)) (room_of_counted h₀ hw)
  have hcmd : benchSign.ins = 0x2A ∧ benchSign.p1 = 0x9E ∧ benchSign.p2 = 0x9A := ⟨rfl, rfl, rfl⟩
  have hrun := handle_computeSignature hterm hcmd hflag hattrs hsign hinc
  have hok : (handle (vaultBackend benchPlatform) benchSign s).1.isOk = true := by
    rw [hrun, chunkResponse]
    dsimp only
    rw [if_pos hlen]
    rfl
  refine ⟨?_, ?_⟩
  · rw [Exchange.isSignature, Session.exchange, hok]
    rfl
  · rw [hrun, aside_chunkResponse]
    exact hnumber

/-- The card is opened, VERIFY is answered, and a signature made. -/
def benchSteps : List (CardStep ℕ) :=
  [.powerCycle 0 default default, .apdu benchVerify, .apdu benchSign]

/-- What holds throughout these steps holds of three cards, of which the last one is ready to
sign. -/
theorem throughout_of_counted : ∃ t : Session (OpenPgpVaultBackend Memory ℕ),
    (∀ P, Card.Throughout benchPlatform P (.off w₀) benchSteps ↔
      P (.off w₀) (.powerCycle 0 default default) ∧
      P (.on (.new (benchOpened w₀))) (.apdu benchVerify) ∧ P (.on t) (.apdu benchSign)) ∧
    ¬ Breaches benchPlatform .user (benchOpened w₀) ∧
    signatureNumber benchPlatform t.backend.world = n.toNat ∧ t.backend.sigCounter = 0 ∧
    (t.exchange (vaultBackend benchPlatform) benchSign).isSignature = true ∧
    signatureNumber benchPlatform
      (handle (vaultBackend benchPlatform) benchSign t).2.backend.world = 1 := by
  obtain ⟨w, b, hw, hquiet, hverify, rfl⟩ := verify_of_counted h₀
  have hcall : (vaultBackend benchPlatform).perform (.verifyPw1Sign benchVerify.data.toBytes)
      (Session.new (benchOpened w₀)).backend
      = (.ok ⟨⟩, (benchOpened w₀).attempted .user .unlocked w) :=
    (perform_verifyPw1Sign _ _ _).trans hverify
  have hterm : (vaultBackend benchPlatform).isTerminationState (Session.new (benchOpened w₀)).backend
      = false := rfl
  have hrun := handle_verifySign hterm rfl rfl hcall
  have hnumber : signatureNumber benchPlatform w = n.toNat := by
    rw [← number_of_counted h₀]
    refine signatureNumber_congr benchPlatform_objectsKept ?_
    rw [vault_bench, vault_bench]
    exact hw
  have hsign := sign_of_counted h₀ hw
    (s := (handle (vaultBackend benchPlatform) benchVerify (.new (benchOpened w₀))).2)
    (by rw [hrun]) (by rw [hrun]; rfl) (by rw [hrun]; rfl) (by rw [hrun]; rfl) (by rw [hrun]; rfl)
  refine ⟨(handle (vaultBackend benchPlatform) benchVerify (.new (benchOpened w₀))).2, fun P ↦ ?_,
    hquiet, ?_, by rw [hrun]; rfl, hsign⟩
  · have hopened := opened_of_counted h₀
    rw [benchSteps, Card.Throughout, Card.Throughout, Card.Throughout, Card.Throughout]
    simp only [Card.step, Card.world, hopened, handleApdu_snd, and_true]
  · rw [hrun]
    exact hnumber

end Counted

/-- A run whose steps are safe: the first signature of the bench card. -/
theorem signature_counter_monotone_bench :
    Card.Throughout benchPlatform (Card.Counts benchPlatform)
      (.off (benchPlatform.doStore.write 0x93 [0x00, 0x00, 0x00] benchStorage).2) benchSteps := by
  refine (signature_counter_monotone benchPlatform_objectsKept ?_).1
  obtain ⟨t, hsteps, hquiet, hnumber, hcounter, hsign, -⟩ := throughout_of_counted (benchCounted_run 0)
  refine (hsteps _).mpr ⟨trivial, fun _ ↦ ⟨?_, ?_, ?_⟩, fun _ ↦ ⟨fun _ ↦ ⟨?_, ?_⟩, ?_, ?_⟩⟩
  · exact fun h ↦ absurd h.1 (by decide)
  · exact fun value h ↦ absurd h.1 (by decide)
  · rintro c hasks ⟨p, hp, hbreach⟩
    cases c with
    | verifyPw1Sign pin => exact hquiet (Option.some.inj hp ▸ hbreach)
    | verifyPw1Other pin => exact absurd hasks.2.1 (by decide)
    | verifyPw3 pin => exact absurd hasks.2.1 (by decide)
    | changePin pw3 oldPin newPin => exact absurd hasks.1 (by decide)
    | _ => cases hp
  · rw [hnumber, hcounter]
    rfl
  · rw [hnumber]
    decide
  · exact fun value h ↦ absurd h.1 (by decide)
  · rintro c hasks ⟨p, hp, -⟩
    rcases ins_of_attempts hasks hp with h | h <;> exact absurd h (by decide)

/-- After five signatures and a power cycle, a signature sets the number back to one. -/
theorem signature_counter_rewinds :
    ¬ Card.Throughout benchPlatform (Card.Counts benchPlatform)
      (.off (benchPlatform.doStore.write 0x93 [0x00, 0x00, 0x05] benchStorage).2) benchSteps := by
  obtain ⟨t, hsteps, -, hnumber, -, hsign, hone⟩ := throughout_of_counted (benchCounted_run 5)
  intro h
  have hcounts := ((hsteps _).mp h).2.2.1 ⟨_, rfl, hsign⟩
  rw [Card.step, handleApdu_snd] at hcounts
  have hfive : (1 : ℕ) = 5 + 1 := hone.symm.trans (hcounts.trans (congrArg (· + 1) hnumber))
  cases hfive

end Galdralag.OpenPgp
