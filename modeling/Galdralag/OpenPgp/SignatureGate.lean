import Galdralag.OpenPgp.AccessControl

/-!
# One signature per PIN verification

The flag for signing works like a ticket: VERIFY issues it, a signature spends it. What a host sees
of a session are its exchanges, each a command with whether it was carried out. In every session
the signatures are at most as many as the verifications, and between two signatures there is a
verification.

The invariant counts an unspent ticket as one signature that may still be made.
-/

set_option linter.all false

namespace Galdralag.OpenPgp

variable {β : Type} {bk : OpenPgpBackend β} {cmd : CommandApdu} {s t : Session β}

/-! ## Exchanges -/

/-- A command, and whether it was carried out rather than refused. -/
structure Exchange where
  cmd : CommandApdu
  completed : Bool
  deriving DecidableEq

/-- A successful PSO: compute digital signature. -/
def Exchange.isSignature (x : Exchange) : Bool :=
  x.completed && Instruction.ofByte x.cmd.ins == some .pso && x.cmd.p1 == 0x9E && x.cmd.p2 == 0x9A

/-- A successful VERIFY of PW1 for signing. -/
def Exchange.isVerification (x : Exchange) : Bool :=
  x.completed && Instruction.ofByte x.cmd.ins == some .verify && x.cmd.p2 == 0x81

/-- The exchange of a command in a session. -/
def Session.exchange (bk : OpenPgpBackend β) (s : Session β) (cmd : CommandApdu) : Exchange :=
  ⟨cmd, (handle bk cmd s).1.isOk⟩

/-- The exchanges of a run. -/
def Session.exchanges (bk : OpenPgpBackend β) (s : Session β) : List SessionStep → List Exchange
  | [] => []
  | .apdu cmd :: steps =>
    s.exchange bk cmd :: Session.exchanges bk (s.step bk (.apdu cmd)) steps
  | .reset :: steps => Session.exchanges bk s.reset steps

/-! ## Flags that are not raised -/

/-- No flag is raised. -/
def Lowers (s t : Session β) : Prop := ∀ pw, t.card.verified pw = true → s.card.verified pw = true

theorem Lowers.refl (s : Session β) : Lowers s s := fun _ ↦ id

theorem Lowers.trans {u : Session β} (h : Lowers s t) (h' : Lowers t u) : Lowers s u :=
  fun pw ↦ h pw ∘ h' pw

theorem Within.lowers (h : Within s t) : Lowers s t := fun pw ht ↦ (h.flags pw).symm.trans ht

theorem lowers_of_within {α : Type} {m : Handler β α} (h : Fallible.Moves Within m) :
    Fallible.Moves Lowers m := fun s ↦ (h s).lowers

/-- A call leaves the flags alone, whatever it is. -/
theorem call_card (bk : OpenPgpBackend β) (c : BackendCall) (s : Session β) :
    (call bk c s).2.card = s.card := by
  rcases call_cases bk c s with ⟨a, b, h⟩ | ⟨e, b, h⟩ <;> rw [h] <;> rfl

theorem call_lowers (c : BackendCall) : Fallible.Moves Lowers (call bk c) := by
  intro s pw ht
  rwa [call_card] at ht

theorem signHash_lowers (hash : Bytes) (attrs : AlgorithmAttributes) :
    Fallible.Moves Lowers (signHash bk hash attrs) := by
  have hrefuse : Fallible.Moves Lowers (refuse .conditionsNotSatisfied : Handler β (Vec 512)) :=
    lowers_of_within (refuse_within _)
  cases attrs with
  | rsa => exact hrefuse
  | ecdh => exact hrefuse
  | ecdsa => exact call_lowers _
  | edDsa curveOid =>
    rw [signHash]
    split_ifs
    · exact (call_lowers _).bind .trans fun out ↦ lowers_of_within (orRefuse_within _ _)
    · exact hrefuse

/-- The end of the signature command. -/
theorem answer_within (bk : OpenPgpBackend β) (cmd : CommandApdu) (sig : Vec 512) : Fallible.Moves Within (do
    logEvent bk 0x2A9E9A
    chunkResponse cmd sig) :=
  (logEvent_within _).bind .trans fun _ ↦ chunkResponse_within sig

theorem handleComputeSignature_lowers : Fallible.Moves Lowers (handleComputeSignature bk cmd) := by
  refine Fallible.Moves.bind ?_ .trans fun _ ↦ ?_
  · exact lowers_of_within ((Fallible.Moves.gets .refl _).bind .trans fun _ ↦ demand_within _ _)
  refine (Fallible.Moves.gets .refl _).bind .trans fun attrs ↦ ?_
  refine (signHash_lowers _ attrs).bind .trans fun sig ↦ ?_
  refine (call_lowers _).bind .trans fun _ ↦ ?_
  refine Fallible.Moves.bind (.modify fun s pw ht ↦ ?_) .trans fun _ ↦ ?_
  · -- the flag for signing is taken back
    cases pw with
    | pw1Sign => cases ht
    | pw1Other => exact ht
    | pw3 => exact ht
  · exact lowers_of_within (answer_within bk cmd sig)

theorem handlePso_lowers : Fallible.Moves Lowers (handlePso bk cmd) := by
  rw [handlePso]
  split_ifs
  · exact handleComputeSignature_lowers
  · exact lowers_of_within handleDecipher_within
  · exact lowers_of_within (refuse_within _)

/-! ## The ticket -/

/-- The flag for signing is not raised. -/
def Spends (s t : Session β) : Prop :=
  t.card.pw1VerifiedSign = true → s.card.pw1VerifiedSign = true

theorem Spends.toNat_le (h : Spends s t) :
    t.card.pw1VerifiedSign.toNat ≤ s.card.pw1VerifiedSign.toNat := by
  cases ht : t.card.pw1VerifiedSign with
  | false => exact Nat.zero_le _
  | true => rw [h ht]

theorem Spends.refl (s : Session β) : Spends s s := id

theorem Spends.trans {u : Session β} (h : Spends s t) (h' : Spends t u) : Spends s u := h ∘ h'

theorem Within.sign_eq (h : Within s t) : t.card.pw1VerifiedSign = s.card.pw1VerifiedSign :=
  h.flags .pw1Sign

theorem Within.spends (h : Within s t) : Spends s t := fun ht ↦ h.sign_eq.symm.trans ht

theorem spends_of_within {α : Type} {m : Handler β α} (h : Fallible.Moves Within m) :
    Fallible.Moves Spends m := fun s ↦ (h s).spends

theorem call_spends (c : BackendCall) : Fallible.Moves Spends (call bk c) := by
  intro s ht
  rwa [call_card] at ht

/-- A signature takes the ticket. -/
theorem handleComputeSignature_ok {r : ResponseApdu}
    (h : handleComputeSignature bk cmd s = (.ok r, t)) :
    s.card.pw1VerifiedSign = true ∧ t.card.pw1VerifiedSign = false := by
  obtain ⟨_, s₁, hflag, h⟩ := Fallible.bind_eq_ok.mp h
  obtain ⟨attrs, s₂, -, h⟩ := Fallible.bind_eq_ok.mp h
  obtain ⟨sig, s₃, -, h⟩ := Fallible.bind_eq_ok.mp h
  obtain ⟨_, s₄, -, h⟩ := Fallible.bind_eq_ok.mp h
  constructor
  · exact (Fallible.require_eq_ok.mp hflag).1
  · have hend := answer_within bk cmd sig
      { s₄ with card := { s₄.card with pw1VerifiedSign := false } }
    rw [setCard, Fallible.modify_bind] at h
    rw [h] at hend
    exact hend.sign_eq

/-- VERIFY raises the flag for signing only by a successful verification for signing. -/
theorem handleVerify_spends (h : ¬ ((handleVerify bk cmd s).1.isOk = true ∧ cmd.p2 = 0x81)) :
    Spends s (handleVerify bk cmd s).2 := by
  have hlog : ∀ _u : PUnit, Fallible.Moves Spends (do
      logEvent bk (0x200000 ||| cmd.p2.toUInt32)
      pure ResponseApdu.okEmpty) :=
    fun _ ↦ spends_of_within ((logEvent_within _).bind .trans fun _ ↦ .pure .refl _)
  have hother : ∀ {c : BackendCall} {f : CardState → CardState},
      (∀ st, (f st).pw1VerifiedSign = st.pw1VerifiedSign) → Fallible.Moves Spends (do
        let _ ← call bk c
        setCard f
        logEvent bk (0x200000 ||| cmd.p2.toUInt32)
        pure ResponseApdu.okEmpty) := fun hf ↦
    (call_spends _).bind .trans fun _ ↦
      Fallible.Moves.bind (.modify fun s ht ↦ (hf s.card).symm.trans ht) .trans hlog
  rw [handleVerify] at h ⊢
  dsimp only at h ⊢
  split_ifs at h ⊢ with h81
  · rcases call_cases bk (.verifyPw1Sign cmd.data.toBytes) s with ⟨a, b, hcall⟩ | ⟨e, b, hcall⟩
    · rw [Fallible.bind_of_ok hcall] at h
      exact absurd ⟨rfl, h81⟩ h
    · rw [Fallible.bind_of_error hcall]
      exact id
  · refine hother (c := .verifyPw1Other _) (f := fun st ↦ { st with pw1VerifiedOther := true })
      (fun _ ↦ rfl) s
  · refine hother (c := .verifyPw3 _) (f := fun st ↦ { st with pw3Verified := true })
      (fun _ ↦ rfl) s
  · exact (spends_of_within (refuse_within _)).bind .trans hlog s

theorem handlePso_spends : Fallible.Moves Spends (handlePso bk cmd) := fun s ↦ handlePso_lowers s .pw1Sign

/-- **Taking the ticket.** A signature takes the ticket. -/
theorem ticket_of_isSignature (bk : OpenPgpBackend β) (s : Session β) (cmd : CommandApdu)
    (h : (s.exchange bk cmd).isSignature = true) :
    s.card.pw1VerifiedSign = true ∧ (handle bk cmd s).2.card.pw1VerifiedSign = false := by
  simp only [Exchange.isSignature, Session.exchange, Bool.and_eq_true, beq_iff_eq] at h
  obtain ⟨⟨⟨hok, hins⟩, hp1⟩, hp2⟩ := h
  rcases handle_cases bk cmd s with ⟨sw, hh⟩ | ⟨ins, hins', hh⟩
  · rw [hh] at hok
    cases hok
  · obtain rfl := Option.some.inj (hins'.symm.trans hins)
    rw [hh] at hok ⊢
    rw [Instruction.handler, handlePso, if_pos ⟨hp1, hp2⟩] at hok ⊢
    rcases hr : handleComputeSignature bk cmd s with ⟨e | r, t⟩
    · rw [hr] at hok
      cases hok
    · exact handleComputeSignature_ok hr

/-- **Issuing the ticket.** Only a verification for signing issues a ticket. -/
theorem spends_of_not_isVerification (bk : OpenPgpBackend β) (s : Session β)
    (cmd : CommandApdu) (h : (s.exchange bk cmd).isVerification = false) :
    Spends s (handle bk cmd s).2 := by
  rcases handle_cases bk cmd s with ⟨sw, hh⟩ | ⟨ins, hins, hh⟩
  · rw [hh]
    exact id
  rw [Exchange.isVerification, Session.exchange, hh, hins] at h
  rw [hh]
  by_cases hverify : ins = .verify
  · subst hverify
    refine handleVerify_spends fun hv ↦ ?_
    rw [Instruction.handler, hv.1, hv.2] at h
    cases h
  · by_cases hpso : ins = .pso
    · subst hpso
      exact handlePso_spends s
    · exact (handler_within hverify hpso s).spends

/-! ## Runs -/

/-- The account of a session: an unspent ticket is one signature that may still be made. -/
structure Session.Balanced (s : Session β) (xs : List Exchange) : Prop where
  count : xs.countP Exchange.isSignature + s.card.pw1VerifiedSign.toNat
    ≤ xs.countP Exchange.isVerification
  ticket : s.card.pw1VerifiedSign = true →
    Since (Exchange.isVerification · = true) (Exchange.isSignature · = true) xs
  signatures : Guarded (fun pre x ↦ x.isSignature = true →
    Since (Exchange.isVerification · = true) (Exchange.isSignature · = true) pre) xs

theorem balanced_new (b : β) : (Session.new b).Balanced [] where
  count := Nat.le_refl 0
  ticket := nofun
  signatures := guarded_nil

/-- One exchange keeps the account. -/
theorem Session.Balanced.exchange {xs : List Exchange} (h : s.Balanced xs) (bk : OpenPgpBackend β)
    (cmd : CommandApdu) : (handle bk cmd s).2.Balanced (xs ++ [s.exchange bk cmd]) := by
  have hcount : ∀ p : Exchange → Bool, (xs ++ [s.exchange bk cmd]).countP p
      = xs.countP p + (p (s.exchange bk cmd)).toNat := by
    intro p
    rw [List.countP_append, List.countP_singleton]
    cases p (s.exchange bk cmd) <;> rfl
  have hticket := ticket_of_isSignature bk s cmd
  have hspends := spends_of_not_isVerification bk s cmd
  have hxs := h.count
  cases hsig : (s.exchange bk cmd).isSignature with
  | true =>
    obtain ⟨hs, ht⟩ := hticket hsig
    rw [hs, Bool.toNat_true] at hxs
    refine ⟨?_, fun ht' ↦ ?_, h.signatures.concat fun _ ↦ h.ticket hs⟩
    · rw [hcount, hcount, hsig, ht, Bool.toNat_true, Bool.toNat_false]
      omega
    · rw [ht] at ht'
      cases ht'
  | false =>
    refine ⟨?_, fun ht ↦ ?_, h.signatures.concat fun hsig' ↦ ?_⟩
    · rw [hcount, hcount, hsig, Bool.toNat_false]
      cases hver : (s.exchange bk cmd).isVerification with
      | true =>
        have hle := Bool.toNat_le (handle bk cmd s).2.card.pw1VerifiedSign
        rw [Bool.toNat_true]
        omega
      | false =>
        have hle := (hspends hver).toNat_le
        rw [Bool.toNat_false]
        omega
    · cases hver : (s.exchange bk cmd).isVerification with
      | true => exact .concat xs hver
      | false =>
        refine (h.ticket (hspends hver ht)).append fun x hx ↦ ?_
        rw [List.mem_singleton.mp hx, hsig]
        exact nofun
    · rw [hsig] at hsig'
      cases hsig'

/-- A reset drops the ticket and keeps the account. -/
theorem Session.Balanced.reset {xs : List Exchange} (h : s.Balanced xs) : s.reset.Balanced xs where
  count := Nat.le_trans (Nat.le_add_right _ _) h.count
  ticket := nofun
  signatures := h.signatures

/-- A run keeps the account. -/
theorem Session.Balanced.run {xs : List Exchange} (h : s.Balanced xs) (bk : OpenPgpBackend β)
    (steps : List SessionStep) : (s.run bk steps).Balanced (xs ++ s.exchanges bk steps) := by
  induction steps generalizing s xs with
  | nil =>
    rw [Session.exchanges, List.append_nil]
    exact h
  | cons a steps ih =>
    cases a with
    | reset => exact ih h.reset
    | apdu cmd =>
      have hstep : (s.step bk (.apdu cmd)).Balanced (xs ++ [s.exchange bk cmd]) := by
        rw [Session.step, handleApdu_snd]
        exact h.exchange bk cmd
      have hrun := ih hstep
      rw [List.append_assoc] at hrun
      exact hrun

/-- **One signature per verification.** In every run of commands and resets from a new session,
over any backend, the signatures are at most as many as the verifications for signing, and each
signature comes after a verification for signing that no signature has followed yet. -/
theorem one_signature_per_verification (bk : OpenPgpBackend β) (b : β)
    (steps : List SessionStep) :
    let xs := (Session.new b).exchanges bk steps
    xs.countP Exchange.isSignature ≤ xs.countP Exchange.isVerification ∧
      ∀ pre x post, xs = pre ++ x :: post → x.isSignature = true →
        Since (Exchange.isVerification · = true) (Exchange.isSignature · = true) pre := by
  have h := (balanced_new b).run bk steps
  rw [List.nil_append] at h
  exact ⟨Nat.le_trans (Nat.le_add_right _ _) h.count, h.signatures⟩

end Galdralag.OpenPgp
