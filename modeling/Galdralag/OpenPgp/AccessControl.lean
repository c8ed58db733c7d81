import Galdralag.Foundation.Trace
import Galdralag.OpenPgp.Dispatch

/-!
# Access control of the card session

Key operations, object writes and PIN administration are guarded by a password. What the guard
promises is stated on the record of a session: each guarded call comes after a successful
verification of its password, with no reset of the session in between and, for signing, no
completed signature either. Response data has a life of its own: what GET RESPONSE sends was kept
since the last reset.

## The invariant

A verification flag that is set is backed by the record: its password was verified, and nothing
that should have cleared the flag has happened since. Handlers check a flag before a guarded call,
so the call is justified by what the flag stands for. In the same way, bytes that wait to be sent
are backed by a record of data kept since the last reset. All handlers but VERIFY and the signature
command leave the flags alone, which is the relation `Within`.
-/

set_option linter.all false

namespace Galdralag.OpenPgp

/-! ## Passwords and what they guard -/

/-- The three verifications a session distinguishes. -/
inductive Password where
  | pw1Sign
  | pw1Other
  | pw3
  deriving DecidableEq, Repr

/-- The verification flag of a password. -/
def CardState.verified (st : CardState) : Password → Bool
  | .pw1Sign => st.pw1VerifiedSign
  | .pw1Other => st.pw1VerifiedOther
  | .pw3 => st.pw3Verified

/-- The password that guards a call, if one does. -/
def BackendCall.guard : BackendCall → Option Password
  | .psoSignHash _ => some .pw1Sign
  | .ed25519Sign _ _ => some .pw1Sign
  | .ecdhDec _ _ => some .pw1Other
  | .x25519Ecdh _ _ => some .pw1Other
  | .psoDecipher _ => some .pw1Other
  | .internalAuthenticate _ => some .pw1Other
  | .putDo tag _ => some (if 0x0101 ≤ tag ∧ tag ≤ 0x0104 then .pw1Other else .pw3)
  | .generateOrReadKey p1 _ => if p1 = 0x80 then some .pw3 else none
  | .setPw1VerifierAdminOnly _ => some .pw3
  | .resetPw1RetryCounter => some .pw3
  | _ => none

/-- A successful verification of a password. -/
def SessionEvent.Verifies (pw : Password) : SessionEvent → Prop
  | .call (.verifyPw1Sign _) true => pw = .pw1Sign
  | .call (.verifyPw1Other _) true => pw = .pw1Other
  | .call (.verifyPw3 _) true => pw = .pw3
  | _ => False

/-- An event after which a password has to be verified again: a reset, and for signing a signature
that was counted. -/
def SessionEvent.Clears (pw : Password) : SessionEvent → Prop
  | .reset => True
  | .call .incrementSignatureCounter true => pw = .pw1Sign
  | _ => False

/-- A password is verified, judging by the record alone. -/
def Authorised (pw : Password) (events : List SessionEvent) : Prop :=
  Since (SessionEvent.Verifies pw) (SessionEvent.Clears pw) events

/-- A guarded call is justified when its password is verified by the record before it. -/
def SessionEvent.Justified (events : List SessionEvent) : SessionEvent → Prop
  | .call c _ => ∀ pw, c.guard = some pw → Authorised pw events
  | _ => True

/-- Data has been kept for GET RESPONSE since the last reset. -/
def Kept (data : Bytes) (events : List SessionEvent) : Prop :=
  Since (· = .kept data) (· = .reset) events

/-- What GET RESPONSE sends is part of data that was kept since the last reset. -/
def SessionEvent.Served (events : List SessionEvent) : SessionEvent → Prop
  | .fetched chunk => ∃ data, Kept data events ∧ chunk <:+: data
  | _ => True

/-! ## Moves that leave the flags alone -/

variable {β : Type} {bk : OpenPgpBackend β} {cmd : CommandApdu} {s t : Session β}

/-- A call the flags of a session permit. -/
def Permits (st : CardState) (c : BackendCall) : Prop :=
  ∀ pw, c.guard = some pw → st.verified pw = true

/-- Response data was sent only as far as it was kept, and the bytes that wait are part of data
kept since the last reset. -/
structure Session.Serving (s : Session β) : Prop where
  sent : Guarded SessionEvent.Served s.events
  waiting : s.card.pending ≠ [] → ∃ data, Kept data s.events ∧ s.card.pending <:+ data

/-- From `s` to `t` no flag has changed, and what was done is permitted by the flags and clears
nothing. -/
structure Within (s t : Session β) : Prop where
  flags : ∀ pw, t.card.verified pw = s.card.verified pw
  events : ∃ new, t.events = s.events ++ new ∧ ∀ e ∈ new, (∀ pw, ¬ e.Clears pw) ∧
    ∀ c ok, e = .call c ok → Permits s.card c
  serving : s.Serving → t.Serving

theorem Within.refl (s : Session β) : Within s s :=
  ⟨fun _ ↦ rfl, ⟨[], (List.append_nil _).symm, nofun⟩, id⟩

theorem Within.trans {u : Session β} (h : Within s t) (h' : Within t u) : Within s u := by
  obtain ⟨new, hnew, hperm⟩ := h.events
  obtain ⟨new', hnew', hperm'⟩ := h'.events
  refine ⟨fun pw ↦ (h'.flags pw).trans (h.flags pw), ⟨new ++ new', ?_, ?_⟩,
    h'.serving ∘ h.serving⟩
  · rw [hnew', hnew, List.append_assoc]
  · intro e he
    rcases List.mem_append.mp he with he | he
    · exact hperm e he
    · refine ⟨(hperm' e he).1, fun c ok hc pw hg ↦ ?_⟩
      exact (h.flags pw).symm.trans ((hperm' e he).2 c ok hc pw hg)

/-- A step that touches neither flags nor response data nor record. -/
theorem within_of_eq (hcard : ∀ pw, t.card.verified pw = s.card.verified pw)
    (hpending : t.card.pending = s.card.pending) (hevents : t.events = s.events) : Within s t where
  flags := hcard
  events := ⟨[], by rw [hevents, List.append_nil], nofun⟩
  serving h := ⟨by rw [hevents]; exact h.sent, by rw [hpending, hevents]; exact h.waiting⟩

/-- An event that is no reset and sends nothing, next to the same response data. -/
theorem Session.Serving.concat (h : s.Serving) {e : SessionEvent} (he : e ≠ .reset)
    (hs : e.Served s.events) (hpending : t.card.pending = s.card.pending)
    (hevents : t.events = s.events ++ [e]) : t.Serving := by
  constructor
  · rw [hevents]
    exact h.sent.concat hs
  · intro hne
    rw [hpending] at hne ⊢
    obtain ⟨data, hdata, hsuf⟩ := h.waiting hne
    refine ⟨data, ?_, hsuf⟩
    rw [hevents]
    exact hdata.append fun x hx ↦ by rwa [List.mem_singleton.mp hx]

theorem refuse_within {α : Type} (sw : StatusWord) :
    Fallible.Moves Within (refuse sw : Handler β α) := .fail .refl _

theorem demand_within (p : Prop) [Decidable p] (sw : StatusWord) :
    Fallible.Moves Within (demand p sw : Handler β PUnit) := .require .refl _ _

theorem orRefuse_within {α : Type} (o : Option α) (sw : StatusWord) :
    Fallible.Moves Within (orRefuse o sw : Handler β α) := by
  cases o with
  | none => exact refuse_within sw
  | some a => exact .pure .refl a

theorem logEvent_within (code : UInt32) : Fallible.Moves Within (logEvent bk code) :=
  .modify fun _ ↦ within_of_eq (fun _ ↦ rfl) rfl rfl

theorem setCard_within {f : CardState → CardState}
    (h : ∀ st pw, (f st).verified pw = st.verified pw) (hpending : ∀ st, (f st).pending = st.pending) :
    Fallible.Moves Within (setCard f : Handler β PUnit) :=
  .modify fun s ↦ within_of_eq (h s.card) (hpending s.card) rfl

/-- A call that the flags permit, and that is not the count of a signature. -/
theorem call_within {c : BackendCall} (hc : c ≠ .incrementSignatureCounter) :
    Fallible.MovesFrom (fun s ↦ Permits s.card c) Within (call bk c) := by
  have hclears : ∀ ok pw, ¬ (SessionEvent.call c ok).Clears pw := by
    intro ok pw h
    cases c <;> cases ok <;> first | exact h | exact hc rfl
  have hperformed : ∀ (s : Session β) ok b, Permits s.card c → Within s (s.performed c ok b) := by
    intro s ok b hp
    refine ⟨fun _ ↦ rfl, ⟨[.call c ok], rfl, fun e he ↦ ?_⟩, fun h ↦
      h.concat (e := .call c ok) nofun trivial rfl rfl⟩
    obtain rfl := List.mem_singleton.mp he
    refine ⟨hclears ok, fun c' ok' h ↦ ?_⟩
    cases h
    exact hp
  intro s hp
  rcases call_cases bk c s with ⟨a, b, h⟩ | ⟨e, b, h⟩
  · rw [h]
    exact hperformed s true b hp
  · rw [h]
    exact hperformed s false b hp

/-- A call that no password guards. -/
theorem call_free_within {c : BackendCall} (hc : c ≠ .incrementSignatureCounter)
    (hg : c.guard = none) : Fallible.Moves Within (call bk c) := fun s ↦
  call_within hc s fun pw hpw ↦ by rw [hg] at hpw; cases hpw

/-! ## Handlers that leave the flags alone -/

/-- Keeping data for GET RESPONSE. -/
theorem keep_within (buffer : Vec 2048) (sent : ℕ) :
    Fallible.Moves Within (keep buffer sent : Handler β PUnit) := by
  intro s
  refine ⟨fun pw ↦ by cases pw <;> rfl, ⟨[.kept buffer.toBytes], rfl, fun e he ↦ ?_⟩, fun h ↦ ?_⟩
  · obtain rfl := List.mem_singleton.mp he
    exact ⟨fun _ ↦ nofun, nofun⟩
  · exact ⟨h.sent.concat trivial, fun _ ↦
      ⟨buffer.toBytes, Since.concat _ rfl, List.drop_suffix _ _⟩⟩

/-- Sending the next part of what waits. -/
theorem fetch_within (n : ℕ) (chunk : Bytes) :
    Fallible.MovesFrom (fun s ↦ chunk = s.card.pending.take n ∧ s.card.pending ≠ []) Within
      (fetch chunk n : Handler β PUnit) := by
  rintro s ⟨rfl, hne⟩
  refine ⟨fun pw ↦ by cases pw <;> rfl, ⟨[.fetched _], rfl, fun e he ↦ ?_⟩, fun h ↦ ?_⟩
  · obtain rfl := List.mem_singleton.mp he
    exact ⟨fun _ ↦ nofun, nofun⟩
  · obtain ⟨data, hdata, hsuf⟩ := h.waiting hne
    have hkept : Kept data (s.events ++ [.fetched (s.card.pending.take n)]) :=
      hdata.append fun x hx ↦ by rw [List.mem_singleton.mp hx]; exact nofun
    refine ⟨h.sent.concat ⟨data, hdata, ?_⟩, fun _ ↦ ⟨data, hkept, ?_⟩⟩
    · have hpart : s.card.pending.take n <:+: s.card.pending :=
        List.IsPrefix.isInfix <| List.take_prefix n _
      exact hpart.trans hsuf.isInfix
    · -- What waits now is what is left of what waited before.
      refine List.IsSuffix.trans ?_ hsuf
      change List.drop (s.card.responseOffset + n) s.card.responseBuffer.toBytes <:+ _
      rw [CardState.pending, ← List.drop_drop]
      exact List.drop_suffix _ _

theorem chunkResponse_within (data : Vec 512) :
    Fallible.Moves Within (chunkResponse cmd data : Handler β ResponseApdu) := by
  rw [chunkResponse]
  split_ifs
  · exact .pure .refl _
  · exact (keep_within _ _).bind .trans fun _ ↦ .pure .refl _

/-- Dropping response data. -/
theorem dropResponse_within :
    Fallible.Moves Within (setCard fun st ↦
      { st with responseBuffer := .empty, responseOffset := 0 } : Handler β PUnit) := by
  intro s
  refine ⟨fun pw ↦ by cases pw <;> rfl, ⟨[], (List.append_nil _).symm, nofun⟩, fun h ↦ ?_⟩
  exact ⟨h.sent, fun hne ↦ absurd rfl hne⟩

theorem handleGetResponse_within :
    Fallible.Moves Within (handleGetResponse cmd : Handler β ResponseApdu) := by
  intro s
  rw [handleGetResponse, Fallible.gets_bind, Fallible.bind_apply]
  by_cases hleft : s.card.responseBuffer.length - s.card.responseOffset ≠ 0
  swap
  · rw [demand, Fallible.require, if_neg hleft]
    exact .refl s
  rw [demand, Fallible.require, if_pos hleft]
  have hne : s.card.pending ≠ [] := by
    intro h
    have hlen := congrArg List.length h
    rw [CardState.pending, List.length_drop] at hlen
    exact hleft hlen
  dsimp only [Fallible.pure_apply]
  rcases hchunk : (Vec.ofBytes? _ : Option (Vec 512)) with _ | chunk
  · exact .refl s
  rw [orRefuse, Fallible.bind_of_ok (Fallible.pure_apply chunk s)]
  refine (fetch_within _ chunk.toBytes).bind .trans (fun _ _ _ _ ↦ trivial)
    (fun _ ↦ Fallible.Moves.movesFrom ?_) s ⟨Vec.toBytes_of_ofBytes? hchunk, hne⟩
  split_ifs
  · exact .pure .refl _
  · exact dropResponse_within.bind .trans fun _ ↦ .pure .refl _

theorem handleSelect_within : Fallible.Moves Within (handleSelect bk cmd) :=
  (demand_within _ _).bind .trans fun _ ↦ (demand_within _ _).bind .trans fun _ ↦
    (logEvent_within _).bind .trans fun _ ↦ .pure .refl _

theorem handleGetChallenge_within : Fallible.Moves Within (handleGetChallenge bk cmd) := by
  refine (demand_within _ _).bind .trans fun _ ↦ ?_
  refine (orRefuse_within _ _).bind .trans fun l ↦ ?_
  refine (demand_within _ _).bind .trans fun _ ↦ ?_
  refine Fallible.Moves.bind ?_ .trans fun bytes ↦ ?_
  · exact (call_free_within (by nofun) rfl).orElse _
  · exact (orRefuse_within _ _).bind .trans fun _ ↦ .pure .refl _

theorem handleManageSecurityEnvironment_within :
    Fallible.Moves Within (handleManageSecurityEnvironment cmd : Handler β ResponseApdu) := by
  have hset : ∀ f : CardState → CardState, (∀ st pw, (f st).verified pw = st.verified pw) →
      (∀ st, (f st).pending = st.pending) → Fallible.Moves Within (do
        setCard f
        pure ResponseApdu.okEmpty : Handler β ResponseApdu) := fun f hf hpending ↦
    (setCard_within hf hpending).bind .trans fun _ ↦ .pure .refl _
  refine (demand_within _ _).bind .trans fun _ ↦ ?_
  refine (orRefuse_within _ _).bind .trans fun k ↦ ?_
  split_ifs
  · exact hset (fun st ↦ { st with mseSigKeyRef := some k }) (fun _ pw ↦ by cases pw <;> rfl)
      fun _ ↦ rfl
  · exact hset (fun st ↦ { st with mseDecKeyRef := some k }) (fun _ pw ↦ by cases pw <;> rfl)
      fun _ ↦ rfl
  · exact hset (fun st ↦ { st with mseAutKeyRef := some k }) (fun _ pw ↦ by cases pw <;> rfl)
      fun _ ↦ rfl
  · exact (refuse_within _).bind .trans fun _ ↦ .pure .refl _

theorem handleGetData_within : Fallible.Moves Within (handleGetData bk cmd) :=
  (Fallible.Moves.reading .refl _).bind .trans fun data ↦ chunkResponse_within data

theorem handleChangeReference_within : Fallible.Moves Within (handleChangeReference bk cmd) := by
  refine (demand_within _ _).bind .trans fun _ ↦ ?_
  refine (demand_within _ _).bind .trans fun _ ↦ ?_
  refine (Fallible.Moves.gets .refl _).bind .trans fun pw ↦ ?_
  refine (demand_within _ _).bind .trans fun _ ↦ ?_
  refine (demand_within _ _).bind .trans fun _ ↦ ?_
  refine (demand_within _ _).bind .trans fun _ ↦ ?_
  exact (call_free_within (by nofun) rfl).bind .trans fun _ ↦
    (logEvent_within _).bind .trans fun _ ↦ .pure .refl _

/-! ## Handlers behind a flag -/

/-- The session has the flag of a password. -/
def Having (pw : Password) (s : Session β) : Prop := s.card.verified pw = true

variable {p : Password} {α : Type}

theorem Having.within (h : Having p s) (hst : Within s t) : Having p t :=
  (hst.flags p).trans h

/-- Behind a check that stands for the flag of a password, the session has it. -/
theorem demandFlag_bind {R : Session β → Session β → Prop} (hrefl : ∀ s, R s s)
    {flag : CardState → Bool} {sw : StatusWord} {m : Handler β α}
    (hflag : ∀ st, flag st = true → st.verified p = true)
    (hm : Fallible.MovesFrom (Having p) R m) :
    Fallible.Moves R (demandFlag flag sw >>= fun _ ↦ m) := by
  have hm' : Fallible.MovesFrom (fun s ↦ True ∧ flag s.card = true) R m :=
    fun s hs ↦ hm s (hflag s.card hs.2)
  rw [demandFlag, Fallible.bind_assoc]
  exact fun s ↦ hm'.gets_require hrefl s trivial

/-- A step that leaves the flags alone keeps the flag for what follows. -/
theorem having_bind_within {γ : Type} {m : Handler β γ} {f : γ → Handler β α}
    (hm : Fallible.Moves Within m) (hf : ∀ a, Fallible.MovesFrom (Having p) Within (f a)) :
    Fallible.MovesFrom (Having p) Within (m >>= f) :=
  hm.movesFrom.bind .trans (fun _ _ ↦ Having.within) hf

/-- A guarded call, where the session has the flag. -/
theorem guarded_call_within {c : BackendCall} (hc : c ≠ .incrementSignatureCounter)
    (hg : c.guard = some p) : Fallible.MovesFrom (Having p) Within (call bk c) := by
  intro s hs
  refine call_within hc s fun q hq ↦ ?_
  obtain rfl := Option.some.inj (hg.symm.trans hq)
  exact hs

/-- A guarded call and its continuation. -/
theorem guarded_bind_within {c : BackendCall} {f : c.Result → Handler β α}
    (hc : c ≠ .incrementSignatureCounter) (hg : c.guard = some p)
    (hf : ∀ a, Fallible.MovesFrom (Having p) Within (f a)) :
    Fallible.MovesFrom (Having p) Within (call bk c >>= f) :=
  (guarded_call_within hc hg).bind .trans (fun _ _ ↦ Having.within) hf

theorem handlePutData_within : Fallible.Moves Within (handlePutData bk cmd) := by
  refine demandFlag_bind .refl (p := if 0x0101 ≤ cmd.tag ∧ cmd.tag ≤ 0x0104 then .pw1Other else .pw3)
    ?_ (guarded_bind_within (c := .putDo cmd.tag _) nofun rfl fun _ ↦
      Fallible.Moves.movesFrom ((logEvent_within _).bind .trans fun _ ↦ .pure .refl _))
  intro st hst
  rw [putAllowed_eq, underPw1] at hst
  simp only [decide_eq_true_eq] at hst
  split_ifs at hst ⊢
  · exact hst
  · exact hst

theorem handleInternalAuth_within : Fallible.Moves Within (handleInternalAuth bk cmd) :=
  demandFlag_bind .refl (fun _ ↦ id) <|
    guarded_bind_within (c := .internalAuthenticate _) nofun rfl fun out ↦
      Fallible.Moves.movesFrom ((logEvent_within _).bind .trans fun _ ↦ chunkResponse_within out)

theorem handleGenerate_within : Fallible.Moves Within (handleGenerate bk cmd) := by
  refine (orRefuse_within _ _).bind .trans fun slot ↦ ?_
  have hanswer : ∀ out : Vec 512, Fallible.Moves Within (do
      if cmd.p1 = 0x80 then logEvent bk (0x470000 ||| cmd.p2.toUInt32)
      chunkResponse cmd out) := by
    intro out
    split_ifs
    · exact (logEvent_within _).bind .trans fun _ ↦ chunkResponse_within out
    · exact chunkResponse_within out
  by_cases hp1 : cmd.p1 = 0x80
  · refine demandFlag_bind .refl (p := .pw3) (fun st hst ↦ ?_) ?_
    · have hpw3 : st.pw3Verified = true := by simpa [hp1] using hst
      exact hpw3
    · exact guarded_bind_within (c := .generateOrReadKey cmd.p1 slot) nofun (if_pos hp1)
        fun out ↦ (hanswer out).movesFrom
  · refine Fallible.Moves.bind ?_ .trans fun _ ↦ ?_
    · exact (Fallible.Moves.gets .refl _).bind .trans fun _ ↦ demand_within _ _
    · exact (call_free_within (c := .generateOrReadKey cmd.p1 slot) nofun (if_neg hp1)).bind
        .trans hanswer

theorem handleResetRetryCounter_within :
    Fallible.Moves Within (handleResetRetryCounter bk cmd) := by
  refine (demand_within _ _).bind .trans fun _ ↦ ?_
  refine (demand_within _ _).bind .trans fun _ ↦ ?_
  refine demandFlag_bind .refl (p := .pw3) (fun _ ↦ id) ?_
  refine having_bind_within (.gets .refl _) fun pw ↦ ?_
  refine having_bind_within (demand_within _ _) fun _ ↦ ?_
  refine having_bind_within (demand_within _ _) fun _ ↦ ?_
  refine guarded_bind_within (c := .setPw1VerifierAdminOnly _) nofun rfl fun _ ↦ ?_
  exact guarded_bind_within (c := .resetPw1RetryCounter) nofun rfl fun _ ↦
    Fallible.Moves.movesFrom ((logEvent_within _).bind .trans fun _ ↦ .pure .refl _)

theorem handleDecipher_within : Fallible.Moves Within (handleDecipher bk cmd) := by
  refine demandFlag_bind .refl (p := .pw1Other) (fun _ ↦ id) ?_
  have hanswer : ∀ (o : Option (Vec 512)), Fallible.Moves Within
      (orRefuse o .executionError >>= fun out ↦ (chunkResponse cmd out : Handler β _)) :=
    fun o ↦ (orRefuse_within _ _).bind .trans fun out ↦ chunkResponse_within out
  dsimp only
  rcases parseEcdhPeerPublicKey cmd.data.toBytes with _ | peer
  · refine having_bind_within (logEvent_within _) fun _ ↦ ?_
    exact guarded_bind_within (c := .psoDecipher _) nofun rfl fun out ↦
      (chunkResponse_within out).movesFrom
  · refine having_bind_within (logEvent_within _) fun _ ↦ ?_
    refine having_bind_within (.gets .refl _) fun attrs ↦ ?_
    rcases attrs with _ | curveOid | _ | _
    · exact (refuse_within _).movesFrom
    · dsimp only
      split_ifs
      · exact guarded_bind_within (c := .x25519Ecdh .openPgpDec peer) nofun rfl fun shared ↦
          (hanswer _).movesFrom
      · exact guarded_bind_within (c := .ecdhDec .openPgpDec peer) nofun rfl fun shared ↦
          (hanswer _).movesFrom
    · exact (refuse_within _).movesFrom
    · exact (refuse_within _).movesFrom

/-! ## The invariant -/

/-- Every guarded call of the session was justified, every flag that is set is backed by the
record, and so is the response data. -/
structure Session.Sound (s : Session β) : Prop where
  calls : Guarded SessionEvent.Justified s.events
  flags : ∀ pw, s.card.verified pw = true → Authorised pw s.events
  serving : s.Serving

theorem sound_new (b : β) : (Session.new b).Sound where
  calls := guarded_nil
  flags pw h := by cases pw <;> cases h
  serving := ⟨guarded_nil, fun h ↦ absurd rfl h⟩

/-- A session stays sound while the flags are left alone. -/
theorem Session.Sound.within (h : s.Sound) (hst : Within s t) : t.Sound := by
  obtain ⟨new, hnew, hperm⟩ := hst.events
  have hkeep : ∀ pw, s.card.verified pw = true → ∀ {pre : List SessionEvent}, pre ⊆ new →
      Authorised pw (s.events ++ pre) :=
    fun pw hpw _ hpre ↦ (h.flags pw hpw).append fun x hx ↦ (hperm x (hpre hx)).1 pw
  refine ⟨?_, ?_, hst.serving h.serving⟩
  · rw [hnew]
    refine h.calls.append fun pre e post heq ↦ ?_
    have hmem : e ∈ new := heq ▸ List.mem_append_right pre List.mem_cons_self
    cases e with
    | reset => trivial
    | kept data => trivial
    | fetched chunk => trivial
    | call c ok =>
      refine fun pw hpw ↦ hkeep pw ((hperm _ hmem).2 c ok rfl pw hpw) fun x hx ↦ ?_
      exact heq ▸ List.mem_append_left _ hx
  · intro pw hpw
    rw [hnew]
    exact hkeep pw ((hst.flags pw).symm.trans hpw) (List.Subset.refl new)

/-- Runs that keep a session sound. -/
def KeepsSound (s t : Session β) : Prop := s.Sound → t.Sound

theorem KeepsSound.refl (s : Session β) : KeepsSound s s := id

theorem KeepsSound.trans {u : Session β} (h : KeepsSound s t) (h' : KeepsSound t u) :
    KeepsSound s u := h' ∘ h

theorem keepsSound_of_within {m : Handler β α} (h : Fallible.Moves Within m) :
    Fallible.Moves KeepsSound m := fun s hs ↦ hs.within (h s)

/-- A call keeps the record guarded when it is permitted. -/
theorem Session.Sound.calls_performed (h : s.Sound) {c : BackendCall} (hp : Permits s.card c)
    (ok : Bool) (b : β) : Guarded SessionEvent.Justified (s.performed c ok b).events :=
  h.calls.concat fun pw hpw ↦ h.flags pw (hp pw hpw)

/-- A call that does not clear a password keeps it verified. -/
theorem Session.Sound.authorised_performed (h : s.Sound) {c : BackendCall} {ok : Bool}
    (pw : Password) (hpw : s.card.verified pw = true) (hc : ¬ (SessionEvent.call c ok).Clears pw)
    (b : β) : Authorised pw (s.performed c ok b).events := by
  refine (h.flags pw hpw).append fun x hx ↦ ?_
  rw [List.mem_singleton.mp hx]
  exact hc

/-- A failed call keeps a session sound when it is permitted. -/
theorem Session.Sound.failed (h : s.Sound) {c : BackendCall} (hp : Permits s.card c) (b : β) :
    (s.performed c false b).Sound where
  calls := h.calls_performed hp false b
  flags pw hpw := h.authorised_performed pw hpw (fun hc ↦ by cases c <;> exact hc) b
  serving := h.serving.concat (e := .call c false) nofun trivial rfl rfl

/-- A password that has just been verified may be flagged. -/
theorem verify_keepsSound {c : BackendCall} {f : CardState → CardState} {k : PUnit → Handler β α}
    (hc : c ≠ .incrementSignatureCounter) (hg : c.guard = none)
    (hf : ∀ st pw, (f st).verified pw = true →
      st.verified pw = true ∨ (SessionEvent.call c true).Verifies pw)
    (hpending : ∀ st, (f st).pending = st.pending) (hk : ∀ u, Fallible.Moves Within (k u)) :
    Fallible.Moves KeepsSound (call bk c >>= fun _ ↦ setCard f >>= k) := by
  intro s hs
  have hp : Permits s.card c := fun pw hpw ↦ by rw [hg] at hpw; cases hpw
  rcases call_cases bk c s with ⟨a, b, h⟩ | ⟨e, b, h⟩
  · have hflagged : Session.Sound { s.performed c true b with card := f s.card } := by
      refine ⟨hs.calls_performed hp true b, fun pw hpw ↦ ?_,
        hs.serving.concat (e := .call c true) nofun trivial (hpending s.card) rfl⟩
      rcases hf s.card pw hpw with hpw | hpw
      · refine hs.authorised_performed pw hpw (fun hclears ↦ ?_) b
        cases c <;> first | exact hclears | exact hc rfl
      · exact .concat _ hpw
    rw [Fallible.bind_of_ok h]
    exact hflagged.within (hk ⟨⟩ _)
  · rw [Fallible.bind_of_error h]
    exact hs.failed hp b

theorem handleVerify_keepsSound : Fallible.Moves KeepsSound (handleVerify bk cmd) := by
  have hlog : ∀ _u : PUnit, Fallible.Moves Within (do
      logEvent bk (0x200000 ||| cmd.p2.toUInt32)
      pure ResponseApdu.okEmpty) :=
    fun _ ↦ (logEvent_within _).bind .trans fun _ ↦ .pure .refl _
  rw [handleVerify]
  dsimp only
  split_ifs
  · refine verify_keepsSound (c := .verifyPw1Sign _) nofun rfl (fun st pw hpw ↦ ?_)
      (fun _ ↦ rfl) hlog
    cases pw with
    | pw1Sign => exact .inr rfl
    | pw1Other => exact .inl hpw
    | pw3 => exact .inl hpw
  · refine verify_keepsSound (c := .verifyPw1Other _) nofun rfl (fun st pw hpw ↦ ?_)
      (fun _ ↦ rfl) hlog
    cases pw with
    | pw1Sign => exact .inl hpw
    | pw1Other => exact .inr rfl
    | pw3 => exact .inl hpw
  · refine verify_keepsSound (c := .verifyPw3 _) nofun rfl (fun st pw hpw ↦ ?_)
      (fun _ ↦ rfl) hlog
    cases pw with
    | pw1Sign => exact .inl hpw
    | pw1Other => exact .inl hpw
    | pw3 => exact .inr rfl
  · exact keepsSound_of_within ((refuse_within _).bind .trans hlog)

/-- A signature that has been counted clears the flag for signing. -/
theorem count_keepsSound {k : PUnit → Handler β α} (hk : ∀ u, Fallible.Moves Within (k u)) :
    Fallible.Moves KeepsSound (call bk .incrementSignatureCounter >>= fun _ ↦
      setCard (fun st ↦ { st with pw1VerifiedSign := false }) >>= k) := by
  intro s hs
  have hp : Permits s.card .incrementSignatureCounter := nofun
  rcases call_cases bk .incrementSignatureCounter s with ⟨a, b, h⟩ | ⟨e, b, h⟩
  · have hcounted : Session.Sound { s.performed .incrementSignatureCounter true b with
        card := { s.card with pw1VerifiedSign := false } } := by
      refine ⟨hs.calls_performed hp true b, fun pw hpw ↦ ?_,
        hs.serving.concat (e := .call .incrementSignatureCounter true) nofun trivial rfl rfl⟩
      cases pw with
      | pw1Sign => cases hpw
      | pw1Other => exact hs.authorised_performed .pw1Other hpw (by nofun) b
      | pw3 => exact hs.authorised_performed .pw3 hpw (by nofun) b
    rw [Fallible.bind_of_ok h]
    exact hcounted.within (hk ⟨⟩ _)
  · rw [Fallible.bind_of_error h]
    exact hs.failed hp b

/-- The part of the signature command that reaches the key. -/
theorem signHash_within (hash : Bytes) (attrs : AlgorithmAttributes) :
    Fallible.MovesFrom (Having .pw1Sign) Within (signHash bk hash attrs) := by
  have hrefuse : Fallible.MovesFrom (Having .pw1Sign) Within
      (refuse .conditionsNotSatisfied : Handler β (Vec 512)) := (refuse_within _).movesFrom
  cases attrs with
  | rsa => exact hrefuse
  | ecdh => exact hrefuse
  | ecdsa => exact guarded_call_within (c := .psoSignHash hash) nofun rfl
  | edDsa curveOid =>
    rw [signHash]
    split_ifs
    · exact guarded_bind_within (c := .ed25519Sign .openPgpSig hash) nofun rfl fun out ↦
        (orRefuse_within _ _).movesFrom
    · exact hrefuse

theorem handleComputeSignature_keepsSound :
    Fallible.Moves KeepsSound (handleComputeSignature bk cmd) := by
  refine demandFlag_bind .refl (p := .pw1Sign) (fun _ ↦ id) fun s hs ↦ ?_
  rw [Fallible.gets_bind]
  have hsign : Fallible.MovesFrom (Having .pw1Sign) KeepsSound
      (signHash bk cmd.data.toBytes (bk.algorithmAttributes s.backend .sig)) :=
    fun t ht hsound ↦ hsound.within (signHash_within _ _ t ht)
  -- Once the key was used the flag is not needed any more.
  refine hsign.bind .trans (fun _ _ _ _ ↦ trivial) (fun sig ↦ Fallible.Moves.movesFrom ?_) s hs
  exact count_keepsSound fun _ ↦ (logEvent_within _).bind .trans fun _ ↦ chunkResponse_within sig

theorem handlePso_keepsSound : Fallible.Moves KeepsSound (handlePso bk cmd) := by
  rw [handlePso]
  split_ifs
  · exact handleComputeSignature_keepsSound
  · exact keepsSound_of_within handleDecipher_within
  · exact keepsSound_of_within (refuse_within _)

/-! ## Runs -/

/-- What happens to a session from outside: a command, or a reset. -/
inductive SessionStep where
  | apdu (cmd : CommandApdu)
  | reset
  deriving DecidableEq

/-- One step of a session. -/
def Session.step (bk : OpenPgpBackend β) (s : Session β) : SessionStep → Session β
  | .apdu cmd => (handleApdu bk cmd s).2
  | .reset => s.reset

/-- A whole run. -/
def Session.run (bk : OpenPgpBackend β) (s : Session β) (steps : List SessionStep) : Session β :=
  steps.foldl (Session.step bk) s

/-- A handler other than VERIFY and PSO leaves the flags alone. -/
theorem handler_within {ins : Instruction} (hverify : ins ≠ .verify) (hpso : ins ≠ .pso) :
    Fallible.Moves Within (ins.handler bk cmd) := by
  cases ins with
  | verify => exact absurd rfl hverify
  | pso => exact absurd rfl hpso
  | select => exact handleSelect_within
  | changeReference => exact handleChangeReference_within
  | internalAuth => exact handleInternalAuth_within
  | getResponse => exact handleGetResponse_within
  | getData => exact handleGetData_within
  | putData => exact handlePutData_within
  | generateKey => exact handleGenerate_within
  | resetRetryCounter => exact handleResetRetryCounter_within
  | getChallenge => exact handleGetChallenge_within
  | manageSecurityEnvironment => exact handleManageSecurityEnvironment_within

theorem handler_keepsSound (ins : Instruction) :
    Fallible.Moves KeepsSound (ins.handler bk cmd) := by
  by_cases hverify : ins = .verify
  · subst hverify
    exact handleVerify_keepsSound
  by_cases hpso : ins = .pso
  · subst hpso
    exact handlePso_keepsSound
  · exact keepsSound_of_within (handler_within hverify hpso)

theorem handle_keepsSound (bk : OpenPgpBackend β) (cmd : CommandApdu) :
    Fallible.Moves KeepsSound (handle bk cmd) := by
  intro s
  rcases handle_cases bk cmd s with ⟨sw, h⟩ | ⟨ins, -, h⟩
  · rw [h]
    exact keepsSound_of_within (refuse_within sw) s
  · rw [h]
    exact handler_keepsSound ins s

theorem Session.Sound.reset (h : s.Sound) : s.reset.Sound where
  calls := h.calls.concat trivial
  flags pw hpw := by cases pw <;> cases hpw
  serving := ⟨h.serving.sent.concat trivial, fun hne ↦ absurd rfl hne⟩

/-- A step keeps a session sound. -/
theorem Session.Sound.step (h : s.Sound) (a : SessionStep) : (s.step bk a).Sound := by
  cases a with
  | reset => exact h.reset
  | apdu cmd =>
    rw [Session.step, handleApdu_snd]
    exact handle_keepsSound bk cmd s h

/-- A run keeps a session sound. -/
theorem Session.Sound.run (h : s.Sound) (steps : List SessionStep) : (s.run bk steps).Sound := by
  induction steps generalizing s with
  | nil => exact h
  | cons a steps ih => exact ih (h.step a)

/-- **Access control.** In every run of commands and resets from a new session, over any backend,
each guarded call comes after a successful verification of its password, with no reset in between
and, for signing, no counted signature. -/
theorem guarded_calls_authorised (bk : OpenPgpBackend β) (b : β) (steps : List SessionStep)
    {pre post : List SessionEvent} {c : BackendCall} {ok : Bool}
    (h : ((Session.new b).run bk steps).events = pre ++ .call c ok :: post) {pw : Password}
    (hpw : c.guard = some pw) : Authorised pw pre :=
  ((sound_new b).run steps).calls pre (.call c ok) post h pw hpw

/-- The guard at work: VERIFY for other commands, then INTERNAL AUTHENTICATE. -/
theorem guarded_calls_authorised_auth :
    Authorised .pw1Other [.call (.verifyPw1Other [0x31]) true] :=
  guarded_calls_authorised acceptingBackend ⟨⟩
    [.apdu ⟨0x00, 0x20, 0x00, 0x82, .truncated [0x31], none⟩,
      .apdu ⟨0x00, 0x88, 0x00, 0x00, .truncated [0x55], none⟩]
    (c := .internalAuthenticate [0x55]) rfl rfl

end Galdralag.OpenPgp
