import Galdralag.Session.Network

/-!
# Handshake agreement

What a successful call has done is read off its code once. Two facts about preimages carry the rest.
An uncompressed point is longer than any other encoding that starts like it, so a first message
cannot be mistaken for a response, although both have the same version byte; and the two keys in a
response can be told apart. Every signature that an agent's key verifies then leads back to the very
call that made it.
-/

set_option linter.all false

namespace Galdralag.Session

open Fallible

variable {Agent T W : Type} {P : Primitives} {trng : HardwareTrng T} {storage : VaultStorage W}
  {owner : SessionCurve → Bytes → Option Agent}

/-! ## What successful calls have done -/

/-- A key pair whose public key is that of its private key. -/
structure EphemeralKeyPair.Good (P : Primitives) (kp : EphemeralKeyPair) : Prop where
  valid : (P.curve kp.curve).validScalar kp.privateKey = true
  matching : kp.publicKey.toBytes = (P.curve kp.curve).publicKey kp.privateKey

theorem sampleScalar_ok {curve : SessionCurve} {tries : ℕ} {sk : Bytes} {t t' : T}
    (h : sampleScalar P trng curve tries t = (.ok sk, t')) : (P.curve curve).validScalar sk = true := by
  induction tries generalizing t with
  | zero => cases h
  | succ tries ih =>
    obtain ⟨raw, t₁, -, hraw⟩ := bind_eq_ok.mp h
    split_ifs at hraw with hvalid
    · obtain ⟨rfl, -⟩ := pure_eq_ok.mp hraw
      exact hvalid
    · exact ih hraw

theorem generate_ok {curve : SessionCurve} {kp : EphemeralKeyPair} {t t' : T}
    (h : generate P trng curve t = (.ok kp, t')) : kp.Good P ∧ kp.curve = curve := by
  obtain ⟨sk, t₁, hsk, hrest⟩ := bind_eq_ok.mp h
  obtain ⟨publicKey, t₂, hpublic, hpure⟩ := bind_eq_ok.mp hrest
  obtain ⟨rfl, -⟩ := pure_eq_ok.mp hpure
  have hvalid := sampleScalar_ok (orElse_eq_ok.mp hsk)
  refine ⟨⟨hvalid, ?_⟩, rfl⟩
  rcases hv : (Vec.ofBytes? ((P.curve curve).publicKey sk) : Option (Vec 97)) with _ | v
  · rw [hv] at hpublic
    cases (Prod.mk.inj hpublic).1
  · rw [hv] at hpublic
    obtain rfl : v = publicKey := Except.ok.inj (Prod.mk.inj hpublic).1
    exact Vec.toBytes_of_ofBytes? hv

theorem signedInit_ok {key : SessionLongTermSigningKey} {kp : EphemeralKeyPair} {msg : InitMessage}
    (h : signedInit P key kp = .ok msg) : msg.version = initProtocolVersion ∧ msg.curve = kp.curve ∧
      msg.ephemeralPublicKey.toBytes = kp.publicKey.toBytes := by
  obtain ⟨sig, -, hrest⟩ := except_bind_eq_ok.mp h
  obtain ⟨fp, -, hrest⟩ := except_bind_eq_ok.mp hrest
  obtain ⟨epk, hepk, hmsg⟩ := except_bind_eq_ok.mp hrest
  obtain rfl := Except.ok.inj hmsg
  exact ⟨rfl, rfl, pushAll_eq_ok hepk⟩

theorem signedResponse_ok {key : SessionLongTermSigningKey} {kp : EphemeralKeyPair} {msg : InitMessage}
    {resp : ResponseMessage} (h : signedResponse P key kp msg = .ok resp) :
    resp.version = respProtocolVersion ∧ resp.curve = kp.curve ∧
      resp.ephemeralPublicKey.toBytes = kp.publicKey.toBytes ∧
      resp.initiatorEphemeralPublicKey = msg.ephemeralPublicKey := by
  obtain ⟨sig, -, hrest⟩ := except_bind_eq_ok.mp h
  obtain ⟨fp, -, hrest⟩ := except_bind_eq_ok.mp hrest
  obtain ⟨epk, hepk, hresp⟩ := except_bind_eq_ok.mp hrest
  obtain rfl := Except.ok.inj hresp
  exact ⟨rfl, rfl, pushAll_eq_ok hepk, rfl⟩

/-- **Sending.** A session that was set up keeps the key pair of the message it sends. -/
theorem init_ok {curve : SessionCurve} {slot : UInt32} {w : W} {st st' : InitiatorState} {t t' : T}
    {msg : InitMessage} (h : init P trng storage curve slot w (st, t) = (.ok msg, (st', t'))) :
    ∃ kp : EphemeralKeyPair, st' = .initialised curve kp msg ∧ kp.Good P ∧ kp.curve = curve ∧
      msg.version = initProtocolVersion ∧ msg.curve = curve ∧
      msg.ephemeralPublicKey.toBytes = kp.publicKey.toBytes := by
  obtain ⟨u, s₁, h₁, hrest⟩ := bind_eq_ok.mp h
  obtain ⟨-, rfl⟩ := reading_eq_ok.mp h₁
  obtain ⟨key, s₂, h₂, hrest₂⟩ := bind_eq_ok.mp hrest
  obtain ⟨-, rfl⟩ := lift_eq_ok.mp h₂
  obtain ⟨kp, s₃, h₃, hrest₃⟩ := bind_eq_ok.mp hrest₂
  obtain ⟨t₁, hgenerate, rfl⟩ := zoom_eq_ok.mp h₃
  obtain ⟨msg', s₄, h₄, hrest₄⟩ := bind_eq_ok.mp hrest₃
  obtain ⟨hsigned, rfl⟩ := lift_eq_ok.mp h₄
  obtain ⟨u', s₅, h₅, hrest₅⟩ := bind_eq_ok.mp hrest₄
  obtain rfl := modify_eq_ok.mp h₅
  obtain ⟨rfl, hstate⟩ := pure_eq_ok.mp hrest₅
  obtain ⟨hgood, rfl⟩ := generate_ok hgenerate
  obtain ⟨hversion, hcurve, hepk⟩ := signedInit_ok hsigned
  exact ⟨kp, (Prod.mk.inj hstate).1.symm, hgood, rfl, hversion, hcurve, hepk⟩

/-- A session that could not be set up is as it was. -/
theorem init_error {curve : SessionCurve} {slot : UInt32} {w : W} {st st' : InitiatorState} {t t' : T}
    {e : EphemeralSessionError}
    (h : init P trng storage curve slot w (st, t) = (.error e, (st', t'))) : st' = st := by
  rcases bind_eq_error.mp h with h₁ | ⟨u, s₁, h₁, hrest⟩
  · exact (congrArg Prod.fst (Prod.mk.inj h₁).2).symm
  obtain ⟨-, rfl⟩ := reading_eq_ok.mp h₁
  rcases bind_eq_error.mp hrest with h₂ | ⟨key, s₂, h₂, hrest₂⟩
  · exact (congrArg Prod.fst (Prod.mk.inj h₂).2).symm
  obtain ⟨-, rfl⟩ := lift_eq_ok.mp h₂
  rcases bind_eq_error.mp hrest₂ with h₃ | ⟨kp, s₃, h₃, hrest₃⟩
  · exact (congrArg Prod.fst (Prod.mk.inj h₃).2).symm
  obtain ⟨t₁, -, rfl⟩ := zoom_eq_ok.mp h₃
  rcases bind_eq_error.mp hrest₃ with h₄ | ⟨msg, s₄, h₄, hrest₄⟩
  · exact (congrArg Prod.fst (Prod.mk.inj h₄).2).symm
  · cases hrest₄

/-- What a response that passes the checks is. -/
theorem checkResponse_ok {curve : SessionCurve} {msg : InitMessage} {resp : ResponseMessage}
    {cert : LongTermCert} (h : checkResponse P curve msg resp cert = .ok ()) :
    resp.curve = curve ∧
      msg.ephemeralPublicKey.toBytes = resp.initiatorEphemeralPublicKey.toBytes ∧
      verifyWithCert P cert resp.preimage resp.signature.toBytes = .ok () := by
  obtain ⟨u₁, -, hrest₁⟩ := except_bind_eq_ok.mp h
  obtain ⟨u₂, hcurve, hrest₂⟩ := except_bind_eq_ok.mp hrest₁
  obtain ⟨u₃, hepk, hrest₃⟩ := except_bind_eq_ok.mp hrest₂
  obtain ⟨fp, -, hrest₄⟩ := except_bind_eq_ok.mp hrest₃
  obtain ⟨u₅, -, hverify⟩ := except_bind_eq_ok.mp hrest₄
  obtain rfl := ensure_eq_ok.mp hcurve
  exact ⟨rfl, ensure_eq_ok.mp hepk, hverify⟩

/-- What a first message that passes the checks is. -/
theorem checkInit_ok {msg : InitMessage} {cert : LongTermCert} (h : checkInit P msg cert = .ok ()) :
    msg.version = initProtocolVersion ∧
      verifyWithCert P cert msg.preimage msg.signature.toBytes = .ok () := by
  obtain ⟨u₁, hversion, hrest₁⟩ := except_bind_eq_ok.mp h
  obtain ⟨fp, -, hrest₂⟩ := except_bind_eq_ok.mp hrest₁
  obtain ⟨u₃, -, hverify⟩ := except_bind_eq_ok.mp hrest₂
  exact ⟨ensure_eq_ok.mp hversion, hverify⟩

/-- A shared secret that was computed. -/
theorem ecdh_ok {kp : EphemeralKeyPair} {peer shared : Bytes} (h : ecdh P kp peer = .ok shared) :
    (P.curve kp.curve).validPoint peer = true ∧
      (P.curve kp.curve).diffieHellman kp.privateKey peer = some shared := by
  obtain ⟨u₁, -, hrest₁⟩ := except_bind_eq_ok.mp h
  obtain ⟨u₂, hpoint, hrest₂⟩ := except_bind_eq_ok.mp hrest₁
  obtain ⟨x, hx, hrest₃⟩ := except_bind_eq_ok.mp hrest₂
  obtain ⟨u₄, -, hpure⟩ := except_bind_eq_ok.mp hrest₃
  obtain rfl : x = shared := Except.ok.inj hpure
  refine ⟨ensure_eq_ok.mp hpoint, ?_⟩
  rcases hdh : (P.curve kp.curve).diffieHellman kp.privateKey peer with _ | y
  · rw [hdh] at hx
    cases hx
  · rw [hdh] at hx
    exact congrArg some (Except.ok.inj hx)

/-- **Completing.** The keys of an initiator come from a response that passed the checks. -/
theorem complete_ok {curve : SessionCurve} {kp : EphemeralKeyPair} {msg : InitMessage}
    {resp : ResponseMessage} {cert : LongTermCert} {keys : SessionKeys} {st : InitiatorState}
    (h : complete P resp cert (.initialised curve kp msg) = (.ok keys, st)) :
    checkResponse P curve msg resp cert = .ok () ∧ initiatorKeys P kp msg resp = .ok keys ∧
      st = .completed := by
  rw [complete, completeInner] at h
  rcases hcheck : checkResponse P curve msg resp cert with e | ⟨⟩
  · rw [hcheck] at h
    cases (Prod.mk.inj h).1
  · rw [hcheck] at h
    rcases hkeys : initiatorKeys P kp msg resp with e | keys'
    · rw [hkeys] at h
      cases (Prod.mk.inj h).1
    · rw [hkeys] at h
      obtain ⟨hok, hst⟩ := Prod.mk.inj h
      exact ⟨rfl, hok, hst.symm⟩

/-- A session that did not complete is as it was, or over. -/
theorem complete_error {resp : ResponseMessage} {cert : LongTermCert} {e : EphemeralSessionError}
    {st st' : InitiatorState} (h : complete P resp cert st = (.error e, st')) :
    st' = st ∨ st' = .new := by
  rcases st with _ | ⟨curve, kp, msg⟩ | _
  · exact Or.inl (Prod.mk.inj h).2.symm
  · rw [complete, completeInner] at h
    rcases hcheck : checkResponse P curve msg resp cert with e' | ⟨⟩
    · rw [hcheck] at h
      exact Or.inl (Prod.mk.inj h).2.symm
    · rw [hcheck] at h
      rcases hkeys : initiatorKeys P kp msg resp with e' | keys'
      · rw [hkeys] at h
        exact Or.inr (Prod.mk.inj h).2.symm
      · rw [hkeys] at h
        cases (Prod.mk.inj h).1
  · exact Or.inl (Prod.mk.inj h).2.symm

/-- **Responding.** The answer repeats the key it was asked with, and both keys make the secret. -/
theorem respond_ok {msg : InitMessage} {slot : UInt32} {cert : LongTermCert} {w : W} {t t' : T}
    {resp : ResponseMessage} {keys : SessionKeys}
    (h : respond P trng storage msg slot cert w t = (.ok (resp, keys), t')) :
    checkInit P msg cert = .ok () ∧ resp.version = respProtocolVersion ∧ resp.curve = msg.curve ∧
      resp.initiatorEphemeralPublicKey = msg.ephemeralPublicKey ∧
      ∃ kp : EphemeralKeyPair, ∃ shared, kp.Good P ∧ kp.curve = msg.curve ∧
        resp.ephemeralPublicKey.toBytes = kp.publicKey.toBytes ∧
        ecdh P kp msg.ephemeralPublicKey.toBytes = .ok shared ∧
        deriveSessionKeys P shared msg.ephemeralPublicKey.toBytes
          resp.ephemeralPublicKey.toBytes = .ok keys := by
  obtain ⟨u, t₁, h₁, hrest₁⟩ := bind_eq_ok.mp h
  obtain ⟨hcheck, rfl⟩ := lift_eq_ok.mp h₁
  obtain ⟨key, t₂, h₂, hrest₂⟩ := bind_eq_ok.mp hrest₁
  obtain ⟨-, rfl⟩ := lift_eq_ok.mp h₂
  obtain ⟨kp, t₃, hgenerate, hrest₃⟩ := bind_eq_ok.mp hrest₂
  obtain ⟨resp', t₄, h₄, hrest₄⟩ := bind_eq_ok.mp hrest₃
  obtain ⟨hsigned, rfl⟩ := lift_eq_ok.mp h₄
  obtain ⟨shared, t₅, h₅, hrest₅⟩ := bind_eq_ok.mp hrest₄
  obtain ⟨hshared, rfl⟩ := lift_eq_ok.mp h₅
  obtain ⟨keys', t₆, h₆, hrest₆⟩ := bind_eq_ok.mp hrest₅
  obtain ⟨hkeys, rfl⟩ := lift_eq_ok.mp h₆
  obtain ⟨hpair, -⟩ := pure_eq_ok.mp hrest₆
  obtain ⟨rfl, rfl⟩ := Prod.mk.inj hpair
  obtain ⟨hgood, hcurve⟩ := generate_ok hgenerate
  obtain ⟨hversion, hrcurve, hepk, hiepk⟩ := signedResponse_ok hsigned
  exact ⟨hcheck, hversion, hrcurve.trans hcurve, hiepk, kp, shared, hgood, hcurve, hepk, hshared, hkeys⟩

/-! ## Telling preimages apart -/

section Preimages

variable (hP : P.Lawful)

include hP

/-- A point that starts like a public key is as long as one. -/
theorem length_of_shared_prefix {c d : SessionCurve} {point sk rest tail : Bytes}
    (hpoint : (P.curve c).validPoint point = true) (hsk : (P.curve d).validScalar sk = true)
    (h : point ++ rest = (P.curve d).publicKey sk ++ tail) : point.length = c.publicKeyLen := by
  refine hP.length_of_uncompressed c point hpoint ?_
  have hne := hP.validPoint_ne_nil c point hpoint
  have hhead := congrArg List.head? h
  rw [List.head?_append_of_ne_nil _ hne] at hhead
  rw [hhead, List.head?_append, hP.head_publicKey d sk hsk]
  rfl

theorem publicKey_ne_nil {c : SessionCurve} {sk : Bytes} (hsk : (P.curve c).validScalar sk = true) :
    0 < ((P.curve c).publicKey sk).length := by
  rw [hP.length_publicKey c sk hsk]
  cases c <;> decide

end Preimages

/-- What an event carries: the public keys that its call generated, and the secret they made. -/
def Event.WellFormed (P : Primitives) : Event Agent → Prop
  | .sent _ _ msg => ∃ sk, (P.curve msg.curve).validScalar sk = true ∧
      msg.ephemeralPublicKey.toBytes = (P.curve msg.curve).publicKey sk
  | .responded _ _ msg _ resp keys => resp.curve = msg.curve ∧
      resp.initiatorEphemeralPublicKey = msg.ephemeralPublicKey ∧
      ∃ sk shared, (P.curve msg.curve).validScalar sk = true ∧
        resp.ephemeralPublicKey.toBytes = (P.curve msg.curve).publicKey sk ∧
        (P.curve msg.curve).validPoint msg.ephemeralPublicKey.toBytes = true ∧
        (P.curve msg.curve).diffieHellman sk msg.ephemeralPublicKey.toBytes = some shared ∧
        deriveSessionKeys P shared msg.ephemeralPublicKey.toBytes
          resp.ephemeralPublicKey.toBytes = .ok keys
  | .completed .. => True

/-- **A signed first message** under an accepted key was sent as one. -/
theorem sent_of_signs_init (hP : P.Lawful) {e : Event Agent} (he : e.WellFormed P)
    {c curve : SessionCurve} {vk epk : Bytes} (hpoint : (P.curve curve).validPoint epk = true)
    (h : e.Signs P c vk (initSignPreimage initProtocolVersion curve epk)) :
    ∃ agent key msg, e = .sent agent key msg ∧ c = key.curve ∧ vk = verifyingSec1 P key ∧
      msg.curve = curve ∧ msg.ephemeralPublicKey.toBytes = epk := by
  rcases e with ⟨agent, key, msg⟩ | ⟨agent, key, msg, peer, resp, keys⟩ | _
  · obtain ⟨hc, hvk, hm⟩ := h
    obtain ⟨-, hm⟩ := List.cons.inj hm
    obtain ⟨hwire, hepk⟩ := List.cons.inj hm
    exact ⟨agent, key, msg, rfl, hc, hvk, (SessionCurve.wireId_injective hwire).symm, hepk.symm⟩
  · -- a response is too long: its first key alone is as long as the whole message
    obtain ⟨hc, hvk, hm⟩ := h
    obtain ⟨hcurve, hiepk, sk, shared, hsk, hrepk, hiepkpoint, -⟩ := he
    obtain ⟨-, hm⟩ := List.cons.inj hm
    obtain ⟨hwire, hepk⟩ := List.cons.inj hm
    obtain rfl := SessionCurve.wireId_injective hwire
    rw [hrepk] at hepk
    have hlen := length_of_shared_prefix hP hpoint hsk ((List.append_nil epk).trans hepk)
    have hlength := congrArg List.length hepk
    rw [List.length_append, hP.length_publicKey _ sk hsk, hlen, hcurve, hiepk] at hlength
    have hpos := List.length_pos_iff.mpr (hP.validPoint_ne_nil _ _ hiepkpoint)
    omega
  · exact h.elim

/-- **A signed response** with an accepted key, to a public key, was given to that public key. -/
theorem responded_of_signs_response (hP : P.Lawful) {e : Event Agent} (he : e.WellFormed P)
    {c curve : SessionCurve} {vk repk iepk sk : Bytes}
    (hpoint : (P.curve curve).validPoint repk = true) (hsk : (P.curve curve).validScalar sk = true)
    (hiepk : iepk = (P.curve curve).publicKey sk)
    (h : e.Signs P c vk (responseSignPreimage respProtocolVersion curve repk iepk)) :
    ∃ agent key msg peer resp keys, e = .responded agent key msg peer resp keys ∧ c = key.curve ∧
      vk = verifyingSec1 P key ∧ msg.curve = curve ∧ resp.ephemeralPublicKey.toBytes = repk ∧
      msg.ephemeralPublicKey.toBytes = iepk := by
  rcases e with ⟨agent, key, msg⟩ | ⟨agent, key, msg, peer, resp, keys⟩ | _
  · -- a first message is too short for two keys
    obtain ⟨hc, hvk, hm⟩ := h
    obtain ⟨sk', hsk', hepk'⟩ := he
    obtain ⟨-, hm⟩ := List.cons.inj hm
    obtain ⟨hwire, hepk⟩ := List.cons.inj hm
    obtain rfl := SessionCurve.wireId_injective hwire
    rw [hepk'] at hepk
    have hlen := length_of_shared_prefix hP hpoint hsk'
      (hepk.trans (List.append_nil _).symm)
    have hlength := congrArg List.length hepk
    rw [List.length_append, hP.length_publicKey _ sk' hsk', hlen] at hlength
    have hpos := publicKey_ne_nil hP hsk
    rw [← hiepk] at hpos
    omega
  · obtain ⟨hc, hvk, hm⟩ := h
    obtain ⟨hcurve, hriepk, sk', shared, hsk', hrepk, -⟩ := he
    obtain ⟨-, hm⟩ := List.cons.inj hm
    obtain ⟨hwire, hepk⟩ := List.cons.inj hm
    have hcurve' : msg.curve = curve := hcurve.symm.trans (SessionCurve.wireId_injective hwire).symm
    have hpoint' := hpoint
    rw [← hcurve'] at hpoint'
    have hlen := length_of_shared_prefix hP hpoint' hsk' (hepk.trans (by rw [hrepk]))
    have hlen' : repk.length = resp.ephemeralPublicKey.toBytes.length := by
      rw [hlen, hrepk, hP.length_publicKey _ sk' hsk']
    obtain ⟨hr, hi⟩ := List.append_inj hepk hlen'
    rw [hriepk] at hi
    exact ⟨agent, key, msg, peer, resp, keys, rfl, hc, hvk, hcurve', hr.symm, hi.symm⟩
  · exact h.elim

/-! ## The invariant -/

/-- An initialised session holds the key pair of the message it sent. -/
def InitiatorState.Good (P : Primitives) : InitiatorState → Prop
  | .initialised curve kp msg => kp.Good P ∧ kp.curve = curve ∧ msg.curve = curve ∧
      msg.ephemeralPublicKey.toBytes = kp.publicKey.toBytes
  | _ => True

/-- The key of an event belongs to the agent that used it, or to nobody. -/
def Event.Owned (P : Primitives) (owner : SessionCurve → Bytes → Option Agent) : Event Agent → Prop
  | .sent agent key _ => Owns P owner agent key
  | .responded agent key .. => Owns P owner agent key
  | .completed .. => True

/-- What an event proves about others. A response under the certificate of an agent answers a
message that agent sent; keys under the certificate of an agent are those of a response that agent
gave. -/
def Event.Agrees (owner : SessionCurve → Bytes → Option Agent) (events : List (Event Agent)) :
    Event Agent → Prop
  | .sent .. => True
  | .responded _ _ msg peer _ _ => ∀ a ∈ peer.ownedBy owner, ∃ key msg',
      Event.sent a key msg' ∈ events ∧ msg'.curve = msg.curve ∧
        msg'.ephemeralPublicKey = msg.ephemeralPublicKey
  | .completed _ msg peer _ keys => ∀ b ∈ peer.ownedBy owner, ∃ key msg' peer' resp',
      Event.responded b key msg' peer' resp' keys ∈ events ∧
        msg'.ephemeralPublicKey = msg.ephemeralPublicKey

/-- **The invariant** of all interleavings. -/
structure World.Sound (P : Primitives) (owner : SessionCurve → Bytes → Option Agent)
    (world : World Agent) : Prop where
  sessions : ∀ agent sid, (world.sessions agent sid).Good P
  wellFormed : ∀ e ∈ world.events, e.WellFormed P
  owned : ∀ e ∈ world.events, e.Owned P owner
  agrees : ∀ e ∈ world.events, e.Agrees owner world.events

theorem Event.Agrees.mono {events events' : List (Event Agent)} {e : Event Agent}
    (hsub : events ⊆ events') (h : e.Agrees owner events) : e.Agrees owner events' := by
  rcases e with _ | ⟨agent, key, msg, peer, resp, keys⟩ | ⟨agent, msg, peer, resp, keys⟩
  · exact h
  · intro a ha
    obtain ⟨key, msg', hmem, hrest⟩ := h a ha
    exact ⟨key, msg', hsub hmem, hrest⟩
  · intro b hb
    obtain ⟨key, msg', peer', resp', hmem, hepk⟩ := h b hb
    exact ⟨key, msg', peer', resp', hsub hmem, hepk⟩

section Steps

variable [DecidableEq Agent] {world : World Agent}

theorem World.Sound.setSession (h : world.Sound P owner) {agent : Agent} {sid : ℕ}
    {st : InitiatorState} (hst : st.Good P) : (world.setSession agent sid st).Sound P owner where
  sessions := by
    intro a s
    change (if a = agent ∧ s = sid then st else world.sessions a s).Good P
    split_ifs
    · exact hst
    · exact h.sessions a s
  wellFormed := h.wellFormed
  owned := h.owned
  agrees := h.agrees

omit [DecidableEq Agent] in
theorem World.Sound.record (h : world.Sound P owner) {e : Event Agent} (hwell : e.WellFormed P)
    (howned : e.Owned P owner) (hagrees : e.Agrees owner world.events) :
    (world.record e).Sound P owner where
  sessions := h.sessions
  wellFormed := List.forall_mem_append.mpr ⟨h.wellFormed, List.forall_mem_singleton.mpr hwell⟩
  owned := List.forall_mem_append.mpr ⟨h.owned, List.forall_mem_singleton.mpr howned⟩
  agrees := List.forall_mem_append.mpr ⟨fun e' he' ↦ (h.agrees e' he').mono
    (List.subset_append_left ..), List.forall_mem_singleton.mpr (hagrees.mono (List.subset_append_left ..))⟩

omit [DecidableEq Agent] in
/-- A first message under the certificate of an agent was sent by that agent. -/
theorem sent_by_owner (hP : P.Lawful) (h : world.Sound P owner) {msg : InitMessage}
    {cert : LongTermCert} (hversion : msg.version = initProtocolVersion)
    (hpoint : (P.curve msg.curve).validPoint msg.ephemeralPublicKey.toBytes = true)
    (hverify : verifyWithCert P cert msg.preimage msg.signature.toBytes = .ok ())
    (hpresented : Presented P owner world.events cert msg.preimage msg.signature.toBytes)
    {a : Agent} (ha : a ∈ cert.ownedBy owner) : ∃ key msg', Event.sent a key msg' ∈ world.events ∧
      msg'.curve = msg.curve ∧ msg'.ephemeralPublicKey = msg.ephemeralPublicKey := by
  obtain ⟨e, he, m, hsigns, hdigest⟩ := hpresented.unforged a ha hverify
  obtain rfl := hpresented.collisionFree e he _ _ m hsigns hdigest
  rw [InitMessage.preimage, hversion] at hsigns
  obtain ⟨agent, key, msg', rfl, hc, hvk, hcurve, hepk⟩ :=
    sent_of_signs_init hP (h.wellFormed e he) hpoint hsigns
  obtain rfl : a = agent := by
    refine h.owned _ he a ?_
    rwa [← hc, ← hvk]
  exact ⟨key, msg', he, hcurve, Subtype.ext hepk⟩

omit [DecidableEq Agent] in
/-- Keys under the certificate of an agent are those of a response of that agent. -/
theorem responded_by_owner (hP : P.Lawful) (h : world.Sound P owner) {curve : SessionCurve}
    {kp : EphemeralKeyPair} {msg : InitMessage} {resp : ResponseMessage} {cert : LongTermCert}
    {keys : SessionKeys} (hgood : (InitiatorState.initialised curve kp msg).Good P)
    (hcheck : checkResponse P curve msg resp cert = .ok ())
    (hkeys : initiatorKeys P kp msg resp = .ok keys)
    (hpresented : Presented P owner world.events cert resp.preimage resp.signature.toBytes)
    {b : Agent} (hb : b ∈ cert.ownedBy owner) : ∃ key msg' peer' resp',
      Event.responded b key msg' peer' resp' keys ∈ world.events ∧
        msg'.ephemeralPublicKey = msg.ephemeralPublicKey := by
  obtain ⟨hcurve, hiepk, hverify⟩ := checkResponse_ok hcheck
  obtain ⟨hkp, hkpcurve, hmcurve, hepk⟩ := hgood
  obtain ⟨shared, hshared, hderive⟩ := except_bind_eq_ok.mp hkeys
  obtain ⟨hpoint, hdh⟩ := ecdh_ok hshared
  obtain ⟨e, he, m, hsigns, hdigest⟩ := hpresented.unforged b hb hverify
  obtain rfl := hpresented.collisionFree e he _ _ m hsigns hdigest
  have hcurves : kp.curve = resp.curve := hkpcurve.trans hcurve.symm
  have hvalid := hkp.valid
  have hmatching := hkp.matching
  rw [hcurves] at hpoint hdh hvalid hmatching
  have hmine := hiepk.symm.trans (hepk.trans hmatching)
  obtain ⟨agent, key, msg', peer', resp', keys', rfl, hc, hvk, hcurve', hrepk, hiepk'⟩ :=
    responded_of_signs_response hP (h.wellFormed e he) hpoint hvalid hmine hsigns
  obtain rfl : b = agent := by
    refine h.owned _ he b ?_
    rwa [← hc, ← hvk]
  obtain ⟨-, -, sk, shared', hsk, hpub, -, hdh', hderive'⟩ := h.wellFormed _ he
  have hmsg : msg'.ephemeralPublicKey.toBytes = msg.ephemeralPublicKey.toBytes := hiepk'.trans hiepk.symm
  -- both sides multiply the same two scalars
  have hsecret : shared' = shared := by
    rw [hcurve', hiepk', hmine, hP.diffieHellman_comm _ _ _ (hcurve' ▸ hsk) hvalid] at hdh'
    rw [← hrepk, hpub, hcurve'] at hdh
    exact Option.some.inj (hdh'.symm.trans hdh)
  rw [hsecret, hmsg, hrepk] at hderive'
  obtain rfl : keys = keys' := Except.ok.inj (hderive.symm.trans hderive')
  exact ⟨key, msg', peer', resp', he, Subtype.ext hmsg⟩

/-- **The step lemma**: every call keeps the invariant. -/
theorem World.Sound.step (hP : P.Lawful) (h : world.Sound P owner) {world' : World Agent}
    (hstep : Step P trng storage owner world world') : world'.Sound P owner := by
  cases hstep with
  | init hkey howns hrun =>
    obtain ⟨kp, rfl, hgood, rfl, hversion, hcurve, hepk⟩ := init_ok hrun
    have hst : (InitiatorState.initialised kp.curve kp _).Good P := ⟨hgood, rfl, hcurve, hepk⟩
    refine (h.setSession hst).record ⟨kp.privateKey, ?_, ?_⟩ howns trivial
    · rw [hcurve]
      exact hgood.valid
    · rw [hcurve, hepk, hgood.matching]
  | initFailed hrun =>
    refine h.setSession ?_
    rw [init_error hrun]
    exact h.sessions _ _
  | @complete agent sid curve kp msg response cert keys st hsession hpresented hrun =>
    rw [hsession] at hrun
    obtain ⟨hcheck, hkeys, rfl⟩ := complete_ok hrun
    have hgood := h.sessions agent sid
    rw [hsession] at hgood
    have hst : InitiatorState.completed.Good P := trivial
    refine (h.setSession hst).record trivial trivial fun b hb ↦ ?_
    exact responded_by_owner hP h hgood hcheck hkeys hpresented hb
  | completeFailed hrun =>
    refine h.setSession ?_
    rcases complete_error hrun with hst | hst
    · rw [hst]
      exact h.sessions _ _
    · rw [hst]
      trivial
  | respond hkey howns hpresented hrun =>
    obtain ⟨hcheck, -, hcurve, hiepk, kp, shared, hgood, hkpcurve, hrepk, hshared, hderive⟩ :=
      respond_ok hrun
    obtain ⟨hversion, hverify⟩ := checkInit_ok hcheck
    obtain ⟨hpoint, hdh⟩ := ecdh_ok hshared
    have hvalid := hgood.valid
    have hmatching := hgood.matching
    rw [hkpcurve] at hpoint hdh hvalid hmatching
    refine h.record ⟨hcurve, hiepk, kp.privateKey, shared, hvalid, hrepk.trans hmatching, hpoint, hdh,
      hderive⟩ howns fun a ha ↦ ?_
    exact sent_by_owner hP h hversion hpoint hverify hpresented ha
  | respondFailed hrun => exact h

/-- **The run lemma**: the invariant holds in every world that calls lead to. -/
theorem Reachable.sound (hP : P.Lawful) (h : Reachable P trng storage owner world) :
    world.Sound P owner := by
  induction h with
  | start =>
    refine ⟨fun _ _ ↦ trivial, ?_, ?_, ?_⟩ <;> exact fun e he ↦ absurd he List.not_mem_nil
  | step _ hstep ih => exact ih.step hP hstep

/-- **Handshake agreement.** Whatever the network does: when a call of an initiator returned keys
under the certificate of an agent, that agent has responded to exactly this initiator's ephemeral
key and got the same keys; and when a response was given under the certificate of an agent, that
agent has sent a message with the ephemeral key it answers. -/
theorem handshake_agreement (hP : P.Lawful) (h : Reachable P trng storage owner world) :
    (∀ a msg cert resp keys, Event.completed a msg cert resp keys ∈ world.events →
      ∀ b ∈ cert.ownedBy owner, ∃ key msg' cert' resp',
        Event.responded b key msg' cert' resp' keys ∈ world.events ∧
          msg'.ephemeralPublicKey = msg.ephemeralPublicKey) ∧
    (∀ b key msg cert resp keys, Event.responded b key msg cert resp keys ∈ world.events →
      ∀ a ∈ cert.ownedBy owner, ∃ key' msg', Event.sent a key' msg' ∈ world.events ∧
        msg'.curve = msg.curve ∧ msg'.ephemeralPublicKey = msg.ephemeralPublicKey) :=
  ⟨fun _ _ _ _ _ hmem ↦ (h.sound hP).agrees _ hmem, fun _ _ _ _ _ _ hmem ↦ (h.sound hP).agrees _ hmem⟩

end Steps

end Galdralag.Session
