import Galdralag.Session.Misbinding

/-!
# Rejected responses

Completing takes the state out of the session, so that for a while the session is a new one, and
every way out has to say what it leaves behind. The six checks before the secret is computed put the
handshake back as it was, each in a place of its own; a failure after them leaves a new session; keys
leave a completed one.

The call is written out here as the code has it and shown to be the one that `Session.complete`
describes. A response that a check rejects then leaves no mark, and no session hands out keys twice.
-/

set_option linter.all false

namespace Galdralag.Session

open Fallible

variable {T W : Type} (P : Primitives) (trng : HardwareTrng T) (storage : VaultStorage W)

/-! ## Completing, check by check -/

namespace InitiatorSession

/-- Set the state and return an error. -/
def leave (st : InitiatorState) (e : EphemeralSessionError) :
    Fallible InitiatorState EphemeralSessionError SessionKeys := do
  modify fun _ ↦ st
  fail e

def completeInner (curve : SessionCurve) (epk : EphemeralKeyPair) (initMessage : InitMessage)
    (response : ResponseMessage) (peerLongTermCert : LongTermCert) :
    Fallible InitiatorState EphemeralSessionError SessionKeys :=
  if response.version ≠ respProtocolVersion then
    leave (.initialised curve epk initMessage) .malformedHandshake
  else if response.curve ≠ curve then
    leave (.initialised curve epk initMessage) .curveMismatch
  else if initMessage.ephemeralPublicKey.toBytes ≠ response.initiatorEphemeralPublicKey.toBytes then
    leave (.initialised curve epk initMessage) .invalidPeerSignature
  else match decodeFingerprintHex response.longTermFingerprint.toBytes with
  | .error e => leave (.initialised curve epk initMessage) e
  | .ok wireFp =>
    if peerLongTermCert.fingerprint.toBytes ≠ wireFp.toBytes then
      leave (.initialised curve epk initMessage) .fingerprintMismatch
    else match verifyWithCert P peerLongTermCert (responseSignPreimage respProtocolVersion curve
        response.ephemeralPublicKey.toBytes response.initiatorEphemeralPublicKey.toBytes)
        response.signature.toBytes with
    | .error e => leave (.initialised curve epk initMessage) e
    | .ok _ =>
      match ecdh P epk response.ephemeralPublicKey.toBytes with
      | .error e => leave .new e
      | .ok shared =>
        match deriveSessionKeys P shared initMessage.ephemeralPublicKey.toBytes
            response.ephemeralPublicKey.toBytes with
        | .error e => leave .new e
        | .ok keys => do
          modify fun _ ↦ .completed
          pure keys

/-- Step 2, with the state taken out first. -/
def complete (response : ResponseMessage) (peerLongTermCert : LongTermCert) :
    Fallible InitiatorState EphemeralSessionError SessionKeys := do
  let st ← gets id
  modify fun _ ↦ .new
  match st with
  | .initialised curve epk initMessage =>
    completeInner P curve epk initMessage response peerLongTermCert
  | .completed => leave .completed .sessionAlreadyCompleted
  | .new => fail .malformedHandshake

variable {P} {curve : SessionCurve} {epk : EphemeralKeyPair} {initMessage : InitMessage}
  {response : ResponseMessage} {cert : LongTermCert}

/-- Whichever check fails, the handshake is put back; only what comes after the checks ends it. -/
theorem completeInner_eq : completeInner P curve epk initMessage response cert =
    Session.completeInner P curve epk initMessage response cert := by
  rw [completeInner, Session.completeInner, checkResponse, initiatorKeys]
  -- check by check: where one fails, both put the handshake back with its error
  by_cases hversion : response.version = respProtocolVersion
  swap
  · rw [if_pos hversion, ensure, if_neg hversion]
    rfl
  rw [if_neg (not_not_intro hversion), ensure_eq_ok.mpr hversion, ok_bind]
  by_cases hcurve : response.curve = curve
  swap
  · rw [if_pos hcurve, ensure, if_neg hcurve]
    rfl
  rw [if_neg (not_not_intro hcurve), ensure_eq_ok.mpr hcurve, ok_bind]
  by_cases hepk : initMessage.ephemeralPublicKey.toBytes = response.initiatorEphemeralPublicKey.toBytes
  swap
  · rw [if_pos hepk, ensure, if_neg hepk]
    rfl
  rw [if_neg (not_not_intro hepk), ensure_eq_ok.mpr hepk, ok_bind]
  rcases decodeFingerprintHex response.longTermFingerprint.toBytes with e | wireFp
  · rfl
  rw [ok_bind]
  by_cases hfp : cert.fingerprint.toBytes = wireFp.toBytes
  swap
  · rw [ensure, if_neg hfp]
    exact if_pos hfp
  rw [ensure_eq_ok.mpr hfp, ok_bind]
  refine (if_neg (not_not_intro hfp)).trans ?_
  rcases verifyWithCert P cert _ _ with e | u
  · rfl
  -- from here on both end the handshake
  rcases ecdh P epk response.ephemeralPublicKey.toBytes with e | shared
  · rfl
  dsimp only
  rw [ok_bind]
  rcases deriveSessionKeys P shared initMessage.ephemeralPublicKey.toBytes
    response.ephemeralPublicKey.toBytes with e | keys
  · rfl
  · rfl

/-- The call is the one described before. -/
theorem complete_eq (st : InitiatorState) :
    complete P response cert st = Session.complete P response cert st := by
  rw [complete, gets_bind]
  rcases st with _ | ⟨curve, epk, initMessage⟩ | _
  · rfl
  · change completeInner P curve epk initMessage response cert .new = _
    rw [completeInner_eq]
    rfl
  · rfl

end InitiatorSession

/-! ## Rejected responses -/

/-- The session turns the response down before it computes a secret. -/
def InitiatorState.Rejects (response : ResponseMessage) (cert : LongTermCert) : InitiatorState → Prop
  | .initialised curve _ initMessage =>
    ∃ e, checkResponse P curve initMessage response cert = .error e
  | _ => True

variable {P} {st : InitiatorState} {response : ResponseMessage} {cert : LongTermCert}

/-- A response that is turned down leaves the session as it was. -/
theorem complete_rejected (h : st.Rejects P response cert) :
    ∃ e, InitiatorSession.complete P response cert st = (.error e, st) := by
  rw [InitiatorSession.complete_eq]
  rcases st with _ | ⟨curve, epk, initMessage⟩ | _
  · exact ⟨_, rfl⟩
  · obtain ⟨e, he⟩ := h
    refine ⟨e, ?_⟩
    change completeInner P curve epk initMessage response cert .new = _
    rw [completeInner, he]
    rfl
  · exact ⟨_, rfl⟩

/-- A session that returned keys is completed. -/
theorem state_of_keys {keys : SessionKeys} {st' : InitiatorState}
    (h : InitiatorSession.complete P response cert st = (.ok keys, st')) : st' = .completed := by
  rw [InitiatorSession.complete_eq] at h
  rcases st with _ | ⟨curve, epk, initMessage⟩ | _
  · cases h
  · exact (complete_ok h).2.2
  · cases h

/-! ## Runs -/

/-- A call of a session, with the contents of the vault and the state of the generator it finds. -/
inductive SessionCall (T W : Type) where
  | init (curve : SessionCurve) (longTermSlot : UInt32) (w : W) (t : T)
  | complete (response : ResponseMessage) (peerLongTermCert : LongTermCert)

/-- What a call returns. -/
inductive SessionAnswer where
  | sent (message : InitMessage)
  | keys (keys : SessionKeys)
  | refused (e : EphemeralSessionError)
  deriving DecidableEq

/-- The answer that an outcome makes. -/
def SessionAnswer.ofOutcome {α : Type} (f : α → SessionAnswer) :
    Except EphemeralSessionError α → SessionAnswer
  | .ok a => f a
  | .error e => .refused e

/-- The answer holds keys. -/
def SessionAnswer.isKeys : SessionAnswer → Bool
  | .keys _ => true
  | _ => false

namespace SessionCall

variable (P)

/-- Perform a call. -/
def perform : SessionCall T W → InitiatorState → SessionAnswer × InitiatorState
  | init curve slot w t, st =>
    let r := Session.init P trng storage curve slot w (st, t)
    (.ofOutcome .sent r.1, r.2.1)
  | complete response cert, st =>
    let r := InitiatorSession.complete P response cert st
    (.ofOutcome .keys r.1, r.2)

/-- Perform calls one after the other. -/
def run : List (SessionCall T W) → InitiatorState → List SessionAnswer × InitiatorState
  | [], st => ([], st)
  | c :: cs, st =>
    let r := c.perform P trng storage st
    let rs := run cs r.2
    (r.1 :: rs.1, rs.2)

variable {P trng storage}

/-- A completed session refuses every call and stays completed. -/
theorem perform_completed (c : SessionCall T W) : c.perform P trng storage .completed =
    (.refused .sessionAlreadyCompleted, .completed) := by
  cases c <;> rfl

theorem run_completed (cs : List (SessionCall T W)) : run P trng storage cs .completed =
    (cs.map fun _ ↦ .refused .sessionAlreadyCompleted, .completed) := by
  induction cs with
  | nil => rfl
  | cons c cs ih => rw [run, perform_completed, ih, List.map_cons]

/-- **The step lemma.** A call that returns keys completes the session. -/
theorem perform_isKeys {c : SessionCall T W} (h : (c.perform P trng storage st).1.isKeys = true) :
    (c.perform P trng storage st).2 = .completed := by
  cases c with
  | init curve slot w t =>
    rw [perform] at h
    dsimp only at h
    rcases hr : (Session.init P trng storage curve slot w (st, t)).1 with e | msg
    · rw [hr] at h
      cases h
    · rw [hr] at h
      cases h
  | complete response cert =>
    rw [perform] at h ⊢
    dsimp only at h ⊢
    rcases hr : InitiatorSession.complete P response cert st with ⟨e | keys, st'⟩
    · rw [hr] at h
      cases h
    · exact state_of_keys hr

/-- Behind keys, every answer is a refusal. -/
theorem run_after_keys (cs : List (SessionCall T W)) : ∀ {st : InitiatorState} {pre post k},
    (run P trng storage cs st).1 = pre ++ .keys k :: post →
      ∀ a ∈ post, a = .refused .sessionAlreadyCompleted := by
  induction cs with
  | nil =>
    intro st pre post k h
    exact absurd h.symm (List.append_ne_nil_of_right_ne_nil _ (List.cons_ne_nil _ _))
  | cons c cs ih =>
    intro st pre post k h
    rw [run] at h
    rcases pre with _ | ⟨a, pre⟩
    · -- the keys are the first answer, so the others are those of a completed session
      obtain ⟨hkeys, hpost⟩ := List.cons.inj h
      have hstep : (c.perform P trng storage st).2 = .completed :=
        perform_isKeys (by rw [hkeys]; rfl)
      rw [hstep, run_completed] at hpost
      intro a ha
      rw [← hpost] at ha
      obtain ⟨_, -, rfl⟩ := List.mem_map.mp ha
      rfl
    · exact ih (List.cons.inj h).2

/-- Rejected responses leave the session as it was. -/
theorem run_rejected (rejected : List (ResponseMessage × LongTermCert)) :
    (∀ p ∈ rejected, st.Rejects P p.1 p.2) →
      (run P trng storage (rejected.map fun p ↦ complete p.1 p.2) st).2 = st := by
  induction rejected with
  | nil => exact fun _ ↦ rfl
  | cons p rejected ih =>
    intro h
    obtain ⟨e, he⟩ := complete_rejected (h p List.mem_cons_self)
    have hstep : ((complete p.1 p.2 : SessionCall T W).perform P trng storage st).2 = st := by
      rw [perform, he]
    rw [List.map_cons, run, hstep]
    exact ih fun q hq ↦ h q (List.mem_cons_of_mem p hq)

end SessionCall

/-- The answers in which keys are returned. -/
def SessionAnswer.keysIn (answers : List SessionAnswer) : List SessionAnswer :=
  answers.filter SessionAnswer.isKeys

/-- Where only refusals come behind keys, there are keys once at most. -/
theorem length_keysIn_le {answers : List SessionAnswer}
    (h : ∀ pre k post, answers = pre ++ .keys k :: post →
      ∀ a ∈ post, a = .refused .sessionAlreadyCompleted) :
    (SessionAnswer.keysIn answers).length ≤ 1 := by
  induction answers with
  | nil => exact Nat.zero_le 1
  | cons a answers ih =>
    have htail := ih fun pre k post heq ↦ h (a :: pre) k post (by rw [heq, List.cons_append])
    rw [SessionAnswer.keysIn, List.filter_cons]
    rcases a with msg | k | e
    · exact htail
    · have hrest : answers.filter SessionAnswer.isKeys = [] := by
        refine List.filter_eq_nil_iff.mpr fun a ha ↦ ?_
        rw [h [] k answers rfl a ha]
        exact Bool.false_ne_true
      rw [hrest]
      exact Nat.le_refl 1
    · exact htail

/-- **Rejected responses leave no mark.** In every state of a session, behind any responses that it
rejects before it computes a secret, completing does what it does without them. Whatever is called,
keys are returned once at most, and every call after them is told that the session is completed. -/
theorem handshake_survives (P : Primitives) (trng : HardwareTrng T) (storage : VaultStorage W) :
    (∀ (st : InitiatorState) (rejected : List (ResponseMessage × LongTermCert)),
      (∀ p ∈ rejected, st.Rejects P p.1 p.2) → ∀ response cert,
        InitiatorSession.complete P response cert (SessionCall.run P trng storage
            (rejected.map fun p ↦ .complete p.1 p.2) st).2
          = InitiatorSession.complete P response cert st) ∧
    ∀ (st : InitiatorState) (calls : List (SessionCall T W)),
      (SessionAnswer.keysIn (SessionCall.run P trng storage calls st).1).length ≤ 1 ∧
      ∀ pre k post, (SessionCall.run P trng storage calls st).1 = pre ++ .keys k :: post →
        ∀ a ∈ post, a = .refused .sessionAlreadyCompleted := by
  refine ⟨fun st rejected h response cert ↦ by rw [SessionCall.run_rejected rejected h],
    fun st calls ↦ ?_⟩
  have hafter : ∀ pre k post, (SessionCall.run P trng storage calls st).1 = pre ++ .keys k :: post →
      ∀ a ∈ post, a = .refused .sessionAlreadyCompleted :=
    fun pre k post ↦ SessionCall.run_after_keys calls
  exact ⟨length_keysIn_le hafter, hafter⟩

/-- A session that has sent its message. -/
def toySession : InitiatorState :=
  .initialised .brainpoolP256r1 (toyPair 0x11) (toyInit 0x11 0xA1)

/-- A forged response, of a version that there is not, and one that is signed with another key. -/
def forgedResponses : List (ResponseMessage × LongTermCert) :=
  [({ toyResponse 0x22 0x11 0xB0 with version := 0x02 }, toyCert 0xB0),
    (toyResponse 0x22 0x11 0xE7, toyCert 0xB0)]

theorem forgedResponses_rejected : ∀ p ∈ forgedResponses, toySession.Rejects toyPrimitives p.1 p.2 := by
  intro p hp
  rcases List.mem_cons.mp hp with rfl | hp
  · exact ⟨.malformedHandshake, by decide +kernel⟩
  · rw [List.mem_singleton.mp hp]
    exact ⟨.fingerprintMismatch, by decide +kernel⟩

/-- Behind both, bob's response gives the keys. -/
theorem handshake_survives_forged :
    InitiatorSession.complete toyPrimitives (toyResponse 0x22 0x11 0xB0) (toyCert 0xB0)
        (SessionCall.run toyPrimitives toyTrng toyVault
          (forgedResponses.map fun p ↦ .complete p.1 p.2) toySession).2
      = (.ok (toyKeys 0x33), .completed) :=
  ((handshake_survives toyPrimitives toyTrng toyVault).1 toySession forgedResponses
    forgedResponses_rejected _ _).trans (by decide +kernel)

end Galdralag.Session
