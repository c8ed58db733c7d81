import Galdralag.Session.Protocol

/-!
# Handshakes over a network

Any number of agents hold any number of initiator sessions and answer any messages. The network is
the environment: it decides which call comes next and which bytes the call gets, so messages may be
dropped, repeated, reordered and made up. It also chooses the state of the random generator and the
contents of the vault at every call.

What it cannot do is sign for a long-term key that belongs to an agent. `owner` says which agent a
verifying key belongs to, if to any, and a successful call that verified a signature under such a
key comes after a call of the owner that signed the same digest. No two of the messages that are
signed and verified have the same digest.
-/

set_option linter.all false

namespace Galdralag.Session

open Fallible

variable {Agent T W : Type}

/-- What went well: messages that were sent, answered and completed. -/
inductive Event (Agent : Type) where
  | sent (agent : Agent) (key : SessionLongTermSigningKey) (message : InitMessage)
  | responded (agent : Agent) (key : SessionLongTermSigningKey) (message : InitMessage)
      (peer : LongTermCert) (response : ResponseMessage) (keys : SessionKeys)
  | completed (agent : Agent) (message : InitMessage) (peer : LongTermCert)
      (response : ResponseMessage) (keys : SessionKeys)

/-- The initiator sessions of all agents, and what has happened. -/
structure World (Agent : Type) where
  sessions : Agent → ℕ → InitiatorState
  events : List (Event Agent)

variable (P : Primitives) (trng : HardwareTrng T) (storage : VaultStorage W)
  (owner : SessionCurve → Bytes → Option Agent)

/-- The agent the key of a certificate belongs to. -/
def LongTermCert.ownedBy (cert : LongTermCert) : Option Agent :=
  owner cert.curve cert.verifyingKey.toBytes

/-- An agent uses its own keys, or keys that belong to nobody. -/
def Owns (agent : Agent) (key : SessionLongTermSigningKey) : Prop :=
  ∀ a ∈ owner key.curve (verifyingSec1 P key), a = agent

/-- The event released a signature over `m` that verifies under an encoded key. -/
def Event.Signs (curve : SessionCurve) (verifyingKey m : Bytes) : Event Agent → Prop
  | .sent _ key msg => curve = key.curve ∧ verifyingKey = verifyingSec1 P key ∧
      m = initSignPreimage msg.version msg.curve msg.ephemeralPublicKey.toBytes
  | .responded _ key _ _ resp _ => curve = key.curve ∧ verifyingKey = verifyingSec1 P key ∧
      m = responseSignPreimage resp.version resp.curve resp.ephemeralPublicKey.toBytes
        resp.initiatorEphemeralPublicKey.toBytes
  | .completed .. => False

/-- A signature that is presented: nobody signs for an agent, and no digest belongs to two messages.
-/
structure Presented (events : List (Event Agent)) (cert : LongTermCert) (preimage sig : Bytes) :
    Prop where
  unforged : ∀ a ∈ cert.ownedBy owner, verifyWithCert P cert preimage sig = .ok () →
    ∃ e ∈ events, ∃ m, e.Signs P cert.curve cert.verifyingKey.toBytes m ∧ P.sha256 m = P.sha256 preimage
  collisionFree : ∀ e ∈ events, ∀ curve verifyingKey m, e.Signs P curve verifyingKey m →
    P.sha256 m = P.sha256 preimage → m = preimage

/-- What the signature of a response is verified against. -/
def ResponseMessage.preimage (resp : ResponseMessage) : Bytes :=
  responseSignPreimage respProtocolVersion resp.curve resp.ephemeralPublicKey.toBytes
    resp.initiatorEphemeralPublicKey.toBytes

/-- What the signature of a first message is verified against. -/
def InitMessage.preimage (msg : InitMessage) : Bytes :=
  initSignPreimage msg.version msg.curve msg.ephemeralPublicKey.toBytes

variable [DecidableEq Agent]

/-- The world after a session of an agent has moved on. -/
def World.setSession (world : World Agent) (agent : Agent) (sid : ℕ) (st : InitiatorState) :
    World Agent :=
  { world with sessions := fun a s ↦ if a = agent ∧ s = sid then st else world.sessions a s }

/-- The world after one more event. -/
def World.record (world : World Agent) (e : Event Agent) : World Agent :=
  { world with events := world.events ++ [e] }

/-- One call of one agent. -/
inductive Step (world : World Agent) : World Agent → Prop
  | init {agent : Agent} {sid : ℕ} {curve : SessionCurve} {slot : UInt32} {t t' : T} {w : W}
      {key : SessionLongTermSigningKey} {msg : InitMessage} {st : InitiatorState}
      (hkey : loadSigningKey P storage w slot curve = .ok key) (howns : Owns P owner agent key)
      (hrun : Session.init P trng storage curve slot w (world.sessions agent sid, t) =
        (.ok msg, (st, t'))) :
      Step world ((world.setSession agent sid st).record (.sent agent key msg))
  | initFailed {agent : Agent} {sid : ℕ} {curve : SessionCurve} {slot : UInt32} {t t' : T} {w : W}
      {e : EphemeralSessionError} {st : InitiatorState}
      (hrun : Session.init P trng storage curve slot w (world.sessions agent sid, t) =
        (.error e, (st, t'))) :
      Step world (world.setSession agent sid st)
  | complete {agent : Agent} {sid : ℕ} {curve : SessionCurve} {kp : EphemeralKeyPair}
      {msg : InitMessage} {response : ResponseMessage} {cert : LongTermCert} {keys : SessionKeys}
      {st : InitiatorState}
      (hsession : world.sessions agent sid = .initialised curve kp msg)
      (hpresented : Presented P owner world.events cert response.preimage response.signature.toBytes)
      (hrun : Session.complete P response cert (world.sessions agent sid) = (.ok keys, st)) :
      Step world ((world.setSession agent sid st).record (.completed agent msg cert response keys))
  | completeFailed {agent : Agent} {sid : ℕ} {response : ResponseMessage} {cert : LongTermCert}
      {e : EphemeralSessionError} {st : InitiatorState}
      (hrun : Session.complete P response cert (world.sessions agent sid) = (.error e, st)) :
      Step world (world.setSession agent sid st)
  | respond {agent : Agent} {msg : InitMessage} {slot : UInt32} {cert : LongTermCert} {t t' : T}
      {w : W} {key : SessionLongTermSigningKey} {response : ResponseMessage} {keys : SessionKeys}
      (hkey : loadSigningKey P storage w slot msg.curve = .ok key) (howns : Owns P owner agent key)
      (hpresented : Presented P owner world.events cert msg.preimage msg.signature.toBytes)
      (hrun : Session.respond P trng storage msg slot cert w t = (.ok (response, keys), t')) :
      Step world (world.record (.responded agent key msg cert response keys))
  | respondFailed {agent : Agent} {msg : InitMessage} {slot : UInt32} {cert : LongTermCert} {t t' : T}
      {w : W} {e : EphemeralSessionError}
      (hrun : Session.respond P trng storage msg slot cert w t = (.error e, t')) : Step world world

/-- Before the first call. -/
def World.start : World Agent := ⟨fun _ _ ↦ .new, []⟩

/-- The worlds that calls lead to. -/
inductive Reachable : World Agent → Prop
  | start : Reachable .start
  | step {world world' : World Agent} (h : Reachable world)
      (hstep : Step P trng storage owner world world') : Reachable world'

end Galdralag.Session
