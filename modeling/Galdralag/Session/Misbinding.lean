import Galdralag.Session.Agreement

/-!
# Who the responder thinks it talks to

An initiator that completes knows who answered. The converse is weaker: the responder may hold the
same keys under a certificate of somebody else, because no signature and no derived key depends on
the initiator's identity. Whoever signs the initiator's ephemeral key as its own first message is
the responder's peer. What holds is that no agent can be drawn into this: a responder's peer is an
agent only if that agent sent a message with the very same ephemeral key.
-/

set_option linter.all false

namespace Galdralag.Session

open Fallible

variable {Agent T W : Type} {P : Primitives} {trng : HardwareTrng T} {storage : VaultStorage W}
  {owner : SessionCurve → Bytes → Option Agent} [DecidableEq Agent] {world : World Agent}

/-- **Peer agreement.** When an initiator holds keys under the certificate of an agent, that agent
holds them as a responder to the same ephemeral key; and if it does so under the certificate of an
agent, then that one has sent a message with this ephemeral key. -/
theorem peer_agreement (hP : P.Lawful) (h : Reachable P trng storage owner world) :
    ∀ a msg cert resp keys, Event.completed a msg cert resp keys ∈ world.events →
      ∀ b ∈ cert.ownedBy owner, ∃ key msg' cert' resp',
        Event.responded b key msg' cert' resp' keys ∈ world.events ∧
          msg'.ephemeralPublicKey = msg.ephemeralPublicKey ∧
          ∀ c ∈ cert'.ownedBy owner, ∃ key' msg'', Event.sent c key' msg'' ∈ world.events ∧
            msg''.ephemeralPublicKey = msg.ephemeralPublicKey := by
  intro a msg cert resp keys hcompleted b hb
  have hsound := h.sound hP
  obtain ⟨key, msg', cert', resp', hresponded, hepk⟩ := hsound.agrees _ hcompleted b hb
  refine ⟨key, msg', cert', resp', hresponded, hepk, fun c hc ↦ ?_⟩
  obtain ⟨key', msg'', hsent, -, hepk'⟩ := hsound.agrees _ hresponded c hc
  exact ⟨key', msg'', hsent, hepk'.trans hepk⟩

/-! ## A run with three keys -/

/-- Two agents. The third key of the run belongs to nobody. -/
inductive Party where
  | alice
  | bob
  deriving DecidableEq

/-- Curves whose points are the scalars written twice. The exchange adds the scalars bit by bit, and
a signature starts with four bytes of the key. -/
def toyCurve (c : SessionCurve) : CurvePrimitives where
  validScalar := fun a ↦ a.length = c.scalarLen
  publicKey := fun a ↦ 0x04 :: (a ++ a)
  validPoint := fun bs ↦ bs.length = c.publicKeyLen ∧ bs.head? = some 0x04
  diffieHellman := fun a point ↦ some (List.zipWith (· ^^^ ·) a ((point.drop 1).take c.scalarLen))
  signPrehash := fun a digest ↦ some (a.take 4 ++ digest.toBytes)
  verifyPrehash := fun vk digest sig ↦ sig = (vk.drop 1).take 4 ++ digest.toBytes

/-- Hashes that keep the first 32 bytes. -/
def toyPrimitives : Primitives where
  curve := toyCurve
  sha256 := .ofBytes 32
  hmacSha256 := fun _ data ↦ .ofBytes 32 data
  hkdfExpand := fun prk _ ↦ prk

theorem toyPrimitives_lawful : toyPrimitives.Lawful where
  diffieHellman_comm := by
    intro c a b ha hb
    have ha : a.length = c.scalarLen := of_decide_eq_true ha
    have hb : b.length = c.scalarLen := of_decide_eq_true hb
    change some (List.zipWith (· ^^^ ·) a ((b ++ b).take c.scalarLen)) =
      some (List.zipWith (· ^^^ ·) b ((a ++ a).take c.scalarLen))
    rw [List.take_left' hb, List.take_left' ha]
    exact congrArg some (List.zipWith_comm_of_comm fun x y ↦ UInt8.xor_comm x y)
  length_publicKey := by
    intro c a ha
    have ha : a.length = c.scalarLen := of_decide_eq_true ha
    change (a ++ a).length + 1 = _
    rw [List.length_append, ha]
    cases c <;> rfl
  head_publicKey := fun _ _ _ ↦ rfl
  validPoint_ne_nil := by
    rintro c bs h rfl
    have h := (of_decide_eq_true h).2
    cases h
  length_of_uncompressed := fun c bs h _ ↦ (of_decide_eq_true h).1

/-- A random generator that repeats the byte it holds. -/
def toyTrng : HardwareTrng UInt8 where
  fillBytes n t := (.ofBytes n (List.replicate n t), t)
  tryFillBytes n := fun t ↦ (.ok (.ofBytes n (List.replicate n t)), t)

/-- A vault that holds one signing key in every slot. -/
def toyVault : VaultStorage UInt8 where
  read k _ _ := .ok (sessionLtMagic ++ [0x01, 32] ++ List.replicate 32 k)
  write _ _ := .fail .unsupported

/-- The certificate of the key made of one byte. -/
def toyCert (k : UInt8) : LongTermCert where
  fingerprint := .truncated (toyPrimitives.sha256 (0x04 :: List.replicate 64 k)).toBytes
  curve := .brainpoolP256r1
  verifyingKey := .truncated (0x04 :: List.replicate 64 k)

/-- Key 0xA1 is alice's, key 0xB0 is bob's. -/
def toyOwner (c : SessionCurve) (vk : Bytes) : Option Party :=
  if c = .brainpoolP256r1 ∧ vk = 0x04 :: List.replicate 64 0xA1 then some .alice
  else if c = .brainpoolP256r1 ∧ vk = 0x04 :: List.replicate 64 0xB0 then some .bob
  else none

/-- A first message with the ephemeral key of one byte, signed with the key of another. -/
def toyInit (e k : UInt8) : InitMessage where
  version := initProtocolVersion
  curve := .brainpoolP256r1
  ephemeralPublicKey := .truncated (0x04 :: List.replicate 64 e)
  longTermFingerprint :=
    .truncated (encodeFingerprintHex (toyPrimitives.sha256 (0x04 :: List.replicate 64 k)))
  signature := .truncated (List.replicate 4 k ++ (toyPrimitives.sha256
    (initSignPreimage initProtocolVersion .brainpoolP256r1 (0x04 :: List.replicate 64 e))).toBytes)

/-- A response with the ephemeral key of one byte to that of another, signed with a key. -/
def toyResponse (r e k : UInt8) : ResponseMessage where
  version := respProtocolVersion
  curve := .brainpoolP256r1
  ephemeralPublicKey := .truncated (0x04 :: List.replicate 64 r)
  longTermFingerprint :=
    .truncated (encodeFingerprintHex (toyPrimitives.sha256 (0x04 :: List.replicate 64 k)))
  initiatorEphemeralPublicKey := .truncated (0x04 :: List.replicate 64 e)
  signature := .truncated (List.replicate 4 k ++ (toyPrimitives.sha256
    (responseSignPreimage respProtocolVersion .brainpoolP256r1 (0x04 :: List.replicate 64 r)
      (0x04 :: List.replicate 64 e))).toBytes)

/-- The key pair of one byte. -/
def toyPair (e : UInt8) : EphemeralKeyPair where
  curve := .brainpoolP256r1
  publicKey := .truncated (0x04 :: List.replicate 64 e)
  privateKey := List.replicate 32 e

/-- The key of one byte in the vault. -/
def toyKey (k : UInt8) : SessionLongTermSigningKey := ⟨.brainpoolP256r1, List.replicate 32 k⟩

/-- The session keys of a shared secret of one byte. -/
def toyKeys (x : UInt8) : SessionKeys where
  classicalEcdhIkmStorage := .ofBytes 48 (List.replicate 32 x)
  classicalEcdhIkmLen := 32
  profilePrkMaterial := .ofBytes 32 (List.replicate 32 x)
  payloadKeyI2r := .ofBytes 32 (List.replicate 32 x)
  payloadKeyR2i := .ofBytes 32 (List.replicate 32 x)
  gdssMaskKey := .ofBytes 32 (List.replicate 32 x)
  gdssSyncKey := .ofBytes 32 (List.replicate 32 x)
  gdssTimingKey := .ofBytes 32 (List.replicate 32 x)
  macKey := .ofBytes 32 (List.replicate 32 x)

/-- Alice has sent a message. -/
def sentWorld : World Party :=
  (World.start.setSession .alice 0 (.initialised .brainpoolP256r1 (toyPair 0x11) (toyInit 0x11 0xA1))).record
    (.sent .alice (toyKey 0xA1) (toyInit 0x11 0xA1))

/-- Bob has answered alice's ephemeral key, signed with the key that belongs to nobody. -/
def respondedWorld : World Party :=
  sentWorld.record (.responded .bob (toyKey 0xB0) (toyInit 0x11 0xE7) (toyCert 0xE7)
    (toyResponse 0x22 0x11 0xB0) (toyKeys 0x33))

/-- Alice has completed with bob's answer. -/
def misboundWorld : World Party :=
  (respondedWorld.setSession .alice 0 .completed).record (.completed .alice (toyInit 0x11 0xA1)
    (toyCert 0xB0) (toyResponse 0x22 0x11 0xB0) (toyKeys 0x33))

theorem owns_alice : Owns toyPrimitives toyOwner .alice (toyKey 0xA1) := by
  have howner : toyOwner (toyKey 0xA1).curve (verifyingSec1 toyPrimitives (toyKey 0xA1)) = some .alice := by
    decide +kernel
  exact fun a ha ↦ (Option.some.inj (howner.symm.trans ha)).symm

theorem owns_bob : Owns toyPrimitives toyOwner .bob (toyKey 0xB0) := by
  have howner : toyOwner (toyKey 0xB0).curve (verifyingSec1 toyPrimitives (toyKey 0xB0)) = some .bob := by
    decide +kernel
  exact fun a ha ↦ (Option.some.inj (howner.symm.trans ha)).symm

theorem toyCert_nobody : (toyCert 0xE7).ownedBy toyOwner = none := by decide +kernel

theorem toyCert_bob : (toyCert 0xB0).ownedBy toyOwner = some .bob := by decide +kernel

theorem sentWorld_reachable : Reachable toyPrimitives toyTrng toyVault toyOwner sentWorld := by
  have hkey : loadSigningKey toyPrimitives toyVault 0xA1 0 .brainpoolP256r1 = .ok (toyKey 0xA1) := by
    decide +kernel
  have hrun : init toyPrimitives toyTrng toyVault .brainpoolP256r1 0 0xA1
      ((World.start : World Party).sessions .alice 0, 0x11) = (.ok (toyInit 0x11 0xA1),
        (.initialised .brainpoolP256r1 (toyPair 0x11) (toyInit 0x11 0xA1), 0x11)) := by
    decide +kernel
  exact Reachable.start.step (Step.init hkey owns_alice hrun)

/-- What alice's message signs is what bob verifies under the other key. -/
theorem sent_preimage {curve : SessionCurve} {vk m : Bytes}
    (h : (Event.sent Party.alice (toyKey 0xA1) (toyInit 0x11 0xA1)).Signs toyPrimitives curve vk m) :
    m = (toyInit 0x11 0xE7).preimage := h.2.2

theorem respondedWorld_reachable : Reachable toyPrimitives toyTrng toyVault toyOwner respondedWorld := by
  have hkey : loadSigningKey toyPrimitives toyVault 0xB0 0 (toyInit 0x11 0xE7).curve
      = .ok (toyKey 0xB0) := by
    decide +kernel
  have hpresented : Presented toyPrimitives toyOwner sentWorld.events (toyCert 0xE7)
      (toyInit 0x11 0xE7).preimage (toyInit 0x11 0xE7).signature.toBytes := by
    constructor
    · intro a ha
      rw [toyCert_nobody] at ha
      cases ha
    · rintro e he curve vk m hsigns -
      rw [List.mem_singleton.mp he] at hsigns
      exact sent_preimage hsigns
  have hrun : respond toyPrimitives toyTrng toyVault (toyInit 0x11 0xE7) 0 (toyCert 0xE7) 0xB0 0x22
      = (.ok (toyResponse 0x22 0x11 0xB0, toyKeys 0x33), 0x22) := by
    decide +kernel
  exact sentWorld_reachable.step (Step.respond hkey owns_bob hpresented hrun)

theorem misboundWorld_reachable : Reachable toyPrimitives toyTrng toyVault toyOwner misboundWorld := by
  have hsession : respondedWorld.sessions .alice 0 =
      .initialised .brainpoolP256r1 (toyPair 0x11) (toyInit 0x11 0xA1) := rfl
  have hpresented : Presented toyPrimitives toyOwner respondedWorld.events (toyCert 0xB0)
      (toyResponse 0x22 0x11 0xB0).preimage (toyResponse 0x22 0x11 0xB0).signature.toBytes := by
    constructor
    · rintro a - -
      refine ⟨_, List.mem_append_right _ (List.mem_singleton_self _), _, ⟨?_, ?_, rfl⟩, rfl⟩
      · rfl
      · decide +kernel
    · rintro e he curve vk m hsigns hdigest
      rcases List.mem_append.mp he with he | he
      · rw [List.mem_singleton.mp he] at hsigns
        rw [sent_preimage hsigns] at hdigest
        exact absurd hdigest (by decide +kernel)
      · rw [List.mem_singleton.mp he] at hsigns
        exact hsigns.2.2
  have hrun : complete toyPrimitives (toyResponse 0x22 0x11 0xB0) (toyCert 0xB0)
      (respondedWorld.sessions .alice 0) = (.ok (toyKeys 0x33), .completed) := by
    rw [hsession]
    decide +kernel
  exact respondedWorld_reachable.step (Step.complete hsession hpresented hrun)

/-- In this run alice and bob hold equal keys. -/
theorem handshake_agreement_misbound :
    ∃ key msg' cert' resp', Event.responded Party.bob key msg' cert' resp' (toyKeys 0x33)
      ∈ misboundWorld.events ∧ msg'.ephemeralPublicKey = (toyInit 0x11 0xA1).ephemeralPublicKey :=
  (handshake_agreement toyPrimitives_lawful misboundWorld_reachable).1 _ _ _ _ _
    (List.mem_append_right _ (List.mem_singleton_self _)) _ toyCert_bob

/-- Bob's peer in this run need not be an agent, and it is none. -/
theorem peer_agreement_misbound :
    ∃ key msg' cert' resp', Event.responded Party.bob key msg' cert' resp' (toyKeys 0x33)
        ∈ misboundWorld.events ∧
      msg'.ephemeralPublicKey = (toyInit 0x11 0xA1).ephemeralPublicKey ∧
      ∀ c ∈ cert'.ownedBy toyOwner, ∃ key' msg'', Event.sent c key' msg'' ∈ misboundWorld.events ∧
        msg''.ephemeralPublicKey = (toyInit 0x11 0xA1).ephemeralPublicKey :=
  peer_agreement toyPrimitives_lawful misboundWorld_reachable _ _ _ _ _
    (List.mem_append_right _ (List.mem_singleton_self _)) _ toyCert_bob

/-- **Identity misbinding.** Alice completes under bob's certificate, and bob holds these very keys
under the certificate of a key that is not hers: whoever owns it has signed her ephemeral key as its
own. -/
theorem misbinding :
    Reachable toyPrimitives toyTrng toyVault toyOwner misboundWorld ∧
      Event.completed Party.alice (toyInit 0x11 0xA1) (toyCert 0xB0) (toyResponse 0x22 0x11 0xB0)
        (toyKeys 0x33) ∈ misboundWorld.events ∧
      (toyCert 0xB0).ownedBy toyOwner = some .bob ∧
      (toyCert 0xA1).ownedBy toyOwner = some .alice ∧
      ∀ key msg cert resp keys, Event.responded Party.bob key msg cert resp keys ∈ misboundWorld.events →
        keys = toyKeys 0x33 ∧ cert = toyCert 0xE7 ∧ cert.ownedBy toyOwner = none := by
  refine ⟨misboundWorld_reachable, List.mem_append_right _ (List.mem_singleton_self _), toyCert_bob,
    by decide +kernel, ?_⟩
  intro key msg cert resp keys hmem
  rcases List.mem_append.mp hmem with hmem | hmem
  · rcases List.mem_append.mp hmem with hmem | hmem
    · exact absurd (List.mem_singleton.mp hmem) (by rintro ⟨⟩)
    · obtain ⟨-, -, -, rfl, -, rfl⟩ := Event.responded.inj (List.mem_singleton.mp hmem)
      exact ⟨rfl, rfl, toyCert_nobody⟩
  · exact absurd (List.mem_singleton.mp hmem) (by rintro ⟨⟩)

end Galdralag.Session
