import Galdralag.Host.MessageRecipients

/-!
# Who reads a message

A message for a group opens for a certificate with the secret part of a subkey of one of the granted
members, and for no other. What comes out is what was put in, under the profile that it was put in
with, and the log gets a row about it. For the others nothing comes out and nothing is logged.

Two kinds of message do not come back: the profile of one name is never opened, and Mode A with a
nonce that starts like an inner blob is taken for one.
-/

set_option linter.all false

namespace Galdralag.Host

open Fallible Cipher

variable {Time Cert Key Seed : Type} {env : MessageEnv Time Cert Key Seed}

/-- What is documented of the library: what was encrypted to subkeys comes out with the secret part
of one of them, and only with that. -/
structure OpenPgp.Faithful (pgp : OpenPgp Cert Key Seed) : Prop where
  opens : ∀ {seed recipients plain ct cert}, pgp.encrypt seed recipients plain = .ok ct →
    (∃ r ∈ recipients, r.key ∈ pgp.secretKeys cert) → pgp.decrypt cert ct = .ok plain
  needs_key : ∀ {seed recipients plain ct cert plain'},
    pgp.encrypt seed recipients plain = .ok ct → pgp.decrypt cert ct = .ok plain' →
    ∃ r ∈ recipients, r.key ∈ pgp.secretKeys cert

/-! ## Sealing and opening -/

/-- The key for Mode A is read from a request to open as it was from the request to seal. -/
theorem cessKey_of_pair {body : EncryptBody} {cess : Option (Block 32 × Block 12)}
    (h : cessPair env body = .ok cess) :
    cessKey env body.cessKOuterHex = .ok (cess.map Prod.fst) := by
  rw [cessPair] at h
  rcases hk : body.cessKOuterHex with _ | kh
  · rcases hn : body.cessNonceHex with _ | nh
    · rw [hk, hn] at h
      rw [← Except.ok.inj h]
      rfl
    · rw [hk, hn] at h
      cases h
  · rcases hn : body.cessNonceHex with _ | nh
    · rw [hk, hn] at h
      cases h
    · rw [hk, hn] at h
      obtain ⟨k, hkey, h⟩ := except_bind_eq_ok.mp h
      obtain ⟨nonce, -, h⟩ := except_bind_eq_ok.mp h
      rw [← Except.ok.inj h, cessKey, hkey]
      rfl

/-- **Sealing and opening.** A sealed message opens to the message, under the profile that sealed
it. -/
theorem open_sealMessage (hP : AeadRecovers env.primitives) {tsUnix : UInt64} {prk : Block 32}
    {profile : Cipher.CipherProfile} {plain sealed : Bytes} {cess : Option (Block 32 × Block 12)}
    {getProfile : String → Option Cipher.CipherProfile}
    (hprofile : getProfile profile.name = some profile)
    (hname : profile.name ≠ profileNameHighAssurance)
    (hnonce : ∀ k nonce, cess = some (k, nonce) → ¬ magic <+: nonce.toBytes)
    (h : sealMessage env tsUnix prk profile plain cess = .ok sealed) :
    openPlaintextFromOpenpgpLiteral env.primitives sealed (cess.map Prod.fst) getProfile
      = .ok (plain, profile.name) := by
  obtain ⟨inner, hinner, h⟩ := except_bind_eq_ok.mp h
  have henvelope : isCipherProfileEnvelope inner = true := by
    obtain ⟨ct, raw, -, -, -, rfl⟩ := sealPlaintext_eq_ok.mp hinner
    exact isCipherProfileEnvelope_iff.mpr (List.prefix_append _ _)
  have hopen := open_sealed hP hprofile hname hinner
  rcases cess with _ | ⟨k, nonce⟩
  · obtain rfl : inner = sealed := Except.ok.inj h
    rw [openPlaintextFromOpenpgpLiteral, if_pos henvelope]
    exact hopen
  · rw [Option.map_some, open_wrapped hP.chacha henvelope h (hnonce k nonce rfl)]
    exact hopen

/-! ## What a decryption comes to -/

section Opening

variable {fault : Option SqlError} {now : Time} {request : DecryptBody} {reader : Daemon}
  {identity : Identity Time ContactColumns} {cert : Cert} {ct : Bytes}

/-- A text that OpenPGP yields and that opens is what the decryption comes to. -/
theorem openMsg_of_opens {inner plain : Bytes} {pname : String} {cessKOuter : Option (Block 32)}
    {store : ProfileStore} (hdecode : env.base64.decode request.ciphertextB64 = .ok ct)
    (hcontact : resolveContactIdentifier env.clock reader.db request.recipient = .ok identity)
    (hcert : env.pgp.identityToCert identity = .ok cert)
    (hinner : env.pgp.decrypt cert ct = .ok inner)
    (hkey : cessKey env request.cessKOuterHex = .ok cessKOuter)
    (hstore : ProfileStore.load fault reader.profiles = .ok store)
    (hplain : openPlaintextFromOpenpgpLiteral env.primitives inner cessKOuter store.registry.get
      = .ok (plain, pname)) :
    ∃ entry : AuditEntry Time, entry.action = .decrypt ∧ entry.subject = some identity.id ∧
      openMsg env fault now request reader = .ok ⟨plain, pname, entry⟩ := by
  rw [openMsg, hdecode, hcontact]
  refine ⟨_, ?_, ?_, except_bind_eq_ok.mpr ⟨ct, rfl, except_bind_eq_ok.mpr ⟨identity, rfl,
    except_bind_eq_ok.mpr ⟨cert, hcert, except_bind_eq_ok.mpr ⟨inner,
    mapError_eq_ok_iff.mpr hinner, except_bind_eq_ok.mpr ⟨cessKOuter, mapError_eq_ok_iff.mpr hkey,
    except_bind_eq_ok.mpr ⟨store, mapError_eq_ok_iff.mpr hstore, except_bind_eq_ok.mpr
    ⟨(plain, pname), mapError_eq_ok_iff.mpr hplain, rfl⟩⟩⟩⟩⟩⟩⟩⟩
  · rfl
  · rfl

/-- Where OpenPGP yields nothing, every reason is reported as one. -/
theorem openMsg_of_closed {e : String}
    (hdecode : env.base64.decode request.ciphertextB64 = .ok ct)
    (hcontact : resolveContactIdentifier env.clock reader.db request.recipient = .ok identity)
    (hcert : env.pgp.identityToCert identity = .ok cert)
    (hclosed : env.pgp.decrypt cert ct = .error e) :
    openMsg env fault now request reader = .error (.galdra (.config decryptionFailed)) := by
  rw [openMsg, hdecode, hcontact]
  simp only [Except.mapError, ok_bind, hcert, hclosed]
  rfl

end Opening

/-! ## Readers -/

section Readers

variable [LT Time] [DecidableLT Time]

/-- A request to decrypt what was encrypted for another request, at a daemon that has the same
profile, for the contact that is found there. -/
structure MessageEnv.Returns (env : MessageEnv Time Cert Key Seed) (fault : Option SqlError)
    (profiles : UserProfiles) (body : EncryptBody) (out : List Char) (reader : Daemon)
    (request : DecryptBody) (identity : Identity Time ContactColumns) (cert : Cert) : Prop where
  ciphertext : request.ciphertextB64 = out
  key : request.cessKOuterHex = body.cessKOuterHex
  profile : ∃ sent read, ProfileStore.load fault profiles = .ok sent ∧
    ProfileStore.load none reader.profiles = .ok read ∧
    read.registry.get (body.profile.getD "standard")
      = sent.registry.get (body.profile.getD "standard")
  contact : resolveContactIdentifier env.clock reader.db request.recipient = .ok identity
  certificate : env.pgp.identityToCert identity = .ok cert

end Readers

/-! ## The reader of a group of one -/

/-- The packets of the bench open with one of the subkeys they are for. -/
theorem openPackets_flatMap (secretKeys : Bytes) (recipients : List (Recipient UInt8))
    (plain : Bytes) (found : Bool) :
    openPackets secretKeys found (recipients.flatMap (fun r ↦ [1, r.key]) ++ 0 :: plain) =
      if (found || recipients.any fun r ↦ secretKeys.contains r.key) = true then .ok plain
      else .error "could not decrypt OpenPGP session key" := by
  induction recipients generalizing found with
  | nil =>
    rw [List.any_nil, Bool.or_false]
    rfl
  | cons r recipients ih =>
    rw [List.flatMap_cons, List.append_assoc, List.any_cons, ← Bool.or_assoc, ← ih]
    rfl

theorem OpenPgp.bench_faithful : OpenPgp.bench.Faithful where
  opens {seed recipients plain ct cert} henc hkey := by
    obtain ⟨r, hr, hkey⟩ := hkey
    have hany : (recipients.any fun r ↦ List.contains cert r.key) = true :=
      List.any_eq_true.mpr ⟨r, hr, List.contains_iff_mem.mpr hkey⟩
    obtain rfl := Except.ok.inj henc
    change openPackets cert false _ = _
    rw [openPackets_flatMap, hany]
    rfl
  needs_key {seed recipients plain ct cert plain'} henc hdec := by
    obtain rfl := Except.ok.inj henc
    change openPackets cert false _ = _ at hdec
    rw [openPackets_flatMap, Bool.false_or] at hdec
    split_ifs at hdec with hany
    obtain ⟨r, hr, hkey⟩ := List.any_eq_true.mp hany
    exact ⟨r, hr, List.contains_iff_mem.mp hkey⟩

end Galdralag.Host
