import Galdralag.OpenPgp.Backend
import Mathlib.Data.List.DropRight

/-!
# Dispatching commands

The card session holds three verification flags and the bytes of a response that did not fit into
one answer. `handleApdu` runs one command against the session and the backend.

A handler that returns early with a status word is a computation that fails with that response, so
the outcome of a handler tells a command that was carried out from one that was refused. A session
also records what it does, in events that no handler reads.
-/

set_option linter.all false

namespace Galdralag.OpenPgp

/-! ## The card session -/

/-- Card session state. -/
structure CardState where
  /-- User PIN (PW1) verified for signing. -/
  pw1VerifiedSign : Bool
  /-- User PIN (PW1) verified for other commands. -/
  pw1VerifiedOther : Bool
  /-- Admin PIN (PW3) verified. -/
  pw3Verified : Bool
  chainBuffer : Vec 2048
  /-- Response bytes for GET RESPONSE. -/
  responseBuffer : Vec 2048
  /-- How many of them were sent. -/
  responseOffset : ℕ
  /-- Key references of MANAGE SECURITY ENVIRONMENT. -/
  mseDecKeyRef : Option UInt8
  mseSigKeyRef : Option UInt8
  mseAutKeyRef : Option UInt8
  deriving DecidableEq

namespace CardState

/-- New session state: no PIN verified. -/
def new : CardState := ⟨false, false, false, .empty, .empty, 0, none, none, none⟩

/-- Reset all verification flags and buffers. -/
def reset (s : CardState) : CardState :=
  { s with
    pw1VerifiedSign := false, pw1VerifiedOther := false, pw3Verified := false,
    chainBuffer := .empty, responseBuffer := .empty, responseOffset := 0,
    mseDecKeyRef := none, mseSigKeyRef := none, mseAutKeyRef := none }

@[simp] theorem reset_eq (s : CardState) : s.reset = new := rfl

/-- The response bytes that have not been sent yet. -/
def pending (s : CardState) : Bytes := s.responseBuffer.toBytes.drop s.responseOffset

end CardState

/-- What a session did. -/
inductive SessionEvent where
  /-- A backend call, and whether it succeeded. -/
  | call (c : BackendCall) (ok : Bool)
  | reset
  /-- Response data was kept for GET RESPONSE. -/
  | kept (data : Bytes)
  /-- GET RESPONSE sent a part of it. -/
  | fetched (chunk : Bytes)
  deriving DecidableEq

/-- A card session over a backend state, with the record of what it did, oldest first. -/
structure Session (β : Type) where
  card : CardState
  backend : β
  events : List SessionEvent

/-- Handlers end with a response; ending early is failing with one. -/
abbrev Handler (β : Type) := Fallible (Session β) ResponseApdu

section Handlers

variable {β : Type}

/-- Answer with a status word and stop. -/
def refuse {α : Type} (sw : StatusWord) : Handler β α := .fail (.error sw)

/-- Stop with a status word unless `p` holds. -/
def demand (p : Prop) [Decidable p] (sw : StatusWord) : Handler β PUnit := .require p (.error sw)

/-- Stop with a status word unless the session has the flag. -/
def demandFlag (flag : CardState → Bool) (sw : StatusWord) : Handler β PUnit := do
  let verified ← .gets fun s ↦ flag s.card
  demand (verified = true) sw

/-- Update the card state. -/
def setCard (f : CardState → CardState) : Handler β PUnit :=
  .modify fun s ↦ { s with card := f s.card }

/-- The response to a failed backend call. -/
def mapErr (e : OpenPgpBackendError) : ResponseApdu := .error e.toStatusWord

/-- The session after performing a call with the given result. -/
def Session.performed (s : Session β) (c : BackendCall) (ok : Bool) (b : β) : Session β :=
  { s with backend := b, events := s.events ++ [.call c ok] }

/-- Perform a backend call; an error is answered with its status word. -/
def call (bk : OpenPgpBackend β) (c : BackendCall) : Handler β c.Result := fun s ↦
  match bk.perform c s.backend with
  | (.ok a, b) => (.ok a, s.performed c true b)
  | (.error e, b) => (.error (mapErr e), s.performed c false b)

/-- The two ways a call ends. -/
theorem call_cases (bk : OpenPgpBackend β) (c : BackendCall) (s : Session β) :
    (∃ a b, call bk c s = (.ok a, s.performed c true b)) ∨
      ∃ e b, call bk c s = (.error e, s.performed c false b) := by
  rw [call]
  rcases bk.perform c s.backend with ⟨e | a, b⟩
  · exact .inr ⟨mapErr e, b, rfl⟩
  · exact .inl ⟨a, b, rfl⟩

/-- Keep response data of which `sent` bytes go out now. -/
def keep (buffer : Vec 2048) (sent : ℕ) : Handler β PUnit :=
  .modify fun s ↦ { s with
    card := { s.card with responseBuffer := buffer, responseOffset := sent }
    events := s.events ++ [.kept buffer.toBytes] }

/-- Send the next part of the response data. -/
def fetch (chunk : Bytes) (sent : ℕ) : Handler β PUnit :=
  .modify fun s ↦ { s with
    card := { s.card with responseOffset := s.card.responseOffset + sent }
    events := s.events ++ [.fetched chunk] }

/-- Read the backend; an error is answered with its status word. -/
def ask {α : Type} (f : β → Except OpenPgpBackendError α) : Handler β α :=
  .reading fun s ↦ (f s.backend).mapError mapErr

/-- Record a security-relevant event with the backend. -/
def logEvent (bk : OpenPgpBackend β) (code : UInt32) : Handler β PUnit :=
  .modify fun s ↦ { s with backend := bk.logEvent code s.backend }

/-- Continue with a value, or stop with a status word when there is none. -/
def orRefuse {α : Type} (o : Option α) (sw : StatusWord) : Handler β α :=
  match o with
  | some a => pure a
  | none => refuse sw

/-! ## Instructions -/

/-- The instructions of the card application. -/
inductive Instruction where
  | select
  | verify
  | changeReference
  | pso
  | internalAuth
  | getResponse
  | getData
  | putData
  | generateKey
  | resetRetryCounter
  | getChallenge
  | manageSecurityEnvironment
  deriving DecidableEq, Repr

/-- The instruction of an instruction byte. -/
def Instruction.ofByte (ins : UInt8) : Option Instruction :=
  if ins = 0xA4 then some .select
  else if ins = 0x20 then some .verify
  else if ins = 0x24 then some .changeReference
  else if ins = 0x2A then some .pso
  else if ins = 0x88 then some .internalAuth
  else if ins = 0xC0 then some .getResponse
  else if ins = 0xCA then some .getData
  else if ins = 0xDA ∨ ins = 0xDB then some .putData
  else if ins = 0x47 then some .generateKey
  else if ins = 0x2C then some .resetRetryCounter
  else if ins = 0x84 then some .getChallenge
  else if ins = 0x22 then some .manageSecurityEnvironment
  else none

/-! ## Responses longer than one answer -/

/-- Answer with `data`, keeping what exceeds the expected length for GET RESPONSE. -/
def chunkResponse (cmd : CommandApdu) (data : Vec 512) : Handler β ResponseApdu := do
  let lim := cmd.leLimit
  if data.length ≤ lim then pure (.ok data)
  else
    let buffer : Vec 2048 := .truncated data.toBytes
    let take := min buffer.length lim
    keep buffer take
    let remaining := buffer.length - take
    let n := if remaining > 255 then 0xFF else UInt8.ofNat remaining
    pure (.withStatus (.truncated (buffer.toBytes.take take)) (.moreDataAvailable n))

/-- GET RESPONSE: the next part of a kept response. -/
def handleGetResponse (cmd : CommandApdu) : Handler β ResponseApdu := do
  let lim := cmd.leLimit
  let st ← .gets fun s ↦ s.card
  let remaining := st.responseBuffer.length - st.responseOffset
  demand (remaining ≠ 0) .wrongParametersP1P2
  let take := min remaining lim
  let chunk ← orRefuse (Vec.ofBytes? (st.pending.take take)) .executionError
  fetch chunk.toBytes take
  let left := remaining - take
  if left > 0 then
    pure (.withStatus chunk (.moreDataAvailable (UInt8.ofNat (min left 255))))
  else
    setCard fun st ↦ { st with responseBuffer := .empty, responseOffset := 0 }
    pure (.ok chunk)

/-! ## Commands without secrets -/

/-- A PIN without the padding bytes at its end. -/
def trimOpenpgpPinPadding (buf : Bytes) : Bytes := buf.rdropWhile (· == 0xFF)

theorem length_trimOpenpgpPinPadding_le (buf : Bytes) :
    (trimOpenpgpPinPadding buf).length ≤ buf.length :=
  (List.rdropWhile_prefix _ _).length_le

/-- SELECT by application identifier. -/
def handleSelect (bk : OpenPgpBackend β) (cmd : CommandApdu) : Handler β ResponseApdu := do
  demand (cmd.p1 = 0x04 ∧ (cmd.p2 = 0x00 ∨ cmd.p2 = 0x04)) .wrongParametersP1P2
  demand (aidMatchesOpenpgp cmd.data.toBytes = true) .fileNotFound
  logEvent bk 0xA40001
  pure .okEmpty

/-- GET CHALLENGE: up to 64 random bytes. -/
def handleGetChallenge (bk : OpenPgpBackend β) (cmd : CommandApdu) : Handler β ResponseApdu := do
  demand (cmd.p1 = 0x00 ∧ cmd.p2 = 0x00) .wrongParametersP1P2
  let l ← orRefuse cmd.le .wrongLength
  demand (l.toNat ≠ 0 ∧ l.toNat ≤ 64) .wrongLength
  let bytes ← Fallible.orElse (call bk (.getChallenge l.toNat)) (.error .executionError)
  let out ← orRefuse (Vec.ofBytes? bytes.toBytes) .executionError
  pure (.ok out)

/-- The key reference of a MANAGE SECURITY ENVIRONMENT command. -/
def parseMseKeyRef : Bytes → Option UInt8
  | 0x83 :: 0x01 :: k :: _ => some k
  | _ => none

/-- MANAGE SECURITY ENVIRONMENT: choose a key reference for a slot. -/
def handleManageSecurityEnvironment (cmd : CommandApdu) : Handler β ResponseApdu := do
  demand (cmd.p1 = 0x41) .conditionsNotSatisfied
  let keyRef ← orRefuse (parseMseKeyRef cmd.data.toBytes) .incorrectParameters
  if cmd.p2 = 0xB6 then setCard fun st ↦ { st with mseSigKeyRef := some keyRef }
  else if cmd.p2 = 0xB8 then setCard fun st ↦ { st with mseDecKeyRef := some keyRef }
  else if cmd.p2 = 0xA4 then setCard fun st ↦ { st with mseAutKeyRef := some keyRef }
  else refuse .wrongParametersP1P2
  pure .okEmpty

/-- Answer for an object that does not fit into a response. -/
def tooLong : OpenPgpBackendError := .status .executionError

/-- Append an object to a response under construction. -/
def putTlv (tag : UInt16) (value : Bytes) (out : Vec 512) :
    Except OpenPgpBackendError (Vec 512) :=
  match encodeTlv tag value out with
  | some out => .ok out
  | none => .error tooLong

/-- The data of one object; some are assembled here. -/
def doTag (bk : OpenPgpBackend β) (tag : UInt16) (b : β) :
    Except OpenPgpBackendError (Vec 512) := do
  if tag = 0x004F then
    match Vec.ofBytes? (bk.aidBytes b) with
    | some out => .ok out
    | none => .error tooLong
  else if tag = 0x6E then
    let buf ← putTlv 0x4F (bk.aidBytes b) .empty
    let buf ← putTlv 0xC0 extendedCapabilitiesDefault buf
    putTlv 0x5F52 atrOpenpgpProfile buf
  else if tag = 0x65 then
    let name ← bk.getDo b 0x5B
    let lang ← bk.getDo b 0x5F2D
    let sex ← bk.getDo b 0x5F35
    let buf ← putTlv 0x5B name.toBytes .empty
    let buf ← putTlv 0x5F2D lang.toBytes buf
    let buf ← putTlv 0x5F35 sex.toBytes buf
    putTlv 0x65 buf.toBytes .empty
  else if tag = 0x7A then
    let ctr ← bk.getDo b 0x93
    let buf ← putTlv 0x93 ctr.toBytes .empty
    putTlv 0x7A buf.toBytes .empty
  else bk.getDo b tag

/-- The application identifier is passed on whole where the response has room for it. -/
theorem doTag_aid {bk : OpenPgpBackend β} {b : β} {out : Vec 512}
    (h : Vec.ofBytes? (bk.aidBytes b) = some out) : doTag bk 0x004F b = .ok out := by
  rw [doTag, if_pos rfl, h]

/-- The tag in the parameters of a command. -/
def CommandApdu.tag (cmd : CommandApdu) : UInt16 := u16OfBe cmd.p1 cmd.p2

/-- GET DATA. -/
def handleGetData (bk : OpenPgpBackend β) (cmd : CommandApdu) : Handler β ResponseApdu := do
  let data ← ask (doTag bk cmd.tag)
  chunkResponse cmd data

/-! ## PIN commands -/

/-- VERIFY PW1 or PW3. -/
def handleVerify (bk : OpenPgpBackend β) (cmd : CommandApdu) : Handler β ResponseApdu := do
  let pin := cmd.data.toBytes
  if cmd.p2 = 0x81 then
    call bk (.verifyPw1Sign pin)
    setCard fun st ↦ { st with pw1VerifiedSign := true }
  else if cmd.p2 = 0x82 then
    call bk (.verifyPw1Other pin)
    setCard fun st ↦ { st with pw1VerifiedOther := true }
  else if cmd.p2 = 0x83 then
    call bk (.verifyPw3 pin)
    setCard fun st ↦ { st with pw3Verified := true }
  else refuse .wrongParametersP1P2
  logEvent bk (0x200000 ||| cmd.p2.toUInt32)
  pure .okEmpty

/-- CHANGE REFERENCE DATA: the old and the new PIN, each padded to the longest length. -/
def handleChangeReference (bk : OpenPgpBackend β) (cmd : CommandApdu) :
    Handler β ResponseApdu := do
  demand (cmd.p1 = 0x00) .wrongParametersP1P2
  demand (cmd.p2 = 0x81 ∨ cmd.p2 = 0x83) .wrongParametersP1P2
  let pw3 := cmd.p2 == 0x83
  let pw ← .gets fun s ↦ (bk.pwStatusBytes s.backend).toBytes
  let pinLen := ((if pw3 then pw[3]? else pw[1]?).getD 0).toNat
  demand (pinLen ≠ 0 ∧ pinLen ≤ 127) .incorrectParameters
  demand (cmd.data.length = pinLen * 2) .wrongLength
  let oldPin := trimOpenpgpPinPadding (cmd.data.toBytes.take pinLen)
  let newPin := trimOpenpgpPinPadding (cmd.data.toBytes.drop pinLen)
  demand (newPin ≠ []) .incorrectParameters
  call bk (.changePin pw3 oldPin newPin)
  logEvent bk (0x240000 ||| cmd.p2.toUInt32)
  pure .okEmpty

/-- RESET RETRY COUNTER: a new PW1 under the admin PIN. -/
def handleResetRetryCounter (bk : OpenPgpBackend β) (cmd : CommandApdu) :
    Handler β ResponseApdu := do
  demand (cmd.p1 ≠ 0x02) .referenceDataNotFound
  demand (cmd.p1 = 0x00 ∧ cmd.p2 = 0x81) .wrongParametersP1P2
  demandFlag CardState.pw3Verified .securityStatusNotSatisfied
  let pw ← .gets fun s ↦ (bk.pwStatusBytes s.backend).toBytes
  let maxLen := (pw[1]?.getD 0).toNat
  demand (maxLen ≠ 0 ∧ maxLen ≤ 127) .incorrectParameters
  let newPin := trimOpenpgpPinPadding cmd.data.toBytes
  demand (newPin ≠ [] ∧ newPin.length ≤ maxLen) .wrongLength
  call bk (.setPw1VerifierAdminOnly newPin)
  call bk .resetPw1RetryCounter
  logEvent bk 0x2C0081
  pure .okEmpty

/-! ## Writing objects -/

/-- Whether a tag is written under the user PIN. -/
def underPw1 (tag : UInt16) : Bool := 0x0101 ≤ tag ∧ tag ≤ 0x0104

/-- The tags that are listed as written under the admin PIN. -/
def putRequiresPw3 (tag : UInt16) : Bool :=
  tag ∈ [0x5B, 0x5F2D, 0x5F35, 0x5E, 0x5F50, 0xC1, 0xC2, 0xC3, 0xC4, 0x7F21] ∨
    (0xC7 ≤ tag ∧ tag ≤ 0xCE) ∨ (0xD1 ≤ tag ∧ tag ≤ 0xD3) ∨ tag = 0xF4

/-- Whether the session may write a tag. -/
def putAllowed (st : CardState) (tag : UInt16) : Bool :=
  if underPw1 tag then st.pw1VerifiedOther
  else if putRequiresPw3 tag then st.pw3Verified
  else st.pw3Verified

/-- A tag that is not listed needs the admin PIN as well. -/
theorem putAllowed_eq (st : CardState) (tag : UInt16) :
    putAllowed st tag = if underPw1 tag then st.pw1VerifiedOther else st.pw3Verified := by
  rw [putAllowed, ite_self]

/-- PUT DATA. -/
def handlePutData (bk : OpenPgpBackend β) (cmd : CommandApdu) : Handler β ResponseApdu := do
  let tag := cmd.tag
  demandFlag (putAllowed · tag) .securityStatusNotSatisfied
  call bk (.putDo tag cmd.data.toBytes)
  logEvent bk (0xDA0000 ||| tag.toUInt32)
  pure .okEmpty

/-! ## Key commands -/

/-- The signature over a hash, by the algorithm of the signature slot. -/
def signHash (bk : OpenPgpBackend β) (hash : Bytes) : AlgorithmAttributes → Handler β (Vec 512)
  | .ecdsa _ => call bk (.psoSignHash hash)
  | .edDsa curveOid =>
    if curveOid.toBytes = ed25519Oid then do
      let s ← call bk (.ed25519Sign .openPgpSig hash)
      orRefuse (Vec.ofBytes? s.toBytes) .executionError
    else refuse .conditionsNotSatisfied
  | _ => refuse .conditionsNotSatisfied

/-- PSO: compute digital signature. -/
def handleComputeSignature (bk : OpenPgpBackend β) (cmd : CommandApdu) :
    Handler β ResponseApdu := do
  demandFlag CardState.pw1VerifiedSign .securityStatusNotSatisfied
  let attrs ← .gets fun s ↦ bk.algorithmAttributes s.backend .sig
  let sig ← signHash bk cmd.data.toBytes attrs
  call bk .incrementSignatureCounter
  setCard fun st ↦ { st with pw1VerifiedSign := false }
  logEvent bk 0x2A9E9A
  chunkResponse cmd sig

/-- PSO: decipher, by ECDH when the data wraps a peer key. -/
def handleDecipher (bk : OpenPgpBackend β) (cmd : CommandApdu) : Handler β ResponseApdu := do
  demandFlag CardState.pw1VerifiedOther .securityStatusNotSatisfied
  let data := cmd.data.toBytes
  match parseEcdhPeerPublicKey data with
  | some peer =>
    logEvent bk 0x2A8086
    let decAttrs ← .gets fun s ↦ bk.algorithmAttributes s.backend .dec
    match decAttrs with
    | .ecdh curveOid =>
      if curveOid.toBytes = curve25519Oid then
        let shared ← call bk (.x25519Ecdh .openPgpDec peer)
        let out ← orRefuse (Vec.ofBytes? shared.toBytes) .executionError
        chunkResponse cmd out
      else
        let shared ← call bk (.ecdhDec .openPgpDec peer)
        let out ← orRefuse (Vec.ofBytes? shared.toBytes) .executionError
        chunkResponse cmd out
    | _ => refuse .conditionsNotSatisfied
  | none =>
    logEvent bk 0x2A8086
    let out ← call bk (.psoDecipher data)
    chunkResponse cmd out

/-- PERFORM SECURITY OPERATION. -/
def handlePso (bk : OpenPgpBackend β) (cmd : CommandApdu) : Handler β ResponseApdu :=
  if cmd.p1 = 0x9E ∧ cmd.p2 = 0x9A then handleComputeSignature bk cmd
  else if cmd.p1 = 0x80 ∧ cmd.p2 = 0x86 then handleDecipher bk cmd
  else refuse .wrongParametersP1P2

/-- INTERNAL AUTHENTICATE. -/
def handleInternalAuth (bk : OpenPgpBackend β) (cmd : CommandApdu) : Handler β ResponseApdu := do
  demandFlag CardState.pw1VerifiedOther .securityStatusNotSatisfied
  let out ← call bk (.internalAuthenticate cmd.data.toBytes)
  logEvent bk 0x880000
  chunkResponse cmd out

/-- The key slot a parameter byte names. -/
def slotFromP2 (p2 : UInt8) : Option OpenPgpKeySlot :=
  if p2 = 0xB6 then some .sig
  else if p2 = 0xB8 then some .dec
  else if p2 = 0xA4 then some .aut
  else none

/-- GENERATE ASYMMETRIC KEY PAIR, or read the public key. -/
def handleGenerate (bk : OpenPgpBackend β) (cmd : CommandApdu) : Handler β ResponseApdu := do
  let slot ← orRefuse (slotFromP2 cmd.p2) .wrongParametersP1P2
  demandFlag (fun st ↦ cmd.p1 ≠ 0x80 || st.pw3Verified) .securityStatusNotSatisfied
  let out ← call bk (.generateOrReadKey cmd.p1 slot)
  if cmd.p1 = 0x80 then logEvent bk (0x470000 ||| cmd.p2.toUInt32)
  chunkResponse cmd out

/-! ## Dispatch -/

/-- The handler of an instruction. -/
def Instruction.handler (bk : OpenPgpBackend β) (cmd : CommandApdu) :
    Instruction → Handler β ResponseApdu
  | .getResponse => handleGetResponse cmd
  | .select => handleSelect bk cmd
  | .verify => handleVerify bk cmd
  | .getData => handleGetData bk cmd
  | .putData => handlePutData bk cmd
  | .pso => handlePso bk cmd
  | .internalAuth => handleInternalAuth bk cmd
  | .generateKey => handleGenerate bk cmd
  | .changeReference => handleChangeReference bk cmd
  | .resetRetryCounter => handleResetRetryCounter bk cmd
  | .getChallenge => handleGetChallenge bk cmd
  | .manageSecurityEnvironment => handleManageSecurityEnvironment cmd

/-- The handler of a command. -/
def handle (bk : OpenPgpBackend β) (cmd : CommandApdu) : Handler β ResponseApdu := do
  let terminated ← .gets fun s ↦ bk.isTerminationState s.backend
  if terminated then
    if cmd.ins = 0x20 then refuse .authMethodBlocked else refuse .terminationState
  else
    match Instruction.ofByte cmd.ins with
    | some ins => ins.handler bk cmd
    | none => refuse .instructionNotSupported

/-- A command is refused with a status word, or handled by its instruction. -/
theorem handle_cases (bk : OpenPgpBackend β) (cmd : CommandApdu) (s : Session β) :
    (∃ sw, handle bk cmd s = refuse sw s) ∨
      ∃ ins, Instruction.ofByte cmd.ins = some ins ∧ handle bk cmd s = ins.handler bk cmd s := by
  rw [handle, Fallible.gets_bind]
  split_ifs
  · exact .inl ⟨_, rfl⟩
  · exact .inl ⟨_, rfl⟩
  · cases Instruction.ofByte cmd.ins with
    | none => exact .inl ⟨_, rfl⟩
    | some ins => exact .inr ⟨ins, rfl, rfl⟩

/-- Handle one command: a refused command answers with its status word as well. -/
def handleApdu (bk : OpenPgpBackend β) (cmd : CommandApdu) (s : Session β) :
    ResponseApdu × Session β :=
  match handle bk cmd s with
  | (.ok resp, s') => (resp, s')
  | (.error resp, s') => (resp, s')

@[simp] theorem handleApdu_snd (bk : OpenPgpBackend β) (cmd : CommandApdu) (s : Session β) :
    (handleApdu bk cmd s).2 = (handle bk cmd s).2 := by
  rw [handleApdu]
  rcases handle bk cmd s with ⟨_ | _, _⟩ <;> rfl

/-- Reset the card state. -/
def Session.reset (s : Session β) : Session β :=
  { s with card := s.card.reset, events := s.events ++ [.reset] }

/-- A new session over a backend state. -/
def Session.new (b : β) : Session β := ⟨.new, b, []⟩

end Handlers

end Galdralag.OpenPgp
