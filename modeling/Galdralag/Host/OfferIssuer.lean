import Galdralag.Host.EphemeralOffers

/-!
# Who signed an imported offer

An import compares the fingerprint that the offer states with the one that is expected, and it asks
whether the keyring holds a key that validates the signature. Nothing compares the two answers: the
key that validates need not be the key with the fingerprint. What an import accepts is what passes
the checks and is signed by anybody in the keyring.
-/

set_option linter.all false

namespace Galdralag.Host

open Fallible

variable {Key Time : Type} {tools : Tools Key} {clock : Rfc3339 Time} {hash : ChainHash}

/-- What an offer has to be, apart from its signature, for an import to accept it. -/
structure Passes (tools : Tools Key) (params : ImportParams) (t : Instants Time) (db : EpkDb)
    (offer : OfferJson) (epkSec1 sigBin : Bytes) : Prop where
  readable : ∃ jsonBytes, tools.gpgDecrypt params.offerGpgBytes = .ok jsonBytes ∧
    tools.offerFromSlice jsonBytes = .ok offer
  schema : offer.schemaVersion = offerSchemaVersion
  unused : offer.consumed = false
  current : t.timestamp < offer.expiresAt
  stated : normaliseFingerprint tools offer.longTermFingerprint =
    normaliseFingerprint tools params.verifyFingerprint
  key : tools.hexDecode offer.epkHex = .ok epkSec1
  signature : tools.hexDecode offer.signatureHex = .ok sigBin
  fresh : ∀ r ∈ db.offers, r.sessionId ≠ offer.sessionId

/-- The signature over `data` was made by the key with the fingerprint. -/
def Tools.SignedBy (tools : Tools Key) (fp : String) (data sig : Bytes) : Prop :=
  ∃ k, normaliseFingerprint tools (tools.fingerprint k) = normaliseFingerprint tools fp ∧
    tools.validates k data sig = true

/-- The detached signature of an offer was made by the key with the fingerprint. -/
def Authentic (tools : Tools Key) (fp : String) (offer : OfferJson) : Prop :=
  ∃ epkSec1 sigBin, tools.hexDecode offer.epkHex = .ok epkSec1 ∧
    tools.hexDecode offer.signatureHex = .ok sigBin ∧ tools.SignedBy fp epkSec1 sigBin

/-! ## The checks -/

theorem gpgVerifyDetached_eq_ok {data sig : Bytes} : gpgVerifyDetached tools data sig = .ok () ↔
    ∃ k ∈ tools.keyring, tools.validates k data sig = true := by
  rw [gpgVerifyDetached, ← List.any_eq_true]
  split_ifs with h
  · exact iff_of_true rfl h
  · exact iff_of_false (by rintro ⟨⟩) h

/-- Going on after an outcome that was computed before. -/
theorem lift_bind_eq_ok {ε α β : Type} {x : Except ε α} {f : α → Fallible EpkDb ε β} {b : β}
    {db db' : EpkDb} : (lift x >>= f) db = (.ok b, db') ↔ ∃ a, x = .ok a ∧ f a db = (.ok b, db') := by
  rcases x with e | a
  · refine iff_of_false (by rintro ⟨⟩) ?_
    rintro ⟨a, ⟨⟩, -⟩
  · refine ⟨fun h ↦ ⟨a, rfl, h⟩, ?_⟩
    rintro ⟨a', h, hf⟩
    obtain rfl : a = a' := Except.ok.inj h
    exact hf

/-- Going on after a check: it was passed, and nothing was logged. -/
theorem orReject_bind_eq_ok {t : Time} {sessionId reason : String} {operator : Option String}
    {r : Except GaldraError Unit} {β : Type} {f : PUnit → Fallible EpkDb GaldraError β} {b : β}
    {db db' : EpkDb} : (orReject clock hash t sessionId reason operator r >>= f) db = (.ok b, db') ↔
      r = .ok () ∧ f ⟨⟩ db = (.ok b, db') := by
  rcases r with e | ⟨⟩
  · exact iff_of_false (by rintro ⟨⟩) (by rintro ⟨⟨⟩, -⟩)
  · exact (and_iff_right rfl).symm

/-- Going on after a row was stored: its session was new. -/
theorem storeOffer_bind_eq_ok {row : OfferRow} {β : Type} {f : PUnit → Fallible EpkDb GaldraError β} {b : β}
    {db db' : EpkDb} : (storeOffer row >>= f) db = (.ok b, db') ↔
      (∀ r ∈ db.offers, r.sessionId ≠ row.sessionId) ∧
        f ⟨⟩ { db with offers := db.offers ++ [row] } = (.ok b, db') := by
  have hnew : (∀ r ∈ db.offers, r.sessionId ≠ row.sessionId) ↔
      db.offers.any (fun r ↦ r.sessionId = row.sessionId) = false := by
    rw [List.any_eq_false]
    exact forall₂_congr fun r _ ↦ decide_eq_true_iff.not.symm
  rw [hnew, storeOffer, bind_assoc, gets_bind]
  rcases db.offers.any (fun r ↦ r.sessionId = row.sessionId) with _ | _
  · exact (and_iff_right rfl).symm
  · exact iff_of_false (by rintro ⟨⟩) (by rintro ⟨⟨⟩, -⟩)

/-! ## What is accepted -/

/-- **What an import accepts**: an offer that passes the checks and that a key of the keyring
signed. -/
theorem importOffer_eq_ok {params : ImportParams} {t : Instants Time} {db db' : EpkDb}
    {offer : OfferJson} : importOffer tools clock hash params t db = (.ok offer, db') ↔
      ∃ epkSec1 sigBin, Passes tools params t db offer epkSec1 sigBin ∧
        (∃ k ∈ tools.keyring, tools.validates k epkSec1 sigBin = true) ∧
        db' = {
          offers := db.offers ++ [importedRow tools clock t offer]
          auditLog := auditAppend clock hash (importedEntry tools params t offer) db.auditLog } := by
  rw [importOffer]
  simp only [lift_bind_eq_ok, orReject_bind_eq_ok, storeOffer_bind_eq_ok, ensure_eq_ok,
    mapError_eq_ok_iff, gpgVerifyDetached_eq_ok]
  constructor
  · rintro ⟨jsonBytes, hdecrypt, offer', hparse, hschema, hunused, hcurrent, hstated, epkSec1, hkey, sigBin,
      hsignature, hverify, hfresh, hdone⟩
    obtain ⟨hoffer, hdb⟩ := Prod.mk.inj hdone
    obtain rfl : offer' = offer := Except.ok.inj hoffer
    exact ⟨epkSec1, sigBin, ⟨⟨jsonBytes, hdecrypt, hparse⟩, hschema, hunused, Int.not_le.mp hcurrent, hstated,
      hkey, hsignature, hfresh⟩, hverify, hdb.symm⟩
  · rintro ⟨epkSec1, sigBin, hpasses, hverify, rfl⟩
    obtain ⟨jsonBytes, hdecrypt, hparse⟩ := hpasses.readable
    exact ⟨jsonBytes, hdecrypt, offer, hparse, hpasses.schema, hpasses.unused,
      Int.not_le.mpr hpasses.current, hpasses.stated, epkSec1, hpasses.key, sigBin,
      hpasses.signature, hverify,
      hpasses.fresh, rfl⟩

/-- **Authentic imports.** Every offer that the import stores and returns was signed by the key with
the expected fingerprint, if and only if that key validates the signature of every offer that passes
the checks and that some key of the keyring signed. -/
theorem imports_authentic_iff (params : ImportParams) (t : Instants Time) (db : EpkDb) :
    (∀ offer db', importOffer tools clock hash params t db = (.ok offer, db') →
        Authentic tools params.verifyFingerprint offer) ↔
      ∀ offer epkSec1 sigBin, Passes tools params t db offer epkSec1 sigBin →
        (∃ k ∈ tools.keyring, tools.validates k epkSec1 sigBin = true) →
        tools.SignedBy params.verifyFingerprint epkSec1 sigBin := by
  constructor
  · intro hauthentic offer epkSec1 sigBin hpasses hverify
    obtain ⟨epkSec1', sigBin', hkey, hsignature, hsigned⟩ := hauthentic offer _
      (importOffer_eq_ok.mpr ⟨epkSec1, sigBin, hpasses, hverify, rfl⟩)
    obtain rfl : epkSec1 = epkSec1' := Except.ok.inj (hpasses.key.symm.trans hkey)
    obtain rfl : sigBin = sigBin' := Except.ok.inj (hpasses.signature.symm.trans hsignature)
    exact hsigned
  · intro hsigned offer db' h
    obtain ⟨epkSec1, sigBin, hpasses, hverify, -⟩ := importOffer_eq_ok.mp h
    exact ⟨epkSec1, sigBin, hpasses.key, hpasses.signature, hsigned offer epkSec1 sigBin hpasses hverify⟩

/-! ## An offer in another's name -/

/-- Two people whose public keys are in the keyring. -/
inductive Person where
  | alice
  | mallory
  deriving DecidableEq

/-- The value of a hexadecimal digit. -/
def hexDigit (c : Char) : Option ℕ :=
  if '0' ≤ c ∧ c ≤ '9' then some (c.toNat - '0'.toNat)
  else if 'a' ≤ c ∧ c ≤ 'f' then some (c.toNat - 'a'.toNat + 10)
  else if 'A' ≤ c ∧ c ≤ 'F' then some (c.toNat - 'A'.toNat + 10)
  else none

/-- The bytes of a hexadecimal text. -/
def hexBytes : List Char → Option Bytes
  | [] => some []
  | [_] => none
  | c :: d :: rest => do
    let hi ← hexDigit c
    let lo ← hexDigit d
    let bs ← hexBytes rest
    pure (.ofNat (16 * hi + lo) :: bs)

/-- A signature that starts with the initial of who made it, followed by what was signed. -/
def initialled (k : Person) (data : Bytes) : Bytes :=
  (match k with
    | .alice => 0x61
    | .mallory => 0x6D) :: data

/-- An offer that states the fingerprint of the one and carries a signature of the other. -/
def forgedOffer : OfferJson where
  schemaVersion := 1
  epkHex := "04c0de"
  longTermFingerprint := "a11ce"
  signatureHex := "6d04c0de"
  expiresAt := 2000
  createdAt := 1000
  sessionId := "5e55"
  consumed := false

/-- The envelope of the forged offer, sealed and opened by doing nothing. -/
def forgedEnvelope : Bytes := [0x7B, 0x7D]

/-- The keyring of the two, and parsers that know the forged offer. -/
def deskTools : Tools Person where
  keyring := [.alice, .mallory]
  fingerprint := fun k ↦
    match k with
    | .alice => "a11ce"
    | .mallory => "bad"
  validates := fun k data sig ↦ sig = initialled k data
  verifyStderr := fun _ _ ↦ "gpg: BAD signature"
  gpgDecrypt := .ok
  offerFromSlice := fun bs ↦ if bs = forgedEnvelope then .ok forgedOffer else .error "expected value"
  hexDecode := fun s ↦ (hexBytes s.toList).elim (.error "Invalid character") .ok
  toLowercase := fun s ↦ String.ofList (s.toList.map Char.toLower)

theorem deskTools_normalise (fp : String) : (normaliseFingerprint deskTools fp).toList =
    ((trim fp.toList).filter fun c ↦ c ≠ ' ').map Char.toLower := by
  change (String.ofList ((String.ofList _).toList.map Char.toLower)).toList = _
  rw [String.toList_ofList, String.toList_ofList]

/-- Import the forged offer as one of alice's. -/
def deskImport : ImportParams where
  offerGpgBytes := forgedEnvelope
  verifyFingerprint := "a11ce"
  operator := none

theorem deskImport_passes : Passes deskTools deskImport ⟨1500, "1500", "1500"⟩ ⟨[], []⟩ forgedOffer
    [0x04, 0xC0, 0xDE] [0x6D, 0x04, 0xC0, 0xDE] where
  readable := ⟨forgedEnvelope, rfl, rfl⟩
  schema := rfl
  unused := rfl
  current := by decide
  stated := rfl
  key := by rfl
  signature := by rfl
  fresh := fun r hr ↦ absurd hr List.not_mem_nil

/-- The forged offer is stored and returned as an offer of alice's, and its signature is not hers.
-/
theorem forged_offer_imported :
    (∃ db', importOffer deskTools textClock ⟨fun p ↦ p.timestamp, fun s ↦ s⟩ deskImport
        ⟨1500, "1500", "1500"⟩ ⟨[], []⟩ = (.ok forgedOffer, db') ∧
      db'.offers.map OfferRow.sessionId = [forgedOffer.sessionId]) ∧
      ¬ Authentic deskTools deskImport.verifyFingerprint forgedOffer := by
  refine ⟨⟨_, importOffer_eq_ok.mpr ⟨_, _, deskImport_passes, ⟨.mallory, by decide, by decide⟩, rfl⟩,
    rfl⟩, ?_⟩
  rintro ⟨epkSec1, sigBin, hkey, hsignature, k, hfp, hvalid⟩
  obtain rfl : [0x04, 0xC0, 0xDE] = epkSec1 := Except.ok.inj (deskImport_passes.key.symm.trans hkey)
  obtain rfl : [0x6D, 0x04, 0xC0, 0xDE] = sigBin :=
    Except.ok.inj (deskImport_passes.signature.symm.trans hsignature)
  cases k with
  | alice => exact absurd hvalid (by decide)
  | mallory =>
    have hchars := congrArg String.toList hfp
    rw [deskTools_normalise, deskTools_normalise] at hchars
    exact absurd hchars (by decide)

end Galdralag.Host
