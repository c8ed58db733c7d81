import Galdralag.Foundation.Bytes
import Galdralag.Host.Groups
import Galdralag.Host.Text
import Mathlib.Data.List.Basic
import Mathlib.Data.List.Induction

/-!
# Contacts

A contact is added with its fields, changed field by field and given a key. Adding and changing
check the optional fields alike. Adding asks for an e-mail address besides and stores it trimmed;
changing stores the address it is given.

The callsign of a contact is unique, and so is its identifier, which adding draws at random.
-/

set_option linter.all false

namespace Galdralag.Host

open Fallible

/-! ## The fields of a contact -/

/-- Source of a stored public key. -/
inductive KeySource where
  | keyserver
  | wkd
  | ldap
  | manual
  | file
  | peer
  deriving DecidableEq, Repr

/-- Serialise to the database representation. -/
def KeySource.asStr : KeySource → String
  | .keyserver => "keyserver"
  | .wkd => "wkd"
  | .ldap => "ldap"
  | .manual => "manual"
  | .file => "file"
  | .peer => "peer"

/-- The fields that a contact may go without. -/
structure OptionalFields where
  callsign : Option String
  badgeNumber : Option String
  organisation : Option String
  department : Option String
  role : Option String
  note : Option String
  dmrId : Option Int
  radioAffiliation : Option String
  street : Option String
  country : Option String
  postalCode : Option String
  region : Option String
  fluxerId : Option String
  discordId : Option String
  ircId : Option String
  phoneNumber : Option String
  deriving DecidableEq

/-- Fields required to create a new contact without a key. -/
structure NewContact extends OptionalFields where
  displayName : String
  email : String
  deriving DecidableEq

/-- Partial update for an existing contact. -/
structure ContactUpdate extends OptionalFields where
  displayName : Option String
  email : Option String
  deriving DecidableEq

/-- The columns of `identities` other than the identifier and the expiry date. -/
structure ContactColumns extends OptionalFields where
  displayName : String
  email : Option String
  pgpFingerprint : Option String
  pgpPubkey : Option Bytes
  fetchedAt : Option String
  source : String
  deriving DecidableEq

/-- The given fields, and the stored ones where none is given. -/
def OptionalFields.coalesce (given stored : OptionalFields) : OptionalFields where
  callsign := given.callsign.or stored.callsign
  badgeNumber := given.badgeNumber.or stored.badgeNumber
  organisation := given.organisation.or stored.organisation
  department := given.department.or stored.department
  role := given.role.or stored.role
  note := given.note.or stored.note
  dmrId := given.dmrId.or stored.dmrId
  radioAffiliation := given.radioAffiliation.or stored.radioAffiliation
  street := given.street.or stored.street
  country := given.country.or stored.country
  postalCode := given.postalCode.or stored.postalCode
  region := given.region.or stored.region
  fluxerId := given.fluxerId.or stored.fluxerId
  discordId := given.discordId.or stored.discordId
  ircId := given.ircId.or stored.ircId
  phoneNumber := given.phoneNumber.or stored.phoneNumber

/-- No field at all. -/
def OptionalFields.none : OptionalFields where
  callsign := .none
  badgeNumber := .none
  organisation := .none
  department := .none
  role := .none
  note := .none
  dmrId := .none
  radioAffiliation := .none
  street := .none
  country := .none
  postalCode := .none
  region := .none
  fluxerId := .none
  discordId := .none
  ircId := .none
  phoneNumber := .none

/-- A contact with a name only. -/
def ContactColumns.named (displayName : String) : ContactColumns where
  toOptionalFields := .none
  displayName := displayName
  email := none
  pgpFingerprint := none
  pgpPubkey := none
  fetchedAt := none
  source := KeySource.manual.asStr

theorem OptionalFields.coalesce_none (f : OptionalFields) : none.coalesce f = f := rfl

/-- An update that gives nothing. -/
def ContactUpdate.Empty (u : ContactUpdate) : Prop :=
  u.displayName = none ∧ u.email = none ∧ u.toOptionalFields = .none

instance (u : ContactUpdate) : Decidable u.Empty := inferInstanceAs (Decidable (_ ∧ _))

/-! ## Validation -/

/-- A text that is given has at most `max` bytes. -/
def checkLength (field : String) (max : ℕ) (v : Option String) : Except GaldraError Unit :=
  ensure (v.all (fun s ↦ s.utf8ByteSize ≤ max) = true)
    (.config (field ++ " exceeds " ++ toString max ++ " characters"))

def validateAddressLens (street country postalCode region : Option String) :
    Except GaldraError Unit := do
  let _ ← checkLength "street" 512 street
  let _ ← checkLength "country" 128 country
  let _ ← checkLength "postal_code" 32 postalCode
  checkLength "region" 128 region

def validateSocialIds (fluxerId discordId ircId : Option String) : Except GaldraError Unit := do
  let _ ← checkLength "fluxer_id" 128 fluxerId
  let _ ← checkLength "discord_id" 32 discordId
  checkLength "irc_id" 128 ircId

def validatePhoneNumber (phone : Option String) : Except GaldraError Unit :=
  checkLength "phone_number" 32 phone

/-- What is asked of the optional fields, of a new contact and of an update. -/
def validateOptional (f : OptionalFields) : Except GaldraError Unit := do
  let _ ← ensure (f.dmrId.all (fun d ↦ ¬ (d ≤ 0 ∨ d > 16777215)) = true)
    (GaldraError.config "dmr_id must be blank or between 1 and 16777215 (24-bit)")
  let _ ← checkLength "radio_affiliation" 128 f.radioAffiliation
  let _ ← validateAddressLens f.street f.country f.postalCode f.region
  let _ ← validateSocialIds f.fluxerId f.discordId f.ircId
  validatePhoneNumber f.phoneNumber

def validateNewContact (contact : NewContact) : Except GaldraError Unit := do
  let _ ← ensure (trim contact.email.toList ≠ []) (GaldraError.config "email is required")
  validateOptional contact.toOptionalFields

def validateContactUpdate (update : ContactUpdate) : Except GaldraError Unit :=
  validateOptional update.toOptionalFields

/-- The limits of the optional fields. -/
structure OptionalFields.Within (f : OptionalFields) : Prop where
  dmrId : ∀ d ∈ f.dmrId, 1 ≤ d ∧ d ≤ 16777215
  radioAffiliation : ∀ s ∈ f.radioAffiliation, s.utf8ByteSize ≤ 128
  street : ∀ s ∈ f.street, s.utf8ByteSize ≤ 512
  country : ∀ s ∈ f.country, s.utf8ByteSize ≤ 128
  postalCode : ∀ s ∈ f.postalCode, s.utf8ByteSize ≤ 32
  region : ∀ s ∈ f.region, s.utf8ByteSize ≤ 128
  fluxerId : ∀ s ∈ f.fluxerId, s.utf8ByteSize ≤ 128
  discordId : ∀ s ∈ f.discordId, s.utf8ByteSize ≤ 32
  ircId : ∀ s ∈ f.ircId, s.utf8ByteSize ≤ 128
  phoneNumber : ∀ s ∈ f.phoneNumber, s.utf8ByteSize ≤ 32

theorem checkLength_eq_ok {field : String} {max : ℕ} {v : Option String} :
    checkLength field max v = .ok () ↔ ∀ s ∈ v, s.utf8ByteSize ≤ max := by
  rw [checkLength, ensure_eq_ok, Option.all_eq_true]
  simp only [decide_eq_true_eq, Option.mem_def]

/-- The checks pass exactly within the limits. -/
theorem validateOptional_eq_ok {f : OptionalFields} : validateOptional f = .ok () ↔ f.Within := by
  simp only [validateOptional, validateAddressLens, validateSocialIds, validatePhoneNumber,
    check_bind_eq_ok, ensure_eq_ok, checkLength_eq_ok, Option.all_eq_true, decide_eq_true_eq]
  constructor
  · rintro ⟨hdmr, hradio, ⟨hstreet, hcountry, hpostal, hregion⟩, ⟨hfluxer, hdiscord, hirc⟩, hphone⟩
    refine ⟨fun d hd ↦ ?_, hradio, hstreet, hcountry, hpostal, hregion, hfluxer, hdiscord, hirc, hphone⟩
    have hd := hdmr d hd
    omega
  · intro h
    refine ⟨fun d hd ↦ ?_, h.radioAffiliation, ⟨h.street, h.country, h.postalCode, h.region⟩,
      ⟨h.fluxerId, h.discordId, h.ircId⟩, h.phoneNumber⟩
    have hd := h.dmrId d hd
    omega

theorem forall_mem_or {α : Type} {p : α → Prop} {a b : Option α} (ha : ∀ x ∈ a, p x)
    (hb : ∀ x ∈ b, p x) : ∀ x ∈ a.or b, p x := by
  rcases a with _ | a
  · exact hb
  · exact ha

/-- Fields within the limits keep them when others within the limits are put over them. -/
theorem OptionalFields.Within.coalesce {given stored : OptionalFields} (hg : given.Within)
    (hs : stored.Within) : (given.coalesce stored).Within where
  dmrId := forall_mem_or hg.dmrId hs.dmrId
  radioAffiliation := forall_mem_or hg.radioAffiliation hs.radioAffiliation
  street := forall_mem_or hg.street hs.street
  country := forall_mem_or hg.country hs.country
  postalCode := forall_mem_or hg.postalCode hs.postalCode
  region := forall_mem_or hg.region hs.region
  fluxerId := forall_mem_or hg.fluxerId hs.fluxerId
  discordId := forall_mem_or hg.discordId hs.discordId
  ircId := forall_mem_or hg.ircId hs.ircId
  phoneNumber := forall_mem_or hg.phoneNumber hs.phoneNumber

/-! ## Operations -/

/-- Another contact than the one with the identifier `id` has the callsign. -/
def Db.callsignTaken (id : String) (callsign : Option String) (db : Db ContactColumns) : Bool :=
  callsign.isSome && db.identities.any fun r ↦ r.id ≠ id ∧ r.columns.callsign = callsign

/-- `UPDATE identities … WHERE id = ?1`. -/
def Db.updateIdentity (id : String) (f : IdentityRow ContactColumns → IdentityRow ContactColumns)
    (db : Db ContactColumns) : Db ContactColumns :=
  { db with identities := db.identities.map fun r ↦ if r.id = id then f r else r }

section Operations

variable {Time : Type} (clock : Rfc3339 Time)

/-- The row of a new contact. -/
def newContactRow (newId : String) (now : Time) (contact : NewContact) :
    IdentityRow ContactColumns where
  id := newId
  expiresAt := none
  columns := {
    toOptionalFields := contact.toOptionalFields
    displayName := contact.displayName
    email := some (String.ofList (trim contact.email.toList))
    pgpFingerprint := none
    pgpPubkey := none
    fetchedAt := some (clock.toRfc3339 now)
    source := "manual" }

/-- The row of a contact after an update. -/
def ContactUpdate.apply (update : ContactUpdate) (row : IdentityRow ContactColumns) :
    IdentityRow ContactColumns :=
  { row with
    columns := { row.columns with
      toOptionalFields := update.toOptionalFields.coalesce row.columns.toOptionalFields
      displayName := update.displayName.getD row.columns.displayName
      email := update.email.or row.columns.email } }

/-- Insert a new contact row without a public key. -/
def contactAdd (newId : String) (now : Time) (contact : NewContact) :
    Fallible (Db ContactColumns) GaldraError (Identity Time ContactColumns) := do
  lift (validateNewContact contact)
  let clash ← gets fun db : Db ContactColumns ↦
    db.identities.any (fun r ↦ r.id = newId) || db.callsignTaken newId contact.callsign
  require (clash = false) (.database .constraintViolation)
  modify (Db.insertIdentity (newContactRow clock newId now contact))
  reading fun db ↦ contactGetById clock db newId

/-- Apply a partial update to an existing contact. -/
def contactUpdate (id : String) (update : ContactUpdate) :
    Fallible (Db ContactColumns) GaldraError (Identity Time ContactColumns) := do
  let _ ← reading fun db ↦ contactGetById clock db id
  lift (validateContactUpdate update)
  if update.Empty then
    reading fun db ↦ contactGetById clock db id
  else do
    let taken ← gets (Db.callsignTaken id update.callsign)
    require (taken = false) (.database .constraintViolation)
    modify (Db.updateIdentity id update.apply)
    reading fun db ↦ contactGetById clock db id

/-- Update or insert public key material for a contact. -/
def contactUpsertKey (now : Time) (id : String) (pubkey : Bytes) (fingerprint : String)
    (source : KeySource) (expiresAt : Option Time) :
    Fallible (Db ContactColumns) GaldraError PUnit := do
  let _ ← reading fun db ↦ contactGetById clock db id
  modify (Db.updateIdentity id fun r ↦ {
    id := r.id
    expiresAt := expiresAt.map clock.toRfc3339
    columns := { r.columns with
      pgpPubkey := some pubkey
      pgpFingerprint := some fingerprint
      source := source.asStr
      fetchedAt := some (clock.toRfc3339 now) } })

end Operations

/-! ## Runs -/

/-- The calls that write contacts. -/
inductive ContactCall (Time : Type) where
  | add (newId : String) (now : Time) (contact : NewContact)
  | update (id : String) (update : ContactUpdate)
  | upsertKey (now : Time) (id : String) (pubkey : Bytes) (fingerprint : String)
      (source : KeySource) (expiresAt : Option Time)

namespace ContactCall

variable {Time : Type}

/-- Perform a call. -/
def perform (clock : Rfc3339 Time) : ContactCall Time → Fallible (Db ContactColumns) GaldraError PUnit
  | add newId now contact => do
    let _ ← contactAdd clock newId now contact
    pure ⟨⟩
  | update id u => do
    let _ ← contactUpdate clock id u
    pure ⟨⟩
  | upsertKey now id pubkey fingerprint source expiresAt =>
    contactUpsertKey clock now id pubkey fingerprint source expiresAt

/-- The contacts after the calls, made one after the other on a database without contacts. -/
def run (clock : Rfc3339 Time) (calls : List (ContactCall Time)) : Db ContactColumns :=
  calls.foldl (fun db c ↦ (c.perform clock db).2) ⟨[], [], []⟩

/-- A call whose checks pass: a contact with an address and free keys, or one that is there. -/
def Found (db : Db ContactColumns) : ContactCall Time → Prop
  | add newId _ contact => trim contact.email.toList ≠ [] ∧ contact.Within ∧
      (∀ r ∈ db.identities, r.id ≠ newId) ∧ db.callsignTaken newId contact.callsign = false
  | update id u => (∃ r ∈ db.identities, r.id = id) ∧ u.Within ∧
      db.callsignTaken id u.callsign = false
  | upsertKey _ id _ _ _ _ => ∃ r ∈ db.identities, r.id = id

/-- What a call makes of the tables when it succeeds. -/
def effect (clock : Rfc3339 Time) : ContactCall Time → Db ContactColumns → Db ContactColumns
  | add newId now contact => Db.insertIdentity (newContactRow clock newId now contact)
  | update id u => Db.updateIdentity id u.apply
  | upsertKey now id pubkey fingerprint source expiresAt => Db.updateIdentity id fun r ↦ {
      id := r.id
      expiresAt := expiresAt.map clock.toRfc3339
      columns := { r.columns with
        pgpPubkey := some pubkey
        pgpFingerprint := some fingerprint
        source := source.asStr
        fetchedAt := some (clock.toRfc3339 now) } }

end ContactCall

/-! ## What a call does -/

section Perform

variable {Time : Type} (clock : Rfc3339 Time) {db : Db ContactColumns}

theorem contactGetById_cases (id : String) :
    ((∃ r ∈ db.identities, r.id = id) ∧ ∃ i, contactGetById clock db id = .ok i) ∨
      (¬ ∃ r ∈ db.identities, r.id = id) ∧
        contactGetById clock db id = .error (.contactNotFound id) := by
  rcases hfind : db.identities.find? (fun r ↦ r.id = id) with _ | r
  · refine .inr ⟨?_, by rw [contactGetById, hfind]; rfl⟩
    rintro ⟨r, hr, hid⟩
    exact List.find?_eq_none.mp hfind r hr (decide_eq_true hid)
  · refine .inl ⟨⟨r, List.mem_of_find?_eq_some hfind, ?_⟩, _, by rw [contactGetById, hfind]; rfl⟩
    simpa using List.find?_some hfind

theorem validateNewContact_eq_ok {contact : NewContact} :
    validateNewContact contact = .ok () ↔ trim contact.email.toList ≠ [] ∧ contact.Within := by
  rw [validateNewContact, ensure_bind_eq_ok, validateOptional_eq_ok]

theorem contactAdd_ok {newId : String} {contact : NewContact} (now : Time)
    (hvalid : validateNewContact contact = .ok ()) (hid : ∀ r ∈ db.identities, r.id ≠ newId)
    (hfree : db.callsignTaken newId contact.callsign = false) :
    ∃ i, contactAdd clock newId now contact db
      = (.ok i, db.insertIdentity (newContactRow clock newId now contact)) := by
  have hclash : (db.identities.any (fun r ↦ r.id = newId) || db.callsignTaken newId contact.callsign)
      = false := by
    rw [hfree, Bool.or_false, List.any_eq_false]
    exact fun r hr ↦ decide_eq_true_iff.not.mpr (hid r hr)
  have hmem : ∃ r ∈ (db.insertIdentity (newContactRow clock newId now contact)).identities,
      r.id = newId := ⟨_, List.mem_append_right _ (List.mem_singleton_self _), rfl⟩
  rcases contactGetById_cases clock newId with ⟨-, i, hget⟩ | ⟨hnone, -⟩
  · refine ⟨i, ?_⟩
    rw [contactAdd, bind_of_ok (lift_eq_ok.mpr ⟨hvalid, rfl⟩), gets_bind,
      bind_of_ok (require_of hclash _ _), modify_bind, reading_apply, hget]
  · exact absurd hmem hnone

theorem contactAdd_error {newId : String} {contact : NewContact} (now : Time)
    (h : ¬ (validateNewContact contact = .ok () ∧ (∀ r ∈ db.identities, r.id ≠ newId) ∧
      db.callsignTaken newId contact.callsign = false)) :
    ∃ e, contactAdd clock newId now contact db = (.error e, db) := by
  rcases hvalid : validateNewContact contact with e | u
  · exact ⟨e, bind_of_error (by rw [lift_apply, hvalid])⟩
  · have hclash : ¬ (db.identities.any (fun r ↦ r.id = newId)
        || db.callsignTaken newId contact.callsign) = false := by
      rw [Bool.or_eq_false_iff, List.any_eq_false]
      rintro ⟨hid, hfree⟩
      exact h ⟨hvalid, fun r hr ↦ by simpa using hid r hr, hfree⟩
    refine ⟨.database .constraintViolation, ?_⟩
    rw [contactAdd, bind_of_ok (lift_eq_ok.mpr ⟨hvalid, rfl⟩), gets_bind,
      bind_of_error (by rw [require, if_neg hclash]; rfl)]

/-- An update that gives nothing leaves a row as it is. -/
theorem ContactUpdate.apply_of_empty {u : ContactUpdate} (h : u.Empty) (r : IdentityRow ContactColumns) :
    u.apply r = r := by
  obtain ⟨hname, hemail, hfields⟩ := h
  rw [ContactUpdate.apply, hname, hemail, hfields, OptionalFields.coalesce_none]
  rfl

theorem updateIdentity_of_empty {u : ContactUpdate} (h : u.Empty) (id : String) :
    db.updateIdentity id u.apply = db := by
  have hmap : db.identities.map (fun r ↦ if r.id = id then u.apply r else r) = db.identities := by
    refine List.map_id'' (fun r ↦ ?_) _
    rw [u.apply_of_empty h, ite_self]
  rw [Db.updateIdentity, hmap]

/-- Updates keep the identifiers. -/
theorem mem_updateIdentity_id {f : IdentityRow ContactColumns → IdentityRow ContactColumns}
    (hf : ∀ r, (f r).id = r.id) (id : String) (h : ∃ r ∈ db.identities, r.id = id) :
    ∃ r ∈ (db.updateIdentity id f).identities, r.id = id := by
  obtain ⟨r, hr, hid⟩ := h
  exact ⟨f r, List.mem_map.mpr ⟨r, hr, if_pos hid⟩, (hf r).trans hid⟩

theorem contactUpdate_ok {id : String} {u : ContactUpdate} (hfound : ∃ r ∈ db.identities, r.id = id)
    (hwithin : u.Within) (hfree : db.callsignTaken id u.callsign = false) :
    ∃ i, contactUpdate clock id u db = (.ok i, db.updateIdentity id u.apply) := by
  have hvalid : validateContactUpdate u = .ok () := validateOptional_eq_ok.mpr hwithin
  rcases contactGetById_cases clock id with ⟨-, i, hget⟩ | ⟨hnone, -⟩
  · have hread : (reading fun db ↦ contactGetById clock db id :
        Fallible (Db ContactColumns) GaldraError _) db = (.ok i, db) := by rw [reading_apply, hget]
    rw [contactUpdate, bind_of_ok hread, bind_of_ok (lift_eq_ok.mpr ⟨hvalid, rfl⟩)]
    by_cases hempty : u.Empty
    · rw [if_pos hempty, hread, updateIdentity_of_empty hempty]
      exact ⟨i, rfl⟩
    · have hafter := mem_updateIdentity_id (f := u.apply) (fun _ ↦ rfl) id hfound
      rcases contactGetById_cases clock id with ⟨-, i', hget'⟩ | ⟨hnone, -⟩
      · refine ⟨i', ?_⟩
        rw [if_neg hempty, gets_bind, bind_of_ok (require_of hfree _ _), modify_bind, reading_apply,
          hget']
      · exact absurd hafter hnone
  · exact absurd hfound hnone

theorem contactUpdate_error {id : String} {u : ContactUpdate}
    (h : ¬ ((∃ r ∈ db.identities, r.id = id) ∧ u.Within ∧
      db.callsignTaken id u.callsign = false)) :
    ∃ e, contactUpdate clock id u db = (.error e, db) := by
  rcases contactGetById_cases clock id with ⟨hfound, i, hget⟩ | ⟨-, hget⟩
  · have hread : (reading fun db ↦ contactGetById clock db id :
        Fallible (Db ContactColumns) GaldraError _) db = (.ok i, db) := by rw [reading_apply, hget]
    rcases hvalid : validateContactUpdate u with e | ⟨⟩
    · exact ⟨e, (bind_of_ok hread).trans (bind_of_error (by rw [lift_apply, hvalid]))⟩
    · have hwithin : u.Within := validateOptional_eq_ok.mp hvalid
      have htaken : ¬ db.callsignTaken id u.callsign = false := fun hfree ↦
        h ⟨hfound, hwithin, hfree⟩
      have hempty : ¬ u.Empty := by
        rintro ⟨-, -, hfields⟩
        refine htaken ?_
        rw [hfields]
        rfl
      refine ⟨.database .constraintViolation, ?_⟩
      rw [contactUpdate, bind_of_ok hread, bind_of_ok (lift_eq_ok.mpr ⟨hvalid, rfl⟩), if_neg hempty,
        gets_bind, bind_of_error (by rw [require, if_neg htaken]; rfl)]
  · exact ⟨_, bind_of_error (by rw [reading_apply, hget])⟩

/-- **One call.** A call whose checks pass succeeds and writes; any other fails and writes nothing.
-/
theorem ContactCall.perform_cases (c : ContactCall Time) (db : Db ContactColumns) :
    (c.Found db ∧ c.perform clock db = (.ok ⟨⟩, c.effect clock db)) ∨
      (¬ c.Found db ∧ ∃ e, c.perform clock db = (.error e, db)) := by
  cases c with
  | add newId now contact =>
    by_cases h : validateNewContact contact = .ok () ∧ (∀ r ∈ db.identities, r.id ≠ newId) ∧
      db.callsignTaken newId contact.callsign = false
    · obtain ⟨i, hadd⟩ := contactAdd_ok clock now h.1 h.2.1 h.2.2
      have hvalid := validateNewContact_eq_ok.mp h.1
      exact .inl ⟨⟨hvalid.1, hvalid.2, h.2⟩, bind_of_ok hadd⟩
    · obtain ⟨e, hadd⟩ := contactAdd_error clock now h
      refine .inr ⟨?_, e, bind_of_error hadd⟩
      rintro ⟨hemail, hwithin, hkeys⟩
      exact h ⟨validateNewContact_eq_ok.mpr ⟨hemail, hwithin⟩, hkeys⟩
  | update id u =>
    by_cases h : (∃ r ∈ db.identities, r.id = id) ∧ u.Within ∧ db.callsignTaken id u.callsign = false
    · obtain ⟨i, hupdate⟩ := contactUpdate_ok clock h.1 h.2.1 h.2.2
      exact .inl ⟨h, bind_of_ok hupdate⟩
    · obtain ⟨e, hupdate⟩ := contactUpdate_error clock h
      exact .inr ⟨h, e, bind_of_error hupdate⟩
  | upsertKey now id pubkey fingerprint source expiresAt =>
    rcases contactGetById_cases clock id with ⟨hfound, i, hget⟩ | ⟨hnone, hget⟩
    · exact .inl ⟨hfound, bind_of_ok (by rw [reading_apply, hget])⟩
    · exact .inr ⟨hnone, _, bind_of_error (by rw [reading_apply, hget])⟩

end Perform

/-! ## Valid contacts -/

/-- A text that is not blank and has no white space at its ends. -/
def Proper (s : String) : Prop := trim s.toList ≠ [] ∧ trim s.toList = s.toList

/-- The fields of a contact are as adding it asks for. -/
structure ContactColumns.Valid (c : ContactColumns) : Prop where
  email : ∃ e ∈ c.email, Proper e
  within : c.Within

/-- Every contact is valid. -/
def Db.Valid (db : Db ContactColumns) : Prop := ∀ r ∈ db.identities, r.columns.Valid

/-- An update that is carried out sets no e-mail address but a proper one. -/
def ContactCall.Careful {Time : Type} (db : Db ContactColumns) : ContactCall Time → Prop
  | update id u => (ContactCall.update id u : ContactCall Time).Found db → ∀ e ∈ u.email, Proper e
  | _ => True

section Valid

variable {Time : Type} (clock : Rfc3339 Time) {db : Db ContactColumns}

/-- What is stored of an address that is not blank is proper. -/
theorem proper_trim {s : List Char} (h : trim s ≠ []) : Proper (String.ofList (trim s)) := by
  rw [Proper, String.toList_ofList, trim_trim]
  exact ⟨h, rfl⟩

/-- Overwriting a valid row by valid rows. -/
theorem Db.Valid.updateIdentity (h : db.Valid) {id : String}
    {f : IdentityRow ContactColumns → IdentityRow ContactColumns}
    (hf : ∀ r ∈ db.identities, r.columns.Valid → (f r).columns.Valid) :
    (db.updateIdentity id f).Valid := by
  intro r hr
  obtain ⟨q, hq, rfl⟩ := List.mem_map.mp hr
  split_ifs
  · exact hf q hq (h q hq)
  · exact h q hq

/-- **Step.** A careful call whose checks pass keeps the contacts valid. -/
theorem Db.Valid.effect (h : db.Valid) {c : ContactCall Time} (hfound : c.Found db)
    (hcareful : c.Careful db) : (c.effect clock db).Valid := by
  cases c with
  | add newId now contact =>
    intro r hr
    rcases List.mem_append.mp hr with hr | hr
    · exact h r hr
    · rw [List.mem_singleton.mp hr]
      exact ⟨⟨_, rfl, proper_trim hfound.1⟩, hfound.2.1⟩
  | update id u =>
    refine h.updateIdentity fun r _ hvalid ↦ ⟨?_, hfound.2.1.coalesce hvalid.within⟩
    rcases hemail : u.email with _ | e
    · obtain ⟨e, he, hproper⟩ := hvalid.email
      exact ⟨e, by simpa [ContactUpdate.apply, hemail] using he, hproper⟩
    · exact ⟨e, by simp [ContactUpdate.apply, hemail], hcareful hfound e hemail⟩
  | upsertKey now id pubkey fingerprint source expiresAt =>
    exact h.updateIdentity fun r _ hvalid ↦ ⟨hvalid.email, hvalid.within⟩

theorem ContactCall.run_concat (calls : List (ContactCall Time)) (c : ContactCall Time) :
    run clock (calls ++ [c]) = (c.perform clock (run clock calls)).2 := by
  rw [run, List.foldl_concat]
  rfl

/-- **Run.** Careful calls keep the contacts valid. -/
theorem ContactCall.run_valid {calls : List (ContactCall Time)}
    (hcareful : ∀ before c, before ++ [c] <+: calls → c.Careful (run clock before)) :
    (run clock calls).Valid := by
  induction calls using List.reverseRecOn with
  | nil => exact fun r hr ↦ absurd hr List.not_mem_nil
  | append_singleton calls c ih =>
    have ih := ih fun before d hpre ↦ hcareful before d (hpre.trans (List.prefix_append _ _))
    rw [run_concat]
    rcases c.perform_cases clock (run clock calls) with ⟨hfound, hc⟩ | ⟨-, e, hc⟩
    · rw [hc]
      exact ih.effect clock hfound (hcareful calls c (List.prefix_refl _))
    · rwa [hc]

/-- **Valid contacts.** The contacts are valid in every state of a run exactly when every update
that is carried out in it sets no e-mail address or a proper one. -/
theorem contacts_valid_iff (calls : List (ContactCall Time)) :
    (∀ before, before <+: calls → (ContactCall.run clock before).Valid) ↔
      ∀ before c, before ++ [c] <+: calls → c.Careful (ContactCall.run clock before) := by
  constructor
  · intro hvalid before c hpre
    cases c with
    | update id u =>
      intro hfound e hemail
      obtain ⟨r, hr, hid⟩ := hfound.1
      have hafter := hvalid _ hpre
      rw [ContactCall.run_concat] at hafter
      rcases (ContactCall.update id u : ContactCall Time).perform_cases clock
        (ContactCall.run clock before) with ⟨-, hc⟩ | ⟨hnot, -⟩
      · -- the row that is updated has the address of the update
        rw [hc] at hafter
        have hmem : u.apply r ∈ ((ContactCall.update id u : ContactCall Time).effect clock
            (ContactCall.run clock before)).identities := List.mem_map.mpr ⟨r, hr, if_pos hid⟩
        obtain ⟨e', he', hproper⟩ := (hafter _ hmem).email
        have heq : (u.apply r).columns.email = some e := by
          simp [ContactUpdate.apply, Option.mem_def.mp hemail]
        rw [heq] at he'
        obtain rfl := Option.some.inj he'
        exact hproper
      · exact absurd hfound hnot
    | _ => trivial
  · intro hcareful before hpre
    exact ContactCall.run_valid clock fun before' c hpre' ↦ hcareful before' c (hpre'.trans hpre)

end Valid

/-! ## An update that blanks an address -/

/-- A contact with an address and nothing else. -/
def newAda : NewContact where
  toOptionalFields := .none
  displayName := "Ada"
  email := " ada@example.org "

/-- An update of the address. -/
def emailUpdate (email : String) : ContactUpdate where
  toOptionalFields := .none
  displayName := none
  email := some email

/-- A contact is added, and its address is set to white space. -/
def adaBlanked : List (ContactCall String) :=
  [.add "1" "2026-01-01T00:00:00+00:00" newAda, .update "1" (emailUpdate " ")]

/-- Both calls are carried out, and the address that is stored is blank. -/
theorem update_blanks_email :
    ((ContactCall.run textClock adaBlanked).identities.map fun r ↦ r.columns.email) = [some " "] ∧
      ¬ ∀ before, before <+: adaBlanked → (ContactCall.run textClock before).Valid := by
  have hrow : (ContactCall.run textClock adaBlanked).identities
      = [(emailUpdate " ").apply (newContactRow textClock "1" "2026-01-01T00:00:00+00:00" newAda)] := by
    rfl
  refine ⟨by rw [hrow]; rfl, fun h ↦ ?_⟩
  have hvalid := h _ (List.prefix_refl _)
  rw [Db.Valid, hrow] at hvalid
  obtain ⟨e, he, hne, -⟩ := (hvalid _ (List.mem_singleton_self _)).email
  have heq : some " " = some e := he
  rw [← Option.some.inj heq] at hne
  exact hne (by decide)

end Galdralag.Host
