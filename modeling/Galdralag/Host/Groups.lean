import Galdralag.Foundation.Fallible
import Galdralag.Host.Clock
import Galdralag.Host.Error

/-!
# Contacts and groups

Three tables. `identities` holds the contacts. `group_metadata` has a row for every group, and
`groups` a row for every membership: its first column names the group, but no key ties it to
`group_metadata`. The second column is a foreign key into `identities` that cascades, so deleting a
contact deletes its memberships.

The operations that delete ask how many rows were deleted and fail when there was none; as nothing
changed then, they are written with the question first.
-/

set_option linter.all false

namespace Galdralag.Host

open Fallible

/-- A row of `identities`: the columns that the operations on groups read, and the others. -/
structure IdentityRow (Columns : Type) where
  id : String
  expiresAt : Option String
  columns : Columns

/-- A row of `groups`. Its primary key is the pair of the first two columns. -/
structure MembershipRow where
  groupName : String
  identityId : String
  addedAt : String
  addedBy : Option String
  expiresAt : Option String

/-- A row of `group_metadata`. Its primary key is the name. -/
structure MetadataRow where
  groupName : String
  description : Option String
  hiddenRecipients : Int
  createdAt : String
  createdBy : Option String

/-- The tables. -/
structure Db (Columns : Type) where
  identities : List (IdentityRow Columns)
  groups : List MembershipRow
  groupMetadata : List MetadataRow

/-- Stored contact identity. -/
structure Identity (Time Columns : Type) where
  id : String
  expiresAt : Option Time
  columns : Columns

/-- One membership row with expiry information. -/
structure GroupMember (Time Columns : Type) where
  identity : Identity Time Columns
  addedAt : Time
  addedBy : Option String
  expiresAt : Option Time
  isExpired : Bool

/-- Full group metadata plus members. -/
structure GroupWithMembers (Time Columns : Type) where
  name : String
  description : Option String
  hiddenRecipients : Bool
  createdAt : Time
  createdBy : Option String
  members : List (GroupMember Time Columns)

/-! ## Statements -/

section Statements

variable {Columns : Type}

/-- Insert a membership, or overwrite the one with the same key. -/
def upsertMembership (row : MembershipRow) (groups : List MembershipRow) : List MembershipRow :=
  if groups.any fun g ↦ g.groupName = row.groupName ∧ g.identityId = row.identityId then
    groups.map fun g ↦
      if g.groupName = row.groupName ∧ g.identityId = row.identityId then row else g
  else groups ++ [row]

/-- `INSERT INTO identities`. -/
def Db.insertIdentity (row : IdentityRow Columns) (db : Db Columns) : Db Columns :=
  { db with identities := db.identities ++ [row] }

/-- `DELETE FROM identities`, which cascades to the memberships. -/
def Db.deleteIdentity (id : String) (db : Db Columns) : Db Columns :=
  { db with
    identities := db.identities.filter fun i ↦ ¬ i.id = id
    groups := db.groups.filter fun g ↦ ¬ g.identityId = id }

/-- `INSERT INTO group_metadata`. -/
def Db.insertMetadata (row : MetadataRow) (db : Db Columns) : Db Columns :=
  { db with groupMetadata := db.groupMetadata ++ [row] }

/-- `DELETE FROM group_metadata`. -/
def Db.deleteMetadata (name : String) (db : Db Columns) : Db Columns :=
  { db with groupMetadata := db.groupMetadata.filter fun r ↦ ¬ r.groupName = name }

/-- `UPDATE group_metadata`: what is not given stays. -/
def Db.editMetadata (name : String) (description : Option String) (hiddenRecipients : Option Bool)
    (db : Db Columns) : Db Columns :=
  { db with groupMetadata := db.groupMetadata.map fun r ↦
      if r.groupName = name then
        { r with
          description := description.or r.description
          hiddenRecipients := (hiddenRecipients.map fun b ↦ if b then 1 else 0).getD r.hiddenRecipients }
      else r }

/-- `INSERT INTO groups` with its conflict clause. -/
def Db.upsertMember (row : MembershipRow) (db : Db Columns) : Db Columns :=
  { db with groups := upsertMembership row db.groups }

/-- `DELETE FROM groups`. -/
def Db.deleteMember (group identityId : String) (db : Db Columns) : Db Columns :=
  { db with groups := db.groups.filter fun g ↦ ¬ (g.groupName = group ∧ g.identityId = identityId) }

end Statements

section Operations

variable {Time Columns : Type} (clock : Rfc3339 Time)

/-! ## Contacts -/

/-- Read a row of `identities`. An expiry date that is no date counts as none. -/
def identityFromRow (row : IdentityRow Columns) : Identity Time Columns where
  id := row.id
  expiresAt := row.expiresAt.bind clock.parse
  columns := row.columns

/-- Load a contact by primary key. -/
def contactGetById (db : Db Columns) (id : String) : Except GaldraError (Identity Time Columns) :=
  (db.identities.find? fun i ↦ i.id = id).elim (.error (.contactNotFound id)) fun row ↦
    .ok (identityFromRow clock row)

/-- Delete a contact, and with it the memberships that refer to it. -/
def contactDelete (id : String) : Fallible (Db Columns) GaldraError PUnit := do
  let n ← gets fun db ↦ db.identities.countP fun i ↦ i.id = id
  require (n ≠ 0) (.contactNotFound id)
  modify (Db.deleteIdentity id)

/-! ## Groups -/

/-- Create a new empty group with metadata. -/
def groupCreate (now : Time) (name : String) (description : Option String) (hiddenRecipients : Bool) :
    Fallible (Db Columns) GaldraError PUnit := do
  let taken ← gets fun db ↦ db.groupMetadata.any fun r ↦ r.groupName = name
  require (taken = false) (.database .constraintViolation)
  modify (Db.insertMetadata {
    groupName := name
    description := description
    hiddenRecipients := if hiddenRecipients then 1 else 0
    createdAt := clock.toRfc3339 now
    createdBy := none })

variable [LT Time] [DecidableLT Time]

/-- Whether an expiry date lies in the past. -/
def pastExpiry (now : Time) (expiresAt : Option Time) : Bool := expiresAt.any fun t ↦ t < now

/-- Read a membership joined with its contact. -/
def memberFromRow (now : Time) (g : MembershipRow) (i : IdentityRow Columns) :
    Except SqlError (GroupMember Time Columns) := do
  let identity : Identity Time Columns := identityFromRow clock i
  let addedAt ← clock.readOr .conversionFailure g.addedAt
  let memExp ← g.expiresAt.mapM (clock.readOr .conversionFailure)
  pure {
    identity := identity
    addedAt := addedAt
    addedBy := g.addedBy
    expiresAt := memExp
    isExpired := pastExpiry now memExp || pastExpiry now identity.expiresAt }

/-- The memberships of a group, joined with the contacts they refer to. -/
def joinedRows (db : Db Columns) (name : String) : List (MembershipRow × IdentityRow Columns) :=
  (db.groups.filter fun g ↦ g.groupName = name).flatMap fun g ↦
    (db.identities.filter fun i ↦ i.id = g.identityId).map fun i ↦ (g, i)

/-- Load group metadata and every membership row. -/
def groupGet (now : Time) (name : String) (db : Db Columns) :
    Except GaldraError (GroupWithMembers Time Columns) :=
  (db.groupMetadata.find? fun r ↦ r.groupName = name).elim (.error (.groupNotFound name)) fun row ↦ do
    let createdAt ← clock.readOr (.serialise (clock.parseError row.createdAt)) row.createdAt
    let members ← ((joinedRows db name).mapM fun r ↦ memberFromRow clock now r.1 r.2).mapError
      GaldraError.database
    pure {
      name := name
      description := row.description
      hiddenRecipients := row.hiddenRecipients ≠ 0
      createdAt := createdAt
      createdBy := row.createdBy
      members := members }

/-- Add a member to a group, optionally with membership expiry. -/
def groupAddMember (now : Time) (group identityId : String) (addedBy : Option String)
    (expiresAt : Option Time) : Fallible (Db Columns) GaldraError PUnit := do
  let _ ← reading (groupGet clock now group)
  let _ ← reading fun db ↦ contactGetById clock db identityId
  modify (Db.upsertMember {
    groupName := group
    identityId := identityId
    addedAt := clock.toRfc3339 now
    addedBy := addedBy
    expiresAt := expiresAt.map clock.toRfc3339 })

/-- Copy members from `source` into `target`, active memberships only; the number of members copied.
-/
def groupAddFromGroup (now : Time) (target source : String) (addedBy : Option String) :
    Fallible (Db Columns) GaldraError ℕ := do
  let src ← reading (groupGet clock now source)
  let active := src.members.filter fun m ↦ !m.isExpired
  each (fun m : GroupMember Time Columns ↦
    groupAddMember clock now target m.identity.id addedBy m.expiresAt) active
  pure active.length

/-- Update group metadata fields. -/
def groupEdit (now : Time) (name : String) (description : Option String)
    (hiddenRecipients : Option Bool) : Fallible (Db Columns) GaldraError PUnit := do
  let _ ← reading (groupGet clock now name)
  if description = none ∧ hiddenRecipients = none then
    pure ⟨⟩
  else
    modify (Db.editMetadata name description hiddenRecipients)

omit [LT Time] [DecidableLT Time]

/-- Remove a member from a group. -/
def groupRemoveMember (group identityId : String) : Fallible (Db Columns) GaldraError PUnit := do
  let n ← gets fun db ↦ db.groups.countP fun g ↦ g.groupName = group ∧ g.identityId = identityId
  require (n ≠ 0) (.groupNotFound (group ++ "/" ++ identityId))
  modify (Db.deleteMember group identityId)

/-- Delete a group. -/
def groupDelete (name : String) : Fallible (Db Columns) GaldraError PUnit := do
  let n ← gets fun db ↦ db.groupMetadata.countP fun r ↦ r.groupName = name
  require (n ≠ 0) (.groupNotFound name)
  modify (Db.deleteMetadata name)

end Operations

end Galdralag.Host
