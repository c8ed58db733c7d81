import Galdralag.Cipher.RegistryHistory
import Galdralag.Foundation.Trace
import Galdralag.Host.CipherEnvelope
import Mathlib.Data.List.Forall2

/-!
# The profile store

User profiles live twice: in the registry that a profile store keeps in memory, and as rows of a
table. Adding a profile registers it and then inserts its row; when the statement fails, the
registration is taken back. Removing one takes it out of the registry and then deletes its row; when
that statement fails, nothing is taken back. So the two agree for as long as no deletion fails under
a profile that was just removed, and no longer (`profileStore_agrees_iff`).
-/

set_option linter.all false

namespace Galdralag.Host

open Fallible
open Cipher (CipherProfile CipherProfileError ProfileRegistry builtinNames builtins)
open Cipher.ProfileRegistry (registerMut removeMut withBuiltins Distinct)

def mapCipherErr : CipherProfileError → GaldraError := mapCipherProfileErr

/-! ## The table -/

/-- A row of `user_profiles`. -/
structure UserProfileRow where
  name : String
  description : Option String
  serialised : Bytes
  createdAt : String
  createdBy : Option String

/-- The table `user_profiles`. Its primary key is the name. -/
structure UserProfiles where
  rows : List UserProfileRow
  key : (rows.map UserProfileRow.name).Nodup

namespace UserProfiles

def empty : UserProfiles := ⟨[], List.nodup_nil⟩

/-- `INSERT INTO user_profiles`. -/
def insert (row : UserProfileRow) : Fallible UserProfiles SqlError PUnit := fun db ↦
  if h : row.name ∈ db.rows.map UserProfileRow.name then (.error .constraintViolation, db)
  else (.ok ⟨⟩, ⟨db.rows ++ [row], by
    rw [List.map_append]
    exact db.key.append (List.nodup_singleton _) (by simpa using h)⟩)

/-- `DELETE FROM user_profiles WHERE name = ?`. -/
def delete (name : String) (db : UserProfiles) : UserProfiles where
  rows := db.rows.filter fun r ↦ r.name ≠ name
  key := db.key.sublist (List.filter_sublist.map _)

/-- `SELECT serialised FROM user_profiles ORDER BY name`. -/
def blobs (db : UserProfiles) : List Bytes :=
  (db.rows.mergeSort fun a b ↦ a.name ≤ b.name).map UserProfileRow.serialised

end UserProfiles

/-! ## The store -/

/-- Host-side wrapper for the cipher profile registry. -/
structure ProfileStore where
  registry : ProfileRegistry

/-- A store and the table that is handed to its calls. -/
structure Stores where
  store : ProfileStore
  db : UserProfiles

/-- A call on the registry of the store. -/
def onRegistry (m : Fallible ProfileRegistry CipherProfileError PUnit) :
    Fallible Stores GaldraError PUnit :=
  .zoom (·.store.registry) (fun r s ↦ { s with store := ⟨r⟩ }) (.mapError mapCipherErr m)

/-- Execute a statement. It may fail for a reason of its own, and then does nothing. -/
def execute (fault : Option SqlError) (m : Fallible UserProfiles SqlError PUnit) :
    Fallible Stores GaldraError PUnit :=
  .zoom (·.db) (fun db s ↦ { s with db }) (.mapError .database (fault.elim m .fail))

/-- Register the profile in some serialised bytes. -/
def registerBlob (registry : ProfileRegistry) (blob : Bytes) : Except GaldraError ProfileRegistry := do
  let p ← (CipherProfile.fromBytes blob).mapError mapCipherErr
  (registry.register p).mapError mapCipherErr

def insertUserRow (fault : Option SqlError) (now name desc : String) (blob : Bytes) :
    Fallible Stores GaldraError PUnit :=
  execute fault (UserProfiles.insert
    { name, description := some desc, serialised := blob, createdAt := now, createdBy := none })

namespace ProfileStore

/-- Load built-in profiles and user rows. -/
def load (fault : Option SqlError) (db : UserProfiles) : Except GaldraError ProfileStore := do
  let _ ← fault.elim (.ok ()) fun e ↦ .error (.database e)
  let registry ← db.blobs.foldlM registerBlob withBuiltins
  pure ⟨registry⟩

/-- Add a user profile and persist. -/
def add (fault : Option SqlError) (now : String) (profile : CipherProfile) :
    Fallible Stores GaldraError PUnit := do
  onRegistry (registerMut profile)
  let inserted ← .attempt
    (insertUserRow fault now profile.name profile.description profile.toBytes.toBytes)
  match inserted with
  | .ok _ => pure ⟨⟩
  | .error e => do
    let _ ← .attempt (onRegistry (removeMut profile.name))
    .fail e

/-- Remove a user-defined profile. -/
def remove (fault : Option SqlError) (name : String) : Fallible Stores GaldraError PUnit := do
  onRegistry (removeMut name)
  execute fault (.modify (UserProfiles.delete name))

end ProfileStore

/-! ## What a call does -/

section Calls

variable {s : Stores} {r : ProfileRegistry} {p : CipherProfile} {name : String}

/-- The row of a profile. -/
structure UserProfileRow.IsOf (row : UserProfileRow) (p : CipherProfile) : Prop where
  name : row.name = p.name
  description : row.description = some p.description
  serialised : row.serialised = p.toBytes.toBytes

theorem UserProfileRow.IsOf.fromBytes {row : UserProfileRow} (h : row.IsOf p) :
    CipherProfile.fromBytes row.serialised = .ok p := by
  rw [h.serialised, p.fromBytes_toBytes]

theorem onRegistry_of_ok {m : Fallible ProfileRegistry CipherProfileError PUnit}
    (h : m s.store.registry = (.ok ⟨⟩, r)) : onRegistry m s = (.ok ⟨⟩, { s with store := ⟨r⟩ }) := by
  rw [onRegistry, zoom_apply, mapError, h]
  rfl

theorem onRegistry_of_error {m : Fallible ProfileRegistry CipherProfileError PUnit}
    {e : CipherProfileError} (h : m s.store.registry = (.error e, r)) :
    onRegistry m s = (.error (mapCipherErr e), { s with store := ⟨r⟩ }) := by
  rw [onRegistry, zoom_apply, mapError, h]
  rfl

theorem eq_of_profiles {r r' : ProfileRegistry} (h : r.profiles = r'.profiles) : r = r' := by
  obtain ⟨l, hl⟩ := r
  obtain ⟨l', hl'⟩ := r'
  obtain rfl : l = l' := h
  rfl

/-- A profile that was just registered can be taken out again, and then nothing has happened. -/
theorem remove_of_register {r' : ProfileRegistry} (hr : r.register p = .ok r')
    (hname : p.name ∉ builtinNames) : r'.remove p.name = .ok r := by
  obtain ⟨hfree, hprofiles⟩ := Cipher.ProfileRegistry.register_eq_ok hr
  have hindex : r'.profiles.findIdx? (·.name = p.name) = some r.profiles.length := by
    rw [hprofiles, List.findIdx?_append]
    have hnone : r.profiles.findIdx? (·.name = p.name) = none :=
      List.findIdx?_eq_none_iff.mpr fun q hq ↦ decide_eq_false (hfree q hq)
    rw [hnone]
    simp
  have hswap : Cipher.swapRemove r'.profiles r.profiles.length = r.profiles := by
    rw [hprofiles, Cipher.swapRemove_concat, if_neg (Nat.lt_irrefl _)]
  rw [ProfileRegistry.remove, ensure_eq_ok.mpr hname, ok_bind, hindex]
  exact congrArg Except.ok (eq_of_profiles hswap)

/-- A profile that is turned away changes nothing. -/
theorem add_of_refused (fault : Option SqlError) (now : String) {e : CipherProfileError}
    (hr : s.store.registry.register p = .error e) :
    ProfileStore.add fault now p s = (.error (mapCipherErr e), s) := by
  refine bind_of_error (onRegistry_of_error ?_)
  rw [Cipher.ProfileRegistry.registerMut_apply, hr]
  rfl

/-- A profile whose row cannot be inserted changes nothing. -/
theorem add_of_failed {fault : Option SqlError} {now : String} {e : GaldraError}
    (hr : s.store.registry.register p = .ok r) (hname : p.name ∉ builtinNames)
    (hi : insertUserRow fault now p.name p.description p.toBytes.toBytes ⟨⟨r⟩, s.db⟩
      = (.error e, ⟨⟨r⟩, s.db⟩)) :
    ProfileStore.add fault now p s = (.error e, s) := by
  have hregister : onRegistry (registerMut p) s = (.ok ⟨⟩, ⟨⟨r⟩, s.db⟩) := by
    apply onRegistry_of_ok
    rw [Cipher.ProfileRegistry.registerMut_apply, hr]
    rfl
  have hback : onRegistry (removeMut p.name) ⟨⟨r⟩, s.db⟩ = (.ok ⟨⟩, s) := by
    refine onRegistry_of_ok (r := s.store.registry) ?_
    rw [Cipher.ProfileRegistry.removeMut_apply, remove_of_register hr hname]
    rfl
  rw [ProfileStore.add, bind_of_ok hregister]
  refine (bind_of_ok (attempt_of hi)).trans ?_
  exact bind_of_ok (attempt_of hback)

/-- A profile that is registered and whose row is inserted. -/
theorem add_of_ok {fault : Option SqlError} {now : String} {db : UserProfiles}
    (hr : s.store.registry.register p = .ok r)
    (hi : insertUserRow fault now p.name p.description p.toBytes.toBytes ⟨⟨r⟩, s.db⟩
      = (.ok ⟨⟩, ⟨⟨r⟩, db⟩)) :
    ProfileStore.add fault now p s = (.ok ⟨⟩, ⟨⟨r⟩, db⟩) := by
  have hregister : onRegistry (registerMut p) s = (.ok ⟨⟩, ⟨⟨r⟩, s.db⟩) := by
    apply onRegistry_of_ok
    rw [Cipher.ProfileRegistry.registerMut_apply, hr]
    rfl
  rw [ProfileStore.add, bind_of_ok hregister]
  exact (bind_of_ok (attempt_of hi)).trans rfl

theorem remove_of_refused (fault : Option SqlError) {e : CipherProfileError}
    (hr : s.store.registry.remove name = .error e) :
    ProfileStore.remove fault name s = (.error (mapCipherErr e), s) := by
  refine bind_of_error (onRegistry_of_error ?_)
  rw [Cipher.ProfileRegistry.removeMut_apply, hr]
  rfl

/-- A profile is taken out of the registry before its row is deleted, or not deleted. -/
theorem remove_of_ok (fault : Option SqlError) (hr : s.store.registry.remove name = .ok r) :
    ProfileStore.remove fault name s = fault.elim (.ok ⟨⟩, ⟨⟨r⟩, s.db.delete name⟩)
      fun e ↦ (.error (.database e), ⟨⟨r⟩, s.db⟩) := by
  have hremove : onRegistry (removeMut name) s = (.ok ⟨⟩, ⟨⟨r⟩, s.db⟩) := by
    apply onRegistry_of_ok
    rw [Cipher.ProfileRegistry.removeMut_apply, hr]
    rfl
  rw [ProfileStore.remove, bind_of_ok hremove]
  cases fault <;> rfl

end Calls

/-! ## What is loaded -/

section Loading

variable {r : ProfileRegistry} {db : UserProfiles}

/-- The profile in some serialised bytes. -/
def Reads (blob : Bytes) (p : CipherProfile) : Prop := CipherProfile.fromBytes blob = .ok p

theorem registerBlob_eq_ok {blob : Bytes} {r' : ProfileRegistry} :
    registerBlob r blob = .ok r' ↔ ∃ p, Reads blob p ∧ r.register p = .ok r' := by
  simp only [registerBlob, except_bind_eq_ok, mapError_eq_ok_iff, Reads]

/-- A profile can be registered if there is room and its name is free. -/
theorem register_of_room {p : CipherProfile} (hroom : r.profiles.length < 16)
    (hfree : ∀ q ∈ r.profiles, q.name ≠ p.name) :
    ∃ r', r.register p = .ok r' ∧ r'.profiles = r.profiles ++ [p] := by
  have hnone : (r.get p.name).isNone = true := by
    rw [Option.isNone_iff_eq_none, ProfileRegistry.get, List.find?_eq_none]
    exact fun q hq ↦ by simpa using hfree q hq
  have hlength : (r.profiles ++ [p]).length ≤ 16 := by
    rw [List.length_append]
    exact hroom
  refine ⟨⟨r.profiles ++ [p], hlength⟩, ?_, rfl⟩
  rw [ProfileRegistry.register, certify_of_ok (ensure_eq_ok.mpr hroom), ok_bind,
    ensure_eq_ok.mpr hnone, ok_bind]
  rfl

/-- Registering one profile after the other puts them behind those that are there. -/
theorem profiles_of_foldlM {blobs : List Bytes} {r' : ProfileRegistry} (hr : r.Distinct)
    (h : blobs.foldlM registerBlob r = .ok r') :
    r'.Distinct ∧ ∃ ps, List.Forall₂ Reads blobs ps ∧ r'.profiles = r.profiles ++ ps := by
  induction blobs generalizing r with
  | nil =>
    obtain rfl : r = r' := Except.ok.inj h
    exact ⟨hr, [], .nil, (List.append_nil _).symm⟩
  | cons blob blobs ih =>
    rw [List.foldlM_cons] at h
    obtain ⟨r₁, h₁, h⟩ := except_bind_eq_ok.mp h
    obtain ⟨p, hp, hregister⟩ := registerBlob_eq_ok.mp h₁
    obtain ⟨hdistinct, ps, hps, hprofiles⟩ := ih (hr.register hregister).1 h
    refine ⟨hdistinct, p :: ps, .cons hp hps, ?_⟩
    rw [hprofiles, (Cipher.ProfileRegistry.register_eq_ok hregister).2, List.append_assoc]
    rfl

/-- Profiles with different names, and not too many of them, can all be registered. -/
theorem foldlM_of_profiles {blobs : List Bytes} {ps : List CipherProfile}
    (hreads : List.Forall₂ Reads blobs ps) : ∀ {r : ProfileRegistry},
    (r.profiles ++ ps).length ≤ 16 → ((r.profiles ++ ps).map CipherProfile.name).Nodup →
    ∃ r', blobs.foldlM registerBlob r = .ok r' ∧ r'.profiles = r.profiles ++ ps := by
  induction hreads with
  | nil => exact fun {r} _ _ ↦ ⟨r, rfl, (List.append_nil _).symm⟩
  | @cons blob p blobs ps hp _ ih =>
    intro r hroom hnames
    have hlt : r.profiles.length < 16 := by
      rw [List.length_append, List.length_cons] at hroom
      omega
    have hfree : ∀ q ∈ r.profiles, q.name ≠ p.name := by
      intro q hq
      rw [List.map_append, List.map_cons] at hnames
      exact (List.nodup_append.mp hnames).2.2 _ (List.mem_map_of_mem hq) _ List.mem_cons_self
    obtain ⟨r₁, hregister, hprofiles⟩ := register_of_room hlt hfree
    rw [← List.singleton_append, ← List.append_assoc, ← hprofiles] at hroom hnames
    obtain ⟨r', hr', hprofiles'⟩ := ih hroom hnames
    refine ⟨r', ?_, ?_⟩
    · rw [List.foldlM_cons, registerBlob_eq_ok.mpr ⟨p, hp, hregister⟩, ok_bind, hr']
    · rw [hprofiles', hprofiles, List.append_assoc]
      rfl

theorem load_eq_ok {fault : Option SqlError} {loaded : ProfileStore} :
    ProfileStore.load fault db = .ok loaded ↔
      fault = none ∧ db.blobs.foldlM registerBlob withBuiltins = .ok loaded.registry := by
  cases fault with
  | some e =>
    refine iff_of_false ?_ ?_
    · rintro ⟨⟩
    · rintro ⟨⟨⟩, -⟩
  | none =>
    rw [ProfileStore.load, Option.elim_none, ok_bind, except_bind_eq_ok]
    constructor
    · rintro ⟨r, hr, h⟩
      rw [← Except.ok.inj h]
      exact ⟨rfl, hr⟩
    · rintro ⟨-, h⟩
      exact ⟨_, h, rfl⟩

end Loading

/-! ## Agreement -/

theorem exists_of_mem_left {α β : Type} {R : α → β → Prop} {xs : List α} {ys : List β}
    (h : List.Forall₂ R xs ys) : ∀ x ∈ xs, ∃ y ∈ ys, R x y := by
  induction h with
  | nil => exact fun x hx ↦ absurd hx List.not_mem_nil
  | @cons a b xs ys hab _ ih =>
    intro x hx
    rcases List.mem_cons.mp hx with rfl | hx
    · exact ⟨b, List.mem_cons_self, hab⟩
    · obtain ⟨y, hy, hxy⟩ := ih x hx
      exact ⟨y, List.mem_cons_of_mem _ hy, hxy⟩

namespace Stores

/-- **Agreement.** The profiles in memory are those that loading the table gives, in some order, and
every row is that of a profile in memory. -/
structure Agrees (s : Stores) : Prop where
  load : ∃ loaded, ProfileStore.load none s.db = .ok loaded ∧
    loaded.registry.profiles.Perm s.store.registry.profiles
  rows : ∀ row ∈ s.db.rows, ∃ p ∈ s.store.registry.profiles, row.IsOf p

/-- The registry holds the built-in profiles and `ps`, and the rows are those of `ps`. -/
structure Holds (s : Stores) (ps : List CipherProfile) : Prop where
  rows : List.Forall₂ UserProfileRow.IsOf s.db.rows ps
  perm : s.store.registry.profiles.Perm (withBuiltins.profiles ++ ps)
  distinct : s.store.registry.Distinct

variable {s : Stores} {ps : List CipherProfile}

theorem Holds.agrees (h : s.Holds ps) : s.Agrees := by
  have hsorted : (s.db.rows.mergeSort fun a b ↦ a.name ≤ b.name).Perm s.db.rows :=
    List.mergeSort_perm _ _
  -- the rows in the order of their names, with their profiles in the same order
  obtain ⟨qs, hqs, hperm⟩ := List.perm_comp_forall₂ hsorted h.rows
  have hreads : List.Forall₂ Reads s.db.blobs qs :=
    List.forall₂_map_left_iff.mpr (hqs.imp fun _ _ hrow ↦ hrow.fromBytes)
  have hall : s.store.registry.profiles.Perm (withBuiltins.profiles ++ qs) :=
    h.perm.trans (hperm.symm.append_left _)
  obtain ⟨r, hr, hprofiles⟩ := foldlM_of_profiles (r := withBuiltins) hreads
    (hall.length_eq ▸ s.store.registry.length_le)
    ((hall.map CipherProfile.name).nodup_iff.mp h.distinct)
  refine ⟨⟨⟨r⟩, load_eq_ok.mpr ⟨rfl, hr⟩, hprofiles ▸ hall.symm⟩, fun row hrow ↦ ?_⟩
  obtain ⟨p, hp, hof⟩ := exists_of_mem_left h.rows row hrow
  exact ⟨p, h.perm.symm.subset (List.mem_append_right _ hp), hof⟩

theorem Agrees.holds (h : s.Agrees) : ∃ ps, s.Holds ps := by
  obtain ⟨loaded, hload, hperm⟩ := h.load
  obtain ⟨hdistinct, qs, hqs, hprofiles⟩ :=
    profiles_of_foldlM Cipher.ProfileRegistry.History.sound_start.distinct (load_eq_ok.mp hload).2
  have hsorted : s.db.rows.Perm (s.db.rows.mergeSort fun a b ↦ a.name ≤ b.name) :=
    (List.mergeSort_perm _ _).symm
  obtain ⟨ps, hps, hps'⟩ := List.perm_comp_forall₂ hsorted (List.forall₂_map_left_iff.mp hqs)
  have hrows := (List.forall₂_and_left _ _).mpr ⟨h.rows, hps⟩
  refine ⟨ps, hrows.imp ?_, ?_, (hperm.map CipherProfile.name).nodup_iff.mp hdistinct⟩
  · rintro row p ⟨⟨q, -, hof⟩, hreads⟩
    obtain rfl : q = p := Except.ok.inj (hof.fromBytes.symm.trans hreads)
    exact hof
  · rw [hprofiles] at hperm
    exact hperm.symm.trans (hps'.symm.append_left _)

theorem builtin_name_mem {p : CipherProfile} (hp : p ∈ withBuiltins.profiles) :
    p.name ∈ builtinNames := by
  obtain ⟨x, hx, hp⟩ := List.mem_filterMap.mp hp
  rcases x with e | q
  · cases hp
  · obtain rfl : q = p := Option.some.inj hp
    exact Cipher.ProfileRegistry.name_mem_builtinNames hx

/-- The built-in profiles are in memory, whatever else is. -/
theorem Holds.builtin (h : s.Holds ps) {name : String} (hname : name ∈ builtinNames) :
    ∃ p ∈ s.store.registry.profiles, p.name = name := by
  obtain ⟨p, hp, rfl⟩ := Cipher.ProfileRegistry.keepsBuiltins_withBuiltins.1 name hname
  exact ⟨p, h.perm.symm.subset (List.mem_append_left _ hp), rfl⟩

/-- A profile that is let in has no built-in name. -/
theorem Holds.not_builtin (h : s.Holds ps) {p : CipherProfile} {r : ProfileRegistry}
    (hr : s.store.registry.register p = .ok r) : p.name ∉ builtinNames := by
  intro hname
  obtain ⟨q, hq, heq⟩ := h.builtin hname
  exact (Cipher.ProfileRegistry.register_eq_ok hr).1 q hq heq

/-- The names of the rows are those of the profiles. -/
theorem Holds.names (h : s.Holds ps) :
    s.db.rows.map UserProfileRow.name = ps.map CipherProfile.name := by
  have heq : List.Forall₂ (fun (row : UserProfileRow) (p : CipherProfile) ↦ row.name = p.name)
      s.db.rows ps := h.rows.imp fun _ _ hof ↦ hof.name
  rw [← List.forall₂_eq_eq_eq, List.forall₂_map_left_iff, List.forall₂_map_right_iff]
  exact heq

/-- The row of a profile that is let in can be inserted. -/
theorem Holds.insertUserRow (h : s.Holds ps) {p : CipherProfile} {r : ProfileRegistry} (now : String)
    (hr : s.store.registry.register p = .ok r) :
    ∃ db : UserProfiles,
      Host.insertUserRow none now p.name p.description p.toBytes.toBytes ⟨⟨r⟩, s.db⟩
        = (.ok ⟨⟩, ⟨⟨r⟩, db⟩) ∧
      Holds ⟨⟨r⟩, db⟩ (ps ++ [p]) := by
  obtain ⟨hfree, hprofiles⟩ := Cipher.ProfileRegistry.register_eq_ok hr
  have hnew : p.name ∉ s.db.rows.map UserProfileRow.name := by
    rw [h.names]
    intro hmem
    obtain ⟨q, hq, hname⟩ := List.mem_map.mp hmem
    exact hfree q (h.perm.symm.subset (List.mem_append_right _ hq)) hname
  have hnodup : ((s.db.rows ++ [(⟨p.name, some p.description, p.toBytes.toBytes, now, none⟩ :
      UserProfileRow)]).map UserProfileRow.name).Nodup := by
    rw [List.map_append]
    exact s.db.key.append (List.nodup_singleton _) (by simpa using hnew)
  refine ⟨⟨_, hnodup⟩, ?_, ?_⟩
  · rw [Host.insertUserRow, execute, zoom_apply, mapError, Option.elim_none, UserProfiles.insert,
      dif_neg hnew]
    rfl
  · refine ⟨List.rel_append h.rows (.cons ⟨rfl, rfl, rfl⟩ .nil), ?_, (h.distinct.register hr).1⟩
    rw [hprofiles, ← List.append_assoc]
    exact h.perm.append_right [p]

/-- Taking a profile out of memory and its row out of the table. -/
theorem Holds.delete (h : s.Holds ps) {name : String} {r : ProfileRegistry}
    (hr : s.store.registry.remove name = .ok r) :
    Holds ⟨⟨r⟩, s.db.delete name⟩ (ps.filter fun p ↦ p.name ≠ name) := by
  obtain ⟨hname, -⟩ := Cipher.ProfileRegistry.remove_eq_ok hr
  obtain ⟨hdistinct, hget⟩ := h.distinct.remove hr
  obtain ⟨p, rfl, hperm⟩ := Cipher.ProfileRegistry.remove_perm hr
  refine ⟨?_, ?_, hdistinct⟩
  · refine List.rel_filter (fun row q hof ↦ ?_) h.rows
    change decide (row.name ≠ p.name) = true ↔ decide (q.name ≠ p.name) = true
    rw [hof.name]
  · -- no other profile has the name that was given
    have hothers : ∀ q ∈ r.profiles, q.name ≠ p.name := by
      intro q hq heq
      have hsome := hdistinct.get_eq_some.mpr ⟨hq, heq⟩
      rw [hget, if_pos rfl] at hsome
      cases hsome
    have hleft : (p :: r.profiles).filter (fun q ↦ decide (q.name ≠ p.name)) = r.profiles := by
      rw [List.filter_cons_of_neg (by simp)]
      exact List.filter_eq_self.mpr fun q hq ↦ decide_eq_true (hothers q hq)
    have hright : withBuiltins.profiles.filter (fun q ↦ decide (q.name ≠ p.name))
        = withBuiltins.profiles := by
      refine List.filter_eq_self.mpr fun q hq ↦ decide_eq_true ?_
      intro heq
      exact hname (heq ▸ builtin_name_mem hq)
    have hfilter := (hperm.symm.trans h.perm).filter fun q ↦ decide (q.name ≠ p.name)
    rwa [hleft, List.filter_append, hright] at hfilter

end Stores

/-! ## Histories -/

/-- A call on the store. -/
inductive ProfileCall where
  | load
  | add (now : String) (profile : CipherProfile)
  | remove (name : String)

/-- A call, and what goes wrong with the statement it executes, if anything. -/
abbrev ProfileEvent : Type := ProfileCall × Option SqlError

namespace Stores

/-- Open the store anew. If it cannot be loaded, the one that is there stays. -/
def reload (fault : Option SqlError) : Fallible Stores GaldraError PUnit := fun s ↦
  match ProfileStore.load fault s.db with
  | .ok store => (.ok ⟨⟩, { s with store })
  | .error e => (.error e, s)

/-- Make a call. -/
def answer : ProfileEvent → Fallible Stores GaldraError PUnit
  | (.load, fault) => reload fault
  | (.add now profile, fault) => ProfileStore.add fault now profile
  | (.remove name, fault) => ProfileStore.remove fault name

/-- The call takes a profile out of memory, and its row stays. -/
def Orphans (s : Stores) : ProfileEvent → Prop
  | (.remove name, some _) => name ∉ builtinNames ∧ (s.store.registry.get name).isSome = true
  | _ => False

end Stores

/-- The stores, and the calls that were made with their outcomes, the last one first. -/
structure StoreHistory where
  stores : Stores
  log : List (ProfileCall × Except GaldraError PUnit)

namespace StoreHistory

/-- A new store over an empty table. -/
def start : StoreHistory := ⟨⟨⟨withBuiltins⟩, .empty⟩, []⟩

def step (h : StoreHistory) (e : ProfileEvent) : StoreHistory :=
  ⟨(Stores.answer e h.stores).2, (e.1, (Stores.answer e h.stores).1) :: h.log⟩

/-- The history of some calls. -/
def ofEvents (events : List ProfileEvent) : StoreHistory := events.foldl step start

/-- The profile that was last added under a name and not removed since. -/
def lastAdded (name : String) : List (ProfileCall × Except GaldraError PUnit) → Option CipherProfile
  | [] => withBuiltins.get name
  | (.add _ p, .ok _) :: log => if p.name = name then some p else lastAdded name log
  | (.remove removed, .ok _) :: log => if removed = name then none else lastAdded name log
  | _ :: log => lastAdded name log

/-- Memory and table agree, and the profile under a name is the one that was last added there. -/
structure Faithful (h : StoreHistory) : Prop where
  agrees : h.stores.Agrees
  get_eq : ∀ name, h.stores.store.registry.get name = lastAdded name h.log

variable {h : StoreHistory}

theorem faithful_start : start.Faithful := by
  have hholds : Stores.Holds start.stores [] :=
    ⟨.nil, (List.append_nil _).symm ▸ .refl _, Cipher.ProfileRegistry.History.sound_start.distinct⟩
  exact ⟨hholds.agrees, fun _ ↦ rfl⟩

/-- A failed call that changes nothing. -/
theorem Faithful.failed (hf : h.Faithful) {e : ProfileEvent} {err : GaldraError}
    (hstep : Stores.answer e h.stores = (.error err, h.stores)) : (h.step e).Faithful := by
  rw [step, hstep]
  refine ⟨hf.agrees, fun name ↦ ?_⟩
  obtain ⟨c, fault⟩ := e
  rw [hf.get_eq]
  cases c <;> rfl

/-- A name can be removed exactly if it is held and not built in. -/
theorem remove_isOk_iff {r : ProfileRegistry} {name : String} :
    (∃ r', r.remove name = .ok r') ↔ name ∉ builtinNames ∧ (r.get name).isSome = true := by
  have hfind : (r.get name).isSome = true ↔ ∃ i, r.profiles.findIdx? (·.name = name) = some i := by
    rw [ProfileRegistry.get, List.find?_isSome, ← Option.isSome_iff_exists, List.findIdx?_isSome,
      List.any_eq_true]
  rw [hfind]
  constructor
  · rintro ⟨r', hr⟩
    obtain ⟨hname, hr⟩ := ensure_bind_eq_ok.mp hr
    obtain ⟨i, hi, -⟩ := except_bind_eq_ok.mp hr
    exact ⟨hname, i, Cipher.okOr_eq_ok.mp hi⟩
  · rintro ⟨hname, i, hi⟩
    refine ⟨Cipher.ProfileRegistry.swapRemoveAt i r, ?_⟩
    rw [ProfileRegistry.remove, ensure_eq_ok.mpr hname, ok_bind, hi]
    rfl

/-- Opening the store anew. -/
theorem Faithful.load (hf : h.Faithful) (fault : Option SqlError) :
    (h.step (.load, fault)).Faithful := by
  cases fault with
  | some e => exact hf.failed rfl
  | none =>
    obtain ⟨ps, hholds⟩ := hf.agrees.holds
    obtain ⟨loaded, hload, hperm⟩ := hf.agrees.load
    have hanswer : Stores.answer (.load, none) h.stores = (.ok ⟨⟩, ⟨loaded, h.stores.db⟩) := by
      rw [Stores.answer, Stores.reload, hload]
    have hdistinct : loaded.registry.Distinct :=
      (hperm.map CipherProfile.name).nodup_iff.mpr hholds.distinct
    have hnext : Stores.Holds ⟨loaded, h.stores.db⟩ ps :=
      ⟨hholds.rows, hperm.trans hholds.perm, hdistinct⟩
    rw [step, hanswer]
    refine ⟨hnext.agrees, fun name ↦ ?_⟩
    exact (hholds.distinct.get_congr hdistinct fun p _ ↦ hperm.mem_iff).trans (hf.get_eq name)

/-- Adding a profile, also when the statement fails. -/
theorem Faithful.add (hf : h.Faithful) (now : String) (p : CipherProfile) (fault : Option SqlError) :
    (h.step (.add now p, fault)).Faithful := by
  obtain ⟨ps, hholds⟩ := hf.agrees.holds
  cases hr : h.stores.store.registry.register p with
  | error e => exact hf.failed (add_of_refused fault now hr)
  | ok r =>
    cases fault with
    | some e => exact hf.failed (add_of_failed hr (hholds.not_builtin hr) rfl)
    | none =>
      obtain ⟨db, hinsert, hnext⟩ := hholds.insertUserRow now hr
      have hanswer : Stores.answer (.add now p, none) h.stores = (.ok ⟨⟩, ⟨⟨r⟩, db⟩) :=
        add_of_ok hr hinsert
      rw [step, hanswer]
      refine ⟨hnext.agrees, fun name ↦ ?_⟩
      rw [(hholds.distinct.register hr).2, hf.get_eq]
      rfl

/-- Removing a profile, when the statement is executed. -/
theorem Faithful.remove (hf : h.Faithful) (name : String) :
    (h.step (.remove name, none)).Faithful := by
  obtain ⟨ps, hholds⟩ := hf.agrees.holds
  cases hr : h.stores.store.registry.remove name with
  | error e => exact hf.failed (remove_of_refused none hr)
  | ok r =>
    have hanswer : Stores.answer (.remove name, none) h.stores
        = (.ok ⟨⟩, ⟨⟨r⟩, h.stores.db.delete name⟩) := remove_of_ok none hr
    rw [step, hanswer]
    refine ⟨(hholds.delete hr).agrees, fun other ↦ ?_⟩
    rw [(hholds.distinct.remove hr).2, hf.get_eq]
    rfl

/-- A profile that is out of memory and still has its row. -/
theorem not_agrees_of_orphan {s : Stores} (hs : s.Agrees) {name : String} {r : ProfileRegistry}
    (hr : s.store.registry.remove name = .ok r) : ¬ Stores.Agrees ⟨⟨r⟩, s.db⟩ := by
  intro hnext
  obtain ⟨ps, hholds⟩ := hs.holds
  obtain ⟨hname, hheld⟩ := remove_isOk_iff.mp ⟨r, hr⟩
  obtain ⟨p, hp⟩ := Option.isSome_iff_exists.mp hheld
  obtain ⟨hmem, rfl⟩ := hholds.distinct.get_eq_some.mp hp
  have hps : p ∈ ps := by
    rcases List.mem_append.mp (hholds.perm.subset hmem) with hbuiltin | hps
    · exact absurd (Stores.builtin_name_mem hbuiltin) hname
    · exact hps
  have hrow : p.name ∈ s.db.rows.map UserProfileRow.name := by
    rw [hholds.names]
    exact List.mem_map_of_mem hps
  obtain ⟨row, hrow, heq⟩ := List.mem_map.mp hrow
  obtain ⟨q, hq, hof⟩ := hnext.rows row hrow
  -- the row's profile would be in memory, under the name that is gone
  obtain ⟨hdistinct, hget⟩ := hholds.distinct.remove hr
  have hsome := hdistinct.get_eq_some.mpr ⟨hq, hof.name.symm.trans heq⟩
  rw [hget, if_pos rfl] at hsome
  cases hsome

/-- **Step.** A call keeps the agreement unless it takes a profile out whose row stays. -/
theorem Faithful.step_iff (hf : h.Faithful) (e : ProfileEvent) :
    (h.step e).Faithful ↔ ¬ h.stores.Orphans e := by
  obtain ⟨c, fault⟩ := e
  cases c with
  | load => exact iff_of_true (hf.load fault) fun h ↦ h.elim
  | add now p => exact iff_of_true (hf.add now p fault) fun h ↦ h.elim
  | remove name =>
    cases fault with
    | none => exact iff_of_true (hf.remove name) fun h ↦ h.elim
    | some e =>
      cases hr : h.stores.store.registry.remove name with
      | error err =>
        refine iff_of_true (hf.failed (remove_of_refused (some e) hr)) fun horphan ↦ ?_
        obtain ⟨r, hr'⟩ := remove_isOk_iff.mpr horphan
        rw [hr] at hr'
        cases hr'
      | ok r =>
        refine iff_of_false (fun hnext ↦ ?_) (not_not.mpr (remove_isOk_iff.mp ⟨r, hr⟩))
        have hanswer : Stores.answer (.remove name, some e) h.stores
            = (.error (.database e), ⟨⟨r⟩, h.stores.db⟩) := remove_of_ok (some e) hr
        have hagrees := hnext.agrees
        rw [step, hanswer] at hagrees
        exact not_agrees_of_orphan hf.agrees hr hagrees

end StoreHistory

/-- **Two stores.** Along a run of calls, with statements failing wherever they may, the profiles in
memory are always those that loading the table would give, and each is the profile that was last
added under its name, exactly if no call takes a profile out of memory whose row it then fails to
delete. -/
theorem profileStore_agrees_iff (events : List ProfileEvent) :
    (∀ pre, pre <+: events → (StoreHistory.ofEvents pre).Faithful) ↔
      ∀ pre e, pre ++ [e] <+: events → ¬ (StoreHistory.ofEvents pre).stores.Orphans e :=
  @prefixes_iff _ _ StoreHistory.step StoreHistory.Faithful (fun h e ↦ ¬ h.stores.Orphans e)
    (fun e hf ↦ hf.step_iff e) events _ StoreHistory.faithful_start

/-- A profile is added and then removed while another connection holds the lock. It is gone from
memory, and loading the table brings it back. -/
theorem removed_profile_returns :
    ¬ (StoreHistory.ofEvents [(.add "2025-01-01T00:00:00+00:00" Cipher.aesProfile, none),
      (.remove "aes", some .busy)]).stores.Agrees := by
  have hadded := StoreHistory.faithful_start.add "2025-01-01T00:00:00+00:00" Cipher.aesProfile none
  have hheld : (StoreHistory.lastAdded "aes" (StoreHistory.start.step
      (.add "2025-01-01T00:00:00+00:00" Cipher.aesProfile, none)).log).isSome = true := rfl
  rw [← hadded.get_eq] at hheld
  obtain ⟨r, hr⟩ := StoreHistory.remove_isOk_iff.mpr ⟨by decide, hheld⟩
  have hremoved := remove_of_ok (some .busy) hr
  rw [StoreHistory.ofEvents, List.foldl_cons, List.foldl_cons, List.foldl_nil, StoreHistory.step,
    Stores.answer, hremoved]
  exact StoreHistory.not_agrees_of_orphan hadded.agrees hr

end Galdralag.Host
