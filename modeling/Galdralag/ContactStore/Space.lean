import Galdralag.ContactStore.FailedInsert

/-!
# Space that is lost

Both regions are allocated by moving a bump pointer forward. Nothing moves it back but a boot, which
sets it behind the last byte that a record refers to; the routines that compact a region have no
caller. So the bytes of a contact that was deleted, of a string that was replaced and of an
operation that failed halfway stay taken, and in the end an operation is refused although there is
room. As long as no step gives up any bytes, the bump pointers are no further than the bytes of the
contacts, and only what does not fit is refused.
-/

set_option linter.all false

namespace Galdralag.Contacts

namespace ContactStore

open Fallible (bind_of_ok bind_of_error)

variable {S C : Type} {hal : StorePlatform S C} {memory : S → Memory} {s s₁ : ContactStore S C}
  {mem mem' : Memory} {heap keys : ℕ} {slot : UInt8} {r : ContactRecord}

/-! ## Sums over a list -/

/-- The sum of a quantity over a list. -/
def tally {α : Type} (f : α → ℕ) : List α → ℕ
  | [] => 0
  | x :: l => f x + tally f l

theorem tally_congr {α : Type} {f g : α → ℕ} {l : List α} (h : ∀ x ∈ l, f x = g x) :
    tally f l = tally g l := by
  induction l with
  | nil => rfl
  | cons x l ih =>
    rw [tally, tally, h x List.mem_cons_self, ih fun y hy ↦ h y (List.mem_cons_of_mem x hy)]

theorem tally_eq_zero {α : Type} {f : α → ℕ} {l : List α} (h : ∀ x ∈ l, f x = 0) :
    tally f l = 0 := by
  induction l with
  | nil => rfl
  | cons x l ih =>
    rw [tally, h x List.mem_cons_self, ih fun y hy ↦ h y (List.mem_cons_of_mem x hy)]

/-- The quantity changes at one element. -/
theorem tally_change {α : Type} {f g : α → ℕ} {x : α} {l : List α} (hx : x ∈ l) (hnodup : l.Nodup)
    (h : ∀ y ∈ l, y ≠ x → f y = g y) : tally f l + g x = tally g l + f x := by
  induction l with
  | nil => cases hx
  | cons y l ih =>
    obtain ⟨hy, hnodup⟩ := List.nodup_cons.mp hnodup
    rw [tally, tally]
    rcases List.mem_cons.mp hx with rfl | hx
    · have hrest : tally f l = tally g l :=
        tally_congr fun z hz ↦ h z (List.mem_cons_of_mem _ hz) fun heq ↦ hy (heq ▸ hz)
      omega
    · have hne : y ≠ x := fun heq ↦ hy (heq ▸ hx)
      have hhead := h y List.mem_cons_self hne
      have hrest := ih hx hnodup fun z hz ↦ h z (List.mem_cons_of_mem _ hz)
      omega

/-! ## The bytes of the contacts -/

/-- The bytes of the strings of a record. -/
def stringBytes (r : ContactRecord) : ℕ := tally (fun ref ↦ ref.len.toNat) r.stringRefs

/-- The bytes of the key of a record. -/
def keyBytes (r : ContactRecord) : ℕ := r.keyLen.toNat

/-- What a record counts, if it is active. -/
def ifActive (f : ContactRecord → ℕ) (r : ContactRecord) : ℕ := if r.isActive then f r else 0

/-- What the active records of a storage count together. -/
def live (f : ContactRecord → ℕ) (mem : Memory) : ℕ :=
  tally (fun slot ↦ ifActive f (recordIn mem slot)) slots

/-- The bytes of the strings of all contacts. -/
def liveStrings (mem : Memory) : ℕ := live stringBytes mem

/-- The bytes of the keys of all contacts. -/
def liveKeys (mem : Memory) : ℕ := live keyBytes mem

theorem live_congr {f : ContactRecord → ℕ}
    (h : ∀ slot ∈ slots, recordIn mem' slot = recordIn mem slot) : live f mem' = live f mem :=
  tally_congr fun slot hslot ↦ by rw [h slot hslot]

/-- One record changes. -/
theorem live_change {f : ContactRecord → ℕ} (hslot : slot ∈ slots)
    (h : ∀ slot' ∈ slots, slot' ≠ slot → recordIn mem' slot' = recordIn mem slot') :
    live f mem' + ifActive f (recordIn mem slot) = live f mem + ifActive f (recordIn mem' slot) :=
  tally_change (f := fun slot ↦ ifActive f (recordIn mem' slot))
    (g := fun slot ↦ ifActive f (recordIn mem slot)) hslot nodup_slots
    fun slot' hslot' hne ↦ by rw [h slot' hslot' hne]

theorem stringBytes_eq (r : ContactRecord) : stringBytes r = r.email.len.toNat +
    (r.displayName.len.toNat + tally (fun ref ↦ ref.len.toNat) (r.stringRefs.drop 2)) := rfl

/-! ## Space -/

/-- An operation of the store that is refused for lack of space does not fit: the strings and keys
of the contacts and what is to be stored are too many bytes for a region. -/
structure NoSpaceLeak (hal : StorePlatform S C) (memory : S → Memory) (s : ContactStore S C) :
    Prop where
  insert : ∀ input s', insert hal input s = (.error .heapFull, s') →
    stringHeapBytes < liveStrings (memory s.storage) +
        (input.email.length + (input.displayName.getD []).length) ∨
      keyRegionBytes < liveKeys (memory s.storage) + input.publicKey.length
  update : ∀ slot upd s', update hal slot upd s = (.error .heapFull, s') →
    stringHeapBytes < liveStrings (memory s.storage) +
      ((upd.email.getD []).length + (upd.displayName.getD []).length)

/-- The bump pointers are no further than the bytes of the contacts. -/
structure Packed (memory : S → Memory) (s : ContactStore S C) : Prop where
  heap : s.stringHeap.bump.toNat ≤ liveStrings (memory s.storage)
  keys : s.keyRegion.bump.toNat ≤ liveKeys (memory s.storage)

/-- A string is refused for lack of space when it does not fit. -/
theorem stringRefusal_heapFull {n : ℕ} {bytes : Bytes} (hrefused : ¬ StringTaken n bytes)
    (h : stringRefusal bytes = .heapFull) : stringHeapBytes < n + bytes.length := by
  rw [stringRefusal] at h
  split_ifs at h with hlen
  exact Nat.lt_of_not_le fun hroom ↦ hrefused ⟨hlen, hroom⟩

/-- So is a key. -/
theorem keyRefusal_heapFull {bytes : Bytes} (hrefused : ¬ KeyTaken s bytes)
    (h : keyRefusal bytes = .heapFull) :
    keyRegionBytes < s.keyRegion.bump.toNat + bytes.length := by
  rw [keyRefusal] at h
  split_ifs at h with hlen
  exact Nat.lt_of_not_le fun hroom ↦ hrefused ⟨hlen, hroom⟩

/-- A missing verifier is no matter of space. -/
theorem pinFields_error {input : NewContact} {e : ContactStoreError}
    (h : pinFields input = .error e) : e = .pinFailed := by
  rw [pinFields] at h
  split_ifs at h
  rcases hv : input.pinVerifier with _ | pv
  · rw [hv] at h
    exact (Except.error.inj h).symm
  · rw [hv] at h
    cases h

section Faithful

variable (hf : hal.storage.Faithful contactStoreEnd memory)
include hf

theorem Packed.noSpaceLeak (h : Packed memory s) (hkept : Kept memory s) (hkeyed : Keyed hal s) :
    NoSpaceLeak hal memory s where
  insert input s' hrun := by
    have hheap := h.heap
    have hkeys := h.keys
    have hend := insert_outcome hf input hkept hkeyed
    rw [hrun] at hend
    generalize hfull : ContactStoreError.heapFull = e at hend
    cases hend with
    | closed hgate => cases hfull
    | full hgate hslot => cases hfull.trans (freeSlot_error hf hslot)
    | keyRefused hgate hslot hkey =>
      have hlt := keyRefusal_heapFull hkey hfull.symm
      exact .inr (by omega)
    | unverified hgate hslot hkey hpin halloc =>
      cases hfull.trans (pinFields_error hpin)
    | emailRefused hgate hslot hkey hpin hemail halloc =>
      have hlt := stringRefusal_heapFull hemail hfull.symm
      exact .inl (by omega)
    | nameRefused hgate hslot hkey hpin hemail hsome hname halloc =>
      have hlt := stringRefusal_heapFull hname hfull.symm
      rw [hsome, Option.getD_some]
      exact .inl (by omega)
  update slot upd s' hrun := by
    have hheap := h.heap
    by_cases hslot : slot ∈ slots
    · have hend := update_outcome hf upd hkept hkeyed hslot
      rw [hrun] at hend
      generalize hfull : ContactStoreError.heapFull = e at hend
      cases hend with
      | closed hgate => cases hfull
      | vacant hgate hfree => cases hfull
      | emailRefused hgate hocc hsome hemail =>
        have hlt := stringRefusal_heapFull hemail hfull.symm
        rw [hsome, Option.getD_some]
        omega
      | nameRefused hgate hocc hemail hsome hname halloc =>
        have hlt := stringRefusal_heapFull hname hfull.symm
        rw [hsome, Option.getD_some]
        omega
    · have hend := update_behind hf upd hkept hkeyed hslot
      rw [hrun] at hend
      generalize hfull : ContactStoreError.heapFull = e at hend
      cases hend with
      | refused hne => exact absurd hfull.symm hne
      | emailRefused hgate hread hactive hsome hemail =>
        have hlt := stringRefusal_heapFull hemail hfull.symm
        rw [hsome, Option.getD_some]
        omega
      | nameRefused hgate hread hactive hemail hsome hname halloc =>
        have hlt := stringRefusal_heapFull hname hfull.symm
        rw [hsome, Option.getD_some]
        omega

end Faithful

/-! ## Steps that give up bytes -/

/-- The strings of an update are accepted. -/
structure UpdateAccepted (s : ContactStore S C) (upd : ContactUpdate) : Prop where
  email : ∀ bytes, upd.email = some bytes → StringTaken s.stringHeap.bump.toNat bytes
  name : ∀ bytes, upd.displayName = some bytes →
    StringTaken (s.stringHeap.bump.toNat + (upd.email.getD []).length) bytes

/-- An update replaces no string but empty ones. -/
structure ReplacesEmpty (r : ContactRecord) (upd : ContactUpdate) : Prop where
  email : upd.email.isSome = true → r.email.len.toNat = 0
  name : upd.displayName.isSome = true → r.displayName.len.toNat = 0

/-- An operation that gives up bytes of a contact: an update replaces a string, a deletion takes
away a contact with a string or a key. -/
inductive Discards (memory : S → Memory) (s : ContactStore S C) : Mutation → Prop where
  | replaces {slot : {slot : UInt8 // slot ∈ slots}} {upd : ContactUpdate}
    (hgate : s.integrityGate = true) (hocc : Occupied (memory s.storage) slot)
    (haccepted : UpdateAccepted s upd)
    (h : ¬ ReplacesEmpty (recordIn (memory s.storage) slot) upd) :
    Discards memory s (.update slot upd)
  | deletes {slot : {slot : UInt8 // slot ∈ slots}} (hgate : s.integrityGate = true)
    (hocc : Occupied (memory s.storage) slot)
    (h : ¬ (stringBytes (recordIn (memory s.storage) slot) = 0 ∧
      keyBytes (recordIn (memory s.storage) slot) = 0)) :
    Discards memory s (.delete slot)

/-- An action that gives up bytes. -/
inductive GivesUp (hal : StorePlatform S C) (memory : S → Memory) (s : ContactStore S C) :
    StoreAction C → Prop where
  | insert {input : NewContact} (h : Leaks hal s input) : GivesUp hal memory s (.insert input)
  | update {slot : {slot : UInt8 // slot ∈ slots}} {upd : ContactUpdate}
    (h : Discards memory s (.update slot upd)) : GivesUp hal memory s (.update slot.1 upd)
  | delete {slot : {slot : UInt8 // slot ∈ slots}} (h : Discards memory s (.delete slot)) :
    GivesUp hal memory s (.delete slot.1)
  /-- The name of an update is refused, behind an e-mail that is not empty. -/
  | updateFails {slot : UInt8} {upd : ContactUpdate} {r : ContactRecord} {name : Bytes}
    (hgate : s.integrityGate = true) (hread : readRecord hal s slot = .ok r)
    (hactive : r.isActive = true)
    (hemail : ∀ bytes, upd.email = some bytes → StringTaken s.stringHeap.bump.toNat bytes)
    (hne : upd.email.getD [] ≠ []) (hsome : upd.displayName = some name)
    (hname : ¬ StringTaken (s.stringHeap.bump.toNat + (upd.email.getD []).length) name) :
    GivesUp hal memory s (.update slot upd)
  /-- An update stores strings for a slot behind the last record. -/
  | updateBehind {slot : UInt8} {upd : ContactUpdate} {r : ContactRecord} (hslot : slot ∉ slots)
    (hgate : s.integrityGate = true) (hread : readRecord hal s slot = .ok r)
    (hactive : r.isActive = true) (haccepted : UpdateAccepted s upd)
    (hne : ¬ (upd.email.getD [] = [] ∧ upd.displayName.getD [] = [])) :
    GivesUp hal memory s (.update slot upd)
  /-- The power is lost after such an operation has written its record. -/
  | interrupted {op : Mutation} {n : ℕ} {counter : C} (hn : op.writes ≤ n + 1)
    (h : Discards memory s op) : GivesUp hal memory s (.interrupted op n counter)

/-- A run in which no step gives up any bytes. -/
def Tidy (hal : StorePlatform S C) (memory : S → Memory) (p : ContactStore S C × C)
    (actions : List (StoreAction C)) : Prop :=
  ∀ pre action post, actions = pre ++ action :: post →
    ¬ GivesUp hal memory (afterActions hal p pre).1 action

/-! ## A step that gives up nothing -/

/-- The records stay, and the bump pointers do not move on. -/
theorem Packed.congr (h : Packed memory s)
    (hrecords : ∀ slot ∈ slots,
      recordIn (memory s₁.storage) slot = recordIn (memory s.storage) slot)
    (hheap : s₁.stringHeap.bump.toNat ≤ s.stringHeap.bump.toNat)
    (hkeys : s₁.keyRegion.bump.toNat ≤ s.keyRegion.bump.toNat) : Packed memory s₁ := by
  refine ⟨?_, ?_⟩
  · rw [liveStrings, live_congr hrecords]
    exact Nat.le_trans hheap h.heap
  · rw [liveKeys, live_congr hrecords]
    exact Nat.le_trans hkeys h.keys

theorem Settled.packed (hsettled : Settled memory s s₁) (h : Packed memory s) :
    Packed memory s₁ := by
  apply h.congr fun slot hslot ↦ recordIn_congr hsettled.intact hslot
  · exact Nat.le_of_eq (by rw [hsettled.heap])
  · exact Nat.le_of_eq (by rw [hsettled.keys])

/-- Allocations of nothing. -/
theorem Allots.packed (halloc : Allots memory s s₁ 0 0) (hkept : Kept memory s)
    (h : Packed memory s) : Packed memory s₁ := by
  obtain ⟨ws, hws⟩ := halloc.allocates
  exact h.congr (fun slot hslot ↦ recordIn_congr (hws.intact hkept.live.heap_le) hslot)
    (Nat.le_of_eq halloc.heap_eq) (Nat.le_of_eq halloc.keys_eq)

/-- A record is written, and the records in the other slots stay. -/
theorem Commits.others {s' : ContactStore S C} {d : Block 32} {m n : ℕ}
    (hcommits : Commits hal memory s₁ s' slot r d) (halloc : Allots memory s s₁ m n)
    (hkept : Kept memory s) : ∀ slot' ∈ slots, slot' ≠ slot →
      recordIn (memory s'.storage) slot' = recordIn (memory s.storage) slot' := by
  obtain ⟨ws, hws⟩ := halloc.allocates
  intro slot' hslot' hne
  rw [recordIn_congr hcommits.intact hslot', recordIn_written_of_ne hne]
  exact recordIn_congr (hws.intact hkept.live.heap_le) hslot'

/-- One record is written, and counts as many bytes more than the one before it as were allocated.
-/
theorem Commits.packed {s' : ContactStore S C} {d : Block 32} {m n : ℕ}
    (hcommits : Commits hal memory s₁ s' slot r d) (halloc : Allots memory s s₁ m n)
    (hrest : s' = { s₁ with
      storage := s'.storage, index := s'.index, integrityRegister := s'.integrityRegister })
    (hkept : Kept memory s) (h : Packed memory s) (hslot : slot ∈ slots)
    (hself : recordIn (written (memory s₁.storage) slot r) slot = r)
    (hstrings : ifActive stringBytes (recordIn (memory s.storage) slot) + m
      ≤ ifActive stringBytes r)
    (hkeys : ifActive keyBytes (recordIn (memory s.storage) slot) + n ≤ ifActive keyBytes r) :
    Packed memory s' := by
  have hothers := hcommits.others halloc hkept
  have hliveStrings := live_change (f := stringBytes) hslot hothers
  have hliveKeys := live_change (f := keyBytes) hslot hothers
  rw [recordIn_congr hcommits.intact hslot, hself] at hliveStrings hliveKeys
  have hheapEq : s'.stringHeap.bump.toNat = s.stringHeap.bump.toNat + m := by
    rw [hrest]
    exact halloc.heap_eq
  have hkeysEq : s'.keyRegion.bump.toNat = s.keyRegion.bump.toNat + n := by
    rw [hrest]
    exact halloc.keys_eq
  have hheap := h.heap
  have hkeysLe := h.keys
  rw [liveStrings] at hheap
  rw [liveKeys] at hkeysLe
  constructor
  · rw [liveStrings]
    omega
  · rw [liveKeys]
    omega

/-- A record is written behind the last slot, and nothing was allocated. -/
theorem Commits.packed_behind {s' : ContactStore S C} {d : Block 32}
    (hcommits : Commits hal memory s₁ s' slot r d) (halloc : Allots memory s s₁ 0 0)
    (hrest : s' = { s₁ with
      storage := s'.storage, index := s'.index, integrityRegister := s'.integrityRegister })
    (hkept : Kept memory s) (h : Packed memory s) (hslot : slot ∉ slots) : Packed memory s' := by
  apply h.congr fun slot' hslot' ↦
    hcommits.others halloc hkept slot' hslot' fun heq ↦ hslot (heq ▸ hslot')
  · rw [hrest]
    exact Nat.le_of_eq halloc.heap_eq
  · rw [hrest]
    exact Nat.le_of_eq halloc.keys_eq

/-- What changes no record and moves no bump pointer. -/
theorem Unaffected.packed (hsame : Unaffected memory s s₁) {m n : ℕ}
    (halloc : Allots memory s s₁ m n) (hkept : Kept memory s) (h : Packed memory s) :
    Packed memory s₁ := by
  obtain ⟨rfl, rfl⟩ := (halloc.unaffected_iff hkept).mp hsame
  exact halloc.packed hkept h

/-! ## The scan of the boot -/

/-- A running maximum is no more than its start and all that goes into it. -/
theorem foldl_max_le {α : Type} {f : α → UInt32} {n : ℕ} {l : List α}
    (h : ∀ x ∈ l, (f x).toNat ≤ n) : ∀ {b : UInt32}, b.toNat ≤ n →
      (l.foldl (fun b x ↦ max b (f x)) b).toNat ≤ n := by
  induction l with
  | nil => exact id
  | cons x l ih =>
    intro b hb
    rw [List.foldl_cons]
    apply ih fun y hy ↦ h y (List.mem_cons_of_mem x hy)
    rw [toNat_max]
    exact Nat.max_le.mpr ⟨hb, h x List.mem_cons_self⟩

/-- A record that fits takes the scan no further than the bump pointers. -/
theorem Fits.scanStep_le (h : Fits heap keys r) {bumps : UInt32 × UInt32}
    (hheap : bumps.1.toNat ≤ heap) (hkeys : bumps.2.toNat ≤ keys) :
    (scanStep bumps r).1.toNat ≤ heap ∧ (scanStep bumps r).2.toNat ≤ keys := by
  constructor
  · apply foldl_max_le _ hheap
    intro ref href
    have hend := h.strings ref (List.mem_of_mem_filter href)
    rw [toNat_saturatingAdd, UInt16.toNat_toUInt32]
    exact Nat.le_trans (Nat.min_le_left _ _) hend
  · rw [scanStep]
    split_ifs with hlen
    · have hend : r.keyOffset.toNat + r.keyLen.toNat ≤ keys := by
        rcases h.key with hzero | hend
        · rw [hzero] at hlen
          exact absurd hlen (by decide)
        · exact hend
      rw [toNat_max, toNat_saturatingAdd, UInt16.toNat_toUInt32]
      exact Nat.max_le.mpr ⟨hkeys, Nat.le_trans (Nat.min_le_left _ _) hend⟩
    · exact hkeys

theorem foldl_scanStep_le {records : List ContactRecord} (h : ∀ r ∈ records, Fits heap keys r) :
    ∀ {bumps : UInt32 × UInt32}, bumps.1.toNat ≤ heap → bumps.2.toNat ≤ keys →
      (records.foldl scanStep bumps).1.toNat ≤ heap ∧
        (records.foldl scanStep bumps).2.toNat ≤ keys := by
  induction records with
  | nil => exact fun hheap hkeys ↦ ⟨hheap, hkeys⟩
  | cons r records ih =>
    intro bumps hheap hkeys
    obtain ⟨hheap, hkeys⟩ := (h r List.mem_cons_self).scanStep_le hheap hkeys
    rw [List.foldl_cons]
    exact ih (fun q hq ↦ h q (List.mem_cons_of_mem r hq)) hheap hkeys

/-- The scan goes no further than bump pointers behind all active records. -/
theorem Live.scanBumps_le (h : Live mem heap keys) :
    (scanBumps (slots.map (recordIn mem))).1.toNat ≤ heap ∧
      (scanBumps (slots.map (recordIn mem))).2.toNat ≤ keys := by
  rw [scanBumps_eq]
  apply foldl_scanStep_le _ (Nat.zero_le _) (Nat.zero_le _)
  intro r hr
  obtain ⟨hr, hactive⟩ := List.mem_filter.mp hr
  obtain ⟨slot, hslot, rfl⟩ := List.mem_map.mp hr
  exact h.fits slot hslot ((isActive_recordIn h hslot).mp hactive)

/-- A boot over the records of a store. -/
theorem Rebuilt.packed (hrebuilt : Rebuilt memory s₁) (hkept : Kept memory s)
    (hrecords : ∀ slot ∈ slots,
      recordIn (memory s₁.storage) slot = recordIn (memory s.storage) slot)
    (h : Packed memory s) : Packed memory s₁ := by
  have hsame : slots.map (recordIn (memory s₁.storage)) = slots.map (recordIn (memory s.storage)) :=
    List.map_congr_left hrecords
  obtain ⟨hheap, hkeys⟩ := hkept.live.scanBumps_le
  apply h.congr hrecords
  · rw [hrebuilt.heap, hsame, toNat_setBump_heap]
    exact Nat.le_trans (Nat.min_le_left _ _) hheap
  · rw [hrebuilt.keys, hsame, toNat_setBump_keys]
    exact Nat.le_trans (Nat.min_le_left _ _) hkeys

/-! ## The operations -/

theorem ifActive_of_active {f : ContactRecord → ℕ} (h : r.isActive = true) : ifActive f r = f r :=
  if_pos h

theorem ifActive_of_vacant {f : ContactRecord → ℕ} (hkept : Kept memory s) (hslot : slot ∈ slots)
    (h : ¬ Occupied (memory s.storage) slot) : ifActive f (recordIn (memory s.storage) slot) = 0 :=
  if_neg fun hactive ↦ h ((isActive_recordIn hkept.live hslot).mp hactive)

/-- An active record is read back as it was written. -/
theorem recordIn_written_active (h : r.isActive = true) :
    recordIn (written mem slot r) slot = r := by
  rw [ContactRecord.isActive, Bool.and_eq_true, beq_iff_eq] at h
  exact recordIn_written_self h.1

/-- So is an empty one. -/
theorem recordIn_written_default : recordIn (written mem slot .default) slot = .default := by
  have hfree : ¬ Occupied (written mem slot .default) slot := by
    rw [occupied_written, if_pos rfl]
    decide
  rw [recordIn, if_neg hfree]

/-- The length of a string that was stored. -/
theorem StringAt.toNat_len {ref : StringRef} {bytes : Bytes} (h : StringAt memory s ref bytes) :
    ref.len.toNat = bytes.length := by
  rw [← h.read, Memory.length_window]

/-- The length of a key that was stored. -/
theorem KeyAt.toNat_len {key : UInt32 × UInt16} {bytes : Bytes} (h : KeyAt memory s key bytes) :
    key.2.toNat = bytes.length := by
  rw [← h.read, Memory.length_window]

theorem stringBytes_newRecord (input : NewContact) (key : UInt32 × UInt16)
    (pin : Block 32 × Block 12 × Block 16) (email name : StringRef) :
    stringBytes (newRecord input key pin email name).recomputeCrc
      = email.len.toNat + name.len.toNat := by
  have hrefs : (newRecord input key pin email name).recomputeCrc.stringRefs
      = email :: name :: List.replicate 13 .default := rfl
  have hrest : tally (fun ref : StringRef ↦ ref.len.toNat) (List.replicate 13 .default) = 0 := by
    refine tally_eq_zero fun ref href ↦ ?_
    rw [List.eq_of_mem_replicate href]
    rfl
  rw [stringBytes, hrefs, tally, tally, hrest, Nat.add_zero]

/-- An update leaves all references but two. -/
theorem stringBytes_updatedRecord (upd : ContactUpdate) (r : ContactRecord)
    (email name : StringRef) :
    stringBytes (updatedRecord upd r email name).recomputeCrc = email.len.toNat +
      (name.len.toNat + tally (fun ref ↦ ref.len.toNat) (r.stringRefs.drop 2)) := rfl

theorem isActive_updatedRecord {upd : ContactUpdate} {email name : StringRef}
    (h : r.isActive = true) : (updatedRecord upd r email name).recomputeCrc.isActive = true := by
  obtain ⟨hmagic, hflags⟩ := Bool.and_eq_true_iff.mp h
  exact Bool.and_eq_true_iff.mpr ⟨hmagic, active_flagsAfter hflags upd.stale⟩

/-- A string that replaces an empty one counts what was allocated for it. -/
theorem length_replaced {ref old : StringRef} {new : Option Bytes}
    (hsome : ∀ bytes, new = some bytes → ref.len.toNat = bytes.length)
    (hnone : new = none → ref = old) (hempty : new.isSome = true → old.len.toNat = 0) :
    old.len.toNat + (new.getD []).length = ref.len.toNat := by
  rcases new with _ | bytes
  · rw [hnone rfl]
    rfl
  · rw [hempty rfl, hsome bytes rfl, Nat.zero_add, Option.getD_some]

section Operations

variable (hf : hal.storage.Faithful contactStoreEnd memory)
include hf

/-- An insertion that fails without effect, or succeeds. -/
theorem insert_packed {input : NewContact} (hkept : Kept memory s) (hkeyed : Keyed hal s)
    (hpacked : Packed memory s) (hwhole : FailsWhole hal memory s input) :
    Packed memory (insert hal input s).2 := by
  have hend := insert_outcome hf input hkept hkeyed
  rw [FailsWhole] at hwhole
  generalize insert hal input s = res at hend hwhole ⊢
  cases hend with
  | closed hgate => exact hpacked
  | full hgate hslot => exact hpacked
  | keyRefused hgate hslot hkey => exact hpacked
  | unverified hgate hslot hkey hpin halloc => exact (hwhole _ _ rfl).packed halloc hkept hpacked
  | emailRefused hgate hslot hkey hpin hemail halloc =>
    exact (hwhole _ _ rfl).packed halloc hkept hpacked
  | nameRefused hgate hslot hkey hpin hemail hsome hname halloc =>
    exact (hwhole _ _ rfl).packed halloc hkept hpacked
  | done hgate hslot hkey hpin hemail hname halloc hkeyAt hemailAt hoffset hnameAt hindex hcommits
      hrest =>
    obtain ⟨hslot, hfree⟩ := freeSlot_ok hf hslot
    refine hcommits.packed halloc hrest hkept hpacked hslot
      (recordIn_written_active (isActive_newRecord ..)) ?_ ?_
    · apply Nat.le_of_eq
      rw [ifActive_of_vacant hkept hslot hfree, ifActive_of_active (isActive_newRecord ..),
        stringBytes_newRecord, hemailAt.toNat_len, hnameAt.toNat_len, Nat.zero_add]
    · apply Nat.le_of_eq
      rw [ifActive_of_vacant hkept hslot hfree, ifActive_of_active (isActive_newRecord ..),
        Nat.zero_add]
      exact hkeyAt.toNat_len.symm

/-- An update of one of the slots that succeeds, and replaces no string but empty ones. -/
theorem update_packed {upd : ContactUpdate} {s' : ContactStore S C} (hkept : Kept memory s)
    (hkeyed : Keyed hal s) (hpacked : Packed memory s) (hslot : slot ∈ slots)
    (hrun : update hal slot upd s = (.ok ⟨⟩, s'))
    (h : ¬ Discards memory s (.update ⟨slot, hslot⟩ upd)) : Packed memory s' := by
  have hend := update_outcome hf upd hkept hkeyed hslot
  rw [hrun] at hend
  cases hend with
  | done hgate hocc hemail hemailKept hname hnameKept halloc hindex hcommits hrest =>
    have hactive := (isActive_recordIn hkept.live hslot).mpr hocc
    have hreplaces : ReplacesEmpty (recordIn (memory s.storage) slot) upd := by
      by_contra hreplaces
      exact h (.replaces hgate hocc
        ⟨fun b hb ↦ (hemail b hb).1, fun b hb ↦ (hname b hb).1⟩ hreplaces)
    refine hcommits.packed halloc hrest hkept hpacked hslot
      (recordIn_written_active (isActive_updatedRecord hactive)) ?_ ?_
    · rw [ifActive_of_active hactive, ifActive_of_active (isActive_updatedRecord hactive),
        stringBytes_updatedRecord, stringBytes_eq]
      have hemailLen := length_replaced (fun b hb ↦ (hemail b hb).2.2) hemailKept hreplaces.email
      have hnameLen := length_replaced (fun b hb ↦ (hname b hb).2.2) hnameKept hreplaces.name
      omega
    · rw [ifActive_of_active hactive, ifActive_of_active (isActive_updatedRecord hactive)]
      exact Nat.le_refl _

/-- A deletion of a contact without strings and key, or of none. -/
theorem delete_packed (hkept : Kept memory s) (hkeyed : Keyed hal s) (hpacked : Packed memory s)
    (hslot : slot ∈ slots) (h : ¬ Discards memory s (.delete ⟨slot, hslot⟩)) :
    Packed memory (delete hal slot s).2 := by
  have hend := delete_outcome hf hkept hkeyed slot
  generalize delete hal slot s = res at hend ⊢
  cases hend with
  | closed hgate => exact hpacked
  | done hgate hindex hcommits hrest =>
    have hzero : ifActive stringBytes (recordIn (memory s.storage) slot) = 0 ∧
        ifActive keyBytes (recordIn (memory s.storage) slot) = 0 := by
      by_cases hocc : Occupied (memory s.storage) slot
      · have hactive := (isActive_recordIn hkept.live hslot).mpr hocc
        rw [ifActive_of_active hactive, ifActive_of_active hactive]
        by_contra hbytes
        exact h (.deletes hgate hocc hbytes)
      · exact ⟨ifActive_of_vacant hkept hslot hocc, ifActive_of_vacant hkept hslot hocc⟩
    refine hcommits.packed (.refl s) hrest hkept hpacked hslot recordIn_written_default ?_ ?_
    · rw [hzero.1]
      exact Nat.zero_le _
    · rw [hzero.2]
      exact Nat.zero_le _

end Operations

/-! ## Runs -/

/-- Provisioning starts both regions afresh. -/
theorem provisionFresh_afresh {p p' : ContactStore S C × C}
    (h : provisionFresh hal p = (.ok ⟨⟩, p')) :
    p'.1.stringHeap = .new ∧ p'.1.keyRegion = .new := by
  simp only [provisionFresh, besideCounter, Fallible.bind_eq_ok, Fallible.zoom_eq_ok,
    Fallible.modify_eq_ok, eraseBand_eq, writeProvisionMarker, storing] at h
  -- behind the erasure, the register, the counter and the marker are written
  obtain ⟨_, _, -, _, _, -, _, _, -, _, _, -, _, _, -, _, _, ⟨_, ⟨_, _, -, rfl⟩, rfl⟩, _, _,
    ⟨_, hupdate, rfl⟩, _, _, ⟨_, -, rfl⟩, _, _, ⟨_, ⟨_, -, rfl⟩, rfl⟩, _, rfl, rfl⟩ := h
  have hrest := updateIntegrity_rest hupdate
  exact ⟨congrArg ContactStore.stringHeap hrest, congrArg ContactStore.keyRegion hrest⟩

section Runs

variable (hf : hal.storage.Faithful contactStoreEnd memory)
include hf

/-- An operation that succeeds and gives up nothing. -/
theorem Mutation.packed (op : Mutation) {s' : ContactStore S C} (hkept : Kept memory s)
    (hkeyed : Keyed hal s) (hpacked : Packed memory s) (hrun : op.run hal s = (.ok ⟨⟩, s'))
    (h : ¬ Discards memory s op) : Packed memory s' := by
  cases op with
  | insert input =>
    obtain ⟨slot, t, hinsert, hpure⟩ := Fallible.bind_eq_ok.mp hrun
    obtain rfl : t = s' := (Prod.mk.inj hpure).2
    have hwhole : FailsWhole hal memory s input := by
      intro e s₁ hfailed
      cases hinsert.symm.trans hfailed
    have hdone := insert_packed hf hkept hkeyed hpacked hwhole
    rwa [hinsert] at hdone
  | update slot upd => exact update_packed hf hkept hkeyed hpacked slot.2 hrun h
  | delete slot =>
    have hdone := delete_packed hf hkept hkeyed hpacked slot.2 h
    have hrun : ContactStore.delete hal slot.1 s = (.ok ⟨⟩, s') := hrun
    rwa [hrun] at hdone

/-- **Step.** An action that gives up nothing. -/
theorem packed_step {p : ContactStore S C × C} {action : StoreAction C} (hkept : Kept memory p.1)
    (hkeyed : Keyed hal p.1) (hpacked : Packed memory p.1) (h : ¬ GivesUp hal memory p.1 action) :
    Packed memory (action.after hal p).1 := by
  have heffect := action_effect hf hkept hkeyed action
  generalize (action.after hal p).1 = s' at heffect ⊢
  cases heffect with
  | settled hsettled => exact hsettled.packed hpacked
  | booted hrebuilt hstorage hkey =>
    exact hrebuilt.packed hkept (fun slot hslot ↦ by rw [hstorage]) hpacked
  | @interrupted op n counter s' hrebuilt hstorage hkey =>
    rcases op.interrupted_cases hf hkept hkeyed n with ⟨-, hintact, -⟩ |
      ⟨hlast, s₁, t, ws, r, d, slot, hslot, hrun, -, hcommits, hmem⟩ |
      ⟨hall, t, s₁, ws, tail, slot, hslot, c, hrun, -, ⟨r, d, -, hcommits, -⟩, hafter⟩
    · -- the record was not written
      rw [← hstorage] at hintact
      exact hrebuilt.packed hkept (fun slot hslot ↦ recordIn_congr hintact hslot) hpacked
    · -- the record was written, the register was not
      have hpacked' := op.packed hf hkept hkeyed hpacked hrun fun hd ↦
        h (.interrupted (Nat.le_of_eq hlast.symm) hd)
      apply hrebuilt.packed hcommits.kept _ hpacked'
      intro slot' hslot'
      rw [hstorage, hmem, recordIn_congr hcommits.intact hslot']
    · -- the operation was over
      have hpacked' := op.packed hf hkept hkeyed hpacked hrun fun hd ↦
        h (.interrupted (Nat.le_succ_of_le hall) hd)
      exact hrebuilt.packed hcommits.kept (fun slot _ ↦ by rw [hstorage, hafter]) hpacked'
  | insert input =>
    exact insert_packed hf hkept hkeyed hpacked
      ((failsWhole_iff_of_kept hf hkept hkeyed input).mpr fun hleaks ↦ h (.insert hleaks))
  | update slot upd =>
    by_cases hslot : slot ∈ slots
    · have hdone : ∀ s', update hal slot upd p.1 = (.ok ⟨⟩, s') → Packed memory s' :=
        fun s' hrun ↦ update_packed hf hkept hkeyed hpacked hslot hrun fun hd ↦
          h (GivesUp.update hd)
      have hend := update_outcome hf upd hkept hkeyed hslot
      generalize update hal slot upd p.1 = res at hend hdone ⊢
      cases hend with
      | closed hgate => exact hpacked
      | vacant hgate hfree => exact hpacked
      | emailRefused hgate hocc hsome hemail => exact hpacked
      | nameRefused hgate hocc hemail hsome hname halloc =>
        -- the new address is allotted by then and no record will refer to it
        have hnil : upd.email.getD [] = [] := by
          by_contra hne
          exact h (.updateFails hgate (readRecord_of_sound hf hkept.live.sound hslot)
            ((isActive_recordIn hkept.live hslot).mpr hocc) hemail hne hsome hname)
        rw [hnil] at halloc
        exact Allots.packed halloc hkept hpacked
      | done => exact hdone _ rfl
    · have hend := update_behind hf upd hkept hkeyed hslot
      generalize update hal slot upd p.1 = res at hend ⊢
      cases hend with
      | refused hne => exact hpacked
      | emailRefused hgate hread hactive hsome hemail => exact hpacked
      | nameRefused hgate hread hactive hemail hsome hname halloc =>
        have hnil : upd.email.getD [] = [] := by
          by_contra hne
          exact h (.updateFails hgate hread hactive hemail hne hsome hname)
        rw [hnil] at halloc
        exact Allots.packed halloc hkept hpacked
      | done hgate hread hactive hemail hname halloc hindex hcommits hrest =>
        have hnil : upd.email.getD [] = [] ∧ upd.displayName.getD [] = [] := by
          by_contra hne
          exact h (.updateBehind hslot hgate hread hactive ⟨hemail, hname⟩ hne)
        rw [hnil.1, hnil.2] at halloc
        exact hcommits.packed_behind halloc hrest hkept hpacked hslot
  | delete slot =>
    by_cases hslot : slot ∈ slots
    · exact delete_packed hf hkept hkeyed hpacked hslot fun hd ↦
        h (GivesUp.delete hd)
    · have hend := delete_outcome hf hkept hkeyed slot
      generalize delete hal slot p.1 = res at hend ⊢
      cases hend with
      | closed hgate => exact hpacked
      | done hgate hindex hcommits hrest =>
        exact hcommits.packed_behind (.refl p.1) hrest hkept hpacked hslot

/-- **Run.** As long as no action gives up bytes, a provisioned store stays packed. -/
theorem packed_afterActions (actions : List (StoreAction C)) : ∀ {p : ContactStore S C × C},
    Tracked hal memory p.1 → (Kept memory p.1 → Packed memory p.1) → Tidy hal memory p actions →
      Kept memory (afterActions hal p actions).1 →
        Packed memory (afterActions hal p actions).1 := by
  induction actions with
  | nil => exact fun _ hpacked _ hkept ↦ hpacked hkept
  | cons action actions ih =>
    intro p htracked hpacked htidy
    rw [afterActions_cons]
    refine ih (tracked_step hf htracked action) (fun hkept' ↦ ?_) fun pre action' post heq ↦ ?_
    · rcases htracked with ⟨hmarker, hgate⟩ | ⟨hkept, hkeyed⟩
      · rcases after_unprovisioned hf hmarker hgate action with ⟨hmarker', -⟩ | ⟨rfl, hok, -, -⟩
        · exact absurd hmarker' hkept'.live.sound.marker
        · obtain ⟨hheap, hkeys⟩ := provisionFresh_afresh (Prod.ext hok rfl)
          rw [StoreAction.after]
          constructor
          · rw [hheap]
            exact Nat.zero_le _
          · rw [hkeys]
            exact Nat.zero_le _
      · exact packed_step hf hkept hkeyed (hpacked hkept) (htidy [] action actions rfl)
    · have h := htidy (action :: pre) action' post (by rw [heq, List.cons_append])
      rwa [afterActions_cons] at h

end Runs

/-- A contact with a key of the full length. -/
def bulkyContact : NewContact :=
  { protectedContact with
    publicKey := .replicate maxPublicKeyBytes 0
    pinProtected := false }

/-- The contact is inserted, into the first slot of recipients, and deleted again. -/
def rounds {C : Type} : ℕ → List (StoreAction C)
  | 0 => []
  | n + 1 => .insert bulkyContact :: .delete 4 :: rounds n

/-- An open store without contacts, with `n` bytes of its key region taken. -/
structure Emptied (hal : StorePlatform S C) (memory : S → Memory) (n : ℕ) (s : ContactStore S C) :
    Prop where
  kept : Kept memory s
  keyed : Keyed hal s
  gate : s.integrityGate = true
  vacant : ∀ slot ∈ slots, ¬ Occupied (memory s.storage) slot
  taken : s.keyRegion.bump.toNat = n

section Emptied

variable {n : ℕ} (hf : hal.storage.Faithful contactStoreEnd memory)
include hf

theorem Emptied.freeSlot (h : Emptied hal memory n s) : freeSlot hal s false = .ok 4 := by
  have hfirst : slots.drop recipientSlotStart = 4 :: slots.drop (recipientSlotStart + 1) := rfl
  rw [ContactStore.freeSlot, if_neg Bool.false_ne_true, findEmptyRecipientSlot, hfirst,
    findEmptySlot_cons hf, if_neg (h.vacant 4 (by decide))]

omit hf in
theorem length_bulkyContact : bulkyContact.publicKey.length = maxPublicKeyBytes := by
  rw [bulkyContact, List.length_replicate]

omit hf in
/-- Its key needs room, however little is in use. -/
theorem Emptied.keyTaken_iff (h : Emptied hal memory n s) :
    KeyTaken s bulkyContact.publicKey ↔ n + maxPublicKeyBytes ≤ keyRegionBytes := by
  constructor
  · intro htaken
    rw [← h.taken, ← length_bulkyContact]
    exact htaken.room
  · intro hroom
    refine ⟨Nat.le_of_eq length_bulkyContact, ?_⟩
    rwa [h.taken, length_bulkyContact]

/-- With room for its key, the contact is inserted. -/
theorem Emptied.insert (h : Emptied hal memory n s)
    (hroom : n + maxPublicKeyBytes ≤ keyRegionBytes) :
    ∃ s', ContactStore.insert hal bulkyContact s = (.ok 4, s') ∧ Kept memory s' ∧ Keyed hal s' ∧
      s'.integrityGate = true ∧
      (∀ slot ∈ slots, slot ≠ 4 → ¬ Occupied (memory s'.storage) slot) ∧
      s'.keyRegion.bump.toNat = n + maxPublicKeyBytes := by
  have hlive := h.kept.live
  have haccepted := insert_accepted hf h.kept h.keyed h.gate (h.freeSlot hf) (h.keyTaken_iff.mpr hroom)
    rfl ⟨Nat.zero_le _, hlive.heap_le⟩ rfl
  have hend := insert_outcome hf bulkyContact h.kept h.keyed
  rw [Fallible.eq_ok_of_fst haccepted] at hend ⊢
  generalize (ContactStore.insert hal bulkyContact s).2 = s' at hend ⊢
  cases hend with
  | @done _ s₁ _ pin email name d hgate hfound hkey hpin hemail hname halloc hkeyAt hemailAt hoffset
      hnameAt hindex hcommits hrest =>
    obtain ⟨ws, hws⟩ := halloc.allocates
    refine ⟨s', rfl, hcommits.kept, h.keyed.congr (hcommits.masterKey.trans hws.masterKey),
      (hcommits.gate.trans hws.gate).trans h.gate, fun slot' hslot' hne hocc ↦ ?_, ?_⟩
    · have hactive := (isActive_recordIn hcommits.kept.live hslot').mpr hocc
      rw [hcommits.others halloc h.kept slot' hslot' hne] at hactive
      exact h.vacant slot' hslot' ((isActive_recordIn hlive hslot').mp hactive)
    · rw [hrest, ← h.taken, ← length_bulkyContact]
      exact halloc.keys_eq

/-- When it is deleted again, its key stays taken. -/
theorem Emptied.round (h : Emptied hal memory n s)
    (hroom : n + maxPublicKeyBytes ≤ keyRegionBytes) :
    Emptied hal memory (n + maxPublicKeyBytes)
      (delete hal 4 (ContactStore.insert hal bulkyContact s).2).2 := by
  obtain ⟨s₁, hrun, hkept, hkeyed, hgate, hothers, htaken⟩ := h.insert hf hroom
  rw [hrun]
  have hend := delete_outcome hf hkept hkeyed 4
  generalize delete hal 4 s₁ = res at hend ⊢
  cases hend with
  | closed hclosed => exact absurd (hgate.symm.trans hclosed) (by decide)
  | @done s' d _ hindex hcommits hrest =>
    refine ⟨hcommits.kept, hkeyed.congr hcommits.masterKey, hcommits.gate.trans hgate,
      fun slot hslot hocc ↦ ?_, ?_⟩
    · have hactive := (isActive_recordIn hcommits.kept.live hslot).mpr hocc
      by_cases hne : slot = 4
      · rw [hne] at hslot hactive
        rw [recordIn_congr hcommits.intact hslot, recordIn_written_default] at hactive
        exact absurd hactive (by decide)
      · rw [hcommits.others (.refl s₁) hkept slot hslot hne] at hactive
        exact hothers slot hslot hne ((isActive_recordIn hkept.live hslot).mp hactive)
    · rw [hrest]
      exact htaken

/-- Round after round takes up room. -/
theorem Emptied.rounds {k : ℕ} : ∀ {p : ContactStore S C × C} {n : ℕ}, Emptied hal memory n p.1 →
    n + k * maxPublicKeyBytes ≤ keyRegionBytes →
      Emptied hal memory (n + k * maxPublicKeyBytes)
        (afterActions hal p (ContactStore.rounds k)).1 := by
  induction k with
  | zero =>
    intro p n h hroom
    rw [Nat.zero_mul]
    exact h
  | succ k ih =>
    intro p n h hroom
    rw [Nat.succ_mul] at hroom ⊢
    have hround := h.round hf (by omega)
    have hrest := ih (p := StoreAction.after hal (StoreAction.after hal p (.insert bulkyContact))
      (.delete 4)) hround (by omega)
    rw [ContactStore.rounds, afterActions_cons, afterActions_cons,
      show n + (k * maxPublicKeyBytes + maxPublicKeyBytes)
        = n + maxPublicKeyBytes + k * maxPublicKeyBytes by omega]
    exact hrest

/-- A store without contacts refuses a contact for lack of space. -/
theorem Emptied.not_noSpaceLeak (h : Emptied hal memory n s)
    (hroom : keyRegionBytes < n + maxPublicKeyBytes) : ¬ NoSpaceLeak hal memory s := by
  intro hspace
  have hrefused := mt h.keyTaken_iff.mp (Nat.not_le.mpr hroom)
  have hlive : ∀ f, live f (memory s.storage) = 0 := fun f ↦
    tally_eq_zero fun slot hslot ↦ ifActive_of_vacant h.kept hslot (h.vacant slot hslot)
  have hend := insert_outcome hf bulkyContact h.kept h.keyed
  have hclaim := hspace.insert bulkyContact
  generalize ContactStore.insert hal bulkyContact s = res at hend hclaim
  cases hend with
  | closed hgate => exact absurd (h.gate.symm.trans hgate) (by decide)
  | full hgate hfull => cases (h.freeSlot hf).symm.trans hfull
  | keyRefused hgate hfound hkey =>
    have hwhy : keyRefusal bulkyContact.publicKey = .heapFull :=
      if_pos (Nat.le_of_eq length_bulkyContact)
    rw [hwhy] at hclaim
    have hfits := hclaim s rfl
    rw [liveStrings, liveKeys, hlive, hlive, length_bulkyContact] at hfits
    exact absurd hfits (by decide)
  | unverified hgate hfound hkey => exact hrefused hkey
  | emailRefused hgate hfound hkey => exact hrefused hkey
  | nameRefused hgate hfound hkey => exact hrefused hkey
  | done hgate hfound hkey => exact hrefused hkey

end Emptied

end ContactStore

end Galdralag.Contacts
