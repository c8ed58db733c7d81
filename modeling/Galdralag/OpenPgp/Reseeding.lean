import Galdralag.OpenPgp.ReadFaults

/-!
# Objects that an opening replaces

Opening a card leaves its objects alone if the first read succeeds. If it fails the five first
objects are seeded once more, each one after as many reads as it takes to find it, and the first of
these reads that fails ends the seeding. What has been replaced until then stays replaced.
-/

set_option linter.all false

namespace Galdralag.OpenPgp

open Fallible

variable {W T : Type}

/-! ## The store, read by read -/

section Store

variable {d : DoStore W} {limit : ℕ} {memory : W → Memory} {tag : UInt16} {value : Bytes} {w : W}
  (hf : d.storage.Faithful limit memory) (hfits : d.base + DoStore.regionBytes ≤ limit)
include hf hfits

theorem afterReads_probe (w : W) : AfterReads 1 (Risky.probe d) w (decide (d.Valid (memory w))) w := by
  have hread := hf.read_eq w d.base DoStore.headerLen (by rw [DoStore.regionBytes] at hfits; omega)
  have hheader := AfterReads.risky (f := fun w ↦ d.storage.read w d.base DoStore.headerLen) hread
  have hprobe : AfterReads (1 + 0) (Risky.probe d) w (decide (d.Valid (memory w))) w :=
    (hheader.mapError DoStoreError.io).bind (AfterReads.pure _ w)
  exact hprobe

theorem afterReads_initIfNeeded (hv : d.Valid (memory w)) :
    AfterReads 1 (Risky.initIfNeeded d) w ⟨⟩ w := by
  have hprobe := afterReads_probe hf hfits w
  rw [decide_eq_true hv] at hprobe
  have hnothing : AfterReads (1 + 0) (Risky.initIfNeeded d) w ⟨⟩ w := hprobe.bind (AfterReads.pure _ w)
  exact hnothing

theorem afterReads_readSlot {i : ℕ} (hi : i < DoStore.slotCount) (w : W) :
    AfterReads 1 (Risky.readSlot d i) w (d.slotAt (memory w) i) w := by
  have hread := hf.read_eq w (d.slotOffset i) DoStore.slotBytes
    (Nat.le_trans (DoStore.slotOffset_le hi) hfits)
  rw [Risky.readSlot, if_neg (Nat.not_le.mpr hi)]
  have hslot := AfterReads.risky (f := fun w ↦ d.storage.read w (d.slotOffset i) DoStore.slotBytes) hread
  exact hslot.mapError DoStoreError.io

/-- A search reads slots up to the one with the tag. -/
theorem afterReads_findFrom {l : List ℕ} (hl : ∀ i ∈ l, i < DoStore.slotCount) {empty r : Option ℕ}
    (h : d.findFrom tag w empty l = .ok r) :
    AfterReads (SlotTable.searched tag (l.map fun i ↦ DoStore.entry (d.slotAt (memory w) i)))
      (Risky.findFrom d tag empty l) w r w := by
  induction l generalizing empty with
  | nil =>
    obtain rfl := Except.ok.inj h
    exact .pure _ w
  | cons i l ih =>
    rw [List.forall_mem_cons] at hl
    rw [DoStore.findFrom, Fallible.except_bind_of_ok (DoStore.readSlot_eq hf hfits hl.1)] at h
    rw [Risky.findFrom, List.map_cons, SlotTable.searched, DoStore.entry]
    refine (afterReads_readSlot hf hfits hl.1 w).bind ?_
    split_ifs at h ⊢
    · obtain rfl := Except.ok.inj h
      exact .pure _ w
    · exact ih hl.2 h
    · exact ih hl.2 h

/-- **Replacing an object** reads the header and the slots up to its own. -/
theorem afterReads_write {v : Option (Vec 254)} (hv : d.Valid (memory w)) (hlen : value.length ≤ 254)
    (hlookup : SlotTable.lookup tag (d.table (memory w)) = some v) :
    ∃ i w', AfterReads (1 + SlotTable.searched tag (d.table (memory w))) (Risky.write d tag value) w ⟨⟩ w' ∧
      SlotTable.place 0 tag (d.table (memory w)) = some i ∧ (d.table (memory w))[i]? = some (tag, v) ∧
      d.Valid (memory w') ∧
      d.table (memory w') = (d.table (memory w)).set i (tag, Vec.ofBytes? value) := by
  obtain ⟨i, hplace, hget⟩ : ∃ i, SlotTable.place 0 tag (d.table (memory w)) = some i ∧
    (d.table (memory w))[i]? = some (tag, v) := SlotTable.place_of_lookup hlookup
  have hi := DoStore.lt_slotCount (List.getElem?_eq_some_iff.mp hget).1
  have hslot : (DoStore.encodeSlot tag value).length = DoStore.slotBytes := DoStore.length_encodeSlot hlen
  obtain ⟨w', hrun, hv', htable⟩ := DoStore.writeSlot_table hf hfits hi hslot hv
  rw [DoStore.entry_encodeSlot hlen] at htable
  refine ⟨i, w', ?_, hplace, hget, hv', htable⟩
  have hfound : AfterReads (SlotTable.searched tag (d.table (memory w)))
      (Risky.findFrom d tag none (List.range DoStore.slotCount)) w (some i) w :=
    afterReads_findFrom hf hfits (fun i ↦ List.mem_range.mp) (hplace ▸ DoStore.find_eq hf hfits tag w)
  have hwrite : AfterReads (0 + (1 + (SlotTable.searched tag (d.table (memory w)) + 0)))
      (Risky.write d tag value) w ⟨⟩ w' := by
    rw [Risky.write, Fallible.require, if_pos hlen]
    refine (AfterReads.pure PUnit.unit w).bind ((afterReads_initIfNeeded hf hfits hv).bind ?_)
    exact hfound.bind (AfterReads.safely hrun)
  rwa [Nat.zero_add] at hwrite

end Store

/-! ## Seeding over objects -/

/-- Every object is still there, with the same contents. -/
def LeavesObjects (pf : CardPlatform W T) (w w' : W) : Prop :=
  ∀ tag v, pf.doStore.read tag w = some v → pf.doStore.read tag w' = some v

/-- The objects of a new card, in the order in which they are written. -/
def productionDefaults : List (UInt16 × Bytes) := [
  (0xC1, (defaultAttributes .sig).toBytes.toBytes),
  (0xC2, (defaultAttributes .dec).toBytes.toBytes),
  (0xC3, (defaultAttributes .aut).toBytes.toBytes),
  (0xC4, defaultPwStatusBytes),
  (0x93, [0x00, 0x00, 0x00])]

/-- **Harmless seeds.** Up to the first one whose reads do not all succeed, each is what its object
holds already. -/
def SeedsHarmless (t : List (UInt16 × Option (Vec 254))) :
    List (UInt16 × Bytes) → List (Option HalError) → Prop
  | [], _ => True
  | x :: seeds, script => Clear (1 + SlotTable.searched x.1 t) script →
    SlotTable.lookup x.1 t = some (Vec.ofBytes? x.2) ∧
      SeedsHarmless t seeds (script.drop (1 + SlotTable.searched x.1 t))

/-- The first objects of a card are all there. -/
def Provisioned (pf : CardPlatform W T) (mem : Memory) : Prop :=
  ∀ x ∈ productionDefaults, pf.doStore.object mem x.1 ≠ none

/-- Seeds with their own tags, none of which marks a free slot, that fit into slots. -/
structure Seeds (seeds : List (UInt16 × Bytes)) : Prop where
  distinct : (seeds.map Prod.fst).Nodup
  tagged : ∀ x ∈ seeds, x.1 ≠ 0
  fit : ∀ x ∈ seeds, x.2.length ≤ 254

theorem productionDefaults_seeds : Seeds productionDefaults := by
  refine ⟨by decide, by decide, by decide⟩

theorem Seeds.tail {x : UInt16 × Bytes} {seeds : List (UInt16 × Bytes)} (h : Seeds (x :: seeds)) :
    Seeds seeds where
  distinct := (List.nodup_cons.mp h.distinct).2
  tagged y hy := h.tagged y (List.mem_cons_of_mem x hy)
  fit y hy := h.fit y (List.mem_cons_of_mem x hy)

theorem Seeds.notMem {x : UInt16 × Bytes} {seeds : List (UInt16 × Bytes)} (h : Seeds (x :: seeds)) :
    x.1 ∉ seeds.map Prod.fst := (List.nodup_cons.mp h.distinct).1

section Seeding

variable {pf : CardPlatform W T} {objects : W → Memory} {limit : ℕ} {w w' : W}
  {seeds : List (UInt16 × Bytes)} {script : List (Option HalError)}

/-- Seed objects one after the other, while reads fail as the script says. -/
def seedAll (pf : CardPlatform W T) (seeds : List (UInt16 × Bytes)) : Risk W HalError PUnit :=
  .each (fun x ↦ Risky.seedDo pf x.1 x.2) seeds

theorem initProductionDefaults_eq (s : Scripted HalError W) :
    Risky.initProductionDefaults pf s = seedAll pf productionDefaults s := by
  have hlast : ∀ m : Risk W HalError PUnit, (m >>= fun _ ↦ pure ⟨⟩) = m := by
    intro m
    funext s
    rw [bind_apply]
    rcases m s with ⟨_ | ⟨⟨⟩⟩, _⟩ <;> rfl
  rw [seedAll, productionDefaults, Risky.initProductionDefaults]
  simp only [each, hlast]

variable (hf : pf.doStore.storage.Faithful limit objects)
  (hfits : pf.doStore.base + DoStore.regionBytes ≤ limit)
include hf hfits

omit hf hfits in
theorem valid_of_object {tag : UInt16} {v : Vec 254} (h : pf.doStore.object (objects w) tag = some v) :
    pf.doStore.Valid (objects w) ∧
      SlotTable.lookup tag (pf.doStore.table (objects w)) = some (some v) := by
  rw [DoStore.object] at h
  split_ifs at h with hv
  exact ⟨hv, Option.join_eq_some_iff.mp h⟩

theorem leavesObjects_iff : LeavesObjects pf w w' ↔ ∀ tag v, pf.doStore.object (objects w) tag = some v →
    pf.doStore.object (objects w') tag = some v := by
  simp only [LeavesObjects, DoStore.read_eq hf hfits]

/-- **One seed** for an object that is there: a failing read ends the seeding, else the object has
the contents of the seed and the others are as they were. -/
theorem seedDo_cases {x : UInt16 × Bytes} (htag : x.1 ≠ 0) (hlen : x.2.length ≤ 254)
    (hobject : pf.doStore.object (objects w) x.1 ≠ none) (script : List (Option HalError)) :
    (¬ Clear (1 + SlotTable.searched x.1 (pf.doStore.table (objects w))) script ∧
      ∃ e script', Risky.seedDo pf x.1 x.2 (w, script) = (.error e, (w, script'))) ∨
    (Clear (1 + SlotTable.searched x.1 (pf.doStore.table (objects w))) script ∧ ∃ w',
      Risky.seedDo pf x.1 x.2 (w, script) = (.ok ⟨⟩,
        (w', script.drop (1 + SlotTable.searched x.1 (pf.doStore.table (objects w))))) ∧
      pf.doStore.Valid (objects w') ∧ pf.doStore.object (objects w') x.1 = Vec.ofBytes? x.2 ∧
      (∀ tag ≠ x.1, pf.doStore.object (objects w') tag = pf.doStore.object (objects w) tag) ∧
      (SlotTable.lookup x.1 (pf.doStore.table (objects w)) = some (Vec.ofBytes? x.2) →
        pf.doStore.table (objects w') = pf.doStore.table (objects w))) := by
  obtain ⟨v, hobject⟩ := Option.ne_none_iff_exists'.mp hobject
  obtain ⟨hv, hlookup⟩ := valid_of_object hobject
  obtain ⟨i, w', hwrite, hplace, hget, hv', htable⟩ := afterReads_write hf hfits hv hlen hlookup
  have hseed : AfterReads _ (Risky.seedDo pf x.1 x.2) w ⟨⟩ w' := hwrite.orElse HalError.bus
  by_cases hclear : Clear (1 + SlotTable.searched x.1 (pf.doStore.table (objects w))) script
  swap
  · exact .inl ⟨hclear, hseed.faulty script hclear⟩
  refine .inr ⟨hclear, w', hseed.clear script hclear, hv', ?_, fun tag hne ↦ ?_, fun hsame ↦ ?_⟩
  · rw [DoStore.object, if_pos hv', htable, SlotTable.lookup_place hplace htag, if_pos rfl]
    rfl
  · rw [DoStore.object, DoStore.object, if_pos hv', if_pos hv, htable,
      SlotTable.lookup_set_other hget hne.symm hne.symm]
  · obtain ⟨hi, hget⟩ := List.getElem?_eq_some_iff.mp hget
    have hvalue : Vec.ofBytes? x.2 = some v := Option.some.inj (hsame.symm.trans hlookup)
    rw [htable, hvalue, ← hget, List.set_getElem_self]

/-- Seeding leaves the objects with other tags alone. -/
theorem seedAll_other (hseeds : Seeds seeds)
    (hobjects : ∀ x ∈ seeds, pf.doStore.object (objects w) x.1 ≠ none) {tag : UInt16}
    (htag : tag ∉ seeds.map Prod.fst) (script : List (Option HalError)) :
    pf.doStore.object (objects (seedAll pf seeds (w, script)).2.1) tag
      = pf.doStore.object (objects w) tag := by
  induction seeds generalizing w script with
  | nil => rfl
  | cons x seeds ih =>
    rw [List.forall_mem_cons] at hobjects
    rw [List.map_cons, List.mem_cons, not_or] at htag
    rw [seedAll, each]
    rcases seedDo_cases hf hfits (hseeds.tagged x List.mem_cons_self) (hseeds.fit x List.mem_cons_self)
        hobjects.1 script with ⟨-, e, script', hrun⟩ | ⟨-, w', hrun, -, -, hothers, -⟩
    · rw [bind_of_error hrun]
    · rw [bind_of_ok hrun, ← hothers tag htag.1]
      refine ih hseeds.tail (fun y hy ↦ ?_) htag.2 _
      have hne : y.1 ≠ x.1 := fun h ↦ hseeds.notMem (h ▸ List.mem_map_of_mem hy)
      rw [hothers y.1 hne]
      exact hobjects.2 y hy

/-- **Seeding** over objects that are there changes none of them just if the seeds are harmless. -/
theorem seedAll_iff (hseeds : Seeds seeds)
    (hobjects : ∀ x ∈ seeds, pf.doStore.object (objects w) x.1 ≠ none) (script : List (Option HalError)) :
    LeavesObjects pf w (seedAll pf seeds (w, script)).2.1
      ↔ SeedsHarmless (pf.doStore.table (objects w)) seeds script := by
  induction seeds generalizing w script with
  | nil => exact iff_of_true (fun _ _ h ↦ h) trivial
  | cons x seeds ih =>
    rw [List.forall_mem_cons] at hobjects
    have htag := hseeds.tagged x List.mem_cons_self
    rw [seedAll, each, SeedsHarmless]
    rcases seedDo_cases hf hfits htag (hseeds.fit x List.mem_cons_self) hobjects.1 script with
      ⟨hfault, e, script', hrun⟩ | ⟨hclear, w', hrun, hv', hown, hothers, hsame⟩
    · rw [bind_of_error hrun]
      exact iff_of_true (fun _ _ h ↦ h) fun hclear ↦ absurd hclear hfault
    have hrest : ∀ y ∈ seeds, pf.doStore.object (objects w') y.1 ≠ none := by
      intro y hy
      have hne : y.1 ≠ x.1 := fun h ↦ hseeds.notMem (h ▸ List.mem_map_of_mem hy)
      rw [hothers y.1 hne]
      exact hobjects.2 y hy
    obtain ⟨v, hobject⟩ := Option.ne_none_iff_exists'.mp hobjects.1
    obtain ⟨hv, hlookup⟩ := valid_of_object hobject
    rw [bind_of_ok hrun]
    by_cases hequal : SlotTable.lookup x.1 (pf.doStore.table (objects w)) = some (Vec.ofBytes? x.2)
    · -- the object has the contents of the seed: nothing has changed
      have hleft : ∀ tag, pf.doStore.object (objects w') tag = pf.doStore.object (objects w) tag := by
        intro tag
        rw [DoStore.object, DoStore.object, if_pos hv', if_pos hv, hsame hequal]
      have hnext := ih hseeds.tail hrest
          (script.drop (1 + SlotTable.searched x.1 (pf.doStore.table (objects w))))
      rw [leavesObjects_iff hf hfits, hsame hequal] at hnext
      rw [leavesObjects_iff hf hfits]
      simp only [hleft] at hnext
      rw [seedAll] at hnext
      rw [hnext]
      exact ⟨fun h _ ↦ ⟨hequal, h⟩, fun h ↦ (h hclear).2⟩
    · -- the object has other contents, and no later seed brings them back
      refine iff_of_false (fun h ↦ ?_) fun h ↦ hequal (h hclear).1
      have hafter := (leavesObjects_iff hf hfits).mp h x.1 v hobject
      have hstays := seedAll_other hf hfits hseeds.tail hrest hseeds.notMem
        (script.drop (1 + SlotTable.searched x.1 (pf.doStore.table (objects w))))
      rw [seedAll] at hstays
      rw [hstays, hown] at hafter
      exact hequal (hafter ▸ hlookup)

end Seeding

/-! ## Loading -/

section Loading

variable {pf : CardPlatform W T}

theorem moves_readFrom {d : DoStore W} {ε : Type} (tag : UInt16) (l : List ℕ) :
    Moves (BesideScript Eq) (Risky.readFrom d tag l : Risk W ε _) := by
  have hrefl : ∀ s : Scripted HalError W, BesideScript Eq s s := fun _ ↦ rfl
  induction l with
  | nil => exact .pure hrefl _
  | cons i l ih =>
    have hslot : Moves (BesideScript Eq) (Risky.readSlot d i) := by
      rw [Risky.readSlot]
      split_ifs
      · exact .fail hrefl _
      · exact (Moves.risky (fun _ ↦ rfl) _).mapError _
    refine Moves.bind (R := BesideScript Eq) (fun s ↦ hslot s) Eq.trans fun r ↦ ?_
    rcases r with e | slot
    · exact .pure hrefl _
    · dsimp only
      split_ifs
      · exact .pure hrefl _
      · exact ih

theorem moves_read {d : DoStore W} {ε : Type} (tag : UInt16) :
    Moves (BesideScript Eq) (Risky.read d tag : Risk W ε _) := by
  have hrefl : ∀ s : Scripted HalError W, BesideScript Eq s s := fun _ ↦ rfl
  have hprobe : Moves (BesideScript Eq) (Risky.probe d) :=
    Moves.bind ((Moves.risky (fun _ ↦ rfl) _).mapError _) Eq.trans fun _ ↦ .pure hrefl _
  refine Moves.bind (R := BesideScript Eq) (fun s ↦ hprobe s) Eq.trans fun r ↦ ?_
  rcases r with e | _ | _
  · exact .pure hrefl _
  · exact .pure hrefl _
  · exact moves_readFrom tag _

/-- After the seeding an opening only reads. -/
theorem openCard_risky_world (user admin : PinPolicyMachine) (w : W) (trng : T)
    (script : List (Option HalError)) :
    (Risky.openCard pf user admin w trng script).2.1.world
      = (Risky.seedDefaultsIfFresh pf (w, script)).2.1 := by
  obtain ⟨R, hR⟩ : ∃ R : OpenPgpVaultBackend W T → OpenPgpVaultBackend W T → Prop,
    R = fun b b' ↦ b'.world = b.world := ⟨_, rfl⟩
  have hrefl : ∀ b, R b b := fun b ↦ by rw [hR]
  have htrans : ∀ {a b c : Scripted HalError (OpenPgpVaultBackend W T)},
      BesideScript R a b → BesideScript R b c → BesideScript R a c := by
    rw [hR]
    exact fun h h' ↦ h'.trans h
  have hpins : Moves (BesideScript R) (Risky.loadPinVerifiersFromStorage pf) := by
    refine (Moves.risky hrefl _).bind htrans fun uv ↦ (Moves.risky hrefl _).bind htrans fun av ↦ ?_
    exact .safely (.modify fun b ↦ by rw [hR])
  have hkey : ∀ slot, Moves (BesideScript R) (Risky.loadKey pf slot) := by
    intro slot
    have hread : Moves (BesideScript R) (Risky.onWorld (Risky.read pf.doStore (attributesTag slot)) :
        Risk (OpenPgpVaultBackend W T) HalError _) :=
      (moves_read _).within fun b w h ↦ by rw [hR]; exact h.symm
    refine (Moves.risky hrefl _).bind htrans fun cell ↦ hread.bind htrans fun data ↦ ?_
    exact .safely (.modify fun b ↦ by rw [hR]; rfl)
  have hkeys : Moves (BesideScript R) (Risky.loadPrivateKeys pf) := by
    refine Moves.bind (.safely (.modify fun b ↦ by rw [hR])) htrans fun _ ↦ ?_
    exact (hkey .sig).bind htrans fun _ ↦ (hkey .dec).bind htrans fun _ ↦ hkey .aut
  have hloads := hpins.bind htrans fun _ ↦ hkeys
  have hworld : (Risky.onWorld (Risky.seedDefaultsIfFresh pf) : Risk (OpenPgpVaultBackend W T) _ _)
      (.blank user admin w trng, script) = ((Risky.seedDefaultsIfFresh pf (w, script)).1,
        (.blank user admin (Risky.seedDefaultsIfFresh pf (w, script)).2.1 trng,
          (Risky.seedDefaultsIfFresh pf (w, script)).2.2)) := rfl
  rw [Risky.openCard, bind_apply, hworld]
  rcases Risky.seedDefaultsIfFresh pf (w, script) with ⟨e | _, s⟩
  · rfl
  · have hafter := hloads (.blank user admin s.1 trng, s.2)
    rw [hR] at hafter
    exact hafter

end Loading

/-! ## Opening -/

section Opening

variable {pf : CardPlatform W T} {objects : W → Memory} {limit : ℕ} {w : W}
  (hf : pf.doStore.storage.Faithful limit objects)
  (hfits : pf.doStore.base + DoStore.regionBytes ≤ limit)
include hf hfits

/-- Nothing is seeded if the header is read. -/
theorem seedDefaultsIfFresh_clear (hv : pf.doStore.Valid (objects w)) {script : List (Option HalError)}
    (h : Clear 1 script) : (Risky.seedDefaultsIfFresh pf (w, script)).2.1 = w := by
  have hprobe := (afterReads_probe hf hfits w).clear script h
  rw [decide_eq_true hv] at hprobe
  have hattempt : (attempt (Risky.probe pf.doStore) : Risk W HalError _) (w, script)
      = (.ok (.ok true), (w, script.drop 1)) := by
    rw [attempt_apply, hprobe]
  rw [Risky.seedDefaultsIfFresh, bind_of_ok hattempt]
  rfl

omit hf hfits in
/-- All is seeded if the first read fails. -/
theorem seedDefaultsIfFresh_faulty {script : List (Option HalError)} (h : ¬ Clear 1 script) :
    Risky.seedDefaultsIfFresh pf (w, script) = seedAll pf productionDefaults (w, script.drop 1) := by
  obtain ⟨e, hmeet⟩ := meet_of_fault h w
  have hprobe : Risky.probe pf.doStore (w, script) = (.error (.io e), (w, script.drop 1)) := by
    have hread : (mapError DoStoreError.io (risky fun w ↦
        pf.doStore.storage.read w pf.doStore.base DoStore.headerLen)) (w, script)
        = (.error (.io e), (w, script.drop 1)) := by
      rw [mapError, risky, bind_of_error hmeet]
      rfl
    rw [Risky.probe, bind_of_error hread]
  have hattempt : (attempt (Risky.probe pf.doStore) : Risk W HalError _) (w, script)
      = (.ok (.error (.io e)), (w, script.drop 1)) := by
    rw [attempt_apply, hprobe]
  rw [Risky.seedDefaultsIfFresh, bind_of_ok hattempt]
  exact initProductionDefaults_eq _

/-- **An opening** of a store that has the first objects, or has no header. -/
theorem opening_leavesObjects_iff (h : Provisioned pf (objects w) ∨ ¬ pf.doStore.Valid (objects w))
    (user admin : PinPolicyMachine) (trng : T) (script : List (Option HalError)) :
    LeavesObjects pf w (Risky.openCard pf user admin w trng script).2.1.world ↔
      ¬ pf.doStore.Valid (objects w) ∨ Clear 1 script ∨
        SeedsHarmless (pf.doStore.table (objects w)) productionDefaults (script.drop 1) := by
  rw [openCard_risky_world]
  by_cases hv : pf.doStore.Valid (objects w)
  swap
  · refine iff_of_true ((leavesObjects_iff hf hfits).mpr fun tag v hobject ↦ ?_) (.inl hv)
    exact absurd (valid_of_object hobject).1 hv
  rw [or_iff_right (not_not_intro hv)]
  by_cases hclear : Clear 1 script
  · rw [seedDefaultsIfFresh_clear hf hfits hv hclear]
    exact iff_of_true (fun _ _ h ↦ h) (.inl hclear)
  · rw [seedDefaultsIfFresh_faulty hclear, or_iff_right hclear]
    exact seedAll_iff hf hfits productionDefaults_seeds (h.resolve_right (not_not_intro hv)) _

end Opening

end Galdralag.OpenPgp
