import Galdralag.ContactStore.Binding
import Galdralag.ContactStore.SharedCounter
import Mathlib.Data.List.Induction

/-!
# Fetch times over whole runs

A merge gives each slot the time of the entry with the highest sequence number, and of several with
that number the last one. The counter never steps back further than the attempt it refunds, so the
sequence numbers of the log do not decrease, and the merge finds the last entry of each slot.

What is merged is another matter. The number of entries is kept in working memory and starts at zero
after a power cycle, which therefore forgets the log. And an append that finds the log full merges
it into a copy of the records, which is dropped, and clears it. A run without these two steps shows
the time of the last append for every slot.
-/

set_option linter.all false

namespace Galdralag.Contacts

/-! ## The entries of the log -/

namespace TimingLogEntry

/-- An entry that is written by an append: it has a sequence number and the checksum of its body. -/
def Complete (e : TimingLogEntry) : Prop := e.seq ≠ 0 ∧ crc32c e.bodyForCrc = e.entryCrc

/-- Such an entry is read back from its bytes. -/
theorem fromBytes_asBytes {e : TimingLogEntry} (h : e.Complete) : fromBytes e.asBytes = .ok e := by
  have hslot : e.asBytes.headD 0 = e.slot := rfl
  have htime : (e.asBytes.drop 4).take 4 = u32le e.lastFetched := rfl
  have hseq : (e.asBytes.drop 8).take 4 = u32le e.seq := rfl
  have hcrc : (e.asBytes.drop 12).take 4 = u32le e.entryCrc := rfl
  have hzero : ¬ e.asBytes.all (· == 0) = true := by
    intro hall
    have hbytes : u32le e.seq = u32le 0 := by
      refine List.eq_replicate_iff.mpr ⟨length_u32le _, fun b hb ↦ ?_⟩
      rw [← hseq] at hb
      exact eq_of_beq (List.all_eq_true.mp hall b (List.mem_of_mem_drop (List.mem_of_mem_take hb)))
    exact h.1 (u32le_injective hbytes)
  rw [fromBytes, if_neg hzero, hslot, htime, hseq, hcrc, u32OfLe_u32le, u32OfLe_u32le, u32OfLe_u32le]
  exact if_pos h.2

end TimingLogEntry

namespace TimingLog

variable {S : Type} {storage : VaultStorage S} {memory : S → Memory}
  {entries : List TimingLogEntry} {e : TimingLogEntry}

/-- What an entry contributes to the best times. -/
def improve (best : List (UInt32 × UInt32)) (e : TimingLogEntry) : List (UInt32 × UInt32) :=
  match best[e.slot.toNat]? with
  | none => best
  | some (seq, _) => if e.seq ≥ seq then best.set e.slot.toNat (e.seq, e.lastFetched) else best

/-- The best times of a list of entries. -/
def bestOf (entries : List TimingLogEntry) : List (UInt32 × UInt32) :=
  entries.foldl improve (List.replicate contactSlotCount (0, 0))

/-- The last entry for a slot. -/
def lastOf (entries : List TimingLogEntry) (slot : UInt8) : Option TimingLogEntry :=
  entries.reverse.find? fun e ↦ e.slot = slot

theorem lastOf_append (slot : UInt8) : lastOf (entries ++ [e]) slot
    = if e.slot = slot then some e else lastOf entries slot := by
  rw [lastOf, List.reverse_append, List.reverse_singleton, List.singleton_append, List.find?_cons]
  split_ifs with h
  · rw [decide_eq_true h]
  · rw [decide_eq_false h]
    rfl

theorem mem_of_lastOf {slot : UInt8} (h : lastOf entries slot = some e) :
    e ∈ entries ∧ e.slot = slot := by
  have hslot := List.find?_some h
  exact ⟨List.mem_reverse.mp (List.mem_of_find?_eq_some h), of_decide_eq_true hslot⟩

/-- An entry changes the best time of its own slot only. -/
theorem improve_of_ne {best : List (UInt32 × UInt32)} {slot : UInt8} (h : e.slot ≠ slot) :
    (improve best e)[slot.toNat]? = best[slot.toNat]? := by
  have hne : e.slot.toNat ≠ slot.toNat := fun heq ↦ h (UInt8.toNat_inj.mp heq)
  rw [improve]
  split
  · rfl
  · split_ifs
    · exact List.getElem?_set_ne hne
    · rfl

/-- An entry whose number is not smaller is the new best one of its slot. -/
theorem improve_self {best : List (UInt32 × UInt32)} {seq time : UInt32}
    (h : best[e.slot.toNat]? = some (seq, time)) (hle : seq ≤ e.seq) :
    (improve best e)[e.slot.toNat]? = some (e.seq, e.lastFetched) := by
  have hlt : e.slot.toNat < best.length := (List.getElem?_eq_some_iff.mp h).1
  rw [improve, h]
  exact (congrArg (·[e.slot.toNat]?) (if_pos hle)).trans (List.getElem?_set_self hlt)

/-- **The best times.** Where the sequence numbers do not decrease, the best entry of a slot is its
last one. -/
theorem bestOf_eq (hsorted : entries.Pairwise fun a b ↦ a.seq ≤ b.seq) {slot : UInt8}
    (hslot : slot.toNat < contactSlotCount) : (bestOf entries)[slot.toNat]?
      = some ((lastOf entries slot).elim (0, 0) fun e ↦ (e.seq, e.lastFetched)) := by
  induction entries using List.reverseRecOn with
  | nil =>
    rw [bestOf, List.foldl_nil, List.getElem?_replicate, if_pos hslot]
    rfl
  | append_singleton entries e ih =>
    obtain ⟨hentries, -, hle⟩ := List.pairwise_append.mp hsorted
    have hbest : bestOf (entries ++ [e]) = improve (bestOf entries) e := List.foldl_append
    rw [hbest, lastOf_append]
    by_cases heq : e.slot = slot
    · subst heq
      rw [if_pos rfl]
      refine improve_self (ih hentries) ?_
      rcases hlast : lastOf entries e.slot with _ | e'
      · exact UInt32.zero_le
      · exact hle e' (mem_of_lastOf hlast).1 e List.mem_cons_self
    · rw [if_neg heq, improve_of_ne heq]
      exact ih hentries

/-- The entries are what the log holds, in their order. -/
def Stored (mem : Memory) (entries : List TimingLogEntry) : Prop :=
  ∀ i e, entries[i]? = some e → mem.window (entryOffset i) 16 = e.asBytes

/-- Pushing an entry behind the stored ones. -/
theorem Stored.push {mem : Memory} (h : Stored mem entries) (e : TimingLogEntry) :
    Stored (mem.patch (entryOffset entries.length) e.asBytes) (entries ++ [e]) := by
  intro i e' he'
  rcases Nat.lt_or_ge i entries.length with hlt | hge
  · rw [List.getElem?_append_left hlt] at he'
    rw [Memory.window_patch_of_disjoint (.inl (by rw [entryOffset_eq, entryOffset_eq]; omega))]
    exact h i e' he'
  · rw [List.getElem?_append_right hge] at he'
    obtain ⟨hi, rfl⟩ := List.getElem?_eq_some_iff.mp he'
    obtain rfl : i = entries.length := by
      rw [List.length_singleton] at hi
      omega
    have hwindow := Memory.window_patch mem (entryOffset entries.length) e.asBytes
    rw [e.length_asBytes] at hwindow
    rw [hwindow, List.getElem_singleton]

section Stored

variable (hf : storage.Faithful contactStoreEnd memory)
include hf

theorem readEntry_eq {s : S} {i : ℕ} (hroom : entries.length ≤ maxEntries)
    (hcomplete : ∀ e ∈ entries, e.Complete) (hstored : Stored (memory s) entries)
    (h : entries[i]? = some e) : readEntry storage s i = .ok e := by
  have hi : i < entries.length := (List.getElem?_eq_some_iff.mp h).1
  have hend : entryOffset i + entryBytes ≤ contactStoreEnd := by
    rw [maxEntries_eq] at hroom
    rw [entryOffset_eq, contactStoreEnd_eq, show entryBytes = 16 from rfl]
    omega
  rw [readEntry, readAt_eq hf s hend, ok_bind, show entryBytes = 16 from rfl, hstored i e h]
  exact TimingLogEntry.fromBytes_asBytes (hcomplete e (List.mem_of_getElem? h))

/-- A merge of complete entries finds their best times. -/
theorem best_eq {s : S} (hroom : entries.length ≤ maxEntries) (hcomplete : ∀ e ∈ entries, e.Complete)
    (hstored : Stored (memory s) entries) : best storage s entries.length = .ok (bestOf entries) := by
  have hupTo : ∀ n ≤ entries.length, best storage s n = .ok (bestOf (entries.take n)) := by
    intro n
    induction n with
    | zero => exact fun _ ↦ rfl
    | succ n ih =>
      intro hn
      have hget : entries[n]? = some entries[n] := List.getElem?_eq_getElem hn
      have hread := readEntry_eq hf hroom hcomplete hstored hget
      have hbest : bestOf (entries.take n ++ [entries[n]]) = improve (bestOf (entries.take n)) entries[n] :=
        List.foldl_append
      have hstep := ih (by omega)
      rw [best] at hstep
      rw [best, List.range_succ, List.foldlM_append, hstep, ok_bind, List.foldlM_cons, hread,
        ← List.take_append_getElem hn, hbest, ok_bind, improve]
      rcases (bestOf (entries.take n))[entries[n].slot.toNat]? with _ | ⟨seq, time⟩ <;> rfl
  have hall := hupTo entries.length (Nat.le_refl _)
  rwa [List.take_length] at hall

/-- A merge of complete entries gives the records their best times. -/
theorem merge_eq {s : S} (hroom : entries.length ≤ maxEntries) (hcomplete : ∀ e ∈ entries, e.Complete)
    (hstored : Stored (memory s) entries) (records : List ContactRecord) :
    (merge storage records (⟨entries.length⟩, s)).1 = .ok (applyBest (bestOf entries) records) := by
  obtain ⟨s', hclear, -⟩ := clear_run hf (⟨entries.length⟩, s)
  rw [merge, Fallible.bind_of_ok (a := bestOf entries)
    (by rw [Fallible.reading_apply, best_eq hf hroom hcomplete hstored]), Fallible.bind_of_ok hclear]
  rfl

end Stored

end TimingLog

namespace ContactStore

variable {S C : Type} {hal : StorePlatform S C} {memory : S → Memory} {value : C → UInt32}
  {s : ContactStore S C}

/-! ## Appends -/

section Append

variable (hf : hal.storage.Faithful contactStoreEnd memory)
include hf

/-- An append to an open store with room in its log stores the entry behind the others, if the
counter counts. -/
theorem timingLogAppend_run (hgate : s.integrityGate = true) (hsound : Sound (memory s.storage))
    (hroom : s.timingLog.count < maxEntries) {c : C} {seq : UInt32}
    (hcount : hal.counter.increment s.counter = (.ok seq, c)) (slot : UInt8) (lastFetched : UInt32) :
    ∃ x, timingLogAppend hal slot lastFetched s = (.ok ⟨⟩, { s with
        storage := x, counter := c, timingLog := ⟨s.timingLog.count + 1⟩ }) ∧
      memory x = (memory s.storage).patch (TimingLog.entryOffset s.timingLog.count)
        (TimingLogEntry.recomputeCrc { slot, lastFetched, seq, entryCrc := 0 }).asBytes := by
  obtain ⟨records, hrecords⟩ : ∃ rs, slots.mapM (readRecord hal s) = .ok rs :=
    Fallible.mapM_isOk_iff.mpr fun slot hslot ↦ readRecord_of_goodSlot hf (hsound.slots slot hslot)
  have hmake : TimingLog.makeRoom hal.storage records (s.timingLog, s.storage)
      = (.ok records, (s.timingLog, s.storage)) := by
    rw [TimingLog.makeRoom, Fallible.gets_bind, if_neg (Nat.not_le.mpr hroom)]
    rfl
  obtain ⟨x, hpush, hmem⟩ := TimingLog.push_run hf (s.timingLog, s.storage)
    (.recomputeCrc { slot, lastFetched, seq, entryCrc := 0 }) hroom
  refine ⟨x, ?_, hmem⟩
  rw [timingLogAppend, Fallible.bind_of_ok (gate_of_open hgate),
    Fallible.bind_of_ok (by rw [Fallible.reading_apply, hrecords]), Fallible.bind_apply,
    Fallible.zoom_apply, TimingLog.append, Fallible.bind_apply, Fallible.zoom_apply, Fallible.orElse,
    hcount]
  simp only [Fallible.zoom_apply]
  rw [Fallible.bind_of_ok hmake, Fallible.bind_of_ok hpush]
  rfl

/-- An append to a log that is not full: the gate is closed, or the counter fails, or the entry is
stored. -/
theorem timingLogAppend_cases (hsound : Sound (memory s.storage))
    (hroom : s.timingLog.count < maxEntries) (slot : UInt8) (lastFetched : UInt32) :
    timingLogAppend hal slot lastFetched s = (.error .notInitialised, s) ∨
      (∃ e c, hal.counter.increment s.counter = (.error e, c) ∧
        timingLogAppend hal slot lastFetched s = (.error .counterError, { s with counter := c })) ∨
      ∃ seq c x, hal.counter.increment s.counter = (.ok seq, c) ∧
        timingLogAppend hal slot lastFetched s = (.ok ⟨⟩, { s with
          storage := x, counter := c, timingLog := ⟨s.timingLog.count + 1⟩ }) ∧
        memory x = (memory s.storage).patch (TimingLog.entryOffset s.timingLog.count)
          (TimingLogEntry.recomputeCrc { slot, lastFetched, seq, entryCrc := 0 }).asBytes := by
  rcases Bool.eq_false_or_eq_true s.integrityGate with hgate | hgate
  swap
  · left
    rw [timingLogAppend, Fallible.bind_of_error (gate_of_closed hgate)]
  right
  rcases hcount : hal.counter.increment s.counter with ⟨e | seq, c⟩
  · obtain ⟨records, hrecords⟩ : ∃ rs, slots.mapM (readRecord hal s) = .ok rs :=
      Fallible.mapM_isOk_iff.mpr fun slot hslot ↦ readRecord_of_goodSlot hf (hsound.slots slot hslot)
    refine .inl ⟨e, c, rfl, ?_⟩
    rw [timingLogAppend, Fallible.bind_of_ok (gate_of_open hgate),
      Fallible.bind_of_ok (by rw [Fallible.reading_apply, hrecords]), Fallible.bind_apply,
      Fallible.zoom_apply, TimingLog.append, Fallible.bind_apply, Fallible.zoom_apply, Fallible.orElse,
      hcount]
  · obtain ⟨x, hrun, hmem⟩ := timingLogAppend_run hf hgate hsound hroom hcount slot lastFetched
    exact .inr ⟨seq, c, x, rfl, hrun, hmem⟩

/-- A boot of a provisioned store touches neither the storage nor the counter nor the log. -/
theorem initOnBoot_keeps
    (hmarker : u32OfLe ((memory s.storage).window contactStoreProvisionMarkerOffset 4) ≠ 0) :
    (initOnBoot hal s).2.storage = s.storage ∧ (initOnBoot hal s).2.counter = s.counter ∧
      (initOnBoot hal s).2.timingLog = s.timingLog := by
  have hverify : ∀ t : ContactStore S C, t.storage = s.storage →
      (verifyIntegrity hal t).2.storage = t.storage ∧ (verifyIntegrity hal t).2.counter = t.counter ∧
        (verifyIntegrity hal t).2.timingLog = t.timingLog := by
    intro t ht
    rw [verifyIntegrity_state hf (by rw [ht]; exact hmarker)]
    exact ⟨rfl, rfl, rfl⟩
  rw [initOnBoot, Fallible.bind_apply, Fallible.reading_apply]
  rcases slots.mapM (readRecord hal s) with e | records
  · exact ⟨rfl, rfl, rfl⟩
  · exact hverify _ rfl

end Append

/-! ## The counter -/

/-- The next number of the counter does not become smaller. -/
def Advances (value : C → UInt32) (c c' : C) : Prop :=
  saturatingAdd (value c) 1 ≤ saturatingAdd (value c') 1

theorem advances_of_le {c c' : C} (h : (value c).toNat ≤ (value c').toNat + 1)
    (hmax : (value c).toNat = (value c').toNat + 1 → (value c).toNat = 2 ^ 32 - 1) :
    Advances value c c' := by
  have hc := (value c).toNat_lt
  rw [Advances, UInt32.le_iff_toNat_le, toNat_saturatingAdd, toNat_saturatingAdd, UInt32.toNat_one]
  omega

theorem Advances.refl (c : C) : Advances value c c := UInt32.le_refl _

section Counter

variable (hc : hal.counter.PersistentOrFails value)
include hc

/-- Incrementing the counter, whether it fails or not. -/
theorem advances_increment (c : C) : Advances value c (hal.counter.increment c).2 := by
  rcases hcount : hal.counter.increment c with ⟨e | seq, c'⟩
  · rcases hc.increment_error hcount with heq | heq
    · exact advances_of_le (by rw [heq]; omega) (by rw [heq]; omega)
    · have hle := le_toNat_saturatingAdd (value c) 1
      exact advances_of_le (by rw [heq]; omega) (by rw [heq]; omega)
  · obtain ⟨hseq, heq⟩ := hc.increment_ok hcount
    have hle := le_toNat_saturatingAdd (value c) 1
    exact advances_of_le (by rw [heq, hseq]; omega) (by rw [heq, hseq]; omega)

/-- A charge that is refunded. -/
theorem advances_refund {c c' : C} {seq : UInt32} (h : hal.counter.increment c = (.ok seq, c')) :
    Advances value c (hal.counter.refundOnSuccess c').2 := by
  obtain ⟨hseq, heq⟩ := hc.increment_ok h
  have hlt := (value c).toNat_lt
  have hadd := toNat_saturatingAdd (value c) 1
  rw [UInt32.toNat_one] at hadd
  rcases hc.value_refund c' with hrefund | hrefund
  · exact advances_of_le (by rw [hrefund, heq, hseq]; omega) (by rw [hrefund, heq, hseq]; omega)
  · have hsub := toNat_saturatingSub (saturatingAdd (value c) 1) 1
    rw [UInt32.toNat_one] at hsub
    exact advances_of_le (by rw [hrefund, heq, hseq]; omega) (by rw [hrefund, heq, hseq]; omega)

/-- An unlock changes nothing in the store but the counter, which advances. -/
theorem unlock_advances {Z : Type} (zeroisation : ZeroisationTrigger Z) (slot : UInt8)
    (pin : PinBuffer) (m : PinPolicyMachine) (s : ContactStore S C) (z : Z) :
    ∃ c, (unlockPinProtected hal zeroisation slot pin (m, s, z)).2.2.1 = { s with counter := c } ∧
      Advances value s.counter c := by
  have hsame : ∃ c, s = { s with counter := c } ∧ Advances value s.counter c :=
    ⟨s.counter, rfl, .refl _⟩
  by_cases hgate : s.integrityGate = true
  swap
  · rwa [unlock_closed hgate]
  rcases hr : readRecord hal s slot with e | r
  · rwa [unlock_unreadable hgate hr]
  by_cases hpin : r.pinProtected = 0
  · rwa [unlock_public hgate hr hpin]
  rw [unlock_protected hgate hr hpin]
  have hcharged : ∃ c, { s with counter := (hal.counter.increment s.counter).2 }
      = { s with counter := c } ∧ Advances value s.counter c :=
    ⟨_, rfl, advances_increment hc s.counter⟩
  have hrun : ∀ {r' w'}, (storeCounter hal Z).increment (s, z) = (r', w') →
      r' = (hal.counter.increment s.counter).1 ∧
        w' = ({ s with counter := (hal.counter.increment s.counter).2 }, z) :=
    fun h ↦ ⟨(congrArg Prod.fst h).symm, (congrArg Prod.snd h).symm⟩
  refine PinPolicyMachine.submitAttempt_cases
    (P := fun _ _ (w : ContactStore S C × Z) ↦
      ∃ c, w.1 = { s with counter := c } ∧ Advances value s.counter c)
    (fun _ ↦ hsame) ?_ ?_ ?_ ?_
  · intro e w' _ h
    rw [(hrun h).2]
    exact hcharged
  · intro seq w' _ h _
    rw [(hrun h).2]
    exact hcharged
  · intro seq w' _ h _ _
    obtain ⟨hseq, rfl⟩ := hrun h
    exact ⟨_, rfl, advances_refund hc (Prod.ext hseq.symm rfl)⟩
  · intro seq w' _ h _ _
    rw [(hrun h).2]
    exact hcharged

end Counter

/-! ## Runs -/

/-- A call of a run. -/
inductive FetchCall where
  | append (slot : {slot : UInt8 // slot ∈ slots}) (lastFetched : UInt32)
  /-- Power cycle: a new store over the same storage and counter. -/
  | reboot
  /-- A PIN attempt, which charges the counter that numbers the entries. -/
  | unlock (machine : PinPolicyMachine) (slot : UInt8) (pin : PinBuffer)

/-- A store with the time of the last append that was made for each slot. -/
structure FetchRun (S C : Type) where
  store : ContactStore S C
  last : UInt8 → Option UInt32

/-- Note an append that was made. -/
def FetchRun.noted (last : UInt8 → Option UInt32) (slot : UInt8) (lastFetched : UInt32) :
    Except ContactStoreError PUnit → UInt8 → Option UInt32
  | .ok _ => fun slot' ↦ if slot = slot' then some lastFetched else last slot'
  | .error _ => last

/-- Make a call. -/
def FetchRun.step (hal : StorePlatform S C) (r : FetchRun S C) : FetchCall → FetchRun S C
  | .append slot lastFetched =>
    ⟨(timingLogAppend hal slot.1 lastFetched r.store).2,
      noted r.last slot.1 lastFetched (timingLogAppend hal slot.1 lastFetched r.store).1⟩
  | .reboot =>
    { r with store := (initOnBoot hal (new r.store.storage r.store.counter r.store.masterKey)).2 }
  | .unlock machine slot pin =>
    { r with store := (unlockPinProtected hal (fun z : Unit ↦ z) slot pin (machine, r.store, ())).2.2.1 }

/-- Make the calls of a run. -/
def FetchRun.run (hal : StorePlatform S C) (r : FetchRun S C) (calls : List FetchCall) : FetchRun S C :=
  calls.foldl (step hal) r

/-- The records of a store after its log was merged into them. -/
def mergedRecords (hal : StorePlatform S C) (s : ContactStore S C) :
    Except ContactStoreError (List ContactRecord) := do
  let records ← slots.mapM (readRecord hal s)
  (TimingLog.merge hal.storage records (s.timingLog, s.storage)).1

/-- After a merge every contact has the time of the last append for its slot. -/
def FetchRun.Shows (hal : StorePlatform S C) (r : FetchRun S C) : Prop :=
  ∃ records, mergedRecords hal r.store = .ok records ∧
    ∀ slot ∈ slots, ∀ contact, readRecord hal r.store slot = .ok contact → contact.isActive = true →
      ∀ time, r.last slot = some time →
        (records[slot.toNat]?).map ContactRecord.lastFetched = some time

/-- A call that no time gets lost with: an append finds room in the log, and a power cycle finds it
without entries. -/
def KeepsLog (s : ContactStore S C) : FetchCall → Prop
  | .append _ _ => s.timingLog.count < maxEntries
  | .reboot => s.timingLog.count = 0
  | .unlock _ _ _ => True

/-- Every call of a run is one, as the store stands when it is made. -/
def FetchRun.AllKeepLog (hal : StorePlatform S C) : FetchRun S C → List FetchCall → Prop
  | _, [] => True
  | r, c :: calls => KeepsLog r.store c ∧ AllKeepLog hal (r.step hal c) calls

/-- What holds while no time was lost: the log has the given entries, numbered in their order, and
the last append for a slot is the last entry for it. -/
structure FetchRun.Logged (memory : S → Memory) (value : C → UInt32) (r : FetchRun S C)
    (entries : List TimingLogEntry) : Prop where
  sound : Sound (memory r.store.storage)
  count : r.store.timingLog = ⟨entries.length⟩
  room : entries.length ≤ maxEntries
  stored : TimingLog.Stored (memory r.store.storage) entries
  complete : ∀ e ∈ entries, e.Complete
  sorted : entries.Pairwise fun a b ↦ a.seq ≤ b.seq
  bounded : ∀ e ∈ entries, e.seq ≤ saturatingAdd (value r.store.counter) 1
  last : ∀ slot, r.last slot = (TimingLog.lastOf entries slot).map TimingLogEntry.lastFetched

namespace FetchRun

variable {r : FetchRun S C} {entries : List TimingLogEntry}

/-- A sound store with an empty log. -/
theorem Logged.empty (hsound : Sound (memory s.storage)) (hlog : s.timingLog = .new) :
    Logged memory value ⟨s, fun _ ↦ none⟩ [] where
  sound := hsound
  count := hlog
  room := Nat.zero_le _
  stored := by
    intro i e h
    rw [List.getElem?_nil] at h
    cases h
  complete := fun _ h ↦ absurd h List.not_mem_nil
  sorted := .nil
  bounded := fun _ h ↦ absurd h List.not_mem_nil
  last := fun _ ↦ rfl

/-- The counter may advance. -/
theorem Logged.advance (h : r.Logged memory value entries) {c : C}
    (hc : Advances value r.store.counter c) :
    Logged memory value { r with store := { r.store with counter := c } } entries :=
  { h with bounded := fun e he ↦ UInt32.le_trans (h.bounded e he) hc }

section Step

variable (hf : hal.storage.Faithful contactStoreEnd memory)
  (hc : hal.counter.PersistentOrFails value)
include hf hc

/-- **Append.** -/
theorem Logged.append (h : r.Logged memory value entries) (slot : {slot : UInt8 // slot ∈ slots})
    (lastFetched : UInt32) (hroom : r.store.timingLog.count < maxEntries) :
    ∃ entries', (r.step hal (.append slot lastFetched)).Logged memory value entries' := by
  rw [step]
  obtain hrun | ⟨e, c, hcount, hrun⟩ | ⟨seq, c, x, hcount, hrun, hmem⟩ :=
    timingLogAppend_cases hf h.sound hroom slot.1 lastFetched
  · rw [hrun]
    exact ⟨entries, h⟩
  · rw [hrun]
    have hadvance := advances_increment hc r.store.counter
    rw [hcount] at hadvance
    exact ⟨entries, h.advance hadvance⟩
  -- the entry is numbered with the new value of the counter, which no earlier number exceeds
  obtain ⟨hseq, hvalue⟩ := hc.increment_ok hcount
  rw [h.count] at hroom hmem
  set e : TimingLogEntry := .recomputeCrc { slot := slot.1, lastFetched, seq, entryCrc := 0 }
  have hle : ∀ e' ∈ entries, e'.seq ≤ seq := fun e' he' ↦ hseq ▸ h.bounded e' he'
  have hnext : seq ≤ saturatingAdd (value c) 1 := by
    rw [UInt32.le_iff_toNat_le, hvalue]
    exact le_toNat_saturatingAdd seq 1
  have hne : seq ≠ 0 := by
    rintro rfl
    have hzero := congrArg UInt32.toNat hseq
    rw [toNat_saturatingAdd, UInt32.toNat_zero, UInt32.toNat_one] at hzero
    omega
  rw [hrun]
  refine ⟨entries ++ [e], ?_, ?_, ?_, ?_, ?_, ?_, ?_, ?_⟩
  · change Sound (memory x)
    rw [hmem]
    exact h.sound.of_sameRecords (sameRecords_of_sameButLog
      (TimingLog.sameButLog_patch hroom e.length_asBytes))
  · rw [List.length_append, List.length_singleton, h.count]
  · rw [List.length_append, List.length_singleton]
    exact hroom
  · change TimingLog.Stored (memory x) _
    rw [hmem]
    exact h.stored.push e
  · intro e' he'
    rcases List.mem_append.mp he' with he' | he'
    · exact h.complete e' he'
    · rw [List.mem_singleton.mp he']
      exact ⟨hne, rfl⟩
  · refine List.pairwise_append.mpr ⟨h.sorted, List.pairwise_singleton _ _, fun e' he' a ha ↦ ?_⟩
    rw [List.mem_singleton.mp ha]
    exact hle e' he'
  · intro e' he'
    rcases List.mem_append.mp he' with he' | he'
    · exact UInt32.le_trans (hle e' he') hnext
    · rw [List.mem_singleton.mp he']
      exact hnext
  · intro slot'
    rw [TimingLog.lastOf_append]
    change (if slot.1 = slot' then some lastFetched else r.last slot') = _
    rw [h.last]
    split_ifs with heq heq' heq'
    · rfl
    · exact absurd heq heq'
    · exact absurd heq' heq
    · rfl

omit hc in
/-- **Power cycle.** -/
theorem Logged.reboot (h : r.Logged memory value entries) (hempty : r.store.timingLog.count = 0) :
    (r.step hal .reboot).Logged memory value entries := by
  set fresh : ContactStore S C := new r.store.storage r.store.counter r.store.masterKey
  have hmarker : u32OfLe ((memory fresh.storage).window contactStoreProvisionMarkerOffset 4) ≠ 0 :=
    h.sound.marker
  obtain ⟨hstorage, hcounter, hlog⟩ := initOnBoot_keeps hf hmarker
  rw [h.count] at hempty
  have hlength : entries.length = 0 := hempty
  refine ⟨?_, ?_, h.room, ?_, h.complete, h.sorted, ?_, h.last⟩
  · rw [FetchRun.step, hstorage]
    exact h.sound
  · rw [FetchRun.step, hlog, hlength]
    rfl
  · rw [FetchRun.step, hstorage]
    exact h.stored
  · rw [FetchRun.step, hcounter]
    exact h.bounded

/-- **Step.** A call that keeps the log leaves it in order. -/
theorem Logged.step (h : r.Logged memory value entries) (c : FetchCall) (hkeep : KeepsLog r.store c) :
    ∃ entries', (r.step hal c).Logged memory value entries' := by
  cases c with
  | append slot lastFetched => exact h.append hf hc slot lastFetched hkeep
  | reboot => exact ⟨entries, h.reboot hf hkeep⟩
  | unlock machine slot pin =>
    obtain ⟨c, hstore, hadvance⟩ := unlock_advances hc (fun z : Unit ↦ z) slot pin machine r.store ()
    rw [FetchRun.step, hstore]
    exact ⟨entries, h.advance hadvance⟩

/-- **Run.** -/
theorem Logged.run (calls : List FetchCall) : ∀ {r : FetchRun S C} {entries},
    r.Logged memory value entries → r.AllKeepLog hal calls →
    ∃ entries', (r.run hal calls).Logged memory value entries' := by
  induction calls with
  | nil => exact fun h _ ↦ ⟨_, h⟩
  | cons c calls ih =>
    rintro r entries h ⟨hkeep, hrest⟩
    obtain ⟨entries', h'⟩ := h.step hf hc c hkeep
    exact ih h' hrest

end Step

/-! ## What is shown -/

theorem getElem?_slots {slot : UInt8} (h : slot ∈ slots) : slots[slot.toNat]? = some slot := by
  have hlt := mem_slots.mp h
  rw [slots, List.getElem?_map, List.getElem?_range (by rw [contactSlotCount_eq]; exact hlt),
    Option.map_some, UInt8.ofNat_toNat]

section Shown

variable (hf : hal.storage.Faithful contactStoreEnd memory)
include hf

/-- The records of a sound store, read slot by slot. -/
theorem exists_records (hsound : Sound (memory s.storage)) : ∃ records,
    slots.mapM (readRecord hal s) = .ok records ∧ ∀ slot ∈ slots, ∀ contact,
      readRecord hal s slot = .ok contact → records[slot.toNat]? = some contact := by
  have hread : ∀ slot ∈ slots, ∃ r, readRecord hal s slot = .ok r ∧
      id r = (readRecord hal s slot).toOption.getD .default := by
    intro slot hslot
    obtain ⟨r, hr⟩ := readRecord_of_goodSlot hf (hsound.slots slot hslot)
    exact ⟨r, hr, by rw [hr]; rfl⟩
  obtain ⟨records, hrecords, hmap⟩ := mapM_ok_map hread
  refine ⟨records, hrecords, fun slot hslot contact hcontact ↦ ?_⟩
  rw [List.map_id] at hmap
  rw [hmap, List.getElem?_map, getElem?_slots hslot, Option.map_some, hcontact]
  rfl

/-- **Merging.** A log in order gives each contact the time of the last entry for its slot, and
leaves the others alone. -/
theorem Logged.merged (h : r.Logged memory value entries) :
    ∃ records, mergedRecords hal r.store = .ok records ∧
      ∀ slot ∈ slots, ∀ contact, readRecord hal r.store slot = .ok contact → contact.isActive = true →
        (records[slot.toNat]?).map ContactRecord.lastFetched
          = some ((r.last slot).getD contact.lastFetched) := by
  obtain ⟨records, hrecords, hread⟩ := exists_records hf h.sound
  refine ⟨TimingLog.applyBest (TimingLog.bestOf entries) records, ?_, ?_⟩
  · rw [mergedRecords, hrecords, ok_bind, h.count]
    exact TimingLog.merge_eq hf h.room h.complete h.stored records
  · intro slot hslot contact hcontact hactive
    have hbest := TimingLog.bestOf_eq h.sorted (mem_slots.mp hslot)
    rw [h.last, TimingLog.applyBest, List.getElem?_zipWith, hbest, hread slot hslot contact hcontact]
    rcases hlast : TimingLog.lastOf entries slot with _ | e
    · exact congrArg (Option.map ContactRecord.lastFetched ∘ some) (if_neg fun hne ↦ hne.1 rfl)
    · have hne : e.seq ≠ 0 := (h.complete e (TimingLog.mem_of_lastOf hlast).1).1
      exact congrArg (Option.map ContactRecord.lastFetched ∘ some) (if_pos ⟨hne, hactive⟩)

/-- A log in order shows every time. -/
theorem Logged.shows (h : r.Logged memory value entries) : r.Shows hal := by
  obtain ⟨records, hrecords, hmerged⟩ := h.merged hf
  refine ⟨records, hrecords, fun slot hslot contact hcontact hactive time htime ↦ ?_⟩
  rw [hmerged slot hslot contact hcontact hactive, htime, Option.getD_some]

variable (hc : hal.counter.PersistentOrFails value)
include hc

/-- **No fetch time is lost.** From a sound store with an empty log on, a run in which no append
finds the log full and no power cycle finds entries in it shows for every slot the time of the last
append that was made for it. -/
theorem fetch_times_kept (hsound : Sound (memory s.storage)) (hlog : s.timingLog = .new)
    {calls : List FetchCall} (hcalls : AllKeepLog hal ⟨s, fun _ ↦ none⟩ calls) :
    (run hal ⟨s, fun _ ↦ none⟩ calls).Shows hal := by
  obtain ⟨entries, h⟩ := (Logged.empty hsound hlog).run hf hc calls hcalls
  exact h.shows hf

end Shown

/-! ## A time that is lost -/

/-- An open store with one contact, in slot 4. -/
def loaded : ContactStore Memory UInt32 :=
  { holder samplePlatform.keyedHash 4 0 0 with integrityGate := true }

theorem sound_loaded : Sound loaded.storage where
  marker := marker_holding _ _ _ _
  slots slot hslot := by
    intro hmagic
    obtain rfl : slot = 4 := (occupied_holding 4 0 0 _ hslot).mp hmagic
    rw [show slotBytes loaded.storage 4 = peer.asBytes from
      (slotBytes_holding 4 0 0 _ hslot).trans (if_pos rfl), ContactRecord.fromBytesUnchecked_asBytes]
    exact ⟨recordCrcOk_peer, fun _ ↦ ⟨.ed25519, rfl⟩⟩

/-- Slot 4. -/
def slotFour : {slot : UInt8 // slot ∈ slots} := ⟨4, by decide⟩

/-- The first append. -/
theorem append_loaded (lastFetched : UInt32) : ∃ x, timingLogAppend samplePlatform 4 lastFetched loaded
      = (.ok ⟨⟩, { loaded with storage := x, counter := 1, timingLog := ⟨1⟩ }) ∧
    x = loaded.storage.patch (TimingLog.entryOffset 0)
      (TimingLogEntry.recomputeCrc { slot := 4, lastFetched, seq := 1, entryCrc := 0 }).asBytes :=
  timingLogAppend_run samplePlatform_faithful rfl sound_loaded (by decide : 0 < maxEntries)
    (rfl : samplePlatform.counter.increment 0 = (.ok 1, 1)) 4 lastFetched

theorem step_loaded {x : Memory} {lastFetched : UInt32}
    (h : timingLogAppend samplePlatform 4 lastFetched loaded
      = (.ok ⟨⟩, { loaded with storage := x, counter := 1, timingLog := ⟨1⟩ })) :
    step samplePlatform ⟨loaded, fun _ ↦ none⟩ (.append slotFour lastFetched)
      = ⟨{ loaded with storage := x, counter := 1, timingLog := ⟨1⟩ },
        fun slot ↦ if 4 = slot then some lastFetched else none⟩ := by
  rw [step, show slotFour.1 = 4 from rfl, h]
  rfl

/-- Two appends for one slot show the second time. -/
theorem fetch_times_kept_twice : (run samplePlatform ⟨loaded, fun _ ↦ none⟩
    [.append slotFour 7, .append slotFour 9]).Shows samplePlatform := by
  refine fetch_times_kept samplePlatform_faithful valueCounter_persistent.orFails sound_loaded rfl
    ⟨(by decide : 0 < maxEntries), ?_, trivial⟩
  obtain ⟨x, happend, -⟩ := append_loaded 7
  rw [step_loaded happend]
  exact (by decide : 1 < maxEntries)

/-- **A power cycle forgets the log.** After it the contact has the time of its record, not that of
the append before. -/
theorem fetch_time_lost : ¬ (run samplePlatform ⟨loaded, fun _ ↦ none⟩
    [.append slotFour 7, .reboot]).Shows samplePlatform := by
  obtain ⟨x, happend, hx⟩ := append_loaded 7
  have hsame : SameRecords loaded.storage x := by
    rw [hx]
    exact sameRecords_of_sameButLog
      (TimingLog.sameButLog_patch (by decide) (TimingLogEntry.length_asBytes _))
  have hsound : Sound x := sound_loaded.of_sameRecords hsame
  set fresh : ContactStore Memory UInt32 := new x 1 loaded.masterKey
  have hrun : run samplePlatform ⟨loaded, fun _ ↦ none⟩ [.append slotFour 7, .reboot]
      = ⟨(initOnBoot samplePlatform fresh).2, fun slot ↦ if 4 = slot then some 7 else none⟩ := by
    rw [run, List.foldl_cons, step_loaded happend]
    rfl
  have h4 : (4 : UInt8) ∈ slots := by decide
  obtain ⟨hstorage, -, hlog⟩ := initOnBoot_keeps (s := fresh) samplePlatform_faithful hsound.marker
  set booted := (initOnBoot samplePlatform fresh).2
  have hread : readRecord samplePlatform booted 4 = .ok peer := by
    have hloaded : readRecord samplePlatform loaded 4 = .ok peer :=
      readRecord_holder samplePlatform.keyedHash 0 0 h4
    have hbooted : SameRecords loaded.storage booted.storage := by
      rw [hstorage]
      exact hsame
    rw [← readRecord_congr samplePlatform_faithful hbooted h4, hloaded]
  have hbooted : Sound booted.storage := by
    rw [hstorage]
    exact hsound
  have hempty : Logged (fun m : Memory ↦ m) id ⟨booted, fun _ ↦ none⟩ [] := .empty hbooted hlog
  obtain ⟨records', hrecords', hmerged⟩ := hempty.merged samplePlatform_faithful
  rw [hrun]
  rintro ⟨records, hrecords, hshown⟩
  obtain rfl : records' = records := Except.ok.inj (hrecords'.symm.trans hrecords)
  have hlast : (if (4 : UInt8) = 4 then some (7 : UInt32) else none) = some 7 := if_pos rfl
  have htime := hshown 4 h4 peer hread rfl 7 hlast
  rw [hmerged 4 h4 peer hread rfl] at htime
  have hzero : peer.lastFetched = 7 := Option.some.inj htime
  exact absurd hzero (by decide)

end FetchRun

end ContactStore

end Galdralag.Contacts
