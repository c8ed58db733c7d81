import Galdralag.Host.EphemeralOffers
import Mathlib.Data.List.Basic
import Mathlib.Data.List.Induction
import Mathlib.Data.List.Nodup

/-!
# The lifecycle of an offer

An offer is stored, and later consumed or revoked. The private key of an offer that was generated
here is to go when the offer is used up. Revoking an offer sets a flag and clears the column of the
key. Marking it consumed sets a flag and leaves the column as it is, and asks for the flag it sets,
but neither for the other one nor for the expiry.

So what the lifecycle promises depends on whom it is asked to consume: no offer that is used up
keeps a key, and none is consumed that was revoked or had expired, exactly when every offer that is
consumed was valid and never had a key.
-/

set_option linter.all false

namespace Galdralag.Host

open Fallible

/-! ## Operations -/

/-- Whether the offer is past its expiry time. -/
def OfferRow.isExpired (row : OfferRow) (now : Int) : Bool := now ≥ row.expiresAt

/-- Whether the offer can still be used. -/
def OfferRow.isValid (row : OfferRow) (now : Int) : Bool :=
  !row.consumed && !row.revoked && !row.isExpired now

/-- `UPDATE ephemeral_offers … WHERE session_id = ?1`. -/
def EpkDb.updateOffer (sessionId : String) (f : OfferRow → OfferRow) (db : EpkDb) : EpkDb :=
  { db with offers := db.offers.map fun r ↦ if r.sessionId = sessionId then f r else r }

/-- Retrieve a single offer. -/
def getOffer (sessionId : String) (db : EpkDb) : Except GaldraError OfferRow :=
  (db.offers.find? fun r ↦ r.sessionId = sessionId).elim (.error (.epkNotFound sessionId)) .ok

/-- Mark an offer consumed. -/
def markConsumed (sessionId : String) : Fallible EpkDb GaldraError PUnit := do
  let row ← reading (getOffer sessionId)
  require (row.consumed = false) (.epkConsumed sessionId)
  modify (EpkDb.updateOffer sessionId fun r ↦ { r with consumed := true })

/-- Revoke an offer immediately, and clear the private key column. -/
def revokeOffer (sessionId : String) : Fallible EpkDb GaldraError PUnit := do
  let found ← gets fun db ↦ db.offers.any fun r ↦ r.sessionId = sessionId
  require (found = true) (.epkNotFound sessionId)
  modify (EpkDb.updateOffer sessionId fun r ↦ { r with revoked := true, myPrivateKeyBytes := none })

/-! ## Runs -/

/-- The calls of the lifecycle. Consuming happens at some time. -/
inductive OfferCall where
  | store (row : OfferRow)
  | markConsumed (now : Int) (sessionId : String)
  | revoke (sessionId : String)

namespace OfferCall

/-- Perform a call. -/
def perform : OfferCall → Fallible EpkDb GaldraError PUnit
  | store row => storeOffer row
  | markConsumed _ sessionId => Host.markConsumed sessionId
  | revoke sessionId => revokeOffer sessionId

/-- An offer is stored unused. -/
def Unused : OfferCall → Prop
  | store row => row.consumed = false ∧ row.revoked = false
  | _ => True

/-- The call consumes the offer of a session. -/
def consumes (sessionId : String) : OfferCall → Bool
  | markConsumed _ id => id = sessionId
  | _ => false

/-- Whoever consumes an offer finds it valid, and without a private key. -/
def Careful (db : EpkDb) : OfferCall → Prop
  | markConsumed now sessionId => ∀ r ∈ db.offers, r.sessionId = sessionId → r.consumed = false →
      r.isValid now = true ∧ r.myPrivateKeyBytes = none
  | _ => True

/-- What a call that succeeds has found: a free session, or an offer that is not consumed yet. -/
def Found (db : EpkDb) : OfferCall → Prop
  | store row => ∀ r ∈ db.offers, ¬ r.sessionId = row.sessionId
  | markConsumed _ sessionId => ∃ r ∈ db.offers, r.sessionId = sessionId ∧ r.consumed = false
  | revoke _ => True

/-- What a call that succeeds makes of a row. -/
def change : OfferCall → OfferRow → OfferRow
  | store _, r => r
  | markConsumed _ id, r => if r.sessionId = id then { r with consumed := true } else r
  | revoke id, r =>
    if r.sessionId = id then { r with revoked := true, myPrivateKeyBytes := none } else r

/-- The row that a call adds. -/
def added : OfferCall → List OfferRow
  | store row => [row]
  | _ => []

/-- What a call makes of the table when it succeeds. -/
def update (c : OfferCall) (db : EpkDb) : EpkDb :=
  { db with offers := db.offers.map c.change ++ c.added }

end OfferCall

/-- A database, and the calls that returned `Ok` on the way to it. -/
structure OfferHistory where
  db : EpkDb
  done : List OfferCall

namespace OfferHistory

/-- One more call. -/
def step (h : OfferHistory) (c : OfferCall) : OfferHistory where
  db := (c.perform h.db).2
  done := if (c.perform h.db).1 = .ok ⟨⟩ then h.done ++ [c] else h.done

/-- The calls are made one after the other, on a database without offers. -/
def run (log : AuditLog) (calls : List OfferCall) : OfferHistory :=
  calls.foldl step ⟨⟨[], log⟩, []⟩

theorem run_concat (log : AuditLog) (calls : List OfferCall) (c : OfferCall) :
    run log (calls ++ [c]) = (run log calls).step c := by
  rw [run, List.foldl_concat]
  rfl

end OfferHistory

/-! ## What a call does -/

theorem getOffer_eq_ok {sessionId : String} {db : EpkDb} {row : OfferRow}
    (h : getOffer sessionId db = .ok row) : row ∈ db.offers ∧ row.sessionId = sessionId := by
  rw [getOffer] at h
  rcases hfind : db.offers.find? (fun r ↦ r.sessionId = sessionId) with _ | found
  · rw [hfind] at h
    cases h
  · rw [hfind] at h
    obtain rfl := Except.ok.inj h
    exact ⟨List.mem_of_find?_eq_some hfind, by simpa using List.find?_some hfind⟩

namespace OfferCall

variable {c : OfferCall} {db : EpkDb} {r : OfferRow}

theorem mem_update {r' : OfferRow} :
    r' ∈ (c.update db).offers ↔ (∃ r ∈ db.offers, c.change r = r') ∨ r' ∈ c.added := by
  rw [update, List.mem_append, List.mem_map]

/-- An update by session is the update of a call that adds nothing. -/
theorem updateOffer_eq {sessionId : String} {f : OfferRow → OfferRow} (hadded : c.added = [])
    (hchange : c.change = fun r ↦ if r.sessionId = sessionId then f r else r) :
    db.updateOffer sessionId f = c.update db := by
  rw [update, hadded, List.append_nil, hchange]
  rfl

theorem markConsumed_ok {sessionId : String} (hrow : getOffer sessionId db = .ok r)
    (hfresh : r.consumed = false) (now : Int) :
    (markConsumed now sessionId).perform db = (.ok ⟨⟩, (markConsumed now sessionId).update db) := by
  have hread : (reading (getOffer sessionId) : Fallible EpkDb GaldraError OfferRow) db
      = (.ok r, db) := by rw [reading_apply, hrow]
  rw [perform, Host.markConsumed, bind_of_ok hread, bind_of_ok (require_of hfresh _ _)]
  exact congrArg (Prod.mk _) (updateOffer_eq rfl rfl)

/-- **One call.** A call fails and changes nothing, or it finds what it needs and updates the table.
-/
theorem perform_cases (c : OfferCall) (db : EpkDb) :
    (c.perform db = (.ok ⟨⟩, c.update db) ∧ c.Found db) ∨ ∃ e, c.perform db = (.error e, db) := by
  cases c with
  | store row =>
    rcases guarded_cases (fun db : EpkDb ↦ db.offers.any fun r ↦ r.sessionId = row.sessionId)
      (fun taken ↦ taken = false) (GaldraError.database .constraintViolation)
      (fun db : EpkDb ↦ { db with offers := db.offers ++ [row] }) db with ⟨hfree, h⟩ | h
    · refine .inl ⟨h.trans ?_, fun r hr hid ↦ ?_⟩
      · have hmap : db.offers.map (store row).change = db.offers := List.map_id' _
        rw [update, hmap]
        rfl
      · rw [List.any_eq_false] at hfree
        exact hfree r hr (decide_eq_true hid)
    · exact .inr ⟨_, h⟩
  | markConsumed now sessionId =>
    rcases hrow : getOffer sessionId db with e | row
    · exact .inr ⟨e, bind_of_error (by rw [reading_apply, hrow])⟩
    by_cases hconsumed : row.consumed = false
    · exact .inl ⟨markConsumed_ok hrow hconsumed now, row, (getOffer_eq_ok hrow).1,
        (getOffer_eq_ok hrow).2, hconsumed⟩
    · have hread : (reading (getOffer sessionId) : Fallible EpkDb GaldraError OfferRow) db
          = (.ok row, db) := by rw [reading_apply, hrow]
      refine .inr ⟨.epkConsumed sessionId, ?_⟩
      rw [perform, Host.markConsumed, bind_of_ok hread, require, if_neg hconsumed]
      rfl
  | revoke sessionId =>
    rcases guarded_cases (fun db : EpkDb ↦ db.offers.any fun r ↦ r.sessionId = sessionId)
      (fun found ↦ found = true) (GaldraError.epkNotFound sessionId)
      (EpkDb.updateOffer sessionId fun r ↦ { r with revoked := true, myPrivateKeyBytes := none })
      db with ⟨-, h⟩ | h
    · exact .inl ⟨h.trans (congrArg (Prod.mk _) (updateOffer_eq rfl rfl)), trivial⟩
    · exact .inr ⟨_, h⟩

theorem eq_of_consumes {sessionId : String} (h : c.consumes sessionId = true) :
    ∃ now, c = markConsumed now sessionId := by
  cases c with
  | markConsumed now id => exact ⟨now, by rw [of_decide_eq_true h]⟩
  | _ => cases h

/-! ### What happens to a row -/

@[simp] theorem sessionId_change (c : OfferCall) (r : OfferRow) :
    (c.change r).sessionId = r.sessionId := by
  cases c with
  | store row => rfl
  | _ => rw [change]; split_ifs <;> rfl

/-- The flags are only set. -/
theorem consumed_change (h : r.consumed = true) : (c.change r).consumed = true := by
  cases c with
  | store row => exact h
  | _ => rw [change]; split_ifs <;> first | rfl | exact h

theorem revoked_change (h : r.revoked = true) : (c.change r).revoked = true := by
  cases c with
  | store row => exact h
  | _ => rw [change]; split_ifs <;> first | rfl | exact h

/-- A key is never put in. -/
theorem key_change (h : r.myPrivateKeyBytes = none) : (c.change r).myPrivateKeyBytes = none := by
  cases c with
  | store row => exact h
  | _ => rw [change]; split_ifs <;> first | rfl | exact h

/-- A row that is used up was so before, or has lost its key, or was consumed by this call. -/
theorem used_change (h : (c.change r).consumed = true ∨ (c.change r).revoked = true) :
    (r.consumed = true ∨ r.revoked = true) ∨ (c.change r).myPrivateKeyBytes = none ∨
      (∃ now, c = markConsumed now r.sessionId) ∧ r.consumed = false := by
  cases c with
  | store row => exact .inl h
  | markConsumed now id =>
    rw [change] at h ⊢
    split_ifs at h ⊢ with hid
    · rcases hr : r.consumed with _ | _
      · exact .inr (.inr ⟨⟨now, by rw [hid]⟩, rfl⟩)
      · exact .inl (.inl rfl)
    · exact .inl h
  | revoke id =>
    rw [change] at h ⊢
    split_ifs at h ⊢
    · exact .inr (.inl rfl)
    · exact .inl h

end OfferCall

/-! ## What every run keeps -/

/-- A session has one offer. -/
def EpkDb.Keyed (db : EpkDb) : Prop :=
  ∀ r ∈ db.offers, ∀ r' ∈ db.offers, r.sessionId = r'.sessionId → r = r'

/-- An offer that is used up holds no private key. -/
def EpkDb.Erased (db : EpkDb) : Prop :=
  ∀ r ∈ db.offers, r.consumed = true ∨ r.revoked = true → r.myPrivateKeyBytes = none

/-- The offer of a session is the one that is retrieved. -/
theorem EpkDb.Keyed.getOffer {db : EpkDb} (h : db.Keyed) {r : OfferRow} (hr : r ∈ db.offers) :
    Host.getOffer r.sessionId db = .ok r := by
  have hsome : (db.offers.find? fun q ↦ q.sessionId = r.sessionId).isSome = true :=
    List.find?_isSome.mpr ⟨r, hr, decide_eq_true rfl⟩
  obtain ⟨q, hq⟩ := Option.isSome_iff_exists.mp hsome
  have hget : Host.getOffer r.sessionId db = .ok q := by rw [Host.getOffer, hq, Option.elim_some]
  obtain ⟨hmem, hid⟩ := getOffer_eq_ok hget
  rw [hget, h q hmem r hr hid]

theorem EpkDb.Keyed.update {c : OfferCall} {db : EpkDb} (h : db.Keyed) (hfound : c.Found db) :
    (c.update db).Keyed := by
  have hfree : ∀ r ∈ db.offers, ∀ r' ∈ c.added, ¬ r.sessionId = r'.sessionId := by
    cases c with
    | store row =>
      intro r hr r' hr'
      rw [List.mem_singleton.mp hr']
      exact hfound r hr
    | _ => exact fun r _ r' hr' ↦ absurd hr' List.not_mem_nil
  have hsingle : ∀ r ∈ c.added, ∀ r' ∈ c.added, r = r' := by
    cases c with
    | store row => exact fun r hr r' hr' ↦ by rw [List.mem_singleton.mp hr, List.mem_singleton.mp hr']
    | _ => exact fun r hr ↦ absurd hr List.not_mem_nil
  intro r hr r' hr' hid
  rcases OfferCall.mem_update.mp hr with ⟨q, hq, rfl⟩ | hr
  · rcases OfferCall.mem_update.mp hr' with ⟨q', hq', rfl⟩ | hr'
    · rw [c.sessionId_change, c.sessionId_change] at hid
      rw [h q hq q' hq' hid]
    · rw [c.sessionId_change] at hid
      exact absurd hid (hfree q hq r' hr')
  · rcases OfferCall.mem_update.mp hr' with ⟨q', hq', rfl⟩ | hr'
    · rw [c.sessionId_change] at hid
      exact absurd hid.symm (hfree q' hq' r hr)
    · exact hsingle r hr r' hr'

/-- A careful call leaves no key behind. -/
theorem EpkDb.Erased.update {c : OfferCall} {db : EpkDb} (h : db.Erased) (hunused : c.Unused)
    (hcareful : c.Careful db) : (c.update db).Erased := by
  intro r hr hused
  rcases OfferCall.mem_update.mp hr with ⟨q, hq, rfl⟩ | hr
  · rcases OfferCall.used_change hused with hused | hnone | ⟨⟨now, rfl⟩, hfresh⟩
    · exact OfferCall.key_change (h q hq hused)
    · exact hnone
    · exact OfferCall.key_change (hcareful q hq rfl hfresh).2
  · cases c with
    | store row =>
      obtain rfl := List.mem_singleton.mp hr
      rw [hunused.1, hunused.2] at hused
      simp at hused
    | _ => exact absurd hr List.not_mem_nil

namespace OfferHistory

theorem step_ok {h : OfferHistory} {c : OfferCall}
    (hc : c.perform h.db = (.ok ⟨⟩, c.update h.db)) :
    h.step c = ⟨c.update h.db, h.done ++ [c]⟩ := by
  rw [step, hc, if_pos rfl]

theorem step_refused {h : OfferHistory} {c : OfferCall} {e : GaldraError}
    (hc : c.perform h.db = (.error e, h.db)) : h.step c = h := by
  rw [step, hc, if_neg (by rintro ⟨⟩)]

variable {log : AuditLog}

theorem run_keyed (calls : List OfferCall) : (run log calls).db.Keyed := by
  induction calls using List.reverseRecOn with
  | nil => exact fun r hr ↦ absurd hr List.not_mem_nil
  | append_singleton calls c ih =>
    rw [run_concat]
    rcases c.perform_cases (run log calls).db with ⟨hc, hfound⟩ | ⟨e, hc⟩
    · rw [step_ok hc]
      exact ih.update hfound
    · rwa [step_refused hc]

/-- Rows stay, and their flags stay set. -/
theorem flags_kept (h : OfferHistory) (c : OfferCall) {r : OfferRow} (hr : r ∈ h.db.offers) :
    ∃ r' ∈ (h.step c).db.offers, r'.sessionId = r.sessionId ∧
      (r.consumed = true → r'.consumed = true) ∧ (r.revoked = true → r'.revoked = true) := by
  rcases c.perform_cases h.db with ⟨hc, -⟩ | ⟨e, hc⟩
  · rw [step_ok hc]
    exact ⟨c.change r, OfferCall.mem_update.mpr (.inl ⟨r, hr, rfl⟩), c.sessionId_change r,
      OfferCall.consumed_change, OfferCall.revoked_change⟩
  · rw [step_refused hc]
    exact ⟨r, hr, rfl, id, id⟩

/-- An offer is consumed once: as soon as it was, its flag says so. -/
theorem run_consumes (sessionId : String) (calls : List OfferCall) :
    (run log calls).done.countP (OfferCall.consumes sessionId) ≤ 1 ∧
      ((run log calls).done.countP (OfferCall.consumes sessionId) = 1 →
        ∃ r ∈ (run log calls).db.offers, r.sessionId = sessionId ∧ r.consumed = true) := by
  induction calls using List.reverseRecOn with
  | nil => exact ⟨Nat.zero_le 1, fun h ↦ absurd h Nat.zero_ne_one⟩
  | append_singleton calls c ih =>
    rw [run_concat]
    rcases c.perform_cases (run log calls).db with ⟨hc, hfound⟩ | ⟨e, hc⟩
    · rw [step_ok hc, List.countP_append, List.countP_singleton]
      by_cases hconsumes : c.consumes sessionId = true
      · obtain ⟨now, rfl⟩ := OfferCall.eq_of_consumes hconsumes
        obtain ⟨r, hr, hid, hfresh⟩ := hfound
        -- the row that was found is the only one of its session, and it was not consumed
        have hzero : (run log calls).done.countP (OfferCall.consumes sessionId) = 0 := by
          refine Nat.lt_one_iff.mp (Nat.lt_of_le_of_ne ih.1 fun hone ↦ ?_)
          obtain ⟨r', hr', hid', hused⟩ := ih.2 hone
          rw [run_keyed calls r hr r' hr' (hid.trans hid'.symm), hused] at hfresh
          cases hfresh
        rw [hzero, if_pos hconsumes]
        refine ⟨Nat.le_refl 1, fun _ ↦ ?_⟩
        refine ⟨_, OfferCall.mem_update.mpr (.inl ⟨r, hr, rfl⟩), ?_, ?_⟩
        · rw [OfferCall.sessionId_change, hid]
        · rw [OfferCall.change, if_pos hid]
      · rw [if_neg hconsumes, Nat.add_zero]
        refine ⟨ih.1, fun hone ↦ ?_⟩
        obtain ⟨r, hr, hid, hused⟩ := ih.2 hone
        exact ⟨_, OfferCall.mem_update.mpr (.inl ⟨r, hr, rfl⟩), (c.sessionId_change r).trans hid,
          OfferCall.consumed_change hused⟩
    · rwa [step_refused hc]

/-- Careful calls leave no key behind. -/
theorem run_erased {calls : List OfferCall} (hunused : ∀ c ∈ calls, c.Unused)
    (hcareful : ∀ before c, before ++ [c] <+: calls → c.Careful (run log before).db) :
    (run log calls).db.Erased := by
  induction calls using List.reverseRecOn with
  | nil => exact fun r hr ↦ absurd hr List.not_mem_nil
  | append_singleton calls c ih =>
    have ih := ih (fun d hd ↦ hunused d (List.mem_append_left _ hd))
      fun before d hpre ↦ hcareful before d (hpre.trans (List.prefix_append _ _))
    rw [run_concat]
    rcases c.perform_cases (run log calls).db with ⟨hc, -⟩ | ⟨e, hc⟩
    · rw [step_ok hc]
      exact ih.update (hunused c (List.mem_append_right _ List.mem_cons_self))
        (hcareful calls c (List.prefix_refl _))
    · rwa [step_refused hc]

/-! ## The promise -/

/-- What the lifecycle promises for a run of calls. -/
structure KeepsPromise (log : AuditLog) (calls : List OfferCall) : Prop where
  /-- No offer that is used up holds a key, at any time. -/
  erased : ∀ before, before <+: calls → (run log before).db.Erased
  /-- Every offer stays, and neither flag is taken back. -/
  flags : ∀ before c, before ++ [c] <+: calls → ∀ r ∈ (run log before).db.offers,
    ∃ r' ∈ (run log (before ++ [c])).db.offers, r'.sessionId = r.sessionId ∧
      (r.consumed = true → r'.consumed = true) ∧ (r.revoked = true → r'.revoked = true)
  /-- Every offer is consumed at most once. -/
  once : ∀ sessionId, (run log calls).done.countP (OfferCall.consumes sessionId) ≤ 1
  /-- What is consumed was not revoked and had not expired. -/
  live : ∀ before now sessionId, before ++ [.markConsumed now sessionId] <+: calls →
    ((OfferCall.markConsumed now sessionId).perform (run log before).db).1 = .ok ⟨⟩ →
    ∀ r ∈ (run log before).db.offers, r.sessionId = sessionId →
      r.revoked = false ∧ r.isExpired now = false

/-- **The lifecycle of offers.** A run that stores unused offers keeps the promise exactly when
every offer that it consumes was valid and without a private key. -/
theorem keepsPromise_iff {calls : List OfferCall} (hunused : ∀ c ∈ calls, c.Unused) :
    KeepsPromise log calls ↔
      ∀ before c, before ++ [c] <+: calls → c.Careful (run log before).db := by
  constructor
  · intro h before c hpre
    cases c with
    | markConsumed now sessionId =>
      rintro r hr rfl hfresh
      have hok := OfferCall.markConsumed_ok ((run_keyed before).getOffer hr) hfresh now
      obtain ⟨hrevoked, hexpired⟩ := h.live before now _ hpre (by rw [hok]) r hr rfl
      refine ⟨by simp [OfferRow.isValid, hfresh, hrevoked, hexpired], ?_⟩
      -- the row is consumed in the next state, with the key it had
      have herased := h.erased _ hpre
      rw [run_concat, step_ok hok] at herased
      have hmem := OfferCall.mem_update.mpr
        (.inl ⟨r, hr, rfl⟩ : _ ∨ _ ∈ (OfferCall.markConsumed now r.sessionId).added)
      have hnone := herased _ hmem
      rw [OfferCall.change, if_pos rfl] at hnone
      exact hnone (.inl rfl)
    | _ => trivial
  · intro hcareful
    refine ⟨fun before hpre ↦ ?_, fun before c _ r hr ↦ ?_, fun id ↦ (run_consumes id calls).1, ?_⟩
    · exact run_erased (fun c hc ↦ hunused c (hpre.subset hc))
        fun before' c hpre' ↦ hcareful before' c (hpre'.trans hpre)
    · rw [run_concat]
      exact flags_kept _ c hr
    · rintro before now sessionId hpre hok r hr rfl
      rcases (OfferCall.markConsumed now r.sessionId).perform_cases (run log before).db with
        ⟨-, q, hq, hid, hfresh⟩ | ⟨e, hc⟩
      · obtain rfl := run_keyed before q hq r hr hid
        have hvalid := (hcareful before _ hpre q hq rfl hfresh).1
        simpa [OfferRow.isValid, hfresh] using hvalid
      · rw [hc] at hok
        cases hok

/-! ## An offer that is consumed with its key -/

/-- An offer that was generated here, with its private key. -/
def ownOffer : OfferRow where
  sessionId := "s"
  epkHex := "04"
  curve := "brainpoolP256r1"
  longTermFingerprint := "f"
  signatureHex := "00"
  expiresAt := 100
  createdAt := 0
  consumed := false
  revoked := false
  importedAt := "1970-01-01T00:00:00+00:00"
  myPrivateKeyBytes := some (List.replicate 32 7)

/-- An offer of a peer is stored and consumed in time, one generated here is stored and revoked. -/
def peerConsumed : List OfferCall :=
  [.store { ownOffer with sessionId := "p", myPrivateKeyBytes := none }, .markConsumed 50 "p",
    .store ownOffer, .revoke "s"]

theorem keepsPromise_iff_peerConsumed : KeepsPromise [] peerConsumed ↔
    ∀ before c, before ++ [c] <+: peerConsumed → c.Careful (run [] before).db := by
  refine keepsPromise_iff fun c hc ↦ ?_
  simp only [peerConsumed, List.mem_cons, List.not_mem_nil, or_false] at hc
  rcases hc with rfl | rfl | rfl | rfl
  · exact ⟨rfl, rfl⟩
  · trivial
  · exact ⟨rfl, rfl⟩
  · trivial

/-- An offer that was generated here is stored and consumed in time. -/
def ownConsumed : List OfferCall := [.store ownOffer, .markConsumed 50 "s"]

/-- Both calls succeed, and the private key stays in the table. -/
theorem consumed_keeps_key : (∀ c ∈ ownConsumed, c.Unused) ∧
    (run [] ownConsumed).done = ownConsumed ∧ ¬ KeepsPromise [] ownConsumed := by
  refine ⟨fun c hc ↦ ?_, rfl, fun h ↦ ?_⟩
  · simp only [ownConsumed, List.mem_cons, List.not_mem_nil, or_false] at hc
    rcases hc with rfl | rfl
    · exact ⟨rfl, rfl⟩
    · trivial
  · have hmem : { ownOffer with consumed := true } ∈ (run [] ownConsumed).db.offers :=
      List.mem_singleton_self _
    exact absurd (h.erased _ (List.prefix_refl _) _ hmem (.inl rfl)) (by rintro ⟨⟩)

end OfferHistory

end Galdralag.Host
