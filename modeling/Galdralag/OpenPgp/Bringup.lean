import Galdralag.OpenPgp.CardService
import Galdralag.OpenPgp.VaultBackend

/-!
# Bring-up without a vault

On one of the boards the card service answers the host before the vault is open. Until then a stub
takes the place of the vault backend: it knows the application identifier and the defaults of two
data objects, and refuses everything else. Once the vault is open, the service goes over to a new
dispatcher over it and does not come back.

Whatever the host sends, the stub is left as it was, no verification flag is set and no guarded call
is even made. So the service over the vault inherits nothing, and what holds of it holds of the
whole life of the service.
-/

set_option linter.all false

namespace Galdralag.OpenPgp

/-! ## The stub -/

/-- The bring-up backend: the identifier, and the defaults of two data objects. -/
structure DabaoBringupBackend where
  aid : Block 16
  pwStatus : Block 7
  sigCounter : Block 3

/-- A new stub, with the PW status bytes of a card that has not been changed. -/
def DabaoBringupBackend.new (aid : Block 16) : DabaoBringupBackend :=
  ⟨aid, .ofBytes 7 defaultPwStatusBytes, .ofBytes 3 [0, 0, 0]⟩

/-- What every call of the stub fails with: PIN checks are unavailable, the rest is unsupported. -/
def stubError : BackendCall → OpenPgpBackendError
  | .verifyPw1Sign _ => .status .conditionsNotSatisfied
  | .verifyPw1Other _ => .status .conditionsNotSatisfied
  | .verifyPw3 _ => .status .conditionsNotSatisfied
  | _ => .hal .unsupported

/-- The stub as a backend. -/
def dabaoBringupBackend : OpenPgpBackend DabaoBringupBackend where
  isTerminationState _ := false
  aidBytes b := b.aid.toBytes
  pwStatusBytes b := b.pwStatus
  getDo b tag := .ok <| .truncated <|
    if tag = 0xC4 then b.pwStatus.toBytes
    else if tag = 0x93 then b.sigCounter.toBytes
    else if tag = 0x4F then b.aid.toBytes
    else []
  algorithmAttributes _ slot :=
    match slot with
    | .dec => .ecdh (.truncated brainpoolP256r1Oid)
    | _ => .ecdsa (.truncated brainpoolP256r1Oid)
  logEvent _ := id
  onLockDisconnect := id
  perform c := .fail (stubError c)

/-- The backend is left alone, and where all calls had failed they still have. -/
def Refusing (s t : Session DabaoBringupBackend) : Prop :=
  t.backend = s.backend ∧ ((∀ c ok, .call c ok ∈ s.events → ok = false) →
    ∀ c ok, .call c ok ∈ t.events → ok = false)

theorem Refusing.refl (s : Session DabaoBringupBackend) : Refusing s s := ⟨rfl, id⟩

theorem Refusing.trans {s t u : Session DabaoBringupBackend} (h : Refusing s t)
    (h' : Refusing t u) : Refusing s u := ⟨h'.1.trans h.1, h'.2 ∘ h.2⟩

/-- One more event in the record, not of a successful call. -/
theorem refusing_of_concat {s t : Session DabaoBringupBackend} {e : SessionEvent}
    (hbackend : t.backend = s.backend) (hevents : t.events = s.events ++ [e])
    (he : ∀ c ok, e = .call c ok → ok = false) : Refusing s t := by
  refine ⟨hbackend, fun h c ok hmem ↦ ?_⟩
  rw [hevents] at hmem
  rcases List.mem_append.mp hmem with hmem | hmem
  · exact h c ok hmem
  · exact he c ok (List.mem_singleton.mp hmem).symm

/-- **Step.** Commands leave the stub alone and have nothing succeed. -/
theorem stepwise_refusing : Stepwise dabaoBringupBackend Refusing where
  refl := .refl
  trans := .trans
  card s st := ⟨rfl, id⟩
  log s code := ⟨rfl, id⟩
  kept s data := refusing_of_concat rfl rfl nofun
  fetched s chunk := refusing_of_concat rfl rfl nofun
  call c s := by
    refine refusing_of_concat (e := .call c false) rfl rfl fun c' ok h ↦ ?_
    cases h
    rfl

theorem refusing_reset (s : Session DabaoBringupBackend) : Refusing s s.reset :=
  refusing_of_concat rfl rfl nofun

theorem refusing_turn (sv : CardService DabaoBringupBackend) (t : ServiceTurn) :
    Refusing sv.dispatcher (sv.turn dabaoBringupBackend t).dispatcher :=
  have husb : ∀ s, Refusing s (onUsbReset dabaoBringupBackend s) := refusing_reset
  have hmoves := CardService.turn_moves .trans .refl refusing_reset husb
    (fun _ s ↦ stepwise_refusing.handle s) sv t
  hmoves.1.trans hmoves.2

/-- Where no call has succeeded, a sound session has no flag set and made no guarded call. -/
theorem idle_of_refused {β : Type} {s : Session β} (hs : s.Sound)
    (hfailed : ∀ c ok, .call c ok ∈ s.events → ok = false) :
    (∀ pw, s.card.verified pw = false) ∧
      ∀ c ok, .call c ok ∈ s.events → ok = false ∧ c.guard = none := by
  have hnone : ∀ pw pre, pre ⊆ s.events → ¬ Authorised pw pre := by
    rintro pw pre hsub ⟨l, e, l', rfl, hset, -⟩
    have hmem : e ∈ s.events := hsub (List.mem_append_right l List.mem_cons_self)
    cases e with
    | call c ok =>
      obtain rfl := hfailed c ok hmem
      cases c <;> exact hset
    | reset => exact hset
    | kept data => exact hset
    | fetched chunk => exact hset
  constructor
  · intro pw
    by_contra hpw
    exact hnone pw _ (List.Subset.refl _) (hs.flags pw (Bool.not_eq_false _ ▸ hpw))
  · intro c ok hmem
    refine ⟨hfailed c ok hmem, Option.eq_none_iff_forall_ne_some.mpr fun pw hpw ↦ ?_⟩
    obtain ⟨pre, post, heq⟩ := List.append_of_mem hmem
    refine hnone pw pre ?_ (hs.calls pre _ post heq pw hpw)
    rw [heq]
    exact List.subset_append_left pre _

/-! ## The life of the service -/

section Life

variable {β : Type}

/-- The service of the board: over the stub, or over the vault. -/
inductive DabaoService (β : Type) where
  | bringup (sv : CardService DabaoBringupBackend)
  | serving (sv : CardService β)

/-- What happens to it: a turn of the loop, or the vault has been opened. -/
inductive DabaoEvent (β : Type) where
  | turn (t : ServiceTurn)
  | vaultReady (b : β) (link : Option ℕ)

/-- One step. Over the vault the loop does not end. -/
def DabaoService.step (bk : OpenPgpBackend β) : DabaoService β → DabaoEvent β → DabaoService β
  | .bringup sv, .turn t => .bringup (sv.turn dabaoBringupBackend t)
  | .bringup _, .vaultReady b link => .serving (.start b link)
  | .serving sv, .turn t => .serving (sv.turn bk t)
  | .serving sv, .vaultReady _ _ => .serving sv

/-- A whole run. -/
def DabaoService.run (bk : OpenPgpBackend β) (d : DabaoService β) (es : List (DabaoEvent β)) :
    DabaoService β :=
  es.foldl (DabaoService.step bk) d

/-- What holds of the service throughout. -/
def DabaoService.Safe (aid : Block 16) : DabaoService β → Prop
  | .bringup sv => sv.dispatcher.Sound ∧ sv.dispatcher.backend = .new aid ∧
      ∀ c ok, .call c ok ∈ sv.dispatcher.events → ok = false
  | .serving sv => sv.dispatcher.Sound

theorem DabaoService.Safe.step {bk : OpenPgpBackend β} {aid : Block 16} {d : DabaoService β}
    (h : d.Safe aid) (e : DabaoEvent β) : (d.step bk e).Safe aid := by
  cases d with
  | bringup sv =>
    obtain ⟨hsound, hbackend, hfailed⟩ := h
    cases e with
    | turn t =>
      have hturn := refusing_turn sv t
      exact ⟨CardService.sound_serveLoop hsound [t], hturn.1.trans hbackend, hturn.2 hfailed⟩
    | vaultReady b link => exact sound_new b
  | serving sv =>
    cases e with
    | turn t => exact CardService.sound_serveLoop h [t]
    | vaultReady b link => exact h

/-- **Nothing is inherited from bring-up.** In every run of the board's service, over any vault
backend and whenever the vault opens: before that, the stub is as it was, no password is verified,
every call has failed and none of them is guarded; after that, each guarded call comes after a
verification made by the vault, and what GET RESPONSE sends was kept over the vault. -/
theorem bringup_inherits_nothing (bk : OpenPgpBackend β) (aid : Block 16) (link : Option ℕ)
    (es : List (DabaoEvent β)) :
    match (DabaoService.bringup (.start (.new aid) link)).run bk es with
    | .bringup sv => sv.dispatcher.backend = .new aid ∧
        (∀ pw, sv.dispatcher.card.verified pw = false) ∧
        ∀ c ok, .call c ok ∈ sv.dispatcher.events → ok = false ∧ c.guard = none
    | .serving sv => Guarded SessionEvent.Justified sv.dispatcher.events ∧
        Guarded SessionEvent.Served sv.dispatcher.events := by
  have hsafe : ((DabaoService.bringup (.start (.new aid) link)).run bk es).Safe aid := by
    induction es using List.reverseRecOn with
    | nil => exact ⟨sound_new _, rfl, nofun⟩
    | append_singleton es e ih =>
      rw [DabaoService.run, List.foldl_concat]
      exact ih.step e
  revert hsafe
  cases (DabaoService.bringup (.start (.new aid) link)).run bk es with
  | bringup sv =>
    rintro ⟨hsound, hbackend, hfailed⟩
    exact ⟨hbackend, idle_of_refused hsound hfailed⟩
  | serving sv => exact fun hsound ↦ ⟨hsound.calls, hsound.serving.sent⟩

end Life

end Galdralag.OpenPgp
