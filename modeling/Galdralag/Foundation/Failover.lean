import Mathlib.Data.List.Forall2
import Mathlib.Data.List.Basic

/-!
# Asking one endpoint after the other

A client that knows several endpoints asks them in the order of its list. An answer either ends the
search, or the client remembers something of it and asks the next endpoint. `Failover` is such a
client, and `Failover.run` its search in a network that may answer by everything that was exchanged
before. Endpoints and requests, answers and results are arbitrary.

A search is a chain of endpoints that pass it on, `PassedOn`, with one of three ends behind it,
`Stops`: no endpoint is left, the next one cannot be asked, or its answer ends the search.
`Failover.run_iff` says that these are the searches, and what is known of the exchanges follows by
induction on the chain (`PassedOn.exchanges`).
-/

set_option linter.all false

namespace Galdralag

/-- What an answer means: the search ends with a result, or goes on with what is remembered. -/
inductive Verdict (σ α : Type) where
  | ends (a : α)
  | passOn (s : σ)

/-- A client of endpoints `ε`, with requests `ρ`, answers `π`, a memory `σ` and results `α`. -/
structure Failover (ε ρ π σ α : Type) where
  /-- What an endpoint is asked, or the result when it cannot be asked. -/
  request : ε → Except α ρ
  /-- What an answer means, where the flag says that another endpoint follows. -/
  judge : ε → Bool → π → Verdict σ α
  /-- The result when no endpoint is left. -/
  exhausted : σ → α

namespace Failover

variable {ε ρ π σ α : Type}

/-- The search through a list of endpoints, after the exchanges in `log`. -/
def run (c : Failover ε ρ π σ α) (net : List (ρ × π) → ρ → π) :
    List ε → List (ρ × π) → σ → List (ρ × π) × α
  | [], log, s => (log, c.exhausted s)
  | ep :: rest, log, _ =>
    match c.request ep with
    | .error a => (log, a)
    | .ok r =>
      match c.judge ep (!rest.isEmpty) (net log r) with
      | .ends a => (log ++ [(r, net log r)], a)
      | .passOn s => c.run net rest (log ++ [(r, net log r)]) s

variable {c : Failover ε ρ π σ α} {net : List (ρ × π) → ρ → π}

/-- Endpoints that are asked one after the other and all pass the search on. -/
inductive PassedOn (c : Failover ε ρ π σ α) (net : List (ρ × π) → ρ → π) :
    List ε → List (ρ × π) → σ → List ε → List (ρ × π) → σ → Prop where
  | refl (es : List ε) (log : List (ρ × π)) (s : σ) : PassedOn c net es log s es log s
  | ask {ep : ε} {es es' : List ε} {log log' : List (ρ × π)} {s s' s'' : σ} {r : ρ}
      (hreq : c.request ep = .ok r) (hjudge : c.judge ep (!es.isEmpty) (net log r) = .passOn s')
      (h : PassedOn c net es (log ++ [(r, net log r)]) s' es' log' s'') :
      PassedOn c net (ep :: es) log s es' log' s''

/-- How a search ends where it is. -/
inductive Stops (c : Failover ε ρ π σ α) (net : List (ρ × π) → ρ → π) :
    List ε → List (ρ × π) → σ → List (ρ × π) → α → Prop where
  | exhausted (log : List (ρ × π)) (s : σ) : Stops c net [] log s log (c.exhausted s)
  | unasked {ep : ε} {a : α} (es : List ε) (log : List (ρ × π)) (s : σ)
      (hreq : c.request ep = .error a) : Stops c net (ep :: es) log s log a
  | ended {ep : ε} {es : List ε} {log : List (ρ × π)} {r : ρ} {a : α} (s : σ)
      (hreq : c.request ep = .ok r) (hjudge : c.judge ep (!es.isEmpty) (net log r) = .ends a) :
      Stops c net (ep :: es) log s (log ++ [(r, net log r)]) a

theorem Stops.run_eq {es : List ε} {log log' : List (ρ × π)} {s : σ} {a : α}
    (h : Stops c net es log s log' a) : c.run net es log s = (log', a) := by
  cases h with
  | exhausted => rfl
  | unasked es log s hreq => rw [run, hreq]
  | ended s hreq hjudge =>
    rw [run, hreq]
    dsimp only
    rw [hjudge]

/-- Passing on does not change what the search comes to. -/
theorem PassedOn.run_eq {es es' : List ε} {log log' : List (ρ × π)} {s s' : σ}
    (h : PassedOn c net es log s es' log' s') : c.run net es log s = c.run net es' log' s' := by
  induction h with
  | refl => rfl
  | ask hreq hjudge _ ih =>
    rw [run, hreq]
    dsimp only
    rw [hjudge]
    exact ih

/-- **The course of a search.** Some endpoints pass it on, and then it stops. -/
theorem run_iff {es : List ε} {log log' : List (ρ × π)} {s : σ} {a : α} :
    c.run net es log s = (log', a) ↔
      ∃ es' l s', PassedOn c net es log s es' l s' ∧ Stops c net es' l s' log' a := by
  constructor
  · intro h
    induction es generalizing log s with
    | nil =>
      rw [run, Prod.mk.injEq] at h
      obtain ⟨rfl, rfl⟩ := h
      exact ⟨[], log, s, .refl [] log s, .exhausted log s⟩
    | cons ep es ih =>
      rw [run] at h
      rcases hreq : c.request ep with a' | r
      · rw [hreq] at h
        obtain ⟨rfl, rfl⟩ := Prod.mk.inj h
        exact ⟨ep :: es, log, s, .refl _ log s, .unasked es log s hreq⟩
      · rw [hreq] at h
        dsimp only at h
        rcases hjudge : c.judge ep (!es.isEmpty) (net log r) with a' | s'
        · rw [hjudge] at h
          obtain ⟨rfl, rfl⟩ := Prod.mk.inj h
          exact ⟨ep :: es, log, s, .refl _ log s, .ended s hreq hjudge⟩
        · rw [hjudge] at h
          obtain ⟨es', l, s'', hpass, hstop⟩ := ih h
          exact ⟨es', l, s'', .ask hreq hjudge hpass, hstop⟩
  · rintro ⟨es', l, s', hpass, hstop⟩
    rw [hpass.run_eq, hstop.run_eq]

/-- What passed on is a front part of the endpoints. Every exchange with it asked what the client
asks that endpoint, and got an answer that the client passes on. -/
theorem PassedOn.exchanges {es es' : List ε} {log log' : List (ρ × π)} {s s' : σ}
    (h : PassedOn c net es log s es' log' s') :
    ∃ tried new, es = tried ++ es' ∧ log' = log ++ new ∧
      List.Forall₂ (fun ep x ↦ c.request ep = .ok x.1) tried new ∧
      ∀ x ∈ new, ∃ ep more s, c.judge ep more x.2 = .passOn s := by
  induction h with
  | refl es log s => exact ⟨[], [], rfl, (List.append_nil log).symm, .nil, List.forall_mem_nil _⟩
  | @ask ep es es' log log' s s' s'' r hreq hjudge _ ih =>
    obtain ⟨tried, new, rfl, rfl, hnew, hpass⟩ := ih
    refine ⟨ep :: tried, (r, net log r) :: new, rfl, ?_, .cons hreq hnew, ?_⟩
    · rw [List.append_assoc, List.singleton_append]
    · exact List.forall_mem_cons.mpr ⟨⟨ep, _, s', hjudge⟩, hpass⟩

/-- A client that passes nothing on from its last endpoint asks the last one and stops there: its
list is never exhausted. -/
theorem PassedOn.ne_nil (hlast : ∀ ep p s, c.judge ep false p ≠ .passOn s) {es es' : List ε}
    {log log' : List (ρ × π)} {s s' : σ} (h : PassedOn c net es log s es' log' s')
    (hes : es ≠ []) : es' ≠ [] := by
  induction h with
  | refl => exact hes
  | @ask ep es es' log log' s s' s'' r hreq hjudge _ ih =>
    refine ih ?_
    rintro rfl
    exact hlast _ _ _ hjudge

end Failover

end Galdralag
