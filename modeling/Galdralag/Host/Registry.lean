import Galdralag.Foundation.Fallible
import Galdralag.Host.Error
import Galdralag.Host.Text
import Mathlib.Data.List.DropRight
import Mathlib.Data.Nat.Notation

/-!
# The registries that a command asks

A command that uses the key registry asks one address or several. A flag of the command comes
before the environment, and the environment before the configuration; only the configuration can
name several nodes and let a command go from one to the next.

`Designates` says in the user's terms which addresses are meant, and `resolveRegistry_eq_ok` that
these are the endpoints, in their order and at most fourteen.
-/

set_option linter.all false

namespace Galdralag.Host

/-- The most nodes that a configuration may name. -/
def maxRegistryNodes : ℕ := 14

/-- One deployment of the registry. -/
structure RegistryNodeConfig where
  region : String
  nodeId : Option String
  url : String
  deriving DecidableEq, Repr

/-- The section of the configuration about the registry. -/
structure RegistryKeyserverConfig where
  url : String
  enabled : Bool := true
  failover : Bool := true
  timeoutSeconds : ℕ := 30
  nodes : List RegistryNodeConfig := []
  deriving DecidableEq, Repr

/-- An endpoint to try. -/
structure RegistryEndpoint where
  region : Option String
  url : String
  deriving DecidableEq, Repr

/-- What push and fetch go by. -/
structure RegistryResolution where
  endpoints : List RegistryEndpoint
  failover : Bool
  timeoutSeconds : ℕ
  deriving DecidableEq, Repr

/-- A text without the white space at its ends. -/
def trimmed (s : String) : String := String.ofList (trim s.toList)

/-- A text without the given character at its end. -/
def trimEndMatches (c : Char) (s : String) : String := String.ofList (s.toList.rdropWhile (· = c))

/-- A text with more than white space in it. -/
def Nonblank (s : String) : Prop := trim s.toList ≠ []

instance (s : String) : Decidable (Nonblank s) := inferInstanceAs (Decidable (_ ≠ _))

/-! ## Addresses -/

def trimmedRegistryBase (url : String) : Except GaldraError String := do
  let _ ← ensure (Nonblank url) (GaldraError.config "registry base URL must not be empty")
  pure (trimEndMatches '/' (trimmed url))

def ensureRegistryEnabled (cfg : RegistryKeyserverConfig) : Except GaldraError Unit :=
  ensure (cfg.enabled = true) (GaldraError.config
    "[keyserver] enabled = false — set enabled = true to use the registry")

def endpointFromNode (node : RegistryNodeConfig) : Except GaldraError RegistryEndpoint := do
  let _ ← ensure (Nonblank node.region)
    (GaldraError.config "each [[keyserver.nodes]] entry requires a non-empty region")
  let _ ← ensure (∀ id ∈ node.nodeId, Nonblank id)
    (GaldraError.config "keyserver node_id must be omitted or non-empty")
  let url ← trimmedRegistryBase node.url
  pure ⟨some (trimmed node.region), url⟩

def endpointsFromConfig (cfg : RegistryKeyserverConfig) :
    Except GaldraError (List RegistryEndpoint) := do
  let _ ← ensureRegistryEnabled cfg
  let out ← (if cfg.nodes = [] then (trimmedRegistryBase cfg.url).map fun url ↦ [⟨none, url⟩]
    else cfg.nodes.mapM endpointFromNode)
  let _ ← ensure (out ≠ []) (GaldraError.config "[keyserver] has no url or nodes configured")
  let _ ← ensure (out.length ≤ maxRegistryNodes)
    (GaldraError.config "[keyserver] supports at most 14 geographic nodes")
  pure out

/-! ## Resolution -/

def defaultTimeoutFromCfg (cfg : Option RegistryKeyserverConfig) : ℕ :=
  (cfg.map (·.timeoutSeconds)).getD 30

/-- The one address that a flag or the environment gives. -/
def singleUrl (cfg : Option RegistryKeyserverConfig) (u : String) :
    Except GaldraError RegistryResolution := do
  let url ← trimmedRegistryBase (trimmed u)
  pure ⟨[⟨none, url⟩], false, defaultTimeoutFromCfg cfg⟩

def resolveRegistry (flag : Option String) (cfg : Option RegistryKeyserverConfig)
    (envValue : Option String) : Except GaldraError RegistryResolution :=
  match flag.filter (Nonblank ·) with
  | some u => singleUrl cfg u
  | none =>
    match envValue.filter (Nonblank ·) with
    | some v => singleUrl cfg v
    | none =>
      match cfg with
      | none => .error (.config ("no registry URL configured — pass `--keyserver-url`, set " ++
          "environment variable GALDRA_KEYSERVER_URL, or add a [keyserver] section with url or " ++
          "[[keyserver.nodes]] to your config file"))
      | some cfg => do
        let endpoints ← endpointsFromConfig cfg
        pure ⟨endpoints, cfg.failover && decide (1 < endpoints.length), cfg.timeoutSeconds⟩

/-! ## Statuses of answers -/

def shouldFailoverAfterHttp (status : ℕ) (failoverEnabled : Bool) : Bool :=
  if !failoverEnabled then false else status ∈ [502, 503, 504, 429]

def isRegistryApplicationStatus (status : ℕ) : Bool := status ∈ [400, 401, 403, 404, 409, 422]

/-! ## What is designated -/

/-- The address that a given one stands for. -/
def registryBase (url : String) : String := trimEndMatches '/' (trimmed url)

/-- The addresses that a flag, the environment and a configuration designate, in the order in which
they are asked. -/
inductive Designates (flag : Option String) (cfg : Option RegistryKeyserverConfig)
    (envValue : Option String) : List String → Prop where
  | flag {u : String} (hflag : flag = some u) (hu : Nonblank u) : Designates flag cfg envValue [u]
  | env {v : String} (hflag : ∀ u ∈ flag, ¬Nonblank u) (henv : envValue = some v)
      (hv : Nonblank v) : Designates flag cfg envValue [v]
  | url {c : RegistryKeyserverConfig} (hflag : ∀ u ∈ flag, ¬Nonblank u)
      (henv : ∀ v ∈ envValue, ¬Nonblank v) (hcfg : cfg = some c) (henabled : c.enabled = true)
      (hnodes : c.nodes = []) : Designates flag cfg envValue [c.url]
  | nodes {c : RegistryKeyserverConfig} (hflag : ∀ u ∈ flag, ¬Nonblank u)
      (henv : ∀ v ∈ envValue, ¬Nonblank v) (hcfg : cfg = some c) (henabled : c.enabled = true)
      (hnodes : c.nodes ≠ []) : Designates flag cfg envValue (c.nodes.map (·.url))

/-- A command may go on to the next registry: neither the flag nor the environment names one, and the
configuration allows it. -/
def MayFailOver (flag : Option String) (cfg : Option RegistryKeyserverConfig)
    (envValue : Option String) : Prop :=
  (∀ u ∈ flag, ¬Nonblank u) ∧ (∀ v ∈ envValue, ¬Nonblank v) ∧ ∃ c ∈ cfg, c.failover = true

theorem filter_eq_some_iff {a : Option String} {u : String} :
    a.filter (Nonblank ·) = some u ↔ a = some u ∧ Nonblank u := by
  rw [Option.filter_eq_some_iff, decide_eq_true_eq]

theorem filter_eq_none_iff {a : Option String} :
    a.filter (Nonblank ·) = none ↔ ∀ u ∈ a, ¬Nonblank u := by
  rw [Option.filter_eq_none_iff]
  simp

theorem toList_trimmed (s : String) : (trimmed s).toList = trim s.toList := String.toList_ofList

theorem registryBase_trimmed (s : String) : registryBase (trimmed s) = registryBase s := by
  rw [registryBase, registryBase, trimmed, toList_trimmed, trim_trim]
  rfl

theorem trimmedRegistryBase_eq_ok {url base : String} :
    trimmedRegistryBase url = .ok base ↔ Nonblank url ∧ registryBase url = base := by
  rw [trimmedRegistryBase, ensure_bind_eq_ok]
  exact and_congr_right fun _ ↦ ⟨Except.ok.inj, congrArg _⟩

theorem singleUrl_eq_ok {cfg : Option RegistryKeyserverConfig} {u : String}
    {res : RegistryResolution} (h : singleUrl cfg u = .ok res) :
    res.endpoints = [⟨none, registryBase u⟩] ∧ res.failover = false := by
  obtain ⟨url, hurl, hres⟩ := except_bind_eq_ok.mp h
  obtain ⟨-, rfl⟩ := trimmedRegistryBase_eq_ok.mp hurl
  rw [registryBase_trimmed] at hres
  obtain rfl := Except.ok.inj hres
  exact ⟨rfl, rfl⟩

theorem endpointFromNode_eq_ok {node : RegistryNodeConfig} {ep : RegistryEndpoint}
    (h : endpointFromNode node = .ok ep) : ep.url = registryBase node.url := by
  rw [endpointFromNode, ensure_bind_eq_ok, ensure_bind_eq_ok, except_bind_eq_ok] at h
  obtain ⟨-, -, url, hurl, hep⟩ := h
  obtain ⟨-, rfl⟩ := trimmedRegistryBase_eq_ok.mp hurl
  rw [← Except.ok.inj hep]

theorem mapM_endpointFromNode_eq_ok {nodes : List RegistryNodeConfig}
    {eps : List RegistryEndpoint} (h : nodes.mapM endpointFromNode = .ok eps) :
    eps.map (·.url) = nodes.map fun node ↦ registryBase node.url := by
  induction nodes generalizing eps with
  | nil =>
    obtain rfl := Except.ok.inj h
    rfl
  | cons node nodes ih =>
    rw [List.mapM_cons] at h
    obtain ⟨ep, hep, h⟩ := except_bind_eq_ok.mp h
    obtain ⟨rest, hrest, h⟩ := except_bind_eq_ok.mp h
    obtain rfl := Except.ok.inj h
    rw [List.map_cons, List.map_cons, endpointFromNode_eq_ok hep, ih hrest]

/-- What a configuration gives: its nodes in their order, or the one address of old. -/
theorem endpointsFromConfig_eq_ok {cfg : RegistryKeyserverConfig} {eps : List RegistryEndpoint}
    (h : endpointsFromConfig cfg = .ok eps) :
    cfg.enabled = true ∧ eps ≠ [] ∧ eps.length ≤ maxRegistryNodes ∧
      eps.map (·.url) =
        if cfg.nodes = [] then [registryBase cfg.url]
        else cfg.nodes.map fun node ↦ registryBase node.url := by
  rw [endpointsFromConfig, ensureRegistryEnabled, ensure_bind_eq_ok, except_bind_eq_ok] at h
  obtain ⟨henabled, out, hout, h⟩ := h
  rw [ensure_bind_eq_ok, ensure_bind_eq_ok] at h
  obtain ⟨hne, hlen, h⟩ := h
  obtain rfl := Except.ok.inj h
  refine ⟨henabled, hne, hlen, ?_⟩
  by_cases hnodes : cfg.nodes = []
  · rw [if_pos hnodes] at hout ⊢
    rcases hurl : trimmedRegistryBase cfg.url with e | url
    · rw [hurl] at hout
      cases hout
    · rw [hurl] at hout
      obtain ⟨-, rfl⟩ := trimmedRegistryBase_eq_ok.mp hurl
      rw [← Except.ok.inj hout]
      rfl
  · rw [if_neg hnodes] at hout ⊢
    exact mapM_endpointFromNode_eq_ok hout

/-- **What is resolved.** The endpoints are the designated addresses in their order, there are at
most fourteen of them, and a command goes from one to the next where it may and there are several. -/
theorem resolveRegistry_eq_ok {flag envValue : Option String}
    {cfg : Option RegistryKeyserverConfig} {res : RegistryResolution}
    (h : resolveRegistry flag cfg envValue = .ok res) :
    (∃ urls, Designates flag cfg envValue urls ∧
      res.endpoints.map (·.url) = urls.map registryBase) ∧
      res.endpoints ≠ [] ∧ res.endpoints.length ≤ maxRegistryNodes ∧
      (res.failover = true ↔ MayFailOver flag cfg envValue ∧ 1 < res.endpoints.length) := by
  have single : ∀ u, Designates flag cfg envValue [u] → ¬MayFailOver flag cfg envValue →
      singleUrl cfg u = .ok res → (∃ urls, Designates flag cfg envValue urls ∧
        res.endpoints.map (·.url) = urls.map registryBase) ∧
        res.endpoints ≠ [] ∧ res.endpoints.length ≤ maxRegistryNodes ∧
        (res.failover = true ↔ MayFailOver flag cfg envValue ∧ 1 < res.endpoints.length) := by
    intro u hu hmay hres
    obtain ⟨heps, hfail⟩ := singleUrl_eq_ok hres
    rw [heps, hfail]
    refine ⟨⟨[u], hu, rfl⟩, List.cons_ne_nil _ _, Nat.le_add_left 1 13, ?_⟩
    exact iff_of_false Bool.false_ne_true fun h ↦ hmay h.1
  unfold resolveRegistry at h
  rcases hflag : flag.filter (Nonblank ·) with _ | u
  · rw [hflag] at h
    have hblank := filter_eq_none_iff.mp hflag
    rcases henv : envValue.filter (Nonblank ·) with _ | v
    · rw [henv] at h
      have hunset := filter_eq_none_iff.mp henv
      rcases cfg with _ | c
      · cases h
      · obtain ⟨eps, heps, h⟩ := except_bind_eq_ok.mp h
        obtain rfl := Except.ok.inj h
        obtain ⟨henabled, hne, hlen, hurls⟩ := endpointsFromConfig_eq_ok heps
        refine ⟨?_, hne, hlen, ?_⟩
        · by_cases hnodes : c.nodes = []
          · rw [if_pos hnodes] at hurls
            exact ⟨[c.url], .url hblank hunset rfl henabled hnodes, hurls⟩
          · rw [if_neg hnodes] at hurls
            refine ⟨_, .nodes hblank hunset rfl henabled hnodes, ?_⟩
            rw [hurls, List.map_map]
            rfl
        · rw [Bool.and_eq_true, decide_eq_true_eq, MayFailOver]
          refine and_congr_left fun _ ↦ ⟨fun hfail ↦ ⟨hblank, hunset, c, rfl, hfail⟩, ?_⟩
          rintro ⟨-, -, c', hc, hfail⟩
          rwa [Option.mem_some_iff.mp hc]
    · rw [henv] at h
      obtain ⟨rfl, hv⟩ := filter_eq_some_iff.mp henv
      exact single v (.env hblank rfl hv) (fun hmay ↦ hmay.2.1 v rfl hv) h
  · rw [hflag] at h
    obtain ⟨rfl, hu⟩ := filter_eq_some_iff.mp hflag
    exact single u (.flag rfl hu) (fun hmay ↦ hmay.1 u rfl hu) h

end Galdralag.Host
