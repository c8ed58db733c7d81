import Galdralag.Host.RegistryClient

/-!
# Which registries are asked, and which one decides

`runPush` and `runFetch` ask the designated registries in their order. `SentTo` says what goes over
the network: every registry before the last one that is asked could not be reached or could not
serve, and the search is not given up while a registry is left that might. The registry that is
asked last decides what the command comes to.
-/

set_option linter.all false

namespace Galdralag.Host

/-- A reply for which another registry may make up. -/
def RegistryReply.Retryable : RegistryReply → Prop
  | .unreachable => True
  | .answered status body => status ∈ [429, 502, 503, 504] ∧ body.isSome

/-- A request went to the address that `address` gives for a base, with the given body. -/
def AskedAt (address : String → Except GaldraError String) (body : Option String) (base : String)
    (x : RegistryRequest × RegistryReply) : Prop :=
  address base = .ok x.1.url ∧ x.1.body = body

/-- What was exchanged when the registries in `tried` were asked and those in `rest` were
not. -/
structure SentTo (failover : Prop) (address : String → Except GaldraError String)
    (body : Option String) (tried rest : List String) (log : RegistryLog) : Prop where
  /-- Each registry is asked once, in its turn. -/
  asked : List.Forall₂ (fun u ↦ AskedAt address body (registryBase u)) tried log
  /-- Another one is asked only where that is allowed and the one before could not serve. -/
  passed : ∀ x ∈ log.dropLast, failover ∧ x.2.Retryable
  /-- The search is given up only when no registry is left or the next one has no address. -/
  settled : ∀ x ∈ log.getLast?, failover → x.2.Retryable →
    rest = [] ∨ ∃ u ∈ rest.head?, ∃ e, address (registryBase u) = .error e

/-- A client that goes on exactly when it may, another endpoint is left and the reply is
retryable. -/
structure GoesOn {α : Type} (failover : Bool) (address : String → Except GaldraError String)
    (body : Option String)
    (c : Failover RegistryEndpoint RegistryRequest RegistryReply String (Except GaldraError α)) :
    Prop where
  request_ok : ∀ ep r, c.request ep = .ok r ↔ address ep.url = .ok r.url ∧ r.body = body
  request_error : ∀ ep a, c.request ep = .error a → ∃ e, a = .error e ∧ address ep.url = .error e
  passOn_iff : ∀ ep more p, (∃ s, c.judge ep more p = .passOn s) ↔
    failover = true ∧ more = true ∧ p.Retryable

namespace GoesOn

variable {α : Type} {failover : Bool} {address : String → Except GaldraError String}
  {body : Option String}
  {c : Failover RegistryEndpoint RegistryRequest RegistryReply String (Except GaldraError α)}
  {net : RegistryNet}

/-- Endpoints of the designated addresses are asked at those addresses. -/
theorem asked (hc : GoesOn failover address body c) {eps : List RegistryEndpoint}
    {urls : List String} {log : RegistryLog} (hurls : eps.map (·.url) = urls.map registryBase)
    (h : List.Forall₂ (fun ep x ↦ c.request ep = .ok x.1) eps log) :
    List.Forall₂ (fun u ↦ AskedAt address body (registryBase u)) urls log := by
  have hurl : List.Forall₂ (fun ep ↦ AskedAt address body ep.url) eps log :=
    h.imp fun ep x hx ↦ (hc.request_ok ep x.1).mp hx
  refine (List.forall₂_map_left_iff (R := AskedAt address body)).mp ?_
  rw [← hurls]
  exact List.forall₂_map_left_iff.mpr hurl

/-- **The course of a search.** What is sent, and the two ways in which the search comes to its
result: the next registry has no address, or the last reply is final. -/
theorem sentTo (hc : GoesOn failover address body c) {eps : List RegistryEndpoint}
    {urls : List String} {log : RegistryLog} {s : String} {a : Except GaldraError α} {may : Prop}
    (hmay : failover = true ↔ may ∧ 1 < eps.length) (hne : eps ≠ [])
    (hurls : eps.map (·.url) = urls.map registryBase) (hrun : c.run net eps [] s = (log, a)) :
    (∃ tried rest, urls = tried ++ rest ∧ SentTo may address body tried rest log) ∧
      (((∃ e, a = .error e) ∧ ∀ x ∈ log, x.2.Retryable) ∨
        ∃ front x, log = front ++ [x] ∧ (∀ y ∈ front, y.2.Retryable) ∧
          ∃ ep more, c.judge ep more x.2 = .ends a) := by
  obtain ⟨es', l, s', hpass, hstop⟩ := Failover.run_iff.mp hrun
  have hleft : es' ≠ [] := by
    refine hpass.ne_nil (fun ep p s hp ↦ ?_) hne
    exact Bool.false_ne_true ((hc.passOn_iff ep false p).mp ⟨s, hp⟩).2.1
  obtain ⟨triedEps, new, rfl, hl, hasked, hnew⟩ := hpass.exchanges
  obtain rfl : l = new := hl
  have hfront : ∀ x ∈ l, may ∧ x.2.Retryable := by
    intro x hx
    obtain ⟨ep, more, s, hp⟩ := hnew x hx
    obtain ⟨hfail, -, hretry⟩ := (hc.passOn_iff ep more x.2).mp ⟨s, hp⟩
    exact ⟨(hmay.mp hfail).1, hretry⟩
  rw [List.map_append] at hurls
  obtain ⟨tried, rest, rfl, htried, hrest⟩ := List.map_eq_append_iff.mp hurls.symm
  cases hstop with
  | exhausted => exact absurd rfl hleft
  | @unasked ep a es _ _ hreq =>
    obtain ⟨e, rfl, he⟩ := hc.request_error ep a hreq
    obtain ⟨u, rest, rfl, hu, -⟩ := List.map_eq_cons_iff.mp hrest
    refine ⟨⟨tried, u :: rest, rfl, hc.asked htried.symm hasked, ?_, ?_⟩, .inl ⟨⟨e, rfl⟩, ?_⟩⟩
    · exact fun x hx ↦ hfront x (List.dropLast_subset _ hx)
    · exact fun x hx hm hr ↦ .inr ⟨u, rfl, e, hu ▸ he⟩
    · exact fun x hx ↦ (hfront x hx).2
  | @ended ep es _ r _ _ hreq hjudge =>
    obtain ⟨u, rest, rfl, hu, hrest⟩ := List.map_eq_cons_iff.mp hrest
    refine ⟨⟨tried ++ [u], rest, by rw [List.append_assoc, List.singleton_append], ?_, ?_, ?_⟩,
      .inr ⟨l, _, rfl, fun y hy ↦ (hfront y hy).2, ep, _, hjudge⟩⟩
    · refine hc.asked ?_ (List.rel_append hasked (.cons hreq .nil))
      rw [List.map_append, List.map_append, htried, List.map_singleton, List.map_singleton, hu]
    · rw [List.dropLast_concat]
      exact hfront
    · rw [List.getLast?_concat]
      rintro x hx hm hr
      obtain rfl := Option.mem_some_iff.mp hx
      -- a reply that is retryable is final only where no other endpoint follows
      by_contra hmore
      push Not at hmore
      have hes : es ≠ [] := by
        rintro rfl
        exact hmore.1 (List.map_eq_nil_iff.mp hrest)
      have htwo : 1 < (triedEps ++ ep :: es).length := by
        have hpos := List.length_pos_iff.mpr hes
        rw [List.length_append, List.length_cons]
        omega
      obtain ⟨s'', hs⟩ := (hc.passOn_iff ep (!es.isEmpty) _).mpr
        ⟨hmay.mpr ⟨hm, htwo⟩, by simpa using hes, hr⟩
      rw [hs] at hjudge
      cases hjudge

/-- Where the replies that end a search well are known, a search comes to their results. -/
theorem result_iff (hc : GoesOn failover address body c) {good : RegistryReply → α → Prop}
    (hgood : ∀ ep more p b, c.judge ep more p = .ends (.ok b) ↔ good p b)
    (hretry : ∀ p b, p.Retryable → ¬good p b) {eps : List RegistryEndpoint} {urls : List String}
    {log : RegistryLog} {s : String} {a : Except GaldraError α} {may : Prop}
    (hmay : failover = true ↔ may ∧ 1 < eps.length) (hne : eps ≠ [])
    (hurls : eps.map (·.url) = urls.map registryBase) (hrun : c.run net eps [] s = (log, a))
    (b : α) : a = .ok b ↔
      ∃ front x, log = front ++ [x] ∧ (∀ y ∈ front, y.2.Retryable) ∧ good x.2 b := by
  have hout := (hc.sentTo hmay hne hurls hrun).2
  constructor
  · rintro rfl
    rcases hout with ⟨⟨e, ⟨⟩⟩, -⟩ | ⟨front, x, hlog, hfront, ep, more, hend⟩
    exact ⟨front, x, hlog, hfront, (hgood ep more x.2 b).mp hend⟩
  · rintro ⟨front, x, rfl, hfront, hx⟩
    rcases hout with ⟨-, hall⟩ | ⟨front', x', hlog, -, ep, more, hend⟩
    · exact absurd hx (hretry x.2 b (hall x List.mem_concat_self))
    · obtain rfl := List.singleton_inj.mp (List.append_inj' hlog rfl).2
      exact Verdict.ends.inj (hend.symm.trans ((hgood ep more x.2 b).mpr hx))

end GoesOn

theorem requestAt_eq_ok {α : Type} {address : String → Except GaldraError String}
    {body : Option String} {ep : RegistryEndpoint} {r : RegistryRequest} :
    requestAt (α := α) address body ep = .ok r ↔ address ep.url = .ok r.url ∧ r.body = body := by
  rw [requestAt]
  rcases address ep.url with e | url
  · exact iff_of_false (by rintro ⟨⟩) (by rintro ⟨⟨⟩, -⟩)
  · constructor
    · intro h
      rw [← Except.ok.inj h]
      exact ⟨rfl, rfl⟩
    · rintro ⟨hurl, rfl⟩
      rw [Except.ok.inj hurl]

theorem requestAt_eq_error {α : Type} {address : String → Except GaldraError String}
    {body : Option String} {ep : RegistryEndpoint} {a : Except GaldraError α}
    (h : requestAt address body ep = .error a) :
    ∃ e, a = .error e ∧ address ep.url = .error e := by
  rw [requestAt] at h
  rcases hurl : address ep.url with e | url
  · rw [hurl] at h
    exact ⟨e, (Except.error.inj h).symm, rfl⟩
  · rw [hurl] at h
    cases h

theorem retryable_status {status : ℕ} (h : shouldFailoverAfterHttp status true = true) :
    isSuccess status = false ∧ status ≠ 404 ∧ status ≠ 422 ∧
      isRegistryApplicationStatus status = false := by
  rw [shouldFailoverAfterHttp, Bool.not_true, if_neg Bool.false_ne_true, decide_eq_true_eq] at h
  simp only [List.mem_cons, List.not_mem_nil, or_false] at h
  rcases h with rfl | rfl | rfl | rfl <;> decide

/-- What another registry may make up for, in the terms of the code. -/
theorem retryable_answered {status : ℕ} {body : String} :
    (RegistryReply.answered status (some body)).Retryable ↔
      shouldFailoverAfterHttp status true = true := by
  rw [shouldFailoverAfterHttp, Bool.not_true, if_neg Bool.false_ne_true, decide_eq_true_eq]
  simp only [RegistryReply.Retryable, Option.isSome_some, and_true, List.mem_cons,
    List.not_mem_nil, or_false]
  omega

theorem not_retryable_unread {status : ℕ} :
    ¬(RegistryReply.answered status none).Retryable :=
  fun h ↦ Bool.false_ne_true h.2

/-! ## Uploads -/

/-- The line that an upload prints when a registry replies so. -/
def RegistryReply.Prints (env : PushEnv) (reply : RegistryReply) (line : String) : Prop :=
  ∃ status body pr, reply = .answered status (some body) ∧ isSuccess status = true ∧
    env.fromStr body = some pr ∧ pr.result = .ok line

theorem pushJudge_passOn_iff {env : PushEnv} {failover : Bool} {ep : RegistryEndpoint} {more : Bool}
    {p : RegistryReply} : (∃ s, pushJudge env failover ep more p = .passOn s) ↔
      failover = true ∧ more = true ∧ p.Retryable := by
  rcases p with _ | ⟨status, _ | body⟩
  · rw [pushJudge]
    by_cases hmore : (failover && more) = true
    · rw [if_pos hmore]
      rw [Bool.and_eq_true] at hmore
      exact iff_of_true ⟨_, rfl⟩ ⟨hmore.1, hmore.2, trivial⟩
    · rw [if_neg hmore]
      rw [Bool.and_eq_true] at hmore
      exact iff_of_false (by rintro ⟨_, ⟨⟩⟩) fun h ↦ hmore ⟨h.1, h.2.1⟩
  · exact iff_of_false (by rintro ⟨_, ⟨⟩⟩) fun h ↦ not_retryable_unread h.2.2
  · rw [retryable_answered]
    constructor
    · rintro ⟨s, h⟩
      rw [pushJudge] at h
      split_ifs at h with hsucc h422 happ hnext
      · rcases hpr : env.fromStr body with _ | pr <;> rw [hpr] at h <;> cases h
      · rw [Bool.and_eq_true, Bool.and_eq_true] at hnext
        exact ⟨hnext.1.1, hnext.2, hnext.1.2⟩
    · rintro ⟨rfl, rfl, hretry⟩
      obtain ⟨hsucc, -, h422, happ⟩ := retryable_status hretry
      rw [pushJudge, if_neg (by rw [hsucc]; exact Bool.false_ne_true), if_neg h422,
        if_neg (by rw [happ]; exact Bool.false_ne_true), hretry]
      exact ⟨_, rfl⟩

theorem pushJudge_ends_iff {env : PushEnv} {failover : Bool} {ep : RegistryEndpoint} {more : Bool}
    {p : RegistryReply} {line : String} :
    pushJudge env failover ep more p = .ends (.ok line) ↔ p.Prints env line := by
  constructor
  · intro h
    rcases p with _ | ⟨status, _ | body⟩
    · rw [pushJudge] at h
      split_ifs at h <;> cases h
    · cases h
    · rw [pushJudge] at h
      split_ifs at h with hsucc h422 happ hnext
      · rcases hpr : env.fromStr body with _ | pr
        · rw [hpr] at h
          cases h
        · rw [hpr] at h
          exact ⟨status, body, pr, rfl, hsucc, hpr, Verdict.ends.inj h⟩
      all_goals cases h
  · rintro ⟨status, body, pr, rfl, hsucc, hpr, hline⟩
    rw [pushJudge, if_pos hsucc, hpr]
    exact congrArg _ hline

/-- A retryable reply prints nothing. -/
theorem RegistryReply.Retryable.not_prints {env : PushEnv} {p : RegistryReply} {line : String}
    (h : p.Retryable) : ¬p.Prints env line := by
  -- Nothing is printed for a status that asks for another registry.
  rintro ⟨status, body, pr, rfl, hsucc, -, -⟩
  rw [(retryable_status (retryable_answered.mp h)).1] at hsucc
  exact Bool.false_ne_true hsucc

theorem pushLoop_goesOn (env : PushEnv) (failover : Bool) (json : String) :
    GoesOn failover pushUrl (some json) (pushLoop env failover json) where
  request_ok _ _ := requestAt_eq_ok
  request_error _ _ := requestAt_eq_error
  passOn_iff _ _ _ := pushJudge_passOn_iff

/-- An upload is under an address that the certificate has. -/
theorem resolveEmailForPush_mem {cert : Cert} {flag : Option String} {email : String}
    (h : resolveEmailForPush cert flag = .ok email) :
    ∃ e ∈ certEmailsSorted cert, eqIgnoreAsciiCase e.toList email.toList := by
  unfold resolveEmailForPush at h
  rcases hemails : certEmailsSorted cert with _ | ⟨only, _ | ⟨second, others⟩⟩
  · rw [hemails] at h
    cases h
  · rw [hemails] at h
    have honly : email = only := by
      rcases flag with _ | given
      · exact (Except.ok.inj h).symm
      · dsimp only at h
        split_ifs at h
        · exact (Except.ok.inj h).symm
        · exact (Except.ok.inj h).symm
    exact ⟨only, List.mem_singleton_self only, congrArg _ (congrArg _ honly.symm)⟩
  · rw [hemails] at h
    rcases flag with _ | given
    · cases h
    · dsimp only at h
      split_ifs at h with hblank hpresent
      obtain rfl := Except.ok.inj h
      obtain ⟨e, he, hcase⟩ := List.any_eq_true.mp hpresent
      exact ⟨e, he, of_decide_eq_true hcase⟩

/-- What is ready before an upload is sent. -/
theorem preparePush_eq_ok {env : PushEnv} {args : PushArgs}
    {cfg : Option RegistryKeyserverConfig} {envValue : Option String} {res : RegistryResolution}
    {json : String} (h : preparePush env args cfg envValue = .ok (res, json)) :
    resolveRegistry args.keyserverUrl cfg envValue = .ok res ∧
      ∃ cert armored email, loadCertAndArmor env args = .ok (cert, armored) ∧
        (∃ e ∈ certEmailsSorted cert, eqIgnoreAsciiCase e.toList email.toList) ∧
        env.toStringPretty (args.payload email armored) = .ok json := by
  rw [preparePush, check_bind_eq_ok, except_bind_eq_ok] at h
  obtain ⟨-, res', hres, h⟩ := h
  obtain ⟨base, -, h⟩ := except_bind_eq_ok.mp h
  obtain ⟨⟨cert, armored⟩, hcert, h⟩ := except_bind_eq_ok.mp h
  obtain ⟨email, hemail, h⟩ := except_bind_eq_ok.mp h
  obtain ⟨json', hjson, h⟩ := except_bind_eq_ok.mp h
  obtain ⟨rfl, rfl⟩ := Prod.mk.inj (Except.ok.inj h)
  exact ⟨hres, cert, armored, email, hcert, resolveEmailForPush_mem hemail,
    mapError_eq_ok_iff.mp hjson⟩

/-- An upload sends nothing, or it goes through the endpoints that were resolved. -/
theorem runPush_cases (env : PushEnv) (net : RegistryNet) (args : PushArgs)
    (cfg : Option RegistryKeyserverConfig) (envValue : Option String) :
    ((runPush env net args cfg envValue).1 = [] ∧
      (args.dryRun = false → ∃ e, (runPush env net args cfg envValue).2 = .error e)) ∨
    args.dryRun = false ∧ ∃ res json, preparePush env args cfg envValue = .ok (res, json) ∧
      runPush env net args cfg envValue = (pushLoop env res.failover json).run net res.endpoints []
        "no registry endpoint responded" := by
  rw [runPush]
  rcases hprep : preparePush env args cfg envValue with e | ⟨res, json⟩
  · exact .inl ⟨rfl, fun _ ↦ ⟨e, rfl⟩⟩
  · dsimp only
    by_cases hdry : args.dryRun = true
    · rw [if_pos hdry]
      exact .inl ⟨rfl, fun h ↦ absurd (h.symm.trans hdry) Bool.false_ne_true⟩
    · rw [if_neg hdry]
      rcases env.registryHttpClient res.timeoutSeconds with e | _
      · exact .inl ⟨rfl, fun _ ↦ ⟨e, rfl⟩⟩
      · exact .inr ⟨Bool.eq_false_iff.mpr hdry, res, json, rfl, rfl⟩

/-- The records that a download finds when a registry replies so. -/
def RegistryReply.Finds (env : FetchEnv) (reply : RegistryReply) (records : List KeyRecord) :
    Prop :=
  ∃ status body parsed, reply = .answered status (some body) ∧ isSuccess status = true ∧
    env.fromStr body = some parsed ∧ flattenRecords parsed = records ∧ records ≠ []

theorem fetchJudge_passOn_iff {env : FetchEnv} {failover : Bool} {ep : RegistryEndpoint}
    {more : Bool} {p : RegistryReply} : (∃ s, fetchJudge env failover ep more p = .passOn s) ↔
      failover = true ∧ more = true ∧ p.Retryable := by
  rcases p with _ | ⟨status, _ | body⟩
  · rw [fetchJudge]
    by_cases hmore : (failover && more) = true
    · rw [if_pos hmore]
      rw [Bool.and_eq_true] at hmore
      exact iff_of_true ⟨_, rfl⟩ ⟨hmore.1, hmore.2, trivial⟩
    · rw [if_neg hmore]
      rw [Bool.and_eq_true] at hmore
      exact iff_of_false (by rintro ⟨_, ⟨⟩⟩) fun h ↦ hmore ⟨h.1, h.2.1⟩
  · exact iff_of_false (by rintro ⟨_, ⟨⟩⟩) fun h ↦ not_retryable_unread h.2.2
  · rw [retryable_answered]
    constructor
    · rintro ⟨s, h⟩
      rw [fetchJudge] at h
      split_ifs at h with h404 happ hsucc hnext
      · rw [Bool.and_eq_true, Bool.and_eq_true] at hnext
        exact ⟨hnext.1.1, hnext.2, hnext.1.2⟩
      · rcases hparsed : env.fromStr body with _ | parsed
        · rw [hparsed] at h
          cases h
        · rw [hparsed] at h
          dsimp only at h
          split_ifs at h <;> cases h
    · rintro ⟨rfl, rfl, hretry⟩
      obtain ⟨hsucc, h404, -, happ⟩ := retryable_status hretry
      rw [fetchJudge, if_neg h404, if_neg (by rw [happ]; exact Bool.false_ne_true), hsucc, hretry]
      exact ⟨_, rfl⟩

theorem fetchJudge_ends_iff {env : FetchEnv} {failover : Bool} {ep : RegistryEndpoint} {more : Bool}
    {p : RegistryReply} {records : List KeyRecord} :
    fetchJudge env failover ep more p = .ends (.ok records) ↔ p.Finds env records := by
  constructor
  · intro h
    rcases p with _ | ⟨status, _ | body⟩
    · rw [fetchJudge] at h
      split_ifs at h <;> cases h
    · cases h
    · rw [fetchJudge] at h
      split_ifs at h with h404 happ hsucc hnext
      any_goals cases h
      rcases hparsed : env.fromStr body with _ | parsed
      · rw [hparsed] at h
        cases h
      · rw [hparsed] at h
        dsimp only at h
        split_ifs at h with hbatch
        · cases h
        · obtain rfl := Except.ok.inj (Verdict.ends.inj h)
          exact ⟨status, body, parsed, rfl, by simpa using hsucc, hparsed, rfl, hbatch⟩
  · rintro ⟨status, body, parsed, rfl, hsucc, hparsed, rfl, hbatch⟩
    have hfinal : status ≠ 404 ∧ isRegistryApplicationStatus status = false := by
      rw [isSuccess, decide_eq_true_eq] at hsucc
      refine ⟨by omega, ?_⟩
      rw [isRegistryApplicationStatus, decide_eq_false_iff_not]
      simp only [List.mem_cons, List.not_mem_nil, or_false]
      omega
    rw [fetchJudge, if_neg hfinal.1, hfinal.2, if_neg Bool.false_ne_true, hsucc, hparsed]
    exact if_neg hbatch

/-- A retryable reply finds nothing. -/
theorem RegistryReply.Retryable.not_finds {env : FetchEnv} {p : RegistryReply}
    {records : List KeyRecord} (h : p.Retryable) : ¬p.Finds env records := by
  rintro ⟨status, body, parsed, rfl, hsucc, -⟩
  rw [(retryable_status (retryable_answered.mp h)).1] at hsucc
  exact Bool.false_ne_true hsucc

theorem fetchLoop_goesOn (env : FetchEnv) (failover : Bool) (query : String ⊕ String) :
    GoesOn failover (lookupUrl env query) none (fetchLoop env failover query) where
  request_ok _ _ := requestAt_eq_ok
  request_error _ _ := requestAt_eq_error
  passOn_iff _ _ _ := fetchJudge_passOn_iff

theorem prepareFetch_eq_ok {env : FetchEnv} {args : FetchArgs}
    {cfg : Option RegistryKeyserverConfig} {envValue : Option String} {query : String ⊕ String}
    {res : RegistryResolution} {fmt : FetchOutputFmt}
    (h : prepareFetch env args cfg envValue = .ok (query, res, fmt)) :
    fetchQuery args = .ok query ∧ resolveRegistry args.keyserverUrl cfg envValue = .ok res ∧
      parseOutputMode args.output = .ok fmt := by
  obtain ⟨query', hquery, h⟩ := except_bind_eq_ok.mp h
  obtain ⟨res', hres, h⟩ := except_bind_eq_ok.mp h
  obtain ⟨fmt', hfmt, h⟩ := except_bind_eq_ok.mp h
  obtain ⟨-, -, h⟩ := except_bind_eq_ok.mp h
  obtain ⟨rfl, hpair⟩ := Prod.mk.inj (Except.ok.inj h)
  obtain ⟨rfl, rfl⟩ := Prod.mk.inj hpair
  exact ⟨hquery, hres, hfmt⟩

/-- **A download is one registry's word.** Whatever the network answers, a download asks the
designated registries for the one query in their order, at most fourteen of them, and the next one
only after one that could not be reached or could not serve. A text is written exactly when the last
one that was asked has records, and it renders the records of that one alone: records of several
registries are never mixed, and a registry that has none is not asked over. -/
theorem fetch_renders_one_registry (env : FetchEnv) (net : RegistryNet) (args : FetchArgs)
    (cfg : Option RegistryKeyserverConfig) (envValue : Option String) :
    let run := runFetch env net args cfg envValue
    (run.1 ≠ [] → ∃ query tried rest, fetchQuery args = .ok query ∧
      Designates args.keyserverUrl cfg envValue (tried ++ rest) ∧
      (tried ++ rest).length ≤ maxRegistryNodes ∧
      SentTo (MayFailOver args.keyserverUrl cfg envValue) (lookupUrl env query) none tried rest
        run.1) ∧
    ∀ text, run.2 = .ok text ↔ ∃ fmt records front x, parseOutputMode args.output = .ok fmt ∧
      run.1 = front ++ [x] ∧ (∀ y ∈ front, y.2.Retryable) ∧ x.2.Finds env records ∧
      renderRecords env fmt records = .ok text := by
  intro run
  rcases hprep : prepareFetch env args cfg envValue with e | ⟨query, res, fmt⟩
  · have hrun : run = ([], .error e) := by
      change runFetch env net args cfg envValue = _
      rw [runFetch, hprep]
    rw [hrun]
    refine ⟨fun h ↦ absurd rfl h, fun text ↦ iff_of_false (by rintro ⟨⟩) ?_⟩
    rintro ⟨fmt, records, front, x, -, hlog, -⟩
    exact List.append_ne_nil_of_right_ne_nil _ (List.cons_ne_nil x []) hlog.symm
  · obtain ⟨hquery, hres, hfmt⟩ := prepareFetch_eq_ok hprep
    obtain ⟨⟨urls, hurls, heps⟩, hne, hlen, hmay⟩ := resolveRegistry_eq_ok hres
    have hc := fetchLoop_goesOn env res.failover query
    rcases hloop : (fetchLoop env res.failover query).run net res.endpoints []
        "no registry endpoint responded" with ⟨log, found⟩
    have hrun : run = (log, found >>= renderRecords env fmt) := by
      change runFetch env net args cfg envValue = _
      rw [runFetch, hprep]
      dsimp only
      rw [hloop]
    rw [hrun]
    obtain ⟨⟨tried, rest, rfl, hsent⟩, -⟩ := hc.sentTo hmay hne heps hloop
    have hfound := hc.result_iff (fun _ _ _ _ ↦ fetchJudge_ends_iff) (fun _ _ h ↦ h.not_finds) hmay
      hne heps hloop
    have hlength : (tried ++ rest).length = res.endpoints.length := by
      rw [← List.length_map registryBase, ← heps, List.length_map]
    refine ⟨fun _ ↦ ⟨query, tried, rest, hquery, hurls, hlength ▸ hlen, hsent⟩, fun text ↦ ?_⟩
    rw [except_bind_eq_ok]
    constructor
    · rintro ⟨records, hrecords, htext⟩
      obtain ⟨front, x, hlog, hfront, hx⟩ := (hfound records).mp hrecords
      exact ⟨fmt, records, front, x, hfmt, hlog, hfront, hx, htext⟩
    · rintro ⟨fmt', records, front, x, hfmt', hlog, hfront, hx, htext⟩
      obtain rfl := Except.ok.inj (hfmt.symm.trans hfmt')
      exact ⟨records, (hfound records).mpr ⟨front, x, hlog, hfront, hx⟩, htext⟩

end Galdralag.Host
