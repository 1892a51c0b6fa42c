import Conduit.Config.Validate
import Conduit.Lifecycle.Scan

/-!
# Which constraints of a configuration entry survive routing

`Route.fromConfig` keeps one path matcher per route, in the order exact,
prefix, regex, and drops what it cannot translate.  A header predicate reads
the first value of its name only.  This file says what a request routed to an
entry is known to satisfy, and shows an entry whose regex is not enforced
because a prefix stands beside it.
-/

namespace Conduit

open Foundation

variable (platform : Platform)

structure Config.RouteMatch.SatisfiedBy (m : Config.RouteMatch)
    (host : Option String) (path : String) (headers : HeaderMap) : Prop where
  host : ∀ h, m.host = some h → ∃ h', host = some h' ∧
    eqIgnoreAsciiCase h h' = true
  pathExact : ∀ p, m.pathExact = some p → path = p
  pathPrefix : ∀ p, m.pathPrefix = some p → startsWith path p = true
  pathRegex : ∀ s, m.pathRegex = some s →
    ∃ re, platform.regexNew s = some re ∧ re.isMatch path = true
  headers : ∀ hm ∈ m.headers, ∃ name value,
    platform.headerName hm.name = some name ∧
    platform.headerValue hm.value = some value ∧ (name, value) ∈ headers

/--
The constraints the translation carries: the host, the first path matcher set
in the order exact, prefix, regex, and the header predicates.  A regex that
does not compile and a header predicate that does not parse are not covered.
-/
structure Config.RouteMatch.EnforcedBy (m : Config.RouteMatch)
    (host : Option String) (path : String) (headers : HeaderMap) : Prop where
  host : ∀ h, m.host = some h → ∃ h', host = some h' ∧
    eqIgnoreAsciiCase h h' = true
  pathExact : ∀ p, m.pathExact = some p → path = p
  pathPrefix : ∀ p, m.pathPrefix = some p → startsWith path p = true
  pathRegex : ∀ s re, m.pathExact = none → m.pathPrefix = none →
    m.pathRegex = some s → platform.regexNew s = some re → re.isMatch path = true
  headers : ∀ hm ∈ m.headers, ∀ name value,
    platform.headerName hm.name = some name →
    platform.headerValue hm.value = some value → (name, value) ∈ headers

/-! ## Repeated header names -/

namespace HeaderMap

/-- Ahead of every occurrence of the pair its name has another value. -/
def Shadows (headers : HeaderMap) (pair : HeaderName × HeaderValue) : Prop :=
  ∃ before other after, headers = before ++ (pair.1, other) :: after ∧
    other ≠ pair.2 ∧ pair ∉ before

theorem shadows_cons {entry pair : HeaderName × HeaderValue}
    {headers : HeaderMap} :
    Shadows (entry :: headers) pair ↔
      entry ≠ pair ∧ (entry.1 = pair.1 ∨ headers.Shadows pair) := by
  constructor
  · rintro ⟨before, other, after, heq, hother, hbefore⟩
    cases before with
    | nil =>
        obtain ⟨rfl, -⟩ := List.cons_eq_cons.mp heq
        exact ⟨fun h => hother (congrArg Prod.snd h), .inl rfl⟩
    | cons first before =>
        obtain ⟨rfl, rfl⟩ := List.cons_eq_cons.mp heq
        rw [List.mem_cons, not_or] at hbefore
        exact ⟨Ne.symm hbefore.1,
          .inr ⟨before, other, after, rfl, hother, hbefore.2⟩⟩
  · rintro ⟨hne, hname | ⟨before, other, after, rfl, hother, hbefore⟩⟩
    · refine ⟨[], entry.2, headers, by simp [← hname], ?_, by simp⟩
      exact fun hvalue => hne (Prod.ext hname hvalue)
    · refine ⟨entry :: before, other, after, rfl, hother, ?_⟩
      simp [hne.symm, hbefore]

theorem get_eq_some_iff {headers : HeaderMap}
    {pair : HeaderName × HeaderValue} :
    headers.get pair.1 = some pair.2 ↔
      pair ∈ headers ∧ ¬ headers.Shadows pair := by
  induction headers with
  | nil => simp [HeaderMap.get]
  | cons entry headers ih =>
      by_cases hentry : entry = pair
      · simp [HeaderMap.get, shadows_cons, hentry]
      · by_cases hname : entry.1 = pair.1
        · have hvalue : entry.2 ≠ pair.2 :=
            fun hvalue => hentry (Prod.ext hname hvalue)
          simp [HeaderMap.get, shadows_cons, hentry, hname, hvalue]
        · have hget : HeaderMap.get (entry :: headers) pair.1 =
              HeaderMap.get headers pair.1 := by
            simp [HeaderMap.get, hname]
          rw [hget, ih, shadows_cons, List.mem_cons]
          simp [hentry, Ne.symm hentry, hname]

end HeaderMap

theorem Route.headersMatch_iff (r : Route) (headers : HeaderMap) :
    r.headersMatch headers = true ↔
      ∀ pair ∈ r.headerMatches, pair ∈ headers ∧ ¬ headers.Shadows pair := by
  simp only [headersMatch, List.all_eq_true, beq_iff_eq,
    HeaderMap.get_eq_some_iff]

/--
The predicates test presence, and outlive every addition to the request, except
where all of them are present and one stands behind another value of its name.
-/
theorem headersMatch_tests_presence_iff (r : Route) (headers : HeaderMap) :
    ((r.headersMatch headers = true ↔
        ∀ pair ∈ r.headerMatches, pair ∈ headers) ∧
      ∀ fewer : HeaderMap, fewer.Sublist headers →
        r.headersMatch fewer = true → r.headersMatch headers = true) ↔
    ¬ ((∀ pair ∈ r.headerMatches, pair ∈ headers) ∧
      ∃ pair ∈ r.headerMatches, headers.Shadows pair) := by
  simp only [Route.headersMatch_iff]
  constructor
  · rintro ⟨hiff, -⟩ ⟨hpresent, pair, hpair, hshadows⟩
    exact (hiff.mpr hpresent pair hpair).2 hshadows
  · intro hnot
    have hmatch : (∀ pair ∈ r.headerMatches, pair ∈ headers) →
        ∀ pair ∈ r.headerMatches, pair ∈ headers ∧ ¬ headers.Shadows pair := by
      intro hpresent pair hpair
      exact ⟨hpresent pair hpair, fun h => hnot ⟨hpresent, pair, hpair, h⟩⟩
    refine ⟨⟨fun h pair hpair => (h pair hpair).1, hmatch⟩, ?_⟩
    intro fewer hfewer h
    exact hmatch fun pair hpair => hfewer.subset (h pair hpair).1

namespace Sample

def env (value : String) : HeaderName × HeaderValue :=
  (⟨"x-env"⟩, ⟨value.toList.map fun c => UInt8.ofNat c.toNat⟩)

def canary : Config.Route :=
  { match_ := { headers := [⟨"X-Env", "canary"⟩] }
    upstream := "canary" }

def stable : Config.Route := { match_ := {}, upstream := "stable" }

end Sample

/-- A value sent ahead of the wanted one moves the request to another route. -/
theorem value_behind_another_not_seen :
    ¬ ((Route.fromConfig .concrete Sample.canary).headersMatch
        [Sample.env "blue", Sample.env "canary"] = true ↔
      ∀ pair ∈ (Route.fromConfig .concrete Sample.canary).headerMatches,
        pair ∈ [Sample.env "blue", Sample.env "canary"]) ∧
    (Route.fromConfig .concrete Sample.canary).headersMatch
      [Sample.env "canary"] = true ∧
    (Route.fromConfig .concrete Sample.canary).headersMatch
      [Sample.env "blue", Sample.env "canary"] = false ∧
    ((RouteTable.ofRoutes
      ([Sample.canary, Sample.stable].map (Route.fromConfig .concrete))).find
        none "/" [Sample.env "blue", Sample.env "canary"]).map Route.upstream =
      some "stable" := by
  refine ⟨by decide, by decide, by decide, ?_⟩
  rw [RouteTable.ofRoutes_find]
  rfl

/-! ## What the selected entry enforces -/

variable {platform}

private theorem fromConfig_acceptsHost {r : Config.Route} {host : Option String}
    (h : (Route.fromConfig platform r).acceptsHost host = true) :
    ∀ name, r.match_.host = some name →
      ∃ h', host = some h' ∧ eqIgnoreAsciiCase name h' = true := by
  intro name hname
  have hroute : (Route.fromConfig platform r).host = some name := hname
  simpa [Route.acceptsHost, hroute, Option.any_eq_true] using h

private theorem fromConfig_headersMatch {r : Config.Route} {headers : HeaderMap}
    (h : (Route.fromConfig platform r).headersMatch headers = true) :
    ∀ hm ∈ r.match_.headers, ∀ name value,
      platform.headerName hm.name = some name →
      platform.headerValue hm.value = some value → (name, value) ∈ headers := by
  intro hm hmem name value hname hvalue
  have hin : (name, value) ∈ (Route.fromConfig platform r).headerMatches := by
    simp only [Route.fromConfig, List.mem_filterMap]
    exact ⟨hm, hmem, by simp [hname, hvalue]⟩
  exact ((Route.headersMatch_iff _ headers).mp h _ hin).1

theorem enforcedBy_of_isCandidate {names : List String} {r : Config.Route}
    (hwf : r.WellFormed names) {host : Option String} {path : String}
    {headers : HeaderMap}
    (h : (Route.fromConfig platform r).isCandidate host path headers = true) :
    r.match_.EnforcedBy platform host path headers := by
  simp only [Route.isCandidate, Bool.and_eq_true] at h
  obtain ⟨hhost, hpath, hheaders⟩ := h
  refine ⟨fromConfig_acceptsHost hhost, ?_, ?_, ?_,
    fromConfig_headersMatch hheaders⟩
  · intro p hp
    simpa [Route.acceptsPath, Route.fromConfig, hp] using hpath
  · intro p hp
    -- The validator has excluded an exact path beside the prefix.
    have hexact : r.match_.pathExact = none := by
      rcases hwf.no_conflict with hnone | hnone
      · simp [hp] at hnone
      · exact hnone
    simpa [Route.acceptsPath, Route.fromConfig, hp, hexact] using hpath
  · intro s re hexact hprefix hregex hre
    simpa [Route.acceptsPath, Route.fromConfig, hexact, hprefix, hregex, hre]
      using hpath

/--
Routing enforces the host, the path matcher that comes first in the order
exact, prefix, regex, and the header predicates of the entry it selects.
-/
theorem routed_request_is_enforced (platform : Platform) (cfg : Config)
    (opts : ValidationOptions) (hcfg : checkLogic cfg opts = .ok ())
    (host : Option String) (path : String) (headers : HeaderMap)
    (r : Config.Route) (hr : r ∈ cfg.routes)
    (hfind : (RouteTable.fromConfig platform cfg).find host path headers =
      some (Route.fromConfig platform r)) :
    r.match_.EnforcedBy platform host path headers := by
  have hwf := ((checkLogic_ok_iff cfg opts).mp hcfg).routes r hr
  exact enforcedBy_of_isCandidate hwf (RouteTable.ofRoutes_find_sound hfind).2

/-! ## What the translation drops -/

/-- The match without a regex that does not compile and header predicates that do not parse. -/
def Config.RouteMatch.parsed (platform : Platform) (m : Config.RouteMatch) :
    Config.RouteMatch :=
  { m with
    pathRegex := m.pathRegex.filter fun s => (platform.regexNew s).isSome
    headers := m.headers.filter fun hm =>
      (platform.headerName hm.name).isSome && (platform.headerValue hm.value).isSome }

def Config.parsed (platform : Platform) (cfg : Config) : Config :=
  { cfg with routes := cfg.routes.map fun r => { r with match_ := r.match_.parsed platform } }

theorem Route.fromConfig_parsed (r : Config.Route) :
    fromConfig platform { r with match_ := r.match_.parsed platform } =
      fromConfig platform r := by
  obtain ⟨⟨host, pathPrefix, pathExact, pathRegex, headers⟩, upstream, timeouts, retry⟩ := r
  simp only [fromConfig, Config.RouteMatch.parsed, Route.mk.injEq, and_true, true_and]
  constructor
  · cases pathExact with
    | some s => rfl
    | none =>
        cases pathPrefix with
        | some s => rfl
        | none =>
            cases pathRegex with
            | none => rfl
            | some s => cases hre : platform.regexNew s <;> simp [Option.filter, hre]
  · rw [List.filterMap_filter]
    refine List.filterMap_congr fun hm _ => ?_
    cases platform.headerName hm.name <;> cases platform.headerValue hm.value <;> simp

/--
The validator accepts a regex that does not compile and a header predicate that
does not parse, and a lookup is then the one without them.
-/
theorem lookup_ignores_unparsed (cfg : Config) (opts : ValidationOptions) :
    (checkLogic (cfg.parsed platform) opts = .ok () → checkLogic cfg opts = .ok ()) ∧
      RouteTable.fromConfig platform (cfg.parsed platform) =
        RouteTable.fromConfig platform cfg := by
  constructor
  · simp only [checkLogic_ok_iff]
    intro h
    refine ⟨fun hnil => h.routes_ne_nil (by simp [Config.parsed, hnil]), h.upstreams,
      h.names_nodup, ?_, h.tls_present, h.certs_ne_nil⟩
    intro r hr
    obtain ⟨hname, hsome, hconflict, hattempts⟩ := h.routes _ (List.mem_map_of_mem hr)
    refine ⟨hname, ?_, hconflict, hattempts⟩
    exact hsome.imp_right (Or.imp_right (Or.imp_right (Option.isSome_of_isSome_filter _ _)))
  · rw [RouteTable.fromConfig, RouteTable.fromConfig, Config.parsed, List.map_map]
    exact congrArg _ (List.map_congr_left fun r _ => Route.fromConfig_parsed r)

/-- An entry whose only path matcher is a regex that does not compile takes every path. -/
theorem acceptsPath_of_not_compiled {r : Config.Route} (hexact : r.match_.pathExact = none)
    (hpre : r.match_.pathPrefix = none) {s : String} (hregex : r.match_.pathRegex = some s)
    (hre : platform.regexNew s = none) (path : String) :
    (Route.fromConfig platform r).acceptsPath path = true := by
  simp [Route.acceptsPath, Route.fromConfig, hexact, hpre, hregex, hre]

example (path : String) :
    (Route.fromConfig .concrete
      { match_ := { pathRegex := some "(" }, upstream := "api" }).acceptsPath path = true :=
  acceptsPath_of_not_compiled rfl rfl rfl (by decide) path

/-! ## A prefix beside a regex -/

namespace Sample

def backend : SocketAddr := .v4 ⟨10, 0, 0, 1⟩ 8080

def admin : SocketAddr := .v4 ⟨127, 0, 0, 1⟩ 9090

def api : Config.Upstream := { name := "api", addrs := [backend] }

def prefixAndRegex : Config.Route :=
  { match_ := { pathPrefix := some "/", pathRegex := some "^/v1/" }
    upstream := "api" }

def document : Config :=
  { server := { adminListen := admin }
    upstreams := [api]
    routes := [prefixAndRegex] }

end Sample

theorem regex_beside_prefix_not_enforced :
    checkLogic Sample.document {} = .ok () ∧
    Sample.prefixAndRegex ∈ Sample.document.routes ∧
    (RouteTable.fromConfig .concrete Sample.document).find none "/v2/" [] =
      some (Route.fromConfig .concrete Sample.prefixAndRegex) ∧
    ¬ Sample.prefixAndRegex.match_.SatisfiedBy .concrete none "/v2/" [] := by
  refine ⟨by decide, by decide, ?_, ?_⟩
  · rw [RouteTable.fromConfig, RouteTable.ofRoutes_find]
    rfl
  · intro h
    obtain ⟨re, hre, hmatch⟩ := h.pathRegex "^/v1/" rfl
    cases hre
    revert hmatch
    decide

theorem routed_request_is_enforced_sample :
    checkLogic Sample.document {} = .ok () ∧
    Sample.prefixAndRegex.match_.EnforcedBy .concrete none "/v1/items" [] := by
  refine ⟨by decide, routed_request_is_enforced .concrete Sample.document {}
    (by decide) none "/v1/items" [] Sample.prefixAndRegex (by decide) ?_⟩
  rw [RouteTable.fromConfig, RouteTable.ofRoutes_find]
  rfl

end Conduit
