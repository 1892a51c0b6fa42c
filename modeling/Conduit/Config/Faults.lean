import Conduit.Config.Validate
import Conduit.Foundation.Rules

/-!
# The rules of a document

Every rule of the configuration, in the order of the document, with what is
said when it is broken.  A rule is about the document alone: the names that
the loops of `check_logic` collect are the names declared before an entry, or
all of them.
-/

namespace Conduit

open Foundation

/-! ## The rule book -/

section RuleBook

variable (opts : ValidationOptions) (isFile : String → Bool)

def tlsRules (u : Config.Upstream) : List (Rule ConfigError) :=
  u.tls.toList.flatMap fun tls =>
    [⟨tls.clientCert.isSome ≠ tls.clientKey.isSome, .upstreamMtlsMismatch u.name⟩,
      ⟨tls.verify = false ∧ opts.allowInsecureTls = false, .upstreamInsecureTlsNotOptedIn u.name⟩]

def healthCheckRules (u : Config.Upstream) : List (Rule ConfigError) :=
  u.healthCheck.toList.flatMap fun hc =>
    [⟨hc.interval = Duration.zero, .healthCheckBadDuration u.name "interval"⟩,
      ⟨hc.timeout = Duration.zero, .healthCheckBadDuration u.name "timeout"⟩]

/-- The rules for entry `index`; `names` are those declared before it. -/
def upstreamRules (index : Nat) (names : List String) (u : Config.Upstream) :
    List (Rule ConfigError) :=
  [⟨u.addrs = [], .upstreamNoAddrs index u.name⟩, ⟨u.name ∈ names, .duplicateUpstream u.name⟩] ++
    (tlsRules opts u ++ healthCheckRules u)

def routeRules (names : List String) (index : Nat) (r : Config.Route) : List (Rule ConfigError) :=
  [⟨r.upstream ∉ names, .unknownUpstream index r.upstream⟩,
    ⟨r.match_.host = none ∧ r.match_.pathPrefix = none ∧ r.match_.pathExact = none ∧
      r.match_.pathRegex = none, .routeMatchEmpty index⟩,
    ⟨r.match_.pathPrefix ≠ none ∧ r.match_.pathExact ≠ none, .routePathConflict index⟩] ++
  r.retry.toList.map fun retry => ⟨retry.attempts = 0, .retryAttemptsZero index⟩

def listenerRules (cfg : Config) : List (Rule ConfigError) :=
  match cfg.tls with
  | none => [⟨cfg.server.listenHttps ≠ [] ∨ cfg.server.listenH3 ≠ [], .tlsRequired⟩]
  | some t => [⟨t.certs = [], .tlsNoCerts⟩]

def fileRules (c : Config.CertSpec) : List (Rule ConfigError) :=
  [⟨isFile c.cert = false, .certMissing c.sni c.cert⟩,
    ⟨isFile c.key = false, .keyMissing c.sni c.key⟩]

def ruleBook (cfg : Config) : List (Rule ConfigError) :=
  [⟨cfg.routes = [], .noRoutes⟩] ++
  (cfg.upstreams.zipIdx.flatMap fun entry =>
    upstreamRules opts entry.2 ((cfg.upstreams.take entry.2).map Config.Upstream.name) entry.1) ++
  (cfg.routes.zipIdx.flatMap fun entry =>
    routeRules (cfg.upstreams.map Config.Upstream.name) entry.2 entry.1) ++
  listenerRules cfg ++
  cfg.tls.toList.flatMap fun t => t.certs.flatMap (fileRules isFile)

end RuleBook

/-! ## One entry -/

variable {opts : ValidationOptions} {isFile : String → Bool}

theorem reports_tls (u : Config.Upstream) :
    Reports (tlsRules opts u) (checkUpstreamTls opts u) := by
  unfold tlsRules checkUpstreamTls
  cases u.tls with
  | none => exact .nil ()
  | some tls =>
      simp only [Option.toList_some, List.flatMap_singleton]
      apply Reports.ite
      intro _
      have hinsecure : (!tls.verify && !opts.allowInsecureTls) = true ↔
          tls.verify = false ∧ opts.allowInsecureTls = false := by simp
      simp only [hinsecure]
      exact Reports.ite _ _ fun _ => .nil ()

theorem reports_healthCheck (u : Config.Upstream) :
    Reports (healthCheckRules u) (checkHealthCheck u) := by
  unfold healthCheckRules checkHealthCheck
  cases u.healthCheck with
  | none => exact .nil ()
  | some hc =>
      simp only [Option.toList_some, List.flatMap_singleton]
      exact Reports.ite _ _ fun _ => Reports.ite _ _ fun _ => .nil ()

theorem reports_upstream (index : Nat) (names : List String) (u : Config.Upstream) :
    Reports (upstreamRules opts index names u) (checkUpstream opts index names u) := by
  unfold upstreamRules checkUpstream
  simp only [List.isEmpty_iff]
  apply Reports.ite
  intro _
  apply Reports.ite
  intro _
  apply (reports_tls u).bind
  intro _ _
  have hlast := (reports_healthCheck u).bind (f := fun _ => Except.ok (u.name :: names))
    (fun _ _ => .nil _)
  rwa [List.append_nil] at hlast

theorem reports_retry (index : Nat) (r : Config.Route) :
    Reports (r.retry.toList.map fun retry => ⟨retry.attempts = 0, .retryAttemptsZero index⟩)
      (checkRetry index r) := by
  unfold checkRetry
  cases r.retry with
  | none => exact .nil ()
  | some retry => exact Reports.ite _ _ fun _ => .nil ()

theorem reports_route (names : List String) (index : Nat) (r : Config.Route) :
    Reports (routeRules names index r) (checkRoute names index r) := by
  have hempty : (!r.match_.host.isSome && !(r.match_.pathPrefix.isSome ||
      r.match_.pathExact.isSome || r.match_.pathRegex.isSome)) = true ↔
      r.match_.host = none ∧ r.match_.pathPrefix = none ∧ r.match_.pathExact = none ∧
        r.match_.pathRegex = none := by
    simp [and_assoc]
  have hconflict : (r.match_.pathPrefix.isSome && r.match_.pathExact.isSome) = true ↔
      r.match_.pathPrefix ≠ none ∧ r.match_.pathExact ≠ none := by
    simp [Option.isSome_iff_ne_none]
  unfold routeRules checkRoute
  simp only [hempty, hconflict]
  apply Reports.ite
  intro _
  apply Reports.ite
  intro _
  apply Reports.ite
  intro _
  exact reports_retry index r

theorem reports_listeners (cfg : Config) : Reports (listenerRules cfg) (checkTls cfg) := by
  unfold listenerRules checkTls
  cases cfg.tls with
  | none =>
      have hneeds : (!cfg.server.listenHttps.isEmpty || !cfg.server.listenH3.isEmpty) = true ↔
          cfg.server.listenHttps ≠ [] ∨ cfg.server.listenH3 ≠ [] := by simp
      rw [← propext hneeds]
      cases (!cfg.server.listenHttps.isEmpty || !cfg.server.listenH3.isEmpty) with
      | true => exact .here rfl
      | false => exact Reports.ite (false = true) _ fun _ => .nil ()
  | some t =>
      simp only [List.isEmpty_iff]
      exact Reports.ite _ _ fun _ => .nil ()

theorem reports_files (c : Config.CertSpec) {rules : List (Rule ConfigError)}
    {x : Except ConfigError Unit} (h : Reports rules x) :
    Reports (fileRules isFile c ++ rules)
      (if !isFile c.cert then .error (.certMissing c.sni c.cert)
      else if !isFile c.key then .error (.keyMissing c.sni c.key)
      else x) := by
  simp only [Bool.not_eq_true']
  exact Reports.ite _ _ fun _ => Reports.ite _ _ fun _ => h

/-! ## The loops -/

theorem reports_certs (certs : List Config.CertSpec) :
    Reports (certs.flatMap (fileRules isFile)) (checkCerts isFile certs) := by
  induction certs with
  | nil => exact .nil ()
  | cons c certs ih =>
      rw [List.flatMap_cons]
      exact reports_files c ih

theorem reports_filesystem (cfg : Config) :
    Reports (cfg.tls.toList.flatMap fun t => t.certs.flatMap (fileRules isFile))
      (checkFilesystem isFile cfg) := by
  unfold checkFilesystem
  cases cfg.tls with
  | none => exact .nil ()
  | some tls =>
      rw [Option.toList_some, List.flatMap_singleton]
      exact reports_certs tls.certs

theorem upstreamRules_congr {names names' : List String} (h : ∀ n, n ∈ names ↔ n ∈ names')
    (index : Nat) (u : Config.Upstream) :
    upstreamRules opts index names u = upstreamRules opts index names' u := by
  simp only [upstreamRules, propext (h u.name)]

theorem routeRules_congr {names names' : List String} (h : ∀ n, n ∈ names ↔ n ∈ names')
    (index : Nat) (r : Config.Route) : routeRules names index r = routeRules names' index r := by
  simp only [routeRules, propext (h r.upstream)]

theorem names_of_checkUpstream {index : Nat} {names names' : List String} {u : Config.Upstream}
    (h : checkUpstream opts index names u = .ok names') : names' = u.name :: names := by
  unfold checkUpstream at h
  split at h
  · cases h
  · split at h
    · cases h
    · obtain ⟨-, h⟩ := then_eq_ok.mp h
      obtain ⟨-, h⟩ := then_eq_ok.mp h
      exact (Except.ok.inj h).symm

theorem reports_upstreams (done upstreams : List Config.Upstream) {seen : List String}
    (hseen : ∀ n, n ∈ seen ↔ n ∈ done.map Config.Upstream.name) :
    Reports ((upstreams.zipIdx done.length).flatMap fun entry => upstreamRules opts entry.2
        (((done ++ upstreams).take entry.2).map Config.Upstream.name) entry.1)
      (checkUpstreams opts done.length seen upstreams) ∧
    ∀ names, checkUpstreams opts done.length seen upstreams = .ok names →
      ∀ n, n ∈ names ↔ n ∈ (done ++ upstreams).map Config.Upstream.name := by
  induction upstreams generalizing done seen with
  | nil =>
      refine ⟨.nil seen, ?_⟩
      rintro names ⟨⟩
      simpa using hseen
  | cons u upstreams ih =>
      have hnext : ∀ names, checkUpstream opts done.length seen u = .ok names →
          ∀ n, n ∈ names ↔ n ∈ (done ++ [u]).map Config.Upstream.name := by
        intro names hnames n
        rw [names_of_checkUpstream hnames, List.mem_cons, hseen]
        simp [or_comm]
      have hrest : ∀ names, checkUpstream opts done.length seen u = .ok names → _ :=
        fun names hnames => ih (done ++ [u]) (hnext names hnames)
      simp only [List.length_append, List.length_singleton, List.append_assoc,
        List.singleton_append] at hrest
      have hentry : Reports (upstreamRules opts done.length
          (done.map Config.Upstream.name) u) (checkUpstream opts done.length seen u) := by
        rw [← upstreamRules_congr hseen]
        exact reports_upstream _ _ _
      rw [List.zipIdx_cons, List.flatMap_cons, checkUpstreams, List.take_left' rfl]
      constructor
      · exact hentry.bind fun names hnames => (hrest names hnames).1
      · intro names hnames
        obtain ⟨seen', hseen', hnames⟩ := bind_eq_ok.mp hnames
        exact (hrest seen' hseen').2 names hnames

theorem reports_routes {names names' : List String} (h : ∀ n, n ∈ names ↔ n ∈ names')
    (routes : List Config.Route) (index : Nat) :
    Reports ((routes.zipIdx index).flatMap fun entry => routeRules names' entry.2 entry.1)
      (checkRoutes names index routes) := by
  induction routes generalizing index with
  | nil => exact .nil ()
  | cons r routes ih =>
      rw [List.zipIdx_cons, List.flatMap_cons, checkRoutes, ← routeRules_congr h]
      exact (reports_route names index r).bind fun _ _ => ih (index + 1)

/--
Whatever the document and the files, the check reports the first broken rule
of the book, so a missing file only when the document itself is sound.
-/
theorem check_reports_first_fault (opts : ValidationOptions) (isFile : String → Bool)
    (cfg : Config) :
    (check opts isFile cfg = .ok () ↔ Upheld (ruleBook opts isFile cfg)) ∧
      ∀ e, check opts isFile cfg = .error e ↔ FirstBroken (ruleBook opts isFile cfg) e := by
  have hnone : ∀ n, n ∈ ([] : List String) ↔ n ∈ ([] : List Config.Upstream).map (·.name) := by
    simp
  have hlogic : Reports ([⟨cfg.routes = [], .noRoutes⟩] ++
      ((cfg.upstreams.zipIdx.flatMap fun entry => upstreamRules opts entry.2
        ((cfg.upstreams.take entry.2).map Config.Upstream.name) entry.1) ++
      ((cfg.routes.zipIdx.flatMap fun entry =>
        routeRules (cfg.upstreams.map Config.Upstream.name) entry.2 entry.1) ++
      listenerRules cfg))) (checkLogic cfg opts) := by
    obtain ⟨hupstreams, hnames⟩ := reports_upstreams [] cfg.upstreams hnone
    unfold checkLogic
    simp only [List.isEmpty_iff]
    apply Reports.ite
    intro _
    apply hupstreams.bind
    intro names hok
    exact (reports_routes (hnames names hok) cfg.routes 0).bind fun _ _ => reports_listeners cfg
  have hbook : Reports (ruleBook opts isFile cfg) (check opts isFile cfg) := by
    simpa only [ruleBook, check, List.append_assoc] using
      hlogic.bind fun _ _ => reports_filesystem cfg
  exact ⟨hbook.ok_iff, hbook.error_iff⟩

end Conduit
