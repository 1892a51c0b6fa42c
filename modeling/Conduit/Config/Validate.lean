import Conduit.Config.Schema
import Mathlib.Data.List.Nodup
import Mathlib.Tactic.Tauto

/-!
# Semantic validation

`checkLogic` inspects in-memory fields only and reports the first fault it
meets; `checkFilesystem` then asks for the certificate files of the listener.
`checkLogic_ok_iff` says which documents the first pass accepts.
-/

namespace Conduit

open Config

inductive ConfigError where
  | read (path : String)
  | toml (message : String)
  | unknownUpstream (index : Nat) (name : String)
  | upstreamNoAddrs (index : Nat) (name : String)
  | duplicateUpstream (name : String)
  | noRoutes
  | tlsRequired
  | tlsNoCerts
  | certMissing (sni path : String)
  | keyMissing (sni path : String)
  | routeMatchEmpty (index : Nat)
  | routePathConflict (index : Nat)
  | retryAttemptsZero (index : Nat)
  | upstreamMtlsMismatch (name : String)
  | upstreamInsecureTlsNotOptedIn (name : String)
  | healthCheckBadDuration (name field : String)
  deriving DecidableEq, Repr

structure ValidationOptions where
  allowInsecureTls : Bool := false
  deriving DecidableEq, Repr

/-! ## The logic pass -/

def checkUpstreamTls (opts : ValidationOptions) (u : Upstream) :
    Except ConfigError Unit :=
  match u.tls with
  | none => .ok ()
  | some tls =>
      if tls.clientCert.isSome ≠ tls.clientKey.isSome then
        .error (.upstreamMtlsMismatch u.name)
      else if !tls.verify && !opts.allowInsecureTls then
        .error (.upstreamInsecureTlsNotOptedIn u.name)
      else .ok ()

def checkHealthCheck (u : Upstream) : Except ConfigError Unit :=
  match u.healthCheck with
  | none => .ok ()
  | some hc =>
      if hc.interval = Duration.zero then
        .error (.healthCheckBadDuration u.name "interval")
      else if hc.timeout = Duration.zero then
        .error (.healthCheckBadDuration u.name "timeout")
      else .ok ()

/-- One turn of the upstream loop; returns the names seen so far. -/
def checkUpstream (opts : ValidationOptions) (index : Nat)
    (seenNames : List String) (u : Upstream) :
    Except ConfigError (List String) :=
  if u.addrs.isEmpty then .error (.upstreamNoAddrs index u.name)
  else if u.name ∈ seenNames then .error (.duplicateUpstream u.name)
  else do
    checkUpstreamTls opts u
    checkHealthCheck u
    return u.name :: seenNames

def checkUpstreams (opts : ValidationOptions) :
    Nat → List String → List Upstream → Except ConfigError (List String)
  | _, seenNames, [] => .ok seenNames
  | index, seenNames, u :: upstreams => do
      let seenNames ← checkUpstream opts index seenNames u
      checkUpstreams opts (index + 1) seenNames upstreams

def checkRetry (index : Nat) (r : Route) : Except ConfigError Unit :=
  match r.retry with
  | none => .ok ()
  | some retry =>
      if retry.attempts = 0 then .error (.retryAttemptsZero index) else .ok ()

def checkRoute (seenNames : List String) (index : Nat) (r : Route) :
    Except ConfigError Unit :=
  let m := r.match_
  let hasHost := m.host.isSome
  let hasPath := m.pathPrefix.isSome || m.pathExact.isSome || m.pathRegex.isSome
  if r.upstream ∉ seenNames then .error (.unknownUpstream index r.upstream)
  else if !hasHost && !hasPath then .error (.routeMatchEmpty index)
  else if m.pathPrefix.isSome && m.pathExact.isSome then
    .error (.routePathConflict index)
  else checkRetry index r

def checkRoutes (seenNames : List String) :
    Nat → List Route → Except ConfigError Unit
  | _, [] => .ok ()
  | index, r :: routes => do
      checkRoute seenNames index r
      checkRoutes seenNames (index + 1) routes

def checkTls (cfg : Config) : Except ConfigError Unit :=
  let needsTls := !cfg.server.listenHttps.isEmpty || !cfg.server.listenH3.isEmpty
  match cfg.tls, needsTls with
  | none, true => .error .tlsRequired
  | some t, _ => if t.certs.isEmpty then .error .tlsNoCerts else .ok ()
  | none, false => .ok ()

def checkLogic (cfg : Config) (opts : ValidationOptions) :
    Except ConfigError Unit :=
  if cfg.routes.isEmpty then .error .noRoutes
  else do
    let seenNames ← checkUpstreams opts 0 [] cfg.upstreams
    checkRoutes seenNames 0 cfg.routes
    checkTls cfg

/-! ## The filesystem pass and the public entry points -/

def checkCerts (isFile : String → Bool) :
    List CertSpec → Except ConfigError Unit
  | [] => .ok ()
  | c :: certs =>
      if !isFile c.cert then .error (.certMissing c.sni c.cert)
      else if !isFile c.key then .error (.keyMissing c.sni c.key)
      else checkCerts isFile certs

def checkFilesystem (isFile : String → Bool) (cfg : Config) :
    Except ConfigError Unit :=
  match cfg.tls with
  | none => .ok ()
  | some tls => checkCerts isFile tls.certs

def check (opts : ValidationOptions) (isFile : String → Bool) (cfg : Config) :
    Except ConfigError Unit := do
  checkLogic cfg opts
  checkFilesystem isFile cfg

/-- `conduit_config::parse`; `fromStr` is `toml::from_str`. -/
def parse (fromStr : String → Except String Config) (opts : ValidationOptions)
    (isFile : String → Bool) (text : String) : Except ConfigError Config := do
  let cfg ← (fromStr text).mapError .toml
  check opts isFile cfg
  return cfg

/-- `conduit_config::load`; `text` is what reading the file at `path` gave. -/
def load (fromStr : String → Except String Config) (opts : ValidationOptions)
    (isFile : String → Bool) (path : String) (text : Option String) :
    Except ConfigError Config :=
  match text with
  | none => .error (.read path)
  | some text => parse fromStr opts isFile text

/-! ## Accepted documents -/

structure Config.Upstream.WellFormed (opts : ValidationOptions)
    (u : Upstream) : Prop where
  addrs_ne_nil : u.addrs ≠ []
  mtls_pair : ∀ tls ∈ u.tls, tls.clientCert.isSome = tls.clientKey.isSome
  verified : ∀ tls ∈ u.tls, tls.verify = true ∨ opts.allowInsecureTls = true
  durations : ∀ hc ∈ u.healthCheck,
    hc.interval ≠ Duration.zero ∧ hc.timeout ≠ Duration.zero

structure Config.Route.WellFormed (names : List String) (r : Route) : Prop where
  upstream_mem : r.upstream ∈ names
  constrained : r.match_.host.isSome ∨ r.match_.pathPrefix.isSome ∨
    r.match_.pathExact.isSome ∨ r.match_.pathRegex.isSome
  no_conflict : r.match_.pathPrefix = none ∨ r.match_.pathExact = none
  attempts_ne_zero : ∀ retry ∈ r.retry, retry.attempts ≠ 0

structure Config.WellFormed (opts : ValidationOptions) (cfg : Config) :
    Prop where
  routes_ne_nil : cfg.routes ≠ []
  upstreams : ∀ u ∈ cfg.upstreams, u.WellFormed opts
  names_nodup : (cfg.upstreams.map Upstream.name).Nodup
  routes : ∀ r ∈ cfg.routes, r.WellFormed (cfg.upstreams.map Upstream.name)
  tls_present : cfg.tls = none →
    cfg.server.listenHttps = [] ∧ cfg.server.listenH3 = []
  certs_ne_nil : ∀ tls ∈ cfg.tls, tls.certs ≠ []

private theorem checkUpstreamTls_ok_iff (opts : ValidationOptions)
    (u : Upstream) :
    checkUpstreamTls opts u = .ok () ↔
      ∀ tls ∈ u.tls, tls.clientCert.isSome = tls.clientKey.isSome ∧
        (tls.verify = true ∨ opts.allowInsecureTls = true) := by
  unfold checkUpstreamTls
  cases u.tls with
  | none => simp
  | some tls =>
      by_cases hpair : tls.clientCert.isSome = tls.clientKey.isSome <;>
        cases tls.verify <;> cases opts.allowInsecureTls <;> simp [hpair]

private theorem checkHealthCheck_ok_iff (u : Upstream) :
    checkHealthCheck u = .ok () ↔
      ∀ hc ∈ u.healthCheck,
        hc.interval ≠ Duration.zero ∧ hc.timeout ≠ Duration.zero := by
  unfold checkHealthCheck
  cases u.healthCheck with
  | none => simp
  | some hc =>
      by_cases hinterval : hc.interval = Duration.zero <;>
        by_cases htimeout : hc.timeout = Duration.zero <;>
        simp [hinterval, htimeout]

private theorem checkUpstream_ok_iff (opts : ValidationOptions) (index : Nat)
    (seenNames names : List String) (u : Upstream) :
    checkUpstream opts index seenNames u = .ok names ↔
      u.WellFormed opts ∧ u.name ∉ seenNames ∧ names = u.name :: seenNames := by
  unfold checkUpstream
  by_cases haddrs : u.addrs = []
  · simp only [haddrs, List.isEmpty_nil, if_true, reduceCtorEq, false_iff]
    exact fun h => h.1.addrs_ne_nil haddrs
  by_cases hseen : u.name ∈ seenNames
  · simp [haddrs, hseen]
  simp only [List.isEmpty_iff, haddrs, if_false, hseen, then_eq_ok,
    not_false_eq_true, true_and, checkUpstreamTls_ok_iff,
    checkHealthCheck_ok_iff, pure, Except.pure, Except.ok.injEq]
  constructor
  · rintro ⟨htls, hhealth, rfl⟩
    exact ⟨⟨haddrs, fun tls h => (htls tls h).1, fun tls h => (htls tls h).2,
      hhealth⟩, rfl⟩
  · rintro ⟨hwf, rfl⟩
    exact ⟨fun tls h => ⟨hwf.mtls_pair tls h, hwf.verified tls h⟩,
      hwf.durations, rfl⟩

-- The names seen so far grow at the front, so the final set is the reversal
-- of the declared names in front of the initial one.
private theorem checkUpstreams_ok_iff (opts : ValidationOptions) (index : Nat)
    (seenNames names : List String) (upstreams : List Upstream) :
    checkUpstreams opts index seenNames upstreams = .ok names ↔
      (∀ u ∈ upstreams, u.WellFormed opts) ∧
      (upstreams.map Upstream.name).Nodup ∧
      (∀ u ∈ upstreams, u.name ∉ seenNames) ∧
      names = (upstreams.map Upstream.name).reverse ++ seenNames := by
  induction upstreams generalizing index seenNames with
  | nil => simp [checkUpstreams, eq_comm]
  | cons u upstreams ih =>
      simp only [checkUpstreams, bind_eq_ok, checkUpstream_ok_iff, ih,
        List.map_cons, List.nodup_cons, List.reverse_cons, List.append_assoc,
        List.singleton_append, List.forall_mem_cons, List.mem_map, not_exists,
        not_and]
      constructor
      · rintro ⟨_, ⟨hwf, hfresh, rfl⟩, hall, hnodup, hdisjoint, rfl⟩
        simp only [List.mem_cons, not_or] at hdisjoint
        exact ⟨⟨hwf, hall⟩, ⟨fun x hx => (hdisjoint x hx).1, hnodup⟩,
          ⟨hfresh, fun x hx => (hdisjoint x hx).2⟩, rfl⟩
      · rintro ⟨⟨hwf, hall⟩, ⟨hnew, hnodup⟩, ⟨hfresh, hdisjoint⟩, rfl⟩
        refine ⟨_, ⟨hwf, hfresh, rfl⟩, hall, hnodup, ?_, rfl⟩
        intro x hx
        simp only [List.mem_cons, not_or]
        exact ⟨hnew x hx, hdisjoint x hx⟩

private theorem checkRoute_ok_iff (seenNames : List String) (index : Nat)
    (r : Route) :
    checkRoute seenNames index r = .ok () ↔ r.WellFormed seenNames := by
  have hiff : r.WellFormed seenNames ↔ r.upstream ∈ seenNames ∧
      (r.match_.host.isSome ∨ r.match_.pathPrefix.isSome ∨
        r.match_.pathExact.isSome ∨ r.match_.pathRegex.isSome) ∧
      (r.match_.pathPrefix = none ∨ r.match_.pathExact = none) ∧
      ∀ retry ∈ r.retry, retry.attempts ≠ 0 :=
    ⟨fun h => ⟨h.1, h.2, h.3, h.4⟩, fun ⟨h₁, h₂, h₃, h₄⟩ => ⟨h₁, h₂, h₃, h₄⟩⟩
  rw [hiff]
  obtain ⟨⟨host, pathPrefix, pathExact, pathRegex, -⟩, upstream, -, retry⟩ := r
  unfold checkRoute checkRetry
  by_cases hname : upstream ∈ seenNames
  · cases host <;> cases pathPrefix <;> cases pathExact <;>
      cases pathRegex <;> cases retry <;> simp [hname]
  · simp [hname]

private theorem checkRoutes_ok_iff (seenNames : List String) (index : Nat)
    (routes : List Route) :
    checkRoutes seenNames index routes = .ok () ↔
      ∀ r ∈ routes, r.WellFormed seenNames := by
  induction routes generalizing index with
  | nil => simp [checkRoutes]
  | cons r routes ih =>
      simp [checkRoutes, then_eq_ok, checkRoute_ok_iff, ih]

private theorem checkTls_ok_iff (cfg : Config) :
    checkTls cfg = .ok () ↔
      (cfg.tls = none →
        cfg.server.listenHttps = [] ∧ cfg.server.listenH3 = []) ∧
      ∀ tls ∈ cfg.tls, tls.certs ≠ [] := by
  unfold checkTls
  cases cfg.tls with
  | none =>
      cases cfg.server.listenHttps <;> cases cfg.server.listenH3 <;> simp
  | some tls => cases h : tls.certs <;> simp [h]

theorem Config.Route.WellFormed.of_subset {names names' : List String}
    {r : Route} (h : r.WellFormed names) (hsub : names ⊆ names') :
    r.WellFormed names' :=
  ⟨hsub h.upstream_mem, h.constrained, h.no_conflict, h.attempts_ne_zero⟩

/-- The logic pass accepts exactly the well-formed documents. -/
theorem checkLogic_ok_iff (cfg : Config) (opts : ValidationOptions) :
    checkLogic cfg opts = .ok () ↔ cfg.WellFormed opts := by
  unfold checkLogic
  by_cases hroutes : cfg.routes = []
  · simp only [hroutes, List.isEmpty_nil, if_true, reduceCtorEq, false_iff]
    exact fun h => h.routes_ne_nil hroutes
  simp only [List.isEmpty_iff, hroutes, if_false]
  rw [bind_eq_ok]
  simp only [then_eq_ok, checkUpstreams_ok_iff, checkRoutes_ok_iff,
    checkTls_ok_iff]
  constructor
  · rintro ⟨_, ⟨hwf, hnodup, -, rfl⟩, hres, htls, hcerts⟩
    exact ⟨hroutes, hwf, hnodup,
      fun r hr => (hres r hr).of_subset (by simp), htls, hcerts⟩
  · intro h
    exact ⟨_, ⟨h.upstreams, h.names_nodup, by simp, rfl⟩,
      fun r hr => (h.routes r hr).of_subset (by simp), h.tls_present,
      h.certs_ne_nil⟩

theorem check_ok_iff (opts : ValidationOptions) (isFile : String → Bool)
    (cfg : Config) :
    check opts isFile cfg = .ok () ↔
      cfg.WellFormed opts ∧ checkFilesystem isFile cfg = .ok () := by
  simp [check, then_eq_ok, checkLogic_ok_iff]

end Conduit
