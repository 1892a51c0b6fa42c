import Conduit.Lifecycle.Constraints
import Conduit.Upstream.Forward

/-!
# Dispatching a request

`Dispatch.handle` matches a request to a route, looks the route's upstream up
by name and forwards the request under the route's total timeout.  The pools
are shared by every request, so `handle` returns the dispatcher with the pool
as the request left it.
-/

namespace Conduit

open Foundation

/-! ## Upstreams by name -/

structure UpstreamMap where
  byName : Std.HashMap String Upstream := ∅

namespace UpstreamMap

def insert (m : UpstreamMap) (name : String) (u : Upstream) : UpstreamMap :=
  ⟨m.byName.insert name u⟩

def get (m : UpstreamMap) (name : String) : Option Upstream :=
  m.byName[name]?

@[simp] theorem get_empty (name : String) : ({} : UpstreamMap).get name = none := by
  simp [get]

theorem get_insert (m : UpstreamMap) (name name' : String) (u : Upstream) :
    (m.insert name u).get name' =
      if name = name' then some u else m.get name' := by
  simp [get, insert, Std.HashMap.getElem?_insert, beq_iff_eq]

end UpstreamMap

section Construction

variable (platform : Platform) (files : Files) (now : Nat)

def Upstream.fromConfig (u : Config.Upstream) :
    Except TlsLoadError Upstream :=
  Upstream.withTls platform files now {} u.addrs {} (some u.connectTimeout)
    (u.tls.map UpstreamTlsOptions.fromConfig)

/-- An entry whose PEM files do not load is logged and skipped. -/
def UpstreamMap.register (m : UpstreamMap) (u : Config.Upstream) :
    UpstreamMap :=
  match Upstream.fromConfig platform files now u with
  | .ok upstream => m.insert u.name upstream
  | .error _ => m

def UpstreamMap.fromConfig (cfg : Config) : UpstreamMap :=
  cfg.upstreams.foldl (register platform files now) {}

end Construction

/-! ## The dispatcher -/

structure Dispatch where
  routes : RouteTable
  upstreams : UpstreamMap

def Dispatch.fromConfig (platform : Platform) (files : Files) (now : Nat)
    (cfg : Config) : Dispatch :=
  ⟨RouteTable.fromConfig platform cfg,
    UpstreamMap.fromConfig platform files now cfg⟩

inductive DispatchError where
  | noRoute
  | upstreamNotRegistered (name : String)
  | upstream (source : ForwardError)
  | timeout (total : Duration)
  deriving DecidableEq, Repr

def Request.host (req : Request) : Option String := do
  (← req.parts.headers.get HOST).toStr

structure HandleRun (B : Type) where
  /-- `none` is a panic. -/
  result : Option (Except DispatchError (Response (TimedBody B)))
  sent : List Outbound
  dispatch : Dispatch

namespace Dispatch

variable {B : Type}

def selectRoute (d : Dispatch) (req : Request) : Except DispatchError Route :=
  match d.routes.find req.host req.parts.uri.path req.parts.headers with
  | some route => .ok route
  | none => .error .noRoute

def selectUpstream (d : Dispatch) (route : Route) :
    Except DispatchError Upstream :=
  match d.upstreams.get route.upstream with
  | some upstream => .ok upstream
  | none => .error (.upstreamNotRegistered route.upstream)

/-- The total timeout drops the forwarding future at an `await`. -/
def underTimeout (total : Duration) :
    Awaited (Option (Except ForwardError (Response (TimedBody B)))) →
    Option (Except DispatchError (Response (TimedBody B)))
  | .ready (some (.ok resp)) => some (.ok resp)
  | .ready (some (.error e)) => some (.error (.upstream e))
  | .ready none => none
  | .dropped => some (.error (.timeout total))

def handle (platform : Platform) (d : Dispatch) (req : Request)
    (script : Script B) : HandleRun B :=
  match d.selectRoute req with
  | .error e => ⟨some (.error e), [], d⟩
  | .ok route =>
      match d.selectUpstream route with
      | .error e => ⟨some (.error e), [], d⟩
      | .ok upstream =>
          let run := upstream.forward platform req route.readTimeout script
          { result := underTimeout route.totalTimeout run.result
            sent := run.sent
            dispatch :=
              { d with
                upstreams := d.upstreams.insert route.upstream run.upstream } }

end Dispatch

/-! ## The map built from a document -/

section Lookup

variable {platform : Platform} {files : Files} {now : Nat}

theorem UpstreamMap.get_register (m : UpstreamMap) (u : Config.Upstream)
    (name : String) :
    (m.register platform files now u).get name =
      if u.name = name then
        (Upstream.fromConfig platform files now u).toOption.or (m.get name)
      else m.get name := by
  unfold register
  cases Upstream.fromConfig platform files now u with
  | error e => simp [Except.toOption]
  | ok upstream => simp [get_insert, Except.toOption]

-- With distinct names only one turn of the loop touches a given key.
private theorem get_foldl_register (upstreams : List Config.Upstream)
    (hnodup : (upstreams.map Config.Upstream.name).Nodup) (m : UpstreamMap)
    (name : String) :
    (upstreams.foldl (UpstreamMap.register platform files now) m).get name =
      ((upstreams.find? (·.name = name)).bind fun u =>
        (Upstream.fromConfig platform files now u).toOption).or (m.get name) := by
  induction upstreams generalizing m with
  | nil => simp
  | cons u upstreams ih =>
      simp only [List.map_cons, List.nodup_cons, List.mem_map, not_exists,
        not_and] at hnodup
      rw [List.foldl_cons, ih hnodup.2, UpstreamMap.get_register,
        List.find?_cons]
      by_cases hname : u.name = name
      · have hrest : upstreams.find? (·.name = name) = none := by
          rw [List.find?_eq_none]
          intro v hv
          simpa [← hname] using hnodup.1 v hv
        simp [hname, hrest]
      · simp [hname]

theorem UpstreamMap.get_fromConfig {cfg : Config}
    (hnodup : (cfg.upstreams.map Config.Upstream.name).Nodup)
    (name : String) :
    (fromConfig platform files now cfg).get name =
      (cfg.upstreams.find? (·.name = name)).bind fun u =>
        (Upstream.fromConfig platform files now u).toOption := by
  rw [fromConfig, get_foldl_register _ hnodup, get_empty, Option.or_none]

theorem Upstream.fromConfig_eq_ok {u : Config.Upstream} {pool : Upstream}
    (h : Upstream.fromConfig platform files now u = .ok pool) :
    pool.addrs = u.addrs ∧ pool.next = 0 ∧
      pool.breakers = u.addrs.map fun _ => Breaker.new {} now := by
  simp only [Upstream.fromConfig, Upstream.withTls, bind_eq_ok] at h
  obtain ⟨client, -, hpool⟩ := h
  cases hpool
  exact ⟨rfl, rfl, rfl⟩

def Config.Upstream.Loads (platform : Platform) (files : Files)
    (u : Config.Upstream) : Prop :=
  ∃ client, buildHttpsConnector platform files
    (u.tls.map UpstreamTlsOptions.fromConfig) = .ok client

theorem Upstream.fromConfig_eq_none_iff (u : Config.Upstream) :
    (fromConfig platform files now u).toOption = none ↔
      ¬ u.Loads platform files := by
  simp only [fromConfig, withTls, Config.Upstream.Loads]
  cases buildHttpsConnector platform files
      (u.tls.map UpstreamTlsOptions.fromConfig) with
  | error e => simp [bind, Except.bind, Except.toOption]
  | ok client => simp [bind, Except.bind, pure, Except.pure, Except.toOption]

end Lookup

/-! ## Running dispatchers -/

namespace Dispatch

variable {B : Type} {platform : Platform} {files : Files} {now : Nat}
  {cfg : Config} {opts : ValidationOptions}

/-- Built from `cfg`, with its counters and breakers in any state. -/
structure Over (platform : Platform) (files : Files) (now : Nat)
    (cfg : Config) (d : Dispatch) : Prop where
  routes : d.routes = RouteTable.fromConfig platform cfg
  upstreams : ∀ name, (d.upstreams.get name).map Upstream.fixed =
    ((UpstreamMap.fromConfig platform files now cfg).get name).map
      Upstream.fixed

theorem over_fromConfig :
    Over platform files now cfg (fromConfig platform files now cfg) :=
  ⟨rfl, fun _ => rfl⟩

theorem selectRoute_eq_ok {d : Dispatch} {req : Request} {route : Route} :
    d.selectRoute req = .ok route ↔
      d.routes.find req.host req.parts.uri.path req.parts.headers =
        some route := by
  unfold selectRoute
  split <;> simp_all

theorem selectUpstream_eq_ok {d : Dispatch} {route : Route}
    {pool : Upstream} :
    d.selectUpstream route = .ok pool ↔
      d.upstreams.get route.upstream = some pool := by
  unfold selectUpstream
  split <;> simp_all

theorem handle_of_selected {d : Dispatch} {req : Request}
    {route : Route} {pool : Upstream} (hroute : d.selectRoute req = .ok route)
    (hpool : d.upstreams.get route.upstream = some pool) (script : Script B) :
    d.handle platform req script =
      { result := underTimeout route.totalTimeout
          (pool.forward platform req route.readTimeout script).result
        sent := (pool.forward platform req route.readTimeout script).sent
        dispatch :=
          { d with
            upstreams := d.upstreams.insert route.upstream
              (pool.forward platform req route.readTimeout script).upstream } } := by
  rw [handle, hroute]
  simp only [selectUpstream_eq_ok.mpr hpool]

theorem handle_dispatch (platform : Platform) (d : Dispatch) (req : Request)
    (script : Script B) :
    (d.handle platform req script).dispatch = d ∨
    ∃ name pool pool', d.upstreams.get name = some pool ∧
      pool'.fixed = pool.fixed ∧
      (d.handle platform req script).dispatch =
        { d with upstreams := d.upstreams.insert name pool' } := by
  unfold handle
  split
  · exact .inl rfl
  · rename_i route _
    split
    · exact .inl rfl
    · rename_i pool hpool
      exact .inr ⟨route.upstream, pool, _, selectUpstream_eq_ok.mp hpool,
        Upstream.fixed_forward .., rfl⟩

theorem Over.insert {d : Dispatch} (hd : d.Over platform files now cfg)
    {name : String} {pool pool' : Upstream}
    (hget : d.upstreams.get name = some pool)
    (hfixed : pool'.fixed = pool.fixed) :
    Over platform files now cfg
      { d with upstreams := d.upstreams.insert name pool' } := by
  refine ⟨hd.routes, fun name' => ?_⟩
  rw [← hd.upstreams name', UpstreamMap.get_insert]
  by_cases hname : name = name'
  · simp [← hname, hget, hfixed]
  · simp [hname]

theorem Over.handle {d : Dispatch} (hd : d.Over platform files now cfg)
    (req : Request) (script : Script B) :
    (d.handle platform req script).dispatch.Over platform files now cfg := by
  obtain heq | ⟨name, pool, pool', hget, hfixed, heq⟩ :=
    handle_dispatch platform d req script
  · rw [heq]
    exact hd
  · rw [heq]
    exact hd.insert hget hfixed

theorem Over.built {d : Dispatch} (hd : d.Over platform files now cfg)
    (hwf : cfg.WellFormed opts) {name : String} {pool : Upstream}
    (hget : d.upstreams.get name = some pool) :
    ∃ u ∈ cfg.upstreams, u.name = name ∧ ∃ built,
      Upstream.fromConfig platform files now u = .ok built ∧
        pool.fixed = built.fixed := by
  have hmap := hd.upstreams name
  rw [hget, Option.map_some, eq_comm, Option.map_eq_some_iff] at hmap
  obtain ⟨built, hbuilt, hfixed⟩ := hmap
  rw [UpstreamMap.get_fromConfig hwf.names_nodup, Option.bind_eq_some_iff]
    at hbuilt
  obtain ⟨u, hfind, hu⟩ := hbuilt
  refine ⟨u, List.mem_of_find?_eq_some hfind, ?_, built, ?_, hfixed.symm⟩
  · simpa using List.find?_some hfind
  · cases hload : Upstream.fromConfig platform files now u with
    | error e => simp [hload, Except.toOption] at hu
    | ok pool' =>
        rw [hload] at hu
        exact congrArg _ (Option.some.inj hu)

theorem Over.pool {d : Dispatch} (hd : d.Over platform files now cfg)
    (hwf : cfg.WellFormed opts) {name : String} {pool : Upstream}
    (hget : d.upstreams.get name = some pool) :
    ∃ u ∈ cfg.upstreams, u.name = name ∧ pool.addrs = u.addrs := by
  obtain ⟨u, hu, hname, built, hok, hfixed⟩ := hd.built hwf hget
  refine ⟨u, hu, hname, ?_⟩
  rw [← (Upstream.fromConfig_eq_ok hok).1]
  exact congrArg Upstream.Fixed.addrs hfixed

theorem Over.route_upstream {d : Dispatch}
    (hd : d.Over platform files now cfg) (hwf : cfg.WellFormed opts)
    {req : Request} {route : Route} (hroute : d.selectRoute req = .ok route) :
    ∃ u ∈ cfg.upstreams, u.name = route.upstream := by
  rw [selectRoute_eq_ok, hd.routes] at hroute
  obtain ⟨r, hr, rfl⟩ :=
    List.mem_map.mp (RouteTable.ofRoutes_find_sound hroute).1
  exact List.mem_map.mp (hwf.routes r hr).upstream_mem

/-! ## No request leaves its pool -/

/--
In any state of counters and breakers, all attempts of a request go to one
address of the upstream its route names, and the URI rewrite never fails.
-/
theorem handle_stays_in_pool (platform : Platform)
    (hfrom : Upstream.Assembles platform) (cfg : Config)
    (opts : ValidationOptions) (hcfg : checkLogic cfg opts = .ok ())
    (files : Files) (now : Nat) (d : Dispatch)
    (hd : d.Over platform files now cfg) (req : Request)
    (script : Script B) :
    (∀ route, d.selectRoute req = .ok route →
      ∃ u ∈ cfg.upstreams, u.name = route.upstream ∧ ∃ addr ∈ u.addrs,
        ∀ out ∈ (d.handle platform req script).sent,
          out.parts.uri.parts.authority = some addr.authority) ∧
    (∀ e, d.selectRoute req = .error e →
      (d.handle platform req script).sent = []) ∧
    ∀ name pool, d.upstreams.get name = some pool →
      ¬ pool.RewriteFails platform req script.pickedAt := by
  have hwf := (checkLogic_ok_iff cfg opts).mp hcfg
  refine ⟨?_, ?_, fun _ pool _ => Upstream.not_rewriteFails hfrom pool req _⟩
  · intro route hroute
    cases hpool : d.selectUpstream route with
    | error e =>
        obtain ⟨u, hu, hname⟩ := hd.route_upstream hwf hroute
        obtain ⟨addr, haddr⟩ :=
          List.exists_mem_of_ne_nil _ (hwf.upstreams u hu).addrs_ne_nil
        exact ⟨u, hu, hname, addr, haddr, by simp [handle, hroute, hpool]⟩
    | ok pool =>
        obtain ⟨u, hu, hname, haddrs⟩ :=
          hd.pool hwf (selectUpstream_eq_ok.mp hpool)
        have hne : pool.addrs ≠ [] :=
          haddrs ▸ (hwf.upstreams u hu).addrs_ne_nil
        obtain ⟨addr, haddr, hsent⟩ := Upstream.forward_sent hfrom pool hne
          req route.readTimeout script
        refine ⟨u, hu, hname, addr, haddrs ▸ haddr, ?_⟩
        simpa only [handle, hroute, hpool] using hsent
  · intro e herror
    simp [handle, herror]

end Dispatch

namespace Sample

def request : Request where
  parts :=
    { method := "GET"
      uri := ⟨⟨some .http, some admin.authority, some ⟨"/v1/items", none⟩⟩⟩
      version := .http11
      headers := [] }
  body := ⟨some 0, .ok []⟩

def answering : Script Unit where
  pickedAt := 0
  settledAt := 0
  bodyStalls := false
  attempts _ := .ready (.response ⟨200, [], ()⟩)

def noFiles : Files := ⟨fun _ => false, fun _ => none⟩

theorem selectRoute_document (upstreams : UpstreamMap) :
    Dispatch.selectRoute ⟨RouteTable.fromConfig .concrete document, upstreams⟩
      request = .ok (Route.fromConfig .concrete prefixAndRegex) := by
  rw [Dispatch.selectRoute_eq_ok, RouteTable.fromConfig,
    RouteTable.ofRoutes_find]
  rfl

def pool : Upstream where
  client := none
  connectTimeout := some api.connectTimeout
  retry := {}
  addrs := [backend]
  authorities := [backend.authority]
  next := 0
  breakers := [Breaker.new {} 0]
  authorities_eq := rfl
  length_breakers := rfl

theorem get_pool {cfg : Config} (hupstreams : cfg.upstreams = [api]) :
    (UpstreamMap.fromConfig .concrete noFiles 0 cfg).get "api" = some pool := by
  rw [UpstreamMap.get_fromConfig (by rw [hupstreams]; decide), hupstreams]
  rfl

end Sample

namespace Dispatch

theorem handle_stays_in_pool_sample :
    let d := fromConfig .concrete Sample.noFiles 0 Sample.document
    (d.handle .concrete Sample.request Sample.answering).sent.length = 1 ∧
    ∃ u ∈ Sample.document.upstreams, u.name = "api" ∧ ∃ addr ∈ u.addrs,
      ∀ out ∈ (d.handle .concrete Sample.request Sample.answering).sent,
        out.parts.uri.parts.authority = some addr.authority := by
  constructor
  · have hpool : UpstreamMap.get (UpstreamMap.fromConfig .concrete
        Sample.noFiles 0 Sample.document) "api" =
        (Upstream.fromConfig .concrete Sample.noFiles 0 Sample.api).toOption :=
      UpstreamMap.get_fromConfig (by decide) "api"
    simp only [handle, fromConfig, Sample.selectRoute_document,
      selectUpstream, Route.fromConfig, Sample.prefixAndRegex, hpool]
    rfl
  · exact (handle_stays_in_pool .concrete (fun _ _ _ => rfl) Sample.document
      {} (by decide) Sample.noFiles 0 _ over_fromConfig Sample.request
      Sample.answering).1 _ (Sample.selectRoute_document _)

/-! ## When a route's upstream is registered -/

variable {B : Type}

theorem underTimeout_ne_upstreamNotRegistered (total : Duration)
    (result : Awaited (Option (Except ForwardError (Response (TimedBody B)))))
    (name : String) :
    underTimeout total result ≠ some (.error (.upstreamNotRegistered name)) := by
  unfold underTimeout
  split <;> simp

theorem handle_eq_upstreamNotRegistered_iff (platform : Platform)
    (d : Dispatch) (req : Request) (script : Script B) (name : String) :
    (d.handle platform req script).result =
        some (.error (.upstreamNotRegistered name)) ↔
      ∃ route, d.selectRoute req = .ok route ∧ route.upstream = name ∧
        d.upstreams.get name = none := by
  cases hroute : d.selectRoute req with
  | error e =>
      have hne : e ≠ .upstreamNotRegistered name := by
        rintro rfl
        unfold selectRoute at hroute
        split at hroute <;> cases hroute
      simpa [handle, hroute] using hne
  | ok route =>
      cases hget : d.upstreams.get route.upstream with
      | none =>
          have hpool : d.selectUpstream route =
              .error (.upstreamNotRegistered route.upstream) := by
            simp [selectUpstream, hget]
          simp only [handle, hroute, hpool, Option.some.injEq,
            Except.error.injEq, DispatchError.upstreamNotRegistered.injEq,
            Except.ok.injEq]
          constructor
          · rintro rfl
            exact ⟨route, rfl, rfl, hget⟩
          · rintro ⟨_, rfl, hname, -⟩
            exact hname
      | some pool =>
          have hpool := selectUpstream_eq_ok.mpr hget
          simp only [handle, hroute, hpool,
            underTimeout_ne_upstreamNotRegistered, false_iff, Except.ok.injEq]
          rintro ⟨_, rfl, rfl, hnone⟩
          rw [hget] at hnone
          cases hnone

theorem find_upstream {cfg : Config} {opts : ValidationOptions}
    (hwf : cfg.WellFormed opts) {u : Config.Upstream}
    (hu : u ∈ cfg.upstreams) :
    cfg.upstreams.find? (·.name = u.name) = some u := by
  obtain ⟨v, hv⟩ : ∃ v, cfg.upstreams.find? (·.name = u.name) = some v := by
    rw [← Option.isSome_iff_exists, List.find?_isSome]
    exact ⟨u, hu, by simp⟩
  have hname : v.name = u.name := by simpa using List.find?_some hv
  rw [hv, List.inj_on_of_nodup_map hwf.names_nodup
    (List.mem_of_find?_eq_some hv) hu hname]

theorem Over.get_eq_none_iff {platform : Platform} {files : Files} {now : Nat}
    {cfg : Config} {opts : ValidationOptions} {d : Dispatch}
    (hd : d.Over platform files now cfg) (hwf : cfg.WellFormed opts)
    {u : Config.Upstream} (hu : u ∈ cfg.upstreams) :
    d.upstreams.get u.name = none ↔ ¬ u.Loads platform files := by
  have hmap := hd.upstreams u.name
  rw [UpstreamMap.get_fromConfig hwf.names_nodup, find_upstream hwf hu,
    Option.bind_some] at hmap
  rw [← Upstream.fromConfig_eq_none_iff, ← Option.map_eq_none_iff, hmap,
    Option.map_eq_none_iff]

/--
`UpstreamNotRegistered` is avoided exactly by the requests whose route, the
one a plain scan of the declarations selects, names an upstream that loads.
-/
theorem upstream_registered_iff (platform : Platform) (files : Files)
    (now : Nat) (cfg : Config) (opts : ValidationOptions)
    (hcfg : check opts files.isFile cfg = .ok ()) (d : Dispatch)
    (hd : d.Over platform files now cfg) (req : Request) (script : Script B) :
    (∀ name, (d.handle platform req script).result ≠
        some (.error (.upstreamNotRegistered name))) ↔
      ∀ route, IsFirstLeast Route.rank
          (·.isCandidate req.host req.parts.uri.path req.parts.headers)
          (cfg.routes.map (Route.fromConfig platform)) route →
        ∀ u ∈ cfg.upstreams, u.name = route.upstream →
          u.Loads platform files := by
  have hwf := ((check_ok_iff opts files.isFile cfg).mp hcfg).1
  simp only [ne_eq, handle_eq_upstreamNotRegistered_iff,
    ← RouteTable.ofRoutes_find_eq_some_iff, selectRoute_eq_ok, hd.routes,
    RouteTable.fromConfig, not_exists, not_and]
  constructor
  · intro h route hroute u hu hname
    by_contra hload
    exact h _ route hroute rfl (hname ▸ (hd.get_eq_none_iff hwf hu).mpr hload)
  · rintro h _ route hroute rfl hnone
    have hselect : d.selectRoute req = .ok route := by
      rw [selectRoute_eq_ok, hd.routes]
      exact hroute
    obtain ⟨u, hu, hname⟩ := hd.route_upstream hwf hselect
    exact (hd.get_eq_none_iff hwf hu).mp (hname ▸ hnone)
      (h route hroute u hu hname)

end Dispatch

namespace Sample

def pinned : Config.Upstream :=
  { api with tls := some { ca := some "/etc/conduit/ca.pem" } }

def pinnedDocument : Config := { document with upstreams := [pinned] }

end Sample

namespace Dispatch

theorem missing_ca_leaves_route_unregistered :
    check {} Sample.noFiles.isFile Sample.pinnedDocument = .ok () ∧
    ((fromConfig .concrete Sample.noFiles 0 Sample.pinnedDocument).handle
      .concrete Sample.request Sample.answering).result =
        some (.error (.upstreamNotRegistered "api")) := by
  refine ⟨by decide, ?_⟩
  rw [handle_eq_upstreamNotRegistered_iff]
  refine ⟨_, Sample.selectRoute_document _, rfl, ?_⟩
  exact UpstreamMap.get_fromConfig (by decide) "api"

theorem upstream_registered_iff_sample :
    check {} Sample.noFiles.isFile Sample.document = .ok () ∧
    ∀ name, ((fromConfig .concrete Sample.noFiles 0 Sample.document).handle
      .concrete Sample.request Sample.answering).result ≠
        some (.error (.upstreamNotRegistered name)) := by
  refine ⟨by decide, (upstream_registered_iff .concrete Sample.noFiles 0
    Sample.document {} (by decide) _ over_fromConfig Sample.request
    Sample.answering).mpr ?_⟩
  intro route _ u hu _
  obtain rfl : u = Sample.api := List.mem_singleton.mp hu
  exact ⟨none, rfl⟩

end Dispatch

end Conduit
