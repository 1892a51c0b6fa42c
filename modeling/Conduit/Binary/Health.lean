import Conduit.Binary.Start
import Conduit.Foundation.Transition

/-!
# Active probes and the planes

The prober feeds the breakers of the primary dispatcher.  HTTPS and HTTP/3
requests read these breakers; a plaintext request reads those of the
dispatcher that `setup` gave its handler.  The file runs probes and requests
against one another, in any order and at any instants that the probes' pace
allows.
-/

namespace Conduit

open Foundation

/-! ## Planes and their dispatchers -/

inductive Plane where
  /-- A plaintext connection whose handler has dispatcher `idx` of the workers'. -/
  | http (idx : Nat)
  | https
  | h3
  deriving DecidableEq

inductive Slot where
  | primary
  | httpWorker (idx : Nat)
  deriving DecidableEq

def Plane.slot : Plane → Slot
  | .http idx => .httpWorker idx
  | .https => .primary
  | .h3 => .primary

namespace Start

def serves (start : Start) : Plane → Bool
  | .http idx => start.servesHttp && idx < start.resolveWorkers
  | .https => start.servesHttps
  | .h3 => start.servesH3

namespace DispatchBundle

def get (bundle : DispatchBundle) : Slot → Option Dispatch
  | .primary => some bundle.primary
  | .httpWorker idx => bundle.httpWorkers[idx]?

def set (bundle : DispatchBundle) (slot : Slot) (d : Dispatch) : DispatchBundle :=
  match slot with
  | .primary => { bundle with primary := d }
  | .httpWorker idx => { bundle with httpWorkers := bundle.httpWorkers.set idx d }

theorem get_set (bundle : DispatchBundle) (slot slot' : Slot) (d : Dispatch) :
    (bundle.set slot d).get slot' =
      if slot = slot' then (bundle.get slot).map fun _ => d
      else bundle.get slot' := by
  cases slot with
  | primary => cases slot' <;> simp [get, set]
  | httpWorker idx =>
      cases slot' with
      | primary => simp [get, set]
      | httpWorker idx' =>
          simp only [get, set, Slot.httpWorker.injEq, List.getElem?_set]
          by_cases heq : idx = idx'
          · by_cases hlt : idx < bundle.httpWorkers.length <;>
              simp [← heq, hlt]
          · simp [heq]

end DispatchBundle

end Start

/-! ## Probes against requests -/

def Upstream.record (u : Upstream) (idx : Nat) (outcome : Option Bool)
    (now : Nat) : Upstream :=
  match outcome with
  | none => u
  | some success => u.observeBreakerOutcome (some idx) success now

@[simp] theorem Upstream.fixed_record (u : Upstream) (idx : Nat)
    (outcome : Option Bool) (now : Nat) :
    (u.record idx outcome now).fixed = u.fixed := by
  cases outcome <;> simp [record]

namespace Health

/-- A request between `pick_addr` and its outcome. -/
structure Flight where
  plane : Plane
  upstream : String
  idx : Nat
  deriving DecidableEq

structure State where
  now : Nat
  bundle : Start.DispatchBundle
  counters : String → Nat → ProbeCounters
  due : String → Nat → Nat
  flights : List Flight

inductive Action where
  | wait (later : Nat)
  | probe (upstream : String) (idx : Nat) (healthy : Bool)
  | request (plane : Plane) (req : Request)
  | settle (flight : Flight) (outcome : Option Bool)

def init (start : Start) : State where
  now := start.now
  bundle := start.buildDispatchBundle
  counters _ _ := {}
  due _ _ := start.now
  flights := []

def State.updatePool (s : State) (slot : Slot) (name : String)
    (f : Upstream → Upstream) : Option State := do
  let d ← s.bundle.get slot
  let pool ← d.upstreams.get name
  return { s with
    bundle := s.bundle.set slot
      { d with upstreams := d.upstreams.insert name (f pool) } }

def State.probe (start : Start) (s : State) (name : String) (idx : Nat)
    (healthy : Bool) : Option State := do
  let probe ← start.healthProbes.find? (·.upstream = name)
  if idx < probe.addrs.length ∧ s.due name idx ≤ s.now then
    let turn := (s.counters name idx).record probe.cfg healthy
    let s' ← s.updatePool .primary name (·.record idx turn.2 s.now)
    return { s' with
      counters := Function.update s.counters name
        (Function.update (s.counters name) idx turn.1)
      due := Function.update s.due name
        (Function.update (s.due name) idx (s.now + probe.cfg.interval.nanos)) }
  else none

def launch (plane : Plane) (name : String) (flights : List Flight)
    {n : Nat} : Option (SocketAddr × Fin n) → List Flight
  | none => flights
  | some (_, i) => ⟨plane, name, i⟩ :: flights

/-- `Dispatch::handle` up to and including `pick_addr`. -/
def State.request (start : Start) (s : State) (plane : Plane) (req : Request) :
    Option State := do
  if start.serves plane then
    let d ← s.bundle.get plane.slot
    let route ← (d.selectRoute req).toOption
    let pool ← (d.selectUpstream route).toOption
    let s' ← s.updatePool plane.slot route.upstream (·.advance start.platform)
    return { s' with
      flights := launch plane route.upstream s.flights
        (pool.pickAddr start.platform s.now) }
  else none

def State.settle (s : State) (flight : Flight) (outcome : Option Bool) :
    Option State := do
  if flight ∈ s.flights then
    let s' ← s.updatePool flight.plane.slot flight.upstream
      (·.record flight.idx outcome s.now)
    return { s' with flights := s.flights.erase flight }
  else none

def step (start : Start) (s : State) : Action → Option State
  | .wait later => if s.now ≤ later then some { s with now := later } else none
  | .probe name idx healthy => s.probe start name idx healthy
  | .request plane req => s.request start plane req
  | .settle flight outcome => s.settle flight outcome

def Reached (start : Start) : State → Prop :=
  Reachable (step start) (fun _ _ => True) (init start)

/-! ## What the dispatchers keep -/

variable {start : Start} {s s' : State} {a : Action}

theorem State.updatePool_eq_some_iff {slot : Slot} {name : String}
    {f : Upstream → Upstream} :
    s.updatePool slot name f = some s' ↔
      ∃ d pool, s.bundle.get slot = some d ∧ d.upstreams.get name = some pool ∧
        s' = { s with
          bundle := s.bundle.set slot
            { d with upstreams := d.upstreams.insert name (f pool) } } := by
  simp only [updatePool, Option.bind_eq_bind, Option.bind_eq_some_iff,
    Option.pure_def, Option.some.injEq]
  constructor
  · rintro ⟨d, hd, pool, hpool, rfl⟩
    exact ⟨d, pool, hd, hpool, rfl⟩
  · rintro ⟨d, pool, hd, hpool, rfl⟩
    exact ⟨d, hd, pool, hpool, rfl⟩

theorem step_bundle (h : step start s a = some s') :
    s'.bundle = s.bundle ∨
    ∃ slot name f mid, (∀ pool : Upstream, (f pool).fixed = pool.fixed) ∧
      s.updatePool slot name f = some mid ∧ s'.bundle = mid.bundle := by
  cases a with
  | wait later =>
      simp only [step] at h
      split at h
      · cases h
        exact .inl rfl
      · cases h
  | probe name idx healthy =>
      simp only [step, State.probe, Option.bind_eq_bind,
        Option.bind_eq_some_iff] at h
      obtain ⟨probe, -, h⟩ := h
      split at h
      · obtain ⟨mid, hmid, hs'⟩ := Option.bind_eq_some_iff.mp h
        cases hs'
        exact .inr ⟨_, _, _, mid, fun pool => by simp, hmid, rfl⟩
      · cases h
  | request plane req =>
      simp only [step, State.request] at h
      split at h
      · simp only [Option.bind_eq_bind, Option.bind_eq_some_iff] at h
        obtain ⟨d, -, route, -, pool, -, mid, hmid, hs'⟩ := h
        cases hs'
        exact .inr ⟨_, _, _, mid, fun pool => by simp, hmid, rfl⟩
      · cases h
  | settle flight outcome =>
      simp only [step, State.settle] at h
      split at h
      · obtain ⟨mid, hmid, hs'⟩ := Option.bind_eq_some_iff.mp h
        cases hs'
        exact .inr ⟨_, _, _, mid, fun pool => by simp, hmid, rfl⟩
      · cases h

/-- Every dispatcher is the one built at startup, up to counters and breakers. -/
def Built (start : Start) (s : State) : Prop :=
  ∀ slot d, s.bundle.get slot = some d →
    d.Over start.platform start.files start.now start.cfg

theorem built_init (start : Start) : Built start (init start) := by
  intro slot d hd
  have heq : d = start.buildDispatch := by
    cases slot with
    | primary => exact (Option.some.inj hd).symm
    | httpWorker worker =>
        exact List.eq_of_mem_replicate (List.mem_of_getElem? hd)
  rw [heq]
  exact Dispatch.over_fromConfig

theorem Built.updatePool (hs : Built start s) {slot : Slot} {name : String}
    {f : Upstream → Upstream} (hf : ∀ pool, (f pool).fixed = pool.fixed)
    (h : s.updatePool slot name f = some s') : Built start s' := by
  obtain ⟨d, pool, hd, hpool, rfl⟩ := State.updatePool_eq_some_iff.mp h
  intro slot' d' hd'
  rw [Start.DispatchBundle.get_set] at hd'
  split at hd'
  · rw [hd, Option.map_some, Option.some.injEq] at hd'
    rw [← hd']
    exact (hs slot d hd).insert hpool (hf pool)
  · exact hs slot' d' hd'

theorem Built.step (hs : Built start s) (h : step start s a = some s') :
    Built start s' := by
  rcases step_bundle h with heq | ⟨slot, name, f, mid, hf, hmid, heq⟩
  · intro slot d hd
    exact hs slot d (heq ▸ hd)
  · intro slot' d hd
    exact hs.updatePool hf hmid slot' d (heq ▸ hd)

theorem Reached.built (h : Reached start s) : Built start s :=
  h.invariant (Built start) (built_init start) fun _ _ _ hs _ => hs.step

theorem step_probe {probe : Probe} {pool : Upstream} {name : String}
    {idx : Nat}
    (hfind : start.healthProbes.find? (·.upstream = name) = some probe)
    (hidx : idx < probe.addrs.length) (hdue : s.due name idx ≤ s.now)
    (hget : s.bundle.primary.upstreams.get name = some pool) (healthy : Bool) :
    let turn := (s.counters name idx).record probe.cfg healthy
    ∃ s', step start s (.probe name idx healthy) = some s' ∧
      s'.now = s.now ∧
      s'.due name idx = s.now + probe.cfg.interval.nanos ∧
      s'.counters name idx = turn.1 ∧
      s'.bundle.httpWorkers = s.bundle.httpWorkers ∧
      s'.bundle.primary.upstreams.get name =
        some (pool.record idx turn.2 s.now) := by
  intro turn
  obtain ⟨mid, hmid⟩ : ∃ mid, s.updatePool .primary name
      (·.record idx turn.2 s.now) = some mid :=
    ⟨_, State.updatePool_eq_some_iff.mpr ⟨_, pool, rfl, hget, rfl⟩⟩
  refine ⟨{ mid with
      counters := Function.update s.counters name
        (Function.update (s.counters name) idx turn.1)
      due := Function.update s.due name
        (Function.update (s.due name) idx
          (s.now + probe.cfg.interval.nanos)) }, ?_, ?_, ?_, ?_, ?_, ?_⟩
  · simp only [step, State.probe, hfind, Option.bind_eq_bind, Option.bind_some,
      hidx, hdue, and_self, if_true]
    rw [hmid]
    rfl
  all_goals
    obtain ⟨d, pool', hd, hpool', rfl⟩ := State.updatePool_eq_some_iff.mp hmid
    cases hd
    obtain rfl : pool = pool' := Option.some.inj (hget.symm.trans hpool')
    simp [Start.DispatchBundle.set, UpstreamMap.get_insert]

/-! ## Whole requests -/

theorem State.exists_updatePool {slot : Slot} {name : String} {d : Dispatch}
    {pool : Upstream} (hd : s.bundle.get slot = some d)
    (hpool : d.upstreams.get name = some pool) (f : Upstream → Upstream) :
    ∃ s' d', s.updatePool slot name f = some s' ∧ s'.now = s.now ∧
      s'.bundle.get slot = some d' ∧
      ∀ name', d'.upstreams.get name' =
        if name = name' then some (f pool) else d.upstreams.get name' := by
  refine ⟨_, { d with upstreams := d.upstreams.insert name (f pool) },
    State.updatePool_eq_some_iff.mpr ⟨d, pool, hd, hpool, rfl⟩, rfl, ?_,
    fun name' => d.upstreams.get_insert name name' (f pool)⟩
  simp [Start.DispatchBundle.get_set, hd]

theorem step_request {plane : Plane} (hserves : start.serves plane = true)
    {d : Dispatch} (hd : s.bundle.get plane.slot = some d) {req : Request}
    {route : Route} (hroute : d.selectRoute req = .ok route) {pool : Upstream}
    (hselect : d.selectUpstream route = .ok pool) :
    ∃ s' d', step start s (.request plane req) = some s' ∧ s'.now = s.now ∧
      s'.flights = launch plane route.upstream s.flights
        (pool.pickAddr start.platform s.now) ∧
      s'.bundle.get plane.slot = some d' ∧
      ∀ name, d'.upstreams.get name =
        if route.upstream = name then some (pool.advance start.platform)
        else d.upstreams.get name := by
  obtain ⟨mid, d', hmid, hnow, hd', hget⟩ := State.exists_updatePool hd
    (Dispatch.selectUpstream_eq_ok.mp hselect) (·.advance start.platform)
  refine ⟨{ mid with
      flights := launch plane route.upstream s.flights
        (pool.pickAddr start.platform s.now) }, d', ?_, hnow, rfl, hd', hget⟩
  simp [step, State.request, hserves, hd, hroute, hselect, Except.toOption, hmid]

theorem step_settle (start : Start) {flight : Flight}
    (hmem : flight ∈ s.flights) {d : Dispatch}
    (hd : s.bundle.get flight.plane.slot = some d) {pool : Upstream}
    (hpool : d.upstreams.get flight.upstream = some pool) (outcome : Option Bool) :
    ∃ s' d', step start s (.settle flight outcome) = some s' ∧
      s'.flights = s.flights.erase flight ∧
      s'.bundle.get flight.plane.slot = some d' ∧
      ∀ name, d'.upstreams.get name =
        if flight.upstream = name then
          some (pool.record flight.idx outcome s.now)
        else d.upstreams.get name := by
  obtain ⟨mid, d', hmid, -, hd', hget⟩ := State.exists_updatePool hd hpool
    (·.record flight.idx outcome s.now)
  refine ⟨{ mid with flights := s.flights.erase flight }, d', ?_, rfl, hd', hget⟩
  simp [step, State.settle, hmem, hmid]

theorem forward_eq_record {B : Type} (platform : Platform) {pool : Upstream}
    (hne : pool.addrs ≠ []) (req : Request) (readTimeout : Duration)
    (script : Script B) :
    (pool.pickAddr platform script.pickedAt = none →
      (pool.forward platform req readTimeout script).upstream =
        pool.advance platform) ∧
    ∀ addr i, pool.pickAddr platform script.pickedAt = some (addr, i) →
      ∃ outcome, (pool.forward platform req readTimeout script).upstream =
        (pool.advance platform).record i outcome script.settledAt := by
  have hforward := Upstream.forward_upstream platform hne req readTimeout script
  constructor
  · intro hnone
    simpa [hnone] using hforward
  · intro addr i hpick
    rcases hforward with heq | ⟨_, _, success, hpick', heq⟩
    · exact ⟨none, heq⟩
    · rw [hpick] at hpick'
      cases hpick'
      exact ⟨some success, heq⟩

theorem forward_is_run {B : Type} {plane : Plane}
    (hserves : start.serves plane = true) {d : Dispatch}
    (hd : s.bundle.get plane.slot = some d) {req : Request} {route : Route}
    (hroute : d.selectRoute req = .ok route) {pool : Upstream}
    (hselect : d.selectUpstream route = .ok pool) (hne : pool.addrs ≠ [])
    (script : Script B) (hpicked : script.pickedAt = s.now)
    (hsettled : s.now ≤ script.settledAt) :
    ∃ s' d', Reachable (step start) (fun _ _ => True) s s' ∧
      s'.flights = s.flights ∧ s'.bundle.get plane.slot = some d' ∧
      ∀ name, d'.upstreams.get name =
        if route.upstream = name then
          some (pool.forward start.platform req route.readTimeout script).upstream
        else d.upstreams.get name := by
  obtain ⟨hrejected, hsent⟩ := forward_eq_record start.platform hne req
    route.readTimeout script
  rw [hpicked] at hrejected hsent
  obtain ⟨s₁, d₁, hstep₁, hnow₁, hflights₁, hd₁, hget₁⟩ :=
    step_request hserves hd hroute hselect
  have hreach₁ : Reachable (step start) (fun _ _ => True) s s₁ :=
    Reachable.refl.tail trivial hstep₁
  cases hpick : pool.pickAddr start.platform s.now with
  | none =>
      rw [hpick] at hflights₁
      refine ⟨s₁, d₁, hreach₁, hflights₁, hd₁, fun name => ?_⟩
      rw [hget₁, hrejected hpick]
  | some picked =>
      obtain ⟨addr, i⟩ := picked
      obtain ⟨outcome, houtcome⟩ := hsent addr i hpick
      have hwait : step start s₁ (.wait script.settledAt) =
          some { s₁ with now := script.settledAt } := by
        simp only [step, hnow₁, hsettled, if_true]
      rw [hpick] at hflights₁
      have hmem : ⟨plane, route.upstream, i⟩ ∈ s₁.flights := by
        simp [hflights₁, launch]
      obtain ⟨s₂, d₂, hstep₂, hflights₂, hd₂, hget₂⟩ :=
        step_settle (s := { s₁ with now := script.settledAt }) start hmem hd₁
          (by rw [hget₁, if_pos rfl]) outcome
      refine ⟨s₂, d₂, (hreach₁.tail trivial hwait).tail trivial hstep₂, ?_,
        hd₂, fun name => ?_⟩
      · rw [hflights₂]
        simp [hflights₁, launch]
      · rw [hget₂, hget₁, houtcome]
        split <;> rfl

theorem handle_is_run {B : Type} (hs : Built start s) {plane : Plane}
    (hserves : start.serves plane = true) {d : Dispatch}
    (hd : s.bundle.get plane.slot = some d) (req : Request) (script : Script B)
    (hpicked : script.pickedAt = s.now) (hsettled : s.now ≤ script.settledAt) :
    ∃ s' d', Reachable (step start) (fun _ _ => True) s s' ∧
      s'.flights = s.flights ∧ s'.bundle.get plane.slot = some d' ∧
      ∀ name, d'.upstreams.get name =
        (d.handle start.platform req script).dispatch.upstreams.get name := by
  cases hroute : d.selectRoute req with
  | error e => exact ⟨s, d, .refl, rfl, hd, by simp [Dispatch.handle, hroute]⟩
  | ok route =>
      cases hselect : d.selectUpstream route with
      | error e =>
          exact ⟨s, d, .refl, rfl, hd,
            by simp [Dispatch.handle, hroute, hselect]⟩
      | ok pool =>
          have hne : pool.addrs ≠ [] := by
            obtain ⟨u, hu, -, haddrs⟩ := (hs _ d hd).pool start.wellFormed
              (Dispatch.selectUpstream_eq_ok.mp hselect)
            rw [haddrs]
            exact (start.wellFormed.upstreams u hu).addrs_ne_nil
          simp only [Dispatch.handle, hroute, hselect, UpstreamMap.get_insert]
          exact forward_is_run hserves hd hroute hselect hne script hpicked
            hsettled

/-! ## Steering -/

/--
While a breaker that the prober feeds for an upstream is open, no plane's
`pick_addr` returns its backend.
-/
def Steered (start : Start) (name : String) (s : State) : Prop :=
  ∀ fed, s.bundle.primary.upstreams.get name = some fed →
    ∀ i, (fed.breaker i).snapshot ((fed.breaker i).nowMs s.now) = .open →
      ∀ plane, start.serves plane = true →
        ∀ d, s.bundle.get plane.slot = some d →
          ∀ pool, d.upstreams.get name = some pool →
            ∀ addr j, pool.pickAddr start.platform s.now = some (addr, j) →
              j.val ≠ i.val

theorem pickAddr_ne_of_open {platform : Platform} {pool : Upstream} {now : Nat}
    {i j : Fin pool.addrs.length} {addr : SocketAddr}
    (hopen : (pool.breaker i).snapshot ((pool.breaker i).nowMs now) = .open)
    (hpick : pool.pickAddr platform now = some (addr, j)) : j ≠ i := by
  rintro rfl
  have hallow := (Upstream.pickAddr_eq_some hpick).2
  rw [← Breaker.check_eq_reject_iff] at hopen
  simp [Upstream.allows, hopen] at hallow

theorem steered_of_listenHttp_nil (hnil : start.cfg.server.listenHttp = [])
    (name : String) (s : State) : Steered start name s := by
  intro fed hfed i hopen plane hserves d hd pool hpool addr j hpick
  have hslot : plane.slot = .primary := by
    cases plane with
    | http worker => simp [Start.serves, Start.servesHttp, hnil] at hserves
    | https => rfl
    | h3 => rfl
  rw [hslot] at hd
  cases hd
  rw [hfed] at hpool
  cases hpool
  exact fun heq => pickAddr_ne_of_open hopen hpick (Fin.ext heq)

theorem Reached.steered_of_not_loads (h : Reached start s)
    {u : Config.Upstream} (hu : u ∈ start.cfg.upstreams)
    (hload : ¬ u.Loads start.platform start.files) :
    Steered start u.name s := by
  intro fed hfed
  have hnone := ((h.built .primary _ rfl).get_eq_none_iff start.wellFormed hu).mpr hload
  rw [hfed] at hnone
  cases hnone

/-! ## A backend that fails its probes -/

theorem pickAddr_fresh {u : Config.Upstream} {pool : Upstream}
    (hpool : Upstream.fromConfig start.platform start.files start.now u =
      .ok pool) (hne : u.addrs ≠ []) (now : Nat) :
    ∃ addr j, pool.pickAddr start.platform now = some (addr, j) ∧ j.val = 0 := by
  obtain ⟨haddrs, hnext, hbreakers⟩ := Upstream.fromConfig_eq_ok hpool
  have hpos : 0 < pool.addrs.length := by
    rw [haddrs]
    exact List.length_pos_of_ne_nil hne
  have hfresh : pool.breaker (pool.slot start.platform hpos 0) =
      Breaker.new {} start.now := by
    have hget := pool.getElem?_breakers (pool.slot start.platform hpos 0)
    rw [hbreakers] at hget
    obtain ⟨_, -, heq⟩ := List.mem_map.mp (List.mem_of_getElem? hget)
    exact heq.symm
  refine ⟨_, _, pool.pickAddr_first start.platform now hpos ?_, ?_⟩
  · simp [Upstream.allows, hfresh, Breaker.check, Breaker.new]
  · simp [Upstream.slot, hnext]

/--
After `n` failed probes in a row on the first backend, one interval apart.
Those from the threshold on have been counted by its breaker; no plaintext
worker has seen anything.
-/
structure Failing (start : Start) (u : Config.Upstream)
    (hc : Config.HealthCheck) (n : Nat) (s : State) : Prop where
  reached : Reached start s
  now : s.now = start.now + (n - 1) * hc.interval.nanos
  due : s.due u.name 0 = start.now + n * hc.interval.nanos
  counter : (s.counters u.name 0).consecutiveFail = min n u32Max
  workers : s.bundle.httpWorkers = start.buildDispatchBundle.httpWorkers
  fed : ∃ pool b, s.bundle.primary.upstreams.get u.name = some pool ∧
    pool.addrs = u.addrs ∧ pool.breakers[0]? = some b ∧
    b.threshold = 5 ∧ b.cooldownMs = 30000 ∧ b.anchor = start.now ∧
    b.Encodes ⟨n + 1 - max hc.unhealthyThreshold.toNat 1, b.nowMs s.now⟩

section Failing

variable {u : Config.Upstream} (hu : u ∈ start.cfg.upstreams)
  (hload : u.Loads start.platform start.files) {hc : Config.HealthCheck}
include hu hload

theorem failing_init : Failing start u hc 0 (init start) := by
  obtain ⟨pool, hget, hpool⟩ := Start.exists_pool hu hload
  obtain ⟨haddrs, -, hbreakers⟩ := Upstream.fromConfig_eq_ok hpool
  obtain ⟨addr, addrs, hcons⟩ := List.exists_cons_of_ne_nil
    (start.wellFormed.upstreams u hu).addrs_ne_nil
  refine ⟨.refl, ?_, ?_, rfl, rfl, pool, Breaker.new {} start.now, hget,
    haddrs, ?_, rfl, rfl, rfl, ?_⟩
  · simp [init]
  · simp [init]
  · simp [hbreakers, hcons]
  · have hzero : 0 + 1 - max hc.unhealthyThreshold.toNat 1 = 0 := by omega
    rw [hzero]
    exact ⟨fun _ => rfl, fun _ hle => by simp [Breaker.new] at hle⟩

omit hu hload in
theorem record_failed_probe {pool : Upstream} {b : Breaker} {n U : Nat}
    (now : Nat) {last : Nat} (hb : pool.breakers[0]? = some b)
    (hthreshold : b.threshold = 5) (hn : n < max U 1 + 4)
    (henc : b.Encodes ⟨n + 1 - max U 1, last⟩) :
    ∃ b', (pool.record 0 (if U ≤ n + 1 then some false else none)
        now).breakers[0]? = some b' ∧
      b'.threshold = b.threshold ∧ b'.cooldownMs = b.cooldownMs ∧
      b'.anchor = b.anchor ∧
      b'.Encodes ⟨n + 1 + 1 - max U 1, b'.nowMs now⟩ := by
  by_cases hcall : U ≤ n + 1
  · simp only [hcall, if_true, Upstream.record]
    refine ⟨_, Upstream.observeBreakerOutcome_failure hb now, by simp, by simp,
      by simp, ?_⟩
    have hcount : n + 1 + 1 - max U 1 = n + 1 - max U 1 + 1 := by omega
    have hclock : (b.onFailure (b.nowMs now)).nowMs now = b.nowMs now := by
      simp [Breaker.nowMs]
    rw [hcount, hclock]
    exact henc.onFailure (b.nowMs now) (by simp only; omega)
  · simp only [hcall, if_false, Upstream.record]
    have hcount : n + 1 + 1 - max U 1 = n + 1 - max U 1 := by omega
    have hnone : n + 1 - max U 1 = 0 := by omega
    refine ⟨b, hb, rfl, rfl, rfl, ?_⟩
    rw [hcount]
    exact ⟨henc.failures, fun _ hle => by
      simp [hthreshold, hnone] at hle⟩

theorem Failing.next {n : Nat} (h : Failing start u hc n s)
    (hhealth : u.healthCheck = some hc)
    (hn : n < max hc.unhealthyThreshold.toNat 1 + 4) :
    ∃ s', Failing start u hc (n + 1) s' := by
  obtain ⟨probe, hfind, haddrs, hcfg⟩ := Start.healthProbes_find hu hload hhealth
  obtain ⟨pool, b, hget, hpool, hb, hthreshold, hcooldown, hanchor, henc⟩ := h.fed
  have hidx : 0 < probe.addrs.length := by
    rw [haddrs]
    exact List.length_pos_of_ne_nil
      (start.wellFormed.upstreams u hu).addrs_ne_nil
  have hnow : s.now ≤ start.now + n * hc.interval.nanos := by
    rw [h.now]
    exact Nat.add_le_add_left (Nat.mul_le_mul_right _ (Nat.sub_le n 1)) _
  have hwait : step start s (.wait (start.now + n * hc.interval.nanos)) =
      some { s with now := start.now + n * hc.interval.nanos } := by
    simp only [step, hnow, if_true]
  obtain ⟨s', hstep, hnow', hdue', hcounter', hworkers', hget'⟩ :=
    step_probe (s := { s with now := start.now + n * hc.interval.nanos })
      hfind hidx h.due.le hget false
  rw [ProbeCounters.record_failure probe.cfg h.counter, hcfg] at hcounter' hget'
  obtain ⟨b', hb', hthreshold', hcooldown', hanchor', henc'⟩ :=
    record_failed_probe (start.now + n * hc.interval.nanos) hb hthreshold hn henc
  refine ⟨s', (h.reached.tail trivial hwait).tail trivial hstep, ?_, ?_, ?_, ?_,
    _, b', hget', ?_, hb', ?_, ?_, ?_, ?_⟩
  · simpa using hnow'
  · rw [hdue', hcfg]
    simp only [ProbeConfig.fromConfig, Nat.succ_mul, Nat.add_assoc]
  · rw [hcounter']
  · rw [hworkers']
    exact h.workers
  · rw [← hpool]
    exact congrArg Upstream.Fixed.addrs (Upstream.fixed_record pool _ _ _)
  · rw [hthreshold', hthreshold]
  · rw [hcooldown', hcooldown]
  · rw [hanchor', hanchor]
  · rw [hnow']
    exact henc'

theorem exists_failing (hhealth : u.healthCheck = some hc) (n : Nat)
    (hn : n ≤ max hc.unhealthyThreshold.toNat 1 + 4) :
    ∃ s, Failing start u hc n s := by
  induction n with
  | zero => exact ⟨_, failing_init hu hload⟩
  | succ n ih =>
      obtain ⟨s, hs⟩ := ih (by omega)
      exact hs.next hu hload hhealth (by omega)

/-- The clock of a breaker has not saturated when the prober trips it. -/
def TripsInTime (hc : Config.HealthCheck) : Prop :=
  Duration.asMillis ⟨(max hc.unhealthyThreshold.toNat 1 + 3) *
    hc.interval.nanos⟩ < u64Max

theorem exists_not_steered (hhealth : u.healthCheck = some hc)
    (htrips : TripsInTime hc) (hhttp : start.cfg.server.listenHttp ≠ []) :
    ∃ s, Reached start s ∧ ¬ Steered start u.name s := by
  obtain ⟨s, hs⟩ := exists_failing hu hload hhealth _ le_rfl
  obtain ⟨fed, b, hfed, haddrs, hb, hthreshold, hcooldown, hanchor, henc⟩ := hs.fed
  have hne : u.addrs ≠ [] := (start.wellFormed.upstreams u hu).addrs_ne_nil
  have hpos : 0 < fed.addrs.length := by
    rw [haddrs]
    exact List.length_pos_of_ne_nil hne
  have hbreaker : fed.breaker ⟨0, hpos⟩ = b :=
    Option.some.inj ((fed.getElem?_breakers ⟨0, hpos⟩).symm.trans hb)
  have hclock : b.nowMs s.now < u64Max := by
    rw [Breaker.nowMs, hs.now, hanchor, Nat.add_sub_cancel_left]
    exact lt_of_le_of_lt (Nat.min_le_left _ _) htrips
  have hopen : b.snapshot (b.nowMs s.now) = .open := by
    have hfive : max hc.unhealthyThreshold.toNat 1 + 4 + 1 -
        max hc.unhealthyThreshold.toNat 1 = 5 := by omega
    rw [henc.snapshot_eq, History.state, hthreshold, hcooldown, hfive]
    simp only [show ¬ (5 = 0 ∨ 5 < 5) by decide, if_false]
    rw [if_pos (by omega)]
  -- The first worker's pool is still the one built at startup.
  obtain ⟨pool, hget, hpool⟩ := Start.exists_pool hu hload
  obtain ⟨addr, j, hpick, hj⟩ := pickAddr_fresh hpool hne s.now
  have hserves : start.serves (.http 0) = true := by
    simp [Start.serves, Start.servesHttp, hhttp, start.resolveWorkers_pos]
  have hworker : s.bundle.get (.httpWorker 0) = some start.buildDispatch := by
    simp [Start.DispatchBundle.get, hs.workers, Start.buildDispatchBundle,
      start.resolveWorkers_pos]
  refine ⟨s, hs.reached, fun hsteered => ?_⟩
  exact hsteered fed hfed ⟨0, hpos⟩ (by rw [hbreaker]; exact hopen) (.http 0)
    hserves _ hworker pool hget addr j hpick hj

end Failing

/--
Probes steer every plane on every run when no plaintext plane is configured,
or when the upstream was skipped because its files do not load.  Otherwise some
run has a worker pick a backend whose fed breaker is open, unless that takes
longer than the breakers' clock can count.
-/
theorem probes_steer_every_plane_when (start : Start) (u : Config.Upstream)
    (hu : u ∈ start.cfg.upstreams) (hc : Config.HealthCheck)
    (hhealth : u.healthCheck = some hc) :
    (start.cfg.server.listenHttp = [] ∨
        ¬ u.Loads start.platform start.files →
      ∀ s, Reached start s → Steered start u.name s) ∧
    (TripsInTime hc → (∀ s, Reached start s → Steered start u.name s) →
      start.cfg.server.listenHttp = [] ∨
        ¬ u.Loads start.platform start.files) := by
  constructor
  · rintro (hnil | hload) s hs
    · exact steered_of_listenHttp_nil hnil u.name s
    · exact hs.steered_of_not_loads hu hload
  · intro htrips hall
    by_contra hnot
    obtain ⟨hhttp, hload⟩ := not_or.mp hnot
    obtain ⟨s, hs, hsteered⟩ := exists_not_steered hu (not_not.mp hload) hhealth
      htrips hhttp
    exact hsteered (hall s hs)

end Health

namespace Sample

def probedApi : Config.Upstream :=
  { api with healthCheck := some { interval := Duration.fromSecs 1 } }

def probedPlaintext : Start :=
  { plaintext with
    cfg := { plaintext.cfg with upstreams := [probedApi] }
    valid := by decide
    listens := by decide }

def probedHttps : Start :=
  { plaintext with
    files := ⟨fun _ => true, fun _ => some [48]⟩
    cfg :=
      { document with
        server := { adminListen := admin, listenHttps := [.v4 ⟨0, 0, 0, 0⟩ 443] }
        tls := some ⟨[⟨"shop.org", "shop", "shop", none⟩]⟩
        upstreams := [probedApi] }
    valid := by decide
    listens := by decide }

end Sample

namespace Health

theorem worker_picks_tripped_backend :
    Sample.probedApi ∈ Sample.probedPlaintext.cfg.upstreams ∧
    Sample.probedApi.healthCheck.isSome ∧
    ∃ s, Reached Sample.probedPlaintext s ∧
      ¬ Steered Sample.probedPlaintext "api" s := by
  refine ⟨by decide, rfl, ?_⟩
  have hload : Sample.probedApi.Loads Sample.probedPlaintext.platform
      Sample.probedPlaintext.files := ⟨none, rfl⟩
  exact exists_not_steered (u := Sample.probedApi) (by decide) hload rfl
    (by unfold TripsInTime; decide) (by decide)

theorem probes_steer_every_plane_when_sample :
    (Sample.probedHttps.serves .https = true ∧
      ∀ s, Reached Sample.probedHttps s → Steered Sample.probedHttps Sample.probedApi.name s) ∧
    ¬ ∀ s, Reached Sample.probedPlaintext s →
      Steered Sample.probedPlaintext Sample.probedApi.name s := by
  refine ⟨⟨by decide, ?_⟩, fun hall => ?_⟩
  · exact (probes_steer_every_plane_when Sample.probedHttps Sample.probedApi
      (List.mem_singleton_self _) { interval := Duration.fromSecs 1 } rfl).1 (.inl rfl)
  · have hcond := (probes_steer_every_plane_when Sample.probedPlaintext
      Sample.probedApi (by decide) { interval := Duration.fromSecs 1 } rfl).2
      (by unfold TripsInTime; decide) hall
    rcases hcond with hnil | hload
    · exact absurd hnil (by decide)
    · exact hload ⟨none, rfl⟩

end Health

end Conduit
