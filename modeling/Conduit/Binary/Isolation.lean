import Conduit.Binary.Health
import Conduit.Binary.Shards
import Conduit.Upstream.Traffic
import Mathlib.Algebra.Order.BigOperators.Group.Finset

/-!
# Pools that share nothing

A dispatcher keeps one pool for each upstream, and the dispatchers share none.
A run of the process therefore falls apart into runs of its pools: whatever is
done to the others can be left out.  What holds of a pool by itself, such as
the bound on the requests of a dead backend, holds of it in the process.
-/

namespace Conduit

open Foundation

namespace Health

variable {start : Start} {slot : Slot} {name : String} {s s' t : State} {a : Action}

/-! ## What a step does to a pool -/

def State.pool (s : State) (slot : Slot) (name : String) : Option Upstream :=
  (s.bundle.get slot).bind (·.upstreams.get name)

theorem State.pool_eq_some_iff {pool : Upstream} :
    s.pool slot name = some pool ↔
      ∃ d, s.bundle.get slot = some d ∧ d.upstreams.get name = some pool :=
  Option.bind_eq_some_iff

theorem State.pool_updatePool {f : Upstream → Upstream}
    (h : s.updatePool slot name f = some s') :
    s'.pool slot name = (s.pool slot name).map f := by
  obtain ⟨d, pool, hd, hpool, rfl⟩ := State.updatePool_eq_some_iff.mp h
  unfold State.pool
  rw [Start.DispatchBundle.get_set, if_pos rfl, hd, Option.map_some, Option.bind_some,
    Option.bind_some, UpstreamMap.get_insert, if_pos rfl, hpool, Option.map_some]

theorem State.pool_updatePool_of_ne {slot' : Slot} {name' : String} {f : Upstream → Upstream}
    (hne : ¬ (slot' = slot ∧ name' = name)) (h : s.updatePool slot' name' f = some s') :
    s'.pool slot name = s.pool slot name := by
  obtain ⟨d, pool, hd, hpool, rfl⟩ := State.updatePool_eq_some_iff.mp h
  unfold State.pool
  rw [Start.DispatchBundle.get_set]
  by_cases hslot : slot' = slot
  · subst hslot
    have hname : name' ≠ name := fun heq => hne ⟨rfl, heq⟩
    rw [if_pos rfl, hd, Option.map_some, Option.bind_some, Option.bind_some,
      UpstreamMap.get_insert, if_neg hname]
  · rw [if_neg hslot]

theorem State.updatePool_frame {f : Upstream → Upstream}
    (h : s.updatePool slot name f = some s') :
    s'.now = s.now ∧ s'.flights = s.flights ∧ s'.counters = s.counters ∧ s'.due = s.due := by
  obtain ⟨d, pool, -, -, rfl⟩ := State.updatePool_eq_some_iff.mp h
  exact ⟨rfl, rfl, rfl, rfl⟩

theorem Built.selectRoute (hs : Built start s) {d : Dispatch} (hd : s.bundle.get slot = some d)
    (req : Request) : d.selectRoute req = start.buildDispatch.selectRoute req := by
  have hroutes : d.routes = start.buildDispatch.routes := (hs slot d hd).routes
  unfold Dispatch.selectRoute
  rw [hroutes]

theorem State.probe_eq_some_iff {idx : Nat} {healthy : Bool} :
    s.probe start name idx healthy = some s' ↔
      ∃ probe mid, start.healthProbes.find? (·.upstream = name) = some probe ∧
        idx < probe.addrs.length ∧ s.due name idx ≤ s.now ∧
        s.updatePool .primary name
          (·.record idx ((s.counters name idx).record probe.cfg healthy).2 s.now) = some mid ∧
        s' = { mid with
          counters := Function.update s.counters name
            (Function.update (s.counters name) idx
              ((s.counters name idx).record probe.cfg healthy).1)
          due := Function.update s.due name
            (Function.update (s.due name) idx (s.now + probe.cfg.interval.nanos)) } := by
  simp only [State.probe, Option.bind_eq_bind, Option.bind_eq_some_iff]
  constructor
  · rintro ⟨probe, hfind, h⟩
    split at h
    · rename_i hdue
      obtain ⟨mid, hmid, hs'⟩ := Option.bind_eq_some_iff.mp h
      exact ⟨probe, mid, hfind, hdue.1, hdue.2, hmid, (Option.some.inj hs').symm⟩
    · cases h
  · rintro ⟨probe, mid, hfind, hidx, hdue, hmid, rfl⟩
    refine ⟨probe, hfind, ?_⟩
    rw [if_pos ⟨hidx, hdue⟩]
    exact Option.bind_eq_some_iff.mpr ⟨mid, hmid, rfl⟩

theorem Built.request_eq_some_iff (hs : Built start s) {plane : Plane} {req : Request} :
    s.request start plane req = some s' ↔
      ∃ route pool mid, start.serves plane = true ∧
        start.buildDispatch.selectRoute req = .ok route ∧
        s.pool plane.slot route.upstream = some pool ∧
        s.updatePool plane.slot route.upstream (·.advance start.platform) = some mid ∧
        s' = { mid with
          flights := launch plane route.upstream s.flights
            (pool.pickAddr start.platform s.now) } := by
  unfold State.request
  constructor
  · intro h
    split at h
    · rename_i hserves
      simp only [Option.bind_eq_bind, Option.bind_eq_some_iff] at h
      obtain ⟨d, hd, route, hroute, pool, hpool, mid, hmid, hs'⟩ := h
      rw [hs.selectRoute hd] at hroute
      exact ⟨route, pool, mid, hserves, toOption_eq_some_iff.mp hroute,
        State.pool_eq_some_iff.mpr
          ⟨d, hd, Dispatch.selectUpstream_eq_ok.mp (toOption_eq_some_iff.mp hpool)⟩,
        hmid, (Option.some.inj hs').symm⟩
    · cases h
  · rintro ⟨route, pool, mid, hserves, hroute, hpool, hmid, rfl⟩
    obtain ⟨d, hd, hget⟩ := State.pool_eq_some_iff.mp hpool
    rw [← hs.selectRoute hd] at hroute
    rw [if_pos hserves]
    simp [hd, hroute, Dispatch.selectUpstream_eq_ok.mpr hget, Except.toOption, hmid]

theorem State.settle_eq_some_iff {flight : Flight} {outcome : Option Bool} :
    s.settle flight outcome = some s' ↔
      ∃ mid, flight ∈ s.flights ∧
        s.updatePool flight.plane.slot flight.upstream
          (·.record flight.idx outcome s.now) = some mid ∧
        s' = { mid with flights := s.flights.erase flight } := by
  unfold State.settle
  constructor
  · intro h
    split at h
    · rename_i hmem
      obtain ⟨mid, hmid, hs'⟩ := Option.bind_eq_some_iff.mp h
      exact ⟨mid, hmem, hmid, (Option.some.inj hs').symm⟩
    · cases h
  · rintro ⟨mid, hmem, hmid, rfl⟩
    rw [if_pos hmem]
    exact Option.bind_eq_some_iff.mpr ⟨mid, hmid, rfl⟩

/-! ## One pool by itself -/

def mine (slot : Slot) (name : String) (f : Flight) : Bool :=
  f.plane.slot = slot ∧ f.upstream = name

/-- The actions on one pool; the clock is everyone's. -/
def own (start : Start) (slot : Slot) (name : String) : Action → Bool
  | .wait _ => true
  | .probe name' _ _ => slot = .primary ∧ name' = name
  | .request plane req => plane.slot = slot ∧
      (start.buildDispatch.selectRoute req).toOption.map Route.upstream = some name
  | .settle flight _ => mine slot name flight

/-- The second state is the first as far as the pool goes, and has no other calls. -/
structure Alone (start : Start) (slot : Slot) (name : String) (s t : State) : Prop where
  built : Built start s
  built' : Built start t
  now : t.now = s.now
  pool : t.pool slot name = s.pool slot name
  flights : t.flights = s.flights.filter (mine slot name)
  probes : slot = .primary → t.counters name = s.counters name ∧ t.due name = s.due name

theorem alone_init (start : Start) (slot : Slot) (name : String) :
    Alone start slot name (init start) (init start) :=
  ⟨built_init start, built_init start, rfl, rfl, rfl, fun _ => ⟨rfl, rfl⟩⟩

theorem filter_launch_of_ne {plane : Plane} {name' : String}
    (h : ¬ (plane.slot = slot ∧ name' = name)) (flights : List Flight) {n : Nat}
    (picked : Option (SocketAddr × Fin n)) :
    (launch plane name' flights picked).filter (mine slot name) =
      flights.filter (mine slot name) := by
  cases picked with
  | none => rfl
  | some p =>
      apply List.filter_cons_of_neg
      simpa [mine] using h

theorem filter_launch {plane : Plane} {name' : String}
    (h : plane.slot = slot ∧ name' = name) (flights : List Flight) {n : Nat}
    (picked : Option (SocketAddr × Fin n)) :
    (launch plane name' flights picked).filter (mine slot name) =
      launch plane name' (flights.filter (mine slot name)) picked := by
  cases picked with
  | none => rfl
  | some p =>
      apply List.filter_cons_of_pos
      simpa [mine] using h

def launched (flights flights' : List Flight) : List Flight :=
  flights'.take (flights'.length - flights.length)

theorem launched_launch (plane : Plane) (name : String) (flights : List Flight) {n : Nat}
    (picked : Option (SocketAddr × Fin n)) :
    launched flights (launch plane name flights picked) = launch plane name [] picked := by
  cases picked <;> simp [launched, launch]

theorem launched_of_le {flights flights' : List Flight}
    (h : flights'.length ≤ flights.length) : launched flights flights' = [] := by
  simp [launched, Nat.sub_eq_zero_of_le h]

/-- What a step keeps that is not on the pool. -/
structure Untouched (slot : Slot) (name : String) (s s' : State) : Prop where
  now : s'.now = s.now
  pool : s'.pool slot name = s.pool slot name
  flights : s'.flights.filter (mine slot name) = s.flights.filter (mine slot name)
  launched : (launched s.flights s'.flights).filter (mine slot name) = []
  probes : slot = .primary → s'.counters name = s.counters name ∧ s'.due name = s.due name

theorem untouched_of_unseen (hs : Built start s) (hown : own start slot name a = false)
    (hstep : step start s a = some s') : Untouched slot name s s' := by
  cases a with
  | wait later => cases hown
  | probe name' idx healthy =>
      have hne : ¬ (Slot.primary = slot ∧ name' = name) := fun heq =>
        of_decide_eq_false hown ⟨heq.1.symm, heq.2⟩
      obtain ⟨probe, mid, -, -, -, hmid, rfl⟩ := State.probe_eq_some_iff.mp hstep
      obtain ⟨hnow, hflights, -, -⟩ := State.updatePool_frame hmid
      have hpool := State.pool_updatePool_of_ne hne hmid
      refine ⟨hnow, hpool, congrArg _ hflights, ?_, ?_⟩
      · dsimp only
        rw [launched_of_le (Nat.le_of_eq (congrArg _ hflights)), List.filter_nil]
      · rintro rfl
        have hname : name ≠ name' := fun heq => hne ⟨rfl, heq.symm⟩
        exact ⟨Function.update_of_ne hname _ _, Function.update_of_ne hname _ _⟩
  | request plane req =>
      obtain ⟨route, pool, mid, -, hroute, -, hmid, rfl⟩ := hs.request_eq_some_iff.mp hstep
      have hne : ¬ (plane.slot = slot ∧ route.upstream = name) := by
        simpa [own, hroute, Except.toOption] using hown
      obtain ⟨hnow, -, hcounters, hdue⟩ := State.updatePool_frame hmid
      have hpool := State.pool_updatePool_of_ne hne hmid
      refine ⟨hnow, hpool, filter_launch_of_ne hne _ _, ?_, ?_⟩
      · dsimp only
        rw [launched_launch, filter_launch_of_ne hne, List.filter_nil]
      · exact fun _ => ⟨congrFun hcounters name, congrFun hdue name⟩
  | settle flight outcome =>
      have hne : ¬ (flight.plane.slot = slot ∧ flight.upstream = name) := by
        simpa [own, mine] using hown
      obtain ⟨mid, -, hmid, rfl⟩ := State.settle_eq_some_iff.mp hstep
      obtain ⟨hnow, -, hcounters, hdue⟩ := State.updatePool_frame hmid
      have hpool := State.pool_updatePool_of_ne hne hmid
      refine ⟨hnow, hpool, ?_, ?_, ?_⟩
      · have hnotmem : flight ∉ s.flights.filter (mine slot name) := by simp [mine, hne]
        rw [← List.erase_filter, List.erase_of_not_mem hnotmem]
      · rw [launched_of_le (List.erase_sublist.length_le), List.filter_nil]
      · exact fun _ => ⟨congrFun hcounters name, congrFun hdue name⟩

theorem Alone.unseen (h : Alone start slot name s t) (hown : own start slot name a = false)
    (hstep : step start s a = some s') : Alone start slot name s' t := by
  have huntouched := untouched_of_unseen h.built hown hstep
  refine ⟨h.built.step hstep, h.built', h.now.trans huntouched.now.symm,
    h.pool.trans huntouched.pool.symm, h.flights.trans huntouched.flights.symm, ?_⟩
  intro hslot
  rw [(huntouched.probes hslot).1, (huntouched.probes hslot).2]
  exact h.probes hslot

theorem Alone.updatePool (h : Alone start slot name s t) {mid : State} {f : Upstream → Upstream}
    (hmid : s.updatePool slot name f = some mid) :
    ∃ mid', t.updatePool slot name f = some mid' ∧ mid'.now = mid.now ∧
      mid'.pool slot name = mid.pool slot name := by
  obtain ⟨d, pool, hd, hpool, -⟩ := State.updatePool_eq_some_iff.mp hmid
  have hsome := State.pool_eq_some_iff.mpr ⟨d, hd, hpool⟩
  obtain ⟨d', hd', hpool'⟩ := State.pool_eq_some_iff.mp (h.pool.trans hsome)
  have hmid' : t.updatePool slot name f = some _ :=
    State.updatePool_eq_some_iff.mpr ⟨d', pool, hd', hpool', rfl⟩
  refine ⟨_, hmid', ?_, ?_⟩
  · rw [(State.updatePool_frame hmid).1, ← h.now]
  · rw [State.pool_updatePool hmid, State.pool_updatePool hmid', h.pool]

theorem Alone.seen (h : Alone start slot name s t) (hown : own start slot name a = true)
    (hstep : step start s a = some s') :
    ∃ t', step start t a = some t' ∧ Alone start slot name s' t' := by
  have hbuilt := h.built.step hstep
  cases a with
  | wait later =>
      simp only [step] at hstep
      split at hstep
      · rename_i hle
        cases hstep
        have hlater : step start t (.wait later) = some { t with now := later } := by
          simp only [step, h.now, hle, if_true]
        exact ⟨_, hlater, hbuilt, h.built'.step hlater, rfl, h.pool, h.flights, h.probes⟩
      · cases hstep
  | probe name' idx healthy =>
      obtain ⟨rfl, rfl⟩ := of_decide_eq_true hown
      obtain ⟨hcounters, hdue⟩ := h.probes rfl
      obtain ⟨probe, mid, hfind, hidx, hready, hmid, rfl⟩ :=
        State.probe_eq_some_iff.mp hstep
      obtain ⟨mid', hmid', hnow, hpool⟩ := h.updatePool hmid
      have hturn : step start t (.probe name' idx healthy) = some _ :=
        State.probe_eq_some_iff.mpr ⟨probe, mid', hfind, hidx,
          by rw [hdue, h.now]; exact hready, by rw [hcounters, h.now]; exact hmid', rfl⟩
      refine ⟨_, hturn, hbuilt, h.built'.step hturn, hnow, hpool, ?_, ?_⟩
      · obtain ⟨-, hflights, -, -⟩ := State.updatePool_frame hmid
        obtain ⟨-, hflights', -, -⟩ := State.updatePool_frame hmid'
        rw [hflights, hflights', h.flights]
      · intro _
        simp [hcounters, hdue, h.now]
  | request plane req =>
      obtain ⟨route, pool, mid, hserves, hroute, hpool, hmid, rfl⟩ :=
        h.built.request_eq_some_iff.mp hstep
      have heq : plane.slot = slot ∧ route.upstream = name := by
        simpa [own, hroute, Except.toOption] using hown
      obtain ⟨rfl, rfl⟩ := heq
      obtain ⟨mid', hmid', hnow, hafter⟩ := h.updatePool hmid
      have hturn : step start t (.request plane req) = some _ :=
        h.built'.request_eq_some_iff.mpr
          ⟨route, pool, mid', hserves, hroute, h.pool.trans hpool, hmid', rfl⟩
      refine ⟨_, hturn, hbuilt, h.built'.step hturn, hnow, hafter, ?_, ?_⟩
      · rw [filter_launch ⟨rfl, rfl⟩, h.flights, h.now]
      · obtain ⟨-, -, hcounters, hdue⟩ := State.updatePool_frame hmid
        obtain ⟨-, -, hcounters', hdue'⟩ := State.updatePool_frame hmid'
        simpa only [hcounters, hdue, hcounters', hdue'] using h.probes
  | settle flight outcome =>
      have heq : flight.plane.slot = slot ∧ flight.upstream = name := by
        simpa [own, mine] using hown
      obtain ⟨mid, hmem, hmid, rfl⟩ := State.settle_eq_some_iff.mp hstep
      have hmem' : flight ∈ t.flights := by
        rw [h.flights]
        exact List.mem_filter.mpr ⟨hmem, hown⟩
      obtain ⟨rfl, rfl⟩ := heq
      obtain ⟨mid', hmid', hnow, hafter⟩ := h.updatePool hmid
      have hturn : step start t (.settle flight outcome) = some _ :=
        State.settle_eq_some_iff.mpr ⟨mid', hmem', by rw [h.now]; exact hmid', rfl⟩
      refine ⟨_, hturn, hbuilt, h.built'.step hturn, hnow, hafter, ?_, ?_⟩
      · rw [← List.erase_filter, h.flights]
      · obtain ⟨-, -, hcounters, hdue⟩ := State.updatePool_frame hmid
        obtain ⟨-, -, hcounters', hdue'⟩ := State.updatePool_frame hmid'
        simpa only [hcounters, hdue, hcounters', hdue'] using h.probes

/--
Every action on another dispatcher, on another upstream or, for a worker's
pool, by the prober can be struck from a run.  What remains is a run, and it
leaves the pool, its calls in flight and the clock as the whole run does.
-/
theorem pools_run_alone (start : Start) (slot : Slot) (name : String) (actions : List Action)
    (s : State) (h : execute (step start) (fun _ _ => True) (init start) actions = some s) :
    ∃ t, execute (step start) (fun _ _ => True) (init start)
        (actions.filter (own start slot name)) = some t ∧
      t.now = s.now ∧ t.pool slot name = s.pool slot name ∧
      t.flights = s.flights.filter (mine slot name) := by
  have hunseen : ∀ s t a s', Alone start slot name s t → own start slot name a = false →
      step start s a = some s' → Alone start slot name s' t :=
    fun _ _ _ _ halone => halone.unseen
  have hseen : ∀ s t a s', Alone start slot name s t → own start slot name a = true →
      step start s a = some s' → ∃ t', step start t a = some t' ∧ Alone start slot name s' t' :=
    fun _ _ _ _ halone => halone.seen
  obtain ⟨t, hrun, halone⟩ := execute_filter hunseen hseen (alone_init start slot name) h
  exact ⟨t, hrun, halone.now, halone.pool, halone.flights⟩

theorem exists_first_request {u : Config.Upstream} (hu : u ∈ start.cfg.upstreams)
    (hload : u.Loads start.platform start.files) (hserves : start.serves (.http 0) = true)
    (hd : s.bundle.get (.httpWorker 0) = some start.buildDispatch) {req : Request}
    {route : Route} (hroute : start.buildDispatch.selectRoute req = .ok route)
    (hname : route.upstream = u.name) :
    ∃ s', step start s (.request (.http 0) req) = some s' ∧ s'.now = s.now ∧
      s'.flights = ⟨.http 0, u.name, 0⟩ :: s.flights := by
  obtain ⟨pool, hget, hpool⟩ := Start.exists_pool hu hload
  have hselect : start.buildDispatch.selectUpstream route = .ok pool :=
    Dispatch.selectUpstream_eq_ok.mpr (hname ▸ hget)
  obtain ⟨addr, j, hpick, hj⟩ := pickAddr_fresh hpool
    (start.wellFormed.upstreams u hu).addrs_ne_nil s.now
  obtain ⟨s', -, hstep, hnow, hflights, -, -⟩ := step_request hserves hd hroute hselect
  refine ⟨s', hstep, hnow, ?_⟩
  rw [hflights, hpick, launch, hname, hj]

theorem pools_run_alone_sample :
    ∃ s, execute (step Sample.probedPlaintext) (fun _ _ => True) (init Sample.probedPlaintext)
        [.probe "api" 0 false, .request (.http 0) Sample.request] = some s ∧
      ∃ t, execute (step Sample.probedPlaintext) (fun _ _ => True)
          (init Sample.probedPlaintext) [.request (.http 0) Sample.request] = some t ∧
        t.pool (.httpWorker 0) "api" = s.pool (.httpWorker 0) "api" := by
  have hu : Sample.probedApi ∈ Sample.probedPlaintext.cfg.upstreams := List.mem_singleton_self _
  have hload : Sample.probedApi.Loads Sample.probedPlaintext.platform
      Sample.probedPlaintext.files := ⟨none, rfl⟩
  have hroute : Sample.probedPlaintext.buildDispatch.selectRoute Sample.request =
      .ok (Route.fromConfig .concrete Sample.prefixAndRegex) := Sample.selectRoute_document _
  obtain ⟨pool, hget, -⟩ := Start.exists_pool hu hload
  obtain ⟨probe, hfind, haddrs, -⟩ := Start.healthProbes_find hu hload rfl
  have hidx : 0 < probe.addrs.length := by
    rw [haddrs]
    decide
  obtain ⟨s₁, hprobe, -, -, -, hworkers, -⟩ := step_probe (s := init Sample.probedPlaintext)
    hfind hidx (Nat.le_refl _) hget false
  have hd : s₁.bundle.get (.httpWorker 0) = some Sample.probedPlaintext.buildDispatch := by
    simp only [Start.DispatchBundle.get, hworkers]
    rfl
  obtain ⟨s₂, hrequest, -, -⟩ := exists_first_request hu hload rfl hd hroute rfl
  have hrun : execute (step Sample.probedPlaintext) (fun _ _ => True)
      (init Sample.probedPlaintext)
      [.probe "api" 0 false, .request (.http 0) Sample.request] = some s₂ := by
    change step Sample.probedPlaintext _ (.probe "api" 0 false) = some s₁ at hprobe
    simp [execute, hprobe, hrequest]
  obtain ⟨t, ht, -, hpool, -⟩ := pools_run_alone Sample.probedPlaintext (.httpWorker 0) "api"
    _ s₂ hrun
  have hfilter : [Action.probe "api" 0 false, .request (.http 0) Sample.request].filter
      (own Sample.probedPlaintext (.httpWorker 0) "api") =
      [.request (.http 0) Sample.request] := by
    simp [own, hroute, Except.toOption, Plane.slot, Route.fromConfig, Sample.prefixAndRegex]
  rw [hfilter] at ht
  exact ⟨s₂, hrun, t, ht, hpool⟩

/-! ## A plaintext pool as traffic -/

/-- The process with every call that has been given a backend so far. -/
structure Logged where
  state : State
  sent : List Flight := []

namespace Logged

def step (start : Start) (l : Logged) (a : Action) : Option Logged :=
  (Health.step start l.state a).map fun s' => ⟨s', launched l.state.flights s'.flights ++ l.sent⟩

def init (start : Start) : Logged where
  state := Health.init start

end Logged

variable {k : Nat} {l l' : Logged} {traffic : Traffic}

/-- What one pool of one plaintext dispatcher sees of the process. -/
structure Carries (start : Start) (k : Nat) (name : String) (l : Logged)
    (traffic : Traffic) : Prop where
  built : Built start l.state
  now : traffic.now = l.state.now
  pool : l.state.pool (.httpWorker k) name = some traffic.pool
  inflight : traffic.inflight =
    (l.state.flights.filter (mine (.httpWorker k) name)).map Flight.idx
  picks : traffic.picks = (l.sent.filter (mine (.httpWorker k) name)).map Flight.idx

theorem mine_http_iff {f : Flight} :
    mine (.httpWorker k) name f = true ↔ f.plane = .http k ∧ f.upstream = name := by
  obtain ⟨plane, upstream, idx⟩ := f
  cases plane <;> simp [mine, Plane.slot]

theorem count_idx (k : Nat) (name : String) (i : Nat) (flights : List Flight) :
    ((flights.filter (mine (.httpWorker k) name)).map Flight.idx).count i =
      flights.count ⟨.http k, name, i⟩ := by
  rw [List.count, List.count, List.countP_map, List.countP_filter]
  apply List.countP_congr
  rintro ⟨plane, upstream, idx⟩ -
  simp only [Function.comp_apply, Bool.and_eq_true, beq_iff_eq, mine_http_iff,
    Flight.mk.injEq]
  tauto

theorem map_idx_launch (k : Nat) (name : String) (flights : List Flight) {n : Nat}
    (picked : Option (SocketAddr × Fin n)) :
    ((launch (.http k) name flights picked).filter (mine (.httpWorker k) name)).map
        Flight.idx =
      (picked.map fun p => p.2.val).toList ++
        (flights.filter (mine (.httpWorker k) name)).map Flight.idx := by
  cases picked <;> simp [launch, mine, Plane.slot]

theorem record_eq_observe (u : Upstream) (idx : Nat) (outcome : Option Bool) (now : Nat) :
    u.record idx outcome now = u.observe (outcome.map (idx, ·)) now := by
  cases outcome <;> rfl

theorem Carries.wait (h : Carries start k name l traffic) {later : Nat}
    (hstep : l.step start (.wait later) = some l') :
    ∃ elapsed, Carries start k name l' { traffic with now := traffic.now + elapsed } := by
  obtain ⟨s', hs', rfl⟩ := Option.map_eq_some_iff.mp hstep
  have hbuilt := h.built.step hs'
  simp only [Health.step] at hs'
  split at hs'
  · rename_i hle
    cases hs'
    refine ⟨later - l.state.now, hbuilt, ?_, h.pool, h.inflight, ?_⟩
    · rw [h.now]
      exact Nat.add_sub_cancel' hle
    · dsimp only
      rw [h.picks, launched_of_le (Nat.le_refl _), List.nil_append]
  · cases hs'

theorem Carries.unseen (h : Carries start k name l traffic)
    (hown : own start (.httpWorker k) name a = false)
    (hstep : l.step start a = some l') : Carries start k name l' traffic := by
  obtain ⟨s', hs', rfl⟩ := Option.map_eq_some_iff.mp hstep
  have huntouched := untouched_of_unseen h.built hown hs'
  refine ⟨h.built.step hs', h.now.trans huntouched.now.symm, huntouched.pool.trans h.pool, ?_, ?_⟩
  · rw [huntouched.flights, h.inflight]
  · rw [List.filter_append, huntouched.launched, List.nil_append, h.picks]

theorem Carries.request (h : Carries start k name l traffic) {req : Request}
    (hown : own start (.httpWorker k) name (.request (.http k) req) = true)
    (hstep : l.step start (.request (.http k) req) = some l') :
    ∃ traffic', traffic.step start.platform .pick = some traffic' ∧
      Carries start k name l' traffic' := by
  obtain ⟨s', hs', rfl⟩ := Option.map_eq_some_iff.mp hstep
  have hbuilt := h.built.step hs'
  obtain ⟨route, pool, mid, -, hroute, hpool, hmid, rfl⟩ := h.built.request_eq_some_iff.mp hs'
  have hname : route.upstream = name := by
    simpa [own, hroute, Except.toOption, Plane.slot] using hown
  subst hname
  obtain rfl : traffic.pool = pool := Option.some.inj (h.pool.symm.trans hpool)
  refine ⟨_, rfl, hbuilt, ?_, ?_, ?_, ?_⟩
  · rw [h.now]
    exact (State.updatePool_frame hmid).1.symm
  · have hafter := State.pool_updatePool hmid
    rw [show Plane.slot (.http k) = .httpWorker k from rfl, h.pool] at hafter
    exact hafter
  · dsimp only
    rw [map_idx_launch, h.inflight, Traffic.picked, h.now]
  · dsimp only
    rw [launched_launch, List.filter_append, List.map_append, map_idx_launch, h.picks,
      Traffic.picked, h.now, List.filter_nil, List.map_nil, List.append_nil]

theorem Carries.settle (h : Carries start k name l traffic) {flight : Flight}
    {outcome : Option Bool} (hown : mine (.httpWorker k) name flight = true)
    (hstep : l.step start (.settle flight outcome) = some l') :
    ∃ call traffic', traffic.inflight[call]? = some flight.idx ∧
      traffic.step start.platform (.settle call outcome) = some traffic' ∧
      Carries start k name l' traffic' := by
  obtain ⟨s', hs', rfl⟩ := Option.map_eq_some_iff.mp hstep
  have hbuilt := h.built.step hs'
  obtain ⟨mid, hmem, hmid, rfl⟩ := State.settle_eq_some_iff.mp hs'
  obtain ⟨hplane, rfl⟩ := mine_http_iff.mp hown
  have hmem' : flight ∈ l.state.flights.filter (mine (.httpWorker k) flight.upstream) :=
    List.mem_filter.mpr ⟨hmem, hown⟩
  have hcall : traffic.inflight[(l.state.flights.filter
      (mine (.httpWorker k) flight.upstream)).idxOf flight]? = some flight.idx := by
    rw [h.inflight, List.getElem?_map, List.getElem?_idxOf hmem', Option.map_some]
  refine ⟨_, _, hcall, by rw [Traffic.step, hcall, Option.map_some], hbuilt, ?_, ?_, ?_, ?_⟩
  · dsimp only
    rw [h.now, (State.updatePool_frame hmid).1]
  · have hafter := State.pool_updatePool hmid
    rw [hplane, show Plane.slot (.http k) = .httpWorker k from rfl, h.pool,
      Option.map_some, record_eq_observe, ← h.now] at hafter
    exact hafter
  · dsimp only
    rw [h.inflight, ← List.erase_filter, List.erase_eq_eraseIdx_of_idxOf rfl, List.eraseIdx_map]
  · dsimp only
    rw [launched_of_le List.erase_sublist.length_le, List.nil_append, h.picks]

/-! ## A backend that is down -/

/--
The plaintext calls on backend `i` of an upstream all fail, and no plaintext
dispatcher has more than `limit` of them in flight at a time.  HTTPS, HTTP/3
and the prober are free.
-/
structure Outage (start : Start) (name : String) (i limit : Nat) (s : State) (a : Action) :
    Prop where
  fails : ∀ k outcome, a = .settle ⟨.http k, name, i⟩ outcome → outcome = some false
  limited : ∀ s', step start s a = some s' → ∀ k, s'.flights.count ⟨.http k, name, i⟩ ≤ limit

variable {i limit : Nat}

theorem Carries.step (h : Carries start k name l traffic)
    (hout : Outage start name i limit l.state a) (hstep : l.step start a = some l') :
    Carries start k name l' traffic ∨
    ∃ b traffic', traffic.step start.platform b = some traffic' ∧
      Traffic.Dead start.platform i limit traffic b ∧
      Carries start k name l' traffic' := by
  cases hown : own start (.httpWorker k) name a with
  | false => exact .inl (h.unseen hown hstep)
  | true =>
      right
      cases a with
      | wait later =>
          obtain ⟨elapsed, hcarries⟩ := h.wait hstep
          exact ⟨.tick elapsed, _, rfl, ⟨by simp, by simp⟩, hcarries⟩
      | probe name' idx healthy => simp [own] at hown
      | request plane req =>
          obtain rfl : plane = .http k := by
            cases plane <;> simp_all [own, Plane.slot]
          obtain ⟨traffic', hpick, hcarries⟩ := h.request hown hstep
          refine ⟨.pick, traffic', hpick, ⟨by simp, fun _ hmem => ?_⟩, hcarries⟩
          obtain ⟨s', hs', rfl⟩ := Option.map_eq_some_iff.mp hstep
          have hcount := hout.limited s' hs' k
          rw [← count_idx, ← hcarries.inflight] at hcount
          cases hpick
          rw [List.count_append] at hcount
          have hone := List.count_pos_iff.mpr hmem
          omega
      | settle flight outcome =>
          obtain ⟨call, traffic', hcall, hsettle, hcarries⟩ := h.settle hown hstep
          refine ⟨.settle call outcome, traffic', hsettle,
            ⟨fun call' outcome' heq hi => ?_, by simp⟩, hcarries⟩
          cases heq
          obtain ⟨plane, upstream, idx⟩ := flight
          obtain ⟨rfl, rfl⟩ := mine_http_iff.mp hown
          obtain rfl : idx = i := Option.some.inj (hcall.symm.trans hi)
          exact hout.fails k outcome rfl

end Health

end Conduit
