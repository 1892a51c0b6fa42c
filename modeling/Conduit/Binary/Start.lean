import Conduit.Lifecycle.Dispatch
import Conduit.Transport.Tls
import Conduit.Upstream.Probe

/-!
# Starting the binary

`main` runs on a validated document with at least one listener.  It builds one
primary dispatcher for HTTPS, HTTP/3 and the prober, one more for each HTTP
worker, and spawns the threads of the planes that are configured and load.
-/

namespace Conduit

structure Start where
  platform : Platform
  files : Files
  now : Nat
  opts : ValidationOptions
  cfg : Config
  valid : check opts files.isFile cfg = .ok ()
  listens : cfg.server.listenHttp ≠ [] ∨ cfg.server.listenHttps ≠ [] ∨
    cfg.server.listenH3 ≠ []
  availableParallelism : Nat
  parallelism_pos : 0 < availableParallelism
  /-- `quic_server_config` accepts the TLS configuration. -/
  quicServerConfig : Bool
  adminSpawns : Bool

namespace Start

variable (start : Start)

def resolveWorkers : Nat :=
  match start.cfg.server.workers with
  | .auto => start.availableParallelism
  | .count n _ => n

theorem resolveWorkers_pos : 0 < start.resolveWorkers := by
  unfold resolveWorkers
  split
  · exact start.parallelism_pos
  · assumption

theorem wellFormed : start.cfg.WellFormed start.opts :=
  ((check_ok_iff _ _ _).mp start.valid).1

/-! ## Dispatchers -/

structure DispatchBundle where
  primary : Dispatch
  httpWorkers : List Dispatch

def buildDispatch : Dispatch :=
  Dispatch.fromConfig start.platform start.files start.now start.cfg

def buildDispatchBundle : DispatchBundle where
  primary := start.buildDispatch
  httpWorkers := List.replicate start.resolveWorkers start.buildDispatch

/-! ## Threads -/

def loadsServerConfig : Bool :=
  match start.cfg.tls with
  | none => false
  | some tls => (loadServerConfig start.platform start.files tls).toBool

def servesHttp : Bool := !start.cfg.server.listenHttp.isEmpty

def servesHttps : Bool :=
  !start.cfg.server.listenHttps.isEmpty && start.loadsServerConfig

def servesH3 : Bool :=
  !start.cfg.server.listenH3.isEmpty && start.loadsServerConfig &&
    start.quicServerConfig

def healthProbes : List Probe :=
  start.cfg.upstreams.filterMap fun u => do
    let hc ← u.healthCheck
    let pool ← start.buildDispatchBundle.primary.upstreams.get u.name
    (Probe.new start.platform start.files u.name pool.addrs
      (ProbeConfig.fromConfig u hc)).toOption

def probesHealth : Bool := !start.healthProbes.isEmpty

/-! ## What is built for an upstream that loads -/

variable {start} {u : Config.Upstream} (hu : u ∈ start.cfg.upstreams)
include hu

theorem buildDispatch_get :
    start.buildDispatch.upstreams.get u.name =
      (Upstream.fromConfig start.platform start.files start.now u).toOption := by
  rw [buildDispatch, Dispatch.fromConfig,
    UpstreamMap.get_fromConfig start.wellFormed.names_nodup,
    Dispatch.find_upstream start.wellFormed hu, Option.bind_some]

theorem exists_pool (hload : u.Loads start.platform start.files) :
    ∃ pool, start.buildDispatch.upstreams.get u.name = some pool ∧
      Upstream.fromConfig start.platform start.files start.now u = .ok pool := by
  cases hpool : Upstream.fromConfig start.platform start.files start.now u with
  | error e =>
      exact absurd hload ((Upstream.fromConfig_eq_none_iff u).mp
        (by rw [hpool]; rfl))
  | ok pool => exact ⟨pool, by rw [buildDispatch_get hu, hpool]; rfl, rfl⟩

theorem healthProbes_of_name {hc : Config.HealthCheck}
    (hhealth : u.healthCheck = some hc) {probe : Probe}
    (hprobe : probe ∈ start.healthProbes) (hname : probe.upstream = u.name) :
    probe.addrs = u.addrs ∧ probe.cfg = ProbeConfig.fromConfig u hc := by
  obtain ⟨v, hv, hbuilt⟩ := List.mem_filterMap.mp hprobe
  simp only [Option.bind_eq_bind, Option.bind_eq_some_iff] at hbuilt
  obtain ⟨hc', hhc', pool, hpool, hnew⟩ := hbuilt
  cases hok : Probe.new start.platform start.files v.name pool.addrs
      (ProbeConfig.fromConfig v hc') with
  | error e => simp [hok, Except.toOption] at hnew
  | ok built =>
      rw [hok] at hnew
      cases hnew
      obtain ⟨_, -, hfields⟩ := bind_eq_ok.mp hok
      cases hfields
      obtain rfl : v = u :=
        List.inj_on_of_nodup_map start.wellFormed.names_nodup hv hu hname
      obtain rfl : hc' = hc := Option.some.inj (hhc'.symm.trans hhealth)
      obtain ⟨w, hw, hname', haddrs⟩ :=
        Dispatch.over_fromConfig.pool start.wellFormed hpool
      obtain rfl : w = v :=
        List.inj_on_of_nodup_map start.wellFormed.names_nodup hw hv hname'
      exact ⟨haddrs, rfl⟩

theorem healthProbes_find (hload : u.Loads start.platform start.files)
    {hc : Config.HealthCheck} (hhealth : u.healthCheck = some hc) :
    ∃ probe, start.healthProbes.find? (·.upstream = u.name) = some probe ∧
      probe.addrs = u.addrs ∧ probe.cfg = ProbeConfig.fromConfig u hc := by
  obtain ⟨pool, hget, -⟩ := exists_pool hu hload
  have hget' : start.buildDispatchBundle.primary.upstreams.get u.name =
      some pool := hget
  obtain ⟨client, hclient⟩ := hload
  have hconnector : buildHttpsConnector start.platform start.files
      (ProbeConfig.fromConfig u hc).tls = .ok client := hclient
  obtain ⟨probe, hnew, hname⟩ : ∃ probe, Probe.new start.platform start.files
      u.name pool.addrs (ProbeConfig.fromConfig u hc) = .ok probe ∧
        probe.upstream = u.name := by
    rw [Probe.new, hconnector]
    exact ⟨_, rfl, rfl⟩
  have hmem : probe ∈ start.healthProbes := by
    refine List.mem_filterMap.mpr ⟨u, hu, ?_⟩
    simp [hhealth, hget', hnew, Except.toOption]
  obtain ⟨found, hfind⟩ : ∃ found,
      start.healthProbes.find? (·.upstream = u.name) = some found := by
    rw [← Option.isSome_iff_exists, List.find?_isSome]
    exact ⟨probe, hmem, by simp [hname]⟩
  exact ⟨found, hfind, healthProbes_of_name hu hhealth
    (List.mem_of_find?_eq_some hfind) (by simpa using List.find?_some hfind)⟩

end Start

namespace Sample

def plaintext : Start where
  platform := .concrete
  files := noFiles
  now := 0
  opts := {}
  cfg :=
    { document with
      server :=
        { adminListen := admin
          workers := .count 1 (by decide)
          listenHttp := [.v4 ⟨0, 0, 0, 0⟩ 80] } }
  valid := by decide
  listens := by decide
  availableParallelism := 4
  parallelism_pos := by decide
  quicServerConfig := true
  adminSpawns := true

end Sample

end Conduit
