import Conduit.Upstream.Pool

/-!
# Active health probes

A probe shares the breaker array of one pool.  Each of its tasks counts
consecutive outcomes of one backend and calls that backend's breaker once the
configured threshold is met.
-/

namespace Conduit

structure ProbeConfig where
  path : String
  interval : Duration
  timeout : Duration
  unhealthyThreshold : UInt32
  healthyThreshold : UInt32
  tls : Option UpstreamTlsOptions
  deriving DecidableEq, Repr

def ProbeConfig.fromConfig (u : Config.Upstream) (hc : Config.HealthCheck) :
    ProbeConfig :=
  { path := hc.path
    interval := hc.interval
    timeout := hc.timeout
    unhealthyThreshold := hc.unhealthyThreshold
    healthyThreshold := hc.healthyThreshold
    tls := u.tls.map UpstreamTlsOptions.fromConfig }

structure Probe where
  upstream : String
  addrs : List SocketAddr
  cfg : ProbeConfig
  client : Option ClientConfig
  scheme : Scheme

def Probe.new (platform : Platform) (files : Files) (upstream : String)
    (addrs : List SocketAddr) (cfg : ProbeConfig) :
    Except TlsLoadError Probe := do
  let client ← buildHttpsConnector platform files cfg.tls
  return {
    upstream := upstream
    addrs := addrs
    cfg := cfg
    client := client
    scheme := if cfg.tls.isSome then .https else .http }

structure ProbeCounters where
  consecutiveFail : Nat := 0
  consecutiveOk : Nat := 0
  deriving DecidableEq, Repr

/-- One turn of `run_one`: the counters, and the call it makes on the breaker. -/
def ProbeCounters.record (cfg : ProbeConfig) (c : ProbeCounters)
    (healthy : Bool) : ProbeCounters × Option Bool :=
  if healthy then
    let ok := saturatingSucc32 c.consecutiveOk
    (⟨0, ok⟩, if cfg.healthyThreshold.toNat ≤ ok then some true else none)
  else
    let fail := saturatingSucc32 c.consecutiveFail
    (⟨fail, 0⟩,
      if cfg.unhealthyThreshold.toNat ≤ fail then some false else none)

theorem saturatingSucc32_min (n : Nat) :
    saturatingSucc32 (min n u32Max) = min (n + 1) u32Max := by
  unfold saturatingSucc32
  generalize u32Max = m
  omega

theorem toNat_le_min_u32Max (threshold : UInt32) (n : Nat) :
    threshold.toNat ≤ min n u32Max ↔ threshold.toNat ≤ n := by
  have hmax : threshold.toNat ≤ u32Max := Nat.le_sub_one_of_lt threshold.toNat_lt
  rw [Nat.le_min, and_iff_left hmax]

theorem ProbeCounters.record_failure (cfg : ProbeConfig) {c : ProbeCounters}
    {n : Nat} (hfail : c.consecutiveFail = min n u32Max) :
    c.record cfg false = (⟨min (n + 1) u32Max, 0⟩,
      if cfg.unhealthyThreshold.toNat ≤ n + 1 then some false else none) := by
  simp only [record, Bool.false_eq_true, if_false, hfail, saturatingSucc32_min,
    toNat_le_min_u32Max]

theorem ProbeCounters.record_success (cfg : ProbeConfig) {c : ProbeCounters}
    {n : Nat} (hok : c.consecutiveOk = min n u32Max) :
    c.record cfg true = (⟨0, min (n + 1) u32Max⟩,
      if cfg.healthyThreshold.toNat ≤ n + 1 then some true else none) := by
  simp only [record, if_true, hok, saturatingSucc32_min, toNat_le_min_u32Max]

end Conduit
