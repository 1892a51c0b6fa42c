import Conduit.Foundation.Streaks
import Conduit.Lifecycle.Timeline
import Conduit.Upstream.Probe
import Mathlib.Algebra.BigOperators.Group.Finset.Basic

/-!
# The probe loop of one backend

`run_one` probes its backend, counts the outcome, calls the breaker and
sleeps.  The clock is explicit: what the backend does is a script of delays,
and `none` stands for silence for ever.
-/

namespace Conduit

open Foundation

/-! ## One probe -/

/-- The time to the response head, and from one yield of the body to the next. -/
structure ProbeScript (F : Type) where
  head : Option (Nat × Except String UInt16)
  body : Nat → Option (Nat × Yield String F)

def isSuccess (status : UInt16) : Bool := 200 ≤ status && status < 300

def Scheme.asStr : Scheme → String
  | .http => "http"
  | .https => "https"
  | .other name => name

def pathNormalized (path : String) : String :=
  if startsWith path "/" then path else "/" ++ path

def probeUri (scheme : Scheme) (addr : SocketAddr) (path : String) : String :=
  scheme.asStr ++ "://" ++ String.ofList addr.display ++ pathNormalized path

/-- The instant at which `collect` returns: at the end of the body or its error. -/
def collect {F : Type} (body : Nat → Option (Nat × Yield String F)) :
    Nat → Nat → Nat → Option Nat
  | 0, _, _ => none
  | fuel + 1, k, now =>
      match body k with
      | none => none
      | some (delay, some (.ok _)) => collect body fuel (k + 1) (now + delay)
      | some (delay, _) => some (now + delay)

/--
How long the probe takes and whether it found the backend healthy.  `parse` is
`str::parse::<http::Uri>`; a request with a parsed URI always builds.
-/
def probeOnce {F : Type} (parse : String → Option Uri) (scheme : Scheme)
    (addr : SocketAddr) (path : String) (timeout : Duration) (script : ProbeScript F)
    (fuel : Nat) : Option (Nat × Bool) :=
  match parse (probeUri scheme addr path) with
  | none => some (0, false)
  | some _ =>
      match script.head with
      | none => some (timeout.nanos, false)
      | some (delay, outcome) =>
          -- The request is polled before the timer, so a head at the deadline counts.
          if timeout.nanos < delay then some (timeout.nanos, false)
          else
            match outcome with
            | .error _ => some (delay, false)
            | .ok status =>
                -- The body is drained after `timeout` has returned.
                (collect script.body fuel 0 delay).map (·, isSuccess status)

/-! ## How long draining takes -/

section Drain

variable {F : Type} {body : Nat → Option (Nat × Yield String F)}

structure EndsAfter (body : Nat → Option (Nat × Yield String F)) (k n : Nat) : Prop where
  frames : ∀ i < n, ∃ delay frame, body (k + i) = some (delay, some (.ok frame))
  ending : ∃ delay yield, body (k + n) = some (delay, yield) ∧
    ∀ frame, yield ≠ some (.ok frame)

def delayOf (body : Nat → Option (Nat × Yield String F)) (k : Nat) : Nat :=
  ((body k).map Prod.fst).getD 0

def bodyTime (body : Nat → Option (Nat × Yield String F)) (k n : Nat) : Nat :=
  ∑ i ∈ Finset.range (n + 1), delayOf body (k + i)

theorem delayOf_eq {k delay : Nat} {yield : Yield String F}
    (h : body k = some (delay, yield)) : delayOf body k = delay := by
  rw [delayOf, h]
  rfl

theorem bodyTime_zero (k : Nat) : bodyTime body k 0 = delayOf body k := by
  rw [bodyTime, Finset.sum_range_one, Nat.add_zero]

theorem bodyTime_succ (k n : Nat) :
    bodyTime body k (n + 1) = delayOf body k + bodyTime body (k + 1) n := by
  rw [bodyTime, bodyTime, Finset.sum_range_succ', Nat.add_comm, Nat.add_zero]
  simp only [Nat.add_assoc, Nat.add_comm 1]

theorem endsAfter_zero {k delay : Nat} {yield : Yield String F}
    (h : body k = some (delay, yield)) (hyield : ∀ frame, yield ≠ some (.ok frame)) :
    EndsAfter body k 0 where
  frames i hi := absurd hi i.not_lt_zero
  ending := ⟨delay, yield, h, hyield⟩

theorem endsAfter_succ {k n : Nat} :
    EndsAfter body k (n + 1) ↔
      (∃ delay frame, body k = some (delay, some (.ok frame))) ∧ EndsAfter body (k + 1) n := by
  have hshift : ∀ i, k + 1 + i = k + (i + 1) := by
    intro i
    omega
  constructor
  · intro h
    refine ⟨h.frames 0 n.succ_pos, ?_, ?_⟩
    · intro i hi
      rw [hshift]
      exact h.frames (i + 1) (Nat.succ_lt_succ hi)
    · rw [hshift]
      exact h.ending
  · rintro ⟨hfirst, hrest⟩
    constructor
    · intro i hi
      cases i with
      | zero => exact hfirst
      | succ i =>
          rw [← hshift]
          exact hrest.frames i (Nat.lt_of_succ_lt_succ hi)
    · rw [← hshift]
      exact hrest.ending

theorem collect_frame {k delay : Nat} {frame : F} (h : body k = some (delay, some (.ok frame)))
    (fuel now : Nat) :
    collect body (fuel + 1) k now = collect body fuel (k + 1) (now + delay) := by
  rw [collect, h]

theorem collect_ending {k delay : Nat} {yield : Yield String F}
    (h : body k = some (delay, yield)) (hyield : ∀ frame, yield ≠ some (.ok frame))
    (fuel now : Nat) : collect body (fuel + 1) k now = some (now + delay) := by
  rw [collect, h]
  match yield with
  | none => rfl
  | some (.error message) => rfl
  | some (.ok frame) => exact absurd rfl (hyield frame)

theorem collect_of_endsAfter {k n : Nat} (h : EndsAfter body k n) (fuel now : Nat)
    (hfuel : n < fuel) : collect body fuel k now = some (now + bodyTime body k n) := by
  obtain ⟨fuel, rfl⟩ : ∃ more, fuel = more + 1 := Nat.exists_eq_add_one.mpr (by omega)
  induction n generalizing k now fuel with
  | zero =>
      obtain ⟨delay, yield, hend, hyield⟩ := h.ending
      rw [Nat.add_zero] at hend
      rw [collect_ending hend hyield, bodyTime_zero, delayOf_eq hend]
  | succ n ih =>
      obtain ⟨⟨delay, frame, hframe⟩, hrest⟩ := endsAfter_succ.mp h
      obtain ⟨fuel, rfl⟩ : ∃ more, fuel = more + 1 := Nat.exists_eq_add_one.mpr (by omega)
      rw [collect_frame hframe, ih hrest _ fuel (by omega), bodyTime_succ, delayOf_eq hframe,
        Nat.add_assoc]

theorem endsAfter_of_collect {fuel k now finish : Nat}
    (h : collect body fuel k now = some finish) :
    ∃ n, EndsAfter body k n ∧ finish = now + bodyTime body k n := by
  induction fuel generalizing k now with
  | zero => cases h
  | succ fuel ih =>
      cases hbody : body k with
      | none =>
          rw [collect, hbody] at h
          cases h
      | some event =>
          obtain ⟨delay, yield⟩ := event
          by_cases hframe : ∃ frame, yield = some (.ok frame)
          · obtain ⟨frame, rfl⟩ := hframe
            rw [collect_frame hbody] at h
            obtain ⟨n, hends, hfinish⟩ := ih h
            refine ⟨n + 1, endsAfter_succ.mpr ⟨⟨delay, frame, hbody⟩, hends⟩, ?_⟩
            rw [hfinish, bodyTime_succ, delayOf_eq hbody, Nat.add_assoc]
          · have hyield := not_exists.mp hframe
            rw [collect_ending hbody hyield] at h
            cases h
            exact ⟨0, endsAfter_zero hbody hyield, by rw [bodyTime_zero, delayOf_eq hbody]⟩

end Drain

/-! ## The loop -/

structure Prober where
  counters : ProbeCounters
  breaker : Breaker

namespace Prober

def new (cfg : BreakerConfig) (created : Nat) : Prober := ⟨{}, Breaker.new cfg created⟩

def turn (cfg : ProbeConfig) (s : Prober) (healthy : Bool) (now : Nat) : Prober :=
  match s.counters.record cfg healthy with
  | (counters, none) => { s with counters := counters }
  | (counters, some true) => ⟨counters, s.breaker.onSuccess⟩
  | (counters, some false) => ⟨counters, s.breaker.onFailure (s.breaker.nowMs now)⟩

/--
From the start of a probe to the next look at `cancel`: the outcome, the
instant it is recorded and looked at, and the state.
-/
def probed (cfg : ProbeConfig) (s : Prober) (now : Nat) (probe : Option (Nat × Bool)) :
    Option ((Bool × Nat) × Prober) :=
  probe.map fun p => ((p.2, now + p.1), s.turn cfg p.2 (now + p.1))

def sleepStep : Duration := Duration.fromMillis 250

/-- The sleep between probes looks at `cancel` every 250 ms. -/
def pause (cancel : Nat → Bool) (now remaining : Nat) : Nat :=
  if cancel now = false ∧ 0 < remaining then
    let s := min sleepStep.nanos remaining
    pause cancel (now + s) (remaining - s)
  else now
termination_by remaining
decreasing_by
  have hstep : sleepStep.nanos = 250000000 := rfl
  omega

/--
At most `fuel` turns of the loop, the `k`th with the probe `probes k`.  Returns
the outcomes in order, each with the instant it was recorded, and the state.
-/
def runOne (cfg : ProbeConfig) (cancel : Nat → Bool) (probes : Nat → Option (Nat × Bool)) :
    Nat → Nat → Nat → Prober → List (Bool × Nat) × Prober
  | 0, _, _, s => ([], s)
  | fuel + 1, k, now, s =>
      if cancel now then ([], s)
      else
        match s.probed cfg now (probes k) with
        | none => ([], s)
        | some (outcome, s) =>
            let rest := runOne cfg cancel probes fuel (k + 1)
              (pause cancel outcome.2 cfg.interval.nanos) s
            (outcome :: rest.1, rest.2)

def run (cfg : ProbeConfig) (s : Prober) (probes : List (Bool × Nat)) : Prober :=
  probes.foldl (fun s p => s.turn cfg p.1 p.2) s

theorem runOne_eq_run (cfg : ProbeConfig) (cancel : Nat → Bool)
    (probes : Nat → Option (Nat × Bool)) (fuel k now : Nat) (s : Prober) :
    (runOne cfg cancel probes fuel k now s).2 =
      s.run cfg (runOne cfg cancel probes fuel k now s).1 := by
  induction fuel generalizing k now s with
  | zero => rfl
  | succ fuel ih =>
      rw [runOne]
      split
      · rfl
      · cases hprobe : probes k with
        | none => rfl
        | some probe => exact ih _ _ _

end Prober

/-! ## The deadline of a probe -/

section Deadline

variable {F : Type} (parse : String → Option Uri) (scheme : Scheme) (addr : SocketAddr)
  (cfg : ProbeConfig) (script : ProbeScript F)

def ProbeConfig.probe (fuel : Nat) : Option (Nat × Bool) :=
  probeOnce parse scheme addr cfg.path cfg.timeout script fuel

/--
The probe is over when its timeout is, the loop then looks at `cancel`, and
only a head in time with a 2xx status is healthy.
-/
structure MeetsDeadline : Prop where
  finishes : ∃ enough, ∀ fuel, enough ≤ fuel → ∃ took healthy,
    cfg.probe parse scheme addr script fuel = some (took, healthy) ∧ took ≤ cfg.timeout.nanos
  nextCheck : ∀ (s : Prober) (now : Nat), ∃ enough, ∀ fuel, enough ≤ fuel →
    ∃ healthy check s', s.probed cfg now (cfg.probe parse scheme addr script fuel) =
      some ((healthy, check), s') ∧ check ≤ now + cfg.timeout.nanos
  onlySuccess : ∀ fuel took, cfg.probe parse scheme addr script fuel = some (took, true) →
    ∃ delay status, script.head = some (delay, .ok status) ∧
      delay ≤ cfg.timeout.nanos ∧ isSuccess status = true

structure Drained (delay : Nat) (status : UInt16) : Prop where
  parses : (parse (probeUri scheme addr cfg.path)).isSome = true
  head : script.head = some (delay, .ok status)
  inTime : delay ≤ cfg.timeout.nanos

variable {parse scheme addr cfg script}

theorem Drained.probe {delay : Nat} {status : UInt16}
    (h : Drained parse scheme addr cfg script delay status) (fuel : Nat) :
    cfg.probe parse scheme addr script fuel =
      (collect script.body fuel 0 delay).map (·, isSuccess status) := by
  obtain ⟨uri, huri⟩ := Option.isSome_iff_exists.mp h.parses
  rw [ProbeConfig.probe, probeOnce, huri, h.head]
  exact if_neg (not_lt.mpr h.inTime)

theorem probe_of_not_drained
    (h : ∀ delay status, ¬ Drained parse scheme addr cfg script delay status) :
    ∃ took ≤ cfg.timeout.nanos, ∀ fuel,
      cfg.probe parse scheme addr script fuel = some (took, false) := by
  unfold ProbeConfig.probe probeOnce
  cases huri : parse (probeUri scheme addr cfg.path) with
  | none => exact ⟨0, Nat.zero_le _, fun _ => rfl⟩
  | some uri =>
      match hhead : script.head with
      | none => exact ⟨_, le_rfl, fun _ => rfl⟩
      | some (delay, outcome) =>
          by_cases hlate : cfg.timeout.nanos < delay
          · exact ⟨_, le_rfl, fun _ => if_pos hlate⟩
          · cases outcome with
            | error message => exact ⟨delay, not_lt.mp hlate, fun _ => if_neg hlate⟩
            | ok status =>
                exact absurd ⟨by rw [huri]; rfl, hhead, not_lt.mp hlate⟩ (h delay status)

theorem probed_of_probe {took : Nat} {healthy : Bool} {probe : Option (Nat × Bool)}
    (h : probe = some (took, healthy)) (s : Prober) (now : Nat) :
    s.probed cfg now probe =
      some ((healthy, now + took), s.turn cfg healthy (now + took)) := by
  rw [h]
  rfl

theorem onlySuccess_of_probe {fuel took : Nat}
    (h : cfg.probe parse scheme addr script fuel = some (took, true)) :
    ∃ delay status, script.head = some (delay, .ok status) ∧
      delay ≤ cfg.timeout.nanos ∧ isSuccess status = true := by
  by_cases hdrained : ∃ delay status, Drained parse scheme addr cfg script delay status
  · obtain ⟨delay, status, hdrained⟩ := hdrained
    refine ⟨delay, status, hdrained.head, hdrained.inTime, ?_⟩
    rw [hdrained.probe, Option.map_eq_some_iff] at h
    obtain ⟨finish, -, hpair⟩ := h
    exact (Prod.mk.inj hpair).2
  · push Not at hdrained
    obtain ⟨_, _, hprobe⟩ := probe_of_not_drained hdrained
    simp [hprobe] at h

theorem meetsDeadline_of_finishes
    (h : ∃ enough, ∀ fuel, enough ≤ fuel → ∃ took healthy,
      cfg.probe parse scheme addr script fuel = some (took, healthy) ∧
        took ≤ cfg.timeout.nanos) :
    MeetsDeadline parse scheme addr cfg script where
  finishes := h
  nextCheck s now := by
    obtain ⟨enough, henough⟩ := h
    refine ⟨enough, fun fuel hfuel => ?_⟩
    obtain ⟨took, healthy, hprobe, hle⟩ := henough fuel hfuel
    exact ⟨healthy, now + took, _, probed_of_probe hprobe s now, by omega⟩
  onlySuccess _ _ := onlySuccess_of_probe

/--
The timeout covers the head only: a probe meets its deadline exactly if the
body that follows a head in time ends within it as well.
-/
theorem probe_meets_deadline_iff :
    MeetsDeadline parse scheme addr cfg script ↔
      ∀ delay status, Drained parse scheme addr cfg script delay status →
        ∃ n, EndsAfter script.body 0 n ∧
          delay + bodyTime script.body 0 n ≤ cfg.timeout.nanos := by
  constructor
  · intro h delay status hdrained
    obtain ⟨enough, henough⟩ := h.finishes
    obtain ⟨took, healthy, hprobe, hle⟩ := henough enough le_rfl
    rw [hdrained.probe, Option.map_eq_some_iff] at hprobe
    obtain ⟨finish, hcollect, hpair⟩ := hprobe
    obtain ⟨n, hends, hfinish⟩ := endsAfter_of_collect hcollect
    have htook := (Prod.mk.inj hpair).1
    exact ⟨n, hends, by omega⟩
  · intro h
    apply meetsDeadline_of_finishes
    by_cases hdrained : ∃ delay status, Drained parse scheme addr cfg script delay status
    · obtain ⟨delay, status, hdrained⟩ := hdrained
      obtain ⟨n, hends, hle⟩ := h delay status hdrained
      refine ⟨n + 1, fun fuel hfuel => ⟨_, isSuccess status, ?_, hle⟩⟩
      rw [hdrained.probe, collect_of_endsAfter hends fuel delay hfuel]
      rfl
    · push Not at hdrained
      obtain ⟨took, hle, hprobe⟩ := probe_of_not_drained hdrained
      exact ⟨0, fun fuel _ => ⟨took, false, hprobe fuel, hle⟩⟩

end Deadline

namespace Sample

def probing : ProbeConfig := .fromConfig api { interval := Duration.fromSecs 5 }

def parseUri (text : String) : Option Uri :=
  if text = "http://10.0.0.1:8080/healthz" then
    some ⟨⟨some .http, some backend.authority, some ⟨"/healthz", none⟩⟩⟩
  else none

def stallingMidBody : ProbeScript Unit := ⟨some (0, .ok 200), fun _ => none⟩

end Sample

theorem probe_hangs_mid_body :
    (∀ fuel, Sample.probing.probe Sample.parseUri .http Sample.backend
      Sample.stallingMidBody fuel = none) ∧
    ¬ MeetsDeadline Sample.parseUri .http Sample.backend Sample.probing
      Sample.stallingMidBody := by
  have hnever : ∀ fuel, Sample.probing.probe Sample.parseUri .http Sample.backend
      Sample.stallingMidBody fuel = none := by
    intro fuel
    have hdrained : Drained Sample.parseUri .http Sample.backend Sample.probing
        Sample.stallingMidBody 0 200 := ⟨by decide, rfl, by decide⟩
    rw [hdrained.probe]
    cases fuel <;> rfl
  refine ⟨hnever, fun h => ?_⟩
  obtain ⟨enough, henough⟩ := h.finishes
  obtain ⟨took, healthy, hprobe, -⟩ := henough enough le_rfl
  rw [hnever] at hprobe
  cases hprobe

/-! ## What the thresholds mean -/

namespace Prober

def lastProbe (created : Nat) (probes : List (Bool × Nat)) : Nat :=
  (probes.getLast?.map Prod.snd).getD created

/-- The streaks behind the state of a prober after some outcomes. -/
structure Tracks (cfg : ProbeConfig) (bcfg : BreakerConfig) (created : Nat)
    (outcomes : List Bool) (last : Nat) (s : Prober) : Prop where
  consecutiveFail : s.counters.consecutiveFail = min (trailing false outcomes) u32Max
  consecutiveOk : s.counters.consecutiveOk = min (trailing true outcomes) u32Max
  threshold : s.breaker.threshold = bcfg.threshold.toNat
  cooldownMs : s.breaker.cooldownMs = min bcfg.cooldown.asMillis u64Max
  anchor : s.breaker.anchor = created
  failures : s.breaker.failures =
    strikes cfg.unhealthyThreshold.toNat cfg.healthyThreshold.toNat outcomes % 2 ^ 32
  deadline : cfg.unhealthyThreshold.toNat ≤ trailing false outcomes →
    s.breaker.threshold ≤ s.breaker.failures →
    s.breaker.openUntilMs = saturatingAdd64 (s.breaker.nowMs last) s.breaker.cooldownMs

section Tracks

variable {cfg : ProbeConfig} {bcfg : BreakerConfig} {created : Nat}

theorem tracks_new (hunhealthy : 1 ≤ cfg.unhealthyThreshold.toNat) :
    (new bcfg created).Tracks cfg bcfg created [] created where
  consecutiveFail := rfl
  consecutiveOk := rfl
  threshold := rfl
  cooldownMs := rfl
  anchor := rfl
  failures := by
    rw [strikes_nil hunhealthy]
    rfl
  deadline h := absurd h (by simp; omega)

theorem turn_success {s : Prober} {n : Nat} (hok : s.counters.consecutiveOk = min n u32Max)
    (now : Nat) :
    s.turn cfg true now = ⟨⟨0, min (n + 1) u32Max⟩,
      if cfg.healthyThreshold.toNat ≤ n + 1 then s.breaker.onSuccess else s.breaker⟩ := by
  rw [turn, ProbeCounters.record_success cfg hok]
  split_ifs <;> rfl

theorem turn_failure {s : Prober} {n : Nat} (hfail : s.counters.consecutiveFail = min n u32Max)
    (now : Nat) :
    s.turn cfg false now = ⟨⟨min (n + 1) u32Max, 0⟩,
      if cfg.unhealthyThreshold.toNat ≤ n + 1 then
        s.breaker.onFailure (s.breaker.nowMs now)
      else s.breaker⟩ := by
  rw [turn, ProbeCounters.record_failure cfg hfail]
  split_ifs <;> rfl

variable {outcomes : List Bool} {last : Nat} {s : Prober}

theorem Tracks.threshold_ne_zero (h : s.Tracks cfg bcfg created outcomes last)
    (hthreshold : 1 ≤ bcfg.threshold.toNat) : s.breaker.threshold ≠ 0 := by
  rw [h.threshold]
  omega

theorem Tracks.success (h : s.Tracks cfg bcfg created outcomes last)
    (hunhealthy : 1 ≤ cfg.unhealthyThreshold.toNat) (hthreshold : 1 ≤ bcfg.threshold.toNat)
    (now : Nat) :
    (s.turn cfg true now).Tracks cfg bcfg created (outcomes ++ [true]) now := by
  have hbreaker : s.breaker.onSuccess = { s.breaker with openUntilMs := 0, failures := 0 } :=
    if_neg (h.threshold_ne_zero hthreshold)
  have hnofail : ¬ cfg.unhealthyThreshold.toNat ≤ trailing false (outcomes ++ [true]) := by
    rw [trailing_append, if_neg (by decide)]
    omega
  rw [turn_success h.consecutiveOk, hbreaker]
  constructor
  case consecutiveFail => simp
  case consecutiveOk => simp
  case threshold => split_ifs <;> exact h.threshold
  case cooldownMs => split_ifs <;> exact h.cooldownMs
  case anchor => split_ifs <;> exact h.anchor
  case failures =>
    rw [strikes_append_true _ hunhealthy]
    split_ifs
    · rfl
    · exact h.failures
  case deadline => exact fun hfail => absurd hfail hnofail

theorem Tracks.failure (h : s.Tracks cfg bcfg created outcomes last)
    (hhealthy : 1 ≤ cfg.healthyThreshold.toNat) (hthreshold : 1 ≤ bcfg.threshold.toNat)
    (now : Nat) :
    (s.turn cfg false now).Tracks cfg bcfg created (outcomes ++ [false]) now := by
  have hfail : trailing false (outcomes ++ [false]) = trailing false outcomes + 1 := by
    rw [trailing_append, if_pos rfl]
  rw [turn_failure h.consecutiveFail,
    Breaker.onFailure_eq _ _ (h.threshold_ne_zero hthreshold)]
  constructor
  case consecutiveFail => simp
  case consecutiveOk => simp
  case threshold => split_ifs <;> exact h.threshold
  case cooldownMs => split_ifs <;> exact h.cooldownMs
  case anchor => split_ifs <;> exact h.anchor
  case failures =>
    rw [strikes_append_false _ hhealthy]
    by_cases hend : cfg.unhealthyThreshold.toNat ≤ trailing false outcomes + 1
    · simp only [if_pos hend, wrappingSucc32, h.failures, Nat.mod_add_mod]
    · simp only [if_neg hend, h.failures, Nat.add_zero]
  case deadline =>
    intro hend hopen
    rw [hfail] at hend
    simp only [if_pos hend] at hopen ⊢
    -- A counter that wrapped is below the threshold, so this one did not.
    have hwrap : wrappingSucc32 s.breaker.failures ≤ saturatingSucc32 s.breaker.failures := by
      unfold wrappingSucc32 saturatingSucc32 u32Max
      omega
    exact if_pos (hopen.trans hwrap)

theorem Tracks.run (h : s.Tracks cfg bcfg created outcomes last)
    (hunhealthy : 1 ≤ cfg.unhealthyThreshold.toNat)
    (hhealthy : 1 ≤ cfg.healthyThreshold.toNat) (hthreshold : 1 ≤ bcfg.threshold.toNat)
    (probes : List (Bool × Nat)) :
    (s.run cfg probes).Tracks cfg bcfg created (outcomes ++ probes.map Prod.fst)
      (lastProbe last probes) := by
  induction probes generalizing s outcomes last with
  | nil => simpa [lastProbe, Prober.run] using h
  | cons probe probes ih =>
      obtain ⟨healthy, now⟩ := probe
      have hturn :
          (s.turn cfg healthy now).Tracks cfg bcfg created (outcomes ++ [healthy]) now := by
        cases healthy with
        | false => exact h.failure hhealthy hthreshold now
        | true => exact h.success hunhealthy hthreshold now
      have hlast : lastProbe last ((healthy, now) :: probes) = lastProbe now probes := by
        rw [lastProbe, lastProbe, List.getLast?_cons]
        cases probes.getLast? <;> rfl
      rw [hlast, List.map_cons, List.append_cons]
      exact ih hturn

theorem Tracks.closes (h : s.Tracks cfg bcfg created outcomes last)
    (hunhealthy : 1 ≤ cfg.unhealthyThreshold.toNat)
    (hhealthy : 1 ≤ cfg.healthyThreshold.toNat) (hthreshold : 1 ≤ bcfg.threshold.toNat)
    (hend : cfg.healthyThreshold.toNat ≤ trailing true outcomes) (nowMs : Nat) :
    s.breaker.snapshot nowMs = .closed := by
  rw [Breaker.snapshot_eq_closed_iff, h.threshold, h.failures,
    strikes_eq_zero outcomes hunhealthy hhealthy hend]
  exact .inr hthreshold

theorem Tracks.open_iff (h : s.Tracks cfg bcfg created outcomes last)
    (hthreshold : 1 ≤ bcfg.threshold.toNat)
    (hend : cfg.unhealthyThreshold.toNat ≤ trailing false outcomes) (nowMs : Nat) :
    s.breaker.snapshot nowMs = .open ↔
      bcfg.threshold.toNat ≤ strikes cfg.unhealthyThreshold.toNat
        cfg.healthyThreshold.toNat outcomes % 2 ^ 32 ∧
      nowMs < saturatingAdd64 (s.breaker.nowMs last) (min bcfg.cooldown.asMillis u64Max) := by
  rw [Breaker.snapshot_eq_open_iff, ← h.failures, ← h.threshold, ← h.cooldownMs]
  constructor
  · rintro ⟨-, hopen, hnow⟩
    exact ⟨hopen, h.deadline hend hopen ▸ hnow⟩
  · rintro ⟨hopen, hnow⟩
    exact ⟨h.threshold_ne_zero hthreshold, hopen, (h.deadline hend hopen).symm ▸ hnow⟩

end Tracks

/-- What the documentation says of the two thresholds. -/
structure MeetsThresholds (cfg : ProbeConfig) (b : Breaker) (outcomes : List Bool)
    (now : Nat) : Prop where
  opens : cfg.unhealthyThreshold.toNat ≤ trailing false outcomes →
    b.snapshot (b.nowMs now) = .open
  closes : cfg.healthyThreshold.toNat ≤ trailing true outcomes →
    b.snapshot (b.nowMs now) = .closed

/--
The prober's calls add up in the breaker's own counter, so a streak of
failures opens the breaker exactly if enough of them were reported since the
count was last cleared, and the cooldown still runs on its millisecond clock.
-/
theorem thresholds_met_iff (cfg : ProbeConfig)
    (hunhealthy : 1 ≤ cfg.unhealthyThreshold.toNat)
    (hhealthy : 1 ≤ cfg.healthyThreshold.toNat) (bcfg : BreakerConfig)
    (hthreshold : 1 ≤ bcfg.threshold.toNat) (created start : Nat) (cancel : Nat → Bool)
    (script : Nat → Option (Nat × Bool)) (turns : Nat) (probes : List (Bool × Nat)) (s : Prober)
    (hrun : runOne cfg cancel script turns 0 start (new bcfg created) = (probes, s))
    (now : Nat) :
    let outcomes := probes.map Prod.fst
    let last := lastProbe created probes
    (now < last + bcfg.cooldown.nanos → MeetsThresholds cfg s.breaker outcomes now) ↔
      (now < last + bcfg.cooldown.nanos →
        cfg.unhealthyThreshold.toNat ≤ trailing false outcomes →
          bcfg.threshold.toNat ≤ strikes cfg.unhealthyThreshold.toNat
            cfg.healthyThreshold.toNat outcomes % 2 ^ 32 ∧
          (Breaker.new bcfg created).nowMs now <
            min ((Breaker.new bcfg created).nowMs last + min bcfg.cooldown.asMillis u64Max)
              u64Max) := by
  intro outcomes last
  have hstate : s = (new bcfg created).run cfg probes := by
    have h := runOne_eq_run cfg cancel script turns 0 start (new bcfg created)
    rwa [hrun] at h
  have htracks : s.Tracks cfg bcfg created outcomes last := by
    rw [hstate]
    exact (tracks_new hunhealthy).run hunhealthy hhealthy hthreshold probes
  have hclock : ∀ instant, s.breaker.nowMs instant =
      (Breaker.new bcfg created).nowMs instant := by
    intro instant
    rw [Breaker.nowMs, htracks.anchor]
    rfl
  refine imp_congr_right fun _ => ⟨fun h hend => ?_, fun h => ⟨fun hend => ?_, fun hend => ?_⟩⟩
  · have hopen := (htracks.open_iff hthreshold hend _).mp (h.opens hend)
    rwa [hclock, hclock] at hopen
  · rw [htracks.open_iff hthreshold hend, hclock, hclock]
    exact h hend
  · exact htracks.closes hunhealthy hhealthy hthreshold hend _

theorem pause_of_never (now remaining : Nat) :
    pause (fun _ => false) now remaining = now + remaining := by
  induction remaining using Nat.strongRecOn generalizing now with
  | _ remaining ih =>
      have hstep : 0 < sleepStep.nanos := by decide
      rw [pause]
      split_ifs with h
      · rw [ih _ (by omega)]
        omega
      · have hdone : ¬ 0 < remaining := fun hlt => h ⟨rfl, hlt⟩
        omega

theorem runOne_silent (bcfg : BreakerConfig) :
    runOne Sample.probing (fun _ => false) (fun _ => some (2000000000, false)) 3 0 0
        (new bcfg 0) =
      ([(false, 2000000000), (false, 9000000000), (false, 16000000000)],
        (new bcfg 0).run Sample.probing
          [(false, 2000000000), (false, 9000000000), (false, 16000000000)]) := by
  simp only [runOne, probed, Option.map_some, pause_of_never]
  rfl

theorem three_failures_leave_breaker_closed :
    ∃ probes s, runOne Sample.probing (fun _ => false) (fun _ => some (2000000000, false)) 3 0 0
        (new {} 0) = (probes, s) ∧
      Sample.probing.unhealthyThreshold.toNat ≤ trailing false (probes.map Prod.fst) ∧
      s.breaker.snapshot (s.breaker.nowMs (lastProbe 0 probes)) = .closed ∧
      ¬ (lastProbe 0 probes < lastProbe 0 probes + ({} : BreakerConfig).cooldown.nanos →
        MeetsThresholds Sample.probing s.breaker (probes.map Prod.fst)
          (lastProbe 0 probes)) := by
  refine ⟨_, _, runOne_silent {}, by decide, by decide, fun h => ?_⟩
  have hopen := (h (by decide)).opens (by decide)
  revert hopen
  decide

theorem thresholds_met_iff_sample :
    ∃ probes s, runOne Sample.probing (fun _ => false) (fun _ => some (2000000000, false)) 3 0 0
        (new { threshold := 1 } 0) = (probes, s) ∧
      Sample.probing.unhealthyThreshold.toNat ≤ trailing false (probes.map Prod.fst) ∧
      s.breaker.snapshot (s.breaker.nowMs 17000000000) = .open := by
  refine ⟨_, _, runOne_silent _, by decide, ?_⟩
  exact ((thresholds_met_iff Sample.probing (by decide) (by decide) { threshold := 1 } (by decide)
    0 0 _ _ 3 _ _ (runOne_silent _) 17000000000).mpr (by decide) (by decide)).opens (by decide)

end Prober

end Conduit
