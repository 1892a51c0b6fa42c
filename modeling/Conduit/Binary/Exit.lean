import Conduit.Binary.Shutdown
import Conduit.Io.Bind
import Conduit.Io.Timing

/-!
# How the binary ends

The exit code of `main`, from the command line to the report of the workers
and the joins of the other threads, and the accept loops of the other planes
once their flag is up.
-/

namespace Conduit

open Foundation Io Timing

/-! ## The exit code -/

inductive Outcome where
  | panicked
  | failed
  | ran (report : Report)
  deriving DecidableEq, Repr

def Outcome.joined : Outcome → Option Counts
  | .panicked => none
  | .failed => some ⟨0, 0⟩
  | .ran report => some report.counts

/-- `main` and the world it runs in. -/
structure Launch where
  check : Bool
  loaded : Except ConfigError Config
  availableParallelism : Nat
  backend : Backend
  kernel : Kernel
  spawn : Nat → Except IoError Unit
  outcome : Nat → Outcome
  /-- How far `main` and its threads have come. -/
  threads : Threads.State

namespace Launch

variable (l : Launch)

def workers (cfg : Config) : Nat :=
  match cfg.server.workers with
  | .auto => l.availableParallelism
  | .count n _ => n

def spawnAll : List Nat → Except BindError Unit
  | [] => .ok ()
  | w :: ws => do
      (l.spawn w).mapError .threadSpawn
      spawnAll ws

def serve (cfg : Config) : Except BindError Unit := do
  let _ ← (l.kernel.bindListeners 1024 cfg.server.listenHttp (l.workers cfg)).result
  l.spawnAll (List.range (l.workers cfg))

def report (cfg : Config) : Counts :=
  wait l.backend ((List.range (l.workers cfg)).map fun w => (l.outcome w).joined)

/-- The connections that the workers with a report have counted. -/
def conns (cfg : Config) : List Conn :=
  (List.range (l.workers cfg)).flatMap fun w =>
    match l.outcome w with
    | .ran report => report.conns
    | .panicked | .failed => []

/-- The reports come from runs of the workers under one flag. -/
def Honest (flag : Nat → Bool) (slack : Nat) : Prop :=
  ∀ w report, l.outcome w = .ran report → ∃ script fuel start,
    script.Paced .new slack ∧ runWorker .new flag script fuel start = some report

variable {l} {cfg : Config}

def sample : Launch where
  check := false
  loaded := .ok Sample.plaintext.cfg
  availableParallelism := 4
  backend := .tokio
  kernel := ⟨fun _ addr => .ok addr, fun _ => .ok (), fun _ => .ok ()⟩
  spawn := fun _ => .ok ()
  outcome := fun _ => .ran ⟨50000007, [[⟨6, some 7⟩], [⟨121, some 7⟩]], 50000007⟩
  threads := (execute (Threads.step Sample.plaintext) Threads.Guarded
    (Threads.init Sample.plaintext) Sample.orderlyShutdown).getD (Threads.init Sample.plaintext)

end Launch

/-! ## The other planes -/

inductive Acceptor where
  | admin
  | https
  | h3
  deriving DecidableEq, Repr

/-- What the listener of a plane yields; only a QUIC endpoint closes. -/
inductive Incoming where
  | connection
  | error
  | closed
  deriving DecidableEq, Repr

namespace Acceptor

def poll : Acceptor → Duration
  | .admin => .fromMillis 100
  | .https | .h3 => .fromMillis 250

def stops : Acceptor → Incoming → Bool
  | .h3, .closed => true
  | _, _ => false

def run (plane : Acceptor) (cancel : Nat → Bool) (listeners : List (Nat → Await Incoming))
    (fuel start : Nat) : Option (Nat × List (List (Nat × Incoming))) :=
  awaitLoops plane.poll.nanos cancel plane.stops fuel start listeners

/--
Cancelled at `rise`, a plane joins its loops within one poll, and each of its
listeners takes at most one more connection.  It ends earlier only if it is
the QUIC plane and an endpoint has closed.
-/
theorem planes_stop_within_a_poll (plane : Acceptor) (cancel : Nat → Bool) (rise : Nat)
    (hrise : ∀ u, cancel u = true ↔ rise ≤ u) (listeners : List (Nat → Await Incoming))
    (slack : Nat) (hpaced : ∀ awaits ∈ listeners, ∀ k, (awaits k).Paced plane.poll.nanos slack)
    (start : Nat) :
    ∃ enough joined logs,
      (∀ fuel, enough ≤ fuel → plane.run cancel listeners fuel start = some (joined, logs)) ∧
      start ≤ joined ∧ joined ≤ max start (rise + (plane.poll.nanos + slack)) ∧
      (listeners ≠ [] → joined < rise →
        plane = .h3 ∧ ∃ log ∈ logs, ∃ p ∈ log, p.2 = .closed) ∧
      logs.length = listeners.length ∧
      ∀ log ∈ logs, (log.filter fun p => rise ≤ p.1).length ≤ 1 := by
  have hrise' : ∀ u, rise ≤ u → cancel u = true := fun u => (hrise u).mpr
  obtain ⟨⟨joined, logs⟩, hrun⟩ := exists_awaitLoops hrise' hpaced plane.stops start
  have hjoined := joined_of_awaitLoops hrise' hpaced hrun
  refine ⟨rise + 1, joined, logs, fun fuel hfuel => pollLoops_mono hfuel hrun,
    hjoined.start_le, hjoined.joined_le, ?_, hjoined.length_logs, hjoined.late_le⟩
  intro hne hearly
  rcases hjoined.ended (by simpa using hne) with ⟨exit, hle, hflag⟩ | ⟨log, hlog, p, hp, hstop⟩
  · have hlate := (hrise exit).mp hflag
    omega
  · unfold stops at hstop
    split at hstop
    · exact ⟨rfl, log, hlog, p, hp, ‹_›⟩
    · cases hstop

theorem planes_stop_within_a_poll_sample :
    ∃ enough joined logs,
      (∀ fuel, enough ≤ fuel →
        h3.run (fun u => decide (7 ≤ u)) [fun _ => ⟨some (3, .connection), 0⟩] fuel 0 =
          some (joined, logs)) ∧
      joined ≤ 250000007 ∧ ∀ log ∈ logs, (log.filter fun p => 7 ≤ p.1).length ≤ 1 := by
  obtain ⟨enough, joined, logs, hrun, -, hjoined, -, -, hlate⟩ :=
    planes_stop_within_a_poll .h3 (fun u => decide (7 ≤ u)) 7 (fun u => decide_eq_true_iff)
      [fun _ => ⟨some (3, .connection), 0⟩] 0 (by
        intro awaits hmem k
        obtain rfl := List.mem_singleton.mp hmem
        exact ⟨Nat.le_refl 0, (by decide : 1 ≤ 3)⟩) 0
  have hpoll : Acceptor.h3.poll.nanos = 250000000 := rfl
  exact ⟨enough, joined, logs, hrun, by omega, hlate⟩

end Acceptor

end Conduit
