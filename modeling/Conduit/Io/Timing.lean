import Conduit.Foundation.Polling
import Conduit.Io.Worker

/-!
# The workers on a clock

The accept loops and the drain of `Conduit.Io.Worker`, on a script that says
what the kernel and the handlers do, and when.  Both backends run them.
-/

namespace Conduit.Io.Timing

open Foundation

/-! ## One accept loop -/

/--
One `timeout(poll, accept)`: when `accept` is ready and with what, and how
late the runtime resumes the task.
-/
structure Await (ε : Type*) where
  ready : Option (Nat × ε)
  late : Nat

def Await.turn {ε : Type*} (poll : Nat) (a : Await ε) : Lap ε :=
  match a.ready with
  | some (delay, what) =>
      if delay ≤ poll then ⟨delay + a.late, some what⟩ else ⟨poll + a.late, none⟩
  | none => ⟨poll + a.late, none⟩

/-- Accept loops, one for each script, that look at `flag` every `poll`. -/
def awaitLoops {ε : Type*} (poll : Nat) (flag : Nat → Bool) (stops : ε → Bool)
    (fuel start : Nat) (loops : List (Nat → Await ε)) : Option (Nat × List (List (Nat × ε))) :=
  pollLoops flag stops fuel start (loops.map fun awaits k => (awaits k).turn poll)

inductive Accept where
  /-- A stream and how long its task takes; a task that panics never counts. -/
  | stream (serve : Option Nat)
  | error
  deriving DecidableEq, Repr

structure Conn where
  at_ : Nat
  serve : Option Nat
  deriving DecidableEq, Repr

def Conn.doneBy (c : Conn) (now : Nat) : Bool :=
  c.serve.any fun serve => c.at_ + serve ≤ now

structure Limits where
  shutdownDeadline : Duration
  pollInterval : Duration
  deriving DecidableEq, Repr

/-- The knobs of `ServeSpec::new`, which `build_serve_spec` leaves alone. -/
def Limits.new : Limits := ⟨.fromSecs 30, .fromMillis 50⟩

def streams (log : List (Nat × Accept)) : List Conn :=
  log.filterMap fun p =>
    match p.2 with
    | .stream serve => some ⟨p.1, serve⟩
    | .error => none

/-! ## One worker -/

def acceptLoops (limits : Limits) (flag : Nat → Bool) (fuel start : Nat)
    (loops : List (Nat → Await Accept)) : Option (Nat × List (List (Nat × Accept))) :=
  awaitLoops limits.pollInterval.nanos flag (fun _ => false) fuel start loops

def countsAt (conns : List Conn) (now : Nat) : Counts :=
  ⟨conns.length % 2 ^ 64, conns.countP (·.doneBy now) % 2 ^ 64⟩

def drained (limits : Limits) (conns : List Conn) (since now : Nat) : Bool :=
  (countsAt conns now).accepted = (countsAt conns now).completed ∨
    limits.shutdownDeadline.nanos ≤ now - since

def drainLoop (limits : Limits) (conns : List Conn) (naps : Nat → Nat) (fuel since : Nat) :
    Option Nat :=
  (pollLoop (drained limits conns since) (fun _ : Empty => false)
    (fun k => ⟨limits.pollInterval.nanos + naps k, none⟩) fuel 0 since).map Prod.fst

/-- The listeners that `from_std` converted, and how late each sleep of the drain ends. -/
structure Script where
  loops : List (Nat → Await Accept)
  naps : Nat → Nat

structure Report where
  joined : Nat
  accepted : List (List Conn)
  exit : Nat
  deriving DecidableEq, Repr

def Report.conns (r : Report) : List Conn := r.accepted.flatten

def Report.counts (r : Report) : Counts := countsAt r.conns r.exit

def runWorker (limits : Limits) (flag : Nat → Bool) (script : Script) (fuel start : Nat) :
    Option Report := do
  let (joined, logs) ← acceptLoops limits flag fuel start script.loops
  let exit ← drainLoop limits (logs.map streams).flatten script.naps fuel joined
  some ⟨joined, logs.map streams, exit⟩

/-! ## The loops -/

section Loops

variable {ε : Type*} {poll slack : Nat}

/-- Nothing resumes more than `slack` late, and no turn takes no time. -/
structure Await.Paced (poll slack : Nat) (a : Await ε) : Prop where
  late_le : a.late ≤ slack
  pos : 1 ≤ (a.turn poll).wait

theorem Await.turn_wait_le {a : Await ε} (h : a.late ≤ slack) :
    (a.turn poll).wait ≤ poll + slack := by
  unfold Await.turn
  split
  · split
    · exact Nat.add_le_add ‹_› h
    · exact Nat.add_le_add_left h _
  · exact Nat.add_le_add_left h _

variable {flag : Nat → Bool} {stops : ε → Bool} {loops : List (Nat → Await ε)}
  {fuel start joined rise : Nat} {logs : List (List (Nat × ε))}

theorem joined_of_awaitLoops (hrise : ∀ u, rise ≤ u → flag u = true)
    (hpaced : ∀ awaits ∈ loops, ∀ k, (awaits k).Paced poll slack)
    (h : awaitLoops poll flag stops fuel start loops = some (joined, logs)) :
    Joined flag stops loops.length start rise (poll + slack) joined logs := by
  rw [← List.length_map]
  refine joined_of_pollLoops hrise ?_ h
  intro turns hturns k
  obtain ⟨awaits, hmem, rfl⟩ := List.mem_map.mp hturns
  exact Await.turn_wait_le (hpaced awaits hmem k).late_le

theorem exists_awaitLoops (hrise : ∀ u, rise ≤ u → flag u = true)
    (hpaced : ∀ awaits ∈ loops, ∀ k, (awaits k).Paced poll slack) (stops : ε → Bool)
    (start : Nat) : ∃ r, awaitLoops poll flag stops (rise + 1) start loops = some r := by
  refine exists_pollLoops hrise ?_ start
  intro turns hturns k
  obtain ⟨awaits, hmem, rfl⟩ := List.mem_map.mp hturns
  exact (hpaced awaits hmem k).pos

theorem mem_streams {log : List (Nat × Accept)} {c : Conn} :
    c ∈ streams log ↔ (c.at_, Accept.stream c.serve) ∈ log := by
  rw [streams, List.mem_filterMap]
  constructor
  · rintro ⟨⟨at_, what⟩, hmem, heq⟩
    cases what with
    | stream serve =>
        cases heq
        exact hmem
    | error => cases heq
  · intro hmem
    exact ⟨_, hmem, rfl⟩

theorem length_late_streams_le (rise : Nat) (log : List (Nat × Accept)) :
    ((streams log).filter fun c => rise ≤ c.at_).length ≤
      (log.filter fun p => rise ≤ p.1).length := by
  induction log with
  | nil => exact Nat.le_refl _
  | cons p log ih =>
      obtain ⟨at_, what⟩ := p
      by_cases hlate : rise ≤ at_ <;> cases what <;> simp [streams, hlate] at ih ⊢ <;> omega

end Loops

/-! ## The drain -/

section Drain

variable {limits : Limits} {conns : List Conn} {naps : Nat → Nat}
  {fuel since exit slack : Nat}

theorem drained_of_elapsed {now : Nat} (h : since + limits.shutdownDeadline.nanos ≤ now) :
    drained limits conns since now = true :=
  decide_eq_true (.inr (by omega))

theorem exists_drainLoop (hpos : 1 ≤ limits.pollInterval.nanos) (conns : List Conn)
    (naps : Nat → Nat) (since : Nat) :
    ∃ exit, drainLoop limits conns naps (limits.shutdownDeadline.nanos + 1) since = some exit := by
  have hwait : ∀ k, 1 ≤ (⟨limits.pollInterval.nanos + naps k, none⟩ : Lap Empty).wait :=
    fun k => Nat.le_trans hpos (Nat.le_add_right _ _)
  have hleaves : ∃ r, pollLoop (drained limits conns since) (fun _ : Empty => false)
      (fun k => ⟨limits.pollInterval.nanos + naps k, none⟩)
      (limits.shutdownDeadline.nanos + 1) 0 since = some r :=
    exists_exit (drained_of_elapsed (le_lookAt hwait 0 since _))
  obtain ⟨r, hr⟩ := hleaves
  exact ⟨r.1, by rw [drainLoop, hr]; rfl⟩

theorem drainLoop_mono {more : Nat} (hle : fuel ≤ more)
    (h : drainLoop limits conns naps fuel since = some exit) :
    drainLoop limits conns naps more since = some exit := by
  obtain ⟨r, hr, heq⟩ := Option.map_eq_some_iff.mp h
  rw [drainLoop, pollLoop_mono hle hr, Option.map_some, heq]

theorem le_drainLoop (h : drainLoop limits conns naps fuel since = some exit) :
    since ≤ exit := by
  obtain ⟨⟨exit, log⟩, hr, rfl⟩ := Option.map_eq_some_iff.mp h
  exact le_exit hr

theorem drainLoop_le (hnaps : ∀ k, naps k ≤ slack)
    (h : drainLoop limits conns naps fuel since = some exit) :
    exit ≤ since + limits.shutdownDeadline.nanos + limits.pollInterval.nanos + slack := by
  obtain ⟨⟨exit, log⟩, hr, rfl⟩ := Option.map_eq_some_iff.mp h
  have hexit := exit_le (fun u hu => drained_of_elapsed hu)
    (fun k => Nat.add_le_add_left (hnaps k) limits.pollInterval.nanos) hr
  dsimp only
  omega

end Drain

/-! ## Whole runs -/

section Runs

variable {limits : Limits} {flag : Nat → Bool} {script : Script}
  {fuel start rise slack : Nat} {report : Report}

theorem runWorker_mono {more : Nat} (hle : fuel ≤ more)
    (h : runWorker limits flag script fuel start = some report) :
    runWorker limits flag script more start = some report := by
  obtain ⟨⟨joined, logs⟩, hjoin, h⟩ := Option.bind_eq_some_iff.mp h
  obtain ⟨exit, hdrain, h⟩ := Option.bind_eq_some_iff.mp h
  exact Option.bind_eq_some_iff.mpr ⟨_, pollLoops_mono hle hjoin,
    Option.bind_eq_some_iff.mpr ⟨_, drainLoop_mono hle hdrain, h⟩⟩

/-- The runtime resumes every task of the worker at most `slack` late. -/
structure Script.Paced (limits : Limits) (slack : Nat) (script : Script) : Prop where
  loops : ∀ awaits ∈ script.loops, ∀ k, (awaits k).Paced limits.pollInterval.nanos slack
  naps : ∀ k, script.naps k ≤ slack

/--
Triggered at `rise`, a worker joins its loops, drains and returns, all in
bounded time.  From then on each of its loops takes at most one connection.
-/
theorem worker_returns_in_time (limits : Limits) (hpoll : 1 ≤ limits.pollInterval.nanos)
    (flag : Nat → Bool) (rise : Nat) (hrise : ∀ u, flag u = true ↔ rise ≤ u)
    (script : Script) (slack : Nat) (hpaced : script.Paced limits slack) (start : Nat) :
    ∃ enough report,
      (∀ fuel, enough ≤ fuel → runWorker limits flag script fuel start = some report) ∧
      start ≤ report.joined ∧ (script.loops ≠ [] → rise ≤ report.joined) ∧
      report.joined ≤ max start (rise + (limits.pollInterval.nanos + slack)) ∧
      report.joined ≤ report.exit ∧
      report.exit ≤ report.joined + limits.shutdownDeadline.nanos +
        limits.pollInterval.nanos + slack ∧
      report.accepted.length = script.loops.length ∧
      ∀ conns ∈ report.accepted,
        (∀ c ∈ conns, start ≤ c.at_ ∧ c.at_ ≤ report.joined) ∧
        (conns.filter fun c => rise ≤ c.at_).length ≤ 1 := by
  have hrise' : ∀ u, rise ≤ u → flag u = true := fun u => (hrise u).mpr
  obtain ⟨⟨joined, logs⟩, hjoin⟩ := exists_awaitLoops hrise' hpaced.loops (fun _ => false) start
  obtain ⟨exit, hdrain⟩ :=
    exists_drainLoop hpoll (logs.map streams).flatten script.naps joined
  have hjoined := joined_of_awaitLoops hrise' hpaced.loops hjoin
  refine ⟨max (rise + 1) (limits.shutdownDeadline.nanos + 1), ⟨joined, logs.map streams, exit⟩,
    ?_, hjoined.start_le, ?_, hjoined.joined_le, le_drainLoop hdrain,
    drainLoop_le hpaced.naps hdrain, ?_, ?_⟩
  · intro fuel hfuel
    have hloops := pollLoops_mono (Nat.le_trans (Nat.le_max_left _ _) hfuel) hjoin
    have hleft := drainLoop_mono (Nat.le_trans (Nat.le_max_right _ _) hfuel) hdrain
    exact Option.bind_eq_some_iff.mpr ⟨_, hloops, Option.bind_eq_some_iff.mpr ⟨_, hleft, rfl⟩⟩
  · intro hne
    rcases hjoined.ended (by simpa using hne) with ⟨exit, hle, hflag⟩ | ⟨log, -, p, -, hstop⟩
    · exact Nat.le_trans ((hrise exit).mp hflag) hle
    · cases hstop
  · rw [List.length_map, hjoined.length_logs]
  · intro conns hconns
    obtain ⟨log, hlog, rfl⟩ := List.mem_map.mp hconns
    constructor
    · exact fun c hc => hjoined.within log hlog _ (mem_streams.mp hc)
    · exact Nat.le_trans (length_late_streams_le rise log) (hjoined.late_le log hlog)

def sampleScript : Script where
  loops := [
    fun k => if k = 0 then ⟨some (5, .stream (some 7)), 1⟩ else ⟨none, 1⟩,
    fun k => if k = 0 then ⟨some (120, .stream (some 7)), 1⟩ else ⟨none, 1⟩]
  naps := fun _ => 1

theorem sampleScript_paced : sampleScript.Paced .new 1 := by
  refine ⟨fun awaits hmem k => ?_, fun _ => Nat.le_refl 1⟩
  obtain rfl | rfl : awaits = _ ∨ awaits = _ := by
    simpa only [sampleScript, List.mem_cons, List.not_mem_nil, or_false] using hmem
  all_goals
    by_cases hk : k = 0
    · simp only [hk, if_true]
      exact ⟨Nat.le_refl 1, by decide⟩
    · simp only [hk, if_false]
      exact ⟨Nat.le_refl 1, by decide⟩

theorem worker_returns_in_time_sample :
    ∃ enough report,
      (∀ fuel, enough ≤ fuel →
        runWorker .new (fun u => decide (100 ≤ u)) sampleScript fuel 0 = some report) ∧
      100 ≤ report.joined ∧ report.exit ≤ 30100000102 ∧
      report.accepted = [[⟨6, some 7⟩], [⟨121, some 7⟩]] ∧
      ∀ conns ∈ report.accepted, (conns.filter fun c => 100 ≤ c.at_).length ≤ 1 := by
  obtain ⟨enough, report, hrun, -, hrise, hjoined, -, hexit, -, hconns⟩ :=
    worker_returns_in_time .new (by decide) (fun u => decide (100 ≤ u)) 100
      (fun u => decide_eq_true_iff) sampleScript 1 sampleScript_paced 0
  have hlisten : 100 ≤ report.joined := hrise (List.cons_ne_nil _ _)
  have hpoll : Limits.new.pollInterval.nanos = 50000000 := rfl
  have hdeadline : Limits.new.shutdownDeadline.nanos = 30000000000 := rfl
  have hthree : runWorker .new (fun u => decide (100 ≤ u)) sampleScript 3 0 =
      some ⟨50000007, [[⟨6, some 7⟩], [⟨121, some 7⟩]], 50000007⟩ := by decide
  have hmore := runWorker_mono (Nat.le_max_right enough 3) hthree
  rw [hrun _ (Nat.le_max_left _ _)] at hmore
  refine ⟨enough, report, hrun, hlisten, by omega, ?_, fun conns hmem => (hconns conns hmem).2⟩
  rw [Option.some.inj hmore]

end Runs

end Conduit.Io.Timing
