import Conduit.Binary.Start
import Conduit.Foundation.Transition

/-!
# The threads of the binary

`main` spawns the threads, waits for the HTTP workers and then stops and joins
the others one by one, so it is a list of instructions.  The listener, admin
and health threads run until they see their cancel flag.  The reload and the
signal thread block on a signal iterator and look at a flag only after it has
yielded.  A signal that arrives before its handler is installed ends the
process, and after `SIGTERM` or `SIGINT` no other signal follows.
-/

namespace Conduit

open Foundation

namespace Threads

inductive Flag where
  | trigger
  | httpsCancel
  | h3Cancel
  | adminCancel
  | healthCancel
  | reloadDone
  | signalReceived
  deriving DecidableEq, Repr

inductive Poller where
  | admin
  | https
  | h3
  | health
  | worker (index : Nat)
  deriving DecidableEq, Repr

def Poller.cancel : Poller → Flag
  | .admin => .adminCancel
  | .https => .httpsCancel
  | .h3 => .h3Cancel
  | .health => .healthCancel
  | .worker _ => .trigger

inductive Thread where
  | reload
  | signal
  | poller (p : Poller)
  deriving DecidableEq, Repr

inductive Instr where
  | spawn (t : Thread)
  | bindHttp
  | store (f : Flag)
  | join (t : Thread)
  deriving DecidableEq, Repr

/-! ## What each thread runs -/

section Programs

variable (start : Start)

def ifPresent {α : Type} (present : Bool) (items : List α) : List α :=
  if present then items else []

@[simp] theorem mem_ifPresent {α : Type} {present : Bool} {items : List α}
    {a : α} : a ∈ ifPresent present items ↔ present = true ∧ a ∈ items := by
  cases present <;> simp [ifPresent]

def workers : List Poller :=
  ifPresent start.servesHttp
    ((List.range start.resolveWorkers).map Poller.worker)

def earlyThreads : List Thread :=
  ifPresent start.servesHttps [Thread.poller .https] ++ [Thread.reload] ++
    ifPresent start.servesH3 [Thread.poller .h3] ++
    ifPresent start.adminSpawns [Thread.poller .admin] ++
    ifPresent start.probesHealth [Thread.poller .health]

def lateThreads : List Thread :=
  (workers start).map Thread.poller ++ [Thread.signal]

def startUp : List Instr :=
  (earlyThreads start).map Instr.spawn ++
    (ifPresent start.servesHttp [Instr.bindHttp] ++
      (lateThreads start).map Instr.spawn)

def wait : List Instr :=
  (workers start).map fun p => .join (.poller p)

def joinBackground : List Instr :=
  [Instr.store .reloadDone, Instr.join .reload, Instr.store .healthCancel] ++
    ifPresent start.probesHealth [Instr.join (.poller .health)]

def joinAuxThreads : List Instr :=
  [Instr.store .adminCancel] ++
    ifPresent start.adminSpawns [Instr.join (.poller .admin)] ++
    ifPresent start.servesHttps
      [Instr.store .httpsCancel, Instr.join (.poller .https)] ++
    ifPresent start.servesH3 [Instr.store .h3Cancel, Instr.join (.poller .h3)] ++
    [Instr.store .signalReceived, Instr.join .signal]

def shutDown : List Instr := joinBackground start ++ joinAuxThreads start

def main : List Instr := startUp start ++ (wait start ++ shutDown start)

def onSignal : List Flag :=
  ifPresent start.servesHttp [Flag.trigger] ++
    ifPresent start.servesHttps [Flag.httpsCancel] ++
    ifPresent start.servesH3 [Flag.h3Cancel] ++ [Flag.adminCancel]

end Programs

/-! ## States and steps -/

inductive PollerPc where
  | unspawned
  | starting
  | serving
  | exited
  deriving DecidableEq, Repr

inductive ReloadPc where
  | unspawned
  | starting
  | waiting
  /-- The iterator has yielded; the flag is still to be read. -/
  | woken
  | reloading
  | exited
  deriving DecidableEq, Repr

inductive SignalPc where
  | unspawned
  | starting
  | waiting
  | woken
  | acting (stores : List Flag)
  | exited
  deriving DecidableEq, Repr

structure State where
  main : List Instr
  reload : ReloadPc := .unspawned
  signal : SignalPc := .unspawned
  poller : Poller → PollerPc := fun _ => .unspawned
  flag : Flag → Bool := fun _ => false
  pendingHup : Bool := false
  pendingTerm : Bool := false
  terminating : Bool := false
  /-- The plaintext bind failed, or a poller (a worker is one) could not start. -/
  failed : Bool := false

namespace State

def spawn (s : State) : Thread → State
  | .reload => { s with reload := .starting }
  | .signal => { s with signal := .starting }
  | .poller p => { s with poller := Function.update s.poller p .starting }

def exited (s : State) : Thread → Bool
  | .reload => s.reload = .exited
  | .signal => s.signal = .exited
  | .poller p => s.poller p = .exited

def store (s : State) (f : Flag) : State :=
  { s with flag := Function.update s.flag f true }

def mainStep (s : State) : Option State :=
  match s.main with
  | [] => none
  | .spawn t :: rest => some { s.spawn t with main := rest }
  | .bindHttp :: rest => some { s with main := rest }
  | .store f :: rest => some { s.store f with main := rest }
  | .join t :: rest => if s.exited t then some { s with main := rest } else none

def bindFails (s : State) : Option State :=
  match s.main with
  | .bindHttp :: _ => some { s with main := [], failed := true }
  | _ => none

def reloadStep (s : State) : Option State :=
  match s.reload with
  | .unspawned => none
  | .starting => some { s with reload := .waiting }
  | .waiting =>
      if s.pendingHup then
        some { s with reload := .woken, pendingHup := false }
      else none
  | .woken =>
      some { s with
        reload := if s.flag .reloadDone then .exited else .reloading }
  | .reloading => some { s with reload := .waiting }
  | .exited => none

def signalStep (start : Start) (s : State) : Option State :=
  match s.signal with
  | .unspawned => none
  | .starting => some { s with signal := .waiting }
  | .waiting =>
      if s.pendingTerm then
        some { s with signal := .woken, pendingTerm := false }
      else none
  | .woken =>
      some { s with
        signal :=
          if s.flag .signalReceived then .exited else .acting (onSignal start) }
  | .acting [] => some { s with signal := .exited }
  | .acting (f :: stores) => some { s.store f with signal := .acting stores }
  | .exited => none

def pollerStep (p : Poller) (s : State) : Option State :=
  match s.poller p with
  | .starting => some { s with poller := Function.update s.poller p .serving }
  | .serving =>
      if s.flag p.cancel then
        some { s with poller := Function.update s.poller p .exited }
      else none
  | _ => none

def pollerFails (p : Poller) (s : State) : Option State :=
  if s.poller p = .starting then
    some { s with
      poller := Function.update s.poller p .exited
      failed := true }
  else none

def hup (s : State) : Option State :=
  if s.terminating = true ∨ s.reload = .unspawned ∨ s.reload = .starting then
    none
  else some { s with pendingHup := true }

def term (s : State) : Option State :=
  if s.terminating = true ∨ s.signal = .unspawned ∨ s.signal = .starting then
    none
  else some { s with pendingTerm := true, terminating := true }

end State

inductive Action where
  | main
  | bindFails
  | reload
  | signal
  | poller (p : Poller)
  | pollerFails (p : Poller)
  | hup
  | term
  deriving DecidableEq, Repr

/-- Signals come from outside; everything else is a thread's step. -/
def Action.ofThread : Action → Bool
  | .hup => false
  | .term => false
  | _ => true

def step (start : Start) (s : State) : Action → Option State
  | .main => s.mainStep
  | .bindFails => s.bindFails
  | .reload => s.reloadStep
  | .signal => s.signalStep start
  | .poller p => s.pollerStep p
  | .pollerFails p => s.pollerFails p
  | .hup => s.hup
  | .term => s.term

def init (start : Start) : State := { main := main start }

def Reached (start : Start) (s : State) : Prop :=
  Reachable (step start) (fun _ _ => True) (init start) s

/-! ## What a step can do -/

/-- The step function read as a relation, one constructor per branch. -/
inductive Move (start : Start) (s : State) : Action → State → Prop where
  | spawn {t rest} (hmain : s.main = .spawn t :: rest) :
      Move start s .main { s.spawn t with main := rest }
  | bind {rest} (hmain : s.main = .bindHttp :: rest) :
      Move start s .main { s with main := rest }
  | store {f rest} (hmain : s.main = .store f :: rest) :
      Move start s .main { s.store f with main := rest }
  | join {t rest} (hmain : s.main = .join t :: rest) (hexit : s.exited t = true) :
      Move start s .main { s with main := rest }
  | bindFails {rest} (hmain : s.main = .bindHttp :: rest) :
      Move start s .bindFails { s with main := [], failed := true }
  | reloadInstalls (hpc : s.reload = .starting) :
      Move start s .reload { s with reload := .waiting }
  | reloadWakes (hpc : s.reload = .waiting) (hpending : s.pendingHup = true) :
      Move start s .reload { s with reload := .woken, pendingHup := false }
  | reloadStops (hpc : s.reload = .woken) (hdone : s.flag .reloadDone = true) :
      Move start s .reload { s with reload := .exited }
  | reloadAttempts (hpc : s.reload = .woken)
      (hdone : s.flag .reloadDone = false) :
      Move start s .reload { s with reload := .reloading }
  | reloadReturns (hpc : s.reload = .reloading) :
      Move start s .reload { s with reload := .waiting }
  | signalInstalls (hpc : s.signal = .starting) :
      Move start s .signal { s with signal := .waiting }
  | signalWakes (hpc : s.signal = .waiting) (hpending : s.pendingTerm = true) :
      Move start s .signal { s with signal := .woken, pendingTerm := false }
  | signalStops (hpc : s.signal = .woken)
      (hreceived : s.flag .signalReceived = true) :
      Move start s .signal { s with signal := .exited }
  | signalActs (hpc : s.signal = .woken)
      (hreceived : s.flag .signalReceived = false) :
      Move start s .signal { s with signal := .acting (onSignal start) }
  | signalStores {f stores} (hpc : s.signal = .acting (f :: stores)) :
      Move start s .signal { s.store f with signal := .acting stores }
  | signalReturns (hpc : s.signal = .acting []) :
      Move start s .signal { s with signal := .exited }
  | pollerServes {p} (hpc : s.poller p = .starting) :
      Move start s (.poller p)
        { s with poller := Function.update s.poller p .serving }
  | pollerStops {p} (hpc : s.poller p = .serving)
      (hcancel : s.flag p.cancel = true) :
      Move start s (.poller p)
        { s with poller := Function.update s.poller p .exited }
  | pollerFails {p} (hpc : s.poller p = .starting) :
      Move start s (.pollerFails p)
        { s with poller := Function.update s.poller p .exited, failed := true }
  | hup (hterm : s.terminating = false) (hpc : s.reload ≠ .unspawned)
      (hpc' : s.reload ≠ .starting) :
      Move start s .hup { s with pendingHup := true }
  | term (hterm : s.terminating = false) (hpc : s.signal ≠ .unspawned)
      (hpc' : s.signal ≠ .starting) :
      Move start s .term { s with pendingTerm := true, terminating := true }

variable {start : Start} {s s' : State} {a : Action}

private theorem move_of_mainStep (h : s.mainStep = some s') :
    Move start s .main s' := by
  unfold State.mainStep at h
  split at h
  · cases h
  · rename_i hmain
    cases h
    exact .spawn hmain
  · rename_i hmain
    cases h
    exact .bind hmain
  · rename_i hmain
    cases h
    exact .store hmain
  · rename_i hmain
    split at h
    · rename_i hexit
      cases h
      exact .join hmain hexit
    · cases h

private theorem move_of_reloadStep (h : s.reloadStep = some s') :
    Move start s .reload s' := by
  unfold State.reloadStep at h
  split at h
  · cases h
  · cases h
    exact .reloadInstalls ‹_›
  · split at h
    · cases h
      exact .reloadWakes ‹_› ‹_›
    · cases h
  · cases h
    cases hdone : s.flag .reloadDone with
    | false => exact .reloadAttempts ‹_› hdone
    | true => exact .reloadStops ‹_› hdone
  · cases h
    exact .reloadReturns ‹_›
  · cases h

private theorem move_of_signalStep (h : s.signalStep start = some s') :
    Move start s .signal s' := by
  unfold State.signalStep at h
  split at h
  · cases h
  · cases h
    exact .signalInstalls ‹_›
  · split at h
    · cases h
      exact .signalWakes ‹_› ‹_›
    · cases h
  · cases h
    cases hreceived : s.flag .signalReceived with
    | false => exact .signalActs ‹_› hreceived
    | true => exact .signalStops ‹_› hreceived
  · cases h
    exact .signalReturns ‹_›
  · cases h
    exact .signalStores ‹_›
  · cases h

private theorem move_of_pollerStep {p : Poller}
    (h : s.pollerStep p = some s') : Move start s (.poller p) s' := by
  unfold State.pollerStep at h
  split at h
  · cases h
    exact .pollerServes ‹_›
  · split at h
    · cases h
      exact .pollerStops ‹_› ‹_›
    · cases h
  · cases h

theorem move_of_step (h : step start s a = some s') : Move start s a s' := by
  cases a with
  | main => exact move_of_mainStep h
  | bindFails =>
      simp only [step, State.bindFails] at h
      split at h
      · cases h
        exact .bindFails ‹_›
      · cases h
  | reload => exact move_of_reloadStep h
  | signal => exact move_of_signalStep h
  | poller p => exact move_of_pollerStep h
  | pollerFails p =>
      simp only [step, State.pollerFails] at h
      split at h
      · cases h
        exact .pollerFails ‹_›
      · cases h
  | hup =>
      simp only [step, State.hup] at h
      split at h
      · cases h
      · rename_i hguard
        simp only [not_or, Bool.not_eq_true] at hguard
        cases h
        exact .hup hguard.1 hguard.2.1 hguard.2.2
  | term =>
      simp only [step, State.term] at h
      split at h
      · cases h
      · rename_i hguard
        simp only [not_or, Bool.not_eq_true] at hguard
        cases h
        exact .term hguard.1 hguard.2.1 hguard.2.2

theorem step_of_move (h : Move start s a s') : step start s a = some s' := by
  cases h with
  | spawn hmain => simp [step, State.mainStep, hmain]
  | bind hmain => simp [step, State.mainStep, hmain]
  | store hmain => simp [step, State.mainStep, hmain]
  | join hmain hexit => simp [step, State.mainStep, hmain, hexit]
  | bindFails hmain => simp [step, State.bindFails, hmain]
  | reloadInstalls hpc => simp [step, State.reloadStep, hpc]
  | reloadWakes hpc hpending => simp [step, State.reloadStep, hpc, hpending]
  | reloadStops hpc hdone => simp [step, State.reloadStep, hpc, hdone]
  | reloadAttempts hpc hdone => simp [step, State.reloadStep, hpc, hdone]
  | reloadReturns hpc => simp [step, State.reloadStep, hpc]
  | signalInstalls hpc => simp [step, State.signalStep, hpc]
  | signalWakes hpc hpending => simp [step, State.signalStep, hpc, hpending]
  | signalStops hpc hreceived => simp [step, State.signalStep, hpc, hreceived]
  | signalActs hpc hreceived => simp [step, State.signalStep, hpc, hreceived]
  | signalStores hpc => simp [step, State.signalStep, hpc]
  | signalReturns hpc => simp [step, State.signalStep, hpc]
  | pollerServes hpc => simp [step, State.pollerStep, hpc]
  | pollerStops hpc hcancel => simp [step, State.pollerStep, hpc, hcancel]
  | pollerFails hpc => simp [step, State.pollerFails, hpc]
  | hup hterm hpc hpc' => simp [step, State.hup, hterm, hpc, hpc']
  | term hterm hpc hpc' => simp [step, State.term, hterm, hpc, hpc']

/-! ## Building runs -/

theorem Reached.move (h : Reached start s) (hmove : Move start s a s') :
    Reached start s' :=
  Reachable.tail h trivial (step_of_move hmove)

def State.spawnAll (s : State) (ts : List Thread) : State :=
  { s with
    reload := if .reload ∈ ts then .starting else s.reload
    signal := if .signal ∈ ts then .starting else s.signal
    poller := fun p => if .poller p ∈ ts then .starting else s.poller p }

private theorem spawnAll_spawn (t : Thread) (ts : List Thread)
    (s : State) (rest rest' : List Instr) :
    { State.spawnAll { s.spawn t with main := rest } ts with main := rest' } =
      { s.spawnAll (t :: ts) with main := rest' } := by
  cases t with
  | reload => simp [State.spawnAll, State.spawn]
  | signal => simp [State.spawnAll, State.spawn]
  | poller p =>
      simp only [State.spawnAll, State.spawn, List.mem_cons, reduceCtorEq,
        false_or, Thread.poller.injEq, State.mk.injEq, true_and, and_true]
      funext q
      by_cases hq : q = p
      · simp [hq]
      · simp [hq, Function.update_of_ne]

theorem reached_spawns (ts : List Thread) {s : State} {rest : List Instr}
    (h : Reached start s) (hmain : s.main = ts.map Instr.spawn ++ rest) :
    Reached start { s.spawnAll ts with main := rest } := by
  induction ts generalizing s with
  | nil =>
      have heq : { s.spawnAll [] with main := rest } = s := by
        simp only [List.map_nil, List.nil_append] at hmain
        simp [State.spawnAll, ← hmain]
      rw [heq]
      exact h
  | cons t ts ih =>
      rw [← spawnAll_spawn t ts s (ts.map Instr.spawn ++ rest) rest]
      exact ih (h.move (.spawn (by simpa using hmain))) rfl

def threads (start : Start) : List Thread :=
  earlyThreads start ++ lateThreads start

theorem reload_mem_threads : Thread.reload ∈ threads start := by
  simp [threads, earlyThreads]

theorem signal_mem_threads : Thread.signal ∈ threads start := by
  simp [threads, lateThreads]

def launched (start : Start) : State :=
  { (init start).spawnAll (threads start) with main := wait start ++ shutDown start }

private theorem spawnAll_append (s : State) (rest : List Instr)
    (ts ts' : List Thread) :
    State.spawnAll { s.spawnAll ts with main := rest } ts' =
      { s.spawnAll (ts ++ ts') with main := rest } := by
  simp only [State.spawnAll, State.mk.injEq, List.mem_append, true_and,
    and_true]
  refine ⟨?_, ?_, funext fun p => ?_⟩
  · by_cases h : Thread.reload ∈ ts' <;> simp [h]
  · by_cases h : Thread.signal ∈ ts' <;> simp [h]
  · by_cases h : Thread.poller p ∈ ts' <;> simp [h]

theorem reached_launched (start : Start) : Reached start (launched start) := by
  have hearly : Reached start
      { (init start).spawnAll (earlyThreads start) with
        main := ifPresent start.servesHttp [Instr.bindHttp] ++
          ((lateThreads start).map Instr.spawn ++
            (wait start ++ shutDown start)) } :=
    reached_spawns (earlyThreads start) .refl (by
      simp [init, main, startUp])
  have hbound : Reached start
      { (init start).spawnAll (earlyThreads start) with
        main := (lateThreads start).map Instr.spawn ++
          (wait start ++ shutDown start) } := by
    cases hhttp : start.servesHttp with
    | false => simpa [hhttp, ifPresent] using hearly
    | true => exact hearly.move (.bind (by simp [hhttp, ifPresent]))
  have hlate := reached_spawns (lateThreads start) hbound rfl
  rwa [spawnAll_append] at hlate

end Threads

end Conduit
