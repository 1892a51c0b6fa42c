import Conduit.Foundation.Transition
import Conduit.Platform
import Mathlib.Algebra.BigOperators.Fin
import Mathlib.Data.Finset.Card

/-!
# The workers of the plaintext plane

Each worker runs one accept loop per listener, spawns a task per connection
and drains them after the loops have ended.  Both backends run the same loops
and the same drain; they differ in how `Server::wait` adds up the counts.
-/

namespace Conduit.Io

open Foundation

inductive Backend where
  | tokio
  | monoio
  deriving DecidableEq, Repr

structure ServeSpec where
  workers : Nat
  listeners : Nat
  shutdownDeadline : Duration
  deriving DecidableEq, Repr

/-! ## One worker -/

/-- A stream is accepted and then counted; only then is its task spawned. -/
inductive Loop where
  | top
  | accepting
  | accepted
  | counted
  | exited
  deriving DecidableEq, Repr

inductive Exit where
  | failed
  | equal
  /-- Gave up at the instant `at_`, after a drain that began at `since`. -/
  | deadline (since at_ : Nat)
  deriving DecidableEq, Repr

inductive Phase where
  | starting
  | crashed
  | serving
  | draining (since : Nat)
  | left (reason : Exit)
  deriving DecidableEq, Repr

structure Worker where
  phase : Phase := .starting
  loops : List Loop := []
  accepted : Nat := 0
  completed : Nat := 0
  spawned : Nat := 0
  live : Finset Nat := ∅
  aborted : Finset Nat := ∅
  deriving DecidableEq

def fetchAdd64 (n : Nat) : Nat := (n + 1) % 2 ^ 64

inductive WorkerAction where
  | start (converted : Nat)
  | fail
  | crash
  /-- The next step of a loop; `stream` is what a pending `accept` yields. -/
  | turn (i : Nat) (stream : Bool)
  | finish (task : Nat)
  | panic (task : Nat)
  | drain
  | check
  deriving DecidableEq, Repr

namespace Worker

def running (w : Worker) : Bool :=
  match w.phase with
  | .serving | .draining _ => true
  | .starting | .crashed | .left _ => false

def setLoop (w : Worker) (i : Nat) (loop : Loop) : Worker :=
  { w with loops := w.loops.set i loop }

/-- One step of `accept_loop`.  An error and a time-out both go back to the top. -/
def turn (flag : Bool) (w : Worker) (i : Nat) (stream : Bool) : Loop → Option Worker
  | .top => some (w.setLoop i (if flag then .exited else .accepting))
  | .accepting => some (w.setLoop i (if stream then .accepted else .top))
  | .accepted => some { w.setLoop i .counted with accepted := fetchAdd64 w.accepted }
  | .counted =>
      some { w.setLoop i .top with
        live := insert w.spawned w.live
        spawned := w.spawned + 1 }
  | .exited => none

/-- The runtime is dropped, and with it the tasks that are still live. -/
def leave (w : Worker) (reason : Exit) : Worker :=
  { w with phase := .left reason, live := ∅, aborted := w.live }

def step (spec : ServeSpec) (flag : Bool) (now : Nat) (w : Worker) :
    WorkerAction → Option Worker
  | .start converted =>
      if w.phase = .starting ∧ converted ≤ spec.listeners then
        some { w with phase := .serving, loops := List.replicate converted .top }
      else none
  | .fail => if w.phase = .starting then some (w.leave .failed) else none
  | .crash => if w.phase = .starting then some { w with phase := .crashed } else none
  | .turn i stream =>
      if w.running then w.loops[i]?.bind (w.turn flag i stream) else none
  | .finish task =>
      if w.running ∧ task ∈ w.live then
        some { w with live := w.live.erase task, completed := fetchAdd64 w.completed }
      else none
  | .panic task =>
      if w.running ∧ task ∈ w.live then some { w with live := w.live.erase task } else none
  | .drain =>
      if w.phase = .serving ∧ ∀ loop ∈ w.loops, loop = .exited then
        some { w with phase := .draining now }
      else none
  | .check =>
      match w.phase with
      | .draining since =>
          if w.accepted = w.completed then some (w.leave .equal)
          else if spec.shutdownDeadline.nanos ≤ now - since then
            some (w.leave (.deadline since now))
          else some w
      | _ => none

end Worker

/-! ## The server -/

structure Server (spec : ServeSpec) where
  flag : Bool := false
  now : Nat := 0
  workers : Fin spec.workers → Worker := fun _ => {}

inductive Action (spec : ServeSpec) where
  | trigger
  | tick (elapsed : Nat)
  | worker (w : Fin spec.workers) (a : WorkerAction)

variable {spec : ServeSpec}

def Server.setWorker (s : Server spec) (w : Fin spec.workers) (worker : Worker) :
    Server spec :=
  { s with workers := Function.update s.workers w worker }

def step (s : Server spec) : Action spec → Option (Server spec)
  | .trigger => some { s with flag := true }
  | .tick elapsed => some { s with now := s.now + elapsed }
  | .worker w a => ((s.workers w).step spec s.flag s.now a).map (s.setWorker w)

/-- No connection is counted that would bring a counter to `2 ^ 64`. -/
def Within (s : Server spec) : Action spec → Prop
  | .worker w (.turn i _) =>
      (s.workers w).loops[i]? = some .accepted → (s.workers w).accepted + 1 < 2 ^ 64
  | _ => True

instance (s : Server spec) (a : Action spec) : Decidable (Within s a) :=
  match a with
  | .worker w (.turn i _) =>
      inferInstanceAs (Decidable ((s.workers w).loops[i]? = some .accepted →
        (s.workers w).accepted + 1 < 2 ^ 64))
  | .trigger | .tick _ | .worker _ (.start _) | .worker _ .fail | .worker _ .crash
  | .worker _ (.finish _) | .worker _ (.panic _) | .worker _ .drain | .worker _ .check =>
      isTrue trivial

structure Counts where
  accepted : Nat
  completed : Nat
  deriving DecidableEq, Repr

def Worker.counts (w : Worker) : Counts :=
  if w.phase = .left .failed then ⟨0, 0⟩ else ⟨w.accepted, w.completed⟩

def Backend.add : Backend → Nat → Nat → Nat
  | .tokio, a, b => min (a + b) (2 ^ 64 - 1)
  | .monoio, a, b => (a + b) % 2 ^ 64

/-- `Server::wait` over what the threads joined with; `none` is a panic. -/
def wait (backend : Backend) (joined : List (Option Counts)) : Counts :=
  joined.foldl (fun totals result =>
    match result with
    | some c =>
        ⟨backend.add totals.accepted c.accepted, backend.add totals.completed c.completed⟩
    | none => totals) ⟨0, 0⟩

/-! ## What one worker keeps -/

namespace Worker

structure Inv (spec : ServeSpec) (w : Worker) : Prop where
  balance : w.live.card + w.completed + w.loops.count .counted ≤ w.accepted
  bounded : w.accepted < 2 ^ 64
  fresh : ∀ t ∈ w.live, t < w.spawned
  idle : w.phase = .starting → w.live = ∅
  drained : ∀ since, w.phase = .draining since → ∀ loop ∈ w.loops, loop = .exited
  aborted : w.aborted ≠ ∅ → ∃ since at_, w.phase = .left (.deadline since at_) ∧
    spec.shutdownDeadline.nanos ≤ at_ - since

theorem Inv.initial (spec : ServeSpec) : Inv spec {} := by
  refine ⟨?_, ?_, ?_, ?_, ?_, ?_⟩ <;> simp

theorem count_set_counted {loops : List Loop} {i : Nat} {old : Loop}
    (h : loops[i]? = some old) (new : Loop) :
    (loops.set i new).count .counted + (if old = .counted then 1 else 0) =
      loops.count .counted + (if new = .counted then 1 else 0) := by
  obtain ⟨hi, hold⟩ := List.getElem?_eq_some_iff.mp h
  have hmem : old = .counted → 1 ≤ loops.count .counted := by
    rintro rfl
    exact List.count_pos_iff.mpr (hold ▸ List.getElem_mem hi)
  rw [List.count_set hi, hold]
  simp only [beq_iff_eq]
  split_ifs with hcounted
  · have := hmem hcounted
    omega
  · have := hmem hcounted
    omega
  · omega
  · omega

section Steps

variable {w w' : Worker}

theorem Inv.setLoop (h : Inv spec w) (hdrained : ∀ since, w.phase ≠ .draining since)
    {i : Nat} {old new : Loop} (hold : w.loops[i]? = some old) (holdNe : old ≠ .counted)
    (hnew : new ≠ .counted) : Inv spec (w.setLoop i new) := by
  refine ⟨?_, h.bounded, h.fresh, h.idle, fun since hs => absurd hs (hdrained since),
    h.aborted⟩
  have hcount := count_set_counted hold new
  rw [if_neg holdNe, if_neg hnew] at hcount
  exact (congrArg (w.live.card + w.completed + ·) hcount).trans_le h.balance

theorem Inv.turn (h : Inv spec w) (hrunning : w.running = true) {flag stream : Bool}
    {i : Nat} {old : Loop} (hold : w.loops[i]? = some old)
    (hwithin : old = .accepted → w.accepted + 1 < 2 ^ 64)
    (hturn : w.turn flag i stream old = some w') : Inv spec w' := by
  have hdrained : ∀ since, w.phase ≠ .draining since := by
    intro since hphase
    obtain rfl := h.drained since hphase old (List.mem_of_getElem? hold)
    cases hturn
  have hbalance := h.balance
  cases old with
  | top =>
      cases hturn
      exact h.setLoop hdrained hold (by simp) (by split <;> simp)
  | accepting =>
      cases hturn
      exact h.setLoop hdrained hold (by simp) (by split <;> simp)
  | accepted =>
      cases hturn
      have hcount := count_set_counted hold .counted
      have hadd : fetchAdd64 w.accepted = w.accepted + 1 :=
        Nat.mod_eq_of_lt (hwithin rfl)
      rw [if_neg (by simp), if_pos rfl] at hcount
      refine ⟨?_, ?_, h.fresh, h.idle, fun since hs => absurd hs (hdrained since), h.aborted⟩
      · show w.live.card + w.completed + (w.loops.set i .counted).count .counted ≤
          fetchAdd64 w.accepted
        omega
      · exact hadd.trans_lt (hwithin rfl)
  | counted =>
      cases hturn
      have hcount := count_set_counted hold .top
      have hnew : w.spawned ∉ w.live := fun hmem => (h.fresh _ hmem).false
      rw [if_pos rfl, if_neg (by simp)] at hcount
      refine ⟨?_, h.bounded, ?_, ?_, fun since hs => absurd hs (hdrained since), h.aborted⟩
      · show (insert w.spawned w.live).card + w.completed +
          (w.loops.set i .top).count .counted ≤ w.accepted
        rw [Finset.card_insert_of_notMem hnew]
        omega
      · intro t ht
        rcases Finset.mem_insert.mp ht with rfl | ht
        · exact Nat.lt_succ_self _
        · exact (h.fresh t ht).trans (Nat.lt_succ_self _)
      · intro hphase
        replace hphase : w.phase = .starting := hphase
        rw [running, hphase] at hrunning
        cases hrunning
  | exited => cases hturn

theorem Inv.finish (h : Inv spec w) {task : Nat} (htask : task ∈ w.live) :
    Inv spec
      { w with live := w.live.erase task, completed := fetchAdd64 w.completed } := by
  have hbalance := h.balance
  have hbounded := h.bounded
  have hcard := Finset.card_erase_add_one htask
  have hadd : fetchAdd64 w.completed = w.completed + 1 := Nat.mod_eq_of_lt (by omega)
  refine ⟨?_, h.bounded, fun t ht => h.fresh t (Finset.mem_of_mem_erase ht), ?_, h.drained,
    h.aborted⟩
  · show (w.live.erase task).card + fetchAdd64 w.completed + w.loops.count .counted ≤
      w.accepted
    omega
  · intro hphase
    simp [h.idle hphase]

theorem Inv.panic (h : Inv spec w) (task : Nat) :
    Inv spec { w with live := w.live.erase task } := by
  have hbalance := h.balance
  have hcard := Finset.card_erase_le (s := w.live) (a := task)
  refine ⟨?_, h.bounded, fun t ht => h.fresh t (Finset.mem_of_mem_erase ht), ?_, h.drained,
    h.aborted⟩
  · show (w.live.erase task).card + w.completed + w.loops.count .counted ≤ w.accepted
    omega
  · intro hphase
    simp [h.idle hphase]

theorem Inv.leave (h : Inv spec w) {reason : Exit}
    (hreason : w.live ≠ ∅ → ∃ since at_, reason = .deadline since at_ ∧
      spec.shutdownDeadline.nanos ≤ at_ - since) : Inv spec (w.leave reason) := by
  have hbalance := h.balance
  refine ⟨?_, h.bounded, by simp [Worker.leave], by simp [Worker.leave],
    by simp [Worker.leave], ?_⟩
  · show (∅ : Finset Nat).card + w.completed + w.loops.count .counted ≤ w.accepted
    simp only [Finset.card_empty]
    omega
  · intro hlive
    obtain ⟨since, at_, rfl, helapsed⟩ := hreason hlive
    exact ⟨since, at_, rfl, helapsed⟩

theorem Inv.live_eq_empty (h : Inv spec w) (hequal : w.accepted = w.completed) :
    w.live = ∅ := by
  have hbalance := h.balance
  exact Finset.card_eq_zero.mp (by omega)

theorem Inv.check (h : Inv spec w) {flag : Bool} {now : Nat}
    (hstep : w.step spec flag now .check = some w') : Inv spec w' := by
  simp only [step] at hstep
  split at hstep
  · split at hstep
    · rename_i hequal
      cases hstep
      exact h.leave fun hlive => absurd (h.live_eq_empty hequal) hlive
    · split at hstep
      · rename_i since _ _ helapsed
        cases hstep
        exact h.leave fun _ => ⟨since, now, rfl, helapsed⟩
      · cases hstep
        exact h
  · cases hstep

theorem Inv.aborted_eq_empty (h : Inv spec w) (hphase : ∀ reason, w.phase ≠ .left reason) :
    w.aborted = ∅ := by
  by_contra hne
  obtain ⟨since, at_, hleft, -⟩ := h.aborted hne
  exact hphase _ hleft

theorem Inv.start (h : Inv spec w) (hphase : w.phase = .starting) (converted : Nat) :
    Inv spec { w with phase := .serving, loops := List.replicate converted .top } := by
  have hbalance := h.balance
  refine ⟨?_, h.bounded, h.fresh, by simp, by simp, ?_⟩
  · show w.live.card + w.completed + (List.replicate converted Loop.top).count .counted ≤
      w.accepted
    rw [List.count_replicate, if_neg (by decide)]
    omega
  · exact fun hne => absurd (h.aborted_eq_empty (by simp [hphase])) hne

theorem Inv.crash (h : Inv spec w) (hphase : w.phase = .starting) :
    Inv spec { w with phase := .crashed } :=
  ⟨h.balance, h.bounded, h.fresh, by simp, by simp,
    fun hne => absurd (h.aborted_eq_empty (by simp [hphase])) hne⟩

theorem Inv.drain (h : Inv spec w) (hphase : w.phase = .serving)
    (hexited : ∀ loop ∈ w.loops, loop = .exited) (now : Nat) :
    Inv spec { w with phase := .draining now } :=
  ⟨h.balance, h.bounded, h.fresh, by simp, fun _ _ => hexited,
    fun hne => absurd (h.aborted_eq_empty (by simp [hphase])) hne⟩

theorem Inv.step (h : Inv spec w) {flag : Bool} {now : Nat} {a : WorkerAction}
    (hwithin : ∀ i stream, a = .turn i stream → w.loops[i]? = some .accepted →
      w.accepted + 1 < 2 ^ 64)
    (hstep : w.step spec flag now a = some w') : Inv spec w' := by
  cases a with
  | start converted =>
      simp only [Worker.step, Option.ite_none_right_eq_some, Option.some.injEq] at hstep
      obtain ⟨⟨hphase, -⟩, rfl⟩ := hstep
      exact h.start hphase converted
  | fail =>
      simp only [Worker.step, Option.ite_none_right_eq_some, Option.some.injEq] at hstep
      obtain ⟨hphase, rfl⟩ := hstep
      exact h.leave fun hlive => absurd (h.idle hphase) hlive
  | crash =>
      simp only [Worker.step, Option.ite_none_right_eq_some, Option.some.injEq] at hstep
      obtain ⟨hphase, rfl⟩ := hstep
      exact h.crash hphase
  | turn i stream =>
      simp only [Worker.step, Option.ite_none_right_eq_some, Option.bind_eq_some_iff] at hstep
      obtain ⟨hrunning, old, hold, hturn⟩ := hstep
      refine h.turn hrunning hold ?_ hturn
      rintro rfl
      exact hwithin i stream rfl hold
  | finish task =>
      simp only [Worker.step, Option.ite_none_right_eq_some, Option.some.injEq] at hstep
      obtain ⟨⟨-, htask⟩, rfl⟩ := hstep
      exact h.finish htask
  | panic task =>
      simp only [Worker.step, Option.ite_none_right_eq_some, Option.some.injEq] at hstep
      obtain ⟨-, rfl⟩ := hstep
      exact h.panic task
  | drain =>
      simp only [Worker.step, Option.ite_none_right_eq_some, Option.some.injEq] at hstep
      obtain ⟨⟨hphase, hexited⟩, rfl⟩ := hstep
      exact h.drain hphase hexited now
  | check => exact h.check hstep

def DrainBegun (w : Worker) : Prop :=
  (∃ since, w.phase = .draining since) ∨ ∃ reason, w.phase = .left reason

theorem Inv.turn_of_drainBegun (h : Inv spec w) (hbegun : w.DrainBegun) (flag : Bool)
    (now i : Nat) (stream : Bool) : w.step spec flag now (.turn i stream) = none := by
  rw [Worker.step]
  rcases hbegun with ⟨since, hphase⟩ | ⟨reason, hphase⟩
  · cases hloop : w.loops[i]? with
    | none => simp
    | some loop =>
        obtain rfl := h.drained since hphase loop (List.mem_of_getElem? hloop)
        simp [Worker.turn]
  · simp [running, hphase]

theorem Inv.step_of_drainBegun (h : Inv spec w) (hbegun : w.DrainBegun) {flag : Bool}
    {now : Nat} {a : WorkerAction} (hstep : w.step spec flag now a = some w') :
    w'.DrainBegun ∧ w'.accepted = w.accepted := by
  have hphase : w.phase ≠ .starting ∧ w.phase ≠ .serving := by
    rcases hbegun with ⟨since, hphase⟩ | ⟨reason, hphase⟩ <;> simp [hphase]
  cases a with
  | start converted => simp [Worker.step, hphase] at hstep
  | fail => simp [Worker.step, hphase] at hstep
  | crash => simp [Worker.step, hphase] at hstep
  | drain => simp [Worker.step, hphase] at hstep
  | turn i stream =>
      rw [h.turn_of_drainBegun hbegun] at hstep
      cases hstep
  | finish task =>
      simp only [Worker.step, Option.ite_none_right_eq_some, Option.some.injEq] at hstep
      obtain ⟨-, rfl⟩ := hstep
      exact ⟨hbegun, rfl⟩
  | panic task =>
      simp only [Worker.step, Option.ite_none_right_eq_some, Option.some.injEq] at hstep
      obtain ⟨-, rfl⟩ := hstep
      exact ⟨hbegun, rfl⟩
  | check =>
      simp only [Worker.step] at hstep
      split at hstep
      · split at hstep
        · cases hstep
          exact ⟨.inr ⟨_, rfl⟩, rfl⟩
        · split at hstep
          · cases hstep
            exact ⟨.inr ⟨_, rfl⟩, rfl⟩
          · cases hstep
            exact ⟨hbegun, rfl⟩
      · cases hstep

end Steps

end Worker

/-! ## Whole runs -/

section Runs

variable {s s' : Server spec}

theorem step_worker {a : Action spec} (hstep : step s a = some s') (w : Fin spec.workers) :
    s'.workers w = s.workers w ∨
      ∃ act, a = .worker w act ∧
        (s.workers w).step spec s.flag s.now act = some (s'.workers w) := by
  cases a with
  | trigger =>
      cases hstep
      exact .inl rfl
  | tick elapsed =>
      cases hstep
      exact .inl rfl
  | worker u act =>
      obtain ⟨next, hnext, rfl⟩ := Option.map_eq_some_iff.mp hstep
      rcases eq_or_ne w u with rfl | hne
      · exact .inr ⟨act, rfl, by simpa [Server.setWorker] using hnext⟩
      · exact .inl (by simp [Server.setWorker, hne])

theorem inv_step (h : ∀ w, (s.workers w).Inv spec) {a : Action spec} (hwithin : Within s a)
    (hstep : step s a = some s') (w : Fin spec.workers) : (s'.workers w).Inv spec := by
  rcases step_worker hstep w with heq | ⟨act, rfl, hact⟩
  · rw [heq]
    exact h w
  · refine (h w).step ?_ hact
    rintro i stream rfl
    exact hwithin

theorem reachable_inv (h : Reachable step Within ({} : Server spec) s) (w : Fin spec.workers) :
    (s.workers w).Inv spec :=
  h.invariant (fun s => ∀ w, (s.workers w).Inv spec) (fun _ => Worker.Inv.initial spec)
    (fun _ _ _ hinv hwithin hstep => inv_step hinv hwithin hstep) w

theorem reachable_of_drainBegun (hinv : ∀ w, (s.workers w).Inv spec) {w : Fin spec.workers}
    (hbegun : (s.workers w).DrainBegun) (h : Reachable step Within s s') :
    (∀ w, (s'.workers w).Inv spec) ∧ (s'.workers w).DrainBegun ∧
      (s'.workers w).accepted = (s.workers w).accepted := by
  refine h.invariant (fun t => (∀ w, (t.workers w).Inv spec) ∧
    (t.workers w).DrainBegun ∧ (t.workers w).accepted = (s.workers w).accepted)
    ⟨hinv, hbegun, rfl⟩ ?_
  rintro t a t' ⟨htinv, htbegun, htaccepted⟩ hwithin hstep
  refine ⟨inv_step htinv hwithin hstep, ?_⟩
  rcases step_worker hstep w with heq | ⟨act, rfl, hact⟩
  · rw [heq]
    exact ⟨htbegun, htaccepted⟩
  · obtain ⟨hbegun', haccepted⟩ := (htinv w).step_of_drainBegun htbegun hact
    exact ⟨hbegun', haccepted.trans htaccepted⟩

end Runs

/-! ## The report -/

theorem Backend.add_eq (backend : Backend) {a b : Nat} (h : a + b < 2 ^ 64) :
    backend.add a b = a + b := by
  cases backend with
  | tokio => exact Nat.min_eq_left (by omega)
  | monoio => exact Nat.mod_eq_of_lt h

theorem foldl_wait (backend : Backend) (counts : List Counts) (totals : Counts)
    (haccepted : totals.accepted + (counts.map Counts.accepted).sum < 2 ^ 64)
    (hcompleted : totals.completed + (counts.map Counts.completed).sum < 2 ^ 64) :
    (counts.map some).foldl (fun totals result =>
      match result with
      | some c =>
          ⟨backend.add totals.accepted c.accepted, backend.add totals.completed c.completed⟩
      | none => totals) totals =
      ⟨totals.accepted + (counts.map Counts.accepted).sum,
        totals.completed + (counts.map Counts.completed).sum⟩ := by
  induction counts generalizing totals with
  | nil => simp
  | cons c counts ih =>
      simp only [List.map_cons, List.sum_cons] at haccepted hcompleted
      simp only [List.map_cons, List.foldl_cons, List.sum_cons]
      rw [backend.add_eq (by omega), backend.add_eq (by omega),
        ih _ (by dsimp only; omega) (by dsimp only; omega)]
      simp only [Nat.add_assoc]

theorem sum_completed_le {counts : List Counts}
    (hle : ∀ c ∈ counts, c.completed ≤ c.accepted) :
    (counts.map Counts.completed).sum ≤ (counts.map Counts.accepted).sum := by
  induction counts with
  | nil => simp
  | cons c counts ih =>
      simp only [List.forall_mem_cons] at hle
      have hrest := ih hle.2
      simp only [List.map_cons, List.sum_cons]
      omega

theorem sum_eq_iff {counts : List Counts} (hle : ∀ c ∈ counts, c.completed ≤ c.accepted) :
    (counts.map Counts.accepted).sum = (counts.map Counts.completed).sum ↔
      ∀ c ∈ counts, c.accepted = c.completed := by
  induction counts with
  | nil => simp
  | cons c counts ih =>
      simp only [List.forall_mem_cons] at hle ⊢
      have hrest := sum_completed_le hle.2
      rw [← ih hle.2]
      simp only [List.map_cons, List.sum_cons]
      omega

theorem wait_balanced_iff (backend : Backend) {counts : List Counts}
    (hle : ∀ c ∈ counts, c.completed ≤ c.accepted)
    (hbound : (counts.map Counts.accepted).sum < 2 ^ 64) :
    (wait backend (counts.map some)).accepted = (wait backend (counts.map some)).completed ↔
      ∀ c ∈ counts, c.accepted = c.completed := by
  have hsum := sum_completed_le hle
  rw [wait, foldl_wait backend counts ⟨0, 0⟩ (by simpa using hbound)
    (by simpa using hsum.trans_lt hbound), ← sum_eq_iff hle]
  simp only [Nat.zero_add]

theorem Worker.Inv.counts_le {w : Worker} (h : w.Inv spec) :
    w.counts.completed ≤ w.counts.accepted := by
  have hbalance := h.balance
  unfold Worker.counts
  split
  · exact le_refl 0
  · dsimp only
    omega

/-- The plaintext plane drains: what its workers do on every run. -/
theorem plane_drains_safely (spec : ServeSpec) (s : Server spec)
    (h : Reachable step Within ({} : Server spec) s) :
    (∀ w, (s.workers w).completed ≤ (s.workers w).accepted ∧
      (s.workers w).live.card ≤ (s.workers w).accepted - (s.workers w).completed) ∧
    (∀ w, (s.workers w).DrainBegun → ∀ s', Reachable step Within s s' →
      (s'.workers w).accepted = (s.workers w).accepted ∧
      ∀ i stream, step s' (.worker w (.turn i stream)) = none) ∧
    (∀ w, (s.workers w).phase = .left .equal → (s.workers w).aborted = ∅) ∧
    (∀ w, (s.workers w).aborted ≠ ∅ → ∃ since at_,
      (s.workers w).phase = .left (.deadline since at_) ∧
        spec.shutdownDeadline.nanos ≤ at_ - since) ∧
    ∀ backend, (∀ w, ∃ reason, (s.workers w).phase = .left reason) →
      ∑ w, (s.workers w).counts.accepted < 2 ^ 64 →
      let report := wait backend (List.ofFn fun w => some (s.workers w).counts)
      (report.accepted = report.completed ↔
        ∀ w, (s.workers w).counts.accepted = (s.workers w).counts.completed) := by
  have hinv := reachable_inv h
  refine ⟨?_, ?_, ?_, fun w => (hinv w).aborted, ?_⟩
  · intro w
    have hbalance := (hinv w).balance
    omega
  · intro w hbegun s' hs'
    obtain ⟨hinv', hbegun', haccepted⟩ := reachable_of_drainBegun hinv hbegun hs'
    refine ⟨haccepted, fun i stream => ?_⟩
    rw [step, (hinv' w).turn_of_drainBegun hbegun', Option.map_none]
  · intro w hphase
    by_contra hne
    obtain ⟨since, at_, hleft, -⟩ := (hinv w).aborted hne
    rw [hphase] at hleft
    cases hleft
  · intro backend _ hbound
    have hjoined : (List.ofFn fun w => some (s.workers w).counts) =
        (List.ofFn fun w => (s.workers w).counts).map some := by
      rw [List.map_ofFn]
      rfl
    have hsum : ((List.ofFn fun w => (s.workers w).counts).map Counts.accepted).sum < 2 ^ 64 := by
      rw [List.map_ofFn, List.sum_ofFn]
      exact hbound
    simp only [hjoined]
    rw [wait_balanced_iff backend ?_ hsum, List.forall_mem_ofFn_iff]
    exact (List.forall_mem_ofFn_iff).mpr fun w => (hinv w).counts_le

def sampleRun : List (Action ⟨2, 1, Duration.fromSecs 10⟩) :=
  [.worker 0 (.start 1), .worker 1 (.start 1), .worker 0 (.turn 0 false),
    .worker 0 (.turn 0 true), .worker 0 (.turn 0 false), .worker 0 (.turn 0 false),
    .trigger, .worker 0 (.turn 0 false), .worker 1 (.turn 0 false), .worker 0 .drain,
    .worker 1 .drain, .worker 1 .check, .worker 0 .check, .worker 0 (.finish 0),
    .worker 0 .check]

theorem plane_drains_safely_sample :
    let s := (execute step Within {} sampleRun).get (by decide)
    (∑ w, (s.workers w).counts.accepted) = 1 ∧
    ∀ w, (s.workers w).counts.accepted = (s.workers w).counts.completed := by
  intro s
  have hrun : Reachable step Within {} s :=
    Reachable.of_execute Reachable.refl (Option.some_get _).symm
  have hleft : ∀ w, (s.workers w).phase = .left .equal := by decide
  exact ⟨by decide, ((plane_drains_safely _ s hrun).2.2.2.2 .tokio
    (fun w => ⟨.equal, hleft w⟩) (by decide)).mp (by decide)⟩

end Conduit.Io
