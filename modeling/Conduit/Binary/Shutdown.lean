import Conduit.Binary.Planes

/-!
# Shutdown after a termination signal

`main` stores `reload_done` and then joins the reload thread, which reads that
flag only after a further `SIGHUP`.  A run in which a `SIGHUP` is still
outstanding at the store never gets stuck; without one every configuration has
a run that deadlocks.
-/

namespace Conduit

open Foundation

namespace Threads

variable {start : Start} {s s' : State} {a : Action}

def Blocked (start : Start) (s : State) : Prop :=
  ∀ a, a.ofThread = true → step start s a = none

/-- `main` joins a thread that only a further signal could wake. -/
def AwaitsSignal (s : State) : Prop :=
  (∃ rest, s.main = .join .reload :: rest ∧ s.reload = .waiting ∧
    s.pendingHup = false) ∨
  ∃ rest, s.main = .join .signal :: rest ∧ s.signal = .waiting ∧
    s.pendingTerm = false

/-- The termination signal has come, and `main` will not return. -/
def Stuck (start : Start) (s : State) : Prop :=
  s.terminating = true ∧ s.main ≠ [] ∧ (Blocked start s ∨ AwaitsSignal s)

/-- A `SIGHUP` was delivered whose look at `reload_done` is still to come. -/
def HupOutstanding (s : State) : Prop :=
  s.pendingHup = true ∨ s.reload = .woken

/-- `main` stores `reload_done` only while a `SIGHUP` is outstanding. -/
def Guarded (s : State) (a : Action) : Prop :=
  a = .main → s.main.head? = some (.store .reloadDone) → HupOutstanding s

instance (s : State) (a : Action) : Decidable (Guarded s a) :=
  inferInstanceAs (Decidable (a = .main →
    s.main.head? = some (.store .reloadDone) →
      s.pendingHup = true ∨ s.reload = .woken))

/-! ## The order of events -/

def Effect (s : State) : Instr → Prop
  | .spawn .reload => s.reload ≠ .unspawned
  | .spawn .signal => s.signal ≠ .unspawned
  | .spawn (.poller p) => s.poller p ≠ .unspawned
  | .store f => s.flag f = true
  | _ => True

def Cause (s : State) : Instr → Prop
  | .spawn .signal => s.signal ≠ .unspawned
  | .store .reloadDone => s.flag .reloadDone = true
  | .store .signalReceived => s.flag .signalReceived = true
  | _ => False

structure Orderly (start : Start) (s : State) : Prop where
  executed : Executed (Effect s) (Cause s) (main start) s.main
  acting : ∀ stores, s.signal = .acting stores →
    (∀ f ∈ stores, f ∈ onSignal start) ∧
    ∀ f ∈ onSignal start, f ∈ stores ∨ s.flag f = true
  acted : s.signal = .exited →
    s.flag .signalReceived = true ∨ ∀ f ∈ onSignal start, s.flag f = true
  taken : s.terminating = true →
    s.signal = .unspawned ∨ s.signal = .starting ∨ s.signal = .waiting →
      s.pendingTerm = true
  outstanding : s.flag .reloadDone = true →
    s.pendingHup = true ∨ s.reload = .woken ∨ s.reload = .exited

theorem store_flag_mono {f g : Flag} (h : s.flag g = true) :
    (s.store f).flag g = true := by
  by_cases hg : g = f
  · simp [State.store, hg]
  · simpa [State.store, hg] using h

theorem reloadDone_not_mem_onSignal : Flag.reloadDone ∉ onSignal start := by
  simp [onSignal]

theorem signalReceived_not_mem_onSignal :
    Flag.signalReceived ∉ onSignal start := by
  simp [onSignal]

theorem orderly_init : Orderly start (init start) where
  executed := Executed.start fun i => by
    cases i with
    | spawn t => cases t <;> simp [Cause, init]
    | bindHttp => simp [Cause]
    | store f => cases f <;> simp [Cause, init]
    | join t => simp [Cause]
  acting := by simp [init]
  acted := by simp [init]
  taken := by simp [init]
  outstanding := by simp [init]

theorem Move.effect_mono (hmove : Move start s a s') (i : Instr)
    (hi : Effect s i) : Effect s' i := by
  cases i with
  | bindHttp => trivial
  | join t => trivial
  | store f =>
      cases hmove with
      | @spawn t rest hmain => cases t <;> exact hi
      | store hmain => exact store_flag_mono hi
      | signalStores hpc => exact store_flag_mono hi
      | _ => exact hi
  | spawn t =>
      have hupdate : ∀ p q (pc : PollerPc), pc ≠ .unspawned →
          s.poller q ≠ .unspawned →
          Function.update s.poller p pc q ≠ .unspawned := by
        intro p q pc hpc hq
        by_cases heq : q = p
        · simpa [heq] using hpc
        · simpa [heq] using hq
      cases hmove with
      | @spawn t' rest hmain =>
          cases t with
          | reload => cases t' <;> first | exact hi | simp [Effect, State.spawn]
          | signal => cases t' <;> first | exact hi | simp [Effect, State.spawn]
          | poller q =>
              cases t' with
              | poller p => exact hupdate p q _ (by simp) hi
              | _ => exact hi
      | @pollerServes p hpc =>
          cases t with
          | poller q => exact hupdate p q _ (by simp) hi
          | _ => exact hi
      | @pollerStops p hpc hcancel =>
          cases t with
          | poller q => exact hupdate p q _ (by simp) hi
          | _ => exact hi
      | @pollerFails p hpc =>
          cases t with
          | poller q => exact hupdate p q _ (by simp) hi
          | _ => exact hi
      | _ => cases t <;> first | exact hi | simp [Effect]

/-! ## Program positions -/

theorem main_eq : main start = startUp start ++ (wait start ++ shutDown start) :=
  rfl

theorem spawn_not_mem_tail (t : Thread) :
    Instr.spawn t ∉ wait start ++ shutDown start := by
  simp [wait, shutDown, joinBackground, joinAuxThreads]

theorem store_not_mem_startUp (f : Flag) : Instr.store f ∉ startUp start := by
  simp [startUp]

theorem join_not_mem_startUp (t : Thread) : Instr.join t ∉ startUp start := by
  simp [startUp]

theorem store_not_mem_wait (f : Flag) : Instr.store f ∉ wait start := by
  simp [wait]

theorem join_worker_not_mem_shutDown (i : Nat) :
    Instr.join (.poller (.worker i)) ∉ shutDown start := by
  simp [shutDown, joinBackground, joinAuxThreads]

theorem not_stored_at_spawn {t : Thread} {rest : List Instr}
    (h : Executed (Effect s) (Cause s) (main start) (.spawn t :: rest))
    (f : Flag) : ¬ Cause s (.store f) :=
  Executed.not_cause h (spawn_not_mem_tail t) (store_not_mem_startUp f)

theorem unspawned_at_spawn_signal {rest : List Instr}
    (h : Executed (Effect s) (Cause s) (main start) (.spawn .signal :: rest)) :
    s.signal = .unspawned := by
  have hmain : main start =
      ((earlyThreads start).map Instr.spawn ++
        (ifPresent start.servesHttp [Instr.bindHttp] ++
          ((workers start).map Thread.poller).map Instr.spawn)) ++
      .spawn .signal :: (wait start ++ shutDown start) := by
    simp [main, startUp, lateThreads]
  rw [hmain] at h
  have hnot := h.not_cause_self (by simp [earlyThreads])
    (spawn_not_mem_tail .signal)
  simpa [Cause] using hnot

/-! ## One step keeps the order -/

theorem cause_of (hsignal : s.signal = .unspawned → s'.signal = .unspawned)
    (hdone : s'.flag .reloadDone = s.flag .reloadDone)
    (hreceived : s'.flag .signalReceived = s.flag .signalReceived)
    (i : Instr) (hi : Cause s' i) : Cause s i := by
  cases i with
  | bindHttp => exact hi
  | join t => exact hi
  | spawn t =>
      cases t with
      | signal => exact fun h => hi (hsignal h)
      | _ => exact hi
  | store f =>
      cases f with
      | reloadDone => exact hdone.symm.trans hi
      | signalReceived => exact hreceived.symm.trans hi
      | _ => exact hi

theorem Orderly.executed_move (h : Orderly start s) (hmove : Move start s a s')
    (hmain : s'.main = s.main)
    (hsignal : s.signal = .unspawned → s'.signal = .unspawned)
    (hdone : s'.flag .reloadDone = s.flag .reloadDone)
    (hreceived : s'.flag .signalReceived = s.flag .signalReceived) :
    Executed (Effect s') (Cause s') (main start) s'.main := by
  rw [hmain]
  exact h.executed.mono hmove.effect_mono (cause_of hsignal hdone hreceived)

theorem Orderly.spawn (h : Orderly start s) {t : Thread} {rest : List Instr}
    (hmain : s.main = .spawn t :: rest) :
    Orderly start { s.spawn t with main := rest } := by
  have hexec := h.executed
  rw [hmain] at hexec
  have hmove : Move start s .main { s.spawn t with main := rest } :=
    .spawn hmain
  have hmono := hmove.effect_mono
  cases t with
  | reload =>
      refine ⟨hexec.next hmono (by simp [Effect, State.spawn]) ?_, h.acting,
        h.acted, h.taken, ?_⟩
      · exact fun i hi => .inl (cause_of id rfl rfl i hi)
      · intro hdone
        exact absurd hdone (not_stored_at_spawn hexec .reloadDone)
  | signal =>
      have hunspawned := unspawned_at_spawn_signal hexec
      refine ⟨hexec.next hmono (by simp [Effect, State.spawn]) ?_,
        by simp [State.spawn], by simp [State.spawn], ?_, h.outstanding⟩
      · intro i hi
        by_cases heq : i = .spawn .signal
        · exact .inr heq
        · left
          cases i with
          | spawn t => cases t <;> first | exact hi | exact absurd rfl heq
          | store f => cases f <;> exact hi
          | _ => exact hi
      · exact fun hterm _ => h.taken hterm (.inl hunspawned)
  | poller p =>
      refine ⟨hexec.next hmono (by simp [Effect, State.spawn]) ?_, h.acting,
        h.acted, h.taken, h.outstanding⟩
      exact fun i hi => .inl (cause_of id rfl rfl i hi)

theorem Orderly.store (h : Orderly start s) {f : Flag} {rest : List Instr}
    (hmain : s.main = .store f :: rest)
    (hguard : f = .reloadDone → HupOutstanding s) :
    Orderly start { s.store f with main := rest } := by
  have hexec := h.executed
  rw [hmain] at hexec
  have hmove : Move start s .main { s.store f with main := rest } :=
    .store hmain
  have hmono := hmove.effect_mono
  have hflag : ∀ g, g ≠ f → (s.store f).flag g = s.flag g := by
    intro g hg
    simp [State.store, hg]
  refine ⟨hexec.next hmono (by simp [Effect, State.store]) ?_, ?_, ?_, h.taken, ?_⟩
  · intro i hi
    by_cases heq : i = .store f
    · exact .inr heq
    · left
      cases i with
      | spawn t => cases t <;> exact hi
      | store g =>
          have hg : g ≠ f := fun hg => heq (hg ▸ rfl)
          cases g with
          | reloadDone => exact (hflag _ hg).symm.trans hi
          | signalReceived => exact (hflag _ hg).symm.trans hi
          | _ => exact hi
      | _ => exact hi
  · intro stores hacting
    obtain ⟨hsub, hleft⟩ := h.acting stores hacting
    exact ⟨hsub, fun g hg => (hleft g hg).imp id store_flag_mono⟩
  · intro hexit
    rcases h.acted hexit with hreceived | hall
    · exact .inl (store_flag_mono hreceived)
    · exact .inr fun g hg => store_flag_mono (hall g hg)
  · intro hdone
    by_cases hf : f = .reloadDone
    · rcases hguard hf with hpending | hwoken
      · exact .inl hpending
      · exact .inr (.inl hwoken)
    · exact h.outstanding ((hflag _ (Ne.symm hf)).symm.trans hdone)

theorem Orderly.reload_step (h : Orderly start s) {pc : ReloadPc} {hup : Bool}
    (hmove : Move start s a { s with reload := pc, pendingHup := hup })
    (hout : s.flag .reloadDone = true →
      hup = true ∨ pc = .woken ∨ pc = .exited) :
    Orderly start { s with reload := pc, pendingHup := hup } :=
  { h with
    executed := h.executed_move hmove rfl id rfl rfl
    outstanding := hout }

theorem Orderly.pending (h : Orderly start s) (hwoken : s.reload ≠ .woken)
    (hexit : s.reload ≠ .exited) (hdone : s.flag .reloadDone = true) :
    s.pendingHup = true := by
  rcases h.outstanding hdone with hpending | hpc | hpc
  · exact hpending
  · exact absurd hpc hwoken
  · exact absurd hpc hexit

theorem Orderly.signal_step (h : Orderly start s) {pc : SignalPc} {term : Bool}
    (hmove : Move start s a { s with signal := pc, pendingTerm := term })
    (hspawned : s.signal ≠ .unspawned)
    (hacting : ∀ stores, pc = .acting stores → stores = onSignal start)
    (hacted : pc = .exited →
      s.flag .signalReceived = true ∨ ∀ f ∈ onSignal start, s.flag f = true)
    (htaken : s.terminating = true →
      pc = .unspawned ∨ pc = .starting ∨ pc = .waiting → term = true) :
    Orderly start { s with signal := pc, pendingTerm := term } where
  executed := h.executed_move hmove rfl (fun hpc => absurd hpc hspawned) rfl rfl
  acting stores hpc := by
    rw [hacting stores hpc]
    exact ⟨fun _ hf => hf, fun _ hf => .inl hf⟩
  acted := hacted
  taken := htaken
  outstanding := h.outstanding

theorem Orderly.signal_store (h : Orderly start s) {f : Flag}
    {stores : List Flag} (hpc : s.signal = .acting (f :: stores)) :
    Orderly start { s.store f with signal := .acting stores } := by
  obtain ⟨hsub, hleft⟩ := h.acting _ hpc
  have hf : f ∈ onSignal start := hsub f List.mem_cons_self
  have hflag : ∀ g, g ∉ onSignal start → (s.store f).flag g = s.flag g := by
    intro g hg
    have hne : g ≠ f := fun heq => hg (heq ▸ hf)
    simp [State.store, hne]
  have hdone := hflag _ reloadDone_not_mem_onSignal
  refine ⟨h.executed_move (.signalStores hpc) rfl (by simp [hpc]) hdone
    (hflag _ signalReceived_not_mem_onSignal), ?_, by simp, by simp,
    fun hset => h.outstanding (hdone.symm.trans hset)⟩
  rintro stores' hacting
  cases hacting
  refine ⟨fun g hg => hsub g (List.mem_cons_of_mem _ hg), fun g hg => ?_⟩
  rcases hleft g hg with hmem | hset
  · rcases List.mem_cons.mp hmem with rfl | hmem
    · exact .inr (by simp [State.store])
    · exact .inl hmem
  · exact .inr (store_flag_mono hset)

theorem Orderly.pass (h : Orderly start s) {i : Instr} {rest : List Instr}
    (hmain : s.main = i :: rest) (heffect : Effect s i) :
    Orderly start { s with main := rest } := by
  have hexec := h.executed
  rw [hmain] at hexec
  exact { h with
    executed := hexec.next (fun _ hi => hi) heffect fun _ hi => .inl hi }

theorem Orderly.poller_step (h : Orderly start s) {poller : Poller → PollerPc}
    {failed : Bool}
    (hmove : Move start s a { s with poller := poller, failed := failed }) :
    Orderly start { s with poller := poller, failed := failed } :=
  { h with executed := h.executed_move hmove rfl id rfl rfl }

theorem Orderly.move (h : Orderly start s) (hmove : Move start s a s')
    (hguard : Guarded s a) : s'.main = [] ∨ Orderly start s' := by
  cases hmove with
  | spawn hmain => exact .inr (h.spawn hmain)
  | bind hmain => exact .inr (h.pass hmain trivial)
  | @store f rest hmain =>
      refine .inr (h.store hmain ?_)
      rintro rfl
      exact hguard rfl (by simp [hmain])
  | join hmain hexit => exact .inr (h.pass hmain trivial)
  | bindFails hmain => exact .inl rfl
  | reloadInstalls hpc =>
      exact .inr (h.reload_step (.reloadInstalls hpc) fun hdone =>
        .inl (h.pending (by simp [hpc]) (by simp [hpc]) hdone))
  | reloadWakes hpc hpending =>
      exact .inr (h.reload_step (.reloadWakes hpc hpending) fun _ =>
        .inr (.inl rfl))
  | reloadStops hpc hdone =>
      exact .inr (h.reload_step (.reloadStops hpc hdone) fun _ =>
        .inr (.inr rfl))
  | reloadAttempts hpc hdone =>
      refine .inr (h.reload_step (.reloadAttempts hpc hdone) fun hset => ?_)
      rw [hdone] at hset
      cases hset
  | reloadReturns hpc =>
      exact .inr (h.reload_step (.reloadReturns hpc) fun hdone =>
        .inl (h.pending (by simp [hpc]) (by simp [hpc]) hdone))
  | signalInstalls hpc =>
      exact .inr (h.signal_step (.signalInstalls hpc) (by simp [hpc]) (by simp)
        (by simp) fun hterm _ => h.taken hterm (.inr (.inl hpc)))
  | signalWakes hpc hpending =>
      exact .inr (h.signal_step (.signalWakes hpc hpending) (by simp [hpc])
        (by simp) (by simp) (by simp))
  | signalStops hpc hreceived =>
      exact .inr (h.signal_step (.signalStops hpc hreceived) (by simp [hpc])
        (by simp) (fun _ => .inl hreceived) (by simp))
  | signalActs hpc hreceived =>
      exact .inr (h.signal_step (.signalActs hpc hreceived) (by simp [hpc])
        (fun _ hacting => (SignalPc.acting.inj hacting).symm) (by simp)
        (by simp))
  | signalStores hpc => exact .inr (h.signal_store hpc)
  | signalReturns hpc =>
      obtain ⟨-, hleft⟩ := h.acting _ hpc
      exact .inr (h.signal_step (.signalReturns hpc) (by simp [hpc]) (by simp)
        (fun _ => .inr fun f hf => by simpa using hleft f hf) (by simp))
  | pollerServes hpc => exact .inr (h.poller_step (.pollerServes hpc))
  | pollerStops hpc hcancel => exact .inr (h.poller_step (.pollerStops hpc hcancel))
  | pollerFails hpc => exact .inr (h.poller_step (.pollerFails hpc))
  | hup hterm hpc hpc' =>
      exact .inr (h.reload_step (.hup hterm hpc hpc') fun _ => .inl rfl)
  | term hterm hpc hpc' =>
      exact .inr { h with
        executed := h.executed_move (.term hterm hpc hpc') rfl id rfl rfl
        taken := fun _ _ => rfl }

theorem Move.main_nil (hmove : Move start s a s') (h : s.main = []) :
    s'.main = [] := by
  cases hmove with
  | spawn hmain => simp [h] at hmain
  | bind hmain => simp [h] at hmain
  | store hmain => simp [h] at hmain
  | join hmain hexit => simp [h] at hmain
  | bindFails hmain => rfl
  | _ => exact h

theorem orderly_of_guarded
    (h : Reachable (step start) Guarded (init start) s) :
    s.main = [] ∨ Orderly start s := by
  refine h.invariant (fun s => s.main = [] ∨ Orderly start s)
    (.inr orderly_init) ?_
  intro s a s' ih hguard hs
  rcases ih with hnil | hord
  · exact .inl ((move_of_step hs).main_nil hnil)
  · exact hord.move (move_of_step hs) hguard

/-! ## Progress -/

theorem mem_threads_of_join {t : Thread} (h : Instr.join t ∈ main start) :
    t ∈ threads start := by
  simp only [main, startUp, wait, shutDown, joinBackground, joinAuxThreads,
    List.mem_append, List.mem_map, mem_ifPresent, List.mem_cons,
    List.not_mem_nil, reduceCtorEq, and_false, exists_false, false_or,
    or_false, Instr.join.injEq] at h
  rcases h with h | (h | h) | ((h | h) | h) | h <;>
    simp [threads, earlyThreads, lateThreads, h]

theorem servesHttp_of_join_worker {i : Nat}
    (h : Instr.join (.poller (.worker i)) ∈ main start) :
    start.servesHttp = true := by
  have hmem : start.servesHttp = true ∧ i < start.resolveWorkers := by
    simpa [threads, earlyThreads, lateThreads, workers] using
      mem_threads_of_join h
  exact hmem.1

theorem precedes_spawn_join {t : Thread} (hmem : Instr.join t ∈ main start) :
    Precedes (main start) (.spawn t) (.join t) := by
  refine precedes_append ?_ (join_not_mem_startUp t)
  simpa [startUp, threads] using mem_threads_of_join hmem

theorem precedes_reloadDone :
    Precedes (main start) (.store .reloadDone) (.join .reload) := by
  have hmain : main start = (startUp start ++ (wait start ++
      [Instr.store .reloadDone])) ++ (Instr.join .reload ::
        .store .healthCancel :: (ifPresent start.probesHealth
          [Instr.join (.poller .health)] ++ joinAuxThreads start)) := by
    simp [main, shutDown, joinBackground]
  rw [hmain]
  exact precedes_append (by simp) (by simp [startUp, wait])

theorem precedes_ifPresent {front back : List Instr} {present : Bool}
    {first second : Instr} (hne : second ≠ first) (hfront : second ∉ front)
    (hback : second ∉ back) :
    Precedes (front ++ (ifPresent present [first, second] ++ back)) first
      second := by
  cases present with
  | false => exact precedes_of_not_mem (by simp [ifPresent, hfront, hback])
  | true =>
      have hsplit : front ++ (ifPresent true [first, second] ++ back) =
          (front ++ [first]) ++ (second :: back) := by
        simp [ifPresent]
      rw [hsplit]
      exact precedes_append (by simp) (by simp [hfront, hne])

theorem join_poller_not_mem_front {p : Poller} (hp : ∀ i, p ≠ .worker i) :
    Instr.join (.poller p) ∉ startUp start ++ wait start := by
  simp only [startUp, wait, workers, List.mem_append, List.mem_map,
    mem_ifPresent, not_or]
  refine ⟨by simp, ?_⟩
  rintro ⟨_, ⟨-, i, -, rfl⟩, heq⟩
  exact hp i (Thread.poller.inj (Instr.join.inj heq)).symm

theorem precedes_cancel {p : Poller} (hp : ∀ i, p ≠ .worker i) :
    Precedes (main start) (.store p.cancel) (.join (.poller p)) := by
  have hfront := @join_poller_not_mem_front start _ hp
  cases p with
  | worker i => exact absurd rfl (hp i)
  | health =>
      have hmain : main start = (startUp start ++ wait start ++
          [Instr.store .reloadDone, Instr.join .reload,
            Instr.store .healthCancel]) ++
          (ifPresent start.probesHealth [Instr.join (.poller .health)] ++
            joinAuxThreads start) := by
        simp [main, shutDown, joinBackground]
      rw [hmain]
      exact precedes_append (by simp [Poller.cancel]) (by simpa using hfront)
  | admin =>
      have hmain : main start = (startUp start ++ wait start ++
          (joinBackground start ++ [Instr.store .adminCancel])) ++
          (joinAuxThreads start).tail := by
        simp [main, shutDown, joinAuxThreads]
      rw [hmain]
      exact precedes_append (by simp [Poller.cancel])
        (by simpa [joinBackground] using hfront)
  | https =>
      have hmain : main start = (startUp start ++ wait start ++
          (joinBackground start ++ (Instr.store .adminCancel ::
            ifPresent start.adminSpawns [Instr.join (.poller .admin)]))) ++
          (ifPresent start.servesHttps
              [Instr.store .httpsCancel, Instr.join (.poller .https)] ++
            (ifPresent start.servesH3
              [Instr.store .h3Cancel, Instr.join (.poller .h3)] ++
              [Instr.store .signalReceived, Instr.join .signal])) := by
        simp [main, shutDown, joinAuxThreads]
      rw [hmain]
      exact precedes_ifPresent (by simp)
        (by simpa [joinBackground] using hfront) (by simp)
  | h3 =>
      have hmain : main start = (startUp start ++ wait start ++
          (joinBackground start ++ (Instr.store .adminCancel ::
            (ifPresent start.adminSpawns [Instr.join (.poller .admin)] ++
              ifPresent start.servesHttps
                [Instr.store .httpsCancel, Instr.join (.poller .https)])))) ++
          (ifPresent start.servesH3
              [Instr.store .h3Cancel, Instr.join (.poller .h3)] ++
            [Instr.store .signalReceived, Instr.join .signal]) := by
        simp [main, shutDown, joinAuxThreads]
      rw [hmain]
      exact precedes_ifPresent (by simp)
        (by simpa [joinBackground] using hfront) (by simp)

theorem Move.not_blocked (hmove : Move start s a s') (ha : a.ofThread = true) :
    ¬ Blocked start s := by
  intro hblocked
  have hs := step_of_move hmove
  rw [hblocked a ha] at hs
  cases hs

section Joining

variable {rest : List Instr}

theorem Orderly.join_reload (h : Orderly start s)
    (hmain : s.main = .join .reload :: rest) :
    ¬ Blocked start s ∧ (s.reload = .waiting → s.pendingHup = true) := by
  have hexec := h.executed
  rw [hmain] at hexec
  have hspawned : s.reload ≠ .unspawned :=
    hexec.of_precedes (precedes_spawn_join hexec.mem)
  have hdone : s.flag .reloadDone = true := hexec.of_precedes precedes_reloadDone
  have hpending : s.reload = .waiting → s.pendingHup = true := by
    intro hwaiting
    rcases h.outstanding hdone with hpending | hwoken | hexit
    · exact hpending
    · simp [hwaiting] at hwoken
    · simp [hwaiting] at hexit
  refine ⟨?_, hpending⟩
  cases hpc : s.reload with
  | unspawned => exact absurd hpc hspawned
  | starting => exact (Move.reloadInstalls hpc).not_blocked rfl
  | waiting => exact (Move.reloadWakes hpc (hpending hpc)).not_blocked rfl
  | woken => exact (Move.reloadStops hpc hdone).not_blocked rfl
  | reloading => exact (Move.reloadReturns hpc).not_blocked rfl
  | exited =>
      exact (Move.join hmain (by simp [State.exited, hpc])).not_blocked rfl

theorem Orderly.signal_not_blocked (h : Orderly start s)
    (hterm : s.terminating = true) (hspawned : s.signal ≠ .unspawned)
    (hexit : s.signal ≠ .exited) : ¬ Blocked start s := by
  cases hpc : s.signal with
  | unspawned => exact absurd hpc hspawned
  | starting => exact (Move.signalInstalls hpc).not_blocked rfl
  | waiting =>
      have hpending := h.taken hterm (.inr (.inr hpc))
      exact (Move.signalWakes hpc hpending).not_blocked rfl
  | woken =>
      cases hreceived : s.flag .signalReceived with
      | false => exact (Move.signalActs hpc hreceived).not_blocked rfl
      | true => exact (Move.signalStops hpc hreceived).not_blocked rfl
  | acting stores =>
      cases stores with
      | nil => exact (Move.signalReturns hpc).not_blocked rfl
      | cons f stores => exact (Move.signalStores hpc).not_blocked rfl
  | exited => exact absurd hpc hexit

theorem Orderly.join_signal (h : Orderly start s) (hterm : s.terminating = true)
    (hmain : s.main = .join .signal :: rest) : ¬ Blocked start s := by
  have hexec := h.executed
  rw [hmain] at hexec
  have hspawned : s.signal ≠ .unspawned :=
    hexec.of_precedes (precedes_spawn_join hexec.mem)
  by_cases hexit : s.signal = .exited
  · exact (Move.join hmain (by simp [State.exited, hexit])).not_blocked rfl
  · exact h.signal_not_blocked hterm hspawned hexit

theorem Orderly.cancelled (h : Orderly start s) (hterm : s.terminating = true)
    {p : Poller} (hmain : s.main = .join (.poller p) :: rest) :
    s.flag p.cancel = true ∨ ¬ Blocked start s := by
  have hexec := h.executed
  rw [hmain] at hexec
  by_cases hp : ∀ i, p ≠ .worker i
  · exact .inl (hexec.of_precedes (precedes_cancel hp))
  · simp only [ne_eq, not_forall, not_not] at hp
    obtain ⟨i, rfl⟩ := hp
    have hspawn : Instr.spawn .signal ∈ startUp start := by
      simp [startUp, lateThreads]
    have hspawned : s.signal ≠ .unspawned :=
      hexec.of_precedes (precedes_append hspawn (join_not_mem_startUp _))
    by_cases hexit : s.signal = .exited
    · left
      rcases h.acted hexit with hreceived | hall
      · rw [main_eq, ← List.append_assoc] at hexec
        have hnot := hexec.not_cause (join_worker_not_mem_shutDown i)
          (a := .store .signalReceived)
          (by simp [store_not_mem_startUp, store_not_mem_wait])
        exact absurd hreceived hnot
      · have hhttp := servesHttp_of_join_worker hexec.mem
        exact hall _ (by simp [onSignal, Poller.cancel, hhttp])
    · exact .inr (h.signal_not_blocked hterm hspawned hexit)

theorem Orderly.join_poller (h : Orderly start s) (hterm : s.terminating = true)
    {p : Poller} (hmain : s.main = .join (.poller p) :: rest) :
    ¬ Blocked start s := by
  have hexec := h.executed
  rw [hmain] at hexec
  have hspawned : s.poller p ≠ .unspawned :=
    hexec.of_precedes (precedes_spawn_join hexec.mem)
  rcases h.cancelled hterm hmain with hcancel | hmove
  · cases hpc : s.poller p with
    | unspawned => exact absurd hpc hspawned
    | starting => exact (Move.pollerServes hpc).not_blocked rfl
    | serving => exact (Move.pollerStops hpc hcancel).not_blocked rfl
    | exited =>
        exact (Move.join hmain (by simp [State.exited, hpc])).not_blocked rfl
  · exact hmove

end Joining

theorem Orderly.not_stuck (h : Orderly start s) : ¬ Stuck start s := by
  rintro ⟨hterm, hmain, hstuck⟩
  have hmoves : ¬ Blocked start s := by
    cases hprogram : s.main with
    | nil => exact absurd hprogram hmain
    | cons instr rest =>
        cases instr with
        | spawn t => exact (Move.spawn hprogram).not_blocked rfl
        | bindHttp => exact (Move.bind hprogram).not_blocked rfl
        | store f => exact (Move.store hprogram).not_blocked rfl
        | join t =>
            cases t with
            | reload => exact (h.join_reload hprogram).1
            | signal => exact h.join_signal hterm hprogram
            | poller p => exact h.join_poller hterm hprogram
  rcases hstuck with hblocked | ⟨rest, hjoin, hwaiting, hpending⟩ |
    ⟨rest, hjoin, hwaiting, hpending⟩
  · exact hmoves hblocked
  · simp [(h.join_reload hjoin).2 hwaiting] at hpending
  · simp [h.taken hterm (.inr (.inr hwaiting))] at hpending

/-! ## A run that deadlocks -/

theorem reached_pollers (pc pc' : PollerPc) (ready : (Flag → Bool) → Poller → Bool)
    (hne : pc' ≠ pc)
    (hmove : ∀ (s : State) p, s.poller p = pc → ready s.flag p = true →
      Move start s (.poller p)
        { s with poller := Function.update s.poller p pc' })
    (ps : List Poller) {s : State} (h : Reached start s) :
    Reached start
      { s with
        poller := fun p =>
          if p ∈ ps ∧ s.poller p = pc ∧ ready s.flag p = true then pc'
          else s.poller p } := by
  induction ps generalizing s with
  | nil => simpa using h
  | cons q ps ih =>
      by_cases hq : s.poller q = pc ∧ ready s.flag q = true
      · have hmoved := ih (h.move (hmove s q hq.1 hq.2))
        convert hmoved using 2
        funext p
        by_cases hp : p = q
        · simp [hp, hq, hne]
        · simp [hp]
      · have hmoved := ih h
        convert hmoved using 2
        funext p
        by_cases hp : p = q
        · simp [hp, hq]
        · simp [hp]

theorem reached_stores (stores : List Flag) {s : State} (h : Reached start s)
    (hpc : s.signal = .acting stores) :
    Reached start
      { s with
        signal := .exited
        flag := fun f => decide (f ∈ stores) || s.flag f } := by
  induction stores generalizing s with
  | nil => simpa using h.move (.signalReturns hpc)
  | cons f stores ih =>
      have hflag : (fun g => decide (g ∈ f :: stores) || s.flag g) =
          fun g => decide (g ∈ stores) || (s.store f).flag g := by
        funext g
        by_cases hg : g = f
        · simp [State.store, hg]
        · simp [State.store, hg]
      rw [hflag]
      exact ih (h.move (.signalStores hpc)) rfl

theorem reached_joins (ps : List Poller) {s : State} {rest : List Instr}
    (h : Reached start s) (hexit : ∀ p ∈ ps, s.poller p = .exited)
    (hmain : s.main = (ps.map fun p => .join (.poller p)) ++ rest) :
    Reached start { s with main := rest } := by
  induction ps generalizing s with
  | nil =>
      simp only [List.map_nil, List.nil_append] at hmain
      simpa [← hmain] using h
  | cons p ps ih =>
      have hp : s.exited (.poller p) = true := by
        simpa [State.exited] using hexit p List.mem_cons_self
      have hnext : s.main = .join (.poller p) ::
          ((ps.map fun p => .join (.poller p)) ++ rest) := by
        simpa using hmain
      have hmoved : Reached start
          { s with main := (ps.map fun p => .join (.poller p)) ++ rest } :=
        h.move (.join hnext hp)
      have hrest := ih hmoved
        (fun q hq => hexit q (List.mem_cons_of_mem _ hq)) rfl
      exact hrest

def pollers (start : Start) : List Poller :=
  [.admin, .https, .h3, .health] ++ workers start

theorem mem_pollers_of_threads {p : Poller}
    (h : Thread.poller p ∈ threads start) : p ∈ pollers start := by
  simp only [threads, earlyThreads, lateThreads, List.mem_append, mem_ifPresent,
    List.mem_map, List.mem_singleton, Thread.poller.injEq, reduceCtorEq,
    or_false, exists_eq_right] at h
  rcases h with (((⟨-, rfl⟩ | ⟨-, rfl⟩) | ⟨-, rfl⟩) | ⟨-, rfl⟩) | h
  · simp [pollers]
  · simp [pollers]
  · simp [pollers]
  · simp [pollers]
  · simp [pollers, h]

theorem reached_serving (start : Start) :
    ∃ s, Reached start s ∧ s.main = wait start ++ shutDown start ∧
      s.reload = .waiting ∧ s.signal = .waiting ∧ s.pendingHup = false ∧
      s.terminating = false ∧ (∀ f, s.flag f = false) ∧
      ∀ p, s.poller p =
        if .poller p ∈ threads start then .serving else .unspawned := by
  have hreload : (launched start).reload = .starting := by
    simp [launched, State.spawnAll, reload_mem_threads]
  have hsignal : (launched start).signal = .starting := by
    simp [launched, State.spawnAll, signal_mem_threads]
  have hinstalled := ((reached_launched start).move
    (.reloadInstalls hreload)).move (.signalInstalls hsignal)
  have hserving := reached_pollers .starting .serving (fun _ _ => true)
    (by simp) (fun _ _ hpc _ => .pollerServes hpc) (pollers start) hinstalled
  refine ⟨_, hserving, rfl, rfl, rfl, rfl, rfl, fun _ => rfl, fun p => ?_⟩
  by_cases hp : Thread.poller p ∈ threads start
  · simp [launched, State.spawnAll, hp, mem_pollers_of_threads hp]
  · simp [launched, State.spawnAll, hp, init]

theorem reached_stopped (start : Start) :
    ∃ s, Reached start s ∧ s.main = wait start ++ shutDown start ∧
      s.reload = .waiting ∧ s.signal = .exited ∧ s.pendingHup = false ∧
      s.terminating = true ∧ (∀ f, s.flag f = decide (f ∈ onSignal start)) ∧
      ∀ p, s.poller p =
        if .poller p ∈ threads start then
          if p.cancel ∈ onSignal start then .exited else .serving
        else .unspawned := by
  obtain ⟨s, hs, hmain, hreload, hsignal, hhup, hterm, hflag, hpoller⟩ :=
    reached_serving start
  have hwoken := (hs.move (.term hterm (by simp [hsignal])
    (by simp [hsignal]))).move (.signalWakes hsignal rfl)
  have hacted := reached_stores (onSignal start)
    (hwoken.move (.signalActs rfl (hflag _))) rfl
  have hstopped := reached_pollers .serving .exited
    (fun flag p => flag p.cancel) (by simp)
    (fun _ _ hpc hcancel => .pollerStops hpc hcancel) (pollers start) hacted
  refine ⟨_, hstopped, hmain, hreload, rfl, hhup, rfl,
    fun f => by simp [hflag], fun p => ?_⟩
  by_cases hp : Thread.poller p ∈ threads start
  · simp [hpoller, hp, mem_pollers_of_threads hp, hflag]
  · simp [hpoller, hp]

theorem blocked_of_waiting {rest : List Instr}
    (hmain : s.main = .join .reload :: rest) (hreload : s.reload = .waiting)
    (hhup : s.pendingHup = false) (hsignal : s.signal = .exited)
    (hstarting : ∀ p, s.poller p ≠ .starting)
    (hcancel : ∀ p, s.poller p = .serving → s.flag p.cancel = false) :
    Blocked start s := by
  intro a ha
  cases hs : step start s a with
  | none => rfl
  | some s' =>
      exfalso
      cases move_of_step hs with
      | spawn hmain' => simp [hmain] at hmain'
      | bind hmain' => simp [hmain] at hmain'
      | store hmain' => simp [hmain] at hmain'
      | join hmain' hexit =>
          rw [hmain] at hmain'
          cases hmain'
          simp [State.exited, hreload] at hexit
      | bindFails hmain' => simp [hmain] at hmain'
      | reloadInstalls hpc => simp [hreload] at hpc
      | reloadWakes hpc hpending => simp [hhup] at hpending
      | reloadStops hpc hdone => simp [hreload] at hpc
      | reloadAttempts hpc hdone => simp [hreload] at hpc
      | reloadReturns hpc => simp [hreload] at hpc
      | signalInstalls hpc => simp [hsignal] at hpc
      | signalWakes hpc hpending => simp [hsignal] at hpc
      | signalStops hpc hreceived => simp [hsignal] at hpc
      | signalActs hpc hreceived => simp [hsignal] at hpc
      | signalStores hpc => simp [hsignal] at hpc
      | signalReturns hpc => simp [hsignal] at hpc
      | pollerServes hpc => exact hstarting _ hpc
      | pollerStops hpc hset => simp [hcancel _ hpc] at hset
      | pollerFails hpc => exact hstarting _ hpc
      | hup hterm hpc hpc' => cases ha
      | term hterm hpc hpc' => cases ha

theorem reached_deadlock (start : Start) :
    ∃ s, Reached start s ∧ s.terminating = true ∧ s.main ≠ [] ∧
      Blocked start s ∧ AwaitsSignal s := by
  obtain ⟨s, hs, hmain, hreload, hsignal, hhup, hterm, hflag, hpoller⟩ :=
    reached_stopped start
  have hworkers : ∀ p ∈ workers start, s.poller p = .exited := by
    intro p hp
    have hthread : Thread.poller p ∈ threads start := by
      simp [threads, lateThreads, hp]
    simp only [workers, mem_ifPresent, List.mem_map] at hp
    obtain ⟨hhttp, i, -, rfl⟩ := hp
    simp [hpoller, hthread, Poller.cancel, onSignal, hhttp]
  have hjoined := reached_joins (workers start) hs hworkers hmain
  have hstored := hjoined.move (.store rfl)
  refine ⟨_, hstored, hterm, by simp, ?_, .inl ⟨_, rfl, hreload, hhup⟩⟩
  refine blocked_of_waiting rfl hreload hhup hsignal (fun p => ?_) fun p hp => ?_
  · have hne : s.poller p ≠ .starting := by
      rw [hpoller]
      split
      · split <;> simp
      · simp
    exact hne
  · have hp' : s.poller p = .serving := hp
    have hcancel : p.cancel ∉ onSignal start := by
      intro hmem
      rw [hpoller] at hp'
      simp only [hmem, if_true] at hp'
      split at hp' <;> cases hp'
    have hne : p.cancel ≠ .reloadDone := by cases p <;> simp [Poller.cancel]
    simpa [State.store, hne, hflag] using hcancel

/--
A run in which `main` stores `reload_done` only while a `SIGHUP` is outstanding
never gets stuck; every start also has a run that ends in a deadlock, with one
termination signal and no signal after it.
-/
theorem shutdown_deadlock_free_when_hup_outstanding (start : Start) :
    (∀ s, Reachable (step start) Guarded (init start) s → ¬ Stuck start s) ∧
    ∃ s, Reached start s ∧ Stuck start s ∧ Blocked start s := by
  constructor
  · intro s hs
    rcases orderly_of_guarded hs with hnil | hord
    · exact fun hstuck => hstuck.2.1 hnil
    · exact hord.not_stuck
  · obtain ⟨s, hs, hterm, hmain, hblocked, -⟩ := reached_deadlock start
    exact ⟨s, hs, ⟨hterm, hmain, .inl hblocked⟩, hblocked⟩

end Threads

namespace Sample

def orderlyShutdown : List Threads.Action :=
  [.main, .main, .main, .main, .main, .reload, .signal, .poller .admin,
    .poller (.worker 0), .hup, .term, .signal, .signal, .signal, .signal, .signal,
    .poller (.worker 0), .poller .admin, .main, .main, .reload, .reload,
    .main, .main, .main, .main, .main, .main]

end Sample

namespace Threads

theorem plaintext_shutdown_deadlocks :
    ∃ s, Reached Sample.plaintext s ∧ Stuck Sample.plaintext s ∧
      Blocked Sample.plaintext s := by
  obtain ⟨s, hs, hterm, hmain, hblocked, -⟩ := reached_deadlock Sample.plaintext
  exact ⟨s, hs, ⟨hterm, hmain, .inl hblocked⟩, hblocked⟩

theorem plaintext_shutdown_with_hup :
    ∃ s, Reachable (step Sample.plaintext) Guarded (init Sample.plaintext) s ∧
      s.terminating = true ∧ s.main = [] ∧ ¬ Stuck Sample.plaintext s := by
  have hrun : (execute (step Sample.plaintext) Guarded (init Sample.plaintext)
      Sample.orderlyShutdown).any
      (fun s => s.terminating && s.main.isEmpty) = true := by
    decide
  obtain ⟨s, hs, hend⟩ := (Option.any_eq_true _ _).mp hrun
  simp only [Bool.and_eq_true, List.isEmpty_iff] at hend
  have hreach : Reachable (step Sample.plaintext) Guarded (init Sample.plaintext) s :=
    Reachable.refl.of_execute hs
  exact ⟨s, hreach, hend.1, hend.2,
    (shutdown_deadlock_free_when_hup_outstanding Sample.plaintext).1 s hreach⟩

end Threads

end Conduit
