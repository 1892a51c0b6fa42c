import Conduit.Binary.Threads

/-!
# What keeps the planes up

With a plaintext plane `main` waits for the HTTP workers, and they stay until
the signal thread pulls the trigger.  Without one `main` goes straight to its
shutdown sequence, and the first `SIGHUP` ends the reload thread that it joins.
-/

namespace Conduit

namespace Threads

variable {start : Start} {s s' : State} {a : Action}

/-- No plane is told to stop, and a `SIGHUP` that is taken leads to a reload. -/
structure PlanesUp (start : Start) (s : State) : Prop where
  https : s.flag .httpsCancel = false
  h3 : s.flag .h3Cancel = false
  admin : s.flag .adminCancel = false
  health : s.flag .healthCancel = false
  reload_alive : s.reload ≠ .exited
  reload_attempts : s.reload = .woken →
    ∃ s', step start s .reload = some s' ∧ s'.reload = .reloading

def Instr.early : Instr → Bool
  | .spawn _ => true
  | .bindHttp => true
  | .join (.poller (.worker _)) => true
  | _ => false

/-- `main` still has an HTTP worker to wait for, and nothing has been stopped. -/
structure Undisturbed (start : Start) (s : State) : Prop where
  flag : ∀ f, s.flag f = false
  reload : s.reload ≠ .exited
  signal : s.signal = .unspawned ∨ s.signal = .starting ∨ s.signal = .waiting
  pendingTerm : s.pendingTerm = false
  worker : ∀ i, s.poller (.worker i) ≠ .exited
  main : ∃ before, s.main = before ++ shutDown start ∧
    (∀ i ∈ before, i.early = true) ∧ ∃ i, .join (.poller (.worker i)) ∈ before

theorem Undisturbed.planesUp (h : Undisturbed start s) : PlanesUp start s where
  https := h.flag _
  h3 := h.flag _
  admin := h.flag _
  health := h.flag _
  reload_alive := h.reload
  reload_attempts hwoken := by
    simp [step, State.reloadStep, hwoken, h.flag]

theorem Undisturbed.next {instr : Instr} {rest : List Instr}
    (h : Undisturbed start s) (hmain : s.main = instr :: rest) :
    instr.early = true ∧
    ((∀ i, instr ≠ .join (.poller (.worker i))) →
      ∃ before, rest = before ++ shutDown start ∧
        (∀ i ∈ before, i.early = true) ∧
        ∃ i, .join (.poller (.worker i)) ∈ before) := by
  obtain ⟨before, hbefore, hearly, i, hi⟩ := h.main
  cases before with
  | nil => simp at hi
  | cons first before =>
      rw [hmain, List.cons_append, List.cons.injEq] at hbefore
      obtain ⟨rfl, rfl⟩ := hbefore
      refine ⟨hearly _ List.mem_cons_self, fun hne => ?_⟩
      refine ⟨before, rfl, fun j hj => hearly j (List.mem_cons_of_mem _ hj), i, ?_⟩
      rcases List.mem_cons.mp hi with heq | hmem
      · exact absurd heq.symm (hne i)
      · exact hmem

theorem Undisturbed.spawn (h : Undisturbed start s) {t : Thread}
    {rest : List Instr} (hmain : s.main = .spawn t :: rest) :
    Undisturbed start { s.spawn t with main := rest } := by
  have hnext := (h.next hmain).2 (by simp)
  cases t with
  | reload => exact ⟨h.flag, by simp [State.spawn], h.signal, h.pendingTerm, h.worker, hnext⟩
  | signal => exact ⟨h.flag, h.reload, by simp [State.spawn], h.pendingTerm, h.worker, hnext⟩
  | poller p =>
      refine ⟨h.flag, h.reload, h.signal, h.pendingTerm, fun i => ?_, hnext⟩
      by_cases hp : Poller.worker i = p
      · simp [State.spawn, hp]
      · simpa [State.spawn, hp] using h.worker i

theorem Undisturbed.move (h : Undisturbed start s) (hmove : Move start s a s')
    (hterm : s'.terminating = false) (hfailed : s'.failed = false) :
    Undisturbed start s' := by
  cases hmove with
  | spawn hmain => exact h.spawn hmain
  | bind hmain =>
      exact ⟨h.flag, h.reload, h.signal, h.pendingTerm, h.worker,
        (h.next hmain).2 (by simp)⟩
  | store hmain => exact absurd (h.next hmain).1 (by simp [Instr.early])
  | @join t rest hmain hexit =>
      -- Only workers are joined this early, and none of them has exited.
      have hearly := (h.next hmain).1
      cases t with
      | reload => simp [Instr.early] at hearly
      | signal => simp [Instr.early] at hearly
      | poller p =>
          cases p with
          | worker i => exact absurd hexit (by simpa [State.exited] using h.worker i)
          | admin => simp [Instr.early] at hearly
          | https => simp [Instr.early] at hearly
          | h3 => simp [Instr.early] at hearly
          | health => simp [Instr.early] at hearly
  | bindFails hmain => simp at hfailed
  | reloadInstalls hpc => exact { h with reload := by simp }
  | reloadWakes hpc hpending => exact { h with reload := by simp }
  | reloadStops hpc hdone => simp [h.flag] at hdone
  | reloadAttempts hpc hdone => exact { h with reload := by simp }
  | reloadReturns hpc => exact { h with reload := by simp }
  | signalInstalls hpc => exact { h with signal := by simp }
  | signalWakes hpc hpending => simp [h.pendingTerm] at hpending
  | signalStops hpc hreceived => simp [h.flag] at hreceived
  | signalActs hpc hreceived =>
      rcases h.signal with hsignal | hsignal | hsignal <;> simp [hsignal] at hpc
  | signalStores hpc =>
      rcases h.signal with hsignal | hsignal | hsignal <;> simp [hsignal] at hpc
  | signalReturns hpc =>
      rcases h.signal with hsignal | hsignal | hsignal <;> simp [hsignal] at hpc
  | @pollerServes p hpc =>
      refine { h with worker := fun i => ?_ }
      by_cases hp : Poller.worker i = p
      · simp [hp]
      · simpa [hp] using h.worker i
  | pollerStops hpc hcancel => simp [h.flag] at hcancel
  | pollerFails hpc => simp at hfailed
  | hup hup hpc hpc' => exact { h with }
  | term hup hpc hpc' => simp at hterm

theorem Move.terminating_of (hmove : Move start s a s')
    (h : s'.terminating = false) : s.terminating = false := by
  cases hmove with
  | @spawn t rest hmain => cases t <;> exact h
  | term hup hpc hpc' => exact hup
  | _ => exact h

theorem Move.failed_of (hmove : Move start s a s') (h : s'.failed = false) :
    s.failed = false := by
  cases hmove with
  | @spawn t rest hmain => cases t <;> exact h
  | bindFails hmain => simp at h
  | pollerFails hpc => simp at h
  | _ => exact h

theorem undisturbed_init (hhttp : start.servesHttp = true) :
    Undisturbed start (init start) where
  flag _ := rfl
  reload := by simp [init]
  signal := .inl rfl
  pendingTerm := rfl
  worker _ := by simp [init]
  main := by
    refine ⟨startUp start ++ wait start, by simp [init, main], ?_, 0, ?_⟩
    · intro i hi
      simp only [startUp, wait, workers, List.mem_append, List.mem_map,
        mem_ifPresent, List.mem_singleton] at hi
      obtain (⟨_, -, rfl⟩ | ⟨-, rfl⟩ | ⟨_, -, rfl⟩) |
        ⟨_, ⟨-, _, -, rfl⟩, rfl⟩ := hi <;> rfl
    · simp [wait, workers, hhttp, start.resolveWorkers_pos]

theorem Reached.undisturbed (hhttp : start.servesHttp = true)
    (h : Reached start s) (hterm : s.terminating = false)
    (hfailed : s.failed = false) : Undisturbed start s := by
  refine Foundation.Reachable.invariant
    (fun s => s.terminating = false → s.failed = false → Undisturbed start s)
    h (fun _ _ => undisturbed_init hhttp) ?_ hterm hfailed
  intro s a s' ih _ hs hterm hfailed
  have hmove := move_of_step hs
  exact (ih (hmove.terminating_of hterm) (hmove.failed_of hfailed)).move hmove
    hterm hfailed

/-! ## Without a plaintext plane -/

/--
`main` marks the reload thread as done before anything has happened, so the
next `SIGHUP` ends that thread and lets `main` stop the other planes.
-/
theorem hup_stops_planes (start : Start) (hhttp : start.servesHttp = false) :
    ∃ s, Reached start s ∧ s.terminating = false ∧ s.failed = false ∧
      s.reload = .exited ∧ s.flag .healthCancel = true := by
  have hwait : wait start = [] := by simp [wait, workers, hhttp, ifPresent]
  obtain ⟨rest, hshut⟩ : ∃ rest, shutDown start =
      .store .reloadDone :: .join .reload :: .store .healthCancel :: rest :=
    ⟨_, rfl⟩
  have hreload : (launched start).reload = .starting := by
    simp [launched, State.spawnAll, reload_mem_threads]
  have hmain : (launched start).main = .store .reloadDone :: .join .reload ::
      .store .healthCancel :: rest := by
    simp [launched, hwait, hshut]
  have hdone := (((reached_launched start).move (.reloadInstalls hreload)).move
    (.hup rfl (by simp) (by simp))).move (.store hmain)
  have hexited := (hdone.move (.reloadWakes rfl rfl)).move
    (.reloadStops rfl (by simp [State.store]))
  have hjoined := (hexited.move (.join rfl (by simp [State.exited]))).move
    (.store rfl)
  exact ⟨_, hjoined, rfl, rfl, rfl, by simp [State.store]⟩

/--
Only a termination signal stops a plane, and every `SIGHUP` that is taken is a
reload, exactly if there is a plaintext plane.
-/
theorem planes_up_iff (start : Start) :
    (∀ s, Reached start s → s.terminating = false → s.failed = false →
      PlanesUp start s) ↔ start.cfg.server.listenHttp ≠ [] := by
  have hhttp : start.servesHttp = true ↔ start.cfg.server.listenHttp ≠ [] := by
    simp [Start.servesHttp]
  rw [← hhttp]
  constructor
  · intro h
    by_contra hnone
    obtain ⟨s, hs, hterm, hfailed, hexited, -⟩ :=
      hup_stops_planes start (Bool.eq_false_iff.mpr hnone)
    exact (h s hs hterm hfailed).reload_alive hexited
  · intro h s hs hterm hfailed
    exact (hs.undisturbed h hterm hfailed).planesUp

end Threads

namespace Sample

def allFiles : Files := ⟨fun _ => true, fun _ => some [0]⟩

def edge : Config.CertSpec := ⟨"edge.test", "/etc/edge.crt", "/etc/edge.key", none⟩

def httpsOnly : Start :=
  { plaintext with
    files := allFiles
    cfg :=
      { document with
        server := { adminListen := admin, listenHttps := [.v4 ⟨0, 0, 0, 0⟩ 443] }
        tls := some ⟨[edge]⟩ }
    valid := by decide
    listens := by decide }

end Sample

namespace Threads

theorem hup_stops_https_only :
    Sample.httpsOnly.cfg.server.listenHttps ≠ [] ∧
    ∃ s, Reached Sample.httpsOnly s ∧ s.terminating = false ∧
      s.failed = false ∧ s.flag .healthCancel = true ∧
      ¬ PlanesUp Sample.httpsOnly s := by
  refine ⟨by decide, ?_⟩
  obtain ⟨s, hs, hterm, hfailed, -, hhealth⟩ :=
    hup_stops_planes Sample.httpsOnly rfl
  refine ⟨s, hs, hterm, hfailed, hhealth, fun hup => ?_⟩
  rw [hup.health] at hhealth
  cases hhealth

end Threads

end Conduit
