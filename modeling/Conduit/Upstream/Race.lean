import Conduit.Foundation.Transition
import Conduit.Upstream.Breaker

/-!
# Racing outcomes

The atomics of one breaker are shared by all threads that report outcomes to
it.  Here each load, store and `fetch_add` is a step of its own and the steps
of any number of calls interleave.  A log of the stores to the deadline, the
latest first, says who wrote it last.
-/

namespace Conduit

open Foundation

namespace Race

inductive Pc where
  | idle
  | clearDeadline
  | clearFailures
  | bump
  | readClock
  | storeDeadline (read : Nat)
  deriving DecidableEq, Repr

/-- A store to `open_until_ms`, with the instant an armed deadline counts from. -/
inductive Write (ι : Type) where
  | cleared (t : ι)
  | armed (t : ι) (read : Nat)
  deriving DecidableEq, Repr

structure State (ι : Type) where
  breaker : Breaker
  now : Nat
  pc : ι → Pc
  writes : List (Write ι)
  bumps : Nat

inductive Action (ι : Type) where
  | onSuccess (t : ι)
  | onFailure (t : ι)
  | run (t : ι)
  | tick (elapsed : Nat)
  deriving DecidableEq, Repr

variable {ι : Type} [DecidableEq ι]

def initial (cfg : BreakerConfig) (now : Nat) : State ι :=
  { breaker := Breaker.new cfg now
    now := now
    pc := fun _ => .idle
    writes := []
    bumps := 0 }

namespace State

def goto (s : State ι) (t : ι) (pc : Pc) : State ι :=
  { s with pc := Function.update s.pc t pc }

/-- The first test of both calls: a threshold of zero returns at once. -/
def enter (s : State ι) (t : ι) (pc : Pc) : State ι :=
  if s.breaker.threshold = 0 then s else s.goto t pc

def clearDeadline (s : State ι) (t : ι) : State ι :=
  { s.goto t .clearFailures with
    breaker := { s.breaker with openUntilMs := 0 }
    writes := .cleared t :: s.writes }

def clearFailures (s : State ι) (t : ι) : State ι :=
  { s.goto t .idle with breaker := { s.breaker with failures := 0 } }

/-- The atomic wraps, its copy that is compared with the threshold saturates. -/
def bump (s : State ι) (t : ι) : State ι :=
  let prev := s.breaker.failures
  let new := saturatingSucc32 prev
  let next :=
    if new = s.breaker.threshold then .readClock
    else if s.breaker.threshold < new then .readClock
    else Pc.idle
  { s.goto t next with
    breaker := { s.breaker with failures := wrappingSucc32 prev }
    bumps := s.bumps + 1 }

def deadline (s : State ι) (read : Nat) : Nat :=
  saturatingAdd64 (s.breaker.nowMs read) s.breaker.cooldownMs

def storeDeadline (s : State ι) (t : ι) (read : Nat) : State ι :=
  { s.goto t .idle with
    breaker := { s.breaker with openUntilMs := s.deadline read }
    writes := .armed t read :: s.writes }

def run (s : State ι) (t : ι) : Option (State ι) :=
  match s.pc t with
  | .idle => none
  | .clearDeadline => some (s.clearDeadline t)
  | .clearFailures => some (s.clearFailures t)
  | .bump => some (s.bump t)
  | .readClock => some (s.goto t (.storeDeadline s.now))
  | .storeDeadline read => some (s.storeDeadline t read)

end State

def step (s : State ι) : Action ι → Option (State ι)
  | .onSuccess t => if s.pc t = .idle then some (s.enter t .clearDeadline) else none
  | .onFailure t => if s.pc t = .idle then some (s.enter t .bump) else none
  | .run t => s.run t
  | .tick elapsed => some { s with now := s.now + elapsed }

/-! ## Calls that nobody interrupts -/

theorem execute_onSuccess {s : State ι} {t : ι} (hidle : s.pc t = .idle)
    (hzero : s.breaker.threshold ≠ 0) :
    ∃ s', execute step (fun _ _ => True) s [.onSuccess t, .run t, .run t] = some s' ∧
      s'.pc = s.pc ∧ s'.breaker = s.breaker.onSuccess := by
  refine ⟨_, by simp [execute, step, State.run, State.enter, State.goto,
    State.clearDeadline, State.clearFailures, hidle, hzero]; rfl, ?_, ?_⟩
  · simp [← hidle]
  · simp [Breaker.onSuccess, hzero]

theorem bump_eq (s : State ι) (t : ι) :
    s.bump t =
      { s.goto t (if s.breaker.threshold ≤ saturatingSucc32 s.breaker.failures
          then .readClock else .idle) with
        breaker := { s.breaker with failures := wrappingSucc32 s.breaker.failures }
        bumps := s.bumps + 1 } := by
  simp only [State.bump]
  split_ifs <;> first | rfl | omega

theorem execute_onFailure {s : State ι} {t : ι} (hidle : s.pc t = .idle)
    (hzero : s.breaker.threshold ≠ 0) :
    ∃ actions s', execute step (fun _ _ => True) s (.onFailure t :: actions) = some s' ∧
      s'.pc = s.pc ∧ s'.breaker = s.breaker.onFailure (s.breaker.nowMs s.now) := by
  rw [Breaker.onFailure_eq s.breaker _ hzero]
  by_cases hnew : s.breaker.threshold ≤ saturatingSucc32 s.breaker.failures
  · refine ⟨[.run t, .run t, .run t], _, by simp [execute, step, State.run, State.enter,
      State.goto, bump_eq, State.storeDeadline, State.deadline, hidle, hzero, hnew]
                                            rfl, ?_, ?_⟩
    · simp [← hidle]
    · rw [if_pos hnew]
      rfl
  · refine ⟨[.run t], _, by simp [execute, step, State.run, State.enter, State.goto,
      bump_eq, hidle, hzero, hnew]; rfl, ?_, ?_⟩
    · simp [← hidle]
    · rw [if_neg hnew]

/-! ## What the interleavings keep -/

def State.lastWritten (s : State ι) : Nat :=
  match s.writes with
  | .armed _ read :: _ => s.deadline read
  | _ => 0

/-- The call of `t` is still to arm the deadline or to reset the counter. -/
def Pc.Settles : Pc → Prop
  | .clearFailures | .readClock | .storeDeadline _ => True
  | .idle | .clearDeadline | .bump => False

structure Inv (s : State ι) : Prop where
  counted : s.breaker.failures ≤ s.bumps
  latest : s.breaker.openUntilMs = s.lastWritten
  pending : ∀ t read, s.pc t = .storeDeadline read → read ≤ s.now
  past : ∀ t read, .armed t read ∈ s.writes → read ≤ s.now
  covered : s.bumps < 2 ^ 32 → s.breaker.threshold ≤ s.breaker.failures →
    (∃ t read older, s.writes = .armed t read :: older) ∨ ∃ t, (s.pc t).Settles

omit [DecidableEq ι] in
theorem Inv.initial (cfg : BreakerConfig) (now : Nat) (hthreshold : cfg.threshold.toNat ≠ 0) :
    Inv (initial cfg now : State ι) where
  counted := le_refl 0
  latest := rfl
  pending := by simp [Race.initial]
  past := by simp [Race.initial]
  covered := by
    intro _ hle
    exact absurd (Nat.le_zero.mp hle) hthreshold

section Steps

variable {s s' : State ι} {t : ι}

theorem Inv.goto_pending (h : Inv s) {pc : Pc}
    (hpc : ∀ read, pc = .storeDeadline read → read ≤ s.now) (u : ι) (read : Nat)
    (hu : (s.goto t pc).pc u = .storeDeadline read) : read ≤ s.now := by
  rcases eq_or_ne u t with rfl | hne
  · exact hpc read (by simpa [State.goto] using hu)
  · exact h.pending u read (by simpa [State.goto, hne] using hu)

theorem goto_settles (pc : Pc) (hpc : pc.Settles) : ((s.goto t pc).pc t).Settles := by
  simpa [State.goto] using hpc

theorem Inv.enter (h : Inv s) (hidle : s.pc t = .idle) {pc : Pc}
    (hpc : ∀ read, pc ≠ .storeDeadline read) : Inv (s.enter t pc) := by
  unfold State.enter
  split
  · exact h
  refine ⟨h.counted, h.latest,
    h.goto_pending fun read hread => absurd hread (hpc read), h.past, ?_⟩
  intro hbumps hle
  apply (h.covered hbumps hle).imp_right
  rintro ⟨u, hu⟩
  have hne : u ≠ t := by
    rintro rfl
    rw [hidle] at hu
    exact hu
  exact ⟨u, by simpa [State.goto, hne] using hu⟩

theorem Inv.clearDeadline (h : Inv s) : Inv (s.clearDeadline t) := by
  refine ⟨h.counted, rfl, h.goto_pending (by simp), ?_, ?_⟩
  · intro u read hmem
    exact h.past u read (by simpa [State.clearDeadline, State.goto] using hmem)
  · intro _ _
    exact .inr ⟨t, goto_settles .clearFailures trivial⟩

theorem Inv.clearFailures (h : Inv s) (hzero : s.breaker.threshold ≠ 0) :
    Inv (s.clearFailures t) := by
  refine ⟨Nat.zero_le _, h.latest, h.goto_pending (by simp), h.past, ?_⟩
  intro _ hle
  exact absurd (Nat.le_zero.mp hle) hzero

theorem Inv.bump (h : Inv s) : Inv (s.bump t) := by
  have hcounted := h.counted
  rw [bump_eq]
  refine ⟨?_, h.latest, h.goto_pending (by split <;> simp), h.past, ?_⟩
  · show wrappingSucc32 s.breaker.failures ≤ s.bumps + 1
    exact (Nat.mod_le _ _).trans (by omega)
  · intro hbumps hle
    replace hbumps : s.bumps + 1 < 2 ^ 32 := hbumps
    replace hle : s.breaker.threshold ≤ wrappingSucc32 s.breaker.failures := hle
    have hnew : s.breaker.threshold ≤ saturatingSucc32 s.breaker.failures := by
      simp only [wrappingSucc32, saturatingSucc32, u32Max] at hle ⊢
      omega
    rw [if_pos hnew]
    exact .inr ⟨t, goto_settles .readClock trivial⟩

theorem Inv.readClock (h : Inv s) : Inv (s.goto t (.storeDeadline s.now)) := by
  refine ⟨h.counted, h.latest, h.goto_pending (by simp), h.past, ?_⟩
  intro _ _
  exact .inr ⟨t, goto_settles (.storeDeadline s.now) trivial⟩

theorem Inv.storeDeadline (h : Inv s) {read : Nat} (hpc : s.pc t = .storeDeadline read) :
    Inv (s.storeDeadline t read) := by
  refine ⟨h.counted, rfl, h.goto_pending (by simp), ?_, ?_⟩
  · intro u older hmem
    rcases List.mem_cons.mp hmem with heq | hmem
    · cases heq
      exact h.pending t read hpc
    · exact h.past u older hmem
  · intro _ _
    exact .inl ⟨t, read, s.writes, rfl⟩

omit [DecidableEq ι] in
theorem Inv.tick (h : Inv s) (elapsed : Nat) : Inv { s with now := s.now + elapsed } where
  counted := h.counted
  latest := h.latest
  pending := fun u read hu => (h.pending u read hu).trans (Nat.le_add_right _ _)
  past := fun u read hmem => (h.past u read hmem).trans (Nat.le_add_right _ _)
  covered := h.covered

theorem Inv.run (h : Inv s) (hzero : s.breaker.threshold ≠ 0) (hrun : s.run t = some s') :
    Inv s' := by
  unfold State.run at hrun
  split at hrun
  · cases hrun
  · cases hrun
    exact h.clearDeadline
  · cases hrun
    exact h.clearFailures hzero
  · cases hrun
    exact h.bump
  · cases hrun
    exact h.readClock
  · rename_i hpc
    cases hrun
    exact h.storeDeadline hpc

theorem Inv.step (h : Inv s) (hzero : s.breaker.threshold ≠ 0) {a : Action ι}
    (hstep : step s a = some s') : Inv s' := by
  cases a with
  | onSuccess t =>
      simp only [Race.step, Option.ite_none_right_eq_some, Option.some.injEq] at hstep
      obtain ⟨hidle, rfl⟩ := hstep
      exact h.enter hidle (by simp)
  | onFailure t =>
      simp only [Race.step, Option.ite_none_right_eq_some, Option.some.injEq] at hstep
      obtain ⟨hidle, rfl⟩ := hstep
      exact h.enter hidle (by simp)
  | run t => exact h.run hzero hstep
  | tick elapsed =>
      cases hstep
      exact h.tick elapsed

theorem step_settings {a : Action ι} (hstep : step s a = some s') :
    s'.breaker.threshold = s.breaker.threshold ∧
      s'.breaker.cooldownMs = s.breaker.cooldownMs := by
  cases a with
  | onSuccess t | onFailure t =>
      simp only [step, Option.ite_none_right_eq_some, Option.some.injEq] at hstep
      obtain ⟨-, rfl⟩ := hstep
      unfold State.enter
      split <;> exact ⟨rfl, rfl⟩
  | run t =>
      simp only [step, State.run] at hstep
      split at hstep <;> cases hstep <;> exact ⟨rfl, rfl⟩
  | tick elapsed =>
      cases hstep
      exact ⟨rfl, rfl⟩

end Steps

/-! ## At rest -/

theorem reachable_settings {cfg : BreakerConfig} {start : Nat} {s : State ι}
    (h : Reachable step (fun _ _ => True) (initial cfg start) s) :
    s.breaker.threshold = cfg.threshold.toNat ∧
      s.breaker.cooldownMs = min cfg.cooldown.asMillis u64Max := by
  refine h.invariant (fun s => s.breaker.threshold = cfg.threshold.toNat ∧
    s.breaker.cooldownMs = min cfg.cooldown.asMillis u64Max) ⟨rfl, rfl⟩ ?_
  intro s a s' hs _ hstep
  obtain ⟨hthreshold, hcooldown⟩ := step_settings hstep
  exact ⟨hthreshold.trans hs.1, hcooldown.trans hs.2⟩

theorem reachable_inv {cfg : BreakerConfig} {start : Nat} {s : State ι}
    (hthreshold : cfg.threshold.toNat ≠ 0)
    (h : Reachable step (fun _ _ => True) (initial cfg start) s) : Inv s := by
  suffices Inv s ∧ s.breaker.threshold = cfg.threshold.toNat from this.1
  refine h.invariant (fun s => Inv s ∧ s.breaker.threshold = cfg.threshold.toNat)
    ⟨Inv.initial cfg start hthreshold, rfl⟩ ?_
  rintro s a s' ⟨hinv, hkept⟩ _ hstep
  exact ⟨hinv.step (by omega) hstep, (step_settings hstep).1.trans hkept⟩

/--
When no call is under way, a tripped breaker has the deadline of a failure
whose store came after every clear.
-/
theorem tripped_has_deadline (cfg : BreakerConfig) (start : Nat)
    (hthreshold : 1 ≤ cfg.threshold.toNat) (hcooldown : 1 ≤ cfg.cooldown.asMillis)
    (s : State ι) (hrun : Reachable step (fun _ _ => True) (initial cfg start) s)
    (hbumps : s.bumps < 2 ^ 32) (hrest : ∀ t, s.pc t = .idle)
    (htripped : cfg.threshold.toNat ≤ s.breaker.failures) :
    s.breaker.openUntilMs ≠ 0 ∧
      ∃ t read older, s.writes = .armed t read :: older ∧ read ≤ s.now ∧
        s.breaker.openUntilMs =
          saturatingAdd64 (s.breaker.nowMs read) (min cfg.cooldown.asMillis u64Max) := by
  have hinv := reachable_inv (by omega) hrun
  obtain ⟨hkept, hcooldownMs⟩ := reachable_settings hrun
  rcases hinv.covered hbumps (by omega) with ⟨t, read, older, hwrites⟩ | ⟨t, ht⟩
  · have hdeadline : s.breaker.openUntilMs =
        saturatingAdd64 (s.breaker.nowMs read) (min cfg.cooldown.asMillis u64Max) := by
      rw [hinv.latest, State.lastWritten, hwrites, ← hcooldownMs]
      rfl
    refine ⟨?_, t, read, older, hwrites, hinv.past t read (by simp [hwrites]), hdeadline⟩
    rw [hdeadline, saturatingAdd64, u64Max]
    omega
  · rw [hrest t] at ht
    exact ht.elim

def overlapping : List (Action Bool) :=
  [.onSuccess true, .onFailure false, .run true, .run true, .run false, .tick 2000000,
    .run false, .run false]

theorem tripped_has_deadline_overlapping :
    let s := (execute step (fun _ _ => True) (initial ⟨1, Duration.fromMillis 50⟩ 0)
      overlapping).get (by decide)
    s.breaker.threshold ≤ s.breaker.failures ∧ s.writes.length = 2 ∧
      s.breaker.openUntilMs ≠ 0 := by
  intro s
  have hrun : Reachable step (fun _ _ => True) (initial ⟨1, Duration.fromMillis 50⟩ 0) s :=
    Reachable.of_execute Reachable.refl (Option.some_get _).symm
  exact ⟨by decide, by decide, (tripped_has_deadline _ _ (by decide) (by decide) s hrun
    (by decide) (by decide) (by decide)).1⟩

end Race

end Conduit
