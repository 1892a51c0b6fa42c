import Conduit.Platform
import Mathlib.Data.List.Infix

/-!
# The passive circuit breaker

A breaker keeps a failure counter and a deadline; zero as a deadline means
that it never tripped.  The file embeds its operations, each taking the
millisecond reading of its clock, and proves that on whole runs they encode
the documented state machine over the number of consecutive failures and the
time of the last one.
-/

namespace Conduit

/-! ## Fixed-width counters -/

def u32Max : Nat := 2 ^ 32 - 1

/-- `AtomicU32::fetch_add(1)` wraps. -/
def wrappingSucc32 (n : Nat) : Nat := (n + 1) % 2 ^ 32

def saturatingSucc32 (n : Nat) : Nat := min (n + 1) u32Max

def saturatingAdd64 (a b : Nat) : Nat := min (a + b) u64Max

/-! ## The breaker -/

inductive Decision where
  | allow
  | reject
  deriving DecidableEq, Repr

inductive BreakerState where
  | closed
  | open
  | halfOpen
  deriving DecidableEq, Repr

structure BreakerConfig where
  threshold : UInt32 := 5
  cooldown : Duration := Duration.fromSecs 30
  deriving DecidableEq, Repr

structure Breaker where
  threshold : Nat
  cooldownMs : Nat
  /-- The instant in nanoseconds that `nowMs` counts from. -/
  anchor : Nat
  failures : Nat
  openUntilMs : Nat
  deriving DecidableEq, Repr

namespace Breaker

def new (cfg : BreakerConfig) (now : Nat) : Breaker :=
  { threshold := cfg.threshold.toNat
    cooldownMs := min cfg.cooldown.asMillis u64Max
    anchor := now
    failures := 0
    openUntilMs := 0 }

/-- Milliseconds from the anchor to the instant `now`, capped at `u64::MAX`. -/
def nowMs (b : Breaker) (now : Nat) : Nat :=
  min (Duration.asMillis ⟨now - b.anchor⟩) u64Max

def check (b : Breaker) (nowMs : Nat) : Decision :=
  if b.threshold = 0 then .allow
  else if b.failures < b.threshold then .allow
  else if b.openUntilMs = 0 ∨ b.openUntilMs ≤ nowMs then .allow
  else .reject

def snapshot (b : Breaker) (nowMs : Nat) : BreakerState :=
  if b.threshold = 0 ∨ b.failures < b.threshold then .closed
  else if b.openUntilMs = 0 ∨ b.openUntilMs ≤ nowMs then .halfOpen
  else .open

def onSuccess (b : Breaker) : Breaker :=
  if b.threshold = 0 then b else { b with openUntilMs := 0, failures := 0 }

def onFailure (b : Breaker) (nowMs : Nat) : Breaker :=
  if b.threshold = 0 then b
  else
    let prev := b.failures
    let b := { b with failures := wrappingSucc32 prev }
    let new := saturatingSucc32 prev
    if new = b.threshold then
      { b with openUntilMs := saturatingAdd64 nowMs b.cooldownMs }
    else if b.threshold < new then
      { b with openUntilMs := saturatingAdd64 nowMs b.cooldownMs }
    else b

theorem onFailure_eq (b : Breaker) (nowMs : Nat) (h : b.threshold ≠ 0) :
    b.onFailure nowMs =
      { b with
        failures := wrappingSucc32 b.failures
        openUntilMs :=
          if b.threshold ≤ saturatingSucc32 b.failures then
            saturatingAdd64 nowMs b.cooldownMs
          else b.openUntilMs } := by
  simp only [onFailure, h, if_false]
  split_ifs <;> first | rfl | omega

@[simp] theorem onSuccess_threshold (b : Breaker) :
    b.onSuccess.threshold = b.threshold := by
  unfold onSuccess
  split <;> rfl

@[simp] theorem onSuccess_cooldownMs (b : Breaker) :
    b.onSuccess.cooldownMs = b.cooldownMs := by
  unfold onSuccess
  split <;> rfl

@[simp] theorem onFailure_threshold (b : Breaker) (nowMs : Nat) :
    (b.onFailure nowMs).threshold = b.threshold := by
  by_cases h : b.threshold = 0
  · simp [onFailure, h]
  · simp [onFailure_eq b nowMs h]

@[simp] theorem onFailure_cooldownMs (b : Breaker) (nowMs : Nat) :
    (b.onFailure nowMs).cooldownMs = b.cooldownMs := by
  by_cases h : b.threshold = 0
  · simp [onFailure, h]
  · simp [onFailure_eq b nowMs h]

@[simp] theorem onFailure_anchor (b : Breaker) (nowMs : Nat) :
    (b.onFailure nowMs).anchor = b.anchor := by
  by_cases h : b.threshold = 0
  · simp [onFailure, h]
  · simp [onFailure_eq b nowMs h]

theorem check_eq_reject_iff (b : Breaker) (nowMs : Nat) :
    b.check nowMs = .reject ↔ b.snapshot nowMs = .open := by
  unfold check snapshot
  by_cases hzero : b.threshold = 0
  · simp [hzero]
  by_cases hlt : b.failures < b.threshold
  · simp [hzero, hlt]
  by_cases hdue : b.openUntilMs = 0 ∨ b.openUntilMs ≤ nowMs <;>
    simp [hzero, hlt, hdue]

end Breaker

/-! ## Runs -/

inductive Call where
  | onSuccess
  | onFailure
  | check
  | snapshot
  deriving DecidableEq, Repr

def Breaker.step (b : Breaker) : Call × Nat → Breaker
  | (.onSuccess, _) => b.onSuccess
  | (.onFailure, nowMs) => b.onFailure nowMs
  | (.check, _) => b
  | (.snapshot, _) => b

def Breaker.run (b : Breaker) (calls : List (Call × Nat)) : Breaker :=
  calls.foldl Breaker.step b

/-! ## The abstract machine: consecutive failures and the last one's time -/

/-- What a run of calls means: how many failures in a row, and when the last was. -/
structure History where
  failures : Nat := 0
  lastFailure : Nat := 0

def History.step (h : History) : Call × Nat → History
  | (.onSuccess, _) => { h with failures := 0 }
  | (.onFailure, nowMs) => ⟨h.failures + 1, nowMs⟩
  | (.check, _) => h
  | (.snapshot, _) => h

def History.of (calls : List (Call × Nat)) : History :=
  calls.foldl History.step {}

def History.state (h : History) (threshold cooldownMs nowMs : Nat) :
    BreakerState :=
  if threshold = 0 ∨ h.failures < threshold then .closed
  else if nowMs < min (h.lastFailure + cooldownMs) u64Max then .open
  else .halfOpen

/-- Counter and deadline encode the history; a stale deadline may be anything. -/
structure Breaker.Encodes (b : Breaker) (h : History) : Prop where
  failures : b.threshold ≠ 0 → b.failures = h.failures
  deadline : b.threshold ≠ 0 → b.threshold ≤ h.failures →
    b.openUntilMs = min (h.lastFailure + b.cooldownMs) u64Max

namespace Breaker

theorem encodes_new (cfg : BreakerConfig) (now : Nat) :
    (new cfg now).Encodes {} where
  failures _ := rfl
  deadline hne hle := absurd (Nat.le_zero.mp hle) hne

theorem encodes_onSuccess (b : Breaker) (h : History) (nowMs : Nat) :
    b.onSuccess.Encodes (h.step (.onSuccess, nowMs)) := by
  by_cases hzero : b.threshold = 0
  · constructor <;> intro hne <;> simp [hzero] at hne
  · constructor
    · intro _
      simp [Breaker.onSuccess, hzero, History.step]
    · intro _ hle
      simp [History.step, hzero] at hle

theorem Encodes.onFailure {b : Breaker} {h : History} (henc : b.Encodes h)
    (nowMs : Nat) (hbound : h.failures + 1 < 2 ^ 32) :
    (b.onFailure nowMs).Encodes (h.step (.onFailure, nowMs)) := by
  by_cases hzero : b.threshold = 0
  · constructor <;> intro hne <;> simp [hzero] at hne
  · have hfail := henc.failures hzero
    have hwrap : wrappingSucc32 b.failures = h.failures + 1 := by
      rw [wrappingSucc32, hfail, Nat.mod_eq_of_lt hbound]
    have hsat : saturatingSucc32 b.failures = h.failures + 1 := by
      rw [saturatingSucc32, hfail, u32Max]
      omega
    constructor
    · intro _
      simp [onFailure_eq b nowMs hzero, hwrap, History.step]
    · intro _ hle
      have hle' : b.threshold ≤ h.failures + 1 := by
        simpa [History.step] using hle
      simp [onFailure_eq b nowMs hzero, hsat, hle', History.step,
        saturatingAdd64]

theorem Encodes.step {b : Breaker} {h : History} (henc : b.Encodes h)
    (call : Call × Nat) (hbound : (h.step call).failures < 2 ^ 32) :
    (b.step call).Encodes (h.step call) := by
  obtain ⟨call, nowMs⟩ := call
  cases call with
  | onSuccess => exact encodes_onSuccess b h nowMs
  | onFailure => exact henc.onFailure nowMs hbound
  | check => exact henc
  | snapshot => exact henc

theorem Encodes.run {b : Breaker} {h : History} (henc : b.Encodes h)
    (calls : List (Call × Nat))
    (hbound : ∀ before, before <+: calls →
      (before.foldl History.step h).failures < 2 ^ 32) :
    (b.run calls).Encodes (calls.foldl History.step h) := by
  induction calls generalizing b h with
  | nil => exact henc
  | cons call calls ih =>
      have hfirst : (h.step call).failures < 2 ^ 32 :=
        hbound [call] ⟨calls, rfl⟩
      exact ih (henc.step call hfirst) fun before hbefore =>
        hbound (call :: before) ((List.cons_prefix_cons).mpr ⟨rfl, hbefore⟩)

theorem Encodes.snapshot_eq {b : Breaker} {h : History} (henc : b.Encodes h)
    (nowMs : Nat) :
    b.snapshot nowMs = h.state b.threshold b.cooldownMs nowMs := by
  unfold Breaker.snapshot History.state
  by_cases hzero : b.threshold = 0
  · simp [hzero]
  rw [henc.failures hzero]
  by_cases hlt : h.failures < b.threshold
  · simp [hlt]
  rw [henc.deadline hzero (not_lt.mp hlt)]
  -- A zero deadline is never in the future, so the sentinel changes nothing.
  by_cases hnow : nowMs < min (h.lastFailure + b.cooldownMs) u64Max
  · have hnot : ¬ (min (h.lastFailure + b.cooldownMs) u64Max = 0 ∨
        min (h.lastFailure + b.cooldownMs) u64Max ≤ nowMs) := by omega
    simp only [hzero, hlt, or_self, if_false, hnot, hnow, if_true]
  · have hdue : min (h.lastFailure + b.cooldownMs) u64Max = 0 ∨
        min (h.lastFailure + b.cooldownMs) u64Max ≤ nowMs := by omega
    simp only [hzero, hlt, or_self, if_false, hdue, hnow, if_true]

theorem run_eq_of_step {α : Type} (f : Breaker → α) (hstep : ∀ b call, f (b.step call) = f b)
    (b : Breaker) (calls : List (Call × Nat)) : f (b.run calls) = f b := by
  induction calls generalizing b with
  | nil => rfl
  | cons call calls ih => rw [run, List.foldl_cons, ← run, ih, hstep]

@[simp] theorem step_threshold (b : Breaker) (call : Call × Nat) :
    (b.step call).threshold = b.threshold := by
  obtain ⟨call, nowMs⟩ := call
  cases call <;> simp [step]

@[simp] theorem step_cooldownMs (b : Breaker) (call : Call × Nat) :
    (b.step call).cooldownMs = b.cooldownMs := by
  obtain ⟨call, nowMs⟩ := call
  cases call <;> simp [step]

@[simp] theorem run_threshold (b : Breaker) (calls : List (Call × Nat)) :
    (b.run calls).threshold = b.threshold :=
  run_eq_of_step Breaker.threshold step_threshold b calls

@[simp] theorem run_cooldownMs (b : Breaker) (calls : List (Call × Nat)) :
    (b.run calls).cooldownMs = b.cooldownMs :=
  run_eq_of_step Breaker.cooldownMs step_cooldownMs b calls

/--
On every run with fewer than `2 ^ 32` failures in a row, after every prefix
and at every clock reading, the breaker shows the documented state of the
history so far, and `check` rejects exactly when that state is open.
-/
theorem run_implements_state_machine (cfg : BreakerConfig) (created : Nat)
    (calls : List (Call × Nat))
    (hbound : ∀ before, before <+: calls →
      (History.of before).failures < 2 ^ 32) :
    ∀ before, before <+: calls → ∀ nowMs,
      let b := (new cfg created).run before
      b.snapshot nowMs =
        (History.of before).state cfg.threshold.toNat
          (min cfg.cooldown.asMillis u64Max) nowMs ∧
      (b.check nowMs = .reject ↔ b.snapshot nowMs = .open) := by
  intro before hbefore nowMs
  have henc : ((new cfg created).run before).Encodes (History.of before) :=
    (encodes_new cfg created).run before fun first hfirst =>
      hbound first (hfirst.trans hbefore)
  refine ⟨?_, check_eq_reject_iff _ _⟩
  simpa [new] using henc.snapshot_eq nowMs

theorem run_implements_state_machine_sample :
    let b := (new ⟨1, Duration.fromMillis 50⟩ 0).run [(.onFailure, 10)]
    b.snapshot 30 = .open ∧ b.check 30 = .reject ∧ b.snapshot 60 = .halfOpen := by
  have hbound : ∀ before, before <+: [(Call.onFailure, 10)] →
      (History.of before).failures < 2 ^ 32 := by
    simp only [← List.mem_inits]
    decide
  have hrun := run_implements_state_machine ⟨1, Duration.fromMillis 50⟩ 0
    [(.onFailure, 10)] hbound _ (List.prefix_refl _)
  have hopen := (hrun 30).1.trans (show _ = BreakerState.open by decide)
  exact ⟨hopen, (hrun 30).2.mpr hopen,
    (hrun 60).1.trans (show _ = BreakerState.halfOpen by decide)⟩

/-! ## The width of the counter -/

theorem snapshot_eq_closed_iff (b : Breaker) (nowMs : Nat) :
    b.snapshot nowMs = .closed ↔ b.threshold = 0 ∨ b.failures < b.threshold := by
  unfold snapshot
  split
  · rename_i hclosed
    simp [hclosed]
  · rename_i hclosed
    split <;> simp [hclosed]

theorem snapshot_eq_open_iff (b : Breaker) (nowMs : Nat) :
    b.snapshot nowMs = .open ↔
      b.threshold ≠ 0 ∧ b.threshold ≤ b.failures ∧ nowMs < b.openUntilMs := by
  unfold snapshot
  split_ifs <;> simp <;> omega

theorem run_failures {b : Breaker} (hzero : b.threshold ≠ 0)
    (hwidth : b.failures < 2 ^ 32) (calls : List (Call × Nat))
    (hno : ∀ call ∈ calls, call.1 ≠ .onSuccess) :
    (b.run calls).failures =
      (b.failures + calls.countP (·.1 = .onFailure)) % 2 ^ 32 := by
  induction calls generalizing b with
  | nil => simpa [run] using (Nat.mod_eq_of_lt hwidth).symm
  | cons call calls ih =>
      obtain ⟨call, nowMs⟩ := call
      have hrest : ∀ call ∈ calls, call.1 ≠ .onSuccess :=
        fun call hcall => hno call (List.mem_cons_of_mem _ hcall)
      rw [run, List.foldl_cons, ← run]
      cases call with
      | onSuccess => exact absurd rfl (hno _ List.mem_cons_self)
      | onFailure =>
          have hnext : (b.onFailure nowMs).failures = (b.failures + 1) % 2 ^ 32 := by
            rw [onFailure_eq b nowMs hzero, wrappingSucc32]
          rw [step, ih (by simpa using hzero)
            (by rw [hnext]; exact Nat.mod_lt _ (by decide)) hrest, hnext,
            Nat.mod_add_mod, List.countP_cons_of_pos (by simp)]
          congr 1
          omega
      | check =>
          rw [step, ih hzero hwidth hrest, List.countP_cons_of_neg (by simp)]
      | snapshot =>
          rw [step, ih hzero hwidth hrest, List.countP_cons_of_neg (by simp)]

theorem exists_prefix_countP {α : Type} (p : α → Bool) (items : List α) (k : Nat)
    (hk : k ≤ items.countP p) :
    ∃ before, before <+: items ∧ before.countP p = k := by
  induction items generalizing k with
  | nil =>
      rw [List.countP_nil] at hk
      exact ⟨[], List.prefix_refl _, by rw [List.countP_nil]; omega⟩
  | cons item items ih =>
      cases k with
      | zero => exact ⟨[], List.nil_prefix, List.countP_nil⟩
      | succ k =>
          by_cases hitem : p item = true
          · rw [List.countP_cons_of_pos hitem] at hk
            obtain ⟨before, hbefore, hcount⟩ := ih k (by omega)
            exact ⟨item :: before, List.cons_prefix_cons.mpr ⟨rfl, hbefore⟩,
              by rw [List.countP_cons_of_pos hitem, hcount]⟩
          · rw [List.countP_cons_of_neg hitem] at hk
            obtain ⟨before, hbefore, hcount⟩ := ih (k + 1) hk
            exact ⟨item :: before, List.cons_prefix_cons.mpr ⟨rfl, hbefore⟩,
              by rw [List.countP_cons_of_neg hitem, hcount]⟩

/--
Without a success a tripped breaker is never seen closed exactly as long as
its counter and the failures still to come stay below `2 ^ 32` together.
-/
theorem stays_tripped_iff (b : Breaker) (hthreshold : 1 ≤ b.threshold)
    (hwidth : b.failures < 2 ^ 32) (htripped : b.threshold ≤ b.failures)
    (calls : List (Call × Nat)) (hno : ∀ call ∈ calls, call.1 ≠ .onSuccess) :
    (∀ before, before <+: calls → ∀ nowMs,
        (b.run before).snapshot nowMs ≠ .closed) ↔
      b.failures + calls.countP (·.1 = .onFailure) < 2 ^ 32 := by
  have hzero : b.threshold ≠ 0 := by omega
  have hfailures : ∀ before, before <+: calls → (b.run before).failures =
      (b.failures + before.countP (·.1 = .onFailure)) % 2 ^ 32 := by
    intro before hbefore
    exact run_failures hzero hwidth before
      fun call hcall => hno call (hbefore.subset hcall)
  simp only [ne_eq, snapshot_eq_closed_iff, run_threshold, not_or]
  constructor
  · intro h
    by_contra hge
    obtain ⟨before, hbefore, hcount⟩ := exists_prefix_countP
      (·.1 = Call.onFailure) calls (2 ^ 32 - b.failures) (by omega)
    have hwrapped : (b.run before).failures = 0 := by
      rw [hfailures before hbefore, hcount, Nat.add_sub_cancel' hwidth.le,
        Nat.mod_self]
    have hopen := (h before hbefore 0).2
    omega
  · intro h before hbefore _
    have hle := hbefore.sublist.countP_le (p := fun call => call.1 = Call.onFailure)
    rw [hfailures before hbefore, Nat.mod_eq_of_lt (by omega)]
    exact ⟨hzero, by omega⟩

theorem run_replicate_onFailure {b : Breaker} (hzero : b.threshold ≠ 0)
    (hwidth : b.failures < 2 ^ 32) (n nowMs : Nat) :
    (b.run (List.replicate n (.onFailure, nowMs))).failures =
      (b.failures + n) % 2 ^ 32 := by
  rw [run_failures hzero hwidth _ (by simp), List.countP_replicate, if_pos (by simp)]

theorem wrapped_counter_closes :
    ∃ b, b = (new {} 0).run (List.replicate (2 ^ 32 - 1) (.onFailure, 0)) ∧
      1 ≤ b.threshold ∧ b.threshold ≤ b.failures ∧
      (b.run [(.onFailure, 0)]).snapshot 0 = .closed := by
  generalize hn : 2 ^ 32 - 1 = n
  have hnew : (new {} 0).threshold = 5 := rfl
  have hfailures : ((new {} 0).run (List.replicate n (.onFailure, 0))).failures = n := by
    rw [run_replicate_onFailure (by omega) (by decide)]
    show (0 + n) % 2 ^ 32 = n
    omega
  have hthreshold := run_threshold (new {} 0) (List.replicate n (.onFailure, 0))
  generalize (new {} 0).run (List.replicate n (.onFailure, 0)) = b at hfailures hthreshold ⊢
  refine ⟨b, rfl, by omega, by omega, (snapshot_eq_closed_iff _ _).mpr (.inr ?_)⟩
  rw [show [(Call.onFailure, 0)] = List.replicate 1 (.onFailure, 0) from rfl,
    run_replicate_onFailure (by omega) (by omega), run_threshold]
  omega

theorem stays_tripped_iff_sample :
    let b := (new {} 0).run (List.replicate 5 (.onFailure, 0))
    b.threshold ≤ b.failures ∧
    ∀ before, before <+: [(Call.onFailure, 10), (.check, 20)] → ∀ nowMs,
      (b.run before).snapshot nowMs ≠ .closed := by
  refine ⟨by decide, (stays_tripped_iff _ (by decide) (by decide) (by decide)
    [(.onFailure, 10), (.check, 20)] ?_).mpr (by decide)⟩
  simp

end Breaker

end Conduit
