import Conduit.Lifecycle.Timeline

/-!
# The timed body under any polling

A consumer polls when it likes, and the inner body answers each poll as it
likes.  The wrapper passes every answer on; its timer can only turn a pending
poll into an error, and it runs from the first poll after the last ready one.
-/

namespace Conduit

/-- A consumer's polls: the instant of each, and what the inner body has there. -/
structure Polls (F : Type) where
  instant : Nat → Nat
  inner : Nat → Poll (Yield String F)

def Polls.delayed {F : Type} (p : Polls F) (k gap : Nat) : Polls F :=
  { p with instant := fun i => if i ≤ k then p.instant i else p.instant i + gap }

/-- Poll `j` is the first one after the last ready result before poll `k`. -/
structure WaitsFrom {α : Type} (results : Nat → Poll α) (j k : Nat) : Prop where
  le : j ≤ k
  fresh : j = 0 ∨ ∃ a, results (j - 1) = .ready a
  pending : ∀ i, j ≤ i → i < k → results i = .pending

def framesOf {ε F : Type} (results : Nat → Poll (Yield ε F)) (n : Nat) : List F :=
  (List.range n).filterMap fun k =>
    match results k with
    | .ready (some (.ok frame)) => some frame
    | _ => none

section WaitsFrom

variable {α : Type} {results : Nat → Poll α} {j j' k : Nat}

theorem WaitsFrom.le_of (h : WaitsFrom results j k) (h' : WaitsFrom results j' k) : j ≤ j' := by
  by_contra hlt
  rcases h.fresh with rfl | ⟨a, hready⟩
  · omega
  · have hpending := h'.pending (j - 1) (by omega) (by have := h.le; omega)
    rw [hready] at hpending
    cases hpending

theorem WaitsFrom.unique (h : WaitsFrom results j k) (h' : WaitsFrom results j' k) : j = j' :=
  Nat.le_antisymm (h.le_of h') (h'.le_of h)

theorem waitsFrom_zero : WaitsFrom results 0 0 where
  le := le_rfl
  fresh := .inl rfl
  pending i _ hi := absurd hi i.not_lt_zero

theorem waitsFrom_ready {a : α} (h : results k = .ready a) :
    WaitsFrom results (k + 1) (k + 1) where
  le := le_rfl
  fresh := .inr ⟨a, h⟩
  pending i hle hlt := by omega

theorem WaitsFrom.succ (h : WaitsFrom results j k) (hpending : results k = .pending) :
    WaitsFrom results j (k + 1) where
  le := h.le.trans (Nat.le_succ k)
  fresh := h.fresh
  pending i hle hlt := by
    rcases Nat.lt_succ_iff_lt_or_eq.mp hlt with hlt | rfl
    · exact h.pending i hle hlt
    · exact hpending

end WaitsFrom

namespace TimedBody

variable {B F : Type}

def new (inner : B) (timeout : Duration) : TimedBody B := ⟨inner, timeout, none⟩

def before (b : TimedBody B) (p : Polls F) : Nat → TimedBody B
  | 0 => b
  | k + 1 => ((b.before p k).pollFrame (p.instant k) (p.inner k)).2

def result (b : TimedBody B) (p : Polls F) (k : Nat) : Poll (Yield BodyError F) :=
  ((b.before p k).pollFrame (p.instant k) (p.inner k)).1

/-! ## What one poll does -/

theorem pollFrame_ready (b : TimedBody B) (now : Nat) (yield : Yield String F) :
    b.pollFrame now (.ready yield) =
      (.ready (yield.map (Except.mapError .inner)), { b with sleep := none }) :=
  rfl

@[simp] theorem pollFrame_timeout (b : TimedBody B) (now : Nat) (inner : Poll (Yield String F)) :
    (b.pollFrame now inner).2.timeout = b.timeout := by
  cases inner with
  | ready yield => rfl
  | pending =>
      rw [pollFrame_pending]
      split <;> rfl

@[simp] theorem before_timeout (b : TimedBody B) (p : Polls F) (k : Nat) :
    (b.before p k).timeout = b.timeout := by
  induction k with
  | zero => rfl
  | succ k ih => rw [before, pollFrame_timeout, ih]

theorem result_ready (b : TimedBody B) {p : Polls F} {k : Nat} {yield : Yield String F}
    (h : p.inner k = .ready yield) :
    b.result p k = .ready (yield.map (Except.mapError .inner)) := by
  rw [result, h, pollFrame_ready]

theorem before_ready (b : TimedBody B) {p : Polls F} {k : Nat} {yield : Yield String F}
    (h : p.inner k = .ready yield) : (b.before p (k + 1)).sleep = none := by
  rw [before, h, pollFrame_ready]

/-! ## The timer -/

/-- The timer at poll `k`: armed by poll `j`, which came first since the last result. -/
structure ArmedBy (b : TimedBody B) (p : Polls F) (j k : Nat) : Prop where
  waits : WaitsFrom (b.result p) j k
  sleep : (b.before p k).sleep =
    if j = k then none else some (p.instant j + b.timeout.nanos)

variable {b : TimedBody B} {p : Polls F} {j k : Nat}

theorem ArmedBy.deadline (h : ArmedBy b p j k) :
    (b.before p k).sleep.getD (p.instant k + (b.before p k).timeout.nanos) =
      p.instant j + b.timeout.nanos := by
  rw [h.sleep, before_timeout]
  split
  · rename_i hjk
    rw [hjk]
    rfl
  · rfl

theorem ArmedBy.pollFrame (h : ArmedBy b p j k) (hinner : p.inner k = .pending) :
    (b.before p k).pollFrame (p.instant k) (p.inner k) =
      if p.instant j + b.timeout.nanos ≤ p.instant k then
        (.ready (some (.error (.readTimeout b.timeout))), { b.before p k with sleep := none })
      else (.pending, { b.before p k with sleep := some (p.instant j + b.timeout.nanos) }) := by
  rw [hinner, pollFrame_pending, h.deadline]
  simp only [before_timeout]

theorem ArmedBy.result (h : ArmedBy b p j k) (hinner : p.inner k = .pending) :
    b.result p k =
      if p.instant j + b.timeout.nanos ≤ p.instant k then
        .ready (some (.error (.readTimeout b.timeout)))
      else .pending := by
  rw [TimedBody.result, h.pollFrame hinner]
  split <;> rfl

theorem armedBy_ready {a : Yield BodyError F} (hresult : b.result p k = .ready a)
    (hsleep : (b.before p (k + 1)).sleep = none) : ArmedBy b p (k + 1) (k + 1) where
  waits := waitsFrom_ready hresult
  sleep := by rw [hsleep, if_pos rfl]

theorem ArmedBy.succ (h : ArmedBy b p j k) : ∃ j', ArmedBy b p j' (k + 1) := by
  cases hinner : p.inner k with
  | ready yield => exact ⟨k + 1, armedBy_ready (b.result_ready hinner) (b.before_ready hinner)⟩
  | pending =>
      have hpoll := h.pollFrame hinner
      by_cases hdue : p.instant j + b.timeout.nanos ≤ p.instant k
      · rw [if_pos hdue] at hpoll
        refine ⟨k + 1, armedBy_ready (congrArg Prod.fst hpoll) ?_⟩
        rw [before, hpoll]
      · rw [if_neg hdue] at hpoll
        refine ⟨j, h.waits.succ (congrArg Prod.fst hpoll), ?_⟩
        have hne : j ≠ k + 1 := by
          have := h.waits.le
          omega
        rw [before, hpoll, if_neg hne]

theorem exists_armedBy (hfresh : b.sleep = none) (p : Polls F) (k : Nat) :
    ∃ j, ArmedBy b p j k := by
  induction k with
  | zero => exact ⟨0, waitsFrom_zero, by rw [before, hfresh, if_pos rfl]⟩
  | succ k ih =>
      obtain ⟨j, h⟩ := ih
      exact h.succ

/-! ## A break of the consumer -/

def shifted (b : TimedBody B) (gap : Nat) : TimedBody B :=
  { b with sleep := b.sleep.map (· + gap) }

theorem pollFrame_shifted (b : TimedBody B) (gap now : Nat) (inner : Poll (Yield String F)) :
    (b.shifted gap).pollFrame (now + gap) inner =
      ((b.pollFrame now inner).1, (b.pollFrame now inner).2.shifted gap) := by
  cases inner with
  | ready yield => rfl
  | pending =>
      have hdeadline : (b.shifted gap).sleep.getD (now + gap + (b.shifted gap).timeout.nanos) =
          b.sleep.getD (now + b.timeout.nanos) + gap := by
        cases hsleep : b.sleep with
        | none =>
            simp only [shifted, hsleep, Option.map_none, Option.getD_none]
            omega
        | some deadline => simp [shifted, hsleep]
      rw [pollFrame_pending, pollFrame_pending, hdeadline]
      by_cases hdue : b.sleep.getD (now + b.timeout.nanos) ≤ now
      · rw [if_pos hdue, if_pos (by omega)]
        rfl
      · rw [if_neg hdue, if_neg (by omega)]
        rfl

theorem before_delayed_of_le (b : TimedBody B) (p : Polls F) (k gap : Nat) {i : Nat}
    (hi : i ≤ k + 1) : b.before (p.delayed k gap) i = b.before p i := by
  induction i with
  | zero => rfl
  | succ i ih =>
      have hinstant : (p.delayed k gap).instant i = p.instant i := if_pos (by omega)
      rw [before, before, ih (by omega), hinstant]
      rfl

theorem before_delayed (b : TimedBody B) {p : Polls F} {k : Nat} {yield : Yield String F}
    (hinner : p.inner k = .ready yield) (gap n : Nat) :
    b.before (p.delayed k gap) (k + 1 + n) = (b.before p (k + 1 + n)).shifted gap := by
  induction n with
  | zero =>
      rw [Nat.add_zero, before_delayed_of_le b p k gap le_rfl, shifted, b.before_ready hinner,
        Option.map_none, ← b.before_ready hinner]
  | succ n ih =>
      have hinstant : (p.delayed k gap).instant (k + 1 + n) = p.instant (k + 1 + n) + gap :=
        if_neg (by omega)
      have hlast : (p.delayed k gap).inner (k + 1 + n) = p.inner (k + 1 + n) := rfl
      rw [← Nat.add_assoc, before, ih, hinstant, hlast, pollFrame_shifted, before]

theorem result_delayed (b : TimedBody B) {p : Polls F} {k : Nat} {yield : Yield String F}
    (hinner : p.inner k = .ready yield) (gap i : Nat) :
    b.result (p.delayed k gap) i = b.result p i := by
  have hlast : (p.delayed k gap).inner i = p.inner i := rfl
  rcases Nat.lt_or_ge k i with hlt | hle
  · obtain ⟨n, rfl⟩ := Nat.exists_eq_add_of_le (show k + 1 ≤ i from hlt)
    have hinstant : (p.delayed k gap).instant (k + 1 + n) = p.instant (k + 1 + n) + gap :=
      if_neg (by omega)
    rw [result, before_delayed b hinner, hinstant, hlast, pollFrame_shifted, result]
  · have hinstant : (p.delayed k gap).instant i = p.instant i := if_pos hle
    rw [result, before_delayed_of_le b p k gap (by omega), hinstant, hlast, result]

/-! ## Transparency -/

/--
The wrapper hands on what the inner body has, but for a timeout on a poll that
finds it pending once the timer of the wait has run.
-/
structure Transparent (b : TimedBody B) (p : Polls F) : Prop where
  passes : ∀ k yield, p.inner k = .ready yield →
    b.result p k = .ready (yield.map (Except.mapError .inner))
  waits : ∀ k, p.inner k = .pending → ∃ j, WaitsFrom (b.result p) j k ∧
    b.result p k =
      if p.instant j + b.timeout.nanos ≤ p.instant k then
        .ready (some (.error (.readTimeout b.timeout)))
      else .pending
  timesOut : ∀ k, (∃ limit, b.result p k = .ready (some (.error (.readTimeout limit)))) ↔
    p.inner k = .pending ∧
      ∃ j, WaitsFrom (b.result p) j k ∧ p.instant j + b.timeout.nanos ≤ p.instant k
  frames : ∀ n, framesOf (b.result p) n = framesOf p.inner n
  idle : ∀ k yield, p.inner k = .ready yield → ∀ gap i,
    b.result (p.delayed k gap) i = b.result p i

theorem framesOf_result (b : TimedBody B) (hfresh : b.sleep = none) (p : Polls F) (n : Nat) :
    framesOf (b.result p) n = framesOf p.inner n := by
  apply List.filterMap_congr
  intro k _
  cases hinner : p.inner k with
  | ready yield =>
      rw [b.result_ready hinner]
      match yield with
      | none => rfl
      | some (.error message) => rfl
      | some (.ok frame) => rfl
  | pending =>
      obtain ⟨j, harmed⟩ := exists_armedBy hfresh p k
      rw [harmed.result hinner]
      split_ifs <;> rfl

theorem not_timesOut_of_ready (b : TimedBody B) {p : Polls F} {k : Nat}
    {yield : Yield String F} (hinner : p.inner k = .ready yield) (limit : Duration) :
    b.result p k ≠ .ready (some (.error (.readTimeout limit))) := by
  rw [b.result_ready hinner]
  match yield with
  | none => simp
  | some (.error message) => simp [Except.mapError]
  | some (.ok frame) => simp [Except.mapError]

/-- `TimedBody` is transparent but for genuine stalls. -/
theorem new_transparent (inner : B) (timeout : Duration) (p : Polls F) :
    Transparent (new inner timeout) p := by
  have hfresh : (new inner timeout).sleep = none := rfl
  constructor
  case passes => exact fun k yield hinner => result_ready _ hinner
  case waits =>
    intro k hinner
    obtain ⟨j, harmed⟩ := exists_armedBy hfresh p k
    exact ⟨j, harmed.waits, harmed.result hinner⟩
  case timesOut =>
    intro k
    obtain ⟨j, harmed⟩ := exists_armedBy hfresh p k
    constructor
    · rintro ⟨limit, hlimit⟩
      cases hinner : p.inner k with
      | ready yield => exact absurd hlimit (not_timesOut_of_ready _ hinner limit)
      | pending =>
          rw [harmed.result hinner] at hlimit
          split at hlimit
          · rename_i hdue
            exact ⟨rfl, j, harmed.waits, hdue⟩
          · cases hlimit
    · rintro ⟨hinner, j', hwaits, hdue⟩
      rw [hwaits.unique harmed.waits] at hdue
      exact ⟨_, by rw [harmed.result hinner, if_pos hdue]⟩
  case frames => exact framesOf_result _ hfresh p
  case idle => exact fun k yield hinner => result_delayed _ hinner

end TimedBody

end Conduit
