import Mathlib.Data.List.Basic
import Mathlib.Order.Basic

/-!
# Loops that poll a flag

A loop looks at a flag, waits, perhaps sees something, and looks again.  The
waits and what they see are a script; an event can also end the loop.  The
lemmas bound when the loop leaves after the flag has risen and what it can
still see from then on.
-/

namespace Conduit.Foundation

/-- A wait, and what was there at its end. -/
structure Lap (ε : Type*) where
  wait : Nat
  event : Option ε

variable {ε : Type*}

def Lap.seen (lap : Lap ε) (now : Nat) : List (Nat × ε) :=
  (lap.event.map fun e => (now + lap.wait, e)).toList

/--
At most `fuel` looks at the flag, from lap `k` on.  Returns the instant at
which the loop leaves and the events it saw, each with its instant.
-/
def pollLoop (flag : Nat → Bool) (stops : ε → Bool) (laps : Nat → Lap ε) :
    Nat → Nat → Nat → Option (Nat × List (Nat × ε))
  | 0, _, _ => none
  | fuel + 1, k, now =>
      if flag now then some (now, [])
      else if (laps k).event.any stops then some (now + (laps k).wait, (laps k).seen now)
      else
        (pollLoop flag stops laps fuel (k + 1) (now + (laps k).wait)).map fun r =>
          (r.1, (laps k).seen now ++ r.2)

def lookAt (laps : Nat → Lap ε) (k now : Nat) : Nat → Nat
  | 0 => now
  | n + 1 => lookAt laps (k + 1) (now + (laps k).wait) n

variable {flag : Nat → Bool} {stops : ε → Bool} {laps : Nat → Lap ε}
  {fuel k now exit : Nat} {log : List (Nat × ε)}

theorem pollLoop_cases (h : pollLoop flag stops laps fuel k now = some (exit, log)) :
    ∃ more, fuel = more + 1 ∧
      (flag now = true ∧ exit = now ∧ log = [] ∨
      flag now = false ∧ (laps k).event.any stops = true ∧ exit = now + (laps k).wait ∧
        log = (laps k).seen now ∨
      flag now = false ∧ (laps k).event.any stops = false ∧ ∃ rest,
        pollLoop flag stops laps more (k + 1) (now + (laps k).wait) = some (exit, rest) ∧
        log = (laps k).seen now ++ rest) := by
  cases fuel with
  | zero => cases h
  | succ more =>
      refine ⟨more, rfl, ?_⟩
      rw [pollLoop] at h
      cases hflag : flag now with
      | true =>
          rw [if_pos hflag] at h
          cases h
          exact .inl ⟨rfl, rfl, rfl⟩
      | false =>
          rw [if_neg (by simp [hflag])] at h
          cases hstop : (laps k).event.any stops with
          | true =>
              rw [if_pos hstop] at h
              cases h
              exact .inr (.inl ⟨rfl, rfl, rfl, rfl⟩)
          | false =>
              rw [if_neg (by simp [hstop])] at h
              obtain ⟨⟨t, rest⟩, hrest, heq⟩ := Option.map_eq_some_iff.mp h
              cases heq
              exact .inr (.inr ⟨rfl, rfl, rest, hrest, rfl⟩)

theorem mem_seen {lap : Lap ε} {p : Nat × ε} (h : p ∈ lap.seen now) :
    p.1 = now + lap.wait ∧ lap.event = some p.2 := by
  obtain ⟨e, he, rfl⟩ := Option.map_eq_some_iff.mp (Option.mem_toList.mp h)
  exact ⟨rfl, he⟩

theorem length_seen_le (lap : Lap ε) (now : Nat) : (lap.seen now).length ≤ 1 := by
  unfold Lap.seen
  cases lap.event <;> simp

theorem le_exit (h : pollLoop flag stops laps fuel k now = some (exit, log)) :
    now ≤ exit := by
  induction fuel generalizing k now log with
  | zero => cases h
  | succ fuel ih =>
      obtain ⟨more, hfuel, ⟨-, rfl, -⟩ | ⟨-, -, rfl, -⟩ | ⟨-, -, rest, hrest, -⟩⟩ :=
        pollLoop_cases h
      · exact Nat.le_refl _
      · exact Nat.le_add_right _ _
      · cases hfuel
        exact Nat.le_trans (Nat.le_add_right _ _) (ih hrest)

theorem mem_log_le (h : pollLoop flag stops laps fuel k now = some (exit, log)) :
    ∀ p ∈ log, now ≤ p.1 ∧ p.1 ≤ exit := by
  induction fuel generalizing k now log with
  | zero => cases h
  | succ fuel ih =>
      obtain ⟨more, hfuel, ⟨-, rfl, rfl⟩ | ⟨-, -, rfl, rfl⟩ | ⟨-, -, rest, hrest, rfl⟩⟩ :=
        pollLoop_cases h
      · exact fun p hp => absurd hp List.not_mem_nil
      · intro p hp
        rw [(mem_seen hp).1]
        exact ⟨Nat.le_add_right _ _, Nat.le_refl _⟩
      · cases hfuel
        intro p hp
        rcases List.mem_append.mp hp with hp | hp
        · rw [(mem_seen hp).1]
          exact ⟨Nat.le_add_right _ _, le_exit hrest⟩
        · obtain ⟨hle, hexit⟩ := ih hrest p hp
          exact ⟨Nat.le_trans (Nat.le_add_right _ _) hle, hexit⟩

theorem flag_or_stops_of_exit (h : pollLoop flag stops laps fuel k now = some (exit, log)) :
    flag exit = true ∨ ∃ p ∈ log, p.1 = exit ∧ stops p.2 = true := by
  induction fuel generalizing k now log with
  | zero => cases h
  | succ fuel ih =>
      obtain ⟨more, hfuel, ⟨hflag, rfl, -⟩ | ⟨-, hstop, rfl, rfl⟩ | ⟨-, -, rest, hrest, rfl⟩⟩ :=
        pollLoop_cases h
      · exact .inl hflag
      · cases hevent : (laps k).event with
        | none => simp [hevent] at hstop
        | some e =>
            refine .inr ⟨(now + (laps k).wait, e), by simp [Lap.seen, hevent], rfl, ?_⟩
            simpa [hevent] using hstop
      · cases hfuel
        rcases ih hrest with hflag | ⟨p, hp, hat, hstops⟩
        · exact .inl hflag
        · exact .inr ⟨p, List.mem_append_right _ hp, hat, hstops⟩

section Rise

variable {rise period : Nat}

theorem exit_le (hrise : ∀ u, rise ≤ u → flag u = true) (hwait : ∀ k, (laps k).wait ≤ period)
    (h : pollLoop flag stops laps fuel k now = some (exit, log)) :
    exit ≤ max now (rise + period) := by
  induction fuel generalizing k now log with
  | zero => cases h
  | succ fuel ih =>
      have hlap := hwait k
      have hbefore : flag now = false → now < rise := by
        intro hflag
        by_contra hle
        rw [hrise now (Nat.le_of_not_lt hle)] at hflag
        cases hflag
      obtain ⟨more, hfuel, ⟨-, rfl, -⟩ | ⟨hflag, -, rfl, -⟩ | ⟨hflag, -, rest, hrest, -⟩⟩ :=
        pollLoop_cases h
      · exact Nat.le_max_left _ _
      · have hnow := hbefore hflag
        omega
      · cases hfuel
        have hnow := hbefore hflag
        have hexit := ih hrest
        omega

theorem length_late_le (hrise : ∀ u, rise ≤ u → flag u = true)
    (h : pollLoop flag stops laps fuel k now = some (exit, log)) :
    (log.filter fun p => rise ≤ p.1).length ≤ 1 := by
  induction fuel generalizing k now log with
  | zero => cases h
  | succ fuel ih =>
      obtain ⟨more, hfuel, ⟨-, -, rfl⟩ | ⟨-, -, -, rfl⟩ | ⟨-, -, rest, hrest, rfl⟩⟩ :=
        pollLoop_cases h
      · simp
      · exact Nat.le_trans (List.length_filter_le _ _) (length_seen_le _ _)
      · cases hfuel
        rw [List.filter_append, List.length_append]
        by_cases hlate : rise ≤ now + (laps k).wait
        · -- The next look finds the flag risen, so nothing follows this event.
          have hdone : rest = [] := by
            obtain ⟨more, -, ⟨-, -, rfl⟩ | ⟨hflag, -⟩ | ⟨hflag, -⟩⟩ := pollLoop_cases hrest
            · rfl
            · rw [hrise _ hlate] at hflag
              cases hflag
            · rw [hrise _ hlate] at hflag
              cases hflag
          rw [hdone, List.filter_nil, List.length_nil, Nat.add_zero]
          exact Nat.le_trans (List.length_filter_le _ _) (length_seen_le _ _)
        · have hnone : ((laps k).seen now).filter (fun p => rise ≤ p.1) = [] := by
            rw [List.filter_eq_nil_iff]
            intro p hp
            rw [(mem_seen hp).1]
            simpa using hlate
          rw [hnone, List.length_nil, Nat.zero_add]
          exact ih hrest

end Rise

theorem pollLoop_mono {r : Nat × List (Nat × ε)} {more : Nat} (hle : fuel ≤ more)
    (h : pollLoop flag stops laps fuel k now = some r) :
    pollLoop flag stops laps more k now = some r := by
  induction fuel generalizing more k now r with
  | zero => cases h
  | succ fuel ih =>
      cases more with
      | zero => exact absurd hle (Nat.not_succ_le_zero _)
      | succ more =>
          rw [pollLoop] at h ⊢
          split
          · rwa [if_pos ‹_›] at h
          · rw [if_neg ‹_›] at h
            split
            · rwa [if_pos ‹_›] at h
            · rw [if_neg ‹_›] at h
              obtain ⟨r', hr', heq⟩ := Option.map_eq_some_iff.mp h
              rw [ih (Nat.le_of_succ_le_succ hle) hr', Option.map_some, heq]

theorem exists_exit {n : Nat} (h : flag (lookAt laps k now n) = true) :
    ∃ r, pollLoop flag stops laps (n + 1) k now = some r := by
  induction n generalizing k now with
  | zero =>
      rw [lookAt] at h
      exact ⟨(now, []), by rw [pollLoop, if_pos h]⟩
  | succ n ih =>
      rw [pollLoop]
      split
      · exact ⟨_, rfl⟩
      · split
        · exact ⟨_, rfl⟩
        · obtain ⟨r, hr⟩ := ih h
          exact ⟨_, by rw [hr]; rfl⟩

theorem le_lookAt (hwait : ∀ k, 1 ≤ (laps k).wait) (k now n : Nat) :
    now + n ≤ lookAt laps k now n := by
  induction n generalizing k now with
  | zero => exact Nat.le_refl _
  | succ n ih =>
      have hnext := ih (k + 1) (now + (laps k).wait)
      have hone := hwait k
      rw [lookAt]
      omega

/-! ## Several loops -/

/-- Loops that all start at `start`.  Returns when the last has left, and the log of each. -/
def pollLoops (flag : Nat → Bool) (stops : ε → Bool) (fuel start : Nat) :
    List (Nat → Lap ε) → Option (Nat × List (List (Nat × ε)))
  | [] => some (start, [])
  | laps :: loops => do
      let (exit, log) ← pollLoop flag stops laps fuel 0 start
      let (joined, logs) ← pollLoops flag stops fuel start loops
      some (max exit joined, log :: logs)

variable {loops : List (Nat → Lap ε)} {start rise period joined : Nat}
  {logs : List (List (Nat × ε))}

/-- What is known once the last of `n` loops has left. -/
structure Joined (flag : Nat → Bool) (stops : ε → Bool) (n start rise period joined : Nat)
    (logs : List (List (Nat × ε))) : Prop where
  start_le : start ≤ joined
  joined_le : joined ≤ max start (rise + period)
  ended : n ≠ 0 → (∃ exit, exit ≤ joined ∧ flag exit = true) ∨
    ∃ log ∈ logs, ∃ p ∈ log, stops p.2 = true
  length_logs : logs.length = n
  within : ∀ log ∈ logs, ∀ p ∈ log, start ≤ p.1 ∧ p.1 ≤ joined
  late_le : ∀ log ∈ logs, (log.filter fun p => rise ≤ p.1).length ≤ 1

theorem pollLoops_cons {laps : Nat → Lap ε} {r : Nat × List (List (Nat × ε))} :
    pollLoops flag stops fuel start (laps :: loops) = some r ↔
      ∃ exit log joined logs, pollLoop flag stops laps fuel 0 start = some (exit, log) ∧
        pollLoops flag stops fuel start loops = some (joined, logs) ∧
        r = (max exit joined, log :: logs) := by
  rw [pollLoops]
  constructor
  · intro h
    obtain ⟨⟨exit, log⟩, hloop, h⟩ := Option.bind_eq_some_iff.mp h
    obtain ⟨⟨joined, logs⟩, hrest, h⟩ := Option.bind_eq_some_iff.mp h
    exact ⟨exit, log, joined, logs, hloop, hrest, (Option.some.inj h).symm⟩
  · rintro ⟨exit, log, joined, logs, hloop, hrest, rfl⟩
    exact Option.bind_eq_some_iff.mpr ⟨_, hloop, Option.bind_eq_some_iff.mpr ⟨_, hrest, rfl⟩⟩

theorem joined_of_pollLoops (hrise : ∀ u, rise ≤ u → flag u = true)
    (hwait : ∀ laps ∈ loops, ∀ k, (laps k).wait ≤ period)
    (h : pollLoops flag stops fuel start loops = some (joined, logs)) :
    Joined flag stops loops.length start rise period joined logs := by
  induction loops generalizing joined logs with
  | nil =>
      cases h
      exact ⟨Nat.le_refl _, Nat.le_max_left _ _, fun h => absurd rfl h, rfl, by simp, by simp⟩
  | cons laps loops ih =>
      obtain ⟨exit, first, others, rest, hloop, hrest, heq⟩ := pollLoops_cons.mp h
      cases heq
      have hothers := ih (fun t ht => hwait t (List.mem_cons_of_mem _ ht)) hrest
      have hexit := exit_le hrise (hwait laps List.mem_cons_self) hloop
      have hjoined := hothers.joined_le
      refine ⟨Nat.le_trans (le_exit hloop) (Nat.le_max_left _ _), by omega, ?_, ?_, ?_, ?_⟩
      · intro _
        rcases flag_or_stops_of_exit hloop with hflag | ⟨p, hp, -, hstops⟩
        · exact .inl ⟨exit, Nat.le_max_left _ _, hflag⟩
        · exact .inr ⟨first, List.mem_cons_self, p, hp, hstops⟩
      · rw [List.length_cons, List.length_cons, hothers.length_logs]
      · intro log hlog p hp
        rcases List.mem_cons.mp hlog with rfl | hlog
        · obtain ⟨hle, hle'⟩ := mem_log_le hloop p hp
          exact ⟨hle, Nat.le_trans hle' (Nat.le_max_left _ _)⟩
        · obtain ⟨hle, hle'⟩ := hothers.within log hlog p hp
          exact ⟨hle, Nat.le_trans hle' (Nat.le_max_right _ _)⟩
      · intro log hlog
        rcases List.mem_cons.mp hlog with rfl | hlog
        · exact length_late_le hrise hloop
        · exact hothers.late_le log hlog

theorem pollLoops_mono {more : Nat} (hle : fuel ≤ more) {r : Nat × List (List (Nat × ε))}
    (h : pollLoops flag stops fuel start loops = some r) :
    pollLoops flag stops more start loops = some r := by
  induction loops generalizing r with
  | nil => exact h
  | cons laps loops ih =>
      obtain ⟨exit, first, others, rest, hloop, hrest, rfl⟩ := pollLoops_cons.mp h
      exact pollLoops_cons.mpr
        ⟨exit, first, others, rest, pollLoop_mono hle hloop, ih hrest, rfl⟩

theorem exists_pollLoops (hrise : ∀ u, rise ≤ u → flag u = true)
    (hwait : ∀ laps ∈ loops, ∀ k, 1 ≤ (laps k).wait) (start : Nat) :
    ∃ r, pollLoops flag stops (rise + 1) start loops = some r := by
  induction loops with
  | nil => exact ⟨_, rfl⟩
  | cons laps loops ih =>
      obtain ⟨⟨others, rest⟩, hrest⟩ := ih fun t ht => hwait t (List.mem_cons_of_mem _ ht)
      have hlook := le_lookAt (hwait laps List.mem_cons_self) 0 start rise
      have hfirst : ∃ r, pollLoop flag stops laps (rise + 1) 0 start = some r :=
        exists_exit (hrise _ (Nat.le_trans (Nat.le_add_left _ _) hlook))
      obtain ⟨⟨exit, log⟩, hloop⟩ := hfirst
      exact ⟨_, pollLoops_cons.mpr ⟨exit, log, others, rest, hloop, hrest, rfl⟩⟩

end Conduit.Foundation
