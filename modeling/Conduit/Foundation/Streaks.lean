import Mathlib.Data.List.Infix

/-!
# Streaks in a sequence of outcomes

Outcomes come one by one.  `trailing` is the streak a sequence ends in, and
`strikes` counts how often a losing streak stood at a threshold or above it
since the last winning streak that was long enough to clear the count.
-/

namespace Conduit.Foundation

/-- The length of the streak of `b` that a sequence ends in. -/
def trailing (b : Bool) (outcomes : List Bool) : Nat :=
  (outcomes.reverse.takeWhile (· = b)).length

@[simp] theorem trailing_nil (b : Bool) : trailing b [] = 0 := rfl

@[simp] theorem trailing_append (b x : Bool) (outcomes : List Bool) :
    trailing b (outcomes ++ [x]) = if x = b then trailing b outcomes + 1 else 0 := by
  unfold trailing
  rw [List.reverse_append, List.reverse_singleton, List.singleton_append, List.takeWhile_cons]
  split_ifs <;> simp_all

/--
The moments at which the sequence so far ended in `lose` failures or more,
none of them followed by a streak of `win` successes.
-/
def strikes (lose win : Nat) (outcomes : List Bool) : Nat :=
  (List.range (outcomes.length + 1)).countP fun k =>
    lose ≤ trailing false (outcomes.take k) ∧
      ∀ j ≤ outcomes.length, k < j → trailing true (outcomes.take j) < win

section Strikes

variable {lose win : Nat} (outcomes : List Bool)

theorem take_append_singleton {k : Nat} (hk : k ≤ outcomes.length) (x : Bool) :
    (outcomes ++ [x]).take k = outcomes.take k :=
  List.take_append_of_le_length hk

theorem take_whole (x : Bool) :
    (outcomes ++ [x]).take (outcomes.length + 1) = outcomes ++ [x] :=
  List.take_of_length_le (by simp)

theorem later_append {k : Nat} (hk : k ≤ outcomes.length) (x : Bool) :
    (∀ j ≤ outcomes.length + 1, k < j → trailing true ((outcomes ++ [x]).take j) < win) ↔
      (∀ j ≤ outcomes.length, k < j → trailing true (outcomes.take j) < win) ∧
        trailing true (outcomes ++ [x]) < win := by
  constructor
  · intro h
    refine ⟨fun j hj hkj => ?_, ?_⟩
    · rw [← take_append_singleton outcomes hj x]
      exact h j (by omega) hkj
    · rw [← take_whole]
      exact h _ le_rfl (by omega)
  · rintro ⟨hbefore, hlast⟩ j hj hkj
    rcases Nat.lt_or_ge outcomes.length j with hj' | hj'
    · obtain rfl : j = outcomes.length + 1 := by omega
      rwa [take_whole]
    · rw [take_append_singleton outcomes hj' x]
      exact hbefore j hj' hkj

theorem strikes_append (x : Bool) :
    strikes lose win (outcomes ++ [x]) =
      (if trailing true (outcomes ++ [x]) < win then strikes lose win outcomes else 0) +
        if lose ≤ trailing false (outcomes ++ [x]) then 1 else 0 := by
  have hlength : (outcomes ++ [x]).length = outcomes.length + 1 := by simp
  have hrange : ∀ k ∈ List.range (outcomes.length + 1), k ≤ outcomes.length := by
    intro k hk
    exact Nat.le_of_lt_succ (List.mem_range.mp hk)
  unfold strikes
  rw [hlength, List.range_succ, List.countP_append]
  congr 1
  · split_ifs with hwin
    · apply List.countP_congr
      intro k hk
      simp only [decide_eq_true_eq, later_append outcomes (hrange k hk),
        take_append_singleton outcomes (hrange k hk) x, hwin, and_true]
    · rw [List.countP_eq_zero]
      intro k hk
      simp only [decide_eq_true_eq, later_append outcomes (hrange k hk), hwin, and_false,
        not_false_eq_true]
  · -- Nothing comes after the last moment.
    have hnone : ∀ j ≤ outcomes.length + 1, outcomes.length + 1 < j →
        trailing true ((outcomes ++ [x]).take j) < win := fun j hj hlt => by omega
    rw [List.countP_singleton, take_whole]
    simp only [decide_eq_true_eq, and_iff_left hnone]

theorem strikes_append_false (hwin : 1 ≤ win) :
    strikes lose win (outcomes ++ [false]) =
      strikes lose win outcomes + if lose ≤ trailing false outcomes + 1 then 1 else 0 := by
  have hlast : trailing true (outcomes ++ [false]) < win := by
    rw [trailing_append, if_neg (by decide)]
    omega
  rw [strikes_append, if_pos hlast, trailing_append, if_pos rfl]

theorem strikes_append_true (hlose : 1 ≤ lose) :
    strikes lose win (outcomes ++ [true]) =
      if win ≤ trailing true outcomes + 1 then 0 else strikes lose win outcomes := by
  have hlast : ¬ lose ≤ trailing false (outcomes ++ [true]) := by
    rw [trailing_append, if_neg (by decide)]
    omega
  rw [strikes_append, if_neg hlast, Nat.add_zero, trailing_append, if_pos rfl]
  split_ifs <;> omega

@[simp] theorem strikes_nil (hlose : 1 ≤ lose) : strikes lose win [] = 0 := by
  unfold strikes
  simp
  omega

theorem strikes_eq_zero (hlose : 1 ≤ lose) (hwin : 1 ≤ win)
    (h : win ≤ trailing true outcomes) : strikes lose win outcomes = 0 := by
  induction outcomes using List.reverseRecOn with
  | nil => exact strikes_nil hlose
  | append_singleton outcomes x _ =>
      cases x with
      | false =>
          rw [trailing_append, if_neg (by decide)] at h
          omega
      | true =>
          rw [trailing_append, if_pos rfl] at h
          rw [strikes_append_true outcomes hlose, if_pos h]

end Strikes

end Conduit.Foundation
