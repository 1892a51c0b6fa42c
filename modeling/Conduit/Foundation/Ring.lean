import Mathlib.Data.Nat.Periodic
import Mathlib.Tactic.Ring

/-!
# Scans around a ring

A scan visits `n` positions in a given order and stops at the first one that
is free.  The order goes around the ring from where a counter stands.  A
counter of finite width wraps, and the ring need not divide its range: the
second part says when the scan still does what it would do without the wrap.
The third part counts how often each position is hit by scans that start one
after the other.
-/

namespace Conduit.Foundation

/-! ## First hits -/

/-- `i` is the first of the `n` positions, in the given order, that `p` holds of. -/
def FirstHit (n : Nat) (p : Nat → Prop) (order : Nat → Nat) (i : Nat) : Prop :=
  ∃ o < n, order o = i ∧ p i ∧ ∀ o' < o, ¬ p (order o')

section FirstHit

variable {n : Nat} {p : Nat → Prop} {order : Nat → Nat} {i j : Nat}

theorem FirstHit.unique (hi : FirstHit n p order i) (hj : FirstHit n p order j) : i = j := by
  obtain ⟨o, -, rfl, hp, hbefore⟩ := hi
  obtain ⟨o', -, rfl, hp', hbefore'⟩ := hj
  rcases Nat.lt_trichotomy o o' with hlt | rfl | hlt
  · exact absurd hp (hbefore' o hlt)
  · rfl
  · exact absurd hp' (hbefore o' hlt)

theorem FirstHit.congr {order' : Nat → Nat} (h : ∀ o < n, order o = order' o)
    (hi : FirstHit n p order i) : FirstHit n p order' i := by
  obtain ⟨o, ho, rfl, hp, hbefore⟩ := hi
  exact ⟨o, ho, (h o ho).symm, hp, fun o' ho' => h o' (ho'.trans ho) ▸ hbefore o' ho'⟩

theorem exists_firstHit (h : ∃ o < n, p (order o)) : ∃ i, FirstHit n p order i := by
  classical
  obtain ⟨o, ho, hp⟩ := h
  have hex : ∃ o, p (order o) := ⟨o, hp⟩
  refine ⟨order (Nat.find hex), Nat.find hex, ?_, rfl, Nat.find_spec hex, ?_⟩
  · exact Nat.lt_of_le_of_lt (Nat.find_min' hex hp) ho
  · exact fun o' ho' => Nat.find_min hex ho'

theorem findSome?_range_eq_some {α : Type*} {f : Nat → Option α} {a : α} :
    (List.range n).findSome? f = some a ↔
      ∃ o < n, f o = some a ∧ ∀ o' < o, f o' = none := by
  induction n with
  | zero => simp
  | succ n ih =>
      rw [List.range_succ, List.findSome?_append, Option.or_eq_some_iff, ih,
        List.findSome?_eq_none_iff]
      constructor
      · rintro (⟨o, ho, hfound⟩ | ⟨hnone, hlast⟩)
        · exact ⟨o, by omega, hfound⟩
        · refine ⟨n, by omega, by simpa using hlast, ?_⟩
          exact fun o' ho' => hnone o' (List.mem_range.mpr ho')
      · rintro ⟨o, ho, hfound, hbefore⟩
        rcases Nat.lt_succ_iff_lt_or_eq.mp ho with hlt | rfl
        · exact .inl ⟨o, hlt, hfound, hbefore⟩
        · refine .inr ⟨fun o' ho' => hbefore o' (List.mem_range.mp ho'), ?_⟩
          simpa using hfound

end FirstHit

def At {n : Nat} (q : Fin n → Bool) (j : Nat) : Prop := ∃ h : j < n, q ⟨j, h⟩ = true

instance {n : Nat} (q : Fin n → Bool) : DecidablePred (At q) := fun j =>
  inferInstanceAs (Decidable (∃ h : j < n, q ⟨j, h⟩ = true))

@[simp] theorem at_val {n : Nat} (q : Fin n → Bool) (i : Fin n) : At q i.val ↔ q i = true :=
  ⟨fun ⟨_, h⟩ => h, fun h => ⟨i.isLt, h⟩⟩

theorem forall_at_iff {n : Nat} {q : Fin n → Bool} {r : Nat → Prop} :
    (∀ i < n, At q i → r i) ↔ ∀ i : Fin n, q i = true → r i := by
  constructor
  · exact fun h i hi => h i i.isLt ((at_val q i).mpr hi)
  · exact fun h i hi hat => h ⟨i, hi⟩ ((at_val q ⟨i, hi⟩).mp hat)

theorem exists_at_iff {n : Nat} {q : Fin n → Bool} {r : Nat → Prop} :
    (∃ i < n, At q i ∧ r i) ↔ ∃ i : Fin n, q i = true ∧ r i := by
  constructor
  · rintro ⟨i, hi, hat, h⟩
    exact ⟨⟨i, hi⟩, (at_val q ⟨i, hi⟩).mp hat, h⟩
  · rintro ⟨i, hi, h⟩
    exact ⟨i, i.isLt, (at_val q i).mpr hi, h⟩

/-! ## Orders around the ring -/

def ringOrder (n start o : Nat) : Nat := (start + o) % n

def wrappedOrder (m n start o : Nat) : Nat := (start + o) % m % n

section Orders

variable {m n start o i : Nat}

theorem ringOrder_eq (ho : o < n) :
    ringOrder n start o =
      if start % n + o < n then start % n + o else start % n + o - n := by
  have hmod : start % n < n := Nat.mod_lt _ (by omega)
  rw [ringOrder, ← Nat.mod_add_mod]
  split_ifs with h
  · exact Nat.mod_eq_of_lt h
  · rw [Nat.mod_eq_sub_mod (by omega)]
    exact Nat.mod_eq_of_lt (by omega)

def ringDistance (n start i : Nat) : Nat :=
  if start % n ≤ i then i - start % n else i + n - start % n

theorem ringDistance_lt (start : Nat) (hi : i < n) : ringDistance n start i < n := by
  have hmod : start % n < n := Nat.mod_lt _ (by omega)
  unfold ringDistance
  split <;> omega

theorem ringOrder_eq_iff (ho : o < n) (hi : i < n) :
    ringOrder n start o = i ↔ o = ringDistance n start i := by
  have hmod : start % n < n := Nat.mod_lt _ (by omega)
  rw [ringOrder_eq ho]
  unfold ringDistance
  split_ifs <;> omega

theorem ringOrder_ringDistance (start : Nat) (hi : i < n) :
    ringOrder n start (ringDistance n start i) = i :=
  (ringOrder_eq_iff (ringDistance_lt start hi) hi).mpr rfl

theorem wrappedOrder_eq_ringOrder (h : start + o < m) :
    wrappedOrder m n start o = ringOrder n start o := by
  rw [wrappedOrder, ringOrder, Nat.mod_eq_of_lt h]

theorem wrappedOrder_eq_sub (hstart : start < m) (hn : n ≤ m) (ho : o < n)
    (h : m ≤ start + o) : wrappedOrder m n start o = start + o - m := by
  rw [wrappedOrder, Nat.mod_eq_sub_mod h, Nat.mod_eq_of_lt (show start + o - m < m by omega),
    Nat.mod_eq_of_lt (by omega)]

theorem ringOrder_of_wrap (hstart : start < m) (ho : o < n) (h : m ≤ start + o) :
    ringOrder n start o =
      if m % n + (start + o - m) < n then m % n + (start + o - m)
      else m % n + (start + o - m) - n := by
  rw [← ringOrder_eq (show start + o - m < n by omega), ringOrder, ringOrder,
    show m + (start + o - m) = start + o by omega]

/-- A counter that wraps still comes to every position within two rounds. -/
theorem exists_turn (start : Nat) (hn : 2 * n ≤ m) (hi : i < n) :
    ∃ k < 2 * n, wrappedOrder m n start k = i := by
  have hstart : start % m < m := Nat.mod_lt _ (by omega)
  by_cases hround : start % m + n ≤ m
  · have hdistance := ringDistance_lt (start % m) hi
    refine ⟨ringDistance n (start % m) i, by omega, ?_⟩
    rw [wrappedOrder, ← Nat.mod_add_mod, ← wrappedOrder, wrappedOrder_eq_ringOrder (by omega)]
    exact ringOrder_ringDistance _ hi
  · -- The wrap is less than a round ahead, and the round after it is whole.
    refine ⟨m - start % m + i, by omega, ?_⟩
    rw [wrappedOrder, ← Nat.mod_add_mod, show start % m + (m - start % m + i) = m + i by omega,
      Nat.add_mod_left, Nat.mod_eq_of_lt (show i < m by omega), Nat.mod_eq_of_lt hi]

end Orders

/-! ## A counter that wraps -/

section Wrap

variable {m n start : Nat} {p : Nat → Prop}

theorem firstHit_before_wrap (h : ∃ o < n, start + o < m ∧ p (ringOrder n start o)) :
    ∃ i, FirstHit n p (wrappedOrder m n start) i ∧ FirstHit n p (ringOrder n start) i := by
  obtain ⟨o, ho, hm, hp⟩ := h
  obtain ⟨i, o', ho', rfl, hi, hbefore⟩ := exists_firstHit ⟨o, ho, hp⟩
  have hle : o' ≤ o := by
    by_contra hlt
    exact hbefore o (by omega) hp
  have hsame : ∀ x ≤ o', wrappedOrder m n start x = ringOrder n start x := fun x hx =>
    wrappedOrder_eq_ringOrder (by omega)
  refine ⟨_, ⟨o', ho', hsame o' le_rfl, hi, ?_⟩, ⟨o', ho', rfl, hi, hbefore⟩⟩
  intro x hx
  rw [hsame x (by omega)]
  exact hbefore x hx

section Late

variable (hstart : start < m) (hn : n ≤ m)
  (hlate : ∀ o < n, start + o < m → ¬ p (ringOrder n start o))
include hlate

theorem exists_offset_past_wrap {i : Nat} (hi : i < n) (hp : p i) :
    ∃ o < n, m ≤ start + o ∧ ringOrder n start o = i := by
  have horder := ringOrder_ringDistance start hi
  refine ⟨ringDistance n start i, ringDistance_lt start hi, ?_, horder⟩
  by_contra hlt
  apply hlate _ (ringDistance_lt start hi) (by omega)
  rwa [horder]

include hstart hn

theorem firstHit_wrapped_of_least {i : Nat} (hp : p i) (hleast : ∀ j < i, ¬ p j)
    (hi : m + i < start + n) : FirstHit n p (wrappedOrder m n start) i := by
  refine ⟨m + i - start, by omega, ?_, hp, ?_⟩
  · rw [wrappedOrder_eq_sub hstart hn (by omega) (by omega)]
    omega
  · intro o ho
    rcases Nat.lt_or_ge (start + o) m with hbefore | hpast
    · rw [wrappedOrder_eq_ringOrder hbefore]
      exact hlate o (by omega) hbefore
    · rw [wrappedOrder_eq_sub hstart hn (by omega) hpast]
      exact hleast _ (by omega)

theorem firstHit_past_wrap {i : Nat} (hi : i < n) (hp : p i) (hleast : ∀ j < i, ¬ p j)
    (h : (∀ j < n, p j → j < m % n) ∨ m % n ≤ i ∧ m + i < start + n) :
    FirstHit n p (wrappedOrder m n start) i ∧ FirstHit n p (ringOrder n start) i := by
  obtain ⟨o, ho, hpast, horder⟩ := exists_offset_past_wrap hlate hi hp
  have hmod : m % n < n := Nat.mod_lt _ (by omega)
  have hvalue := horder
  rw [ringOrder_of_wrap hstart ho hpast] at hvalue
  refine ⟨firstHit_wrapped_of_least hstart hn hlate hp hleast ?_, o, ho, horder, hp, ?_⟩
  · rcases h with hall | ⟨-, hreached⟩
    · have hlt := hall i hi hp
      split_ifs at hvalue <;> omega
    · exact hreached
  · intro x hx
    rcases Nat.lt_or_ge (start + x) m with hbefore | hxpast
    · exact hlate x (by omega) hbefore
    · rw [ringOrder_of_wrap hstart (by omega) hxpast]
      rcases h with hall | ⟨hge, -⟩
      · have hlt := hall i hi hp
        split_ifs with hx'
        · intro hfree
          have := hall _ hx' hfree
          omega
        · apply hleast _
          split_ifs at hvalue <;> omega
      · apply hleast _
        split_ifs at hvalue ⊢ <;> omega

theorem sides_of_firstHit {i : Nat} (hwrapped : FirstHit n p (wrappedOrder m n start) i)
    (hring : FirstHit n p (ringOrder n start) i) :
    (∀ j < n, p j → j < m % n) ∨
      (∀ j < n, p j → m % n ≤ j) ∧ ∃ j < n, p j ∧ m + j < start + n := by
  obtain ⟨o, ho, rfl, hp, hbefore⟩ := hwrapped
  have hpast : m ≤ start + o := by
    by_contra hlt
    rw [wrappedOrder_eq_ringOrder (by omega)] at hp
    exact hlate o ho (by omega) hp
  rw [wrappedOrder_eq_sub hstart hn ho hpast] at hp hring
  have hleast : ∀ j < start + o - m, ¬ p j := by
    intro j hj hfree
    have horder : wrappedOrder m n start (m + j - start) = j := by
      rw [wrappedOrder_eq_sub hstart hn (by omega) (by omega)]
      omega
    exact hbefore (m + j - start) (by omega) (horder.symm ▸ hfree)
  rcases Nat.lt_or_ge (start + o - m) (m % n) with hlt | hge
  · refine .inl fun j hj hfree => ?_
    by_contra hnot
    obtain ⟨o', ho', horder, -, hbefore'⟩ := hring
    have hpast' : m ≤ start + o' := by
      by_contra hlt'
      exact hlate o' ho' (by omega) (horder ▸ hp)
    have hmod : m % n < n := Nat.mod_lt _ (by omega)
    rw [ringOrder_of_wrap hstart ho' hpast'] at horder
    -- The ring passes `j` before it comes round to the hit.
    have hx : m - start + (j - m % n) < o' := by
      split_ifs at horder <;> omega
    have hxorder : ringOrder n start (m - start + (j - m % n)) = j := by
      rw [ringOrder_of_wrap hstart (by omega) (by omega)]
      split_ifs <;> omega
    exact hbefore' _ hx (hxorder.symm ▸ hfree)
  · refine .inr ⟨fun j hj hfree => ?_, start + o - m, by omega, hp, by omega⟩
    by_contra hnot
    exact hleast j (by omega) hfree

end Late

/--
The wrap does not change what a scan finds exactly when it finds something
before it, or when what is free lies on one side of `m % n`, where the ring
would go on, and, if above it, within what is left of the scan.
-/
theorem firstHit_wrapped_iff (hstart : start < m) (hn : n ≤ m) (hfree : ∃ i < n, p i) :
    (∃ i, FirstHit n p (wrappedOrder m n start) i ∧ FirstHit n p (ringOrder n start) i) ↔
      (∃ o < n, start + o < m ∧ p (ringOrder n start o)) ∨
        (∀ i < n, p i → i < m % n) ∨
        (∀ i < n, p i → m % n ≤ i) ∧ ∃ i < n, p i ∧ m + i < start + n := by
  classical
  by_cases hearly : ∃ o < n, start + o < m ∧ p (ringOrder n start o)
  · exact ⟨fun _ => .inl hearly, fun _ => firstHit_before_wrap hearly⟩
  have hlate : ∀ o < n, start + o < m → ¬ p (ringOrder n start o) := fun o ho hm hp =>
    hearly ⟨o, ho, hm, hp⟩
  obtain ⟨i, hi, hp⟩ := hfree
  have hex : ∃ i, p i := ⟨i, hp⟩
  have hleast : ∀ j < Nat.find hex, ¬ p j := fun j hj => Nat.find_min hex hj
  have hlt : Nat.find hex < n := Nat.lt_of_le_of_lt (Nat.find_min' hex hp) hi
  constructor
  · rintro ⟨i, hwrapped, hring⟩
    exact .inr (sides_of_firstHit hstart hn hlate hwrapped hring)
  · rintro (h | h | ⟨habove, j, hj, hfree, hreached⟩)
    · exact absurd h hearly
    · exact ⟨_, firstHit_past_wrap hstart hn hlate hlt (Nat.find_spec hex) hleast (.inl h)⟩
    · have hle := Nat.find_min' hex hfree
      exact ⟨_, firstHit_past_wrap hstart hn hlate hlt (Nat.find_spec hex) hleast
        (.inr ⟨habove _ hlt (Nat.find_spec hex), by omega⟩)⟩

end Wrap

/-! ## How often a position is hit -/

section Shares

variable {n start i : Nat} {p : Nat → Prop}

def ringBefore (n i d : Nat) : Nat := if d < i then i - 1 - d else i + n - 1 - d

/-- How many positions right before `i` are not free, one after the other. -/
def ringGap (n : Nat) (p : Nat → Prop) [DecidablePred p] (i : Nat) : Nat :=
  (List.range n).findIdx fun d => p (ringBefore n i d)

theorem le_ringGap_iff [DecidablePred p] {c : Nat} (hc : c < n) :
    c ≤ ringGap n p i ↔ ∀ d < c, ¬ p (ringBefore n i d) := by
  constructor
  · intro hle d hd
    simpa using List.not_of_lt_findIdx (Nat.lt_of_lt_of_le hd hle)
  · intro hnone
    apply List.le_findIdx_of_not (by simpa using hc)
    intro d hd
    simpa using hnone d hd

theorem ringOrder_eq_ringBefore {o : Nat} (hi : i < n) (ho : o < ringDistance n start i) :
    ringOrder n start o = ringBefore n i (ringDistance n start i - 1 - o) := by
  have hmod : start % n < n := Nat.mod_lt _ (by omega)
  rw [ringOrder_eq (ho.trans (ringDistance_lt start hi))]
  unfold ringBefore
  unfold ringDistance at ho ⊢
  split_ifs at ho ⊢ <;> omega

/-- A scan hits `i` when it starts on `i` or in the gap before it. -/
theorem firstHit_ring_iff [DecidablePred p] (hi : i < n) (hp : p i) :
    FirstHit n p (ringOrder n start) i ↔ ringDistance n start i ≤ ringGap n p i := by
  have hlt := ringDistance_lt start hi
  rw [le_ringGap_iff hlt]
  constructor
  · rintro ⟨o, ho, horder, -, hbefore⟩ d hd
    rw [(ringOrder_eq_iff ho hi).mp horder] at hbefore
    have hfree := hbefore (ringDistance n start i - 1 - d) (by omega)
    rw [ringOrder_eq_ringBefore hi (by omega),
      show ringDistance n start i - 1 - (ringDistance n start i - 1 - d) = d by omega] at hfree
    exact hfree
  · intro hgap
    refine ⟨_, hlt, ringOrder_ringDistance start hi, hp, fun o ho => ?_⟩
    rw [ringOrder_eq_ringBefore hi ho]
    exact hgap (ringDistance n start i - 1 - o) (by omega)

theorem ringGap_lt [DecidablePred p] (hi : i < n) (hp : p i) : ringGap n p i < n := by
  have hself : ringBefore n i (n - 1) = i := by
    unfold ringBefore
    split_ifs <;> omega
  have hfound : ∃ d ∈ List.range n, decide (p (ringBefore n i d)) = true :=
    ⟨n - 1, List.mem_range.mpr (by omega), by simpa [hself] using hp⟩
  simpa [ringGap] using List.findIdx_lt_length_of_exists hfound

theorem ringGap_eq_zero [DecidablePred p] (hi : i < n) (hall : ∀ j < n, p j) :
    ringGap n p i = 0 := by
  by_contra hne
  have hlt := ringGap_lt hi (hall i hi)
  have hprev : ringBefore n i 0 < n := by
    unfold ringBefore
    split_ifs <;> omega
  exact (le_ringGap_iff (c := 1) (by omega)).mp (by omega) 0 (by omega) (hall _ hprev)

theorem countP_range'_of_periodic (q : Nat → Prop) [DecidablePred q]
    (hq : Function.Periodic q n) (a b : Nat) :
    (List.range' a n).countP q = (List.range' b n).countP q := by
  have hcount : ∀ a, (List.range' a n).countP q = n.count q := by
    intro a
    rw [← Nat.filter_Ico_card_eq_of_periodic a n q hq, List.countP_eq_length_filter]
    simp [Finset.card, Finset.filter, Nat.Ico_eq_range']
  rw [hcount, hcount]

theorem countP_le_range (c : Nat) : (List.range n).countP (fun t => c ≤ t) = n - c := by
  induction n with
  | zero => simp
  | succ n ih =>
      rw [List.range_succ, List.countP_append, ih, List.countP_singleton]
      split_ifs with h
      · have := of_decide_eq_true h
        omega
      · have := of_decide_eq_false (Bool.eq_false_iff.mpr h)
        omega

theorem countP_ringDistance {g : Nat} (hi : i < n) (hg : g < n) (a k : Nat) :
    (List.range' a (k * n)).countP (fun start => ringDistance n start i ≤ g) =
      k * (1 + g) := by
  have hround : ∀ a, (List.range' a n).countP (fun start => ringDistance n start i ≤ g) =
      1 + g := by
    intro a
    have hperiodic : Function.Periodic (fun start => ringDistance n start i ≤ g) n := by
      intro start
      simp [ringDistance]
    -- From right behind `i` on, the distances go down from `n - 1` to zero.
    have hdistance : ∀ t < n, ringDistance n (i + 1 + t) i = n - 1 - t := by
      intro t ht
      refine ((ringOrder_eq_iff (by omega) hi).mp ?_).symm
      rw [ringOrder, show i + 1 + t + (n - 1 - t) = i + n by omega, Nat.add_mod_right,
        Nat.mod_eq_of_lt hi]
    rw [countP_range'_of_periodic _ hperiodic a (i + 1), List.range'_eq_map_range,
      List.countP_map]
    calc (List.range n).countP _
        = (List.range n).countP fun t => decide (n - 1 - g ≤ t) := by
          apply List.countP_congr
          intro t ht
          simp only [Function.comp_apply, decide_eq_true_eq, hdistance t (List.mem_range.mp ht)]
          have := List.mem_range.mp ht
          omega
      _ = 1 + g := by
          rw [countP_le_range]
          omega
  induction k generalizing a with
  | zero => simp
  | succ k ih =>
      rw [Nat.succ_mul, ← List.range'_append_1, List.countP_append, ih, hround]
      ring

end Shares

end Conduit.Foundation
