import Conduit.Foundation.Transition

/-!
# A gate that closes on failures

A gate admits calls to a server on which every call fails.  After `threshold`
failures it stays closed until `cooldown` has passed since the last one; then
it admits calls again until the next failure.  At most `limit` calls are out
at a time.  The result bounds how many it has admitted by any instant.
-/

namespace Conduit.Foundation

structure Gate where
  now : Nat
  failures : Nat := 0
  last : Nat := 0
  outstanding : Nat := 0
  admitted : Nat := 0

namespace Gate

inductive Event where
  | wait (elapsed : Nat)
  | enter
  | fail

variable (threshold cooldown limit : Nat)

def step (g : Gate) : Event → Option Gate
  | .wait elapsed => some { g with now := g.now + elapsed }
  | .enter =>
      if (g.failures < threshold ∨ g.last + cooldown ≤ g.now) ∧ g.outstanding < limit then
        some { g with outstanding := g.outstanding + 1, admitted := g.admitted + 1 }
      else none
  | .fail =>
      if 0 < g.outstanding then
        some { g with
          failures := g.failures + 1
          last := g.now
          outstanding := g.outstanding - 1 }
      else none

/--
Past the threshold the calls fall into groups, one for each span between two
failures in which the gate was open.  `groups` of them are over, and their
failures lie a cooldown apart; `current` calls belong to the one that goes on.
-/
structure Grouped (start : Nat) (g : Gate) (groups current : Nat) : Prop where
  admitted_le : g.admitted ≤ threshold - 1 + limit + limit * groups + current
  current_le : current ≤ g.outstanding
  spaced : start + cooldown * groups ≤ g.last
  reopened : current ≠ 0 → g.last + cooldown ≤ g.now

structure Inv (start : Nat) (g : Gate) : Prop where
  admitted_eq : g.admitted = g.failures + g.outstanding
  outstanding_le : g.outstanding ≤ limit
  start_le : start ≤ g.now
  last_le : g.last ≤ g.now
  grouped : threshold ≤ g.failures → ∃ groups current,
    Grouped threshold cooldown limit start g groups current

variable {threshold cooldown limit} {start : Nat} {g g' : Gate}

theorem step_enter (hopen : g.failures < threshold ∨ g.last + cooldown ≤ g.now)
    (hlimit : g.outstanding < limit) :
    g.step threshold cooldown limit .enter =
      some { g with outstanding := g.outstanding + 1, admitted := g.admitted + 1 } :=
  if_pos ⟨hopen, hlimit⟩

theorem step_fail (h : 0 < g.outstanding) :
    g.step threshold cooldown limit .fail =
      some { g with
        failures := g.failures + 1
        last := g.now
        outstanding := g.outstanding - 1 } :=
  if_pos h

theorem Inv.enter (h : Inv threshold cooldown limit start g)
    (hopen : g.failures < threshold ∨ g.last + cooldown ≤ g.now) (hlimit : g.outstanding < limit) :
    Inv threshold cooldown limit start
      { g with outstanding := g.outstanding + 1, admitted := g.admitted + 1 } := by
  have heq := h.admitted_eq
  refine ⟨by dsimp only; omega, hlimit, h.start_le, h.last_le, ?_⟩
  intro htripped
  replace hopen : g.last + cooldown ≤ g.now := hopen.resolve_left (Nat.not_lt.mpr htripped)
  obtain ⟨groups, current, hgrouped⟩ := h.grouped htripped
  have hle := hgrouped.admitted_le
  have hcurrent := hgrouped.current_le
  exact ⟨groups, current + 1, by dsimp only; omega, by dsimp only; omega, hgrouped.spaced,
    fun _ => hopen⟩

theorem Inv.fail (h : Inv threshold cooldown limit start g) (hthreshold : 1 ≤ threshold)
    (hout : 0 < g.outstanding) :
    Inv threshold cooldown limit start
      { g with
        failures := g.failures + 1
        last := g.now
        outstanding := g.outstanding - 1 } := by
  have heq := h.admitted_eq
  have hlimit := h.outstanding_le
  refine ⟨by dsimp only; omega, by dsimp only; omega, h.start_le, Nat.le_refl _, ?_⟩
  intro htripped
  by_cases hbefore : threshold ≤ g.failures
  · obtain ⟨groups, current, hgrouped⟩ := h.grouped hbefore
    have hle := hgrouped.admitted_le
    have hspaced := hgrouped.spaced
    have hlast := h.last_le
    by_cases hcurrent : current = 0
    · refine ⟨groups, 0, ?_, Nat.zero_le _, ?_, fun h => absurd rfl h⟩
      · exact hcurrent ▸ hle
      · exact Nat.le_trans hspaced hlast
    · -- The failure ends the current group, and comes a cooldown after the last one.
      have hreopened := hgrouped.reopened hcurrent
      have hsize : current ≤ limit := Nat.le_trans hgrouped.current_le hlimit
      refine ⟨groups + 1, 0, ?_, Nat.zero_le _, ?_, fun h => absurd rfl h⟩
      · have hmul : limit * (groups + 1) = limit * groups + limit := Nat.mul_succ _ _
        dsimp only
        omega
      · have hmul : cooldown * (groups + 1) = cooldown * groups + cooldown := Nat.mul_succ _ _
        dsimp only
        omega
  · -- This failure trips the gate.
    refine ⟨0, 0, ?_, Nat.zero_le _, ?_, fun h => absurd rfl h⟩
    · dsimp only at htripped ⊢
      omega
    · simpa using h.start_le

theorem Inv.step (h : Inv threshold cooldown limit start g) (hthreshold : 1 ≤ threshold)
    {e : Event} (hstep : g.step threshold cooldown limit e = some g') :
    Inv threshold cooldown limit start g' := by
  cases e with
  | wait elapsed =>
      cases hstep
      refine ⟨h.admitted_eq, h.outstanding_le, Nat.le_trans h.start_le (Nat.le_add_right _ _),
        Nat.le_trans h.last_le (Nat.le_add_right _ _), ?_⟩
      intro htripped
      obtain ⟨groups, current, hgrouped⟩ := h.grouped htripped
      exact ⟨groups, current, hgrouped.admitted_le, hgrouped.current_le, hgrouped.spaced,
        fun hne => Nat.le_trans (hgrouped.reopened hne) (Nat.le_add_right _ _)⟩
  | enter =>
      rw [Gate.step] at hstep
      split at hstep
      · rename_i hopen
        cases hstep
        exact h.enter hopen.1 hopen.2
      · cases hstep
  | fail =>
      rw [Gate.step] at hstep
      split at hstep
      · rename_i hout
        cases hstep
        exact h.fail hthreshold hout
      · cases hstep

theorem Inv.admitted_bound (h : Inv threshold cooldown limit start g) (hthreshold : 1 ≤ threshold)
    (hcooldown : 1 ≤ cooldown) :
    g.admitted ≤ threshold - 1 + limit + limit * ((g.now - start) / cooldown) := by
  by_cases htripped : threshold ≤ g.failures
  · obtain ⟨groups, current, hgrouped⟩ := h.grouped htripped
    have hspaced := hgrouped.spaced
    have hlast := h.last_le
    by_cases hcurrent : current = 0
    · have hgroups : groups ≤ (g.now - start) / cooldown := by
        rw [Nat.le_div_iff_mul_le hcooldown, Nat.mul_comm]
        omega
      have hmul := Nat.mul_le_mul_left limit hgroups
      have hle := hgrouped.admitted_le
      omega
    · have hreopened := hgrouped.reopened hcurrent
      have hgroups : groups + 1 ≤ (g.now - start) / cooldown := by
        rw [Nat.le_div_iff_mul_le hcooldown, Nat.mul_comm, Nat.mul_succ]
        omega
      have hmul := Nat.mul_le_mul_left limit hgroups
      rw [Nat.mul_succ] at hmul
      have hsize := Nat.le_trans hgrouped.current_le h.outstanding_le
      have hle := hgrouped.admitted_le
      omega
  · have heq := h.admitted_eq
    have hlimit := h.outstanding_le
    omega

theorem Inv.initial (hthreshold : 1 ≤ threshold) :
    Inv threshold cooldown limit start { now := start } :=
  ⟨rfl, Nat.zero_le _, Nat.le_refl _, Nat.zero_le _,
    fun h => absurd (Nat.le_trans hthreshold h) (Nat.not_succ_le_zero 0)⟩

theorem inv_of_reachable (hthreshold : 1 ≤ threshold)
    (h : Reachable (step threshold cooldown limit) (fun _ _ => True) { now := start } g) :
    Inv threshold cooldown limit start g :=
  h.invariant (Inv threshold cooldown limit start) (.initial hthreshold)
    fun _ _ _ hinv _ hstep => hinv.step hthreshold hstep

/-- How many calls a gate has admitted by the instant `g.now`. -/
theorem admitted_le (hthreshold : 1 ≤ threshold) (hcooldown : 1 ≤ cooldown)
    (h : Reachable (step threshold cooldown limit) (fun _ _ => True) { now := start } g) :
    g.admitted ≤ threshold - 1 + limit + limit * ((g.now - start) / cooldown) :=
  (inv_of_reachable hthreshold h).admitted_bound hthreshold hcooldown

end Gate

end Conduit.Foundation
