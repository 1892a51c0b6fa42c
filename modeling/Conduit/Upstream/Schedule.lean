import Conduit.Upstream.Prober

/-!
# When the probes start

The clock of `run_one`: which probes it starts, when it returns, and that it
returns at all only if every probe does that it has started.
-/

namespace Conduit.Prober

section Pause

variable {cancel : Nat → Bool} {rise : Nat}

theorem le_pause (cancel : Nat → Bool) (now remaining : Nat) :
    now ≤ pause cancel now remaining := by
  induction remaining using Nat.strongRecOn generalizing now with
  | _ remaining ih =>
      have hstep : 0 < sleepStep.nanos := by decide
      rw [pause]
      split
      · exact Nat.le_trans (Nat.le_add_right _ _) (ih _ (by omega) _)
      · exact Nat.le_refl _

theorem pause_cases (cancel : Nat → Bool) (now remaining : Nat) :
    pause cancel now remaining = now + remaining ∨
      pause cancel now remaining ≤ now + remaining ∧
        cancel (pause cancel now remaining) = true := by
  induction remaining using Nat.strongRecOn generalizing now with
  | _ remaining ih =>
      have hstep : 0 < sleepStep.nanos := by decide
      rw [pause]
      split
      · rename_i hgo
        have hrest := ih (remaining - min sleepStep.nanos remaining) (by omega)
          (now + min sleepStep.nanos remaining)
        rw [show now + min sleepStep.nanos remaining +
          (remaining - min sleepStep.nanos remaining) = now + remaining by omega] at hrest
        exact hrest
      · rename_i hstop
        cases hcancel : cancel now with
        | true => exact .inr ⟨Nat.le_add_right _ _, rfl⟩
        | false =>
            have hzero : ¬ 0 < remaining := fun hpos => hstop ⟨hcancel, hpos⟩
            exact .inl (by omega)

theorem pause_le_rise (hrise : ∀ u, cancel u = true ↔ rise ≤ u) (now remaining : Nat) :
    pause cancel now remaining ≤ max now (rise + sleepStep.nanos) := by
  induction remaining using Nat.strongRecOn generalizing now with
  | _ remaining ih =>
      have hstep : 0 < sleepStep.nanos := by decide
      rw [pause]
      split
      · rename_i hgo
        have hbefore : now < rise := by
          by_contra hle
          rw [(hrise now).mpr (Nat.le_of_not_lt hle)] at hgo
          cases hgo.1
        have hrest := ih (remaining - min sleepStep.nanos remaining) (by omega)
          (now + min sleepStep.nanos remaining)
        dsimp only
        omega
      · exact Nat.le_max_left _ _

end Pause

/-! ## One loop -/

/-- The starts of the probes and the return of the loop; `none` while it has not returned. -/
def leaves (cfg : ProbeConfig) (cancel : Nat → Bool) (probes : Nat → Option (Nat × Bool)) :
    Nat → Nat → Nat → Option (List Nat × Nat)
  | 0, _, _ => none
  | fuel + 1, k, now =>
      if cancel now then some ([], now)
      else
        match probes k with
        | none => none
        | some (took, _) =>
            (leaves cfg cancel probes fuel (k + 1)
              (pause cancel (now + took) cfg.interval.nanos)).map fun r => (now :: r.1, r.2)

/-- When probe `k + n` starts, if probe `k` starts at `now` and nothing is cancelled. -/
def startAt (cfg : ProbeConfig) (probes : Nat → Option (Nat × Bool)) : Nat → Nat → Nat → Option Nat
  | _, now, 0 => some now
  | k, now, n + 1 =>
      (probes k).bind fun p => startAt cfg probes (k + 1) (now + p.1 + cfg.interval.nanos) n

def outcomes (probes : Nat → Option (Nat × Bool)) : Nat → List Nat → List (Bool × Nat)
  | _, [] => []
  | k, start :: starts =>
      ((probes k).map fun p => (p.2, start + p.1)).toList ++ outcomes probes (k + 1) starts

section Loop

variable {cfg : ProbeConfig} {cancel : Nat → Bool} {probes : Nat → Option (Nat × Bool)}
  {fuel k now exit rise : Nat} {starts : List Nat}

theorem leaves_cases (h : leaves cfg cancel probes fuel k now = some (starts, exit)) :
    ∃ more, fuel = more + 1 ∧
      (cancel now = true ∧ starts = [] ∧ exit = now ∨
      cancel now = false ∧ ∃ took healthy rest, probes k = some (took, healthy) ∧
        leaves cfg cancel probes more (k + 1)
          (pause cancel (now + took) cfg.interval.nanos) = some (rest, exit) ∧
        starts = now :: rest) := by
  cases fuel with
  | zero => cases h
  | succ more =>
      refine ⟨more, rfl, ?_⟩
      rw [leaves] at h
      cases hcancel : cancel now with
      | true =>
          rw [if_pos hcancel] at h
          cases h
          exact .inl ⟨rfl, rfl, rfl⟩
      | false =>
          rw [if_neg (by simp [hcancel])] at h
          cases hprobe : probes k with
          | none => simp [hprobe] at h
          | some probe =>
              rw [hprobe] at h
              obtain ⟨⟨rest, exit'⟩, hrest, heq⟩ := Option.map_eq_some_iff.mp h
              cases heq
              exact .inr ⟨rfl, probe.1, probe.2, rest, rfl, hrest, rfl⟩

theorem le_startAt {n t : Nat} (h : startAt cfg probes k now n = some t) : now ≤ t := by
  induction n generalizing k now with
  | zero =>
      cases h
      exact Nat.le_refl _
  | succ n ih =>
      obtain ⟨p, -, hrest⟩ := Option.bind_eq_some_iff.mp h
      exact Nat.le_trans (by omega) (ih hrest)

section Rise

variable (hrise : ∀ u, cancel u = true ↔ rise ≤ u)
include hrise

theorem lt_rise_of_not_cancelled (h : cancel now = false) : now < rise := by
  by_contra hle
  rw [(hrise now).mpr (Nat.le_of_not_lt hle)] at h
  cases h

theorem startAt_pause_iff (k now took n t : Nat) :
    startAt cfg probes (k + 1) (pause cancel (now + took) cfg.interval.nanos) n = some t ∧
        t < rise ↔
      startAt cfg probes (k + 1) (now + took + cfg.interval.nanos) n = some t ∧ t < rise := by
  rcases pause_cases cancel (now + took) cfg.interval.nanos with hwhole | ⟨hle, hcut⟩
  · rw [hwhole]
  · have hlate := (hrise _).mp hcut
    constructor
    · rintro ⟨hstart, hbefore⟩
      have hge := le_startAt hstart
      omega
    · rintro ⟨hstart, hbefore⟩
      have hge := le_startAt hstart
      omega

theorem getElem?_starts_iff (h : leaves cfg cancel probes fuel k now = some (starts, exit))
    (n t : Nat) :
    starts[n]? = some t ↔ startAt cfg probes k now n = some t ∧ t < rise := by
  induction fuel generalizing k now starts n with
  | zero => cases h
  | succ fuel ih =>
      obtain ⟨more, hfuel,
        ⟨hcancel, rfl, -⟩ | ⟨hcancel, took, healthy, rest, hprobe, hrest, rfl⟩⟩ := leaves_cases h
      · have hlate := (hrise now).mp hcancel
        constructor
        · intro hnone
          cases hnone
        · rintro ⟨hstart, hbefore⟩
          have hge := le_startAt hstart
          omega
      · cases hfuel
        cases n with
        | zero =>
            have hbefore := lt_rise_of_not_cancelled hrise hcancel
            simp only [List.getElem?_cons_zero, startAt, Option.some.injEq]
            exact ⟨fun heq => ⟨heq, heq ▸ hbefore⟩, fun h => h.1⟩
        | succ n =>
            rw [List.getElem?_cons_succ, ih hrest n, startAt_pause_iff hrise]
            simp only [startAt, hprobe, Option.bind_some]

theorem rise_le_exit (h : leaves cfg cancel probes fuel k now = some (starts, exit)) :
    rise ≤ exit := by
  induction fuel generalizing k now starts with
  | zero => cases h
  | succ fuel ih =>
      obtain ⟨more, hfuel, ⟨hcancel, -, rfl⟩ | ⟨-, took, healthy, rest, -, hrest, -⟩⟩ :=
        leaves_cases h
      · exact (hrise _).mp hcancel
      · cases hfuel
        exact ih hrest

theorem exit_le_rise {bound : Nat}
    (hbound : ∀ n took healthy, probes n = some (took, healthy) → took ≤ bound)
    (h : leaves cfg cancel probes fuel k now = some (starts, exit)) :
    exit ≤ max now (rise + max bound sleepStep.nanos) := by
  induction fuel generalizing k now starts with
  | zero => cases h
  | succ fuel ih =>
      obtain ⟨more, hfuel, ⟨-, -, rfl⟩ | ⟨hcancel, took, healthy, rest, hprobe, hrest, -⟩⟩ :=
        leaves_cases h
      · exact Nat.le_max_left _ _
      · cases hfuel
        have hbefore := lt_rise_of_not_cancelled hrise hcancel
        have htook := hbound k took healthy hprobe
        have hpause := pause_le_rise hrise (now + took) cfg.interval.nanos
        have hexit := ih hrest
        omega

theorem finishes_of_leaves (h : leaves cfg cancel probes fuel k now = some (starts, exit))
    {n t : Nat} (hstart : startAt cfg probes k now n = some t) (hbefore : t < rise) :
    probes (k + n) ≠ none := by
  induction fuel generalizing k now starts n with
  | zero => cases h
  | succ fuel ih =>
      obtain ⟨more, hfuel, ⟨hcancel, -, -⟩ | ⟨-, took, healthy, rest, hprobe, hrest, -⟩⟩ :=
        leaves_cases h
      · have hle := le_startAt hstart
        have hlate := (hrise now).mp hcancel
        omega
      · cases hfuel
        cases n with
        | zero => simp [hprobe]
        | succ n =>
            simp only [startAt, hprobe, Option.bind_some] at hstart
            obtain ⟨hpaused, -⟩ :=
              (startAt_pause_iff hrise k now took n t).mpr ⟨hstart, hbefore⟩
            rw [show k + (n + 1) = k + 1 + n by omega]
            exact ih hrest hpaused

theorem exists_leaves (hinterval : 0 < cfg.interval.nanos) {m : Nat} (hm : rise - now ≤ m)
    (hfinish : ∀ n t, startAt cfg probes k now n = some t → t < rise → probes (k + n) ≠ none) :
    ∃ r, leaves cfg cancel probes (m + 1) k now = some r := by
  induction m generalizing k now with
  | zero => exact ⟨_, by rw [leaves, if_pos ((hrise now).mpr (by omega))]⟩
  | succ m ih =>
      rw [leaves]
      cases hcancel : cancel now with
      | true => exact ⟨_, if_pos rfl⟩
      | false =>
          have hbefore := lt_rise_of_not_cancelled hrise hcancel
          cases hprobe : probes k with
          | none => exact absurd hprobe (hfinish 0 now rfl hbefore)
          | some probe =>
              obtain ⟨took, healthy⟩ := probe
              -- The next look is later, or it is the last one.
              have hnext : rise - pause cancel (now + took) cfg.interval.nanos ≤ m := by
                have hle := le_pause cancel (now + took) cfg.interval.nanos
                rcases pause_cases cancel (now + took) cfg.interval.nanos with
                  hwhole | ⟨-, hcut⟩
                · omega
                · have hlate := (hrise _).mp hcut
                  omega
              obtain ⟨r, hr⟩ := ih hnext (fun n t hstart hlt => by
                obtain ⟨hstart', -⟩ :=
                  (startAt_pause_iff hrise k now took n t).mp ⟨hstart, hlt⟩
                rw [show k + 1 + n = k + (n + 1) by omega]
                exact hfinish (n + 1) t (by simpa [startAt, hprobe] using hstart') hlt)
              exact ⟨_, by simp [hr]; rfl⟩

end Rise

theorem runOne_eq_outcomes (h : leaves cfg cancel probes fuel k now = some (starts, exit))
    (s : Prober) : (runOne cfg cancel probes fuel k now s).1 = outcomes probes k starts := by
  induction fuel generalizing k now starts s with
  | zero => cases h
  | succ fuel ih =>
      rw [runOne]
      obtain ⟨more, hfuel,
        ⟨hcancel, rfl, -⟩ | ⟨hcancel, took, healthy, rest, hprobe, hrest, rfl⟩⟩ := leaves_cases h
      · rw [if_pos hcancel]
        rfl
      · cases hfuel
        rw [if_neg (by simp [hcancel]), outcomes, hprobe]
        exact congrArg (_ :: ·) (ih hrest _)

end Loop

/--
Cancelled at `rise`, the loop has started the probes of its schedule up to
then and no other, and returns within one probe or one step of its sleep.  It
returns at all exactly if none of those probes hangs.
-/
theorem probe_loop_keeps_schedule (cfg : ProbeConfig) (hinterval : 0 < cfg.interval.nanos)
    (cancel : Nat → Bool) (rise : Nat) (hrise : ∀ u, cancel u = true ↔ rise ≤ u)
    (probes : Nat → Option (Nat × Bool)) (now : Nat) :
    ((∃ fuel r, leaves cfg cancel probes fuel 0 now = some r) ↔
      ∀ n t, startAt cfg probes 0 now n = some t → t < rise → probes n ≠ none) ∧
    ∀ fuel starts exit, leaves cfg cancel probes fuel 0 now = some (starts, exit) →
      (∀ n t, starts[n]? = some t ↔ startAt cfg probes 0 now n = some t ∧ t < rise) ∧
      (∀ s, (runOne cfg cancel probes fuel 0 now s).1 = outcomes probes 0 starts) ∧
      rise ≤ exit ∧
      ∀ bound, (∀ n took healthy, probes n = some (took, healthy) → took ≤ bound) →
        exit ≤ max now (rise + max bound sleepStep.nanos) := by
  refine ⟨⟨?_, ?_⟩, ?_⟩
  · rintro ⟨fuel, ⟨starts, exit⟩, hleaves⟩ n t hstart hbefore
    simpa using finishes_of_leaves hrise hleaves hstart hbefore
  · intro hfinish
    exact ⟨_, exists_leaves hrise hinterval (Nat.le_refl _) (by simpa using hfinish)⟩
  · intro fuel starts exit hleaves
    exact ⟨getElem?_starts_iff hrise hleaves, runOne_eq_outcomes hleaves,
      rise_le_exit hrise hleaves, fun bound hbound => exit_le_rise hrise hbound hleaves⟩

theorem probe_loop_keeps_schedule_sample :
    ∃ fuel starts exit,
      leaves Sample.probing (fun u => decide (10000000000 ≤ u))
        (fun _ => some (2000000000, false)) fuel 0 0 = some (starts, exit) ∧
      starts[0]? = some 0 ∧ starts[1]? = some 7000000000 ∧ starts[2]? = none ∧
      10000000000 ≤ exit ∧ exit ≤ 12000000000 := by
  have hschedule := probe_loop_keeps_schedule Sample.probing (by decide)
    (fun u => decide (10000000000 ≤ u)) 10000000000 (fun u => decide_eq_true_iff)
    (fun _ => some (2000000000, false)) 0
  obtain ⟨fuel, ⟨starts, exit⟩, hleaves⟩ := hschedule.1.mpr (fun _ _ _ _ => nofun)
  obtain ⟨hstarts, -, hlate, hsoon⟩ := hschedule.2 fuel starts exit hleaves
  have hexit := hsoon 2000000000 (fun n took healthy h => by
    cases h
    exact Nat.le_refl _)
  refine ⟨fuel, starts, exit, hleaves, (hstarts 0 0).mpr ⟨rfl, by decide⟩,
    (hstarts 1 7000000000).mpr ⟨rfl, by decide⟩, ?_, hlate, hexit⟩
  -- The third would start at fourteen seconds.
  apply Option.eq_none_iff_forall_ne_some.mpr
  intro t hthird
  obtain ⟨hstart, hbefore⟩ := (hstarts 2 t).mp hthird
  have hat : t = 14000000000 := (Option.some.inj hstart).symm
  omega

end Conduit.Prober
