import Mathlib.Data.List.Basic
import Mathlib.Logic.Relation

/-!
# Labelled transitions and programs run by one of the parties

A system moves by a partial step function on labelled actions.  `Reachable`
closes the allowed steps; `Reachable.invariant` is its induction rule.  The
second part is about a party that works off a fixed list of instructions:
what stands before the current one has taken effect.
-/

namespace Conduit.Foundation

/-! ## Runs -/

section Runs

variable {σ α : Type*}

/-- Reached from `s₀` by steps that `allowed` admits in the state before them. -/
def Reachable (step : σ → α → Option σ) (allowed : σ → α → Prop) (s₀ : σ) :
    σ → Prop :=
  Relation.ReflTransGen (fun s s' => ∃ a, allowed s a ∧ step s a = some s') s₀

variable {step : σ → α → Option σ} {allowed : σ → α → Prop}
  {s₀ s s' : σ}

theorem Reachable.refl : Reachable step allowed s₀ s₀ := Relation.ReflTransGen.refl

theorem Reachable.tail (h : Reachable step allowed s₀ s) {a : α}
    (ha : allowed s a) (hs : step s a = some s') :
    Reachable step allowed s₀ s' :=
  Relation.ReflTransGen.tail h ⟨a, ha, hs⟩

theorem Reachable.trans (h : Reachable step allowed s₀ s)
    (h' : Reachable step allowed s s') : Reachable step allowed s₀ s' :=
  Relation.ReflTransGen.trans h h'

/-- What holds at the start and is kept by allowed steps holds on the run. -/
theorem Reachable.invariant (Inv : σ → Prop) (h : Reachable step allowed s₀ s)
    (h₀ : Inv s₀)
    (hstep : ∀ s a s', Inv s → allowed s a → step s a = some s' → Inv s') :
    Inv s := by
  induction h with
  | refl => exact h₀
  | tail _ hs ih =>
      obtain ⟨a, ha, heq⟩ := hs
      exact hstep _ a _ ih ha heq

theorem Reachable.mono {allowed' : σ → α → Prop} (h : Reachable step allowed s₀ s)
    (himp : ∀ s a, allowed s a → allowed' s a) : Reachable step allowed' s₀ s :=
  h.invariant (Reachable step allowed' s₀) Reachable.refl fun s a _ hs ha hstep =>
    hs.tail (himp s a ha) hstep

def execute (step : σ → α → Option σ) (allowed : σ → α → Prop)
    [∀ s a, Decidable (allowed s a)] : σ → List α → Option σ
  | s, [] => some s
  | s, a :: actions =>
      if allowed s a then (step s a).bind (execute step allowed · actions)
      else none

theorem Reachable.of_execute [∀ s a, Decidable (allowed s a)]
    {actions : List α} (h : Reachable step allowed s₀ s)
    (hrun : execute step allowed s actions = some s') :
    Reachable step allowed s₀ s' := by
  induction actions generalizing s with
  | nil =>
      cases hrun
      exact h
  | cons a actions ih =>
      simp only [execute] at hrun
      split at hrun
      · rename_i ha
        obtain ⟨next, hnext, hrest⟩ := Option.bind_eq_some_iff.mp hrun
        exact ih (h.tail ha hnext) hrest
      · cases hrun

/--
Actions that a second run does not see can be left out of it: they keep the
relation, and the others are matched.
-/
theorem execute_filter {seen : α → Bool} {R : σ → σ → Prop}
    (hunseen : ∀ s t a s', R s t → seen a = false → step s a = some s' → R s' t)
    (hseen : ∀ s t a s', R s t → seen a = true → step s a = some s' →
      ∃ t', step t a = some t' ∧ R s' t')
    {actions : List α} {t : σ} (hR : R s t)
    (h : execute step (fun _ _ => True) s actions = some s') :
    ∃ t', execute step (fun _ _ => True) t (actions.filter seen) = some t' ∧ R s' t' := by
  induction actions generalizing s t with
  | nil =>
      cases h
      exact ⟨t, rfl, hR⟩
  | cons a actions ih =>
      simp only [execute, if_true] at h
      obtain ⟨next, hnext, hrest⟩ := Option.bind_eq_some_iff.mp h
      cases ha : seen a with
      | false =>
          rw [List.filter_cons_of_neg (by simp [ha])]
          exact ih (hunseen s t a next hR ha hnext) hrest
      | true =>
          obtain ⟨t₁, ht₁, hR₁⟩ := hseen s t a next hR ha hnext
          obtain ⟨t', ht', hR'⟩ := ih hR₁ hrest
          refine ⟨t', ?_, hR'⟩
          rw [List.filter_cons_of_pos ha]
          simp only [execute, if_true, ht₁, Option.bind_some]
          exact ht'

end Runs

/-! ## Programs -/

section Programs

variable {ι : Type*}

/-- Every occurrence of `b` stands behind an occurrence of `a`. -/
def Precedes (program : List ι) (a b : ι) : Prop :=
  ∀ done rest, program = done ++ b :: rest → a ∈ done

theorem precedes_append {first second : List ι} {a b : ι} (ha : a ∈ first)
    (hb : b ∉ first) : Precedes (first ++ second) a b := by
  intro done rest heq
  rcases List.append_eq_append_iff.mp heq with ⟨extra, rfl, -⟩ | ⟨extra, rfl, hcons⟩
  · exact List.mem_append_left _ ha
  · cases extra with
    | nil => simpa using ha
    | cons c extra =>
        obtain ⟨rfl, -⟩ := List.cons.inj hcons
        exact absurd (by simp) hb

theorem precedes_of_not_mem {program : List ι} {a b : ι} (hb : b ∉ program) :
    Precedes program a b := by
  rintro done rest rfl
  simp at hb

/--
What stands before the remaining instructions has taken effect, and what only
the program can bring about stands there.
-/
def Executed (effect cause : ι → Prop) (program remaining : List ι) : Prop :=
  ∃ done, program = done ++ remaining ∧ (∀ i ∈ done, effect i) ∧
    ∀ i, cause i → i ∈ done

variable {effect effect' cause cause' : ι → Prop} {program rest : List ι}
  {a b : ι}

theorem Executed.start (h : ∀ i, ¬ cause i) :
    Executed effect cause program program :=
  ⟨[], rfl, by simp, fun i hi => absurd hi (h i)⟩

theorem Executed.next (h : Executed effect cause program (a :: rest))
    (himp : ∀ i, effect i → effect' i) (ha : effect' a)
    (hcause : ∀ i, cause' i → cause i ∨ i = a) :
    Executed effect' cause' program rest := by
  obtain ⟨done, rfl, hdone, horigin⟩ := h
  refine ⟨done ++ [a], by simp, ?_, ?_⟩
  · intro i hi
    rcases List.mem_append.mp hi with hi | hi
    · exact himp i (hdone i hi)
    · rw [List.mem_singleton.mp hi]
      exact ha
  · intro i hi
    rcases hcause i hi with hi | rfl
    · exact List.mem_append_left _ (horigin i hi)
    · simp

theorem Executed.mono (h : Executed effect cause program rest)
    (himp : ∀ i, effect i → effect' i) (hcause : ∀ i, cause' i → cause i) :
    Executed effect' cause' program rest := by
  obtain ⟨done, hprogram, hdone, horigin⟩ := h
  exact ⟨done, hprogram, fun i hi => himp i (hdone i hi),
    fun i hi => horigin i (hcause i hi)⟩

theorem Executed.of_precedes (h : Executed effect cause program (b :: rest))
    (hpre : Precedes program a b) : effect a := by
  obtain ⟨done, hprogram, hdone, -⟩ := h
  exact hdone a (hpre done rest hprogram)

theorem Executed.mem (h : Executed effect cause program (b :: rest)) :
    b ∈ program := by
  obtain ⟨done, rfl, -, -⟩ := h
  simp

theorem Executed.not_cause {front back : List ι}
    (h : Executed effect cause (front ++ back) (b :: rest)) (hb : b ∉ back)
    (ha : a ∉ front) : ¬ cause a := by
  obtain ⟨done, heq, -, horigin⟩ := h
  intro hcause
  have hmem := horigin a hcause
  rcases List.append_eq_append_iff.mp heq with ⟨extra, rfl, hback⟩ | ⟨extra, rfl, -⟩
  · exact hb (hback ▸ by simp)
  · exact ha (List.mem_append_left _ hmem)

theorem Executed.not_cause_self {front back : List ι}
    (h : Executed effect cause (front ++ b :: back) (b :: rest))
    (hfront : b ∉ front) (hback : b ∉ back) : ¬ cause b := by
  obtain ⟨done, heq, -, horigin⟩ := h
  obtain ⟨rfl, -⟩ := (List.append_cons_inj_of_notMem hfront hback).mp heq
  exact fun hcause => hfront (horigin b hcause)

end Programs

end Conduit.Foundation
