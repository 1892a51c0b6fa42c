import Mathlib.Data.List.Basic

/-!
# Checks against a list of rules

A rule is a condition that a document breaks or not, with what is said of it.
A check made of tests and loops reports the first broken rule of a list; the
lemmas put such checks together.
-/

namespace Conduit.Foundation

structure Rule (ε : Type*) where
  broken : Prop
  error : ε

variable {ε : Type*} {α β : Type}

def Upheld (rules : List (Rule ε)) : Prop := ∀ r ∈ rules, ¬ r.broken

/-- The first rule that is broken says `e`. -/
inductive FirstBroken : List (Rule ε) → ε → Prop where
  | here {r : Rule ε} {rules : List (Rule ε)} (h : r.broken) : FirstBroken (r :: rules) r.error
  | later {r : Rule ε} {rules : List (Rule ε)} {e : ε} (h : ¬ r.broken)
      (rest : FirstBroken rules e) : FirstBroken (r :: rules) e

/-- What a check gives that goes through the rules in order. -/
def Reports (rules : List (Rule ε)) : Except ε α → Prop
  | .ok _ => Upheld rules
  | .error e => FirstBroken rules e

section Rules

variable {rules rules' : List (Rule ε)} {e e' : ε}

theorem FirstBroken.not_upheld (h : FirstBroken rules e) : ¬ Upheld rules := by
  intro hall
  induction h with
  | here hbroken => exact hall _ List.mem_cons_self hbroken
  | later _ _ ih => exact ih fun r hr => hall r (List.mem_cons_of_mem _ hr)

theorem FirstBroken.unique (h : FirstBroken rules e) (h' : FirstBroken rules e') : e = e' := by
  induction h with
  | here hbroken =>
      cases h' with
      | here _ => rfl
      | later hfine _ => exact absurd hbroken hfine
  | later hfine _ ih =>
      cases h' with
      | here hbroken => exact absurd hbroken hfine
      | later _ rest => exact ih rest

theorem FirstBroken.append (h : FirstBroken rules e) : FirstBroken (rules ++ rules') e := by
  induction h with
  | here hbroken => exact .here hbroken
  | later hfine _ ih => exact .later hfine ih

theorem Upheld.firstBroken_append (h : Upheld rules) (h' : FirstBroken rules' e) :
    FirstBroken (rules ++ rules') e := by
  induction rules with
  | nil => exact h'
  | cons r rules ih =>
      exact .later (h r List.mem_cons_self) (ih fun r' hr' => h r' (List.mem_cons_of_mem _ hr'))

theorem upheld_append : Upheld (rules ++ rules') ↔ Upheld rules ∧ Upheld rules' := by
  simp [Upheld, or_imp, forall_and]

end Rules

namespace Reports

variable {rules rules' : List (Rule ε)} {x : Except ε α}

theorem nil (a : α) : Reports ([] : List (Rule ε)) (.ok a) := fun _ hr =>
  absurd hr List.not_mem_nil

theorem bind (h : Reports rules x) {f : α → Except ε β}
    (h' : ∀ a, x = .ok a → Reports rules' (f a)) : Reports (rules ++ rules') (x >>= f) := by
  cases x with
  | error e => exact FirstBroken.append h
  | ok a =>
      have hrest := h' a rfl
      change Reports (rules ++ rules') (f a)
      cases hf : f a with
      | ok b =>
          rw [hf] at hrest
          exact upheld_append.mpr ⟨h, hrest⟩
      | error e =>
          rw [hf] at hrest
          exact Upheld.firstBroken_append h hrest

theorem ite (c : Prop) [Decidable c] (e : ε) (h : ¬ c → Reports rules x) :
    Reports (⟨c, e⟩ :: rules) (if c then .error e else x) := by
  split
  · rename_i hbroken
    exact .here hbroken
  · rename_i hfine
    have hrest := h hfine
    cases x with
    | ok a =>
        intro r hr
        rcases List.mem_cons.mp hr with rfl | hr
        · exact hfine
        · exact hrest r hr
    | error e' => exact .later hfine hrest

theorem ok_iff {x : Except ε Unit} (h : Reports rules x) : x = .ok () ↔ Upheld rules := by
  cases x with
  | ok a => exact ⟨fun _ => h, fun _ => rfl⟩
  | error e => exact ⟨fun heq => (by cases heq), fun hall => absurd hall (FirstBroken.not_upheld h)⟩

theorem error_iff (h : Reports rules x) (e : ε) : x = .error e ↔ FirstBroken rules e := by
  cases x with
  | ok a => exact ⟨fun heq => (by cases heq), fun hfirst => absurd h hfirst.not_upheld⟩
  | error e' =>
      constructor
      · rintro ⟨⟩
        exact h
      · intro hfirst
        rw [FirstBroken.unique h hfirst]

end Reports

end Conduit.Foundation
