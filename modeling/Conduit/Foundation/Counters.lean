import Conduit.Foundation.Transition
import Mathlib.Algebra.BigOperators.Fin
import Mathlib.Algebra.BigOperators.Group.Finset.Piecewise
import Mathlib.Algebra.Order.BigOperators.Group.Finset
import Mathlib.Data.Nat.ModEq

/-!
# Counters shared by several tasks

Each task works off its own list of atomic additions, modulo `m`, in any
interleaving with the others.  What the counters hold together with what is
still to be added depends on the lists alone.  The second part is about
histograms that store one count per bucket and add them up when they are read.
-/

namespace Conduit.Foundation

/-! ## Additions -/

section Additions

variable {κ ι : Type*} [DecidableEq κ]

def added (k : κ) (updates : List (κ × Nat)) : Nat :=
  (updates.map fun u => if u.1 = k then u.2 else 0).sum

@[simp] theorem added_nil (k : κ) : added k [] = 0 := rfl

@[simp] theorem added_cons (k : κ) (u : κ × Nat) (updates : List (κ × Nat)) :
    added k (u :: updates) = (if u.1 = k then u.2 else 0) + added k updates := by
  simp [added]

@[simp] theorem added_append (k : κ) (first second : List (κ × Nat)) :
    added k (first ++ second) = added k first + added k second := by
  simp [added]

theorem added_eq_zero {k : κ} {updates : List (κ × Nat)} (h : k ∉ updates.map Prod.fst) :
    added k updates = 0 := by
  induction updates with
  | nil => rfl
  | cons u rest ih =>
      rw [List.map_cons, List.mem_cons, not_or] at h
      rw [added_cons, if_neg (Ne.symm h.1), ih h.2]

theorem sum_indicator {α : Type*} (xs : List α) (p : α → Bool) :
    (xs.map fun x => if p x then 1 else 0).sum = xs.countP p := by
  induction xs with
  | nil => rfl
  | cons x xs ih => rw [List.map_cons, List.sum_cons, ih, List.countP_cons, Nat.add_comm]

structure Shared (κ ι : Type*) where
  counter : κ → Nat
  pending : ι → List (κ × Nat)

namespace Shared

def start (program : ι → List (κ × Nat)) : Shared κ ι := ⟨fun _ => 0, program⟩

def AtRest (s : Shared κ ι) : Prop := ∀ i, s.pending i = []

variable [DecidableEq ι]

def step (m : Nat) (s : Shared κ ι) (i : ι) : Option (Shared κ ι) :=
  match s.pending i with
  | [] => none
  | (k, amount) :: rest =>
      some
        { counter := Function.update s.counter k ((s.counter k + amount) % m)
          pending := Function.update s.pending i rest }

theorem step_eq_some {m : Nat} {s s' : Shared κ ι} {i : ι} (h : s.step m i = some s') :
    ∃ k amount rest, s.pending i = (k, amount) :: rest ∧
      s' =
        { counter := Function.update s.counter k ((s.counter k + amount) % m)
          pending := Function.update s.pending i rest } := by
  unfold step at h
  split at h
  · cases h
  · rename_i k amount rest hpending
    exact ⟨k, amount, rest, hpending, (Option.some.inj h).symm⟩

theorem step_lt {m : Nat} (hm : 0 < m) {s s' : Shared κ ι} {i : ι}
    (h : s.step m i = some s') (hlt : ∀ k, s.counter k < m) (k : κ) :
    s'.counter k < m := by
  obtain ⟨k', amount, rest, -, rfl⟩ := step_eq_some h
  rcases eq_or_ne k k' with rfl | hk
  · simpa using Nat.mod_lt _ hm
  · simpa [hk] using hlt k

section Pending

variable {m : Nat} {allowed : Shared κ ι → ι → Prop} {s s' : Shared κ ι}

theorem pending_suffix (h : Reachable (step m) allowed s s') (i : ι) :
    s'.pending i <:+ s.pending i := by
  refine h.invariant (fun s' => s'.pending i <:+ s.pending i) (List.suffix_refl _) ?_
  intro x j x' hsuffix _ hstep
  obtain ⟨k, amount, rest, hpending, rfl⟩ := step_eq_some hstep
  rcases eq_or_ne i j with rfl | hne
  · rw [hpending] at hsuffix
    simpa using (List.suffix_cons _ _).trans hsuffix
  · simpa [hne] using hsuffix

end Pending

variable [Fintype ι]

def total (s : Shared κ ι) (k : κ) : Nat :=
  s.counter k + ∑ i, added k (s.pending i)

omit [DecidableEq κ] in
theorem sum_update {β : Type*} (f : β → Nat) (family : ι → β) (i : ι) (b : β) :
    ∑ j, f (Function.update family i b j) + f (family i) = ∑ j, f (family j) + f b := by
  have hupdate : (fun j => f (Function.update family i b j)) =
      Function.update (fun j => f (family j)) i (f b) := by
    funext j
    rcases eq_or_ne j i with rfl | hj
    · simp
    · simp [hj]
  rw [hupdate, Finset.sum_update_of_mem (Finset.mem_univ i),
    Finset.sum_eq_add_sum_sdiff_singleton_of_mem (Finset.mem_univ i) fun j => f (family j)]
  omega

theorem sum_added_pending {pending : ι → List (κ × Nat)} {i : ι}
    {u : κ × Nat} {rest : List (κ × Nat)} (h : pending i = u :: rest) (k : κ) :
    ∑ j, added k (pending j) =
      (if u.1 = k then u.2 else 0) +
        ∑ j, added k (Function.update pending i rest j) := by
  have hsum := sum_update (added k) pending i rest
  rw [h, added_cons] at hsum
  omega

theorem step_total {m : Nat} {s s' : Shared κ ι} {i : ι}
    (h : s.step m i = some s') (k : κ) : s'.total k ≡ s.total k [MOD m] := by
  obtain ⟨k', amount, rest, hpending, rfl⟩ := step_eq_some h
  simp only [total, sum_added_pending hpending k]
  rcases eq_or_ne k' k with rfl | hk
  · rw [Function.update_self, if_pos rfl, ← Nat.add_assoc]
    exact (Nat.mod_modEq _ m).add_right _
  · rw [Function.update_of_ne hk.symm, if_neg hk, Nat.zero_add]

section Runs

variable {m : Nat} {program : ι → List (κ × Nat)} {allowed : Shared κ ι → ι → Prop}
  {s : Shared κ ι}

theorem reachable_total (hm : 0 < m) (hrun : Reachable (step m) allowed (start program) s)
    (k : κ) : s.total k ≡ (start program).total k [MOD m] ∧ s.counter k < m := by
  have hinv : s.total k ≡ (start program).total k [MOD m] ∧ ∀ k, s.counter k < m :=
    hrun.invariant
      (fun s => s.total k ≡ (start program).total k [MOD m] ∧ ∀ k, s.counter k < m)
      ⟨Nat.ModEq.refl _, fun _ => hm⟩
      (fun s i s' h _ hstep =>
        ⟨(step_total hstep k).trans h.1, step_lt hm hstep h.2⟩)
  exact ⟨hinv.1, hinv.2 k⟩

/-- At rest a counter holds what the lists come to, whatever the order was. -/
theorem counter_of_atRest (hm : 0 < m)
    (hrun : Reachable (step m) allowed (start program) s) (hrest : s.AtRest) (k : κ) :
    s.counter k = (∑ i, added k (program i)) % m := by
  obtain ⟨htotal, hlt⟩ := reachable_total hm hrun k
  have hmod : s.counter k % m = (∑ i, added k (program i)) % m := by
    simpa [Nat.ModEq, total, start, hrest _] using htotal
  rw [← hmod, Nat.mod_eq_of_lt hlt]

theorem counter_add_pending (hrun : Reachable (step m) allowed (start program) s) {k : κ}
    (hbound : ∑ i, added k (program i) < m) :
    s.counter k + ∑ i, added k (s.pending i) = ∑ i, added k (program i) := by
  obtain ⟨htotal, hlt⟩ := reachable_total (by omega) hrun k
  have hpending : ∑ i, added k (s.pending i) ≤ ∑ i, added k (program i) := by
    apply Finset.sum_le_sum
    intro i _
    obtain ⟨done, hdone⟩ : s.pending i <:+ program i := pending_suffix hrun i
    rw [← hdone, added_append]
    omega
  have hcounter : s.counter k ≡ ∑ i, added k (program i) - ∑ i, added k (s.pending i)
      [MOD m] := by
    apply Nat.ModEq.add_right_cancel' (∑ i, added k (s.pending i))
    rw [Nat.sub_add_cancel hpending]
    simpa [total, start] using htotal
  have heq := Nat.ModEq.eq_of_lt_of_lt hcounter hlt (by omega)
  omega

theorem counter_mono {s' : Shared κ ι}
    (hrun : Reachable (step m) allowed (start program) s)
    (hnext : Reachable (step m) allowed s s') {k : κ}
    (hbound : ∑ i, added k (program i) < m) : s.counter k ≤ s'.counter k := by
  have hbefore := counter_add_pending hrun hbound
  have hafter := counter_add_pending (hrun.trans hnext) hbound
  have hpending : ∑ i, added k (s'.pending i) ≤ ∑ i, added k (s.pending i) := by
    apply Finset.sum_le_sum
    intro i _
    obtain ⟨done, hdone⟩ := pending_suffix hnext i
    rw [← hdone, added_append]
    omega
  omega

omit [DecidableEq κ] [DecidableEq ι] in
theorem sum_map_sum (f : κ → ι → Nat) (ks : List κ) :
    (ks.map fun k => ∑ i, f k i).sum = ∑ i, (ks.map fun k => f k i).sum := by
  induction ks with
  | nil => simp
  | cons k ks ih => simp [ih, Finset.sum_add_distrib]

/--
Counters that no task has added more to than to `c` do not add up to more than
`c` holds.
-/
theorem sum_counter_le (hrun : Reachable (step m) allowed (start program) s)
    {ks : List κ} {c : κ} (hks : ∀ k ∈ ks, ∑ i, added k (program i) < m)
    (hc : ∑ i, added c (program i) < m)
    (hdone : ∀ i done, program i = done ++ s.pending i →
      (ks.map fun k => added k done).sum ≤ added c done) :
    (ks.map s.counter).sum ≤ s.counter c := by
  have hsuffix : ∀ i, ∃ done, program i = done ++ s.pending i := fun i =>
    (pending_suffix hrun i).imp fun _ => Eq.symm
  choose done hprogram using hsuffix
  have hcounter : ∀ k, ∑ i, added k (program i) < m →
      s.counter k = ∑ i, added k (done i) := by
    intro k hbound
    have hsum := counter_add_pending hrun hbound
    simp only [hprogram, added_append, Finset.sum_add_distrib] at hsum
    omega
  calc (ks.map s.counter).sum
      = (ks.map fun k => ∑ i, added k (done i)).sum := by
        rw [List.map_congr_left fun k hk => hcounter k (hks k hk)]
    _ = ∑ i, (ks.map fun k => added k (done i)).sum := sum_map_sum _ _
    _ ≤ ∑ i, added c (done i) :=
        Finset.sum_le_sum fun i _ => hdone i (done i) (hprogram i)
    _ = s.counter c := (hcounter c hc).symm

end Runs

theorem exists_atRest (m : Nat) (s : Shared κ ι) :
    ∃ s', Reachable (step m) (fun _ _ => True) s s' ∧ s'.AtRest := by
  induction hn : ∑ i, (s.pending i).length generalizing s with
  | zero =>
      refine ⟨s, Reachable.refl, fun i => List.length_eq_zero_iff.mp ?_⟩
      exact (Finset.sum_eq_zero_iff.mp hn) i (Finset.mem_univ i)
  | succ n ih =>
      obtain ⟨i, -, hi⟩ : ∃ i ∈ Finset.univ, (s.pending i).length ≠ 0 :=
        Finset.exists_ne_zero_of_sum_ne_zero (by omega)
      obtain ⟨u, rest, hpending⟩ := List.exists_cons_of_length_pos (Nat.pos_of_ne_zero hi)
      have hlength := sum_update List.length s.pending i rest
      rw [hpending, List.length_cons] at hlength
      obtain ⟨s', hrun, hrest⟩ := ih
        { counter := Function.update s.counter u.1 ((s.counter u.1 + u.2) % m)
          pending := Function.update s.pending i rest } (by dsimp only; omega)
      have hstep : s.step m i = some
          { counter := Function.update s.counter u.1 ((s.counter u.1 + u.2) % m)
            pending := Function.update s.pending i rest } := by
        rw [step, hpending]
      exact ⟨s', (Reachable.refl.tail trivial hstep).trans hrun, hrest⟩

theorem counter_eq_countP {α : Type*} {m : Nat} {tasks : List α}
    (program : α → List (κ × Nat)) {s : Shared κ (Fin tasks.length)}
    (hrun : Reachable (step m) (fun _ _ => True) (start fun i => program (tasks.get i)) s)
    (hrest : s.AtRest) (hlength : tasks.length < m) {k : κ} {p : α → Bool}
    (hadded : ∀ a ∈ tasks, added k (program a) = if p a then 1 else 0) :
    s.counter k = tasks.countP p := by
  have hsum : ∑ i : Fin tasks.length, added k (program (tasks.get i)) = tasks.countP p := by
    calc ∑ i : Fin tasks.length, added k (program (tasks.get i))
        = (tasks.map fun a => added k (program a)).sum :=
          Fin.sum_univ_fun_getElem tasks fun a => added k (program a)
      _ = (tasks.map fun a => if p a then 1 else 0).sum := by
          rw [List.map_congr_left hadded]
      _ = tasks.countP p := sum_indicator tasks p
  rw [counter_of_atRest (by omega) hrun hrest, hsum]
  exact Nat.mod_eq_of_lt (Nat.lt_of_le_of_lt List.countP_le_length hlength)

end Shared

end Additions

/-! ## A reader beside the tasks -/

section Readers

variable {κ ι ε ω : Type*} [DecidableEq κ] [DecidableEq ι]

/--
Someone who works off a list of his own, each entry of it with the counters as
they stand at that moment.
-/
structure Watched (κ ι ε ω : Type*) where
  shared : Shared κ ι
  todo : List ε
  out : ω

inductive Turn (ι : Type*) where
  | task (i : ι)
  | read

namespace Watched

def step (m : Nat) (read : (κ → Nat) → ω → ε → ω) (s : Watched κ ι ε ω) :
    Turn ι → Option (Watched κ ι ε ω)
  | .task i => (s.shared.step m i).map fun shared => { s with shared := shared }
  | .read =>
      match s.todo with
      | [] => none
      | e :: rest => some { s with todo := rest, out := read s.shared.counter s.out e }

def Admits (ok : Shared κ ι → ε → Prop) (s : Watched κ ι ε ω) : Turn ι → Prop
  | .task _ => True
  | .read => ∀ e ∈ s.todo.head?, ok s.shared e

variable {m : Nat} {read : (κ → Nat) → ω → ε → ω} {ok : Shared κ ι → ε → Prop}

/-- What a run has read: the entries in order, each with the state it met. -/
structure Trace (m : Nat) (read : (κ → Nat) → ω → ε → ω) (ok : Shared κ ι → ε → Prop)
    (s₀ s : Watched κ ι ε ω) (entries : List (ε × Shared κ ι)) : Prop where
  todo : s₀.todo = entries.map Prod.fst ++ s.todo
  out : s.out = entries.foldl (fun out e => read e.2.counter out e.1) s₀.out
  ok : ∀ e ∈ entries, ok e.2 e.1
  ordered : entries.Pairwise fun e e' => Reachable (Shared.step m) (fun _ _ => True) e.2 e'.2
  started : ∀ e ∈ entries, Reachable (Shared.step m) (fun _ _ => True) s₀.shared e.2
  reached : ∀ e ∈ entries, Reachable (Shared.step m) (fun _ _ => True) e.2 s.shared
  shared : Reachable (Shared.step m) (fun _ _ => True) s₀.shared s.shared

theorem Trace.step {s₀ s s' : Watched κ ι ε ω} {entries : List (ε × Shared κ ι)}
    (h : Trace m read ok s₀ s entries) {a : Turn ι} (hok : Admits ok s a)
    (hstep : s.step m read a = some s') : ∃ entries', Trace m read ok s₀ s' entries' := by
  cases a with
  | task i =>
      obtain ⟨shared, hshared, rfl⟩ := Option.map_eq_some_iff.mp hstep
      exact ⟨entries, h.todo, h.out, h.ok, h.ordered, h.started,
        fun e he => (h.reached e he).tail trivial hshared, h.shared.tail trivial hshared⟩
  | read =>
      cases htodo : s.todo with
      | nil =>
          rw [Watched.step, htodo] at hstep
          cases hstep
      | cons e rest =>
          rw [Watched.step, htodo] at hstep
          cases hstep
          refine ⟨entries ++ [(e, s.shared)], ?_, ?_, ?_, ?_, ?_, ?_, h.shared⟩
          · simp [h.todo, htodo]
          · simp [h.out]
          · intro e' he'
            rcases List.mem_append.mp he' with he' | he'
            · exact h.ok e' he'
            · rw [List.mem_singleton.mp he']
              exact hok e (by simp [htodo])
          · refine List.pairwise_append.mpr ⟨h.ordered, List.pairwise_singleton _ _, ?_⟩
            intro e' he' last hlast
            rw [List.mem_singleton.mp hlast]
            exact h.reached e' he'
          · intro e' he'
            rcases List.mem_append.mp he' with he' | he'
            · exact h.started e' he'
            · rw [List.mem_singleton.mp he']
              exact h.shared
          · intro e' he'
            rcases List.mem_append.mp he' with he' | he'
            · exact h.reached e' he'
            · rw [List.mem_singleton.mp he']
              exact Reachable.refl

theorem exists_trace {s₀ s : Watched κ ι ε ω}
    (hrun : Reachable (step m read) (Admits ok) s₀ s) :
    ∃ entries, Trace m read ok s₀ s entries := by
  refine hrun.invariant (fun s => ∃ entries, Trace m read ok s₀ s entries) ?_ ?_
  · exact ⟨[], rfl, rfl, by simp, List.Pairwise.nil, by simp, by simp, Reachable.refl⟩
  · rintro s a s' ⟨entries, h⟩ hok hstep
    exact h.step hok hstep

theorem reachable_tasks {s s' : Shared κ ι} (todo : List ε) (out : ω)
    (h : Reachable (Shared.step m) (fun _ _ => True) s s') :
    Reachable (step m read) (Admits ok) ⟨s, todo, out⟩ ⟨s', todo, out⟩ := by
  refine h.invariant
    (fun s' => Reachable (step m read) (Admits ok) ⟨s, todo, out⟩ ⟨s', todo, out⟩)
    Reachable.refl ?_
  intro x i x' hreach _ hstep
  exact hreach.tail (a := .task i) trivial (by simp [step, hstep])

theorem reachable_reads {shared : Shared κ ι} {todo : List ε} (out : ω)
    (hok : ∀ e ∈ todo, ok shared e) :
    Reachable (step m read) (Admits ok) ⟨shared, todo, out⟩
      ⟨shared, [], todo.foldl (read shared.counter) out⟩ := by
  induction todo generalizing out with
  | nil => exact Reachable.refl
  | cons e rest ih =>
      have hstep : step m read ⟨shared, e :: rest, out⟩ .read =
          some ⟨shared, rest, read shared.counter out e⟩ := rfl
      refine (Reachable.refl.tail ?_ hstep).trans
        (ih (read shared.counter out e) fun e' he' => hok e' (by simp [he']))
      intro e' he'
      simp only [List.head?_cons, Option.mem_def, Option.some.injEq] at he'
      exact he' ▸ hok e (by simp)

end Watched

end Readers

/-! ## Histograms -/

section Histograms

variable {ι α : Type*}

def cumulate (cap : Nat) (load : ι → Nat) : Nat → List ι → List (ι × Nat)
  | _, [] => []
  | sum, i :: rest =>
      let sum := min (sum + load i) cap
      (i, sum) :: cumulate cap load sum rest

theorem cumulate_eq_map [LinearOrder ι] (cap : Nat) (load : ι → Nat) (sum : Nat)
    {slots : List ι} (hsorted : slots.Pairwise (· < ·))
    (hcap : sum + (slots.map load).sum ≤ cap) :
    cumulate cap load sum slots =
      slots.map fun i => (i, sum + ((slots.filter (· ≤ i)).map load).sum) := by
  induction slots generalizing sum with
  | nil => rfl
  | cons i rest ih =>
      obtain ⟨hi, hrest⟩ := List.pairwise_cons.mp hsorted
      simp only [List.map_cons, List.sum_cons] at hcap
      have hmin : min (sum + load i) cap = sum + load i := by omega
      have hnone : rest.filter (· ≤ i) = [] :=
        List.filter_eq_nil_iff.mpr fun j hj => by simpa using hi j hj
      have htail : ∀ j ∈ rest,
          (j, sum + load i + ((rest.filter (· ≤ j)).map load).sum) =
            (j, sum + (((i :: rest).filter (· ≤ j)).map load).sum) := by
        intro j hj
        simp [(hi j hj).le, Nat.add_assoc]
      rw [cumulate, hmin, ih _ hrest (by omega), List.map_cons, List.map_congr_left htail]
      simp [hnone]

theorem countP_add_countP_of_disjoint {p q : α → Bool} {xs : List α}
    (h : ∀ x ∈ xs, p x → ¬ q x) :
    xs.countP p + xs.countP q = xs.countP fun x => p x || q x := by
  induction xs with
  | nil => rfl
  | cons x xs ih =>
      have hx := h x (by simp)
      have hxs := ih fun y hy => h y (by simp [hy])
      simp only [List.countP_cons, Bool.or_eq_true]
      split_ifs <;> simp_all <;> omega

theorem sum_countP_slots [DecidableEq ι] {slots : List ι} (hnodup : slots.Nodup)
    (slot : α → Option ι) (xs : List α) :
    (slots.map fun i => xs.countP (slot · = some i)).sum =
      xs.countP fun x => ∃ i ∈ slots, slot x = some i := by
  induction slots with
  | nil => simp
  | cons i rest ih =>
      obtain ⟨hi, hrest⟩ := List.nodup_cons.mp hnodup
      have hdisjoint : ∀ x ∈ xs, decide (slot x = some i) →
          ¬ decide (∃ j ∈ rest, slot x = some j) := by
        intro x _ hx hrest
        simp only [decide_eq_true_eq] at hx hrest
        obtain ⟨j, hj, hslot⟩ := hrest
        rw [hx, Option.some.injEq] at hslot
        exact hi (hslot ▸ hj)
      rw [List.map_cons, List.sum_cons, ih hrest,
        countP_add_countP_of_disjoint hdisjoint]
      simp

theorem cumulate_countP [LinearOrder ι] {cap : Nat} {slots : List ι}
    (hsorted : slots.Pairwise (· < ·)) (slot : α → Option ι) {xs : List α}
    (hcap : xs.length ≤ cap) :
    cumulate cap (fun i => xs.countP (slot · = some i)) 0 slots =
      slots.map fun i =>
        (i, xs.countP fun x => ∃ j ∈ slots, j ≤ i ∧ slot x = some j) := by
  have hnodup : slots.Nodup := hsorted.imp fun h => h.ne
  have hsum : 0 + (slots.map fun i => xs.countP (slot · = some i)).sum ≤ cap := by
    rw [Nat.zero_add, sum_countP_slots hnodup]
    exact List.countP_le_length.trans hcap
  rw [cumulate_eq_map _ _ _ hsorted hsum]
  apply List.map_congr_left
  intro i _
  rw [Nat.zero_add, sum_countP_slots (hnodup.filter _)]
  simp [and_assoc]

theorem findIdx_le_iff {p : α → Bool} {bounds : List α}
    (hmono : bounds.Pairwise fun a b => p a → p b) {i : Nat}
    (hi : i < bounds.length) : bounds.findIdx p ≤ i ↔ p bounds[i] := by
  constructor
  · intro hle
    have hfound : p bounds[bounds.findIdx p] :=
      List.findIdx_getElem (w := Nat.lt_of_le_of_lt hle hi)
    rcases Nat.eq_or_lt_of_le hle with heq | hlt
    · simpa [heq] using hfound
    · exact List.pairwise_iff_getElem.mp hmono _ _ _ hi hlt hfound
  · intro hfits
    by_contra hgt
    exact absurd hfits (by simpa using List.not_of_lt_findIdx (Nat.lt_of_not_le hgt))

end Histograms

end Conduit.Foundation
