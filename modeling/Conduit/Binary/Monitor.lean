import Conduit.Binary.Scrape
import Mathlib.Data.List.Forall2

/-!
# One scrape after another

The admin server has one thread and `render` never awaits, so scrapes follow
each other while requests go on.  A page lies between what the counters would
have shown at its first load and at its last, hence pages only grow.
-/

namespace Conduit

open Foundation Metrics

namespace Metrics

/-! ## Pages that grow -/

inductive Line.Grows : Line → Line → Prop where
  | comment (text : String) : Grows (.comment text) (.comment text)
  | value (metric : Metric) {n n' : Nat} (hle : n ≤ n') :
      Grows (.value metric n) (.value metric n')
  | seconds (metric : Metric) {micros micros' : Nat} (hle : micros ≤ micros') :
      Grows (.seconds metric micros) (.seconds metric micros')

def PageGrows (page page' : List Line) : Prop := List.Forall₂ Line.Grows page page'

theorem Line.Grows.trans {l₁ l₂ l₃ : Line} (h : Line.Grows l₁ l₂) (h' : Line.Grows l₂ l₃) :
    Line.Grows l₁ l₃ := by
  cases h with
  | comment text => exact h'
  | value metric hle =>
      cases h' with
      | value _ hle' => exact .value metric (Nat.le_trans hle hle')
  | seconds metric hle =>
      cases h' with
      | seconds _ hle' => exact .seconds metric (Nat.le_trans hle hle')

theorem PageGrows.trans {p₁ p₂ p₃ : List Line} (h : PageGrows p₁ p₂) (h' : PageGrows p₂ p₃) :
    PageGrows p₁ p₃ := by
  induction h generalizing p₃ with
  | nil => exact h'
  | cons hline _ ih =>
      cases h' with
      | cons hline' hrest' => exact .cons (hline.trans hline') (ih hrest')

structure Exposition.Grows (s s' : Exposition) : Prop where
  cumulative : s.cumulative ≤ s'.cumulative
  lines : PageGrows s.lines s'.lines

section Mono

variable {load load' : Counter → Nat} {s s' : Exposition}

theorem Exposition.Grows.append (h : s.Grows s') {cumulative cumulative' : Nat}
    (hle : cumulative ≤ cumulative') {more more' : List Line} (hmore : PageGrows more more') :
    Exposition.Grows ⟨cumulative, s.lines ++ more⟩ ⟨cumulative', s'.lines ++ more'⟩ :=
  ⟨hle, List.rel_append h.lines hmore⟩

theorem Emit.run_mono (h : s.Grows s') (hle : ∀ k, load k ≤ load' k) (e : Emit) :
    (Emit.run load s e).Grows (Emit.run load' s' e) := by
  cases e with
  | comment text => exact h.append h.cumulative (.cons (.comment text) .nil)
  | value metrics k =>
      apply h.append h.cumulative
      rw [PageGrows, List.forall₂_map_left_iff, List.forall₂_map_right_iff, List.forall₂_same]
      exact fun m _ => .value m (hle k)
  | reset => exact ⟨Nat.le_refl 0, h.lines⟩
  | bucket metric k =>
      have hsum : min (s.cumulative + load k) u64Max ≤ min (s'.cumulative + load' k) u64Max := by
        have hcumulative := h.cumulative
        have hload := hle k
        omega
      exact h.append hsum (.cons (.value metric hsum) .nil)
  | seconds metric k => exact h.append h.cumulative (.cons (.seconds metric (hle k)) .nil)

theorem foldl_run_mono (program : List Emit) (h : s.Grows s') (hle : ∀ k, load k ≤ load' k) :
    (program.foldl (Emit.run load) s).Grows (program.foldl (Emit.run load') s') := by
  induction program generalizing s s' with
  | nil => exact h
  | cons e program ih => exact ih (Emit.run_mono h hle e)

theorem Exposition.Grows.empty : Exposition.Grows {} {} := ⟨Nat.le_refl 0, .nil⟩

theorem render_mono (hle : ∀ k, load k ≤ load' k) : PageGrows (render load) (render load') :=
  (foldl_run_mono renderProgram .empty hle).lines

end Mono

end Metrics

namespace Proxy

variable {B : Type}

/-! ## The admin server among the calls -/

/-- The scrape that is being made, and the pages of those before it. -/
structure Monitor (calls : List (Call B)) where
  scraping : Scraping calls
  pages : List (List Line) := []

namespace Monitor

variable {calls : List (Call B)}

def start (calls : List (Call B)) : Monitor calls where
  scraping := .start calls

inductive Action (calls : List (Call B)) where
  | turn (t : Turn (Fin calls.length))
  | answer

def step (s : Monitor calls) : Action calls → Option (Monitor calls)
  | .turn t =>
      (s.scraping.step (2 ^ 64) Emit.run t).map fun scraping => { s with scraping := scraping }
  | .answer =>
      match s.scraping.todo with
      | [] => some ⟨⟨s.scraping.shared, renderProgram, {}⟩, s.pages ++ [s.scraping.out.lines]⟩
      | _ :: _ => none

def Fits (calls : List (Call B)) : Prop :=
  ∀ k, ∑ i, added k (calls.get i).updates < 2 ^ 64

/--
The scrape so far lies between one made at once when it began and one made at
once now; the pages before it lie below the first of these.
-/
structure Between (bottom : Counter → Nat) (done : List Emit) (s : Monitor calls) : Prop where
  reached : Reachable (Shared.step (2 ^ 64)) (fun _ _ => True)
    (Shared.start fun i => (calls.get i).updates) s.scraping.shared
  program : renderProgram = done ++ s.scraping.todo
  bottom_le : ∀ k, bottom k ≤ s.scraping.shared.counter k
  above : (done.foldl (Emit.run bottom) {}).Grows s.scraping.out
  below : s.scraping.out.Grows (done.foldl (Emit.run s.scraping.shared.counter) {})
  pages : ∀ p ∈ s.pages, PageGrows p (render bottom)
  ordered : s.pages.Pairwise PageGrows

section Steps

variable {bottom : Counter → Nat} {done : List Emit} {s s' : Monitor calls}

theorem between_start : Between (fun _ => 0) [] (start calls) where
  reached := Reachable.refl
  program := rfl
  bottom_le _ := Nat.zero_le _
  above := .empty
  below := .empty
  pages _ hp := absurd hp List.not_mem_nil
  ordered := List.Pairwise.nil

theorem Between.task (h : Between bottom done s) (hfits : Fits calls) {i : Fin calls.length}
    {shared : Shared Counter (Fin calls.length)}
    (hstep : s.scraping.shared.step (2 ^ 64) i = some shared) :
    Between bottom done { s with scraping := { s.scraping with shared := shared } } := by
  have hmono : ∀ k, s.scraping.shared.counter k ≤ shared.counter k := fun k =>
    Shared.counter_mono h.reached (Reachable.refl.tail trivial hstep) (hfits k)
  have hlater := foldl_run_mono done .empty hmono
  exact { h with
    reached := h.reached.tail trivial hstep
    bottom_le := fun k => Nat.le_trans (h.bottom_le k) (hmono k)
    below := ⟨Nat.le_trans h.below.cumulative hlater.cumulative, h.below.lines.trans hlater.lines⟩ }

theorem Between.read (h : Between bottom done s) {e : Emit} {rest : List Emit}
    (htodo : s.scraping.todo = e :: rest) :
    Between bottom (done ++ [e])
      { s with scraping := ⟨s.scraping.shared, rest,
          Emit.run s.scraping.shared.counter s.scraping.out e⟩ } where
  reached := h.reached
  program := by rw [h.program, htodo, List.append_assoc, List.singleton_append]
  bottom_le := h.bottom_le
  above := by
    rw [List.foldl_append]
    exact Emit.run_mono h.above h.bottom_le e
  below := by
    rw [List.foldl_append]
    exact Emit.run_mono h.below (fun _ => Nat.le_refl _) e
  pages := h.pages
  ordered := h.ordered

theorem Between.complete (h : Between bottom done s) (htodo : s.scraping.todo = []) :
    PageGrows (render bottom) s.scraping.out.lines ∧
      PageGrows s.scraping.out.lines (render s.scraping.shared.counter) := by
  have hdone : done = renderProgram := by rw [h.program, htodo, List.append_nil]
  subst hdone
  exact ⟨h.above.lines, h.below.lines⟩

theorem Between.answer (h : Between bottom done s) (htodo : s.scraping.todo = []) :
    Between s.scraping.shared.counter []
      ⟨⟨s.scraping.shared, renderProgram, {}⟩, s.pages ++ [s.scraping.out.lines]⟩ := by
  obtain ⟨hfrom, hto⟩ := h.complete htodo
  refine ⟨h.reached, rfl, fun _ => Nat.le_refl _, .empty, .empty, ?_, ?_⟩
  · intro p hp
    rcases List.mem_append.mp hp with hp | hp
    · exact (h.pages p hp).trans (render_mono h.bottom_le)
    · rw [List.mem_singleton.mp hp]
      exact hto
  · apply List.pairwise_append.mpr
    refine ⟨h.ordered, List.pairwise_singleton _ _, ?_⟩
    intro p hp last hlast
    rw [List.mem_singleton.mp hlast]
    exact (h.pages p hp).trans hfrom

theorem Between.step (h : Between bottom done s) (hfits : Fits calls) {a : Action calls}
    (hstep : s.step a = some s') : ∃ bottom' done', Between bottom' done' s' := by
  cases a with
  | turn t =>
      obtain ⟨scraping, hscraping, rfl⟩ := Option.map_eq_some_iff.mp hstep
      cases t with
      | task i =>
          obtain ⟨shared, hshared, rfl⟩ := Option.map_eq_some_iff.mp hscraping
          exact ⟨bottom, done, h.task hfits hshared⟩
      | read =>
          cases htodo : s.scraping.todo with
          | nil => simp [Watched.step, htodo] at hscraping
          | cons e rest =>
              simp only [Watched.step, htodo, Option.some.injEq] at hscraping
              subst hscraping
              exact ⟨bottom, done ++ [e], h.read htodo⟩
  | answer =>
      cases htodo : s.scraping.todo with
      | nil =>
          simp only [Monitor.step, htodo, Option.some.injEq] at hstep
          subst hstep
          exact ⟨_, [], h.answer htodo⟩
      | cons e rest => simp [Monitor.step, htodo] at hstep

end Steps

/--
Whatever moments of the traffic the loads of the scrapes fall on, every series
of a later page is at least what it was on an earlier one, and no page shows
more than the counters hold now.
-/
theorem scrapes_never_go_back (calls : List (Call B)) (hfits : Fits calls) (s : Monitor calls)
    (h : Reachable step (fun _ _ => True) (start calls) s) :
    s.pages.Pairwise PageGrows ∧
      ∀ p ∈ s.pages, PageGrows p (render s.scraping.shared.counter) := by
  have hbetween : ∃ bottom done, Between bottom done s := by
    apply h.invariant (fun s => ∃ bottom done, Between bottom done s)
    · exact ⟨_, [], between_start⟩
    · rintro s a s' ⟨bottom, done, hs⟩ - hstep
      exact hs.step hfits hstep
  obtain ⟨bottom, done, hs⟩ := hbetween
  exact ⟨hs.ordered, fun p hp => (hs.pages p hp).trans (render_mono hs.bottom_le)⟩

theorem reachable_turns {scraping scraping' : Scraping calls} (pages : List (List Line))
    (h : Reachable (Watched.step (2 ^ 64) Emit.run) (Watched.Admits fun _ _ => True) scraping
      scraping') :
    Reachable step (fun _ _ => True) ⟨scraping, pages⟩ ⟨scraping', pages⟩ := by
  apply h.invariant fun scraping' =>
    Reachable step (fun _ _ => True) ⟨scraping, pages⟩ ⟨scraping', pages⟩
  · exact Reachable.refl
  · intro x t x' hreach _ hstep
    exact hreach.tail (a := .turn t) trivial (by rw [step, hstep, Option.map_some])

theorem added_le_sum_amounts (k : Counter) (updates : List Update) :
    added k updates ≤ (updates.map Prod.snd).sum := by
  induction updates with
  | nil => exact Nat.le_refl 0
  | cons u updates ih =>
      rw [added_cons, List.map_cons, List.sum_cons]
      split <;> omega

theorem scrapes_never_go_back_sample :
    ∃ s, Reachable step (fun _ _ => True) (start sampleCalls) s ∧
      s.pages = [render fun _ => 0, render sampleShared.counter] ∧ s.pages.Pairwise PageGrows := by
  have hfits : Fits sampleCalls := by
    intro k
    apply Nat.lt_of_le_of_lt (Finset.sum_le_sum fun i _ => added_le_sum_amounts k _)
    decide
  have hreads : Reachable (Watched.step (2 ^ 64) Emit.run) (Watched.Admits fun _ _ => True)
      (Scraping.start sampleCalls) ⟨(Scraping.start sampleCalls).shared, [],
        renderProgram.foldl (Emit.run fun _ => 0) {}⟩ :=
    Watched.reachable_reads _ fun _ _ => trivial
  have hfirst := reachable_turns [] hreads
  have hsecond := reachable_turns [render fun _ => 0]
    (reachable_sampleShared (fun _ _ => True) fun _ _ => trivial)
  have hrun := ((hfirst.tail (a := .answer) trivial rfl).trans hsecond).tail (a := .answer)
    trivial rfl
  exact ⟨_, hrun, rfl, (scrapes_never_go_back sampleCalls hfits _ hrun).1⟩

end Monitor

end Proxy

end Conduit
