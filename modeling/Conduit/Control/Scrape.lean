import Conduit.Control.Metrics

/-!
# The loads of one scrape

`render` loads its counters one by one while requests go on, so its lines may
come from different moments.  A histogram block loads each counter once: its
lines are those of a single valuation, put together from those moments.
-/

namespace Conduit

open Foundation

namespace Metrics

def Emit.metrics : Emit → List Metric
  | .value metrics _ => metrics
  | .bucket metric _ => [metric]
  | _ => []

def Emit.reads : Emit → Option Counter
  | .value _ counter | .bucket _ counter | .seconds _ counter => some counter
  | _ => none

theorem Emit.run_congr {load load' : Counter → Nat} {e : Emit}
    (h : ∀ k ∈ e.reads, load k = load' k) (s : Exposition) :
    Emit.run load s e = Emit.run load' s e := by
  cases e <;> simp_all [Emit.run, Emit.reads]

theorem shown_run_of_notMem {m : Metric} {e : Emit} (h : m ∉ e.metrics)
    (load : Counter → Nat) (s : Exposition) :
    shown m (Emit.run load s e).lines = shown m s.lines := by
  cases e with
  | comment text => simp [Emit.run]
  | value metrics k =>
      have hnone : shown m (metrics.map fun m' => Line.value m' (load k)) = [] :=
        shown_map_eq_nil m (fun _ => load k) fun m' hm' heq => h (heq ▸ hm')
      simpa [Emit.run] using hnone
  | reset => rfl
  | bucket metric k => simp [Emit.run, Ne.symm (List.ne_of_not_mem_cons h)]
  | seconds metric k => simp [Emit.run]

/-! ## Moves that do not print a metric -/

section Silent

variable {m : Metric} {load : Counter → Nat} {program : List Emit} {s : Exposition}

theorem shown_prefix_foldl :
    shown m s.lines <+: shown m (program.foldl (Emit.run load) s).lines := by
  induction program generalizing s with
  | nil => exact List.prefix_refl _
  | cons e rest ih =>
      refine List.IsPrefix.trans ?_ ih
      cases e <;> simp [Emit.run]

theorem shown_run_ne_nil {e : Emit} (h : m ∈ e.metrics) :
    shown m (Emit.run load s e).lines ≠ [] := by
  cases e with
  | value metrics k =>
      intro hnil
      simp only [Emit.run, shown_append, List.append_eq_nil_iff] at hnil
      have hmem : load k ∈ shown m (metrics.map fun m' => .value m' (load k)) :=
        List.mem_filterMap.mpr ⟨.value m (load k), List.mem_map_of_mem h, by simp⟩
      rw [hnil.2] at hmem
      cases hmem
  | bucket metric k => simp [Emit.run, List.mem_singleton.mp h]
  | comment _ | reset | seconds _ _ => cases h

theorem notMem_metrics (load : Counter → Nat) (s : Exposition)
    (h : shown m (program.foldl (Emit.run load) s).lines = []) :
    ∀ e ∈ program, m ∉ e.metrics := by
  induction program generalizing s with
  | nil => simp
  | cons e rest ih =>
      have hnil : shown m (Emit.run load s e).lines = [] :=
        List.prefix_nil.mp (h ▸ shown_prefix_foldl)
      intro e' he' hm
      rcases List.mem_cons.mp he' with rfl | he'
      · exact shown_run_ne_nil hm hnil
      · exact ih _ h e' he' hm

end Silent

/-! ## Loads at different moments -/

section Moments

variable {σ : Type*} (counters : σ → Counter → Nat)

def scrape (entries : List (Emit × σ)) (s : Exposition) : Exposition :=
  entries.foldl (fun s e => Emit.run (counters e.2) s e.1) s

variable {counters} {entries : List (Emit × σ)} {s : Exposition}

theorem scrape_append (first second : List (Emit × σ)) :
    scrape counters (first ++ second) s = scrape counters second (scrape counters first s) :=
  List.foldl_append

theorem shown_scrape_of_notMem {m : Metric} (h : ∀ e ∈ entries.map Prod.fst, m ∉ e.metrics) :
    shown m (scrape counters entries s).lines = shown m s.lines := by
  induction entries generalizing s with
  | nil => rfl
  | cons e rest ih =>
      rw [List.map_cons, List.forall_mem_cons] at h
      exact (ih h.2).trans (shown_run_of_notMem h.1 _ _)

theorem scrape_eq_foldl {load : Counter → Nat}
    (h : ∀ e ∈ entries, ∀ k ∈ e.1.reads, counters e.2 k = load k) :
    scrape counters entries s = (entries.map Prod.fst).foldl (Emit.run load) s := by
  induction entries generalizing s with
  | nil => rfl
  | cons e rest ih =>
      rw [List.forall_mem_cons] at h
      rw [List.map_cons, List.foldl_cons, ← ih h.2, ← Emit.run_congr h.1]
      rfl

theorem exists_load (counters : σ → Counter → Nat)
    (h : ((entries.map Prod.fst).filterMap Emit.reads).Nodup) :
    ∃ load : Counter → Nat, ∀ e ∈ entries, ∀ k ∈ e.1.reads, counters e.2 k = load k := by
  induction entries with
  | nil => exact ⟨fun _ => 0, by simp⟩
  | cons e rest ih =>
      rw [List.map_cons] at h
      cases hreads : e.1.reads with
      | none =>
          rw [List.filterMap_cons_none hreads] at h
          obtain ⟨load, hload⟩ := ih h
          exact ⟨load, by simpa [hreads] using hload⟩
      | some k =>
          rw [List.filterMap_cons_some hreads, List.nodup_cons] at h
          obtain ⟨load, hload⟩ := ih h.2
          refine ⟨Function.update load k (counters e.2 k), ?_⟩
          intro e' he' k' hk'
          rcases List.mem_cons.mp he' with rfl | he'
          · cases hreads.symm.trans hk'
            simp
          · have hne : k' ≠ k := by
              rintro rfl
              exact h.1 (List.mem_filterMap.mpr ⟨e'.1, List.mem_map_of_mem he', hk'⟩)
            simpa [hne] using hload e' he' k' hk'

end Moments

/-! ## Histograms -/

/-- Buckets that grow with their bound, none of them above the last one. -/
def WellFormed (name : String) (labels : List (String × String)) (lines : List Line) : Prop :=
  ∃ (bucket : Bucket → Nat) (inf : Nat),
    (∀ i, shown (bucketMetric name labels (latencyBuckets.get i).label) lines = [bucket i]) ∧
    shown (bucketMetric name labels "+Inf") lines = [inf] ∧
    Monotone bucket ∧ ∀ i, bucket i ≤ inf

section Blocks

variable {name : String} {labels : List (String × String)} {buckets : Bucket → Counter}
  {count sum : Counter} {load : Counter → Nat}

theorem histogramLines_wellFormed (name : String) (labels : List (String × String))
    (sum : Counter)
    (hle : ((List.finRange latencyBuckets.length).map fun i => load (buckets i)).sum ≤
      load count)
    (hcap : load count ≤ u64Max) :
    WellFormed name labels (histogramLines load name labels buckets count sum) := by
  have hcumulative := cumulate_eq_map u64Max (fun i => load (buckets i)) 0
    (List.pairwise_lt_finRange latencyBuckets.length) (by omega)
  refine ⟨_, load count, shown_bucket_histogramLines _ _ _ _ _ _ hcumulative,
    shown_inf_histogramLines _ _ _ _ _ _, ?_, ?_⟩
  · intro i j hij
    have hsublist : ((List.finRange latencyBuckets.length).filter (· ≤ i)).Sublist
        ((List.finRange latencyBuckets.length).filter (· ≤ j)) :=
      List.monotone_filter_right _ fun k hk => by
        simp only [decide_eq_true_eq] at hk ⊢
        exact hk.trans hij
    simpa using (hsublist.map fun i => load (buckets i)).sum_le_sum fun _ _ => Nat.zero_le _
  · intro i
    rw [Nat.zero_add]
    exact (((List.filter_sublist).map fun i => load (buckets i)).sum_le_sum
      fun _ _ => Nat.zero_le _).trans hle

/--
The lines a histogram block leaves in a scrape: each counter as it stood at
its load, the buckets at moments before the one that loads the count.
-/
theorem scrape_histogram {σ : Type*} (counters : σ → Counter → Nat) {R : σ → σ → Prop}
    {entries : List (Emit × σ)} {before after : List Emit}
    (hentries : entries.map Prod.fst =
      before ++ histogram name labels buckets count sum ++ after)
    (hordered : entries.Pairwise fun e e' => R e.2 e'.2)
    (hnodup : ((histogram name labels buckets count sum).filterMap Emit.reads).Nodup) :
    ∃ (load : Counter → Nat) (last : σ),
      (Emit.value [bucketMetric name labels "+Inf", countMetric name labels] count, last) ∈
        entries ∧
      load count = counters last count ∧
      (∀ i, ∃ e ∈ entries, R e.2 last ∧ load (buckets i) = counters e.2 (buckets i)) ∧
      ∀ m, (∀ e ∈ before ++ after, m ∉ e.metrics) →
        shown m (scrape counters entries {}).lines =
          shown m (histogramLines load name labels buckets count sum) := by
  obtain ⟨rest, last, rfl, hrest, hafter⟩ := List.map_eq_append_iff.mp hentries
  obtain ⟨first, block, rfl, hbefore, hblock⟩ := List.map_eq_append_iff.mp hrest
  obtain ⟨load, hload⟩ := exists_load counters (hblock ▸ hnodup)
  have hshown : ∀ m, (∀ e ∈ before ++ after, m ∉ e.metrics) →
      shown m (scrape counters (first ++ block ++ last) {}).lines =
        shown m (histogramLines load name labels buckets count sum) := by
    intro m hm
    rw [List.forall_mem_append] at hm
    rw [scrape_append, shown_scrape_of_notMem (hafter ▸ hm.2), scrape_append,
      scrape_eq_foldl hload, hblock, lines_foldl_histogram, shown_append,
      shown_scrape_of_notMem (hbefore ▸ hm.1)]
    rfl
  -- The moves of the block, as the source orders them.
  obtain ⟨front, ends, rfl, hfront, hends⟩ := List.map_eq_append_iff.mp hblock
  obtain ⟨total, tail, rfl, htotal, -⟩ := List.map_eq_cons_iff.mp hends
  obtain ⟨start, slots, rfl, -, hslots⟩ := List.map_eq_cons_iff.mp hfront
  refine ⟨load, total.2, ?_, ?_, ?_, hshown⟩
  · rw [← htotal]
    simp
  · exact (hload total (by simp) count (by simp [htotal, Emit.reads])).symm
  · intro i
    have hmem : Emit.bucket (bucketMetric name labels latencyBuckets[i].label) (buckets i) ∈
        slots.map Prod.fst := by
      rw [hslots]
      exact List.mem_map_of_mem (List.mem_finRange i)
    obtain ⟨e, he, hemit⟩ := List.mem_map.mp hmem
    refine ⟨e, by simp [he], ?_, ?_⟩
    · have hpair := (List.pairwise_append.mp (List.pairwise_append.mp hordered).1).2.1
      exact (List.pairwise_append.mp hpair).2.2 e (by simp [he]) total (by simp)
    · exact (hload e (by simp [he]) (buckets i) (by simp [hemit, Emit.reads])).symm

end Blocks

/-! ## The blocks of a scrape -/

section Program

variable {m : Metric}

theorem histogram_silent {name : String} {labels : List (String × String)}
    {buckets : Bucket → Counter} {count sum : Counter}
    (h : (m.name ≠ name ++ "_bucket" ∧ m.name ≠ name ++ "_count") ∨
      m.labels.take labels.length ≠ labels) :
    ∀ e ∈ histogram name labels buckets count sum, m ∉ e.metrics := by
  refine notMem_metrics (fun _ => 0) {} ?_
  rw [lines_foldl_histogram, List.nil_append]
  exact shown_histogramLines_eq_nil _ _ _ _ _ _ h

theorem announce_silent (name help kind : String) :
    ∀ e ∈ announce name help kind, m ∉ e.metrics :=
  notMem_metrics (fun _ => 0) {} (shown_foldl_announce _ _ _ _ _ _)

theorem global_block :
    ∃ before after,
      renderProgram = before ++ histogram requestDuration [] .requestDurationBuckets
        .requestsTotal .requestDurationUsSum ++ after ∧
      ∀ m : Metric,
        (m.name = requestDuration ++ "_bucket" ∨ m.name = requestDuration ++ "_count") →
        ∀ e ∈ before ++ after, m ∉ e.metrics := by
  refine ⟨_, _, List.append_assoc _ _ _, ?_⟩
  intro m hname
  have hsummary := shown_summary_eq_nil (fun _ => 0) (m := m)
    (by rcases hname with h | h <;> simp [h])
  simp only [List.forall_mem_append, List.forall_mem_flatMap]
  refine ⟨⟨notMem_metrics _ _ hsummary, announce_silent _ _ _⟩, announce_silent _ _ _, ?_⟩
  intro c _
  refine histogram_silent (.inl ?_)
  rcases hname with h | h <;> simp [h, requestDuration, requestDurationByClass]

theorem class_block (c : StatusClass) :
    ∃ before after,
      renderProgram = before ++ classHistogram c ++ after ∧
      ∀ m : Metric, m.name = requestDurationByClass ++ "_bucket" →
        m.labels.take 1 = [("class", c.label)] →
        ∀ e ∈ before ++ after, m ∉ e.metrics := by
  obtain ⟨first, rest, hclasses, hothers⟩ : ∃ first rest,
      statusClasses = first ++ c :: rest ∧ ∀ c' ∈ first ++ rest, c' ≠ c := by
    cases c
    · exact ⟨[], [.redirection, .clientError, .serverError], by decide⟩
    · exact ⟨[.success], [.clientError, .serverError], by decide⟩
    · exact ⟨[.success, .redirection], [.serverError], by decide⟩
    · exact ⟨[.success, .redirection, .clientError], [], by decide⟩
  rw [List.forall_mem_append] at hothers
  rw [renderProgram, hclasses, List.flatMap_append, List.flatMap_cons, ← List.append_assoc,
    ← List.append_assoc]
  refine ⟨_, _, rfl, ?_⟩
  intro m hname hlabels
  have hsummary := shown_summary_eq_nil (fun _ => 0) (m := m) (by simp [hname])
  have hother : ∀ c' ≠ c, ∀ e ∈ classHistogram c', m ∉ e.metrics := by
    intro c' hne
    refine histogram_silent (.inr ?_)
    rw [List.length_singleton, hlabels]
    revert hne
    cases c <;> cases c' <;> simp [StatusClass.label]
  have hglobal : ∀ e ∈ histogram requestDuration [] .requestDurationBuckets .requestsTotal
      .requestDurationUsSum, m ∉ e.metrics :=
    histogram_silent (.inl (by simp [hname, requestDuration, requestDurationByClass]))
  simp only [List.forall_mem_append, List.forall_mem_flatMap]
  exact ⟨⟨⟨⟨⟨notMem_metrics _ _ hsummary, announce_silent _ _ _⟩, hglobal⟩,
    announce_silent _ _ _⟩, fun c' hc' => hother c' (hothers.1 c' hc')⟩,
    fun c' hc' => hother c' (hothers.2 c' hc')⟩

end Program

end Metrics

end Conduit
