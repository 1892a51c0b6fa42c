import Conduit.Binary.Proxy
import Conduit.Control.Scrape

/-!
# Scrapes among requests

Any number of `proxy_one` calls make their additions while `render` makes its
loads.  A call may also be dropped at its await on the dispatcher: it has then
counted the request and observes nothing.
-/

namespace Conduit

open Foundation Metrics

namespace Proxy

variable {B : Type}

/-! ## Calls -/

inductive Call (B : Type) where
  | completes (handled : Handled B)
  | dropped

namespace Call

def updates : Call B → List Update
  | .completes handled => (proxyOne handled).1
  | .dropped => observeRequestStart

def observations : Call B → Nat
  | .completes _ => 1
  | .dropped => 0

variable (call : Call B)

theorem updates_eq_cons : ∃ rest, call.updates = (.requestsTotal, 1) :: rest := by
  cases call with
  | completes handled => exact ⟨_, rfl⟩
  | dropped => exact ⟨[], rfl⟩

theorem added_requestsTotal : added .requestsTotal call.updates = 1 := by
  cases call with
  | completes handled => exact Proxy.added_requestsTotal handled
  | dropped => rfl

theorem sum_slot_le_one (slot : Option Bucket) :
    ((List.finRange latencyBuckets.length).map fun i => if slot = some i then 1 else 0).sum ≤
      1 := by
  rw [← Fin.sum_univ_def]
  cases slot <;> simp

theorem sum_added_bucket_le_one :
    ((List.finRange latencyBuckets.length).map fun i =>
      added (.requestDurationBuckets i) call.updates).sum ≤ 1 := by
  cases call with
  | completes handled =>
      simp only [updates, added_bucket]
      exact sum_slot_le_one _
  | dropped => simp [updates, observeRequestStart]

theorem sum_added_classBucket_le (c : StatusClass) :
    ((List.finRange latencyBuckets.length).map fun i =>
      added (.classBuckets c i) call.updates).sum ≤ added (.responses c) call.updates := by
  cases call with
  | completes handled =>
      simp only [updates, added_classBucket, added_responses]
      split_ifs with hsurfaced
      · simpa [hsurfaced] using sum_slot_le_one (slot handled.elapsed)
      · simp [hsurfaced]
  | dropped => simp [updates, observeRequestStart]

theorem added_responses_le_one (c : StatusClass) :
    added (.responses c) call.updates ≤ 1 := by
  cases call with
  | completes handled =>
      rw [updates, added_responses]
      split_ifs <;> simp
  | dropped => simp [updates, observeRequestStart]

end Call

/-! ## A scrape in the middle of the calls -/

/-- One `render`, some loads of which are still to be made, beside the calls. -/
abbrev Scraping (calls : List (Call B)) := Watched Counter (Fin calls.length) Emit Exposition

def Scraping.start (calls : List (Call B)) : Scraping calls where
  shared := Shared.start fun i => (calls.get i).updates
  todo := renderProgram
  out := {}

section Runs

variable {calls : List (Call B)}

theorem sum_added_lt (hcount : calls.length < 2 ^ 64) {k : Counter}
    (hk : ∀ call : Call B, added k call.updates ≤ 1) :
    ∑ i, added k (calls.get i).updates < 2 ^ 64 := by
  have hsum : ∑ i, added k (calls.get i).updates ≤ ∑ _i : Fin calls.length, 1 :=
    Finset.sum_le_sum fun i _ => hk (calls.get i)
  simp only [Finset.sum_const, Finset.card_univ, Fintype.card_fin, smul_eq_mul,
    mul_one] at hsum
  omega

theorem added_le_sum (updates : List Update) (buckets : Bucket → Counter) (i : Bucket) :
    added (buckets i) updates ≤
      ((List.finRange latencyBuckets.length).map fun i => added (buckets i) updates).sum :=
  List.single_le_sum (fun _ _ => Nat.zero_le _) _
    (List.mem_map_of_mem (f := fun i => added (buckets i) updates) (List.mem_finRange i))

theorem exists_histogram_load (hcount : calls.length < 2 ^ 64)
    {ok : Shared Counter (Fin calls.length) → Emit → Prop} {s : Scraping calls}
    (hrun : Reachable (Watched.step (2 ^ 64) Emit.run) (Watched.Admits ok)
      (Scraping.start calls) s)
    (htodo : s.todo = []) {name : String} {labels : List (String × String)}
    {buckets : Bucket → Counter} {count sum : Counter} {before after : List Emit}
    (hprogram : renderProgram =
      before ++ histogram name labels buckets count sum ++ after)
    (hnodup : ((histogram name labels buckets count sum).filterMap Emit.reads).Nodup)
    (hbuckets : ∀ call : Call B, ((List.finRange latencyBuckets.length).map fun i =>
      added (buckets i) call.updates).sum ≤ 1)
    (hone : ∀ call : Call B, added count call.updates ≤ 1)
    (hpaid : ∀ shared : Shared Counter (Fin calls.length),
      ok shared
        (.value [bucketMetric name labels "+Inf", countMetric name labels] count) →
      ∀ i done, (calls.get i).updates = done ++ shared.pending i →
        ((List.finRange latencyBuckets.length).map fun i => added (buckets i) done).sum ≤
          added count done) :
    ∃ load : Counter → Nat,
      ((List.finRange latencyBuckets.length).map fun i => load (buckets i)).sum ≤
        load count ∧
      load count ≤ u64Max ∧
      ∀ m : Metric, (∀ e ∈ before ++ after, m ∉ e.metrics) →
        shown m s.out.lines =
          shown m (histogramLines load name labels buckets count sum) := by
  obtain ⟨entries, htrace⟩ := Watched.exists_trace hrun
  have hentries : entries.map Prod.fst =
      before ++ histogram name labels buckets count sum ++ after := by
    rw [← hprogram]
    simpa [htodo, Scraping.start] using htrace.todo.symm
  obtain ⟨load, last, hlast, hloadCount, hloadBuckets, hshown⟩ :=
    scrape_histogram Shared.counter hentries htrace.ordered hnodup
  have hbound : ∀ i, ∑ j, added (buckets i) (calls.get j).updates < 2 ^ 64 := fun i =>
    sum_added_lt hcount fun call => (added_le_sum _ _ _).trans (hbuckets call)
  have hstarted : Reachable (Shared.step (2 ^ 64)) (fun _ _ => True)
      (Shared.start fun i => (calls.get i).updates) last := htrace.started _ hlast
  refine ⟨load, ?_, ?_, ?_⟩
  · calc ((List.finRange latencyBuckets.length).map fun i => load (buckets i)).sum
        ≤ ((List.finRange latencyBuckets.length).map fun i =>
            last.counter (buckets i)).sum := by
          apply List.sum_le_sum
          intro i _
          obtain ⟨e, he, hbefore, hload⟩ := hloadBuckets i
          rw [hload]
          exact Shared.counter_mono (htrace.started e he) hbefore (hbound i)
      _ = (((List.finRange latencyBuckets.length).map buckets).map last.counter).sum := by
          rw [List.map_map]
          rfl
      _ ≤ last.counter count := by
          refine Shared.sum_counter_le hstarted ?_ (sum_added_lt hcount hone) ?_
          · intro k hk
            obtain ⟨i, -, rfl⟩ := List.mem_map.mp hk
            exact hbound i
          · intro i done hdone
            rw [List.map_map]
            exact hpaid last (htrace.ok _ hlast) i done hdone
      _ = load count := hloadCount.symm
  · have hlt : last.counter count < 2 ^ 64 :=
      (Shared.reachable_total (by decide) hstarted count).2
    rw [hloadCount, u64Max]
    omega
  · intro m hm
    rw [htrace.out]
    exact hshown m hm

end Runs

/-! ### The global histogram -/

theorem requestsTotal_first (call : Call B) {done pending : List Update}
    (h : call.updates = done ++ pending) :
    ((List.finRange latencyBuckets.length).map fun i =>
      added (.requestDurationBuckets i) done).sum ≤ added .requestsTotal done := by
  cases done with
  | nil => simp
  | cons u done =>
      obtain ⟨rest, hupdates⟩ := call.updates_eq_cons
      obtain ⟨rfl, -⟩ := List.cons.inj (hupdates.symm.trans h)
      have hsum := call.sum_added_bucket_le_one
      have hle : ((List.finRange latencyBuckets.length).map fun i =>
          added (.requestDurationBuckets i) ((Counter.requestsTotal, 1) :: done)).sum ≤
          ((List.finRange latencyBuckets.length).map fun i =>
            added (.requestDurationBuckets i) call.updates).sum := by
        apply List.sum_le_sum
        intro i _
        rw [h, added_append]
        omega
      rw [added_cons, if_pos rfl]
      omega

/--
Whatever moments of the traffic the loads of a scrape fall on: buckets grow
with their bound up to `+Inf`, which is the count.
-/
theorem global_histogram_wellFormed (calls : List (Call B)) (hcount : calls.length < 2 ^ 64)
    (s : Scraping calls)
    (hrun : Reachable (Watched.step (2 ^ 64) Emit.run) (fun _ _ => True)
      (Scraping.start calls) s)
    (htodo : s.todo = []) :
    WellFormed requestDuration [] s.out.lines ∧
      shown (countMetric requestDuration []) s.out.lines =
        shown (bucketMetric requestDuration [] "+Inf") s.out.lines := by
  have hadmits : Reachable (Watched.step (2 ^ 64) Emit.run) (Watched.Admits fun _ _ => True)
      (Scraping.start calls) s :=
    hrun.mono fun s a _ => by cases a <;> simp [Watched.Admits]
  obtain ⟨before, after, hprogram, hsilent⟩ := global_block
  obtain ⟨load, hsum, hcap, hshown⟩ := exists_histogram_load hcount hadmits htodo hprogram
    (by decide) Call.sum_added_bucket_le_one (fun call => call.added_requestsTotal.le)
    fun shared _ i done hdone => requestsTotal_first _ hdone
  obtain ⟨bucket, inf, hbucket, hinf, hgrows⟩ :=
    histogramLines_wellFormed requestDuration [] .requestDurationUsSum hsum hcap
  refine ⟨⟨bucket, inf, fun i => ?_, ?_, hgrows⟩, ?_⟩
  · rw [hshown _ (hsilent _ (.inl rfl)), hbucket]
  · rw [hshown _ (hsilent _ (.inl rfl)), hinf]
  · rw [hshown _ (hsilent _ (.inr rfl)), hshown _ (hsilent _ (.inl rfl)),
      shown_count_histogramLines, shown_inf_histogramLines]

def sampleCalls : List (Call Unit) :=
  [.completes ⟨.ok ⟨200, [], ⟨(), .fromSecs 30, none⟩⟩, .fromMillis 5⟩, .dropped,
    .completes ⟨.error .noRoute, .fromMillis 1⟩]

def sampleShared : Shared Counter (Fin sampleCalls.length) :=
  (execute (Shared.step (2 ^ 64)) (fun _ _ => True) (Scraping.start sampleCalls).shared
    (sampleOrder.take 3 ++ (sampleOrder.drop 4).take 3)).get (by decide)

theorem reachable_sampleShared (ok : Shared Counter (Fin sampleCalls.length) → Emit → Prop)
    (hok : ∀ e ∈ renderProgram, ok sampleShared e) :
    Reachable (Watched.step (2 ^ 64) Emit.run) (Watched.Admits ok) (Scraping.start sampleCalls)
      ⟨sampleShared, [], renderProgram.foldl (Emit.run sampleShared.counter) {}⟩ :=
  (Watched.reachable_tasks _ _
    (Reachable.of_execute Reachable.refl (Option.some_get _).symm)).trans
      (Watched.reachable_reads _ hok)

theorem global_histogram_wellFormed_sample :
    WellFormed requestDuration [] (render sampleShared.counter) ∧
      shown (countMetric requestDuration []) (render sampleShared.counter) =
        shown (bucketMetric requestDuration [] "+Inf") (render sampleShared.counter) :=
  global_histogram_wellFormed sampleCalls (by decide)
    ⟨sampleShared, [], renderProgram.foldl (Emit.run sampleShared.counter) {}⟩
    ((reachable_sampleShared (fun _ _ => True) (by simp)).mono fun _ _ _ => trivial) rfl

theorem exists_scrape_at_rest (calls : List (Call B)) :
    ∃ s : Scraping calls,
      Reachable (Watched.step (2 ^ 64) Emit.run) (fun _ _ => True) (Scraping.start calls) s ∧
      s.todo = [] ∧ s.out.lines = render s.shared.counter ∧
      ∀ k, s.shared.counter k =
        (calls.map fun call => added k call.updates).sum % 2 ^ 64 := by
  obtain ⟨shared, hrun, hrest⟩ :=
    Shared.exists_atRest (2 ^ 64) (Scraping.start calls).shared
  have hreach : Reachable (Watched.step (2 ^ 64) Emit.run) (Watched.Admits fun _ _ => True)
      (Scraping.start calls) ⟨shared, [], renderProgram.foldl (Emit.run shared.counter) {}⟩ :=
    (Watched.reachable_tasks _ _ hrun).trans (Watched.reachable_reads _ (by simp))
  refine ⟨_, hreach.mono fun _ _ _ => trivial, rfl, rfl, fun k => ?_⟩
  rw [← Fin.sum_univ_fun_getElem calls fun call => added k call.updates]
  exact Shared.counter_of_atRest (by decide) hrun hrest k

section Wrapping

def quick : Handled Unit := ⟨.error .noRoute, .fromMillis 1⟩

def slow : Handled Unit := ⟨.error .noRoute, .fromSecs 30⟩

def overflowing (n : Nat) : List (Call Unit) :=
  .completes slow :: List.replicate n (.completes quick)

def firstBucket : Bucket := ⟨0, by decide⟩

theorem slot_quick : slot quick.elapsed = some firstBucket := by decide

theorem quick_le : quick.elapsed.nanos ≤ latencyBuckets[firstBucket].le.nanos := by decide

theorem slot_slow : slot slow.elapsed = none := by decide

theorem sum_added_overflowing (n : Nat) (k : Counter) :
    ((overflowing n).map fun call => added k call.updates).sum =
      added k (proxyOne slow).1 + n * added k (proxyOne quick).1 := by
  simp [overflowing, Call.updates]

theorem shown_overflowing {n : Nat} (hn : n + 1 = 2 ^ 64) {load : Counter → Nat}
    (hload : ∀ k, load k =
      ((overflowing n).map fun call => added k call.updates).sum % 2 ^ 64) :
    shown (bucketMetric requestDuration [] latencyBuckets[firstBucket].label) (render load) =
        [n] ∧
      shown (bucketMetric requestDuration [] "+Inf") (render load) = [0] := by
  have hstored : ∀ i, load (.requestDurationBuckets i) =
      (List.replicate n quick).countP fun r => slot r.elapsed = some i := by
    intro i
    rw [hload, sum_added_overflowing, added_bucket, added_bucket, slot_slow, slot_quick]
    rcases eq_or_ne firstBucket i with rfl | hi
    · have hmod : n % 2 ^ 64 = n := Nat.mod_eq_of_lt (by omega)
      simpa [List.countP_replicate, slot_quick] using hmod
    · simp [List.countP_replicate, slot_quick, hi]
  have htotal : load .requestsTotal = 0 := by
    rw [hload, sum_added_overflowing, added_requestsTotal, added_requestsTotal, Nat.mul_one,
      Nat.add_comm, hn, Nat.mod_self]
  have hlength : (List.replicate n quick).length ≤ u64Max := by
    rw [List.length_replicate, u64Max]
    omega
  rw [shown_global _ (.inl rfl), shown_global _ (.inl rfl), globalLines,
    shown_bucket_histogramLines _ _ _ _ _ _ (cumulate_slots _ _ hstored hlength),
    shown_inf_histogramLines, htotal]
  rw [List.countP_replicate, if_pos (decide_eq_true quick_le)]
  exact ⟨rfl, rfl⟩

theorem global_histogram_not_wellFormed_after_wrap :
    ¬ ∀ (calls : List (Call Unit)) (s : Scraping calls),
      Reachable (Watched.step (2 ^ 64) Emit.run) (fun _ _ => True) (Scraping.start calls) s →
      s.todo = [] →
      WellFormed requestDuration [] s.out.lines ∧
        shown (countMetric requestDuration []) s.out.lines =
          shown (bucketMetric requestDuration [] "+Inf") s.out.lines := by
  intro h
  obtain ⟨n, hn⟩ : ∃ n, n + 1 = 2 ^ 64 := ⟨2 ^ 64 - 1, by decide⟩
  obtain ⟨s, hrun, htodo, hlines, hcounter⟩ := exists_scrape_at_rest (overflowing n)
  obtain ⟨⟨bucket, inf, hbucket, hinf, -, hle⟩, -⟩ := h (overflowing n) s hrun htodo
  obtain ⟨hfirst, hlast⟩ := shown_overflowing hn hcounter
  rw [hlines] at hbucket hinf
  have hbucket : bucket firstBucket = n := by simpa using (hbucket firstBucket).symm.trans hfirst
  have hinf : inf = 0 := by simpa using hinf.symm.trans hlast
  have hbound := hle firstBucket
  omega

end Wrapping

/-! ### The histograms of the classes -/

def Call.Between (call : Call B) (c : StatusClass) (pending : List Update) : Prop :=
  (∃ i, .classBuckets c i ∈ call.updates.map Prod.fst ∧
    .classBuckets c i ∉ pending.map Prod.fst) ∧
  .responses c ∈ pending.map Prod.fst

instance (call : Call B) (c : StatusClass) (pending : List Update) :
    Decidable (call.Between c pending) :=
  inferInstanceAs (Decidable (_ ∧ _))

def loadClassCount (c : StatusClass) : Emit :=
  .value [bucketMetric requestDurationByClass [("class", c.label)] "+Inf",
    countMetric requestDurationByClass [("class", c.label)]] (.responses c)

/-- The responses of a class are loaded while no call stands between the two additions. -/
def Undisturbed (calls : List (Call B)) (shared : Shared Counter (Fin calls.length))
    (e : Emit) : Prop :=
  ∀ c, e = loadClassCount c → ∀ i, ¬ (calls.get i).Between c (shared.pending i)

theorem Call.updates_nodup (call : Call B) : (call.updates.map Prod.fst).Nodup := by
  cases call with
  | dropped => simp [updates, observeRequestStart]
  | completes handled =>
      obtain ⟨outcome, hmem, hconclude⟩ := conclude_updates handled.result
      simp only [updates, proxyOne, hconclude, observeRequestDuration, observeStatus,
        observeRequestStart, bump_bucketIndex]
      simp only [List.mem_cons, List.not_mem_nil, or_false] at hmem
      rcases hmem with rfl | rfl | rfl | rfl <;> cases classIndex _ <;> cases slot _ <;>
        simp [observeNoRoute, observeUpstreamUnknown, observeUpstreamFailed]

theorem responses_paid (call : Call B) {c : StatusClass} {done pending : List Update}
    (h : call.updates = done ++ pending) (hnot : ¬ call.Between c pending) :
    ((List.finRange latencyBuckets.length).map fun i =>
      added (.classBuckets c i) done).sum ≤ added (.responses c) done := by
  by_cases hresponses : .responses c ∈ pending.map Prod.fst
  · -- The response is still to come, so the bucket is as well.
    have hnodup := call.updates_nodup
    rw [h, List.map_append] at hnodup
    have hnone : ∀ i, added (.classBuckets c i) done = 0 := by
      intro i
      refine added_eq_zero fun hdone => hnot ⟨⟨i, ?_, ?_⟩, hresponses⟩
      · rw [h, List.map_append]
        exact List.mem_append_left _ hdone
      · exact fun hpending => List.disjoint_of_nodup_append hnodup hdone hpending
    simp [hnone]
  · have hpending := added_eq_zero hresponses
    have hsum := call.sum_added_classBucket_le c
    simp only [h, added_append, hpending, Nat.add_zero] at hsum
    refine (List.sum_le_sum fun i _ => ?_).trans hsum
    exact Nat.le_add_right _ _

/--
The histogram of each class is in order when its count is never loaded between
the two additions of a call.
-/
theorem class_histograms_wellFormed (calls : List (Call B)) (hcount : calls.length < 2 ^ 64)
    (s : Scraping calls)
    (hrun : Reachable (Watched.step (2 ^ 64) Emit.run) (Watched.Admits (Undisturbed calls))
      (Scraping.start calls) s)
    (htodo : s.todo = []) (c : StatusClass) :
    WellFormed requestDurationByClass [("class", c.label)] s.out.lines := by
  obtain ⟨before, after, hprogram, hsilent⟩ := class_block c
  have hone : ∀ call : Call B, ((List.finRange latencyBuckets.length).map fun i =>
      added (.classBuckets c i) call.updates).sum ≤ 1 := fun call =>
    (call.sum_added_classBucket_le c).trans (call.added_responses_le_one c)
  obtain ⟨load, hsum, hcap, hshown⟩ := exists_histogram_load hcount hrun htodo hprogram
    (by cases c <;> decide) hone (fun call => call.added_responses_le_one c)
    fun shared hok i done hdone => responses_paid _ hdone (hok c rfl i)
  obtain ⟨bucket, inf, hbucket, hinf, hgrows⟩ :=
    histogramLines_wellFormed requestDurationByClass [("class", c.label)] (.classSumUs c) hsum
      hcap
  refine ⟨bucket, inf, fun i => ?_, ?_, hgrows⟩
  · rw [hshown _ (hsilent _ rfl rfl), hbucket]
  · rw [hshown _ (hsilent _ rfl rfl), hinf]

theorem class_histograms_wellFormed_sample :
    WellFormed requestDurationByClass [("class", "2xx")] (render sampleShared.counter) := by
  refine class_histograms_wellFormed sampleCalls (by decide)
    ⟨sampleShared, [], renderProgram.foldl (Emit.run sampleShared.counter) {}⟩
    (reachable_sampleShared _ ?_) rfl .success
  intro e _ c _ i
  revert i
  cases c <;> decide

def caught : Shared Counter (Fin 1) :=
  (execute (Shared.step (2 ^ 64)) (fun _ _ => True)
    (Scraping.start [Call.completes quick]).shared [0, 0, 0, 0]).get (by decide)

theorem shown_caught :
    shown (bucketMetric requestDurationByClass [("class", "4xx")]
        latencyBuckets[firstBucket].label) (render caught.counter) = [1] ∧
      shown (bucketMetric requestDurationByClass [("class", "4xx")] "+Inf")
        (render caught.counter) = [0] := by
  have hstored : ∀ i, caught.counter (.classBuckets .clientError i) =
      [quick].countP fun r => slot r.elapsed = some i := by decide
  rw [shown_class (c := .clientError) _ (.inl rfl) rfl,
    shown_class (c := .clientError) _ (.inl rfl) rfl]
  constructor
  · exact shown_bucket_histogramLines _ _ _ _ _ _ (cumulate_slots _ _ hstored (by decide)) _
  · exact shown_inf_histogramLines _ _ _ _ _ _

theorem class_histogram_not_wellFormed_between :
    ¬ ∀ (calls : List (Call Unit)) (s : Scraping calls),
      Reachable (Watched.step (2 ^ 64) Emit.run) (fun _ _ => True) (Scraping.start calls) s →
      s.todo = [] →
      ∀ c : StatusClass,
        WellFormed requestDurationByClass [("class", c.label)] s.out.lines := by
  intro h
  have hcaught : Reachable (Watched.step (2 ^ 64) Emit.run) (Watched.Admits fun _ _ => True)
      (Scraping.start [Call.completes quick])
      ⟨caught, [], renderProgram.foldl (Emit.run caught.counter) {}⟩ :=
    (Watched.reachable_tasks _ _
      (Reachable.of_execute Reachable.refl (Option.some_get _).symm)).trans
        (Watched.reachable_reads _ (by simp))
  obtain ⟨bucket, inf, hbucket, hinf, -, hle⟩ :=
    h _ _ (hcaught.mono fun _ _ _ => trivial) rfl .clientError
  obtain ⟨hfirst, hlast⟩ := shown_caught
  have hbucket : bucket firstBucket = 1 := by
    simpa using (hbucket firstBucket).symm.trans hfirst
  have hinf : inf = 0 := by simpa using hinf.symm.trans hlast
  have hbound := hle firstBucket
  omega

/-! ## Observations and the count -/

section Drift

variable {calls : List (Call B)}

def Quiet (s : Shared Counter (Fin calls.length)) : Prop :=
  ∀ i, s.pending i = (calls.get i).updates ∨ s.pending i = []

def finished (s : Shared Counter (Fin calls.length)) : List (Call B) :=
  ((List.finRange calls.length).filter fun i => s.pending i = []).map calls.get

def Call.isDropped : Call B → Bool
  | .completes _ => false
  | .dropped => true

theorem observations_add_dropped (calls : List (Call B)) :
    (calls.map Call.observations).sum + calls.countP Call.isDropped = calls.length := by
  induction calls with
  | nil => rfl
  | cons call rest ih =>
      rw [List.map_cons, List.sum_cons, List.countP_cons, List.length_cons]
      cases call <;> simp [Call.observations, Call.isDropped] <;> omega

theorem requestsTotal_eq_finished {s : Shared Counter (Fin calls.length)}
    (hrun : Reachable (Shared.step (2 ^ 64)) (fun _ _ => True)
      (Shared.start fun i => (calls.get i).updates) s)
    (hquiet : Quiet s) :
    s.counter .requestsTotal = (finished s).length % 2 ^ 64 := by
  obtain ⟨htotal, hlt⟩ := Shared.reachable_total (by decide) hrun .requestsTotal
  have hsum : ∑ i, added .requestsTotal (s.pending i) + (finished s).length =
      ∑ i, added .requestsTotal (calls.get i).updates := by
    have hlength : (finished s).length = ∑ i, if s.pending i = [] then 1 else 0 := by
      rw [finished, List.length_map, ← List.countP_eq_length_filter, ← sum_indicator,
        ← Fin.sum_univ_def]
      simp
    rw [hlength, ← Finset.sum_add_distrib]
    apply Finset.sum_congr rfl
    intro i _
    rcases hquiet i with hpending | hpending
    · obtain ⟨rest, hupdates⟩ := (calls.get i).updates_eq_cons
      rw [hpending, hupdates, if_neg (List.cons_ne_nil _ _), Nat.add_zero]
    · rw [hpending, if_pos rfl, (calls.get i).added_requestsTotal, added_nil, Nat.zero_add]
  have hmod : s.counter .requestsTotal ≡ (finished s).length [MOD 2 ^ 64] := by
    apply Nat.ModEq.add_right_cancel' (∑ i, added .requestsTotal (s.pending i))
    rw [Nat.add_comm (finished s).length, hsum]
    simpa [Shared.total, Shared.start] using htotal
  rw [← hmod, Nat.mod_eq_of_lt hlt]

theorem shown_global_count (load : Counter → Nat) :
    shown (countMetric requestDuration []) (render load) = [load .requestsTotal] ∧
      shown (bucketMetric requestDuration [] "+Inf") (render load) =
        [load .requestsTotal] := by
  rw [shown_global _ (.inr rfl), shown_global _ (.inl rfl)]
  exact ⟨shown_count_histogramLines _ _ _ _ _ _, shown_inf_histogramLines _ _ _ _ _ _⟩

/--
With no call in flight the count is the number of observations exactly when as
many calls were dropped as the counter has lost by wrapping: none, below `2 ^ 64`
calls.
-/
theorem count_eq_observations_iff (calls : List (Call B))
    (s : Shared Counter (Fin calls.length))
    (hrun : Reachable (Shared.step (2 ^ 64)) (fun _ _ => True)
      (Shared.start fun i => (calls.get i).updates) s)
    (hquiet : Quiet s) :
    (shown (countMetric requestDuration []) (render s.counter) =
        [((finished s).map Call.observations).sum] ∧
      shown (bucketMetric requestDuration [] "+Inf") (render s.counter) =
        [((finished s).map Call.observations).sum]) ↔
      (finished s).countP Call.isDropped = 2 ^ 64 * ((finished s).length / 2 ^ 64) := by
  obtain ⟨hcount, hinf⟩ := shown_global_count s.counter
  have hsplit := observations_add_dropped (finished s)
  have hdiv := Nat.div_add_mod (finished s).length (2 ^ 64)
  rw [hcount, hinf, requestsTotal_eq_finished hrun hquiet, and_self]
  simp only [List.cons.injEq, and_true]
  omega

end Drift

theorem count_eq_observations_iff_sample :
    let calls : List (Call Unit) := [.completes quick, .dropped]
    let s := (execute (Shared.step (2 ^ 64)) (fun _ _ => True) (Scraping.start calls).shared
      (List.replicate 7 ⟨0, by decide⟩)).get (by decide)
    shown (countMetric requestDuration []) (render s.counter) = [1] ∧
      shown (bucketMetric requestDuration [] "+Inf") (render s.counter) = [1] := by
  intro calls s
  have hrun : Reachable (Shared.step (2 ^ 64)) (fun _ _ => True)
      (Shared.start fun i => (calls.get i).updates) s :=
    Reachable.of_execute Reachable.refl (Option.some_get _).symm
  have hquiet : Quiet s := by
    intro i
    revert i
    decide
  exact (count_eq_observations_iff calls s hrun hquiet).mpr (by decide)

theorem count_drifts_when_dropped :
    ¬ ∀ (calls : List (Call Unit)) (s : Shared Counter (Fin calls.length)),
      Reachable (Shared.step (2 ^ 64)) (fun _ _ => True)
        (Shared.start fun i => (calls.get i).updates) s →
      Quiet s →
      shown (countMetric requestDuration []) (render s.counter) =
          [((finished s).map Call.observations).sum] ∧
        shown (bucketMetric requestDuration [] "+Inf") (render s.counter) =
          [((finished s).map Call.observations).sum] := by
  intro h
  let s := (execute (Shared.step (2 ^ 64)) (fun _ _ => True)
    (Scraping.start ([.dropped] : List (Call Unit))).shared [⟨0, by decide⟩]).get (by decide)
  obtain ⟨hcount, -⟩ := h [.dropped] s
    (Reachable.of_execute Reachable.refl (Option.some_get _).symm) (by
      intro i
      revert i
      decide)
  rw [(shown_global_count _).1] at hcount
  exact absurd hcount (by decide)

end Proxy

end Conduit
