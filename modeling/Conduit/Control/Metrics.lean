import Conduit.Foundation.Counters
import Conduit.Platform
import Mathlib.Data.List.FinRange

/-!
# Metrics

`MetricsHandle` is a family of 64-bit counters that every request adds to.  An
observation is the list of its `fetch_add`s; `render` is the list of its loads
and of the lines it writes.  Buckets are stored one count each and summed up
while they are written.
-/

namespace Conduit

open Foundation

namespace Metrics

/-! ## Counters -/

inductive StatusClass where
  | success
  | redirection
  | clientError
  | serverError
  deriving DecidableEq, Repr

def StatusClass.label : StatusClass → String
  | .success => "2xx"
  | .redirection => "3xx"
  | .clientError => "4xx"
  | .serverError => "5xx"

def statusClasses : List StatusClass :=
  [.success, .redirection, .clientError, .serverError]

def classIndex (status : UInt16) : Option StatusClass :=
  match status.toNat / 100 with
  | 2 => some .success
  | 3 => some .redirection
  | 4 => some .clientError
  | 5 => some .serverError
  | _ => none

structure LatencyBound where
  label : String
  le : Duration
  deriving DecidableEq, Repr

def latencyBuckets : List LatencyBound :=
  [⟨"0.001", .fromMillis 1⟩, ⟨"0.005", .fromMillis 5⟩, ⟨"0.01", .fromMillis 10⟩,
    ⟨"0.025", .fromMillis 25⟩, ⟨"0.05", .fromMillis 50⟩, ⟨"0.1", .fromMillis 100⟩,
    ⟨"0.25", .fromMillis 250⟩, ⟨"0.5", .fromMillis 500⟩, ⟨"1", .fromMillis 1000⟩,
    ⟨"2.5", .fromMillis 2500⟩, ⟨"5", .fromMillis 5000⟩, ⟨"10", .fromMillis 10000⟩]

abbrev Bucket := Fin latencyBuckets.length

inductive Counter where
  | requestsTotal
  | requestsNoRoute
  | requestsUpstreamUnknown
  | requestsUpstreamFailed
  | responses (c : StatusClass)
  | requestDurationUsSum
  | requestDurationBuckets (i : Bucket)
  | classSumUs (c : StatusClass)
  | classBuckets (c : StatusClass) (i : Bucket)
  deriving DecidableEq, Repr

/-! ## Observations -/

abbrev Update := Counter × Nat

def observeRequestStart : List Update := [(.requestsTotal, 1)]

def observeNoRoute : List Update := [(.requestsNoRoute, 1)]

def observeUpstreamUnknown : List Update := [(.requestsUpstreamUnknown, 1)]

def observeUpstreamFailed : List Update := [(.requestsUpstreamFailed, 1)]

def bucketIndex (elapsed : Duration) : Nat :=
  latencyBuckets.findIdx fun bound => elapsed.nanos ≤ bound.le.nanos

def bump (counters : Bucket → Counter) (bucket : Nat) : List Update :=
  if h : bucket < latencyBuckets.length then [(counters ⟨bucket, h⟩, 1)] else []

def slot (elapsed : Duration) : Option Bucket :=
  if h : bucketIndex elapsed < latencyBuckets.length then
    some ⟨bucketIndex elapsed, h⟩
  else none

def observeRequestDuration (elapsed : Duration) (status : UInt16) : List Update :=
  let us := min elapsed.asMicros u64Max
  let bucket := bucketIndex elapsed
  bump .requestDurationBuckets bucket ++ (.requestDurationUsSum, us) ::
    match classIndex status with
    | some c => bump (.classBuckets c) bucket ++ [(.classSumUs c, us)]
    | none => []

def observeStatus (status : UInt16) : List Update :=
  match classIndex status with
  | some c => [(.responses c, 1)]
  | none => []

section Added

variable (elapsed : Duration) (status : UInt16)

theorem bump_bucketIndex (counters : Bucket → Counter) :
    bump counters (bucketIndex elapsed) =
      (slot elapsed).toList.map fun i => (counters i, 1) := by
  unfold bump slot
  split <;> rfl

theorem added_bump (counters : Bucket → Counter) (h : Function.Injective counters)
    (i : Bucket) :
    added (counters i) (bump counters (bucketIndex elapsed)) =
      if slot elapsed = some i then 1 else 0 := by
  rw [bump_bucketIndex]
  cases slot elapsed with
  | none => simp
  | some j => simp [h.eq_iff]

theorem added_bump_of_ne {counters : Bucket → Counter} {k : Counter}
    (h : ∀ i, counters i ≠ k) :
    added k (bump counters (bucketIndex elapsed)) = 0 := by
  rw [bump_bucketIndex]
  cases slot elapsed with
  | none => simp
  | some j => simp [h]

theorem added_duration_bucket (i : Bucket) :
    added (.requestDurationBuckets i) (observeRequestDuration elapsed status) =
      if slot elapsed = some i then 1 else 0 := by
  have hglobal := added_bump elapsed .requestDurationBuckets
    (fun _ _ h => by simpa using h) i
  have hclass : ∀ c, added (.requestDurationBuckets i)
      (bump (.classBuckets c) (bucketIndex elapsed)) = 0 := fun c =>
    added_bump_of_ne elapsed (by simp)
  unfold observeRequestDuration
  cases classIndex status <;> simp [hglobal, hclass]

theorem added_duration_classBucket (c : StatusClass) (i : Bucket) :
    added (.classBuckets c i) (observeRequestDuration elapsed status) =
      if classIndex status = some c ∧ slot elapsed = some i then 1 else 0 := by
  have hglobal : added (.classBuckets c i)
      (bump .requestDurationBuckets (bucketIndex elapsed)) = 0 :=
    added_bump_of_ne elapsed (by simp)
  have hclass := added_bump elapsed (.classBuckets c)
    (fun _ _ h => by simpa using h) i
  unfold observeRequestDuration
  cases classIndex status with
  | none => simp [hglobal]
  | some c' =>
      rcases eq_or_ne c' c with rfl | hne
      · simp [hglobal, hclass]
      · have hother : added (.classBuckets c i)
            (bump (.classBuckets c') (bucketIndex elapsed)) = 0 :=
          added_bump_of_ne elapsed (by simp [hne])
        simp [hglobal, hother, hne]

theorem added_duration_of_ne {k : Counter} (hglobal : ∀ i, .requestDurationBuckets i ≠ k)
    (hsum : .requestDurationUsSum ≠ k) (hclass : ∀ c i, .classBuckets c i ≠ k)
    (hclassSum : ∀ c, .classSumUs c ≠ k) :
    added k (observeRequestDuration elapsed status) = 0 := by
  unfold observeRequestDuration
  cases classIndex status <;>
    simp [added_bump_of_ne elapsed hglobal, added_bump_of_ne elapsed (hclass _), hsum,
      hclassSum]

theorem added_status (c : StatusClass) :
    added (.responses c) (observeStatus status) =
      if classIndex status = some c then 1 else 0 := by
  unfold observeStatus
  cases classIndex status <;> simp

theorem added_status_of_ne {k : Counter} (h : ∀ c, .responses c ≠ k) :
    added k (observeStatus status) = 0 := by
  unfold observeStatus
  cases classIndex status <;> simp [h]

end Added

/-! ## Exposition -/

structure Metric where
  name : String
  labels : List (String × String) := []
  deriving DecidableEq, Repr

def Metric.text (m : Metric) : String :=
  match m.labels with
  | [] => m.name
  | labels =>
      m.name ++ "\x7b" ++
        ",".intercalate (labels.map fun l => l.1 ++ "=\"" ++ l.2 ++ "\"") ++ "\x7d"

inductive Line where
  | comment (text : String)
  | value (metric : Metric) (n : Nat)
  | seconds (metric : Metric) (micros : Nat)
  deriving DecidableEq, Repr

/-- A line as it is written; `seconds` prints microseconds as an `f64` of seconds. -/
def Line.text (seconds : Nat → String) : Line → String
  | .comment text => text ++ "\n"
  | .value metric n => metric.text ++ " " ++ toString n ++ "\n"
  | .seconds metric micros => metric.text ++ " " ++ seconds micros ++ "\n"

example : (Line.value ⟨"conduit_responses_total", [("class", "2xx")]⟩ 2).text toString =
    "conduit_responses_total\x7bclass=\"2xx\"\x7d 2\n" := by decide

/-- One move of `render`: at most one load, and the lines it is written to. -/
inductive Emit where
  | comment (text : String)
  | value (metrics : List Metric) (counter : Counter)
  | reset
  | bucket (metric : Metric) (counter : Counter)
  | seconds (metric : Metric) (counter : Counter)

structure Exposition where
  cumulative : Nat := 0
  lines : List Line := []

def Emit.run (load : Counter → Nat) (s : Exposition) : Emit → Exposition
  | .comment text => { s with lines := s.lines ++ [.comment text] }
  | .value metrics counter =>
      { s with lines := s.lines ++ metrics.map fun m => .value m (load counter) }
  | .reset => { s with cumulative := 0 }
  | .bucket metric counter =>
      let cumulative := min (s.cumulative + load counter) u64Max
      ⟨cumulative, s.lines ++ [.value metric cumulative]⟩
  | .seconds metric counter =>
      { s with lines := s.lines ++ [.seconds metric (load counter)] }

section Histogram

variable (name : String) (labels : List (String × String))

def bucketMetric (le : String) : Metric :=
  ⟨name ++ "_bucket", labels ++ [("le", le)]⟩

def countMetric : Metric := ⟨name ++ "_count", labels⟩

def sumMetric : Metric := ⟨name ++ "_sum", labels⟩

variable (buckets : Bucket → Counter) (count sum : Counter)

def histogram : List Emit :=
  Emit.reset ::
    (List.finRange latencyBuckets.length).map (fun i =>
      Emit.bucket (bucketMetric name labels latencyBuckets[i].label) (buckets i)) ++
    [Emit.value [bucketMetric name labels "+Inf", countMetric name labels] count,
      Emit.seconds (sumMetric name labels) sum]

end Histogram

def responsesTotal (c : StatusClass) : Metric :=
  ⟨"conduit_responses_total", [("class", c.label)]⟩

def announce (name help kind : String) : List Emit :=
  [.comment ("# HELP " ++ name ++ " " ++ help),
    .comment ("# TYPE " ++ name ++ " " ++ kind)]

def plainCounter (name help : String) (counter : Counter) : List Emit :=
  announce name help "counter" ++ [.value [⟨name, []⟩] counter]

def summary : List Emit :=
  plainCounter "conduit_requests_total"
    "Total requests observed by the data plane." .requestsTotal ++
  plainCounter "conduit_requests_no_route_total"
    "Requests that did not match any route." .requestsNoRoute ++
  plainCounter "conduit_requests_upstream_unknown_total"
    "Routes referencing an unregistered upstream." .requestsUpstreamUnknown ++
  plainCounter "conduit_requests_upstream_failed_total"
    "Upstream forward failures." .requestsUpstreamFailed ++
  announce "conduit_responses_total" "Responses by status class." "counter" ++
  statusClasses.map fun c => .value [responsesTotal c] (.responses c)

def requestDuration : String := "conduit_request_duration_seconds"

def requestDurationByClass : String := "conduit_request_duration_seconds_by_class"

def classHistogram (c : StatusClass) : List Emit :=
  histogram requestDurationByClass [("class", c.label)] (.classBuckets c)
    (.responses c) (.classSumUs c)

def renderProgram : List Emit :=
  summary ++
  announce requestDuration "Wall-clock latency of proxied requests." "histogram" ++
  histogram requestDuration [] .requestDurationBuckets .requestsTotal
    .requestDurationUsSum ++
  announce requestDurationByClass "Latency split by status class." "histogram" ++
  statusClasses.flatMap classHistogram

/-- The lines of a scrape that finds the counters as `load` gives them. -/
def render (load : Counter → Nat) : List Line :=
  (renderProgram.foldl (Emit.run load) {}).lines

def shown (m : Metric) (lines : List Line) : List Nat :=
  lines.filterMap fun
    | .value m' n => if m' = m then some n else none
    | _ => none

section Shown

variable (m m' : Metric) (n : Nat) (text : String) (lines lines' : List Line)

@[simp] theorem shown_nil : shown m [] = [] := rfl

@[simp] theorem shown_append :
    shown m (lines ++ lines') = shown m lines ++ shown m lines' := by
  simp [shown]

@[simp] theorem shown_comment :
    shown m (.comment text :: lines) = shown m lines := rfl

@[simp] theorem shown_seconds :
    shown m (.seconds m' n :: lines) = shown m lines := rfl

@[simp] theorem shown_value :
    shown m (.value m' n :: lines) =
      if m' = m then n :: shown m lines else shown m lines := by
  unfold shown
  split_ifs with h <;> simp [h]

theorem shown_map_eq_nil {ι : Type*} {entries : List ι} {metric : ι → Metric}
    (f : ι → Nat) (h : ∀ i ∈ entries, metric i ≠ m) :
    shown m (entries.map fun i => .value (metric i) (f i)) = [] := by
  simpa [shown] using h

theorem shown_map_eq_singleton {ι : Type*} {entries : List ι} {metric : ι → Metric}
    (f : ι → Nat) (hnodup : entries.Nodup) (hmetric : Function.Injective metric)
    {i : ι} (hi : i ∈ entries) :
    shown (metric i) (entries.map fun j => .value (metric j) (f j)) = [f i] := by
  induction entries with
  | nil => cases hi
  | cons j rest ih =>
      obtain ⟨hj, hrest⟩ := List.nodup_cons.mp hnodup
      rw [List.map_cons, shown_value]
      rcases List.mem_cons.mp hi with rfl | hi
      · have hothers : ∀ j ∈ rest, metric j ≠ metric i :=
          fun j hmem heq => hj (hmetric heq ▸ hmem)
        rw [if_pos rfl, shown_map_eq_nil _ _ hothers]
      · have hne : metric j ≠ metric i := fun heq => hj (hmetric heq ▸ hi)
        rw [if_neg hne, ih hrest hi]

end Shown

/-! ## The lines of a scrape -/

section Scrape

variable (load : Counter → Nat)

theorem lines_foldl_bucket (metric : Bucket → Metric) (buckets : Bucket → Counter)
    (slots : List Bucket) (s : Exposition) :
    ((slots.map fun i => Emit.bucket (metric i) (buckets i)).foldl (Emit.run load) s).lines =
      s.lines ++ (cumulate u64Max (fun i => load (buckets i)) s.cumulative slots).map
        fun entry => Line.value (metric entry.1) entry.2 := by
  induction slots generalizing s with
  | nil => simp [cumulate]
  | cons i rest ih => simp [cumulate, Emit.run, ih]

variable (name : String) (labels : List (String × String))
  (buckets : Bucket → Counter) (count sum : Counter)

def histogramLines : List Line :=
  (cumulate u64Max (fun i => load (buckets i)) 0
      (List.finRange latencyBuckets.length)).map (fun entry =>
        Line.value (bucketMetric name labels latencyBuckets[entry.1].label) entry.2) ++
    [Line.value (bucketMetric name labels "+Inf") (load count),
      Line.value (countMetric name labels) (load count),
      Line.seconds (sumMetric name labels) (load sum)]

theorem lines_foldl_histogram (s : Exposition) :
    ((histogram name labels buckets count sum).foldl (Emit.run load) s).lines =
      s.lines ++ histogramLines load name labels buckets count sum := by
  simp [histogram, histogramLines, Emit.run, lines_foldl_bucket]

section Render

theorem bucketMetric_injective :
    Function.Injective fun i : Bucket =>
      bucketMetric name labels latencyBuckets[i].label := by
  have hlabel : ∀ i j : Bucket,
      latencyBuckets[i].label = latencyBuckets[j].label → i = j := by decide
  intro i j h
  exact hlabel i j (by simpa [bucketMetric] using h)

theorem bucketMetric_ne_inf (i : Bucket) :
    bucketMetric name labels latencyBuckets[i].label ≠ bucketMetric name labels "+Inf" := by
  have hlabel : ∀ i : Bucket, latencyBuckets[i].label ≠ "+Inf" := by decide
  intro h
  exact hlabel i (by simpa [bucketMetric] using h)

theorem bucketMetric_ne_count (le : String) :
    bucketMetric name labels le ≠ countMetric name labels := by
  simp [bucketMetric, countMetric]

theorem shown_histogramLines_eq_nil {m : Metric}
    (h : (m.name ≠ name ++ "_bucket" ∧ m.name ≠ name ++ "_count") ∨
      m.labels.take labels.length ≠ labels) :
    shown m (histogramLines load name labels buckets count sum) = [] := by
  have hbucket : ∀ le, bucketMetric name labels le ≠ m := by
    rintro le rfl
    simp [bucketMetric] at h
  have hcount : countMetric name labels ≠ m := by
    rintro rfl
    simp [countMetric] at h
  rw [histogramLines, shown_append, shown_map_eq_nil _ _ fun _ _ => hbucket _]
  simp [hbucket, hcount]

theorem shown_inf_histogramLines :
    shown (bucketMetric name labels "+Inf")
      (histogramLines load name labels buckets count sum) = [load count] := by
  rw [histogramLines, shown_append,
    shown_map_eq_nil _ _ fun _ _ => bucketMetric_ne_inf name labels _]
  simp [(bucketMetric_ne_count name labels "+Inf").symm]

theorem shown_count_histogramLines :
    shown (countMetric name labels)
      (histogramLines load name labels buckets count sum) = [load count] := by
  rw [histogramLines, shown_append,
    shown_map_eq_nil _ _ fun _ _ => bucketMetric_ne_count name labels _]
  simp [bucketMetric_ne_count name labels "+Inf"]

theorem exists_slot_le_iff (elapsed : Duration) (i : Bucket) :
    (∃ j, j ≤ i ∧ slot elapsed = some j) ↔
      elapsed.nanos ≤ latencyBuckets[i].le.nanos := by
  have hsorted : latencyBuckets.Pairwise fun a b => a.le.nanos ≤ b.le.nanos := by decide
  have hscan : bucketIndex elapsed ≤ i ↔ elapsed.nanos ≤ latencyBuckets[i].le.nanos := by
    have hmono := hsorted.imp (S := fun a b =>
      decide (elapsed.nanos ≤ a.le.nanos) → decide (elapsed.nanos ≤ b.le.nanos)) (by
        intro a b hab ha
        simp only [decide_eq_true_eq] at ha ⊢
        omega)
    simpa [bucketIndex] using findIdx_le_iff hmono i.isLt
  rw [← hscan]
  constructor
  · rintro ⟨j, hj, hslot⟩
    unfold slot at hslot
    split at hslot
    · cases hslot
      exact hj
    · cases hslot
  · intro hle
    have hlt : bucketIndex elapsed < latencyBuckets.length := Nat.lt_of_le_of_lt hle i.isLt
    exact ⟨⟨bucketIndex elapsed, hlt⟩, hle, by simp [slot, hlt]⟩

theorem shown_bucket_histogramLines {value : Bucket → Nat}
    (hcumulative : cumulate u64Max (fun i => load (buckets i)) 0
      (List.finRange latencyBuckets.length) =
      (List.finRange latencyBuckets.length).map fun i => (i, value i)) (i : Bucket) :
    shown (bucketMetric name labels latencyBuckets[i].label)
      (histogramLines load name labels buckets count sum) = [value i] := by
  rw [histogramLines, hcumulative, List.map_map, shown_append]
  have hbuckets := shown_map_eq_singleton value
    (List.nodup_finRange latencyBuckets.length) (bucketMetric_injective name labels)
    (List.mem_finRange i)
  simp only [Function.comp_def, hbuckets]
  rw [shown_value, if_neg (bucketMetric_ne_inf name labels i).symm, shown_value,
    if_neg (bucketMetric_ne_count name labels _).symm]
  simp

theorem cumulate_slots {α : Type*} {xs : List α} {elapsed : α → Duration}
    (hload : ∀ i, load (buckets i) = xs.countP fun x => slot (elapsed x) = some i)
    (hlen : xs.length ≤ u64Max) :
    cumulate u64Max (fun i => load (buckets i)) 0 (List.finRange latencyBuckets.length) =
      (List.finRange latencyBuckets.length).map fun i =>
        (i, xs.countP fun x => (elapsed x).nanos ≤ latencyBuckets[i].le.nanos) := by
  simp only [hload]
  rw [cumulate_countP (List.pairwise_lt_finRange _) _ hlen]
  simp [exists_slot_le_iff]

end Render

end Scrape

section Families

variable (load : Counter → Nat)

def globalLines : List Line :=
  histogramLines load requestDuration [] .requestDurationBuckets .requestsTotal
    .requestDurationUsSum

def classLines (c : StatusClass) : List Line :=
  histogramLines load requestDurationByClass [("class", c.label)] (.classBuckets c)
    (.responses c) (.classSumUs c)

section Pieces

variable (m : Metric) (s : Exposition)

theorem shown_foldl_announce (name help kind : String) :
    shown m (((announce name help kind).foldl (Emit.run load) s).lines) =
      shown m s.lines := by
  simp [announce, Emit.run]

theorem shown_foldl_plainCounter (name help : String) (k : Counter) :
    shown m (((plainCounter name help k).foldl (Emit.run load) s).lines) =
      shown m s.lines ++ if ⟨name, []⟩ = m then [load k] else [] := by
  rw [plainCounter, List.foldl_append]
  simp [Emit.run, shown_foldl_announce]

theorem shown_foldl_responses (classes : List StatusClass) :
    shown m (((classes.map fun c => Emit.value [responsesTotal c] (.responses c)).foldl
        (Emit.run load) s).lines) =
      shown m s.lines ++
        shown m (classes.map fun c => .value (responsesTotal c) (load (.responses c))) := by
  induction classes generalizing s with
  | nil => simp
  | cons c rest ih =>
      rw [List.map_cons, List.foldl_cons, ih]
      simp only [Emit.run, List.map_cons, List.map_nil, shown_append, shown_value, shown_nil]
      split_ifs <;> simp

theorem shown_foldl_classHistogram (classes : List StatusClass) :
    shown m (((classes.flatMap classHistogram).foldl (Emit.run load) s).lines) =
      shown m s.lines ++ classes.flatMap fun c => shown m (classLines load c) := by
  induction classes generalizing s with
  | nil => simp
  | cons c rest ih =>
      rw [List.flatMap_cons, List.foldl_append, ih, classHistogram, lines_foldl_histogram,
        shown_append, List.append_assoc]
      rfl

end Pieces

theorem shown_render (m : Metric) :
    shown m (render load) =
      shown m ((summary.foldl (Emit.run load) {}).lines) ++
        shown m (globalLines load) ++
          statusClasses.flatMap fun c => shown m (classLines load c) := by
  simp only [render, renderProgram, List.foldl_append]
  rw [shown_foldl_classHistogram, shown_foldl_announce, lines_foldl_histogram, shown_append,
    shown_foldl_announce]
  rfl

theorem shown_summary (m : Metric) :
    shown m ((summary.foldl (Emit.run load) {}).lines) =
      (if ⟨"conduit_requests_total", []⟩ = m then [load .requestsTotal] else []) ++
      (if ⟨"conduit_requests_no_route_total", []⟩ = m then [load .requestsNoRoute]
        else []) ++
      (if ⟨"conduit_requests_upstream_unknown_total", []⟩ = m then
        [load .requestsUpstreamUnknown] else []) ++
      (if ⟨"conduit_requests_upstream_failed_total", []⟩ = m then
        [load .requestsUpstreamFailed] else []) ++
      shown m (statusClasses.map fun c => .value (responsesTotal c) (load (.responses c))) := by
  simp only [summary, List.foldl_append]
  rw [shown_foldl_responses, shown_foldl_announce, shown_foldl_plainCounter,
    shown_foldl_plainCounter, shown_foldl_plainCounter, shown_foldl_plainCounter]
  rfl

theorem shown_summary_eq_nil {m : Metric}
    (h : m.name ∈ [requestDuration ++ "_bucket", requestDuration ++ "_count",
      requestDurationByClass ++ "_bucket", requestDurationByClass ++ "_count"]) :
    shown m ((summary.foldl (Emit.run load) {}).lines) = [] := by
  obtain ⟨name, labels⟩ := m
  rw [shown_summary]
  simp only [List.mem_cons, List.not_mem_nil, or_false] at h
  rcases h with h | h | h | h <;> subst h <;>
    simp [statusClasses, responsesTotal, requestDuration, requestDurationByClass]

theorem shown_render_of_summary {m : Metric}
    (h : m.name = "conduit_requests_total" ∨ m.name = "conduit_responses_total") :
    shown m (render load) = shown m ((summary.foldl (Emit.run load) {}).lines) := by
  have hglobal : shown m (globalLines load) = [] :=
    shown_histogramLines_eq_nil _ _ _ _ _ _ (.inl (by
      rcases h with h | h <;> simp [h, requestDuration]))
  have hclass : ∀ c, shown m (classLines load c) = [] := fun c =>
    shown_histogramLines_eq_nil _ _ _ _ _ _ (.inl (by
      rcases h with h | h <;> simp [h, requestDurationByClass]))
  simp [shown_render, hglobal, hclass]

theorem shown_requestsTotal :
    shown ⟨"conduit_requests_total", []⟩ (render load) = [load .requestsTotal] := by
  rw [shown_render_of_summary load (.inl rfl), shown_summary]
  simp [statusClasses, responsesTotal]

theorem shown_responsesTotal (c : StatusClass) :
    shown (responsesTotal c) (render load) = [load (.responses c)] := by
  rw [shown_render_of_summary load (.inr rfl), shown_summary]
  cases c <;> simp [statusClasses, responsesTotal, StatusClass.label]

theorem shown_global {m : Metric}
    (hname : m.name = requestDuration ++ "_bucket" ∨ m.name = requestDuration ++ "_count") :
    shown m (render load) = shown m (globalLines load) := by
  have hsummary := shown_summary_eq_nil load (m := m) (by rcases hname with h | h <;> simp [h])
  have hclass : ∀ c, shown m (classLines load c) = [] := fun c =>
    shown_histogramLines_eq_nil _ _ _ _ _ _ (.inl (by
      rcases hname with h | h <;> simp [h, requestDuration, requestDurationByClass]))
  simp [shown_render, hsummary, hclass]

theorem shown_class {m : Metric} {c : StatusClass}
    (hname : m.name = requestDurationByClass ++ "_bucket" ∨
      m.name = requestDurationByClass ++ "_count")
    (hlabels : m.labels.take 1 = [("class", c.label)]) :
    shown m (render load) = shown m (classLines load c) := by
  have hsummary := shown_summary_eq_nil load (m := m) (by rcases hname with h | h <;> simp [h])
  have hglobal : shown m (globalLines load) = [] :=
    shown_histogramLines_eq_nil _ _ _ _ _ _ (.inl (by
      rcases hname with h | h <;> simp [h, requestDuration, requestDurationByClass]))
  have hother : ∀ c', c' ≠ c → shown m (classLines load c') = [] := by
    intro c' hne
    refine shown_histogramLines_eq_nil _ _ _ _ _ _ (.inr ?_)
    rw [List.length_singleton, hlabels]
    revert hne
    cases c <;> cases c' <;> simp [StatusClass.label]
  rw [shown_render, hsummary, hglobal]
  cases c <;> simp [statusClasses, hother]

end Families

end Metrics

end Conduit
