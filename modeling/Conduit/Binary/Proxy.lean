import Conduit.Control.Metrics
import Conduit.Lifecycle.Dispatch

/-!
# One proxied request

`proxy_one` counts a request, awaits the dispatcher, records the duration under
the status it is about to surface and turns the outcome into a response.  The
metrics are shared by all requests, so the counters move by the interleaved
additions of every request.
-/

namespace Conduit

open Foundation Metrics

/-! ## Responses -/

structure VecBody where
  chunks : List (List UInt8) := []
  trailers : Option HeaderMap := none

def VecBody.fromBytes (bytes : List UInt8) : VecBody :=
  if bytes.isEmpty then {} else { chunks := [bytes] }

inductive ProxyBody (B : Type) where
  | upstream (inner : TimedBody B)
  | synthetic (inner : VecBody)

def CONTENT_TYPE : HeaderName := ⟨"content-type"⟩

namespace Proxy

variable {B : Type}

def bytesOf (text : String) : List UInt8 := text.toUTF8.toList

def errorResponse (status : UInt16) (body : String) : Response (ProxyBody B) where
  status := status
  headers := [(CONTENT_TYPE, ⟨bytesOf "text/plain"⟩)]
  body := .synthetic (.fromBytes (bytesOf body))

/-! ## The handler -/

structure Handled (B : Type) where
  result : Except DispatchError (Response (TimedBody B))
  elapsed : Duration

def statusForMetrics : Except DispatchError (Response (TimedBody B)) → UInt16
  | .ok resp => resp.status
  | .error .noRoute => 404
  | .error (.upstream e) => if e = .breakerOpen then 503 else 502
  | .error (.timeout _) => 504
  | .error (.upstreamNotRegistered _) => 500

/-- The last match of `proxy_one`: what it records, and what it returns. -/
def conclude : Except DispatchError (Response (TimedBody B)) →
    List Update × Response (ProxyBody B)
  | .ok resp =>
      (observeStatus resp.status, ⟨resp.status, resp.headers, .upstream resp.body⟩)
  | .error .noRoute =>
      (observeNoRoute ++ observeStatus 404,
        errorResponse 404 "conduit: no route matched\n")
  | .error (.upstreamNotRegistered _) =>
      (observeUpstreamUnknown ++ observeStatus 500,
        errorResponse 500 "conduit: route references unknown upstream\n")
  | .error (.upstream e) =>
      let (status, body) :=
        if e = .breakerOpen then (503, "conduit: upstream breaker open\n")
        else (502, "conduit: upstream unavailable\n")
      (observeUpstreamFailed ++ observeStatus status, errorResponse status body)
  | .error (.timeout _) =>
      (observeUpstreamFailed ++ observeStatus 504,
        errorResponse 504 "conduit: upstream timed out\n")

/-- A run of `proxy_one` to its end: its additions in order, and the response. -/
def proxyOne (handled : Handled B) : List Update × Response (ProxyBody B) :=
  let status := statusForMetrics handled.result
  let (updates, response) := conclude handled.result
  (observeRequestStart ++ observeRequestDuration handled.elapsed status ++ updates,
    response)

theorem conclude_status (result : Except DispatchError (Response (TimedBody B))) :
    (conclude result).2.status = statusForMetrics result := by
  rcases result with (_ | _ | e | _) | resp <;> simp only [conclude, statusForMetrics]
  all_goals first | rfl | (split_ifs <;> rfl)

theorem conclude_updates (result : Except DispatchError (Response (TimedBody B))) :
    ∃ outcome ∈ [[], observeNoRoute, observeUpstreamUnknown, observeUpstreamFailed],
      (conclude result).1 = outcome ++ observeStatus (statusForMetrics result) := by
  rcases result with (_ | _ | e | _) | resp
  · exact ⟨observeNoRoute, by simp, rfl⟩
  · exact ⟨observeUpstreamUnknown, by simp, rfl⟩
  · refine ⟨observeUpstreamFailed, by simp, ?_⟩
    simp only [conclude, statusForMetrics]
    split_ifs <;> rfl
  · exact ⟨observeUpstreamFailed, by simp, rfl⟩
  · exact ⟨[], by simp, rfl⟩

theorem added_conclude (result : Except DispatchError (Response (TimedBody B)))
    {k : Counter} (hnoRoute : k ≠ .requestsNoRoute)
    (hunknown : k ≠ .requestsUpstreamUnknown) (hfailed : k ≠ .requestsUpstreamFailed) :
    added k (conclude result).1 = added k (observeStatus (statusForMetrics result)) := by
  obtain ⟨outcome, hmem, heq⟩ := conclude_updates result
  have houtcome : added k outcome = 0 := by
    simp only [List.mem_cons, List.not_mem_nil, or_false] at hmem
    rcases hmem with rfl | rfl | rfl | rfl
    · rfl
    · simp [observeNoRoute, hnoRoute.symm]
    · simp [observeUpstreamUnknown, hunknown.symm]
    · simp [observeUpstreamFailed, hfailed.symm]
  rw [heq, added_append, houtcome, Nat.zero_add]

/-! ## What one request adds -/

section Added

variable (handled : Handled B)

def surfaced : Option StatusClass := classIndex (proxyOne handled).2.status

theorem surfaced_eq : surfaced handled = classIndex (statusForMetrics handled.result) := by
  rw [surfaced, ← conclude_status]
  rfl

theorem added_proxyOne {k : Counter} (hnoRoute : k ≠ .requestsNoRoute)
    (hunknown : k ≠ .requestsUpstreamUnknown) (hfailed : k ≠ .requestsUpstreamFailed) :
    added k (proxyOne handled).1 =
      added k observeRequestStart +
        added k (observeRequestDuration handled.elapsed (statusForMetrics handled.result)) +
          added k (observeStatus (statusForMetrics handled.result)) := by
  rw [← added_conclude handled.result hnoRoute hunknown hfailed, ← added_append,
    ← added_append]
  rfl

theorem added_requestsTotal : added .requestsTotal (proxyOne handled).1 = 1 := by
  rw [added_proxyOne handled (by simp) (by simp) (by simp),
    added_duration_of_ne _ _ (by simp) (by simp) (by simp) (by simp),
    added_status_of_ne _ (by simp)]
  rfl

theorem added_bucket (i : Bucket) :
    added (.requestDurationBuckets i) (proxyOne handled).1 =
      if slot handled.elapsed = some i then 1 else 0 := by
  rw [added_proxyOne handled (by simp) (by simp) (by simp), added_duration_bucket,
    added_status_of_ne _ (by simp)]
  simp [observeRequestStart]

theorem added_classBucket (c : StatusClass) (i : Bucket) :
    added (.classBuckets c i) (proxyOne handled).1 =
      if surfaced handled = some c ∧ slot handled.elapsed = some i then 1 else 0 := by
  rw [added_proxyOne handled (by simp) (by simp) (by simp), added_duration_classBucket,
    added_status_of_ne _ (by simp), surfaced_eq]
  simp [observeRequestStart]

theorem added_responses (c : StatusClass) :
    added (.responses c) (proxyOne handled).1 =
      if surfaced handled = some c then 1 else 0 := by
  rw [added_proxyOne handled (by simp) (by simp) (by simp),
    added_duration_of_ne _ _ (by simp) (by simp) (by simp) (by simp), added_status,
    surfaced_eq]
  simp [observeRequestStart]

end Added

/-! ## Counters at rest -/

section Rest

variable {requests : List (Handled B)} {s : Shared Counter (Fin requests.length)}
  (hcount : requests.length < 2 ^ 64)
  (hrun : Reachable (Shared.step (2 ^ 64)) (fun _ _ => True)
    (Shared.start fun i => (proxyOne (requests.get i)).1) s)
  (hrest : s.AtRest)

include hcount hrun hrest

theorem counter_requestsTotal : s.counter .requestsTotal = requests.length := by
  rw [Shared.counter_eq_countP (p := fun _ => true) (fun r => (proxyOne r).1) hrun hrest
    hcount fun r _ => by simp [added_requestsTotal r]]
  simp

theorem counter_responses (c : StatusClass) :
    s.counter (.responses c) = requests.countP fun r => surfaced r = some c :=
  Shared.counter_eq_countP (fun r => (proxyOne r).1) hrun hrest hcount fun r _ => by
    simp [added_responses r c]

theorem shown_bucket_at_rest (i : Bucket) :
    shown (bucketMetric requestDuration [] latencyBuckets[i].label) (render s.counter) =
      [requests.countP fun r => r.elapsed.nanos ≤ latencyBuckets[i].le.nanos] := by
  have hstored : ∀ i, s.counter (.requestDurationBuckets i) =
      requests.countP fun r => slot r.elapsed = some i := fun i =>
    Shared.counter_eq_countP (fun r => (proxyOne r).1) hrun hrest hcount fun r _ => by
      simp [added_bucket r i]
  rw [shown_global s.counter (.inl rfl)]
  exact shown_bucket_histogramLines _ _ _ _ _ _
    (cumulate_slots _ _ hstored (Nat.le_sub_one_of_lt hcount)) i

theorem shown_classBucket_at_rest (c : StatusClass) (i : Bucket) :
    shown (bucketMetric requestDurationByClass [("class", c.label)] latencyBuckets[i].label)
        (render s.counter) =
      [requests.countP fun r =>
        surfaced r = some c ∧ r.elapsed.nanos ≤ latencyBuckets[i].le.nanos] := by
  -- The observations of a class are the requests that surfaced with it.
  let ofClass := requests.filter fun r => surfaced r = some c
  have hstored : ∀ i, s.counter (.classBuckets c i) =
      ofClass.countP fun r => slot r.elapsed = some i := by
    intro i
    rw [List.countP_filter]
    refine Shared.counter_eq_countP (fun r => (proxyOne r).1) hrun hrest hcount
      fun r _ => ?_
    rw [added_classBucket r c i]
    simp [and_comm]
  have hlength : ofClass.length ≤ u64Max :=
    (List.length_filter_le _ _).trans (Nat.le_sub_one_of_lt hcount)
  rw [shown_class s.counter (.inl rfl) rfl, classLines,
    shown_bucket_histogramLines _ _ _ _ _ _ (cumulate_slots _ _ hstored hlength) i,
    List.countP_filter]
  simp [Bool.and_comm]

end Rest

/--
Once every request has made its additions, in whatever order, a scrape shows
exactly what the requests were.
-/
theorem metrics_exact_at_rest (requests : List (Handled B))
    (hcount : requests.length < 2 ^ 64) (s : Shared Counter (Fin requests.length))
    (hrun : Reachable (Shared.step (2 ^ 64)) (fun _ _ => True)
      (Shared.start fun i => (proxyOne (requests.get i)).1) s)
    (hrest : s.AtRest) :
    (∀ bound ∈ latencyBuckets,
      shown (bucketMetric requestDuration [] bound.label) (render s.counter) =
        [requests.countP fun r => r.elapsed.nanos ≤ bound.le.nanos]) ∧
    (∀ c : StatusClass,
      let labels := [("class", c.label)]
      let responses := requests.countP fun r => surfaced r = some c
      (∀ bound ∈ latencyBuckets,
        shown (bucketMetric requestDurationByClass labels bound.label) (render s.counter) =
          [requests.countP fun r =>
            surfaced r = some c ∧ r.elapsed.nanos ≤ bound.le.nanos]) ∧
      shown (countMetric requestDurationByClass labels) (render s.counter) = [responses] ∧
      shown (bucketMetric requestDurationByClass labels "+Inf") (render s.counter) =
        [responses] ∧
      shown (responsesTotal c) (render s.counter) = [responses]) ∧
    shown ⟨"conduit_requests_total", []⟩ (render s.counter) = [requests.length] ∧
    ∀ r ∈ requests, statusForMetrics r.result = (proxyOne r).2.status := by
  refine ⟨?_, fun c => ⟨?_, ?_, ?_, ?_⟩, ?_, ?_⟩
  · intro bound hbound
    obtain ⟨i, hi, rfl⟩ := List.getElem_of_mem hbound
    exact shown_bucket_at_rest hcount hrun hrest ⟨i, hi⟩
  · intro bound hbound
    obtain ⟨i, hi, rfl⟩ := List.getElem_of_mem hbound
    exact shown_classBucket_at_rest hcount hrun hrest c ⟨i, hi⟩
  · rw [shown_class s.counter (.inr rfl) rfl, classLines, shown_count_histogramLines,
      counter_responses hcount hrun hrest]
  · rw [shown_class s.counter (.inl rfl) rfl, classLines, shown_inf_histogramLines,
      counter_responses hcount hrun hrest]
  · rw [shown_responsesTotal, counter_responses hcount hrun hrest]
  · rw [shown_requestsTotal, counter_requestsTotal hcount hrun hrest]
  · intro r _
    exact (conclude_status r.result).symm

def sampleRequests : List (Handled Unit) :=
  [⟨.ok ⟨200, [], ⟨(), .fromSecs 30, none⟩⟩, .fromMillis 5⟩,
    ⟨.error (.upstream .breakerOpen), .fromMillis 200⟩, ⟨.error .noRoute, .fromMillis 1⟩]

def sampleOrder : List (Fin 3) :=
  [0, 1, 2, 1, 0, 2, 0, 1, 2, 0, 1, 2, 1, 0, 2, 0, 1, 2, 1, 2]

theorem metrics_exact_at_rest_sample :
    let s := (execute (Shared.step (2 ^ 64)) (fun _ _ => True)
      (Shared.start fun i => (proxyOne (sampleRequests.get i)).1) sampleOrder).get (by decide)
    shown (bucketMetric requestDuration [] "0.1") (render s.counter) = [2] ∧
    shown (bucketMetric requestDurationByClass [("class", "5xx")] "0.1")
      (render s.counter) = [0] ∧
    shown (responsesTotal .serverError) (render s.counter) = [1] ∧
    shown ⟨"conduit_requests_total", []⟩ (render s.counter) = [3] := by
  intro s
  have hrun : Reachable (Shared.step (2 ^ 64)) (fun _ _ => True)
      (Shared.start fun i => (proxyOne (sampleRequests.get i)).1) s :=
    Reachable.of_execute Reachable.refl (Option.some_get _).symm
  have hrest : s.AtRest := by
    intro i
    revert i
    decide
  obtain ⟨hglobal, hclass, htotal, -⟩ :=
    metrics_exact_at_rest sampleRequests (by decide) s hrun hrest
  refine ⟨hglobal ⟨"0.1", .fromMillis 100⟩ (by decide), ?_, ?_, htotal⟩
  · exact (hclass .serverError).1 ⟨"0.1", .fromMillis 100⟩ (by decide)
  · exact (hclass .serverError).2.2.2

end Proxy

end Conduit
