import Conduit.Lifecycle.Dispatch

/-!
# The total timeout

The total timeout of a route drops the forwarding future.  This file is about
what the dropped future leaves behind on the breakers.
-/

namespace Conduit

/-! ## What a timeout leaves behind -/

namespace Dispatch

variable {B : Type}

theorem underTimeout_eq_timeout {total total' : Duration}
    {result : Awaited (Option (Except ForwardError (Response (TimedBody B))))} :
    underTimeout total result = some (.error (.timeout total')) ↔
      result = .dropped ∧ total = total' := by
  unfold underTimeout
  split <;> simp

def run (platform : Platform) (d : Dispatch) (requests : List (Request × Script B)) :
    Dispatch :=
  requests.foldl (fun d call => (d.handle platform call.1 call.2).dispatch) d

def TimesOut (platform : Platform) : Dispatch → List (Request × Script B) → Prop
  | _, [] => True
  | d, (req, script) :: requests =>
      (∃ total, (d.handle platform req script).result = some (.error (.timeout total))) ∧
        TimesOut platform (d.handle platform req script).dispatch requests

theorem handle_eq_timeout {platform : Platform} {d : Dispatch} {req : Request}
    {script : Script B} {total : Duration}
    (h : (d.handle platform req script).result = some (.error (.timeout total))) :
    ∃ route pool, d.selectRoute req = .ok route ∧
      d.upstreams.get route.upstream = some pool ∧ route.totalTimeout = total ∧
      (pool.forward platform req route.readTimeout script).result = .dropped := by
  cases hroute : d.selectRoute req with
  | error e =>
      unfold selectRoute at hroute
      split at hroute <;> cases hroute
      rename_i hfind
      simp [handle, selectRoute, hfind] at h
  | ok route =>
      cases hget : d.upstreams.get route.upstream with
      | none => simp [handle, hroute, selectUpstream, hget] at h
      | some pool =>
          rw [handle_of_selected hroute hget] at h
          obtain ⟨hdropped, htotal⟩ := underTimeout_eq_timeout.mp h
          exact ⟨route, pool, rfl, hget, htotal, hdropped⟩

theorem handle_breakers_of_timeout {platform : Platform} {d : Dispatch} {req : Request}
    {script : Script B} {total : Duration}
    (h : (d.handle platform req script).result = some (.error (.timeout total)))
    (name : String) :
    ((d.handle platform req script).dispatch.upstreams.get name).map Upstream.breakers =
      (d.upstreams.get name).map Upstream.breakers := by
  obtain ⟨route, pool, hroute, hget, -, hdropped⟩ := handle_eq_timeout h
  rw [handle_of_selected hroute hget, UpstreamMap.get_insert]
  by_cases hname : route.upstream = name
  · rw [if_pos hname, ← hname, hget, Upstream.forward_observe,
      Upstream.recorded_of_dropped platform hdropped]
    simp [Upstream.observe]
  · rw [if_neg hname]

theorem run_breakers_of_timesOut {platform : Platform} {d : Dispatch}
    {requests : List (Request × Script B)} (h : d.TimesOut platform requests)
    (name : String) :
    ((d.run platform requests).upstreams.get name).map Upstream.breakers =
      (d.upstreams.get name).map Upstream.breakers := by
  induction requests generalizing d with
  | nil => rfl
  | cons call requests ih =>
      obtain ⟨⟨total, htimeout⟩, hrest⟩ := h
      rw [run, List.foldl_cons]
      exact (ih hrest).trans (handle_breakers_of_timeout htimeout name)

/--
A request that times out against backend `i` records no failure there, and
no number of such requests moves a breaker.
-/
theorem timeout_records_no_failure (platform : Platform) (d : Dispatch) :
    (∀ (req : Request) (script : Script B) route pool addr i total,
      d.selectRoute req = .ok route → d.upstreams.get route.upstream = some pool →
      pool.pickAddr platform script.pickedAt = some (addr, i) →
      (d.handle platform req script).sent ≠ [] →
      (d.handle platform req script).result = some (.error (.timeout total)) →
      (pool.recorded platform req script).toList.count (i.val, false) = 0) ∧
    ∀ requests : List (Request × Script B), d.TimesOut platform requests →
      ∀ name, ((d.run platform requests).upstreams.get name).map Upstream.breakers =
        (d.upstreams.get name).map Upstream.breakers := by
  constructor
  · intro req script route pool addr i total hroute hpool _ _ htimeout
    rw [handle_of_selected hroute hpool] at htimeout
    have hdropped := (underTimeout_eq_timeout.mp htimeout).1
    rw [Upstream.recorded_of_dropped platform hdropped]
    simp
  · intro requests htimes name
    exact run_breakers_of_timesOut htimes name

end Dispatch

namespace Sample

def stalling : Script Unit := { answering with attempts := fun _ => .dropped }

theorem handle_stalling :
    (Dispatch.fromConfig .concrete noFiles 0 document).handle .concrete request stalling =
      { result := some (.error (.timeout (Duration.fromSecs 60)))
        sent := (pool.forward .concrete request (Duration.fromSecs 30) stalling).sent
        dispatch :=
          { Dispatch.fromConfig .concrete noFiles 0 document with
            upstreams := (UpstreamMap.fromConfig .concrete noFiles 0 document).insert "api"
              (pool.forward .concrete request (Duration.fromSecs 30) stalling).upstream } } :=
  Dispatch.handle_of_selected (selectRoute_document _) (get_pool rfl) stalling

end Sample

namespace Dispatch

theorem stalled_backend_is_not_recorded :
    let d := fromConfig .concrete Sample.noFiles 0 Sample.document
    d.upstreams.get "api" = some Sample.pool ∧
    Sample.pool.pickAddr .concrete Sample.stalling.pickedAt =
      some (Sample.backend, ⟨0, by decide⟩) ∧
    (d.handle .concrete Sample.request Sample.stalling).sent.length = 1 ∧
    (d.handle .concrete Sample.request Sample.stalling).result =
      some (.error (.timeout (Duration.fromSecs 60))) ∧
    (Sample.pool.recorded .concrete Sample.request Sample.stalling).toList.count
      (0, false) ≠ 1 := by
  refine ⟨Sample.get_pool rfl, by decide, ?_, ?_, by decide⟩
  · rw [Sample.handle_stalling]
    decide
  · rw [Sample.handle_stalling]

theorem timeout_records_no_failure_sample :
    let d := fromConfig .concrete Sample.noFiles 0 Sample.document
    (Sample.pool.recorded .concrete Sample.request Sample.stalling).toList.count
      (0, false) = 0 ∧
    ∀ name, ((d.run .concrete [(Sample.request, Sample.stalling)]).upstreams.get name).map
      Upstream.breakers = (d.upstreams.get name).map Upstream.breakers := by
  intro d
  have hmain := timeout_records_no_failure (B := Unit) .concrete d
  have htimeout : (d.handle .concrete Sample.request Sample.stalling).result =
      some (.error (.timeout (Duration.fromSecs 60))) := by
    rw [Sample.handle_stalling]
  have hsent : (d.handle .concrete Sample.request Sample.stalling).sent ≠ [] := by
    rw [Sample.handle_stalling]
    decide
  exact ⟨hmain.1 Sample.request Sample.stalling _ Sample.pool Sample.backend ⟨0, by decide⟩ _
    (Sample.selectRoute_document _) (Sample.get_pool rfl) (by decide) hsent htimeout,
    hmain.2 [(Sample.request, Sample.stalling)] ⟨⟨_, htimeout⟩, trivial⟩⟩

end Dispatch

end Conduit
