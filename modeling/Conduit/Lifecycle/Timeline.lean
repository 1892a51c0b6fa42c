import Conduit.Lifecycle.Dispatch

/-!
# The instants of an exchange

With the time that every `await` takes as an input, the file follows one
request from the call of `handle` to the last body frame: the total timeout
guards the way to the head, and after it the read timeout guards each frame.
The client takes a frame as soon as it is there.
-/

namespace Conduit

/-! ## Polling a timed body -/

inductive Poll (α : Type) where
  | ready (a : α)
  | pending
  deriving DecidableEq, Repr

inductive BodyError where
  | inner (message : String)
  | readTimeout (timeout : Duration)
  deriving DecidableEq, Repr

abbrev Yield (ε F : Type) := Option (Except ε F)

namespace TimedBody

variable {B F : Type}

/-- `poll_frame` at the instant `now`, with what polling the inner body gives. -/
def pollFrame (b : TimedBody B) (now : Nat) (inner : Poll (Yield String F)) :
    Poll (Yield BodyError F) × TimedBody B :=
  let deadline := b.sleep.getD (now + b.timeout.nanos)
  match inner with
  | .ready yield => (.ready (yield.map (Except.mapError .inner)), { b with sleep := none })
  | .pending =>
      if deadline ≤ now then
        (.ready (some (.error (.readTimeout b.timeout))), { b with sleep := none })
      else (.pending, { b with sleep := some deadline })

def innerAt (arrival : Option (Nat × Yield String F)) (now : Nat) :
    Poll (Yield String F) :=
  match arrival with
  | none => .pending
  | some (instant, yield) => if instant ≤ now then .ready yield else .pending

/--
Poll at once and, if that is pending, at the first wake-up: when the inner
body has something, or when the timer fires.
-/
def next (b : TimedBody B) (now : Nat) (arrival : Option (Nat × Yield String F)) :
    Option (Nat × Yield BodyError F × TimedBody B) :=
  match b.pollFrame now (innerAt arrival now) with
  | (.ready yield, b) => some (now, yield, b)
  | (.pending, b) =>
      let timer := b.sleep.getD now
      let wake := (arrival.map fun a => min a.1 timer).getD timer
      match b.pollFrame wake (innerAt arrival wake) with
      | (.ready yield, b) => some (wake, yield, b)
      | (.pending, _) => none

theorem innerAt_ready {arrival now : Nat} (yield : Yield String F) (h : arrival ≤ now) :
    innerAt (some (arrival, yield)) now = .ready yield := by
  rw [innerAt, if_pos h]

theorem innerAt_pending {arrival now : Nat} (yield : Yield String F) (h : now < arrival) :
    innerAt (some (arrival, yield)) now = .pending := by
  rw [innerAt, if_neg (by omega)]

theorem pollFrame_pending (b : TimedBody B) (now : Nat) :
    b.pollFrame now (.pending : Poll (Yield String F)) =
      if b.sleep.getD (now + b.timeout.nanos) ≤ now then
        (.ready (some (.error (.readTimeout b.timeout))), { b with sleep := none })
      else (.pending, { b with sleep := some (b.sleep.getD (now + b.timeout.nanos)) }) :=
  rfl

theorem next_of_le {b : TimedBody B} (hsleep : b.sleep = none) {now gap : Nat}
    (yield : Yield String F) (hgap : gap ≤ b.timeout.nanos) :
    b.next now (some (now + gap, yield)) =
      some (now + gap, yield.map (Except.mapError .inner), b) := by
  have hbody : ({ b with sleep := none } : TimedBody B) = b := by rw [← hsleep]
  rcases Nat.eq_zero_or_pos gap with rfl | hpos
  · rw [next, innerAt_ready yield (by omega)]
    simp [pollFrame, hbody]
  · rw [next, innerAt_pending yield (by omega), pollFrame_pending, hsleep, Option.getD_none,
      if_neg (by omega)]
    simp only [Option.getD_some, Option.map_some]
    rw [show min (now + gap) (now + b.timeout.nanos) = now + gap by omega,
      innerAt_ready yield (by omega)]
    simp [pollFrame, hbody]

theorem next_of_lt {b : TimedBody B} (hsleep : b.sleep = none) {now : Nat}
    {arrival : Option (Nat × Yield String F)}
    (hlate : ∀ a ∈ arrival, now + b.timeout.nanos < a.1) :
    b.next now arrival =
      some (now + b.timeout.nanos, some (.error (.readTimeout b.timeout)), b) := by
  have hbody : ({ b with sleep := none } : TimedBody B) = b := by rw [← hsleep]
  have hpending : ∀ instant, instant ≤ now + b.timeout.nanos →
      innerAt arrival instant = .pending := by
    intro instant hinstant
    cases arrival with
    | none => rfl
    | some a => exact innerAt_pending a.2 (hinstant.trans_lt (hlate a rfl))
  rw [next, hpending now (by omega), pollFrame_pending, hsleep, Option.getD_none]
  rcases Nat.eq_zero_or_pos b.timeout.nanos with hzero | hpos
  · simp [hzero, hbody]
  · have hwake : (arrival.map fun a => min a.1 (now + b.timeout.nanos)).getD
        (now + b.timeout.nanos) = now + b.timeout.nanos := by
      cases arrival with
      | none => rfl
      | some a => exact Nat.min_eq_right (hlate a rfl).le
    rw [if_neg (by omega)]
    simp only [Option.getD_some, hwake, hpending _ (le_refl _), pollFrame_pending]
    simp [hbody]

/--
What an eager client gets from `now` on, with the instant of each frame.  The
`k`th yield of the inner body takes the time `(events k).1` after the one
before it; `none` is silence for ever.
-/
def deliveries (events : Nat → Option (Nat × Yield String F)) :
    Nat → Nat → TimedBody B → Nat → List (Nat × F)
  | 0, _, _, _ => []
  | fuel + 1, k, b, now =>
      match b.next now ((events k).map fun e => (now + e.1, e.2)) with
      | some (instant, some (.ok frame), b) =>
          (instant, frame) :: deliveries events fuel (k + 1) b instant
      | _ => []

def inTime (timeout : Duration) (now : Nat) :
    Option (Nat × Yield String F) → Option (Nat × F)
  | some (gap, some (.ok frame)) =>
      if gap ≤ timeout.nanos then some (now + gap, frame) else none
  | _ => none

def frameDue (events : Nat → Option (Nat × Yield String F)) (timeout : Duration) :
    Nat → Nat → Nat → Option (Nat × F)
  | 0, k, now => inTime timeout now (events k)
  | n + 1, k, now =>
      (inTime timeout now (events k)).bind fun e =>
        frameDue events timeout n (k + 1) e.1

section Deliveries

variable {events : Nat → Option (Nat × Yield String F)} {b : TimedBody B}

theorem deliveries_of_inTime (hsleep : b.sleep = none) {fuel k now : Nat} {e : Nat × F}
    (h : inTime b.timeout now (events k) = some e) :
    deliveries events (fuel + 1) k b now = e :: deliveries events fuel (k + 1) b e.1 := by
  unfold inTime at h
  split at h
  · rename_i gap frame hevent
    split at h
    · rename_i hgap
      cases h
      rw [deliveries, hevent, Option.map_some, next_of_le hsleep _ hgap]
      rfl
    · cases h
  · cases h

theorem deliveries_of_inTime_none (hsleep : b.sleep = none) {fuel k now : Nat}
    (h : inTime b.timeout now (events k) = none) :
    deliveries events fuel k b now = [] := by
  cases fuel with
  | zero => rfl
  | succ fuel =>
      cases hevent : events k with
      | none =>
          rw [deliveries, hevent, Option.map_none, next_of_lt hsleep (by simp)]
      | some event =>
          obtain ⟨gap, yield⟩ := event
          rw [deliveries, hevent, Option.map_some]
          rcases Nat.lt_or_ge b.timeout.nanos gap with hlate | hgap
          · rw [next_of_lt hsleep (by simpa using hlate)]
          · rw [next_of_le hsleep yield hgap]
            match yield with
            | none => rfl
            | some (.error message) => rfl
            | some (.ok frame) => simp [hevent, inTime, hgap] at h

theorem mem_deliveries (hsleep : b.sleep = none) {fuel k now : Nat} {e : Nat × F} :
    e ∈ deliveries events fuel k b now ↔
      ∃ n < fuel, frameDue events b.timeout n k now = some e := by
  induction fuel generalizing k now with
  | zero => simp [deliveries]
  | succ fuel ih =>
      cases hfirst : inTime b.timeout now (events k) with
      | none =>
          rw [deliveries_of_inTime_none hsleep hfirst, Nat.exists_lt_succ_left]
          simp [frameDue, hfirst]
      | some first =>
          rw [deliveries_of_inTime hsleep hfirst, List.mem_cons, ih, Nat.exists_lt_succ_left]
          simp [frameDue, hfirst, eq_comm]

end Deliveries

end TimedBody

/-! ## The way to the head -/

structure Exchange (B F : Type) where
  pickedAt : Nat
  settledAt : Nat
  /-- The time until the request body is collected; `none` is for ever, as below. -/
  bodyDelay : Option Nat
  attempts : Nat → Option (Nat × ClientOutcome B)
  events : Nat → Option (Nat × Yield String F)

namespace Exchange

variable {B F : Type}

def bodyTime (x : Exchange B F) (req : Request) : Nat :=
  if req.body.exactSize = some 0 then 0 else x.bodyDelay.getD 0

/-- The instant, counted from the call of `handle`, at which attempt `k` starts. -/
def startOf (x : Exchange B F) (req : Request) : Nat → Nat
  | 0 => x.bodyTime req
  | k + 1 => x.startOf req k + ((x.attempts k).map Prod.fst).getD 0

/--
The exchange as the forwarding future sees it under the total timeout.  The
future is polled before the timer, so what is ready at the deadline counts.
-/
def script (x : Exchange B F) (req : Request) (total : Duration) : Script B where
  pickedAt := x.pickedAt
  settledAt := x.settledAt
  bodyStalls := (x.bodyDelay.map fun delay => decide (total.nanos < delay)).getD true
  attempts k :=
    match x.attempts k with
    | none => .dropped
    | some (delay, outcome) =>
        if x.startOf req k + delay ≤ total.nanos then .ready outcome else .dropped

/-- When the attempts come to a response to return, were there no deadline. -/
def headDue (x : Exchange B F) (retry : RetryPolicy) : Nat → Nat → Nat → Option Nat
  | 0, _, _ => none
  | remaining + 1, attempt, now =>
      match x.attempts attempt with
      | none => none
      | some (delay, outcome) =>
          if retry.again attempt outcome then
            x.headDue retry remaining (attempt + 1) (now + delay)
          else
            match outcome with
            | .response _ => some (now + delay)
            | .error _ => none

theorem le_of_headDue {x : Exchange B F} {retry : RetryPolicy}
    {remaining attempt now h : Nat} (hdue : x.headDue retry remaining attempt now = some h) :
    now ≤ h := by
  induction remaining generalizing attempt now with
  | zero => cases hdue
  | succ remaining ih =>
      simp only [headDue] at hdue
      split at hdue
      · cases hdue
      · split at hdue
        · exact (Nat.le_add_right _ _).trans (ih hdue)
        · split at hdue
          · cases hdue
            exact Nat.le_add_right _ _
          · cases hdue

theorem add_le_of_headDue {x : Exchange B F} {retry : RetryPolicy}
    {remaining attempt now delay h : Nat} {outcome : ClientOutcome B}
    (hattempt : x.attempts attempt = some (delay, outcome))
    (hdue : x.headDue retry (remaining + 1) attempt now = some h) : now + delay ≤ h := by
  simp only [headDue, hattempt] at hdue
  split at hdue
  · exact le_of_headDue hdue
  · split at hdue
    · cases hdue
      exact le_refl _
    · cases hdue

section Loop

variable (x : Exchange B F) (req : Request) (retry : RetryPolicy) (total : Duration)

theorem script_attempts {attempt delay : Nat} {outcome : ClientOutcome B}
    (hattempt : x.attempts attempt = some (delay, outcome)) :
    (x.script req total).attempts attempt =
      if x.startOf req (attempt + 1) ≤ total.nanos then .ready outcome else .dropped := by
  simp only [script, hattempt, startOf, Option.map_some, Option.getD_some]

theorem attemptLoop_stop_iff (remaining attempt : Nat) (out : Outbound)
    (lastStatus : UInt16) (h : Nat) :
    (x.headDue retry remaining attempt (x.startOf req attempt) = some h ∧
        h ≤ total.nanos) ↔
      (∃ resp, (attemptLoop retry (x.script req total).attempts (attempt + remaining)
        remaining attempt (some out) lastStatus).2 = .stop resp) ∧
      x.startOf req (attempt + (attemptLoop retry (x.script req total).attempts
        (attempt + remaining) remaining attempt (some out) lastStatus).1.length) = h := by
  induction remaining generalizing attempt lastStatus with
  | zero => simp [headDue, attemptLoop]
  | succ remaining ih =>
      cases hattempt : x.attempts attempt with
      | none =>
          have hdropped : (x.script req total).attempts attempt = .dropped := by
            simp [script, hattempt]
          simp [attemptLoop_dropped hdropped, headDue, hattempt]
      | some event =>
          obtain ⟨delay, outcome⟩ := event
          have hstart : x.startOf req (attempt + 1) = x.startOf req attempt + delay := by
            simp [startOf, hattempt]
          have hscript := x.script_attempts req total hattempt
          by_cases hin : x.startOf req (attempt + 1) ≤ total.nanos
          · rw [if_pos hin] at hscript
            cases hagain : retry.again attempt outcome with
            | true =>
                rw [attemptLoop_again hscript hagain]
                simp only [headDue, hattempt, hagain, if_true, ← hstart, ih (attempt + 1)
                  (outcome.statusOr lastStatus), List.length_cons]
                simp only [← Nat.add_assoc, Nat.add_right_comm attempt _ 1]
            | false =>
                rw [attemptLoop_ending hscript hagain]
                simp only [headDue, hattempt, hagain, ← hstart]
                cases outcome with
                | response resp =>
                    simp only [Bool.false_eq_true, if_false, Option.some.injEq,
                      ClientOutcome.ending, LoopEnd.stop.injEq, exists_eq', true_and,
                      List.length_singleton, and_iff_left_iff_imp]
                    rintro rfl
                    exact hin
                | error connectError => simp [ClientOutcome.ending]
          · -- Whatever is due comes after this attempt, which is already too late.
            rw [if_neg hin] at hscript
            rw [attemptLoop_dropped hscript]
            simp only [reduceCtorEq, exists_false, false_and, iff_false, not_and, not_le]
            intro hdue
            have hlate := add_le_of_headDue hattempt hdue
            omega

theorem attemptAll_stop_iff (out : Outbound) (h : Nat) :
    (x.headDue retry (max retry.attempts.toNat 1) 0 (x.bodyTime req) = some h ∧
        h ≤ total.nanos) ↔
      (∃ resp, (Upstream.attemptAll retry (x.script req total) out).2 = .stop resp) ∧
      x.startOf req (Upstream.attemptAll retry (x.script req total) out).1.length = h := by
  have hloop := x.attemptLoop_stop_iff req retry total (max retry.attempts.toNat 1) 0 out
    500 h
  simp only [Nat.zero_add] at hloop
  exact hloop

end Loop

end Exchange

/-! ## The cap -/

namespace Upstream

variable {B : Type}

def begins (platform : Platform) (u : Upstream) (req : Request) (script : Script B) : Bool :=
  if u.addrs.isEmpty then
    match bufferBody req.body script.bodyStalls with
    | .ready (.ok _) => true
    | _ => false
  else (u.outbound platform req script).isOk

theorem forward_of_begins (platform : Platform) {u : Upstream} {req : Request}
    (readTimeout : Duration) {script : Script B} (h : u.begins platform req script = true) :
    ∃ out, (u.forward platform req readTimeout script).result =
        (attemptAll u.retry script out).2.result readTimeout ∧
      (u.forward platform req readTimeout script).sent = (attemptAll u.retry script out).1 := by
  unfold begins at h
  split at h
  · rename_i hempty
    split at h
    · rename_i bytes hbody
      refine ⟨⟨egressParts req.parts, bytes⟩, ?_⟩
      rw [forward, if_pos hempty, sendBuffered_ready _ _ _ hbody]
      exact ⟨rfl, rfl⟩
    · cases h
  · cases hout : u.outbound platform req script with
    | error blocked =>
        rw [hout] at h
        cases h
    | ok sending =>
        refine ⟨sending.2, ?_⟩
        rw [forward_of_outbound platform readTimeout hout]
        exact ⟨rfl, rfl⟩

theorem forward_of_not_begins (platform : Platform) {u : Upstream} {req : Request}
    (readTimeout : Duration) {script : Script B} (h : u.begins platform req script = false)
    (resp : Response (TimedBody B)) :
    (u.forward platform req readTimeout script).result ≠ .ready (some (.ok resp)) := by
  unfold begins at h
  split at h
  · rename_i hempty
    rw [forward, if_pos hempty, sendBuffered]
    split at h
    · cases h
    · rename_i hbody
      split
      · simp
      · simp
      · rename_i bytes hbytes
        exact absurd hbytes (hbody bytes)
  · rename_i hempty
    cases hout : u.outbound platform req script with
    | error blocked =>
        rw [forward_of_blocked platform (by simpa using hempty) readTimeout hout]
        cases blocked <;> simp [Blocked.result]
    | ok sending =>
        rw [hout] at h
        cases h

end Upstream

namespace Dispatch

variable {B F : Type}

theorem underTimeout_eq_ok {total : Duration}
    {result : Awaited (Option (Except ForwardError (Response (TimedBody B))))}
    {resp : Response (TimedBody B)} :
    underTimeout total result = some (.ok resp) ↔ result = .ready (some (.ok resp)) := by
  unfold underTimeout
  split <;> simp

/--
Neither the head nor a frame comes later than the total timeout exactly when
the frames that the read timeout lets through after a head in time are due
within the total timeout as well.
-/
theorem total_timeout_caps_iff (platform : Platform) (d : Dispatch) (req : Request)
    (route : Route) (hroute : d.selectRoute req = .ok route) (pool : Upstream)
    (hpool : d.upstreams.get route.upstream = some pool) (x : Exchange B F) :
    (∀ resp, (d.handle platform req (x.script req route.totalTimeout)).result =
        some (.ok resp) →
      let headAt := x.startOf req
        (d.handle platform req (x.script req route.totalTimeout)).sent.length
      headAt ≤ route.totalTimeout.nanos ∧
      ∀ fuel, ∀ e ∈ TimedBody.deliveries x.events fuel 0 resp.body headAt,
        e.1 ≤ route.totalTimeout.nanos) ↔
    (pool.begins platform req (x.script req route.totalTimeout) = true →
      ∀ h, x.headDue pool.retry (max pool.retry.attempts.toNat 1) 0 (x.bodyTime req) =
          some h → h ≤ route.totalTimeout.nanos →
        ∀ n e, TimedBody.frameDue x.events route.readTimeout n 0 h = some e →
          e.1 ≤ route.totalTimeout.nanos) := by
  rw [handle_of_selected hroute hpool]
  simp only [underTimeout_eq_ok]
  cases hbegins : pool.begins platform req (x.script req route.totalTimeout) with
  | false =>
      simp only [Bool.false_eq_true, false_imp_iff, iff_true]
      intro resp hresp
      exact absurd hresp (Upstream.forward_of_not_begins platform _ hbegins resp)
  | true =>
      obtain ⟨out, hresult, hsent⟩ :=
        Upstream.forward_of_begins platform route.readTimeout hbegins
      rw [hresult, hsent]
      constructor
      · intro hcap _ h hdue hle n e hframe
        obtain ⟨⟨resp, hstop⟩, rfl⟩ := (x.attemptAll_stop_iff req _ _ out h).mp ⟨hdue, hle⟩
        apply (hcap _ (by rw [hstop]; rfl)).2 (n + 1) e
        exact (TimedBody.mem_deliveries rfl).mpr ⟨n, n.lt_succ_self, hframe⟩
      · intro hdue resp hresp
        cases hend : (Upstream.attemptAll pool.retry (x.script req route.totalTimeout)
            out).2 with
        | stop inner =>
            rw [hend] at hresp
            cases hresp
            obtain ⟨hhead, hle⟩ := (x.attemptAll_stop_iff req _ _ out _).mpr ⟨⟨inner, hend⟩, rfl⟩
            refine ⟨hle, fun fuel e he => ?_⟩
            obtain ⟨n, -, hframe⟩ := (TimedBody.mem_deliveries rfl).mp he
            exact hdue rfl _ hhead hle n e hframe
        | clientError connectError => simp [hend, LoopEnd.result] at hresp
        | exhausted lastStatus => simp [hend, LoopEnd.result] at hresp
        | dropped => simp [hend, LoopEnd.result] at hresp
        | panicked => simp [hend, LoopEnd.result] at hresp

end Dispatch

namespace Sample

def secs (n : Nat) : Nat := (Duration.fromSecs n).nanos

def dripping : Exchange Unit Unit where
  pickedAt := 0
  settledAt := 0
  bodyDelay := some 0
  attempts _ := some (0, .response ⟨200, [], ()⟩)
  events _ := some (secs 25, some (.ok ()))

def oneFrame : Exchange Unit Unit :=
  { dripping with
    events := fun k => if k = 0 then some (secs 25, some (.ok ())) else some (0, none) }

theorem handle_dripping :
    (Dispatch.fromConfig .concrete noFiles 0 document).handle .concrete request
      (dripping.script request (Duration.fromSecs 60)) =
      { result := some (.ok ⟨200, [], ⟨(), Duration.fromSecs 30, none⟩⟩)
        sent := (pool.forward .concrete request (Duration.fromSecs 30) answering).sent
        dispatch :=
          { Dispatch.fromConfig .concrete noFiles 0 document with
            upstreams := (UpstreamMap.fromConfig .concrete noFiles 0 document).insert "api"
              (pool.forward .concrete request (Duration.fromSecs 30)
                answering).upstream } } :=
  Dispatch.handle_of_selected (selectRoute_document _) (get_pool rfl) _

end Sample

namespace Dispatch

theorem dripping_body_outlives_timeout :
    let d := fromConfig .concrete Sample.noFiles 0 Sample.document
    let run := d.handle .concrete Sample.request
      (Sample.dripping.script Sample.request (Duration.fromSecs 60))
    ∃ resp, run.result = some (.ok resp) ∧
      (Sample.secs 75, ()) ∈ TimedBody.deliveries Sample.dripping.events 3 0 resp.body
        (Sample.dripping.startOf Sample.request run.sent.length) ∧
      ¬ Sample.secs 75 ≤ (Duration.fromSecs 60).nanos := by
  intro d run
  have hrun : run = _ := Sample.handle_dripping
  refine ⟨_, congrArg HandleRun.result hrun, ?_, by decide⟩
  rw [hrun]
  decide

theorem total_timeout_caps_iff_sample :
    let d := fromConfig .concrete Sample.noFiles 0 Sample.document
    let run := d.handle .concrete Sample.request
      (Sample.oneFrame.script Sample.request (Duration.fromSecs 60))
    ∀ resp, run.result = some (.ok resp) →
      ∀ fuel, ∀ e ∈ TimedBody.deliveries Sample.oneFrame.events fuel 0 resp.body
        (Sample.oneFrame.startOf Sample.request run.sent.length),
        e.1 ≤ (Duration.fromSecs 60).nanos := by
  intro d run resp hresp
  refine ((total_timeout_caps_iff .concrete d Sample.request _
    (Sample.selectRoute_document _) Sample.pool (Sample.get_pool rfl)
    Sample.oneFrame).mpr ?_ resp hresp).2
  intro _ h hdue _ n e hframe
  obtain rfl : 0 = h := Option.some.inj hdue
  match n with
  | 0 =>
      obtain rfl := Option.some.inj hframe
      decide
  | 1 => cases hframe
  | n + 2 => cases hframe

end Dispatch

end Conduit
