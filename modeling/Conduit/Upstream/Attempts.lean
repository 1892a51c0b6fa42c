import Conduit.Upstream.Forward

/-!
# The attempts of a request and the breaker they settle

A request that gets to its first attempt is sent as often as the retry policy
asks for and no more than it allows.  On the way out of `forward` the breaker
of the picked backend hears of the outcome once; attempts in between are not
reported.
-/

namespace Conduit

variable {B : Type}

/-! ## The number of attempts -/

/-- The outcome is one the policy would repeat, room for it apart. -/
def RetryPolicy.Retryable (policy : RetryPolicy) : ClientOutcome B → Prop
  | .response resp => resp.status ∈ policy.onStatus
  | .error connectError => connectError = true ∧ policy.onConnectError = true

theorem RetryPolicy.again_iff (policy : RetryPolicy) (attempt : Nat)
    (outcome : ClientOutcome B) :
    policy.again attempt outcome = true ↔
      policy.Retryable outcome ∧ attempt + 1 < policy.attempts.toNat := by
  cases outcome with
  | response resp => simp [again, Retryable, decideStatus_eq_retry]
  | error connectError => simp [again, Retryable]

/--
The loop over outcomes that are all there: each attempt but the last asked for
another one, the last did not.
-/
theorem attemptLoop_ready {retry : RetryPolicy}
    {script : Nat → Awaited (ClientOutcome B)} {outcomes : Nat → ClientOutcome B}
    (hready : ∀ k, script k = .ready (outcomes k)) (req : Outbound) {attempt remaining : Nat}
    (hpolicy : retry.attempts.toNat ≤ attempt + (remaining + 1)) (lastStatus : UInt16) :
    ∃ n ≤ remaining,
      attemptLoop retry script (attempt + (remaining + 1)) (remaining + 1) attempt (some req)
          lastStatus =
        (List.replicate (n + 1) req, (outcomes (attempt + n)).ending) ∧
      (∀ k < n, retry.again (attempt + k) (outcomes (attempt + k)) = true) ∧
      retry.again (attempt + n) (outcomes (attempt + n)) = false := by
  induction remaining generalizing attempt lastStatus with
  | zero =>
      have hstop : retry.again attempt (outcomes attempt) = false := by
        rw [Bool.eq_false_iff]
        intro hagain
        have hlt := RetryPolicy.lt_attempts_of_again hagain
        omega
      refine ⟨0, le_refl _, ?_, by simp, hstop⟩
      rw [attemptLoop_ending (hready attempt) hstop]
      rfl
  | succ remaining ih =>
      cases hagain : retry.again attempt (outcomes attempt) with
      | false =>
          refine ⟨0, Nat.zero_le _, ?_, by simp, hagain⟩
          rw [attemptLoop_ending (hready attempt) hagain]
          rfl
      | true =>
          have hrest : retry.attempts.toNat ≤ attempt + 1 + (remaining + 1) := by omega
          obtain ⟨n, hn, hloop, hbefore, hlast⟩ := ih hrest
            ((outcomes attempt).statusOr lastStatus)
          refine ⟨n + 1, by omega, ?_, ?_, ?_⟩
          · rw [attemptLoop_again (hready attempt) hagain, hloop,
              show attempt + 1 + n = attempt + (n + 1) by omega]
            rfl
          · intro k hk
            cases k with
            | zero => exact hagain
            | succ k =>
                rw [show attempt + (k + 1) = attempt + 1 + k by omega]
                exact hbefore k (by omega)
          · rw [show attempt + (n + 1) = attempt + 1 + n by omega]
            exact hlast

namespace Upstream

theorem attemptAll_ready (retry : RetryPolicy) {script : Script B}
    {outcomes : Nat → ClientOutcome B}
    (hready : ∀ k, script.attempts k = .ready (outcomes k)) (out : Outbound) :
    ∃ n, n + 1 ≤ max 1 retry.attempts.toNat ∧
      attemptAll retry script out =
        (List.replicate (n + 1) out, (outcomes n).ending) ∧
      (∀ k < n, retry.again k (outcomes k) = true) ∧
      retry.again n (outcomes n) = false := by
  obtain ⟨last, hlast⟩ : ∃ last, max retry.attempts.toNat 1 = last + 1 :=
    Nat.exists_eq_add_one.mpr (by omega)
  have hpolicy : retry.attempts.toNat ≤ 0 + (last + 1) := by omega
  obtain ⟨n, hn, hloop, hbefore, hstop⟩ := attemptLoop_ready hready out hpolicy 500
  simp only [Nat.zero_add] at hloop hbefore hstop
  refine ⟨n, by omega, ?_, hbefore, hstop⟩
  rw [attemptAll, hlast]
  exact hloop

/-! ## What each attempt sends -/

def attemptRequest (req : Request) (authority : Authority) (bytes : List UInt8) : Outbound where
  parts :=
    { method := req.parts.method
      uri := ⟨some .http, some authority,
        some (req.parts.uri.parts.pathAndQuery.getD ⟨"/", none⟩)⟩
      version := .http11
      headers := req.parts.headers.remove HOST }
  bytes := bytes

theorem bufferBody_eq {body : RequestBody} {bytes : List UInt8}
    (hcollected : body.collected = .ok bytes)
    (hexact : ∀ n, body.exactSize = some n → n = bytes.length) :
    bufferBody body false = .ready (.ok bytes) := by
  unfold bufferBody
  split
  · rename_i hempty
    rw [List.length_eq_zero_iff.mp (hexact 0 hempty).symm]
  · simp [hcollected]

theorem outbound_eq {platform : Platform} (hfrom : Assembles platform) {u : Upstream}
    {req : Request} {bytes : List UInt8} (hcollected : req.body.collected = .ok bytes)
    (hexact : ∀ n, req.body.exactSize = some n → n = bytes.length) {script : Script B}
    (hbody : script.bodyStalls = false) {addr : SocketAddr} {i : Fin u.addrs.length}
    (hpick : u.pickAddr platform script.pickedAt = some (addr, i)) :
    u.outbound platform req script =
      .ok (i, attemptRequest req (u.authority i) bytes) := by
  simp only [outbound, hpick, rewriteUri, hfrom _ _ _, hbody, bufferBody_eq hcollected hexact]
  rfl

def resultOf (readTimeout : Duration) :
    ClientOutcome B → Except ForwardError (Response (TimedBody B))
  | .response resp =>
      .ok ⟨resp.status, resp.headers, { inner := resp.body, timeout := readTimeout }⟩
  | .error connectError => .error (.client connectError)

theorem result_ending (readTimeout : Duration) (outcome : ClientOutcome B) :
    outcome.ending.result readTimeout = .ready (some (resultOf readTimeout outcome)) := by
  cases outcome <;> rfl

/--
The retry loop meets its policy: attempt `k + 1` is made exactly when attempt
`k` ended in a retryable way with room for another, each sends the same
request, and the last outcome is the result.
-/
theorem forward_meets_policy (platform : Platform) (hfrom : Assembles platform) (u : Upstream)
    (req : Request) (bytes : List UInt8) (hcollected : req.body.collected = .ok bytes)
    (hexact : ∀ n, req.body.exactSize = some n → n = bytes.length)
    (readTimeout : Duration) (script : Script B) (hbody : script.bodyStalls = false)
    (outcomes : Nat → ClientOutcome B)
    (hready : ∀ k, script.attempts k = .ready (outcomes k))
    (addr : SocketAddr) (i : Fin u.addrs.length)
    (hpick : u.pickAddr platform script.pickedAt = some (addr, i)) :
    let run := u.forward platform req readTimeout script
    let n := run.sent.length
    (1 ≤ n ∧ n ≤ max 1 u.retry.attempts.toNat) ∧
    (∀ k < n, (k + 1 < n ↔
      u.retry.Retryable (outcomes k) ∧ k + 1 < u.retry.attempts.toNat)) ∧
    run.result = .ready (some (resultOf readTimeout (outcomes (n - 1)))) ∧
    (∀ status, run.result ≠ .ready (some (.error (.retriesExhausted status)))) ∧
    run.result ≠ .ready none ∧
    (∀ k < n, k + 1 < 2 ^ 32) ∧
    ∀ out ∈ run.sent, out = attemptRequest req (u.authority i) bytes := by
  intro run n
  obtain ⟨last, hbound, hall, hbefore, hstop⟩ := attemptAll_ready u.retry hready
    (attemptRequest req (u.authority i) bytes)
  have hrun : run = _ := forward_of_outbound platform readTimeout
    (outbound_eq hfrom hcollected hexact hbody hpick)
  rw [hall] at hrun
  have hn : n = last + 1 := by simp [n, hrun]
  have hresult : run.result = .ready (some (resultOf readTimeout (outcomes last))) := by
    rw [hrun]
    exact result_ending _ _
  have hsize := u.retry.attempts.toNat_lt
  refine ⟨by omega, ?_, ?_, ?_, ?_, ?_, ?_⟩
  · intro k hk
    rw [← RetryPolicy.again_iff]
    constructor
    · intro hlt
      exact hbefore k (by omega)
    · intro hagain
      by_contra hge
      rw [show k = last by omega, hstop] at hagain
      cases hagain
  · rw [hresult, hn, Nat.add_sub_cancel]
  · intro status
    rw [hresult]
    cases outcomes last <;> simp [resultOf]
  · simp [hresult]
  · intro k hk
    omega
  · intro out hout
    rw [hrun] at hout
    exact List.eq_of_mem_replicate hout

/-! ### A pool of two backends -/

def retryingPool : Upstream where
  client := none
  connectTimeout := none
  retry := { attempts := 3, onStatus := [503], onConnectError := true }
  addrs := [.v4 ⟨10, 0, 0, 1⟩ 8080, .v4 ⟨10, 0, 0, 2⟩ 8080]
  authorities := [.v4 ⟨10, 0, 0, 1⟩ 8080, .v4 ⟨10, 0, 0, 2⟩ 8080].map SocketAddr.authority
  next := 0
  breakers := [Breaker.new {} 0, Breaker.new {} 0]
  authorities_eq := rfl
  length_breakers := rfl

def putRequest : Request where
  parts := ⟨"PUT", ⟨none, none, none⟩, .http11, [(HOST, ⟨[97]⟩)]⟩
  body := ⟨some 2, .ok [1, 2]⟩

def secondTry : Script Unit where
  pickedAt := 0
  settledAt := 5000000
  bodyStalls := false
  attempts k := .ready (.response ⟨if k = 0 then 503 else 200, [], ()⟩)

theorem forward_meets_policy_sample :
    let run := retryingPool.forward .concrete putRequest (.fromSecs 30) secondTry
    run.sent.length = 2 ∧
    run.result = .ready (some (.ok ⟨200, [], ⟨(), .fromSecs 30, none⟩⟩)) ∧
    ∀ out ∈ run.sent, out.parts.method = "PUT" ∧ out.parts.headers = [] ∧ out.bytes = [1, 2] := by
  intro run
  obtain ⟨-, -, hresult, -, -, -, hsent⟩ := forward_meets_policy .concrete
    (fun _ _ _ => rfl) retryingPool putRequest [1, 2] rfl
    (fun n hn => (Option.some.inj hn).symm) (.fromSecs 30) secondTry rfl
    (fun k => .response ⟨if k = 0 then 503 else 200, [], ()⟩) (fun _ => rfl)
    (.v4 ⟨10, 0, 0, 1⟩ 8080) ⟨0, by decide⟩ rfl
  refine ⟨rfl, hresult, ?_⟩
  intro out hout
  rw [hsent out hout]
  exact ⟨rfl, rfl, rfl⟩

/-! ## The breaker that is settled -/

/-- What a result reports to a breaker; an early error reports nothing. -/
def settles : Except ForwardError (Response (TimedBody B)) → Option Bool
  | .error .breakerOpen | .error (.body _) => none
  | .error _ => some false
  | .ok resp => some (!isServerError resp.status)

theorem settles_of_blocked {blocked : Blocked}
    {r : Except ForwardError (Response (TimedBody B))}
    (hfailed : ∀ e, blocked = .failed e → e = .breakerOpen ∨ ∃ message, e = .body message)
    (h : blocked.result = .ready (some r)) : settles r = none := by
  cases blocked with
  | failed e =>
      cases h
      rcases hfailed e rfl with rfl | ⟨message, rfl⟩ <;> rfl
  | stalled => cases h

theorem outbound_failed {platform : Platform} {u : Upstream} {req : Request}
    {script : Script B} {e : ForwardError}
    (h : u.outbound platform req script = .error (.failed e)) :
    e = .breakerOpen ∨ ∃ message, e = .body message := by
  unfold outbound at h
  split at h
  · cases h
    exact .inl rfl
  · dsimp only at h
    split at h
    · cases h
      exact .inr ⟨_, rfl⟩
    · split at h
      · cases h
      · cases h
        exact .inr ⟨_, rfl⟩
      · cases h

theorem settles_of_ending {ending : LoopEnd B} {readTimeout : Duration}
    {r : Except ForwardError (Response (TimedBody B))}
    (h : ending.result readTimeout = .ready (some r)) : settles r = ending.outcome := by
  cases ending <;> cases h <;> rfl

theorem pickAddr_of_outbound {platform : Platform} {u : Upstream} {req : Request}
    {script : Script B} {i : Fin u.addrs.length} {out : Outbound}
    (h : u.outbound platform req script = .ok (i, out)) :
    ∃ addr, u.pickAddr platform script.pickedAt = some (addr, i) := by
  unfold outbound at h
  split at h
  · cases h
  · rename_i addr j hpick
    refine ⟨addr, hpick.trans ?_⟩
    dsimp only at h
    split at h
    · cases h
    · split at h <;> cases h
      rfl

theorem breakers_observe_advance (platform : Platform) (u : Upstream)
    (i : Fin u.addrs.length) (success : Bool) (now : Nat) :
    ((u.advance platform).observe (some (i.val, success)) now).breakers =
      u.breakers.set i (if success then (u.breaker i).onSuccess
        else (u.breaker i).onFailure ((u.breaker i).nowMs now)) := by
  simp only [observe, observeBreakerOutcome, advance_breakers, getElem?_breakers, setBreaker]

/--
A completed `forward` settles one breaker: none after an early error, otherwise
that of the picked backend, once, by the result that is returned.
-/
theorem forward_settles_one_breaker (platform : Platform) (u : Upstream)
    (haddrs : u.addrs ≠ []) (req : Request) (readTimeout : Duration) (script : Script B)
    (hcomplete : (u.forward platform req readTimeout script).result ≠ .dropped) :
    let run := u.forward platform req readTimeout script
    ∃ r, run.result = .ready (some r) ∧
      (settles r = none → run.upstream.breakers = u.breakers) ∧
      ∀ success, settles r = some success →
        ∃ addr i, u.pickAddr platform script.pickedAt = some (addr, i) ∧
          run.upstream.breakers =
            u.breakers.set i (if success then (u.breaker i).onSuccess
              else (u.breaker i).onFailure ((u.breaker i).nowMs script.settledAt)) ∧
          ∀ j, j ≠ i.val → run.upstream.breakers[j]? = u.breakers[j]? := by
  intro run
  have hpanic := forward_not_panicked platform u req readTimeout script
  obtain ⟨r, hr⟩ : ∃ r, run.result = .ready (some r) := by
    cases hresult : run.result with
    | dropped => exact absurd hresult hcomplete
    | ready result =>
        cases result with
        | none => exact absurd hresult hpanic
        | some r => exact ⟨r, rfl⟩
  refine ⟨r, hr, ?_⟩
  cases hout : u.outbound platform req script with
  | error blocked =>
      have hrun : run = _ := forward_of_blocked platform haddrs readTimeout hout
      rw [hrun] at hr
      have hsettles : settles r = none :=
        settles_of_blocked (fun e he => outbound_failed (he ▸ hout)) hr
      refine ⟨fun _ => ?_, fun success hsuccess => ?_⟩
      · rw [hrun, advance_breakers]
      · rw [hsettles] at hsuccess
        cases hsuccess
  | ok sending =>
      obtain ⟨i, out⟩ := sending
      obtain ⟨addr, hpick⟩ := pickAddr_of_outbound hout
      have hrun : run = _ := forward_of_outbound platform readTimeout hout
      rw [hrun] at hr
      have hsettles : settles r = _ := settles_of_ending hr
      refine ⟨fun hnone => ?_, fun success hsuccess => ⟨addr, i, hpick, ?_⟩⟩
      · rw [hrun, ← hsettles, hnone]
        exact advance_breakers platform u
      · rw [hrun, ← hsettles, hsuccess, Option.map_some, breakers_observe_advance]
        exact ⟨rfl, fun j hj => List.getElem?_set_ne (Ne.symm hj)⟩

theorem forward_settles_one_breaker_sample :
    let run := retryingPool.forward .concrete putRequest (.fromSecs 30) secondTry
    run.upstream.breakers[0]? = some (Breaker.new {} 0).onSuccess ∧
      run.upstream.breakers[1]? = some (Breaker.new {} 0) := by
  intro run
  obtain ⟨r, hr, -, hsettled⟩ := forward_settles_one_breaker .concrete retryingPool (by decide)
    putRequest (.fromSecs 30) secondTry (by intro h; cases h)
  have hok : settles r = some true := by
    cases hr
    rfl
  obtain ⟨addr, i, hpick, hbreakers, hothers⟩ := hsettled true hok
  cases hpick
  rw [hothers 1 (by decide), hbreakers]
  exact ⟨rfl, rfl⟩

end Upstream

end Conduit
