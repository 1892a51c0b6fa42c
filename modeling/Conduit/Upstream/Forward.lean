import Conduit.Upstream.Pool

/-!
# Forwarding a request

`forward` picks a backend once, rewrites the request to it, buffers the body
and sends it until the retry policy stops.  The outcomes of the HTTP client
and the fate of every `await` are the caller's script; a future that is
dropped at an `await` stops there and records nothing.
-/

namespace Conduit

/-! ## Messages to and from the client -/

structure Response (B : Type) where
  status : UInt16
  headers : HeaderMap
  body : B

def isServerError (status : UInt16) : Bool := 500 ≤ status && status < 600

structure TimedBody (B : Type) where
  inner : B
  timeout : Duration
  sleep : Option Nat := none

structure Outbound where
  parts : RequestParts
  bytes : List UInt8

inductive ClientOutcome (B : Type) where
  | response (resp : Response B)
  | error (connectError : Bool)

inductive ForwardError where
  | client (connectError : Bool)
  | body (message : String)
  | retriesExhausted (lastStatus : UInt16)
  | breakerOpen
  deriving DecidableEq, Repr

/-- An `await` under a deadline: it resolves, or the future is dropped there. -/
inductive Awaited (α : Type) where
  | ready (a : α)
  | dropped

/-- Everything outside one call of `forward` that it depends on. -/
structure Script (B : Type) where
  pickedAt : Nat
  settledAt : Nat
  bodyStalls : Bool
  attempts : Nat → Awaited (ClientOutcome B)

/-! ## Rewriting the request -/

def rewriteUri (platform : Platform) (original : Uri) (authority : Authority) :
    Except String Uri :=
  platform.fromParts
    { scheme := some .http
      authority := some authority
      pathAndQuery := some (original.parts.pathAndQuery.getD ⟨"/", none⟩) }

/-- The inbound `host` header goes, and egress is always HTTP/1.1. -/
def egressParts (parts : RequestParts) : RequestParts :=
  { parts with
    version := .http11
    headers := parts.headers.remove HOST }

/-! ## The attempt loop -/

inductive LoopEnd (B : Type) where
  | stop (resp : Response B)
  | clientError (connectError : Bool)
  | exhausted (lastStatus : UInt16)
  | dropped
  | panicked

/--
The attempts still to make, from number `attempt` on.  `held` is the request
kept for replay: it is cloned for every attempt but the last, which takes it.
Returns the requests sent, in order, and how the loop ended.
-/
def attemptLoop {B : Type} (retry : RetryPolicy)
    (script : Nat → Awaited (ClientOutcome B)) (attempts : Nat) :
    Nat → Nat → Option Outbound → UInt16 → List Outbound × LoopEnd B
  | 0, _, _, lastStatus => ([], .exhausted lastStatus)
  | remaining + 1, attempt, held, lastStatus =>
      match held with
      | none => ([], .panicked)
      | some req =>
          let onLast := attempt + 1 = attempts
          let next := fun status =>
            let rest := attemptLoop retry script attempts remaining
              (attempt + 1) (if onLast then none else some req) status
            (req :: rest.1, rest.2)
          match script attempt with
          | .dropped => ([req], .dropped)
          | .ready (.response resp) =>
              match retry.decideStatus resp.status attempt with
              | .stop => ([req], .stop resp)
              | .retry => next resp.status
          | .ready (.error connectError) =>
              if connectError && retry.onConnectError &&
                  attempt + 1 < retry.attempts.toNat then
                next lastStatus
              else ([req], .clientError connectError)

/-! ## The whole call -/

structure ForwardRun (B : Type) where
  result : Awaited (Option (Except ForwardError (Response (TimedBody B))))
  sent : List Outbound
  upstream : Upstream

namespace Upstream

variable {B : Type}

def bufferBody (body : RequestBody) (stalls : Bool) :
    Awaited (Except String (List UInt8)) :=
  if body.exactSize = some 0 then .ready (.ok [])
  else if stalls then .dropped
  else .ready body.collected

def sendBuffered (u : Upstream) (parts : RequestParts) (body : RequestBody)
    (addrIdx : Option Nat) (readTimeout : Duration) (script : Script B) :
    ForwardRun B :=
  match bufferBody body script.bodyStalls with
  | .dropped => ⟨.dropped, [], u⟩
  | .ready (.error e) => ⟨.ready (some (.error (.body e))), [], u⟩
  | .ready (.ok bytes) =>
      let attempts := max u.retry.attempts.toNat 1
      let (sent, ending) := attemptLoop u.retry script.attempts attempts
        attempts 0 (some ⟨parts, bytes⟩) 500
      match ending with
      | .dropped => ⟨.dropped, sent, u⟩
      | .panicked => ⟨.ready none, sent, u⟩
      | .stop resp =>
          ⟨.ready (some (.ok
              { status := resp.status
                headers := resp.headers
                body := { inner := resp.body, timeout := readTimeout } })),
            sent,
            u.observeBreakerOutcome addrIdx (!isServerError resp.status)
              script.settledAt⟩
      | .clientError connectError =>
          ⟨.ready (some (.error (.client connectError))), sent,
            u.observeBreakerOutcome addrIdx false script.settledAt⟩
      | .exhausted lastStatus =>
          ⟨.ready (some (.error (.retriesExhausted lastStatus))), sent,
            u.observeBreakerOutcome addrIdx false script.settledAt⟩

/--
A pool without addresses sends the request to the URI it came with; otherwise
the URI is rewritten to the picked backend.
-/
def forward (platform : Platform) (u : Upstream) (req : Request)
    (readTimeout : Duration) (script : Script B) : ForwardRun B :=
  let parts := egressParts req.parts
  if u.addrs.isEmpty then
    u.sendBuffered parts req.body none readTimeout script
  else
    match u.pickAddr platform script.pickedAt with
    | none => ⟨.ready (some (.error .breakerOpen)), [], u.advance platform⟩
    | some (_, i) =>
        match rewriteUri platform parts.uri (u.authority i) with
        | .error e =>
            ⟨.ready (some (.error (.body e))), [], u.advance platform⟩
        | .ok uri =>
            (u.advance platform).sendBuffered { parts with uri := uri }
              req.body (some i) readTimeout script

end Upstream

/-! ## One turn of the loop -/

section Turns

variable {B : Type}

def RetryPolicy.again (policy : RetryPolicy) (attempt : Nat) : ClientOutcome B → Bool
  | .response resp => policy.decideStatus resp.status attempt = .retry
  | .error connectError =>
      connectError && policy.onConnectError && attempt + 1 < policy.attempts.toNat

def ClientOutcome.ending : ClientOutcome B → LoopEnd B
  | .response resp => .stop resp
  | .error connectError => .clientError connectError

def ClientOutcome.statusOr (lastStatus : UInt16) : ClientOutcome B → UInt16
  | .response resp => resp.status
  | .error _ => lastStatus

theorem RetryPolicy.decideStatus_eq_retry {policy : RetryPolicy} {status : UInt16}
    {attempt : Nat} :
    policy.decideStatus status attempt = .retry ↔
      status ∈ policy.onStatus ∧ attempt + 1 < policy.attempts.toNat := by
  unfold decideStatus
  split_ifs <;> simp_all

theorem RetryPolicy.lt_attempts_of_again {policy : RetryPolicy} {attempt : Nat}
    {outcome : ClientOutcome B} (h : policy.again attempt outcome = true) :
    attempt + 1 < policy.attempts.toNat := by
  cases outcome with
  | response resp =>
      simp only [again, decide_eq_true_eq, decideStatus_eq_retry] at h
      exact h.2
  | error connectError =>
      simp only [again, Bool.and_eq_true, decide_eq_true_eq] at h
      exact h.2

theorem attemptLoop_dropped {retry : RetryPolicy}
    {script : Nat → Awaited (ClientOutcome B)} {attempt : Nat}
    (hdropped : script attempt = .dropped) (attempts remaining : Nat) (req : Outbound)
    (lastStatus : UInt16) :
    attemptLoop retry script attempts (remaining + 1) attempt (some req) lastStatus =
      ([req], .dropped) := by
  simp only [attemptLoop, hdropped]

theorem attemptLoop_ending {retry : RetryPolicy}
    {script : Nat → Awaited (ClientOutcome B)} {attempt : Nat} {outcome : ClientOutcome B}
    (hready : script attempt = .ready outcome) (hagain : retry.again attempt outcome = false)
    (attempts remaining : Nat) (req : Outbound) (lastStatus : UInt16) :
    attemptLoop retry script attempts (remaining + 1) attempt (some req) lastStatus =
      ([req], outcome.ending) := by
  simp only [attemptLoop, hready]
  cases outcome with
  | response resp =>
      simp only [RetryPolicy.again, decide_eq_false_iff_not] at hagain
      cases hdecide : retry.decideStatus resp.status attempt with
      | stop =>
          simp only [hdecide]
          rfl
      | retry => exact absurd hdecide hagain
  | error connectError =>
      simp only [RetryPolicy.again] at hagain
      simp only [hagain]
      rfl

theorem attemptLoop_again {retry : RetryPolicy}
    {script : Nat → Awaited (ClientOutcome B)} {attempt : Nat} {outcome : ClientOutcome B}
    (hready : script attempt = .ready outcome) (hagain : retry.again attempt outcome = true)
    (remaining : Nat) (req : Outbound) (lastStatus : UInt16) :
    attemptLoop retry script (attempt + (remaining + 1)) (remaining + 1) attempt (some req)
        lastStatus =
      let rest := attemptLoop retry script (attempt + 1 + remaining) remaining (attempt + 1)
        (some req) (outcome.statusOr lastStatus)
      (req :: rest.1, rest.2) := by
  have hheld : ∀ status, attemptLoop retry script (attempt + (remaining + 1)) remaining
      (attempt + 1) (if attempt + 1 = attempt + (remaining + 1) then none else some req)
      status = attemptLoop retry script (attempt + 1 + remaining) remaining (attempt + 1)
        (some req) status := by
    intro status
    cases remaining with
    | zero => rfl
    | succ remaining =>
        rw [if_neg (by omega), show attempt + (remaining + 1 + 1) =
          attempt + 1 + (remaining + 1) by omega]
  cases outcome with
  | response resp =>
      simp only [RetryPolicy.again, decide_eq_true_eq] at hagain
      simp only [attemptLoop, hready, hagain, hheld]
      rfl
  | error connectError =>
      simp only [RetryPolicy.again] at hagain
      simp only [attemptLoop, hready, hagain, if_true, hheld]
      rfl

end Turns

/-! ## What is sent -/

theorem attemptLoop_sent {B : Type} (retry : RetryPolicy)
    (script : Nat → Awaited (ClientOutcome B)) (remaining attempt : Nat)
    (req : Outbound) (lastStatus : UInt16) :
    ∀ out ∈ (attemptLoop retry script (attempt + remaining) remaining attempt
      (some req) lastStatus).1, out = req := by
  induction remaining generalizing attempt lastStatus with
  | zero => simp [attemptLoop]
  | succ remaining ih =>
      intro out hout
      cases hscript : script attempt with
      | dropped =>
          rw [attemptLoop_dropped hscript] at hout
          exact List.mem_singleton.mp hout
      | ready outcome =>
          cases hagain : retry.again attempt outcome with
          | false =>
              rw [attemptLoop_ending hscript hagain] at hout
              exact List.mem_singleton.mp hout
          | true =>
              rw [attemptLoop_again hscript hagain] at hout
              rcases List.mem_cons.mp hout with rfl | hout
              · rfl
              · exact ih _ _ out hout

theorem attemptLoop_not_panicked {B : Type} (retry : RetryPolicy)
    (script : Nat → Awaited (ClientOutcome B)) (remaining attempt : Nat)
    (req : Outbound) (lastStatus : UInt16) :
    (attemptLoop retry script (attempt + remaining) remaining attempt
      (some req) lastStatus).2 ≠ .panicked := by
  induction remaining generalizing attempt lastStatus with
  | zero => simp [attemptLoop]
  | succ remaining ih =>
      cases hscript : script attempt with
      | dropped => simp [attemptLoop_dropped hscript]
      | ready outcome =>
          cases hagain : retry.again attempt outcome with
          | false =>
              rw [attemptLoop_ending hscript hagain]
              cases outcome <;> simp [ClientOutcome.ending]
          | true =>
              rw [attemptLoop_again hscript hagain]
              exact ih _ _

namespace Upstream

variable {B : Type}

theorem sendBuffered_sent (u : Upstream) (parts : RequestParts)
    (body : RequestBody) (addrIdx : Option Nat) (readTimeout : Duration)
    (script : Script B) :
    ∀ out ∈ (u.sendBuffered parts body addrIdx readTimeout script).sent,
      out.parts = parts := by
  intro out hout
  unfold sendBuffered at hout
  split at hout
  · simp at hout
  · simp at hout
  · rename_i bytes _
    have hheld := attemptLoop_sent u.retry script.attempts
      (max u.retry.attempts.toNat 1) 0 ⟨parts, bytes⟩ 500
    rw [Nat.zero_add] at hheld
    suffices hloop : out = ⟨parts, bytes⟩ by rw [hloop]
    apply hheld out
    dsimp only at hout
    split at hout <;> exact hout

theorem sendBuffered_not_panicked (u : Upstream) (parts : RequestParts)
    (body : RequestBody) (addrIdx : Option Nat) (readTimeout : Duration)
    (script : Script B) :
    (u.sendBuffered parts body addrIdx readTimeout script).result ≠
      .ready none := by
  unfold sendBuffered
  split
  · simp
  · simp
  · rename_i bytes _
    have hloop := attemptLoop_not_panicked u.retry script.attempts
      (max u.retry.attempts.toNat 1) 0 ⟨parts, bytes⟩ 500
    rw [Nat.zero_add] at hloop
    dsimp only
    split
    · simp
    · rename_i hpanic
      exact absurd hpanic hloop
    · simp
    · simp
    · simp

theorem forward_not_panicked (platform : Platform) (u : Upstream)
    (req : Request) (readTimeout : Duration) (script : Script B) :
    (u.forward platform req readTimeout script).result ≠ .ready none := by
  unfold forward
  dsimp only
  split
  · exact sendBuffered_not_panicked _ _ _ _ _ _
  · split
    · simp
    · split
      · simp
      · exact sendBuffered_not_panicked _ _ _ _ _ _

def RewriteFails (platform : Platform) (u : Upstream) (req : Request)
    (pickedAt : Nat) : Prop :=
  ∃ addr i e, u.pickAddr platform pickedAt = some (addr, i) ∧
    rewriteUri platform (egressParts req.parts).uri (u.authority i) = .error e

section Rewriting

/-- `Uri::from_parts` assembles a URI that has all three parts. -/
def Assembles (platform : Platform) : Prop :=
  ∀ scheme authority pathAndQuery,
    platform.fromParts ⟨some scheme, some authority, some pathAndQuery⟩ =
      .ok ⟨⟨some scheme, some authority, some pathAndQuery⟩⟩

variable {platform : Platform} (hfrom : Assembles platform)
include hfrom

theorem rewriteUri_eq_ok (original : Uri) (authority : Authority) :
    ∃ uri, rewriteUri platform original authority = .ok uri ∧
      uri.parts.authority = some authority :=
  ⟨_, hfrom _ _ _, rfl⟩

theorem not_rewriteFails (u : Upstream) (req : Request) (pickedAt : Nat) :
    ¬ u.RewriteFails platform req pickedAt := by
  rintro ⟨addr, i, e, -, herror⟩
  obtain ⟨uri, hok, -⟩ := rewriteUri_eq_ok hfrom (egressParts req.parts).uri
    (u.authority i)
  rw [hok] at herror
  cases herror

theorem forward_sent (u : Upstream) (haddrs : u.addrs ≠ []) (req : Request)
    (readTimeout : Duration) (script : Script B) :
    ∃ addr ∈ u.addrs,
      ∀ out ∈ (u.forward platform req readTimeout script).sent,
        out.parts.uri.parts.authority = some addr.authority := by
  have hsome : ∃ addr, addr ∈ u.addrs := List.exists_mem_of_ne_nil _ haddrs
  unfold forward
  simp only [List.isEmpty_iff, haddrs, if_false]
  split
  · exact hsome.imp fun addr haddr => ⟨haddr, by simp⟩
  · rename_i i _
    obtain ⟨uri, hok, hauthority⟩ := rewriteUri_eq_ok hfrom
      (egressParts req.parts).uri (u.authority i)
    refine ⟨u.addrs.get i, List.get_mem .., ?_⟩
    intro out hout
    simp only [hok] at hout
    rw [sendBuffered_sent _ _ _ _ _ _ out hout, ← u.authority_eq i]
    exact hauthority

end Rewriting

/-! ## What a request leaves alone -/

structure Fixed where
  client : Option ClientConfig
  connectTimeout : Option Duration
  retry : RetryPolicy
  addrs : List SocketAddr

def fixed (u : Upstream) : Fixed :=
  ⟨u.client, u.connectTimeout, u.retry, u.addrs⟩

@[simp] theorem advance_breakers (platform : Platform) (u : Upstream) :
    (u.advance platform).breakers = u.breakers := by
  unfold advance
  split <;> rfl

@[simp] theorem fixed_advance (platform : Platform) (u : Upstream) :
    (u.advance platform).fixed = u.fixed := by
  unfold advance
  split <;> rfl

@[simp] theorem fixed_observeBreakerOutcome (u : Upstream)
    (idx : Option Nat) (success : Bool) (now : Nat) :
    (u.observeBreakerOutcome idx success now).fixed = u.fixed := by
  unfold observeBreakerOutcome
  split
  · rfl
  · split <;> rfl

theorem sendBuffered_upstream (u : Upstream) (parts : RequestParts)
    (body : RequestBody) (addrIdx : Option Nat) (readTimeout : Duration)
    (script : Script B) :
    (u.sendBuffered parts body addrIdx readTimeout script).upstream = u ∨
    ∃ success, (u.sendBuffered parts body addrIdx readTimeout script).upstream =
      u.observeBreakerOutcome addrIdx success script.settledAt := by
  unfold sendBuffered
  split
  · exact .inl rfl
  · exact .inl rfl
  · dsimp only
    split
    · exact .inl rfl
    · exact .inl rfl
    · exact .inr ⟨_, rfl⟩
    · exact .inr ⟨_, rfl⟩
    · exact .inr ⟨_, rfl⟩

theorem forward_upstream (platform : Platform) {u : Upstream}
    (haddrs : u.addrs ≠ []) (req : Request) (readTimeout : Duration)
    (script : Script B) :
    (u.forward platform req readTimeout script).upstream = u.advance platform ∨
    ∃ addr i success, u.pickAddr platform script.pickedAt = some (addr, i) ∧
      (u.forward platform req readTimeout script).upstream =
        (u.advance platform).observeBreakerOutcome (some i) success
          script.settledAt := by
  unfold forward
  simp only [List.isEmpty_iff, haddrs, if_false]
  split
  · exact .inl rfl
  · rename_i addr i hpick
    split
    · exact .inl rfl
    · rename_i uri _
      rcases sendBuffered_upstream (u.advance platform)
          { egressParts req.parts with uri := uri } req.body (some i.val)
          readTimeout script with heq | ⟨success, heq⟩
      · exact .inl heq
      · exact .inr ⟨addr, i, success, hpick, heq⟩

theorem fixed_sendBuffered (u : Upstream) (parts : RequestParts)
    (body : RequestBody) (addrIdx : Option Nat) (readTimeout : Duration)
    (script : Script B) :
    (u.sendBuffered parts body addrIdx readTimeout script).upstream.fixed =
      u.fixed := by
  rcases sendBuffered_upstream u parts body addrIdx readTimeout script with
    heq | ⟨success, heq⟩
  · rw [heq]
  · rw [heq, fixed_observeBreakerOutcome]

theorem fixed_forward (platform : Platform) (u : Upstream) (req : Request)
    (readTimeout : Duration) (script : Script B) :
    (u.forward platform req readTimeout script).upstream.fixed = u.fixed := by
  by_cases haddrs : u.addrs = []
  · simp only [forward, haddrs, List.isEmpty_nil, if_true]
    exact fixed_sendBuffered ..
  · rcases forward_upstream platform haddrs req readTimeout script with
      heq | ⟨_, _, _, -, heq⟩
    · rw [heq, fixed_advance]
    · rw [heq, fixed_observeBreakerOutcome, fixed_advance]

end Upstream

/-! ## Requests that get to an attempt -/

def LoopEnd.result {B : Type} (readTimeout : Duration) :
    LoopEnd B → Awaited (Option (Except ForwardError (Response (TimedBody B))))
  | .stop resp =>
      .ready (some (.ok
        { status := resp.status
          headers := resp.headers
          body := { inner := resp.body, timeout := readTimeout } }))
  | .clientError connectError => .ready (some (.error (.client connectError)))
  | .exhausted lastStatus => .ready (some (.error (.retriesExhausted lastStatus)))
  | .dropped => .dropped
  | .panicked => .ready none

inductive Blocked where
  | failed (e : ForwardError)
  | stalled
  deriving DecidableEq, Repr

def Blocked.result {B : Type} :
    Blocked → Awaited (Option (Except ForwardError (Response (TimedBody B))))
  | .failed e => .ready (some (.error e))
  | .stalled => .dropped

/-- The call of `observe_breaker_outcome` on the way out of the loop. -/
def LoopEnd.outcome {B : Type} : LoopEnd B → Option Bool
  | .stop resp => some (!isServerError resp.status)
  | .clientError _ | .exhausted _ => some false
  | .dropped | .panicked => none

namespace Upstream

variable {B : Type}

/-- The picked backend and the request as it goes out, or what keeps it back. -/
def outbound (platform : Platform) (u : Upstream) (req : Request) (script : Script B) :
    Except Blocked (Fin u.addrs.length × Outbound) :=
  match u.pickAddr platform script.pickedAt with
  | none => .error (.failed .breakerOpen)
  | some (_, i) =>
      let parts := egressParts req.parts
      match rewriteUri platform parts.uri (u.authority i) with
      | .error e => .error (.failed (.body e))
      | .ok uri =>
          match bufferBody req.body script.bodyStalls with
          | .dropped => .error .stalled
          | .ready (.error e) => .error (.failed (.body e))
          | .ready (.ok bytes) => .ok (i, ⟨{ parts with uri := uri }, bytes⟩)

def attemptAll (retry : RetryPolicy) (script : Script B) (out : Outbound) :
    List Outbound × LoopEnd B :=
  let attempts := max retry.attempts.toNat 1
  attemptLoop retry script.attempts attempts attempts 0 (some out) 500

theorem eq_of_mem_attemptAll {retry : RetryPolicy} {script : Script B} {out sent : Outbound}
    (h : sent ∈ (attemptAll retry script out).1) : sent = out := by
  have hloop := attemptLoop_sent retry script.attempts (max retry.attempts.toNat 1) 0 out 500
  rw [Nat.zero_add] at hloop
  exact hloop sent h

/-- The one breaker call a request makes: the backend, and whether it did well. -/
def recorded (platform : Platform) (u : Upstream) (req : Request) (script : Script B) :
    Option (Nat × Bool) :=
  match u.outbound platform req script with
  | .error _ => none
  | .ok (i, out) => (attemptAll u.retry script out).2.outcome.map (i.val, ·)

def observe (u : Upstream) (call : Option (Nat × Bool)) (now : Nat) : Upstream :=
  match call with
  | none => u
  | some (i, success) => u.observeBreakerOutcome (some i) success now

theorem sendBuffered_ready (u : Upstream) {parts : RequestParts} {body : RequestBody}
    (addrIdx : Option Nat) (readTimeout : Duration) {script : Script B} {bytes : List UInt8}
    (hbody : bufferBody body script.bodyStalls = .ready (.ok bytes)) :
    u.sendBuffered parts body addrIdx readTimeout script =
      { result := (attemptAll u.retry script ⟨parts, bytes⟩).2.result readTimeout
        sent := (attemptAll u.retry script ⟨parts, bytes⟩).1
        upstream := ((attemptAll u.retry script ⟨parts, bytes⟩).2.outcome.map
          fun success => u.observeBreakerOutcome addrIdx success script.settledAt).getD u } := by
  simp only [sendBuffered, hbody, attemptAll]
  split <;> rename_i hend <;> rw [hend] <;> rfl

theorem observe_map (u : Upstream) (i : Nat) (outcome : Option Bool) (now : Nat) :
    u.observe (outcome.map (i, ·)) now =
      (outcome.map fun success => u.observeBreakerOutcome (some i) success now).getD u := by
  cases outcome <;> rfl

@[simp] theorem advance_retry (platform : Platform) (u : Upstream) :
    (u.advance platform).retry = u.retry :=
  congrArg Fixed.retry (fixed_advance platform u)

theorem forward_of_outbound (platform : Platform) {u : Upstream} {req : Request}
    (readTimeout : Duration) {script : Script B} {i : Fin u.addrs.length} {out : Outbound}
    (hout : u.outbound platform req script = .ok (i, out)) :
    u.forward platform req readTimeout script =
      { result := (attemptAll u.retry script out).2.result readTimeout
        sent := (attemptAll u.retry script out).1
        upstream := (u.advance platform).observe
          ((attemptAll u.retry script out).2.outcome.map (i.val, ·))
          script.settledAt } := by
  have haddrs : u.addrs.isEmpty = false := by
    cases hnil : u.addrs with
    | nil => exact absurd i.isLt (by simp [hnil])
    | cons addr addrs => rfl
  unfold outbound at hout
  split at hout
  · cases hout
  · rename_i addr j hpick
    dsimp only at hout
    split at hout
    · cases hout
    · rename_i uri huri
      split at hout
      · cases hout
      · cases hout
      · rename_i bytes hbody
        cases hout
        simp only [forward, haddrs, hpick, huri, Bool.false_eq_true, if_false]
        rw [sendBuffered_ready _ _ _ hbody, advance_retry, observe_map]

theorem forward_of_blocked (platform : Platform) {u : Upstream} (haddrs : u.addrs ≠ [])
    {req : Request} (readTimeout : Duration) {script : Script B} {blocked : Blocked}
    (hout : u.outbound platform req script = .error blocked) :
    u.forward platform req readTimeout script =
      ⟨blocked.result, [], u.advance platform⟩ := by
  simp only [forward, List.isEmpty_iff, haddrs, if_false]
  cases hpick : u.pickAddr platform script.pickedAt with
  | none =>
      simp only [outbound, hpick] at hout
      cases hout
      rfl
  | some picked =>
      obtain ⟨addr, i⟩ := picked
      dsimp only
      cases huri : rewriteUri platform (egressParts req.parts).uri (u.authority i) with
      | error e =>
          simp only [outbound, hpick, huri] at hout
          cases hout
          rfl
      | ok uri =>
          simp only [outbound, hpick, huri] at hout
          simp only [sendBuffered]
          cases hbody : bufferBody req.body script.bodyStalls with
          | dropped =>
              rw [hbody] at hout
              cases hout
              rfl
          | ready collected =>
              rw [hbody] at hout
              cases collected with
              | error e =>
                  cases hout
                  rfl
              | ok bytes => cases hout

theorem advance_eq_self (platform : Platform) {u : Upstream} (haddrs : u.addrs = []) :
    u.advance platform = u := by
  simp [advance, haddrs]

theorem forward_observe (platform : Platform) (u : Upstream) (req : Request)
    (readTimeout : Duration) (script : Script B) :
    (u.forward platform req readTimeout script).upstream =
      (u.advance platform).observe (u.recorded platform req script) script.settledAt := by
  cases hout : u.outbound platform req script with
  | ok sending =>
      obtain ⟨i, out⟩ := sending
      rw [forward_of_outbound platform readTimeout hout, recorded, hout]
  | error blocked =>
      have hrecorded : u.recorded platform req script = none := by
        rw [recorded, hout]
      rw [hrecorded]
      by_cases haddrs : u.addrs = []
      · simp only [forward, haddrs, List.isEmpty_nil, if_true]
        rw [advance_eq_self platform haddrs]
        rcases sendBuffered_upstream u (egressParts req.parts) req.body none readTimeout
          script with heq | ⟨success, heq⟩
        · exact heq
        · exact heq
      · rw [forward_of_blocked platform haddrs readTimeout hout]
        rfl

theorem recorded_of_dropped (platform : Platform) {u : Upstream} {req : Request}
    {readTimeout : Duration} {script : Script B}
    (hdropped : (u.forward platform req readTimeout script).result = .dropped) :
    u.recorded platform req script = none := by
  cases hout : u.outbound platform req script with
  | error blocked => rw [recorded, hout]
  | ok sending =>
      obtain ⟨i, out⟩ := sending
      rw [forward_of_outbound platform readTimeout hout] at hdropped
      have houtcome : (attemptAll u.retry script out).2.outcome = none := by
        cases hend : (attemptAll u.retry script out).2 with
        | dropped => rfl
        | panicked => rfl
        | stop resp => simp [hend, LoopEnd.result] at hdropped
        | clientError connectError => simp [hend, LoopEnd.result] at hdropped
        | exhausted lastStatus => simp [hend, LoopEnd.result] at hdropped
      simp [recorded, hout, houtcome]

end Upstream

end Conduit
