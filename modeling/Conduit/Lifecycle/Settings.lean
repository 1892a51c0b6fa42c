import Conduit.Lifecycle.Dispatch
import Conduit.Upstream.Probe

/-!
# Settings on their way to the backend

A route may carry a retry block and an upstream a TLS block.  The file
compares what `forward` does with what it would do under the route's own
block, and the scheme it sends with the scheme that the prober of the same
entry uses.
-/

namespace Conduit

open Foundation

/-! ## The first outcome -/

section FirstOutcome

variable {B : Type}

/-- The policy asks for a second attempt after the first one ended so. -/
def RetryPolicy.retriesFirst (policy : RetryPolicy) : Awaited (ClientOutcome B) → Bool
  | .dropped => false
  | .ready outcome => policy.again 0 outcome

theorem RetryPolicy.retriesFirst_default (outcome : Awaited (ClientOutcome B)) :
    retriesFirst {} outcome = false := by
  cases outcome with
  | dropped => rfl
  | ready outcome =>
      cases outcome with
      | response resp => simp [retriesFirst, again, decideStatus]
      | error connectError => simp [retriesFirst, again]

def Awaited.firstEnd : Awaited (ClientOutcome B) → LoopEnd B
  | .dropped => .dropped
  | .ready outcome => outcome.ending

end FirstOutcome

namespace Upstream

variable {B : Type} {policy : RetryPolicy} {script : Script B}

theorem attemptAll_once (out : Outbound)
    (h : policy.retriesFirst (script.attempts 0) = false) :
    attemptAll policy script out = ([out], (script.attempts 0).firstEnd) := by
  obtain ⟨n, hn⟩ : ∃ n, max policy.attempts.toNat 1 = n + 1 :=
    Nat.exists_eq_add_of_le' (le_max_right _ _)
  simp only [attemptAll, hn]
  cases hfirst : script.attempts 0 with
  | dropped => exact attemptLoop_dropped hfirst _ _ _ _
  | ready outcome =>
      rw [hfirst] at h
      exact attemptLoop_ending hfirst h _ _ _ _

theorem attemptLoop_sent_ne_nil (retry : RetryPolicy)
    (attempts : Nat → Awaited (ClientOutcome B)) (limit remaining attempt : Nat)
    (out : Outbound) (lastStatus : UInt16) :
    (attemptLoop retry attempts limit (remaining + 1) attempt (some out) lastStatus).1 ≠
      [] := by
  simp only [attemptLoop]
  split
  · simp
  · split <;> simp
  · split <;> simp

theorem attemptAll_again (out : Outbound)
    (h : policy.retriesFirst (script.attempts 0) = true) :
    1 < (attemptAll policy script out).1.length := by
  cases hfirst : script.attempts 0 with
  | dropped =>
      rw [hfirst] at h
      cases h
  | ready outcome =>
      rw [hfirst] at h
      have hattempts := RetryPolicy.lt_attempts_of_again h
      obtain ⟨n, hn⟩ : ∃ n, max policy.attempts.toNat 1 = n + 2 :=
        Nat.exists_eq_add_of_le' (by omega)
      have hloop := attemptLoop_again hfirst h (n + 1) out 500
      rw [Nat.zero_add] at hloop
      simp only [attemptAll, hn, hloop, List.length_cons]
      exact Nat.succ_lt_succ (List.length_pos_of_ne_nil
        (attemptLoop_sent_ne_nil _ _ _ _ _ _ _))

/-! ## Under another policy -/

def withRetry (u : Upstream) (retry : RetryPolicy) : Upstream := { u with retry := retry }

theorem outbound_withRetry (platform : Platform) (u : Upstream) (retry : RetryPolicy)
    (req : Request) (script : Script B) :
    (u.withRetry retry).outbound platform req script = u.outbound platform req script := by
  have hsame : (u.withRetry retry).pickAddr platform script.pickedAt =
    u.pickAddr platform script.pickedAt := rfl
  cases hpick : u.pickAddr platform script.pickedAt with
  | none =>
      simp only [outbound, hsame.trans hpick, hpick]
      rfl
  | some picked =>
      have hauthority : (u.withRetry retry).authority picked.2 = u.authority picked.2 := rfl
      simp only [outbound, hsame.trans hpick, hpick, hauthority]
      rfl

theorem fromConfig_retry {platform : Platform} {files : Files} {now : Nat}
    {u : Config.Upstream} {pool : Upstream}
    (h : Upstream.fromConfig platform files now u = .ok pool) : pool.retry = {} := by
  simp only [Upstream.fromConfig, Upstream.withTls, bind_eq_ok] at h
  obtain ⟨client, -, hpool⟩ := h
  cases hpool
  rfl

end Upstream

/-! ## Retry rules -/

def Config.Route.retryPolicy (r : Config.Route) : Conduit.RetryPolicy :=
  (r.retry.map Conduit.RetryPolicy.fromConfig).getD {}

def Config.Matches (platform : Platform) (cfg : Config) (req : Request)
    (r : Config.Route) : Prop :=
  IsFirstLeast (fun r => (Conduit.Route.fromConfig platform r).rank)
    (fun r => (Conduit.Route.fromConfig platform r).isCandidate req.host
      req.parts.uri.path req.parts.headers) cfg.routes r

namespace Dispatch

variable {B : Type} {platform : Platform} {files : Files} {now : Nat} {cfg : Config}
  {opts : ValidationOptions} {d : Dispatch}

theorem Over.selectRoute_of_matches (hd : d.Over platform files now cfg) {req : Request}
    {r : Config.Route} (hr : cfg.Matches platform req r) :
    d.selectRoute req = .ok (Route.fromConfig platform r) := by
  rw [selectRoute_eq_ok, hd.routes, RouteTable.fromConfig,
    RouteTable.ofRoutes_find_eq_some_iff]
  exact IsFirstLeast.map (Route.fromConfig platform) hr

theorem Over.handle_of_matches (hd : d.Over platform files now cfg) {req : Request}
    {r : Config.Route} (hr : cfg.Matches platform req r) {pool : Upstream}
    (hpool : d.upstreams.get r.upstream = some pool) (script : Script B) :
    (d.handle platform req script).sent =
        (pool.forward platform req r.timeouts.read script).sent ∧
      (d.handle platform req script).result = underTimeout r.timeouts.total
        (pool.forward platform req r.timeouts.read script).result := by
  rw [handle_of_selected (hd.selectRoute_of_matches hr) hpool]
  exact ⟨rfl, rfl⟩

theorem Over.pool_retry (hd : d.Over platform files now cfg) (hwf : cfg.WellFormed opts)
    {name : String} {pool : Upstream} (hget : d.upstreams.get name = some pool) :
    pool.retry = {} := by
  obtain ⟨u, -, -, built, hok, hfixed⟩ := hd.built hwf hget
  exact (congrArg Upstream.Fixed.retry hfixed).trans (Upstream.fromConfig_retry hok)

theorem Over.addrs_ne_nil (hd : d.Over platform files now cfg) (hwf : cfg.WellFormed opts)
    {name : String} {pool : Upstream} (hget : d.upstreams.get name = some pool) :
    pool.addrs ≠ [] := by
  obtain ⟨u, hu, -, haddrs⟩ := hd.pool hwf hget
  rw [haddrs]
  exact (hwf.upstreams u hu).addrs_ne_nil

theorem Over.forward_once (hd : d.Over platform files now cfg) (hwf : cfg.WellFormed opts)
    {name : String} {pool : Upstream} (hget : d.upstreams.get name = some pool)
    (req : Request) (readTimeout : Duration) (script : Script B) :
    (pool.forward platform req readTimeout script).sent.length ≤ 1 := by
  cases hout : pool.outbound platform req script with
  | error blocked =>
      rw [Upstream.forward_of_blocked platform (hd.addrs_ne_nil hwf hget) readTimeout hout]
      exact Nat.zero_le 1
  | ok sending =>
      obtain ⟨i, out⟩ := sending
      rw [Upstream.forward_of_outbound platform readTimeout hout, hd.pool_retry hwf hget,
        Upstream.attemptAll_once out (RetryPolicy.retriesFirst_default _)]
      exact le_refl 1

/--
The dispatcher does what the block of the matched route asks for exactly when
the block asks for one attempt only, or when no attempt is made.
-/
theorem retry_rules_take_effect_iff (platform : Platform) (files : Files) (now : Nat)
    (cfg : Config) (opts : ValidationOptions)
    (hcfg : check opts files.isFile cfg = .ok ()) (d : Dispatch)
    (hd : d.Over platform files now cfg) (req : Request) (script : Script B)
    (r : Config.Route) (hr : cfg.Matches platform req r) (pool : Upstream)
    (hpool : d.upstreams.get r.upstream = some pool) :
    (((d.handle platform req script).sent.length =
        ((pool.withRetry r.retryPolicy).forward platform req r.timeouts.read
          script).sent.length ∧
      (d.handle platform req script).result =
        underTimeout r.timeouts.total ((pool.withRetry r.retryPolicy).forward platform req
          r.timeouts.read script).result) ↔
      ¬ ((pool.outbound platform req script).isOk = true ∧
        r.retryPolicy.retriesFirst (script.attempts 0) = true)) ∧
    (r.retry = none → (d.handle platform req script).sent.length ≤ 1) := by
  have hwf := ((check_ok_iff opts files.isFile cfg).mp hcfg).1
  have haddrs := hd.addrs_ne_nil hwf hpool
  have hwanted := Upstream.outbound_withRetry platform pool r.retryPolicy req script
  obtain ⟨hsent, hresult⟩ := hd.handle_of_matches hr hpool script
  rw [hsent, hresult]
  refine ⟨?_, fun _ => hd.forward_once hwf hpool req r.timeouts.read script⟩
  cases hout : pool.outbound platform req script with
  | error blocked =>
      rw [Upstream.forward_of_blocked platform haddrs r.timeouts.read hout,
        Upstream.forward_of_blocked platform (u := pool.withRetry r.retryPolicy) haddrs
          r.timeouts.read (hwanted.trans hout)]
      simp [Except.isOk, Except.toBool]
  | ok sending =>
      obtain ⟨i, out⟩ := sending
      have honce : Upstream.attemptAll {} script out =
          ([out], (script.attempts 0).firstEnd) :=
        Upstream.attemptAll_once out (RetryPolicy.retriesFirst_default _)
      have hpolicy : (pool.withRetry r.retryPolicy).retry = r.retryPolicy := rfl
      rw [Upstream.forward_of_outbound platform r.timeouts.read hout,
        Upstream.forward_of_outbound platform (u := pool.withRetry r.retryPolicy)
          r.timeouts.read (hwanted.trans hout),
        hd.pool_retry hwf hpool, hpolicy, honce]
      cases hretries : r.retryPolicy.retriesFirst (script.attempts 0) with
      | false =>
          rw [Upstream.attemptAll_once out hretries]
          simp
      | true =>
          have hagain := Upstream.attemptAll_again out hretries
          simp only [List.length_singleton, hagain.ne, false_and, Except.isOk,
            Except.toBool, and_self, not_true_eq_false]

end Dispatch

namespace Sample

def retrying : Config.Route :=
  { prefixAndRegex with retry := some { attempts := 3, onStatus := [503] } }

def retryingDocument : Config := { document with routes := [retrying] }

theorem matches_retrying : retryingDocument.Matches .concrete request retrying :=
  ⟨[], [], rfl, by decide, by simp, by simp⟩

def unavailable : Script Unit :=
  { answering with attempts := fun _ => .ready (.response ⟨503, [], ()⟩) }

end Sample

namespace Dispatch

theorem retry_block_is_ignored :
    let d := fromConfig .concrete Sample.noFiles 0 Sample.retryingDocument
    check {} Sample.noFiles.isFile Sample.retryingDocument = .ok () ∧
    Sample.retryingDocument.Matches .concrete Sample.request Sample.retrying ∧
    d.upstreams.get "api" = some Sample.pool ∧
    (d.handle .concrete Sample.request Sample.unavailable).sent.length = 1 ∧
    ((Sample.pool.withRetry Sample.retrying.retryPolicy).forward .concrete Sample.request
      Sample.retrying.timeouts.read Sample.unavailable).sent.length = 3 := by
  refine ⟨by decide, Sample.matches_retrying, Sample.get_pool rfl, ?_, by decide⟩
  rw [(over_fromConfig.handle_of_matches Sample.matches_retrying (Sample.get_pool rfl) _).1]
  decide

theorem retry_rules_take_effect_iff_sample :
    let d := fromConfig .concrete Sample.noFiles 0 Sample.retryingDocument
    (d.handle .concrete Sample.request Sample.answering).sent.length =
      ((Sample.pool.withRetry Sample.retrying.retryPolicy).forward .concrete Sample.request
        Sample.retrying.timeouts.read Sample.answering).sent.length := by
  refine ((retry_rules_take_effect_iff .concrete Sample.noFiles 0 Sample.retryingDocument {}
    (by decide) _ over_fromConfig Sample.request Sample.answering Sample.retrying
    Sample.matches_retrying Sample.pool (Sample.get_pool rfl)).1.mpr ?_).1
  decide

end Dispatch

/-! ## The scheme to the backend -/

namespace Upstream

variable {B : Type}

theorem outbound_scheme {platform : Platform} (hfrom : Assembles platform) {u : Upstream}
    {req : Request} {script : Script B} {i : Fin u.addrs.length} {out : Outbound}
    (hout : u.outbound platform req script = .ok (i, out)) :
    out.parts.uri.parts.scheme = some .http := by
  unfold outbound at hout
  split at hout
  · cases hout
  · dsimp only at hout
    split at hout
    · cases hout
    · rename_i uri huri
      rw [rewriteUri, hfrom] at huri
      cases huri
      split at hout <;> cases hout
      rfl

theorem forward_sent_scheme {platform : Platform} (hfrom : Assembles platform)
    {u : Upstream} {req : Request} {script : Script B} {i : Fin u.addrs.length}
    {out : Outbound} (readTimeout : Duration)
    (hout : u.outbound platform req script = .ok (i, out)) :
    (u.forward platform req readTimeout script).sent ≠ [] ∧
      ∀ sent ∈ (u.forward platform req readTimeout script).sent,
        sent.parts.uri.parts.scheme = some .http := by
  rw [forward_of_outbound platform readTimeout hout]
  obtain ⟨n, hn⟩ : ∃ n, max u.retry.attempts.toNat 1 = n + 1 :=
    Nat.exists_eq_add_of_le' (le_max_right _ _)
  constructor
  · simp only [attemptAll, hn]
    exact attemptLoop_sent_ne_nil _ _ _ _ _ _ _
  · intro sent hsent
    obtain rfl := eq_of_mem_attemptAll hsent
    exact outbound_scheme hfrom hout

end Upstream

theorem Probe.scheme_of_new {platform : Platform} {files : Files} {name : String}
    {addrs : List SocketAddr} {cfg : ProbeConfig} {probe : Probe}
    (h : Probe.new platform files name addrs cfg = .ok probe) :
    probe.scheme = if cfg.tls.isSome then .https else .http := by
  simp only [Probe.new, bind_eq_ok] at h
  obtain ⟨client, -, hprobe⟩ := h
  cases hprobe
  rfl

namespace Dispatch

/--
Requests go out under the scheme of the prober exactly when the entry has no
TLS block, or when no attempt is made.
-/
theorem egress_scheme_agrees_iff {B : Type} (platform : Platform)
    (hfrom : Upstream.Assembles platform) (files : Files) (now : Nat) (cfg : Config)
    (opts : ValidationOptions) (hcfg : check opts files.isFile cfg = .ok ()) (d : Dispatch)
    (hd : d.Over platform files now cfg) (u : Config.Upstream) (_hu : u ∈ cfg.upstreams)
    (pool : Upstream) (hpool : d.upstreams.get u.name = some pool) (hc : Config.HealthCheck)
    (probe : Probe) (hprobe : Probe.new platform files u.name u.addrs
      (ProbeConfig.fromConfig u hc) = .ok probe)
    (req : Request) (readTimeout : Duration) (script : Script B) :
    (probe.scheme = if u.tls.isSome then .https else .http) ∧
    ((∀ out ∈ (pool.forward platform req readTimeout script).sent,
        out.parts.uri.parts.scheme = some probe.scheme) ↔
      u.tls = none ∨ (pool.outbound platform req script).isOk = false) := by
  have hwf := ((check_ok_iff opts files.isFile cfg).mp hcfg).1
  have hscheme : probe.scheme = if u.tls.isSome then .https else .http := by
    rw [Probe.scheme_of_new hprobe, ProbeConfig.fromConfig, Option.isSome_map]
  refine ⟨hscheme, ?_⟩
  cases hout : pool.outbound platform req script with
  | error blocked =>
      rw [Upstream.forward_of_blocked platform (hd.addrs_ne_nil hwf hpool) readTimeout hout]
      simp [Except.isOk, Except.toBool]
  | ok sending =>
      obtain ⟨i, out⟩ := sending
      obtain ⟨hne, hhttp⟩ := Upstream.forward_sent_scheme hfrom readTimeout hout
      simp only [Except.isOk, Except.toBool, Bool.true_eq_false, or_false]
      constructor
      · intro hagree
        obtain ⟨sent, hsent⟩ := List.exists_mem_of_ne_nil _ hne
        have hsame := (hhttp sent hsent).symm.trans (hagree sent hsent)
        cases htls : u.tls with
        | none => rfl
        | some tls => simp [hscheme, htls] at hsame
      · intro htls sent hsent
        rw [hhttp sent hsent, hscheme, htls]
        rfl

end Dispatch

namespace Sample

def encrypted : Config.Upstream := { api with tls := some {} }

def encryptedDocument : Config := { document with upstreams := [encrypted] }

def encryptedPool : Upstream := { pool with client := some ⟨none, none, true⟩ }

def healthCheck : Config.HealthCheck := { interval := Duration.fromSecs 5 }

def plainProbe : Probe where
  upstream := "api"
  addrs := [backend]
  cfg := ProbeConfig.fromConfig api healthCheck
  client := none
  scheme := .http

def encryptedProbe : Probe where
  upstream := "api"
  addrs := [backend]
  cfg := ProbeConfig.fromConfig encrypted healthCheck
  client := some ⟨none, none, true⟩
  scheme := .https

end Sample

namespace Dispatch

theorem tls_block_is_sent_in_plaintext :
    let d := fromConfig .concrete Sample.noFiles 0 Sample.encryptedDocument
    check {} Sample.noFiles.isFile Sample.encryptedDocument = .ok () ∧
    d.upstreams.get "api" = some Sample.encryptedPool ∧
    Probe.new .concrete Sample.noFiles "api" Sample.encrypted.addrs
      (ProbeConfig.fromConfig Sample.encrypted Sample.healthCheck) =
        .ok Sample.encryptedProbe ∧
    Sample.encryptedProbe.scheme = .https ∧
    ((Sample.encryptedPool.forward .concrete Sample.request (Duration.fromSecs 30)
      Sample.answering).sent.map fun out => out.parts.uri.parts.scheme) = [some .http] := by
  refine ⟨by decide, ?_, rfl, rfl, by decide⟩
  exact UpstreamMap.get_fromConfig (by decide) "api"

theorem egress_scheme_agrees_iff_sample :
    Sample.api.tls = none ∧
    ∀ out ∈ (Sample.pool.forward .concrete Sample.request (Duration.fromSecs 30)
      Sample.answering).sent, out.parts.uri.parts.scheme = some Sample.plainProbe.scheme :=
  ⟨rfl, (egress_scheme_agrees_iff .concrete (fun _ _ _ => rfl) Sample.noFiles 0
    Sample.document {} (by decide) _ over_fromConfig Sample.api (by decide) Sample.pool
    (Sample.get_pool rfl) Sample.healthCheck Sample.plainProbe rfl Sample.request _
    Sample.answering).2.mpr (.inl rfl)⟩

end Dispatch

end Conduit
