import Conduit.Config.Schema
import Conduit.Upstream.Breaker

/-!
# An upstream pool: retry policy, client TLS and the load balancer

`Upstream` holds three arrays indexed by backend: addresses, the authorities
rendered from them, and one breaker each.  That they run in parallel is part
of the type, so an index into one is an index into all of them.
-/

namespace Conduit

/-! ## Retry policy -/

inductive RetryDecision where
  | stop
  | retry
  deriving DecidableEq, Repr

structure RetryPolicy where
  attempts : UInt32 := 0
  onStatus : List UInt16 := []
  onConnectError : Bool := false
  deriving DecidableEq, Repr

namespace RetryPolicy

def fromConfig (cfg : Config.RetryPolicy) : RetryPolicy :=
  { attempts := cfg.attempts
    onStatus := cfg.onStatus
    onConnectError := cfg.onConnectError }

/-- Attempts are numbered from zero. -/
def decideStatus (policy : RetryPolicy) (status : UInt16) (attempt : Nat) :
    RetryDecision :=
  if status ∉ policy.onStatus then .stop
  else if policy.attempts.toNat ≤ attempt + 1 then .stop
  else .retry

end RetryPolicy

/-! ## Client TLS -/

structure UpstreamTlsOptions where
  ca : Option String := none
  clientCert : Option String := none
  clientKey : Option String := none
  verify : Bool
  deriving DecidableEq, Repr

def UpstreamTlsOptions.fromConfig (t : Config.UpstreamTls) :
    UpstreamTlsOptions :=
  { ca := t.ca
    clientCert := t.clientCert
    clientKey := t.clientKey
    verify := t.verify }

inductive TlsLoadError where
  | readFile (path : String)
  | emptyPem (path : String)
  | rustls
  | mismatchedClientCert
  deriving DecidableEq, Repr

structure ClientConfig where
  roots : Option (List Der)
  clientAuth : Option (List Der × Der)
  verify : Bool
  deriving DecidableEq, Repr

section ClientTls

variable (platform : Platform) (files : Files)

def readPem (path : String) : Except TlsLoadError (List UInt8) :=
  files.readOr (.readFile path) path

def addRoots (path : String) :
    List (Except PemError Der) → Except TlsLoadError (List Der)
  | [] => .ok []
  | .error _ :: _ => .error (.readFile path)
  | .ok cert :: items =>
      if platform.addRoot cert then
        do return cert :: (← addRoots path items)
      else .error .rustls

def loadRoots (path : String) : Except TlsLoadError (List Der) := do
  let bytes ← readPem files path
  let added ← addRoots platform path (platform.pemCerts bytes)
  if added.isEmpty then .error (.emptyPem path) else return added

def loadClientAuth (certPath keyPath : String) :
    Except TlsLoadError (List Der × Der) := do
  let certBytes ← readPem files certPath
  let chain ← collectPem (TlsLoadError.readFile certPath)
    (platform.pemCerts certBytes)
  if chain.isEmpty then .error (.emptyPem certPath)
  else do
    let keyBytes ← readPem files keyPath
    match platform.pemKey keyBytes with
    | .ok key => return (chain, key)
    | .error _ => .error (.readFile keyPath)

def buildClientConfig (opts : UpstreamTlsOptions) :
    Except TlsLoadError ClientConfig := do
  let roots ← match opts.ca with
    | some path => some <$> loadRoots platform files path
    | none => pure none
  let clientAuth ← match opts.clientCert, opts.clientKey with
    | some certPath, some keyPath =>
        some <$> loadClientAuth platform files certPath keyPath
    | none, none => pure none
    | _, _ => .error .mismatchedClientCert
  match clientAuth with
  | some (chain, key) =>
      if platform.clientAuthCert chain key then
        return ⟨roots, clientAuth, opts.verify⟩
      else .error .rustls
  | none => return ⟨roots, clientAuth, opts.verify⟩

/-- Without TLS options the default connector never fails to build. -/
def buildHttpsConnector (tls : Option UpstreamTlsOptions) :
    Except TlsLoadError (Option ClientConfig) :=
  match tls with
  | none => .ok none
  | some opts => some <$> buildClientConfig platform files opts

end ClientTls

/-! ## The pool -/

structure Upstream where
  client : Option ClientConfig
  connectTimeout : Option Duration
  retry : RetryPolicy
  addrs : List SocketAddr
  authorities : List Authority
  next : Nat
  breakers : List Breaker
  authorities_eq : authorities = addrs.map SocketAddr.authority
  length_breakers : breakers.length = addrs.length

namespace Upstream

/-- The full constructor; `now` anchors the breakers' clocks. -/
def withTls (platform : Platform) (files : Files) (now : Nat)
    (retry : RetryPolicy) (addrs : List SocketAddr) (breaker : BreakerConfig)
    (connectTimeout : Option Duration) (tls : Option UpstreamTlsOptions) :
    Except TlsLoadError Upstream := do
  let client ← buildHttpsConnector platform files tls
  return {
    client := client
    connectTimeout := connectTimeout
    retry := retry
    addrs := addrs
    authorities := addrs.map SocketAddr.authority
    next := 0
    breakers := addrs.map fun _ => Breaker.new breaker now
    authorities_eq := rfl
    length_breakers := by simp }

def breaker (u : Upstream) (i : Fin u.addrs.length) : Breaker :=
  u.breakers.get (i.cast u.length_breakers.symm)

def authority (u : Upstream) (i : Fin u.addrs.length) : Authority :=
  u.authorities.get (i.cast (by rw [u.authorities_eq, List.length_map]))

theorem getElem?_breakers (u : Upstream) (i : Fin u.addrs.length) :
    u.breakers[i.val]? = some (u.breaker i) := by
  exact List.getElem?_eq_getElem (i.cast u.length_breakers.symm).isLt

theorem authority_eq (u : Upstream) (i : Fin u.addrs.length) :
    u.authority i = (u.addrs.get i).authority := by
  have hget : ∀ (l : List Authority) (h : l = u.addrs.map SocketAddr.authority)
      (hlen : u.addrs.length = l.length),
      l.get (i.cast hlen) = (u.addrs.get i).authority := by
    rintro _ rfl _
    simp
  exact hget _ u.authorities_eq _

def allows (u : Upstream) (now : Nat) (i : Fin u.addrs.length) : Bool :=
  (u.breaker i).check ((u.breaker i).nowMs now) = .allow

/-- The backend at an offset from the counter, with `usize` wrap-around. -/
def slot (platform : Platform) (u : Upstream) (h : 0 < u.addrs.length)
    (offset : Nat) : Fin u.addrs.length :=
  ⟨(u.next + offset) % 2 ^ platform.usizeBits % u.addrs.length,
    Nat.mod_lt _ h⟩

/-- The first backend whose breaker allows it, from the counter on. -/
def pickAddr (platform : Platform) (u : Upstream) (now : Nat) :
    Option (SocketAddr × Fin u.addrs.length) :=
  if h : 0 < u.addrs.length then
    (List.range u.addrs.length).findSome? fun offset =>
      let i := u.slot platform h offset
      if u.allows now i then some (u.addrs.get i, i) else none
  else none

def advance (platform : Platform) (u : Upstream) : Upstream :=
  if u.addrs.isEmpty then u
  else { u with next := (u.next + 1) % 2 ^ platform.usizeBits }

def setBreaker (u : Upstream) (i : Nat) (b : Breaker) : Upstream :=
  { u with
    breakers := u.breakers.set i b
    length_breakers := by rw [List.length_set, u.length_breakers] }

def observeBreakerOutcome (u : Upstream) (idx : Option Nat) (success : Bool)
    (now : Nat) : Upstream :=
  match idx with
  | none => u
  | some i =>
      match u.breakers[i]? with
      | none => u
      | some b =>
          u.setBreaker i (if success then b.onSuccess
            else b.onFailure (b.nowMs now))

theorem observeBreakerOutcome_failure {u : Upstream} {i : Nat} {b : Breaker}
    (hb : u.breakers[i]? = some b) (now : Nat) :
    (u.observeBreakerOutcome (some i) false now).breakers[i]? =
      some (b.onFailure (b.nowMs now)) := by
  obtain ⟨hlt, rfl⟩ := List.getElem?_eq_some_iff.mp hb
  simp [observeBreakerOutcome, setBreaker, hlt]

theorem pickAddr_first (platform : Platform) {u : Upstream} (now : Nat)
    (h : 0 < u.addrs.length) (hallow : u.allows now (u.slot platform h 0) = true) :
    u.pickAddr platform now =
      some (u.addrs.get (u.slot platform h 0), u.slot platform h 0) := by
  unfold pickAddr
  obtain ⟨n, hn⟩ := Nat.exists_eq_succ_of_ne_zero h.ne'
  simp [hn, List.range_succ_eq_map, hallow]

theorem offer_eq_some {u : Upstream} {now : Nat} {i j : Fin u.addrs.length}
    {addr : SocketAddr} :
    (if u.allows now j then some (u.addrs.get j, j) else none) = some (addr, i) ↔
      u.allows now j = true ∧ u.addrs.get j = addr ∧ j = i := by
  split
  · rename_i hallow
    rw [Option.some.injEq, Prod.mk.injEq, and_iff_right hallow]
  · rename_i hreject
    simp [hreject]

theorem pickAddr_eq_some {platform : Platform} {u : Upstream} {now : Nat}
    {addr : SocketAddr} {i : Fin u.addrs.length}
    (h : u.pickAddr platform now = some (addr, i)) :
    addr = u.addrs.get i ∧ u.allows now i = true := by
  unfold pickAddr at h
  split at h
  · obtain ⟨offset, -, hpick⟩ := List.exists_of_findSome?_eq_some h
    obtain ⟨hallow, rfl, rfl⟩ := offer_eq_some.mp hpick
    exact ⟨rfl, hallow⟩
  · cases h

end Upstream

end Conduit
