import Conduit.Config.Schema
import Conduit.Foundation.Selection
import Conduit.Foundation.Text
import Mathlib.Data.List.Sort
import Mathlib.Tactic.Linarith

/-!
# The route table

Routes grouped by host for constant-time host lookup, then by exact path,
longest prefix, regex and catch-all within each host.  The table is built once
from the configuration and only read afterwards.
-/

namespace Conduit

open Foundation

/-! ## Routes -/

inductive PathMatch where
  | any
  | prefix_ (p : String)
  | exact (p : String)
  | regex (re : Regex)

structure Route where
  host : Option String
  path : PathMatch
  headerMatches : List (HeaderName × HeaderValue)
  upstream : String
  totalTimeout : Duration
  readTimeout : Duration

/-- The first value of every named header must be the wanted one. -/
def Route.headersMatch (r : Route) (headers : HeaderMap) : Bool :=
  r.headerMatches.all fun (name, want) => headers.get name == some want

def Route.fromConfig (platform : Platform) (cfg : Config.Route) : Route :=
  let path :=
    match cfg.match_.pathExact, cfg.match_.pathPrefix, cfg.match_.pathRegex with
    | some s, _, _ => .exact s
    | none, some s, _ => .prefix_ s
    | none, none, some s =>
        match platform.regexNew s with
        | some re => .regex re
        -- The source logs the error and lets the route match any path.
        | none => .any
    | none, none, none => .any
  let headerMatches := cfg.match_.headers.filterMap fun hm => do
    let name ← platform.headerName hm.name
    let value ← platform.headerValue hm.value
    return (name, value)
  { host := cfg.match_.host
    path := path
    headerMatches := headerMatches
    upstream := cfg.upstream
    totalTimeout := cfg.timeouts.total
    readTimeout := cfg.timeouts.read }

/-! ## Host buckets -/

structure HostBucket where
  byExact : Std.HashMap String (List Route) := ∅
  prefixSorted : List (String × List Route) := []
  regexRoutes : List Route := []
  any : List Route := []

namespace HostBucket

def insert (b : HostBucket) (r : Route) : HostBucket :=
  match r.path with
  | .exact p =>
      { b with byExact := b.byExact.alter p fun slot => some (slot.getD [] ++ [r]) }
  | .prefix_ p => { b with prefixSorted := pushSlot p r b.prefixSorted }
  | .regex _ => { b with regexRoutes := b.regexRoutes ++ [r] }
  | .any => { b with any := b.any ++ [r] }

/-- Sort the prefix slots longest first; the sort is stable. -/
def finalise (b : HostBucket) : HostBucket :=
  { b with
    prefixSorted := b.prefixSorted.insertionSort
      fun s s' => byteLen s'.1 ≤ byteLen s.1 }

def findExact (b : HostBucket) (path : String) (headers : HeaderMap) :
    Option Route :=
  b.byExact[path]?.bind fun slot => slot.find? (·.headersMatch headers)

def findPrefix (b : HostBucket) (path : String) (headers : HeaderMap) :
    Option Route :=
  b.prefixSorted.findSome? fun s =>
    if startsWith path s.1 then s.2.find? (·.headersMatch headers) else none

def findRegex (b : HostBucket) (path : String) (headers : HeaderMap) :
    Option Route :=
  b.regexRoutes.find? fun r =>
    match r.path with
    | .regex re => re.isMatch path && r.headersMatch headers
    | _ => false

def find (b : HostBucket) (path : String) (headers : HeaderMap) :
    Option Route :=
  (b.findExact path headers).or <|
    (b.findPrefix path headers).or <|
      (b.findRegex path headers).or <|
        b.any.find? (·.headersMatch headers)

end HostBucket

/-! ## The table -/

structure RouteTable where
  byHost : Std.HashMap String HostBucket := ∅
  wildcard : HostBucket := {}
  len : Nat := 0

namespace RouteTable

def insert (t : RouteTable) (r : Route) : RouteTable :=
  match r.host with
  | some h =>
      { t with
        len := t.len + 1
        byHost := t.byHost.alter (toAsciiLowercase h) fun bucket =>
          some ((bucket.getD {}).insert r) }
  | none => { t with len := t.len + 1, wildcard := t.wildcard.insert r }

def finalise (t : RouteTable) : RouteTable :=
  { t with
    byHost := t.byHost.map fun _ bucket => bucket.finalise
    wildcard := t.wildcard.finalise }

def ofRoutes (routes : List Route) : RouteTable :=
  (routes.foldl insert {}).finalise

def fromConfig (platform : Platform) (cfg : Config) : RouteTable :=
  ofRoutes (cfg.routes.map (Route.fromConfig platform))

/-- A host without ASCII upper-case letters is looked up as it stands. -/
def lookupBucket (t : RouteTable) (host : String) : Option HostBucket :=
  if noAsciiUppercase host then t.byHost[host]?
  else t.byHost[toAsciiLowercase host]?

def findHost (t : RouteTable) (host : Option String) (path : String)
    (headers : HeaderMap) : Option Route := do
  let bucket ← t.lookupBucket (← host)
  bucket.find path headers

def find (t : RouteTable) (host : Option String) (path : String)
    (headers : HeaderMap) : Option Route :=
  (t.findHost host path headers).or (t.wildcard.find path headers)

end RouteTable

end Conduit
