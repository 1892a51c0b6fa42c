import Conduit.Lifecycle.Dispatch

/-!
# Host routing across ingress protocols

An HTTP/1.1 client names its host in a `Host` header; HTTP/2 and HTTP/3
clients name it in `:authority`, which reaches the dispatcher as the authority
of the URI.  `handle` reads the header only.  This file says for which route
tables that makes a difference.
-/

namespace Conduit

open Foundation

/--
One request as two clients send it: `byHeader` names the host `h` in its
`Host` header, `byAuthority` in the URI and has no `Host` header.
-/
structure SameTarget (h : Authority) (byHeader byAuthority : Request) :
    Prop where
  host : byHeader.host = some (String.ofList h.text)
  authority : byAuthority.parts.uri.parts.authority = some h
  no_host : byAuthority.parts.headers.get HOST = none
  path : byHeader.parts.uri.path = byAuthority.parts.uri.path
  headers : byHeader.parts.headers.remove HOST = byAuthority.parts.headers

theorem HeaderMap.get_remove_of_ne {headers : HeaderMap}
    {name name' : HeaderName} (h : name' ≠ name) :
    (headers.remove name).get name' = headers.get name' := by
  unfold get remove
  rw [List.find?_filter]
  congr 2
  funext entry
  by_cases hentry : entry.1 = name'
  · simp [hentry, h]
  · simp [hentry]

theorem Route.headersMatch_remove {r : Route} {name : HeaderName}
    (h : ∀ p ∈ r.headerMatches, p.1 ≠ name) (headers : HeaderMap) :
    r.headersMatch (headers.remove name) = r.headersMatch headers := by
  unfold headersMatch
  rw [Bool.eq_iff_iff, List.all_eq_true, List.all_eq_true]
  apply forall₂_congr
  intro p hp
  dsimp only
  rw [HeaderMap.get_remove_of_ne (h p hp)]

theorem RouteTable.ofRoutes_find_of_host {routes : List Route}
    {host : Option String} {path : String} {headers : HeaderMap} {r : Route}
    (hr : r ∈ routes) (hhost : r.host.isSome = true)
    (hcand : r.isCandidate host path headers = true) :
    ∃ winner, (ofRoutes routes).find host path headers = some winner ∧
      winner.host.isSome = true := by
  have hfound := findHost_ofRoutes routes host path headers
  cases hmin : ((routes.filter (·.isCandidate host path headers)).filter
      fun r => r.host.isSome).argmin Route.rank with
  | none =>
      rw [List.argmin_eq_none, List.filter_eq_nil_iff] at hmin
      exact absurd hhost (hmin r (List.mem_filter.mpr ⟨hr, hcand⟩))
  | some winner =>
      have hmem := List.argmin_mem hmin
      refine ⟨winner, ?_, (List.mem_filter.mp hmem).2⟩
      rw [find, hfound, hmin, Option.some_or]

theorem Route.isCandidate_none {r : Route} {path : String}
    {headers : HeaderMap} (h : r.isCandidate none path headers = true) :
    r.host = none := by
  cases hhost : r.host with
  | none => rfl
  | some name => simp [isCandidate, acceptsHost, hhost] at h

/--
Both clients reach the same route exactly when no route with a host matches
the request.
-/
theorem selectRoute_protocol_independent_iff (routes : List Route)
    (upstreams : UpstreamMap)
    (hpredicates : ∀ r ∈ routes, ∀ p ∈ r.headerMatches, p.1 ≠ HOST)
    (h : Authority) (byHeader byAuthority : Request)
    (hsame : SameTarget h byHeader byAuthority) :
    let d : Dispatch := ⟨RouteTable.ofRoutes routes, upstreams⟩
    d.selectRoute byHeader = d.selectRoute byAuthority ↔
      ∀ r ∈ routes, r.host.isSome = true →
        r.isCandidate (some (String.ofList h.text)) byHeader.parts.uri.path
          byHeader.parts.headers = false := by
  intro d
  have hnone : byAuthority.host = none := by
    simp [Request.host, hsame.no_host]
  constructor
  · intro heq r hr hhost
    by_contra hcand
    rw [Bool.not_eq_false] at hcand
    obtain ⟨winner, hfind, hwinner⟩ :=
      RouteTable.ofRoutes_find_of_host hr hhost hcand
    have hselect : d.selectRoute byHeader = .ok winner := by
      rw [Dispatch.selectRoute_eq_ok, hsame.host]
      exact hfind
    rw [heq, Dispatch.selectRoute_eq_ok, hnone] at hselect
    have hless := (RouteTable.ofRoutes_find_sound hselect).2
    rw [Route.isCandidate_none hless] at hwinner
    cases hwinner
  · intro hall
    -- What is left to match has no host, and reads no `Host` header.
    have hcand : ∀ r ∈ routes,
        r.isCandidate byHeader.host byHeader.parts.uri.path
            byHeader.parts.headers =
          r.isCandidate none byAuthority.parts.uri.path
            byAuthority.parts.headers := by
      intro r hr
      rw [hsame.host]
      cases hhost : r.host with
      | some name =>
          rw [hall r hr (by simp [hhost])]
          simp [Route.isCandidate, Route.acceptsHost, hhost]
      | none =>
          rw [← hsame.path, ← hsame.headers]
          simp only [Route.isCandidate, Route.acceptsHost, hhost,
            Route.headersMatch_remove (hpredicates r hr)]
    simp only [d, Dispatch.selectRoute, RouteTable.ofRoutes_find, scan, hnone,
      List.filter_congr hcand]

/-! ## A route only one of the clients can reach -/

namespace Sample

def tenant : Authority := ⟨"tenant.test".toList, by decide⟩

def byHostHeader : Request where
  parts :=
    { method := "GET"
      uri := ⟨⟨none, none, some ⟨"/", none⟩⟩⟩
      version := .http11
      headers := [(HOST, ⟨tenant.text.map fun c => UInt8.ofNat c.toNat⟩)] }
  body := ⟨some 0, .ok []⟩

def byUriAuthority : Request where
  parts :=
    { method := "GET"
      uri := ⟨⟨some .https, some tenant, some ⟨"/", none⟩⟩⟩
      version := .http2
      headers := [] }
  body := ⟨some 0, .ok []⟩

theorem sameTarget : SameTarget tenant byHostHeader byUriAuthority :=
  ⟨by decide, rfl, rfl, rfl, by decide⟩

def anyPath (host : Option String) : Route :=
  { host := host
    path := .any
    headerMatches := []
    upstream := "api"
    totalTimeout := Duration.fromSecs 60
    readTimeout := Duration.fromSecs 30 }

end Sample

theorem host_route_missed_by_authority :
    SameTarget Sample.tenant Sample.byHostHeader Sample.byUriAuthority ∧
    let routes := [Sample.anyPath (some "tenant.test")]
    (∀ r ∈ routes, ∀ p ∈ r.headerMatches, p.1 ≠ HOST) ∧
    let d : Dispatch := ⟨RouteTable.ofRoutes routes, {}⟩
    d.selectRoute Sample.byHostHeader =
      .ok (Sample.anyPath (some "tenant.test")) ∧
    d.selectRoute Sample.byUriAuthority = .error .noRoute := by
  refine ⟨Sample.sameTarget, by simp [Sample.anyPath], ?_, ?_⟩
  · rw [Dispatch.selectRoute_eq_ok, RouteTable.ofRoutes_find]
    rfl
  · simp only [Dispatch.selectRoute, RouteTable.ofRoutes_find]
    rfl

theorem selectRoute_protocol_independent_sample :
    SameTarget Sample.tenant Sample.byHostHeader Sample.byUriAuthority ∧
    (let d : Dispatch :=
      ⟨RouteTable.ofRoutes [Sample.anyPath (some "other.test"), Sample.anyPath none], {}⟩
    d.selectRoute Sample.byHostHeader = d.selectRoute Sample.byUriAuthority) ∧
    (let d : Dispatch :=
      ⟨RouteTable.ofRoutes [Sample.anyPath (some "tenant.test"), Sample.anyPath none], {}⟩
    d.selectRoute Sample.byHostHeader ≠ d.selectRoute Sample.byUriAuthority) := by
  refine ⟨Sample.sameTarget, ?_, ?_⟩
  · refine (selectRoute_protocol_independent_iff _ {} (by simp [Sample.anyPath]) Sample.tenant
      _ _ Sample.sameTarget).mpr ?_
    intro r hr hhost
    obtain rfl | rfl : r = Sample.anyPath (some "other.test") ∨ r = Sample.anyPath none := by
      simpa using hr
    · decide
    · cases hhost
  · intro d heq
    have hmissed := (selectRoute_protocol_independent_iff
      [Sample.anyPath (some "tenant.test"), Sample.anyPath none] {} (by simp [Sample.anyPath])
      Sample.tenant _ _ Sample.sameTarget).mp heq _ List.mem_cons_self rfl
    exact absurd hmissed (by decide)

end Conduit
