import Conduit.Lifecycle.Dispatch
import Conduit.Transport.Resolver

/-!
# What an edit of the document changes

An operator adds an entry, moves one or takes one out and has the document
loaded again.  The file says which requests and which handshakes notice.
-/

namespace Conduit

open Foundation

/-! ## Routes -/

namespace RouteTable

theorem find_insert (before after : List Route) (r : Route) (host : Option String)
    (path : String) (headers : HeaderMap) :
    (ofRoutes (before ++ r :: after)).find host path headers =
        (ofRoutes (before ++ after)).find host path headers ∨
      r.isCandidate host path headers = true ∧
        (ofRoutes (before ++ r :: after)).find host path headers = some r := by
  rw [ofRoutes_find, ofRoutes_find, scan, scan, List.filter_append, List.filter_append,
    List.filter_cons]
  cases hr : r.isCandidate host path headers with
  | false => exact .inl rfl
  | true => exact (argmin_insert Route.rank _ _ r).imp_right fun hnew => ⟨rfl, hnew⟩

theorem find_congr {routes routes' : List Route}
    (h : ∀ k, routes.filter (fun r => r.rank = k) = routes'.filter fun r => r.rank = k)
    (host : Option String) (path : String) (headers : HeaderMap) :
    (ofRoutes routes).find host path headers = (ofRoutes routes').find host path headers := by
  rw [ofRoutes_find, ofRoutes_find, scan, scan, argmin_filter_congr h]

end RouteTable

namespace Dispatch

/--
A route more or a route less: every request is routed as before, unless it
satisfies what the entry enforces and goes to that entry.
-/
theorem route_edit_is_local (platform : Platform) (cfg cfg' : Config) (opts : ValidationOptions)
    (hcfg' : checkLogic cfg' opts = .ok ()) (before after : List Config.Route)
    (r : Config.Route) (hroutes : cfg.routes = before ++ after)
    (hroutes' : cfg'.routes = before ++ r :: after) (files files' : Files) (now now' : Nat)
    (d d' : Dispatch) (hd : d.Over platform files now cfg)
    (hd' : d'.Over platform files' now' cfg') (req : Request) :
    d'.selectRoute req = d.selectRoute req ∨
      d'.selectRoute req = .ok (Route.fromConfig platform r) ∧
        r.match_.EnforcedBy platform req.host req.parts.uri.path req.parts.headers := by
  have hwf := ((checkLogic_ok_iff cfg' opts).mp hcfg').routes r (by simp [hroutes'])
  have hfind := RouteTable.find_insert (before.map (Route.fromConfig platform))
    (after.map (Route.fromConfig platform)) (Route.fromConfig platform r) req.host
    req.parts.uri.path req.parts.headers
  rw [← List.map_cons, ← List.map_append, ← List.map_append, ← hroutes, ← hroutes'] at hfind
  rcases hfind with hsame | ⟨hcandidate, hnew⟩
  · left
    unfold selectRoute
    rw [hd.routes, hd'.routes, RouteTable.fromConfig, RouteTable.fromConfig, hsame]
  · right
    refine ⟨?_, enforcedBy_of_isCandidate hwf hcandidate⟩
    rw [selectRoute_eq_ok, hd'.routes]
    exact hnew

end Dispatch

namespace Sample

def healthRoute : Config.Route :=
  { match_ := { pathExact := some "/health" }, upstream := "api" }

def extendedDocument : Config := { document with routes := [prefixAndRegex, healthRoute] }

def reorderedDocument : Config := { document with routes := [healthRoute, prefixAndRegex] }

end Sample

namespace Dispatch

theorem route_edit_is_local_sample :
    checkLogic Sample.extendedDocument {} = .ok () ∧
    (fromConfig .concrete Sample.noFiles 0 Sample.extendedDocument).selectRoute Sample.request =
      (fromConfig .concrete Sample.noFiles 0 Sample.document).selectRoute Sample.request := by
  refine ⟨by decide, ?_⟩
  rcases route_edit_is_local .concrete Sample.document Sample.extendedDocument {} (by decide)
    [Sample.prefixAndRegex] [] Sample.healthRoute rfl rfl Sample.noFiles Sample.noFiles 0 0 _ _
    over_fromConfig over_fromConfig Sample.request with hsame | ⟨-, henforced⟩
  · exact hsame
  · exact absurd (henforced.pathExact "/health" rfl) (by decide)

/--
Routes can be moved about in the document: as long as those of one precedence
(with or without a host, one kind of path matcher, one prefix length) keep
their order, no request is routed differently.
-/
theorem order_matters_within_rank (platform : Platform) (cfg cfg' : Config)
    (h : ∀ k, (cfg.routes.map (Route.fromConfig platform)).filter (fun r => r.rank = k) =
      (cfg'.routes.map (Route.fromConfig platform)).filter fun r => r.rank = k)
    (files files' : Files) (now now' : Nat) (d d' : Dispatch)
    (hd : d.Over platform files now cfg) (hd' : d'.Over platform files' now' cfg')
    (req : Request) : d'.selectRoute req = d.selectRoute req := by
  unfold selectRoute
  rw [hd.routes, hd'.routes, RouteTable.fromConfig, RouteTable.fromConfig,
    RouteTable.find_congr h]

theorem order_matters_within_rank_sample :
    Sample.reorderedDocument.routes ≠ Sample.extendedDocument.routes ∧
    (fromConfig .concrete Sample.noFiles 0 Sample.reorderedDocument).selectRoute Sample.request =
      (fromConfig .concrete Sample.noFiles 0 Sample.extendedDocument).selectRoute
        Sample.request := by
  refine ⟨by decide, order_matters_within_rank .concrete Sample.extendedDocument
    Sample.reorderedDocument (fun k => ?_) Sample.noFiles Sample.noFiles 0 0 _ _
    over_fromConfig over_fromConfig Sample.request⟩
  have hne : (Route.fromConfig .concrete Sample.healthRoute).rank ≠
      (Route.fromConfig .concrete Sample.prefixAndRegex).rank := by decide
  by_cases hk : (Route.fromConfig .concrete Sample.healthRoute).rank = k
  · subst hk
    simp [Sample.extendedDocument, Sample.reorderedDocument, hne.symm]
  · simp [Sample.extendedDocument, Sample.reorderedDocument, List.filter_cons, hk]

end Dispatch

/-! ## Certificates -/

theorem Config.CertSpec.select_insert (first : CertSpec) (before after : List CertSpec)
    (spec : CertSpec) (sni : String) :
    select (first :: (before ++ spec :: after)) sni = select (first :: (before ++ after)) sni ∨
      (spec.exactFor sni = true ∨ spec.wildcardFor sni = true) ∧
        select (first :: (before ++ spec :: after)) sni = some spec := by
  have hexact := find?_insert (exactFor sni) after.reverse (before.reverse ++ [first]) spec
  have hwildcard := find?_insert (wildcardFor sni) (first :: before) after spec
  have hreverse : (first :: (before ++ spec :: after)).reverse =
      after.reverse ++ spec :: (before.reverse ++ [first]) := by simp
  have hreverse' : (first :: (before ++ after)).reverse =
      after.reverse ++ (before.reverse ++ [first]) := by simp
  rw [← hreverse, ← hreverse'] at hexact
  rw [List.cons_append, List.cons_append] at hwildcard
  unfold select
  rcases hexact with hexact | ⟨hcovers, hexact⟩
  · rw [hexact]
    cases (first :: (before ++ after)).reverse.find? (exactFor sni) with
    | some found => exact .inl rfl
    | none =>
        rcases hwildcard with hwildcard | ⟨hcovers, hwildcard⟩
        · exact .inl (by rw [hwildcard]; rfl)
        · exact .inr ⟨.inr hcovers, by rw [hwildcard]; rfl⟩
  · exact .inr ⟨.inl hcovers, by rw [hexact]; rfl⟩

/--
A certificate more or a certificate less, other than the first: every
handshake gets what it got, unless the entry covers the name it asks for and
it gets the entry's certificate.
-/
theorem cert_edit_is_local (platform : Platform) (files : Files) (first : Config.CertSpec)
    (before after : List Config.CertSpec) (spec : Config.CertSpec) (table table' : CertTable)
    (htable : buildTable platform files (first :: (before ++ after)) = .ok table)
    (htable' : buildTable platform files (first :: (before ++ spec :: after)) = .ok table')
    (serverName : Option String) :
    (MultiCertResolver.mk table').resolve serverName =
        (MultiCertResolver.mk table).resolve serverName ∨
      ∃ name ck, serverName = some name ∧
        (spec.exactFor name = true ∨ spec.wildcardFor name = true) ∧
        loadSpec platform files spec = .ok ck ∧
        (MultiCertResolver.mk table').resolve serverName = some ck := by
  obtain ⟨found, ck, hselect, hload, hresolve⟩ :=
    MultiCertResolver.resolve_of_buildTable htable serverName
  obtain ⟨found', ck', hselect', hload', hresolve'⟩ :=
    MultiCertResolver.resolve_of_buildTable htable' serverName
  by_cases hname : serverName.getD "" = ""
  · rw [if_pos hname, List.head?_cons] at hselect hselect'
    cases hselect
    cases hselect'
    left
    rw [hload'] at hload
    cases hload
    rw [hresolve, hresolve']
  · obtain ⟨name, rfl⟩ : ∃ name, serverName = some name := by
      cases serverName with
      | none => exact absurd rfl hname
      | some name => exact ⟨name, rfl⟩
    rw [if_neg hname, Option.getD_some] at hselect hselect'
    rcases Config.CertSpec.select_insert first before after spec name with
      hsame | ⟨hcovers, hnew⟩
    · left
      rw [hselect, hselect'] at hsame
      cases hsame
      rw [hload'] at hload
      cases hload
      rw [hresolve, hresolve']
    · rw [hselect'] at hnew
      cases hnew
      exact .inr ⟨name, ck', rfl, hcovers, hload', hresolve'⟩

namespace Sample

def shopCert : Config.CertSpec := ⟨"shop.org", "first", "first", none⟩

def apiCert : Config.CertSpec := ⟨"api.shop.org", "api", "api", none⟩

end Sample

theorem cert_edit_is_local_sample :
    ∃ table table',
      buildTable .concrete MultiCertResolver.pathFiles [Sample.shopCert] = .ok table ∧
      buildTable .concrete MultiCertResolver.pathFiles [Sample.shopCert, Sample.apiCert] =
        .ok table' ∧
      (MultiCertResolver.mk table').resolve (some "www.shop.org") =
        (MultiCertResolver.mk table).resolve (some "www.shop.org") := by
  refine ⟨_, _, rfl, rfl, ?_⟩
  rcases cert_edit_is_local .concrete MultiCertResolver.pathFiles Sample.shopCert [] []
    Sample.apiCert _ _ rfl rfl (some "www.shop.org") with hsame | ⟨name, ck, hname, hcovers, -⟩
  · exact hsame
  · cases hname
    exact absurd hcovers (by decide)

end Conduit
