import Conduit.Lifecycle.Table
import Mathlib.Data.Prod.Lex

/-!
# The table refines a plain scan

What the table is for, without its index: among the declared routes that
match the request, the least one in the order of precedence, the earliest
declared among equals.  `ofRoutes_find` proves that the indexed lookup
returns exactly that route.
-/

namespace Conduit

open Foundation

/-! ## The plain scan -/

def Route.acceptsPath (r : Route) (path : String) : Bool :=
  match r.path with
  | .any => true
  | .prefix_ p => startsWith path p
  | .exact p => path = p
  | .regex re => re.isMatch path

def Route.acceptsHost (r : Route) (host : Option String) : Bool :=
  match r.host with
  | none => true
  | some h => host.any (eqIgnoreAsciiCase h)

def Route.isCandidate (r : Route) (host : Option String) (path : String)
    (headers : HeaderMap) : Bool :=
  r.acceptsHost host && (r.acceptsPath path && r.headersMatch headers)

def Route.hostRank (r : Route) : Nat := if r.host.isSome then 0 else 1

def PathMatch.kindRank : PathMatch → Nat
  | .exact _ => 0
  | .prefix_ _ => 1
  | .regex _ => 2
  | .any => 3

def PathMatch.prefixLen : PathMatch → Nat
  | .prefix_ p => byteLen p
  | _ => 0

/-- The order of precedence; a longer prefix comes first. -/
def Route.rank (r : Route) : ℕ ×ₗ ℕ ×ₗ ℕᵒᵈ :=
  toLex (r.hostRank,
    toLex (r.path.kindRank, OrderDual.toDual r.path.prefixLen))

/-- The least candidate, the earliest declared one among equals. -/
def scan (routes : List Route) (host : Option String) (path : String)
    (headers : HeaderMap) : Option Route :=
  (routes.filter (·.isCandidate host path headers)).argmin Route.rank

/-! ## What a bucket indexes -/

namespace PathMatch

def exactKey : PathMatch → Option String
  | .exact p => some p
  | _ => none

def prefixKey : PathMatch → Option String
  | .prefix_ p => some p
  | _ => none

def isRegex : PathMatch → Bool
  | .regex _ => true
  | _ => false

def isAny : PathMatch → Bool
  | .any => true
  | _ => false

end PathMatch

namespace HostBucket

/-- The bucket holds exactly `routes`, each in the slot of its path matcher. -/
structure Indexes (b : HostBucket) (routes : List Route) : Prop where
  exact : ∀ p, b.byExact[p]?.getD [] =
    routes.filter fun r => r.path.exactKey = some p
  grouped : Grouped (fun r : Route => r.path.prefixKey) routes b.prefixSorted
  regex : b.regexRoutes = routes.filter fun r => r.path.isRegex
  any : b.any = routes.filter fun r => r.path.isAny

def Sorted (b : HostBucket) : Prop :=
  b.prefixSorted.Pairwise fun s s' => byteLen s'.1 ≤ byteLen s.1

variable {b : HostBucket} {routes : List Route}

theorem indexes_nil : Indexes {} [] where
  exact p := by simp
  grouped := Grouped.nil
  regex := rfl
  any := rfl

private theorem filter_snoc_of_false {p : Route → Bool} {r : Route}
    (h : p r = false) : (routes ++ [r]).filter p = routes.filter p := by
  simp [h]

private theorem filter_snoc_of_true {p : Route → Bool} {r : Route}
    (h : p r = true) : (routes ++ [r]).filter p = routes.filter p ++ [r] := by
  simp [h]

theorem Indexes.insert (h : b.Indexes routes) (r : Route) :
    (b.insert r).Indexes (routes ++ [r]) := by
  -- Only the slot of the route's own matcher grows; the others keep theirs.
  have hexact : r.path.exactKey = none → ∀ p, b.byExact[p]?.getD [] =
      (routes ++ [r]).filter fun r => r.path.exactKey = some p := by
    intro hkey p
    rw [filter_snoc_of_false (by simp [hkey]), h.exact p]
  have hregex : r.path.isRegex = false →
      b.regexRoutes = (routes ++ [r]).filter fun r => r.path.isRegex :=
    fun hkey => by rw [filter_snoc_of_false hkey, h.regex]
  have hany : r.path.isAny = false →
      b.any = (routes ++ [r]).filter fun r => r.path.isAny :=
    fun hkey => by rw [filter_snoc_of_false hkey, h.any]
  have hprefix : r.path.prefixKey = none →
      Grouped (fun r : Route => r.path.prefixKey) (routes ++ [r])
        b.prefixSorted := h.grouped.append_unkeyed
  unfold HostBucket.insert
  cases hpath : r.path <;>
    simp only [hpath, PathMatch.exactKey, PathMatch.prefixKey,
      PathMatch.isRegex, PathMatch.isAny, forall_const, reduceCtorEq,
      false_implies, Bool.true_eq_false] at hexact hregex hany hprefix
  case any =>
      refine ⟨hexact, hprefix, hregex, ?_⟩
      rw [filter_snoc_of_true (by rw [hpath]; rfl), h.any]
  case regex re =>
      refine ⟨hexact, hprefix, ?_, hany⟩
      rw [filter_snoc_of_true (by rw [hpath]; rfl), h.regex]
  case prefix_ q =>
      exact ⟨hexact, h.grouped.push (by rw [hpath]; rfl), hregex, hany⟩
  case exact q =>
      refine ⟨?_, hprefix, hregex, hany⟩
      intro p
      rw [Std.HashMap.getElem?_alter]
      by_cases hq : q = p <;>
        simp [hq, h.exact p, hpath, PathMatch.exactKey]

theorem Indexes.finalise (h : b.Indexes routes) : b.finalise.Indexes routes :=
  ⟨h.exact, h.grouped.perm (List.perm_insertionSort _ _), h.regex, h.any⟩

theorem sorted_finalise (b : HostBucket) : b.finalise.Sorted := by
  have htotal : Std.Total fun s s' : String × List Route =>
      byteLen s'.1 ≤ byteLen s.1 := ⟨fun s s' => Nat.le_total _ _⟩
  have htrans : IsTrans (String × List Route) fun s s' =>
      byteLen s'.1 ≤ byteLen s.1 := ⟨fun _ _ _ h h' => h'.trans h⟩
  exact List.pairwise_insertionSort _ _

/-! ## A bucket lookup finds the least matching route -/

theorem rank_lt_of_kindRank_lt {a c : Route} (hhost : a.hostRank = c.hostRank)
    (hkind : a.path.kindRank < c.path.kindRank) : a.rank < c.rank := by
  simp [Route.rank, Prod.Lex.toLex_lt_toLex, hhost, hkind]

theorem rank_lt_of_prefixLen_lt {a c : Route} (hhost : a.hostRank = c.hostRank)
    (hkind : a.path.kindRank = c.path.kindRank)
    (hlen : c.path.prefixLen < a.path.prefixLen) : a.rank < c.rank := by
  simp [Route.rank, Prod.Lex.toLex_lt_toLex, hhost, hkind, hlen]

theorem rank_eq_of_eq {a c : Route} (hhost : a.hostRank = c.hostRank)
    (hkind : a.path.kindRank = c.path.kindRank)
    (hlen : a.path.prefixLen = c.path.prefixLen) : a.rank = c.rank := by
  simp [Route.rank, hhost, hkind, hlen]

def suits (path : String) (headers : HeaderMap) (r : Route) : Bool :=
  r.acceptsPath path && r.headersMatch headers

def layer (routes : List Route) (path : String) (headers : HeaderMap)
    (kind : Nat) : List Route :=
  (routes.filter (suits path headers)).filter fun r => r.path.kindRank = kind

variable {path : String} {headers : HeaderMap} {kind : Nat}

theorem mem_layer {r : Route} :
    r ∈ layer routes path headers kind ↔
      r ∈ routes ∧ suits path headers r = true ∧ r.path.kindRank = kind := by
  simp only [layer, List.mem_filter, decide_eq_true_eq, and_assoc]

theorem argmin_layer_eq_find? (hkind : kind ≠ 1)
    (hhost : ∀ a ∈ routes, ∀ c ∈ routes, a.hostRank = c.hostRank) :
    (layer routes path headers kind).argmin Route.rank =
      routes.find? fun r => r.path.kindRank = kind && suits path headers r := by
  have hlen : ∀ r ∈ layer routes path headers kind, r.path.prefixLen = 0 := by
    intro r hr
    obtain ⟨-, -, hr⟩ := mem_layer.mp hr
    cases hpath : r.path <;> simp_all [PathMatch.kindRank, PathMatch.prefixLen]
  rw [argmin_eq_head?_of_const, layer, List.filter_filter, List.head?_filter]
  intro a ha c hc
  obtain ⟨ham, -, hak⟩ := mem_layer.mp ha
  obtain ⟨hcm, -, hck⟩ := mem_layer.mp hc
  exact rank_eq_of_eq (hhost a ham c hcm) (hak.trans hck.symm)
    ((hlen a ha).trans (hlen c hc).symm)

theorem Indexes.findExact_eq (h : b.Indexes routes)
    (hhost : ∀ a ∈ routes, ∀ c ∈ routes, a.hostRank = c.hostRank) :
    b.findExact path headers =
      (layer routes path headers 0).argmin Route.rank := by
  have hslot : b.findExact path headers =
      (b.byExact[path]?.getD []).find? (·.headersMatch headers) := by
    unfold findExact
    cases b.byExact[path]? <;> rfl
  rw [argmin_layer_eq_find? (by decide) hhost, hslot, h.exact path,
    List.find?_filter]
  congr 1
  funext r
  cases hpath : r.path with
  | exact p =>
      simp [suits, Route.acceptsPath, hpath, PathMatch.exactKey,
        PathMatch.kindRank, eq_comm (a := path)]
  | any | prefix_ p | regex re =>
      simp [PathMatch.exactKey, PathMatch.kindRank]

theorem Indexes.findRegex_eq (h : b.Indexes routes)
    (hhost : ∀ a ∈ routes, ∀ c ∈ routes, a.hostRank = c.hostRank) :
    b.findRegex path headers =
      (layer routes path headers 2).argmin Route.rank := by
  rw [argmin_layer_eq_find? (by decide) hhost, findRegex, h.regex,
    List.find?_filter]
  congr 1
  funext r
  cases hpath : r.path <;>
    simp [suits, Route.acceptsPath, hpath, PathMatch.isRegex,
      PathMatch.kindRank]

theorem Indexes.findAny_eq (h : b.Indexes routes)
    (hhost : ∀ a ∈ routes, ∀ c ∈ routes, a.hostRank = c.hostRank)
    (path : String) :
    b.any.find? (·.headersMatch headers) =
      (layer routes path headers 3).argmin Route.rank := by
  rw [argmin_layer_eq_find? (by decide) hhost, h.any, List.find?_filter]
  congr 1
  funext r
  cases hpath : r.path <;>
    simp [suits, Route.acceptsPath, hpath, PathMatch.isAny, PathMatch.kindRank]

theorem Indexes.findPrefix_eq (h : b.Indexes routes) (hsorted : b.Sorted)
    (hhost : ∀ a ∈ routes, ∀ c ∈ routes, a.hostRank = c.hostRank) :
    b.findPrefix path headers =
      (layer routes path headers 1).argmin Route.rank := by
  have hkey : ∀ {r : Route} {p : String}, r.path.prefixKey = some p →
      r.path.kindRank = 1 ∧ r.path.prefixLen = byteLen p := by
    intro r p hr
    cases hpath : r.path <;>
      simp_all [PathMatch.prefixKey, PathMatch.kindRank, PathMatch.prefixLen]
  -- Two prefixes of the path with one length are one slot, so the accepted
  -- slots are listed by strictly falling length.
  have hstrict : b.prefixSorted.Pairwise fun s s' =>
      startsWith path s.1 = true → startsWith path s'.1 = true →
        byteLen s'.1 < byteLen s.1 := by
    have hne := List.pairwise_map.mp h.grouped.nodup
    refine (hsorted.and hne).imp fun {s s'} hs hpre hpre' => ?_
    refine lt_of_le_of_ne hs.1 fun hlen => hs.2 ?_
    exact eq_of_startsWith_of_byteLen_eq hpre hpre' hlen.symm
  rw [findPrefix, h.grouped.findSome?_eq_argmin Route.rank (startsWith path)]
  · rw [layer, List.filter_filter]
    congr 1
    apply List.filter_congr
    intro r _
    cases hpath : r.path <;>
      simp [suits, Route.acceptsPath, hpath, PathMatch.prefixKey,
        PathMatch.kindRank]
  · refine hstrict.imp fun {s s'} hlt hpre hpre' a ha c hc hka hkc => ?_
    obtain ⟨hak, hal⟩ := hkey hka
    obtain ⟨hck, hcl⟩ := hkey hkc
    exact rank_lt_of_prefixLen_lt (hhost a ha c hc) (hak.trans hck.symm)
      (by rw [hal, hcl]; exact hlt hpre hpre')
  · intro a ha c hc p hka hkc
    obtain ⟨hak, hal⟩ := hkey hka
    obtain ⟨hck, hcl⟩ := hkey hkc
    exact rank_eq_of_eq (hhost a ha c hc) (hak.trans hck.symm)
      (hal.trans hcl.symm)

theorem kindRank_mem (m : PathMatch) : m.kindRank ∈ [0, 1, 2, 3] := by
  cases m <;> simp [PathMatch.kindRank]

theorem Indexes.find_eq (h : b.Indexes routes) (hsorted : b.Sorted)
    (hhost : ∀ a ∈ routes, ∀ c ∈ routes, a.hostRank = c.hostRank) :
    b.find path headers =
      (routes.filter (suits path headers)).argmin Route.rank := by
  rw [argmin_eq_findSome?_layers Route.rank (fun r => r.path.kindRank)
    [0, 1, 2, 3] _ (by decide) (fun r _ => kindRank_mem r.path)]
  · change _ = [0, 1, 2, 3].findSome? fun kind =>
      (layer routes path headers kind).argmin Route.rank
    simp only [find, h.findExact_eq hhost, h.findPrefix_eq hsorted hhost,
      h.findRegex_eq hhost, h.findAny_eq hhost path,
      List.findSome?_cons, List.findSome?_nil]
    cases (layer routes path headers 0).argmin Route.rank <;>
      cases (layer routes path headers 1).argmin Route.rank <;>
      cases (layer routes path headers 2).argmin Route.rank <;>
      cases (layer routes path headers 3).argmin Route.rank <;> rfl
  · have hlt : ∀ k k' : Nat, k < k' →
        ∀ a ∈ routes.filter (suits path headers),
        ∀ c ∈ routes.filter (suits path headers),
          a.path.kindRank = k → c.path.kindRank = k' → a.rank < c.rank := by
      intro k k' hkk' a ha c hc hak hck
      exact rank_lt_of_kindRank_lt
        (hhost a (List.mem_filter.mp ha).1 c (List.mem_filter.mp hc).1)
        (by omega)
    have hincr : [0, 1, 2, 3].Pairwise fun k k' : Nat => k < k' := by decide
    exact hincr.imp fun {k k'} hkk' => hlt k k' hkk'

end HostBucket

/-! ## What the table indexes -/

def Route.hostKey (r : Route) : Option String := r.host.map toAsciiLowercase

namespace RouteTable

def bucket (t : RouteTable) (k : String) : HostBucket := t.byHost[k]?.getD {}

/-- Every host bucket holds the routes of its key, the wildcard the others. -/
structure Indexes (t : RouteTable) (routes : List Route) : Prop where
  host : ∀ k, (t.bucket k).Indexes (routes.filter fun r => r.hostKey = some k)
  wildcard : t.wildcard.Indexes (routes.filter fun r => r.hostKey = none)

theorem indexes_nil : Indexes {} [] where
  host k := by simpa [bucket] using HostBucket.indexes_nil
  wildcard := HostBucket.indexes_nil

theorem Indexes.insert {t : RouteTable} {routes : List Route}
    (h : t.Indexes routes) (r : Route) :
    (t.insert r).Indexes (routes ++ [r]) := by
  cases hhost : r.host with
  | none =>
      have hkey : r.hostKey = none := by simp [Route.hostKey, hhost]
      refine ⟨fun k => ?_, ?_⟩ <;>
        simp only [bucket, RouteTable.insert, hhost, List.filter_append]
      · simpa [hkey, bucket] using h.host k
      · simpa [hkey] using h.wildcard.insert r
  | some name =>
      have hkey : r.hostKey = some (toAsciiLowercase name) := by
        simp [Route.hostKey, hhost]
      refine ⟨fun k => ?_, ?_⟩ <;>
        simp only [bucket, RouteTable.insert, hhost, List.filter_append]
      · rw [Std.HashMap.getElem?_alter]
        by_cases hk : toAsciiLowercase name = k
        · simpa [hkey, hk, bucket] using (h.host k).insert r
        · simpa [hkey, hk, bucket] using h.host k
      · simpa [hkey] using h.wildcard

theorem indexes_foldl_insert (routes done : List Route) {t : RouteTable}
    (h : t.Indexes done) :
    (routes.foldl RouteTable.insert t).Indexes (done ++ routes) := by
  induction routes generalizing done t with
  | nil => simpa using h
  | cons r routes ih =>
      have hrest := ih (done ++ [r]) (h.insert r)
      simpa [List.append_assoc] using hrest

theorem bucket_finalise (t : RouteTable) (k : String) :
    t.finalise.bucket k = (t.bucket k).finalise := by
  simp only [bucket, finalise, Std.HashMap.getElem?_map]
  cases t.byHost[k]? <;> rfl

theorem Indexes.finalise {t : RouteTable} {routes : List Route}
    (h : t.Indexes routes) : t.finalise.Indexes routes where
  host k := by
    rw [bucket_finalise]
    exact (h.host k).finalise
  wildcard := h.wildcard.finalise

theorem ofRoutes_indexes (routes : List Route) :
    (ofRoutes routes).Indexes routes := by
  simpa [ofRoutes] using (indexes_foldl_insert routes [] indexes_nil).finalise

/-! ## The lookup refines the scan -/

theorem lookupBucket_eq (t : RouteTable) (host : String) :
    t.lookupBucket host = t.byHost[toAsciiLowercase host]? := by
  unfold lookupBucket
  split
  · rename_i h
    rw [toAsciiLowercase_of_noAsciiUppercase h]
  · rfl

theorem findHost_some (t : RouteTable) (host path : String)
    (headers : HeaderMap) :
    t.findHost (some host) path headers =
      (t.bucket (toAsciiLowercase host)).find path headers := by
  have hempty : ({} : HostBucket).find path headers = none := by
    simp [HostBucket.find, HostBucket.findExact, HostBucket.findPrefix,
      HostBucket.findRegex]
  simp only [findHost, Option.bind_eq_bind, Option.bind_some, lookupBucket_eq,
    bucket]
  cases t.byHost[toAsciiLowercase host]? <;> simp [hempty]

private theorem hostRank_eq_of_mem {routes : List Route} {key : Option String} :
    ∀ a ∈ routes.filter (fun r => r.hostKey = key),
    ∀ c ∈ routes.filter (fun r => r.hostKey = key),
      a.hostRank = c.hostRank := by
  have hrank : ∀ r : Route, r.hostKey = key →
      r.hostRank = if key.isSome then 0 else 1 := by
    rintro r rfl
    simp [Route.hostRank, Route.hostKey]
  intro a ha c hc
  simp only [List.mem_filter, decide_eq_true_eq] at ha hc
  rw [hrank a ha.2, hrank c hc.2]

theorem findHost_ofRoutes (routes : List Route) (host : Option String)
    (path : String) (headers : HeaderMap) :
    (ofRoutes routes).findHost host path headers =
      ((routes.filter (·.isCandidate host path headers)).filter
        fun r => r.host.isSome).argmin Route.rank := by
  rw [List.filter_filter]
  cases host with
  | none =>
      have hnil : (routes.filter fun r =>
          r.host.isSome && r.isCandidate none path headers) = [] := by
        rw [List.filter_eq_nil_iff]
        intro r _
        cases hhost : r.host <;>
          simp [Route.isCandidate, Route.acceptsHost, hhost]
      rw [hnil]
      rfl
  | some host =>
      have hindex := (ofRoutes_indexes routes).host (toAsciiLowercase host)
      have hsorted :
          ((ofRoutes routes).bucket (toAsciiLowercase host)).Sorted := by
        rw [ofRoutes, bucket_finalise]
        exact HostBucket.sorted_finalise _
      rw [findHost_some, hindex.find_eq hsorted hostRank_eq_of_mem,
        List.filter_filter]
      congr 1
      apply List.filter_congr
      intro r _
      cases hhost : r.host with
      | none => simp [Route.hostKey, hhost]
      | some name =>
          simp [Route.hostKey, Route.isCandidate, Route.acceptsHost, hhost,
            HostBucket.suits, eqIgnoreAsciiCase, Bool.and_comm]

theorem findWildcard_ofRoutes (routes : List Route) (host : Option String)
    (path : String) (headers : HeaderMap) :
    (ofRoutes routes).wildcard.find path headers =
      ((routes.filter (·.isCandidate host path headers)).filter
        fun r => !r.host.isSome).argmin Route.rank := by
  have hindex := (ofRoutes_indexes routes).wildcard
  rw [hindex.find_eq (HostBucket.sorted_finalise _) hostRank_eq_of_mem,
    List.filter_filter, List.filter_filter]
  congr 1
  apply List.filter_congr
  intro r _
  cases hhost : r.host <;>
    simp [Route.hostKey, Route.isCandidate, Route.acceptsHost, hhost,
      HostBucket.suits]

theorem ofRoutes_find (routes : List Route) (host : Option String)
    (path : String) (headers : HeaderMap) :
    (ofRoutes routes).find host path headers =
      scan routes host path headers := by
  rw [find, findHost_ofRoutes, findWildcard_ofRoutes routes host, scan]
  symm
  apply argmin_eq_or_of_separated
  intro a _ c _ ha hc
  simp [Route.rank, Prod.Lex.toLex_lt_toLex, Route.hostRank, ha, hc]

theorem ofRoutes_find_eq_none_iff (routes : List Route)
    (host : Option String) (path : String) (headers : HeaderMap) :
    (ofRoutes routes).find host path headers = none ↔
      ∀ r ∈ routes, r.isCandidate host path headers = false := by
  rw [ofRoutes_find, scan, List.argmin_eq_none, List.filter_eq_nil_iff]
  simp

theorem ofRoutes_find_eq_some_iff (routes : List Route)
    (host : Option String) (path : String) (headers : HeaderMap)
    (r : Route) :
    (ofRoutes routes).find host path headers = some r ↔
      IsFirstLeast Route.rank (·.isCandidate host path headers) routes r := by
  rw [ofRoutes_find, scan, argmin_filter_eq_some_iff]

theorem ofRoutes_find_sound {routes : List Route} {host : Option String}
    {path : String} {headers : HeaderMap} {r : Route}
    (h : (ofRoutes routes).find host path headers = some r) :
    r ∈ routes ∧ r.isCandidate host path headers = true := by
  obtain ⟨before, after, rfl, hr, -, -⟩ :=
    (ofRoutes_find_eq_some_iff routes host path headers r).mp h
  exact ⟨by simp, hr⟩

/--
The indexed lookup is a plain scan of the declaration list: it returns the
least matching route in the order of precedence, the earliest declared among
equals, and nothing exactly when no declared route matches.
-/
theorem find_is_plain_scan (routes : List Route) (host : Option String)
    (path : String) (headers : HeaderMap) :
    (ofRoutes routes).find host path headers = scan routes host path headers ∧
    (∀ r, (ofRoutes routes).find host path headers = some r ↔
      IsFirstLeast Route.rank (·.isCandidate host path headers) routes r) ∧
    ((ofRoutes routes).find host path headers = none ↔
      ∀ r ∈ routes, r.isCandidate host path headers = false) :=
  ⟨ofRoutes_find routes host path headers,
    ofRoutes_find_eq_some_iff routes host path headers,
    ofRoutes_find_eq_none_iff routes host path headers⟩

end RouteTable

end Conduit
