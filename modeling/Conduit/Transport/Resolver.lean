import Conduit.Transport.Tls
import Mathlib

/-!
# Certificate selection

`lookup` answers from three tables: a map of exact names that a later entry
overwrites, a list of wildcard suffixes that is searched from the front, and
the fallback.  `select` states the same choice on the entries as they are
declared, and `lookup_selects` says that the two agree.
-/

namespace Conduit

open Foundation

def afterDot (name : String) : Option String :=
  match name.toList.dropWhile (fun c => c != '.') with
  | [] => none
  | _ :: rest => some (String.ofList rest)

structure MultiCertResolver where
  inner : CertTable

namespace MultiCertResolver

def lookup (r : MultiCertResolver) (sni : String) : CertifiedKey :=
  let key := toAsciiLowercase sni
  match r.inner.exact[key]? with
  | some ck => ck
  | none =>
      match afterDot key with
      | none => r.inner.fallback
      | some suffix =>
          match r.inner.wildcard.find? fun entry => entry.1 == suffix with
          | some entry => entry.2
          | none => r.inner.fallback

def resolve (r : MultiCertResolver) (serverName : Option String) :
    Option CertifiedKey :=
  let sni := serverName.getD ""
  if sni = "" then some r.inner.fallback else some (r.lookup sni)

variable (platform : Platform) (files : Files)

def fromConfig (specs : List Config.CertSpec) :
    Except TlsError MultiCertResolver := do
  return ⟨← buildTable platform files specs⟩

/-- The answer, and the resolver whose table is active afterwards. -/
def reload (r : MultiCertResolver) (specs : List Config.CertSpec) :
    Except TlsError Unit × MultiCertResolver :=
  match buildTable platform files specs with
  | .error e => (.error e, r)
  | .ok table => (.ok (), ⟨table⟩)

end MultiCertResolver

/-! ## The rule on the declared entries -/

namespace Config.CertSpec

def exactFor (sni : String) (spec : CertSpec) : Bool :=
  (wildcardSuffix spec.sni).isNone && eqIgnoreAsciiCase spec.sni sni

def wildcardFor (sni : String) (spec : CertSpec) : Bool :=
  match wildcardSuffix spec.sni, afterDot sni with
  | some suffix, some rest => eqIgnoreAsciiCase suffix rest
  | _, _ => false

/-- The last exact entry, else the first wildcard, else the first entry. -/
def select (specs : List CertSpec) (sni : String) : Option CertSpec :=
  (specs.reverse.find? (exactFor sni)).or
    ((specs.find? (wildcardFor sni)).or specs.head?)

def folded (spec : CertSpec) : CertSpec :=
  { spec with sni := toAsciiLowercase spec.sni }

end Config.CertSpec

/-- `name` is `suffix` with one label and its dot before it. -/
def OneLabelBelow (name suffix : String) : Prop :=
  ∃ label rest : List Char, name.toList = label ++ '.' :: rest ∧
    '.' ∉ label ∧ eqIgnoreAsciiCase suffix (String.ofList rest) = true

/-! ## Folding a name and cutting it commute -/

theorem toLower_eq_iff {c d : Char} (hd : d.isAlpha = false) :
    c.toLower = d ↔ c = d := by
  have hfold : c.isAlpha = false → c.toLower = c := by
    intro hc
    apply Char.toLower_eq_of_not_isUpper
    rw [Char.isAlpha, Bool.or_eq_false_iff] at hc
    simp [hc.1]
  constructor
  · intro h
    have hc : c.isAlpha = false := by
      rw [← Char.isAlpha_toLower_eq_isAlpha, h, hd]
    rwa [hfold hc] at h
  · rintro rfl
    exact hfold hd

@[simp]
theorem toAsciiLowercase_toAsciiLowercase (s : String) :
    toAsciiLowercase (toAsciiLowercase s) = toAsciiLowercase s := by
  apply toAsciiLowercase_of_noAsciiUppercase
  simp [noAsciiUppercase]

theorem afterDot_toAsciiLowercase (s : String) :
    afterDot (toAsciiLowercase s) = (afterDot s).map toAsciiLowercase := by
  have hdot : (fun c => c != '.') ∘ Char.toLower = fun c => c != '.' := by
    funext c
    simp [bne, toLower_eq_iff (c := c) (d := '.') (by decide)]
  rw [afterDot, afterDot, toList_toAsciiLowercase, List.dropWhile_map, hdot]
  cases s.toList.dropWhile fun c => c != '.' with
  | nil => rfl
  | cons c rest => simp [toAsciiLowercase]

theorem wildcardSuffix_toAsciiLowercase (s : String) :
    wildcardSuffix (toAsciiLowercase s) =
      (wildcardSuffix s).map toAsciiLowercase := by
  unfold wildcardSuffix
  rw [toList_toAsciiLowercase]
  split
  · rename_i suffix h
    obtain ⟨star, rest, hs, hstar, hrest⟩ := List.map_eq_cons_iff.mp h
    obtain ⟨dot, rest, rfl, hdot, rfl⟩ := List.map_eq_cons_iff.mp hrest
    rw [toLower_eq_iff (by decide)] at hstar hdot
    simp [hs, hstar, hdot, toAsciiLowercase]
  · rename_i h
    split
    · rename_i suffix hs
      exact absurd (congrArg (List.map Char.toLower) hs) (h _)
    · rfl

namespace Config.CertSpec

theorem exactFor_eq (sni : String) (spec : CertSpec) :
    exactFor sni spec =
      ((wildcardSuffix (toAsciiLowercase spec.sni)).isNone &&
        decide (toAsciiLowercase spec.sni = toAsciiLowercase sni)) := by
  simp [exactFor, eqIgnoreAsciiCase, wildcardSuffix_toAsciiLowercase]

theorem wildcardFor_eq (sni : String) (spec : CertSpec) :
    wildcardFor sni spec =
      match wildcardSuffix (toAsciiLowercase spec.sni),
        afterDot (toAsciiLowercase sni) with
      | some suffix, some rest => decide (suffix = rest)
      | _, _ => false := by
  rw [wildcardFor, wildcardSuffix_toAsciiLowercase, afterDot_toAsciiLowercase]
  cases wildcardSuffix spec.sni <;> cases afterDot sni <;>
    simp [eqIgnoreAsciiCase]

theorem select_folded {specs specs' : List CertSpec} {sni sni' : String}
    (hspecs : specs'.map folded = specs.map folded)
    (hsni : eqIgnoreAsciiCase sni sni' = true) :
    (select specs' sni').map folded = (select specs sni).map folded := by
  have hfold : ∀ (specs : List CertSpec) (sni : String),
      (select specs sni).map folded = select (specs.map folded) sni := by
    intro specs sni
    have hexact : exactFor sni ∘ folded = exactFor sni := by
      funext spec
      simp [exactFor_eq, folded]
    have hwildcard : wildcardFor sni ∘ folded = wildcardFor sni := by
      funext spec
      simp [wildcardFor_eq, folded]
    rw [select, select, ← List.map_reverse, List.find?_map, List.find?_map,
      hexact, hwildcard, List.head?_map, Option.map_or, Option.map_or]
  have hname : ∀ specs : List CertSpec,
      select specs sni' = select specs sni := by
    intro specs
    rw [eqIgnoreAsciiCase_iff] at hsni
    have hexact : exactFor sni' = exactFor sni := by
      funext spec
      simp [exactFor_eq, hsni]
    have hwildcard : wildcardFor sni' = wildcardFor sni := by
      funext spec
      simp [wildcardFor_eq, hsni]
    rw [select, select, hexact, hwildcard]
  rw [hfold, hfold, hspecs, hname]

end Config.CertSpec

/-! ## What the tables index -/

abbrev CertEntry := Config.CertSpec × CertifiedKey

def wildcardKey (wildcard : List (String × CertifiedKey)) (sni : String) :
    Option CertifiedKey :=
  (afterDot (toAsciiLowercase sni)).bind fun suffix =>
    (wildcard.find? fun entry => entry.1 == suffix).map Prod.snd

namespace TableBuilder

structure Indexes (b : TableBuilder) (entries : List CertEntry) : Prop where
  exact : ∀ sni, b.exact[toAsciiLowercase sni]? =
    (entries.reverse.find? fun e => e.1.exactFor sni).map Prod.snd
  wildcard : ∀ sni, wildcardKey b.wildcard sni =
    (entries.find? fun e => e.1.wildcardFor sni).map Prod.snd
  fallback : b.fallback = entries.head?.map Prod.snd

theorem indexes_nil : Indexes {} [] where
  exact sni := by simp
  wildcard sni := by simp [wildcardKey]
  fallback := rfl

theorem Indexes.add {b : TableBuilder} {entries : List CertEntry}
    (h : b.Indexes entries) (spec : Config.CertSpec) (ck : CertifiedKey) :
    (b.add spec.sni ck).Indexes (entries ++ [(spec, ck)]) := by
  have hfallback : b.fallback.or (some ck) =
      (entries ++ [(spec, ck)]).head?.map Prod.snd := by
    rw [h.fallback]
    cases entries <;> rfl
  cases hsuffix : wildcardSuffix spec.sni with
  | none =>
      refine ⟨fun sni => ?_, fun sni => ?_, ?_⟩ <;>
        simp only [TableBuilder.add, hsuffix]
      · rw [Std.HashMap.getElem?_insert, h.exact]
        by_cases hname : toAsciiLowercase spec.sni = toAsciiLowercase sni <;>
          simp [Config.CertSpec.exactFor, hsuffix, eqIgnoreAsciiCase, hname]
      · rw [h.wildcard]
        simp [Config.CertSpec.wildcardFor, hsuffix]
      · exact hfallback
  | some suffix =>
      refine ⟨fun sni => ?_, fun sni => ?_, ?_⟩ <;>
        simp only [TableBuilder.add, hsuffix]
      · rw [h.exact]
        simp [Config.CertSpec.exactFor, hsuffix]
      · have hentries := h.wildcard sni
        rw [wildcardKey, afterDot_toAsciiLowercase] at hentries ⊢
        rw [List.find?_append, Option.map_or, ← hentries]
        cases hrest : afterDot sni with
        | none => simp [Config.CertSpec.wildcardFor, hrest]
        | some rest =>
            by_cases hname : toAsciiLowercase suffix = toAsciiLowercase rest <;>
              simp [Config.CertSpec.wildcardFor, hsuffix, hrest,
                eqIgnoreAsciiCase, hname, Option.map_or]
      · exact hfallback

end TableBuilder

section Selecting

variable {platform : Platform} {files : Files}

theorem addSpecs_indexes {specs : List Config.CertSpec} {b : TableBuilder}
    {done : List CertEntry} (h : b.Indexes done)
    (hload : ∀ spec ∈ specs, ∃ ck, loadSpec platform files spec = .ok ck) :
    ∃ built entries, addSpecs platform files b specs = .ok built ∧
      built.Indexes (done ++ entries) ∧ entries.map Prod.fst = specs ∧
      ∀ e ∈ entries, loadSpec platform files e.1 = .ok e.2 := by
  induction specs generalizing b done with
  | nil => exact ⟨b, [], rfl, by simpa using h, rfl, by simp⟩
  | cons spec specs ih =>
      obtain ⟨ck, hck⟩ := hload spec (by simp)
      obtain ⟨built, entries, hbuilt, hindexes, hspecs, hloaded⟩ :=
        ih (h.add spec ck) fun spec hspec => hload spec (by simp [hspec])
      refine ⟨built, (spec, ck) :: entries, ?_, ?_, ?_, ?_⟩
      · rw [addSpecs, hck]
        exact hbuilt
      · simpa [List.append_assoc] using hindexes
      · simp [hspecs]
      · simpa [hck] using hloaded

theorem MultiCertResolver.lookup_eq (r : MultiCertResolver) (sni : String) :
    r.lookup sni = ((r.inner.exact[toAsciiLowercase sni]?).or
      (wildcardKey r.inner.wildcard sni)).getD r.inner.fallback := by
  simp only [lookup, wildcardKey]
  cases r.inner.exact[toAsciiLowercase sni]? with
  | some ck => rfl
  | none =>
      cases afterDot (toAsciiLowercase sni) with
      | none => rfl
      | some suffix =>
          cases h : r.inner.wildcard.find? fun entry => entry.1 == suffix <;>
            simp [h]

def CertTable.builder (table : CertTable) : TableBuilder :=
  ⟨table.exact, table.wildcard, some table.fallback⟩

theorem buildTable_indexes {specs : List Config.CertSpec} (hne : specs ≠ [])
    (hload : ∀ spec ∈ specs, ∃ ck, loadSpec platform files spec = .ok ck) :
    ∃ table entries, buildTable platform files specs = .ok table ∧
      table.builder.Indexes entries ∧ entries.map Prod.fst = specs ∧
      ∀ e ∈ entries, loadSpec platform files e.1 = .ok e.2 := by
  obtain ⟨built, entries, hbuilt, hindexes, hspecs, hloaded⟩ :=
    addSpecs_indexes TableBuilder.indexes_nil hload
  rw [List.nil_append] at hindexes
  have hentries : entries ≠ [] := by
    rintro rfl
    exact hne hspecs.symm
  have hfallback : built.fallback = some (entries.head hentries).2 := by
    rw [hindexes.fallback, List.head?_eq_some_head hentries, Option.map_some]
  refine ⟨⟨built.exact, built.wildcard, (entries.head hentries).2⟩, entries,
    ?_, ?_, hspecs, hloaded⟩
  · rw [buildTable, if_neg (by simpa using hne), hbuilt]
    simp only [bind, Except.bind, hfallback, pure, Except.pure]
  · rw [CertTable.builder, ← hfallback]
    exact hindexes

theorem MultiCertResolver.lookup_of_indexes {r : MultiCertResolver}
    {entries : List CertEntry} (h : r.inner.builder.Indexes entries)
    (sni : String) :
    ∃ e ∈ entries, e.2 = r.lookup sni ∧
      Config.CertSpec.select (entries.map Prod.fst) sni = some e.1 := by
  rw [lookup_eq, show r.inner.exact[toAsciiLowercase sni]? = _ from h.exact sni,
    show wildcardKey r.inner.wildcard sni = _ from h.wildcard sni,
    Config.CertSpec.select, ← List.map_reverse, List.find?_map, List.find?_map]
  cases hexact : entries.reverse.find? fun e => e.1.exactFor sni with
  | some e =>
      have hmem := List.mem_reverse.mp (List.mem_of_find?_eq_some hexact)
      exact ⟨e, hmem, rfl, by simp [hexact]⟩
  | none =>
      cases hwildcard : entries.find? fun e => e.1.wildcardFor sni with
      | some e =>
          have hmem := List.mem_of_find?_eq_some hwildcard
          exact ⟨e, hmem, rfl, by simp [hexact, hwildcard]⟩
      | none =>
          obtain ⟨first, hfirst, hkey⟩ :=
            Option.map_eq_some_iff.mp h.fallback.symm
          have hmem := List.mem_of_head? hfirst
          exact ⟨first, hmem, hkey,
            by simp [hexact, hwildcard, hfirst]⟩

theorem MultiCertResolver.fromConfig_selects {specs : List Config.CertSpec}
    (hne : specs ≠ [])
    (hload : ∀ spec ∈ specs, ∃ ck, loadSpec platform files spec = .ok ck) :
    ∃ r, fromConfig platform files specs = .ok r ∧
      (∃ first, specs.head? = some first ∧
        loadSpec platform files first = .ok r.inner.fallback) ∧
      ∀ sni, ∃ spec, Config.CertSpec.select specs sni = some spec ∧
        loadSpec platform files spec = .ok (r.lookup sni) := by
  obtain ⟨table, entries, htable, hindexes, rfl, hloaded⟩ :=
    buildTable_indexes hne hload
  refine ⟨⟨table⟩, by rw [fromConfig, htable]; rfl, ?_, fun sni => ?_⟩
  · obtain ⟨first, hfirst, hkey⟩ :=
      Option.map_eq_some_iff.mp hindexes.fallback.symm
    refine ⟨first.1, by rw [List.head?_map, hfirst, Option.map_some], ?_⟩
    rw [hloaded first (List.mem_of_head? hfirst), hkey]
  · obtain ⟨e, hmem, hkey, hselect⟩ :=
      lookup_of_indexes (r := ⟨table⟩) hindexes sni
    exact ⟨e.1, hselect, hkey ▸ hloaded e hmem⟩

theorem MultiCertResolver.resolve_selects {specs : List Config.CertSpec}
    (hne : specs ≠ [])
    (hload : ∀ spec ∈ specs, ∃ ck, loadSpec platform files spec = .ok ck) :
    ∃ r, fromConfig platform files specs = .ok r ∧
      ∀ serverName : Option String, ∃ spec ck,
        (if serverName.getD "" = "" then specs.head?
          else Config.CertSpec.select specs (serverName.getD "")) = some spec ∧
        loadSpec platform files spec = .ok ck ∧
        r.resolve serverName = some ck := by
  obtain ⟨r, hr, ⟨first, hfirst, hfallback⟩, hselects⟩ :=
    fromConfig_selects hne hload
  refine ⟨r, hr, fun serverName => ?_⟩
  by_cases hname : serverName.getD "" = ""
  · exact ⟨first, _, by rw [if_pos hname, hfirst], hfallback,
      by rw [resolve, if_pos hname]⟩
  · obtain ⟨spec, hselect, hspec⟩ := hselects (serverName.getD "")
    exact ⟨spec, _, by rw [if_neg hname, hselect], hspec,
      by rw [resolve, if_neg hname]⟩

theorem loadSpec_of_addSpecs {specs : List Config.CertSpec} {b built : TableBuilder}
    (h : addSpecs platform files b specs = .ok built) :
    ∀ spec ∈ specs, ∃ ck, loadSpec platform files spec = .ok ck := by
  induction specs generalizing b with
  | nil => simp
  | cons spec specs ih =>
      obtain ⟨ck, hck, hrest⟩ := bind_eq_ok.mp h
      rw [List.forall_mem_cons]
      exact ⟨⟨ck, hck⟩, ih hrest⟩

theorem MultiCertResolver.resolve_of_buildTable {specs : List Config.CertSpec}
    {table : CertTable} (h : buildTable platform files specs = .ok table)
    (serverName : Option String) :
    ∃ spec ck, (if serverName.getD "" = "" then specs.head?
        else Config.CertSpec.select specs (serverName.getD "")) = some spec ∧
      loadSpec platform files spec = .ok ck ∧
      (MultiCertResolver.mk table).resolve serverName = some ck := by
  have hne : specs ≠ [] := by
    rintro rfl
    cases h
  have hload : ∀ spec ∈ specs, ∃ ck, loadSpec platform files spec = .ok ck := by
    rw [buildTable, if_neg (by simpa using hne)] at h
    obtain ⟨built, hbuilt, -⟩ := bind_eq_ok.mp h
    exact loadSpec_of_addSpecs hbuilt
  obtain ⟨r, hr, hselects⟩ := resolve_selects hne hload
  rw [fromConfig, h] at hr
  cases hr
  exact hselects serverName

theorem loadSpec_of_folded_eq {spec spec' : Config.CertSpec}
    {ck : CertifiedKey} (hspec : spec'.folded = spec.folded)
    (hload : loadSpec platform files spec = .ok ck) :
    loadSpec platform files spec' = .ok ck := by
  simp only [Config.CertSpec.folded, Config.CertSpec.mk.injEq] at hspec
  obtain ⟨-, hcert, hkey, hocsp⟩ := hspec
  simp only [loadSpec, hcert, hkey, hocsp, bind_eq_ok] at hload ⊢
  obtain ⟨certs, hcerts, key, hder, hrest⟩ := hload
  refine ⟨certs, hcerts, key, hder, ?_⟩
  -- The name only stands in the error for a key of no supported type.
  by_cases hsupported : platform.anySupportedType key = true
  · simpa [hsupported] using hrest
  · simp [hsupported] at hrest

theorem oneLabelBelow_of_wildcardFor {sni suffix : String}
    {spec : Config.CertSpec} (hsuffix : wildcardSuffix spec.sni = some suffix)
    (h : spec.wildcardFor sni = true) : OneLabelBelow sni suffix := by
  rw [Config.CertSpec.wildcardFor, hsuffix, afterDot] at h
  cases hdrop : sni.toList.dropWhile fun c => c != '.' with
  | nil => simp [hdrop] at h
  | cons dot rest =>
      rw [hdrop] at h
      have hdot : dot = '.' := by
        simpa [hdrop] using
          List.head?_dropWhile_not (fun c => c != '.') sni.toList
      refine ⟨sni.toList.takeWhile fun c => c != '.', rest, ?_, ?_, h⟩
      · rw [hdot] at hdrop
        rw [← hdrop, List.takeWhile_append_dropWhile]
      · intro hmem
        simpa using List.mem_takeWhile_imp hmem

theorem oneLabelBelow_of_select {specs : List Config.CertSpec}
    {sni suffix : String} {spec : Config.CertSpec}
    (hselect : Config.CertSpec.select specs sni = some spec)
    (hsuffix : wildcardSuffix spec.sni = some suffix) :
    OneLabelBelow sni suffix ∨
      specs.head? = some spec ∧
        ∀ other ∈ specs, other.exactFor sni = false ∧
          other.wildcardFor sni = false := by
  rw [Config.CertSpec.select] at hselect
  cases hexact : specs.reverse.find? (Config.CertSpec.exactFor sni) with
  | some found =>
      have hfound := List.find?_some hexact
      rw [hexact, Option.some_or, Option.some.injEq] at hselect
      simp [Config.CertSpec.exactFor, hselect, hsuffix] at hfound
  | none =>
      rw [hexact, Option.none_or] at hselect
      cases hwildcard : specs.find? (Config.CertSpec.wildcardFor sni) with
      | some found =>
          have hfound := List.find?_some hwildcard
          rw [hwildcard, Option.some_or, Option.some.injEq] at hselect
          rw [hselect] at hfound
          exact .inl (oneLabelBelow_of_wildcardFor hsuffix hfound)
      | none =>
          rw [hwildcard, Option.none_or] at hselect
          refine .inr ⟨hselect, fun other hother => ⟨?_, ?_⟩⟩
          · simpa using List.find?_eq_none.mp hexact other (by simpa using hother)
          · simpa using List.find?_eq_none.mp hwildcard other hother

end Selecting

namespace MultiCertResolver

variable (platform : Platform) (files : Files)

theorem reload_of_error {r : MultiCertResolver} {specs : List Config.CertSpec}
    {e : TlsError} (h : (r.reload platform files specs).1 = .error e) :
    (r.reload platform files specs).2 = r := by
  unfold reload at h ⊢
  cases hbuild : buildTable platform files specs with
  | error e => rfl
  | ok table => simp [hbuild] at h

theorem lookup_selects (specs : List Config.CertSpec) (hne : specs ≠ [])
    (hload : ∀ spec ∈ specs, ∃ ck, loadSpec platform files spec = .ok ck) :
    ∃ r, fromConfig platform files specs = .ok r ∧
      (∀ sni, ∃ spec, Config.CertSpec.select specs sni = some spec ∧
        loadSpec platform files spec = .ok (r.lookup sni) ∧
        ∀ suffix, wildcardSuffix spec.sni = some suffix →
          OneLabelBelow sni suffix ∨
            specs.head? = some spec ∧
              ∀ other ∈ specs, other.exactFor sni = false ∧
                other.wildcardFor sni = false) ∧
      (∀ specs' sni sni',
        specs'.map Config.CertSpec.folded = specs.map Config.CertSpec.folded →
        eqIgnoreAsciiCase sni sni' = true →
        ∃ r', fromConfig platform files specs' = .ok r' ∧
          r'.lookup sni' = r.lookup sni) ∧
      ∀ (active : MultiCertResolver) files' specs' e,
        (active.reload platform files' specs').1 = .error e →
        ∀ sni, (active.reload platform files' specs').2.lookup sni =
          active.lookup sni := by
  obtain ⟨r, hr, -, hselects⟩ := fromConfig_selects hne hload
  refine ⟨r, hr, fun sni => ?_, ?_, ?_⟩
  · obtain ⟨spec, hselect, hspec⟩ := hselects sni
    exact ⟨spec, hselect, hspec, fun suffix => oneLabelBelow_of_select hselect⟩
  · intro specs' sni sni' hspecs hsni
    have hne' : specs' ≠ [] := by
      rintro rfl
      exact hne (List.map_eq_nil_iff.mp hspecs.symm)
    have hload' : ∀ spec' ∈ specs', ∃ ck,
        loadSpec platform files spec' = .ok ck := by
      intro spec' hspec'
      have hmem := List.mem_map_of_mem (f := Config.CertSpec.folded) hspec'
      rw [hspecs] at hmem
      obtain ⟨spec, hspec, hfold⟩ := List.mem_map.mp hmem
      obtain ⟨ck, hck⟩ := hload spec hspec
      exact ⟨ck, loadSpec_of_folded_eq hfold.symm hck⟩
    obtain ⟨r', hr', -, hselects'⟩ := fromConfig_selects hne' hload'
    obtain ⟨spec, hselect, hspec⟩ := hselects sni
    obtain ⟨spec', hselect', hspec'⟩ := hselects' sni'
    have hfold := Config.CertSpec.select_folded hspecs hsni
    rw [hselect, hselect', Option.map_some, Option.map_some,
      Option.some.injEq] at hfold
    have hsame := loadSpec_of_folded_eq hfold hspec
    rw [hspec'] at hsame
    exact ⟨r', hr', Except.ok.inj hsame⟩
  · intro active files' specs' e he sni
    rw [reload_of_error platform files' he]

def pathFiles : Files :=
  ⟨fun _ => true, fun path => some (path.toList.map fun c => .ofNat c.toNat)⟩

def shopSpecs : List Config.CertSpec :=
  [⟨"shop.org", "first", "first", none⟩, ⟨"*.Shop.ORG", "wild", "wild", none⟩,
    ⟨"api.Shop.org", "old", "old", none⟩, ⟨"API.shop.org", "new", "new", none⟩]

theorem shopSpecs_lookup :
    ∃ r, fromConfig .concrete pathFiles shopSpecs = .ok r ∧
      loadSpec .concrete pathFiles ⟨"API.shop.org", "new", "new", none⟩ =
        .ok (r.lookup "api.shop.ORG") ∧
      loadSpec .concrete pathFiles ⟨"*.Shop.ORG", "wild", "wild", none⟩ =
        .ok (r.lookup "WWW.shop.org") ∧
      loadSpec .concrete pathFiles ⟨"shop.org", "first", "first", none⟩ =
        .ok (r.lookup "a.b.shop.org") := by
  have hload : ∀ spec ∈ shopSpecs, ∃ ck,
      loadSpec .concrete pathFiles spec = .ok ck := by
    simp only [shopSpecs, List.forall_mem_cons]
    exact ⟨⟨_, rfl⟩, ⟨_, rfl⟩, ⟨_, rfl⟩, ⟨_, rfl⟩, by simp⟩
  obtain ⟨r, hr, hselects, -⟩ :=
    lookup_selects .concrete pathFiles shopSpecs (by decide) hload
  have hlookup : ∀ {sni spec},
      Config.CertSpec.select shopSpecs sni = some spec →
      loadSpec .concrete pathFiles spec = .ok (r.lookup sni) := by
    intro sni spec h
    obtain ⟨found, hfound, hspec, -⟩ := hselects sni
    rw [h, Option.some.injEq] at hfound
    rwa [hfound]
  exact ⟨r, hr, hlookup (by decide), hlookup (by decide), hlookup (by decide)⟩

end MultiCertResolver

end Conduit
