import Conduit.Control.Scrape
import Conduit.Foundation.Delimited

/-!
# The admin endpoints

`handle` answers every request of the admin listener.  The page it serves at
`/metrics` is read back here by the grammar of the text exposition: comments,
and samples of a name, labels and a value.
-/

namespace Conduit

open Foundation

namespace Metrics

/-! ## Samples -/

inductive Sample where
  | comment (text : String)
  | series (metric : Metric) (value : String)
  deriving DecidableEq, Repr

def Sample.text : Sample → String
  | .comment text => text ++ "\n"
  | .series metric value => metric.text ++ " " ++ value ++ "\n"

def Line.sample (seconds : Nat → String) : Line → Sample
  | .comment text => .comment text
  | .value metric n => .series metric (toString n)
  | .seconds metric micros => .series metric (seconds micros)

/-! ## Responses -/

structure AdminResponse where
  status : UInt16
  contentType : String
  body : String
  deriving DecidableEq, Repr

def plainText (status : UInt16) (body : String) : AdminResponse :=
  ⟨status, "text/plain; charset=utf-8", body⟩

def cargoPkgVersion : String := "0.1.0"

def gauges (uptime : String) : List Sample :=
  [.comment "# HELP conduit_uptime_seconds Time since the admin server bound, in seconds.",
    .comment "# TYPE conduit_uptime_seconds gauge",
    .series ⟨"conduit_uptime_seconds", []⟩ uptime,
    .comment "# HELP conduit_build_info Build information; value is always 1.",
    .comment "# TYPE conduit_build_info gauge",
    .series ⟨"conduit_build_info", [("version", cargoPkgVersion)]⟩ "1"]

/--
`uptime` is the `f64` of the seconds since the listener was bound, printed;
`lines` is what `MetricsHandle::render` prints.
-/
def metricsResponse (uptime : String) (seconds : Nat → String) (lines : List Line) :
    AdminResponse :=
  ⟨200, "text/plain; version=0.0.4; charset=utf-8",
    String.join ((gauges uptime).map Sample.text) ++
      String.join (lines.map (Line.text seconds))⟩

structure AdminState where
  uptime : String
  seconds : Nat → String
  lines : List Line
  upstreams : Option String

def handle (s : AdminState) (method path : String) : AdminResponse :=
  if method = "GET" then
    if path = "/health" then plainText 200 "ok\n"
    else if path = "/ready" then plainText 200 "ready\n"
    else if path = "/metrics" then metricsResponse s.uptime s.seconds s.lines
    else if path = "/upstreams" then
      match s.upstreams with
      | some page => plainText 200 page
      | none => plainText 404 "not found\n"
    else if path = "/" then
      plainText 200 "conduit admin\nendpoints: /health /ready /metrics /upstreams\n"
    else plainText 404 "not found\n"
  else plainText 404 "not found\n"

/-! ## Reading an exposition -/

def parseLabel (text : List Char) : Option (String × String) := do
  let (key, value) ← cut '=' text
  let value ← unquoted '"' value
  some (String.ofList key, String.ofList value)

def parseMetric (text : List Char) : Option Metric :=
  match cut '\x7b' text with
  | none => some ⟨String.ofList text, []⟩
  | some (name, rest) => do
      let body ← rest.dropSuffix? ['\x7d']
      let labels ← (body.splitOn ',').mapM parseLabel
      some ⟨String.ofList name, labels⟩

def parseLine (text : List Char) : Option Sample :=
  if text.head? = some '#' then some (.comment (String.ofList text))
  else do
    let (metric, value) ← cutLast ' ' text
    let metric ← parseMetric metric
    some (.series metric (String.ofList value))

def parseExposition (text : String) : Option (List Sample) := do
  let lines ← records '\n' text.toList
  lines.mapM parseLine

/-! ## Plain text -/

def Free (bad : List Char) (s : String) : Prop := ∀ c ∈ s.toList, c ∉ bad

def freeOf (bad text : List Char) : Bool :=
  text.all fun c => !bad.contains c

-- A literal is `String.ofList` of its characters, so that only a list is evaluated.
theorem free_ofList {bad text : List Char} (h : freeOf bad text = true) :
    Free bad (String.ofList text) := by
  intro c hc
  rw [String.toList_ofList] at hc
  simpa using List.all_eq_true.mp h c hc

theorem Free.append {bad : List Char} {s t : String} (hs : Free bad s) (ht : Free bad t) :
    Free bad (s ++ t) := by
  intro c hc
  rw [String.toList_append] at hc
  rcases List.mem_append.mp hc with hc | hc
  · exact hs c hc
  · exact ht c hc

theorem Free.mono {bad bad' : List Char} {s : String} (h : Free bad s) (hsub : bad' ⊆ bad) :
    Free bad' s :=
  fun c hc hbad => h c hc (hsub hbad)

theorem Free.notMem {bad : List Char} {s : String} (h : Free bad s) {c : Char} (hc : c ∈ bad) :
    c ∉ s.toList :=
  fun hmem => h c hmem hc

structure Metric.Plain (m : Metric) : Prop where
  name : Free ['#', '\x7b', '\n'] m.name
  named : m.name.toList ≠ []
  keys : ∀ l ∈ m.labels, Free ['=', ',', '\n'] l.1
  values : ∀ l ∈ m.labels, Free [',', '\n'] l.2

def Numeral (s : String) : Prop := Free [' ', '\n'] s

def Comment (text : String) : Prop := Free ['\n'] text ∧ text.toList.head? = some '#'

theorem comment_ofList {text : List Char} (h : freeOf ['\n'] text = true)
    (hhead : text.head? = some '#') : Comment (String.ofList text) :=
  ⟨free_ofList h, by rw [String.toList_ofList, hhead]⟩

def Line.Plain : Line → Prop
  | .comment text => Comment text
  | .value metric _ | .seconds metric _ => metric.Plain

def Emit.Plain : Emit → Prop
  | .comment text => Comment text
  | .value metrics _ => ∀ m ∈ metrics, m.Plain
  | .reset => True
  | .bucket metric _ | .seconds metric _ => metric.Plain

/-! ## One line -/

def labelText (l : String × String) : List Char := l.1.toList ++ '=' :: quoted '"' l.2.toList

theorem parseLabel_labelText {l : String × String} (h : Free ['=', ',', '\n'] l.1) :
    parseLabel (labelText l) = some l := by
  rw [parseLabel, labelText, cut_append (h.notMem (by decide))]
  simp [unquoted_quoted]

theorem toList_text_of_labels {m : Metric} (h : m.labels ≠ []) :
    m.text.toList = m.name.toList ++ '\x7b' ::
      ([','].intercalate (m.labels.map labelText) ++ ['\x7d']) := by
  unfold Metric.text
  split
  · exact absurd ‹_› h
  · simp [String.toList_append, String.toList_intercalate, Function.comp_def]
    rfl

theorem notMem_intercalate {sep c : Char} (hsep : c ≠ sep) {fields : List (List Char)}
    (h : ∀ f ∈ fields, c ∉ f) : c ∉ [sep].intercalate fields := by
  intro hmem
  induction fields with
  | nil => simp [List.intercalate] at hmem
  | cons f fields ih =>
      rw [List.forall_mem_cons] at h
      cases fields with
      | nil =>
          rw [List.intercalate_singleton] at hmem
          exact h.1 hmem
      | cons g fields =>
          rw [List.intercalate_cons_cons, List.append_assoc, List.mem_append, List.mem_append,
            List.mem_singleton] at hmem
          rcases hmem with hmem | hmem | hmem
          · exact h.1 hmem
          · exact hsep hmem
          · exact ih h.2 hmem

theorem Metric.Plain.notMem_labelText {m : Metric} (h : m.Plain) {c : Char}
    (hc : c = ',' ∨ c = '\n') : ∀ f ∈ m.labels.map labelText, c ∉ f := by
  intro f hf hmem
  obtain ⟨l, hl, rfl⟩ := List.mem_map.mp hf
  have hkey := (h.keys l hl).notMem (c := c) (by rcases hc with rfl | rfl <;> decide)
  have hvalue := (h.values l hl).notMem (c := c) (by rcases hc with rfl | rfl <;> decide)
  rcases hc with rfl | rfl <;> simp [labelText, quoted, hkey, hvalue] at hmem

theorem parseMetric_text {m : Metric} (h : m.Plain) : parseMetric m.text.toList = some m := by
  obtain ⟨name, labels⟩ := m
  cases labels with
  | nil =>
      have htext : (⟨name, []⟩ : Metric).text = name := rfl
      rw [htext, parseMetric, cut_eq_none (h.name.notMem (by decide))]
      simp
  | cons l labels =>
      have hbody : ([','].intercalate ((l :: labels).map labelText)).splitOn ',' =
          (l :: labels).map labelText :=
        List.splitOn_intercalate ',' (h.notMem_labelText (.inl rfl)) (by simp)
      have hsuffix : ([','].intercalate ((l :: labels).map labelText) ++ ['\x7d']).dropSuffix?
          ['\x7d'] = some ([','].intercalate ((l :: labels).map labelText)) :=
        List.dropSuffix?_eq_some_iff.mpr ⟨['\x7d'], rfl, beq_self_eq_true _⟩
      have hlabels : ((l :: labels).map labelText).mapM parseLabel = some (l :: labels) :=
        mapM_eq_some fun x hx => parseLabel_labelText (h.keys x hx)
      rw [toList_text_of_labels (by simp), parseMetric,
        cut_append (h.name.notMem (by decide))]
      simp only [hsuffix, hbody, hlabels, Option.bind_eq_bind, Option.bind_some,
        String.ofList_toList]

theorem newline_notMem_text {m : Metric} (h : m.Plain) : '\n' ∉ m.text.toList := by
  obtain ⟨name, labels⟩ := m
  have hname : '\n' ∉ name.toList := h.name.notMem (by decide)
  cases labels with
  | nil => exact hname
  | cons l labels =>
      have hlabels := notMem_intercalate (by decide : '\n' ≠ ',')
        (h.notMem_labelText (.inr rfl))
      rw [toList_text_of_labels (by simp)]
      simp only [List.mem_append, List.mem_cons, not_or]
      exact ⟨hname, by decide, hlabels, by decide, List.not_mem_nil⟩

theorem head_text {m : Metric} (h : m.Plain) (rest : List Char) :
    (m.text.toList ++ rest).head? ≠ some '#' := by
  have hhead : ∀ tail, (m.name.toList ++ tail).head? ≠ some '#' := by
    intro tail heq
    rw [List.head?_append_of_ne_nil _ h.named] at heq
    exact h.name.notMem (by decide) (List.mem_of_mem_head? heq)
  obtain ⟨name, labels⟩ := m
  cases labels with
  | nil => exact hhead rest
  | cons l labels =>
      rw [toList_text_of_labels (by simp), List.append_assoc]
      exact hhead _

def Sample.Plain : Sample → Prop
  | .comment text => Comment text
  | .series metric value => metric.Plain ∧ Numeral value

def Sample.chars : Sample → List Char
  | .comment text => text.toList
  | .series metric value => metric.text.toList ++ ' ' :: value.toList

theorem Sample.toList_text (sample : Sample) : sample.text.toList = sample.chars ++ ['\n'] := by
  cases sample with
  | comment text => simp [Sample.text, Sample.chars]
  | series metric value => simp [Sample.text, Sample.chars]

theorem Line.text_eq (seconds : Nat → String) (l : Line) :
    l.text seconds = (l.sample seconds).text := by
  cases l <;> rfl

theorem parseLine_chars {sample : Sample} (h : sample.Plain) :
    parseLine sample.chars = some sample := by
  cases sample with
  | comment text => rw [Sample.chars, parseLine, if_pos h.2, String.ofList_toList]
  | series m value =>
      rw [Sample.chars, parseLine, if_neg (head_text h.1 _),
        cutLast_append _ (h.2.notMem (by decide))]
      simp [parseMetric_text h.1]

theorem newline_notMem_chars {sample : Sample} (h : sample.Plain) : '\n' ∉ sample.chars := by
  cases sample with
  | comment text => exact h.1.notMem (by decide)
  | series m value =>
      have hname := newline_notMem_text h.1
      have hvalue := h.2.notMem (c := '\n') (by decide)
      simp [Sample.chars, hname, hvalue]

theorem parseExposition_join {samples : List Sample} (h : ∀ s ∈ samples, s.Plain) :
    parseExposition (String.join (samples.map Sample.text)) = some samples := by
  have htext : (String.join (samples.map Sample.text)).toList =
      terminated '\n' (samples.map Sample.chars) := by
    rw [String.toList_join, terminated, List.flatMap_map, List.flatMap_map]
    simp only [Sample.toList_text]
  rw [parseExposition, htext]
  exact read_terminated (fun sample hsample => newline_notMem_chars (h sample hsample))
    fun sample hsample => parseLine_chars (h sample hsample)

/-! ## The whole page -/

section Page

theorem Comment.append {s t : String} (hs : Comment s) (ht : Free ['\n'] t) :
    Comment (s ++ t) := by
  refine ⟨hs.1.append ht, ?_⟩
  rw [String.toList_append, List.head?_append, hs.2]
  rfl

theorem plain_announce {name help kind : String} (hname : Free ['\n'] name)
    (hhelp : Free ['\n'] help) (hkind : Free ['\n'] kind) :
    ∀ e ∈ announce name help kind, e.Plain := by
  have hmarked : ∀ {mark text : String}, Comment mark → Free ['\n'] text →
      Comment (mark ++ name ++ " " ++ text) :=
    fun hmark htext => ((hmark.append hname).append (free_ofList (by decide))).append htext
  intro e he
  rcases List.mem_pair.mp he with rfl | rfl
  · exact hmarked (comment_ofList (by decide) rfl) hhelp
  · exact hmarked (comment_ofList (by decide) rfl) hkind

theorem Metric.Plain.suffix {name suffix : String} {labels more : List (String × String)}
    (h : (⟨name, labels⟩ : Metric).Plain) (hsuffix : Free ['#', '\x7b', '\n'] suffix)
    (hmore : ∀ l ∈ more, Free ['=', ',', '\n'] l.1 ∧ Free [',', '\n'] l.2) :
    (⟨name ++ suffix, labels ++ more⟩ : Metric).Plain := by
  refine ⟨h.name.append hsuffix, ?_, ?_, ?_⟩
  · simp [String.toList_append, h.named]
  · intro l hl
    rcases List.mem_append.mp hl with hl | hl
    · exact h.keys l hl
    · exact (hmore l hl).1
  · intro l hl
    rcases List.mem_append.mp hl with hl | hl
    · exact h.values l hl
    · exact (hmore l hl).2

theorem free_latencyBuckets : ∀ b ∈ latencyBuckets, Free [',', '\n'] b.label := by
  simp only [latencyBuckets, List.forall_mem_cons]
  refine ⟨?_, ?_, ?_, ?_, ?_, ?_, ?_, ?_, ?_, ?_, ?_, ?_, List.forall_mem_nil _⟩ <;>
    exact free_ofList (by decide)

theorem plain_histogram {name : String} {labels : List (String × String)}
    (h : (⟨name, labels⟩ : Metric).Plain) (buckets : Bucket → Counter) (count sum : Counter) :
    ∀ e ∈ histogram name labels buckets count sum, e.Plain := by
  have hbucket : ∀ le, Free [',', '\n'] le → (bucketMetric name labels le).Plain := by
    intro le hle
    refine h.suffix (free_ofList (by decide)) ?_
    intro l hl
    rw [List.mem_singleton.mp hl]
    exact ⟨free_ofList (by decide), hle⟩
  have hplain : ∀ suffix, Free ['#', '\x7b', '\n'] suffix →
      (⟨name ++ suffix, labels⟩ : Metric).Plain := by
    intro suffix hsuffix
    simpa using h.suffix hsuffix (List.forall_mem_nil _)
  intro e he
  simp only [histogram, List.cons_append, List.mem_cons, List.mem_append, List.mem_map,
    List.not_mem_nil, or_false] at he
  rcases he with rfl | ⟨i, -, rfl⟩ | rfl | rfl
  · trivial
  · exact hbucket _ (free_latencyBuckets _ (List.getElem_mem _))
  · intro m hm
    rcases List.mem_pair.mp hm with rfl | rfl
    · exact hbucket _ (free_ofList (by decide))
    · exact hplain _ (free_ofList (by decide))
  · exact hplain _ (free_ofList (by decide))

theorem plain_ofList {name : List Char} (h : freeOf ['#', '\x7b', '\n'] name = true)
    (hne : name ≠ []) {labels : List (String × String)}
    (hlabels : ∀ l ∈ labels, Free ['=', ',', '\n'] l.1 ∧ Free [',', '\n'] l.2) :
    (⟨String.ofList name, labels⟩ : Metric).Plain :=
  ⟨free_ofList h, by rwa [String.toList_ofList], fun l hl => (hlabels l hl).1,
    fun l hl => (hlabels l hl).2⟩

theorem plain_plainCounter {name help : List Char}
    (hname : freeOf ['#', '\x7b', '\n'] name = true) (hne : name ≠ [])
    (hhelp : freeOf ['\n'] help = true) (counter : Counter) :
    ∀ e ∈ plainCounter (String.ofList name) (String.ofList help) counter, e.Plain := by
  have hplain : (⟨String.ofList name, []⟩ : Metric).Plain :=
    plain_ofList hname hne (List.forall_mem_nil _)
  intro e he
  rcases List.mem_append.mp he with he | he
  · exact plain_announce (hplain.name.mono (by simp)) (free_ofList hhelp)
      (free_ofList (by decide)) e he
  · rw [List.mem_singleton.mp he]
    intro m hm
    rw [List.mem_singleton.mp hm]
    exact hplain

theorem free_class (c : StatusClass) :
    ∀ l ∈ [("class", c.label)], Free ['=', ',', '\n'] l.1 ∧ Free [',', '\n'] l.2 := by
  intro l hl
  rw [List.mem_singleton.mp hl]
  refine ⟨free_ofList (by decide), ?_⟩
  cases c <;> exact free_ofList (by decide)

theorem plain_summary : ∀ e ∈ summary, e.Plain := by
  intro e he
  simp only [summary, List.mem_append, List.mem_map] at he
  rcases he with ((((he | he) | he) | he) | he) | ⟨c, -, rfl⟩
  · exact plain_plainCounter (by decide) (by decide) (by decide) _ e he
  · exact plain_plainCounter (by decide) (by decide) (by decide) _ e he
  · exact plain_plainCounter (by decide) (by decide) (by decide) _ e he
  · exact plain_plainCounter (by decide) (by decide) (by decide) _ e he
  · exact plain_announce (free_ofList (by decide)) (free_ofList (by decide))
      (free_ofList (by decide)) e he
  · intro m hm
    rw [List.mem_singleton.mp hm]
    exact plain_ofList (by decide) (by decide) (free_class c)

theorem plain_renderProgram : ∀ e ∈ renderProgram, e.Plain := by
  intro e he
  simp only [renderProgram, List.mem_append, List.mem_flatMap] at he
  rcases he with (((he | he) | he) | he) | ⟨c, -, he⟩
  · exact plain_summary e he
  · exact plain_announce (free_ofList (by decide)) (free_ofList (by decide))
      (free_ofList (by decide)) e he
  · exact plain_histogram (plain_ofList (by decide) (by decide) (List.forall_mem_nil _)) _ _ _ e he
  · exact plain_announce (free_ofList (by decide)) (free_ofList (by decide))
      (free_ofList (by decide)) e he
  · exact plain_histogram (plain_ofList (by decide) (by decide) (free_class c)) _ _ _ e he

variable {σ : Type*} {counters : σ → Counter → Nat}

theorem plain_run {e : Emit} (he : e.Plain) (load : Counter → Nat) {s : Exposition}
    (hs : ∀ l ∈ s.lines, l.Plain) : ∀ l ∈ (Emit.run load s e).lines, l.Plain := by
  cases e with
  | comment text => simpa [Emit.run, or_imp, forall_and] using ⟨hs, he⟩
  | value metrics k =>
      intro l hl
      rcases List.mem_append.mp hl with hl | hl
      · exact hs l hl
      · obtain ⟨m, hm, rfl⟩ := List.mem_map.mp hl
        exact he m hm
  | reset => exact hs
  | bucket metric k => simpa [Emit.run, or_imp, forall_and] using ⟨hs, he⟩
  | seconds metric k => simpa [Emit.run, or_imp, forall_and] using ⟨hs, he⟩

theorem plain_scrape {entries : List (Emit × σ)} (h : ∀ e ∈ entries.map Prod.fst, e.Plain)
    {s : Exposition} (hs : ∀ l ∈ s.lines, l.Plain) :
    ∀ l ∈ (scrape counters entries s).lines, l.Plain := by
  induction entries generalizing s with
  | nil => exact hs
  | cons e entries ih =>
      rw [List.map_cons, List.forall_mem_cons] at h
      exact ih h.2 (plain_run h.1 _ hs)

/-! ### Every series once -/

def Sample.metric? : Sample → Option Metric
  | .comment _ => none
  | .series metric _ => some metric

def Emit.series : Emit → List Metric
  | .value metrics _ => metrics
  | .bucket metric _ | .seconds metric _ => [metric]
  | .comment _ | .reset => []

def seriesOf (seconds : Nat → String) (lines : List Line) : List Metric :=
  (lines.map (Line.sample seconds)).filterMap Sample.metric?

theorem seriesOf_run (seconds : Nat → String) (load : Counter → Nat) (s : Exposition)
    (e : Emit) :
    seriesOf seconds (Emit.run load s e).lines = seriesOf seconds s.lines ++ e.series := by
  cases e with
  | comment text => simp [seriesOf, Emit.run, Emit.series, Line.sample, Sample.metric?]
  | value metrics k =>
      simp [seriesOf, Emit.run, Emit.series, Function.comp_def, Line.sample, Sample.metric?]
  | reset => simp [seriesOf, Emit.run, Emit.series]
  | bucket metric k => simp [seriesOf, Emit.run, Emit.series, Line.sample, Sample.metric?]
  | seconds metric k => simp [seriesOf, Emit.run, Emit.series, Line.sample, Sample.metric?]

theorem seriesOf_scrape (seconds : Nat → String) (entries : List (Emit × σ)) (s : Exposition) :
    seriesOf seconds (scrape counters entries s).lines =
      seriesOf seconds s.lines ++ (entries.map Prod.fst).flatMap Emit.series := by
  induction entries generalizing s with
  | nil => simp [scrape]
  | cons e entries ih =>
      rw [List.map_cons, List.flatMap_cons, ← List.append_assoc, ← seriesOf_run seconds _ s]
      exact ih _

def gaugeSeries : List Metric :=
  [⟨"conduit_uptime_seconds", []⟩, ⟨"conduit_build_info", [("version", cargoPkgVersion)]⟩]

theorem series_nodup : (gaugeSeries ++ renderProgram.flatMap Emit.series).Nodup := by
  decide +kernel

theorem numeral_toString (n : Nat) : Numeral (toString n) := by
  intro c hc hbad
  rw [Nat.toString_eq_ofList_toDigits, String.toList_ofList] at hc
  have hdigit : c.isDigit = true := Nat.isDigit_of_mem_toDigits (by decide) (by decide) hc
  rcases List.mem_pair.mp hbad with rfl | rfl <;> simp at hdigit

theorem plain_sample {seconds : Nat → String} (hseconds : ∀ micros, Numeral (seconds micros))
    {l : Line} (h : l.Plain) : (l.sample seconds).Plain := by
  cases l with
  | comment text => exact h
  | value metric n => exact ⟨h, numeral_toString n⟩
  | seconds metric micros => exact ⟨h, hseconds micros⟩

theorem plain_gauges {uptime : String} (huptime : Numeral uptime) :
    ∀ s ∈ gauges uptime, s.Plain := by
  have hversion : ∀ l ∈ [("version", cargoPkgVersion)],
      Free ['=', ',', '\n'] l.1 ∧ Free [',', '\n'] l.2 := by
    intro l hl
    rw [List.mem_singleton.mp hl]
    exact ⟨free_ofList (by decide), free_ofList (by decide)⟩
  simp only [gauges, List.forall_mem_cons]
  exact ⟨comment_ofList (by decide) rfl, comment_ofList (by decide) rfl,
    ⟨plain_ofList (by decide) (by decide) (List.forall_mem_nil _), huptime⟩,
    comment_ofList (by decide) rfl, comment_ofList (by decide) rfl,
    ⟨plain_ofList (by decide) (by decide) hversion, free_ofList (by decide)⟩,
    List.forall_mem_nil _⟩

theorem handle_metrics (s : AdminState) :
    handle s "GET" "/metrics" = metricsResponse s.uptime s.seconds s.lines := by
  simp [handle]

/--
Whatever requests do between the loads of a scrape, the page at `/metrics`
is a text exposition that says exactly what `render` printed, and names no
series twice.
-/
theorem metrics_page_reads_back {σ : Type*} (counters : σ → Counter → Nat)
    (entries : List (Emit × σ)) (hprogram : entries.map Prod.fst = renderProgram)
    (uptime : String) (huptime : Numeral uptime)
    (seconds : Nat → String) (hseconds : ∀ micros, Numeral (seconds micros))
    (upstreams : Option String) :
    let lines := (scrape counters entries {}).lines
    let samples := gauges uptime ++ lines.map (Line.sample seconds)
    parseExposition (handle ⟨uptime, seconds, lines, upstreams⟩ "GET" "/metrics").body =
        some samples ∧
      (samples.filterMap Sample.metric?).Nodup := by
  intro lines samples
  have hplain : ∀ l ∈ lines, l.Plain :=
    plain_scrape (hprogram ▸ plain_renderProgram) (List.forall_mem_nil _)
  have hsamples : ∀ s ∈ samples, s.Plain := by
    intro s hs
    rcases List.mem_append.mp hs with hs | hs
    · exact plain_gauges huptime s hs
    · obtain ⟨l, hl, rfl⟩ := List.mem_map.mp hs
      exact plain_sample hseconds (hplain l hl)
  have hbody : (handle ⟨uptime, seconds, lines, upstreams⟩ "GET" "/metrics").body =
      String.join (samples.map Sample.text) := by
    have htext : lines.map (Line.text seconds) =
        (lines.map (Line.sample seconds)).map Sample.text := by
      rw [List.map_map]
      exact List.map_congr_left fun l _ => l.text_eq seconds
    rw [handle_metrics, metricsResponse, htext, ← String.join_append, ← List.map_append]
  refine ⟨by rw [hbody, parseExposition_join hsamples], ?_⟩
  have hseries : samples.filterMap Sample.metric? =
      gaugeSeries ++ renderProgram.flatMap Emit.series := by
    rw [List.filterMap_append]
    exact congrArg _ ((seriesOf_scrape seconds entries {}).trans (by rw [hprogram]; rfl))
  rw [hseries]
  exact series_nodup

theorem metrics_page_reads_back_sample :
    ∃ samples,
      parseExposition (handle ⟨"1.5", toString,
        (scrape (fun (updates : Nat) _ => updates) renderProgram.zipIdx {}).lines, none⟩
        "GET" "/metrics").body = some samples ∧
      (samples.filterMap Sample.metric?).Nodup := by
  have h := metrics_page_reads_back (fun (updates : Nat) _ => updates) renderProgram.zipIdx
    (List.zipIdx_map_fst _ _) "1.5" (free_ofList (by decide)) toString numeral_toString none
  exact ⟨_, h⟩

end Page

end Metrics

end Conduit
