import Conduit.Control.Admin
import Conduit.Lifecycle.Dispatch
import Conduit.Upstream.Clones
import Mathlib.Data.String.Basic

/-!
# The page of the upstreams

`render_upstreams` prints one line for each upstream of the dispatcher, sorted
by name.  The registry is a hash map, so its entries come in any order.
-/

namespace Conduit

open Foundation Metrics

/-! ## The page -/

def BreakerState.word : BreakerState → String
  | .closed => "closed"
  | .open => "open"
  | .halfOpen => "half_open"

structure UpstreamRow where
  name : String
  addrs : List String
  state : BreakerState
  deriving DecidableEq, Repr

def UpstreamRow.of (now : Nat) (name : String) (u : Upstream) : UpstreamRow :=
  ⟨name, u.addrs.map fun a => String.ofList a.display, u.breakerState now⟩

def UpstreamRow.text (row : UpstreamRow) : String :=
  "upstream " ++ row.name ++ " addrs=[" ++
    ",".intercalate (row.addrs.map fun a => "\"" ++ a ++ "\"") ++
    "] breaker=" ++ row.state.word ++ "\n"

def sortByName (entries : List (String × Upstream)) : List (String × Upstream) :=
  entries.mergeSort fun a b => decide (a.1 ≤ b.1)

/-- `clock` is when each upstream is looked at, by its name. -/
def renderUpstreams (clock : String → Nat) (entries : List (String × Upstream)) : String :=
  let out := String.join ((sortByName entries).map fun e =>
    (UpstreamRow.of (clock e.1) e.1 e.2).text)
  if out = "" then "(no upstreams)\n" else out

/-! ## Reading the page -/

def BreakerState.ofWord (word : List Char) : Option BreakerState :=
  if word = "closed".toList then some .closed
  else if word = "open".toList then some .open
  else if word = "half_open".toList then some .halfOpen
  else none

def readAddrs (text : List Char) : Option (List String) :=
  if text = [] then some []
  else (text.splitOn ',').mapM fun field => (unquoted '"' field).map String.ofList

/-- Reads a line from its end, because a name may contain anything but a newline. -/
def readRow (line : List Char) : Option UpstreamRow := do
  let (front, word) ← cutLast '=' line
  let state ← BreakerState.ofWord word
  let front ← front.dropSuffix? "] breaker".toList
  let (front, list) ← cutLast '=' front
  let addrs ← (list.dropPrefix? ['[']).bind readAddrs
  let front ← front.dropSuffix? " addrs".toList
  let name ← front.dropPrefix? "upstream ".toList
  some ⟨String.ofList name, addrs, state⟩

def readUpstreams (page : String) : Option (List UpstreamRow) :=
  if page = "(no upstreams)\n" then some []
  else do
    let lines ← records '\n' page.toList
    lines.mapM readRow

/-! ## One row -/

structure UpstreamRow.Plain (row : UpstreamRow) : Prop where
  name : Free ['\n'] row.name
  addrs : ∀ a ∈ row.addrs, Free ['=', ',', '\n'] a

def UpstreamRow.list (row : UpstreamRow) : List Char :=
  [','].intercalate (row.addrs.map fun a => quoted '"' a.toList)

def UpstreamRow.chars (row : UpstreamRow) : List Char :=
  ("upstream ".toList ++ row.name.toList ++ " addrs".toList ++ '=' :: '[' :: row.list ++
    "] breaker".toList) ++ '=' :: row.state.word.toList

theorem UpstreamRow.toList_text (row : UpstreamRow) : row.text.toList = row.chars ++ ['\n'] := by
  have haddrs : " addrs=[" = " addrs" ++ "=" ++ "[" := by decide
  have hbreaker : "] breaker=" = "] breaker" ++ "=" := by decide
  have hquoted : ∀ a : String, ("\"" ++ a ++ "\"").toList = quoted '"' a.toList := by
    intro a
    simp [quoted]
  unfold text chars list
  rewrite [haddrs, hbreaker]
  generalize "upstream " = upstream
  generalize " addrs" = addrs
  generalize "] breaker" = breaker
  simp [String.toList_append, String.toList_intercalate, Function.comp_def, hquoted]

theorem ofWord_word (s : BreakerState) : BreakerState.ofWord s.word.toList = some s := by
  cases s <;> decide

theorem equals_notMem_word (s : BreakerState) : '=' ∉ s.word.toList := by
  cases s <;> decide

theorem notMem_quoted {c : Char} (hc : c ≠ '"') {a : String} (h : c ∉ a.toList) :
    c ∉ quoted '"' a.toList := by
  simp [quoted, hc, h]

theorem UpstreamRow.Plain.notMem_list {row : UpstreamRow} (h : row.Plain) {c : Char}
    (hc : c = '=' ∨ c = '\n') : c ∉ row.list := by
  refine notMem_intercalate (by rcases hc with rfl | rfl <;> decide) ?_
  intro f hf
  obtain ⟨a, ha, rfl⟩ := List.mem_map.mp hf
  refine notMem_quoted (by rcases hc with rfl | rfl <;> decide) ((h.addrs a ha).notMem ?_)
  rcases hc with rfl | rfl <;> decide

theorem readAddrs_list {row : UpstreamRow} (h : row.Plain) :
    readAddrs row.list = some row.addrs := by
  cases haddrs : row.addrs with
  | nil => simp [readAddrs, UpstreamRow.list, haddrs, List.intercalate]
  | cons a rest =>
      have hne : row.list ≠ [] := by
        intro hnil
        cases rest <;> simp [UpstreamRow.list, haddrs, quoted] at hnil
      have hsplit : row.list.splitOn ',' = row.addrs.map fun a => quoted '"' a.toList := by
        refine List.splitOn_intercalate ',' ?_ (by simp [haddrs])
        intro f hf
        obtain ⟨a, ha, rfl⟩ := List.mem_map.mp hf
        exact notMem_quoted (by decide) ((h.addrs a ha).notMem (by decide))
      rw [readAddrs, if_neg hne, hsplit, ← haddrs]
      refine mapM_eq_some fun a _ => ?_
      rw [unquoted_quoted, Option.map_some, String.ofList_toList]

theorem dropSuffix?_append (front back : List Char) :
    (front ++ back).dropSuffix? back = some front :=
  List.dropSuffix?_eq_some_iff.mpr ⟨back, rfl, beq_self_eq_true _⟩

theorem dropPrefix?_append (front back : List Char) :
    (front ++ back).dropPrefix? front = some back :=
  List.dropPrefix?_eq_some_iff.mpr ⟨front, rfl, beq_self_eq_true _⟩

theorem readRow_chars {row : UpstreamRow} (h : row.Plain) : readRow row.chars = some row := by
  have hbracket : ('[' :: row.list).dropPrefix? ['['] = some row.list := dropPrefix?_append ['['] _
  have hlist : '=' ∉ '[' :: row.list := by
    simpa using h.notMem_list (.inl rfl)
  unfold readRow UpstreamRow.chars
  generalize "upstream ".toList = upstream
  generalize " addrs".toList = addrs
  generalize "] breaker".toList = breaker
  simp only [cutLast_append _ (equals_notMem_word _), Option.bind_eq_bind, Option.bind_some,
    ofWord_word, dropSuffix?_append, cutLast_append _ hlist, hbracket, readAddrs_list h,
    dropPrefix?_append, String.ofList_toList]

/-! ## Addresses -/

def addrChar (c : Char) : Bool := c.isAlphanum || ['.', ':', '[', ']', '%'].contains c

theorem addrChar_toDigits {base : Nat} (hlow : 1 < base) (hhigh : base ≤ 16) (n : Nat) :
    (Nat.toDigits base n).all addrChar = true := by
  have hdigit : ∀ {m : Nat}, m < 16 → addrChar (Nat.digitChar m) = true := by
    intro m hm
    interval_cases m <;> rfl
  induction n using Nat.strong_induction_on with
  | _ n ih =>
      rw [Nat.toDigits_eq_if hlow]
      split
      · simp [hdigit (show n < 16 by omega)]
      · have hdiv : n / base < n := Nat.div_lt_self (by omega) hlow
        have hmod : n % base < 16 := (Nat.mod_lt n (by omega)).trans_le hhigh
        simp [List.all_append, ih _ hdiv, hdigit hmod]

theorem addrChar_decimal (n : Nat) : (decimal n).all addrChar = true :=
  addrChar_toDigits (by decide) (by decide) n

theorem addrChar_ipv4 (ip : Ipv4Addr) : ip.display.all addrChar = true := by
  have hdot : addrChar '.' = true := by decide
  simp only [Ipv4Addr.display, List.all_append, List.all_cons, addrChar_decimal, hdot,
    Bool.and_self]

theorem addrChar_fmtSubslice (chunk : List UInt16) : (fmtSubslice chunk).all addrChar = true := by
  have hcolon : addrChar ':' = true := by decide
  have hhex : ∀ n, (lowerHex n).all addrChar = true := addrChar_toDigits (by decide) (by decide)
  cases chunk with
  | nil => rfl
  | cons first tail =>
      simp only [fmtSubslice, List.all_append, hhex, List.all_flatMap, List.all_cons, hcolon,
        Bool.true_and, List.all_eq_true, implies_true]

theorem addrChar_ipv6 (ip : Ipv6Addr) : ip.display.all addrChar = true := by
  have hmapped : ("::ffff:".toList).all addrChar = true := by decide
  have hgap : ("::".toList).all addrChar = true := by decide
  unfold Ipv6Addr.display
  split
  · simp only [List.all_append, hmapped, addrChar_ipv4, Bool.and_self]
  · dsimp only
    split
    · simp only [List.all_append, hgap, addrChar_fmtSubslice, Bool.and_self]
    · exact addrChar_fmtSubslice _

theorem addrChar_display (addr : SocketAddr) : addr.display.all addrChar = true := by
  have hpunct : addrChar ':' = true ∧ addrChar '[' = true ∧ addrChar ']' = true ∧
      addrChar '%' = true := by decide
  obtain ⟨hcolon, hopen, hclose, hpercent⟩ := hpunct
  cases addr with
  | v4 ip port =>
      simp only [SocketAddr.display, List.all_append, List.all_cons, addrChar_ipv4,
        addrChar_decimal, hcolon, Bool.and_self]
  | v6 ip port scopeId =>
      by_cases h : scopeId = 0 <;>
        simp only [SocketAddr.display, List.all_append, List.all_cons, addrChar_ipv6,
          addrChar_decimal, hcolon, hopen, hclose, hpercent, h, if_true, if_false, List.all_nil,
          Bool.and_self]

theorem free_display (addr : SocketAddr) :
    Free ['=', ',', '\n'] (String.ofList addr.display) := by
  have hbad : (['=', ',', '\n'].all fun c => !addrChar c) = true := by decide
  intro c hc hmem
  rw [String.toList_ofList] at hc
  have haddr := List.all_eq_true.mp (addrChar_display addr) c hc
  have hno := List.all_eq_true.mp hbad c hmem
  rw [haddr] at hno
  cases hno

theorem plain_of {now : Nat} {name : String} (hname : Free ['\n'] name) (u : Upstream) :
    (UpstreamRow.of now name u).Plain := by
  refine ⟨hname, fun a ha => ?_⟩
  obtain ⟨addr, -, rfl⟩ := List.mem_map.mp ha
  exact free_display addr

/-! ## The whole page -/

theorem UpstreamRow.exists_words (row : UpstreamRow) :
    ∃ upstream addrs breaker : List Char, upstream.head? = some 'u' ∧
      ('\n' ∉ upstream ∧ '\n' ∉ addrs ∧ '\n' ∉ breaker) ∧
      row.chars = (upstream ++ row.name.toList ++ addrs ++ '=' :: '[' :: row.list ++ breaker) ++
        '=' :: row.state.word.toList := by
  refine ⟨"upstream ".toList, " addrs".toList, "] breaker".toList, ?_, ?_, ?_⟩
  · decide
  · decide
  · unfold UpstreamRow.chars
    rfl

theorem newline_notMem_chars_row {row : UpstreamRow} (h : row.Plain) : '\n' ∉ row.chars := by
  have hname := h.name.notMem (c := '\n') (by decide)
  have hlist := h.notMem_list (.inr rfl)
  have hword : '\n' ∉ row.state.word.toList := by cases row.state <;> decide
  obtain ⟨upstream, addrs, breaker, -, ⟨hupstream, haddrs, hbreaker⟩, hchars⟩ := row.exists_words
  rw [hchars]
  simp [hupstream, haddrs, hbreaker, hname, hlist, hword]

theorem toList_join_text (rows : List UpstreamRow) :
    (String.join (rows.map UpstreamRow.text)).toList =
      terminated '\n' (rows.map UpstreamRow.chars) := by
  rw [String.toList_join, terminated, List.flatMap_map, List.flatMap_map]
  simp only [UpstreamRow.toList_text]

theorem head_join_text (row : UpstreamRow) (rows : List UpstreamRow) :
    (String.join ((row :: rows).map UpstreamRow.text)).toList.head? = some 'u' := by
  obtain ⟨upstream, addrs, breaker, hfirst, -, hchars⟩ := row.exists_words
  rw [toList_join_text, terminated, List.map_cons, List.flatMap_cons, hchars]
  simp [List.head?_append, hfirst]

def rowsOf (clock : String → Nat) (entries : List (String × Upstream)) : List UpstreamRow :=
  (sortByName entries).map fun e => UpstreamRow.of (clock e.1) e.1 e.2

theorem readUpstreams_render {clock : String → Nat} {entries : List (String × Upstream)}
    (h : ∀ row ∈ rowsOf clock entries, row.Plain) :
    readUpstreams (renderUpstreams clock entries) = some (rowsOf clock entries) := by
  have hpage : renderUpstreams clock entries =
      if String.join ((rowsOf clock entries).map UpstreamRow.text) = "" then "(no upstreams)\n"
      else String.join ((rowsOf clock entries).map UpstreamRow.text) := by
    rw [renderUpstreams, rowsOf, List.map_map]
    rfl
  rw [hpage]
  cases hrows : rowsOf clock entries with
  | nil => simp [readUpstreams]
  | cons row rows =>
      have hhead := head_join_text row rows
      have hne : String.join ((row :: rows).map UpstreamRow.text) ≠ "" := by
        intro hnil
        rw [hnil] at hhead
        cases hhead
      have hother : String.join ((row :: rows).map UpstreamRow.text) ≠ "(no upstreams)\n" := by
        intro heq
        rw [heq] at hhead
        revert hhead
        decide
      rw [hrows] at h
      rw [if_neg hne, readUpstreams, if_neg hother, toList_join_text]
      exact read_terminated (fun row hrow => newline_notMem_chars_row (h row hrow))
        fun row hrow => readRow_chars (h row hrow)

/-! ## Any order of the map -/

section Listing

variable {m : UpstreamMap} {entries : List (String × Upstream)}

theorem mem_listing (h : entries.Perm m.byName.toList) {name : String} {u : Upstream} :
    (name, u) ∈ entries ↔ m.get name = some u := by
  rw [h.mem_iff]
  exact Std.HashMap.mem_toList_iff_getElem?_eq_some

theorem sortByName_perm (entries : List (String × Upstream)) :
    (sortByName entries).Perm entries :=
  List.mergeSort_perm entries _

theorem pairwise_sortByName (h : entries.Perm m.byName.toList) :
    (sortByName entries).Pairwise fun a b => a.1 < b.1 := by
  have hdistinct : (sortByName entries).Pairwise fun a b => a.1 ≠ b.1 := by
    refine ((sortByName_perm entries).trans h).symm.pairwise ?_ fun hne => hne.symm
    exact Std.HashMap.distinct_keys_toList.imp fun hkeys => by simpa using hkeys
  have hle : (sortByName entries).Pairwise fun a b => decide (a.1 ≤ b.1) = true := by
    refine List.pairwise_mergeSort ?_ ?_ entries
    · intro a b c hab hbc
      simp only [decide_eq_true_eq] at hab hbc ⊢
      exact hab.trans hbc
    · intro a b
      simpa using le_total a.1 b.1
  exact (hle.and hdistinct).imp fun h => lt_of_le_of_ne (of_decide_eq_true h.1) h.2

theorem sortByName_eq_of_listing (h : entries.Perm m.byName.toList)
    {entries' : List (String × Upstream)} (h' : entries'.Perm m.byName.toList) :
    sortByName entries' = sortByName entries := by
  have hperm : (sortByName entries').Perm (sortByName entries) :=
    (sortByName_perm entries').trans (h'.trans (h.symm.trans (sortByName_perm entries).symm))
  refine hperm.eq_of_pairwise ?_ (pairwise_sortByName h') (pairwise_sortByName h)
  intro a b _ _ hlt hgt
  exact absurd hlt (lt_asymm hgt)

end Listing

/--
Whatever order the map is walked in, the page is the same and is read back to
one row for each upstream, sorted by name.  An upstream that is shown open has
no backend for a request at that instant.
-/
theorem upstreams_page_reads_back (m : UpstreamMap)
    (hnames : ∀ name u, m.get name = some u → '\n' ∉ name.toList) (clock : String → Nat)
    (entries : List (String × Upstream)) (hlisting : entries.Perm m.byName.toList) :
    ∃ rows, readUpstreams (renderUpstreams clock entries) = some rows ∧
      (rows.map UpstreamRow.name).Pairwise (· < ·) ∧
      (∀ row, row ∈ rows ↔ ∃ u, m.get row.name = some u ∧
        row = UpstreamRow.of (clock row.name) row.name u) ∧
      (∀ row ∈ rows, row.state = .open → ∀ u, m.get row.name = some u → u.addrs ≠ [] →
        ∀ platform, u.pickAddr platform (clock row.name) = none) ∧
      ∀ entries', entries'.Perm m.byName.toList →
        renderUpstreams clock entries' = renderUpstreams clock entries := by
  have hmem : ∀ row, row ∈ rowsOf clock entries ↔ ∃ u, m.get row.name = some u ∧
      row = UpstreamRow.of (clock row.name) row.name u := by
    intro row
    simp only [rowsOf, List.mem_map, (sortByName_perm entries).mem_iff, Prod.exists,
      mem_listing hlisting]
    constructor
    · rintro ⟨name, u, hget, rfl⟩
      exact ⟨u, hget, rfl⟩
    · rintro ⟨u, hget, hrow⟩
      exact ⟨row.name, u, hget, hrow.symm⟩
  refine ⟨rowsOf clock entries, readUpstreams_render ?_, ?_, hmem, ?_, ?_⟩
  · intro row hrow
    obtain ⟨u, hget, heq⟩ := (hmem row).mp hrow
    rw [heq]
    refine plain_of (fun c hc hbad => ?_) u
    rw [List.mem_singleton.mp hbad] at hc
    exact hnames _ u hget hc
  · rw [rowsOf, List.map_map, List.pairwise_map]
    exact pairwise_sortByName hlisting
  · intro row hrow hopen u hget haddrs platform
    obtain ⟨u', hget', heq⟩ := (hmem row).mp hrow
    obtain rfl : u' = u := Option.some.inj (hget'.symm.trans hget)
    have hstate : u'.breakerState (clock row.name) = .open := by
      rw [heq] at hopen
      exact hopen
    exact (Upstream.picksInOrder_of_rejects haddrs
      ((Upstream.breakerState_eq_open_iff haddrs).mp hstate)).none_iff_open.mpr hstate
  · intro entries' hlisting'
    rw [renderUpstreams, renderUpstreams, sortByName_eq_of_listing hlisting hlisting']

def sampleEntries : List (String × Upstream) :=
  [("web", Upstream.lastTurn [Upstream.tripped, Breaker.new {} 0, Upstream.tripped] rfl),
    ("api", Upstream.threeBackends)]

def sampleRegistry : UpstreamMap :=
  sampleEntries.foldr (fun e m => m.insert e.1 e.2) {}

theorem listing_sampleEntries : sampleEntries.Perm sampleRegistry.byName.toList := by
  have hapi : (({} : UpstreamMap).insert "api" Upstream.threeBackends).byName.toList.Perm
      [("api", Upstream.threeBackends)] := by
    simpa [UpstreamMap.insert] using Std.HashMap.toList_insert_perm
      (m := (∅ : Std.HashMap String Upstream)) (k := "api") (v := Upstream.threeBackends)
  exact (Std.HashMap.toList_insert_perm.trans ((hapi.filter _).cons _)).symm

theorem upstreams_page_reads_back_sample :
    ∃ rows, readUpstreams (renderUpstreams (fun _ => 0) sampleEntries) = some rows ∧
      rows.map UpstreamRow.name = ["api", "web"] ∧ (∃ row ∈ rows, row.state = .open) ∧
      renderUpstreams (fun _ => 0) sampleEntries.reverse =
        renderUpstreams (fun _ => 0) sampleEntries := by
  have hget : ∀ name u, sampleRegistry.get name = some u ↔ (name, u) ∈ sampleEntries :=
    fun _ _ => (mem_listing listing_sampleEntries).symm
  have hnames : ∀ name u, sampleRegistry.get name = some u → '\n' ∉ name.toList := by
    intro name u hu
    have hmem := (hget name u).mp hu
    simp only [sampleEntries, List.mem_cons, Prod.mk.injEq, List.not_mem_nil, or_false] at hmem
    obtain ⟨rfl, -⟩ | ⟨rfl, -⟩ := hmem <;> decide
  obtain ⟨rows, hread, hsorted, hmem, -, hsame⟩ :=
    upstreams_page_reads_back sampleRegistry hnames (fun _ => 0) _ listing_sampleEntries
  have hshown : ∀ name, name ∈ rows.map UpstreamRow.name ↔ name ∈ ["api", "web"] := by
    intro name
    constructor
    · intro hname
      obtain ⟨row, hrow, rfl⟩ := List.mem_map.mp hname
      obtain ⟨u, hu, -⟩ := (hmem row).mp hrow
      have hentry := List.mem_map_of_mem (f := Prod.fst) ((hget _ u).mp hu)
      simpa [sampleEntries, or_comm] using hentry
    · intro hname
      obtain ⟨e, he, rfl⟩ : ∃ e ∈ sampleEntries, e.1 = name := by
        simpa [sampleEntries, or_comm, eq_comm] using hname
      exact List.mem_map.mpr
        ⟨.of 0 e.1 e.2, (hmem _).mpr ⟨e.2, (hget _ _).mpr he, rfl⟩, rfl⟩
  have hperm : (rows.map UpstreamRow.name).Perm ["api", "web"] :=
    (List.perm_ext_iff_of_nodup (hsorted.imp ne_of_lt) (by decide)).mpr hshown
  refine ⟨rows, hread, hperm.eq_of_pairwise ?_ hsorted (by decide),
    ⟨.of 0 "api" Upstream.threeBackends, (hmem _).mpr ⟨_, (hget _ _).mpr ?_, rfl⟩, by decide⟩,
    hsame _ ((List.reverse_perm _).trans listing_sampleEntries)⟩
  · exact fun a b _ _ hlt hgt => absurd hlt (lt_asymm hgt)
  · simp [sampleEntries, UpstreamRow.of]

end Conduit
