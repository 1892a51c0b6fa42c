import Conduit.Platform
import Mathlib.Data.List.TakeWhile

/-!
# Duration strings

A duration is written as a decimal number and a unit, `ms`, `s`, `m` or `h`,
with whitespace allowed around them and between them.
-/

namespace Conduit

open Foundation

structure DurationStr where
  get : Duration
  deriving DecidableEq, Repr

namespace DurationStr

inductive ParseError where
  | empty
  | missingUnit
  | missingNumber
  | overflow
  | unknownUnit (unit : String)
  deriving DecidableEq, Repr

def ParseError.message : ParseError → String
  | empty => "duration string is empty"
  | missingUnit => "duration is missing a unit (expected ms, s, m, or h)"
  | missingNumber => "duration is missing a number"
  | overflow => "duration value overflows"
  | unknownUnit unit =>
      "unknown duration unit `" ++ unit ++ "` (expected ms, s, m, or h)"

def value (digits : List Char) : Nat := Nat.ofDigitChars 10 digits 0

/-- `str::parse::<u64>` of a nonempty run of ASCII digits. -/
def parseU64 (digits : List Char) : Except ParseError Nat :=
  if value digits ≤ u64Max then .ok (value digits) else .error .overflow

def checkedSecs (n secsMul : Nat) : Except ParseError Duration :=
  if n * secsMul ≤ u64Max then .ok (Duration.fromSecs (n * secsMul))
  else .error .overflow

def inUnit (n : Nat) (unit : String) : Except ParseError Duration :=
  if unit = "ms" then .ok (Duration.fromMillis n)
  else if unit = "s" then checkedSecs n 1
  else if unit = "m" then checkedSecs n 60
  else if unit = "h" then checkedSecs n 3600
  else .error (.unknownUnit unit)

def parse (s : String) : Except ParseError Duration :=
  let s := trim s
  if s = "" then .error .empty
  else
    -- The number ends at the first character that is no ASCII digit.
    let numStr := s.toList.takeWhile Char.isDigit
    let unit := s.toList.dropWhile Char.isDigit
    if unit = [] then .error .missingUnit
    else if numStr = [] then .error .missingNumber
    else do
      let n ← parseU64 numStr
      inUnit n (trim (String.ofList unit))

/-- `visit_str`; the error is its text. -/
def deserialize (s : String) : Except String DurationStr :=
  match parse s with
  | .ok d => .ok ⟨d⟩
  | .error e => .error e.message

/-! ## The grammar -/

inductive TimeUnit where
  | ms
  | s
  | m
  | h
  deriving DecidableEq, Repr

namespace TimeUnit

def text : TimeUnit → String
  | ms => "ms"
  | s => "s"
  | m => "m"
  | h => "h"

def secs? : TimeUnit → Option Nat
  | ms => none
  | s => some 1
  | m => some 60
  | h => some 3600

def duration (n : Nat) (u : TimeUnit) : Duration :=
  match u.secs? with
  | none => Duration.fromMillis n
  | some secs => Duration.fromSecs (n * secs)

def Fits (n : Nat) (u : TimeUnit) : Prop :=
  ∀ secs ∈ u.secs?, n * secs ≤ u64Max

instance (n : Nat) (u : TimeUnit) : Decidable (u.Fits n) :=
  inferInstanceAs (Decidable (∀ secs ∈ u.secs?, n * secs ≤ u64Max))

end TimeUnit

/-- The trimmed text is a number, optional whitespace and a unit. -/
def Written (s : String) (n : Nat) (u : TimeUnit) : Prop :=
  ∃ digits gap : List Char, (trim s).toList = digits ++ (gap ++ u.text.toList) ∧
    digits ≠ [] ∧ (∀ c ∈ digits, c.isDigit = true) ∧
    (∀ c ∈ gap, isWhitespace c = true) ∧ n = value digits

/-- The trimmed text is a nonempty run of digits with more text behind it. -/
structure Splits (s : String) (digits rest : List Char) : Prop where
  split : (trim s).toList = digits ++ rest
  digits_ne_nil : digits ≠ []
  isDigit_of_mem : ∀ c ∈ digits, c.isDigit = true
  rest_ne_nil : rest ≠ []
  not_isDigit_head : ∀ c ∈ rest.head?, c.isDigit = false

/-! ## How the parser reads it -/

theorem inUnit_text (n : Nat) (u : TimeUnit) :
    inUnit n u.text =
      if u.Fits n then .ok (u.duration n) else .error .overflow := by
  cases u <;>
    simp [inUnit, checkedSecs, TimeUnit.text, TimeUnit.Fits, TimeUnit.secs?,
      TimeUnit.duration]

theorem inUnit_of_ne {n : Nat} {unit : String}
    (h : ∀ u : TimeUnit, unit ≠ u.text) :
    inUnit n unit = .error (.unknownUnit unit) := by
  have hms : unit ≠ "ms" := h .ms
  have hs : unit ≠ "s" := h .s
  have hm : unit ≠ "m" := h .m
  have hh : unit ≠ "h" := h .h
  simp [inUnit, hms, hs, hm, hh]

theorem Splits.parse_eq {s : String} {digits rest : List Char}
    (h : Splits s digits rest) :
    parse s = if value digits ≤ u64Max then
        inUnit (value digits) (trim (String.ofList rest))
      else .error .overflow := by
  obtain ⟨htake, hdrop⟩ :=
    takeWhile_append_of_head h.isDigit_of_mem h.not_isDigit_head
  have hne : trim s ≠ "" := by
    intro hempty
    have hnil : digits ++ rest = [] := by
      rw [← h.split, hempty, String.toList_empty]
    exact h.digits_ne_nil (List.append_eq_nil_iff.mp hnil).1
  rw [parse]
  simp only [h.split, htake, hdrop, hne, h.rest_ne_nil, h.digits_ne_nil,
    if_false, parseU64]
  by_cases hvalue : value digits ≤ u64Max <;>
    simp only [hvalue, if_true, if_false, bind, Except.bind]

theorem splits_of_ne_nil {s : String}
    (hnum : (trim s).toList.takeWhile Char.isDigit ≠ [])
    (hunit : (trim s).toList.dropWhile Char.isDigit ≠ []) :
    Splits s ((trim s).toList.takeWhile Char.isDigit)
      ((trim s).toList.dropWhile Char.isDigit) where
  split := by rw [List.takeWhile_append_dropWhile]
  digits_ne_nil := hnum
  isDigit_of_mem := fun _ hc => List.mem_takeWhile_imp hc
  rest_ne_nil := hunit
  not_isDigit_head := by
    intro c hc
    rw [List.head?_eq_some_head hunit, Option.mem_some_iff] at hc
    rw [← hc]
    exact List.head_dropWhile_not Char.isDigit hunit

theorem parse_of_not_splits {s : String}
    (h : ∀ digits rest, ¬ Splits s digits rest) :
    ∃ e, parse s = .error e ∧ e ≠ .overflow := by
  rw [parse]
  by_cases hempty : trim s = ""
  · exact ⟨.empty, by simp [hempty], by simp⟩
  · by_cases hunit : (trim s).toList.dropWhile Char.isDigit = []
    · exact ⟨.missingUnit, by simp only [hempty, hunit, if_true, if_false],
        by simp⟩
    · by_cases hnum : (trim s).toList.takeWhile Char.isDigit = []
      · exact ⟨.missingNumber,
          by simp only [hempty, hunit, hnum, if_true, if_false], by simp⟩
      · exact absurd (splits_of_ne_nil hnum hunit) (h _ _)

theorem TimeUnit.text_ne_nil (u : TimeUnit) : u.text.toList ≠ [] := by
  cases u <;> decide

theorem TimeUnit.text_head (u : TimeUnit) :
    ∀ c ∈ u.text.toList.head?, c.isDigit = false ∧ isWhitespace c = false := by
  intro c hc
  cases u <;> cases hc <;> decide

theorem TimeUnit.text_getLast (u : TimeUnit) :
    isWhitespace (u.text.toList.getLast u.text_ne_nil) = false := by
  cases u <;> decide

theorem not_isWhitespace_of_isDigit {c : Char} (h : c.isDigit = true) :
    isWhitespace c = false := by
  have hrange : 48 ≤ c.toNat ∧ c.toNat ≤ 57 := Char.isDigit_iff_toNat.mp h
  simp [isWhitespace]
  omega

theorem written_iff_splits {s : String} {n : Nat} {u : TimeUnit} :
    Written s n u ↔ ∃ digits rest, Splits s digits rest ∧
      trim (String.ofList rest) = u.text ∧ n = value digits := by
  constructor
  · rintro ⟨digits, gap, hsplit, hdigits, hall, hgap, rfl⟩
    refine ⟨digits, gap ++ u.text.toList,
      ⟨hsplit, hdigits, hall, by simp [u.text_ne_nil], ?_⟩, ?_, rfl⟩
    · cases gap with
      | nil => exact fun c hc => (u.text_head c hc).1
      | cons g gap =>
          intro c hc
          simp only [List.cons_append, List.head?_cons, Option.mem_def,
            Option.some.injEq] at hc
          rw [← hc, Bool.eq_false_iff]
          intro hdigit
          have hspace := not_isWhitespace_of_isDigit hdigit
          simp [hgap g] at hspace
    · rw [trim_append hgap u.text_ne_nil (fun c hc => (u.text_head c hc).2)
        u.text_getLast, String.ofList_toList]
  · rintro ⟨digits, rest, h, htrim, rfl⟩
    -- The rest ends where the trimmed text does, so only its front is trimmed.
    have hend : rest.rdropWhile isWhitespace = rest := by
      have htrimmed := rdropWhile_trim s
      rw [h.split] at htrimmed
      exact rdropWhile_eq_self_of_append htrimmed
    have hdrop := trim_of_rdropWhile (s := String.ofList rest) (by simpa using hend)
    rw [htrim, String.toList_ofList] at hdrop
    refine ⟨digits, rest.takeWhile isWhitespace, ?_, h.digits_ne_nil,
      h.isDigit_of_mem, fun c hc => List.mem_takeWhile_imp hc, rfl⟩
    rw [hdrop, List.takeWhile_append_dropWhile, h.split]

inductive Outcome (s : String) : Except ParseError Duration → Prop
  | rejected {e : ParseError} (he : e ≠ .overflow) : Outcome s (.error e)
  | tooLarge {digits rest : List Char} (h : Splits s digits rest)
      (hlarge : u64Max < value digits) : Outcome s (.error .overflow)
  | tooLong {digits rest : List Char} {u : TimeUnit} (h : Splits s digits rest)
      (hunit : trim (String.ofList rest) = u.text)
      (hfits : ¬ u.Fits (value digits)) : Outcome s (.error .overflow)
  | accepted {digits rest : List Char} {u : TimeUnit}
      (h : Splits s digits rest) (hunit : trim (String.ofList rest) = u.text)
      (hvalue : value digits ≤ u64Max) (hfits : u.Fits (value digits)) :
      Outcome s (.ok (u.duration (value digits)))

theorem parse_outcome (s : String) : Outcome s (parse s) := by
  by_cases hsplits : ∃ digits rest, Splits s digits rest
  · obtain ⟨digits, rest, h⟩ := hsplits
    rw [h.parse_eq]
    split
    · rename_i hvalue
      by_cases hunit : ∃ u : TimeUnit, trim (String.ofList rest) = u.text
      · obtain ⟨u, hu⟩ := hunit
        rw [hu, inUnit_text]
        split
        · rename_i hfits
          exact .accepted h hu hvalue hfits
        · rename_i hfits
          exact .tooLong h hu hfits
      · rw [inUnit_of_ne (not_exists.mp hunit)]
        exact .rejected (by simp)
    · exact .tooLarge h (by omega)
  · obtain ⟨e, he, hne⟩ := parse_of_not_splits (by simpa using hsplits)
    rw [he]
    exact .rejected hne

theorem parse_eq_ok_iff {s : String} {d : Duration} :
    parse s = .ok d ↔ ∃ n u, Written s n u ∧ n ≤ u64Max ∧
      TimeUnit.Fits n u ∧ d = u.duration n := by
  simp only [written_iff_splits]
  constructor
  · intro hok
    have houtcome := parse_outcome s
    rw [hok] at houtcome
    cases houtcome with
    | accepted h hunit hvalue hfits =>
        exact ⟨_, _, ⟨_, _, h, hunit, rfl⟩, hvalue, hfits, rfl⟩
  · rintro ⟨n, u, ⟨digits, rest, h, hu, rfl⟩, hvalue, hfits, rfl⟩
    rw [h.parse_eq, if_pos hvalue, hu, inUnit_text, if_pos hfits]

theorem parse_eq_overflow_iff {s : String} :
    parse s = .error .overflow ↔ ∃ digits rest, Splits s digits rest ∧
      (u64Max < value digits ∨
        ∃ u secs, TimeUnit.secs? u = some secs ∧
          trim (String.ofList rest) = u.text ∧
          u64Max < value digits * secs) := by
  constructor
  · intro hover
    have houtcome := parse_outcome s
    rw [hover] at houtcome
    cases houtcome with
    | rejected he => exact absurd rfl he
    | tooLarge h hlarge => exact ⟨_, _, h, .inl hlarge⟩
    | @tooLong digits rest u h hunit hfits =>
        simp only [TimeUnit.Fits, not_forall, Option.mem_def] at hfits
        obtain ⟨secs, hsecs, hlarge⟩ := hfits
        exact ⟨digits, rest, h, .inr ⟨u, secs, hsecs, hunit, by omega⟩⟩
  · rintro ⟨digits, rest, h, hlarge | ⟨u, secs, hsecs, hu, hlarge⟩⟩
    · rw [h.parse_eq, if_neg (by omega)]
    · have hfits : ¬ u.Fits (value digits) := fun hfits =>
        absurd (hfits secs hsecs) (by omega)
      rw [h.parse_eq, hu, inUnit_text, if_neg hfits, ite_self]

theorem written_render (n : Nat) (u : TimeUnit) :
    Written (toString n ++ u.text) n u := by
  have hdigit : ∀ c ∈ Nat.toDigits 10 n, c.isDigit = true := fun c hc =>
    Nat.isDigit_of_mem_toDigits (by decide) (by decide) hc
  have htext : toString n ++ u.text =
      String.ofList ([] ++ (Nat.toDigits 10 n ++ u.text.toList)) := by
    rw [Nat.toString_eq_ofList_toDigits, List.nil_append, String.ofList_append,
      String.ofList_toList]
  have hne : Nat.toDigits 10 n ++ u.text.toList ≠ [] := by
    simp [u.text_ne_nil]
  have hfirst : ∀ c ∈ (Nat.toDigits 10 n ++ u.text.toList).head?,
      isWhitespace c = false := by
    intro c hc
    rw [List.head?_append_of_ne_nil _ Nat.toDigits_ne_nil] at hc
    exact not_isWhitespace_of_isDigit (hdigit c (List.mem_of_mem_head? hc))
  have hlast :
      isWhitespace ((Nat.toDigits 10 n ++ u.text.toList).getLast hne) =
        false := by
    rw [List.getLast_append_of_right_ne_nil _ _ u.text_ne_nil]
    exact u.text_getLast
  refine ⟨Nat.toDigits 10 n, [], ?_, Nat.toDigits_ne_nil, hdigit, by simp, ?_⟩
  · rw [htext, trim_append (by simp) hne hfirst hlast, String.toList_ofList,
      List.nil_append]
  · rw [value, Nat.ofDigitChars_ten_toDigits]

theorem parse_accepts_grammar (s : String) :
    (∀ d, parse s = .ok d ↔ ∃ n u, Written s n u ∧ n ≤ u64Max ∧
      TimeUnit.Fits n u ∧ d = u.duration n) ∧
    (parse s = .error .overflow ↔ ∃ digits rest, Splits s digits rest ∧
      (u64Max < value digits ∨
        ∃ u secs, TimeUnit.secs? u = some secs ∧
          trim (String.ofList rest) = u.text ∧
          u64Max < value digits * secs)) ∧
    ∀ n u, n ≤ u64Max → TimeUnit.Fits n u →
      parse (toString n ++ u.text) = .ok (u.duration n) := by
  refine ⟨fun d => parse_eq_ok_iff, parse_eq_overflow_iff, ?_⟩
  intro n u hn hfits
  exact parse_eq_ok_iff.mpr ⟨n, u, written_render n u, hn, hfits, rfl⟩

example : parse "\u3000007\u00a0m\n" = .ok (Duration.fromSecs 420) := by
  decide

end DurationStr

end Conduit
