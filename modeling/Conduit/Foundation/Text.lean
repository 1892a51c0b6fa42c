import Mathlib.Algebra.GroupWithZero.Nat
import Mathlib.Data.List.Basic
import Mathlib.Data.List.DropRight
import Mathlib.Order.Basic

/-!
# ASCII case, byte prefixes and trimming of strings

Strings are sequences of Unicode scalar values with a UTF-8 byte length.
Case folding touches the ASCII letters only, and a byte prefix of a valid
UTF-8 string which is itself valid is a prefix of its characters.  Trimming
drops the characters of the Unicode property `White_Space` at both ends.
-/

namespace Conduit.Foundation

def toAsciiLowercase (s : String) : String :=
  String.ofList (s.toList.map Char.toLower)

/-- `str::bytes().all(|b| !b.is_ascii_uppercase())`. -/
def noAsciiUppercase (s : String) : Bool :=
  s.toList.all fun c => !c.isUpper

def eqIgnoreAsciiCase (s t : String) : Bool :=
  decide (toAsciiLowercase s = toAsciiLowercase t)

def startsWith (s pre : String) : Bool :=
  pre.toList.isPrefixOf s.toList

/-- `str::len`, in UTF-8 bytes. -/
def byteLen (s : String) : Nat :=
  (s.toList.map Char.utf8Size).sum

theorem toAsciiLowercase_of_noAsciiUppercase {s : String}
    (h : noAsciiUppercase s = true) : toAsciiLowercase s = s := by
  have hmap : s.toList.map Char.toLower = s.toList := by
    rw [List.map_congr_left (g := id), List.map_id]
    intro c hc
    have hlower : c.isUpper = false := by
      simpa using List.all_eq_true.mp h c hc
    exact dif_neg (of_decide_eq_false hlower)
  rw [toAsciiLowercase, hmap, String.ofList_toList]

@[simp]
theorem toList_toAsciiLowercase (s : String) :
    (toAsciiLowercase s).toList = s.toList.map Char.toLower :=
  String.toList_ofList

theorem eqIgnoreAsciiCase_iff {s t : String} :
    eqIgnoreAsciiCase s t = true ↔ toAsciiLowercase s = toAsciiLowercase t :=
  decide_eq_true_iff

theorem startsWith_iff {s pre : String} :
    startsWith s pre = true ↔ pre.toList <+: s.toList :=
  List.isPrefixOf_iff_prefix

theorem eq_of_startsWith_of_byteLen_eq {s pre pre' : String}
    (h : startsWith s pre = true) (h' : startsWith s pre' = true)
    (hlen : byteLen pre = byteLen pre') : pre = pre' := by
  have hsame : ∀ {p q : List Char}, p <+: q →
      (p.map Char.utf8Size).sum = (q.map Char.utf8Size).sum → p = q := by
    rintro p _ ⟨rest, rfl⟩ hsum
    cases rest with
    | nil => simp
    | cons c rest =>
        have hpos := Char.utf8Size_pos c
        simp at hsum
        omega
  rcases List.prefix_or_prefix_of_prefix (startsWith_iff.mp h)
      (startsWith_iff.mp h') with hle | hle
  · exact String.toList_injective (hsame hle hlen)
  · exact (String.toList_injective (hsame hle hlen.symm)).symm

/-! ## Trimming -/

/-- `char::is_whitespace`, the Unicode property `White_Space`. -/
def isWhitespace (c : Char) : Bool :=
  (9 ≤ c.toNat && c.toNat ≤ 13) || (0x2000 ≤ c.toNat && c.toNat ≤ 0x200A) ||
    [0x20, 0x85, 0xA0, 0x1680, 0x2028, 0x2029, 0x202F, 0x205F, 0x3000].contains
      c.toNat

def trim (s : String) : String :=
  String.ofList ((s.toList.dropWhile isWhitespace).rdropWhile isWhitespace)

section Lists

variable {α : Type*} {p : α → Bool}

theorem rdropWhile_eq_self_of_append {front back : List α}
    (h : (front ++ back).rdropWhile p = front ++ back) :
    back.rdropWhile p = back := by
  rw [List.rdropWhile_eq_self_iff] at h ⊢
  intro hback
  have hlast := h (List.append_ne_nil_of_right_ne_nil front hback)
  rwa [List.getLast_append_of_right_ne_nil _ _ hback] at hlast

theorem rdropWhile_append_of_getLast {front back : List α} (hback : back ≠ [])
    (hlast : p (back.getLast hback) = false) :
    (front ++ back).rdropWhile p = front ++ back := by
  rw [List.rdropWhile_eq_self_iff]
  intro hne
  rw [List.getLast_append_of_right_ne_nil _ _ hback]
  simp [hlast]

theorem takeWhile_append_of_head {run rest : List α} (hrun : ∀ a ∈ run, p a)
    (hrest : ∀ a ∈ rest.head?, p a = false) :
    (run ++ rest).takeWhile p = run ∧ (run ++ rest).dropWhile p = rest := by
  rw [List.takeWhile_append_of_pos hrun, List.dropWhile_append_of_pos hrun]
  cases rest with
  | nil => simp
  | cons a rest => simp [show p a = false from hrest a rfl]

end Lists

theorem rdropWhile_trim (s : String) :
    (trim s).toList.rdropWhile isWhitespace = (trim s).toList := by
  rw [trim, String.toList_ofList]
  exact List.rdropWhile_idempotent isWhitespace _

theorem trim_of_rdropWhile {s : String}
    (h : s.toList.rdropWhile isWhitespace = s.toList) :
    (trim s).toList = s.toList.dropWhile isWhitespace := by
  rw [← List.takeWhile_append_dropWhile (p := isWhitespace) (l := s.toList)] at h
  rw [trim, String.toList_ofList]
  exact rdropWhile_eq_self_of_append h

theorem trim_append {gap text : List Char}
    (hgap : ∀ c ∈ gap, isWhitespace c = true) (hne : text ≠ [])
    (hfirst : ∀ c ∈ text.head?, isWhitespace c = false)
    (hlast : isWhitespace (text.getLast hne) = false) :
    trim (String.ofList (gap ++ text)) = String.ofList text := by
  apply String.toList_injective
  rw [trim_of_rdropWhile, String.toList_ofList, String.toList_ofList]
  · exact (takeWhile_append_of_head hgap hfirst).2
  · rw [String.toList_ofList]
    exact rdropWhile_append_of_getLast hne hlast

end Conduit.Foundation
