import Mathlib.Data.List.Basic

/-!
# Delimited text

Records that a separator ends, fields that it separates, and quoted fields.
Each writer has a reader, and reads back what was written if the separator
does not occur in it.
-/

namespace Conduit.Foundation

variable {α : Type*} {sep : α}

def terminated (sep : α) (records : List (List α)) : List α :=
  records.flatMap (· ++ [sep])

def quoted (quote : α) (field : List α) : List α := quote :: field ++ [quote]

theorem terminated_eq_intercalate (records : List (List α)) :
    terminated sep records = [sep].intercalate (records ++ [[]]) := by
  induction records with
  | nil => rfl
  | cons record rest ih =>
      rw [terminated, List.flatMap_cons, ← terminated, ih]
      cases rest with
      | nil => simp [List.intercalate]
      | cons next rest => simp [List.intercalate]

variable [DecidableEq α]

def cut (sep : α) : List α → Option (List α × List α)
  | [] => none
  | a :: text =>
      if a = sep then some ([], text)
      else (cut sep text).map fun p => (a :: p.1, p.2)

def cutLast (sep : α) (text : List α) : Option (List α × List α) :=
  (cut sep text.reverse).map fun p => (p.2.reverse, p.1.reverse)

def records (sep : α) (text : List α) : Option (List (List α)) :=
  if (text.splitOn sep).getLast? = some [] then some (text.splitOn sep).dropLast else none

def unquoted (quote : α) (text : List α) : Option (List α) :=
  (text.dropPrefix? [quote]).bind (·.dropSuffix? [quote])

theorem cut_append {front : List α} (h : sep ∉ front) (back : List α) :
    cut sep (front ++ sep :: back) = some (front, back) := by
  induction front with
  | nil => rw [List.nil_append, cut, if_pos rfl]
  | cons a front ih =>
      rw [List.mem_cons, not_or] at h
      rw [List.cons_append, cut, if_neg (Ne.symm h.1), ih h.2, Option.map_some]

theorem cut_eq_none {text : List α} (h : sep ∉ text) : cut sep text = none := by
  induction text with
  | nil => rfl
  | cons a text ih =>
      rw [List.mem_cons, not_or] at h
      rw [cut, if_neg (Ne.symm h.1), ih h.2, Option.map_none]

theorem cutLast_append (front : List α) {back : List α} (h : sep ∉ back) :
    cutLast sep (front ++ sep :: back) = some (front, back) := by
  have hreverse : (front ++ sep :: back).reverse = back.reverse ++ sep :: front.reverse := by
    simp
  rw [cutLast, hreverse, cut_append (by simpa using h), Option.map_some, List.reverse_reverse,
    List.reverse_reverse]

theorem records_terminated {rs : List (List α)} (h : ∀ r ∈ rs, sep ∉ r) :
    records sep (terminated sep rs) = some rs := by
  have hsplit : (terminated sep rs).splitOn sep = rs ++ [[]] := by
    rw [terminated_eq_intercalate]
    refine List.splitOn_intercalate sep ?_ (by simp)
    intro r hr
    rcases List.mem_append.mp hr with hr | hr
    · exact h r hr
    · rw [List.mem_singleton.mp hr]
      exact List.not_mem_nil
  rw [records, hsplit]
  simp

theorem unquoted_quoted (quote : α) (field : List α) :
    unquoted quote (quoted quote field) = some field := by
  have hfront : (quoted quote field).dropPrefix? [quote] = some (field ++ [quote]) :=
    List.dropPrefix?_eq_some_iff.mpr ⟨[quote], rfl, beq_self_eq_true _⟩
  rw [unquoted, hfront]
  exact List.dropSuffix?_eq_some_iff.mpr ⟨[quote], rfl, beq_self_eq_true _⟩

theorem mapM_eq_some {β γ : Type*} {read : β → Option γ} {write : γ → β} {items : List γ}
    (h : ∀ x ∈ items, read (write x) = some x) : (items.map write).mapM read = some items := by
  induction items with
  | nil => rfl
  | cons x items ih =>
      rw [List.forall_mem_cons] at h
      rw [List.map_cons, List.mapM_cons, h.1, ih h.2]
      rfl

/-- A text of records is read back if each record is, by itself. -/
theorem read_terminated {γ : Type*} {read : List α → Option γ} {write : γ → List α}
    {items : List γ} (hsep : ∀ x ∈ items, sep ∉ write x)
    (hread : ∀ x ∈ items, read (write x) = some x) :
    (records sep (terminated sep (items.map write))).bind (·.mapM read) = some items := by
  have hrecords : ∀ r ∈ items.map write, sep ∉ r := by
    intro r hr
    obtain ⟨x, hx, rfl⟩ := List.mem_map.mp hr
    exact hsep x hx
  rw [records_terminated hrecords, Option.bind_some]
  exact mapM_eq_some hread

end Conduit.Foundation
