import Mathlib.Data.List.MinMax
import Mathlib.Data.List.Perm.Basic
import Mathlib.Data.List.Nodup

/-!
# Layered selection of a least element

`List.argmin` picks the least element of a list, the earliest one among ties.
An index answers the same question layer by layer: it searches a first class
of items, falls through to the next class when the first one is empty, and
keeps the items of one class in slots that share a key.  The lemmas below say
when such a search agrees with `argmin` on the flat list.
-/

namespace Conduit.Foundation

variable {α β κ : Type*} [LinearOrder β]

/-! ## Splitting a list into an early and a late layer -/

theorem argmin_eq_or_of_separated (rank : α → β) (early : α → Bool)
    (items : List α)
    (separated : ∀ a ∈ items, ∀ b ∈ items,
      early a = true → early b = false → rank a < rank b) :
    items.argmin rank =
      ((items.filter early).argmin rank).or
        ((items.filter (fun a => !early a)).argmin rank) := by
  induction items with
  | nil => rfl
  | cons item items ih =>
      have hrest := ih fun a ha b hb =>
        separated a (List.mem_cons_of_mem _ ha) b (List.mem_cons_of_mem _ hb)
      rw [List.argmin_cons, hrest]
      cases hitem : early item with
      | true =>
          simp only [List.filter_cons, hitem, if_true, Bool.not_true,
            Bool.false_eq_true, if_false, List.argmin_cons]
          cases hearly : (items.filter early).argmin rank with
          | some first => by_cases h : rank first < rank item <;> simp [h]
          | none =>
              -- Every later item of the late layer ranks after `item`.
              cases hlate : (items.filter fun a => !early a).argmin rank with
              | none => rfl
              | some other =>
                  have hmem := List.argmin_mem hlate
                  simp only [List.mem_filter, Bool.not_eq_true'] at hmem
                  have hlt := separated item (by simp) other
                    (List.mem_cons_of_mem _ hmem.1) hitem hmem.2
                  simp [not_lt_of_gt hlt]
      | false =>
          simp only [List.filter_cons, hitem, Bool.false_eq_true, if_false,
            Bool.not_false, if_true, List.argmin_cons]
          cases hearly : (items.filter early).argmin rank with
          | none => simp
          | some first =>
              have hmem := List.argmin_mem hearly
              simp only [List.mem_filter] at hmem
              have hlt := separated first (List.mem_cons_of_mem _ hmem.1)
                item (by simp) hmem.2 hitem
              simp [hlt]

theorem argmin_eq_head?_of_const (rank : α → β) (items : List α)
    (const : ∀ a ∈ items, ∀ b ∈ items, rank a = rank b) :
    items.argmin rank = items.head? := by
  cases items with
  | nil => rfl
  | cons item items =>
      rw [List.argmin_cons, List.head?_cons]
      cases hrest : items.argmin rank with
      | none => rfl
      | some other =>
          have heq := const other
            (List.mem_cons_of_mem _ (List.argmin_mem hrest)) item (by simp)
          simp [heq]

/-! ## Editing the list -/

theorem argmin_insert (rank : α → β) (before after : List α) (a : α) :
    (before ++ a :: after).argmin rank = (before ++ after).argmin rank ∨
      (before ++ a :: after).argmin rank = some a := by
  induction before with
  | nil =>
      rw [List.nil_append, List.nil_append, List.argmin_cons]
      cases hrest : after.argmin rank with
      | none => exact .inr rfl
      | some c => by_cases hlt : rank c < rank a <;> simp [hlt]
  | cons b before ih =>
      rw [List.cons_append, List.cons_append, List.argmin_cons, List.argmin_cons]
      rcases ih with hsame | hnew
      · exact .inl (by rw [hsame])
      · rw [hnew]
        by_cases hlt : rank a < rank b
        · exact .inr (by simp [hlt])
        · left
          cases hrest : (before ++ after).argmin rank with
          | none => simp [hlt]
          | some c =>
              have hmem : c ∈ before ++ a :: after := by
                have hc := List.argmin_mem hrest
                rw [List.mem_append] at hc ⊢
                exact hc.imp id (List.mem_cons_of_mem a)
              have hle : rank b ≤ rank c :=
                (not_lt.mp hlt).trans (List.le_of_mem_argmin hmem hnew)
              simp [hlt, not_lt.mpr hle]

theorem argmin_eq_head?_of_le {rank : α → β} {items : List α} {k : β}
    (hle : ∀ b ∈ items, k ≤ rank b) (hmem : ∃ b ∈ items, rank b = k) :
    items.argmin rank = (items.filter fun a => rank a = k).head? := by
  have hsplit := argmin_eq_or_of_separated rank (fun a => rank a = k) items (by
    intro a ha b hb hak hbk
    rw [of_decide_eq_true hak]
    exact lt_of_le_of_ne (hle b hb) (Ne.symm (of_decide_eq_false hbk)))
  rw [hsplit, argmin_eq_head?_of_const rank (items.filter fun a => rank a = k)]
  · obtain ⟨b, hb, hbk⟩ := hmem
    have hclass : b ∈ items.filter fun a => rank a = k :=
      List.mem_filter.mpr ⟨hb, decide_eq_true hbk⟩
    obtain ⟨first, rest, hcons⟩ := List.exists_cons_of_ne_nil (List.ne_nil_of_mem hclass)
    rw [hcons]
    rfl
  · intro a ha b hb
    rw [of_decide_eq_true (List.mem_filter.mp ha).2, of_decide_eq_true (List.mem_filter.mp hb).2]

theorem argmin_filter_congr {rank : α → β} {items items' : List α}
    (h : ∀ k, items.filter (fun a => rank a = k) = items'.filter fun a => rank a = k)
    (accept : α → Bool) :
    (items.filter accept).argmin rank = (items'.filter accept).argmin rank := by
  have hclass : ∀ k, (items.filter accept).filter (fun a => rank a = k) =
      (items'.filter accept).filter fun a => rank a = k := by
    intro k
    rw [List.filter_comm, h k, List.filter_comm]
  have hmem : ∀ a, a ∈ items.filter accept ↔ a ∈ items'.filter accept := by
    intro a
    have hiff := congrArg (a ∈ ·) (hclass (rank a))
    simpa using hiff
  cases hleast : (items.filter accept).argmin rank with
  | none =>
      symm
      rw [List.argmin_eq_none, List.eq_nil_iff_forall_not_mem]
      intro a ha
      rw [List.argmin_eq_none.mp hleast] at hmem
      exact List.not_mem_nil ((hmem a).mpr ha)
  | some a =>
      have hle : ∀ b ∈ items.filter accept, rank a ≤ rank b :=
        fun b hb => List.le_of_mem_argmin hb hleast
      have hself := List.argmin_mem hleast
      rw [← hleast, argmin_eq_head?_of_le hle ⟨a, hself, rfl⟩, hclass,
        argmin_eq_head?_of_le (fun b hb => hle b ((hmem b).mpr hb)) ⟨a, (hmem a).mp hself, rfl⟩]

theorem find?_insert (p : α → Bool) (before after : List α) (a : α) :
    (before ++ a :: after).find? p = (before ++ after).find? p ∨
      p a = true ∧ (before ++ a :: after).find? p = some a := by
  rw [List.find?_append, List.find?_append, List.find?_cons]
  cases before.find? p with
  | some b => exact .inl rfl
  | none =>
      cases hp : p a with
      | false => exact .inl rfl
      | true => exact .inr ⟨rfl, rfl⟩

/-! ## The least accepted item -/

/--
The least accepted item, in declarative form: nothing accepted before it ranks
as low, and nothing accepted after it ranks lower.
-/
def IsFirstLeast (rank : α → β) (accept : α → Bool) (items : List α)
    (a : α) : Prop :=
  ∃ before after, items = before ++ a :: after ∧ accept a = true ∧
    (∀ b ∈ before, accept b = true → rank a < rank b) ∧
    ∀ b ∈ after, accept b = true → rank a ≤ rank b

theorem IsFirstLeast.map {γ : Type*} {rank : α → β} {accept : α → Bool} (f : γ → α)
    {items : List γ} {c : γ}
    (h : IsFirstLeast (fun c => rank (f c)) (fun c => accept (f c)) items c) :
    IsFirstLeast rank accept (items.map f) (f c) := by
  obtain ⟨before, after, rfl, hc, hbefore, hafter⟩ := h
  refine ⟨before.map f, after.map f, by simp, hc, ?_, ?_⟩
  · simpa using hbefore
  · simpa using hafter

theorem argmin_append_cons_eq_some {rank : α → β} {before after : List α}
    {a : α} (hbefore : ∀ b ∈ before, rank a < rank b)
    (hafter : ∀ b ∈ after, rank a ≤ rank b) :
    (before ++ a :: after).argmin rank = some a := by
  induction before with
  | nil =>
      rw [List.nil_append, List.argmin_cons]
      cases hrest : after.argmin rank with
      | none => rfl
      | some c => simp [hafter c (List.argmin_mem hrest)]
  | cons b before ih =>
      have hrest := ih fun b' hb' => hbefore b' (List.mem_cons_of_mem _ hb')
      rw [List.cons_append, List.argmin_cons, hrest]
      simp [hbefore b (by simp)]

theorem exists_split_of_argmin_eq_some {rank : α → β} {accept : α → Bool}
    {items : List α} {a : α}
    (h : (items.filter accept).argmin rank = some a) :
    IsFirstLeast rank accept items a := by
  induction items with
  | nil => simp at h
  | cons item items ih =>
      cases hitem : accept item with
      | false =>
          rw [List.filter_cons_of_neg (by simp [hitem])] at h
          obtain ⟨before, after, rfl, ha, hbefore, hafter⟩ := ih h
          refine ⟨item :: before, after, rfl, ha, ?_, hafter⟩
          simpa [hitem] using hbefore
      | true =>
          rw [List.filter_cons_of_pos hitem, List.argmin_cons] at h
          cases hrest : (items.filter accept).argmin rank with
          | none =>
              obtain rfl : item = a := by simpa [hrest] using h
              have hnil := List.argmin_eq_none.mp hrest
              refine ⟨[], items, rfl, hitem, by simp, fun b hb hacc => ?_⟩
              exact absurd hacc (List.filter_eq_nil_iff.mp hnil b hb)
          | some c =>
              by_cases hlt : rank c < rank item
              · obtain rfl : c = a := by simpa [hrest, hlt] using h
                obtain ⟨before, after, rfl, ha, hbefore, hafter⟩ := ih hrest
                refine ⟨item :: before, after, rfl, ha, ?_, hafter⟩
                simpa [hlt] using hbefore
              · obtain rfl : item = a := by simpa [hrest, hlt] using h
                refine ⟨[], items, rfl, hitem, by simp, fun b hb hacc => ?_⟩
                exact (not_lt.mp hlt).trans
                  (List.le_of_mem_argmin (List.mem_filter.mpr ⟨hb, hacc⟩) hrest)

theorem argmin_filter_eq_some_iff {rank : α → β} {accept : α → Bool}
    {items : List α} {a : α} :
    (items.filter accept).argmin rank = some a ↔
      IsFirstLeast rank accept items a := by
  constructor
  · exact exists_split_of_argmin_eq_some
  · rintro ⟨before, after, rfl, ha, hbefore, hafter⟩
    rw [List.filter_append, List.filter_cons_of_pos ha]
    exact argmin_append_cons_eq_some
      (fun b hb => hbefore b (List.mem_filter.mp hb).1 (List.mem_filter.mp hb).2)
      (fun b hb => hafter b (List.mem_filter.mp hb).1 (List.mem_filter.mp hb).2)

private theorem findSome?_congr_mem {γ : Type*} {f g : κ → Option γ}
    {keys : List κ} (h : ∀ k ∈ keys, f k = g k) :
    keys.findSome? f = keys.findSome? g := by
  induction keys with
  | nil => rfl
  | cons k keys ih =>
      rw [List.findSome?_cons, List.findSome?_cons, h k (by simp),
        ih fun k' hk' => h k' (List.mem_cons_of_mem _ hk')]

private theorem findSome?_filter {γ : Type*} (p : κ → Bool)
    (f : κ → Option γ) (keys : List κ) :
    (keys.filter p).findSome? f =
      keys.findSome? fun k => if p k then f k else none := by
  induction keys with
  | nil => rfl
  | cons k keys ih => cases h : p k <;> simp [h, ih, List.findSome?_cons]

/--
Searching the layers of a key in the given order, each for its own least
item, finds the least item whenever the keys are listed by rank.
-/
theorem argmin_eq_findSome?_layers [DecidableEq κ] (rank : α → β)
    (key : α → κ) (keys : List κ) (items : List α) (nodup : keys.Nodup)
    (covered : ∀ a ∈ items, key a ∈ keys)
    (sorted : keys.Pairwise fun k k' => ∀ a ∈ items, ∀ b ∈ items,
      key a = k → key b = k' → rank a < rank b) :
    items.argmin rank =
      keys.findSome? fun k => (items.filter fun a => key a = k).argmin rank := by
  induction keys generalizing items with
  | nil =>
      have hnil : items = [] :=
        List.eq_nil_iff_forall_not_mem.mpr fun a ha => by
          simpa using covered a ha
      subst hnil
      rfl
  | cons k keys ih =>
      obtain ⟨hfresh, hnodup⟩ := List.nodup_cons.mp nodup
      obtain ⟨hfirst, hsorted⟩ := List.pairwise_cons.mp sorted
      have hsplit := argmin_eq_or_of_separated rank
        (fun a => decide (key a = k)) items (by
          intro a ha b hb hka hkb
          have hkb' : key b ≠ k := by simpa using hkb
          have hmem : key b ∈ keys := by
            simpa [hkb'] using covered b hb
          exact hfirst (key b) hmem a ha b hb (by simpa using hka) rfl)
      have hrest := ih (items.filter fun a => !decide (key a = k)) hnodup
        (by
          intro a ha
          simp only [List.mem_filter, Bool.not_eq_true',
            decide_eq_false_iff_not] at ha
          simpa [ha.2] using covered a ha.1)
        (hsorted.imp fun {k₁ k₂} h a ha b hb =>
          h a (List.mem_filter.mp ha).1 b (List.mem_filter.mp hb).1)
      -- The later layers are not affected by taking the first one out.
      have hlayers : (keys.findSome? fun k' =>
            ((items.filter fun a => !decide (key a = k)).filter
              fun a => key a = k').argmin rank) =
          keys.findSome? fun k' =>
            (items.filter fun a => key a = k').argmin rank := by
        apply findSome?_congr_mem
        intro k' hk'
        have hne : k' ≠ k := fun h => hfresh (h ▸ hk')
        congr 1
        rw [List.filter_filter]
        apply List.filter_congr
        intro a _
        by_cases ha : key a = k' <;> simp [ha, hne]
      rw [hsplit, hrest, hlayers, List.findSome?_cons]
      cases (items.filter fun a => decide (key a = k)).argmin rank <;> rfl

/-! ## Items kept in keyed slots -/

/-- Append an item to the slot of its key; an unseen key opens a slot at the end. -/
def pushSlot [DecidableEq κ] (k : κ) (item : α) :
    List (κ × List α) → List (κ × List α)
  | [] => [(k, [item])]
  | (k', slot) :: slots =>
      if k' = k then (k', slot ++ [item]) :: slots
      else (k', slot) :: pushSlot k item slots

/-- The slots hold exactly the keyed items, each slot in list order. -/
structure Grouped [DecidableEq κ] (key : α → Option κ) (items : List α)
    (slots : List (κ × List α)) : Prop where
  nodup : (slots.map Prod.fst).Nodup
  slot_eq : ∀ k slot, (k, slot) ∈ slots →
    slot = items.filter fun a => key a = some k
  covered : ∀ a ∈ items, ∀ k, key a = some k → k ∈ slots.map Prod.fst

section Slots

variable [DecidableEq κ] {key : α → Option κ} {items : List α}
  {slots slots' : List (κ × List α)}

theorem Grouped.nil : Grouped key ([] : List α) [] :=
  ⟨by simp, by simp, by simp⟩

theorem mem_keys_pushSlot {k k' : κ} {item : α} :
    k' ∈ (pushSlot k item slots).map Prod.fst ↔
      k' = k ∨ k' ∈ slots.map Prod.fst := by
  induction slots with
  | nil => simp [pushSlot]
  | cons entry slots ih =>
      by_cases h : entry.1 = k
      · simp [pushSlot, h]
      · simp only [pushSlot, h, if_false, List.map_cons, List.mem_cons, ih]
        tauto

theorem nodup_keys_pushSlot {k : κ} {item : α}
    (h : (slots.map Prod.fst).Nodup) :
    ((pushSlot k item slots).map Prod.fst).Nodup := by
  induction slots with
  | nil => simp [pushSlot]
  | cons entry slots ih =>
      obtain ⟨hfresh, hnodup⟩ := List.nodup_cons.mp h
      by_cases hk : entry.1 = k
      · simpa [pushSlot, hk] using h
      · simp only [pushSlot, hk, if_false, List.map_cons, List.nodup_cons]
        exact ⟨fun hmem => (mem_keys_pushSlot.mp hmem).elim hk hfresh,
          ih hnodup⟩

theorem mem_pushSlot {k k' : κ} {item : α} {slot : List α}
    (hnodup : (slots.map Prod.fst).Nodup)
    (hmem : (k', slot) ∈ pushSlot k item slots) :
    (k' ≠ k ∧ (k', slot) ∈ slots) ∨
      (k' = k ∧ ∃ old, slot = old ++ [item] ∧
        ((k, old) ∈ slots ∨ (old = [] ∧ k ∉ slots.map Prod.fst))) := by
  induction slots with
  | nil =>
      have heq : k' = k ∧ slot = [item] := by simpa [pushSlot] using hmem
      exact .inr ⟨heq.1, [], by simpa using heq.2, .inr (by simp)⟩
  | cons entry slots ih =>
      obtain ⟨hfresh, hrest⟩ := List.nodup_cons.mp hnodup
      by_cases hk : entry.1 = k
      · simp only [pushSlot, hk, if_true, List.mem_cons, Prod.mk.injEq] at hmem
        rcases hmem with ⟨rfl, rfl⟩ | hmem
        · exact .inr ⟨rfl, entry.2, rfl, .inl (by simp [← hk])⟩
        · have hne : k' ≠ k := by
            rintro rfl
            exact hfresh (hk ▸ List.mem_map_of_mem (f := Prod.fst) hmem)
          exact .inl ⟨hne, List.mem_cons_of_mem _ hmem⟩
      · simp only [pushSlot, hk, if_false, List.mem_cons] at hmem
        rcases hmem with heq | hmem
        · have hfst : k' = entry.1 := congrArg Prod.fst heq
          exact .inl ⟨hfst ▸ hk, List.mem_cons.mpr (.inl heq)⟩
        · rcases ih hrest hmem with ⟨hne, hin⟩ | ⟨heq, old, hslot, hold⟩
          · exact .inl ⟨hne, List.mem_cons_of_mem _ hin⟩
          · refine .inr ⟨heq, old, hslot, ?_⟩
            rcases hold with hin | ⟨hnil, hout⟩
            · exact .inl (List.mem_cons_of_mem _ hin)
            · exact .inr ⟨hnil, by simp [Ne.symm hk, hout]⟩

theorem Grouped.push (h : Grouped key items slots) {item : α} {k : κ}
    (hkey : key item = some k) :
    Grouped key (items ++ [item]) (pushSlot k item slots) where
  nodup := nodup_keys_pushSlot h.nodup
  slot_eq := by
    intro k' slot hmem
    rcases mem_pushSlot h.nodup hmem with ⟨hne, hin⟩ | ⟨rfl, old, rfl, hold⟩
    · have hne' : ¬ some k = some k' := by simpa using Ne.symm hne
      simp [List.filter_append, hkey, hne', ← h.slot_eq k' slot hin]
    · have hslot : old = items.filter fun a => key a = some k' := by
        rcases hold with hin | ⟨rfl, hout⟩
        · exact h.slot_eq k' old hin
        · symm
          rw [List.filter_eq_nil_iff]
          intro a ha hka
          exact hout (h.covered a ha k' (by simpa using hka))
      simp [List.filter_append, hkey, ← hslot]
  covered := by
    intro a ha k' hka
    rw [mem_keys_pushSlot]
    rcases List.mem_append.mp ha with hin | hlast
    · exact .inr (h.covered a hin k' hka)
    · obtain rfl : a = item := by simpa using hlast
      exact .inl (by simpa [hkey] using hka.symm)

theorem Grouped.append_unkeyed (h : Grouped key items slots) {item : α}
    (hkey : key item = none) : Grouped key (items ++ [item]) slots where
  nodup := h.nodup
  slot_eq := by
    intro k slot hmem
    simp [List.filter_append, hkey, ← h.slot_eq k slot hmem]
  covered := by
    intro a ha k hka
    rcases List.mem_append.mp ha with hin | hlast
    · exact h.covered a hin k hka
    · obtain rfl : a = item := by simpa using hlast
      simp [hkey] at hka

theorem Grouped.perm (h : Grouped key items slots)
    (hperm : slots'.Perm slots) : Grouped key items slots' where
  nodup := (hperm.map Prod.fst).nodup_iff.mpr h.nodup
  slot_eq k slot hmem := h.slot_eq k slot (hperm.mem_iff.mp hmem)
  covered a ha k hka := (hperm.map Prod.fst).mem_iff.mpr (h.covered a ha k hka)

/--
A scan over slots listed by rank, falling through the slots whose key is not
accepted or which hold no suitable item, finds the least suitable item.
-/
theorem Grouped.findSome?_eq_argmin (h : Grouped key items slots)
    (rank : α → β) (accept : κ → Bool) (ok : α → Bool)
    (sorted : slots.Pairwise fun s s' =>
      accept s.1 = true → accept s'.1 = true → ∀ a ∈ items, ∀ b ∈ items,
        key a = some s.1 → key b = some s'.1 → rank a < rank b)
    (const : ∀ a ∈ items, ∀ b ∈ items, ∀ k,
      key a = some k → key b = some k → rank a = rank b) :
    (slots.findSome? fun s => if accept s.1 then s.2.find? ok else none) =
      (items.filter fun a => (key a).any accept && ok a).argmin rank := by
  -- The keys to search, as values of `key` on the suitable items.
  let keys := (slots.filter fun s => accept s.1).map fun s => some s.1
  have hnodup : keys.Nodup := by
    have hsub : ((slots.filter fun s => accept s.1).map Prod.fst).Nodup :=
      h.nodup.sublist (List.filter_sublist.map _)
    have hmap : keys = ((slots.filter fun s => accept s.1).map Prod.fst).map
        some := by simp [keys]
    rw [hmap]
    exact hsub.map (Option.some_injective κ)
  rw [argmin_eq_findSome?_layers rank key keys _ hnodup]
  · rw [List.findSome?_map, findSome?_filter]
    apply findSome?_congr_mem
    rintro ⟨k, slot⟩ hmem
    by_cases hk : accept k = true
    · have hslot := h.slot_eq k slot hmem
      subst hslot
      simp only [hk, if_true, Function.comp_apply]
      rw [argmin_eq_head?_of_const, List.find?_filter, List.filter_filter,
        List.head?_filter]
      · congr 1
        funext a
        by_cases ha : key a = some k <;> simp [ha, hk]
      · intro a ha b hb
        simp only [List.mem_filter, decide_eq_true_eq] at ha hb
        exact const a ha.1.1 b hb.1.1 k ha.2 hb.2
    · simp [hk]
  · intro a ha
    simp only [List.mem_filter, Bool.and_eq_true, Option.any_eq_true] at ha
    obtain ⟨hin, ⟨k, hka, hk⟩, -⟩ := ha
    obtain ⟨⟨k', slot⟩, hmem, rfl⟩ :=
      List.mem_map.mp (h.covered a hin k hka)
    simp only [keys, List.mem_map, List.mem_filter]
    exact ⟨(k', slot), ⟨hmem, hk⟩, hka.symm⟩
  · rw [List.pairwise_map, List.pairwise_filter]
    exact sorted.imp fun {s s'} hlt hs hs' a ha b hb hka hkb =>
      hlt hs hs' a (List.mem_filter.mp ha).1 b (List.mem_filter.mp hb).1
        hka hkb

end Slots

end Conduit.Foundation
