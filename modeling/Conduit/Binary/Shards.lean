import Conduit.Io.Worker
import Mathlib.Data.List.Nodup

/-!
# Pool shards of the HTTP workers

`start_http_server` keeps one dispatcher per worker.  The `setup` closure takes
a slot from a counter that all worker threads share, so which slots a thread
holds depends on the order of the calls and on how often its backend makes them.
-/

namespace Conduit

open Io

namespace Shards

/-- Calls of `setup` by one worker thread, when all its listeners convert. -/
def setupCalls (listeners : Nat) : Backend → Nat
  | .tokio => listeners
  | .monoio => 1

structure Handout where
  counter : Nat := 0
  held : List (Nat × Nat) := []
  deriving DecidableEq, Repr

def setup (platform : Platform) (n : Nat) (s : Handout) (worker : Nat) : Handout :=
  { counter := (s.counter + 1) % 2 ^ platform.usizeBits
    held := s.held ++ [(worker, s.counter % n)] }

def handOut (platform : Platform) (n : Nat) (calls : List Nat) : Handout :=
  calls.foldl (setup platform n) {}

/--
An order in which the threads make their calls.  A listener that does not
convert is skipped, so a thread may make fewer calls than it has listeners.
-/
structure Interleaving (backend : Backend) (workers listeners : Nat) (calls : List Nat) :
    Prop where
  worker_lt : ∀ w ∈ calls, w < workers
  calls_le : ∀ w, calls.count w ≤ setupCalls listeners backend

def Disjoint (s : Handout) : Prop :=
  ∀ w w' slot, (w, slot) ∈ s.held → (w', slot) ∈ s.held → w = w'

/-! ## The slots of a run -/

variable (platform : Platform) (n : Nat)

theorem handOut_concat (calls : List Nat) (w : Nat) :
    handOut platform n (calls ++ [w]) = setup platform n (handOut platform n calls) w := by
  rw [handOut, List.foldl_append]
  rfl

theorem handOut_spec (calls : List Nat) :
    (handOut platform n calls).counter = calls.length % 2 ^ platform.usizeBits ∧
    ∀ w slot, (w, slot) ∈ (handOut platform n calls).held ↔
      ∃ k, calls[k]? = some w ∧ k % 2 ^ platform.usizeBits % n = slot := by
  induction calls using List.reverseRecOn with
  | nil => simp [handOut]
  | append_singleton calls last ih =>
      rw [handOut_concat platform n]
      constructor
      · simp [setup, ih.1, Nat.mod_add_mod]
      · intro w slot
        simp only [setup, List.mem_append, List.mem_singleton, ih.2, ih.1, Prod.mk.injEq]
        constructor
        · rintro (⟨k, hk, hslot⟩ | ⟨rfl, rfl⟩)
          · have hlt := (List.getElem?_eq_some_iff.mp hk).1
            exact ⟨k, by rw [List.getElem?_append_left hlt, hk], hslot⟩
          · exact ⟨calls.length, List.getElem?_concat_length, rfl⟩
        · rintro ⟨k, hk, hslot⟩
          rcases Nat.lt_or_ge k calls.length with hlt | hge
          · rw [List.getElem?_append_left hlt] at hk
            exact .inl ⟨k, hk, hslot⟩
          · have hlt := (List.getElem?_eq_some_iff.mp hk).1
            rw [List.length_append, List.length_singleton] at hlt
            obtain rfl : k = calls.length := by omega
            rw [List.getElem?_concat_length] at hk
            exact .inr ⟨(Option.some.inj hk).symm, hslot.symm⟩

variable {platform}

theorem length_le_of_nodup {workers : Nat} {calls : List Nat} (hnodup : calls.Nodup)
    (hlt : ∀ w ∈ calls, w < workers) : calls.length ≤ workers := by
  have hsub : calls ⊆ List.range workers := fun w hw => List.mem_range.mpr (hlt w hw)
  simpa using (hnodup.subperm hsub).length_le

theorem disjoint_of_nodup {workers : Nat} {calls : List Nat} (hnodup : calls.Nodup)
    (hlt : ∀ w ∈ calls, w < workers) (hwidth : workers < 2 ^ platform.usizeBits) :
    Disjoint (handOut platform workers calls) := by
  have hlength := length_le_of_nodup hnodup hlt
  have hslot : ∀ k w, calls[k]? = some w → k % 2 ^ platform.usizeBits % workers = k := by
    intro k w hk
    have hlt := (List.getElem?_eq_some_iff.mp hk).1
    rw [Nat.mod_eq_of_lt (show k < 2 ^ platform.usizeBits by omega),
      Nat.mod_eq_of_lt (show k < workers by omega)]
  intro w w' slot hw hw'
  obtain ⟨k, hk, rfl⟩ := ((handOut_spec platform workers calls).2 w slot).mp hw
  obtain ⟨k', hk', hsame⟩ := ((handOut_spec platform workers calls).2 w' _).mp hw'
  rw [hslot k w hk, hslot k' w' hk'] at hsame
  rw [hsame, hk] at hk'
  exact Option.some.inj hk'

theorem not_disjoint_of_second_call {workers : Nat} (hworkers : 1 < workers)
    (hwidth : workers < 2 ^ platform.usizeBits) :
    ¬ Disjoint (handOut platform workers (List.range workers ++ [1])) := by
  intro h
  have hspec := (handOut_spec platform workers (List.range workers ++ [1])).2
  have hzero : (0, 0) ∈ (handOut platform workers (List.range workers ++ [1])).held := by
    refine (hspec 0 0).mpr ⟨0, ?_, by simp⟩
    rw [List.getElem?_append_left (by simp; omega), List.getElem?_range (by omega)]
  have hone : (1, 0) ∈ (handOut platform workers (List.range workers ++ [1])).held := by
    refine (hspec 1 0).mpr ⟨workers, ?_, ?_⟩
    · rw [List.getElem?_append_right (by simp)]
      simp
    · rw [Nat.mod_eq_of_lt hwidth, Nat.mod_self]
  exact absurd (h 0 1 0 hzero hone) (by decide)

/-! ## Workers and slots -/

/--
Each slot is held by one worker at most, on every interleaving, exactly for
monoio, for a single listener and for a single worker.
-/
theorem slots_disjoint_iff (platform : Platform) (backend : Backend) (workers listeners : Nat)
    (hworkers : 1 ≤ workers) (hlisteners : 1 ≤ listeners)
    (hwidth : workers < 2 ^ platform.usizeBits) :
    (∀ calls, Interleaving backend workers listeners calls →
        Disjoint (handOut platform workers calls)) ↔
      backend = .monoio ∨ listeners = 1 ∨ workers = 1 := by
  constructor
  · intro h
    by_contra hcond
    obtain ⟨hbackend, hmany, hseveral⟩ : backend ≠ .monoio ∧ listeners ≠ 1 ∧ workers ≠ 1 := by
      simpa using hcond
    obtain rfl : backend = .tokio := by
      cases backend with
      | tokio => rfl
      | monoio => exact absurd rfl hbackend
    refine not_disjoint_of_second_call (by omega) hwidth (h _ ⟨?_, ?_⟩)
    · intro w hw
      simp only [List.mem_append, List.mem_range, List.mem_singleton] at hw
      omega
    · intro w
      have hrange : (List.range workers).count w ≤ 1 :=
        List.nodup_iff_count_le_one.mp List.nodup_range w
      have hlast : [1].count w ≤ 1 := List.nodup_iff_count_le_one.mp (by simp) w
      rw [List.count_append, setupCalls]
      omega
  · rintro hcond calls ⟨hlt, hle⟩
    by_cases hone : workers = 1
    · intro w w' slot hw hw'
      obtain ⟨k, hk, -⟩ := ((handOut_spec platform workers calls).2 w slot).mp hw
      obtain ⟨k', hk', -⟩ := ((handOut_spec platform workers calls).2 w' slot).mp hw'
      have hw := hlt w (List.mem_of_getElem? hk)
      have hw' := hlt w' (List.mem_of_getElem? hk')
      omega
    · refine disjoint_of_nodup (List.nodup_iff_count_le_one.mpr fun w => (hle w).trans ?_)
        hlt hwidth
      rcases hcond with rfl | rfl | hworkers
      · exact le_refl 1
      · cases backend <;> exact le_refl 1
      · exact absurd hworkers hone

theorem two_listeners_share_slots :
    Interleaving .tokio 2 2 [0, 0, 1, 1] ∧
    (handOut .concrete 2 [0, 0, 1, 1]).held = [(0, 0), (0, 1), (1, 0), (1, 1)] ∧
    ¬ Disjoint (handOut .concrete 2 [0, 0, 1, 1]) := by
  refine ⟨⟨by decide, ?_⟩, by decide, ?_⟩
  · rintro (_ | _ | w)
    · decide
    · decide
    · simp [setupCalls]
  · intro h
    exact absurd (h 0 1 0 (by decide) (by decide)) (by decide)

theorem slots_disjoint_iff_sample :
    Interleaving .monoio 4 3 [2, 0, 3, 1] ∧ Disjoint (handOut .concrete 4 [2, 0, 3, 1]) := by
  have hcalls : Interleaving .monoio 4 3 [2, 0, 3, 1] :=
    ⟨by decide, fun w => List.nodup_iff_count_le_one.mp (by decide) w⟩
  exact ⟨hcalls, (slots_disjoint_iff .concrete .monoio 4 3 (by decide) (by decide)
    (by decide)).mpr (.inl rfl) _ hcalls⟩

end Shards

end Conduit
