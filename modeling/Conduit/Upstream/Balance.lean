import Conduit.Foundation.Ring
import Conduit.Upstream.Pool

/-!
# The load balancer

`pick_addr` walks the ring of backends from the shared counter to the first
one whose breaker allows it.  The file says when the walk of one call is the
walk around the ring, wrap of the counter included.
-/

namespace Conduit

open Foundation

namespace Upstream

/-! ## The aggregate state -/

def breakerState (u : Upstream) (now : Nat) : BreakerState :=
  if u.breakers.isEmpty then .closed
  else
    let closed := u.breakers.countP fun b => b.snapshot (b.nowMs now) = .closed
    let opened := u.breakers.countP fun b => b.snapshot (b.nowMs now) = .open
    if closed = u.breakers.length then .closed
    else if opened = u.breakers.length then .open
    else .halfOpen

section OneCall

variable {platform : Platform} {u : Upstream} {now : Nat}

theorem allows_eq_false_iff (i : Fin u.addrs.length) :
    u.allows now i = false ↔ (u.breaker i).check ((u.breaker i).nowMs now) = .reject := by
  unfold allows
  cases (u.breaker i).check ((u.breaker i).nowMs now) <;> simp

theorem forall_breakers_iff {q : Breaker → Prop} :
    (∀ b ∈ u.breakers, q b) ↔ ∀ i, q (u.breaker i) := by
  constructor
  · intro h i
    exact h _ (List.get_mem ..)
  · intro h b hb
    obtain ⟨i, rfl⟩ := List.get_of_mem hb
    exact h (i.cast u.length_breakers)

theorem breakerState_eq_open_iff (haddrs : u.addrs ≠ []) :
    u.breakerState now = .open ↔ ∀ i, u.allows now i = false := by
  have hpos : 0 < u.breakers.length := by
    rw [u.length_breakers]
    exact List.length_pos_of_ne_nil haddrs
  have hne : u.breakers.isEmpty = false := by
    rw [List.isEmpty_eq_false_iff]
    exact List.ne_nil_of_length_pos hpos
  have hopen : (u.breakers.countP fun b => b.snapshot (b.nowMs now) = .open) =
      u.breakers.length ↔ ∀ i, u.allows now i = false := by
    rw [List.countP_eq_length, forall_breakers_iff]
    simp only [decide_eq_true_eq, allows_eq_false_iff, Breaker.check_eq_reject_iff]
  have hclosed : (u.breakers.countP fun b => b.snapshot (b.nowMs now) = .closed) =
      u.breakers.length → ¬ ∀ i, u.allows now i = false := by
    intro hall hreject
    rw [List.countP_eq_length, forall_breakers_iff] at hall
    have hfirst : 0 < u.addrs.length := List.length_pos_of_ne_nil haddrs
    have h := (allows_eq_false_iff _).mp (hreject ⟨0, hfirst⟩)
    rw [Breaker.check_eq_reject_iff] at h
    have h' := of_decide_eq_true (hall ⟨0, hfirst⟩)
    rw [h] at h'
    cases h'
  simp only [breakerState, hne, Bool.false_eq_true, if_false]
  split_ifs with h₁ h₂
  · simpa using hclosed h₁
  · simpa using hopen.mp h₂
  · simpa using fun h => h₂ (hopen.mpr h)

/-! ## One call -/

theorem pickAddr_eq_some_iff (haddrs : u.addrs ≠ []) {addr : SocketAddr}
    {i : Fin u.addrs.length} :
    u.pickAddr platform now = some (addr, i) ↔
      addr = u.addrs.get i ∧
        FirstHit u.addrs.length (At (u.allows now))
          (wrappedOrder (2 ^ platform.usizeBits) u.addrs.length u.next) i := by
  have hpos : 0 < u.addrs.length := List.length_pos_of_ne_nil haddrs
  have hat : ∀ o, At (u.allows now)
      (wrappedOrder (2 ^ platform.usizeBits) u.addrs.length u.next o) ↔
      u.allows now (u.slot platform hpos o) = true := fun o =>
    at_val (u.allows now) (u.slot platform hpos o)
  rw [pickAddr, dif_pos hpos, findSome?_range_eq_some]
  constructor
  · rintro ⟨o, ho, hpick, hbefore⟩
    obtain ⟨hallow, rfl, rfl⟩ := offer_eq_some.mp hpick
    refine ⟨rfl, o, ho, rfl, (hat o).mpr hallow, fun o' ho' hhit => ?_⟩
    have hnone := hbefore o' ho'
    rw [if_pos ((hat o').mp hhit)] at hnone
    cases hnone
  · rintro ⟨rfl, o, ho, horder, hallow, hbefore⟩
    have hslot : u.slot platform hpos o = i := Fin.ext horder
    refine ⟨o, ho, ?_, fun o' ho' => ?_⟩
    · rw [hslot, if_pos ((at_val _ _).mp hallow)]
    · rw [if_neg fun hhit => hbefore o' ho' ((hat o').mpr hhit)]

theorem pickAddr_eq_none_iff (haddrs : u.addrs ≠ []) :
    u.pickAddr platform now = none ↔
      ∀ i, ¬ FirstHit u.addrs.length (At (u.allows now))
        (wrappedOrder (2 ^ platform.usizeBits) u.addrs.length u.next) i := by
  constructor
  · intro hnone i hhit
    obtain ⟨-, -, -, ⟨hi, -⟩, -⟩ := id hhit
    have hsome := (pickAddr_eq_some_iff (i := ⟨i, hi⟩) haddrs).mpr ⟨rfl, hhit⟩
    rw [hnone] at hsome
    cases hsome
  · intro hnone
    cases hpick : u.pickAddr platform now with
    | none => rfl
    | some picked => exact absurd ((pickAddr_eq_some_iff haddrs).mp hpick).2 (hnone _)

/--
A backend is refused only when all reject, and the one picked is the first to
allow the request around the ring, from the counter on.
-/
structure PicksInOrder (platform : Platform) (u : Upstream) (now : Nat) : Prop where
  none_iff : u.pickAddr platform now = none ↔
    ∀ i, (u.breaker i).check ((u.breaker i).nowMs now) = .reject
  none_iff_open : u.pickAddr platform now = none ↔ u.breakerState now = .open
  first : ∀ addr i, u.pickAddr platform now = some (addr, i) →
    addr = u.addrs.get i ∧
      FirstHit u.addrs.length (At (u.allows now)) (ringOrder u.addrs.length u.next) i
  counter : (u.advance platform).next = (u.next + 1) % 2 ^ platform.usizeBits

theorem advance_next (haddrs : u.addrs ≠ []) :
    (u.advance platform).next = (u.next + 1) % 2 ^ platform.usizeBits := by
  have hne : u.addrs.isEmpty = false := by simpa using haddrs
  simp [advance, hne]

theorem picksInOrder_of_rejects (haddrs : u.addrs ≠ [])
    (hreject : ∀ i, u.allows now i = false) : PicksInOrder platform u now := by
  have hnone : u.pickAddr platform now = none := by
    rw [pickAddr_eq_none_iff haddrs]
    rintro i ⟨-, -, -, ⟨hi, hallow⟩, -⟩
    rw [hreject ⟨i, hi⟩] at hallow
    cases hallow
  refine ⟨⟨fun _ i => (allows_eq_false_iff i).mp (hreject i), fun _ => hnone⟩,
    ⟨fun _ => (breakerState_eq_open_iff haddrs).mpr hreject, fun _ => hnone⟩, ?_,
    advance_next haddrs⟩
  intro addr i hpick
  rw [hnone] at hpick
  cases hpick

theorem picksInOrder_iff_of_allows (haddrs : u.addrs ≠ [])
    (hallow : ∃ i, u.allows now i = true) :
    PicksInOrder platform u now ↔
      ∃ i, FirstHit u.addrs.length (At (u.allows now))
          (wrappedOrder (2 ^ platform.usizeBits) u.addrs.length u.next) i ∧
        FirstHit u.addrs.length (At (u.allows now)) (ringOrder u.addrs.length u.next) i := by
  obtain ⟨j, hj⟩ := hallow
  have hnot : ¬ ∀ i, u.allows now i = false := fun h => by
    rw [h j] at hj
    cases hj
  constructor
  · intro hpicks
    cases hpick : u.pickAddr platform now with
    | none =>
        have hreject := hpicks.none_iff.mp hpick
        exact absurd (fun i => (allows_eq_false_iff i).mpr (hreject i)) hnot
    | some picked =>
        obtain ⟨addr, i⟩ := picked
        exact ⟨i, ((pickAddr_eq_some_iff haddrs).mp hpick).2, (hpicks.first addr i hpick).2⟩
  · rintro ⟨i, hwrapped, hring⟩
    have hi : i < u.addrs.length := by
      obtain ⟨-, -, -, ⟨hi, -⟩, -⟩ := hring
      exact hi
    have hpick : u.pickAddr platform now = some (u.addrs.get ⟨i, hi⟩, ⟨i, hi⟩) :=
      (pickAddr_eq_some_iff haddrs).mpr ⟨rfl, hwrapped⟩
    refine ⟨?_, ?_, ?_, advance_next haddrs⟩
    · simpa [hpick, ← allows_eq_false_iff] using hnot
    · simpa [hpick, breakerState_eq_open_iff haddrs] using hnot
    · intro addr i' hpick'
      obtain ⟨haddr, hwrapped'⟩ := (pickAddr_eq_some_iff haddrs).mp hpick'
      exact ⟨haddr, hwrapped.unique hwrapped' ▸ hring⟩

/-- What the scan may find for the wrap of the counter to make no difference. -/
def WrapHarmless (platform : Platform) (u : Upstream) (now : Nat) : Prop :=
  let m := 2 ^ platform.usizeBits
  let n := u.addrs.length
  (∀ i, u.allows now i = false) ∨
  (∃ o < n, u.next + o < m ∧ At (u.allows now) (ringOrder n u.next o)) ∨
  (∀ i : Fin n, u.allows now i = true → i.val < m % n) ∨
  (∀ i : Fin n, u.allows now i = true → m % n ≤ i.val) ∧
    ∃ i : Fin n, u.allows now i = true ∧ m + i.val < u.next + n

/--
`pick_addr` keeps to the ring exactly when the wrap of the counter does no
harm: so it does for every counter up to `2 ^ w - n`.
-/
theorem pickAddr_in_order_iff (platform : Platform) (u : Upstream) (haddrs : u.addrs ≠ [])
    (hlength : u.addrs.length ≤ 2 ^ platform.usizeBits)
    (hnext : u.next < 2 ^ platform.usizeBits) (now : Nat) :
    PicksInOrder platform u now ↔ WrapHarmless platform u now := by
  by_cases hreject : ∀ i, u.allows now i = false
  · exact ⟨fun _ => .inl hreject, fun _ => picksInOrder_of_rejects haddrs hreject⟩
  · have hallow : ∃ i, u.allows now i = true := by simpa using hreject
    have hfree : ∃ i < u.addrs.length, At (u.allows now) i := by
      obtain ⟨i, hi⟩ := hallow
      exact ⟨i, i.isLt, (at_val _ i).mpr hi⟩
    rw [picksInOrder_iff_of_allows haddrs hallow, firstHit_wrapped_iff hnext hlength hfree,
      forall_at_iff, forall_at_iff, exists_at_iff]
    simp only [WrapHarmless, hreject, false_or]

end OneCall

def tripped : Breaker := ⟨1, 1000, 0, 1, 1000⟩

def lastTurn (breakers : List Breaker) (hbreakers : breakers.length = 3) : Upstream where
  client := none
  connectTimeout := none
  retry := {}
  addrs := [.v4 ⟨10, 0, 0, 1⟩ 80, .v4 ⟨10, 0, 0, 2⟩ 80, .v4 ⟨10, 0, 0, 3⟩ 80]
  authorities := [.v4 ⟨10, 0, 0, 1⟩ 80, .v4 ⟨10, 0, 0, 2⟩ 80, .v4 ⟨10, 0, 0, 3⟩ 80].map
    SocketAddr.authority
  next := 2 ^ 64 - 1
  breakers := breakers
  authorities_eq := rfl
  length_breakers := hbreakers

theorem pickAddr_in_order_iff_sample :
    PicksInOrder .concrete (lastTurn [tripped, Breaker.new {} 0, tripped] rfl) 0 :=
  (pickAddr_in_order_iff .concrete (lastTurn [tripped, Breaker.new {} 0, tripped] rfl)
    (by decide) (by decide) (by decide) 0).mpr
      (.inr (.inr (.inr ⟨by decide, ⟨1, by decide⟩, by decide, by decide⟩)))

theorem pickAddr_misses_a_backend :
    ¬ ∀ (platform : Platform) (u : Upstream), u.addrs ≠ [] →
      u.addrs.length ≤ 2 ^ platform.usizeBits → u.next < 2 ^ platform.usizeBits →
      ∀ now, PicksInOrder platform u now := by
  intro h
  have hpicks := h .concrete (lastTurn [tripped, tripped, Breaker.new {} 0] rfl)
    (by decide) (by decide) (by decide) 0
  have hreject := hpicks.none_iff.mp (by decide) ⟨2, by decide⟩
  exact absurd hreject (by decide)

end Upstream

end Conduit
