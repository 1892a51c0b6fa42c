import Conduit.Foundation.Transition
import Conduit.Upstream.Balance

/-!
# Round robin over clones

Clones of a pool share its counter and its breakers.  A call of `pick_addr`
takes the counter with one `fetch_add` and then checks one breaker after the
other, all of it interleaved with the other calls in any way.  While the
breakers keep their decisions, rounds of calls share out the backends exactly.
-/

namespace Conduit

open Foundation

namespace Upstream

/-! ## Calls in progress -/

inductive Scan (u : Upstream) where
  | scanning (offset : Nat)
  | done (picked : Option (SocketAddr × Fin u.addrs.length))

structure PickCall (ι : Type) (u : Upstream) where
  clone : ι
  start : Nat
  scan : Scan u

/-- The shared counter, and the calls in the order of their `fetch_add`s. -/
structure Clones (ι : Type) (u : Upstream) where
  next : Nat
  calls : List (PickCall ι u)

inductive Move (ι : Type) where
  | fetch (clone : ι)
  | check (call : Nat)

def slotFrom (platform : Platform) {u : Upstream} (hpos : 0 < u.addrs.length)
    (start offset : Nat) : Fin u.addrs.length :=
  ⟨(start + offset) % 2 ^ platform.usizeBits % u.addrs.length, Nat.mod_lt _ hpos⟩

namespace Clones

variable {ι : Type} (platform : Platform) {u : Upstream} (hpos : 0 < u.addrs.length)
  (decisions : Fin u.addrs.length → Decision)

def checkAt (start offset : Nat) : Scan u :=
  let i := slotFrom platform hpos start offset
  if decisions i = .allow then .done (some (u.addrs.get i, i))
  else if offset + 1 < u.addrs.length then .scanning (offset + 1)
  else .done none

def step (s : Clones ι u) : Move ι → Option (Clones ι u)
  | .fetch clone =>
      some
        { next := (s.next + 1) % 2 ^ platform.usizeBits
          calls := s.calls ++ [⟨clone, s.next, .scanning 0⟩] }
  | .check k =>
      match s.calls[k]? with
      | some ⟨clone, start, .scanning offset⟩ =>
          some
            { s with
              calls := s.calls.set k
                ⟨clone, start, checkAt platform hpos decisions start offset⟩ }
      | _ => none

def fresh : Clones ι u := ⟨0, []⟩

/-- The counter stays below `2 ^ w - n`. -/
def CounterBelow (s : Clones ι u) : Move ι → Prop
  | .fetch _ => s.next + u.addrs.length < 2 ^ platform.usizeBits
  | .check _ => True

instance (s : Clones ι u) (a : Move ι) : Decidable (CounterBelow platform s a) :=
  match a with
  | .fetch _ => inferInstanceAs (Decidable (_ < _))
  | .check _ => .isTrue trivial

theorem step_cases {s s' : Clones ι u} {a : Move ι}
    (h : s.step platform hpos decisions a = some s') :
    (∃ clone, a = .fetch clone ∧
      s' = ⟨(s.next + 1) % 2 ^ platform.usizeBits,
        s.calls ++ [⟨clone, s.next, .scanning 0⟩]⟩) ∨
    ∃ k clone start offset, a = .check k ∧
      s.calls[k]? = some ⟨clone, start, .scanning offset⟩ ∧
      s' = { s with
        calls := s.calls.set k
          ⟨clone, start, checkAt platform hpos decisions start offset⟩ } := by
  cases a with
  | fetch clone => exact .inl ⟨clone, rfl, (Option.some.inj h).symm⟩
  | check k =>
      rw [step] at h
      split at h
      · rename_i clone start offset hcall
        exact .inr ⟨k, clone, start, offset, rfl, hcall, (Option.some.inj h).symm⟩
      · cases h

/-! ## What a scan has seen -/

/-- The first backend that allows the request, around the ring from `start`. -/
def Hit (start : Nat) (i : Fin u.addrs.length) : Prop :=
  FirstHit u.addrs.length (At fun j => decisions j = .allow)
    (ringOrder u.addrs.length start) i

def Sound (start : Nat) : Scan u → Prop
  | .scanning offset =>
      offset < u.addrs.length ∧ ∀ o < offset,
        ¬ At (fun j => decisions j = .allow) (ringOrder u.addrs.length start o)
  | .done none => ∀ o < u.addrs.length,
      ¬ At (fun j => decisions j = .allow) (ringOrder u.addrs.length start o)
  | .done (some (addr, i)) => addr = u.addrs.get i ∧ Hit decisions start i

variable {platform hpos decisions}

theorem sound_checkAt {start offset : Nat}
    (hstart : start + u.addrs.length < 2 ^ platform.usizeBits)
    (h : Sound decisions start (.scanning offset : Scan u)) :
    Sound decisions start (checkAt platform hpos decisions start offset) := by
  obtain ⟨hoffset, hbefore⟩ := h
  have horder : (slotFrom platform hpos start offset).val =
      ringOrder u.addrs.length start offset :=
    wrappedOrder_eq_ringOrder (by omega)
  have hat : At (fun j => decisions j = .allow) (ringOrder u.addrs.length start offset) ↔
      decisions (slotFrom platform hpos start offset) = .allow := by
    rw [← horder, at_val, decide_eq_true_eq]
  unfold checkAt
  dsimp only
  split_ifs with hallow hmore
  · exact ⟨rfl, offset, hoffset, horder.symm, horder ▸ hat.mpr hallow, hbefore⟩
  · refine ⟨hmore, fun o ho => ?_⟩
    rcases Nat.lt_succ_iff_lt_or_eq.mp ho with hlt | rfl
    · exact hbefore o hlt
    · exact fun hhit => hallow (hat.mp hhit)
  · intro o ho
    rcases Nat.lt_or_ge o offset with hlt | hge
    · exact hbefore o hlt
    · obtain rfl : o = offset := by omega
      exact fun hhit => hallow (hat.mp hhit)

theorem map_set_of_eq {α β : Type} {f : α → β} {xs : List α} {k : Nat} {a b : α}
    (h : xs[k]? = some a) (hf : f b = f a) : (xs.set k b).map f = xs.map f := by
  apply List.ext_getElem?
  intro j
  rw [List.getElem?_map, List.getElem?_map, List.getElem?_set]
  split_ifs with hj hlt
  · subst hj
    simp [h, hf]
  · subst hj
    simp [List.getElem?_eq_none (Nat.le_of_not_lt hlt)]
  · rfl

/-- Tickets in order, and every scan sound for its ticket. -/
structure Inv (platform : Platform) (decisions : Fin u.addrs.length → Decision)
    (s : Clones ι u) : Prop where
  next : s.next = s.calls.length
  starts : s.calls.map PickCall.start = List.range s.calls.length
  below : ∀ c ∈ s.calls, c.start + u.addrs.length < 2 ^ platform.usizeBits
  sound : ∀ c ∈ s.calls, Sound decisions c.start c.scan

theorem Inv.step {s s' : Clones ι u} {a : Move ι} (h : Inv platform decisions s)
    (hbelow : CounterBelow platform s a) (hstep : s.step platform hpos decisions a = some s') :
    Inv platform decisions s' := by
  obtain ⟨clone, rfl, rfl⟩ | ⟨k, clone, start, offset, rfl, hcall, rfl⟩ := step_cases _ _ _ hstep
  · have hlt : s.next + u.addrs.length < 2 ^ platform.usizeBits := hbelow
    refine ⟨?_, ?_, ?_, ?_⟩
    · rw [Nat.mod_eq_of_lt (by omega), h.next]
      simp
    · simp [h.starts, List.range_succ, h.next]
    · rw [List.forall_mem_append]
      exact ⟨h.below, by simpa using hlt⟩
    · rw [List.forall_mem_append]
      exact ⟨h.sound, by simpa [Sound] using hpos⟩
  · obtain ⟨hk, hget⟩ := List.getElem?_eq_some_iff.mp hcall
    have hmem : ⟨clone, start, .scanning offset⟩ ∈ s.calls := hget ▸ List.getElem_mem hk
    have hstart := h.below _ hmem
    refine ⟨by simp [h.next], ?_, ?_, ?_⟩
    · rw [List.length_set, ← h.starts]
      exact map_set_of_eq hcall rfl
    · intro c hc
      rcases List.mem_or_eq_of_mem_set hc with hc | rfl
      · exact h.below c hc
      · exact hstart
    · intro c hc
      rcases List.mem_or_eq_of_mem_set hc with hc | rfl
      · exact h.sound c hc
      · exact sound_checkAt hstart (h.sound _ hmem)

theorem inv_of_reachable {s : Clones ι u}
    (hrun : Reachable (step platform hpos decisions) (CounterBelow platform) fresh s) :
    Inv platform decisions s :=
  hrun.invariant (Inv platform decisions) ⟨rfl, rfl, by simp [fresh], by simp [fresh]⟩
    fun _ _ _ h hbelow hstep => h.step hbelow hstep

def remaining : Scan u → Nat
  | .scanning offset => u.addrs.length - offset
  | .done _ => 0

theorem remaining_checkAt {start offset : Nat} (hoffset : offset < u.addrs.length) :
    remaining (checkAt platform hpos decisions start offset) <
      remaining (.scanning offset : Scan u) := by
  unfold checkAt
  dsimp only
  split_ifs <;> simp only [remaining] <;> omega

theorem sum_set_lt {α : Type} {f : α → Nat} {xs : List α} {k : Nat} {a b : α}
    (h : xs[k]? = some a) (hlt : f b < f a) : ((xs.set k b).map f).sum < (xs.map f).sum := by
  induction xs generalizing k with
  | nil => simp at h
  | cons x xs ih =>
      cases k with
      | zero =>
          cases h
          simpa using hlt
      | succ k =>
          have hrest := ih (k := k) (by simpa using h)
          simpa using hrest

theorem exists_finished {s : Clones ι u} (h : Inv platform decisions s) :
    ∃ s', Reachable (step platform hpos decisions) (CounterBelow platform) s s' ∧
      s'.calls.map PickCall.start = s.calls.map PickCall.start ∧
      ∀ c ∈ s'.calls, ∃ result, c.scan = .done result := by
  induction hsum : (s.calls.map fun c => remaining c.scan).sum using Nat.strongRecOn
    generalizing s with
  | _ total ih =>
      by_cases hall : ∀ c ∈ s.calls, ∃ result, c.scan = .done result
      · exact ⟨s, Reachable.refl, rfl, hall⟩
      · push Not at hall
        obtain ⟨⟨clone, start, scan⟩, hmem, hscan⟩ := hall
        cases scan with
        | done result => exact absurd rfl (hscan result)
        | scanning offset =>
            obtain ⟨k, hk, hget⟩ := List.mem_iff_getElem.mp hmem
            have hcall : s.calls[k]? = some ⟨clone, start, .scanning offset⟩ := by
              rw [List.getElem?_eq_getElem hk, hget]
            have hstep : s.step platform hpos decisions (.check k) = some { s with
                calls := s.calls.set k
                  ⟨clone, start, checkAt platform hpos decisions start offset⟩ } := by
              rw [step, hcall]
            have hless := sum_set_lt (f := fun c => remaining c.scan)
              (b := ⟨clone, start, checkAt platform hpos decisions start offset⟩) hcall
              (remaining_checkAt (h.sound _ hmem).1)
            obtain ⟨s', hrun, hstarts, hdone⟩ :=
              ih _ (hsum ▸ hless) (h.step (a := .check k) trivial hstep) rfl
            refine ⟨s', ?_, ?_, hdone⟩
            · exact (Reachable.refl.tail trivial hstep).trans hrun
            · rw [hstarts]
              exact map_set_of_eq hcall rfl

theorem pickAddr_of_sound (haddrs : u.addrs ≠ []) {now : Nat}
    (hdecisions : ∀ i, decisions i = (u.breaker i).check ((u.breaker i).nowMs now))
    {start : Nat} (hstart : start + u.addrs.length < 2 ^ platform.usizeBits)
    {result : Option (SocketAddr × Fin u.addrs.length)}
    (h : Sound decisions start (.done result)) :
    ({ u with next := start } : Upstream).pickAddr platform now = result := by
  have hallows : (fun j => decide (decisions j = .allow)) =
      ({ u with next := start } : Upstream).allows now := by
    funext i
    rw [hdecisions]
    rfl
  have horder : ∀ o < u.addrs.length, wrappedOrder (2 ^ platform.usizeBits) u.addrs.length
      start o = ringOrder u.addrs.length start o := fun o ho =>
    wrappedOrder_eq_ringOrder (by omega)
  cases result with
  | none =>
      rw [pickAddr_eq_none_iff (u := { u with next := start }) haddrs]
      intro i hhit
      obtain ⟨o, ho, rfl, hat, -⟩ := hhit.congr horder
      exact h o ho (hallows ▸ hat)
  | some found =>
      obtain ⟨addr, i⟩ := found
      rw [pickAddr_eq_some_iff (u := { u with next := start }) haddrs]
      refine ⟨h.1, FirstHit.congr (fun o ho => (horder o ho).symm) ?_⟩
      rw [← hallows]
      exact h.2

theorem pickAddr_of_done {s : Clones ι u}
    (hrun : Reachable (step platform hpos decisions) (CounterBelow platform) fresh s)
    {now : Nat}
    (hdecisions : ∀ i, decisions i = (u.breaker i).check ((u.breaker i).nowMs now))
    {c : PickCall ι u} (hc : c ∈ s.calls)
    {result : Option (SocketAddr × Fin u.addrs.length)} (hdone : c.scan = .done result) :
    ({ u with next := c.start } : Upstream).pickAddr platform now = result := by
  have hinv := inv_of_reachable hrun
  exact pickAddr_of_sound (List.ne_nil_of_length_pos hpos) hdecisions (hinv.below c hc)
    (hdone ▸ hinv.sound c hc)

/-! ## Shares -/

/-- The rejecting backends right before `i` on the ring, one after the other. -/
def rejectsBefore (decisions : Fin u.addrs.length → Decision) (i : Fin u.addrs.length) : Nat :=
  ringGap u.addrs.length (At fun j => decisions j = .allow) i

def picked (c : PickCall ι u) : Option (Fin u.addrs.length) :=
  match c.scan with
  | .done (some (_, i)) => some i
  | _ => none

theorem decisions_of_hit {start : Nat} {i : Fin u.addrs.length}
    (h : Hit decisions start i) : decisions i = .allow := by
  obtain ⟨-, -, -, hat, -⟩ := h
  simpa using hat

theorem finished_of_sound {c : PickCall ι u} (hsound : Sound decisions c.start c.scan)
    (hallow : ∃ i, decisions i = .allow)
    {result : Option (SocketAddr × Fin u.addrs.length)} (hdone : c.scan = .done result) :
    ∃ i, Hit decisions c.start i ∧ result = some (u.addrs.get i, i) ∧ picked c = some i := by
  rw [hdone] at hsound
  cases result with
  | none =>
      obtain ⟨i, hi⟩ := hallow
      refine absurd ?_ (hsound _ (ringDistance_lt c.start i.isLt))
      rw [ringOrder_ringDistance c.start i.isLt, at_val]
      exact decide_eq_true hi
  | some found =>
      obtain ⟨addr, i⟩ := found
      obtain ⟨rfl, hhit⟩ := hsound
      exact ⟨i, hhit, rfl, by rw [picked, hdone]⟩

theorem picked_eq_some_iff {c : PickCall ι u} (hsound : Sound decisions c.start c.scan)
    (hallow : ∃ i, decisions i = .allow)
    {result : Option (SocketAddr × Fin u.addrs.length)} (hdone : c.scan = .done result)
    {i : Fin u.addrs.length} (hi : decisions i = .allow) :
    picked c = some i ↔
      ringDistance u.addrs.length c.start i ≤ rejectsBefore decisions i := by
  obtain ⟨j, hhit, -, hpicked⟩ := finished_of_sound hsound hallow hdone
  have hat : At (fun j => decisions j = .allow) i.val := by
    rw [at_val]
    exact decide_eq_true hi
  rw [rejectsBefore, ← firstHit_ring_iff i.isLt hat, hpicked, Option.some.injEq]
  constructor
  · rintro rfl
    exact hhit
  · exact fun hhit' => Fin.ext (hhit.unique hhit')

section Window

variable {s : Clones ι u} (h : Inv platform decisions s)
include h

theorem starts_window {a size : Nat} (hwindow : a + size ≤ s.calls.length) :
    ((s.calls.drop a).take size).map PickCall.start = List.range' a size := by
  obtain ⟨rest, hrest⟩ := Nat.exists_eq_add_of_le hwindow
  rw [List.map_take, List.map_drop, h.starts, List.range_eq_range', hrest,
    ← List.range'_append_1, ← List.range'_append_1, List.append_assoc,
    List.drop_left' (by simp), List.take_left' (by simp), Nat.zero_add]

theorem countP_picked (hallow : ∃ i, decisions i = .allow) {a k : Nat}
    (hwindow : a + k * u.addrs.length ≤ s.calls.length)
    (hdone : ∀ c ∈ (s.calls.drop a).take (k * u.addrs.length), ∃ result, c.scan = .done result)
    {i : Fin u.addrs.length} (hi : decisions i = .allow) :
    ((s.calls.drop a).take (k * u.addrs.length)).countP (fun c => picked c = some i) =
      k * (1 + rejectsBefore decisions i) := by
  have hat : At (fun j => decisions j = .allow) i.val := by
    rw [at_val]
    exact decide_eq_true hi
  rw [rejectsBefore, ← countP_ringDistance i.isLt (ringGap_lt i.isLt hat) a k,
    ← starts_window h hwindow, List.countP_map]
  apply List.countP_congr
  intro c hc
  obtain ⟨result, hresult⟩ := hdone c hc
  have hmem : c ∈ s.calls := List.mem_of_mem_drop (List.mem_of_mem_take hc)
  simpa [rejectsBefore] using picked_eq_some_iff (h.sound c hmem) hallow hresult hi

end Window

theorem rejectsBefore_eq_zero (hall : ∀ j, decisions j = .allow) (i : Fin u.addrs.length) :
    rejectsBefore decisions i = 0 :=
  ringGap_eq_zero i.isLt fun j hj => ⟨hj, decide_eq_true (hall ⟨j, hj⟩)⟩

end Clones

/--
Any rounds of consecutive calls, by whichever clones and interleaved in any
way: all succeed, and each backend that allows requests gets its own turns and
those of the rejecting backends right before it.  Calls in progress can always
finish.
-/
theorem round_robin_shares {ι : Type} (platform : Platform) (u : Upstream)
    (hpos : 0 < u.addrs.length) (decisions : Fin u.addrs.length → Decision)
    (hallow : ∃ i, decisions i = .allow) (s : Clones ι u)
    (hrun : Reachable (Clones.step platform hpos decisions) (Clones.CounterBelow platform)
      Clones.fresh s)
    (a k : Nat) (hwindow : a + k * u.addrs.length ≤ s.calls.length)
    (hdone : ∀ c ∈ (s.calls.drop a).take (k * u.addrs.length),
      ∃ result, c.scan = .done result) :
    let window := (s.calls.drop a).take (k * u.addrs.length)
    (∀ c ∈ window, ∃ i, decisions i = .allow ∧ c.scan = .done (some (u.addrs.get i, i))) ∧
    (∀ i, decisions i = .allow →
      window.countP (fun c => Clones.picked c = some i) =
        k * (1 + Clones.rejectsBefore decisions i)) ∧
    ((∀ j, decisions j = .allow) →
      ∀ i, window.countP (fun c => Clones.picked c = some i) = k) ∧
    ∃ s', Reachable (Clones.step platform hpos decisions) (Clones.CounterBelow platform) s s' ∧
      s'.calls.map PickCall.start = s.calls.map PickCall.start ∧
      ∀ c ∈ s'.calls, ∃ result, c.scan = .done result := by
  intro window
  have hinv := Clones.inv_of_reachable hrun
  have hcount : ∀ i, decisions i = .allow →
      window.countP (fun c => Clones.picked c = some i) =
        k * (1 + Clones.rejectsBefore decisions i) := fun i hi =>
    Clones.countP_picked hinv hallow hwindow hdone hi
  refine ⟨?_, hcount, ?_, Clones.exists_finished hinv⟩
  · intro c hc
    have hmem : c ∈ s.calls := List.mem_of_mem_drop (List.mem_of_mem_take hc)
    obtain ⟨result, hresult⟩ := hdone c hc
    obtain ⟨i, hhit, rfl, -⟩ := Clones.finished_of_sound (hinv.sound c hmem) hallow hresult
    exact ⟨i, Clones.decisions_of_hit hhit, hresult⟩
  · intro hall i
    rw [hcount i (hall i), Clones.rejectsBefore_eq_zero hall, Nat.add_zero, Nat.mul_one]

def threeBackends : Upstream := lastTurn [tripped, tripped, tripped] rfl

def secondRejects (i : Fin threeBackends.addrs.length) : Decision :=
  if i.val = 1 then .reject else .allow

def threeCalls : Clones Bool threeBackends :=
  (execute (Clones.step .concrete (by decide) secondRejects) (Clones.CounterBelow .concrete)
    Clones.fresh
    [.fetch true, .fetch false, .check 0, .fetch true, .check 1, .check 2, .check 1]).get
      (by decide)

theorem round_robin_shares_sample :
    threeCalls.calls.countP (fun c => Clones.picked c = some ⟨0, by decide⟩) = 1 ∧
      threeCalls.calls.countP (fun c => Clones.picked c = some ⟨2, by decide⟩) = 2 := by
  have hdone : ∀ c ∈ threeCalls.calls, ∃ result, c.scan = .done result := by
    have hcalls : threeCalls.calls =
        [⟨true, 0, .done (some (.v4 ⟨10, 0, 0, 1⟩ 80, ⟨0, by decide⟩))⟩,
          ⟨false, 1, .done (some (.v4 ⟨10, 0, 0, 3⟩ 80, ⟨2, by decide⟩))⟩,
          ⟨true, 2, .done (some (.v4 ⟨10, 0, 0, 3⟩ 80, ⟨2, by decide⟩))⟩] := rfl
    simp [hcalls]
  obtain ⟨-, hcount, -⟩ := round_robin_shares .concrete threeBackends (by decide) secondRejects
    ⟨⟨0, by decide⟩, by decide⟩ threeCalls
    (Reachable.of_execute Reachable.refl (Option.some_get _).symm) 0 1 (by decide) hdone
  exact ⟨hcount ⟨0, by decide⟩ (by decide), hcount ⟨2, by decide⟩ (by decide)⟩

end Upstream

end Conduit
