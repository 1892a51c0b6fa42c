import Conduit.Foundation.Gate
import Conduit.Upstream.Balance
import Conduit.Upstream.Forward
import Mathlib.Data.List.Perm.Basic

/-!
# Requests in flight

On one worker the calls of `forward` on a pool interleave at their awaits
only.  Each picks its backend in one piece and settles that backend's breaker
in another, if it settles it at all.  The file bounds the requests that a dead
backend is sent, by refining the run to that of a `Gate`, and says when a
backend that has recovered is back in the ring.
-/

namespace Conduit

open Foundation

structure Traffic where
  pool : Upstream
  now : Nat
  inflight : List Nat := []
  picks : List Nat := []

namespace Traffic

inductive Action where
  | tick (elapsed : Nat)
  | pick
  | settle (call : Nat) (outcome : Option Bool)
  deriving DecidableEq, Repr

variable (platform : Platform)

def picked (s : Traffic) : List Nat :=
  ((s.pool.pickAddr platform s.now).map fun p => p.2.val).toList

def step (s : Traffic) : Action → Option Traffic
  | .tick elapsed => some { s with now := s.now + elapsed }
  | .pick =>
      some { s with
        pool := s.pool.advance platform
        inflight := s.picked platform ++ s.inflight
        picks := s.picked platform ++ s.picks }
  | .settle call outcome =>
      s.inflight[call]?.map fun i =>
        { s with
          pool := s.pool.observe (outcome.map (i, ·)) s.now
          inflight := s.inflight.eraseIdx call }

variable {platform}

/-! ## One call -/

theorem recorded_fst {B : Type} {u : Upstream} {req : Request} {script : Script B} {j : Nat}
    {success : Bool} (h : u.recorded platform req script = some (j, success)) :
    ∃ addr i, u.pickAddr platform script.pickedAt = some (addr, i) ∧ j = i.val := by
  unfold Upstream.recorded at h
  split at h
  · cases h
  · rename_i i out hout
    obtain ⟨outcome, -, heq⟩ := Option.map_eq_some_iff.mp h
    cases heq
    unfold Upstream.outbound at hout
    split at hout
    · cases hout
    · rename_i addr k hpick
      dsimp only at hout
      split at hout
      · cases hout
      · split at hout <;> cases hout
        exact ⟨addr, i, hpick, rfl⟩

theorem forward_is_run {B : Type} (u : Upstream) (req : Request) (readTimeout : Duration)
    (script : Script B) (horder : script.pickedAt ≤ script.settledAt) :
    ∃ s, Reachable (step platform) (fun _ _ => True) ⟨u, script.pickedAt, [], []⟩ s ∧
      s.pool = (u.forward platform req readTimeout script).upstream ∧ s.inflight = [] := by
  rw [Upstream.forward_observe]
  cases hbackend : u.pickAddr platform script.pickedAt with
  | none =>
      have hrecorded : u.recorded platform req script = none := by
        cases hcall : u.recorded platform req script with
        | none => rfl
        | some call =>
            obtain ⟨addr, i, hsome, -⟩ := recorded_fst hcall
            rw [hbackend] at hsome
            cases hsome
      have hpick : step platform ⟨u, script.pickedAt, [], []⟩ .pick =
          some ⟨u.advance platform, script.pickedAt, [], []⟩ := by
        simp [step, picked, hbackend]
      rw [hrecorded]
      exact ⟨_, Reachable.refl.tail trivial hpick, rfl, rfl⟩
  | some backend =>
      obtain ⟨addr, i⟩ := backend
      have hcall : ((u.recorded platform req script).map Prod.snd).map (i.val, ·) =
          u.recorded platform req script := by
        cases hcall : u.recorded platform req script with
        | none => rfl
        | some call =>
            obtain ⟨addr', i', hsome, hfst⟩ := recorded_fst hcall
            rw [hbackend] at hsome
            cases hsome
            simp [← hfst]
      have hpick : step platform ⟨u, script.pickedAt, [], []⟩ .pick =
          some ⟨u.advance platform, script.pickedAt, [i.val], [i.val]⟩ := by
        simp [step, picked, hbackend]
      have htick : step platform ⟨u.advance platform, script.pickedAt, [i.val], [i.val]⟩
          (.tick (script.settledAt - script.pickedAt)) =
          some ⟨u.advance platform, script.settledAt, [i.val], [i.val]⟩ := by
        simp [step, Nat.add_sub_cancel' horder]
      have hsettle : step platform ⟨u.advance platform, script.settledAt, [i.val], [i.val]⟩
          (.settle 0 ((u.recorded platform req script).map Prod.snd)) =
          some ⟨(u.advance platform).observe (u.recorded platform req script) script.settledAt,
            script.settledAt, [], [i.val]⟩ := by
        simp only [step, List.getElem?_cons_zero, Option.map_some, hcall]
        rfl
      exact ⟨_, ((Reachable.refl.tail trivial hpick).tail trivial htick).tail trivial hsettle,
        rfl, rfl⟩

/-! ## A backend on which every call fails -/

section Dead

variable (platform) in
/-- Every call on backend `i` is recorded as a failure, at most `limit` at a time. -/
structure Dead (i limit : Nat) (s : Traffic) (a : Action) : Prop where
  fails : ∀ call outcome, a = .settle call outcome → s.inflight[call]? = some i →
    outcome = some false
  limited : a = .pick → i ∈ s.picked platform → s.inflight.count i < limit

theorem dead_iff {i limit : Nat} {s : Traffic} {a : Action} :
    Dead platform i limit s a ↔
      match a with
      | .tick _ => True
      | .pick => i ∈ s.picked platform → s.inflight.count i < limit
      | .settle call outcome => s.inflight[call]? = some i → outcome = some false := by
  constructor
  · intro h
    cases a with
    | tick elapsed => trivial
    | pick => exact h.limited rfl
    | settle call outcome => exact h.fails call outcome rfl
  · intro h
    cases a with
    | tick elapsed => exact ⟨by simp, by simp⟩
    | pick => exact ⟨by simp, fun _ => h⟩
    | settle call outcome =>
        refine ⟨fun call' outcome' heq => ?_, by simp⟩
        cases heq
        exact h

instance (i limit : Nat) (s : Traffic) (a : Action) : Decidable (Dead platform i limit s a) :=
  match a with
  | .tick _ => decidable_of_iff True (dead_iff (a := .tick _)).symm
  | .pick => decidable_of_iff (i ∈ s.picked platform → s.inflight.count i < limit)
      (dead_iff (a := .pick)).symm
  | .settle call outcome =>
      decidable_of_iff (s.inflight[call]? = some i → outcome = some false)
        (dead_iff (a := .settle call outcome)).symm

/-- What the gate of backend `i` stands for. -/
structure Gated (i : Nat) (b₀ : Breaker) (s : Traffic) (g : Gate) : Prop where
  breaker : ∃ b, s.pool.breakers[i]? = some b ∧ b.threshold = b₀.threshold ∧
    b.cooldownMs = b₀.cooldownMs ∧ b.anchor = b₀.anchor ∧ b.failures = g.failures ∧
    (b₀.threshold ≤ g.failures → b.openUntilMs = g.last + b₀.cooldownMs)
  now : g.now = b₀.nowMs s.now
  outstanding : g.outstanding = s.inflight.count i
  admitted : g.admitted = s.picks.count i

variable {i limit : Nat} {b₀ : Breaker} {s s' : Traffic} {g : Gate}

theorem nowMs_mono (b : Breaker) {t t' : Nat} (h : t ≤ t') : b.nowMs t ≤ b.nowMs t' := by
  have hdiv : (t - b.anchor) / 1000000 ≤ (t' - b.anchor) / 1000000 :=
    Nat.div_le_div_right (by omega)
  simp only [Breaker.nowMs, Duration.asMillis]
  omega

theorem nowMs_congr {b b' : Breaker} (h : b.anchor = b'.anchor) (t : Nat) :
    b.nowMs t = b'.nowMs t := by
  rw [Breaker.nowMs, Breaker.nowMs, h]

theorem open_of_allow {b : Breaker} {now : Nat} (hthreshold : b.threshold ≠ 0)
    (h : b.check now = .allow) :
    b.failures < b.threshold ∨ b.openUntilMs = 0 ∨ b.openUntilMs ≤ now := by
  unfold Breaker.check at h
  rw [if_neg hthreshold] at h
  split at h
  · exact .inl ‹_›
  · split at h
    · exact .inr ‹_›
    · cases h

theorem onFailure_within {b : Breaker} (now : Nat) (hthreshold : b.threshold ≠ 0)
    (hfailures : b.failures + 1 < 2 ^ 32) (hclock : now + b.cooldownMs < 2 ^ 64) :
    (b.onFailure now).failures = b.failures + 1 ∧
      (b.threshold ≤ b.failures + 1 → (b.onFailure now).openUntilMs = now + b.cooldownMs) := by
  have hsucc : wrappingSucc32 b.failures = b.failures + 1 := Nat.mod_eq_of_lt hfailures
  have hsat : saturatingSucc32 b.failures = b.failures + 1 := by
    unfold saturatingSucc32 u32Max
    omega
  have hadd : saturatingAdd64 now b.cooldownMs = now + b.cooldownMs := by
    unfold saturatingAdd64 u64Max
    omega
  rw [Breaker.onFailure_eq b now hthreshold]
  refine ⟨hsucc, fun htripped => ?_⟩
  dsimp only
  rw [hsat, if_pos htripped, hadd]

theorem observe_breaker_ne {u : Upstream} {j : Nat} (hne : j ≠ i) (outcome : Option Bool)
    (now : Nat) : (u.observe (outcome.map (j, ·)) now).breakers[i]? = u.breakers[i]? := by
  cases outcome with
  | none => rfl
  | some success =>
      simp only [Option.map_some, Upstream.observe, Upstream.observeBreakerOutcome]
      split
      · rfl
      · exact List.getElem?_set_ne hne

theorem Gated.tick (h : Gated i b₀ s g) (elapsed : Nat) :
    Gated i b₀ { s with now := s.now + elapsed }
      { g with now := g.now + (b₀.nowMs (s.now + elapsed) - b₀.nowMs s.now) } := by
  have hle := nowMs_mono b₀ (Nat.le_add_right s.now elapsed)
  have hnow := h.now
  exact ⟨h.breaker, by dsimp only; omega, h.outstanding, h.admitted⟩

theorem mem_picked_allows (h : i ∈ s.picked platform) {b : Breaker}
    (hb : s.pool.breakers[i]? = some b) : b.check (b.nowMs s.now) = .allow := by
  obtain ⟨⟨addr, j⟩, hpick, rfl⟩ := Option.map_eq_some_iff.mp (Option.mem_toList.mp h)
  rw [Upstream.getElem?_breakers] at hb
  cases hb
  exact of_decide_eq_true (Upstream.pickAddr_eq_some hpick).2

theorem count_picked_append (platform : Platform) (s : Traffic) (i : Nat) (calls : List Nat) :
    (s.picked platform ++ calls).count i =
      (if i ∈ s.picked platform then 1 else 0) + calls.count i := by
  rw [List.count_append]
  unfold picked
  cases s.pool.pickAddr platform s.now with
  | none => simp
  | some backend =>
      by_cases hi : i = backend.2.val
      · simp [hi]
      · simp [hi, Ne.symm hi]

theorem Gated.pick (h : Gated i b₀ s g) (hthreshold : 1 ≤ b₀.threshold)
    (hcooldown : 1 ≤ b₀.cooldownMs) (hdead : Dead platform i limit s .pick)
    (hstep : step platform s .pick = some s') :
    Gated i b₀ s' g ∨ ∃ g', g.step b₀.threshold b₀.cooldownMs limit .enter = some g' ∧
      Gated i b₀ s' g' := by
  cases hstep
  obtain ⟨b, hb, hbthreshold, hbcooldown, hbanchor, hbfailures, hbopen⟩ := h.breaker
  have hbreaker : (s.pool.advance platform).breakers[i]? = some b := by
    rw [Upstream.advance_breakers, hb]
  have hcount := count_picked_append platform s i
  by_cases hpick : i ∈ s.picked platform
  · have hopen : g.failures < b₀.threshold ∨ g.last + b₀.cooldownMs ≤ g.now := by
      by_cases htripped : b₀.threshold ≤ g.failures
      · have hallow := open_of_allow (by omega) (mem_picked_allows hpick hb)
        have huntil := hbopen htripped
        have hclock := nowMs_congr hbanchor s.now
        have hnow := h.now
        omega
      · exact .inl (Nat.lt_of_not_le htripped)
    have hlimit : g.outstanding < limit := h.outstanding ▸ hdead.limited rfl hpick
    refine .inr ⟨_, Gate.step_enter hopen hlimit,
      ⟨b, hbreaker, hbthreshold, hbcooldown, hbanchor, hbfailures, hbopen⟩, h.now, ?_, ?_⟩
    · have houtstanding := h.outstanding
      rw [hcount, if_pos hpick]
      dsimp only
      omega
    · have hadmitted := h.admitted
      rw [hcount, if_pos hpick]
      dsimp only
      omega
  · refine .inl ⟨⟨b, hbreaker, hbthreshold, hbcooldown, hbanchor, hbfailures, hbopen⟩, h.now,
      ?_, ?_⟩
    · rw [hcount, if_neg hpick, Nat.zero_add, h.outstanding]
    · rw [hcount, if_neg hpick, Nat.zero_add, h.admitted]

theorem Gated.settle (h : Gated i b₀ s g) (hthreshold : 1 ≤ b₀.threshold)
    (hfew : 0 < g.outstanding → g.failures + 1 < 2 ^ 32)
    (hclock : g.now + b₀.cooldownMs < 2 ^ 64) {call : Nat} {outcome : Option Bool}
    (hdead : Dead platform i limit s (.settle call outcome))
    (hstep : step platform s (.settle call outcome) = some s') :
    Gated i b₀ s' g ∨ ∃ g', g.step b₀.threshold b₀.cooldownMs limit .fail = some g' ∧
      Gated i b₀ s' g' := by
  obtain ⟨j, hj, rfl⟩ := Option.map_eq_some_iff.mp hstep
  obtain ⟨b, hb, hbthreshold, hbcooldown, hbanchor, hbfailures, hbopen⟩ := h.breaker
  obtain ⟨hlt, hget⟩ := List.getElem?_eq_some_iff.mp hj
  have hcount : (s.inflight.eraseIdx call).count i + (if j = i then 1 else 0) =
      s.inflight.count i := by
    have hperm := List.getElem_cons_eraseIdx_perm hlt
    rw [hget] at hperm
    rw [← hperm.count_eq i, List.count_cons]
    simp
  by_cases hji : j = i
  · subst hji
    rw [if_pos rfl] at hcount
    have houtstanding := h.outstanding
    have hnow := h.now
    have hclock' := nowMs_congr hbanchor s.now
    have hlater := hfew (by omega)
    obtain ⟨hfailures, huntil⟩ :=
      onFailure_within (b.nowMs s.now) (by omega) (hbfailures ▸ hlater) (by omega)
    rw [hdead.fails call outcome rfl hj]
    refine .inr ⟨_, Gate.step_fail (by omega), ⟨b.onFailure (b.nowMs s.now),
      Upstream.observeBreakerOutcome_failure hb s.now, ?_, ?_, ?_, ?_, ?_⟩, h.now, ?_, h.admitted⟩
    · rw [Breaker.onFailure_threshold, hbthreshold]
    · rw [Breaker.onFailure_cooldownMs, hbcooldown]
    · rw [Breaker.onFailure_anchor, hbanchor]
    · rw [hfailures, hbfailures]
    · intro htripped
      rw [huntil (by dsimp only at htripped; omega), hclock', hbcooldown, ← h.now]
    · dsimp only
      omega
  · refine .inl ⟨⟨b, ?_, hbthreshold, hbcooldown, hbanchor, hbfailures, hbopen⟩, h.now, ?_,
      h.admitted⟩
    · dsimp only
      rw [observe_breaker_ne hji, hb]
    · rw [if_neg hji, Nat.add_zero] at hcount
      rw [h.outstanding, hcount]

/--
Neither the failure counter nor the clock of the breaker comes to its end: the
backend has been picked too few times, and it is too early.
-/
structure Within (i : Nat) (b₀ : Breaker) (s : Traffic) : Prop where
  picks : s.picks.count i < 2 ^ 32
  clock : b₀.nowMs s.now + b₀.cooldownMs < 2 ^ 64

end Dead

section Healthy

/-- Every call on backend `i` is recorded as a success; nothing is said of the others. -/
def Healthy (i : Nat) (s : Traffic) (a : Action) : Prop :=
  ∀ call outcome, a = .settle call outcome → s.inflight[call]? = some i → outcome = some true

theorem check_mono {b : Breaker} {t t' : Nat} (hle : t ≤ t') (h : b.check t = .allow) :
    b.check t' = .allow := by
  unfold Breaker.check at h ⊢
  split_ifs at h ⊢ with hzero hfew hdue hdue'
  · rfl
  · rfl
  · rfl
  · omega

theorem check_onSuccess (b : Breaker) (t : Nat) : b.onSuccess.check t = .allow := by
  unfold Breaker.check Breaker.onSuccess
  split_ifs <;> simp_all

theorem snapshot_onSuccess (b : Breaker) (t : Nat) : b.onSuccess.snapshot t = .closed := by
  rw [Breaker.snapshot_eq_closed_iff, Breaker.onSuccess_threshold]
  unfold Breaker.onSuccess
  split
  · exact .inl ‹_›
  · exact .inr (Nat.pos_of_ne_zero ‹_›)

theorem observe_breaker_success {u : Upstream} {i : Nat} {b : Breaker}
    (hb : u.breakers[i]? = some b) (now : Nat) :
    (u.observe (some (i, true)) now).breakers[i]? = some b.onSuccess := by
  obtain ⟨hlt, rfl⟩ := List.getElem?_eq_some_iff.mp hb
  simp [Upstream.observe, Upstream.observeBreakerOutcome, Upstream.setBreaker, hlt]

/-- After `turns` more picks, whether or not each of them has found a backend. -/
structure Rejoining (platform : Platform) (i : Nat) (s₀ : Traffic) (turns : Nat) (s : Traffic) :
    Prop where
  addrs : s.pool.addrs = s₀.pool.addrs
  picks_le : s.picks.length ≤ s₀.picks.length + turns
  count_le : s₀.picks.count i ≤ s.picks.count i
  counter : s.pool.next % 2 ^ platform.usizeBits =
    (s₀.pool.next + turns) % 2 ^ platform.usizeBits
  allows : ∃ b, s.pool.breakers[i]? = some b ∧ b.check (b.nowMs s.now) = .allow
  served : ∀ k < turns,
    wrappedOrder (2 ^ platform.usizeBits) s₀.pool.addrs.length s₀.pool.next k = i →
      s₀.picks.count i < s.picks.count i ∧
        (i ∈ s.inflight ∨ ∃ b, s.pool.breakers[i]? = some b ∧ ∀ t, b.snapshot t = .closed)

variable {i turns : Nat} {s₀ s s' : Traffic}

theorem Rejoining.tick (h : Rejoining platform i s₀ turns s) (elapsed : Nat) :
    Rejoining platform i s₀ turns { s with now := s.now + elapsed } := by
  obtain ⟨b, hb, hallow⟩ := h.allows
  exact { h with
    allows := ⟨b, hb, check_mono (nowMs_mono b (Nat.le_add_right _ _)) hallow⟩ }

theorem mem_picked_of_turn (h : Rejoining platform i s₀ turns s)
    (hturn : wrappedOrder (2 ^ platform.usizeBits) s₀.pool.addrs.length s₀.pool.next turns = i) :
    i ∈ s.picked platform := by
  obtain ⟨b, hb, hallow⟩ := h.allows
  obtain ⟨hlt, hget⟩ := List.getElem?_eq_some_iff.mp hb
  have hpos : 0 < s.pool.addrs.length := by
    have hlength := s.pool.length_breakers
    omega
  have hslot : (s.pool.slot platform hpos 0).val = i := by
    rw [← hturn, wrappedOrder, ← h.addrs]
    show (s.pool.next + 0) % 2 ^ platform.usizeBits % s.pool.addrs.length = _
    rw [Nat.add_zero, h.counter]
  have hfirst : s.pool.allows s.now (s.pool.slot platform hpos 0) = true := by
    have hbreaker := s.pool.getElem?_breakers (s.pool.slot platform hpos 0)
    rw [hslot, hb] at hbreaker
    rw [Upstream.allows, ← Option.some.inj hbreaker]
    exact decide_eq_true hallow
  unfold picked
  rw [Upstream.pickAddr_first platform s.now hpos hfirst]
  simp [hslot]

theorem Rejoining.pick (h : Rejoining platform i s₀ turns s)
    (hstep : step platform s .pick = some s') : Rejoining platform i s₀ (turns + 1) s' := by
  cases hstep
  have hlength : (s.picked platform).length ≤ 1 := by
    unfold picked
    cases s.pool.pickAddr platform s.now <;> simp
  have hpicks := h.picks_le
  have hcount := h.count_le
  obtain ⟨b, hb, hallow⟩ := h.allows
  have hbreaker : (s.pool.advance platform).breakers[i]? = some b := by
    rw [Upstream.advance_breakers, hb]
  have hne : s.pool.addrs ≠ [] := by
    have hlt := (List.getElem?_eq_some_iff.mp hb).1
    rw [s.pool.length_breakers] at hlt
    exact List.ne_nil_of_length_pos (by omega)
  refine ⟨?_, ?_, ?_, ?_, ⟨b, hbreaker, hallow⟩, ?_⟩
  · rw [← h.addrs]
    exact congrArg Upstream.Fixed.addrs (Upstream.fixed_advance platform s.pool)
  · rw [List.length_append]
    omega
  · rw [List.count_append]
    omega
  · rw [Upstream.advance_next hne, Nat.mod_mod, Nat.add_mod, h.counter, ← Nat.add_mod,
      Nat.add_assoc]
  · intro k hk hturn
    rw [List.count_append]
    by_cases hlast : k = turns
    · subst hlast
      have hmem := mem_picked_of_turn h hturn
      have hone := List.count_pos_iff.mpr hmem
      exact ⟨by omega, .inl (List.mem_append_left _ hmem)⟩
    · obtain ⟨hmore, hserved⟩ := h.served k (by omega) hturn
      refine ⟨by omega, hserved.imp (List.mem_append_right _) ?_⟩
      rintro ⟨b', hb', hclosed⟩
      exact ⟨b', by rw [Upstream.advance_breakers, hb'], hclosed⟩

theorem Rejoining.settle (h : Rejoining platform i s₀ turns s) {call : Nat}
    {outcome : Option Bool} (hhealthy : Healthy i s (.settle call outcome))
    (hstep : step platform s (.settle call outcome) = some s') :
    Rejoining platform i s₀ turns s' := by
  obtain ⟨j, hj, rfl⟩ := Option.map_eq_some_iff.mp hstep
  obtain ⟨b, hb, hallow⟩ := h.allows
  have haddrs : (s.pool.observe (outcome.map (j, ·)) s.now).addrs = s₀.pool.addrs := by
    rw [← h.addrs]
    cases outcome with
    | none => rfl
    | some success =>
        exact congrArg Upstream.Fixed.addrs
          (Upstream.fixed_observeBreakerOutcome s.pool (some j) success s.now)
  have hnext : (s.pool.observe (outcome.map (j, ·)) s.now).next = s.pool.next := by
    cases outcome with
    | none => rfl
    | some success =>
        simp only [Option.map_some, Upstream.observe, Upstream.observeBreakerOutcome]
        split <;> rfl
  by_cases hji : j = i
  · subst hji
    rw [hhealthy call outcome rfl hj] at haddrs hnext ⊢
    have hreset := observe_breaker_success hb s.now
    exact { h with
      addrs := haddrs
      counter := hnext ▸ h.counter
      allows := ⟨_, hreset, check_onSuccess b _⟩
      served := fun k hk hturn =>
        ⟨(h.served k hk hturn).1, .inr ⟨_, hreset, snapshot_onSuccess b⟩⟩ }
  · have hsame := observe_breaker_ne (i := i) (u := s.pool) hji outcome s.now
    refine { h with
      addrs := haddrs
      counter := hnext ▸ h.counter
      allows := ⟨b, hsame.trans hb, hallow⟩
      served := fun k hk hturn => ?_ }
    obtain ⟨hmore, hserved⟩ := h.served k hk hturn
    refine ⟨hmore, hserved.imp ?_ ?_⟩
    · intro hmem
      obtain ⟨hlt, hget⟩ := List.getElem?_eq_some_iff.mp hj
      have hperm := List.getElem_cons_eraseIdx_perm hlt
      rw [hget] at hperm
      rcases List.mem_cons.mp (hperm.mem_iff.mpr hmem) with heq | hrest
      · exact absurd heq.symm hji
      · exact hrest
    · rintro ⟨b', hb', hclosed⟩
      exact ⟨b', hsame.trans hb', hclosed⟩

theorem exists_rejoining {b : Breaker} (hb : s₀.pool.breakers[i]? = some b)
    (hallow : b.check (b.nowMs s₀.now) = .allow)
    (h : Reachable (step platform) (Healthy i) s₀ s) :
    ∃ turns, Rejoining platform i s₀ turns s := by
  apply h.invariant (fun s => ∃ turns, Rejoining platform i s₀ turns s)
  · exact ⟨0, rfl, Nat.le_refl _, Nat.le_refl _, rfl, ⟨b, hb, hallow⟩, fun _ hk => by omega⟩
  · rintro s a s' ⟨turns, hrejoining⟩ hhealthy hstep
    cases a with
    | tick elapsed =>
        cases hstep
        exact ⟨turns, hrejoining.tick elapsed⟩
    | pick => exact ⟨turns + 1, hrejoining.pick hstep⟩
    | settle call outcome => exact ⟨turns, hrejoining.settle hhealthy hstep⟩

end Healthy

/--
A backend on which calls succeed again is back as soon as its breaker stops
rejecting: two rounds of picks send it a request, whatever the others do and
wherever the counter stands, and once its calls have ended its breaker is
closed.
-/
theorem recovered_backend_rejoins (platform : Platform) (s₀ s : Traffic) (i : Nat) (b : Breaker)
    (hb : s₀.pool.breakers[i]? = some b) (hallow : b.check (b.nowMs s₀.now) = .allow)
    (hfit : 2 * s₀.pool.addrs.length ≤ 2 ^ platform.usizeBits)
    (h : Reachable (step platform) (Healthy i) s₀ s)
    (hpicks : s₀.picks.length + 2 * s₀.pool.addrs.length ≤ s.picks.length) :
    s₀.picks.count i < s.picks.count i ∧
      (i ∉ s.inflight → ∀ b, s.pool.breakers[i]? = some b →
        b.snapshot (b.nowMs s.now) = .closed) := by
  obtain ⟨turns, hrejoining⟩ := exists_rejoining hb hallow h
  have hi : i < s₀.pool.addrs.length := by
    rw [← s₀.pool.length_breakers]
    exact (List.getElem?_eq_some_iff.mp hb).1
  have hturns := hrejoining.picks_le
  obtain ⟨k, hk, hturn⟩ := exists_turn s₀.pool.next hfit hi
  obtain ⟨hmore, hserved⟩ := hrejoining.served k (by omega) hturn
  refine ⟨hmore, fun hended b' hb' => ?_⟩
  rcases hserved with hmem | ⟨b'', hb'', hclosed⟩
  · exact absurd hmem hended
  · rw [hb'] at hb''
    cases hb''
    exact hclosed _

def recovering : Traffic where
  pool := .lastTurn [Upstream.tripped, Breaker.new {} 0, Breaker.new {} 0] rfl
  now := 2000000000

def recovered : Traffic :=
  (execute (step .concrete) (fun _ a => a = .pick ∨ a = .settle 0 (some true)) recovering
    (List.replicate 6 .pick ++ List.replicate 6 (.settle 0 (some true)))).get (by decide)

theorem recovered_backend_rejoins_sample :
    Reachable (step .concrete) (Healthy 0) recovering recovered ∧
      recovering.picks.count 0 < recovered.picks.count 0 ∧
      ∀ b, recovered.pool.breakers[0]? = some b →
        b.snapshot (b.nowMs recovered.now) = .closed := by
  have hreach : Reachable (step .concrete) (Healthy 0) recovering recovered := by
    apply Reachable.mono (Reachable.of_execute Reachable.refl (Option.some_get _).symm)
    rintro s a (rfl | rfl) call outcome heq -
    · cases heq
    · cases heq
      rfl
  obtain ⟨hmore, hclosed⟩ := recovered_backend_rejoins .concrete recovering recovered 0
    Upstream.tripped rfl (by decide) (by decide) hreach (by decide)
  exact ⟨hreach, hmore, hclosed (by decide)⟩

end Traffic

end Conduit
