import Conduit.Foundation.Transition
import Mathlib.Logic.Function.Basic

/-!
# Shutting down the TLS and QUIC planes

`run_https` and `run_h3` spawn one accept loop per listener and return when
these have ended.  The tasks of the connections are detached: the end of the
runtime, and for QUIC the close of the endpoint, cuts off whatever they are
still handling.
-/

namespace Conduit

open Foundation

namespace Secure

inductive Kind where
  | https
  | h3
  deriving DecidableEq, Repr

structure Spec where
  kind : Kind
  listeners : Nat
  deriving DecidableEq, Repr

inductive Phase where
  | starting
  | running
  | returned
  deriving DecidableEq, Repr

inductive Loop where
  | top
  | accepting
  | closing
  | exited
  deriving DecidableEq, Repr

def Loop.left : Loop → Bool
  | .closing | .exited => true
  | .top | .accepting => false

/-- A connection task, with the requests it is handling. -/
structure Conn where
  listener : Nat
  established : Bool := false
  ended : Bool := false
  early : Nat := 0
  late : Nat := 0
  deriving DecidableEq, Repr

def Conn.end (c : Conn) : Conn := { c with ended := true, early := 0, late := 0 }

structure State where
  phase : Phase
  cancel : Bool
  loops : Nat → Loop
  lost : Nat → Bool
  conns : Nat → Conn
  spawned : Nat
  cut : Bool

def initial : State where
  phase := .starting
  cancel := false
  loops _ := .top
  lost _ := false
  conns _ := { listener := 0, ended := true }
  spawned := 0
  cut := false

inductive Accepted where
  | stream
  | again
  | gone
  deriving DecidableEq, Repr

inductive Action where
  | start
  | fail
  | cancel
  | turn (i : Nat) (outcome : Accepted)
  | lose (i : Nat)
  | establish (c : Nat)
  | begin_ (c : Nat)
  | finishEarly (c : Nat)
  | finishLate (c : Nat)
  | disconnect (c : Nat)
  | return_
  deriving DecidableEq, Repr

namespace State

def setLoop (s : State) (i : Nat) (loop : Loop) : State :=
  { s with loops := Function.update s.loops i loop }

def setConn (s : State) (c : Nat) (conn : Conn) : State :=
  { s with conns := Function.update s.conns c conn }

def handles (s : State) (which : Conn → Bool) : Bool :=
  (List.range s.spawned).any fun c => which (s.conns c) && 0 < (s.conns c).early

def endConns (s : State) (which : Conn → Bool) : State :=
  { s with conns := fun c => if which (s.conns c) then (s.conns c).end else s.conns c }

def cutOff (s : State) (which : Conn → Bool) : State :=
  { s.endConns which with cut := s.cut || s.handles which }

def spawn (s : State) (i : Nat) : State :=
  { s.setConn s.spawned { listener := i } with spawned := s.spawned + 1 }

def turn (spec : Spec) (s : State) (i : Nat) (outcome : Accepted) : Option State :=
  match s.loops i with
  | .top =>
      let out := match spec.kind with
        | .https => Loop.exited
        | .h3 => .closing
      some (s.setLoop i (if s.cancel then out else .accepting))
  | .accepting =>
      match outcome with
      | .stream => if s.lost i then none else some ((s.spawn i).setLoop i .top)
      | .again => some (s.setLoop i .top)
      -- `Endpoint::accept` ends with its endpoint; a TCP listener has no end.
      | .gone => if spec.kind = .h3 ∧ s.lost i then some (s.setLoop i .closing) else none
  | .closing => some ((s.cutOff (·.listener = i)).setLoop i .exited)
  | .exited => none

def onConn (s : State) (c : Nat) (update : Conn → Option Conn) : Option State :=
  if c < s.spawned ∧ (s.conns c).ended = false then
    (update (s.conns c)).map (s.setConn c)
  else none

end State

def step (spec : Spec) (s : State) (a : Action) : Option State :=
  match s.phase, a with
  | .starting, .start => some { s with phase := .running }
  | .starting, .fail => some { s with phase := .returned }
  | _, .cancel => some { s with cancel := true }
  | .running, .turn i outcome => if i < spec.listeners then s.turn spec i outcome else none
  | .running, .lose i =>
      if spec.kind = .h3 then
        some ({ s with lost := Function.update s.lost i true }.endConns (·.listener = i))
      else none
  | .running, .establish c => s.onConn c fun conn => some { conn with established := true }
  | .running, .begin_ c =>
      s.onConn c fun conn =>
        if conn.established then
          some (if s.cancel then { conn with late := conn.late + 1 }
            else { conn with early := conn.early + 1 })
        else none
  | .running, .finishEarly c =>
      s.onConn c fun conn =>
        if 0 < conn.early then some { conn with early := conn.early - 1 } else none
  | .running, .finishLate c =>
      s.onConn c fun conn =>
        if 0 < conn.late then some { conn with late := conn.late - 1 } else none
  | .running, .disconnect c => s.onConn c fun conn => some conn.end
  | .running, .return_ =>
      if ∀ i < spec.listeners, s.loops i = .exited then
        some { s.cutOff (fun _ => true) with phase := .returned }
      else none
  | _, _ => none

/--
A loop that finds `cancel` set has no connection that is still handling a
request begun before.
-/
def Settled (s : State) : Action → Prop
  | .turn i _ => s.loops i = .top → s.cancel = true → s.handles (·.listener = i) = false
  | _ => True

instance (s : State) (a : Action) : Decidable (Settled s a) :=
  match a with
  | .turn i _ => inferInstanceAs (Decidable (s.loops i = .top → s.cancel = true →
      s.handles (·.listener = i) = false))
  | .start | .fail | .cancel | .lose _ | .establish _ | .begin_ _ | .finishEarly _
  | .finishLate _ | .disconnect _ | .return_ => isTrue trivial

/-! ## What settled runs keep -/

structure Inv (spec : Spec) (s : State) : Prop where
  clean : s.cut = false
  fresh : ∀ c, s.spawned ≤ c → (s.conns c).early = 0
  owned : ∀ c, c < s.spawned → (s.conns c).listener < spec.listeners
  dead : ∀ c, s.lost (s.conns c).listener = true →
    (s.conns c).early = 0 ∧ (s.conns c).ended = true
  settled : ∀ c, (s.loops (s.conns c).listener).left = true →
    (s.conns c).early = 0 ∧ (s.cancel = true ∨ (s.conns c).ended = true)

variable {spec : Spec} {s s' : State}

theorem Inv.initial (spec : Spec) : Inv spec initial := by
  refine ⟨rfl, fun _ _ => rfl, fun c hc => absurd hc c.not_lt_zero, ?_, ?_⟩
  · intro c hlost
    cases hlost
  · intro c hleft
    cases hleft

theorem handles_eq_false_iff {which : Conn → Bool} :
    s.handles which = false ↔
      ∀ c < s.spawned, which (s.conns c) = true → (s.conns c).early = 0 := by
  simp [State.handles]

theorem Inv.setLoop (h : Inv spec s) {i : Nat} {loop : Loop}
    (hleft : loop.left = true → ∀ c, (s.conns c).listener = i →
      (s.conns c).early = 0 ∧ (s.cancel = true ∨ (s.conns c).ended = true)) :
    Inv spec (s.setLoop i loop) := by
  refine ⟨h.clean, h.fresh, h.owned, h.dead, ?_⟩
  intro c hc
  replace hc : (Function.update s.loops i loop (s.conns c).listener).left = true := hc
  by_cases hlistener : (s.conns c).listener = i
  · rw [hlistener, Function.update_self] at hc
    exact hleft hc c hlistener
  · rw [Function.update_of_ne hlistener] at hc
    exact h.settled c hc

theorem Inv.endConns (h : Inv spec s) (which : Conn → Bool) : Inv spec (s.endConns which) := by
  have hend : ∀ c, ((s.endConns which).conns c).listener = (s.conns c).listener ∧
      ((s.conns c).early = 0 → ((s.endConns which).conns c).early = 0) ∧
      ((s.conns c).ended = true → ((s.endConns which).conns c).ended = true) := by
    intro c
    simp only [State.endConns]
    split <;> simp [Conn.end]
  refine ⟨h.clean, fun c hc => (hend c).2.1 (h.fresh c hc), ?_, ?_, ?_⟩
  · intro c hc
    rw [(hend c).1]
    exact h.owned c hc
  · intro c hlost
    rw [(hend c).1] at hlost
    obtain ⟨hearly, hended⟩ := h.dead c hlost
    exact ⟨(hend c).2.1 hearly, (hend c).2.2 hended⟩
  · intro c hleft
    rw [(hend c).1] at hleft
    obtain ⟨hearly, hcancel⟩ := h.settled c hleft
    exact ⟨(hend c).2.1 hearly, hcancel.imp_right (hend c).2.2⟩

theorem Inv.cutOff (h : Inv spec s) {which : Conn → Bool} (hnone : s.handles which = false) :
    Inv spec (s.cutOff which) := by
  have hends := h.endConns which
  refine ⟨?_, hends.fresh, hends.owned, hends.dead, hends.settled⟩
  show (s.cut || s.handles which) = false
  rw [h.clean, hnone]
  rfl

theorem Inv.lose (h : Inv spec s) (i : Nat) :
    Inv spec ({ s with lost := Function.update s.lost i true }.endConns (·.listener = i)) := by
  have hends := h.endConns (·.listener = i)
  refine ⟨hends.clean, hends.fresh, hends.owned, ?_, hends.settled⟩
  intro c hlost
  by_cases hlistener : (s.conns c).listener = i
  · simp [State.endConns, hlistener, Conn.end]
  · simp only [State.endConns, hlistener, decide_false, Bool.false_eq_true, if_false] at hlost ⊢
    rw [Function.update_of_ne hlistener] at hlost
    exact h.dead c hlost

theorem Inv.spawn (h : Inv spec s) {i : Nat} (hi : i < spec.listeners)
    (hlost : s.lost i = false) (hloop : s.loops i = .accepting) : Inv spec (s.spawn i) := by
  have hother : ∀ c, c ≠ s.spawned → (s.spawn i).conns c = s.conns c :=
    fun c hne => Function.update_of_ne hne _ _
  have hself : (s.spawn i).conns s.spawned = { listener := i } := Function.update_self _ _ _
  refine ⟨h.clean, ?_, ?_, ?_, ?_⟩
  · intro c hc
    replace hc : s.spawned + 1 ≤ c := hc
    rw [hother c (by omega)]
    exact h.fresh c (by omega)
  · intro c hc
    replace hc : c < s.spawned + 1 := hc
    rcases eq_or_ne c s.spawned with rfl | hne
    · rw [hself]
      exact hi
    · rw [hother c hne]
      exact h.owned c (by omega)
  · intro c hc
    rcases eq_or_ne c s.spawned with rfl | hne
    · rw [hself] at hc
      exact absurd (hlost.symm.trans hc) (by simp)
    · rw [hother c hne] at hc ⊢
      exact h.dead c hc
  · intro c hc
    rcases eq_or_ne c s.spawned with rfl | hne
    · rw [hself] at hc
      replace hc : (s.loops i).left = true := hc
      rw [hloop] at hc
      cases hc
    · rw [hother c hne] at hc ⊢
      exact h.settled c hc

theorem Inv.setConn (h : Inv spec s) {c : Nat} (hc : c < s.spawned)
    (hended : (s.conns c).ended = false) {conn : Conn}
    (hlistener : conn.listener = (s.conns c).listener)
    (hearly : conn.early ≤ (s.conns c).early ∨ s.cancel = false) :
    Inv spec (s.setConn c conn) := by
  have hother : ∀ d, d ≠ c → (s.setConn c conn).conns d = s.conns d :=
    fun d hne => Function.update_of_ne hne _ _
  have hself : (s.setConn c conn).conns c = conn := Function.update_self _ _ _
  refine ⟨h.clean, ?_, ?_, ?_, ?_⟩
  · intro d hd
    replace hd : s.spawned ≤ d := hd
    rw [hother d (by omega)]
    exact h.fresh d hd
  · intro d hd
    rcases eq_or_ne d c with rfl | hne
    · rw [hself, hlistener]
      exact h.owned d hd
    · rw [hother d hne]
      exact h.owned d hd
  · intro d hd
    rcases eq_or_ne d c with rfl | hne
    · rw [hself, hlistener] at hd
      exact absurd (hended.symm.trans (h.dead d hd).2) (by simp)
    · rw [hother d hne] at hd ⊢
      exact h.dead d hd
  · intro d hd
    rcases eq_or_ne d c with rfl | hne
    · rw [hself, hlistener] at hd
      obtain ⟨hzero, hcancel⟩ := h.settled d hd
      have hset : s.cancel = true := by simpa [hended] using hcancel
      rw [hself]
      refine ⟨?_, .inl hset⟩
      rcases hearly with hle | hunset
      · omega
      · rw [hset] at hunset
        cases hunset
    · rw [hother d hne] at hd ⊢
      exact h.settled d hd

theorem Inv.onConn (h : Inv spec s) {c : Nat} {update : Conn → Option Conn}
    (hupdate : ∀ conn', update (s.conns c) = some conn' →
      conn'.listener = (s.conns c).listener ∧
        (conn'.early ≤ (s.conns c).early ∨ s.cancel = false))
    (hstep : s.onConn c update = some s') : Inv spec s' := by
  simp only [State.onConn, Option.ite_none_right_eq_some, Option.map_eq_some_iff] at hstep
  obtain ⟨⟨hc, hended⟩, conn', hconn', rfl⟩ := hstep
  obtain ⟨hlistener, hearly⟩ := hupdate conn' hconn'
  exact h.setConn hc hended hlistener hearly

theorem Inv.turn (h : Inv spec s) {i : Nat} (hi : i < spec.listeners) {outcome : Accepted}
    (hsettled : s.loops i = .top → s.cancel = true → s.handles (·.listener = i) = false)
    (hturn : s.turn spec i outcome = some s') : Inv spec s' := by
  unfold State.turn at hturn
  split at hturn
  · rename_i htop
    cases hturn
    apply h.setLoop
    intro hleft c hlistener
    cases hcancel : s.cancel with
    | false =>
        rw [hcancel] at hleft
        cases hleft
    | true =>
        refine ⟨?_, .inl rfl⟩
        have hnone := handles_eq_false_iff.mp (hsettled htop hcancel)
        rcases Nat.lt_or_ge c s.spawned with hc | hc
        · exact hnone c hc (by simpa using hlistener)
        · exact h.fresh c hc
  · rename_i hloop
    split at hturn
    · split at hturn
      · cases hturn
      · rename_i hlost
        cases hturn
        exact (h.spawn hi (by simpa using hlost) hloop).setLoop (by simp [Loop.left])
    · cases hturn
      exact h.setLoop (by simp [Loop.left])
    · split at hturn
      · rename_i hgone
        cases hturn
        apply h.setLoop
        intro _ c hlistener
        obtain ⟨hearly, hended⟩ := h.dead c (by rw [hlistener]; exact hgone.2)
        exact ⟨hearly, .inr hended⟩
      · cases hturn
  · rename_i hloop
    cases hturn
    have hleft : (s.loops i).left = true := by
      rw [hloop]
      rfl
    have hcut : Inv spec (s.cutOff (·.listener = i)) := by
      refine h.cutOff (handles_eq_false_iff.mpr fun c _ hlistener => ?_)
      exact (h.settled c (by rw [show (s.conns c).listener = i by simpa using hlistener, hleft])).1
    refine hcut.setLoop fun _ c hlistener => hcut.settled c ?_
    rw [hlistener]
    exact hleft
  · cases hturn

theorem Inv.return_ (h : Inv spec s) (hexited : ∀ i < spec.listeners, s.loops i = .exited) :
    Inv spec { s.cutOff (fun _ => true) with phase := .returned } := by
  have hcut : Inv spec (s.cutOff fun _ => true) := by
    refine h.cutOff (handles_eq_false_iff.mpr fun c hc _ => ?_)
    exact (h.settled c (by rw [hexited _ (h.owned c hc)]; rfl)).1
  exact ⟨hcut.clean, hcut.fresh, hcut.owned, hcut.dead, hcut.settled⟩

theorem Inv.step (h : Inv spec s) {a : Action} (hsettled : Settled s a)
    (hstep : step spec s a = some s') : Inv spec s' := by
  unfold Secure.step at hstep
  split at hstep
  · cases hstep
    exact ⟨h.clean, h.fresh, h.owned, h.dead, h.settled⟩
  · cases hstep
    exact ⟨h.clean, h.fresh, h.owned, h.dead, h.settled⟩
  · cases hstep
    exact ⟨h.clean, h.fresh, h.owned, h.dead, fun c hleft => ⟨(h.settled c hleft).1, .inl rfl⟩⟩
  · rw [Option.ite_none_right_eq_some] at hstep
    exact h.turn hstep.1 hsettled hstep.2
  · rename_i i _
    rw [Option.ite_none_right_eq_some] at hstep
    cases hstep.2
    exact h.lose i
  · refine h.onConn ?_ hstep
    rintro conn' hconn'
    cases hconn'
    exact ⟨rfl, .inl (Nat.le_refl _)⟩
  · refine h.onConn ?_ hstep
    intro conn' hconn'
    rw [Option.ite_none_right_eq_some] at hconn'
    obtain ⟨-, hconn'⟩ := hconn'
    cases hcancel : s.cancel with
    | true =>
        rw [hcancel] at hconn'
        cases hconn'
        exact ⟨rfl, .inl (Nat.le_refl _)⟩
    | false =>
        rw [hcancel] at hconn'
        cases hconn'
        exact ⟨rfl, .inr rfl⟩
  · refine h.onConn ?_ hstep
    intro conn' hconn'
    rw [Option.ite_none_right_eq_some] at hconn'
    cases hconn'.2
    exact ⟨rfl, .inl (Nat.sub_le _ _)⟩
  · refine h.onConn ?_ hstep
    intro conn' hconn'
    rw [Option.ite_none_right_eq_some] at hconn'
    cases hconn'.2
    exact ⟨rfl, .inl (Nat.le_refl _)⟩
  · refine h.onConn ?_ hstep
    intro conn' hconn'
    cases hconn'
    exact ⟨rfl, .inl (Nat.zero_le _)⟩
  · rw [Option.ite_none_right_eq_some] at hstep
    cases hstep.2
    exact h.return_ hstep.1
  · cases hstep

/--
In a run whose loops find `cancel` set only when their connections are done
with the requests begun before, the plane cuts off no such request.
-/
theorem nothing_cut_off (spec : Spec) (s : State)
    (h : Reachable (step spec) Settled initial s) : s.cut = false :=
  (h.invariant (Inv spec) (Inv.initial spec)
    fun _ _ _ hinv hsettled hstep => hinv.step hsettled hstep).clean

def inFlight : List Action :=
  [.start, .turn 0 .again, .turn 0 .stream, .establish 0, .begin_ 0, .cancel]

theorem shutdown_cuts_off_requests :
    (∃ s, Reachable (step ⟨.https, 1⟩) (fun _ _ => True) initial s ∧
      s.phase = .returned ∧ s.cut = true) ∧
    ∃ s, Reachable (step ⟨.h3, 1⟩) (fun _ _ => True) initial s ∧
      s.phase = .running ∧ s.loops 0 = .exited ∧ s.cut = true := by
  constructor
  · refine ⟨(execute (step ⟨.https, 1⟩) (fun _ _ => True) initial
      (inFlight ++ [.turn 0 .again, .return_])).get (by decide), ?_, by decide, by decide⟩
    exact Reachable.of_execute Reachable.refl (Option.some_get _).symm
  · refine ⟨(execute (step ⟨.h3, 1⟩) (fun _ _ => True) initial
      (inFlight ++ [.turn 0 .again, .turn 0 .again])).get (by decide), ?_, by decide,
      by decide, by decide⟩
    exact Reachable.of_execute Reachable.refl (Option.some_get _).symm

theorem nothing_cut_off_sample :
    let s := (execute (step ⟨.https, 1⟩) Settled initial
      (inFlight ++ [.finishEarly 0, .turn 0 .again, .return_])).get (by decide)
    s.phase = .returned ∧ s.cut = false := by
  intro s
  exact ⟨by decide, nothing_cut_off ⟨.https, 1⟩ s
    (Reachable.of_execute Reachable.refl (Option.some_get _).symm)⟩

end Secure

end Conduit
