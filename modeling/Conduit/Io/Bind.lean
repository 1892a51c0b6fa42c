import Conduit.Platform
import Mathlib.Data.List.Basic

/-!
# Binding the listeners

`serve` binds every address once for each worker before it starts a thread.
The first socket of an address settles its port; the others are bound to the
settled address, so that the kernel shares connections out among them.  The
model keeps the calls of `bind::bind` in order: call `k` is the one that the
kernel answers with `Kernel.bind k`.
-/

namespace Conduit

def SocketAddr.port : SocketAddr → UInt16
  | .v4 _ port => port
  | .v6 _ port _ => port

def SocketAddr.withPort : SocketAddr → UInt16 → SocketAddr
  | .v4 ip _, port => .v4 ip port
  | .v6 ip _ scopeId, port => .v6 ip port scopeId

namespace Io

inductive IoError where
  | os (code : Nat)
  | invalidInput (message : String)
  deriving DecidableEq, Repr

inductive BindError where
  | noListeners
  | bind (addr : SocketAddr) (source : IoError)
  | threadSpawn (source : IoError)
  deriving DecidableEq

/--
The system calls for the `k`th socket: `socket(2)` with its options and
`bind(2)`, which gives the address it got, `listen(2)` and `getsockname(2)`.
-/
structure Kernel where
  bind : Nat → SocketAddr → Except IoError SocketAddr
  listen : Nat → Except IoError Unit
  localAddr : Nat → Except IoError Unit

structure Listener where
  call : Nat
  addr : SocketAddr
  deriving DecidableEq

abbrev Slot := List (SocketAddr × Listener)

structure Bound (α : Type) where
  result : Except BindError α
  calls : List SocketAddr

namespace Kernel

variable (kernel : Kernel) (backlog : Nat)

/-- `bind::bind` with `reuse_port`; the backlog is passed on as an `i32`. -/
def open_ (k : Nat) (addr : SocketAddr) : Except IoError Listener := do
  let bound ← kernel.bind k addr
  if 2 ^ 31 ≤ backlog then .error (.invalidInput "backlog overflows i32")
  else
    kernel.listen k
    return ⟨k, bound⟩

def bindOthers (resolved : SocketAddr) : List Slot → Nat → Bound (List Slot)
  | [], _ => ⟨.ok [], []⟩
  | slot :: slots, k =>
      match kernel.open_ backlog k resolved with
      | .error e => ⟨.error (.bind resolved e), [resolved]⟩
      | .ok l =>
          let rest := bindOthers resolved slots (k + 1)
          ⟨rest.result.map ((slot ++ [(resolved, l)]) :: ·), resolved :: rest.calls⟩

def bindFirst (addr : SocketAddr) (k : Nat) : Except BindError Listener :=
  match kernel.open_ backlog k addr with
  | .error e => .error (.bind addr e)
  | .ok first =>
      match kernel.localAddr k with
      | .error e => .error (.bind addr e)
      | .ok () => .ok first

/-- The sockets of all addresses; `first` and `others` are the workers' slots. -/
def bindAll : List SocketAddr → Slot → List Slot → Nat →
    Bound (List SocketAddr × Slot × List Slot)
  | [], first, others, _ => ⟨.ok ([], first, others), []⟩
  | addr :: addrs, first, others, k =>
      match kernel.bindFirst backlog addr k with
      | .error e => ⟨.error e, [addr]⟩
      | .ok l =>
          let resolved := l.addr
          let here := kernel.bindOthers backlog resolved others (k + 1)
          match here.result with
          | .error e => ⟨.error e, addr :: here.calls⟩
          | .ok others =>
              let rest := bindAll addrs (first ++ [(resolved, l)]) others
                (k + 1 + others.length)
              ⟨rest.result.map fun r => (resolved :: r.1, r.2),
                addr :: here.calls ++ rest.calls⟩

/-- `serve` up to its threads: the bound addresses and each worker's sockets. -/
def bindListeners (listeners : List SocketAddr) (workers : Nat) :
    Bound (List SocketAddr × List Slot) :=
  if listeners.isEmpty then ⟨.error .noListeners, []⟩
  else
    let all := kernel.bindAll backlog listeners [] (List.replicate (workers - 1) []) 0
    ⟨all.result.map fun r => (r.1, r.2.1 :: r.2.2), all.calls⟩

end Kernel

/-! ## What a run of the loop leaves behind -/

/-- Port 0 asks for any free port; any other address is given as asked. -/
structure Kernel.Honest (kernel : Kernel) : Prop where
  settles : ∀ k addr bound, kernel.bind k addr = .ok bound →
    bound.port ≠ 0 ∧ bound = addr.withPort bound.port
  keeps : ∀ k addr bound, kernel.bind k addr = .ok bound → addr.port ≠ 0 → bound = addr

/-- The calls for addresses that settle as `bound`, among `workers` workers. -/
def plan (workers : Nat) : List SocketAddr → List SocketAddr → List SocketAddr
  | addr :: addrs, resolved :: bound =>
      addr :: List.replicate (workers - 1) resolved ++ plan workers addrs bound
  | _, _ => []

def row (workers w : Nat) : List SocketAddr → Nat → Slot
  | [], _ => []
  | resolved :: bound, k => (resolved, ⟨k + w, resolved⟩) :: row workers w bound (k + workers)

namespace Kernel

variable {kernel : Kernel} {backlog : Nat}

theorem open_eq_ok {k : Nat} {addr : SocketAddr} {l : Listener}
    (h : kernel.open_ backlog k addr = .ok l) :
    l.call = k ∧ kernel.bind k addr = .ok l.addr := by
  obtain ⟨bound, hbind, hrest⟩ := bind_eq_ok.mp h
  split at hrest
  · cases hrest
  · obtain ⟨-, hl⟩ := then_eq_ok.mp hrest
    cases hl
    exact ⟨rfl, hbind⟩

theorem bindFirst_eq_ok {k : Nat} {addr : SocketAddr} {l : Listener}
    (h : kernel.bindFirst backlog addr k = .ok l) : kernel.open_ backlog k addr = .ok l := by
  unfold bindFirst at h
  split at h
  · cases h
  · rename_i first hopen
    split at h
    · cases h
    · cases h
      exact hopen

structure Stopped (kernel : Kernel) (backlog k : Nat) (calls : List SocketAddr)
    (addr : SocketAddr) (source : IoError) : Prop where
  opened : ∀ j a, calls.dropLast[j]? = some a → ∃ l, kernel.open_ backlog (k + j) a = .ok l
  last : calls.getLast? = some addr
  failed : kernel.open_ backlog (k + calls.dropLast.length) addr = .error source ∨
    kernel.localAddr (k + calls.dropLast.length) = .error source

def Opened (kernel : Kernel) (backlog k : Nat) (calls : List SocketAddr) : Prop :=
  ∀ j a, calls[j]? = some a → ∃ l, kernel.open_ backlog (k + j) a = .ok l

theorem Opened.cons {k : Nat} {calls : List SocketAddr} {addr : SocketAddr} {l : Listener}
    (hfirst : kernel.open_ backlog k addr = .ok l) (h : Opened kernel backlog (k + 1) calls) :
    Opened kernel backlog k (addr :: calls) := by
  intro j a ha
  cases j with
  | zero =>
      rw [List.getElem?_cons_zero, Option.some.injEq] at ha
      exact ⟨l, ha ▸ hfirst⟩
  | succ j =>
      rw [List.getElem?_cons_succ] at ha
      obtain ⟨l', hl'⟩ := h j a ha
      exact ⟨l', by rwa [Nat.add_right_comm] at hl'⟩

theorem Stopped.single {k : Nat} {addr : SocketAddr} {source : IoError}
    (h : kernel.open_ backlog k addr = .error source ∨ kernel.localAddr k = .error source) :
    Stopped kernel backlog k [addr] addr source :=
  ⟨by simp, rfl, h⟩

theorem Opened.stopped {k : Nat} {before calls : List SocketAddr} {addr : SocketAddr}
    {source : IoError} (hbefore : Opened kernel backlog k before)
    (h : Stopped kernel backlog (k + before.length) calls addr source) :
    Stopped kernel backlog k (before ++ calls) addr source := by
  have hne : calls ≠ [] := by
    rintro rfl
    cases h.last
  have hdrop : (before ++ calls).dropLast = before ++ calls.dropLast :=
    List.dropLast_append_of_ne_nil hne
  refine ⟨?_, ?_, ?_⟩
  · intro j a ha
    rw [hdrop] at ha
    by_cases hj : j < before.length
    · rw [List.getElem?_append_left hj] at ha
      exact hbefore j a ha
    · rw [List.getElem?_append_right (by omega)] at ha
      obtain ⟨l, hl⟩ := h.opened _ a ha
      exact ⟨l, by rwa [show k + before.length + (j - before.length) = k + j by omega] at hl⟩
  · rw [List.getLast?_append, h.last]
    rfl
  · rw [hdrop, List.length_append, ← Nat.add_assoc]
    exact h.failed

theorem Stopped.cons {k : Nat} {calls : List SocketAddr} {addr head : SocketAddr}
    {source : IoError} {l : Listener} (hhead : kernel.open_ backlog k head = .ok l)
    (h : Stopped kernel backlog (k + 1) calls addr source) :
    Stopped kernel backlog k (head :: calls) addr source := by
  have hopened : Opened kernel backlog k [head] := Opened.cons hhead (by simp [Opened])
  exact hopened.stopped h

theorem bindOthers_error (resolved : SocketAddr) (slots : List Slot) (k : Nat) {e : BindError}
    (h : (kernel.bindOthers backlog resolved slots k).result = .error e) :
    ∃ addr source, e = .bind addr source ∧
      Stopped kernel backlog k (kernel.bindOthers backlog resolved slots k).calls addr source := by
  induction slots generalizing k with
  | nil => cases h
  | cons slot slots ih =>
      rw [bindOthers] at h ⊢
      cases hopen : kernel.open_ backlog k resolved with
      | error source =>
          simp only [hopen] at h ⊢
          cases h
          exact ⟨resolved, source, rfl, .single (.inl hopen)⟩
      | ok l =>
          simp only [hopen] at h ⊢
          cases hrest : (kernel.bindOthers backlog resolved slots (k + 1)).result with
          | ok others => simp [hrest, Except.map] at h
          | error e' =>
              rw [hrest] at h
              cases h
              obtain ⟨addr, source, rfl, hstop⟩ := ih (k + 1) hrest
              exact ⟨addr, source, rfl, hstop.cons hopen⟩

theorem bindOthers_opened (resolved : SocketAddr) (slots : List Slot) (k : Nat)
    {others : List Slot} (h : (kernel.bindOthers backlog resolved slots k).result = .ok others) :
    Opened kernel backlog k (kernel.bindOthers backlog resolved slots k).calls ∧
      (kernel.bindOthers backlog resolved slots k).calls =
        List.replicate slots.length resolved ∧ others.length = slots.length := by
  induction slots generalizing k others with
  | nil =>
      cases h
      exact ⟨by simp [bindOthers, Opened], rfl, rfl⟩
  | cons slot slots ih =>
      rw [bindOthers] at h ⊢
      cases hopen : kernel.open_ backlog k resolved with
      | error source => simp [hopen] at h
      | ok l =>
          simp only [hopen] at h ⊢
          cases hrest : (kernel.bindOthers backlog resolved slots (k + 1)).result with
          | error e => simp [hrest, Except.map] at h
          | ok tail =>
              rw [hrest] at h
              cases h
              obtain ⟨hopened, hcalls, hlength⟩ := ih (k + 1) hrest
              refine ⟨hopened.cons hopen, ?_, ?_⟩
              · rw [hcalls, List.length_cons, List.replicate_succ]
              · rw [List.length_cons, List.length_cons, hlength]

theorem bindAll_error (addrs : List SocketAddr) (first : Slot) (others : List Slot) (k : Nat)
    {e : BindError} (h : (kernel.bindAll backlog addrs first others k).result = .error e) :
    ∃ addr source, e = .bind addr source ∧
      Stopped kernel backlog k (kernel.bindAll backlog addrs first others k).calls addr
        source := by
  induction addrs generalizing first others k with
  | nil => cases h
  | cons addr addrs ih =>
      rw [bindAll] at h ⊢
      cases hfirst : kernel.bindFirst backlog addr k with
      | error e' =>
          simp only [hfirst] at h ⊢
          cases h
          unfold bindFirst at hfirst
          split at hfirst
          · rename_i source hopen
            cases hfirst
            exact ⟨addr, source, rfl, .single (.inl hopen)⟩
          · split at hfirst
            · rename_i source hlocal
              cases hfirst
              exact ⟨addr, source, rfl, .single (.inr hlocal)⟩
            · cases hfirst
      | ok l =>
          have hopen := bindFirst_eq_ok hfirst
          simp only [hfirst] at h ⊢
          cases hhere : (kernel.bindOthers backlog l.addr others (k + 1)).result with
          | error e' =>
              simp only [hhere] at h ⊢
              cases h
              obtain ⟨addr', source, rfl, hstop⟩ := bindOthers_error _ _ _ hhere
              exact ⟨addr', source, rfl, hstop.cons hopen⟩
          | ok others' =>
              simp only [hhere] at h ⊢
              obtain ⟨hopened, hcalls, hlength⟩ := bindOthers_opened _ _ _ hhere
              generalize hrun : kernel.bindAll backlog addrs (first ++ [(l.addr, l)]) others'
                (k + 1 + others'.length) = rest at h ⊢
              cases hrest : rest.result with
              | ok r => simp [hrest, Except.map] at h
              | error e' =>
                  rw [hrest] at h
                  cases h
                  rw [← hrun] at hrest
                  obtain ⟨addr', source, rfl, hstop⟩ := ih _ _ _ hrest
                  refine ⟨addr', source, rfl, ?_⟩
                  rw [hrun] at hstop
                  refine Opened.stopped (hopened.cons hopen) ?_
                  rwa [List.length_cons, hcalls, List.length_replicate, ← hlength,
                    Nat.add_comm _ 1, ← Nat.add_assoc]

/-- Binding stops at the first call that fails and reports its address. -/
theorem bind_reports_first_failure (kernel : Kernel) (backlog : Nat)
    (listeners : List SocketAddr) (hlisteners : listeners ≠ []) (workers : Nat) (e : BindError)
    (h : (kernel.bindListeners backlog listeners workers).result = .error e) :
    ∃ addr source, e = .bind addr source ∧
      (kernel.bindListeners backlog listeners workers).calls.getLast? = some addr ∧
      (∀ j a, (kernel.bindListeners backlog listeners workers).calls.dropLast[j]? = some a →
        ∃ l, kernel.open_ backlog j a = .ok l) ∧
      (kernel.open_ backlog
          (kernel.bindListeners backlog listeners workers).calls.dropLast.length addr =
            .error source ∨
        kernel.localAddr
          (kernel.bindListeners backlog listeners workers).calls.dropLast.length =
            .error source) := by
  rw [bindListeners, if_neg (by simpa using hlisteners)] at h ⊢
  generalize hrun : kernel.bindAll backlog listeners [] (List.replicate (workers - 1) []) 0 =
    all at h ⊢
  cases hall : all.result with
  | ok r => simp [hall, Except.map] at h
  | error e' =>
      simp only [hall, Except.map] at h
      cases h
      rw [← hrun] at hall
      obtain ⟨addr, source, rfl, hstop⟩ := bindAll_error _ _ _ _ hall
      rw [hrun] at hstop
      exact ⟨addr, source, rfl, hstop.last, by simpa using hstop.opened,
        by simpa using hstop.failed⟩

/-! ## The sockets of a started server -/

theorem bindOthers_slots (hkernel : kernel.Honest) {resolved : SocketAddr}
    (hport : resolved.port ≠ 0) (slots : List Slot) (k : Nat) {others : List Slot}
    (h : (kernel.bindOthers backlog resolved slots k).result = .ok others) :
    others = slots.mapIdx fun j slot => slot ++ [(resolved, ⟨k + j, resolved⟩)] := by
  induction slots generalizing k others with
  | nil =>
      cases h
      rfl
  | cons slot slots ih =>
      rw [bindOthers] at h
      cases hopen : kernel.open_ backlog k resolved with
      | error source => simp [hopen] at h
      | ok l =>
          simp only [hopen] at h
          cases hrest : (kernel.bindOthers backlog resolved slots (k + 1)).result with
          | error e => simp [hrest, Except.map] at h
          | ok tail =>
              rw [hrest] at h
              cases h
              obtain ⟨hcall, hbind⟩ := open_eq_ok hopen
              have hl : l = ⟨k, resolved⟩ := by
                cases l
                exact congr (congrArg _ hcall) (hkernel.keeps _ _ _ hbind hport)
              rw [List.mapIdx_cons, ih (k + 1) hrest, hl]
              congr 2
              funext j slot
              rw [Nat.add_right_comm, Nat.add_assoc]

def Settles (addr bound : SocketAddr) : Prop :=
  bound.port ≠ 0 ∧ bound = addr.withPort bound.port ∧ (addr.port ≠ 0 → bound = addr)

theorem bindAll_slots (hkernel : kernel.Honest) (addrs : List SocketAddr) (first : Slot)
    (others : List Slot) (k : Nat) {bound : List SocketAddr} {first' : Slot}
    {others' : List Slot}
    (h : (kernel.bindAll backlog addrs first others k).result = .ok (bound, first', others')) :
    List.Forall₂ Settles addrs bound ∧
    first' = first ++ row (others.length + 1) 0 bound k ∧
    others' = others.mapIdx (fun j slot => slot ++ row (others.length + 1) (j + 1) bound k) ∧
    (kernel.bindAll backlog addrs first others k).calls =
      plan (others.length + 1) addrs bound := by
  induction addrs generalizing first others k bound first' others' with
  | nil =>
      cases h
      refine ⟨.nil, (List.append_nil _).symm, ?_, rfl⟩
      apply List.ext_getElem?
      intro j
      simp only [row, List.append_nil, List.getElem?_mapIdx, Option.map_id']
  | cons addr addrs ih =>
      rw [bindAll] at h ⊢
      cases hfirst : kernel.bindFirst backlog addr k with
      | error e => simp [hfirst] at h
      | ok l =>
          obtain ⟨hcall, hbind⟩ := open_eq_ok (bindFirst_eq_ok hfirst)
          obtain ⟨hport, hip⟩ := hkernel.settles _ _ _ hbind
          simp only [hfirst] at h ⊢
          cases hhere : (kernel.bindOthers backlog l.addr others (k + 1)).result with
          | error e => simp [hhere] at h
          | ok mid =>
              obtain ⟨-, hcalls, hlength⟩ := bindOthers_opened _ _ _ hhere
              have hmid := bindOthers_slots hkernel hport _ _ hhere
              simp only [hhere] at h ⊢
              generalize hrun : kernel.bindAll backlog addrs (first ++ [(l.addr, l)]) mid
                (k + 1 + mid.length) = rest at h ⊢
              cases hrest : rest.result with
              | error e => simp [hrest, Except.map] at h
              | ok r =>
                  obtain ⟨tail, first'', others''⟩ := r
                  simp only [hrest, Except.map, Except.ok.injEq, Prod.mk.injEq] at h
                  obtain ⟨rfl, rfl, rfl⟩ := h
                  rw [← hrun] at hrest
                  obtain ⟨hsettle, hrow, hrows, hplan⟩ := ih _ _ _ hrest
                  have hk : k + 1 + mid.length = k + (others.length + 1) := by omega
                  rw [hk, hlength] at hrow hrows
                  rw [hrun, hlength] at hplan
                  refine ⟨.cons ⟨hport, hip, hkernel.keeps _ _ _ hbind⟩ hsettle, ?_, ?_, ?_⟩
                  · rw [hrow, row, List.append_assoc]
                    cases l
                    cases hcall
                    rfl
                  · rw [hrows, hmid, List.mapIdx_mapIdx]
                    congr 1
                    funext j slot
                    simp only [Function.comp, row, List.append_assoc, List.singleton_append]
                    rw [Nat.add_assoc k 1 j, Nat.add_comm 1 j]
                  · rw [hplan, hcalls, plan, Nat.add_sub_cancel, List.cons_append]

/--
A server that starts has one socket for each worker and address, and the
sockets of an address are all bound to the one address it settled as.
-/
theorem workers_share_settled_addresses (kernel : Kernel) (hkernel : kernel.Honest)
    (backlog : Nat) (listeners : List SocketAddr) (workers : Nat) (hworkers : 0 < workers)
    (bound : List SocketAddr) (slots : List Slot)
    (h : (kernel.bindListeners backlog listeners workers).result = .ok (bound, slots)) :
    listeners ≠ [] ∧ List.Forall₂ Settles listeners bound ∧
    slots = (List.range workers).map (fun w => row workers w bound 0) ∧
    (kernel.bindListeners backlog listeners workers).calls = plan workers listeners bound := by
  rw [bindListeners] at h ⊢
  split at h
  · cases h
  · rename_i hne
    rw [if_neg hne]
    generalize hrun : kernel.bindAll backlog listeners [] (List.replicate (workers - 1) []) 0 =
      all at h ⊢
    cases hall : all.result with
    | error e => simp [hall, Except.map] at h
    | ok r =>
        obtain ⟨bound', first, others⟩ := r
        simp only [hall, Except.map, Except.ok.injEq, Prod.mk.injEq] at h
        obtain ⟨rfl, rfl⟩ := h
        rw [← hrun] at hall
        obtain ⟨hsettle, hfirst, hothers, hplan⟩ := bindAll_slots hkernel _ _ _ _ hall
        rw [hrun] at hplan
        have hcount : (List.replicate (workers - 1) ([] : Slot)).length + 1 = workers := by
          rw [List.length_replicate]
          omega
        rw [hcount] at hfirst hothers hplan
        refine ⟨by simpa using hne, hsettle, ?_, hplan⟩
        obtain ⟨more, rfl⟩ : ∃ more, workers = more + 1 := Nat.exists_eq_add_one.mpr hworkers
        rw [List.range_succ_eq_map, List.map_cons, List.map_map, hfirst, hothers,
          List.nil_append, Nat.add_sub_cancel]
        congr 1
        apply List.ext_getElem?
        intro j
        simp only [List.getElem?_mapIdx, List.getElem?_map, List.getElem?_replicate]
        by_cases hj : j < more <;> simp [hj]

def sampleKernel (inUse : SocketAddr) : Kernel where
  bind k addr :=
    if 0 < k ∧ addr = inUse then .error (.os 98)
    else .ok (if addr.port = 0 then addr.withPort 49152 else addr)
  listen _ := .ok ()
  localAddr _ := .ok ()

theorem honest_sampleKernel (inUse : SocketAddr) : (sampleKernel inUse).Honest := by
  have hbound : ∀ k addr bound, (sampleKernel inUse).bind k addr = .ok bound →
      bound = if addr.port = 0 then addr.withPort 49152 else addr := by
    intro k addr bound h
    simp only [sampleKernel] at h
    split at h <;> cases h
    rfl
  constructor
  · intro k addr bound h
    rw [hbound k addr bound h]
    split
    · have hfree : (49152 : UInt16) ≠ 0 := by decide
      cases addr <;> exact ⟨hfree, rfl⟩
    · rename_i hport
      refine ⟨hport, ?_⟩
      cases addr <;> rfl
  · intro k addr bound h hport
    rw [hbound k addr bound h, if_neg hport]

def sampleListeners : List SocketAddr := [.v4 ⟨0, 0, 0, 0⟩ 80, .v4 ⟨127, 0, 0, 1⟩ 0]

theorem workers_share_settled_addresses_sample :
    ∃ bound slots, ((sampleKernel (.v4 ⟨0, 0, 0, 0⟩ 443)).bindListeners 1024 sampleListeners
        2).result = .ok (bound, slots) ∧
      bound = [.v4 ⟨0, 0, 0, 0⟩ 80, .v4 ⟨127, 0, 0, 1⟩ 49152] ∧
      slots = [row 2 0 bound 0, row 2 1 bound 0] := by
  refine ⟨_, _, rfl, rfl, ?_⟩
  exact (workers_share_settled_addresses _ (honest_sampleKernel (.v4 ⟨0, 0, 0, 0⟩ 443)) 1024
    sampleListeners 2 (by decide) _ _ rfl).2.2.1

theorem bind_reports_first_failure_sample :
    ∃ addr source, (((sampleKernel (.v4 ⟨127, 0, 0, 1⟩ 49152)).bindListeners 1024
        sampleListeners 2).result = .error (.bind addr source)) ∧
      ((sampleKernel (.v4 ⟨127, 0, 0, 1⟩ 49152)).bindListeners 1024 sampleListeners
        2).calls.getLast? = some addr := by
  obtain ⟨addr, source, he, hlast, -⟩ := bind_reports_first_failure
    (sampleKernel (.v4 ⟨127, 0, 0, 1⟩ 49152)) 1024 sampleListeners (by decide) 2
    (.bind (.v4 ⟨127, 0, 0, 1⟩ 49152) (.os 98)) rfl
  exact ⟨addr, source, he ▸ rfl, hlast⟩

end Kernel

end Io

end Conduit
