import Conduit.Binary.Health
import Conduit.Binary.Reload

/-!
# Reloads against traffic

The reload thread replaces the dispatchers one swappable at a time while the
planes go on serving.  A request loads its swappable once and keeps what it
loaded; probe tasks keep the pools of the primary dispatcher they were started
with.  An allocation is named by its swappable and its generation, the number
of documents accepted before the one it was built from.
-/

namespace Conduit

open Foundation

namespace Swap

/-- An accepted document, with the files and clock of the builds from it. -/
structure Document where
  cfg : Config
  builds : Nat → Files × Nat

def Document.build (platform : Platform) (doc : Document) (i : Nat) : Dispatch :=
  Dispatch.fromConfig platform (doc.builds i).1 (doc.builds i).2 doc.cfg

inductive Phase where
  | waiting
  /-- The first `next` swappables have been stored. -/
  | storing (hup : Sighup) (cfg : Config) (next : Nat)
  | exited

/-- What `handle` decides for a request before it is sent. -/
structure Choice where
  req : Request
  route : Route
  backend : Option (SocketAddr × Nat)

inductive Stage where
  | loaded
  | refused (req : Request) (e : DispatchError)
  | chosen (choice : Choice)
  | settled (choice : Choice)

def Stage.choice : Stage → Option Choice
  | .loaded => none
  | .refused _ _ => none
  | .chosen choice => some choice
  | .settled choice => some choice

def Stage.refusal : Stage → Option (Request × DispatchError)
  | .refused req e => some (req, e)
  | _ => none

structure Flight where
  slot : Nat
  generation : Nat
  stage : Stage

/--
The accepted documents, the one of the start first, the generation that each
swappable holds, the primary's first, and every dispatcher stored so far, as
requests and probes have left it.  `handled` are the signals taken.
-/
structure State where
  documents : List Document
  swaps : List Nat
  heap : Nat → Nat → Dispatch
  certResolver : Option CertTable
  h3Certs : Option CertTable
  phase : Phase
  done : Bool
  handled : List Sighup
  flights : List Flight

inductive Action where
  | sighup (hup : Sighup)
  | store
  | swapCerts
  | finish
  | load (slot : Nat)
  | route (flight : Nat) (req : Request) (now : Nat)
  | settle (flight : Nat) (outcome : Option Bool) (now : Nat)
  | probe (upstream : String) (idx : Nat) (outcome : Option Bool) (now : Nat)

end Swap

/-! ## The process -/

/-- A started process: what the reload thread needs besides the start. -/
structure Process where
  start : Start
  fromStr : String → Except String Config
  path : String

namespace Process

open Swap

variable (proc : Process)

def thread : ReloadThread where
  platform := proc.start.platform
  fromStr := proc.fromStr
  opts := proc.start.opts
  path := proc.path

def document : Document where
  cfg := proc.start.cfg
  builds _ := (proc.start.files, proc.start.now)

/-- The resolver that `spawn_https_thread` hands to the reload thread. -/
def certTable : Option CertTable := do
  let tls ← proc.start.cfg.tls
  if proc.start.cfg.server.listenHttps.isEmpty then none
  else (loadServerConfig proc.start.platform proc.start.files tls).toOption

/-- What `spawn_h3_thread` loads for itself. -/
def h3Certs : Option CertTable := do
  let tls ← proc.start.cfg.tls
  if proc.start.servesH3 then
    (loadServerConfig proc.start.platform proc.start.files tls).toOption
  else none

def swappables : Nat := 1 + proc.start.resolveWorkers

def init : State where
  documents := [proc.document]
  swaps := List.replicate proc.swappables 0
  heap _ _ := proc.start.buildDispatch
  certResolver := proc.certTable
  h3Certs := proc.h3Certs
  phase := .waiting
  done := false
  handled := []
  flights := []

end Process

namespace Swap

/-! ## Steps -/

namespace State

def setStage (s : State) (k : Nat) (flight : Flight) (stage : Stage) : State :=
  { s with flights := s.flights.set k { flight with stage := stage } }

def setHeap (s : State) (slot generation : Nat) (d : Dispatch) : State :=
  { s with
    heap := Function.update s.heap slot (Function.update (s.heap slot) generation d) }

def updatePool (s : State) (slot generation : Nat) (name : String)
    (f : Upstream → Upstream) : Option State := do
  let d := s.heap slot generation
  let pool ← d.upstreams.get name
  return s.setHeap slot generation { d with upstreams := d.upstreams.insert name (f pool) }

def newest (s : State) : Nat := s.documents.length - 1

end State

variable (proc : Process)

/-- One turn of `signals.forever()`; signals that come meanwhile are kept. -/
def sighup (s : State) (hup : Sighup) : Option State :=
  match s.phase with
  | .waiting =>
      if s.done then some { s with phase := .exited }
      else
        match proc.thread.loadConfig hup with
        | .error _ => some { s with handled := s.handled ++ [hup] }
        | .ok cfg =>
            some
              { s with
                documents := s.documents ++ [⟨cfg, hup.builds⟩]
                phase := .storing hup cfg 0
                handled := s.handled ++ [hup] }
  | _ => none

def store (s : State) : Option State :=
  match s.phase with
  | .storing hup cfg next =>
      if next < s.swaps.length then
        some
          { s.setHeap next s.newest (proc.thread.build hup cfg next) with
            swaps := s.swaps.set next s.newest
            phase := .storing hup cfg (next + 1) }
      else none
  | _ => none

def reloadTable (hup : Sighup) (cfg : Config) (table : Option CertTable) :
    Option CertTable :=
  match table, cfg.tls with
  | some table, some tls =>
      some ((buildTable proc.thread.platform hup.certFiles tls.certs).toOption.getD table)
  | table, _ => table

def swapCerts (s : State) : Option State :=
  match s.phase with
  | .storing hup cfg next =>
      if next < s.swaps.length then none
      else
        some
          { s with
            certResolver := reloadTable proc hup cfg s.certResolver
            phase := .waiting }
  | _ => none

/-- `load_full`, at the start of a request or of an admin page. -/
def loadFull (s : State) (slot : Nat) : Option State :=
  s.swaps[slot]?.map fun generation =>
    { s with flights := s.flights ++ [⟨slot, generation, .loaded⟩] }

/-- `Dispatch::handle` on the loaded snapshot up to and including `pick_addr`. -/
def route (s : State) (k : Nat) (req : Request) (now : Nat) : Option State := do
  let flight ← s.flights[k]?
  match flight.stage with
  | .loaded =>
      let d := s.heap flight.slot flight.generation
      match d.selectRoute req with
      | .error e => return s.setStage k flight (.refused req e)
      | .ok route =>
          match d.selectUpstream route with
          | .error e => return s.setStage k flight (.refused req e)
          | .ok pool =>
              let backend := (pool.pickAddr proc.start.platform now).map fun p => (p.1, p.2.val)
              let s' ← s.updatePool flight.slot flight.generation route.upstream
                (·.advance proc.start.platform)
              return s'.setStage k flight (.chosen ⟨req, route, backend⟩)
  | _ => none

def settle (s : State) (k : Nat) (outcome : Option Bool) (now : Nat) : Option State := do
  let flight ← s.flights[k]?
  match flight.stage with
  | .chosen choice =>
      match choice.backend with
      | none => return s.setStage k flight (.settled choice)
      | some (_, idx) =>
          let s' ← s.updatePool flight.slot flight.generation choice.route.upstream
            (·.record idx outcome now)
          return s'.setStage k flight (.settled choice)
  | _ => none

def step (s : State) : Action → Option State
  | .sighup hup => sighup proc s hup
  | .store => store proc s
  | .swapCerts => swapCerts proc s
  | .finish => some { s with done := true }
  | .load slot => loadFull s slot
  | .route k req now => route proc s k req now
  | .settle k outcome now => settle s k outcome now
  -- The tasks share the breakers of the dispatcher the process started with.
  | .probe name idx outcome now => s.updatePool 0 0 name (·.record idx outcome now)

def Reached : State → Prop :=
  Reachable (step proc) (fun _ _ => True) proc.init

/-! ## What one step can do -/

structure Decides (d : Dispatch) (c : Choice) : Prop where
  route : d.selectRoute c.req = .ok c.route
  backend : ∀ b ∈ c.backend, ∃ pool, d.upstreams.get c.route.upstream = some pool ∧
    pool.addrs[b.2]? = some b.1

/-- The snapshot has no pool for the request. -/
def Declines (d : Dispatch) (req : Request) (e : DispatchError) : Prop :=
  d.selectRoute req = .error e ∨
    ∃ route, d.selectRoute req = .ok route ∧ d.selectUpstream route = .error e

inductive Effect (s : State) : State → Prop where
  | exit (hphase : s.phase = .waiting) : Effect s { s with phase := .exited }
  | refuse (hup : Sighup) (e : ConfigError) (hphase : s.phase = .waiting)
      (hload : proc.thread.loadConfig hup = .error e) :
      Effect s { s with handled := s.handled ++ [hup] }
  | accept (hup : Sighup) (cfg : Config) (hphase : s.phase = .waiting)
      (hload : proc.thread.loadConfig hup = .ok cfg) :
      Effect s
        { s with
          documents := s.documents ++ [⟨cfg, hup.builds⟩]
          phase := .storing hup cfg 0
          handled := s.handled ++ [hup] }
  | store (hup : Sighup) (cfg : Config) (next : Nat)
      (hphase : s.phase = .storing hup cfg next) (hnext : next < s.swaps.length) :
      Effect s
        { s.setHeap next s.newest (proc.thread.build hup cfg next) with
          swaps := s.swaps.set next s.newest
          phase := .storing hup cfg (next + 1) }
  | swapCerts (hup : Sighup) (cfg : Config) (next : Nat)
      (hphase : s.phase = .storing hup cfg next) (hnext : s.swaps.length ≤ next) :
      Effect s
        { s with
          certResolver := reloadTable proc hup cfg s.certResolver
          phase := .waiting }
  | finish : Effect s { s with done := true }
  | load (slot generation : Nat) (hswap : s.swaps[slot]? = some generation) :
      Effect s { s with flights := s.flights ++ [⟨slot, generation, .loaded⟩] }
  | stage (k : Nat) (flight : Flight) (next : Stage) (hflight : s.flights[k]? = some flight)
      (hnext : ∀ c, next.choice = some c → flight.stage.choice = some c ∨
        Decides (s.heap flight.slot flight.generation) c)
      (hrefusal : ∀ r, next.refusal = some r →
        Declines (s.heap flight.slot flight.generation) r.1 r.2) :
      Effect s (s.setStage k flight next)
  | touch (slot generation : Nat) (name : String) (pool pool' : Upstream)
      (hget : (s.heap slot generation).upstreams.get name = some pool)
      (hfixed : pool'.fixed = pool.fixed) :
      Effect s (s.setHeap slot generation
        { s.heap slot generation with
          upstreams := (s.heap slot generation).upstreams.insert name pool' })

variable {proc} {s s' : State}

theorem effect_of_updatePool {slot generation : Nat} {name : String} {f : Upstream → Upstream}
    (hf : ∀ pool, (f pool).fixed = pool.fixed)
    (h : s.updatePool slot generation name f = some s') : Effect proc s s' := by
  simp only [State.updatePool, Option.bind_eq_bind, Option.bind_eq_some_iff] at h
  obtain ⟨pool, hget, hs'⟩ := h
  cases hs'
  exact .touch slot generation name pool (f pool) hget (hf pool)

theorem updatePool_setStage {slot generation k : Nat} {name : String} {f : Upstream → Upstream}
    {flight : Flight} {next : Stage} (h : s.updatePool slot generation name f = some s') :
    (s.setStage k flight next).updatePool slot generation name f =
      some (s'.setStage k flight next) := by
  simp only [State.updatePool, Option.bind_eq_bind, Option.bind_eq_some_iff] at h ⊢
  obtain ⟨pool, hget, hs'⟩ := h
  cases hs'
  exact ⟨pool, hget, rfl⟩

theorem pickAddr_backend {platform : Platform} {pool : Upstream} {now : Nat}
    {b : SocketAddr × Nat}
    (h : b ∈ (pool.pickAddr platform now).map fun p => (p.1, p.2.val)) :
    pool.addrs[b.2]? = some b.1 := by
  obtain ⟨⟨addr, i⟩, hpick, rfl⟩ := Option.map_eq_some_iff.mp h
  obtain ⟨rfl, -⟩ := Upstream.pickAddr_eq_some hpick
  exact List.getElem?_eq_getElem i.isLt

theorem route_effect {k now : Nat} {req : Request} (h : route proc s k req now = some s') :
    ∃ mid, Effect proc s mid ∧ (mid = s' ∨ Effect proc mid s') := by
  simp only [route, Option.bind_eq_bind, Option.bind_eq_some_iff] at h
  obtain ⟨flight, hflight, h⟩ := h
  split at h
  · have hrefuse : ∀ e, Declines (s.heap flight.slot flight.generation) req e →
        Effect proc s (s.setStage k flight (.refused req e)) := by
      intro e hdeclines
      refine .stage k flight _ hflight (by simp [Stage.choice]) ?_
      rintro r ⟨⟩
      exact hdeclines
    cases hroute : (s.heap flight.slot flight.generation).selectRoute req with
    | error e =>
        rw [hroute] at h
        cases h
        exact ⟨_, hrefuse e (.inl hroute), .inl rfl⟩
    | ok route =>
        simp only [hroute] at h
        cases hpool : (s.heap flight.slot flight.generation).selectUpstream route with
        | error e =>
            rw [hpool] at h
            cases h
            exact ⟨_, hrefuse e (.inr ⟨route, hroute, hpool⟩), .inl rfl⟩
        | ok pool =>
            simp only [hpool, Option.bind_eq_some_iff] at h
            obtain ⟨s₁, hs₁, hs'⟩ := h
            cases hs'
            refine ⟨_, .stage k flight (.chosen ⟨req, route, _⟩) hflight ?_
              (by simp [Stage.refusal]),
              .inr (effect_of_updatePool (by simp) (updatePool_setStage hs₁))⟩
            rintro c ⟨⟩
            exact .inr ⟨hroute, fun b hb =>
              ⟨pool, Dispatch.selectUpstream_eq_ok.mp hpool, pickAddr_backend hb⟩⟩
  · cases h

theorem settle_effect {k now : Nat} {outcome : Option Bool}
    (h : settle s k outcome now = some s') :
    ∃ mid, Effect proc s mid ∧ (mid = s' ∨ Effect proc mid s') := by
  simp only [settle, Option.bind_eq_bind, Option.bind_eq_some_iff] at h
  obtain ⟨flight, hflight, h⟩ := h
  split at h
  · rename_i choice hstage
    have hend : Effect proc s (s.setStage k flight (.settled choice)) := by
      refine .stage k flight _ hflight ?_ (by simp [Stage.refusal])
      rintro c ⟨⟩
      exact .inl (by rw [hstage]; rfl)
    split at h
    · cases h
      exact ⟨_, hend, .inl rfl⟩
    · obtain ⟨s₁, hs₁, hs'⟩ := Option.bind_eq_some_iff.mp h
      cases hs'
      exact ⟨_, hend, .inr (effect_of_updatePool (by simp) (updatePool_setStage hs₁))⟩
  · cases h

theorem sighup_effect {hup : Sighup} (h : sighup proc s hup = some s') : Effect proc s s' := by
  unfold sighup at h
  split at h
  · rename_i hphase
    split at h
    · cases h
      exact .exit hphase
    · split at h
      · rename_i e hload
        cases h
        exact .refuse hup e hphase hload
      · rename_i cfg hload
        cases h
        exact .accept hup cfg hphase hload
  · cases h

theorem store_effect (h : store proc s = some s') : Effect proc s s' := by
  unfold store at h
  split at h
  · rename_i hup cfg next hphase
    split at h
    · rename_i hnext
      cases h
      exact .store hup cfg next hphase hnext
    · cases h
  · cases h

theorem swapCerts_effect (h : swapCerts proc s = some s') : Effect proc s s' := by
  unfold swapCerts at h
  split at h
  · rename_i hup cfg next hphase
    split at h
    · cases h
    · rename_i hnext
      cases h
      exact .swapCerts hup cfg next hphase (Nat.le_of_not_lt hnext)
  · cases h

theorem step_effect {a : Action} (h : step proc s a = some s') :
    ∃ mid, Effect proc s mid ∧ (mid = s' ∨ Effect proc mid s') := by
  cases a with
  | sighup hup => exact ⟨s', sighup_effect h, .inl rfl⟩
  | store => exact ⟨s', store_effect h, .inl rfl⟩
  | swapCerts => exact ⟨s', swapCerts_effect h, .inl rfl⟩
  | finish =>
      cases h
      exact ⟨_, .finish, .inl rfl⟩
  | load slot =>
      obtain ⟨generation, hswap, rfl⟩ := Option.map_eq_some_iff.mp h
      exact ⟨_, .load slot generation hswap, .inl rfl⟩
  | route k req now => exact route_effect h
  | settle k outcome now => exact settle_effect h
  | probe name idx outcome now =>
      exact ⟨s', effect_of_updatePool (by simp) h, .inl rfl⟩

theorem Reached.of_effects (Inv : State → Prop) (h : Reached proc s) (h₀ : Inv proc.init)
    (heffect : ∀ s s', Inv s → Effect proc s s' → Inv s') : Inv s := by
  refine h.invariant Inv h₀ ?_
  intro s a s' hs _ hstep
  obtain ⟨mid, hmid, rfl | hs'⟩ := step_effect hstep
  · exact heffect s mid hs hmid
  · exact heffect mid s' (heffect s mid hs hmid) hs'

/-! ## Generations -/

/-- What swappable `i` holds: the newest document, or the one before it. -/
def State.generationOf (s : State) (i : Nat) : Nat :=
  match s.phase with
  | .storing _ _ next => if i < next then s.newest else s.newest - 1
  | _ => s.newest

/-- The choice is the one that the document asks for. -/
structure Follows (platform : Platform) (doc : Document) (c : Choice) : Prop where
  route : (RouteTable.fromConfig platform doc.cfg).find c.req.host c.req.parts.uri.path
    c.req.parts.headers = some c.route
  backend : ∀ b ∈ c.backend, ∃ u ∈ doc.cfg.upstreams, u.name = c.route.upstream ∧
    u.addrs[b.2]? = some b.1

/-- The document has no route for the request, or the upstream of its route does not load. -/
def Refuses (platform : Platform) (doc : Document) (i : Nat) (req : Request)
    (e : DispatchError) : Prop :=
  let found := (RouteTable.fromConfig platform doc.cfg).find req.host req.parts.uri.path
    req.parts.headers
  found = none ∧ e = .noRoute ∨
    ∃ route, found = some route ∧ e = .upstreamNotRegistered route.upstream ∧
      ∃ u ∈ doc.cfg.upstreams, u.name = route.upstream ∧ ¬ u.Loads platform (doc.builds i).1

def Document.Over (platform : Platform) (doc : Document) (i : Nat) (d : Dispatch) : Prop :=
  d.Over platform (doc.builds i).1 (doc.builds i).2 doc.cfg

structure Inv (proc : Process) (s : State) : Prop where
  wellFormed : ∀ doc ∈ s.documents, doc.cfg.WellFormed proc.start.opts
  nonempty : 0 < s.documents.length
  rolled : ∀ i g, s.swaps[i]? = some g → g = s.generationOf i
  storing : ∀ hup cfg next, s.phase = .storing hup cfg next →
    1 ≤ s.newest ∧ s.documents[s.newest]? = some ⟨cfg, hup.builds⟩
  heap : ∀ i h g (doc : Document), s.swaps[i]? = some h → g ≤ h → s.documents[g]? = some doc →
    doc.Over proc.start.platform i (s.heap i g)
  held : ∀ f ∈ s.flights, ∃ h, s.swaps[f.slot]? = some h ∧ f.generation ≤ h
  follows : ∀ f ∈ s.flights, ∀ c, f.stage.choice = some c → ∀ doc,
    s.documents[f.generation]? = some doc → Follows proc.start.platform doc c
  refuses : ∀ f ∈ s.flights, ∀ r, f.stage.refusal = some r → ∀ doc,
    s.documents[f.generation]? = some doc → Refuses proc.start.platform doc f.slot r.1 r.2
  ordered : s.flights.Pairwise fun f f' => f.slot = f'.slot → f.generation ≤ f'.generation

theorem Inv.initial (proc : Process) : Inv proc proc.init := by
  have hdocs : ∀ (g : Nat) doc, proc.init.documents[g]? = some doc → doc = proc.document := by
    intro g doc hdoc
    exact List.mem_singleton.mp (List.mem_of_getElem? hdoc)
  refine ⟨?_, Nat.zero_lt_one, ?_, ?_, ?_, ?_, ?_, ?_, List.Pairwise.nil⟩
  · intro doc hdoc
    rw [List.mem_singleton.mp hdoc]
    exact proc.start.wellFormed
  · intro i g hg
    exact (List.mem_replicate.mp (List.mem_of_getElem? hg)).2
  · rintro hup cfg next ⟨⟩
  · intro i h g doc _ _ hdoc
    rw [hdocs g doc hdoc]
    exact Dispatch.over_fromConfig
  · exact fun f hf => absurd hf List.not_mem_nil
  · exact fun f hf => absurd hf List.not_mem_nil
  · exact fun f hf => absurd hf List.not_mem_nil

theorem State.generationOf_le (s : State) (i : Nat) : s.generationOf i ≤ s.newest := by
  unfold generationOf
  split
  · split
    · exact Nat.le_refl _
    · exact Nat.sub_le _ _
  · exact Nat.le_refl _

theorem Inv.lt_documents (h : Inv proc s) {i g : Nat} (hg : s.swaps[i]? = some g) :
    g < s.documents.length := by
  have hle : g ≤ s.newest := h.rolled i g hg ▸ s.generationOf_le i
  have hpos := h.nonempty
  simp only [State.newest] at hle
  omega

theorem Decides.follows {doc : Document} {i : Nat} {d : Dispatch} {c : Choice}
    (hd : doc.Over proc.start.platform i d) (hwf : doc.cfg.WellFormed proc.start.opts)
    (hc : Decides d c) : Follows proc.start.platform doc c := by
  constructor
  · have hroute := Dispatch.selectRoute_eq_ok.mp hc.route
    rwa [hd.routes] at hroute
  · intro b hb
    obtain ⟨pool, hget, haddr⟩ := hc.backend b hb
    obtain ⟨u, hu, hname, haddrs⟩ := hd.pool hwf hget
    exact ⟨u, hu, hname, haddrs ▸ haddr⟩

theorem Declines.refuses {doc : Document} {i : Nat} {d : Dispatch} {req : Request}
    {e : DispatchError} (hd : doc.Over proc.start.platform i d)
    (hwf : doc.cfg.WellFormed proc.start.opts) (h : Declines d req e) :
    Refuses proc.start.platform doc i req e := by
  rcases h with hroute | ⟨route, hroute, hpool⟩
  · unfold Dispatch.selectRoute at hroute
    split at hroute
    · cases hroute
    · rename_i hnone
      cases hroute
      exact .inl ⟨hd.routes ▸ hnone, rfl⟩
  · obtain ⟨u, hu, hname⟩ := hd.route_upstream hwf hroute
    unfold Dispatch.selectUpstream at hpool
    split at hpool
    · cases hpool
    · rename_i hnone
      cases hpool
      refine .inr ⟨route, hd.routes ▸ Dispatch.selectRoute_eq_ok.mp hroute, rfl, u, hu, hname, ?_⟩
      exact (hd.get_eq_none_iff hwf hu).mp (hname ▸ hnone)

theorem Inv.accept (h : Inv proc s) {hup : Sighup} {cfg : Config}
    (hphase : s.phase = .waiting) (hload : proc.thread.loadConfig hup = .ok cfg) :
    Inv proc
      { s with
        documents := s.documents ++ [⟨cfg, hup.builds⟩]
        phase := .storing hup cfg 0
        handled := s.handled ++ [hup] } := by
  have hpos := h.nonempty
  have hsame : ∀ g, g < s.documents.length →
      (s.documents ++ [⟨cfg, hup.builds⟩])[g]? = s.documents[g]? :=
    fun g hg => List.getElem?_append_left hg
  refine ⟨?_, by simp, ?_, ?_, ?_, h.held, ?_, ?_, h.ordered⟩
  · intro doc hdoc
    rcases List.mem_append.mp hdoc with hdoc | hdoc
    · exact h.wellFormed doc hdoc
    · rw [List.mem_singleton.mp hdoc]
      exact ReloadThread.wellFormed_of_loadConfig hload
  · intro i g hg
    rw [h.rolled i g hg]
    simp only [State.generationOf, hphase, State.newest, List.length_append,
      List.length_singleton, Nat.not_lt_zero, if_false, Nat.add_sub_cancel]
  · rintro _ _ _ ⟨⟩
    simp only [State.newest, List.length_append, List.length_singleton, Nat.add_sub_cancel]
    exact ⟨hpos, List.getElem?_concat_length⟩
  · intro i top g doc htop hle hdoc
    rw [hsame g (hle.trans_lt (h.lt_documents htop))] at hdoc
    exact h.heap i top g doc htop hle hdoc
  · intro f hf c hc doc hdoc
    obtain ⟨top, htop, hle⟩ := h.held f hf
    rw [hsame _ (hle.trans_lt (h.lt_documents htop))] at hdoc
    exact h.follows f hf c hc doc hdoc
  · intro f hf r hr doc hdoc
    obtain ⟨top, htop, hle⟩ := h.held f hf
    rw [hsame _ (hle.trans_lt (h.lt_documents htop))] at hdoc
    exact h.refuses f hf r hr doc hdoc

theorem Inv.store (h : Inv proc s) {hup : Sighup} {cfg : Config} {next : Nat}
    (hphase : s.phase = .storing hup cfg next) (hnext : next < s.swaps.length) :
    Inv proc
      { s.setHeap next s.newest (proc.thread.build hup cfg next) with
        swaps := s.swaps.set next s.newest
        phase := .storing hup cfg (next + 1) } := by
  obtain ⟨hone, hlast⟩ := h.storing hup cfg next hphase
  have hswaps : ∀ i top, (s.swaps.set next s.newest)[i]? = some top →
      (i = next ∧ top = s.newest) ∨ (i ≠ next ∧ s.swaps[i]? = some top) := by
    intro i top htop
    by_cases heq : i = next
    · rw [heq, List.getElem?_set_self hnext] at htop
      exact .inl ⟨heq, (Option.some.inj htop).symm⟩
    · rw [List.getElem?_set_ne (Ne.symm heq)] at htop
      exact .inr ⟨heq, htop⟩
  refine ⟨h.wellFormed, h.nonempty, ?_, ?_, ?_, ?_, h.follows, h.refuses, h.ordered⟩
  · intro i g hg
    simp only [State.generationOf, State.newest, State.setHeap]
    rcases hswaps i g hg with ⟨rfl, rfl⟩ | ⟨hne, hg⟩
    · rw [if_pos (Nat.lt_succ_self _), State.newest]
    · have hold := h.rolled i g hg
      simp only [State.generationOf, hphase, State.newest] at hold
      rw [hold]
      by_cases hlt : i < next
      · rw [if_pos hlt, if_pos (by omega)]
      · rw [if_neg hlt, if_neg (by omega)]
  · rintro _ _ _ ⟨⟩
    exact ⟨hone, hlast⟩
  · intro i top g doc htop hle hdoc
    replace hdoc : s.documents[g]? = some doc := hdoc
    simp only [State.setHeap]
    rcases hswaps i top htop with ⟨rfl, rfl⟩ | ⟨hne, htop⟩
    · rw [Function.update_self]
      by_cases hg : g = s.newest
      · rw [hg, hlast] at hdoc
        cases hdoc
        rw [hg, Function.update_self]
        exact Dispatch.over_fromConfig
      · rw [Function.update_of_ne hg]
        obtain ⟨old, hold⟩ : ∃ old, s.swaps[i]? = some old :=
          ⟨_, List.getElem?_eq_getElem hnext⟩
        have hprev := h.rolled i old hold
        simp only [State.generationOf, hphase, Nat.lt_irrefl, if_false] at hprev
        exact h.heap i old g doc hold (by omega) hdoc
    · rw [Function.update_of_ne hne]
      exact h.heap i top g doc htop hle hdoc
  · intro f hf
    obtain ⟨top, htop, hle⟩ := h.held f hf
    by_cases heq : f.slot = next
    · refine ⟨s.newest, by rw [heq]; exact List.getElem?_set_self hnext, hle.trans ?_⟩
      exact h.rolled _ _ htop ▸ s.generationOf_le _
    · exact ⟨top, by rw [← htop]; exact List.getElem?_set_ne (Ne.symm heq), hle⟩

theorem Inv.load (h : Inv proc s) {slot generation : Nat}
    (hswap : s.swaps[slot]? = some generation) :
    Inv proc { s with flights := s.flights ++ [⟨slot, generation, .loaded⟩] } := by
  refine ⟨h.wellFormed, h.nonempty, h.rolled, h.storing, h.heap, ?_, ?_, ?_, ?_⟩
  · intro f hf
    rcases List.mem_append.mp hf with hf | hf
    · exact h.held f hf
    · rw [List.mem_singleton.mp hf]
      exact ⟨generation, hswap, Nat.le_refl _⟩
  · intro f hf c hc
    rcases List.mem_append.mp hf with hf | hf
    · exact h.follows f hf c hc
    · rw [List.mem_singleton.mp hf] at hc
      cases hc
  · intro f hf r hr
    rcases List.mem_append.mp hf with hf | hf
    · exact h.refuses f hf r hr
    · rw [List.mem_singleton.mp hf] at hr
      cases hr
  · rw [List.pairwise_append]
    refine ⟨h.ordered, List.pairwise_singleton _ _, ?_⟩
    intro f hf f' hf' hslot
    rw [List.mem_singleton.mp hf'] at hslot ⊢
    obtain ⟨top, htop, hle⟩ := h.held f hf
    rw [hslot, hswap] at htop
    exact (Option.some.inj htop) ▸ hle

theorem Inv.stage (h : Inv proc s) {k : Nat} {flight : Flight} {next : Stage}
    (hflight : s.flights[k]? = some flight)
    (hnext : ∀ c, next.choice = some c → flight.stage.choice = some c ∨
      Decides (s.heap flight.slot flight.generation) c)
    (hrefusal : ∀ r, next.refusal = some r →
      Declines (s.heap flight.slot flight.generation) r.1 r.2) :
    Inv proc (s.setStage k flight next) := by
  have hmem : flight ∈ s.flights := List.mem_of_getElem? hflight
  have hset : ∀ f ∈ s.flights.set k { flight with stage := next },
      f ∈ s.flights ∨ f = { flight with stage := next } :=
    fun f hf => List.mem_or_eq_of_mem_set hf
  refine ⟨h.wellFormed, h.nonempty, h.rolled, h.storing, h.heap, ?_, ?_, ?_, ?_⟩
  · intro f hf
    rcases hset f hf with hf | rfl
    · exact h.held f hf
    · exact h.held flight hmem
  · intro f hf c hc doc hdoc
    rcases hset f hf with hf | rfl
    · exact h.follows f hf c hc doc hdoc
    · obtain ⟨top, htop, hle⟩ := h.held flight hmem
      rcases hnext c hc with hold | hnew
      · exact h.follows flight hmem c hold doc hdoc
      · exact hnew.follows (h.heap _ top _ doc htop hle hdoc)
          (h.wellFormed doc (List.mem_of_getElem? hdoc))
  · intro f hf r hr doc hdoc
    rcases hset f hf with hf | rfl
    · exact h.refuses f hf r hr doc hdoc
    · obtain ⟨top, htop, hle⟩ := h.held flight hmem
      exact (hrefusal r hr).refuses (h.heap _ top _ doc htop hle hdoc)
        (h.wellFormed doc (List.mem_of_getElem? hdoc))
  · have hview : (s.setStage k flight next).flights.map (fun f => (f.slot, f.generation)) =
        s.flights.map fun f => (f.slot, f.generation) := by
      obtain ⟨hk, rfl⟩ := List.getElem?_eq_some_iff.mp hflight
      have hlen : k < (s.flights.map fun f => (f.slot, f.generation)).length := by
        rwa [List.length_map]
      have hself := List.set_getElem_self hlen
      rw [List.getElem_map] at hself
      rw [State.setStage, List.map_set]
      exact hself
    have hpairs := h.ordered
    rw [← List.pairwise_map (f := fun f : Flight => (f.slot, f.generation))
      (R := fun p p' => p.1 = p'.1 → p.2 ≤ p'.2)] at hpairs ⊢
    rwa [hview]

theorem Inv.touch (h : Inv proc s) {slot generation : Nat} {name : String}
    {pool pool' : Upstream}
    (hget : (s.heap slot generation).upstreams.get name = some pool)
    (hfixed : pool'.fixed = pool.fixed) :
    Inv proc (s.setHeap slot generation
      { s.heap slot generation with
        upstreams := (s.heap slot generation).upstreams.insert name pool' }) := by
  refine ⟨h.wellFormed, h.nonempty, h.rolled, h.storing, ?_, h.held, h.follows, h.refuses,
    h.ordered⟩
  intro i top g doc htop hle hdoc
  have hover := h.heap i top g doc htop hle hdoc
  simp only [State.setHeap]
  by_cases hi : i = slot
  · subst hi
    rw [Function.update_self]
    by_cases hg : g = generation
    · subst hg
      rw [Function.update_self]
      exact Dispatch.Over.insert hover hget hfixed
    · rw [Function.update_of_ne hg]
      exact hover
  · rw [Function.update_of_ne hi]
    exact hover

theorem Inv.effect (h : Inv proc s) (heffect : Effect proc s s') : Inv proc s' := by
  have hidle : ∀ phase : Phase, (∀ i, State.generationOf { s with phase := phase } i =
      s.generationOf i) → (∀ hup cfg next, phase ≠ .storing hup cfg next) →
      Inv proc { s with phase := phase } := by
    intro phase hsame hphase
    exact ⟨h.wellFormed, h.nonempty, fun i g hg => (h.rolled i g hg).trans (hsame i).symm,
      fun hup cfg next hs => absurd hs (hphase hup cfg next), h.heap, h.held, h.follows,
      h.refuses, h.ordered⟩
  cases heffect with
  | exit hphase =>
      exact hidle .exited (fun i => by simp [State.generationOf, hphase, State.newest])
        (by simp)
  | refuse hup e hphase hload =>
      exact ⟨h.wellFormed, h.nonempty, h.rolled, h.storing, h.heap, h.held, h.follows,
        h.refuses, h.ordered⟩
  | accept hup cfg hphase hload => exact h.accept hphase hload
  | store hup cfg next hphase hnext => exact h.store hphase hnext
  | swapCerts hup cfg next hphase hnext =>
      refine ⟨h.wellFormed, h.nonempty, ?_, by simp, h.heap, h.held, h.follows, h.refuses,
        h.ordered⟩
      intro i g hg
      have hi := (List.getElem?_eq_some_iff.mp hg).1
      have hold := h.rolled i g hg
      simp only [State.generationOf, hphase] at hold
      rw [if_pos (hi.trans_le hnext)] at hold
      exact hold
  | finish =>
      exact ⟨h.wellFormed, h.nonempty, h.rolled, h.storing, h.heap, h.held, h.follows,
        h.refuses, h.ordered⟩
  | load slot generation hswap => exact h.load hswap
  | stage k flight next hflight hnext hrefusal => exact h.stage hflight hnext hrefusal
  | touch slot generation name pool pool' hget hfixed => exact h.touch hget hfixed

theorem Reached.inv (h : Reached proc s) : Inv proc s :=
  h.of_effects (Inv proc) (Inv.initial proc) fun _ _ => Inv.effect

/--
The new document reaches the swappables from the primary on: those stored hold
it, the others the document before it, and none when the thread waits.  Of two
requests on one swappable the later never gets the older document.
-/
theorem swappables_roll_forward (proc : Process) (s : State) (h : Reached proc s) :
    (∀ i g, s.swaps[i]? = some g → g = s.generationOf i) ∧
    (s.phase = .waiting → ∀ g ∈ s.swaps, g = s.newest) ∧
    (∀ f ∈ s.flights, ∃ g, s.swaps[f.slot]? = some g ∧ f.generation ≤ g) ∧
    s.flights.Pairwise fun f f' => f.slot = f'.slot → f.generation ≤ f'.generation := by
  have hinv := h.inv
  refine ⟨hinv.rolled, fun hphase g hg => ?_, hinv.held, hinv.ordered⟩
  obtain ⟨i, hi⟩ := List.mem_iff_getElem?.mp hg
  rw [hinv.rolled i g hi, State.generationOf, hphase]

/-! ## The atomic reload -/

end Swap

def Process.live (proc : Process) : Live where
  dispatches := (List.range proc.swappables).map fun i => ⟨i, proc.start.buildDispatch⟩
  certResolver := proc.certTable.map (⟨proc.swappables, ·⟩)
  allocated := proc.swappables + 1
  dispatches_ne_nil := by
    simp [Process.swappables]
  dispatches_allocated := by
    intro swap hswap
    obtain ⟨i, hi, rfl⟩ := List.mem_map.mp hswap
    exact Nat.lt_succ_of_lt (List.mem_range.mp hi)
  resolver_allocated := by
    intro table htable
    obtain ⟨_, -, rfl⟩ := Option.map_eq_some_iff.mp htable
    exact Nat.lt_succ_self _

namespace Swap

variable {proc : Process} {s s' : State}

/-- One whole reload for each signal, as if no request could see it happen. -/
def atomic (proc : Process) (hups : List Sighup) : Live :=
  hups.foldl proc.thread.handleSighup proc.live

def accepted (proc : Process) (hup : Sighup) : Option Document :=
  (proc.thread.loadConfig hup).toOption.map (⟨·, hup.builds⟩)

def documentsOf (proc : Process) (hups : List Sighup) : List Document :=
  proc.document :: hups.filterMap (accepted proc)

theorem atomic_concat (proc : Process) (hups : List Sighup) (hup : Sighup) :
    atomic proc (hups ++ [hup]) = proc.thread.handleSighup (atomic proc hups) hup := by
  rw [atomic, List.foldl_append]
  rfl

theorem documentsOf_concat (proc : Process) (hups : List Sighup) (hup : Sighup) :
    documentsOf proc (hups ++ [hup]) =
      documentsOf proc hups ++ (accepted proc hup).toList := by
  rw [documentsOf, List.filterMap_append, documentsOf, List.cons_append]
  cases haccepted : accepted proc hup <;> simp [haccepted]

theorem accepted_of_error {hup : Sighup} {e : ConfigError}
    (h : proc.thread.loadConfig hup = .error e) : accepted proc hup = none := by
  rw [accepted, h]
  rfl

theorem accepted_of_ok {hup : Sighup} {cfg : Config}
    (h : proc.thread.loadConfig hup = .ok cfg) :
    accepted proc hup = some ⟨cfg, hup.builds⟩ := by
  rw [accepted, h]
  rfl

theorem handleSighup_of_error {hup : Sighup} {e : ConfigError} (live : Live)
    (h : proc.thread.loadConfig hup = .error e) : proc.thread.handleSighup live hup = live := by
  rw [ReloadThread.handleSighup, h]

theorem handleSighup_certTable {hup : Sighup} {cfg : Config} (live : Live)
    (h : proc.thread.loadConfig hup = .ok cfg) :
    (proc.thread.handleSighup live hup).certResolver.map Arc.value =
      reloadTable proc hup cfg (live.certResolver.map Arc.value) := by
  have hstored : (proc.thread.storeDispatches hup cfg live).certResolver =
      live.certResolver := rfl
  simp only [ReloadThread.handleSighup, h, hstored, reloadTable]
  cases hresolver : live.certResolver with
  | none => simp [hstored, hresolver]
  | some old =>
      cases htls : cfg.tls with
      | none => simp [hstored, hresolver]
      | some tls =>
          simp only [ReloadThread.reloadCerts]
          cases hbuild : buildTable proc.thread.platform hup.certFiles tls.certs with
          | error e => simp [hbuild, hstored, hresolver, Except.toOption]
          | ok table => simp [hbuild, Except.toOption]

theorem atomic_dispatches (proc : Process) (hups : List Sighup) :
    ∃ doc, (documentsOf proc hups).getLast? = some doc ∧
      (atomic proc hups).dispatches.map Arc.value =
        (List.range proc.swappables).map (doc.build proc.start.platform) := by
  induction hups using List.reverseRecOn with
  | nil =>
      refine ⟨proc.document, rfl, ?_⟩
      rw [atomic, List.foldl_nil, Process.live, List.map_map]
      rfl
  | append_singleton hups hup ih =>
      rw [atomic_concat, documentsOf_concat]
      cases hload : proc.thread.loadConfig hup with
      | error e =>
          rw [handleSighup_of_error _ hload, accepted_of_error hload, Option.toList_none,
            List.append_nil]
          exact ih
      | ok cfg =>
          obtain ⟨_, -, hvalues⟩ := ih
          have hlength : (atomic proc hups).dispatches.length = proc.swappables := by
            simpa using congrArg List.length hvalues
          refine ⟨⟨cfg, hup.builds⟩, ?_, ?_⟩
          · rw [accepted_of_ok hload, Option.toList_some, List.getLast?_concat]
          · rw [ReloadThread.handleSighup_dispatches _ hload]
            apply List.ext_getElem?
            intro i
            simp only [List.getElem?_map, List.getElem?_mapIdx, Option.map_map]
            by_cases hi : i < proc.swappables
            · rw [List.getElem?_eq_getElem (hlength ▸ hi), List.getElem?_range hi]
              rfl
            · rw [List.getElem?_eq_none (by omega), List.getElem?_eq_none (by simpa using hi)]
              rfl

/-- The run so far against whole reloads of the signals it has taken. -/
structure Refines (proc : Process) (s : State) : Prop where
  length : s.swaps.length = proc.swappables
  documents : s.documents = documentsOf proc s.handled
  idle : (∀ hup cfg next, s.phase ≠ .storing hup cfg next) →
    s.certResolver = (atomic proc s.handled).certResolver.map Arc.value
  storing : ∀ hup cfg next, s.phase = .storing hup cfg next → ∃ hups,
    s.handled = hups ++ [hup] ∧ proc.thread.loadConfig hup = .ok cfg ∧
      s.certResolver = (atomic proc hups).certResolver.map Arc.value

theorem Refines.initial (proc : Process) : Refines proc proc.init where
  length := List.length_replicate
  documents := rfl
  idle _ := by
    rw [show (atomic proc proc.init.handled).certResolver =
      proc.certTable.map (⟨proc.swappables, ·⟩) from rfl, Option.map_map]
    exact Option.map_id'.symm
  storing := by
    rintro hup cfg next ⟨⟩

theorem Refines.effect (h : Refines proc s) (heffect : Effect proc s s') :
    Refines proc s' := by
  cases heffect with
  | exit hphase =>
      exact ⟨h.length, h.documents, fun _ => h.idle (by simp [hphase]), by simp⟩
  | refuse hup e hphase hload =>
      refine ⟨h.length, ?_, fun hidle => ?_, fun hup' cfg next hs => ?_⟩
      · dsimp only
        rw [documentsOf_concat, accepted_of_error hload, Option.toList_none, List.append_nil,
          h.documents]
      · dsimp only
        rw [atomic_concat, handleSighup_of_error _ hload]
        exact h.idle hidle
      · rw [hphase] at hs
        cases hs
  | accept hup cfg hphase hload =>
      refine ⟨h.length, ?_, fun hidle => absurd rfl (hidle _ _ _), ?_⟩
      · dsimp only
        rw [documentsOf_concat, accepted_of_ok hload, h.documents, Option.toList_some]
      · rintro _ _ _ ⟨⟩
        exact ⟨s.handled, rfl, hload, h.idle (by simp [hphase])⟩
  | store hup cfg next hphase hnext =>
      refine ⟨by simpa using h.length, h.documents, fun hidle => absurd rfl (hidle _ _ _), ?_⟩
      rintro _ _ _ ⟨⟩
      exact h.storing hup cfg next hphase
  | swapCerts hup cfg next hphase hnext =>
      refine ⟨h.length, h.documents, fun _ => ?_, by simp⟩
      obtain ⟨hups, hhandled, hload, hcerts⟩ := h.storing hup cfg next hphase
      dsimp only
      rw [hhandled, atomic_concat, handleSighup_certTable _ hload, hcerts]
  | finish => exact ⟨h.length, h.documents, h.idle, h.storing⟩
  | load slot generation hswap => exact ⟨h.length, h.documents, h.idle, h.storing⟩
  | stage k flight next hflight hnext hrefusal => exact ⟨h.length, h.documents, h.idle, h.storing⟩
  | touch slot generation name pool pool' hget hfixed =>
      exact ⟨h.length, h.documents, h.idle, h.storing⟩

theorem Reached.refines (h : Reached proc s) : Refines proc s :=
  h.of_effects (Refines proc) (Refines.initial proc) fun _ _ => Refines.effect

/--
When the thread waits, the process is where whole reloads would have brought
it: every swappable holds the same routes and pools, up to the counters and
breakers that requests and probes have moved, and the same certificate table.
-/
theorem waiting_refines_atomic_reload (proc : Process) (s : State) (h : Reached proc s)
    (hphase : s.phase = .waiting) :
    (atomic proc s.handled).dispatches.length = s.swaps.length ∧
    (∀ i swap, (atomic proc s.handled).dispatches[i]? = some swap →
      ∃ g, s.swaps[i]? = some g ∧ (s.heap i g).routes = swap.value.routes ∧
        ∀ name, ((s.heap i g).upstreams.get name).map Upstream.fixed =
          (swap.value.upstreams.get name).map Upstream.fixed) ∧
    s.certResolver = (atomic proc s.handled).certResolver.map Arc.value := by
  have hinv := h.inv
  have hrefines := h.refines
  obtain ⟨doc, hdoc, hvalues⟩ := atomic_dispatches proc s.handled
  have hlength : (atomic proc s.handled).dispatches.length = s.swaps.length := by
    simpa [hrefines.length] using congrArg List.length hvalues
  refine ⟨hlength, ?_, hrefines.idle (by simp [hphase])⟩
  intro i swap hswap
  have hi : i < s.swaps.length := hlength ▸ (List.getElem?_eq_some_iff.mp hswap).1
  have hg := List.getElem?_eq_getElem hi
  have hnewest := hinv.rolled i _ hg
  simp only [State.generationOf, hphase] at hnewest
  rw [← hrefines.documents, List.getLast?_eq_getElem?] at hdoc
  have hover := hinv.heap i _ s.newest doc hg hnewest.ge hdoc
  have hvalue : swap.value = doc.build proc.start.platform i := by
    have hget := congrArg (·[i]?) hvalues
    simp only [List.getElem?_map, hswap, List.getElem?_range (hrefines.length ▸ hi),
      Option.map_some, Option.some.injEq] at hget
    exact hget
  rw [hnewest] at hg
  rw [hvalue]
  exact ⟨s.newest, hg, hover.routes, hover.upstreams⟩

/-! ## Certificates -/

def installed (proc : Process) (hup : Sighup) : Option (Files × List Config.CertSpec) := do
  let cfg ← (proc.thread.loadConfig hup).toOption
  let tls ← cfg.tls
  match buildTable proc.start.platform hup.certFiles tls.certs with
  | .ok _ => return (hup.certFiles, tls.certs)
  | .error _ => none

def certSources (proc : Process) (hups : List Sighup) :
    List (Files × List Config.CertSpec) :=
  (proc.start.cfg.tls.map fun tls => (proc.start.files, tls.certs)).toList ++
    hups.filterMap (installed proc)

def State.completed (s : State) : List Sighup :=
  match s.phase with
  | .storing _ _ _ => s.handled.dropLast
  | _ => s.handled

theorem certSources_concat (proc : Process) (hups : List Sighup) (hup : Sighup) :
    certSources proc (hups ++ [hup]) =
      certSources proc hups ++ (installed proc hup).toList := by
  rw [certSources, List.filterMap_append, certSources, List.append_assoc]
  cases hinstalled : installed proc hup <;> simp [hinstalled]

theorem buildTable_of_loadServerConfig {platform : Platform} {files : Files}
    {tls : Config.TlsConfig} {table : CertTable}
    (h : (loadServerConfig platform files tls).toOption = some table) :
    buildTable platform files tls.certs = .ok table := by
  have hload := toOption_eq_some_iff.mp h
  rw [loadServerConfig] at hload
  split at hload
  · cases hload
  · exact hload

theorem buildTable_of_certTable {table : CertTable} (h : proc.certTable = some table) :
    ∃ tls, proc.start.cfg.tls = some tls ∧
      buildTable proc.start.platform proc.start.files tls.certs = .ok table := by
  simp only [Process.certTable, Option.bind_eq_bind, Option.bind_eq_some_iff] at h
  obtain ⟨tls, htls, h⟩ := h
  refine ⟨tls, htls, ?_⟩
  split at h
  · cases h
  · exact buildTable_of_loadServerConfig h

theorem buildTable_of_h3Certs {table : CertTable} (h : proc.h3Certs = some table) :
    ∃ tls, proc.start.cfg.tls = some tls ∧
      buildTable proc.start.platform proc.start.files tls.certs = .ok table := by
  simp only [Process.h3Certs, Option.bind_eq_bind, Option.bind_eq_some_iff] at h
  obtain ⟨tls, htls, h⟩ := h
  refine ⟨tls, htls, ?_⟩
  split at h
  · exact buildTable_of_loadServerConfig h
  · cases h

theorem Reached.h3Certs (h : Reached proc s) : s.h3Certs = proc.h3Certs := by
  refine h.of_effects (fun s => s.h3Certs = proc.h3Certs) rfl ?_
  intro s s' hs heffect
  cases heffect <;> exact hs

def ServesLast (proc : Process) (hups : List Sighup) (table : Option CertTable) : Prop :=
  table.isSome = proc.certTable.isSome ∧
    ∀ t, table = some t → ∃ source, (certSources proc hups).getLast? = some source ∧
      buildTable proc.start.platform source.1 source.2 = .ok t

theorem servesLast_reload {hups : List Sighup} {hup : Sighup} {cfg : Config}
    {table : Option CertTable} (h : ServesLast proc hups table)
    (hload : proc.thread.loadConfig hup = .ok cfg) :
    ServesLast proc (hups ++ [hup]) (reloadTable proc hup cfg table) := by
  obtain ⟨hsome, hlast⟩ := h
  cases table with
  | none => exact ⟨hsome, by simp [reloadTable]⟩
  | some old =>
      refine ⟨?_, fun t ht => ?_⟩
      · rw [← hsome]
        unfold reloadTable
        split <;> rfl
      · obtain ⟨source, hsource, hbuilt⟩ := hlast old rfl
        rw [certSources_concat]
        simp only [installed, hload, Except.toOption, Option.bind_eq_bind, Option.bind_some]
        cases htls : cfg.tls with
        | none =>
            simp only [reloadTable, htls, Option.some.injEq] at ht
            simp only [Option.bind_none, Option.toList_none, List.append_nil]
            exact ⟨source, hsource, ht ▸ hbuilt⟩
        | some tls =>
            simp only [reloadTable, htls, Option.some.injEq] at ht
            simp only [Option.bind_some]
            cases hbuild : buildTable proc.start.platform hup.certFiles tls.certs with
            | error e =>
                rw [show proc.thread.platform = proc.start.platform from rfl, hbuild] at ht
                simp only [Option.toList_none, List.append_nil]
                exact ⟨source, hsource, ht ▸ hbuilt⟩
            | ok built =>
                rw [show proc.thread.platform = proc.start.platform from rfl, hbuild] at ht
                simp only [Option.pure_def, Option.toList_some, List.getLast?_concat]
                exact ⟨_, rfl, hbuild.trans (congrArg _ ht)⟩

theorem servesLast_atomic (proc : Process) (hups : List Sighup) :
    ServesLast proc hups ((atomic proc hups).certResolver.map Arc.value) := by
  induction hups using List.reverseRecOn with
  | nil =>
      rw [show (atomic proc []).certResolver = proc.certTable.map (⟨proc.swappables, ·⟩) from rfl,
        Option.map_map]
      refine ⟨by simp, fun t ht => ?_⟩
      obtain ⟨tls, htls, hbuilt⟩ := buildTable_of_certTable (Option.map_id'.symm.trans ht)
      exact ⟨(proc.start.files, tls.certs), by simp [certSources, htls], hbuilt⟩
  | append_singleton hups hup ih =>
      rw [atomic_concat]
      cases hload : proc.thread.loadConfig hup with
      | error e =>
          rw [handleSighup_of_error _ hload, ServesLast, certSources_concat,
            show installed proc hup = none by simp [installed, hload, Except.toOption],
            Option.toList_none, List.append_nil]
          exact ih
      | ok cfg =>
          rw [handleSighup_certTable _ hload]
          exact servesLast_reload ih hload

/-- Handshakes on the table get the entry that `source` declares for the server name. -/
def AnsweredFrom (platform : Platform) (source : Files × List Config.CertSpec)
    (table : CertTable) : Prop :=
  ∀ serverName : Option String, ∃ spec ck,
    (if serverName.getD "" = "" then source.2.head?
      else Config.CertSpec.select source.2 (serverName.getD "")) = some spec ∧
    loadSpec platform source.1 spec = .ok ck ∧
    (MultiCertResolver.mk table).resolve serverName = some ck

/--
Every HTTPS handshake is answered from the last document whose certificates
could be loaded, by the entry that this document declares for the server name;
reloads neither start nor stop TLS.  Every QUIC handshake is answered from the
document of the start.
-/
theorem handshakes_use_last_good_certificates (proc : Process) (s : State)
    (h : Reached proc s) :
    s.certResolver.isSome = proc.certTable.isSome ∧
    (∀ table, s.certResolver = some table → ∃ source,
      (certSources proc s.completed).getLast? = some source ∧
      AnsweredFrom proc.start.platform source table) ∧
    s.h3Certs = proc.h3Certs ∧
    ∀ table, s.h3Certs = some table → ∃ tls, proc.start.cfg.tls = some tls ∧
      AnsweredFrom proc.start.platform (proc.start.files, tls.certs) table := by
  have hrefines := h.refines
  have hlast : ServesLast proc s.completed s.certResolver := by
    cases hphase : s.phase with
    | waiting =>
        rw [hrefines.idle (by simp [hphase]), State.completed, hphase]
        exact servesLast_atomic proc s.handled
    | exited =>
        rw [hrefines.idle (by simp [hphase]), State.completed, hphase]
        exact servesLast_atomic proc s.handled
    | storing hup cfg next =>
        obtain ⟨hups, hhandled, -, hcerts⟩ := hrefines.storing hup cfg next hphase
        rw [hcerts, State.completed, hphase]
        simp only [hhandled, List.dropLast_concat]
        exact servesLast_atomic proc hups
  refine ⟨hlast.1, fun table htable => ?_, h.h3Certs, fun table htable => ?_⟩
  · obtain ⟨source, hsource, hbuilt⟩ := hlast.2 table htable
    exact ⟨source, hsource, MultiCertResolver.resolve_of_buildTable hbuilt⟩
  · obtain ⟨tls, htls, hbuilt⟩ := buildTable_of_h3Certs (h.h3Certs.symm.trans htable)
    exact ⟨tls, htls, MultiCertResolver.resolve_of_buildTable hbuilt⟩

/-! ## Probes -/

end Swap

namespace Sample

def process : Process where
  start := plaintext
  fromStr _ := .ok document
  path := "/etc/conduit/conduit.toml"

def reloadRun : List Swap.Action :=
  [.load 0, .load 1, .sighup sighup, .store, .load 0, .load 1, .store, .load 1, .swapCerts]

def reloaded : Swap.State :=
  (execute (Swap.step process) (fun _ _ => True) process.init reloadRun).get (by decide)

theorem reloaded_reached : Swap.Reached process reloaded :=
  Reachable.of_execute Reachable.refl (Option.some_get _).symm

def shop (file : String) : Config.CertSpec := ⟨"shop.org", file, file, none⟩

def secureDocument (file : String) : Config :=
  { document with
    server :=
      { adminListen := admin
        workers := .count 1 Nat.one_pos
        listenHttps := [.v4 ⟨0, 0, 0, 0⟩ 443]
        listenH3 := [.v4 ⟨0, 0, 0, 0⟩ 443] }
    tls := some ⟨[shop file]⟩ }

def secureProcess : Process where
  start :=
    { plaintext with
      files := MultiCertResolver.pathFiles
      cfg := secureDocument "old"
      valid := by decide
      listens := by decide }
  fromStr _ := .ok (secureDocument "new")
  path := "/etc/conduit/conduit.toml"

def secureHup : Sighup :=
  ⟨some "", fun _ => true, fun _ => (MultiCertResolver.pathFiles, 0),
    MultiCertResolver.pathFiles⟩

def renewed : Swap.State :=
  (execute (Swap.step secureProcess) (fun _ _ => True) secureProcess.init
    [.sighup secureHup, .store, .store, .swapCerts]).get (by decide)

theorem renewed_reached : Swap.Reached secureProcess renewed :=
  Reachable.of_execute Reachable.refl (Option.some_get _).symm

end Sample

namespace Swap

theorem swappables_roll_forward_sample :
    Sample.reloaded.swaps = [1, 1] ∧
    Sample.reloaded.flights.Pairwise fun f f' =>
      f.slot = f'.slot → f.generation ≤ f'.generation :=
  ⟨by decide, (swappables_roll_forward Sample.process Sample.reloaded
    Sample.reloaded_reached).2.2.2⟩

theorem waiting_refines_atomic_reload_sample :
    (atomic Sample.process [Sample.sighup]).dispatches.length = 2 ∧
    Sample.reloaded.certResolver =
      (atomic Sample.process [Sample.sighup]).certResolver.map Arc.value := by
  obtain ⟨hlength, -, hcerts⟩ := waiting_refines_atomic_reload Sample.process Sample.reloaded
    Sample.reloaded_reached rfl
  exact ⟨hlength, hcerts⟩

theorem handshakes_use_last_good_certificates_sample :
    ∃ table ck quic ck', Sample.renewed.certResolver = some table ∧
      loadSpec .concrete MultiCertResolver.pathFiles (Sample.shop "new") = .ok ck ∧
      (MultiCertResolver.mk table).resolve (some "shop.org") = some ck ∧
      Sample.renewed.h3Certs = some quic ∧
      loadSpec .concrete MultiCertResolver.pathFiles (Sample.shop "old") = .ok ck' ∧
      (MultiCertResolver.mk quic).resolve (some "shop.org") = some ck' := by
  obtain ⟨hsome, hserved, hkept, hquic⟩ := handshakes_use_last_good_certificates
    Sample.secureProcess Sample.renewed Sample.renewed_reached
  have hstarted : Sample.secureProcess.certTable.isSome = true := rfl
  have hquicStarted : Sample.secureProcess.h3Certs.isSome = true := rfl
  obtain ⟨table, htable⟩ := Option.isSome_iff_exists.mp (hsome.trans hstarted)
  obtain ⟨quic, hopened⟩ := Option.isSome_iff_exists.mp hquicStarted
  obtain ⟨source, hsource, hresolve⟩ := hserved table htable
  have hlast : (certSources Sample.secureProcess Sample.renewed.completed).getLast? =
      some (MultiCertResolver.pathFiles, [Sample.shop "new"]) := rfl
  obtain rfl := Option.some.inj (hlast.symm.trans hsource)
  obtain ⟨spec, ck, hspec, hload, hkey⟩ := hresolve (some "shop.org")
  obtain rfl : Sample.shop "new" = spec := Option.some.inj hspec
  obtain ⟨tls, htls, hanswered⟩ := hquic quic (hkept.trans hopened)
  cases htls
  obtain ⟨spec', ck', hspec', hload', hkey'⟩ := hanswered (some "shop.org")
  obtain rfl : Sample.shop "old" = spec' := Option.some.inj hspec'
  exact ⟨table, ck, quic, ck', htable, hload, hkey, hkept.trans hopened, hload', hkey'⟩

end Swap

end Conduit
