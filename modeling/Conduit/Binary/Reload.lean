import Conduit.Lifecycle.Dispatch
import Conduit.Transport.Resolver

/-!
# Hot reload

On `SIGHUP` the reload thread loads the configuration, stores a fresh
dispatcher in every swappable and then swaps the certificate table.  Only the
first of these steps can stop the others: an upstream whose PEM files do not
load is left out of a dispatcher, and a certificate that does not load leaves
the old table beside the new dispatchers.
-/

namespace Conduit

/-- A shared allocation; `ptr` tells apart two of equal value. -/
structure Arc (α : Type) where
  ptr : Nat
  value : α

/-- Everything a reload can swap, and the number of allocations so far. -/
structure Live where
  /-- The primary dispatcher, then one for each HTTP worker. -/
  dispatches : List (Arc Dispatch)
  certResolver : Option (Arc CertTable)
  allocated : Nat
  dispatches_ne_nil : dispatches ≠ []
  dispatches_allocated : ∀ swap ∈ dispatches, swap.ptr < allocated
  resolver_allocated : ∀ table ∈ certResolver, table.ptr < allocated

structure Sighup where
  text : Option String
  isFile : String → Bool
  builds : Nat → Files × Nat
  certFiles : Files

structure ReloadThread where
  platform : Platform
  fromStr : String → Except String Config
  opts : ValidationOptions
  path : String

namespace ReloadThread

variable (thread : ReloadThread)

def loadConfig (hup : Sighup) : Except ConfigError Config :=
  load thread.fromStr thread.opts hup.isFile thread.path hup.text

def build (hup : Sighup) (cfg : Config) (i : Nat) : Dispatch :=
  Dispatch.fromConfig thread.platform (hup.builds i).1 (hup.builds i).2 cfg

def storeDispatches (hup : Sighup) (cfg : Config) (live : Live) : Live where
  dispatches := live.dispatches.mapIdx fun i _ =>
    ⟨live.allocated + i, thread.build hup cfg i⟩
  certResolver := live.certResolver
  allocated := live.allocated + live.dispatches.length
  dispatches_ne_nil := by simpa using live.dispatches_ne_nil
  dispatches_allocated := by
    intro swap hswap
    obtain ⟨i, hi, rfl⟩ := List.mem_mapIdx.mp hswap
    dsimp only
    omega
  resolver_allocated := fun table htable =>
    Nat.lt_add_right _ (live.resolver_allocated table htable)

/-- `MultiCertResolver::reload`; a failure keeps the previous table. -/
def reloadCerts (hup : Sighup) (certs : List Config.CertSpec) (live : Live) :
    Live :=
  match buildTable thread.platform hup.certFiles certs with
  | .error _ => live
  | .ok table =>
      { live with
        certResolver := some ⟨live.allocated, table⟩
        allocated := live.allocated + 1
        dispatches_allocated := fun swap hswap =>
          Nat.lt_succ_of_lt (live.dispatches_allocated swap hswap)
        resolver_allocated := by simp }

def handleSighup (live : Live) (hup : Sighup) : Live :=
  match thread.loadConfig hup with
  | .error _ => live
  | .ok cfg =>
      let live := thread.storeDispatches hup cfg live
      match live.certResolver, cfg.tls with
      | some _, some tls => thread.reloadCerts hup tls.certs live
      | _, _ => live

/-! ## When a reload is all or nothing -/

/-- Complete dispatchers everywhere, and the table of the new certificates. -/
structure HoldsNew (hup : Sighup) (cfg : Config) (live : Live) : Prop where
  dispatches : ∀ i swap, live.dispatches[i]? = some swap →
    swap.value = thread.build hup cfg i ∧
    ∀ u ∈ cfg.upstreams, (swap.value.upstreams.get u.name).isSome = true
  certs : ∀ table ∈ live.certResolver, ∃ tls, cfg.tls = some tls ∧
    buildTable thread.platform hup.certFiles tls.certs = .ok table.value

variable {thread}

theorem wellFormed_of_loadConfig {hup : Sighup} {cfg : Config}
    (h : thread.loadConfig hup = .ok cfg) : cfg.WellFormed thread.opts := by
  unfold loadConfig load at h
  split at h
  · cases h
  · simp only [parse, bind_eq_ok] at h
    obtain ⟨_, -, ⟨⟩, hcheck, hcfg⟩ := h
    cases hcfg
    exact ((check_ok_iff _ _ _).mp hcheck).1

theorem build_registers_iff {hup : Sighup} {cfg : Config}
    (hwf : cfg.WellFormed thread.opts) (i : Nat) {u : Config.Upstream}
    (hu : u ∈ cfg.upstreams) :
    ((thread.build hup cfg i).upstreams.get u.name).isSome = true ↔
      u.Loads thread.platform (hup.builds i).1 := by
  have hover : (thread.build hup cfg i).Over thread.platform (hup.builds i).1
      (hup.builds i).2 cfg := Dispatch.over_fromConfig
  rw [Option.isSome_iff_ne_none, ne_eq, hover.get_eq_none_iff hwf hu, not_not]

theorem handleSighup_dispatches {hup : Sighup} {cfg : Config} (live : Live)
    (h : thread.loadConfig hup = .ok cfg) :
    (thread.handleSighup live hup).dispatches =
      live.dispatches.mapIdx fun i _ =>
        ⟨live.allocated + i, thread.build hup cfg i⟩ := by
  simp only [handleSighup, h]
  split
  · unfold reloadCerts
    split <;> rfl
  · rfl

theorem handleSighup_certs {hup : Sighup} {cfg : Config} {live : Live}
    (h : thread.loadConfig hup = .ok cfg) :
    (∀ table ∈ (thread.handleSighup live hup).certResolver,
        ∃ tls, cfg.tls = some tls ∧
          buildTable thread.platform hup.certFiles tls.certs =
            .ok table.value) ↔
      (live.certResolver = none ∨ ∃ tls table, cfg.tls = some tls ∧
        buildTable thread.platform hup.certFiles tls.certs = .ok table) := by
  have hstored : (thread.storeDispatches hup cfg live).certResolver =
      live.certResolver := rfl
  simp only [handleSighup, h, hstored]
  cases hresolver : live.certResolver with
  | none => simp [hstored, hresolver]
  | some old =>
      cases htls : cfg.tls with
      | none => simp [hstored, hresolver]
      | some tls =>
          simp only [reloadCerts]
          cases hbuild : buildTable thread.platform hup.certFiles tls.certs with
          | error e => simp [hstored, hresolver, hbuild]
          | ok table => simp [hbuild]

theorem handleSighup_ne {hup : Sighup} {cfg : Config} {live : Live}
    (h : thread.loadConfig hup = .ok cfg) :
    thread.handleSighup live hup ≠ live := by
  intro heq
  have hswaps := handleSighup_dispatches live h
  rw [heq] at hswaps
  obtain ⟨first, hfirst⟩ := List.exists_mem_of_ne_nil _ live.dispatches_ne_nil
  have hold := live.dispatches_allocated first hfirst
  rw [hswaps] at hfirst
  obtain ⟨i, hi, rfl⟩ := List.mem_mapIdx.mp hfirst
  dsimp only at hold
  omega

/--
A reload is all or nothing exactly if the configuration is refused, or every
build loads every upstream and a served certificate table can be rebuilt.
-/
theorem reload_all_or_nothing_iff (thread : ReloadThread) (live : Live)
    (hup : Sighup) :
    (thread.handleSighup live hup = live ∨
      ∃ cfg, thread.loadConfig hup = .ok cfg ∧
        thread.HoldsNew hup cfg (thread.handleSighup live hup)) ↔
    ∀ cfg, thread.loadConfig hup = .ok cfg →
      (∀ i < live.dispatches.length, ∀ u ∈ cfg.upstreams,
        u.Loads thread.platform (hup.builds i).1) ∧
      (live.certResolver = none ∨ ∃ tls table, cfg.tls = some tls ∧
        buildTable thread.platform hup.certFiles tls.certs = .ok table) := by
  cases hload : thread.loadConfig hup with
  | error e => simp [handleSighup, hload]
  | ok cfg =>
      have hwf := wellFormed_of_loadConfig hload
      have hswaps := handleSighup_dispatches live hload
      simp only [handleSighup_ne hload, false_or, Except.ok.injEq,
        exists_eq_left', forall_eq']
      constructor
      · intro hnew
        refine ⟨fun i hi u hu => ?_, (handleSighup_certs hload).mp hnew.certs⟩
        obtain ⟨hvalue, hall⟩ := hnew.dispatches i
          ⟨live.allocated + i, thread.build hup cfg i⟩ (by simp [hswaps, hi])
        exact (build_registers_iff hwf i hu).mp (hall u hu)
      · rintro ⟨hloads, hcerts⟩
        refine ⟨fun i swap hswap => ?_, (handleSighup_certs hload).mpr hcerts⟩
        rw [hswaps, List.getElem?_mapIdx, Option.map_eq_some_iff] at hswap
        obtain ⟨old, hold, rfl⟩ := hswap
        have hi := (List.getElem?_eq_some_iff.mp hold).1
        exact ⟨rfl, fun u hu =>
          (build_registers_iff hwf i hu).mpr (hloads i hi u hu)⟩

end ReloadThread

namespace Sample

def reloadThread : ReloadThread where
  platform := .concrete
  fromStr _ := .ok pinnedDocument
  opts := {}
  path := "/etc/conduit/conduit.toml"

def live : Live where
  dispatches := [⟨0, Dispatch.fromConfig .concrete noFiles 0 document⟩]
  certResolver := none
  allocated := 1
  dispatches_ne_nil := by simp
  dispatches_allocated := by simp
  resolver_allocated := by simp

def sighup : Sighup := ⟨some "", fun _ => false, fun _ => (noFiles, 0), noFiles⟩

theorem loadConfig_sighup : reloadThread.loadConfig sighup = .ok pinnedDocument := by
  decide

theorem pinned_not_loads : ¬ pinned.Loads .concrete noFiles := by
  rintro ⟨client, hclient⟩
  cases hclient

end Sample

namespace ReloadThread

theorem missing_ca_half_loads :
    ¬ (Sample.reloadThread.handleSighup Sample.live Sample.sighup =
        Sample.live ∨
      ∃ cfg, Sample.reloadThread.loadConfig Sample.sighup = .ok cfg ∧
        Sample.reloadThread.HoldsNew Sample.sighup cfg
          (Sample.reloadThread.handleSighup Sample.live Sample.sighup)) := by
  rintro (heq | ⟨cfg, hload, hnew⟩)
  · exact handleSighup_ne Sample.loadConfig_sighup heq
  · rw [Sample.loadConfig_sighup] at hload
    cases hload
    have hwf := wellFormed_of_loadConfig Sample.loadConfig_sighup
    have hswaps := handleSighup_dispatches Sample.live Sample.loadConfig_sighup
    have hall := (hnew.dispatches 0 ⟨1, _⟩ (by rw [hswaps]; rfl)).2 Sample.pinned
      List.mem_cons_self
    exact Sample.pinned_not_loads
      ((build_registers_iff hwf 0 List.mem_cons_self).mp hall)

end ReloadThread

end Conduit
