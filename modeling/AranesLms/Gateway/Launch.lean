import AranesLms.Gateway.Services

/-!
# Launching the services

`launch_services` of `gateway_server/gateway.py` starts the discovered services one after the other
and registers each under the name that its manifest gives.  `neverOrphans_iff` says when no process
is left behind: a service must not take the name of an earlier one, whose process the registry then
no longer knows, and only the first service may fail to get a port or a process, because there is
nothing to shut down then.
-/

namespace AranesLms

namespace Gateway

/-- What the system does when a service is started: the ports and commands it allows, the turns of
the readiness loop, and whether the process exits on its own before `launch_services` is over. -/
structure Attempt extends Host where
  probes : List Probe
  exits : Bool

def autoStart (service : DiscoveredService) : Bool :=
  match service.manifest with
  | some manifest => manifest.autoStart
  | none => true

namespace Services

/-- The process is started and registered. -/
def start (s : Services) (service : DiscoveredService) (port : ℕ) (attempt : Attempt) :
    Services where
  registry := s.registry.set service.name
    ⟨⟨service.name, port⟩, service.directory, s.processes.next service.name, service.manifest⟩
  processes :=
    let processes := s.processes.spawn service.name
    if attempt.exits then processes.stop (s.processes.next service.name) else processes

def empty : Services := ⟨∅, Processes.empty⟩

end Services

section

variable (env : DiscoveredService → Attempt)

/-- The loop of `launch_services`, with the exception that it ends with. -/
def launchLoop (nextPort : ℕ) (s : Services) : List DiscoveredService → Services × Option PyError
  | [] => (s, none)
  | service :: services =>
    if ¬ autoStart service then launchLoop nextPort s services
    else
      match (env service).portFor nextPort service with
      | .error e => (s, some e)
      | .ok port =>
        let s := s.start service port (env service)
        match waitForServiceReady (env service).probes with
        | none => launchLoop (port + 1) s services
        | some e => (s.shutdownServices, some e)

def launchServices (servicesRoot : List ServiceDir) (startPort : ℕ) : Services × Option PyError :=
  match discoverServices servicesRoot with
  | .ok discovered => launchLoop env startPort Services.empty discovered
  | .error e => (Services.empty, some e)

/-- A service that `launch_services` gets to, and whether it gets a port and a process. -/
structure Launch where
  service : DiscoveredService
  started : Bool

/-- The services that are to be started, up to the first that does not get ready. -/
def launches (nextPort : ℕ) : List DiscoveredService → List Launch
  | [] => []
  | service :: services =>
    if ¬ autoStart service then launches nextPort services
    else
      match (env service).portFor nextPort service with
      | .error _ => [⟨service, false⟩]
      | .ok port =>
        match waitForServiceReady (env service).probes with
        | none => ⟨service, true⟩ :: launches (port + 1) services
        | some _ => [⟨service, true⟩]

/-- No service is started under the name of an earlier one whose process goes on, and only the first
one may fail to start. -/
structure Orderly (ls : List Launch) : Prop where
  names : ls.Pairwise fun l l' =>
    l'.started → l.service.name = l'.service.name → (env l.service).exits
  started : ∀ l ∈ ls.tail, l.started

end

/-- What is left of a launch: every process that is alive is held by the registry; after an
exception there is none, and the registry is empty; and none is alive after the services are shut
down. -/
structure NeverOrphans (r : Services × Option PyError) : Prop where
  returned : r.2 = none → ∀ p ∈ r.1.processes.alive, r.1.Held p
  raised : r.2 ≠ none → r.1.registry = ∅ ∧ r.1.processes.alive = ∅
  shutdown : r.1.shutdownServices.processes.alive = ∅

/-! ## One service -/

namespace Services

variable {s : Services} {service : DiscoveredService} {port : ℕ} {attempt : Attempt} {p : Process}

/-- Every entry is under the name of its process. -/
def Named (s : Services) : Prop := ∀ e ∈ s.registry, e.2.process.name = e.1

def AllHeld (s : Services) : Prop := ∀ p ∈ s.processes.alive, s.Held p

theorem Named.held (hnamed : s.Named) {e : String × StartedService} (he : e ∈ s.registry) :
    s.Held e.2.process := ⟨e.2, by rw [hnamed e he]; exact he, rfl⟩

theorem mem_alive_start : p ∈ (s.start service port attempt).processes.alive ↔
    p = s.processes.next service.name ∧ ¬ attempt.exits ∨ p ∈ s.processes.alive := by
  have hnext := s.processes.next_notMem_alive service.name
  rw [start]
  dsimp only
  split_ifs with hexits
  · rw [Processes.mem_alive_stop, Processes.mem_alive_spawn]
    constructor
    · rintro ⟨hne, hp⟩
      exact Or.inr (hp.resolve_left hne)
    · rintro (⟨-, h⟩ | hp)
      · exact absurd hexits h
      · exact ⟨fun h => hnext (h ▸ hp), Or.inr hp⟩
  · rw [Processes.mem_alive_spawn, and_iff_left hexits]

theorem Named.start (hnamed : s.Named) : (s.start service port attempt).Named := by
  rintro e he
  rcases (OrderedDict.mem_set _).1 he with ⟨he, -⟩ | rfl
  · exact hnamed e he
  · rfl

theorem held_start_next :
    (s.start service port attempt).Held (s.processes.next service.name) :=
  ⟨_, (OrderedDict.mem_set _).2 (Or.inr rfl), rfl⟩

theorem held_start_of_ne (hp : p.name ≠ service.name) :
    (s.start service port attempt).Held p ↔ s.Held p := by
  refine exists_congr fun runtime => and_congr_left fun _ => ?_
  rw [start, OrderedDict.mem_set]
  constructor
  · rintro (⟨hmem, -⟩ | heq)
    · exact hmem
    · exact absurd (congrArg Prod.fst heq) hp
  · exact fun hmem => Or.inl ⟨hmem, hp⟩

/-- Under the name of the new service only the new process is held. -/
theorem not_held_start (hp : p ≠ s.processes.next service.name) (hname : p.name = service.name) :
    ¬ (s.start service port attempt).Held p := by
  rintro ⟨runtime, hmem, rfl⟩
  rcases (OrderedDict.mem_set _).1 hmem with ⟨-, hne⟩ | heq
  · exact hne hname
  · exact hp (by rw [(Prod.mk.inj heq).2])

/-- What runs under a name after a service is started. -/
theorem free_start (hnamed : s.Named) (name : String) :
    (∀ runtime, (name, runtime) ∈ (s.start service port attempt).registry →
      runtime.process ∉ (s.start service port attempt).processes.alive) ↔
      if service.name = name then attempt.exits = true
      else ∀ runtime, (name, runtime) ∈ s.registry → runtime.process ∉ s.processes.alive := by
  split_ifs with hname
  · subst hname
    constructor
    · intro h
      by_contra hexits
      exact h _ ((OrderedDict.mem_set s.registry).2 (Or.inr rfl))
        (mem_alive_start.2 (Or.inl ⟨rfl, hexits⟩))
    · intro hexits runtime hmem hp
      rcases (OrderedDict.mem_set s.registry).1 hmem with ⟨-, hne⟩ | heq
      · exact hne rfl
      · rw [(Prod.mk.inj heq).2] at hp
        rcases mem_alive_start.1 hp with ⟨-, h⟩ | hp
        · exact h hexits
        · exact s.processes.next_notMem_alive _ hp
  · refine forall_congr' fun runtime => ?_
    have hmem : (name, runtime) ∈ (s.start service port attempt).registry ↔
        (name, runtime) ∈ s.registry := by
      refine (OrderedDict.mem_set s.registry).trans
        ⟨fun h => h.elim And.left fun heq => ?_, fun h => Or.inl ⟨h, Ne.symm hname⟩⟩
      exact absurd (congrArg Prod.fst heq).symm hname
    rw [hmem]
    refine imp_congr_right fun h => not_congr (mem_alive_start.trans (or_iff_right ?_))
    rintro ⟨hp, -⟩
    exact hname ((congrArg Process.name hp).symm.trans (hnamed _ h))

/-- A process is lost when its name is taken while it is alive. -/
theorem allHeld_start (hnamed : s.Named) : (s.start service port attempt).AllHeld ↔
    s.AllHeld ∧ ∀ runtime, (service.name, runtime) ∈ s.registry →
      runtime.process ∉ s.processes.alive := by
  constructor
  · intro h
    have hname : ∀ p ∈ s.processes.alive, p.name ≠ service.name := by
      intro p hp hname
      refine not_held_start (fun hnext => ?_) hname (h p (mem_alive_start.2 (Or.inr hp)))
      exact s.processes.next_notMem_alive service.name (hnext ▸ hp)
    refine ⟨fun p hp => ?_, fun runtime hmem hp => hname _ hp (hnamed _ hmem)⟩
    exact (held_start_of_ne (hname p hp)).1 (h p (mem_alive_start.2 (Or.inr hp)))
  · rintro ⟨hall, hfree⟩ p hp
    rcases mem_alive_start.1 hp with ⟨rfl, -⟩ | hp
    · exact held_start_next
    · refine (held_start_of_ne fun hname => ?_).2 (hall p hp)
      obtain ⟨runtime, hmem, rfl⟩ := hall p hp
      exact hfree runtime (hname ▸ hmem) hp

end Services

/-! ## The loop -/

open Services

section

variable {env : DiscoveredService → Attempt} {s : Services}

theorem alive_shutdownServices (hnamed : s.Named) :
    s.shutdownServices.processes.alive = ∅ ↔ s.AllHeld := by
  rw [Finset.eq_empty_iff_forall_notMem]
  refine forall_congr' fun p => ?_
  rw [mem_alive_shutdownServices, not_and']
  refine imp_congr_right fun _ => ?_
  push Not
  constructor
  · rintro ⟨e, he, rfl⟩
    exact hnamed.held he
  · rintro ⟨runtime, hmem, rfl⟩
    exact ⟨_, hmem, rfl⟩

theorem neverOrphans_returned (hnamed : s.Named) : NeverOrphans (s, none) ↔ s.AllHeld :=
  ⟨fun h => h.returned rfl, fun h => ⟨fun _ => h, fun hne => absurd rfl hne,
    (alive_shutdownServices hnamed).2 h⟩⟩

theorem neverOrphans_raised (hnamed : s.Named) (e : PyError) :
    NeverOrphans (s, some e) ↔ s.AllHeld ∧ s.registry = ∅ := by
  constructor
  · intro h
    obtain ⟨hregistry, halive⟩ := h.raised nofun
    exact ⟨fun p hp => absurd (halive ▸ hp) (Finset.notMem_empty p), hregistry⟩
  · rintro ⟨hall, hregistry⟩
    refine ⟨nofun, fun _ => ⟨hregistry, ?_⟩, (alive_shutdownServices hnamed).2 hall⟩
    refine Finset.eq_empty_iff_forall_notMem.2 fun p hp => ?_
    obtain ⟨runtime, hmem, -⟩ := hall p hp
    exact OrderedDict.notMem_empty _ (hregistry ▸ hmem)

theorem neverOrphans_shutdown (hnamed : s.Named) (e : PyError) :
    NeverOrphans (s.shutdownServices, some e) ↔ s.AllHeld := by
  rw [← alive_shutdownServices hnamed]
  constructor
  · exact fun h => (h.raised nofun).2
  · intro h
    refine ⟨nofun, fun _ => ⟨rfl, h⟩, ?_⟩
    refine Finset.eq_empty_iff_forall_notMem.2 fun p hp => ?_
    exact Finset.notMem_empty p (h ▸ (mem_alive_shutdownServices.1 hp).2)

/-- `Orderly`, after the services that are registered already. -/
structure OrderlyAfter (env : DiscoveredService → Attempt) (s : Services) (ls : List Launch) :
    Prop where
  free : ∀ l ∈ ls, l.started → ∀ runtime, (l.service.name, runtime) ∈ s.registry →
    runtime.process ∉ s.processes.alive
  orderly : Orderly env ls
  head : ∀ l ∈ ls.head?, ¬ l.started → s.registry = ∅

theorem orderlyAfter_nil : OrderlyAfter env s [] :=
  ⟨fun _ h => absurd h List.not_mem_nil, ⟨List.Pairwise.nil, fun _ h => absurd h List.not_mem_nil⟩,
    fun _ h => nomatch h⟩

theorem orderlyAfter_singleton {service : DiscoveredService} {started : Bool} :
    OrderlyAfter env s [⟨service, started⟩] ↔ if started then
      ∀ runtime, (service.name, runtime) ∈ s.registry → runtime.process ∉ s.processes.alive
      else s.registry = ∅ := by
  constructor
  · intro h
    split_ifs with hstarted
    · exact h.free _ (List.mem_singleton_self _) hstarted
    · exact h.head _ rfl hstarted
  · intro h
    refine ⟨fun l hl hstarted => ?_, ⟨List.pairwise_singleton _ _, nofun⟩, fun l hl hstarted => ?_⟩
    · rw [List.mem_singleton.1 hl] at hstarted ⊢
      exact (if_pos hstarted).mp h
    · rw [← Option.mem_some_iff.1 hl] at hstarted
      exact (if_neg hstarted).mp h

/-- A service gets ready, and the rest goes on after it. -/
theorem orderlyAfter_cons {service : DiscoveredService} {port : ℕ} {ls : List Launch}
    (hnamed : s.Named) :
    OrderlyAfter env s (⟨service, true⟩ :: ls) ↔
      (∀ runtime, (service.name, runtime) ∈ s.registry → runtime.process ∉ s.processes.alive) ∧
        OrderlyAfter env (s.start service port (env service)) ls := by
  have hregistry : (s.start service port (env service)).registry ≠ ∅ := by
    intro h
    obtain ⟨runtime, hmem, -⟩ : (s.start service port (env service)).Held _ := held_start_next
    rw [h] at hmem
    exact OrderedDict.notMem_empty _ hmem
  have hfree : ∀ l : Launch, (∀ runtime,
      (l.service.name, runtime) ∈ (s.start service port (env service)).registry →
        runtime.process ∉ (s.start service port (env service)).processes.alive) ↔
      if service.name = l.service.name then (env service).exits = true
      else ∀ runtime, (l.service.name, runtime) ∈ s.registry →
        runtime.process ∉ s.processes.alive := fun l => free_start hnamed l.service.name
  constructor
  · intro h
    obtain ⟨hpairwise, hrest⟩ := List.pairwise_cons.1 h.orderly.names
    refine ⟨h.free _ List.mem_cons_self rfl, ⟨fun l hl hstarted => ?_, ⟨hrest, fun l hl => ?_⟩,
      fun l hl hstarted => ?_⟩⟩
    · refine (hfree l).2 ?_
      split_ifs with hname
      · exact hpairwise l hl hstarted hname
      · exact h.free l (List.mem_cons_of_mem _ hl) hstarted
    · exact h.orderly.started l (List.mem_of_mem_tail hl)
    · exact absurd (h.orderly.started l (List.mem_of_mem_head? hl)) hstarted
  · rintro ⟨hnew, h⟩
    have hstarted : ∀ l ∈ ls, l.started := by
      intro l hl
      cases ls with
      | nil => cases hl
      | cons l' ls =>
        rcases List.mem_cons.1 hl with rfl | hl
        · by_contra hstarted
          exact hregistry (h.head l rfl hstarted)
        · exact h.orderly.started l hl
    refine ⟨?_, ⟨List.pairwise_cons.2 ⟨fun l hl hl' hname => ?_, h.orderly.names⟩, hstarted⟩,
      fun l hl hne => ?_⟩
    · refine List.forall_mem_cons.2 ⟨fun _ => hnew, fun l hl hl' => ?_⟩
      by_cases hname : service.name = l.service.name
      · rw [← hname]
        exact hnew
      · exact (if_neg hname).mp ((hfree l).1 (h.free l hl hl'))
    · exact (if_pos hname).mp ((hfree l).1 (h.free l hl hl'))
    · rw [← Option.mem_some_iff.1 hl] at hne
      exact absurd rfl hne

theorem neverOrphans_launchLoop (services : List DiscoveredService) (nextPort : ℕ)
    (hnamed : s.Named) : NeverOrphans (launchLoop env nextPort s services) ↔
      s.AllHeld ∧ OrderlyAfter env s (launches env nextPort services) := by
  induction services generalizing nextPort s with
  | nil => exact (neverOrphans_returned hnamed).trans (and_iff_left orderlyAfter_nil).symm
  | cons service services ih =>
    rw [launchLoop, launches]
    by_cases hauto : autoStart service
    · rw [if_neg (not_not.2 hauto), if_neg (not_not.2 hauto)]
      cases (env service).portFor nextPort service with
      | error e =>
        refine (neverOrphans_raised hnamed e).trans (and_congr_right fun _ => ?_)
        rw [orderlyAfter_singleton, if_neg Bool.false_ne_true]
      | ok port =>
        dsimp only
        cases waitForServiceReady (env service).probes with
        | none =>
          dsimp only
          rw [ih _ hnamed.start, allHeld_start hnamed, and_assoc]
          exact and_congr_right fun _ => (orderlyAfter_cons hnamed).symm
        | some e =>
          dsimp only
          rw [neverOrphans_shutdown hnamed.start, allHeld_start hnamed, orderlyAfter_singleton,
            if_pos rfl]
    · rw [if_pos hauto, if_pos hauto]
      exact ih nextPort hnamed

theorem neverOrphans_iff (servicesRoot : List ServiceDir) (startPort : ℕ) :
    NeverOrphans (launchServices env servicesRoot startPort) ↔
      ∀ discovered, discoverServices servicesRoot = .ok discovered →
        Orderly env (launches env startPort discovered) := by
  have hnamed : Services.empty.Named := fun _ h => absurd h (OrderedDict.notMem_empty _)
  have hall : Services.empty.AllHeld := fun _ h => absurd h (Finset.notMem_empty _)
  rw [launchServices]
  cases discoverServices servicesRoot with
  | error e =>
    exact ⟨fun _ _ h => (nomatch h), fun _ => (neverOrphans_raised hnamed e).2 ⟨hall, rfl⟩⟩
  | ok discovered =>
    dsimp only
    rw [neverOrphans_launchLoop discovered startPort hnamed, and_iff_right hall]
    constructor
    · intro h discovered' heq
      exact Except.ok.inj heq ▸ h.orderly
    · intro h
      exact ⟨fun _ _ _ _ hmem => absurd hmem (OrderedDict.notMem_empty _), h discovered rfl,
        fun _ _ _ => rfl⟩

end

/-! ### A name that is taken twice -/

/-- Every service gets a process and is ready at once. -/
def readyAtOnce : Attempt := ⟨⟨fun _ => true, fun _ => true⟩, [.answered 200], false⟩

/-- A service directory whose manifest gives the name `shop`. -/
def shopDir (name : String) : ServiceDir :=
  ⟨name, true, .ok (some ⟨"shop", ["python", "main.py"], "/health", none, true⟩), false⟩

/-- The process from the first directory is alive, and the registry has the one from the second. -/
theorem not_neverOrphans_shop :
    ¬ NeverOrphans (launchServices (fun _ => readyAtOnce) [shopDir "a", shopDir "b"] 10000) := by
  intro h
  obtain ⟨runtime, hmem, hprocess⟩ := h.returned rfl ⟨0, "shop"⟩ (by decide +kernel)
  have hother : ∀ e ∈ (launchServices (fun _ => readyAtOnce) [shopDir "a", shopDir "b"]
      10000).1.registry, e.2.process ≠ ⟨0, "shop"⟩ := by decide +kernel
  exact hother _ hmem hprocess

end Gateway

end AranesLms
