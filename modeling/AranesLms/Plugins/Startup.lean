import AranesLms.Gateway.Fetch
import AranesLms.Gateway.Ports
import AranesLms.Plugins.Mappings
import AranesLms.Plugins.Orphans

/-!
# Starting the plugins

`PluginManager.startup` of `src/plugins/manager.py` ends what runs from an earlier startup,
reconciles the mappings and starts the enabled plugins by name.  Wherever it fails, every process
that is alive afterwards is registered, and the registry is an initial part of what a startup
without a failure gives (`startsUp_startup`).  In all runs of startups, enables, disables and
shutdowns whose calls are apart, no process is orphaned (`always_noOrphans`).
-/

namespace AranesLms

namespace Plugins

open Gateway

/-- The exception that a startup ends with: one of Python, of the insertion of the mappings, or of
the `COMMIT`. -/
inductive StartupError where
  | python (e : PyError)
  | integrity (v : Violation)
  | commit

/-- What a startup finds: `PLUGIN_MANAGER_ENABLED` of the runtime, if there is one, the environment
variable `WEB_CONCURRENCY`, the directories, whether the `COMMIT` succeeds, what the system does
when a plugin is started and what the plugin answers to the request for its document. -/
structure Boot where
  runtime : Option Bool
  webConcurrency : Option String
  servicesRoot : List ServiceDir
  commits : Bool
  attempt : PluginMapping → Attempt
  answer : String → Gateway.Answer

/-- The services of the manager, the rows of `plugin_mappings`, and the schema that the bound
application has cached. -/
structure PluginHost where
  services : Services
  mappings : MappingTable
  openapiSchema : Option Json

/-- `service_openapi_path`. -/
def serviceOpenapiPath (service : StartedService) : Option String :=
  match service.manifest with
  | none => some "/openapi.json"
  | some manifest => manifest.openapiPath

/-- `_start_plugin_process`, once there is a port and a process. -/
def startPluginProcess (s : Services) (mapping : PluginMapping) (service : DiscoveredService)
    (port : ℕ) (attempt : Attempt) : Services × Option PyError :=
  let started := s.start { service with name := mapping.pluginName } port attempt
  match waitForServiceReady attempt.probes with
  | none => (started, none)
  | some e =>
    ({ s with
      processes := terminateProcess started.processes (s.processes.next mapping.pluginName) },
      some e)

/-- The loop of `startup`. -/
def startPlugins (attempt : PluginMapping → Attempt)
    (discoveredByService : OrderedDict String DiscoveredService) (nextPort : ℕ) (s : Services) :
    List PluginMapping → Services × Option PyError
  | [] => (s, none)
  | mapping :: mappings =>
    if ¬ mapping.enabled then startPlugins attempt discoveredByService nextPort s mappings
    else
      match discoveredByService.get? mapping.serviceName with
      | none => startPlugins attempt discoveredByService nextPort s mappings
      | some service =>
        match (attempt mapping).portFor nextPort service with
        | .error e => (s, some e)
        | .ok port =>
          match startPluginProcess s mapping service port (attempt mapping) with
          | (s, none) => startPlugins attempt discoveredByService (port + 1) s mappings
          | (s, some e) => (s, some e)

/-- `{service.name: service for service in discovered_services}`. -/
def byService (discovered : List DiscoveredService) : OrderedDict String DiscoveredService :=
  (∅ : OrderedDict String DiscoveredService).setAll
    (discovered.map fun service => (service.name, service))

section

variable (int : String → Except PyError ℤ) (loads : List UInt8 → Option Json) (startPort : ℕ)

def Boot.concurrency (boot : Boot) : Except PyError ℤ :=
  let text := strip (boot.webConcurrency.getD "1")
  int (if text ≠ "" then text else "1")

namespace PluginHost

def empty : PluginHost := ⟨Services.empty, ∅, none⟩

variable (h : PluginHost)

def invalidateOpenapiCache : PluginHost := { h with openapiSchema := none }

/-- The registry as the request for the documents sees it. -/
def registered (boot : Boot) : OrderedDict String RegisteredService :=
  h.services.registry.mapVal fun name service =>
    ⟨service.process ∈ h.services.processes.alive, serviceOpenapiPath service, boot.answer name⟩

/-- `refresh_openapi_cache`, with the exception that it ends with. -/
def refreshOpenapiCache (boot : Boot) : PluginHost × Option StartupError :=
  match fetchServiceOpenapiDocuments loads (h.registered boot) with
  | .ok _ => (h.invalidateOpenapiCache, none)
  | .error e => (h, some (.python e))

/-- `shutdown`. -/
def shutdown : PluginHost :=
  { h with services := h.services.shutdownServices }.invalidateOpenapiCache

/-- `startup` after the services of an earlier run have been shut down. -/
def startFromRoot (boot : Boot) : PluginHost × Option StartupError :=
  match discoverServices boot.servicesRoot with
  | .error e => (h, some (.python e))
  | .ok discovered =>
    match syncPluginMappings h.mappings discovered with
    | .error v => (h, some (.integrity v))
    | .ok (returned, mappings) =>
      if ¬ boot.commits then (h, some .commit)
      else
        match startPlugins boot.attempt (byService discovered) startPort h.services returned with
        | (services, some e) => ({ h with services, mappings }, some (.python e))
        | (services, none) => { h with services, mappings }.refreshOpenapiCache loads boot

def startup (boot : Boot) : PluginHost × Option StartupError :=
  match boot.runtime with
  | none => (h, none)
  | some managerEnabled =>
    if ¬ managerEnabled then (h.shutdown, none)
    else
      match boot.concurrency int with
      | .error e => (h, some (.python e))
      | .ok webConcurrency =>
        if 1 < webConcurrency then (h, some (.python .runtimeError))
        else { h with services := h.services.shutdownServices }.startFromRoot loads startPort boot

end PluginHost

end

/-! ## What a startup leaves -/

/-- Every process that is alive is registered under its name. -/
structure Supervised (s : Services) : Prop where
  named : s.Named
  allHeld : s.AllHeld
  pid_lt : ∀ e ∈ s.registry, e.2.process.pid < s.processes.spawned

/-- The enabled mappings whose services are found, with these. -/
def startable (discoveredByService : OrderedDict String DiscoveredService)
    (mappings : List PluginMapping) : List (PluginMapping × DiscoveredService) :=
  mappings.filterMap fun mapping =>
    if mapping.enabled then (discoveredByService.get? mapping.serviceName).map (Prod.mk mapping)
    else none

/-- The entry of a plugin that has been started and was ready. -/
structure RegisteredAs (attempt : PluginMapping → Attempt)
    (plugin : PluginMapping × DiscoveredService) (e : String × StartedService) : Prop where
  key : e.1 = plugin.1.pluginName
  name : e.2.name = plugin.1.pluginName
  directory : e.2.directory = plugin.2.directory
  manifest : e.2.manifest = plugin.2.manifest
  bindable : (attempt plugin.1).bindable e.2.port
  ready : waitForServiceReady (attempt plugin.1).probes = none

/-- The entries are those of the first plugins, on ascending ports from `nextPort` on, with
processes from `spawned` on. -/
structure StartedInOrder (attempt : PluginMapping → Attempt) (nextPort spawned : ℕ)
    (plugins : List (PluginMapping × DiscoveredService))
    (entries : List (String × StartedService)) : Prop where
  registered : List.Forall₂ (RegisteredAs attempt) (plugins.take entries.length) entries
  ports : entries.Pairwise fun e e' => e.2.port < e'.2.port
  range : ∀ e ∈ entries, nextPort ≤ e.2.port ∧ e.2.port ≤ 65535
  fresh : ∀ e ∈ entries, spawned ≤ e.2.process.pid

/-- What a startup leaves, with or without an exception: either it has failed before the `COMMIT`,
and nothing runs, or the mappings are reconciled and the first of the plugins that are to be started
run, all of them unless there is an exception. -/
structure StartsUp (before : PluginHost) (boot : Boot) (startPort : ℕ)
    (r : PluginHost × Option StartupError) : Prop where
  supervised : Supervised r.1.services
  ended : ∀ p ∈ before.services.processes.alive, p ∉ r.1.services.processes.alive
  started : (r.1.services.registry = ∅ ∧ r.1.mappings = before.mappings ∧ r.2 ≠ none) ∨
    ∃ discovered returned, discoverServices boot.servicesRoot = .ok discovered ∧
      Reconciled before.mappings discovered returned r.1.mappings ∧
      StartedInOrder boot.attempt startPort before.services.processes.spawned
        (startable (byService discovered) returned) r.1.services.registry.entries ∧
      (r.2 = none → r.1.services.registry.length =
        (startable (byService discovered) returned).length)
  schema : r.2 = none → r.1.openapiSchema = none

/-! ## One plugin -/

section

variable {s : Services} {service : DiscoveredService} {port : ℕ} {attempt : Attempt}

theorem spawned_start :
    (s.start service port attempt).processes.spawned = s.processes.spawned + 1 := by
  rw [Services.start]
  dsimp only
  split_ifs
  · rfl
  · rfl

variable (port attempt) in
theorem entries_start (h : service.name ∉ s.registry.keys) :
    (s.start service port attempt).registry.entries = s.registry.entries ++
      [(service.name, ⟨⟨service.name, port⟩, service.directory, s.processes.next service.name,
        service.manifest⟩)] :=
  OrderedDict.setEntry_of_notMem h

variable (port attempt) in
theorem mem_keys_start (h : service.name ∉ s.registry.keys) {name : String} :
    name ∈ (s.start service port attempt).registry.keys ↔
      name ∈ s.registry.keys ∨ name = service.name := by
  rw [OrderedDict.keys, entries_start port attempt h, List.map_append, List.mem_append,
    List.map_singleton, List.mem_singleton]
  rfl

variable (port attempt) in
/-- A name that is not registered is taken. -/
theorem Supervised.start (hs : Supervised s) (h : service.name ∉ s.registry.keys) :
    Supervised (s.start service port attempt) where
  named := hs.named.start
  allHeld := (Services.allHeld_start hs.named).2 ⟨hs.allHeld, fun runtime hmem =>
    absurd ((OrderedDict.mem_keys _).2 ⟨runtime, hmem⟩) h⟩
  pid_lt e he := by
    rw [spawned_start]
    rcases (OrderedDict.mem_set _).1 he with ⟨he, -⟩ | rfl
    · exact Nat.lt_succ_of_lt (hs.pid_lt e he)
    · exact Nat.lt_succ_self _

theorem spawned_terminateProcess {ps : Processes} {p : Process} :
    (terminateProcess ps p).spawned = ps.spawned := by
  rw [terminateProcess]
  split_ifs
  · rfl
  · rfl

variable (service port attempt) in
/-- A start that fails leaves no process. -/
theorem Supervised.abandon (hs : Supervised s) : Supervised { s with
    processes := terminateProcess (s.start service port attempt).processes
      (s.processes.next service.name) } where
  named := hs.named
  allHeld p hp := by
    obtain ⟨hne, hp⟩ := mem_alive_terminateProcess.1 hp
    refine hs.allHeld p ((Services.mem_alive_start.1 hp).resolve_left ?_)
    rintro ⟨heq, -⟩
    exact hne heq
  pid_lt e he := by
    rw [spawned_terminateProcess, spawned_start]
    exact Nat.lt_succ_of_lt (hs.pid_lt e he)

theorem Supervised.shutdownServices (hs : Supervised s) : Supervised s.shutdownServices where
  named _ he := absurd he (OrderedDict.notMem_empty _)
  allHeld p hp := by
    rw [(alive_shutdownServices hs.named).2 hs.allHeld] at hp
    exact absurd hp (Finset.notMem_empty p)
  pid_lt _ he := absurd he (OrderedDict.notMem_empty _)

theorem bindable_of_portFor {host : Host} {nextPort : ℕ}
    (h : host.portFor nextPort service = .ok port) :
    host.bindable port ∧ nextPort ≤ port ∧ port ≤ 65535 := by
  obtain ⟨port', hport, hrest⟩ := Except.bind_eq_ok.1 h
  rw [← allocatePortLoop_eq] at hport
  obtain rfl : port' = port := by
    dsimp only at hrest
    split_ifs at hrest with hspawns
    · exact Except.ok.inj hrest
    · cases hrest
  have hrange := mem_range_of_eq_ok hport
  rcases allocatesLeast_of_le host.bindable (hrange.1.trans hrange.2) with
    ⟨least, hleast, heq⟩ | ⟨-, heq⟩
  · rw [hport] at heq
    obtain rfl := Except.ok.inj heq
    exact ⟨hleast.1.2.2, hrange⟩
  · rw [hport] at heq
    cases heq

end

/-! ## The loop -/

section

variable {attempt : PluginMapping → Attempt} {nextPort spawned : ℕ}
  {discoveredByService : OrderedDict String DiscoveredService} {s : Services}
  {plugins : List (PluginMapping × DiscoveredService)}
  {entries : List (String × StartedService)}

theorem startedInOrder_nil : StartedInOrder attempt nextPort spawned plugins [] :=
  ⟨List.Forall₂.nil, List.Pairwise.nil, fun _ he => absurd he List.not_mem_nil,
    fun _ he => absurd he List.not_mem_nil⟩

/-- One more plugin before the others, whose ports come after its port. -/
theorem StartedInOrder.cons {plugin : PluginMapping × DiscoveredService}
    {e : String × StartedService}
    (h : StartedInOrder attempt (e.2.port + 1) (spawned + 1) plugins entries)
    (he : RegisteredAs attempt plugin e) (hport : nextPort ≤ e.2.port ∧ e.2.port ≤ 65535)
    (hpid : e.2.process.pid = spawned) :
    StartedInOrder attempt nextPort spawned (plugin :: plugins) (e :: entries) where
  registered := List.Forall₂.cons he h.registered
  ports := List.pairwise_cons.2 ⟨fun e' he' => (h.range e' he').1, h.ports⟩
  range := List.forall_mem_cons.2 ⟨hport, fun e' he' =>
    ⟨hport.1.trans ((Nat.le_succ _).trans (h.range e' he').1), (h.range e' he').2⟩⟩
  fresh := List.forall_mem_cons.2 ⟨hpid.ge, fun e' he' => (Nat.le_succ _).trans (h.fresh e' he')⟩

/-- What the loop adds to the registry. -/
structure Continues (attempt : PluginMapping → Attempt) (nextPort : ℕ) (s : Services)
    (plugins : List (PluginMapping × DiscoveredService)) (r : Services × Option PyError) : Prop
    where
  supervised : Supervised r.1
  started : ∃ entries, r.1.registry.entries = s.registry.entries ++ entries ∧
    StartedInOrder attempt nextPort s.processes.spawned plugins entries ∧
      (r.2 = none → entries.length = plugins.length)

/-- The loop ends before the next plugin is registered. -/
theorem Continues.fails {s' : Services} (hs' : Supervised s') (hregistry : s'.registry = s.registry)
    (e : PyError) : Continues attempt nextPort s plugins (s', some e) :=
  ⟨hs', [], by rw [hregistry, List.append_nil], startedInOrder_nil, nofun⟩

/-- A plugin that gets ready is registered, and the loop goes on after it. -/
theorem Continues.start {mapping : PluginMapping} {service : DiscoveredService} {port : ℕ}
    {r : Services × Option PyError} (hname : mapping.pluginName ∉ s.registry.keys)
    (hport : (attempt mapping).portFor nextPort service = .ok port)
    (hready : waitForServiceReady (attempt mapping).probes = none)
    (hloop : Continues attempt (port + 1)
      (s.start { service with name := mapping.pluginName } port (attempt mapping)) plugins r) :
    Continues attempt nextPort s ((mapping, service) :: plugins) r := by
  let running : StartedService := ⟨⟨mapping.pluginName, port⟩, service.directory,
    s.processes.next mapping.pluginName, service.manifest⟩
  obtain ⟨hsupervised, entries, hfinal, horder, hall⟩ := hloop
  obtain ⟨hbindable, hrange⟩ := bindable_of_portFor hport
  have hrunning : RegisteredAs attempt (mapping, service) (mapping.pluginName, running) :=
    ⟨rfl, rfl, rfl, rfl, hbindable, hready⟩
  rw [spawned_start] at horder
  refine ⟨hsupervised, (mapping.pluginName, running) :: entries, ?_,
    horder.cons hrunning hrange rfl, fun hnone => congrArg Nat.succ (hall hnone)⟩
  rw [hfinal, entries_start port (attempt mapping) hname, List.append_assoc,
    List.singleton_append]

variable (attempt nextPort discoveredByService) in
theorem continues_startPlugins {mappings : List PluginMapping} (hs : Supervised s)
    (hnames : (mappings.map PluginMapping.pluginName).Nodup)
    (hfree : ∀ mapping ∈ mappings, mapping.pluginName ∉ s.registry.keys) :
    Continues attempt nextPort s (startable discoveredByService mappings)
      (startPlugins attempt discoveredByService nextPort s mappings) := by
  induction mappings generalizing nextPort s with
  | nil => exact ⟨hs, [], (List.append_nil _).symm, startedInOrder_nil, fun _ => rfl⟩
  | cons mapping mappings ih =>
    obtain ⟨hnotMem, hnodup⟩ := List.nodup_cons.1 hnames
    obtain ⟨hname, hrest⟩ := List.forall_mem_cons.1 hfree
    rw [startPlugins, startable, List.filterMap_cons]
    by_cases henabled : mapping.enabled
    · rw [if_neg (not_not.2 henabled), if_pos henabled]
      cases hget : discoveredByService.get? mapping.serviceName with
      | none => exact ih nextPort hs hnodup hrest
      | some service =>
        rw [Option.map_some]
        dsimp only
        cases hport : (attempt mapping).portFor nextPort service with
        | error e => exact .fails hs rfl e
        | ok port =>
          dsimp only
          rw [startPluginProcess]
          -- the name is free: no earlier mapping has it, and the registry was empty before the loop
          let started : DiscoveredService := { service with name := mapping.pluginName }
          have hfresh : started.name ∉ s.registry.keys := hname
          cases hready : waitForServiceReady (attempt mapping).probes with
          | some e =>
            exact Continues.fails (s := s) (hs.abandon started port (attempt mapping)) rfl e
          | none =>
            refine Continues.start hname hport hready
              (ih (port + 1) (hs.start port (attempt mapping) hfresh) hnodup fun other hother => ?_)
            rw [mem_keys_start port (attempt mapping) hfresh, not_or]
            refine ⟨hrest other hother, fun heq => hnotMem ?_⟩
            exact List.mem_map.2 ⟨other, hother, heq⟩
    · rw [if_pos henabled, if_neg henabled]
      exact ih nextPort hs hnodup hrest

end

/-! ## One startup -/

/-- The rows that a synchronisation returns differ in their names. -/
theorem Reconciled.nodup_pluginName {existing mappings : MappingTable}
    {discovered : List DiscoveredService} {returned : List PluginMapping}
    (h : Reconciled existing discovered returned mappings) :
    (returned.map PluginMapping.pluginName).Nodup :=
  ((h.perm.map _).nodup_iff).2 (mappings.nodup _ List.mem_cons_self)

theorem spawned_shutdownServices (s : Services) :
    s.shutdownServices.processes.spawned = s.processes.spawned := by
  rw [Services.shutdownServices]
  generalize s.registry.entries.map (fun e => e.2.process) = ps
  generalize s.processes = processes
  induction ps generalizing processes with
  | nil => rfl
  | cons p ps ih => rw [List.foldl_cons, ih, spawned_terminateProcess]

/-- When only new processes are registered, the old ones have ended. -/
theorem Supervised.ended {s s' : Services} (hs' : Supervised s')
    (hfresh : ∀ e ∈ s'.registry.entries, s.processes.spawned ≤ e.2.process.pid) :
    ∀ p ∈ s.processes.alive, p ∉ s'.processes.alive := by
  intro p hp hp'
  obtain ⟨runtime, hmem, rfl⟩ := hs'.allHeld p hp'
  exact absurd (hfresh _ hmem) (not_le.2 (s.processes.pid_lt _ hp))

section

variable {int : String → Except PyError ℤ} {loads : List UInt8 → Option Json} {startPort : ℕ}
  {h : PluginHost} {boot : Boot}

namespace PluginHost

/-- Only the cached schema changes, and it is dropped when no exception is raised. -/
theorem refreshOpenapiCache_spec (loads : List UInt8 → Option Json) (h : PluginHost) (boot : Boot) :
    (h.refreshOpenapiCache loads boot).1.services = h.services ∧
      (h.refreshOpenapiCache loads boot).1.mappings = h.mappings ∧
      ((h.refreshOpenapiCache loads boot).2 = none →
        (h.refreshOpenapiCache loads boot).1.openapiSchema = none) := by
  unfold refreshOpenapiCache
  split
  · exact ⟨rfl, rfl, fun _ => rfl⟩
  · exact ⟨rfl, rfl, nofun⟩

/-- A failure before the `COMMIT`, when nothing runs. -/
theorem startsUp_failed (hs : Supervised h.services) (hempty : h.services.registry = ∅)
    (e : StartupError) : StartsUp h boot startPort (h, some e) where
  supervised := hs
  ended := hs.ended fun _ he => absurd (hempty ▸ he) (OrderedDict.notMem_empty _)
  started := Or.inl ⟨hempty, rfl, nofun⟩
  schema := nofun

variable (loads startPort boot) in
theorem startsUp_startFromRoot (hs : Supervised h.services) (hempty : h.services.registry = ∅) :
    StartsUp h boot startPort (h.startFromRoot loads startPort boot) := by
  rw [startFromRoot]
  cases hdiscovered : discoverServices boot.servicesRoot with
  | error e => exact startsUp_failed hs hempty _
  | ok discovered =>
    dsimp only
    cases hsync : syncPluginMappings h.mappings discovered with
    | error v => exact startsUp_failed hs hempty _
    | ok synced =>
      obtain ⟨returned, mappings⟩ := synced
      have hreconciled := reconciled_of_ok hsync
      dsimp only
      by_cases hcommits : boot.commits
      · rw [if_neg (not_not.2 hcommits)]
        have hstart := continues_startPlugins boot.attempt startPort (byService discovered) hs
          hreconciled.nodup_pluginName fun mapping _ hmem => by
            rw [hempty] at hmem
            exact List.not_mem_nil hmem
        generalize startPlugins boot.attempt (byService discovered) startPort h.services returned =
          r at hstart ⊢
        obtain ⟨services, e⟩ := r
        obtain ⟨hsupervised, entries, hentries, horder, hall⟩ := hstart
        have hregistry : services.registry.entries = entries := by
          rw [hentries, hempty]
          rfl
        subst hregistry
        have hended := hsupervised.ended (s := h.services) horder.fresh
        cases e with
        | some e => exact ⟨hsupervised, hended,
            Or.inr ⟨discovered, returned, hdiscovered, hreconciled, horder, nofun⟩, nofun⟩
        | none =>
          obtain ⟨hservices, hmappings, hschema⟩ :=
            refreshOpenapiCache_spec loads { h with services, mappings } boot
          refine ⟨?_, ?_, Or.inr ⟨discovered, returned, hdiscovered, ?_, ?_, fun _ => ?_⟩, hschema⟩
          · exact hservices.symm ▸ hsupervised
          · exact hservices.symm ▸ hended
          · exact hmappings.symm ▸ hreconciled
          · exact hservices.symm ▸ horder
          · exact hservices.symm ▸ hall rfl
      · rw [if_pos hcommits]
        exact startsUp_failed hs hempty _

/-- Wherever a startup fails, what it leaves is an initial part of what it gives otherwise, and
nothing else runs. -/
theorem startsUp_startup (hs : Supervised h.services) (hruntime : boot.runtime = some true) {n : ℤ}
    (hconcurrency : boot.concurrency int = .ok n) (hn : n ≤ 1) :
    StartsUp h boot startPort (h.startup int loads startPort boot) := by
  have hstartup : h.startup int loads startPort boot =
      { h with services := h.services.shutdownServices }.startFromRoot loads startPort boot := by
    rw [startup, hruntime]
    dsimp only
    rw [if_neg (not_not.2 rfl), hconcurrency]
    exact if_neg (not_lt.2 hn)
  have hspec := startsUp_startFromRoot loads startPort boot
    (h := { h with services := h.services.shutdownServices }) hs.shutdownServices rfl
  rw [hstartup]
  have hstarted := hspec.started
  rw [spawned_shutdownServices] at hstarted
  refine ⟨hspec.supervised, hspec.supervised.ended ?_, hstarted, hspec.schema⟩
  rcases hstarted with ⟨hempty, -⟩ | ⟨discovered, returned, -, -, horder, -⟩
  · exact fun _ he => absurd (hempty ▸ he) (OrderedDict.notMem_empty _)
  · exact horder.fresh

/-- The plugin `shop` is found for the first time, and gets ready. -/
def shopBoot : Boot where
  runtime := some true
  webConcurrency := none
  servicesRoot := [⟨"shop", true, .ok none, true⟩]
  commits := true
  attempt _ := ⟨⟨fun _ => true, fun _ => true⟩, [.httpError, .answered 200], false⟩
  answer _ := .httpError

/-- The plugin `blog` runs from an earlier startup. -/
def blogHost : PluginHost where
  services := ⟨OrderedDict.set ∅ "blog" ⟨⟨"blog", 10000⟩, "blog", ⟨0, "blog"⟩, none⟩,
    Processes.empty.spawn "blog"⟩
  mappings := ∅
  openapiSchema := some (.obj ∅)

theorem supervised_blogHost : Supervised blogHost.services where
  named := by
    show ∀ e ∈ blogHost.services.registry, e.2.process.name = e.1
    decide +kernel
  allHeld := by
    intro p hp
    obtain rfl := Finset.mem_singleton.1 hp
    exact ⟨_, List.mem_singleton_self _, rfl⟩
  pid_lt := by
    decide +kernel

/-- The process of `blog` is ended, and `shop` is started. -/
theorem startsUp_startup_shop :
    StartsUp blogHost shopBoot 10000
      (blogHost.startup (fun _ => .ok 1) (fun _ => none) 10000 shopBoot) :=
  startsUp_startup supervised_blogHost rfl rfl le_rfl

theorem supervised_startup (hs : Supervised h.services) (boot : Boot) :
    Supervised (h.startup int loads startPort boot).1.services := by
  rw [startup]
  cases hruntime : boot.runtime with
  | none => exact hs
  | some managerEnabled =>
    cases managerEnabled with
    | false => exact hs.shutdownServices
    | true =>
      dsimp only
      rw [if_neg (not_not.2 rfl)]
      cases boot.concurrency int with
      | error e => exact hs
      | ok n =>
        dsimp only
        split_ifs
        · exact hs
        · exact (startsUp_startFromRoot loads startPort boot hs.shutdownServices rfl).supervised

end PluginHost

end

/-! ## Runs -/

/-- A startup, with the mappings that are there by then, or a step of the other calls. -/
inductive PluginStep where
  | startup (mappings : MappingTable) (boot : Boot)
  | call (a : ManagerStep)

namespace Manager

section

variable (int : String → Except PyError ℤ) (loads : List UInt8 → Option Json) (startPort : ℕ)

/-- A startup from its begin to its end.  It is a shutdown when the manager is not enabled. -/
def startup (m : Manager) (mappings : MappingTable) (boot : Boot) : Manager :=
  let host : PluginHost := ⟨m.services, mappings, none⟩
  { m with
    services := (host.startup int loads startPort boot).1.services
    lastShutdown := boot.runtime = some false }

def pluginStep (m : Manager) : PluginStep → Manager
  | .startup mappings boot => m.startup int loads startPort mappings boot
  | .call a => m.step startPort a

end

/-- A startup overlaps no other call; the other calls are apart. -/
def PluginsApart (m : Manager) : PluginStep → Prop
  | .startup _ _ => m.Quiet
  | .call a => m.Apart a

variable {int : String → Except PyError ℤ} {loads : List UInt8 → Option Json} {startPort : ℕ}
  {m : Manager}

theorem Inv.supervised (h : m.Inv) (hquiet : m.Quiet) : Supervised m.services :=
  ⟨h.named, (h.noOrphans hquiet).held, h.pid_lt⟩

theorem Inv.startup {mappings : MappingTable} {boot : Boot} (h : m.Inv) (hquiet : m.Quiet) :
    (m.startup int loads startPort mappings boot).Inv := by
  have hs : Supervised (m.startup int loads startPort mappings boot).services :=
    PluginHost.supervised_startup (h := ⟨m.services, mappings, none⟩) (h.supervised hquiet) boot
  refine ⟨⟨hs.named, hs.pid_lt, fun call => ?_, fun p hp => Or.inl (hs.allHeld p hp),
    fun _ call => ?_⟩, fun hlast p hp => ?_⟩
  · rcases hquiet call with hcall | hcall
    · show (m.phase call).Ok _
      rw [hcall]
      trivial
    · show (m.phase call).Ok _
      rw [hcall]
      trivial
  · rintro ⟨service, hcall⟩
    have hcall : m.phase call = .starting service := hcall
    rcases hquiet call with h | h
    · rw [h] at hcall
      cases hcall
    · rw [h] at hcall
      cases hcall
  · have hruntime : boot.runtime = some false := of_decide_eq_true hlast
    have hservices : (m.startup int loads startPort mappings boot).services =
        m.services.shutdownServices := by
      rw [Manager.startup]
      dsimp only
      rw [PluginHost.startup, hruntime]
      rfl
    have hs := h.supervised hquiet
    rw [hservices, (alive_shutdownServices hs.named).2 hs.allHeld] at hp
    exact absurd hp (Finset.notMem_empty p)

end Manager

/-- In all runs of startups, enables, disables and shutdowns. -/
theorem always_noOrphans (int : String → Except PyError ℤ) (loads : List UInt8 → Option Json)
    (startPort : ℕ) {as : List PluginStep}
    (h : Transition.Along (Manager.pluginStep int loads startPort) Manager.PluginsApart
      Manager.init as) :
    Transition.Always (Manager.pluginStep int loads startPort) (fun m => m.Quiet → m.NoOrphans)
      Manager.init as := by
  have hinv : Transition.Always (Manager.pluginStep int loads startPort) Manager.Inv Manager.init
      as := by
    refine Transition.Always.of_along (fun m a h hapart => ?_) Manager.inv_init h
    cases a with
    | startup mappings boot => exact h.startup hapart
    | call a => exact h.step hapart
  exact hinv.mono fun m h hquiet => h.noOrphans hquiet

/-- A startup, two enables that overlap, a shutdown that waits for the first plugin, and the exit of
its process. -/
def startupAndShutdown : List PluginStep :=
  [.startup ∅ PluginHost.shopBoot, .call (.begin 0 (enable "blog")),
    .call (.begin 1 (enable "news")), .call (.resume 1 true), .call (.resume 0 true),
    .call (.begin 2 .shutdown), .call (.exit ⟨0, "shop"⟩)]

theorem always_noOrphans_shop :
    Transition.Always (Manager.pluginStep (fun _ => .ok 1) (fun _ => none) 10000)
      (fun m => m.Quiet → m.NoOrphans) Manager.init startupAndShutdown := by
  refine always_noOrphans _ _ _
    ⟨fun _ => Or.inl rfl, trivial, trivial, ?news, ?blog, ?shutdown, trivial, trivial⟩
  case news =>
    rintro service h
    cases h
    refine ⟨by decide +kernel, fun c p h => ?_, fun c p rest h => ?_⟩
    · rcases c with _ | _ | c <;> cases h
    · rcases c with _ | _ | c <;> cases h
  case blog =>
    rintro service h
    cases h
    refine ⟨by decide +kernel, fun c p h => ?_, fun c p rest h => ?_⟩
    · rcases c with _ | _ | c <;> cases h
    · rcases c with _ | _ | c <;> cases h
  case shutdown =>
    rintro c service h
    rcases c with _ | _ | c <;> cases h

end Plugins

end AranesLms
