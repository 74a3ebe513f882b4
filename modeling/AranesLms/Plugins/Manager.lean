import AranesLms.Gateway.Services
import AranesLms.Lib.Transition

/-!
# The plugin manager

`PluginManager` of `src/plugins/manager.py`, whose calls are interleaved at their await points.  A
call is at one of the phases of `Phase` when it is suspended; `step` takes it to its next await
point or to its end.  `terminate_process` suspends its caller until the process has ended, and not
at all when it has ended before.
-/

namespace AranesLms

namespace Plugins

open Gateway

structure PluginMapping where
  pluginName : String
  serviceName : String
  mountPrefix : String
  enabled : Bool

/-- A call of the manager; an `apply_mapping_state` with the directories that it finds and what the
system allows then. -/
inductive Request where
  | applyMappingState (mapping : PluginMapping) (servicesRoot : List ServiceDir) (host : Host)
  | shutdown

/-- Where a call is: before its begin, in `_start_plugin_process` up to its return, in
`terminate_process` after a start that has failed, after a disable and for one of the services of a
shutdown (with those that are still to come), or after its end. -/
inductive Phase where
  | idle
  | starting (service : StartedService)
  | abandoning (p : Process)
  | disabling (pluginName : String) (p : Process)
  | shuttingDown (p : Process) (rest : List Process)
  | finished

/-- The registry with the processes, the calls, and whether the last call that has begun is a
shutdown. -/
structure Manager where
  services : Services
  phase : ℕ → Phase
  lastShutdown : Bool

/-- A call begins, a call goes on after what it has awaited (when it starts a plugin: whether the
service got ready), or a process exits. -/
inductive ManagerStep where
  | begin (call : ℕ) (request : Request)
  | resume (call : ℕ) (ready : Bool)
  | exit (p : Process)

namespace Manager

def init : Manager := ⟨⟨∅, Processes.empty⟩, fun _ => .idle, false⟩

variable (m : Manager)

def enter (call : ℕ) (phase : Phase) : Manager :=
  { m with phase := Function.update m.phase call phase }

/-- A process has ended. -/
def stop (p : Process) : Manager :=
  { m with services.processes := m.services.processes.stop p }

/-- `self.registry[plugin_name] = service`. -/
def register (service : StartedService) : Manager :=
  { m with services.registry := m.services.registry.set service.name service }

/-- `self.registry.pop(plugin_name, None)`. -/
def unregister (pluginName : String) : Manager :=
  { m with services.registry := m.services.registry.pop pluginName }

def clear : Manager := { m with services.registry := ∅ }

/-- `_start_plugin_process` up to its first await. -/
def startPluginProcess (call : ℕ) (mapping : PluginMapping) (service : DiscoveredService)
    (port : ℕ) : Manager :=
  let p := m.services.processes.next mapping.pluginName
  { m with services.processes := m.services.processes.spawn mapping.pluginName }.enter call
    (.starting ⟨⟨mapping.pluginName, port⟩, service.directory, p, service.manifest⟩)

def beginDisable (call : ℕ) (mapping : PluginMapping) : Manager :=
  match m.services.registry.get? mapping.pluginName with
  | none => m.enter call .finished
  | some service =>
    if service.process ∈ m.services.processes.alive then
      m.enter call (.disabling mapping.pluginName service.process)
    else (m.unregister mapping.pluginName).enter call .finished

/-- `is_running`. -/
def isRunning (pluginName : String) : Bool :=
  (m.services.registry.get? pluginName).any fun service =>
    service.process ∈ m.services.processes.alive

def beginEnable (startPort : ℕ) (call : ℕ) (mapping : PluginMapping)
    (discovered : List DiscoveredService) (host : Host) : Manager :=
  if m.isRunning mapping.pluginName then m.enter call .finished
  else
    match discovered.find? fun service => service.name = mapping.serviceName with
    | none => m.enter call .finished
    | some service =>
      match host.portFor startPort service with
      | .error _ => m.enter call .finished
      | .ok port => m.startPluginProcess call mapping service port

/-- `apply_mapping_state` up to its first await. -/
def beginApply (startPort : ℕ) (call : ℕ) (mapping : PluginMapping)
    (servicesRoot : List ServiceDir) (host : Host) : Manager :=
  match discoverServices servicesRoot with
  | .error _ => m.enter call .finished
  | .ok discovered =>
    if ¬ mapping.enabled then m.beginDisable call mapping
    else m.beginEnable startPort call mapping discovered host

/-- The loop of `shutdown_services` up to the next process that is alive, or to its end. -/
def shutdownFrom (call : ℕ) : List Process → Manager
  | [] => m.clear.enter call .finished
  | p :: rest =>
    if p ∈ m.services.processes.alive then m.enter call (.shuttingDown p rest)
    else shutdownFrom call rest

def registered : List Process := m.services.registry.entries.map fun e => e.2.process

def resume (call : ℕ) (ready : Bool) : Manager :=
  match m.phase call with
  | .idle => m
  | .starting service =>
    if ready then (m.register service).enter call .finished
    else if service.process ∈ m.services.processes.alive then
      m.enter call (.abandoning service.process)
    else m.enter call .finished
  | .abandoning p => (m.stop p).enter call .finished
  | .disabling pluginName p => ((m.stop p).unregister pluginName).enter call .finished
  | .shuttingDown p rest => (m.stop p).shutdownFrom call rest
  | .finished => m

def begin (startPort : ℕ) (call : ℕ) : Request → Manager
  | .applyMappingState mapping servicesRoot host =>
    { m with lastShutdown := false }.beginApply startPort call mapping servicesRoot host
  | .shutdown => { m with lastShutdown := true }.shutdownFrom call m.registered

def step (startPort : ℕ) (m : Manager) : ManagerStep → Manager
  | .begin call request =>
    match m.phase call with
    | .idle => m.begin startPort call request
    | _ => m
  | .resume call ready => m.resume call ready
  | .exit p => m.stop p

/-! ## What is left of the calls -/

/-- No call is in flight. -/
def Quiet : Prop := ∀ call, m.phase call = .idle ∨ m.phase call = .finished

structure NoOrphans : Prop where
  held : ∀ p ∈ m.services.processes.alive, m.services.Held p
  unique : ∀ p ∈ m.services.processes.alive, ∀ q ∈ m.services.processes.alive,
    p.name = q.name → p = q
  shutdown : m.lastShutdown → m.services.processes.alive = ∅

/-- A start is completed only when no other process of the plugin is registered and alive, and
neither a disable of the plugin nor a shutdown is in flight; a shutdown begins only when no start is
in flight. -/
def Apart : ManagerStep → Prop
  | .begin _ .shutdown => ∀ call service, m.phase call ≠ .starting service
  | .resume call true => ∀ service, m.phase call = .starting service →
    ¬ m.isRunning service.name ∧ (∀ c p, m.phase c ≠ .disabling service.name p) ∧
      ∀ c p rest, m.phase c ≠ .shuttingDown p rest
  | _ => True

end Manager

end Plugins

end AranesLms
