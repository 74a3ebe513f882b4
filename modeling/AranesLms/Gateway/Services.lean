import AranesLms.Gateway.OpenApi
import Mathlib.Data.Finset.Basic

/-!
# Services and their processes

What `gateway_server/gateway.py` knows of a service before and after it is started, and what
starting and stopping a service is made of.  `Processes` are the processes of the system: a new one
gets a new number, and any of them may exit on its own.
-/

namespace AranesLms

namespace Gateway

/-! ## Processes -/

/-- A process, with the name of the service that it was started for. -/
structure Process where
  pid : ℕ
  name : String
  deriving DecidableEq

structure Processes where
  spawned : ℕ
  alive : Finset Process
  pid_lt : ∀ p ∈ alive, p.pid < spawned

namespace Processes

variable (ps : Processes)

def empty : Processes := ⟨0, ∅, fun _ h => absurd h (Finset.notMem_empty _)⟩

/-- The process that is started next. -/
def next (name : String) : Process := ⟨ps.spawned, name⟩

/-- `subprocess.Popen`. -/
def spawn (name : String) : Processes where
  spawned := ps.spawned + 1
  alive := insert (ps.next name) ps.alive
  pid_lt p hp := by
    rcases Finset.mem_insert.1 hp with rfl | hp
    · exact Nat.lt_succ_self _
    · exact Nat.lt_succ_of_lt (ps.pid_lt p hp)

/-- The process has ended. -/
def stop (p : Process) : Processes where
  spawned := ps.spawned
  alive := ps.alive.erase p
  pid_lt q hq := ps.pid_lt q (Finset.mem_of_mem_erase hq)

theorem next_notMem_alive (name : String) : ps.next name ∉ ps.alive :=
  fun h => lt_irrefl _ (ps.pid_lt _ h)

variable {ps} {p q : Process} {name : String}

@[simp] theorem mem_alive_spawn :
    p ∈ (ps.spawn name).alive ↔ p = ps.next name ∨ p ∈ ps.alive := Finset.mem_insert

@[simp] theorem mem_alive_stop : p ∈ (ps.stop q).alive ↔ p ≠ q ∧ p ∈ ps.alive := Finset.mem_erase

end Processes

/-! ## Services -/

/-- What is used of a manifest. -/
structure PluginManifest where
  pluginName : String
  startCommand : List String
  healthPath : String
  openapiPath : Option String
  autoStart : Bool

structure DiscoveredService where
  name : String
  directory : String
  manifest : Option PluginManifest

/-- All of a `ManagedServiceRuntime` that is set when the service is started. -/
structure StartedService extends ManagedServiceRuntime where
  directory : String
  process : Process
  manifest : Option PluginManifest

/-- A directory below the services root: its name, whether it is one, what `_load_manifest` gives
for it, and whether there is a `run.sh`. -/
structure ServiceDir where
  name : String
  isDir : Bool
  loadManifest : Except PyError (Option PluginManifest)
  runScript : Bool

def discoverService (serviceDir : ServiceDir) : Except PyError (Option DiscoveredService) :=
  if ¬ serviceDir.isDir then .ok none
  else do
    let manifest ← serviceDir.loadManifest
    if manifest.isSome ∨ serviceDir.runScript then
      return some ⟨(manifest.map PluginManifest.pluginName).getD serviceDir.name,
        serviceDir.name, manifest⟩
    else return none

def discoverServices (servicesRoot : List ServiceDir) : Except PyError (List DiscoveredService) :=
  do
  let discovered ← (servicesRoot.insertionSort fun d d' => d.name ≤ d'.name).mapM discoverService
  return discovered.reduceOption

/-! ## Starting and stopping -/

/-- The ports from `65536 - n` on are tried. -/
def allocatePortFrom (bindable : ℕ → Bool) : ℕ → Except PyError ℕ
  | 0 => .error .runtimeError
  | n + 1 => if bindable (65535 - n) then .ok (65535 - n) else allocatePortFrom bindable n

/-- `bind` raises an `OverflowError`, which is not caught, when there is no such port. -/
def allocateFreePort (bindable : ℕ → Bool) (start : ℕ) : Except PyError ℕ :=
  if 65535 < start then .error .overflowError else allocatePortFrom bindable (65536 - start)

def buildStartCommand (service : DiscoveredService) (port : ℕ) : List String :=
  match service.manifest with
  | some manifest =>
    if manifest.startCommand ≠ [] then
      manifest.startCommand.map fun part => part.replace "${PORT}" (toString port)
    else ["bash", service.directory ++ "/run.sh"]
  | none => ["bash", service.directory ++ "/run.sh"]

/-- The ports that can be bound when a service is started, and the commands that `Popen` can
start. -/
structure Host where
  bindable : ℕ → Bool
  spawns : List String → Bool

/-- The port that a service gets, if its process can be started. -/
def Host.portFor (host : Host) (nextPort : ℕ) (service : DiscoveredService) : Except PyError ℕ := do
  let port ← allocateFreePort host.bindable nextPort
  if ¬ host.spawns (buildStartCommand service port) then throw .osError
  return port

/-- What comes of a turn of the readiness loop: the process has exited, the probe is answered, the
probe fails with an `httpx.HTTPError` or with an `httpx.InvalidURL`. -/
inductive Probe where
  | exited
  | answered (statusCode : ℕ)
  | httpError
  | invalidUrl

/-- The turns before the deadline; no exception is given back when the service is ready. -/
def waitForServiceReady : List Probe → Option PyError
  | [] => some .timeoutError
  | .exited :: _ => some .runtimeError
  | .answered statusCode :: probes =>
    if statusCode = 200 then none else waitForServiceReady probes
  | .httpError :: probes => waitForServiceReady probes
  | .invalidUrl :: _ => some .invalidUrl

/-- A process that has exited is left alone; any other one has ended afterwards. -/
def terminateProcess (ps : Processes) (p : Process) : Processes :=
  if p ∈ ps.alive then ps.stop p else ps

/-- The services that are registered, and all processes. -/
structure Services where
  registry : OrderedDict String StartedService
  processes : Processes

namespace Services

variable (s : Services)

def shutdownServices : Services where
  registry := ∅
  processes := (s.registry.entries.map fun e => e.2.process).foldl terminateProcess s.processes

/-- The process is held by the registry. -/
def Held (p : Process) : Prop := ∃ runtime, (p.name, runtime) ∈ s.registry ∧ runtime.process = p

end Services

@[simp] theorem mem_alive_terminateProcess {ps : Processes} {p q : Process} :
    p ∈ (terminateProcess ps q).alive ↔ p ≠ q ∧ p ∈ ps.alive := by
  rw [terminateProcess]
  split_ifs with hq
  · exact Processes.mem_alive_stop
  · exact ⟨fun hp => ⟨fun h => hq (h ▸ hp), hp⟩, And.right⟩

theorem mem_alive_foldl_terminateProcess {ps : Processes} {qs : List Process} {p : Process} :
    p ∈ (qs.foldl terminateProcess ps).alive ↔ p ∉ qs ∧ p ∈ ps.alive := by
  induction qs generalizing ps with
  | nil => simp
  | cons q qs ih =>
    rw [List.foldl_cons, ih, mem_alive_terminateProcess, List.mem_cons, not_or]
    tauto

theorem mem_alive_shutdownServices {s : Services} {p : Process} :
    p ∈ s.shutdownServices.processes.alive ↔
      (∀ e ∈ s.registry, e.2.process ≠ p) ∧ p ∈ s.processes.alive := by
  rw [Services.shutdownServices, mem_alive_foldl_terminateProcess]
  refine and_congr_left fun _ => ?_
  simp [OrderedDict.mem_def]

end Gateway

end AranesLms
