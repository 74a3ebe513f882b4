import AranesLms.Plugins.Manager

/-!
# No orphaned plugin processes

Every process that is alive is in the registry, or a call that is in flight answers for it: a start
has not registered it yet, or it is about to be terminated (`Inv.owned`).  A disable must find what
it has terminated under the name that it removes, and a shutdown clears a registry of which it has
terminated everything (`PhaseOk`); both break when a start completes while they are in flight.
`noOrphans_of_apart` is the result for all runs whose calls are apart, and `not_noOrphans_twice` the
run of two overlapping starts.
-/

namespace AranesLms

namespace Plugins

open Gateway Transition

/-! ## The invariant -/

namespace Phase

/-- The call answers for the process. -/
def Owns (phase : Phase) (p : Process) : Prop :=
  match phase with
  | .starting service => p = service.process
  | .abandoning q => p = q
  | _ => False

/-- The call ends the process before it ends itself. -/
def Ends (phase : Phase) (p : Process) : Prop :=
  match phase with
  | .abandoning q => p = q
  | .shuttingDown q rest => p = q ∨ p ∈ rest
  | _ => False

def IsStarting (phase : Phase) : Prop := ∃ service, phase = .starting service

/-- What a call relies on when it goes on. -/
def Ok (s : Services) : Phase → Prop
  | .starting service =>
    service.process.name = service.name ∧ service.process.pid < s.processes.spawned
  | .disabling pluginName p => ∀ service, (pluginName, service) ∈ s.registry →
    service.process ∈ s.processes.alive → service.process = p
  | .shuttingDown p rest => ∀ e ∈ s.registry,
    e.2.process ∈ s.processes.alive → e.2.process = p ∨ e.2.process ∈ rest
  | _ => True

end Phase

namespace Manager

/-- The invariant, but for what a shutdown answers for. -/
structure Core (m : Manager) : Prop where
  named : ∀ e ∈ m.services.registry, e.2.process.name = e.1
  pid_lt : ∀ e ∈ m.services.registry, e.2.process.pid < m.services.processes.spawned
  ok : ∀ call, (m.phase call).Ok m.services
  owned : ∀ p ∈ m.services.processes.alive,
    m.services.Held p ∨ ∃ call, (m.phase call).Owns p
  notStarting : m.lastShutdown → ∀ call, ¬ (m.phase call).IsStarting

structure Inv (m : Manager) : Prop extends Core m where
  ended : m.lastShutdown → ∀ p ∈ m.services.processes.alive, ∃ call, (m.phase call).Ends p

theorem inv_init : init.Inv where
  named _ h := absurd h (OrderedDict.notMem_empty _)
  pid_lt _ h := absurd h (OrderedDict.notMem_empty _)
  ok _ := trivial
  owned _ h := absurd h (Finset.notMem_empty _)
  notStarting h := by cases h
  ended h := by cases h

variable {m : Manager} {call : ℕ} {phase : Phase} {p : Process}

theorem owned_of_quiet (hquiet : m.Quiet) : ¬ (m.phase call).Owns p := by
  rcases hquiet call with h | h <;> rw [h] <;> exact id

theorem ends_of_quiet (hquiet : m.Quiet) : ¬ (m.phase call).Ends p := by
  rcases hquiet call with h | h <;> rw [h] <;> exact id

theorem Inv.noOrphans (h : m.Inv) (hquiet : m.Quiet) : m.NoOrphans := by
  have hheld : ∀ p ∈ m.services.processes.alive, m.services.Held p := fun p hp =>
    (h.owned p hp).resolve_right fun ⟨_, howns⟩ => owned_of_quiet hquiet howns
  refine ⟨hheld, fun p hp q hq hname => ?_, fun hlast => ?_⟩
  · obtain ⟨service, hmem, rfl⟩ := hheld p hp
    obtain ⟨service', hmem', rfl⟩ := hheld q hq
    rw [OrderedDict.eq_of_mem hmem (hname ▸ hmem')]
  · refine Finset.eq_empty_iff_forall_notMem.2 fun p hp => ?_
    obtain ⟨call, hends⟩ := h.ended hlast p hp
    exact ends_of_quiet hquiet hends

/-! ## Changes of the registry and of the processes -/

/-- Fewer entries and fewer processes, of which the ones that are alive keep their entries. -/
theorem Core.shrink {services : Services} (h : m.Core)
    (hregistry : ∀ e ∈ services.registry, e ∈ m.services.registry)
    (hspawned : services.processes.spawned = m.services.processes.spawned)
    (halive : ∀ p ∈ services.processes.alive, p ∈ m.services.processes.alive)
    (hkept : ∀ p ∈ services.processes.alive, m.services.Held p → services.Held p) :
    Core { m with services } where
  named e he := h.named e (hregistry e he)
  pid_lt e he := hspawned ▸ h.pid_lt e (hregistry e he)
  ok call := by
    have hok := h.ok call
    show (m.phase call).Ok services
    cases hphase : m.phase call with
    | starting service =>
      rw [hphase] at hok
      exact ⟨hok.1, hspawned ▸ hok.2⟩
    | disabling pluginName p =>
      rw [hphase] at hok
      exact fun service hmem hp => hok service (hregistry _ hmem) (halive _ hp)
    | shuttingDown p rest =>
      rw [hphase] at hok
      exact fun e he hp => hok e (hregistry e he) (halive _ hp)
    | _ => trivial
  owned p hp := (h.owned p (halive p hp)).imp_left (hkept p hp)
  notStarting := h.notStarting

theorem Core.stop (h : m.Core) (p : Process) : (m.stop p).Core :=
  h.shrink (fun _ he => he) rfl (fun _ hq => (Processes.mem_alive_stop.1 hq).2)
    fun _ _ hheld => hheld

theorem Inv.stop (h : m.Inv) (p : Process) : (m.stop p).Inv :=
  ⟨h.toCore.stop p, fun hlast q hq => h.ended hlast q (Processes.mem_alive_stop.1 hq).2⟩

theorem isRunning_iff {pluginName : String} : m.isRunning pluginName ↔
    ∃ service, (pluginName, service) ∈ m.services.registry ∧
      service.process ∈ m.services.processes.alive := by
  rw [isRunning]
  constructor
  · intro h
    cases hget : m.services.registry.get? pluginName with
    | none =>
      rw [hget] at h
      cases h
    | some service =>
      rw [hget] at h
      exact ⟨service, (OrderedDict.get?_eq_some _).1 hget, of_decide_eq_true h⟩
  · rintro ⟨service, hmem, hp⟩
    rw [(OrderedDict.get?_eq_some _).2 hmem]
    exact decide_eq_true hp

/-- An entry is removed whose process is not alive. -/
theorem Core.unregister {pluginName : String} (h : m.Core) (hrunning : ¬ m.isRunning pluginName) :
    (m.unregister pluginName).Core := by
  refine h.shrink (fun _ he => ((OrderedDict.mem_pop _).1 he).1) rfl (fun _ hp => hp) ?_
  rintro p hp ⟨service, hmem, rfl⟩
  refine ⟨service, (OrderedDict.mem_pop _).2 ⟨hmem, fun hname => hrunning ?_⟩, rfl⟩
  have hname : service.process.name = pluginName := hname
  exact isRunning_iff.2 ⟨service, hname ▸ hmem, hp⟩

theorem Core.clear (h : m.Core)
    (hdead : ∀ e ∈ m.services.registry, e.2.process ∉ m.services.processes.alive) :
    m.clear.Core := by
  refine h.shrink (fun _ he => absurd he (OrderedDict.notMem_empty _)) rfl (fun _ hp => hp) ?_
  rintro p hp ⟨service, hmem, rfl⟩
  exact absurd hp (hdead _ hmem)

/-! ## Changes of a phase -/

theorem phase_enter (call' : ℕ) :
    (m.enter call phase).phase call' = if call' = call then phase else m.phase call' :=
  Function.update_apply m.phase call phase call'

theorem Core.enter (h : m.Core) (hok : phase.Ok m.services)
    (howns : ∀ p ∈ m.services.processes.alive, (m.phase call).Owns p →
      m.services.Held p ∨ phase.Owns p)
    (hstarting : m.lastShutdown → ¬ phase.IsStarting) : (m.enter call phase).Core where
  named := h.named
  pid_lt := h.pid_lt
  ok call' := by
    rw [phase_enter]
    split_ifs with hcall
    · exact hok
    · exact h.ok call'
  owned p hp := by
    rcases h.owned p hp with hheld | ⟨call', howned⟩
    · exact Or.inl hheld
    · by_cases hcall : call' = call
      · subst hcall
        refine (howns p hp howned).imp_right fun howned => ⟨call', ?_⟩
        rwa [phase_enter, if_pos rfl]
      · exact Or.inr ⟨call', by rwa [phase_enter, if_neg hcall]⟩
  notStarting hlast call' := by
    rw [phase_enter]
    split_ifs with hcall
    · exact hstarting hlast
    · exact h.notStarting hlast call'

theorem Inv.enter (h : m.Inv) (hok : phase.Ok m.services)
    (howns : ∀ p ∈ m.services.processes.alive, (m.phase call).Owns p → phase.Owns p)
    (hstarting : m.lastShutdown → ¬ phase.IsStarting)
    (hends : ∀ p ∈ m.services.processes.alive, (m.phase call).Ends p → phase.Ends p) :
    (m.enter call phase).Inv := by
  refine ⟨h.toCore.enter hok (fun p hp howned => Or.inr (howns p hp howned)) hstarting,
    fun hlast p hp => ?_⟩
  obtain ⟨call', hends'⟩ := h.ended hlast p hp
  by_cases hcall : call' = call
  · subst hcall
    exact ⟨call', by rw [phase_enter, if_pos rfl]; exact hends p hp hends'⟩
  · exact ⟨call', by rwa [phase_enter, if_neg hcall]⟩

/-- A call ends that answers for nothing. -/
theorem Inv.finish (h : m.Inv)
    (howns : ∀ p ∈ m.services.processes.alive, ¬ (m.phase call).Owns p)
    (hends : ∀ p ∈ m.services.processes.alive, ¬ (m.phase call).Ends p) :
    (m.enter call .finished).Inv :=
  h.enter trivial (fun p hp h => (howns p hp h).elim) (fun _ h => nomatch h)
    fun p hp h => (hends p hp h).elim

/-- A call ends that has just begun. -/
theorem Inv.finish_idle (h : m.Inv) (hcall : m.phase call = .idle) :
    (m.enter call .finished).Inv :=
  h.finish (fun _ _ howned => by rw [hcall] at howned; exact howned)
    fun _ _ hends => by rw [hcall] at hends; exact hends

/-! ## Starting a plugin -/

/-- A service is registered whose plugin has no other process alive, while no disable of it and no
shutdown is in flight. -/
theorem Core.register {service : StartedService} (h : m.Core)
    (hok : (Phase.starting service).Ok m.services) (hrunning : ¬ m.isRunning service.name)
    (hdisabling : ∀ c p, m.phase c ≠ .disabling service.name p)
    (hshutdown : ∀ c p rest, m.phase c ≠ .shuttingDown p rest) : (m.register service).Core where
  named e he := by
    rcases (OrderedDict.mem_set _).1 he with ⟨he, -⟩ | rfl
    · exact h.named e he
    · exact hok.1
  pid_lt e he := by
    rcases (OrderedDict.mem_set _).1 he with ⟨he, -⟩ | rfl
    · exact h.pid_lt e he
    · exact hok.2
  ok call := by
    have hcall := h.ok call
    show (m.phase call).Ok (m.register service).services
    cases hphase : m.phase call with
    | starting service' =>
      rw [hphase] at hcall
      exact hcall
    | disabling pluginName p =>
      rw [hphase] at hcall
      intro service' hmem hp
      rcases (OrderedDict.mem_set _).1 hmem with ⟨hmem, -⟩ | heq
      · exact hcall service' hmem hp
      · obtain rfl : pluginName = service.name := congrArg Prod.fst heq
        exact absurd hphase (hdisabling call p)
    | shuttingDown p rest => exact absurd hphase (hshutdown call p rest)
    | _ => trivial
  owned p hp := by
    refine (h.owned p hp).imp_left ?_
    rintro ⟨service', hmem, rfl⟩
    refine ⟨service', (OrderedDict.mem_set _).2 (Or.inl ⟨hmem, fun hname => hrunning ?_⟩), rfl⟩
    have hname : service'.process.name = service.name := hname
    exact isRunning_iff.2 ⟨service', hname ▸ hmem, hp⟩
  notStarting := h.notStarting

theorem held_register {service : StartedService}
    (hname : service.process.name = service.name) :
    (m.register service).services.Held service.process :=
  ⟨service, (OrderedDict.mem_set _).2 (Or.inr (by rw [hname])), rfl⟩

/-- The new process is no registered one. -/
theorem Core.mem_alive_spawn (h : m.Core) {name : String} {e : String × StartedService}
    (he : e ∈ m.services.registry)
    (hp : e.2.process ∈ (m.services.processes.spawn name).alive) :
    e.2.process ∈ m.services.processes.alive := by
  refine (Processes.mem_alive_spawn.1 hp).resolve_left fun hnext => ?_
  have hlt := h.pid_lt e he
  rw [hnext] at hlt
  exact lt_irrefl _ hlt

theorem Core.startPluginProcess {mapping : PluginMapping} {service : DiscoveredService} {port : ℕ}
    (h : m.Core) (hcall : m.phase call = .idle) (hlast : m.lastShutdown = false) :
    (m.startPluginProcess call mapping service port).Core where
  named := h.named
  pid_lt e he := Nat.lt_succ_of_lt (h.pid_lt e he)
  ok call' := by
    rw [Manager.startPluginProcess, phase_enter]
    split_ifs with heq
    · exact ⟨rfl, Nat.lt_succ_self _⟩
    · have hok := h.ok call'
      show (m.phase call').Ok _
      cases hphase : m.phase call' with
      | starting service' =>
        rw [hphase] at hok
        exact ⟨hok.1, Nat.lt_succ_of_lt hok.2⟩
      | disabling pluginName p =>
        rw [hphase] at hok
        exact fun service' hmem hp => hok service' hmem (h.mem_alive_spawn hmem hp)
      | shuttingDown p rest =>
        rw [hphase] at hok
        exact fun e he hp => hok e he (h.mem_alive_spawn he hp)
      | _ => trivial
  owned p hp := by
    rcases Processes.mem_alive_spawn.1 hp with rfl | hp
    · refine Or.inr ⟨call, ?_⟩
      rw [Manager.startPluginProcess, phase_enter, if_pos rfl]
      rfl
    · refine (h.owned p hp).imp_right ?_
      rintro ⟨call', howned⟩
      refine ⟨call', ?_⟩
      rw [Manager.startPluginProcess, phase_enter, if_neg]
      · exact howned
      · rintro rfl
        rw [hcall] at howned
        exact howned
  notStarting h := by
    have h : m.lastShutdown = true := h
    rw [hlast] at h
    cases h

/-! ## Shutting down -/

theorem Core.shutdownFrom {l : List Process} (h : m.Core)
    (hcall : ∀ p ∈ m.services.processes.alive, ¬ (m.phase call).Owns p)
    (hl : ∀ e ∈ m.services.registry, e.2.process ∈ m.services.processes.alive → e.2.process ∈ l)
    (hends : m.lastShutdown → ∀ p ∈ m.services.processes.alive,
      p ∈ l ∨ ∃ c, c ≠ call ∧ (m.phase c).Ends p) : (m.shutdownFrom call l).Inv := by
  induction l with
  | nil =>
    have hdead : ∀ e ∈ m.services.registry, e.2.process ∉ m.services.processes.alive :=
      fun e he hp => List.not_mem_nil (hl e he hp)
    refine ⟨(h.clear hdead).enter trivial (fun p hp howned => absurd howned (hcall p hp))
      (fun _ h => nomatch h), fun hlast p hp => ?_⟩
    obtain ⟨c, hne, hends⟩ := (hends hlast p hp).resolve_left List.not_mem_nil
    exact ⟨c, by rw [Manager.shutdownFrom, phase_enter, if_neg hne]; exact hends⟩
  | cons p rest ih =>
    rw [Manager.shutdownFrom]
    split_ifs with hp
    · refine ⟨h.enter (fun e he hp => List.mem_cons.1 (hl e he hp))
        (fun q hq howned => absurd howned (hcall q hq)) (fun _ h => nomatch h),
        fun hlast q hq => ?_⟩
      rcases hends hlast q hq with hq | ⟨c, hne, hends⟩
      · exact ⟨call, by rw [phase_enter, if_pos rfl]; exact List.mem_cons.1 hq⟩
      · exact ⟨c, by rw [phase_enter, if_neg hne]; exact hends⟩
    · have hrest : ∀ q ∈ m.services.processes.alive, q ∈ p :: rest → q ∈ rest :=
        fun q hq hmem => (List.mem_cons.1 hmem).resolve_left fun heq => hp (heq ▸ hq)
      exact ih (fun e he hq => hrest _ hq (hl e he hq)) fun hlast q hq =>
        (hends hlast q hq).imp_left (hrest q hq)

/-- A shutdown begins while no start is in flight. -/
theorem Inv.beginShutdown (h : m.Inv) (hcall : m.phase call = .idle)
    (hstarting : ∀ c service, m.phase c ≠ .starting service) :
    ({ m with lastShutdown := true }.shutdownFrom call m.registered).Inv := by
  have hcore : Core { m with lastShutdown := true } :=
    ⟨h.named, h.pid_lt, h.ok, h.owned, fun _ c ⟨service, hphase⟩ => hstarting c service hphase⟩
  refine hcore.shutdownFrom (fun p _ howned => ?_) (fun e he _ => List.mem_map_of_mem he)
    fun _ p hp => ?_
  · change (m.phase call).Owns p at howned
    rw [hcall] at howned
    exact howned
  · rcases h.owned p hp with ⟨service, hmem, rfl⟩ | ⟨c, howned⟩
    · exact Or.inl (List.mem_map.2 ⟨_, hmem, rfl⟩)
    · refine Or.inr ⟨c, ?_, ?_⟩
      · rintro rfl
        rw [hcall] at howned
        exact howned
      · show (m.phase c).Ends p
        cases hphase : m.phase c with
        | starting service => exact absurd hphase (hstarting c service)
        | abandoning q =>
          rw [hphase] at howned
          exact howned
        | _ =>
          rw [hphase] at howned
          exact howned.elim

/-! ## One step -/

theorem Inv.beginDisable {mapping : PluginMapping} (h : m.Inv) (hcall : m.phase call = .idle) :
    (m.beginDisable call mapping).Inv := by
  rw [Manager.beginDisable]
  cases hget : m.services.registry.get? mapping.pluginName with
  | none => exact h.finish_idle hcall
  | some service =>
    have hmem := (OrderedDict.get?_eq_some _).1 hget
    dsimp only
    split_ifs with hp
    · refine h.enter (fun service' hmem' _ => ?_) (fun p _ howned => ?_) (fun _ h => nomatch h)
        fun p _ hends => ?_
      · rw [OrderedDict.eq_of_mem hmem' hmem]
      · rw [hcall] at howned
        exact howned.elim
      · rw [hcall] at hends
        exact hends.elim
    · have hrunning : ¬ m.isRunning mapping.pluginName := fun h => by
        obtain ⟨service', hmem', hp'⟩ := isRunning_iff.1 h
        exact hp (OrderedDict.eq_of_mem hmem' hmem ▸ hp')
      have hinv : (m.unregister mapping.pluginName).Inv :=
        ⟨h.toCore.unregister hrunning, h.ended⟩
      exact hinv.finish_idle hcall

theorem Inv.beginEnable {mapping : PluginMapping} {startPort : ℕ}
    {discovered : List DiscoveredService} {host : Host} (h : m.Inv) (hcall : m.phase call = .idle)
    (hlast : m.lastShutdown = false) :
    (m.beginEnable startPort call mapping discovered host).Inv := by
  rw [Manager.beginEnable]
  split_ifs
  · exact h.finish_idle hcall
  · split
    · exact h.finish_idle hcall
    · split
      · exact h.finish_idle hcall
      · refine ⟨h.toCore.startPluginProcess hcall hlast, fun hshutdown => ?_⟩
        exact absurd (hlast.symm.trans hshutdown) Bool.false_ne_true

theorem Inv.beginApply {mapping : PluginMapping} {startPort : ℕ} {servicesRoot : List ServiceDir}
    {host : Host} (h : m.Inv) (hcall : m.phase call = .idle) (hlast : m.lastShutdown = false) :
    (m.beginApply startPort call mapping servicesRoot host).Inv := by
  rw [Manager.beginApply]
  cases discoverServices servicesRoot with
  | error e => exact h.finish_idle hcall
  | ok discovered =>
    dsimp only
    by_cases henabled : mapping.enabled
    · rw [if_neg (not_not.2 henabled)]
      exact h.beginEnable hcall hlast
    · rw [if_pos henabled]
      exact h.beginDisable hcall

theorem Inv.resume {ready : Bool} (h : m.Inv) (hapart : m.Apart (.resume call ready)) :
    (m.resume call ready).Inv := by
  have hok := h.ok call
  rw [Manager.resume]
  cases hphase : m.phase call with
  | idle => exact h
  | finished => exact h
  | starting service =>
    rw [hphase] at hok
    dsimp only
    split_ifs with hready hp
    · subst hready
      obtain ⟨hrunning, hdisabling, hshutdown⟩ := hapart service hphase
      refine ⟨(h.toCore.register hok hrunning hdisabling hshutdown).enter trivial
        (fun p _ howned => Or.inl ?_) (fun _ h => nomatch h), fun hlast => ?_⟩
      · change (m.phase call).Owns p at howned
        rw [hphase] at howned
        obtain rfl : p = service.process := howned
        exact held_register hok.1
      · exact absurd ⟨service, hphase⟩ (h.notStarting hlast call)
    · refine h.enter trivial (fun p _ howned => ?_) (fun _ h => nomatch h) fun p _ hends => ?_
      · rw [hphase] at howned
        exact howned
      · rw [hphase] at hends
        exact hends.elim
    · refine h.finish (fun p hq howned => ?_) fun p _ hends => ?_
      · rw [hphase] at howned
        obtain rfl : p = service.process := howned
        exact hp hq
      · rw [hphase] at hends
        exact hends
  | abandoning p =>
    refine (h.stop p).finish (fun q hq howned => ?_) fun q hq hends => ?_
    · change (m.phase call).Owns q at howned
      rw [hphase] at howned
      exact (Processes.mem_alive_stop.1 hq).1 howned
    · change (m.phase call).Ends q at hends
      rw [hphase] at hends
      exact (Processes.mem_alive_stop.1 hq).1 hends
  | disabling pluginName p =>
    rw [hphase] at hok
    have hrunning : ¬ (m.stop p).isRunning pluginName := fun h => by
      obtain ⟨service, hmem, hp⟩ := isRunning_iff.1 h
      obtain ⟨hne, hp⟩ := Processes.mem_alive_stop.1 hp
      exact hne (hok service hmem hp)
    have hinv : ((m.stop p).unregister pluginName).Inv :=
      ⟨(h.stop p).toCore.unregister hrunning, (h.stop p).ended⟩
    refine hinv.finish (fun q _ howned => ?_) fun q _ hends => ?_
    · change (m.phase call).Owns q at howned
      rw [hphase] at howned
      exact howned
    · change (m.phase call).Ends q at hends
      rw [hphase] at hends
      exact hends
  | shuttingDown p rest =>
    rw [hphase] at hok
    refine (h.stop p).toCore.shutdownFrom (fun q _ howned => ?_) (fun e he hq => ?_)
      fun hlast q hq => ?_
    · change (m.phase call).Owns q at howned
      rw [hphase] at howned
      exact howned
    · obtain ⟨hne, hq⟩ := Processes.mem_alive_stop.1 hq
      exact (hok e he hq).resolve_left hne
    · obtain ⟨c, hends⟩ := (h.stop p).ended hlast q hq
      by_cases hc : c = call
      · subst hc
        change (m.phase c).Ends q at hends
        rw [hphase] at hends
        exact Or.inl (hends.resolve_left (Processes.mem_alive_stop.1 hq).1)
      · exact Or.inr ⟨c, hc, hends⟩

theorem Inv.begin {startPort : ℕ} {request : Request} (h : m.Inv)
    (hcall : m.phase call = .idle) (hapart : m.Apart (.begin call request)) :
    (m.begin startPort call request).Inv := by
  cases request with
  | applyMappingState mapping servicesRoot host =>
    have hinv : Inv { m with lastShutdown := false } :=
      ⟨⟨h.named, h.pid_lt, h.ok, h.owned, nofun⟩, nofun⟩
    exact hinv.beginApply hcall rfl
  | shutdown => exact h.beginShutdown hcall hapart

theorem Inv.step {startPort : ℕ} {a : ManagerStep} (h : m.Inv) (hapart : m.Apart a) :
    (step startPort m a).Inv := by
  cases a with
  | begin call request =>
    rw [Manager.step]
    split
    · rename_i hcall
      exact h.begin hcall hapart
    · exact h
  | resume call ready => exact h.resume hapart
  | exit p => exact h.stop p

end Manager

/-! ## Runs -/

/-- As long as calls stay apart (a start is completed only when no other process of the plugin is
registered and alive, and no disable of it and no shutdown is in flight; a shutdown begins only when
no start is in flight), no process is orphaned whenever no call is in flight. -/
theorem noOrphans_of_apart {startPort : ℕ} {as : List ManagerStep}
    (h : Along (Manager.step startPort) Manager.Apart Manager.init as) :
    Always (Manager.step startPort) (fun m => m.Quiet → m.NoOrphans) Manager.init as := by
  have hinv : Always (Manager.step startPort) Manager.Inv Manager.init as :=
    Always.of_along (fun _ _ h hapart => h.step hapart) Manager.inv_init h
  exact hinv.mono fun m h hquiet => h.noOrphans hquiet

/-- A plugin is enabled, and everything that it needs is there. -/
def enable (name : String) : Request :=
  .applyMappingState ⟨name, name, publicPluginPrefix name, true⟩ [⟨name, true, .ok none, true⟩]
    ⟨fun _ => true, fun _ => true⟩

def enableShop : Request := enable "shop"

/-- The plugins `shop` and `blog` are enabled in two calls that overlap, and then all processes are
terminated. -/
theorem noOrphans_of_apart_overlap :
    Always (Manager.step 10000) (fun m => m.Quiet → m.NoOrphans) Manager.init
      [.begin 0 enableShop, .begin 1 (enable "blog"), .resume 1 true, .resume 0 true,
        .begin 2 .shutdown, .resume 2 true, .resume 2 true] := by
  refine noOrphans_of_apart
    ⟨trivial, trivial, ?blog, ?shop, ?shutdown, ?terminate, ?terminate', trivial⟩
  case blog =>
    rintro service h
    cases h
    refine ⟨by decide +kernel, fun c p h => ?_, fun c p rest h => ?_⟩
    · rcases c with _ | _ | c <;> cases h
    · rcases c with _ | _ | c <;> cases h
  case shop =>
    rintro service h
    cases h
    refine ⟨by decide +kernel, fun c p h => ?_, fun c p rest h => ?_⟩
    · rcases c with _ | _ | c <;> cases h
    · rcases c with _ | _ | c <;> cases h
  case shutdown =>
    rintro c service h
    rcases c with _ | _ | c <;> cases h
  case terminate | terminate' =>
    rintro service h
    cases h

/-- Two starts of one plugin overlap. -/
def twoStarts : List ManagerStep :=
  [.begin 0 enableShop, .begin 1 enableShop, .resume 0 true, .resume 1 true]

/-- The process of the first start is alive, and the registry has the one of the second. -/
theorem not_noOrphans_twice :
    ¬ ∀ as, Always (Manager.step 10000) (fun m => m.Quiet → m.NoOrphans) Manager.init as := by
  intro h
  have hquiet : (runFrom (Manager.step 10000) Manager.init twoStarts).Quiet := by
    intro call
    rcases call with _ | _ | call
    · exact Or.inr rfl
    · exact Or.inr rfl
    · exact Or.inl rfl
  obtain ⟨service, hmem, hprocess⟩ :=
    ((h twoStarts).last hquiet).held ⟨0, "shop"⟩ (by decide +kernel)
  have hother : ∀ e ∈ (runFrom (Manager.step 10000) Manager.init twoStarts).services.registry,
      e.2.process ≠ ⟨0, "shop"⟩ := by decide +kernel
  exact hother _ hmem hprocess

end Plugins

end AranesLms
