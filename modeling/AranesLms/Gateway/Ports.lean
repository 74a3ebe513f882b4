import AranesLms.Gateway.Launch
import Mathlib.Order.Bounds.Defs

/-!
# The ports of the services

`allocate_free_port` tries the ports from `start` on, and `launch_services` asks for each port with
one more than the last.  `portsCorrect_iff`: the least port that can be bound is given, or a
`RuntimeError` raised, as long as no port is asked for after 65535 has been given out; 65536 is
passed to `bind` before it is compared with the end of the range, and `bind` raises an
`OverflowError`, which is not caught.
-/

namespace AranesLms

namespace Gateway

/-! ## One port -/

section

variable (bindable : ℕ → Bool)

/-- `probe.bind(("127.0.0.1", port))`. -/
def bind (port : ℕ) : Except PyError Unit :=
  if 65535 < port then .error .overflowError
  else if bindable port then .ok ()
  else .error .osError

/-- The loop of `allocate_free_port`. -/
def allocatePortLoop (port : ℕ) : Except PyError ℕ :=
  match bind bindable port with
  | .ok () => .ok port
  | .error .osError =>
    if hend : port + 1 > 65535 then .error .runtimeError else allocatePortLoop (port + 1)
  | .error e => .error e
termination_by 65536 - port
decreasing_by omega

/-- What an allocation is for: the least port of the range that can be bound, or a `RuntimeError`
when there is none. -/
def AllocatesLeast (start : ℕ) (result : Except PyError ℕ) : Prop :=
  (∃ port, IsLeast { p | start ≤ p ∧ p ≤ 65535 ∧ bindable p } port ∧ result = .ok port) ∨
    ({ p | start ≤ p ∧ p ≤ 65535 ∧ bindable p } = ∅ ∧ result = .error .runtimeError)

variable {bindable}

theorem allocatePortLoop_of_lt {port : ℕ} (h : 65535 < port) :
    allocatePortLoop bindable port = .error .overflowError := by
  rw [allocatePortLoop, bind, if_pos h]

theorem allocatePortLoop_of_bindable {port : ℕ} (hle : port ≤ 65535) (h : bindable port) :
    allocatePortLoop bindable port = .ok port := by
  rw [allocatePortLoop, bind, if_neg (not_lt.2 hle), if_pos h]

theorem allocatePortLoop_of_occupied {port : ℕ} (hle : port ≤ 65535) (h : ¬ bindable port) :
    allocatePortLoop bindable port =
      if port = 65535 then .error .runtimeError else allocatePortLoop bindable (port + 1) := by
  rw [allocatePortLoop, bind, if_neg (not_lt.2 hle), if_neg h]
  dsimp only
  by_cases hend : port = 65535
  · rw [if_pos hend, dif_pos (by omega)]
  · rw [if_neg hend, dif_neg (by omega)]

/-- The loop is `allocateFreePort`. -/
theorem allocatePortLoop_eq (start : ℕ) :
    allocatePortLoop bindable start = allocateFreePort bindable start := by
  by_cases hlt : 65535 < start
  · rw [allocatePortLoop_of_lt hlt, allocateFreePort, if_pos hlt]
  · obtain ⟨n, hn⟩ := Nat.exists_eq_add_of_le (not_lt.1 hlt)
    obtain rfl : start = 65535 - n := by omega
    rw [allocateFreePort, if_neg hlt, show 65536 - (65535 - n) = n + 1 by omega]
    clear hlt
    induction n with
    | zero =>
      rw [allocatePortFrom, allocatePortFrom]
      split_ifs with hbind
      · exact allocatePortLoop_of_bindable (by omega) hbind
      · rw [allocatePortLoop_of_occupied (by omega) hbind, if_pos rfl]
    | succ n ih =>
      rw [allocatePortFrom]
      split_ifs with hbind
      · exact allocatePortLoop_of_bindable (by omega) hbind
      · rw [allocatePortLoop_of_occupied (by omega) hbind, if_neg (by omega),
          show 65535 - (n + 1) + 1 = 65535 - n by omega]
        exact ih (by omega)

/-- An occupied port is out of the question. -/
theorem allocatesLeast_succ {start : ℕ} {result : Except PyError ℕ} (h : ¬ bindable start) :
    AllocatesLeast bindable (start + 1) result ↔ AllocatesLeast bindable start result := by
  have hrange : { p | start + 1 ≤ p ∧ p ≤ 65535 ∧ bindable p } =
      { p | start ≤ p ∧ p ≤ 65535 ∧ bindable p } := by
    ext p
    constructor
    · rintro ⟨hstart, hp⟩
      exact ⟨by omega, hp⟩
    · rintro ⟨hstart, hle, hp⟩
      refine ⟨lt_of_le_of_ne hstart ?_, hle, hp⟩
      rintro rfl
      exact h hp
  rw [AllocatesLeast, AllocatesLeast, hrange]

variable (bindable) in
theorem allocatesLeast_of_le {start : ℕ} (hle : start ≤ 65535) :
    AllocatesLeast bindable start (allocatePortLoop bindable start) := by
  induction hle using Nat.decreasingInduction with
  | self =>
    by_cases hbind : bindable 65535
    · rw [allocatePortLoop_of_bindable le_rfl hbind]
      exact Or.inl ⟨65535, ⟨⟨le_rfl, le_rfl, hbind⟩, fun p hp => hp.1⟩, rfl⟩
    · rw [allocatePortLoop_of_occupied le_rfl hbind, if_pos rfl]
      refine Or.inr ⟨Set.eq_empty_iff_forall_notMem.2 fun p hp => ?_, rfl⟩
      obtain rfl : p = 65535 := le_antisymm hp.2.1 hp.1
      exact hbind hp.2.2
  | @of_succ start hlt ih =>
    by_cases hbind : bindable start
    · rw [allocatePortLoop_of_bindable hlt.le hbind]
      exact Or.inl ⟨start, ⟨⟨le_rfl, hlt.le, hbind⟩, fun p hp => hp.1⟩, rfl⟩
    · rw [allocatePortLoop_of_occupied hlt.le hbind, if_neg hlt.ne]
      exact (allocatesLeast_succ hbind).1 ih

/-- The exception past the end of the range is the wrong one. -/
theorem allocatesLeast_iff (start : ℕ) :
    AllocatesLeast bindable start (allocatePortLoop bindable start) ↔ start ≤ 65535 := by
  refine ⟨fun h => ?_, allocatesLeast_of_le bindable⟩
  by_contra hlt
  rw [allocatePortLoop_of_lt (not_le.1 hlt)] at h
  rcases h with ⟨port, -, heq⟩ | ⟨-, heq⟩
  · cases heq
  · cases heq

theorem mem_range_of_eq_ok {start port : ℕ} (h : allocatePortLoop bindable start = .ok port) :
    start ≤ port ∧ port ≤ 65535 := by
  by_cases hle : start ≤ 65535
  · rcases allocatesLeast_of_le bindable hle with ⟨port', hleast, heq⟩ | ⟨-, heq⟩
    · rw [h] at heq
      obtain rfl := Except.ok.inj heq
      exact ⟨hleast.1.1, hleast.1.2.1⟩
    · rw [h] at heq
      cases heq
  · rw [allocatePortLoop_of_lt (not_le.1 hle)] at h
    cases h

end

/-! ## The ports of a launch -/

/-- A call of `allocate_free_port`: the ports that can be bound at the time, and its argument. -/
structure Allocation where
  bindable : ℕ → Bool
  start : ℕ

namespace Allocation

def result (a : Allocation) : Except PyError ℕ := allocatePortLoop a.bindable a.start

def Correct (a : Allocation) : Prop := AllocatesLeast a.bindable a.start a.result

/-- The port that is given out. -/
def port? (a : Allocation) : Option ℕ := a.result.toOption

theorem port?_eq_some {a : Allocation} {port : ℕ} : a.port? = some port ↔ a.result = .ok port := by
  rw [port?]
  cases a.result <;> simp [Except.toOption]

end Allocation

section

variable (env : DiscoveredService → Attempt)

/-- The calls that the loop of `launch_services` makes. -/
def allocations (nextPort : ℕ) : List DiscoveredService → List Allocation
  | [] => []
  | service :: services =>
    if ¬ autoStart service then allocations nextPort services
    else
      ⟨(env service).bindable, nextPort⟩ ::
        match (env service).portFor nextPort service with
        | .error _ => []
        | .ok port =>
          match waitForServiceReady (env service).probes with
          | none => allocations (port + 1) services
          | some _ => []

def launchAllocations (servicesRoot : List ServiceDir) (startPort : ℕ) : List Allocation :=
  match discoverServices servicesRoot with
  | .ok discovered => allocations env startPort discovered
  | .error _ => []

variable {env}

theorem result_of_portFor {service : DiscoveredService} {nextPort port : ℕ}
    (h : (env service).portFor nextPort service = .ok port) :
    (Allocation.mk (env service).bindable nextPort).result = .ok port := by
  obtain ⟨port', hport, hrest⟩ := Except.bind_eq_ok.1 h
  rw [Allocation.result, allocatePortLoop_eq, hport]
  dsimp only at hrest
  split_ifs at hrest with hspawns
  · exact hrest
  · cases hrest

variable (env) in
/-- A service that is not started asks for no port.  After one that is, the others ask with one more
than its port, if it gets ready. -/
theorem allocations_cons (service : DiscoveredService) (services : List DiscoveredService)
    (nextPort : ℕ) :
    allocations env nextPort (service :: services) = allocations env nextPort services ∨
      allocations env nextPort (service :: services) = [⟨(env service).bindable, nextPort⟩] ∨
      ∃ port, (Allocation.mk (env service).bindable nextPort).result = .ok port ∧
        allocations env nextPort (service :: services) =
          ⟨(env service).bindable, nextPort⟩ :: allocations env (port + 1) services := by
  rw [allocations]
  by_cases hauto : autoStart service
  · rw [if_neg (not_not.2 hauto)]
    refine Or.inr ?_
    cases hport : (env service).portFor nextPort service with
    | error e => exact Or.inl rfl
    | ok port =>
      cases waitForServiceReady (env service).probes with
      | none => exact Or.inr ⟨port, result_of_portFor hport, rfl⟩
      | some e => exact Or.inl rfl
  · rw [if_pos hauto]
    exact Or.inl rfl

/-- Every port is at least the one asked for, and smaller than those given out after it. -/
theorem ports_allocations (services : List DiscoveredService) (nextPort : ℕ) :
    (∀ port ∈ (allocations env nextPort services).filterMap Allocation.port?, nextPort ≤ port) ∧
      ((allocations env nextPort services).filterMap Allocation.port?).Pairwise (· < ·) := by
  induction services generalizing nextPort with
  | nil => exact ⟨fun _ h => absurd h List.not_mem_nil, List.Pairwise.nil⟩
  | cons service services ih =>
    have hle : ∀ port ∈ (Allocation.mk (env service).bindable nextPort).port?, nextPort ≤ port :=
      fun port hport => (mem_range_of_eq_ok (Allocation.port?_eq_some.1 hport)).1
    rcases allocations_cons env service services nextPort with
      heq | heq | ⟨port, hresult, heq⟩
    · rw [heq]
      exact ih nextPort
    · rw [heq]
      cases hport : (Allocation.mk (env service).bindable nextPort).port? with
      | none => simp [hport]
      | some port => simp [hport, hle port hport]
    · obtain ⟨hlater, hsorted⟩ := ih (port + 1)
      have hport := Allocation.port?_eq_some.2 hresult
      rw [heq, List.filterMap_cons_some hport, List.pairwise_cons]
      refine ⟨fun p hp => ?_, fun p hp => hlater p hp, hsorted⟩
      rcases List.mem_cons.1 hp with rfl | hp
      · exact hle _ hport
      · exact (hle _ hport).trans ((Nat.le_succ _).trans (hlater p hp))

/-- Every service that is registered has a port that was given out. -/
theorem exists_allocation_of_registered (services : List DiscoveredService) (nextPort : ℕ)
    (s : Services) : ∀ e ∈ (launchLoop env nextPort s services).1.registry,
      e ∈ s.registry ∨
        e.2.port ∈ (allocations env nextPort services).filterMap Allocation.port? := by
  induction services generalizing nextPort s with
  | nil => exact fun e he => Or.inl he
  | cons service services ih =>
    rw [launchLoop, allocations]
    by_cases hauto : autoStart service
    · rw [if_neg (not_not.2 hauto), if_neg (not_not.2 hauto)]
      cases hport : (env service).portFor nextPort service with
      | error e => exact fun e he => Or.inl he
      | ok port =>
        have hgiven := Allocation.port?_eq_some.2 (result_of_portFor hport)
        dsimp only
        cases waitForServiceReady (env service).probes with
        | none =>
          dsimp only
          rw [List.filterMap_cons_some hgiven]
          intro e he
          rcases ih _ _ e he with he | hmem
          · rcases (OrderedDict.mem_set _).1 he with ⟨he, -⟩ | rfl
            · exact Or.inl he
            · exact Or.inr List.mem_cons_self
          · exact Or.inr (List.mem_cons_of_mem _ hmem)
        | some e => exact fun e he => absurd he (OrderedDict.notMem_empty _)
    · rw [if_pos hauto, if_pos hauto]
      exact ih nextPort s

theorem start_head?_allocations (services : List DiscoveredService) (nextPort : ℕ) :
    ∀ a ∈ (allocations env nextPort services).head?, a.start = nextPort := by
  induction services with
  | nil => exact fun _ h => nomatch h
  | cons service services ih =>
    rcases allocations_cons env service services nextPort with heq | heq | ⟨port, -, heq⟩
    · rw [heq]
      exact ih
    · rw [heq]
      rintro a ⟨⟩
      rfl
    · rw [heq]
      rintro a ⟨⟩
      rfl

/-- No port is asked for past the end of the range when none is asked for after 65535. -/
theorem start_le_iff (services : List DiscoveredService) {nextPort : ℕ} (h : nextPort ≤ 65535) :
    (∀ a ∈ allocations env nextPort services, a.start ≤ 65535) ↔
      ∀ a ∈ (allocations env nextPort services).dropLast, a.port? ≠ some 65535 := by
  induction services generalizing nextPort with
  | nil => exact ⟨fun _ _ h => absurd h List.not_mem_nil, fun _ _ h => absurd h List.not_mem_nil⟩
  | cons service services ih =>
    rcases allocations_cons env service services nextPort with
      heq | heq | ⟨port, hresult, heq⟩
    · rw [heq]
      exact ih h
    · rw [heq]
      simpa using h
    · rw [heq, List.forall_mem_cons, and_iff_right h]
      cases hrest : allocations env (port + 1) services with
      | nil =>
        exact ⟨fun _ _ h => absurd h List.not_mem_nil, fun _ _ h => absurd h List.not_mem_nil⟩
      | cons b rest =>
        have hb : b.start = port + 1 := start_head?_allocations services (port + 1) b (by
          rw [hrest, List.head?_cons, Option.mem_some_iff])
        rw [List.dropLast_cons_cons, List.forall_mem_cons (l := (b :: rest).dropLast),
          Allocation.port?_eq_some.2 hresult]
        by_cases hport : port = 65535
        · constructor
          · intro hall
            have hle := hall b List.mem_cons_self
            omega
          · rintro ⟨hne, -⟩
            exact absurd (congrArg some hport) hne
        · have hlt : port + 1 ≤ 65535 := by
            have hmax := (mem_range_of_eq_ok hresult).2
            omega
          rw [← hrest, ih hlt, and_iff_right]
          exact fun heq => hport (Option.some.inj heq)

end

/-! ## Every launch -/

/-- Every call of a launch gives the right answer, and the ports that it gives out increase. -/
structure PortsCorrect (env : DiscoveredService → Attempt) (servicesRoot : List ServiceDir)
    (startPort : ℕ) : Prop where
  allocations : ∀ a ∈ launchAllocations env servicesRoot startPort, a.Correct
  increasing :
    ((launchAllocations env servicesRoot startPort).filterMap Allocation.port?).Pairwise (· < ·)

theorem ports_launchAllocations (env : DiscoveredService → Attempt)
    (servicesRoot : List ServiceDir) (startPort : ℕ) :
    ((launchAllocations env servicesRoot startPort).filterMap Allocation.port?).Pairwise
      (· < ·) := by
  rw [launchAllocations]
  cases discoverServices servicesRoot with
  | error e => exact List.Pairwise.nil
  | ok discovered => exact (ports_allocations discovered startPort).2

/-- The ports in the registry are among them. -/
theorem mem_ports_of_registered (env : DiscoveredService → Attempt)
    (servicesRoot : List ServiceDir) (startPort : ℕ) :
    ∀ e ∈ (launchServices env servicesRoot startPort).1.registry,
      e.2.port ∈ (launchAllocations env servicesRoot startPort).filterMap Allocation.port? := by
  intro e he
  rw [launchServices] at he
  rw [launchAllocations]
  cases hdiscovered : discoverServices servicesRoot with
  | error e' =>
    rw [hdiscovered] at he
    exact absurd he (OrderedDict.notMem_empty _)
  | ok discovered =>
    rw [hdiscovered] at he
    rcases exists_allocation_of_registered discovered startPort _ e he with hempty | hmem
    · exact absurd hempty (OrderedDict.notMem_empty _)
    · exact hmem

/-- A single call is right exactly when it starts in the range, and a launch exactly when all its
calls do. -/
theorem portsCorrect_iff (bindable : ℕ → Bool) (start : ℕ) (env : DiscoveredService → Attempt)
    (servicesRoot : List ServiceDir) (startPort : ℕ) :
    (AllocatesLeast bindable start (allocatePortLoop bindable start) ↔ start ≤ 65535) ∧
      (PortsCorrect env servicesRoot startPort ↔
        ∀ a ∈ launchAllocations env servicesRoot startPort, a.start ≤ 65535) := by
  refine ⟨allocatesLeast_iff start, ?_⟩
  constructor
  · intro h a ha
    exact (allocatesLeast_iff a.start).1 (h.allocations a ha)
  · intro h
    exact ⟨fun a ha => (allocatesLeast_iff a.start).2 (h a ha),
      ports_launchAllocations env servicesRoot startPort⟩

/-- The first service gets port 65535, and the second an exception of the wrong kind. -/
theorem not_portsCorrect_lastPort :
    ¬ PortsCorrect (fun _ => readyAtOnce)
      [⟨"a", true, .ok none, true⟩, ⟨"b", true, .ok none, true⟩] 65535 := by
  intro h
  have hstarts : (launchAllocations (fun _ => readyAtOnce)
      [⟨"a", true, .ok none, true⟩, ⟨"b", true, .ok none, true⟩] 65535).map Allocation.start =
        [65535, 65536] := by decide +kernel
  obtain ⟨a, ha, hstart⟩ := List.mem_map.1 (hstarts ▸ List.mem_cons_of_mem _ List.mem_cons_self)
  have hle := (allocatesLeast_iff a.start).1 (h.allocations a ha)
  omega

end Gateway

end AranesLms
