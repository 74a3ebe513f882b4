import AranesLms.Auth.Revocation
import AranesLms.Utils.RateLimit

/-!
# The heartbeat of the cache service

`heartbeat_loop` of `src/utils/cache.py`, started by `lifespan` of `src/startup/lifespan.py`, next
to the calls of any requests.  Every call learns whether Redis answers and writes it down; a call
that succeeds without being a ping does not.  So after one failure Redis counts as unavailable until
the next ping, and the loop waits longer the more of its pings have failed in a row.

`always_vigilant`: as long as the loop runs, what the service says of Redis is at most the longest
delay of the schedule and one time limit old, and no two pings of the loop are closer than the
schedule asks for.  The event loop may wake the heartbeat late, by at most `lag`.
-/

namespace AranesLms

open RateLimit (RedisCacheService RedisError)

/-- `resolve_heartbeat_delay`. -/
def resolveHeartbeatDelay (schedule : List ℕ) (failureCount : ℕ) : ℕ :=
  if schedule = [] then 43200
  else schedule.getD (min (failureCount - 1) (schedule.length - 1)) 0

/-- The longest delay that `resolve_heartbeat_delay` gives. -/
def longestDelay (schedule : List ℕ) : ℕ :=
  if schedule = [] then 43200 else schedule.foldr max 0

theorem getD_le_foldr_max (schedule : List ℕ) (i : ℕ) :
    schedule.getD i 0 ≤ schedule.foldr max 0 := by
  induction schedule generalizing i with
  | nil => simp
  | cons delay schedule ih =>
    cases i with
    | zero => exact le_max_left _ _
    | succ i => exact (ih i).trans (le_max_right _ _)

theorem resolveHeartbeatDelay_le (schedule : List ℕ) (failureCount : ℕ) :
    resolveHeartbeatDelay schedule failureCount ≤ longestDelay schedule := by
  unfold resolveHeartbeatDelay longestDelay
  split_ifs
  · exact le_rfl
  · exact getD_le_foldr_max schedule _

/-! ## What a call learns -/

namespace RateLimit

/-- What a call of a configured service learns about Redis. -/
def CacheCall.verdict? : CacheCall → Option Bool
  | ping (.ok pong) => some pong
  | ping (.error _) => some false
  | getJson (.error _) _ => some false
  | getJson (.ok (some none)) (.error _) => some false
  | getJson _ _ => none
  | setJson (.error _) | delete (.error _) => some false
  | setJson (.ok _) | delete (.ok _) => none
  | deleteMany cacheKeys (.error _) => if cacheKeys = [] then none else some false
  | deleteMany _ (.ok _) => none

theorem RedisCacheService.command_available {s : RedisCacheService} (hs : s.configured = true)
    (reply : Except RedisError Unit) : (s.command reply).available =
      match reply with
      | .error _ => false
      | .ok _ => s.available := by
  unfold command
  rw [if_pos hs]
  cases reply with
  | error _ => rfl
  | ok _ => rfl

/-- The service writes down what it learns. -/
theorem CacheCall.run_available {s : RedisCacheService} (hs : s.configured = true)
    (call : CacheCall) : (call.run s).available = call.verdict?.getD s.available := by
  cases call with
  | ping reply =>
    show (s.ping reply).2.available = _
    unfold RedisCacheService.ping
    rw [if_pos hs]
    cases reply with
    | error _ => rfl
    | ok pong => rfl
  | getJson raw deleted =>
    show (s.getJson raw deleted).2.available = _
    unfold RedisCacheService.getJson
    rw [if_pos hs]
    rcases raw with _ | _ | _ | payload
    · rfl
    · rfl
    · dsimp only
      rw [RedisCacheService.command_available hs]
      cases deleted with
      | error _ => rfl
      | ok _ => rfl
    · rfl
  | setJson reply | delete reply =>
    show (s.command reply).available = _
    rw [RedisCacheService.command_available hs]
    cases reply with
    | error _ => rfl
    | ok _ => rfl
  | deleteMany cacheKeys reply =>
    show (s.deleteMany cacheKeys reply).available = _
    rw [RedisCacheService.deleteMany]
    by_cases hkeys : cacheKeys = []
    · rw [if_pos hkeys]
      cases reply with
      | error _ => simp [verdict?, hkeys]
      | ok _ => rfl
    · rw [if_neg hkeys, RedisCacheService.command_available hs]
      cases reply with
      | error _ => simp [verdict?, hkeys]
      | ok _ => rfl

end RateLimit

/-! ## The loop -/

/-- The fields of `RedisCacheService` that the heartbeat reads; the time limit is given in
microseconds. -/
structure HeartbeatConfig where
  heartbeatEnabled : Bool
  heartbeatScheduleSeconds : List ℕ
  commandTimeout : ℕ

/-- Where `heartbeat_loop` waits. -/
inductive HeartbeatTask where
  | sleeping (wakeAt failureCount : ℕ)
  | pinging (since failureCount : ℕ)

/-- The service with its heartbeat.  `contact` records when the service has last learnt whether
Redis answers, and what; `pings` the ends of the pings of the loop, with what they said, the newest
first. -/
structure Heartbeat where
  clock : ℕ
  service : RedisCacheService
  task : Option HeartbeatTask
  contact : Option (ℕ × Bool)
  pings : List (ℕ × Bool)

/-- `startup` is what `lifespan` does before it seeds the database, `call` the outcome of a call by
a request, `wake` the end of a sleep and `pong` the outcome of a ping of the loop. -/
inductive HeartbeatEvent where
  | tick (d : ℕ)
  | startup (reply : Except RedisError Bool)
  | call (call : RateLimit.CacheCall)
  | wake
  | pong (reply : Except RedisError Bool)
  | close

namespace Heartbeat

variable (config : HeartbeatConfig) (s : Heartbeat)

/-- A service that has been made. -/
def new (service : RedisCacheService) (clock : ℕ) : Heartbeat := ⟨clock, service, none, none, []⟩

/-- A call of the service, whose outcome is known now. -/
def run (call : RateLimit.CacheCall) : Heartbeat :=
  { s with
    service := call.run s.service
    contact := if s.service.configured then
      (call.verdict?.map fun answers => (s.clock, answers)).or s.contact else s.contact }

/-- `start_heartbeat_with_delay`. -/
def startHeartbeatWithDelay (initialDelaySeconds : ℕ) : Heartbeat :=
  if s.service.enabled = false ∨ config.heartbeatEnabled = false ∨ s.service.client = none then s
  else
    match s.task with
    | some _ => s
    | none => { s with task := some (.sleeping (s.clock + second * initialDelaySeconds) 0) }

/-- `lifespan` up to the seeding. -/
def startup (reply : Except RedisError Bool) : Heartbeat :=
  if s.service.enabled then
    let failureCount := if (s.service.ping reply).1 then 0 else 1
    (s.run (.ping reply)).startHeartbeatWithDelay config
      (resolveHeartbeatDelay config.heartbeatScheduleSeconds failureCount)
  else s.startHeartbeatWithDelay config 0

/-- The end of a ping of `heartbeat_loop`. -/
def endPing (reply : Except RedisError Bool) (failureCount : ℕ) : Heartbeat :=
  let ok := (s.service.ping reply).1
  let failureCount := if ok then 0 else failureCount + 1
  let delay := resolveHeartbeatDelay config.heartbeatScheduleSeconds failureCount
  { s.run (.ping reply) with
    task := some (.sleeping (s.clock + second * delay) failureCount)
    pings := (s.clock, ok) :: s.pings }

/-- `heartbeat_loop` goes on behind a sleep; without a client `ping` does not wait. -/
def wake (wakeAt failureCount : ℕ) : Heartbeat :=
  if s.clock < wakeAt then s
  else if s.service.configured then { s with task := some (.pinging s.clock failureCount) }
  else s.endPing config (.ok false) failureCount

/-- `close`. -/
def close : Heartbeat :=
  { s with task := none, service := { s.service with client := none, available := false } }

def step : HeartbeatEvent → Heartbeat
  | .tick d => { s with clock := s.clock + d }
  | .startup reply => s.startup config reply
  | .call call => s.run call
  | .wake =>
    match s.task with
    | some (.sleeping wakeAt failureCount) => s.wake config wakeAt failureCount
    | _ => s
  | .pong reply =>
    match s.task with
    | some (.pinging _ failureCount) => s.endPing config reply failureCount
    | _ => s
  | .close => s.close

/-! ## Vigilance -/

/-- The pings of the list that have failed since the last one that has not. -/
def failures (pings : List (ℕ × Bool)) : ℕ := (pings.takeWhile fun p => !p.2).length

/-- After a ping, and `failures` failed ones in a row, the next one does not end before the delay of
the schedule. -/
def Spaced (schedule : List ℕ) : List (ℕ × Bool) → Prop
  | [] => True
  | p :: ps => (∀ q ∈ ps.head?, q.1 + second * resolveHeartbeatDelay schedule (failures ps) ≤ p.1) ∧
    Spaced schedule ps

/-- The longest time for which the service is sure of itself. -/
def horizon (lag : ℕ) : ℕ :=
  second * longestDelay config.heartbeatScheduleSeconds + config.commandTimeout + 2 * lag

/-- While the loop runs, the service says of Redis what it has learnt less than a horizon ago; and
the pings of the loop keep their distance. -/
structure Vigilant (lag : ℕ) : Prop where
  fresh : s.task ≠ none → ∃ seen answers, s.contact = some (seen, answers) ∧
    s.service.isAvailable = answers ∧ seen ≤ s.clock ∧ s.clock ≤ seen + horizon config lag
  spaced : Spaced config.heartbeatScheduleSeconds s.pings

/-- Until when the loop goes on at the latest. -/
def deadline (lag : ℕ) : HeartbeatTask → ℕ
  | .sleeping wakeAt _ => wakeAt + lag
  | .pinging since _ => since + config.commandTimeout + lag

/-- Condition on a step: the event loop wakes the heartbeat in time. -/
def Timely (lag : ℕ) : HeartbeatEvent → Prop
  | .tick d => ∀ task ∈ s.task, s.clock + d ≤ deadline config lag task
  | _ => True

/-! ## The invariant -/

/-- When the loop goes on, or went on. -/
def target : HeartbeatTask → ℕ
  | .sleeping wakeAt _ => wakeAt
  | .pinging since _ => since

/-- The `failure_count` of the loop. -/
def count : HeartbeatTask → ℕ
  | .sleeping _ failureCount | .pinging _ failureCount => failureCount

/-- A loop that has gone on may have done so late. -/
def delayed (lag : ℕ) : HeartbeatTask → ℕ
  | .sleeping _ _ => 0
  | .pinging _ _ => lag

/-- What is known while the loop runs and `task` is where it waits. -/
structure Watching (lag : ℕ) (task : HeartbeatTask) : Prop where
  configured : s.service.configured = true
  contact : ∃ seen, s.contact = some (seen, s.service.available) ∧ seen ≤ s.clock ∧
    target task ≤ seen + second * longestDelay config.heartbeatScheduleSeconds + delayed lag task
  prompt : s.clock ≤ deadline config lag task
  started : ∀ since failureCount, task = .pinging since failureCount → since ≤ s.clock
  count : count task = failures s.pings
  distance : ∀ q ∈ s.pings.head?, q.1 + second *
    resolveHeartbeatDelay config.heartbeatScheduleSeconds (failures s.pings) ≤ target task

structure Inv (lag : ℕ) : Prop where
  watching : ∀ task ∈ s.task, Watching config s lag task
  idle : s.task = none → s.service.client ≠ none → s.pings = []
  spaced : Spaced config.heartbeatScheduleSeconds s.pings

variable {config s} {lag : ℕ}

theorem isAvailable_of_configured {service : RedisCacheService}
    (h : service.configured = true) : service.isAvailable = service.available := by
  rw [RedisCacheService.configured, Bool.and_eq_true] at h
  rw [RedisCacheService.isAvailable, h.1, h.2, Bool.true_and, Bool.and_true]

theorem target_add_le (task : HeartbeatTask) :
    deadline config lag task ≤ target task + config.commandTimeout + lag := by
  cases task with
  | sleeping wakeAt failureCount => exact Nat.add_le_add_right (Nat.le_add_right _ _) _
  | pinging since failureCount => exact le_rfl

theorem delayed_le (task : HeartbeatTask) : delayed lag task ≤ lag := by
  cases task with
  | sleeping wakeAt failureCount => exact Nat.zero_le _
  | pinging since failureCount => exact le_rfl

/-- What has been learnt last is not older than the wait that is still going on allows. -/
theorem Inv.vigilant (h : Inv config s lag) : Vigilant config s lag where
  fresh htask := by
    obtain ⟨task, htask⟩ := Option.ne_none_iff_exists'.1 htask
    have hw := h.watching task htask
    obtain ⟨seen, hcontact, hseen, htarget⟩ := hw.contact
    refine ⟨seen, _, hcontact, isAvailable_of_configured hw.configured, hseen, ?_⟩
    have hprompt := hw.prompt.trans (target_add_le task)
    have hdelayed : delayed lag task ≤ lag := delayed_le task
    rw [horizon]
    omega
  spaced := h.spaced

theorem inv_new (service : RedisCacheService) (clock : ℕ) : Inv config (new service clock) lag where
  watching task htask := by cases htask
  idle _ _ := rfl
  spaced := trivial

/-! ### Calls -/

theorem run_configured (call : RateLimit.CacheCall) :
    (s.run call).service.configured = s.service.configured := by
  obtain ⟨henabled, hclient⟩ := RateLimit.CacheCall.run_client s.service call
  show (call.run s.service).configured = _
  rw [RedisCacheService.configured, henabled, hclient, RedisCacheService.configured]

/-- What a call learns is the newest that is known. -/
theorem run_contact (hconfigured : s.service.configured = true) {seen : ℕ}
    (hcontact : s.contact = some (seen, s.service.available)) (hseen : seen ≤ s.clock)
    (call : RateLimit.CacheCall) : ∃ seen',
      (s.run call).contact = some (seen', (s.run call).service.available) ∧
        seen ≤ seen' ∧ seen' ≤ s.clock := by
  have havailable : (s.run call).service.available = call.verdict?.getD s.service.available :=
    RateLimit.CacheCall.run_available hconfigured call
  have hrun : (s.run call).contact =
      (call.verdict?.map fun answers => (s.clock, answers)).or s.contact := if_pos hconfigured
  rw [hrun, havailable]
  cases call.verdict? with
  | none => exact ⟨seen, hcontact, le_rfl, hseen⟩
  | some answers => exact ⟨s.clock, rfl, hseen, le_rfl⟩

theorem Watching.run {task : HeartbeatTask} (h : Watching config s lag task)
    (call : RateLimit.CacheCall) : Watching config (s.run call) lag task where
  configured := (run_configured call).trans h.configured
  contact := by
    obtain ⟨seen, hcontact, hseen, htarget⟩ := h.contact
    obtain ⟨seen', hcontact', hle, hseen'⟩ := run_contact h.configured hcontact hseen call
    exact ⟨seen', hcontact', hseen', by omega⟩
  prompt := h.prompt
  started := h.started
  count := h.count
  distance := h.distance

theorem Inv.run (h : Inv config s lag) (call : RateLimit.CacheCall) :
    Inv config (s.run call) lag where
  watching task htask := (h.watching task htask).run call
  idle htask hclient := by
    refine h.idle htask ?_
    rwa [← (RateLimit.CacheCall.run_client s.service call).2]
  spaced := h.spaced

/-! ### The loop -/

theorem run_ping_contact (hconfigured : s.service.configured = true)
    (reply : Except RedisError Bool) :
    (s.run (.ping reply)).contact = some (s.clock, (s.run (.ping reply)).service.available) := by
  have havailable : (s.run (.ping reply)).service.available =
      (RateLimit.CacheCall.ping reply).verdict?.getD s.service.available :=
    RateLimit.CacheCall.run_available hconfigured _
  have hrun : (s.run (.ping reply)).contact =
      ((RateLimit.CacheCall.ping reply).verdict?.map fun answers => (s.clock, answers)).or
        s.contact :=
    if_pos hconfigured
  rw [hrun, havailable]
  cases reply with
  | error _ => rfl
  | ok pong => rfl

/-- The loop starts with what has just been learnt. -/
theorem Inv.start (h : Inv config s lag)
    (hcontact : s.service.configured = true → s.contact = some (s.clock, s.service.available))
    {d : ℕ} (hd : d ≤ longestDelay config.heartbeatScheduleSeconds) :
    Inv config (s.startHeartbeatWithDelay config d) lag := by
  rw [startHeartbeatWithDelay]
  split_ifs with hoff
  · exact h
  · cases htask : s.task with
    | some task => exact h
    | none =>
      simp only [not_or, Bool.not_eq_false] at hoff
      obtain ⟨henabled, -, hclient⟩ := hoff
      have hconfigured : s.service.configured = true := by
        rw [RedisCacheService.configured, henabled, Option.isSome_iff_ne_none.2 hclient]
        rfl
      have hpings := h.idle htask hclient
      refine ⟨fun task hnew => ?_, fun hnone => ?_, h.spaced⟩
      · cases hnew
        refine ⟨hconfigured, ⟨s.clock, hcontact hconfigured, le_rfl, ?_⟩, ?_, ?_, ?_, ?_⟩
        · exact Nat.add_le_add_left (Nat.mul_le_mul_left _ hd) _
        · exact (Nat.le_add_right _ _).trans (Nat.le_add_right _ _)
        · intro since failureCount hne
          cases hne
        · show 0 = failures s.pings
          rw [hpings]
          rfl
        · intro q hq
          have hq : q ∈ s.pings.head? := hq
          rw [hpings] at hq
          cases hq
      · cases hnone

theorem Inv.startup (h : Inv config s lag) (reply : Except RedisError Bool) :
    Inv config (s.startup config reply) lag := by
  rw [Heartbeat.startup]
  split_ifs with henabled hok
  · refine (h.run (.ping reply)).start (fun hconfigured => ?_) (resolveHeartbeatDelay_le _ _)
    exact run_ping_contact (by rwa [run_configured] at hconfigured) reply
  · refine (h.run (.ping reply)).start (fun hconfigured => ?_) (resolveHeartbeatDelay_le _ _)
    exact run_ping_contact (by rwa [run_configured] at hconfigured) reply
  · refine h.start (fun hconfigured => ?_) (Nat.zero_le _)
    rw [RedisCacheService.configured, Bool.and_eq_true] at hconfigured
    exact absurd hconfigured.1 henabled

theorem failures_cons (clock : ℕ) (ok : Bool) (pings : List (ℕ × Bool)) :
    failures ((clock, ok) :: pings) = if ok then 0 else failures pings + 1 := by
  cases ok with
  | true => rfl
  | false => rfl

/-- The loop has counted its failures, so it sleeps as long as the schedule says. -/
theorem Watching.endPing {since failureCount : ℕ}
    (h : Watching config s lag (.pinging since failureCount))
    (hspaced : Spaced config.heartbeatScheduleSeconds s.pings) (reply : Except RedisError Bool) :
    Inv config (s.endPing config reply failureCount) lag := by
  have hcount : failures ((s.clock, (s.service.ping reply).1) :: s.pings) =
      if (s.service.ping reply).1 then 0 else failureCount + 1 := by
    have hfailures : failureCount = failures s.pings := h.count
    rw [failures_cons, ← hfailures]
  refine ⟨fun task hnew => ?_, fun hnone => ?_, fun q hq => ?_, hspaced⟩
  · cases hnew
    refine ⟨(run_configured _).trans h.configured,
      ⟨s.clock, run_ping_contact h.configured reply, le_rfl, ?_⟩, ?_, ?_, hcount.symm, ?_⟩
    · exact Nat.add_le_add_left (Nat.mul_le_mul_left _ (resolveHeartbeatDelay_le _ _)) _
    · exact (Nat.le_add_right _ _).trans (Nat.le_add_right _ _)
    · intro since failureCount hne
      cases hne
    · intro q hq
      cases hq
      show s.clock + second * resolveHeartbeatDelay _
        (failures ((s.clock, (s.service.ping reply).1) :: s.pings)) ≤ _
      rw [hcount]
      exact le_rfl
  · cases hnone
  · exact (h.distance q hq).trans (h.started since failureCount rfl)

theorem Inv.wake (h : Inv config s lag) {wakeAt failureCount : ℕ}
    (htask : s.task = some (.sleeping wakeAt failureCount)) :
    Inv config (s.wake config wakeAt failureCount) lag := by
  have hw := h.watching _ htask
  rw [Heartbeat.wake, if_pos hw.configured]
  split_ifs with hearly
  · exact h
  · refine ⟨fun task hnew => ?_, fun hnone => ?_, h.spaced⟩
    · cases hnew
      obtain ⟨seen, hcontact, hseen, htarget⟩ := hw.contact
      refine ⟨hw.configured, ⟨seen, hcontact, hseen, ?_⟩, ?_, ?_, hw.count, fun q hq => ?_⟩
      · exact hw.prompt.trans (Nat.add_le_add_right htarget lag)
      · exact (Nat.le_add_right _ _).trans (Nat.le_add_right _ _)
      · intro since failureCount hsame
        cases hsame
        exact le_rfl
      · exact (hw.distance q hq).trans (Nat.not_lt.1 hearly)
    · cases hnone

theorem Inv.tick (h : Inv config s lag) {d : ℕ} (ht : Timely config s lag (.tick d)) :
    Inv config { s with clock := s.clock + d } lag where
  watching task htask := by
    have hw := h.watching task htask
    obtain ⟨seen, hcontact, hseen, htarget⟩ := hw.contact
    exact ⟨hw.configured, ⟨seen, hcontact, hseen.trans (Nat.le_add_right _ _), htarget⟩,
      ht task htask, fun since failureCount hsame =>
        (hw.started since failureCount hsame).trans (Nat.le_add_right _ _), hw.count, hw.distance⟩
  idle := h.idle
  spaced := h.spaced

theorem Inv.close (h : Inv config s lag) : Inv config s.close lag where
  watching task htask := by cases htask
  idle _ hclient := absurd rfl hclient
  spaced := h.spaced

theorem Inv.step (h : Inv config s lag) (event : HeartbeatEvent)
    (ht : Timely config s lag event) : Inv config (s.step config event) lag := by
  cases event with
  | tick d => exact h.tick ht
  | startup reply => exact h.startup reply
  | call call => exact h.run call
  | wake =>
    rw [Heartbeat.step]
    split
    next wakeAt failureCount htask => exact h.wake htask
    next => exact h
  | pong reply =>
    rw [Heartbeat.step]
    split
    next since failureCount htask => exact (h.watching _ htask).endPing h.spaced reply
    next => exact h
  | close => exact h.close

/-- From the making of the service on, whatever requests call in between: as long as the event loop
is late by at most `lag`, the service is vigilant at all times. -/
theorem always_vigilant (config : HeartbeatConfig) (lag : ℕ) (service : RedisCacheService)
    (clock : ℕ) (events : List HeartbeatEvent)
    (h : Transition.Along (step config) (Timely config · lag) (new service clock) events) :
    Transition.Always (step config) (Vigilant config · lag) (new service clock) events := by
  have hinv := Transition.Always.of_along (P := (Inv config · lag))
    (fun _ event h ht => h.step event ht) (inv_new service clock) h
  exact hinv.mono fun _ h => h.vigilant

/-- Redis is down at the start and for the first two pings of the loop. -/
def slowRecovery : List HeartbeatEvent :=
  [.startup (.error .mk), .tick (60 * second), .wake, .tick second, .pong (.error .mk),
    .tick (60 * second), .wake, .pong (.error .mk), .tick (600 * second), .wake, .pong (.ok true)]

theorem always_vigilant_sample :
    Transition.Always (step ⟨true, [60, 600], 3 * second⟩)
      (Vigilant ⟨true, [60, 600], 3 * second⟩ · 0) (new ⟨true, some 1, false⟩ 0) slowRecovery := by
  refine always_vigilant ⟨true, [60, 600], 3 * second⟩ 0 _ 0 slowRecovery ?_
  refine ⟨trivial, ?_, trivial, ?_, trivial, ?_, trivial, trivial, ?_, trivial, trivial, trivial⟩
  all_goals
    rintro task ⟨⟩
    decide

end Heartbeat

end AranesLms
