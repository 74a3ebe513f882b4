import AranesLms.Utils.RateLimitCounting
import Mathlib.Algebra.Order.BigOperators.Group.Finset

/-!
# How many requests pass

A bucket lets no more calls pass in a window than the limit, so the number of limiters bounds how
many pass in all.  The limiters on Redis share their count.  An in-memory limiter starts from
nothing; one is made when the bootstrap on Redis fails, and, where Redis is not configured, once.
While availability stays as it is, calls use the stored limiter (`Settled`).
-/

namespace AranesLms

namespace RateLimit

variable {memory redis : RateBucket}

/-! ## What passes -/

/-- The call has passed with the request in the window that begins at `start`. -/
def Call.passedIn (rate : Rate) (r : Request) (start : ℕ) : Call → Bool
  | .passed r' _ time => r' = r ∧ rate.InWindow start time
  | _ => false

/-- The call has passed by the counter in the window. -/
def Call.passedBy (rate : Rate) (counter : Counter) (start : ℕ) : Call → Bool
  | .passed _ counter' time => counter' = some counter ∧ rate.InWindow start time
  | _ => false

namespace App

variable (s : App memory redis)

/-- The calls of one client to one route that have passed in the window. -/
def passed (r : Request) (start : ℕ) : Finset ℕ :=
  (Finset.range s.calls.length).filter fun i =>
    s.calls[i]?.any (Call.passedIn s.config.rate r start)

/-- The calls that have passed by the counter in the window. -/
def passedBy (counter : Counter) (start : ℕ) : Finset ℕ :=
  (Finset.range s.calls.length).filter fun i =>
    s.calls[i]?.any (Call.passedBy s.config.rate counter start)

/-- In no window more calls of one client to one limited route pass than
`RATE_LIMIT_MAX_REQUESTS`. -/
def Bounded : Prop :=
  ∀ r : Request, r.skipLimiter = false → ∀ start,
    (s.passed r start).card ≤ s.config.rateLimitMaxRequests

variable {s}

theorem mem_filter_calls {p : Call → Bool} {i : ℕ} :
    i ∈ (Finset.range s.calls.length).filter (fun i => s.calls[i]?.any p) ↔
      ∃ call, s.calls[i]? = some call ∧ p call := by
  rw [Finset.mem_filter, Finset.mem_range]
  constructor
  · rintro ⟨hi, h⟩
    rw [List.getElem?_eq_getElem hi] at h ⊢
    exact ⟨_, rfl, h⟩
  · rintro ⟨call, hcall, h⟩
    rw [hcall]
    exact ⟨(List.getElem?_eq_some_iff.1 hcall).1, h⟩

theorem mem_passed {r : Request} {start i : ℕ} : i ∈ s.passed r start ↔
    ∃ counter time, s.calls[i]? = some (.passed r counter time) ∧
      s.config.rate.InWindow start time := by
  rw [passed, mem_filter_calls]
  constructor
  · rintro ⟨call, hcall, h⟩
    cases call with
    | passed r' counter time =>
      obtain ⟨rfl, hwindow⟩ := of_decide_eq_true h
      exact ⟨counter, time, hcall, hwindow⟩
    | _ => cases h
  · rintro ⟨counter, time, hcall, hwindow⟩
    exact ⟨_, hcall, decide_eq_true ⟨rfl, hwindow⟩⟩

theorem mem_passedBy {counter : Counter} {start i : ℕ} : i ∈ s.passedBy counter start ↔
    ∃ r time, s.calls[i]? = some (.passed r (some counter) time) ∧
      s.config.rate.InWindow start time := by
  rw [passedBy, mem_filter_calls]
  constructor
  · rintro ⟨call, hcall, h⟩
    cases call with
    | passed r counter' time =>
      obtain ⟨rfl, hwindow⟩ := of_decide_eq_true h
      exact ⟨r, time, hcall, hwindow⟩
    | _ => cases h
  · rintro ⟨r, time, hcall, hwindow⟩
    exact ⟨_, hcall, decide_eq_true ⟨rfl, hwindow⟩⟩

end App

variable {s s' : App memory redis}

/-! ## How many limiters -/

namespace App

/-- Whether each of the limiters made so far is on Redis. -/
def kinds (s : App memory redis) : List Bool := s.factories.map KeyedBucketFactory.cacheService

theorem inMemory_iff {k : ℕ} : s.InMemory k ↔ s.kinds[k]? = some false := by
  rw [kinds, List.getElem?_map, Option.map_eq_some_iff]
  rfl

/-- The counters that the request may have met. -/
def counters (s : App memory redis) (r : Request) : List Counter :=
  (if s.cache.configured then [.redis (redisKey r.name)] else []) ++
    (s.kinds.idxsOf false).map fun k => .memory k r.name

theorem length_counters (s : App memory redis) (r : Request) :
    (s.counters r).length = s.cache.configured.toNat + s.kinds.count false := by
  rw [counters, List.length_append, List.length_map, List.length_idxsOf]
  cases s.cache.configured <;> rfl

theorem Counts.mem_counters {r : Request} {counter : Counter} (h : s.Counts r counter) :
    counter ∈ s.counters r := by
  rw [counters, List.mem_append]
  rcases h with ⟨hconfigured, rfl⟩ | ⟨k, hk, rfl⟩
  · left
    rw [if_pos hconfigured]
    exact List.mem_singleton_self _
  · right
    obtain ⟨hlt, hkind⟩ := List.getElem?_eq_some_iff.1 (inMemory_iff.1 hk)
    refine List.mem_map.2 ⟨k, ?_, rfl⟩
    rw [List.mem_idxsOf_iff_exists_getElem_pos]
    exact ⟨hlt, beq_iff_eq.2 hkind⟩

/-- A call to a limited route passes by a counter that its request may meet. -/
theorem exists_counter (h : Shape s) (henabled : s.config.rateLimitEnabled = true) {r : Request}
    (hlimited : r.skipLimiter = false) {start i : ℕ} (hi : i ∈ s.passed r start) :
    ∃ counter ∈ s.counters r, i ∈ s.passedBy counter start := by
  obtain ⟨counter, time, hcall, hwindow⟩ := mem_passed.1 hi
  have hsound := h.calls _ (List.mem_of_getElem? hcall)
  cases counter with
  | none =>
    have hskip : r.skipLimiter = true := hsound henabled
    rw [hlimited] at hskip
    cases hskip
  | some counter =>
    exact ⟨counter, Counts.mem_counters hsound, mem_passedBy.2 ⟨r, time, hcall, hwindow⟩⟩

/-- A counter lets no more calls pass in a window than the limit. -/
theorem card_passedBy_le (h : Counting s) (hmemory : memory.Bounded s.config.rate)
    (hredis : redis.Bounded s.config.rate) (counter : Counter) (start : ℕ) :
    (s.passedBy counter start).card ≤ s.config.rateLimitMaxRequests := by
  have hlisted : ∀ {log : List (ℕ × ℕ)}, (∀ (i : ℕ) (call : Call) (time : ℕ),
      s.calls[i]? = some call → call.countedBy = some (counter, time) → (i, time) ∈ log) →
      ∀ i ∈ s.passedBy counter start,
        ∃ time, (i, time) ∈ log ∧ s.config.rate.InWindow start time := by
    intro log hlog i hi
    obtain ⟨r, time, hcall, hwindow⟩ := mem_passedBy.1 hi
    exact ⟨time, hlog i _ time hcall rfl, hwindow⟩
  cases counter with
  | redis key =>
    obtain ⟨log, hserves, hlog⟩ := h.redis key
    exact hredis.card_le hserves (hlisted hlog)
  | memory k name =>
    obtain ⟨log, hserves, hlog⟩ := h.memory k name
    exact hmemory.card_le hserves (hlisted hlog)

theorem card_passed_le (h : Invariant s) (henabled : s.config.rateLimitEnabled = true)
    (hmemory : memory.Bounded s.config.rate) (hredis : redis.Bounded s.config.rate) {r : Request}
    (hlimited : r.skipLimiter = false) (start : ℕ) :
    (s.passed r start).card ≤
      (s.cache.configured.toNat + s.kinds.count false) * s.config.rateLimitMaxRequests := by
  have hsub : s.passed r start ⊆
      (s.counters r).toFinset.biUnion fun counter => s.passedBy counter start := by
    intro i hi
    obtain ⟨counter, hcounter, hpassed⟩ := exists_counter h.shape henabled hlimited hi
    exact Finset.mem_biUnion.2 ⟨counter, List.mem_toFinset.2 hcounter, hpassed⟩
  calc (s.passed r start).card
      ≤ ((s.counters r).toFinset.biUnion fun counter => s.passedBy counter start).card :=
        Finset.card_le_card hsub
    _ ≤ (s.counters r).toFinset.card * s.config.rateLimitMaxRequests :=
        Finset.card_biUnion_le_card_mul _ _ _ fun counter _ =>
          card_passedBy_le h.counting hmemory hredis counter start
    _ ≤ (s.counters r).length * s.config.rateLimitMaxRequests :=
        Nat.mul_le_mul_right _ (List.toFinset_card_le _)
    _ = _ := by rw [length_counters]

@[simp] theorem kinds_install (s : App memory redis) (factory : KeyedBucketFactory memory) :
    (s.install factory).kinds = s.kinds ++ [factory.cacheService] :=
  List.map_append

theorem kinds_putInto {i : ℕ} {r : Request} {state : DependencyState}
    {factory factory' : KeyedBucketFactory memory} {bucket : Bucket memory}
    (hfactory : s.factories[state.factory]? = some factory)
    (hservice : factory'.cacheService = factory.cacheService) :
    (s.putInto i r state factory' bucket).kinds = s.kinds := by
  have hset : ∀ f : KeyedBucketFactory memory, f.cacheService = factory.cacheService →
      (s.factories.set state.factory f).map KeyedBucketFactory.cacheService = s.kinds := by
    intro f hf
    obtain ⟨hlt, hget⟩ := List.getElem?_eq_some_iff.1 hfactory
    rw [List.map_set, hf, kinds, ← hget, ← List.getElem_map KeyedBucketFactory.cacheService
      (h := by rwa [List.length_map]), List.set_getElem_self]
  cases bucket with
  | redis key => exact hset factory' hservice
  | memory st => exact hset _ hservice

theorem kinds_limiterFails (s : App memory redis) (i : ℕ) (state : DependencyState) :
    (s.limiterFails i state).kinds = s.kinds := by
  unfold limiterFails
  split_ifs <;> rfl

theorem kinds_put (s : App memory redis) (i : ℕ) : (s.put i).kinds = s.kinds := by
  unfold put
  split
  swap
  · rfl
  split_ifs
  · rfl
  split
  · rfl
  rename_i factory hfactory
  split
  · exact kinds_limiterFails _ _ _
  rename_i hget
  exact kinds_putInto hfactory (KeyedBucketFactory.get_eq_some _ hget).2.1

theorem kinds_begin (s : App memory redis) (r : Request) : (s.begin r).kinds = s.kinds ∨
    (s.begin r).kinds = s.kinds ++ [false] ∧ s.cache.configured = false := by
  have hbuild : (s.beginBuild r).kinds = s.kinds ∨
      (s.beginBuild r).kinds = s.kinds ++ [false] ∧ s.cache.configured = false := by
    unfold beginBuild
    split_ifs with hconfigured
    · exact Or.inl rfl
    · exact Or.inr ⟨kinds_install _ _, Bool.eq_false_iff.2 hconfigured⟩
  unfold begin
  split_ifs
  · split
    · split_ifs
      · exact Or.inl rfl
      · exact hbuild
    · exact hbuild
  · exact Or.inl rfl

end App

/-- `RedisBucket.init` raises. -/
def Event.bootstrapFails : Event → Bool
  | .bootstrapped _ (.error _) => true
  | _ => false

namespace App

/-- A step makes at most one limiter, and an in-memory limiter only if the bootstrap fails or
Redis is not configured. -/
theorem kinds_step (s : App memory redis) (e : Event) :
    ∃ new, (s.step e).kinds = s.kinds ++ new ∧
      (new.count false ≤ e.bootstrapFails.toNat ∨ s.cache.configured = false) := by
  have hsame : ∀ {l : List Bool}, l = s.kinds → ∃ new, l = s.kinds ++ new ∧
      (new.count false ≤ e.bootstrapFails.toNat ∨ s.cache.configured = false) :=
    fun hl => ⟨[], by rw [hl, List.append_nil], Or.inl (Nat.zero_le _)⟩
  cases e with
  | begin r =>
    rcases s.kinds_begin r with hkinds | ⟨hkinds, hoff⟩
    · exact hsame hkinds
    · exact ⟨[false], hkinds, Or.inr hoff⟩
  | bootstrapped i reply =>
    show ∃ new, (s.bootstrapped i reply).kinds = _ ∧ _
    unfold bootstrapped
    split
    swap
    · exact hsame rfl
    cases reply with
    | ok scriptHash => exact ⟨[true], kinds_install _ _, Or.inl le_rfl⟩
    | error =>
      have hinstall := kinds_install { s with cache := s.cache.markUnavailable }
        (.inMemory s.config.rate)
      exact ⟨[false], hinstall, Or.inl le_rfl⟩
  | put i => exact hsame (s.kinds_put i)
  | answer i =>
    refine hsame ?_
    show (s.answer i).kinds = _
    unfold answer
    split <;> rfl
  | fail i =>
    refine hsame ?_
    show (s.fail i).kinds = _
    unfold fail
    split
    · exact kinds_limiterFails _ _ _
    · exact kinds_limiterFails _ _ _
    · rfl
  | cache | tick => exact hsame rfl

end App

/-! ## Without Redis -/

theorem RedisCacheService.isAvailable_of_not_configured {cache : RedisCacheService}
    (h : cache.configured = false) : cache.isAvailable = false := by
  unfold RedisCacheService.configured at h
  unfold RedisCacheService.isAvailable
  cases henabled : cache.enabled with
  | false => rfl
  | true =>
    rw [henabled, Bool.true_and] at h
    rw [h, Bool.and_false]

/-- Without Redis the first limiter stays the only one: the signature never changes. -/
def Single (s : App memory redis) : Prop :=
  s.factories = [] ∧ s.state = none ∨ s.factories.length = 1 ∧
    ∃ state, s.state = some state ∧ state.runtimeSignature = s.runtimeSignature

theorem Single.move (h : Single s) (hoff : s.cache.configured = false) (hm : Move s s') :
    Single s' := by
  cases hm with
  | installMemory hwhy =>
    rcases hwhy with hon | hnew
    · exact absurd (hoff.symm.trans hon) Bool.false_ne_true
    rcases h with ⟨hnil, -⟩ | ⟨-, state, hstate, hsignature⟩
    · refine Or.inr ⟨?_, _, rfl, rfl⟩
      rw [App.install, hnil]
      rfl
    · exact absurd hsignature (hnew state hstate)
  | wait _ hon | installRedis _ hon => exact absurd (hoff.symm.trans hon) Bool.false_ne_true
  | @put i r state factory factory' bucket _ _ hfactory =>
    have hlength : (s.putInto i r state factory' bucket).factories.length =
        s.factories.length := by
      cases bucket <;> exact List.length_set
    rcases h with ⟨hnil, -⟩ | ⟨hone, hstate⟩
    · rw [hnil] at hfactory
      cases hfactory
    · refine Or.inr ⟨hlength.trans hone, ?_⟩
      cases bucket <;> exact hstate
  | cache henabled hclient =>
    rcases h with h | ⟨hone, state, hstate, hsignature⟩
    · exact Or.inl h
    · have hsame := Move.sameRuntime (.cache henabled hclient)
      refine Or.inr ⟨hone, state, hstate, hsignature.trans (hsame.signature_eq ?_).symm⟩
      rw [RedisCacheService.isAvailable_of_not_configured (hsame.configured_eq.trans hoff),
        RedisCacheService.isAvailable_of_not_configured hoff]
  | _ => exact h

theorem Single.count_le (h : Single s) : s.kinds.count false ≤ 1 := by
  refine List.count_le_length.trans ?_
  rw [App.kinds, List.length_map]
  rcases h with ⟨hnil, -⟩ | ⟨hone, -⟩
  · rw [hnil]
    exact Nat.zero_le _
  · exact hone.le

/-! ## While availability stays -/

/-- The counter of a request by the limiter of a factory, which is on Redis or not. -/
def counterFor (onRedis : Bool) (factory : ℕ) (r : Request) : Counter :=
  if onRedis then .redis (redisKey r.name) else .memory factory r.name

/-- No limiter is being built for the call and, if the call is a late one, it belongs to the limiter
of the state. -/
def Call.Uses (late : Prop) (state : DependencyState) (onRedis : Bool) : Call → Prop
  | .building _ => False
  | .ready _ state' => late → state' = state
  | .sent r _ counter _ _ => late → counter = counterFor onRedis state.factory r
  | .passed r (some counter) _ => late → counter = counterFor onRedis state.factory r
  | .passed _ none _ | .denied _ | .raised => True

/-- The stored limiter is up to date, none is being built, and the calls from `n` on use it. -/
structure Settled (n : ℕ) (state : DependencyState) (onRedis : Bool) (s : App memory redis) :
    Prop where
  stored : s.state = some state
  signature : state.runtimeSignature = s.runtimeSignature
  kind : s.kinds[state.factory]? = some onRedis
  calls : ∀ (i : ℕ) (call : Call), s.calls[i]? = some call → call.Uses (n ≤ i) state onRedis

/-- `s'` has the limiter of `s`, and what is new of its calls goes on with it. -/
structure KeepsLimiter (n : ℕ) (state : DependencyState) (onRedis : Bool)
    (s s' : App memory redis) : Prop where
  stored : s'.state = s.state
  calls : ∀ (i : ℕ) (call : Call), s'.calls[i]? = some call →
    s.calls[i]? = some call ∨ call.Uses (n ≤ i) state onRedis

namespace KeepsLimiter

variable {n : ℕ} {state : DependencyState} {onRedis : Bool}

theorem refl (s : App memory redis) : KeepsLimiter n state onRedis s s :=
  ⟨rfl, fun _ _ => Or.inl⟩

theorem addCall {new : Call} (huses : ∀ i : ℕ, new.Uses (n ≤ i) state onRedis) :
    KeepsLimiter n state onRedis s (s.addCall new) := by
  refine ⟨rfl, fun i call hcall => ?_⟩
  rcases App.getElem?_addCall hcall with rfl | hold
  · exact Or.inr (huses i)
  · exact Or.inl hold

/-- A call goes on, whatever else has changed. -/
theorem setCall {s₁ : App memory redis} {i : ℕ} {new : Call}
    (huses : new.Uses (n ≤ i) state onRedis) (hstate : s₁.state = s.state)
    (hcalls : s₁.calls = s.calls) : KeepsLimiter n state onRedis s (s₁.setCall i new) := by
  refine ⟨hstate, fun j call hcall => ?_⟩
  rcases App.getElem?_setCall hcall with ⟨rfl, rfl⟩ | ⟨-, hold⟩
  · exact Or.inr huses
  · exact Or.inl (hcalls ▸ hold)

theorem limiterFails (s : App memory redis) (i : ℕ) (state' : DependencyState) :
    KeepsLimiter n state onRedis s (s.limiterFails i state') := by
  unfold App.limiterFails
  split_ifs
  · refine setCall ?_ rfl rfl
    trivial
  · refine setCall ?_ rfl rfl
    trivial

end KeepsLimiter

namespace Settled

variable {n : ℕ} {state : DependencyState} {onRedis : Bool} (h : Settled n state onRedis s)

include h

/-- The counter of an item that is put is the one of the limiter. -/
theorem keepsLimiter_putInto (hshape : Shape s) {i : ℕ} {r : Request} {state' : DependencyState}
    {factory factory' : KeyedBucketFactory memory} {bucket : Bucket memory}
    (hcall : s.calls[i]? = some (.ready r state'))
    (hfactory : s.factories[state'.factory]? = some factory)
    (hget : factory.get s.cache.client r.name = some (bucket, factory')) :
    KeepsLimiter n state onRedis s (s.putInto i r state' factory' bucket) := by
  have hsound := (hshape.factories factory (List.mem_of_getElem? hfactory)).get hget
  obtain ⟨-, hservice, hbuckets, -⟩ := KeyedBucketFactory.get_eq_some _ hget
  have hbucket : factory'.buckets.get? r.name = some bucket := (hbuckets _).trans (if_pos rfl)
  have hkind : n ≤ i → state' = state ∧ factory'.cacheService = onRedis := by
    intro hi
    obtain rfl : state' = state := h.calls i _ hcall hi
    have hkind := h.kind
    rw [App.kinds, List.getElem?_map, hfactory] at hkind
    exact ⟨rfl, hservice.trans (Option.some.inj hkind)⟩
  cases bucket with
  | redis key =>
    obtain ⟨hon, rfl⟩ := hsound.redis _ _ hbucket
    refine KeepsLimiter.setCall (fun hi => ?_) rfl rfl
    obtain ⟨-, hredis⟩ := hkind hi
    rw [← hredis, hon]
    rfl
  | memory st =>
    have hoff := hsound.memory _ _ hbucket
    refine KeepsLimiter.setCall (fun hi => ?_) rfl rfl
    obtain ⟨rfl, hredis⟩ := hkind hi
    rw [← hredis, hoff]
    rfl

/-- A step keeps the stored limiter, and calls begin or go on with it. -/
theorem keepsLimiter (hshape : Shape s) (e : Event) :
    KeepsLimiter n state onRedis s (s.step e) := by
  cases e with
  | begin r =>
    show KeepsLimiter n state onRedis s (s.begin r)
    unfold App.begin
    split_ifs
    · rw [h.stored]
      dsimp only
      rw [if_pos h.signature]
      exact .addCall fun _ _ => rfl
    · exact .addCall fun _ => trivial
  | bootstrapped i reply =>
    show KeepsLimiter n state onRedis s (s.bootstrapped i reply)
    unfold App.bootstrapped
    split
    · rename_i r hcall
      exact (h.calls i _ hcall : False).elim
    · exact .refl s
  | put i =>
    show KeepsLimiter n state onRedis s (s.put i)
    unfold App.put
    split
    swap
    · exact .refl s
    rename_i r state' hcall
    split_ifs
    · refine KeepsLimiter.setCall ?_ rfl rfl
      trivial
    split
    · exact .refl s
    rename_i factory hfactory
    split
    · exact .limiterFails s i state'
    rename_i bucket factory' hget
    exact h.keepsLimiter_putInto hshape hcall hfactory hget
  | answer i =>
    show KeepsLimiter n state onRedis s (s.answer i)
    unfold App.answer
    split
    swap
    · exact .refl s
    rename_i r state' counter time admitted hcall
    have huses := h.calls i _ hcall
    cases admitted with
    | true => exact KeepsLimiter.setCall huses rfl rfl
    | false =>
      refine KeepsLimiter.setCall ?_ rfl rfl
      trivial
  | fail i =>
    show KeepsLimiter n state onRedis s (s.fail i)
    unfold App.fail
    split
    · exact .limiterFails s i _
    · exact .limiterFails s i _
    · exact .refl s
  | cache | tick => exact ⟨rfl, fun _ _ => Or.inl⟩

theorem step (hshape : Shape s) (e : Event)
    (havailable : (s.step e).cache.isAvailable = s.cache.isAvailable) :
    Settled n state onRedis (s.step e) := by
  obtain ⟨hstate, hcalls⟩ := h.keepsLimiter hshape e
  obtain ⟨new, hkinds, -⟩ := s.kinds_step e
  refine ⟨hstate.trans h.stored, ?_, ?_, fun j call hcall => ?_⟩
  · exact h.signature.trans ((App.sameRuntime_step hshape e).signature_eq havailable).symm
  · rw [hkinds, List.getElem?_append_left (List.getElem?_eq_some_iff.1 h.kind).1]
    exact h.kind
  · exact (hcalls j call hcall).elim (h.calls j call) id

end Settled

/-! ## Every run -/

namespace App

open Transition

theorem invariant_run (h : Invariant s) (events : List Event) :
    Invariant (runFrom App.step s events) :=
  runFrom_induct (fun _ e hs => hs.step e) h events

theorem sameRuntime_run (h : Invariant s) (events : List Event) :
    s.SameRuntime (runFrom App.step s events) := by
  have hrun : Invariant (runFrom App.step s events) ∧ s.SameRuntime (runFrom App.step s events) :=
    runFrom_induct (P := fun s' => Invariant s' ∧ s.SameRuntime s')
      (fun s' e hs => ⟨hs.1.step e, hs.2.trans (sameRuntime_step hs.1.shape e)⟩)
      ⟨h, rfl, rfl, rfl, rfl⟩ events
  exact hrun.2

/-- Where Redis is configured every in-memory limiter comes from a failed bootstrap. -/
theorem count_kinds_run (h : Invariant s) (hon : s.cache.configured) (events : List Event) :
    (runFrom App.step s events).kinds.count false ≤
      s.kinds.count false + events.countP Event.bootstrapFails := by
  induction events generalizing s with
  | nil => exact le_rfl
  | cons e events ih =>
    have hon' : (s.step e).cache.configured :=
      (sameRuntime_step h.shape e).configured_eq.trans hon
    have hrest := ih (h.step e) hon'
    obtain ⟨new, hkinds, hnew | hoff⟩ := s.kinds_step e
    · rw [hkinds, List.count_append] at hrest
      rw [runFrom_cons, List.countP_cons]
      have hfails : (if e.bootstrapFails then 1 else 0) = e.bootstrapFails.toNat := by
        cases e.bootstrapFails <;> rfl
      omega
    · exact absurd (hoff.symm.trans hon) Bool.false_ne_true

theorem single_run (h : Invariant s) (hoff : s.cache.configured = false) (hs : Single s)
    (events : List Event) : Single (runFrom App.step s events) := by
  have hrun : ∀ s' : App memory redis, s' = runFrom App.step s events →
      Invariant s' ∧ s'.cache.configured = false ∧ Single s' := by
    rintro _ rfl
    refine runFrom_induct (P := fun s' => Invariant s' ∧ s'.cache.configured = false ∧ Single s')
      (fun s' e hs => ⟨hs.1.step e, ?_⟩) ⟨h, hoff, hs⟩ events
    exact step_induct hs.1.shape (P := fun s' => s'.cache.configured = false ∧ Single s') hs.2
      (fun _ _ _ hm hs => ⟨hm.sameRuntime.configured_eq.trans hs.1, hs.2.move hs.1 hm⟩) e
  exact (hrun _ rfl).2.2

end App

/-- The limiters that may count a request: one for all of Redis, and one for every bootstrap that
fails; a single one where Redis is not configured. -/
def maxLimiters (cache : RedisCacheService) (events : List Event) : ℕ :=
  if cache.configured then 1 + events.countP Event.bootstrapFails else 1

namespace App

open Transition

theorem limiters_le (runtimeId : ℕ) (config : Config) (cache : RedisCacheService)
    (events : List Event) {s : App memory redis}
    (hs : s = runFrom App.step (App.init runtimeId config cache) events) :
    s.cache.configured.toNat + s.kinds.count false ≤ maxLimiters cache events := by
  have hinit : Invariant (App.init runtimeId config cache : App memory redis) := .init ..
  have hconfigured := (sameRuntime_run hinit events).configured_eq
  rw [← hs] at hconfigured
  rw [hconfigured]
  show cache.configured.toNat + _ ≤ _
  unfold maxLimiters
  cases hcache : cache.configured with
  | true =>
    have hcount := count_kinds_run hinit hcache events
    rw [← hs] at hcount
    rw [if_pos rfl]
    have hnone : (App.init runtimeId config cache : App memory redis).kinds.count false = 0 := rfl
    have hone : true.toNat = 1 := rfl
    omega
  | false =>
    have hsingle := single_run hinit hcache (Or.inl ⟨rfl, rfl⟩) events
    rw [← hs] at hsingle
    rw [if_neg Bool.false_ne_true]
    have hzero : false.toNat = 0 := rfl
    have hcount := hsingle.count_le
    omega

/-- The calls from `n` on are no more than the limit in any window. -/
def BoundedSince (s : App memory redis) (n : ℕ) : Prop :=
  ∀ r : Request, r.skipLimiter = false → ∀ start,
    ((s.passed r start).filter (n ≤ ·)).card ≤ s.config.rateLimitMaxRequests

end App

theorem Settled.boundedSince {n : ℕ} {state : DependencyState} {onRedis : Bool}
    (h : Settled n state onRedis s) (hs : Invariant s) (henabled : s.config.rateLimitEnabled = true)
    (hmemory : memory.Bounded s.config.rate) (hredis : redis.Bounded s.config.rate) :
    s.BoundedSince n := by
  intro r hlimited start
  refine (Finset.card_le_card fun i hi => ?_).trans
    (App.card_passedBy_le hs.counting hmemory hredis (counterFor onRedis state.factory r) start)
  obtain ⟨hpassed, hlate⟩ := Finset.mem_filter.1 hi
  obtain ⟨counter, time, hcall, hwindow⟩ := App.mem_passed.1 hpassed
  have huses := h.calls i _ hcall
  cases counter with
  | none =>
    have hskip : r.skipLimiter = true :=
      hs.shape.calls _ (List.mem_of_getElem? hcall) henabled
    rw [hlimited] at hskip
    cases hskip
  | some counter =>
    obtain rfl : counter = counterFor onRedis state.factory r := huses hlate
    exact App.mem_passedBy.2 ⟨r, time, hcall, hwindow⟩

open Transition

/-- In every window a counter lets at most `RATE_LIMIT_MAX_REQUESTS` calls pass, and the limiters
that may count a request bound how many calls of one client to one limited route pass.  From a
stored limiter on that is up to date, with none being built, the calls that arrive keep to
`RATE_LIMIT_MAX_REQUESTS` while availability stays. -/
theorem rateLimit_bounds (memory redis : RateBucket) (runtimeId : ℕ) (config : Config)
    (cache : RedisCacheService) (henabled : config.rateLimitEnabled = true)
    (hmemory : memory.Bounded config.rate) (hredis : redis.Bounded config.rate)
    (events : List Event) (s : App memory redis)
    (hs : s = runFrom App.step (App.init runtimeId config cache) events) :
    (∀ counter start, (s.passedBy counter start).card ≤ config.rateLimitMaxRequests) ∧
      (∀ r : Request, r.skipLimiter = false → ∀ start,
        (s.passed r start).card ≤ maxLimiters cache events * config.rateLimitMaxRequests) ∧
      ∀ state, s.state = some state → state.runtimeSignature = s.runtimeSignature →
        (∀ r, .building r ∉ s.calls) → ∀ later : List Event,
          Along App.step (fun s e => (s.step e).cache.isAvailable = s.cache.isAvailable) s later →
            (runFrom App.step s later).BoundedSince s.calls.length := by
  have hinvariant : Invariant s := hs ▸ App.invariant_run (.init runtimeId config cache) events
  have hconfig : s.config = config := by
    rw [hs]
    exact (App.sameRuntime_run (.init runtimeId config cache) events).config
  rw [← hconfig] at henabled hmemory hredis ⊢
  refine ⟨App.card_passedBy_le hinvariant.counting hmemory hredis, ?_, ?_⟩
  · intro r hlimited start
    refine (App.card_passed_le hinvariant henabled hmemory hredis hlimited start).trans ?_
    exact Nat.mul_le_mul_right _ (App.limiters_le runtimeId config cache events hs)
  · intro state hstate hsignature hnone later hlater
    have hstored := hinvariant.shape.stored state hstate
    obtain ⟨onRedis, hkind⟩ : ∃ onRedis, s.kinds[state.factory]? = some onRedis :=
      ⟨_, List.getElem?_eq_getElem (by rwa [App.kinds, List.length_map])⟩
    have hsettled : Settled s.calls.length state onRedis s := by
      refine ⟨hstate, hsignature, hkind, fun i call hcall => ?_⟩
      have hearly : ¬ s.calls.length ≤ i := (List.getElem?_eq_some_iff.1 hcall).1.not_ge
      cases call with
      | building r => exact hnone r (List.mem_of_getElem? hcall)
      | ready | sent => exact fun hlate => absurd hlate hearly
      | passed r counter =>
        cases counter with
        | none => trivial
        | some => exact fun hlate => absurd hlate hearly
      | denied | raised => trivial
    have hrun : Invariant (runFrom App.step s later) ∧
        Settled s.calls.length state onRedis (runFrom App.step s later) :=
      hlater.runFrom_induct (P := fun s' => Invariant s' ∧ Settled s.calls.length state onRedis s')
        (fun _ e h havailable => ⟨h.1.step e, h.2.step h.1.shape e havailable⟩)
        ⟨hinvariant, hsettled⟩
    have hconfig' := (App.sameRuntime_run hinvariant later).config
    rw [← hconfig'] at henabled hmemory hredis
    exact hrun.2.boundedSince hrun.1 henabled hmemory hredis

/-- One request in 60 seconds. -/
def strictConfig : Config := ⟨true, 1, 60⟩

def strictApp : App RateBucket.slidingLog RateBucket.slidingLog :=
  .init 0 strictConfig ⟨true, some 0, false⟩

def login : Request := ⟨"127.0.0.1", "POST", "/api/v1/auth/login", false⟩

/-- A login passes on Redis; Redis is lost, and a second login passes on a new in-memory limiter. -/
def outage : List Event :=
  [.cache (.ping (.ok true)), .begin login, .bootstrapped 0 (.ok "sha"), .put 0, .answer 0,
    .cache (.ping (.error .mk)), .begin login, .bootstrapped 1 (.error .mk), .put 1, .answer 1]

theorem outage_passed_le : ((runFrom App.step strictApp outage).passed login 0).card ≤ 2 * 1 :=
  (rateLimit_bounds RateBucket.slidingLog RateBucket.slidingLog 0 strictConfig
    ⟨true, some 0, false⟩ rfl (RateBucket.slidingLog_bounded _) (RateBucket.slidingLog_bounded _)
    outage _ rfl).2.1 login rfl 0

/-- Two logins pass in one window. -/
theorem outage_not_bounded : RateBucket.slidingLog.Bounded strictConfig.rate ∧
    ¬ Always App.step App.Bounded strictApp outage := by
  refine ⟨RateBucket.slidingLog_bounded _, fun h => ?_⟩
  have htwo : ¬ ((runFrom App.step strictApp outage).passed login 0).card ≤ 1 := by
    decide +kernel
  exact htwo (h.last login rfl 0)

end RateLimit

end AranesLms
