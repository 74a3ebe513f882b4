import AranesLms.Utils.RateLimit
import Mathlib.Logic.Relation

/-!
# What the buckets count

A step consists of a few moves (`Move`).  They keep the limiters in shape (`Shape`): on Redis all
count a request in one bucket, and an in-memory limiter has its own, empty when it is made.  Every
bucket has a log of the calls that it has admitted (`Counting`).
-/

namespace AranesLms

namespace RateLimit

open Relation

variable {memory redis : RateBucket}

/-! ## The moves of a step -/

/-- What a step consists of. -/
inductive Move (s : App memory redis) : App memory redis → Prop
  | unlimited (r : Request) (h : s.config.rateLimitEnabled = false) :
      Move s (s.addCall (.passed r none s.clock))
  | arrive {r : Request} {state : DependencyState} (hstate : s.state = some state) :
      Move s (s.addCall (.ready r state))
  | wait (r : Request) (h : s.cache.configured) : Move s (s.addCall (.building r))
  | installMemory (h : s.cache.configured ∨
      ∀ state, s.state = some state → state.runtimeSignature ≠ s.runtimeSignature) :
      Move s (s.install (.inMemory s.config.rate))
  | installRedis (scriptHash : String) (h : s.cache.configured) :
      Move s (s.install (.redisBacked s.config.rate scriptHash))
  | built {i : ℕ} {r : Request} {state : DependencyState}
      (hcall : s.calls[i]? = some (.building r)) (hstate : s.state = some state) :
      Move s (s.setCall i (.ready r state))
  | skip {i : ℕ} {r : Request} {state : DependencyState}
      (hcall : s.calls[i]? = some (.ready r state)) (hskip : r.skipLimiter = true) :
      Move s (s.setCall i (.passed r none s.clock))
  | put {i : ℕ} {r : Request} {state : DependencyState}
      {factory factory' : KeyedBucketFactory memory} {bucket : Bucket memory}
      (hcall : s.calls[i]? = some (.ready r state)) (hskip : r.skipLimiter = false)
      (hfactory : s.factories[state.factory]? = some factory)
      (hget : factory.get s.cache.client r.name = some (bucket, factory')) :
      Move s (s.putInto i r state factory' bucket)
  | pass {i : ℕ} {r : Request} {state : DependencyState} {counter : Counter} {time : ℕ}
      (hcall : s.calls[i]? = some (.sent r state counter time true)) :
      Move s (s.setCall i (.passed r (some counter) time))
  | deny (i : ℕ) (e : HttpException) : Move s (s.setCall i (.denied e))
  | raise (i : ℕ) : Move s (s.setCall i .raised)
  | cache {cache : RedisCacheService} (henabled : cache.enabled = s.cache.enabled)
      (hclient : cache.client = s.cache.client) : Move s { s with cache }
  | tick (d : ℕ) : Move s { s with clock := s.clock + d }

variable {s s' : App memory redis}

namespace App

theorem moves_limiterFails (s : App memory redis) (i : ℕ) (state : DependencyState) :
    ReflTransGen Move s (s.limiterFails i state) := by
  unfold limiterFails
  split_ifs
  · exact (ReflTransGen.single (.cache rfl rfl)).tail (.deny i rateLimitExceeded)
  · exact .single (.raise i)

theorem moves_beginBuild {r : Request} (h : ∀ state, s.state = some state →
    state.runtimeSignature ≠ s.runtimeSignature) : ReflTransGen Move s (s.beginBuild r) := by
  unfold beginBuild
  split_ifs with hconfigured
  · exact .single (.wait r hconfigured)
  · exact (ReflTransGen.single (.installMemory (Or.inr h))).tail (.arrive rfl)

theorem moves_begin (s : App memory redis) (r : Request) : ReflTransGen Move s (s.begin r) := by
  unfold begin
  split_ifs with henabled
  swap
  · exact .single (.unlimited r (Bool.eq_false_iff.2 henabled))
  cases hstate : s.state with
  | none => exact moves_beginBuild (by rw [hstate]; exact nofun)
  | some state =>
    dsimp only
    split_ifs with hsignature
    · exact .single (.arrive hstate)
    · refine moves_beginBuild fun state' hstate' => ?_
      obtain rfl := Option.some.inj (hstate.symm.trans hstate')
      exact hsignature

theorem moves_put (s : App memory redis) (i : ℕ) : ReflTransGen Move s (s.put i) := by
  unfold put
  split
  · rename_i r state hcall
    split_ifs with hskip
    · exact .single (.skip hcall hskip)
    split
    · exact .refl
    rename_i factory hfactory
    split
    · exact s.moves_limiterFails i state
    rename_i hget
    exact .single (.put hcall (Bool.eq_false_iff.2 hskip) hfactory hget)
  · exact .refl

theorem moves_answer (s : App memory redis) (i : ℕ) : ReflTransGen Move s (s.answer i) := by
  unfold answer
  split
  · rename_i r state counter time admitted hcall
    cases admitted with
    | true => exact .single (.pass hcall)
    | false => exact .single (.deny i _)
  · exact .refl

theorem moves_fail (s : App memory redis) (i : ℕ) : ReflTransGen Move s (s.fail i) := by
  unfold fail
  split
  · exact s.moves_limiterFails i _
  · exact s.moves_limiterFails i _
  · exact .refl

end App

/-! ## Which buckets count -/

namespace App

/-- The limiter of the factory `k` is an in-memory limiter. -/
def InMemory (s : App memory redis) (k : ℕ) : Prop :=
  ∃ factory, s.factories[k]? = some factory ∧ factory.cacheService = false

/-- A counter that the request may meet: the bucket in Redis under its name, or the one of an
in-memory limiter. -/
def Counts (s : App memory redis) (r : Request) (counter : Counter) : Prop :=
  s.cache.configured ∧ counter = .redis (redisKey r.name) ∨
    ∃ k, s.InMemory k ∧ counter = .memory k r.name

/-- What is known of a call. -/
def Sound (s : App memory redis) : Call → Prop
  | .building _ => s.cache.configured
  | .sent r _ counter _ _ => s.Counts r counter
  | .passed r (some counter) _ => s.Counts r counter
  | .passed r none _ => s.config.rateLimitEnabled → r.skipLimiter = true
  | .ready .. | .denied _ | .raised => True

end App

/-- A limiter has the configured rate, it is on Redis only where Redis is configured, and its
buckets are of its kind. -/
structure KeyedBucketFactory.Sound (factory : KeyedBucketFactory memory) (rate : Rate)
    (cache : RedisCacheService) : Prop where
  rate_eq : factory.rate = rate
  configured : factory.cacheService → cache.configured
  redis : ∀ name key, factory.buckets.get? name = some (.redis key) →
    factory.cacheService ∧ key = redisKey name
  memory : ∀ name st, factory.buckets.get? name = some (.memory st) → factory.cacheService = false

structure Shape (s : App memory redis) : Prop where
  calls : ∀ call ∈ s.calls, s.Sound call
  factories : ∀ factory ∈ s.factories, factory.Sound s.config.rate s.cache
  stored : ∀ state, s.state = some state → state.factory < s.factories.length

theorem RedisCacheService.configured_congr {c c' : RedisCacheService}
    (henabled : c'.enabled = c.enabled) (hclient : c'.client = c.client) :
    c'.configured = c.configured := by
  rw [configured, configured, henabled, hclient]

theorem KeyedBucketFactory.Sound.get {factory factory' : KeyedBucketFactory memory} {rate : Rate}
    {cache : RedisCacheService} {name : String} {bucket : Bucket memory}
    (h : factory.Sound rate cache)
    (hget : factory.get cache.client name = some (bucket, factory')) :
    factory'.Sound rate cache := by
  obtain ⟨hrate, hservice, hbuckets, hfound⟩ := get_eq_some _ hget
  have hnew : factory.newBucket cache.client name = some bucket →
      (∀ key, bucket = .redis key → factory.cacheService ∧ key = redisKey name) ∧
        ∀ st, bucket = .memory st → factory.cacheService = false := by
    intro hmade
    unfold newBucket at hmade
    split_ifs at hmade with hredis hhash
    · cases hmade
      refine ⟨?_, nofun⟩
      rintro _ ⟨⟩
      exact ⟨(Bool.and_eq_true _ _ ▸ hredis).1, rfl⟩
    · cases hmade
      refine ⟨nofun, fun _ _ => ?_⟩
      by_contra hservice
      have hconfigured := h.configured (by simpa using hservice)
      rw [RedisCacheService.configured, Bool.and_eq_true] at hconfigured
      exact hredis (by rw [Bool.and_eq_true]; exact ⟨by simpa using hservice, hconfigured.2⟩)
  refine ⟨hrate.trans h.rate_eq, fun hs => h.configured (hservice ▸ hs), ?_, ?_⟩
  · intro other key hkey
    rw [hbuckets] at hkey
    rw [hservice]
    split_ifs at hkey with heq
    · obtain rfl := Option.some.inj hkey
      rw [heq]
      rcases hfound with hold | ⟨-, hmade⟩
      · exact h.redis name key hold
      · exact (hnew hmade).1 key rfl
    · exact h.redis other key hkey
  · intro other st hst
    rw [hbuckets] at hst
    rw [hservice]
    split_ifs at hst with heq
    · obtain rfl := Option.some.inj hst
      rcases hfound with hold | ⟨-, hmade⟩
      · exact h.memory name st hold
      · exact (hnew hmade).2 st rfl
    · exact h.memory other st hst

namespace App

/-- What is known of a call stays known. -/
theorem Sound.mono {call : Call} (h : s.Sound call) (hconfig : s'.config = s.config)
    (hcache : s'.cache.configured = s.cache.configured)
    (hmemory : ∀ k, s.InMemory k → s'.InMemory k) : s'.Sound call := by
  have hcounts : ∀ {r counter}, s.Counts r counter → s'.Counts r counter := by
    rintro r counter (⟨hc, rfl⟩ | ⟨k, hk, rfl⟩)
    · exact Or.inl ⟨hcache ▸ hc, rfl⟩
    · exact Or.inr ⟨k, hmemory k hk, rfl⟩
  cases call with
  | building =>
    show s'.cache.configured = true
    rw [hcache]
    exact h
  | ready | denied | raised => trivial
  | sent => exact hcounts h
  | passed r counter time =>
    cases counter with
    | none =>
      show s'.config.rateLimitEnabled = true → r.skipLimiter = true
      rw [hconfig]
      exact h
    | some => exact hcounts h

theorem inMemory_install {factory : KeyedBucketFactory memory} {k : ℕ} (h : s.InMemory k) :
    (s.install factory).InMemory k := by
  obtain ⟨f, hf, hservice⟩ := h
  refine ⟨f, ?_, hservice⟩
  rw [install, List.getElem?_append_left (List.getElem?_eq_some_iff.1 hf).1]
  exact hf

end App

namespace Shape

variable (h : Shape s)

include h

/-- A new call, or a new phase of one. -/
theorem of_calls {calls : List Call} (hcalls : ∀ call ∈ calls, s.Sound call) :
    Shape { s with calls } :=
  ⟨fun call hcall => (hcalls call hcall).mono rfl rfl fun _ hk => hk, h.factories, h.stored⟩

theorem addCall {call : Call} (hcall : s.Sound call) : Shape (s.addCall call) := by
  refine h.of_calls fun call' hmem => ?_
  rcases List.mem_append.1 hmem with hmem | hmem
  · exact h.calls call' hmem
  · rw [List.mem_singleton.1 hmem]
    exact hcall

theorem setCall {i : ℕ} {call : Call} (hcall : s.Sound call) : Shape (s.setCall i call) := by
  refine h.of_calls fun call' hmem => ?_
  rcases List.mem_or_eq_of_mem_set hmem with hmem | rfl
  · exact h.calls call' hmem
  · exact hcall

theorem install {factory : KeyedBucketFactory memory}
    (hfactory : factory.Sound s.config.rate s.cache) : Shape (s.install factory) := by
  refine ⟨fun call hcall => (h.calls call hcall).mono rfl rfl fun _ => App.inMemory_install,
    fun f hf => ?_, ?_⟩
  · rcases List.mem_append.1 hf with hf | hf
    · exact h.factories f hf
    · rw [List.mem_singleton.1 hf]
      exact hfactory
  · rintro _ ⟨⟩
    show s.factories.length < (s.factories ++ [factory]).length
    rw [List.length_append]
    exact Nat.lt_succ_self _

theorem withCache {cache : RedisCacheService} (henabled : cache.enabled = s.cache.enabled)
    (hclient : cache.client = s.cache.client) : Shape { s with cache } := by
  have hconfigured := RedisCacheService.configured_congr henabled hclient
  refine ⟨fun call hcall => (h.calls call hcall).mono rfl hconfigured fun _ hk => hk,
    fun f hf => ?_, h.stored⟩
  obtain ⟨hrate, hon, hredis, hmemory⟩ := h.factories f hf
  exact ⟨hrate, fun hs => hconfigured ▸ hon hs, hredis, hmemory⟩

/-- A factory is stored again with another bucket. -/
theorem setFactory {k : ℕ} {factory factory' : KeyedBucketFactory memory}
    (hfactory : s.factories[k]? = some factory) (hsound : factory'.Sound s.config.rate s.cache)
    (hservice : factory'.cacheService = factory.cacheService)
    (redisBuckets : OrderedDict String redis.State) :
    Shape { s with redisBuckets, factories := s.factories.set k factory' } := by
  refine ⟨fun call hcall => (h.calls call hcall).mono rfl rfl ?_, fun f hf => ?_,
    fun state hs => ?_⟩
  · rintro j ⟨f, hf, hmemory⟩
    by_cases hj : k = j
    · subst hj
      obtain rfl := Option.some.inj (hfactory.symm.trans hf)
      refine ⟨factory', ?_, hservice.trans hmemory⟩
      exact List.getElem?_set_self (List.getElem?_eq_some_iff.1 hfactory).1
    · exact ⟨f, (List.getElem?_set_ne hj).trans hf, hmemory⟩
  · rcases List.mem_or_eq_of_mem_set hf with hf | rfl
    · exact h.factories f hf
    · exact hsound
  · rw [List.length_set]
    exact h.stored state hs

theorem put {i : ℕ} {r : Request} {state : DependencyState}
    {factory factory' : KeyedBucketFactory memory} {bucket : Bucket memory}
    (hfactory : s.factories[state.factory]? = some factory)
    (hget : factory.get s.cache.client r.name = some (bucket, factory')) :
    Shape (s.putInto i r state factory' bucket) := by
  have hsound := (h.factories factory (List.mem_of_getElem? hfactory)).get hget
  obtain ⟨-, hservice, hbuckets, -⟩ := KeyedBucketFactory.get_eq_some _ hget
  have hbucket : factory'.buckets.get? r.name = some bucket := (hbuckets _).trans (if_pos rfl)
  cases bucket with
  | redis key =>
    obtain ⟨hon, rfl⟩ := hsound.redis _ _ hbucket
    exact (h.setFactory hfactory hsound hservice _).setCall (Or.inl ⟨hsound.configured hon, rfl⟩)
  | memory st =>
    have hmemory := hsound.memory _ _ hbucket
    let stored : KeyedBucketFactory memory := { factory' with
      buckets := factory'.buckets.set r.name (.memory (memory.put factory'.rate s.clock st).2) }
    have hstored : stored.Sound s.config.rate s.cache := by
      refine ⟨hsound.rate_eq, hsound.configured, fun name key hkey => ?_, fun _ _ _ => hmemory⟩
      rw [OrderedDict.get?_set] at hkey
      split_ifs at hkey
      · cases hkey
      · exact hsound.redis name key hkey
    have hshape := h.setFactory hfactory hstored hservice s.redisBuckets
    refine hshape.setCall (Or.inr ⟨state.factory, ⟨stored, ?_, hmemory⟩, rfl⟩)
    exact List.getElem?_set_self (List.getElem?_eq_some_iff.1 hfactory).1

theorem move (hm : Move s s') : Shape s' := by
  cases hm with
  | unlimited r hoff => exact h.addCall fun hon => absurd (hoff.symm.trans hon) Bool.false_ne_true
  | arrive => exact h.addCall trivial
  | wait r hconfigured => exact h.addCall hconfigured
  | installMemory => exact h.install ⟨rfl, nofun, nofun, nofun⟩
  | installRedis _ hconfigured => exact h.install ⟨rfl, fun _ => hconfigured, nofun, nofun⟩
  | built => exact h.setCall trivial
  | skip _ hskip => exact h.setCall fun _ => hskip
  | put _ _ hfactory hget => exact h.put hfactory hget
  | pass hcall => exact h.setCall (h.calls _ (List.mem_of_getElem? hcall) :)
  | deny | raise => exact h.setCall trivial
  | cache henabled hclient => exact h.withCache henabled hclient
  | tick d =>
    exact ⟨fun call hcall => (h.calls call hcall).mono rfl rfl fun _ hk => hk, h.factories,
      h.stored⟩

end Shape

namespace App

theorem moves_bootstrapped (h : Shape s) (i : ℕ) (reply : Except RedisError String) :
    ReflTransGen Move s (s.bootstrapped i reply) := by
  unfold bootstrapped
  split
  swap
  · exact .refl
  rename_i r hcall
  have hconfigured : s.cache.configured := h.calls _ (List.mem_of_getElem? hcall)
  cases reply with
  | ok scriptHash =>
    exact (ReflTransGen.single (.installRedis scriptHash hconfigured)).tail (.built hcall rfl)
  | error =>
    have hmark : Move s { s with cache := s.cache.markUnavailable } := .cache rfl rfl
    exact ((ReflTransGen.single hmark).tail (.installMemory (Or.inl hconfigured))).tail
      (.built hcall rfl)

theorem moves_step (h : Shape s) (e : Event) : ReflTransGen Move s (s.step e) := by
  cases e with
  | begin r => exact s.moves_begin r
  | bootstrapped i reply => exact moves_bootstrapped h i reply
  | put i => exact s.moves_put i
  | answer i => exact s.moves_answer i
  | fail i => exact s.moves_fail i
  | cache call =>
    obtain ⟨henabled, hclient⟩ := call.run_client s.cache
    exact .single (.cache henabled hclient)
  | tick d => exact .single (.tick d)

end App

/-! ## What buckets have counted -/

/-- What has admitted the item of a call, and when. -/
def Call.countedBy : Call → Option (Counter × ℕ)
  | .passed _ (some counter) time | .sent _ _ counter time true => some (counter, time)
  | _ => none

/-- The state of the in-memory bucket of a name, as a new one where there is none. -/
def KeyedBucketFactory.stateOf (factory : KeyedBucketFactory memory) (name : String) :
    memory.State :=
  match factory.buckets.get? name with
  | some (.memory st) => st
  | _ => memory.empty

/-- The bucket that `get` finds or makes has the state of the name, and no state changes. -/
theorem KeyedBucketFactory.stateOf_get {factory factory' : KeyedBucketFactory memory}
    {client : Option ℕ} {name : String} {bucket : Bucket memory}
    (h : factory.get client name = some (bucket, factory')) (other : String) :
    factory'.stateOf other = factory.stateOf other := by
  obtain ⟨-, -, hbuckets, hfound⟩ := get_eq_some _ h
  unfold stateOf
  rw [hbuckets]
  split_ifs with heq
  swap
  · rfl
  rw [heq]
  rcases hfound with hold | ⟨hnone, hnew⟩
  · rw [hold]
  · rw [hnone]
    unfold newBucket at hnew
    split_ifs at hnew <;> cases hnew <;> rfl

namespace App

def redisState (s : App memory redis) (key : String) : redis.State :=
  (s.redisBuckets.get? key).getD redis.empty

def memoryState (s : App memory redis) (k : ℕ) (name : String) : memory.State :=
  (s.factories[k]?.map fun factory => factory.stateOf name).getD memory.empty

/-- The bucket of the counter has a log with every call that it has admitted. -/
def Logged (s : App memory redis) (counter : Counter) (b : RateBucket) (st : b.State) : Prop :=
  ∃ log : List (ℕ × ℕ), b.Serves s.config.rate s.clock st (log.map Prod.snd) ∧
    ∀ (i : ℕ) (call : Call) (time : ℕ), s.calls[i]? = some call →
      call.countedBy = some (counter, time) → (i, time) ∈ log

/-- No call of `s'` is counted that has not been in `s`. -/
def KeepsCounts (s s' : App memory redis) (counter : Counter) : Prop :=
  ∀ (i : ℕ) (call : Call) (time : ℕ), s'.calls[i]? = some call →
    call.countedBy = some (counter, time) →
      ∃ old : Call, s.calls[i]? = some old ∧ old.countedBy = some (counter, time)

theorem getElem?_addCall {call call' : Call} {i : ℕ} (h : (s.addCall call).calls[i]? = some call') :
    call' = call ∨ s.calls[i]? = some call' := by
  rw [addCall, List.getElem?_append] at h
  split_ifs at h with hi
  · exact Or.inr h
  · exact Or.inl (List.mem_singleton.1 (List.mem_of_getElem? h))

theorem getElem?_setCall {call call' : Call} {i j : ℕ}
    (h : (s.setCall i call).calls[j]? = some call') :
    j = i ∧ call' = call ∨ j ≠ i ∧ s.calls[j]? = some call' := by
  rw [setCall, List.getElem?_set] at h
  split_ifs at h with hj hlt
  · cases h
    exact Or.inl ⟨hj.symm, rfl⟩
  · exact Or.inr ⟨Ne.symm hj, h⟩

theorem keepsCounts_addCall {call : Call} (h : call.countedBy = none) (counter : Counter) :
    s.KeepsCounts (s.addCall call) counter := by
  intro i call' time hcall hcounted
  rcases getElem?_addCall hcall with rfl | hold
  · rw [h] at hcounted
    cases hcounted
  · exact ⟨call', hold, hcounted⟩

theorem keepsCounts_setCall {i : ℕ} {call : Call} {counter : Counter}
    (h : ∀ time, call.countedBy = some (counter, time) →
      ∃ old, s.calls[i]? = some old ∧ old.countedBy = some (counter, time)) :
    s.KeepsCounts (s.setCall i call) counter := by
  intro j call' time hcall hcounted
  rcases getElem?_setCall hcall with ⟨rfl, rfl⟩ | ⟨-, hold⟩
  · exact h time hcounted
  · exact ⟨call', hold, hcounted⟩

theorem Logged.mono {counter : Counter} {b : RateBucket} {st : b.State}
    (h : s.Logged counter b st) (hconfig : s'.config = s.config) (hclock : s.clock ≤ s'.clock)
    (hcalls : s.KeepsCounts s' counter) : s'.Logged counter b st := by
  obtain ⟨log, hserves, hlog⟩ := h
  refine ⟨log, ?_, fun i call time hcall hcounted => ?_⟩
  · rw [hconfig]
    exact hserves.wait hclock
  · obtain ⟨old, hold, hcounted⟩ := hcalls i call time hcall hcounted
    exact hlog i old time hold hcounted

/-- A bucket that takes or refuses the item of a call keeps its log. -/
theorem Logged.put {counter : Counter} {b : RateBucket} {st : b.State}
    (h : s.Logged counter b st) (i : ℕ) (r : Request) (state : DependencyState) :
    (s.setCall i (.sent r state counter s.clock (b.put s.config.rate s.clock st).1)).Logged counter
      b (b.put s.config.rate s.clock st).2 := by
  obtain ⟨log, hserves, hlog⟩ := h
  cases hput : (b.put s.config.rate s.clock st).1 with
  | true =>
    refine ⟨(i, s.clock) :: log, hserves.accept hput, fun j call time hcall hcounted => ?_⟩
    rcases getElem?_setCall hcall with ⟨rfl, rfl⟩ | ⟨-, hold⟩
    · cases hcounted
      exact List.mem_cons_self
    · exact List.mem_cons_of_mem _ (hlog j call time hold hcounted)
  | false =>
    refine ⟨log, hserves.refuse hput, fun j call time hcall hcounted => ?_⟩
    rcases getElem?_setCall hcall with ⟨rfl, rfl⟩ | ⟨-, hold⟩
    · cases hcounted
    · exact hlog j call time hold hcounted

/-- The item of a call is put into the bucket of another counter. -/
theorem Logged.put_other {counter counter' : Counter} {b : RateBucket} {st : b.State}
    (h : s.Logged counter' b st) (hne : counter' ≠ counter) (i : ℕ) (r : Request)
    (state : DependencyState) (admitted : Bool) :
    (s.setCall i (.sent r state counter s.clock admitted)).Logged counter' b st := by
  refine h.mono rfl le_rfl (keepsCounts_setCall fun time hcounted => ?_)
  cases admitted with
  | true =>
    cases hcounted
    exact absurd rfl hne
  | false => cases hcounted

/-- A factory is stored again. -/
theorem memoryState_set {k : ℕ} {factory factory' : KeyedBucketFactory memory}
    (hfactory : s.factories[k]? = some factory)
    (hset : s'.factories = s.factories.set k factory') (k' : ℕ) (name : String) :
    s'.memoryState k' name =
      if k' = k then factory'.stateOf name else s.memoryState k' name := by
  unfold memoryState
  rw [hset]
  split_ifs with hk
  · subst hk
    rw [List.getElem?_set_self (List.getElem?_eq_some_iff.1 hfactory).1]
    rfl
  · rw [List.getElem?_set_ne (Ne.symm hk)]

/-- The states of the factory that `get` gives are those of the stored one. -/
theorem memoryState_get {client : Option ℕ} {k : ℕ} {name : String}
    {factory factory' : KeyedBucketFactory memory} {bucket : Bucket memory}
    (hfactory : s.factories[k]? = some factory)
    (hget : factory.get client name = some (bucket, factory')) (other : String) :
    s.memoryState k other = factory'.stateOf other := by
  rw [memoryState, hfactory, KeyedBucketFactory.stateOf_get hget other]
  rfl

/-- An item for Redis changes no in-memory bucket. -/
theorem memoryState_putInto_redis {i : ℕ} {r : Request} {state : DependencyState}
    {factory factory' : KeyedBucketFactory memory} {key : String}
    (hfactory : s.factories[state.factory]? = some factory)
    (hget : factory.get s.cache.client r.name = some (.redis key, factory')) (k : ℕ)
    (name : String) :
    (s.putInto i r state factory' (.redis key)).memoryState k name = s.memoryState k name := by
  rw [memoryState_set hfactory rfl]
  split_ifs with hk
  · rw [hk, memoryState_get hfactory hget]
  · rfl

/-- An item for an in-memory bucket changes this one only. -/
theorem memoryState_putInto_memory {i : ℕ} {r : Request} {state : DependencyState}
    {factory factory' : KeyedBucketFactory memory} {st : memory.State}
    (hfactory : s.factories[state.factory]? = some factory)
    (hget : factory.get s.cache.client r.name = some (.memory st, factory')) (k : ℕ)
    (name : String) :
    (s.putInto i r state factory' (.memory st)).memoryState k name =
      if k = state.factory ∧ name = r.name then (memory.put factory'.rate s.clock st).2
      else s.memoryState k name := by
  rw [memoryState_set hfactory rfl]
  by_cases hk : k = state.factory
  swap
  · rw [if_neg hk, if_neg fun heq => hk heq.1]
  rw [if_pos hk, hk, memoryState_get hfactory hget, KeyedBucketFactory.stateOf,
    KeyedBucketFactory.stateOf, OrderedDict.get?_set]
  by_cases hname : name = r.name
  · rw [if_pos hname, if_pos ⟨rfl, hname⟩]
  · rw [if_neg hname, if_neg fun heq => hname heq.2]

end App

structure Counting (s : App memory redis) : Prop where
  redis : ∀ key, s.Logged (.redis key) redis (s.redisState key)
  memory : ∀ k name, s.Logged (.memory k name) memory (s.memoryState k name)

namespace Counting

variable (h : Counting s)

include h

theorem of_frame (hconfig : s'.config = s.config) (hclock : s.clock ≤ s'.clock)
    (hredis : ∀ key, s'.redisState key = s.redisState key)
    (hmemory : ∀ k name, s'.memoryState k name = s.memoryState k name)
    (hcalls : ∀ counter, s.KeepsCounts s' counter) : Counting s' := by
  constructor
  · intro key
    rw [hredis]
    exact (h.redis key).mono hconfig hclock (hcalls _)
  · intro k name
    rw [hmemory]
    exact (h.memory k name).mono hconfig hclock (hcalls _)

theorem addCall {call : Call} (hcall : call.countedBy = none) : Counting (s.addCall call) :=
  h.of_frame rfl le_rfl (fun _ => rfl) (fun _ _ => rfl) (App.keepsCounts_addCall hcall)

theorem setCall {i : ℕ} {call : Call} (hcall : ∀ counter time,
    call.countedBy = some (counter, time) →
      ∃ old, s.calls[i]? = some old ∧ old.countedBy = some (counter, time)) :
    Counting (s.setCall i call) :=
  h.of_frame rfl le_rfl (fun _ => rfl) (fun _ _ => rfl)
    fun counter => App.keepsCounts_setCall (hcall counter)

/-- The buckets of a new limiter are empty. -/
theorem install {factory : KeyedBucketFactory memory} (hempty : factory.buckets = ∅) :
    Counting (s.install factory) := by
  refine h.of_frame rfl le_rfl (fun _ => rfl) (fun k name => ?_)
    fun _ i call time hcall hcounted => ⟨call, hcall, hcounted⟩
  rw [App.memoryState, App.memoryState, App.install, List.getElem?_append]
  split_ifs with hk
  · rfl
  · rw [List.getElem?_eq_none (not_lt.1 hk)]
    cases hnew : [factory][k - s.factories.length]? with
    | none => rfl
    | some f =>
      rw [List.mem_singleton.1 (List.mem_of_getElem? hnew)]
      show factory.stateOf name = memory.empty
      rw [KeyedBucketFactory.stateOf, hempty]
      rfl

theorem put_redis {i : ℕ} {r : Request} {state : DependencyState}
    {factory factory' : KeyedBucketFactory memory} {key : String}
    (hfactory : s.factories[state.factory]? = some factory)
    (hget : factory.get s.cache.client r.name = some (.redis key, factory'))
    (hrate : factory'.rate = s.config.rate) :
    Counting (s.putInto i r state factory' (.redis key)) := by
  have hmemory := App.memoryState_putInto_redis (i := i) hfactory hget
  rw [App.putInto_redis, hrate] at hmemory ⊢
  constructor
  · intro key'
    rw [App.redisState, App.setCall, OrderedDict.get?_set]
    split_ifs with hkey
    · rw [hkey]
      exact (h.redis key).put i r state
    · exact (h.redis key').put_other (fun heq => hkey (Counter.redis.inj heq)) i r state _
  · intro k name
    have hne : Counter.memory k name ≠ .redis key := by
      intro heq
      cases heq
    rw [hmemory]
    exact (h.memory k name).put_other hne i r state _

theorem put_memory {i : ℕ} {r : Request} {state : DependencyState}
    {factory factory' : KeyedBucketFactory memory} {st : memory.State}
    (hfactory : s.factories[state.factory]? = some factory)
    (hget : factory.get s.cache.client r.name = some (.memory st, factory'))
    (hrate : factory'.rate = s.config.rate) :
    Counting (s.putInto i r state factory' (.memory st)) := by
  have hst : s.memoryState state.factory r.name = st := by
    obtain ⟨-, -, hbuckets, -⟩ := KeyedBucketFactory.get_eq_some _ hget
    rw [App.memoryState_get hfactory hget, KeyedBucketFactory.stateOf, hbuckets, if_pos rfl]
  have hmemory := App.memoryState_putInto_memory (i := i) hfactory hget
  rw [App.putInto_memory] at hmemory ⊢
  constructor
  · intro key
    have hne : Counter.redis key ≠ .memory state.factory r.name := by
      intro heq
      cases heq
    exact (h.redis key).put_other hne i r state _
  · intro k name
    rw [hmemory]
    split_ifs with heq
    · obtain ⟨rfl, rfl⟩ := heq
      have hlogged := (h.memory state.factory r.name).put i r state
      rw [hst, ← hrate] at hlogged
      exact hlogged
    · refine (h.memory k name).put_other (fun heq' => heq ?_) i r state _
      obtain ⟨rfl, rfl⟩ := Counter.memory.inj heq'
      exact ⟨rfl, rfl⟩

/-- An item is put into the bucket of its counter and into no other one. -/
theorem put (hshape : Shape s) {i : ℕ} {r : Request} {state : DependencyState}
    {factory factory' : KeyedBucketFactory memory} {bucket : Bucket memory}
    (hfactory : s.factories[state.factory]? = some factory)
    (hget : factory.get s.cache.client r.name = some (bucket, factory')) :
    Counting (s.putInto i r state factory' bucket) := by
  have hrate : factory'.rate = s.config.rate :=
    ((hshape.factories factory (List.mem_of_getElem? hfactory)).get hget).rate_eq
  cases bucket with
  | redis key => exact h.put_redis hfactory hget hrate
  | memory st => exact h.put_memory hfactory hget hrate

theorem move (hshape : Shape s) (hm : Move s s') : Counting s' := by
  cases hm with
  | unlimited | arrive | wait => exact h.addCall rfl
  | installMemory | installRedis => exact h.install rfl
  | built | skip | deny | raise => exact h.setCall nofun
  | put _ _ hfactory hget => exact h.put hshape hfactory hget
  | pass hcall => exact h.setCall fun counter time hcounted => ⟨_, hcall, hcounted⟩
  | cache =>
    exact h.of_frame rfl le_rfl (fun _ => rfl) (fun _ _ => rfl)
      fun _ i call time hcall hcounted => ⟨call, hcall, hcounted⟩
  | tick d =>
    exact h.of_frame rfl (Nat.le_add_right _ _) (fun _ => rfl) (fun _ _ => rfl)
      fun _ i call time hcall hcounted => ⟨call, hcall, hcounted⟩

end Counting

/-! ## Steps -/

/-- What never changes: the runtime, its configuration and the client of its cache service. -/
structure App.SameRuntime (s s' : App memory redis) : Prop where
  runtimeId : s'.runtimeId = s.runtimeId
  config : s'.config = s.config
  enabled : s'.cache.enabled = s.cache.enabled
  client : s'.cache.client = s.cache.client

namespace App.SameRuntime

theorem trans {s'' : App memory redis} (h : s.SameRuntime s') (h' : s'.SameRuntime s'') :
    s.SameRuntime s'' :=
  ⟨h'.runtimeId.trans h.runtimeId, h'.config.trans h.config, h'.enabled.trans h.enabled,
    h'.client.trans h.client⟩

theorem configured_eq (h : s.SameRuntime s') : s'.cache.configured = s.cache.configured :=
  RedisCacheService.configured_congr h.enabled h.client

/-- The signature depends on availability only. -/
theorem signature_eq (h : s.SameRuntime s')
    (havailable : s'.cache.isAvailable = s.cache.isAvailable) :
    s'.runtimeSignature = s.runtimeSignature := by
  unfold App.runtimeSignature
  rw [h.runtimeId, h.config, h.enabled, h.client, havailable]

end App.SameRuntime

theorem Move.sameRuntime (hm : Move s s') : s.SameRuntime s' := by
  cases hm with
  | @put i r state factory factory' bucket => cases bucket <;> exact ⟨rfl, rfl, rfl, rfl⟩
  | cache henabled hclient => exact ⟨rfl, rfl, henabled, hclient⟩
  | _ => exact ⟨rfl, rfl, rfl, rfl⟩

/-- What the moves preserve holds after a step. -/
theorem App.step_induct {P : App memory redis → Prop} (hshape : Shape s) (hs : P s)
    (hmove : ∀ s s', Shape s → Move s s' → P s → P s') (e : Event) : P (s.step e) := by
  have hmoves : ∀ {s'}, ReflTransGen Move s s' → Shape s' ∧ P s' := by
    intro s' hm
    induction hm with
    | refl => exact ⟨hshape, hs⟩
    | tail _ hm ih => exact ⟨ih.1.move hm, hmove _ _ ih.1 hm ih.2⟩
  exact (hmoves (App.moves_step hshape e)).2

structure Invariant (s : App memory redis) : Prop where
  shape : Shape s
  counting : Counting s

namespace Invariant

theorem init (runtimeId : ℕ) (config : Config) (cache : RedisCacheService) :
    Invariant (App.init runtimeId config cache : App memory redis) := by
  have hlogged : ∀ (counter : Counter) (b : RateBucket),
      (App.init runtimeId config cache : App memory redis).Logged counter b b.empty := by
    intro counter b
    refine ⟨[], .empty 0, fun i call time hcall _ => ?_⟩
    rw [App.init, List.getElem?_nil] at hcall
    cases hcall
  refine ⟨⟨fun _ h => absurd h List.not_mem_nil, fun _ h => absurd h List.not_mem_nil, ?_⟩,
    fun _ => hlogged _ _, fun _ _ => hlogged _ _⟩
  intro state hstate
  cases hstate

theorem step (h : Invariant s) (e : Event) : Invariant (s.step e) :=
  App.step_induct h.shape h (fun _ _ _ hm hs => ⟨hs.shape.move hm, hs.counting.move hs.shape hm⟩) e

end Invariant

namespace App

theorem sameRuntime_step (h : Shape s) (e : Event) : s.SameRuntime (s.step e) :=
  step_induct h (P := s.SameRuntime) ⟨rfl, rfl, rfl, rfl⟩
    (fun _ _ _ hm hs => hs.trans hm.sameRuntime) e

end App

end RateLimit

end AranesLms
