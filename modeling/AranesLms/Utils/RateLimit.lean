import AranesLms.Http
import AranesLms.Lib.Json
import AranesLms.Lib.RateBucket
import AranesLms.Lib.Transition

/-!
# The rate limiter

`RequestRateLimiter` of `src/utils/rate_limit.py` over the availability that `RedisCacheService` of
`src/utils/cache.py` keeps.  The calls of one process are interleaved at their await points: while
`RedisBucket.init` loads its script, before the limiter asks its bucket, and until the answer of
the bucket is there.  A limiter counts in a Redis bucket, which all limiters share by its key, or in
an in-memory bucket of its own.  The two kinds of buckets are those of the library, given by
`memory` and `redis`.
-/

namespace AranesLms

namespace RateLimit

/-! ## The cache service -/

/-- A command raised: the server cannot be reached, or does not answer in time. -/
inductive RedisError where
  | mk

/-- `RedisCacheService` with the identity of its client. -/
structure RedisCacheService where
  enabled : Bool
  client : Option ℕ
  available : Bool

namespace RedisCacheService

/-- `__post_init__` with the client that `from_url` makes, which is none if the package is missing
or the call raises.  The warning about it, if the logger lets it through, raises a `TypeError`, as
its keyword arguments are unknown to the logger: then there is no service. -/
def postInit (enabled warns : Bool) (fromUrl : Option ℕ) : Option RedisCacheService :=
  match enabled, fromUrl with
  | false, _ => some ⟨false, none, false⟩
  | true, some client => some ⟨true, some client, false⟩
  | true, none => if warns then none else some ⟨false, none, false⟩

variable (s : RedisCacheService)

/-- The service has a client to send commands to. -/
def configured : Bool := s.enabled && s.client.isSome

def isAvailable : Bool := s.enabled && s.available && s.client.isSome

/-- A service that has been made is enabled with a client or not at all, and not available yet. -/
theorem postInit_eq_some {s : RedisCacheService} {enabled warns : Bool} {fromUrl : Option ℕ}
    (h : postInit enabled warns fromUrl = some s) :
    s.enabled = (enabled && fromUrl.isSome) ∧ s.configured = s.enabled ∧
      s.isAvailable = false := by
  cases enabled with
  | false =>
    cases h
    exact ⟨rfl, rfl, rfl⟩
  | true =>
    cases fromUrl with
    | some client =>
      cases h
      exact ⟨rfl, rfl, rfl⟩
    | none =>
      cases warns with
      | true => cases h
      | false =>
        cases h
        exact ⟨rfl, rfl, rfl⟩

def markUnavailable : RedisCacheService := { s with available := false }

def ping (reply : Except RedisError Bool) : Bool × RedisCacheService :=
  if s.configured then
    match reply with
    | .error _ => (false, s.markUnavailable)
    | .ok pong => (pong, { s with available := pong })
  else (false, s.markUnavailable)

/-- The state after a command whose reply is not used. -/
def command (reply : Except RedisError Unit) : RedisCacheService :=
  if s.configured then
    match reply with
    | .error _ => s.markUnavailable
    | .ok _ => s
  else s

/-- `get_json` with the reply to `get`, where a stored text is `none` if it is not JSON, and to the
`delete` of such a text. -/
def getJson (raw : Except RedisError (Option (Option Json))) (deleted : Except RedisError Unit) :
    Option (OrderedDict String Json) × RedisCacheService :=
  if s.configured then
    match raw with
    | .error _ => (none, s.markUnavailable)
    | .ok none => (none, s)
    | .ok (some none) => (none, s.command deleted)
    | .ok (some (some payload)) => (payload.asDict?, s)
  else (none, s)

theorem command_client (reply : Except RedisError Unit) :
    (s.command reply).enabled = s.enabled ∧ (s.command reply).client = s.client := by
  unfold command
  split_ifs
  · cases reply <;> exact ⟨rfl, rfl⟩
  · exact ⟨rfl, rfl⟩

def setJson (reply : Except RedisError Unit) : RedisCacheService := s.command reply

def delete (reply : Except RedisError Unit) : RedisCacheService := s.command reply

def deleteMany (cacheKeys : List String) (reply : Except RedisError Unit) : RedisCacheService :=
  if cacheKeys = [] then s else s.command reply

end RedisCacheService

/-- A call of the cache service by the heartbeat or by any request. -/
inductive CacheCall where
  | ping (reply : Except RedisError Bool)
  | getJson (raw : Except RedisError (Option (Option Json))) (deleted : Except RedisError Unit)
  | setJson (reply : Except RedisError Unit)
  | delete (reply : Except RedisError Unit)
  | deleteMany (cacheKeys : List String) (reply : Except RedisError Unit)

def CacheCall.run (s : RedisCacheService) : CacheCall → RedisCacheService
  | ping reply => (s.ping reply).2
  | getJson raw deleted => (s.getJson raw deleted).2
  | setJson reply => s.setJson reply
  | delete reply => s.delete reply
  | deleteMany cacheKeys reply => s.deleteMany cacheKeys reply

/-- A call changes whether Redis is available, and not whether it is configured. -/
theorem CacheCall.run_client (s : RedisCacheService) (call : CacheCall) :
    (call.run s).enabled = s.enabled ∧ (call.run s).client = s.client := by
  cases call with
  | ping reply =>
    show (s.ping reply).2.enabled = _ ∧ (s.ping reply).2.client = _
    unfold RedisCacheService.ping
    split_ifs
    · cases reply <;> exact ⟨rfl, rfl⟩
    · exact ⟨rfl, rfl⟩
  | getJson raw deleted =>
    show (s.getJson raw deleted).2.enabled = _ ∧ (s.getJson raw deleted).2.client = _
    unfold RedisCacheService.getJson
    split_ifs
    · rcases raw with _ | _ | _ | _
      · exact ⟨rfl, rfl⟩
      · exact ⟨rfl, rfl⟩
      · exact s.command_client deleted
      · exact ⟨rfl, rfl⟩
    · exact ⟨rfl, rfl⟩
  | setJson reply | delete reply => exact s.command_client reply
  | deleteMany cacheKeys reply =>
    show (s.deleteMany cacheKeys reply).enabled = _ ∧ (s.deleteMany cacheKeys reply).client = _
    unfold RedisCacheService.deleteMany
    split_ifs
    · exact ⟨rfl, rfl⟩
    · exact s.command_client reply

/-! ## Buckets -/

structure Config where
  rateLimitEnabled : Bool
  rateLimitMaxRequests : ℕ
  rateLimitWindowSeconds : ℕ

/-- The rate in milliseconds. -/
def Config.rate (config : Config) : Rate :=
  ⟨config.rateLimitMaxRequests, 1000 * config.rateLimitWindowSeconds⟩

def rateLimitBucketNamespace : String := "rate_limit"

def redisKey (name : String) : String := rateLimitBucketNamespace ++ ":" ++ name

/-- A `RedisBucket`, whose items are in Redis, or an `InMemoryBucket` with its state. -/
inductive Bucket (memory : RateBucket) where
  | redis (key : String)
  | memory (st : memory.State)

/-- `_KeyedBucketFactory`; `cacheService` says whether it has the cache service. -/
structure KeyedBucketFactory (memory : RateBucket) where
  rate : Rate
  cacheService : Bool
  scriptHash : Option String
  buckets : OrderedDict String (Bucket memory)

namespace KeyedBucketFactory

variable {memory : RateBucket} (factory : KeyedBucketFactory memory)

/-- The factory of an in-memory limiter. -/
def inMemory (rate : Rate) : KeyedBucketFactory memory := ⟨rate, false, none, ∅⟩

/-- The factory after a successful `RedisBucket.init`. -/
def redisBacked (rate : Rate) (scriptHash : String) : KeyedBucketFactory memory :=
  ⟨rate, true, some scriptHash, ∅⟩

/-- The bucket that `get` makes for a new name; without a script hash it raises. -/
def newBucket (client : Option ℕ) (name : String) : Option (Bucket memory) :=
  if factory.cacheService && client.isSome then
    if factory.scriptHash.isNone then none else some (.redis (redisKey name))
  else some (.memory memory.empty)

/-- The bucket of a name, and the factory that has stored it. -/
def get (client : Option ℕ) (name : String) :
    Option (Bucket memory × KeyedBucketFactory memory) :=
  match factory.buckets.get? name with
  | some bucket => some (bucket, factory)
  | none => (factory.newBucket client name).map fun bucket =>
      (bucket, { factory with buckets := factory.buckets.set name bucket })

/-- `get` changes nothing but the bucket of the name, which it finds or makes. -/
theorem get_eq_some {client : Option ℕ} {name : String} {bucket : Bucket memory}
    {factory' : KeyedBucketFactory memory} (h : factory.get client name = some (bucket, factory')) :
    factory'.rate = factory.rate ∧ factory'.cacheService = factory.cacheService ∧
      (∀ other, factory'.buckets.get? other =
        if other = name then some bucket else factory.buckets.get? other) ∧
      (factory.buckets.get? name = some bucket ∨
        factory.buckets.get? name = none ∧ factory.newBucket client name = some bucket) := by
  unfold get at h
  cases hfound : factory.buckets.get? name with
  | some found =>
    rw [hfound] at h
    cases h
    refine ⟨rfl, rfl, fun other => ?_, Or.inl rfl⟩
    split_ifs with heq
    · rw [heq, hfound]
    · rfl
  | none =>
    rw [hfound] at h
    obtain ⟨new, hnew, heq⟩ := Option.map_eq_some_iff.1 h
    cases heq
    exact ⟨rfl, rfl, fun other => OrderedDict.get?_set _, Or.inr ⟨rfl, hnew⟩⟩

/-- `_is_redis_backed_factory`. -/
def isRedisBacked (client : Option ℕ) : Bool :=
  factory.cacheService && client.isSome && factory.scriptHash.isSome

end KeyedBucketFactory

/-! ## Calls -/

/-- A request: what the identifier makes of its client, the method, the path of its route and
whether the endpoint has `_skip_limiter`. -/
structure Request where
  identifier : String
  method : String
  routePath : String
  skipLimiter : Bool
  deriving DecidableEq

/-- The scope of `_resolve_route_scope`, the same from its cache and without; the limiter inside
`RequestRateLimiter` is no dependency of the route, so the index stays 0. -/
def Request.routeScope (r : Request) : String := r.method ++ ":" ++ r.routePath ++ ":0"

/-- The name of the item. -/
def Request.name (r : Request) : String := r.identifier ++ ":" ++ r.routeScope

structure RuntimeSignature where
  runtime : ℕ
  rateLimitEnabled : Bool
  rateLimitMaxRequests : ℕ
  rateLimitWindowSeconds : ℕ
  cacheEnabled : Bool
  cacheAvailable : Bool
  client : Option ℕ
  deriving DecidableEq

/-- `_RateLimitDependencyState`; its limiter is known by its factory. -/
structure DependencyState where
  runtimeSignature : RuntimeSignature
  factory : ℕ
  redisBacked : Bool

/-- What counts an item: a key of Redis, or the in-memory bucket of a factory for a name. -/
inductive Counter where
  | redis (key : String)
  | memory (factory : ℕ) (name : String)
  deriving DecidableEq

/-- Where a call is: in `RedisBucket.init`, before its limiter asks the bucket, until the answer of
the bucket is there, or at its end.  A passed call keeps what has admitted it, and when. -/
inductive Call where
  | building (r : Request)
  | ready (r : Request) (state : DependencyState)
  | sent (r : Request) (state : DependencyState) (counter : Counter) (time : ℕ) (admitted : Bool)
  | passed (r : Request) (counter : Option Counter) (time : ℕ)
  | denied (e : HttpException)
  | raised

def rateLimitExceeded : HttpException := ⟨429, "Rate limit exceeded"⟩

/-! ## One process -/

/-- The runtime, the buckets in Redis, the factories made so far, what `app.state` holds of the
limiter, the calls in the order of their begin, and the time in milliseconds. -/
structure App (memory redis : RateBucket) where
  runtimeId : ℕ
  config : Config
  cache : RedisCacheService
  redisBuckets : OrderedDict String redis.State
  factories : List (KeyedBucketFactory memory)
  state : Option DependencyState
  calls : List Call
  clock : ℕ

namespace App

variable {memory redis : RateBucket}

def init (runtimeId : ℕ) (config : Config) (cache : RedisCacheService) : App memory redis :=
  ⟨runtimeId, config, cache, ∅, [], none, [], 0⟩

variable (s : App memory redis)

/-- `_runtime_signature`. -/
def runtimeSignature : RuntimeSignature :=
  ⟨s.runtimeId, s.config.rateLimitEnabled, s.config.rateLimitMaxRequests,
    s.config.rateLimitWindowSeconds, s.cache.enabled, s.cache.isAvailable, s.cache.client⟩

/-- The state for a factory, with the signature of the moment. -/
def dependencyState (factory : KeyedBucketFactory memory) : DependencyState :=
  ⟨s.runtimeSignature, s.factories.length, factory.isRedisBacked s.cache.client⟩

/-- `_build_dependency_state` from the factory on, and the `setattr` after it. -/
def install (factory : KeyedBucketFactory memory) : App memory redis :=
  { s with
    factories := s.factories ++ [factory]
    state := some (s.dependencyState factory) }

def addCall (call : Call) : App memory redis := { s with calls := s.calls ++ [call] }

def setCall (i : ℕ) (call : Call) : App memory redis := { s with calls := s.calls.set i call }

/-- `create_for_runtime` up to its first await. -/
def beginBuild (r : Request) : App memory redis :=
  if s.cache.configured then s.addCall (.building r)
  else
    let factory := .inMemory s.config.rate
    (s.install factory).addCall (.ready r (s.dependencyState factory))

/-- `__call__` up to its first await. -/
def begin (r : Request) : App memory redis :=
  if s.config.rateLimitEnabled then
    match s.state with
    | some state =>
      if state.runtimeSignature = s.runtimeSignature then s.addCall (.ready r state)
      else s.beginBuild r
    | none => s.beginBuild r
  else s.addCall (.passed r none s.clock)

/-- The build goes on after `RedisBucket.init`, which returns a bucket with its script hash or
raises. -/
def bootstrapped (i : ℕ) (reply : Except RedisError String) : App memory redis :=
  match s.calls[i]? with
  | some (.building r) =>
    match reply with
    | .ok scriptHash =>
      let factory := .redisBacked s.config.rate scriptHash
      (s.install factory).setCall i (.ready r (s.dependencyState factory))
    | .error _ =>
      let s := { s with cache := s.cache.markUnavailable }
      let factory := .inMemory s.config.rate
      (s.install factory).setCall i (.ready r (s.dependencyState factory))
  | _ => s

/-- An exception from the limiter. -/
def limiterFails (i : ℕ) (state : DependencyState) : App memory redis :=
  if state.redisBacked then
    { s with cache := s.cache.markUnavailable }.setCall i (.denied rateLimitExceeded)
  else s.setCall i .raised

/-- The item reaches its bucket. -/
def putInto (i : ℕ) (r : Request) (state : DependencyState) (factory : KeyedBucketFactory memory)
    (bucket : Bucket memory) : App memory redis :=
  match bucket with
  | .redis key =>
    let (admitted, st) :=
      redis.put factory.rate s.clock ((s.redisBuckets.get? key).getD redis.empty)
    { s with
      redisBuckets := s.redisBuckets.set key st
      factories := s.factories.set state.factory factory }.setCall i
        (.sent r state (.redis key) s.clock admitted)
  | .memory st =>
    let (admitted, st) := memory.put factory.rate s.clock st
    let factory := { factory with buckets := factory.buckets.set r.name (.memory st) }
    { s with factories := s.factories.set state.factory factory }.setCall i
      (.sent r state (.memory state.factory r.name) s.clock admitted)

theorem putInto_redis (i : ℕ) (r : Request) (state : DependencyState)
    (factory : KeyedBucketFactory memory) (key : String) :
    s.putInto i r state factory (.redis key) =
      let put := redis.put factory.rate s.clock ((s.redisBuckets.get? key).getD redis.empty)
      { s with
        redisBuckets := s.redisBuckets.set key put.2
        factories := s.factories.set state.factory factory }.setCall i
          (.sent r state (.redis key) s.clock put.1) := rfl

theorem putInto_memory (i : ℕ) (r : Request) (state : DependencyState)
    (factory : KeyedBucketFactory memory) (st : memory.State) :
    s.putInto i r state factory (.memory st) =
      let put := memory.put factory.rate s.clock st
      { s with
        factories := s.factories.set state.factory
          { factory with buckets := factory.buckets.set r.name (.memory put.2) } }.setCall i
        (.sent r state (.memory state.factory r.name) s.clock put.1) := rfl

/-- `try_acquire_async` up to the answer of the bucket. -/
def put (i : ℕ) : App memory redis :=
  match s.calls[i]? with
  | some (.ready r state) =>
    if r.skipLimiter then s.setCall i (.passed r none s.clock)
    else
      match s.factories[state.factory]? with
      | none => s
      | some factory =>
        match factory.get s.cache.client r.name with
        | none => s.limiterFails i state
        | some (bucket, factory) => s.putInto i r state factory bucket
  | _ => s

/-- The answer of the bucket is there. -/
def answer (i : ℕ) : App memory redis :=
  match s.calls[i]? with
  | some (.sent r _ counter time admitted) =>
    s.setCall i (if admitted then .passed r (some counter) time else .denied rateLimitExceeded)
  | _ => s

/-- The limiter raises, before or after the item has reached the bucket. -/
def fail (i : ℕ) : App memory redis :=
  match s.calls[i]? with
  | some (.ready _ state) | some (.sent _ state _ _ _) => s.limiterFails i state
  | _ => s

end App

/-- A call begins or goes on, the cache service is called, or time passes. -/
inductive Event where
  | begin (r : Request)
  | bootstrapped (call : ℕ) (reply : Except RedisError String)
  | put (call : ℕ)
  | answer (call : ℕ)
  | fail (call : ℕ)
  | cache (call : CacheCall)
  | tick (milliseconds : ℕ)

def App.step {memory redis : RateBucket} (s : App memory redis) : Event → App memory redis
  | .begin r => s.begin r
  | .bootstrapped i reply => s.bootstrapped i reply
  | .put i => s.put i
  | .answer i => s.answer i
  | .fail i => s.fail i
  | .cache call => { s with cache := call.run s.cache }
  | .tick d => { s with clock := s.clock + d }

end RateLimit

end AranesLms
