import AranesLms.Auth.Revocation
import AranesLms.Lib.Transition

/-!
# Staleness across workers

`is_token_revoked` and `revoke_token` of `src/auth/service.py` in any number of worker processes
that share a database and a Redis.  A call runs to its end before the next one starts, but time
passes between the points where it reads the clock; Redis operations may fail silently, Redis may
drop entries early, and local entries may be evicted at any time.

A "not revoked" in one of the caches can outlive a revocation.  `Covered` bounds how long: in Redis
until the longest time such an entry is kept there, and in a local cache, which may have copied it
from Redis in the last moment, for one more time to live.  From then on, and until the expiry that
the revocation has recorded, every call of `is_token_revoked` returns `True`
(`bounded_staleness`).
-/

namespace AranesLms

variable {τ : Type}

/-- What identifies a revocation: the `jti` of a token that can be decoded, which no other token
has, or a hash of its text. -/
inductive RevocationKey (τ : Type) where
  | jti (t : τ)
  | raw (t : τ)
  deriving DecidableEq

def RevocationKey.token : RevocationKey τ → τ
  | .jti t | .raw t => t

/-- `_resolve_revocation_identity`, given the expiry of each token that is a valid JWT before it:
the key and the expiry. -/
def resolveRevocationIdentity (exp : τ → Option ℕ) (t : τ) (now : ℕ) : RevocationKey τ × ℕ :=
  match exp t with
  | some tokenExp =>
    if now < tokenExp then (.jti t, tokenExp) else (.raw t, now + fallbackRawTokenTtl)
  | none => (.raw t, now + fallbackRawTokenTtl)

theorem resolveRevocationIdentity_token (exp : τ → Option ℕ) (t : τ) (now : ℕ) :
    (resolveRevocationIdentity exp t now).1.token = t := by
  unfold resolveRevocationIdentity
  split
  · split_ifs <;> rfl
  · rfl

/-- A token keeps its identity until its expiry, which is never brought forward. -/
theorem resolveRevocationIdentity_mono {exp : τ → Option ℕ} {t : τ} {m n : ℕ} (hmn : m ≤ n)
    (hn : n < (resolveRevocationIdentity exp t m).2) :
    (resolveRevocationIdentity exp t n).1 = (resolveRevocationIdentity exp t m).1 ∧
      (resolveRevocationIdentity exp t m).2 ≤ (resolveRevocationIdentity exp t n).2 := by
  unfold resolveRevocationIdentity at hn ⊢
  cases hexp : exp t with
  | none => exact ⟨rfl, Nat.add_le_add_right hmn _⟩
  | some tokenExp =>
    simp only [hexp] at hn ⊢
    by_cases hm : m < tokenExp
    · rw [if_pos hm] at hn
      simp [hm, show n < tokenExp from hn]
    · have hn' : ¬ n < tokenExp := by omega
      simp [hm, hn', hmn]

/-- The payload of a Redis entry, and when Redis drops it at the latest. -/
structure RedisEntry where
  revoked : Bool
  expiresAt : ℕ
  dropAt : ℕ

/-- A revocation that has completed, with the time of its completion and what it recorded. -/
structure Revocation (τ : Type) where
  token : τ
  key : RevocationKey τ
  time : ℕ
  expiry : ℕ

/-- A check that has completed, with the clock value it has read. -/
structure Answer (τ : Type) where
  token : τ
  now : ℕ
  revoked : Bool

/-- The workers and what they share; `revocations` and `answers` record the completed calls. -/
structure Cluster (τ : Type) where
  clock : ℕ
  rows : RevokedRows (RevocationKey τ)
  redis : RevocationKey τ → Option RedisEntry
  caches : ℕ → RevocationCache (RevocationKey τ)
  cleanupDueAt : ℕ → Option ℕ
  revocations : List (Revocation τ)
  answers : List (Answer τ)

/-- What the environment decides about a call: the time that passes between its clock readings
and before its last Redis operation, and which of its Redis operations fail. -/
structure CallEnv where
  d₀ : ℕ
  d₁ : ℕ
  d₂ : ℕ
  getFails : Bool
  deleteFails : Bool
  setFails : Bool

inductive ClusterEvent (τ : Type) where
  | tick (d : ℕ)
  | evict (worker : ℕ) (key : RevocationKey τ)
  | drop (key : RevocationKey τ)
  | check (worker : ℕ) (t : τ) (env : CallEnv)
  | revoke (worker : ℕ) (t : τ) (env : CallEnv)

namespace Cluster

/-- Workers that start, on the rows that are stored. -/
def start (clock : ℕ) (rows : RevokedRows (RevocationKey τ)) : Cluster τ :=
  ⟨clock, rows, fun _ => none, fun _ => ∅, fun _ => none, [], []⟩

section Steps

variable [DecidableEq τ] (ttl : CacheTtl) (exp : τ → Option ℕ) (s : Cluster τ)

def tick (d : ℕ) : Cluster τ := { s with clock := s.clock + d }

def setCache (w : ℕ) (cache : RevocationCache (RevocationKey τ)) : Cluster τ :=
  { s with caches := Function.update s.caches w cache }

def setRedis (k : RevocationKey τ) (e : Option RedisEntry) : Cluster τ :=
  { s with redis := Function.update s.redis k e }

/-- `_cache_revocation_status` in a worker. -/
def cacheStatus (w : ℕ) (k : RevocationKey τ) (revoked : Bool) (now expiresAt : ℕ) : Cluster τ :=
  s.setCache w (cacheRevocationStatus ttl (s.caches w) k revoked now expiresAt)

/-- The look into the local cache in `is_token_revoked`. -/
def localStatus (w : ℕ) (k : RevocationKey τ) (now : ℕ) : Option Bool × Cluster τ :=
  match (s.caches w).get? k with
  | some (cachedRevoked, cachedUntil) =>
    if now < cachedUntil then (some cachedRevoked, s.setCache w ((s.caches w).moveToEnd k))
    else (none, s.setCache w ((s.caches w).pop k))
  | none => (none, s)

/-- `_get_cached_revocation_status`. -/
def getCachedRevocationStatus (k : RevocationKey τ) (now : ℕ) (env : CallEnv) :
    Option Bool × Cluster τ :=
  if env.getFails then (none, s)
  else
    match s.redis k with
    | none => (none, s)
    | some e =>
      if e.dropAt ≤ s.clock then (none, s)
      else if e.expiresAt ≤ now then (none, if env.deleteFails then s else s.setRedis k none)
      else (some e.revoked, s)

/-- `_set_cached_revocation_status`; Redis counts the time to live in whole seconds. -/
def setCachedRevocationStatus (k : RevocationKey τ) (revoked : Bool) (now expiresAt : ℕ)
    (env : CallEnv) : Cluster τ :=
  let ttlSeconds := max ((cacheUntil ttl revoked now expiresAt - now) / second) 1
  if env.setFails then s
  else s.setRedis k (some ⟨revoked, expiresAt, s.clock + ttlSeconds * second⟩)

/-- The end of `is_token_revoked` with an answer of its own: both caches get it. -/
def cacheAnswer (w : ℕ) (k : RevocationKey τ) (revoked : Bool) (now expiresAt : ℕ)
    (env : CallEnv) : Cluster τ :=
  ((s.cacheStatus ttl w k revoked now expiresAt).tick env.d₂).setCachedRevocationStatus ttl k
    revoked now expiresAt env

/-- The part of `is_token_revoked` that asks the database. -/
def selectStatus (w : ℕ) (k : RevocationKey τ) (now tokenExp : ℕ) (env : CallEnv) :
    Bool × Cluster τ :=
  match s.rows k with
  | none => (false, s.cacheAnswer ttl w k false now tokenExp env)
  | some expiresAt =>
    if expiresAt ≤ now then
      (false, { s with rows := Function.update s.rows k none }.cacheAnswer ttl w k false now
        tokenExp env)
    else (true, s.cacheAnswer ttl w k true now expiresAt env)

/-- The part of `is_token_revoked` behind a miss in the local cache. -/
def sharedStatus (w : ℕ) (k : RevocationKey τ) (now tokenExp : ℕ) (env : CallEnv) :
    Bool × Cluster τ :=
  match s.getCachedRevocationStatus k now env with
  | (some redisCached, s) => (redisCached, s.cacheStatus ttl w k redisCached now tokenExp)
  | (none, s) => s.selectStatus ttl w k now tokenExp env

/-- `is_token_revoked` from its second clock reading on. -/
def revocationStatus (w : ℕ) (k : RevocationKey τ) (tokenExp : ℕ) (env : CallEnv) :
    Bool × Cluster τ :=
  match s.localStatus w k s.clock with
  | (some cached, s') => (cached, s')
  | (none, s') => (s'.tick env.d₁).sharedStatus ttl w k s.clock tokenExp env

/-- `is_token_revoked`: what it returns, with the clock value that it has read, and the workers
afterwards. -/
def isTokenRevoked (w : ℕ) (t : τ) (env : CallEnv) : Answer τ × Cluster τ :=
  let (k, tokenExp) := resolveRevocationIdentity exp t s.clock
  let (revoked, s') := (s.tick env.d₀).revocationStatus ttl w k tokenExp env
  let a := ⟨t, (s.tick env.d₀).clock, revoked⟩
  (a, { s' with answers := a :: s'.answers })

/-- The transaction of `_store_revoked_jti`. -/
def store (w : ℕ) (k : RevocationKey τ) (expiresAt : ℕ) : Cluster τ :=
  let (rows, dueAt) := storeRevokedJti s.rows (s.cleanupDueAt w) k expiresAt s.clock
  { s with rows, cleanupDueAt := Function.update s.cleanupDueAt w dueAt }

/-- `revoke_token`: what it has recorded and when it returns, and the workers afterwards. -/
def revokeToken (w : ℕ) (t : τ) (env : CallEnv) : Revocation τ × Cluster τ :=
  let (k, expiresAt) := resolveRevocationIdentity exp t s.clock
  let s' := ((s.tick env.d₀).store w k expiresAt).tick env.d₁
  let s' := s'.cacheAnswer ttl w k true s'.clock expiresAt env
  let v := ⟨t, k, s'.clock, expiresAt⟩
  (v, { s' with revocations := v :: s'.revocations })

def step : ClusterEvent τ → Cluster τ
  | .tick d => s.tick d
  | .evict w k => s.setCache w ((s.caches w).pop k)
  | .drop k => s.setRedis k none
  | .check w t env => (s.isTokenRevoked ttl exp w t env).2
  | .revoke w t env => (s.revokeToken ttl exp w t env).2

end Steps

variable {ttl : CacheTtl} {exp : τ → Option ℕ} {s : Cluster τ}

/-- The longest time that Redis keeps an entry which says that a token is not revoked. -/
def redisTtl (ttl : CacheTtl) : ℕ := max second ttl.micros

/-! ## The invariant -/

/-- What holds of a revocation until its expiry: its token keeps the key and is not given an
earlier expiry, its row is there, and the entries that deny it are on their way out. -/
structure Covered (ttl : CacheTtl) (exp : τ → Option ℕ) (s : Cluster τ) (v : Revocation τ) :
    Prop where
  identity : ∀ n, s.clock ≤ n → n < v.expiry →
    (resolveRevocationIdentity exp v.token n).1 = v.key ∧
      v.expiry ≤ (resolveRevocationIdentity exp v.token n).2
  row : ∃ e, s.rows v.key = some e ∧ v.expiry ≤ e
  redis : ∀ e, s.redis v.key = some e → e.revoked = false → e.dropAt ≤ v.time + redisTtl ttl
  cache : ∀ w u, (v.key, false, u) ∈ s.caches w → u ≤ v.time + redisTtl ttl + ttl.micros

structure Inv (ttl : CacheTtl) (exp : τ → Option ℕ) (s : Cluster τ) : Prop where
  redis : ∀ k e, s.redis k = some e → e.revoked = false → e.dropAt ≤ s.clock + redisTtl ttl
  cache : ∀ w k u, (k, false, u) ∈ s.caches w → u ≤ s.clock + ttl.micros
  key : ∀ v ∈ s.revocations, v.key.token = v.token
  covered : ∀ v ∈ s.revocations, s.clock < v.expiry → Covered ttl exp s v

theorem inv_start (clock : ℕ) (rows : RevokedRows (RevocationKey τ)) :
    Inv ttl exp (start clock rows) where
  redis := nofun
  cache := fun _ _ _ h => absurd h (OrderedDict.notMem_empty _)
  key := nofun
  covered := nofun

/-! ### Single changes -/

theorem Inv.tick (h : Inv ttl exp s) (d : ℕ) : Inv ttl exp (s.tick d) := by
  have hclock : s.clock ≤ s.clock + d := Nat.le_add_right _ _
  refine ⟨fun k e he hr => ?_, fun w k u hu => ?_, h.key, fun v hv hexp => ?_⟩
  · exact (h.redis k e he hr).trans (Nat.add_le_add_right hclock _)
  · exact (h.cache w k u hu).trans (Nat.add_le_add_right hclock _)
  · obtain ⟨hid, hrow, hredis, hcache⟩ := h.covered v hv (hclock.trans_lt hexp)
    exact ⟨fun n hn => hid n (hclock.trans hn), hrow, hredis, hcache⟩

/-- A local cache may lose entries, and gain ones that deny no revocation for too long. -/
theorem Inv.setCache (h : Inv ttl exp s) {w : ℕ} {cache : RevocationCache (RevocationKey τ)}
    (hcache : ∀ k u, (k, false, u) ∈ cache → (k, false, u) ∈ s.caches w ∨
      u ≤ s.clock + ttl.micros ∧ ∀ v ∈ s.revocations, v.key = k → s.clock < v.expiry →
        u ≤ v.time + redisTtl ttl + ttl.micros) : Inv ttl exp (s.setCache w cache) := by
  have hcases : ∀ w' k u, (k, false, u) ∈ (s.setCache w cache).caches w' →
      (k, false, u) ∈ s.caches w' ∨ u ≤ s.clock + ttl.micros ∧ ∀ v ∈ s.revocations, v.key = k →
        s.clock < v.expiry → u ≤ v.time + redisTtl ttl + ttl.micros := by
    intro w' k u hu
    by_cases hw : w' = w
    · subst hw
      exact hcache k u (by simpa [Cluster.setCache] using hu)
    · exact Or.inl (by simpa [Cluster.setCache, hw] using hu)
  refine ⟨h.redis, fun w' k u hu => ?_, h.key, fun v hv hexp => ?_⟩
  · rcases hcases w' k u hu with hold | ⟨hnew, -⟩
    · exact h.cache w' k u hold
    · exact hnew
  · obtain ⟨hid, hrow, hredis, hcov⟩ := h.covered v hv hexp
    refine ⟨hid, hrow, hredis, fun w' u hu => ?_⟩
    rcases hcases w' v.key u hu with hold | ⟨-, hnew⟩
    · exact hcov w' u hold
    · exact hnew v hv rfl hexp

/-- The table may change if the rows of the revocations stay. -/
theorem Inv.setRows (h : Inv ttl exp s) {rows : RevokedRows (RevocationKey τ)}
    {cleanupDueAt : ℕ → Option ℕ}
    (hrows : ∀ v ∈ s.revocations, s.clock < v.expiry → ∀ e, s.rows v.key = some e → v.expiry ≤ e →
      ∃ e', rows v.key = some e' ∧ v.expiry ≤ e') :
    Inv ttl exp { s with rows, cleanupDueAt } := by
  refine ⟨h.redis, h.cache, h.key, fun v hv hexp => ?_⟩
  obtain ⟨hid, ⟨e, hrow, hle⟩, hredis, hcache⟩ := h.covered v hv hexp
  exact ⟨hid, hrows v hv hexp e hrow hle, hredis, hcache⟩

/-- The record of what has been answered. -/
theorem Inv.addAnswer (h : Inv ttl exp s) (a : Answer τ) :
    Inv ttl exp { s with answers := a :: s.answers } := by
  refine ⟨h.redis, h.cache, h.key, fun v hv hexp => ?_⟩
  obtain ⟨hid, hrow, hredis, hcache⟩ := h.covered v hv hexp
  exact ⟨hid, hrow, hredis, hcache⟩

/-- A revocation that completes now is covered: no entry denies it for longer than an entry lives
that is made now. -/
theorem Inv.addRevocation (h : Inv ttl exp s) {k : RevocationKey τ} {expiry : ℕ}
    (hid : ∀ n, s.clock ≤ n → n < expiry → (resolveRevocationIdentity exp k.token n).1 = k ∧
      expiry ≤ (resolveRevocationIdentity exp k.token n).2)
    (hrow : s.rows k = some expiry) :
    Inv ttl exp { s with revocations := ⟨k.token, k, s.clock, expiry⟩ :: s.revocations } := by
  refine ⟨h.redis, h.cache, ?_, fun v hv hexp => ?_⟩
  · intro v hv
    rcases List.mem_cons.1 hv with rfl | hv
    · rfl
    · exact h.key v hv
  · rcases List.mem_cons.1 hv with rfl | hv
    · refine ⟨hid, ⟨expiry, hrow, le_refl _⟩, h.redis k, fun w u hu => ?_⟩
      have huntil := h.cache w k u hu
      show u ≤ s.clock + redisTtl ttl + ttl.micros
      omega
    · obtain ⟨hid', hrow', hredis', hcache'⟩ := h.covered v hv hexp
      exact ⟨hid', hrow', hredis', hcache'⟩

/-! ### Parts of a call -/

variable [DecidableEq τ]

/-- Redis may lose an entry, and gain one that denies no revocation for too long. -/
theorem Inv.setRedis (h : Inv ttl exp s) {k : RevocationKey τ}
    {e : Option RedisEntry}
    (he : ∀ e', e = some e' → e'.revoked = false → e'.dropAt ≤ s.clock + redisTtl ttl ∧
      ∀ v ∈ s.revocations, v.key = k → s.clock < v.expiry → e'.dropAt ≤ v.time + redisTtl ttl) :
    Inv ttl exp (s.setRedis k e) := by
  have hcases : ∀ k' e', (s.setRedis k e).redis k' = some e' →
      s.redis k' = some e' ∨ k' = k ∧ e = some e' := by
    intro k' e' he'
    by_cases hk : k' = k
    · subst hk
      exact Or.inr ⟨rfl, by simpa [Cluster.setRedis] using he'⟩
    · exact Or.inl (by simpa [Cluster.setRedis, hk] using he')
  refine ⟨fun k' e' he' hr => ?_, h.cache, h.key, fun v hv hexp => ?_⟩
  · rcases hcases k' e' he' with hold | ⟨-, hnew⟩
    · exact h.redis k' e' hold hr
    · exact (he e' hnew hr).1
  · obtain ⟨hid, hrow, hredis, hcache⟩ := h.covered v hv hexp
    refine ⟨hid, hrow, fun e' he' hr => ?_, hcache⟩
    rcases hcases v.key e' he' with hold | ⟨hk, hnew⟩
    · exact hredis e' hold hr
    · exact (he e' hnew hr).2 v hv hk hexp

/-- A worker may cache that a token is revoked. -/
theorem Inv.cacheStatus_true (h : Inv ttl exp s) (w : ℕ) (k : RevocationKey τ)
    (now expiresAt : ℕ) : Inv ttl exp (s.cacheStatus ttl w k true now expiresAt) := by
  refine h.setCache fun k' u hu => ?_
  rcases mem_cacheRevocationStatus hu with ⟨hold, -⟩ | hnew
  · exact Or.inl hold
  · cases hnew

/-- A worker may cache that a token is not revoked if no revocation that is in force forbids it. -/
theorem Inv.cacheStatus_false (h : Inv ttl exp s) {w : ℕ} {k : RevocationKey τ} {now : ℕ}
    (expiresAt : ℕ) (hnow : now ≤ s.clock)
    (hfree : ∀ v ∈ s.revocations, v.key = k → s.clock < v.expiry → now ≤ v.time + redisTtl ttl) :
    Inv ttl exp (s.cacheStatus ttl w k false now expiresAt) := by
  refine h.setCache fun k' u hu => ?_
  rcases mem_cacheRevocationStatus hu with ⟨hold, -⟩ | hnew
  · exact Or.inl hold
  · cases hnew
    have hle : cacheUntil ttl false now expiresAt ≤ now + ttl.micros := min_le_right _ _
    refine Or.inr ⟨by omega, fun v hv hk hexp => ?_⟩
    have := hfree v hv hk hexp
    omega

/-- An answer is cached by the worker, and in Redis too unless the command fails. -/
theorem cacheAnswer_cases (s : Cluster τ) (w : ℕ) (k : RevocationKey τ) (revoked : Bool)
    (now expiresAt : ℕ) (env : CallEnv) :
    s.cacheAnswer ttl w k revoked now expiresAt env =
        (s.cacheStatus ttl w k revoked now expiresAt).tick env.d₂ ∨
      s.cacheAnswer ttl w k revoked now expiresAt env =
        ((s.cacheStatus ttl w k revoked now expiresAt).tick env.d₂).setRedis k
          (some ⟨revoked, expiresAt, s.clock + env.d₂ +
            max ((cacheUntil ttl revoked now expiresAt - now) / second) 1 * second⟩) := by
  unfold Cluster.cacheAnswer Cluster.setCachedRevocationStatus
  dsimp only
  split_ifs
  · exact Or.inl rfl
  · exact Or.inr rfl

theorem Inv.cacheAnswer_true (h : Inv ttl exp s) (w : ℕ) (k : RevocationKey τ)
    (now expiresAt : ℕ) (env : CallEnv) :
    Inv ttl exp (s.cacheAnswer ttl w k true now expiresAt env) := by
  have hlocal := (h.cacheStatus_true w k now expiresAt).tick env.d₂
  rcases s.cacheAnswer_cases w k true now expiresAt env with heq | heq
  · rw [heq]
    exact hlocal
  · rw [heq]
    refine hlocal.setRedis fun e' he' hr => ?_
    cases he'
    cases hr

omit [DecidableEq τ] in
/-- Redis counts in whole seconds, of which an entry lives at least one. -/
theorem redis_lifetime_le (now expiresAt : ℕ) :
    max ((cacheUntil ttl false now expiresAt - now) / second) 1 * second ≤ redisTtl ttl := by
  have hle : cacheUntil ttl false now expiresAt ≤ now + ttl.micros := min_le_right _ _
  have hdiv := Nat.div_mul_le_self (cacheUntil ttl false now expiresAt - now) second
  rcases le_total ((cacheUntil ttl false now expiresAt - now) / second) 1 with hone | hone
  · rw [max_eq_right hone, Nat.one_mul]
    exact le_max_left _ _
  · rw [max_eq_left hone]
    exact le_trans (by omega) (le_max_right second ttl.micros)

/-- Both caches may get the answer that a token without a row is not revoked. -/
theorem Inv.cacheAnswer_false (h : Inv ttl exp s) {w : ℕ} {k : RevocationKey τ} {now : ℕ}
    (expiresAt : ℕ) (env : CallEnv) (hnow : now ≤ s.clock) (hrow : s.rows k = none) :
    Inv ttl exp (s.cacheAnswer ttl w k false now expiresAt env) := by
  have hfree : ∀ v ∈ s.revocations, v.key = k → ¬ s.clock < v.expiry := by
    rintro v hv rfl hexp
    obtain ⟨e, he, -⟩ := (h.covered v hv hexp).row
    rw [hrow] at he
    cases he
  have hlocal := (h.cacheStatus_false (w := w) expiresAt hnow
    fun v hv hk hexp => absurd hexp (hfree v hv hk)).tick env.d₂
  rcases s.cacheAnswer_cases w k false now expiresAt env with heq | heq
  · rw [heq]
    exact hlocal
  · rw [heq]
    refine hlocal.setRedis fun e' he' hr => ?_
    cases he'
    refine ⟨Nat.add_le_add_left (redis_lifetime_le now expiresAt) _, fun v hv hk hexp => ?_⟩
    have hclock : s.clock ≤ s.clock + env.d₂ := Nat.le_add_right _ _
    exact absurd (hclock.trans_lt hexp) (hfree v hv hk)

/-! ### Checks -/

/-- The local cache answers, or it has no entry of the token that is valid. -/
theorem localStatus_cases (s : Cluster τ) (w : ℕ) (k : RevocationKey τ) (now : ℕ) :
    (∃ revoked u cache, (k, revoked, u) ∈ s.caches w ∧ now < u ∧ (∀ e ∈ cache, e ∈ s.caches w) ∧
      s.localStatus w k now = (some revoked, s.setCache w cache)) ∨
    ∃ cache, (∀ revoked u, (k, revoked, u) ∈ s.caches w → u ≤ now) ∧
      (∀ e ∈ cache, e ∈ s.caches w) ∧ s.localStatus w k now = (none, s.setCache w cache) := by
  unfold Cluster.localStatus
  cases hget : (s.caches w).get? k with
  | none =>
    refine Or.inr ⟨s.caches w, fun revoked u hu => ?_, fun _ he => he, by simp [Cluster.setCache]⟩
    cases hget.symm.trans ((s.caches w).get?_eq_some.2 hu)
  | some c =>
    obtain ⟨revoked, u⟩ := c
    have hmem := (s.caches w).get?_eq_some.1 hget
    by_cases hvalid : now < u
    · exact Or.inl ⟨revoked, u, _, hmem, hvalid, fun e he => (s.caches w).mem_moveToEnd.1 he,
        if_pos hvalid⟩
    · refine Or.inr ⟨_, fun revoked' u' hu => ?_, fun e he => ((s.caches w).mem_pop.1 he).1,
        if_neg hvalid⟩
      cases hget.symm.trans ((s.caches w).get?_eq_some.2 hu)
      exact Nat.le_of_not_lt hvalid

theorem getCachedRevocationStatus_hit {s : Cluster τ} {k : RevocationKey τ} {now : ℕ}
    {env : CallEnv} {e : RedisEntry} (hget : env.getFails = false) (hredis : s.redis k = some e)
    (hdrop : s.clock < e.dropAt) (hexpired : now < e.expiresAt) :
    s.getCachedRevocationStatus k now env = (some e.revoked, s) := by
  simp [Cluster.getCachedRevocationStatus, hget, hredis, Nat.not_le.2 hdrop,
    Nat.not_le.2 hexpired]

theorem getCachedRevocationStatus_eq (s : Cluster τ) (k : RevocationKey τ) (now : ℕ)
    (env : CallEnv) :
    (∃ e, (env.getFails = false ∧ s.redis k = some e ∧ s.clock < e.dropAt ∧ now < e.expiresAt) ∧
      s.getCachedRevocationStatus k now env = (some e.revoked, s)) ∨
    s.getCachedRevocationStatus k now env = (none, s) ∨
    s.getCachedRevocationStatus k now env = (none, s.setRedis k none) := by
  cases hfails : env.getFails with
  | true => exact Or.inr (Or.inl (by simp [Cluster.getCachedRevocationStatus, hfails]))
  | false =>
    cases hredis : s.redis k with
    | none => exact Or.inr (Or.inl (by simp [Cluster.getCachedRevocationStatus, hredis]))
    | some e =>
      rcases Nat.lt_or_ge s.clock e.dropAt with hdrop | hdrop
      · rcases Nat.lt_or_ge now e.expiresAt with hexpired | hexpired
        · exact Or.inl ⟨e, ⟨rfl, rfl, hdrop, hexpired⟩,
            getCachedRevocationStatus_hit hfails hredis hdrop hexpired⟩
        · refine Or.inr ?_
          cases hdelete : env.deleteFails with
          | true =>
            exact Or.inl (by simp [Cluster.getCachedRevocationStatus, hredis, hexpired, hdelete])
          | false =>
            exact Or.inr (by simp [Cluster.getCachedRevocationStatus, hfails, hredis, hexpired,
              Nat.not_le.2 hdrop, hdelete])
      · exact Or.inr (Or.inl (by simp [Cluster.getCachedRevocationStatus, hredis, hdrop]))

theorem Inv.selectStatus (h : Inv ttl exp s) (w : ℕ) (k : RevocationKey τ) {now : ℕ}
    (tokenExp : ℕ) (env : CallEnv) (hnow : now ≤ s.clock) :
    Inv ttl exp (s.selectStatus ttl w k now tokenExp env).2 := by
  unfold Cluster.selectStatus
  cases hrow : s.rows k with
  | none => exact h.cacheAnswer_false tokenExp env hnow hrow
  | some expiresAt =>
    dsimp only
    split_ifs with hexpired
    · -- a revocation that is in force has not expired, so the row that goes is not its own
      have hdelete : Inv ttl exp { s with rows := Function.update s.rows k none } := by
        refine h.setRows fun v hv hexp e he hle => ⟨e, ?_, hle⟩
        have hne : v.key ≠ k := by
          rintro rfl
          rw [hrow] at he
          cases he
          omega
        rw [Function.update_of_ne hne, he]
      exact hdelete.cacheAnswer_false tokenExp env hnow (Function.update_self _ _ _)
    · exact h.cacheAnswer_true w k now expiresAt env

theorem Inv.sharedStatus (h : Inv ttl exp s) (w : ℕ) (k : RevocationKey τ) {now : ℕ}
    (tokenExp : ℕ) (env : CallEnv) (hnow : now ≤ s.clock) :
    Inv ttl exp (s.sharedStatus ttl w k now tokenExp env).2 := by
  unfold Cluster.sharedStatus
  rcases getCachedRevocationStatus_eq s k now env with ⟨e, ⟨-, hredis, hdrop, -⟩, heq⟩ | heq | heq
  · rw [heq]
    cases hrevoked : e.revoked with
    | true => exact h.cacheStatus_true w k now tokenExp
    | false =>
      refine h.cacheStatus_false tokenExp hnow ?_
      rintro v hv rfl hexp
      have hdropAt := (h.covered v hv hexp).redis e hredis hrevoked
      omega
  · rw [heq]
    exact h.selectStatus w k tokenExp env hnow
  · rw [heq]
    exact (h.setRedis (k := k) (e := none) nofun).selectStatus w k tokenExp env hnow

/-- Where the answer that a token is not revoked comes from. -/
theorem sharedStatus_false {w : ℕ} {k : RevocationKey τ} {now tokenExp : ℕ} {env : CallEnv}
    (hfalse : (s.sharedStatus ttl w k now tokenExp env).1 = false) :
    (∃ e, s.redis k = some e ∧ e.revoked = false ∧ s.clock < e.dropAt) ∨ s.rows k = none ∨
      ∃ e, s.rows k = some e ∧ e ≤ now := by
  have hselect : ∀ s' : Cluster τ, s'.rows = s.rows →
      (s'.selectStatus ttl w k now tokenExp env).1 = false →
        s.rows k = none ∨ ∃ e, s.rows k = some e ∧ e ≤ now := by
    intro s' hrows hfalse
    rw [← hrows]
    unfold Cluster.selectStatus at hfalse
    cases hrow : s'.rows k with
    | none => exact Or.inl rfl
    | some e =>
      refine Or.inr ⟨e, rfl, ?_⟩
      by_contra hle
      simp [hrow, hle] at hfalse
  unfold Cluster.sharedStatus at hfalse
  rcases getCachedRevocationStatus_eq s k now env with ⟨e, ⟨-, hredis, hdrop, -⟩, heq⟩ | heq | heq
  · rw [heq] at hfalse
    exact Or.inl ⟨e, hredis, hfalse, hdrop⟩
  · rw [heq] at hfalse
    exact Or.inr (hselect s rfl hfalse)
  · rw [heq] at hfalse
    exact Or.inr (hselect (s.setRedis k none) rfl hfalse)

/-- What a call leaves alone: the completed revocations; and the clock does not run backwards. -/
structure Frame (s s' : Cluster τ) : Prop where
  clock : s.clock ≤ s'.clock
  revocations : s'.revocations = s.revocations

omit [DecidableEq τ] in
theorem Frame.trans {s s' s'' : Cluster τ} (h : Frame s s') (h' : Frame s' s'') : Frame s s'' :=
  ⟨h.clock.trans h'.clock, h'.revocations.trans h.revocations⟩

theorem frame_cacheAnswer (s : Cluster τ) (w : ℕ) (k : RevocationKey τ) (revoked : Bool)
    (now expiresAt : ℕ) (env : CallEnv) :
    Frame s (s.cacheAnswer ttl w k revoked now expiresAt env) := by
  have hclock : s.clock ≤ s.clock + env.d₂ := Nat.le_add_right _ _
  rcases s.cacheAnswer_cases w k revoked now expiresAt env with heq | heq
  · rw [heq]
    exact ⟨hclock, rfl⟩
  · rw [heq]
    exact ⟨hclock, rfl⟩

theorem frame_selectStatus (s : Cluster τ) (w : ℕ) (k : RevocationKey τ) (now tokenExp : ℕ)
    (env : CallEnv) : Frame s (s.selectStatus ttl w k now tokenExp env).2 := by
  unfold Cluster.selectStatus
  split
  · exact frame_cacheAnswer ..
  · split_ifs
    · have hdelete : Frame s { s with rows := Function.update s.rows k none } := ⟨le_refl _, rfl⟩
      exact hdelete.trans (frame_cacheAnswer ..)
    · exact frame_cacheAnswer ..

theorem frame_sharedStatus (s : Cluster τ) (w : ℕ) (k : RevocationKey τ) (now tokenExp : ℕ)
    (env : CallEnv) : Frame s (s.sharedStatus ttl w k now tokenExp env).2 := by
  unfold Cluster.sharedStatus
  rcases getCachedRevocationStatus_eq s k now env with ⟨e, -, heq⟩ | heq | heq
  · rw [heq]
    exact ⟨le_refl _, rfl⟩
  · rw [heq]
    exact frame_selectStatus ..
  · have hdelete : Frame s (s.setRedis k none) := ⟨le_refl _, rfl⟩
    rw [heq]
    exact hdelete.trans (frame_selectStatus ..)

theorem frame_revocationStatus (s : Cluster τ) (w : ℕ) (k : RevocationKey τ) (tokenExp : ℕ)
    (env : CallEnv) : Frame s (s.revocationStatus ttl w k tokenExp env).2 := by
  have hclock : s.clock ≤ s.clock + env.d₁ := Nat.le_add_right _ _
  unfold Cluster.revocationStatus
  rcases localStatus_cases s w k s.clock with
    ⟨cached, u, cache, -, -, -, hlocal⟩ | ⟨cache, -, -, hlocal⟩
  · rw [hlocal]
    exact ⟨le_refl _, rfl⟩
  · have hmiss : Frame s ((s.setCache w cache).tick env.d₁) := ⟨hclock, rfl⟩
    rw [hlocal]
    exact hmiss.trans (frame_sharedStatus ..)

/-- A check keeps the invariant, and once the stale entries are gone it answers that a token is
revoked. -/
theorem Inv.revocationStatus (h : Inv ttl exp s) (w : ℕ) (k : RevocationKey τ) (tokenExp : ℕ)
    (env : CallEnv) :
    Inv ttl exp (s.revocationStatus ttl w k tokenExp env).2 ∧
      ∀ v ∈ s.revocations, v.key = k → v.time + ttl.micros + redisTtl ttl ≤ s.clock →
        s.clock < v.expiry → (s.revocationStatus ttl w k tokenExp env).1 = true := by
  unfold Cluster.revocationStatus
  rcases localStatus_cases s w k s.clock with
    ⟨cached, u, cache, hu, hvalid, hsub, hlocal⟩ | ⟨cache, -, hsub, hlocal⟩
  · rw [hlocal]
    refine ⟨h.setCache fun k' u hu => Or.inl (hsub _ hu), ?_⟩
    rintro v hv rfl hlow hexp
    cases cached with
    | true => rfl
    | false =>
      have huntil := (h.covered v hv hexp).cache w u hu
      omega
  · have hs : Inv ttl exp (s.setCache w cache) := h.setCache fun k' u hu => Or.inl (hsub _ hu)
    have hclock : s.clock ≤ s.clock + env.d₁ := Nat.le_add_right _ _
    have hs' : Inv ttl exp ((s.setCache w cache).tick env.d₁) := hs.tick _
    rw [hlocal]
    refine ⟨hs'.sharedStatus w k tokenExp env hclock, ?_⟩
    rintro v hv rfl hlow hexp
    obtain ⟨-, ⟨e, hrow, hle⟩, hredis, -⟩ := h.covered v hv hexp
    by_contra hfalse
    have hfalse' : (((s.setCache w cache).tick env.d₁).sharedStatus ttl w v.key s.clock tokenExp
        env).1 = false := (Bool.not_eq_true _).mp hfalse
    rcases sharedStatus_false hfalse' with ⟨e', he', hrevoked, hdrop⟩ | hnone | ⟨e', he', hexpired⟩
    · have hdropAt := hredis e' he' hrevoked
      exact absurd (hclock.trans_lt hdrop) (by omega)
    · cases hrow.symm.trans hnone
    · cases hrow.symm.trans he'
      omega

/-- A check keeps the invariant, and answers `True` once the stale entries of a revocation of the
token are gone. -/
theorem Inv.isTokenRevoked (h : Inv ttl exp s) (w : ℕ) (t : τ) (env : CallEnv) :
    Inv ttl exp (s.isTokenRevoked ttl exp w t env).2 ∧
      ∀ v ∈ s.revocations, v.token = t →
        v.time + ttl.micros + redisTtl ttl ≤ (s.isTokenRevoked ttl exp w t env).1.now →
        (s.isTokenRevoked ttl exp w t env).1.now < v.expiry →
        (s.isTokenRevoked ttl exp w t env).1.revoked = true := by
  have hclock : s.clock ≤ s.clock + env.d₀ := Nat.le_add_right _ _
  obtain ⟨hinv, hanswer⟩ := (h.tick env.d₀).revocationStatus w
    (resolveRevocationIdentity exp t s.clock).1 (resolveRevocationIdentity exp t s.clock).2 env
  refine ⟨hinv.addAnswer _, ?_⟩
  rintro v hv rfl hlow hexp
  have hid := (h.covered v hv (hclock.trans_lt hexp)).identity s.clock (le_refl _)
    (hclock.trans_lt hexp)
  exact hanswer v hv hid.1.symm hlow hexp

/-! ### Revocations -/

theorem Inv.store (h : Inv ttl exp s) (w : ℕ) {k : RevocationKey τ} {expiresAt : ℕ}
    (hk : ∀ v ∈ s.revocations, v.key = k → s.clock < v.expiry → v.expiry ≤ expiresAt) :
    Inv ttl exp (s.store w k expiresAt) := by
  refine h.setRows fun v hv hexp e he hle => ?_
  by_cases hkey : v.key = k
  · rw [hkey]
    exact ⟨expiresAt, storeRevokedJti_self, hk v hv hkey hexp⟩
  · have hother : (s.store w k expiresAt).rows v.key = s.rows v.key ∨
        (s.store w k expiresAt).rows v.key = none ∧ ∃ e, s.rows v.key = some e ∧ e ≤ s.clock :=
      storeRevokedJti_of_ne hkey
    rcases hother with hsame | ⟨-, e', he', hold⟩
    · exact ⟨e, hsame.trans he, hle⟩
    · cases he.symm.trans he'
      omega

theorem rows_cacheAnswer (s : Cluster τ) (w : ℕ) (k : RevocationKey τ) (revoked : Bool)
    (now expiresAt : ℕ) (env : CallEnv) :
    (s.cacheAnswer ttl w k revoked now expiresAt env).rows = s.rows := by
  rcases s.cacheAnswer_cases w k revoked now expiresAt env with heq | heq
  · rw [heq]
    rfl
  · rw [heq]
    rfl

theorem Inv.revokeToken (h : Inv ttl exp s) (w : ℕ) (t : τ) (env : CallEnv) :
    Inv ttl exp (s.revokeToken ttl exp w t env).2 := by
  obtain ⟨⟨k, expiry⟩, hr⟩ : ∃ r, resolveRevocationIdentity exp t s.clock = r := ⟨_, rfl⟩
  have htoken := resolveRevocationIdentity_token exp t s.clock
  have hmono := fun n => @resolveRevocationIdentity_mono _ exp t s.clock n
  unfold Cluster.revokeToken
  rw [hr] at htoken hmono ⊢
  subst htoken
  have hd₀ : s.clock ≤ s.clock + env.d₀ := Nat.le_add_right _ _
  have hd₁ : s.clock + env.d₀ ≤ s.clock + env.d₀ + env.d₁ := Nat.le_add_right _ _
  have hstore : Inv ttl exp ((s.tick env.d₀).store w k expiry) := by
    refine (h.tick env.d₀).store w fun v hv hk hexp => ?_
    -- the revocation is of the same token, whose expiry is never brought forward
    have hid := (h.covered v hv (hd₀.trans_lt hexp)).identity s.clock (le_refl _)
      (hd₀.trans_lt hexp)
    rw [← h.key v hv, hk, hr] at hid
    exact hid.2
  have hanswer := (hstore.tick env.d₁).cacheAnswer_true w k (s.clock + env.d₀ + env.d₁) expiry env
  refine hanswer.addRevocation (fun n hn hexp => ?_) ?_
  · exact hmono n (hd₀.trans (hd₁.trans ((frame_cacheAnswer ..).clock.trans hn))) hexp
  · rw [rows_cacheAnswer]
    exact storeRevokedJti_self

theorem Inv.step (h : Inv ttl exp s) (e : ClusterEvent τ) : Inv ttl exp (s.step ttl exp e) := by
  cases e with
  | tick d => exact h.tick d
  | evict w k => exact h.setCache fun k' u hu => Or.inl ((s.caches w).mem_pop.1 hu).1
  | drop k => exact h.setRedis nofun
  | check w t env => exact (h.isTokenRevoked w t env).1
  | revoke w t env => exact h.revokeToken w t env

/-! ## Runs -/

theorem revocations_isTokenRevoked (s : Cluster τ) (w : ℕ) (t : τ) (env : CallEnv) :
    (s.isTokenRevoked ttl exp w t env).2.revocations = s.revocations :=
  (frame_revocationStatus ..).revocations

/-- What a revocation has recorded stays recorded. -/
theorem mem_revocations_step {v : Revocation τ} (hv : v ∈ s.revocations) (e : ClusterEvent τ) :
    v ∈ (s.step ttl exp e).revocations := by
  cases e with
  | tick d | evict w k | drop k => exact hv
  | check w t env => exact (revocations_isTokenRevoked s w t env).symm ▸ hv
  | revoke w t env =>
    have hframe := fun k now expiry => @frame_cacheAnswer _ ttl _
      (((s.tick env.d₀).store w k expiry).tick env.d₁) w k true now expiry env
    exact List.mem_cons_of_mem _ ((hframe _ _ _).revocations.symm ▸ hv)

theorem mem_revocations_runFrom {v : Revocation τ} (hv : v ∈ s.revocations)
    (events : List (ClusterEvent τ)) :
    v ∈ (Transition.runFrom (Cluster.step ttl exp) s events).revocations :=
  Transition.runFrom_induct (P := fun s : Cluster τ => v ∈ s.revocations)
    (fun _ e hs => mem_revocations_step hs e) hv events

/-- A call in no time, of which nothing fails. -/
def atOnce : CallEnv := ⟨0, 0, 0, false, false, false⟩

/-- Any number of workers and any order of calls: when a revocation of a token has returned, and
anything has happened since, a check of the token that reads the clock when the time to live of a
local entry and that of a Redis entry are over, and before the recorded expiry, returns `True`. -/
theorem bounded_staleness (ttl : CacheTtl) (exp : τ → Option ℕ) (clock : ℕ)
    (rows : RevokedRows (RevocationKey τ)) (before since : List (ClusterEvent τ)) (w w' : ℕ)
    (t : τ) (env env' : CallEnv) {v : Revocation τ} {a : Answer τ}
    (hrevoke : ((Transition.runFrom (Cluster.step ttl exp) (start clock rows) before).revokeToken
      ttl exp w t env).1 = v)
    (hcheck : ((Transition.runFrom (Cluster.step ttl exp) (start clock rows)
      (before ++ .revoke w t env :: since)).isTokenRevoked ttl exp w' t env').1 = a)
    (hlow : v.time + ttl.micros + max second ttl.micros ≤ a.now) (hexp : a.now < v.expiry) :
    a.revoked = true := by
  subst hrevoke hcheck
  have hinv : Inv ttl exp (Transition.runFrom (Cluster.step ttl exp) (start clock rows)
      (before ++ .revoke w t env :: since)) :=
    Transition.runFrom_induct (P := Inv ttl exp) (fun _ e h => h.step e) (inv_start clock rows) _
  refine (hinv.isTokenRevoked w' t env').2 _ ?_ rfl hlow hexp
  rw [Transition.runFrom_append, Transition.runFrom_cons]
  exact mem_revocations_runFrom List.mem_cons_self since

/-- Worker 1 puts into Redis that the token is not revoked, worker 0 revokes it but does not reach
Redis, and worker 2 copies the old entry in its last moment.  When the copy has run out, worker 2
finds the row. -/
theorem bounded_staleness_copied :
    ((Transition.runFrom (Cluster.step ⟨second, by decide⟩ fun _ : ℕ => none)
      (start 0 fun _ => none)
      ([.check 1 7 atOnce] ++ .revoke 0 7 { atOnce with setFails := true } ::
        [.tick (second - 1), .check 2 7 atOnce, .tick (second + 1)])).isTokenRevoked
      ⟨second, by decide⟩ (fun _ => none) 2 7 atOnce).1.revoked = true :=
  bounded_staleness ⟨second, by decide⟩ (fun _ => none) 0 (fun _ => none) [.check 1 7 atOnce]
    [.tick (second - 1), .check 2 7 atOnce, .tick (second + 1)] 0 2 7
    { atOnce with setFails := true } atOnce rfl rfl (by decide) (by decide)

end Cluster

end AranesLms
