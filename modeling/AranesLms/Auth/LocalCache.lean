import AranesLms.Auth.Staleness
import AranesLms.Lib.Recency

/-!
# The local cache of revocation states

`_cache_revocation_status` and the look into the cache in `is_token_revoked`, in any order and at
any times, with any bound on the number of entries.  A `CacheHistory` is the cache with what has
happened to its keys.  `localCache_lru`: the cache is bounded and in the order of use, what it holds
was last written, and a write removes a valid entry only when no expired one is left, the least
recently used ones first.
-/

namespace AranesLms

variable {κ : Type} [DecidableEq κ]

/-- `_cache_revocation_status`, for any value of `_TOKEN_REVOCATION_CACHE_MAX_ENTRIES`. -/
def cacheRevocationStatusUpTo (limit : ℕ) (ttl : CacheTtl) (cache : RevocationCache κ) (jti : κ)
    (revoked : Bool) (now expiresAt : ℕ) : RevocationCache κ :=
  let cache := cache.setLast jti (revoked, cacheUntil ttl revoked now expiresAt)
  if limit < cache.length then (cache.retain fun e => now < e.2.2).dropOldest limit else cache

theorem cacheRevocationStatusUpTo_maxEntries (ttl : CacheTtl) :
    cacheRevocationStatusUpTo (κ := κ) tokenRevocationCacheMaxEntries ttl =
      cacheRevocationStatus ttl := rfl

/-- The look into `_token_revocation_cache`. -/
def cachedStatus (cache : RevocationCache κ) (key : κ) (now : ℕ) :
    Option Bool × RevocationCache κ :=
  match cache.get? key with
  | some (cachedRevoked, cachedUntil) =>
    if now < cachedUntil then (some cachedRevoked, cache.moveToEnd key) else (none, cache.pop key)
  | none => (none, cache)

theorem localStatus_eq {τ : Type} [DecidableEq τ] (s : Cluster τ) (w : ℕ) (k : RevocationKey τ)
    (now : ℕ) : s.localStatus w k now =
      ((cachedStatus (s.caches w) k now).1, s.setCache w (cachedStatus (s.caches w) k now).2) := by
  rw [Cluster.localStatus, cachedStatus]
  cases (s.caches w).get? k with
  | none =>
    have hsame : s.setCache w (s.caches w) = s := by rw [Cluster.setCache, Function.update_eq_self]
    exact congrArg (Prod.mk none) hsame.symm
  | some v =>
    dsimp only
    split_ifs
    · rfl
    · rfl

/-! ## Histories -/

inductive CacheCall (κ : Type) where
  | write (jti : κ) (revoked : Bool) (now expiresAt : ℕ)
  | lookUp (key : κ) (now : ℕ)

/-- The cache, the keys that were written or hit, the newest first, and what was last written for
each key. -/
structure CacheHistory (κ : Type) where
  cache : RevocationCache κ
  uses : List κ
  written : κ → Option (Bool × ℕ)

namespace CacheHistory

def start : CacheHistory κ := ⟨∅, [], fun _ => none⟩

section

variable (limit : ℕ) (ttl : CacheTtl)

def step (h : CacheHistory κ) : CacheCall κ → CacheHistory κ
  | .write jti revoked now expiresAt =>
    { cache := cacheRevocationStatusUpTo limit ttl h.cache jti revoked now expiresAt
      uses := jti :: h.uses
      written := Function.update h.written jti
        (some (revoked, cacheUntil ttl revoked now expiresAt)) }
  | .lookUp key now =>
    match cachedStatus h.cache key now with
    | (some _, cache) => { h with cache, uses := key :: h.uses }
    | (none, cache) => { h with cache }

def run (calls : List (CacheCall κ)) : CacheHistory κ :=
  Transition.runFrom (step limit ttl) start calls

end

/-- The cache is bounded, in the order of use, and holds what was last written. -/
structure Sound (limit : ℕ) (h : CacheHistory κ) : Prop where
  bounded : h.cache.length ≤ limit
  inOrder : h.cache.InOrder h.uses
  written : ∀ e ∈ h.cache, h.written e.1 = some e.2

/-- A write at `now` that leads from `h` to `h'`: a valid entry of `h` that is not kept is less
recently used than every entry that is, and these are valid and as many as possible; and the entry
that is written is kept as long as it is valid. -/
structure EvictsExpiredFirst (limit : ℕ) (jti : κ) (now : ℕ) (h h' : CacheHistory κ) : Prop where
  evicted : ∀ e ∈ h.cache, e.1 ≠ jti → now < e.2.2 → e ∉ h'.cache →
    h'.cache.length = limit ∧ ∀ e' ∈ h'.cache, now < e'.2.2 ∧ LessRecent h'.uses e.1 e'.1
  kept : ∀ v, h'.written jti = some v → now < v.2 → (jti, v) ∈ h'.cache

/-! ## One call -/

variable {limit : ℕ} {ttl : CacheTtl} {h : CacheHistory κ}

theorem length_cacheRevocationStatusUpTo (cache : RevocationCache κ) (jti : κ) (revoked : Bool)
    (now expiresAt : ℕ) :
    (cacheRevocationStatusUpTo limit ttl cache jti revoked now expiresAt).length ≤ limit := by
  rw [cacheRevocationStatusUpTo]
  split_ifs with hlt
  · rw [OrderedDict.length_dropOldest]
    exact min_le_left _ _
  · exact not_lt.1 hlt

/-- What is left is part of the cache with the new entry. -/
theorem sublist_cacheRevocationStatusUpTo (cache : RevocationCache κ) (jti : κ) (revoked : Bool)
    (now expiresAt : ℕ) :
    (cacheRevocationStatusUpTo limit ttl cache jti revoked now expiresAt).entries.Sublist
      (cache.setLast jti (revoked, cacheUntil ttl revoked now expiresAt)).entries := by
  rw [cacheRevocationStatusUpTo]
  split_ifs with hlt
  · exact (List.drop_sublist _ _).trans List.filter_sublist
  · exact List.Sublist.refl _

theorem Sound.write (hs : h.Sound limit) (jti : κ) (revoked : Bool) (now expiresAt : ℕ) :
    (h.step limit ttl (.write jti revoked now expiresAt)).Sound limit where
  bounded := length_cacheRevocationStatusUpTo h.cache jti revoked now expiresAt
  inOrder := (hs.inOrder.setLast jti _).sublist
    (sublist_cacheRevocationStatusUpTo h.cache jti revoked now expiresAt)
  written e he := by
    show Function.update h.written jti _ e.1 = some e.2
    have hmem := (sublist_cacheRevocationStatusUpTo h.cache jti revoked now expiresAt).subset he
    rcases h.cache.mem_setLast.1 hmem with ⟨hold, hne⟩ | rfl
    · rw [Function.update_of_ne hne, hs.written e hold]
    · rw [Function.update_self]

theorem Sound.lookUp (hs : h.Sound limit) (key : κ) (now : ℕ) :
    (h.step limit ttl (.lookUp key now)).Sound limit := by
  rw [step, cachedStatus]
  cases hget : h.cache.get? key with
  | none => exact hs
  | some v =>
    by_cases hvalid : now < v.2
    · simp only [if_pos hvalid]
      refine ⟨?_, hs.inOrder.moveToEnd hget, fun e he => hs.written e (h.cache.mem_moveToEnd.1 he)⟩
      rw [OrderedDict.length_moveToEnd]
      exact hs.bounded
    · simp only [if_neg hvalid]
      refine ⟨?_, hs.inOrder.retain _, fun e he => hs.written e (h.cache.mem_pop.1 he).1⟩
      exact (List.length_filter_le _ _).trans hs.bounded

theorem Sound.step (hs : h.Sound limit) (call : CacheCall κ) :
    (h.step limit ttl call).Sound limit := by
  cases call with
  | write jti revoked now expiresAt => exact hs.write jti revoked now expiresAt
  | lookUp key now => exact hs.lookUp key now

/-- An entry that the eviction removes is expired, or there are only valid ones left. -/
theorem evicted_cacheRevocationStatusUpTo {cache : RevocationCache κ} {jti : κ} {revoked : Bool}
    {now expiresAt : ℕ} {uses : List κ} (horder : cache.InOrder uses) {e : κ × Bool × ℕ}
    (he : e ∈ cache) (hne : e.1 ≠ jti) (hvalid : now < e.2.2)
    (hgone : e ∉ cacheRevocationStatusUpTo limit ttl cache jti revoked now expiresAt) :
    (cacheRevocationStatusUpTo limit ttl cache jti revoked now expiresAt).length = limit ∧
      ∀ e' ∈ cacheRevocationStatusUpTo limit ttl cache jti revoked now expiresAt,
        now < e'.2.2 ∧ LessRecent (jti :: uses) e.1 e'.1 := by
  have hset : e ∈ cache.setLast jti (revoked, cacheUntil ttl revoked now expiresAt) :=
    cache.mem_setLast.2 (Or.inl ⟨he, hne⟩)
  have horder' := (horder.setLast jti (revoked, cacheUntil ttl revoked now expiresAt)).retain
    fun e => now < e.2.2
  rw [cacheRevocationStatusUpTo] at hgone ⊢
  split_ifs at hgone ⊢ with hlt
  · have hretained : e ∈ (cache.setLast jti (revoked, cacheUntil ttl revoked now expiresAt)).retain
        fun e => now < e.2.2 := (OrderedDict.mem_retain _).2 ⟨hset, decide_eq_true hvalid⟩
    refine ⟨?_, fun e' he' => ⟨?_, horder'.of_dropOldest hretained hgone he'⟩⟩
    · rw [OrderedDict.length_dropOldest, min_eq_left]
      by_contra hle
      exact hgone (OrderedDict.mem_dropOldest_of_length_le hretained (not_le.1 hle).le)
    · have hmem := OrderedDict.mem_of_mem_dropOldest _ he'
      exact of_decide_eq_true ((OrderedDict.mem_retain _).1 hmem).2
  · exact absurd hset hgone

theorem evictsExpiredFirst_write (hs : h.Sound limit) (hlimit : 1 ≤ limit) (jti : κ)
    (revoked : Bool) (now expiresAt : ℕ) : EvictsExpiredFirst limit jti now h
      (h.step limit ttl (.write jti revoked now expiresAt)) where
  evicted _ he hne hvalid hgone := evicted_cacheRevocationStatusUpTo hs.inOrder he hne hvalid hgone
  kept v hv hvalid := by
    have hnew : Function.update h.written jti
      (some (revoked, cacheUntil ttl revoked now expiresAt)) jti = some v := hv
    rw [Function.update_self] at hnew
    obtain rfl := Option.some.inj hnew
    show (jti, _) ∈ cacheRevocationStatusUpTo limit ttl h.cache jti revoked now expiresAt
    rw [cacheRevocationStatusUpTo]
    split_ifs with hlt
    · exact h.cache.mem_evict_setLast (decide_eq_true hvalid) hlimit
    · exact h.cache.mem_setLast.2 (Or.inr rfl)

/-! ## Every run -/

theorem sound_run (limit : ℕ) (ttl : CacheTtl) (calls : List (CacheCall κ)) :
    (run limit ttl calls).Sound limit := by
  have hstart : (start : CacheHistory κ).Sound limit :=
    ⟨Nat.zero_le _, OrderedDict.inOrder_empty, fun e he => absurd he (OrderedDict.notMem_empty e)⟩
  exact Transition.runFrom_induct (fun _ call hs => hs.step call) hstart calls

/-- After any calls the cache is sound, and the next write evicts expired entries first. -/
theorem localCache_lru (limit : ℕ) (hlimit : 1 ≤ limit) (ttl : CacheTtl)
    (calls : List (CacheCall κ)) : (run limit ttl calls).Sound limit ∧
      ∀ jti revoked now expiresAt, EvictsExpiredFirst limit jti now (run limit ttl calls)
        (run limit ttl (calls ++ [.write jti revoked now expiresAt])) := by
  refine ⟨sound_run limit ttl calls, fun jti revoked now expiresAt => ?_⟩
  rw [run, run, Transition.runFrom_append, Transition.runFrom_cons, Transition.runFrom_nil]
  exact evictsExpiredFirst_write (sound_run limit ttl calls) hlimit jti revoked now expiresAt

/-- `b` has expired when `d` is written, and `a` was hit after `c` was written. -/
theorem localCache_lru_three : (run 3 ⟨second, by decide⟩
      [.write "a" true 0 90, .write "b" true 1 5, .write "c" true 2 90, .lookUp "a" 3,
        .write "d" true 9 90]).cache.keys = ["c", "a", "d"] ∧
    (run 3 ⟨second, by decide⟩
      [.write "a" true 0 90, .write "b" true 1 5, .write "c" true 2 90, .lookUp "a" 3]).Sound 3 :=
  ⟨by decide, (localCache_lru 3 (by decide) _ _).1⟩

end CacheHistory

end AranesLms
