import Mathlib.Logic.Function.Basic
import AranesLms.Lib.OrderedDict

/-!
# Revocation data

The parts of `src/auth/revocation.py` and `src/auth/service.py` that the checks and the
revocations share: the local cache of revocation states and the transaction that stores a
revocation.  Times are microseconds.
-/

namespace AranesLms

def second : ℕ := 1000000

/-- `FALLBACK_RAW_TOKEN_TTL`. -/
def fallbackRawTokenTtl : ℕ := 30 * 24 * 3600 * second

/-- `_TOKEN_REVOCATION_CACHE_MAX_ENTRIES`. -/
def tokenRevocationCacheMaxEntries : ℕ := 4096

/-- `_REVOCATION_EXPIRY_CLEANUP_INTERVAL`. -/
def revocationExpiryCleanupInterval : ℕ := 60 * second

/-- A value of `_get_token_revocation_cache_ttl_seconds`. -/
structure CacheTtl where
  micros : ℕ
  le_minute : micros ≤ 60 * second

variable {κ : Type} [DecidableEq κ]

/-- `_token_revocation_cache`: whether the token is revoked, and until when the entry is valid. -/
abbrev RevocationCache (κ : Type) := OrderedDict κ (Bool × ℕ)

/-- `cache_until` of `_cache_revocation_status` and of `_set_cached_revocation_status`. -/
def cacheUntil (ttl : CacheTtl) (revoked : Bool) (now expiresAt : ℕ) : ℕ :=
  if revoked then expiresAt else min expiresAt (now + ttl.micros)

/-- `_cache_revocation_status`. -/
def cacheRevocationStatus (ttl : CacheTtl) (cache : RevocationCache κ) (jti : κ) (revoked : Bool)
    (now expiresAt : ℕ) : RevocationCache κ :=
  let cache := cache.setLast jti (revoked, cacheUntil ttl revoked now expiresAt)
  if tokenRevocationCacheMaxEntries < cache.length then
    (cache.retain fun e => now < e.2.2).dropOldest tokenRevocationCacheMaxEntries
  else cache

/-- An entry is the new one or an old one of another token. -/
theorem mem_cacheRevocationStatus {ttl : CacheTtl} {cache : RevocationCache κ} {jti : κ}
    {revoked : Bool} {now expiresAt : ℕ} {e : κ × Bool × ℕ}
    (h : e ∈ cacheRevocationStatus ttl cache jti revoked now expiresAt) :
    e ∈ cache ∧ e.1 ≠ jti ∨ e = (jti, revoked, cacheUntil ttl revoked now expiresAt) := by
  apply cache.mem_setLast.1
  unfold cacheRevocationStatus at h
  dsimp only at h
  split_ifs at h
  · exact (OrderedDict.mem_retain _ |>.1 (OrderedDict.mem_of_mem_dropOldest _ h)).1
  · exact h

/-- The new entry is there as long as it is valid. -/
theorem self_mem_cacheRevocationStatus {ttl : CacheTtl} {cache : RevocationCache κ} {jti : κ}
    {revoked : Bool} {now expiresAt : ℕ} (h : now < cacheUntil ttl revoked now expiresAt) :
    (jti, revoked, cacheUntil ttl revoked now expiresAt) ∈
      cacheRevocationStatus ttl cache jti revoked now expiresAt := by
  unfold cacheRevocationStatus
  dsimp only
  split_ifs
  · exact cache.mem_evict_setLast (by simpa using h) (by decide)
  · exact cache.mem_setLast.2 (Or.inr rfl)

/-! ## The table of revoked tokens -/

/-- `auth_revoked_token_jtis`: the `expires_at` of each `jti` that has a row. -/
abbrev RevokedRows (κ : Type) := κ → Option ℕ

/-- `_should_cleanup_expired_revocations`, with the new value of `_revocation_cleanup_due_at`. -/
def shouldCleanupExpiredRevocations (dueAt : Option ℕ) (now : ℕ) : Bool × Option ℕ :=
  if dueAt.any (now < ·) then (false, dueAt)
  else (true, some (now + revocationExpiryCleanupInterval))

/-- `DELETE … WHERE expires_at <= now`. -/
def deleteExpired (rows : RevokedRows κ) (now : ℕ) : RevokedRows κ := fun k =>
  match rows k with
  | some e => if e ≤ now then none else some e
  | none => none

/-- The transaction of `_store_revoked_jti`. -/
def storeRevokedJti (rows : RevokedRows κ) (dueAt : Option ℕ) (jti : κ) (expiresAt now : ℕ) :
    RevokedRows κ × Option ℕ :=
  let (cleanup, dueAt) := shouldCleanupExpiredRevocations dueAt now
  let rows := if cleanup then deleteExpired rows now else rows
  (Function.update rows jti (some expiresAt), dueAt)

variable {rows : RevokedRows κ} {dueAt : Option ℕ} {jti k : κ} {expiresAt now : ℕ}

omit [DecidableEq κ] in
/-- Only expired rows are deleted. -/
theorem deleteExpired_cases (rows : RevokedRows κ) (now : ℕ) (k : κ) :
    deleteExpired rows now k = rows k ∨
      deleteExpired rows now k = none ∧ ∃ e, rows k = some e ∧ e ≤ now := by
  unfold deleteExpired
  cases rows k with
  | none => exact Or.inl rfl
  | some e =>
    by_cases he : e ≤ now
    · exact Or.inr ⟨if_pos he, e, rfl, he⟩
    · exact Or.inl (if_neg he)

@[simp] theorem storeRevokedJti_self :
    (storeRevokedJti rows dueAt jti expiresAt now).1 jti = some expiresAt :=
  Function.update_self _ _ _

/-- The row of another token is as before, or it had expired and is deleted. -/
theorem storeRevokedJti_of_ne (h : k ≠ jti) :
    (storeRevokedJti rows dueAt jti expiresAt now).1 k = rows k ∨
      (storeRevokedJti rows dueAt jti expiresAt now).1 k = none ∧
        ∃ e, rows k = some e ∧ e ≤ now := by
  unfold storeRevokedJti
  dsimp only
  rw [Function.update_of_ne h]
  split_ifs
  · exact deleteExpired_cases rows now k
  · exact Or.inl rfl

end AranesLms
