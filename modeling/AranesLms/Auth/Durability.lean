import AranesLms.Auth.Staleness

/-!
# Durability of revocations

`is_token_revoked` and `revoke_token` of `src/auth/service.py` in any number of workers, stopped at
every point where they wait: for Redis, or for a transaction.  A transaction is one step, and so is
the code between two waits.

A committed revocation should keep its row until it expires.  The cleanup in `_store_revoked_jti`
respects that.  The branch of a check for an expired row need not: its `DELETE` names the token but
not the expiry that the check has read, so it also deletes the row of a revocation that was
committed in between; and a revocation that has resolved its token early can commit late, over a
row that lives longer.  Nothing else goes wrong (`always_durable_iff`).
-/

namespace AranesLms

variable {τ : Type}

/-- Where a call waits, with what it has read: a check from `asking` to `answered`, a revocation
from `storing` to `revoked`.  A call that the database fails raises. -/
inductive RevocationCall (τ : Type) where
  | fresh
  | asking (k : RevocationKey τ) (now tokenExp : ℕ)
  | asked (k : RevocationKey τ) (now tokenExp : ℕ) (payload : Option RedisEntry)
  | clearing (k : RevocationKey τ) (now tokenExp : ℕ)
  | selecting (k : RevocationKey τ) (now tokenExp : ℕ)
  | selected (k : RevocationKey τ) (now tokenExp : ℕ) (row : Option ℕ)
  | dropping (k : RevocationKey τ) (now tokenExp : ℕ)
  | dropped (k : RevocationKey τ) (now tokenExp : ℕ)
  | caching (k : RevocationKey τ) (revoked : Bool) (now expiresAt : ℕ)
  | answered (revoked : Bool)
  | storing (k : RevocationKey τ) (now expiresAt : ℕ)
  | stored (k : RevocationKey τ) (expiresAt : ℕ)
  | announcing (k : RevocationKey τ) (now expiresAt : ℕ)
  | revoked
  | raised

/-- The workers with their calls; `committed` lists the revocations that have been committed, with
their expiries.  What has returned is recorded in the cluster. -/
structure Interleaving (τ : Type) where
  cluster : Cluster τ
  calls : ℕ → ℕ → RevocationCall τ
  committed : List (RevocationKey τ × ℕ)

/-- An event of call `c` in worker `w`.  Between the clock readings of a new call passes the time
`d`; `fails` says that what a call waits for fails. -/
inductive InterleavingEvent (τ : Type) where
  | tick (d : ℕ)
  | evict (w : ℕ) (k : RevocationKey τ)
  | drop (k : RevocationKey τ)
  | check (w c : ℕ) (t : τ) (d : ℕ)
  | revoke (w c : ℕ) (t : τ) (d : ℕ)
  | resume (w c : ℕ) (fails : Bool)

namespace Interleaving

/-- No call has been made. -/
def start (cluster : Cluster τ) : Interleaving τ := ⟨cluster, fun _ _ => .fresh, []⟩

section Steps

variable (s : Interleaving τ)

def setCluster (cluster : Cluster τ) : Interleaving τ := { s with cluster }

def setCall (w c : ℕ) (x : RevocationCall τ) : Interleaving τ :=
  { s with calls := Function.update s.calls w (Function.update (s.calls w) c x) }

/-- A check returns. -/
def answer (w c : ℕ) (k : RevocationKey τ) (now : ℕ) (revoked : Bool) : Interleaving τ :=
  (s.setCluster { s.cluster with
    answers := ⟨k.token, now, revoked⟩ :: s.cluster.answers }).setCall w c (.answered revoked)

/-- A revocation returns. -/
def complete (w c : ℕ) (k : RevocationKey τ) (expiresAt : ℕ) : Interleaving τ :=
  (s.setCluster { s.cluster with
    revocations := ⟨k.token, k, s.cluster.clock, expiresAt⟩ :: s.cluster.revocations }).setCall w c
    .revoked

theorem setCall_calls (w c : ℕ) (x : RevocationCall τ) (w' c' : ℕ) :
    (s.setCall w c x).calls w' c' = x ∧ w' = w ∧ c' = c ∨
      (s.setCall w c x).calls w' c' = s.calls w' c' := by
  unfold Interleaving.setCall
  by_cases hw : w' = w
  · subst hw
    by_cases hc : c' = c
    · subst hc
      exact Or.inl ⟨by simp, rfl, rfl⟩
    · exact Or.inr (by simp [hc])
  · exact Or.inr (by simp [hw])

variable [DecidableEq τ] (ttl : CacheTtl) (exp : τ → Option ℕ) (s : Interleaving τ)

/-- `is_token_revoked` up to its first wait. -/
def startCheck (w c : ℕ) (t : τ) (d : ℕ) : Interleaving τ :=
  let (k, tokenExp) := resolveRevocationIdentity exp t s.cluster.clock
  let now := s.cluster.clock + d
  match (s.cluster.tick d).localStatus w k now with
  | (some cached, cluster) => (s.setCluster cluster).answer w c k now cached
  | (none, cluster) => (s.setCluster cluster).setCall w c (.asking k now tokenExp)

/-- `revoke_token` up to its first wait. -/
def startRevoke (w c : ℕ) (t : τ) (d : ℕ) : Interleaving τ :=
  let (k, expiresAt) := resolveRevocationIdentity exp t s.cluster.clock
  (s.setCluster (s.cluster.tick d)).setCall w c (.storing k (s.cluster.clock + d) expiresAt)

/-- `RedisCacheService.get_json`. -/
def getJson (k : RevocationKey τ) (fails : Bool) : Option RedisEntry :=
  if fails then none else (s.cluster.redis k).filter fun e => s.cluster.clock < e.dropAt

/-- The local entry of an answer; its Redis entry is next. -/
def finish (w c : ℕ) (k : RevocationKey τ) (revoked : Bool) (now expiresAt : ℕ) :
    Interleaving τ :=
  (s.setCluster (s.cluster.cacheStatus ttl w k revoked now expiresAt)).setCall w c
    (.caching k revoked now expiresAt)

/-- The Redis operation at the end of a call. -/
def publish (k : RevocationKey τ) (revoked : Bool) (now expiresAt : ℕ) (fails : Bool) :
    Interleaving τ :=
  s.setCluster (s.cluster.setCachedRevocationStatus ttl k revoked now expiresAt
    ⟨0, 0, 0, fails, fails, fails⟩)

/-- The transaction of a check that has found an expired row. -/
def delete (k : RevocationKey τ) : Interleaving τ :=
  s.setCluster { s.cluster with rows := Function.update s.cluster.rows k none }

/-- The transaction of `_store_revoked_jti`; when it is rolled back, the date of the next cleanup
stays. -/
def store (w : ℕ) (k : RevocationKey τ) (now expiresAt : ℕ) (fails : Bool) : Interleaving τ :=
  let (rows, dueAt) := storeRevokedJti s.cluster.rows (s.cluster.cleanupDueAt w) k expiresAt now
  let cleanupDueAt := Function.update s.cluster.cleanupDueAt w dueAt
  if fails then s.setCluster { s.cluster with cleanupDueAt }
  else
    { s with
      cluster := { s.cluster with rows, cleanupDueAt }
      committed := (k, expiresAt) :: s.committed }

/-- The next step of a call: the operation it waits for, or the code behind one.  A Redis operation
that fails is skipped, a transaction that fails raises. -/
def resume (w c : ℕ) (fails : Bool) : RevocationCall τ → Interleaving τ
  | .asking k now tokenExp => s.setCall w c (.asked k now tokenExp (s.getJson k fails))
  | .asked k now tokenExp none => s.setCall w c (.selecting k now tokenExp)
  | .asked k now tokenExp (some e) =>
    if e.expiresAt ≤ now then s.setCall w c (.clearing k now tokenExp)
    else (s.setCluster (s.cluster.cacheStatus ttl w k e.revoked now tokenExp)).answer w c k now
      e.revoked
  | .clearing k now tokenExp =>
    let cluster := if fails then s.cluster else s.cluster.setRedis k none
    (s.setCluster cluster).setCall w c (.selecting k now tokenExp)
  | .selecting k now tokenExp =>
    if fails then s.setCall w c .raised
    else s.setCall w c (.selected k now tokenExp (s.cluster.rows k))
  | .selected k now tokenExp none => s.finish ttl w c k false now tokenExp
  | .selected k now tokenExp (some expiresAt) =>
    if expiresAt ≤ now then s.setCall w c (.dropping k now tokenExp)
    else s.finish ttl w c k true now expiresAt
  | .dropping k now tokenExp =>
    if fails then s.setCall w c .raised
    else (s.delete k).setCall w c (.dropped k now tokenExp)
  | .dropped k now tokenExp => s.finish ttl w c k false now tokenExp
  | .caching k revoked now expiresAt =>
    (s.publish ttl k revoked now expiresAt fails).answer w c k now revoked
  | .storing k now expiresAt =>
    (s.store w k now expiresAt fails).setCall w c (if fails then .raised else .stored k expiresAt)
  | .stored k expiresAt =>
    let now := s.cluster.clock
    (s.setCluster (s.cluster.cacheStatus ttl w k true now expiresAt)).setCall w c
      (.announcing k now expiresAt)
  | .announcing k now expiresAt =>
    (s.publish ttl k true now expiresAt fails).complete w c k expiresAt
  | .fresh | .answered _ | .revoked | .raised => s

def step : InterleavingEvent τ → Interleaving τ
  | .tick d => s.setCluster (s.cluster.tick d)
  | .evict w k => s.setCluster (s.cluster.setCache w ((s.cluster.caches w).pop k))
  | .drop k => s.setCluster (s.cluster.setRedis k none)
  | .check w c t d =>
    match s.calls w c with
    | .fresh => s.startCheck exp w c t d
    | _ => s
  | .revoke w c t d =>
    match s.calls w c with
    | .fresh => s.startRevoke exp w c t d
    | _ => s
  | .resume w c fails => s.resume ttl w c fails (s.calls w c)

end Steps

variable (s : Interleaving τ)

/-- Every committed revocation that has not expired has a row that lives as long. -/
def Durable : Prop :=
  ∀ k e, (k, e) ∈ s.committed → s.cluster.clock < e →
    ∃ e', s.cluster.rows k = some e' ∧ e ≤ e'

/-- Condition on a step: a check deletes no row that is still in force, and a revocation commits
no earlier expiry than one of the same token that is still in force. -/
def Orderly : InterleavingEvent τ → Prop
  | .resume w c false =>
    match s.calls w c with
    | .dropping k _ _ => ∀ e, s.cluster.rows k = some e → e ≤ s.cluster.clock
    | .storing k _ expiresAt =>
      ∀ e, (k, e) ∈ s.committed → s.cluster.clock < e → e ≤ expiresAt
    | _ => True
  | _ => True

/-! ## The invariant -/

/-- A row of the token that is in force has been committed by one of the calls. -/
def Known (k : RevocationKey τ) : Prop :=
  ∀ e, s.cluster.rows k = some e → s.cluster.clock < e → (k, e) ∈ s.committed

/-- What is known of a call: it has read the clock, and where it has found an expired row, a row
that is in force is a new one. -/
def CallSound : RevocationCall τ → Prop
  | .asking _ now _ | .asked _ now _ _ | .clearing _ now _ | .selecting _ now _
  | .selected _ now _ none | .storing _ now _ => now ≤ s.cluster.clock
  | .selected k now _ (some expiresAt) =>
    now ≤ s.cluster.clock ∧ (expiresAt ≤ now → s.Known k)
  | .dropping k _ _ => s.Known k
  | _ => True

structure Sound : Prop where
  durable : s.Durable
  calls : ∀ w c, s.CallSound (s.calls w c)

/-- What every step keeps: the clock does not run backwards, no revocation is uncommitted, and
every row is an old one or that of a committed revocation. -/
structure Evolves (s s' : Interleaving τ) : Prop where
  clock : s.cluster.clock ≤ s'.cluster.clock
  committed : s.committed ⊆ s'.committed
  rows : ∀ k e, s'.cluster.rows k = some e → s.cluster.rows k = some e ∨ (k, e) ∈ s'.committed

variable {s : Interleaving τ} {s' : Interleaving τ}

theorem Known.mono {k : RevocationKey τ} (h : s.Known k) (hs : Evolves s s') : s'.Known k := by
  intro e hrow hlive
  rcases hs.rows k e hrow with hold | hnew
  · exact hs.committed (h e hold (lt_of_le_of_lt hs.clock hlive))
  · exact hnew

theorem CallSound.mono {x : RevocationCall τ} (h : s.CallSound x) (hs : Evolves s s') :
    s'.CallSound x := by
  cases x with
  | asking k now tokenExp | asked k now tokenExp payload | clearing k now tokenExp
  | selecting k now tokenExp | storing k now expiresAt => exact le_trans h hs.clock
  | selected k now tokenExp row =>
    cases row with
    | none => exact le_trans h hs.clock
    | some expiresAt => exact ⟨h.1.trans hs.clock, fun hexpired => (h.2 hexpired).mono hs⟩
  | dropping k now tokenExp => exact Known.mono h hs
  | fresh | dropped k now tokenExp | caching k revoked now expiresAt | answered revoked
  | stored k expiresAt | announcing k now expiresAt | revoked | raised => trivial

theorem sound_start (cluster : Cluster τ) : Sound (start cluster) where
  durable := nofun
  calls := fun _ _ => trivial

/-- A call goes on to a status that is sound, and the others are where they were. -/
theorem Sound.setCall (h : s.Sound) (hs : Evolves s s') (hcalls : s'.calls = s.calls)
    (hdurable : s'.Durable) {w c : ℕ} {x : RevocationCall τ} (hx : s'.CallSound x) :
    Sound (s'.setCall w c x) where
  durable := hdurable
  calls := by
    intro w' c'
    rcases s'.setCall_calls w c x w' c' with ⟨hself, -, -⟩ | hother
    · rw [hself]
      exact hx
    · rw [hother, hcalls]
      have hkept : s'.CallSound (s.calls w' c') := (h.calls w' c').mono hs
      exact hkept

/-! ### Steps that leave the table alone -/

theorem evolves_setCluster {cluster : Cluster τ} (hclock : s.cluster.clock ≤ cluster.clock)
    (hrows : cluster.rows = s.cluster.rows) : Evolves s (s.setCluster cluster) :=
  ⟨hclock, List.Subset.refl _, fun _ _ he => Or.inl (hrows ▸ he)⟩

theorem Durable.setCluster (h : s.Durable) {cluster : Cluster τ}
    (hclock : s.cluster.clock ≤ cluster.clock) (hrows : cluster.rows = s.cluster.rows) :
    (s.setCluster cluster).Durable := by
  intro k e he hlive
  obtain ⟨e', hrow, hle⟩ := h k e he (lt_of_le_of_lt hclock hlive)
  exact ⟨e', (congrFun hrows k).trans hrow, hle⟩

theorem Sound.setCluster (h : s.Sound) {cluster : Cluster τ}
    (hclock : s.cluster.clock ≤ cluster.clock) (hrows : cluster.rows = s.cluster.rows) :
    Sound (s.setCluster cluster) :=
  ⟨h.durable.setCluster hclock hrows,
    fun w c => (h.calls w c).mono (evolves_setCluster hclock hrows)⟩

theorem Sound.move (h : s.Sound) {cluster : Cluster τ} (hclock : s.cluster.clock ≤ cluster.clock)
    (hrows : cluster.rows = s.cluster.rows) {w c : ℕ} {x : RevocationCall τ}
    (hx : (s.setCluster cluster).CallSound x) : Sound ((s.setCluster cluster).setCall w c x) :=
  h.setCall (evolves_setCluster hclock hrows) rfl (h.durable.setCluster hclock hrows) hx

theorem Sound.goOn (h : s.Sound) {w c : ℕ} {x : RevocationCall τ} (hx : s.CallSound x) :
    Sound (s.setCall w c x) :=
  @Sound.move _ s h s.cluster le_rfl rfl w c x hx

theorem Sound.answer (h : s.Sound) (w c : ℕ) (k : RevocationKey τ) (now : ℕ) (revoked : Bool) :
    Sound (s.answer w c k now revoked) := by
  refine h.move ?_ ?_ ?_
  exacts [le_rfl, rfl, trivial]

theorem Sound.complete (h : s.Sound) (w c : ℕ) (k : RevocationKey τ) (expiresAt : ℕ) :
    Sound (s.complete w c k expiresAt) := by
  refine h.move ?_ ?_ ?_
  exacts [le_rfl, rfl, trivial]

section Steps

variable [DecidableEq τ] {ttl : CacheTtl} {exp : τ → Option ℕ}

theorem Sound.startCheck (h : s.Sound) (w c : ℕ) (t : τ) (d : ℕ) :
    Sound (s.startCheck exp w c t d) := by
  have hclock : s.cluster.clock ≤ s.cluster.clock + d := Nat.le_add_right _ _
  unfold Interleaving.startCheck
  dsimp only
  rcases Cluster.localStatus_cases (s.cluster.tick d) w
    (resolveRevocationIdentity exp t s.cluster.clock).1 (s.cluster.clock + d) with
    ⟨cached, u, cache, -, -, -, hlocal⟩ | ⟨cache, -, -, hlocal⟩
  · rw [hlocal]
    refine Sound.answer (h.setCluster ?_ ?_) w c _ _ cached
    exacts [hclock, rfl]
  · rw [hlocal]
    refine h.move ?_ ?_ ?_
    exacts [hclock, rfl, le_refl (s.cluster.clock + d)]

omit [DecidableEq τ] in
theorem Sound.startRevoke (h : s.Sound) (w c : ℕ) (t : τ) (d : ℕ) :
    Sound (s.startRevoke exp w c t d) := by
  refine h.move ?_ ?_ ?_
  exacts [Nat.le_add_right _ _, rfl, le_refl (s.cluster.clock + d)]

theorem Sound.finish (h : s.Sound) (w c : ℕ) (k : RevocationKey τ) (revoked : Bool)
    (now expiresAt : ℕ) : Sound (s.finish ttl w c k revoked now expiresAt) := by
  refine h.move ?_ ?_ ?_
  exacts [le_rfl, rfl, trivial]

/-- The end of a call writes to Redis only. -/
theorem Sound.publish (h : s.Sound) (k : RevocationKey τ) (revoked : Bool) (now expiresAt : ℕ)
    (fails : Bool) : Sound (s.publish ttl k revoked now expiresAt fails) := by
  unfold Interleaving.publish Cluster.setCachedRevocationStatus
  dsimp only
  split_ifs
  · exact h.setCluster le_rfl rfl
  · exact h.setCluster le_rfl rfl

/-! ### The transactions -/

theorem rows_delete_self (s : Interleaving τ) (k : RevocationKey τ) :
    (s.delete k).cluster.rows k = none :=
  Function.update_self _ _ _

theorem rows_delete_of_ne (s : Interleaving τ) {k k' : RevocationKey τ} (h : k' ≠ k) :
    (s.delete k).cluster.rows k' = s.cluster.rows k' :=
  Function.update_of_ne h _ _

theorem rows_store_self (s : Interleaving τ) (w : ℕ) (k : RevocationKey τ) (now expiresAt : ℕ) :
    (s.store w k now expiresAt false).cluster.rows k = some expiresAt :=
  storeRevokedJti_self

/-- The row of another token stays, unless it has expired. -/
theorem rows_store_of_ne (s : Interleaving τ) (w : ℕ) {k k' : RevocationKey τ} (now expiresAt : ℕ)
    (h : k' ≠ k) :
    (s.store w k now expiresAt false).cluster.rows k' = s.cluster.rows k' ∨
      (s.store w k now expiresAt false).cluster.rows k' = none ∧
        ∃ e, s.cluster.rows k' = some e ∧ e ≤ now :=
  storeRevokedJti_of_ne h

theorem evolves_delete (s : Interleaving τ) (k : RevocationKey τ) : Evolves s (s.delete k) := by
  refine ⟨le_rfl, List.Subset.refl _, fun k' e he => Or.inl ?_⟩
  by_cases hk : k' = k
  · subst hk
    cases (rows_delete_self s k').symm.trans he
  · exact (rows_delete_of_ne s hk).symm.trans he

/-- The deleted row is one that is not missed. -/
theorem Durable.delete (h : s.Durable) {k : RevocationKey τ}
    (hexpired : ∀ e, s.cluster.rows k = some e → e ≤ s.cluster.clock) : (s.delete k).Durable := by
  intro k' e he hlive
  obtain ⟨e', hrow, hle⟩ := h k' e he hlive
  have hne : k' ≠ k := by
    rintro rfl
    exact absurd (hle.trans (hexpired e' hrow)) (Nat.not_le.2 hlive)
  exact ⟨e', (rows_delete_of_ne s hne).trans hrow, hle⟩

/-- A delete that breaks no revocation takes a row that is known and has expired. -/
theorem Known.expired_of_delete {k : RevocationKey τ} (h : s.Known k) (hd : (s.delete k).Durable)
    {e : ℕ} (hrow : s.cluster.rows k = some e) : e ≤ s.cluster.clock := by
  by_contra hlive
  rw [Nat.not_le] at hlive
  obtain ⟨e', hrow', -⟩ := hd k e (h e hrow hlive) hlive
  cases (rows_delete_self s k).symm.trans hrow'

theorem evolves_store (s : Interleaving τ) (w : ℕ) (k : RevocationKey τ) (now expiresAt : ℕ)
    (fails : Bool) : Evolves s (s.store w k now expiresAt fails) := by
  cases fails with
  | true => exact evolves_setCluster le_rfl rfl
  | false =>
    refine ⟨le_rfl, List.subset_cons_self _ _, fun k' e he => ?_⟩
    by_cases hk : k' = k
    · subst hk
      cases (rows_store_self s w k' now expiresAt).symm.trans he
      exact Or.inr List.mem_cons_self
    · rcases rows_store_of_ne s w now expiresAt hk with hsame | ⟨hnone, -⟩
      · exact Or.inl (hsame.symm.trans he)
      · cases hnone.symm.trans he

/-- The revocation itself is given its row, and the cleanup takes rows that are not missed. -/
theorem Durable.store (h : s.Durable) (w : ℕ) {k : RevocationKey τ} {now expiresAt : ℕ}
    (hnow : now ≤ s.cluster.clock)
    (hlater : ∀ e, (k, e) ∈ s.committed → s.cluster.clock < e → e ≤ expiresAt) :
    (s.store w k now expiresAt false).Durable := by
  intro k' e he hlive
  have hmem : k' = k ∧ e = expiresAt ∨ (k', e) ∈ s.committed := by
    rcases List.mem_cons.1 he with hnew | hold
    · cases hnew
      exact Or.inl ⟨rfl, rfl⟩
    · exact Or.inr hold
  by_cases hk : k' = k
  · subst hk
    refine ⟨expiresAt, rows_store_self s w k' now expiresAt, ?_⟩
    rcases hmem with ⟨-, rfl⟩ | hold
    · exact le_rfl
    · exact hlater e hold hlive
  · rcases hmem with ⟨rfl, -⟩ | hold
    · exact absurd rfl hk
    obtain ⟨e', hrow, hle⟩ := h k' e hold hlive
    rcases rows_store_of_ne s w now expiresAt hk with hsame | ⟨-, e₀, he₀, hexpired⟩
    · exact ⟨e', hsame.trans hrow, hle⟩
    · cases he₀.symm.trans hrow
      exact absurd (hle.trans (hexpired.trans hnow)) (Nat.not_le.2 hlive)

/-- A commit that breaks no revocation of the token lets it live at least as long. -/
theorem Durable.le_of_store {w : ℕ} {k : RevocationKey τ} {now expiresAt : ℕ}
    (hd : (s.store w k now expiresAt false).Durable) {e : ℕ} (he : (k, e) ∈ s.committed)
    (hlive : s.cluster.clock < e) : e ≤ expiresAt := by
  obtain ⟨e', hrow, hle⟩ := hd k e (List.mem_cons_of_mem _ he) hlive
  cases (rows_store_self s w k now expiresAt).symm.trans hrow
  exact hle

/-! ### Runs -/

omit [DecidableEq τ] in
theorem orderly_dropping {w c : ℕ} {k : RevocationKey τ} {now tokenExp : ℕ}
    (hx : s.calls w c = .dropping k now tokenExp) :
    s.Orderly (.resume w c false) ↔ ∀ e, s.cluster.rows k = some e → e ≤ s.cluster.clock := by
  simp only [Orderly, hx]

omit [DecidableEq τ] in
theorem orderly_storing {w c : ℕ} {k : RevocationKey τ} {now expiresAt : ℕ}
    (hx : s.calls w c = .storing k now expiresAt) :
    s.Orderly (.resume w c false) ↔
      ∀ e, (k, e) ∈ s.committed → s.cluster.clock < e → e ≤ expiresAt := by
  simp only [Orderly, hx]

theorem Sound.resume (h : s.Sound) (w c : ℕ) (fails : Bool)
    (hc : s.Orderly (.resume w c fails)) : Sound (s.resume ttl w c fails (s.calls w c)) := by
  have hcall := h.calls w c
  cases hx : s.calls w c with
  | fresh | answered revoked | revoked | raised => exact h
  | asking k now tokenExp =>
    rw [hx] at hcall
    exact h.goOn hcall
  | asked k now tokenExp payload =>
    rw [hx] at hcall
    cases payload with
    | none => exact h.goOn hcall
    | some e =>
      unfold Interleaving.resume
      dsimp only
      split_ifs
      · exact h.goOn hcall
      · refine Sound.answer (h.setCluster ?_ ?_) w c k now e.revoked
        exacts [le_rfl, rfl]
  | clearing k now tokenExp =>
    rw [hx] at hcall
    cases fails with
    | true => exact h.goOn hcall
    | false =>
      refine h.move ?_ ?_ ?_
      exacts [le_rfl, rfl, hcall]
  | selecting k now tokenExp =>
    rw [hx] at hcall
    cases fails with
    | true => exact h.goOn trivial
    | false =>
      refine h.goOn ?_
      cases hrow : s.cluster.rows k with
      | none => exact hcall
      | some expiresAt =>
        refine ⟨hcall, fun hexpired e he hlive => ?_⟩
        cases hrow.symm.trans he
        exact absurd (hexpired.trans hcall) (Nat.not_le.2 hlive)
  | selected k now tokenExp row =>
    rw [hx] at hcall
    cases row with
    | none => exact h.finish w c k false now tokenExp
    | some expiresAt =>
      unfold Interleaving.resume
      dsimp only
      split_ifs with hexpired
      · exact h.goOn (hcall.2 hexpired)
      · exact h.finish w c k true now expiresAt
  | dropping k now tokenExp =>
    cases fails with
    | true => exact h.goOn trivial
    | false =>
      have hdurable := h.durable.delete ((orderly_dropping hx).1 hc)
      exact h.setCall (evolves_delete s k) rfl hdurable trivial
  | dropped k now tokenExp => exact h.finish w c k false now tokenExp
  | caching k revoked now expiresAt =>
    exact (h.publish k revoked now expiresAt fails).answer w c k now revoked
  | storing k now expiresAt =>
    rw [hx] at hcall
    cases fails with
    | true =>
      refine h.move ?_ ?_ ?_
      exacts [le_rfl, rfl, trivial]
    | false =>
      have hdurable := h.durable.store w hcall ((orderly_storing hx).1 hc)
      exact h.setCall (evolves_store s w k now expiresAt false) rfl hdurable trivial
  | stored k expiresAt =>
    refine h.move ?_ ?_ ?_
    exacts [le_rfl, rfl, trivial]
  | announcing k now expiresAt =>
    exact (h.publish k true now expiresAt fails).complete w c k expiresAt

theorem Sound.step (h : s.Sound) (e : InterleavingEvent τ) (hc : s.Orderly e) :
    Sound (s.step ttl exp e) := by
  cases e with
  | tick d => exact h.setCluster (Nat.le_add_right _ _) rfl
  | evict w k | drop k => exact h.setCluster le_rfl rfl
  | check w c t d =>
    unfold Interleaving.step
    dsimp only
    split
    · exact h.startCheck w c t d
    · exact h
  | revoke w c t d =>
    unfold Interleaving.step
    dsimp only
    split
    · exact h.startRevoke w c t d
    · exact h
  | resume w c fails => exact h.resume w c fails hc

/-- A step from a sound state that does not meet the condition breaks a revocation. -/
theorem Sound.orderly (h : s.Sound) (e : InterleavingEvent τ)
    (hdurable : (s.step ttl exp e).Durable) : s.Orderly e := by
  cases e with
  | tick d | evict w k | drop k | check w c t d | revoke w c t d => trivial
  | resume w c fails =>
    cases fails with
    | true => trivial
    | false =>
      have hcall := h.calls w c
      have hdurable : (s.resume ttl w c false (s.calls w c)).Durable := hdurable
      cases hx : s.calls w c with
      | dropping k now tokenExp =>
        rw [hx] at hcall hdurable
        exact (orderly_dropping hx).2 fun e => Known.expired_of_delete hcall hdurable
      | storing k now expiresAt =>
        rw [hx] at hdurable
        exact (orderly_storing hx).2 fun e => Durable.le_of_store hdurable
      | fresh | asking | asked | clearing | selecting | selected | dropped | caching | answered
      | stored | announcing | revoked | raised => simp only [Orderly, hx]

/-- Any number of checks and revocations of any tokens in any number of workers, interleaved in any
order: the committed revocations keep their rows until they expire if and only if no check deletes
a row that is in force and no revocation commits an expiry before one that is in force. -/
theorem always_durable_iff (ttl : CacheTtl) (exp : τ → Option ℕ) (cluster : Cluster τ)
    (events : List (InterleavingEvent τ)) :
    Transition.Always (Interleaving.step ttl exp) Durable (start cluster) events ↔
      Transition.Along (Interleaving.step ttl exp) Orderly (start cluster) events :=
  Transition.always_iff_along (J := Sound) (fun _ h => h.durable) (fun _ e h hc => h.step e hc)
    (fun _ e h hd => h.orderly e hd) (sound_start cluster) events

end Steps

/-! ## Runs -/

/-- A check finds the row of an expired revocation; before its `DELETE`, another worker revokes the
token again. -/
def lateDelete : List (InterleavingEvent ℕ) :=
  [.check 0 0 7 0, .resume 0 0 false, .resume 0 0 false, .resume 0 0 false, .resume 0 0 false,
    .revoke 1 0 7 0, .resume 1 0 false, .resume 0 0 false]

theorem late_delete_revives_token :
    ¬ Transition.Always (Interleaving.step ⟨second, by decide⟩ fun _ => none) Durable
      (start (Cluster.start 10 (Function.update (fun _ => none) (.raw 7) (some 5))))
      lateDelete := by
  intro h
  obtain ⟨e, hrow, -⟩ := h.last (.raw 7) (10 + fallbackRawTokenTtl) (by decide) (by decide)
  have hnone : (Transition.runFrom (Interleaving.step ⟨second, by decide⟩ fun _ => none)
    (start (Cluster.start 10 (Function.update (fun _ => none) (.raw 7) (some 5))))
      lateDelete).cluster.rows (.raw 7) = none := by decide
  cases hnone.symm.trans hrow

end Interleaving

end AranesLms
