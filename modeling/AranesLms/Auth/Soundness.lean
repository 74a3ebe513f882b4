import AranesLms.Auth.Staleness

/-!
# Soundness of revocations

The other direction of `Auth/Staleness.lean`: a check that answers that a token is revoked should
have a revocation to account for it, one that is still in force.

The table and Redis hold no expiry but the recorded ones, and so does a local cache whose entry
comes from the table.  A local entry that is copied from Redis gets the expiry that the token would
be given now instead.  For a token that is not a valid JWT that is thirty days from the check, later
than what has been recorded (`grounded_along_keepsExpiry`).
-/

namespace AranesLms.Cluster

variable {τ : Type} (exp : τ → Option ℕ) (s : Cluster τ)

/-- A revocation of the token has recorded an expiry that is not earlier. -/
def Recorded (k : RevocationKey τ) (e : ℕ) : Prop :=
  ∃ v ∈ s.revocations, v.key = k ∧ e ≤ v.expiry

/-- Every answer that a token is revoked has a revocation of the same identity that had not
expired. -/
def Grounded : Prop :=
  ∀ a ∈ s.answers, a.revoked = true →
    ∃ v ∈ s.revocations, v.key = (resolveRevocationIdentity exp a.token a.now).1 ∧ a.now < v.expiry

/-- Condition on a step: a check that misses its local cache and finds in Redis that the token is
revoked has resolved it to an expiry that has been recorded, or has passed by now. -/
def KeepsExpiry : ClusterEvent τ → Prop
  | .check w t env =>
    let k := (resolveRevocationIdentity exp t s.clock).1
    let tokenExp := (resolveRevocationIdentity exp t s.clock).2
    let now := s.clock + env.d₀
    (∀ revoked u, (k, revoked, u) ∈ s.caches w → u ≤ now) → env.getFails = false →
      ∀ e, s.redis k = some e → e.revoked = true → now < e.expiresAt → now + env.d₁ < e.dropAt →
        tokenExp ≤ now + env.d₁ ∨ s.Recorded k tokenExp
  | _ => True

/-! ## The invariant -/

/-- What says that a token is revoked says so until an expiry that `R` allows. -/
structure Backed (R : RevocationKey τ → ℕ → Prop) : Prop where
  rows : ∀ k e, s.rows k = some e → R k e
  redis : ∀ k e, s.redis k = some e → e.revoked = true → R k e.expiresAt
  cache : ∀ w k u, (k, true, u) ∈ s.caches w → u ≤ s.clock ∨ R k u
  answers : ∀ a ∈ s.answers, a.revoked = true →
    ∃ e, R (resolveRevocationIdentity exp a.token a.now).1 e ∧ a.now < e

structure Accounted : Prop where
  backed : Backed exp s s.Recorded
  jti : ∀ v ∈ s.revocations, ∀ t, v.key = .jti t → exp t = some v.expiry

variable {exp : τ → Option ℕ} {s : Cluster τ} {R R' : RevocationKey τ → ℕ → Prop}

theorem Backed.mono (h : Backed exp s R) (hR : ∀ k e, R k e → R' k e) : Backed exp s R' where
  rows := fun k e he => hR k e (h.rows k e he)
  redis := fun k e he hr => hR k _ (h.redis k e he hr)
  cache := fun w k u hu => (h.cache w k u hu).imp_right (hR k u)
  answers := by
    intro a ha hr
    obtain ⟨e, he, hlt⟩ := h.answers a ha hr
    exact ⟨e, hR _ e he, hlt⟩

theorem Accounted.grounded (h : Accounted exp s) : Grounded exp s := by
  intro a ha hr
  obtain ⟨e, ⟨v, hv, hkey, hle⟩, hlt⟩ := h.backed.answers a ha hr
  exact ⟨v, hv, hkey, lt_of_lt_of_le hlt hle⟩

theorem accounted_start (clock : ℕ) : Accounted exp (start clock fun _ => none) where
  backed := ⟨nofun, nofun, fun _ _ _ hu => absurd hu (OrderedDict.notMem_empty _), nofun⟩
  jti := nofun

/-- A valid JWT is resolved to its own expiry. -/
theorem resolveRevocationIdentity_jti {t t' : τ} {now : ℕ}
    (h : (resolveRevocationIdentity exp t now).1 = .jti t') :
    exp t' = some (resolveRevocationIdentity exp t now).2 := by
  unfold resolveRevocationIdentity at h ⊢
  cases hexp : exp t with
  | none => simp [hexp] at h
  | some tokenExp =>
    simp only [hexp] at h ⊢
    split_ifs at h ⊢ with hnow
    cases h
    exact hexp

/-- What is resolved to its text stays so. -/
theorem resolveRevocationIdentity_raw {t t' : τ} {m n : ℕ} (hmn : m ≤ n)
    (h : (resolveRevocationIdentity exp t m).1 = .raw t') :
    (resolveRevocationIdentity exp t n).1 = .raw t' := by
  unfold resolveRevocationIdentity at h ⊢
  cases hexp : exp t with
  | none => simpa [hexp] using h
  | some tokenExp =>
    simp only [hexp] at h ⊢
    by_cases hm : m < tokenExp
    · simp [hm] at h
    · have hn : ¬ n < tokenExp := by omega
      rw [if_neg hm] at h
      rw [if_neg hn]
      exact h

/-! ### Single changes -/

theorem Backed.tick (h : Backed exp s R) (d : ℕ) : Backed exp (s.tick d) R where
  rows := h.rows
  redis := h.redis
  cache := fun w k u hu =>
    (h.cache w k u hu).imp_left fun hle => hle.trans (Nat.le_add_right _ _)
  answers := h.answers

theorem Backed.setCache (h : Backed exp s R) {w : ℕ} {cache : RevocationCache (RevocationKey τ)}
    (hcache : ∀ k u, (k, true, u) ∈ cache → (k, true, u) ∈ s.caches w ∨ u ≤ s.clock ∨ R k u) :
    Backed exp (s.setCache w cache) R := by
  refine ⟨h.rows, h.redis, fun w' k u hu => ?_, h.answers⟩
  by_cases hw : w' = w
  · subst hw
    have hu' : (k, true, u) ∈ cache := by simpa [Cluster.setCache] using hu
    rcases hcache k u hu' with hold | hnew
    · exact h.cache w' k u hold
    · exact hnew
  · exact h.cache w' k u (by simpa [Cluster.setCache, hw] using hu)

theorem Backed.setRows (h : Backed exp s R) {rows : RevokedRows (RevocationKey τ)}
    {cleanupDueAt : ℕ → Option ℕ} (hrows : ∀ k e, rows k = some e → s.rows k = some e ∨ R k e) :
    Backed exp { s with rows, cleanupDueAt } R := by
  refine ⟨fun k e he => ?_, h.redis, h.cache, h.answers⟩
  rcases hrows k e he with hold | hnew
  · exact h.rows k e hold
  · exact hnew

variable [DecidableEq τ] {ttl : CacheTtl}

theorem Backed.setRedis (h : Backed exp s R) {k : RevocationKey τ} {e : Option RedisEntry}
    (he : ∀ e', e = some e' → e'.revoked = true → R k e'.expiresAt) :
    Backed exp (s.setRedis k e) R := by
  refine ⟨h.rows, fun k' e' he' hr => ?_, h.cache, h.answers⟩
  by_cases hk : k' = k
  · subst hk
    exact he e' (by simpa [Cluster.setRedis] using he') hr
  · exact h.redis k' e' (by simpa [Cluster.setRedis, hk] using he') hr

omit [DecidableEq τ] in
theorem caches_setCache_self (s : Cluster τ) (w : ℕ) (cache : RevocationCache (RevocationKey τ)) :
    (s.setCache w cache).caches w = cache :=
  Function.update_self _ _ _

theorem Backed.cacheStatus (h : Backed exp s R) (w : ℕ) {k : RevocationKey τ} {revoked : Bool}
    (now : ℕ) {expiresAt : ℕ} (hrevoked : revoked = true → expiresAt ≤ s.clock ∨ R k expiresAt) :
    Backed exp (s.cacheStatus ttl w k revoked now expiresAt) R := by
  refine h.setCache fun k' u hu => ?_
  rcases mem_cacheRevocationStatus hu with ⟨hold, -⟩ | hnew
  · exact Or.inl hold
  · -- a revocation is cached until its expiry
    cases hnew
    exact Or.inr (hrevoked rfl)

theorem Backed.cacheAnswer (h : Backed exp s R) (w : ℕ) {k : RevocationKey τ} {revoked : Bool}
    (now : ℕ) {expiresAt : ℕ} (env : CallEnv) (hrevoked : revoked = true → R k expiresAt) :
    Backed exp (s.cacheAnswer ttl w k revoked now expiresAt env) R := by
  have hlocal : Backed exp ((s.cacheStatus ttl w k revoked now expiresAt).tick env.d₂) R :=
    (h.cacheStatus w now fun hr => Or.inr (hrevoked hr)).tick env.d₂
  rcases s.cacheAnswer_cases w k revoked now expiresAt env with heq | heq
  · rw [heq]
    exact hlocal
  · rw [heq]
    refine hlocal.setRedis fun e' he' hr => ?_
    cases he'
    exact hrevoked hr

/-! ### Checks -/

/-- The table answers with a recorded expiry. -/
theorem Backed.selectStatus (h : Backed exp s R) (w : ℕ) (k : RevocationKey τ)
    (now tokenExp : ℕ) (env : CallEnv) :
    Backed exp (s.selectStatus ttl w k now tokenExp env).2 R ∧
      ((s.selectStatus ttl w k now tokenExp env).1 = true → ∃ e, R k e ∧ now < e) := by
  unfold Cluster.selectStatus
  cases hrow : s.rows k with
  | none => exact ⟨h.cacheAnswer w now env nofun, nofun⟩
  | some expiresAt =>
    dsimp only
    split_ifs with hexpired
    · have hdelete : Backed exp { s with rows := Function.update s.rows k none } R := by
        refine h.setRows fun k' e he => Or.inl ?_
        by_cases hk : k' = k
        · subst hk
          cases (Function.update_self k' none s.rows).symm.trans he
        · exact (Function.update_of_ne hk _ _).symm.trans he
      exact ⟨hdelete.cacheAnswer w now env nofun, nofun⟩
    · have hrecorded := h.rows k expiresAt hrow
      exact ⟨h.cacheAnswer w now env fun _ => hrecorded,
        fun _ => ⟨expiresAt, hrecorded, Nat.lt_of_not_le hexpired⟩⟩

/-- Redis does as well, but what is copied from it is only allowed by the condition. -/
theorem Backed.sharedStatus (h : Backed exp s R) (w : ℕ) (k : RevocationKey τ)
    (now tokenExp : ℕ) (env : CallEnv)
    (hcopy : env.getFails = false → ∀ e, s.redis k = some e → e.revoked = true →
      now < e.expiresAt → s.clock < e.dropAt → tokenExp ≤ s.clock ∨ R k tokenExp) :
    Backed exp (s.sharedStatus ttl w k now tokenExp env).2 R ∧
      ((s.sharedStatus ttl w k now tokenExp env).1 = true → ∃ e, R k e ∧ now < e) := by
  unfold Cluster.sharedStatus
  rcases getCachedRevocationStatus_eq s k now env with
    ⟨e, ⟨hget, hredis, hdrop, hexpired⟩, heq⟩ | heq | heq
  · rw [heq]
    refine ⟨h.cacheStatus w now fun hr => hcopy hget e hredis hr hexpired hdrop, fun hr => ?_⟩
    exact ⟨e.expiresAt, h.redis k e hredis hr, hexpired⟩
  · rw [heq]
    exact h.selectStatus w k now tokenExp env
  · rw [heq]
    exact (h.setRedis (k := k) (e := none) nofun).selectStatus w k now tokenExp env

theorem Backed.revocationStatus (h : Backed exp s R) (w : ℕ) (k : RevocationKey τ) (tokenExp : ℕ)
    (env : CallEnv)
    (hcopy : (∀ revoked u, (k, revoked, u) ∈ s.caches w → u ≤ s.clock) → env.getFails = false →
      ∀ e, s.redis k = some e → e.revoked = true → s.clock < e.expiresAt →
        s.clock + env.d₁ < e.dropAt → tokenExp ≤ s.clock + env.d₁ ∨ R k tokenExp) :
    Backed exp (s.revocationStatus ttl w k tokenExp env).2 R ∧
      ((s.revocationStatus ttl w k tokenExp env).1 = true → ∃ e, R k e ∧ s.clock < e) := by
  unfold Cluster.revocationStatus
  rcases localStatus_cases s w k s.clock with
    ⟨revoked, u, cache, hmem, hvalid, hsub, heq⟩ | ⟨cache, hmiss, hsub, heq⟩
  · rw [heq]
    refine ⟨h.setCache fun k' u' hu => Or.inl (hsub _ hu), fun hr => ?_⟩
    cases hr
    rcases h.cache w k u hmem with hold | hrecorded
    · exact absurd hvalid (Nat.not_lt.2 hold)
    · exact ⟨u, hrecorded, hvalid⟩
  · rw [heq]
    have hs : Backed exp ((s.setCache w cache).tick env.d₁) R :=
      (h.setCache fun k' u' hu => Or.inl (hsub _ hu)).tick env.d₁
    exact hs.sharedStatus w k s.clock tokenExp env (hcopy hmiss)

omit [DecidableEq τ] in
/-- The identity that a revocation has accounted for is still that of the token. -/
theorem Accounted.identity (h : Accounted exp s) {t : τ} {m n e : ℕ} (hmn : m ≤ n)
    (he : s.Recorded (resolveRevocationIdentity exp t m).1 e) (hn : n < e) :
    (resolveRevocationIdentity exp t n).1 = (resolveRevocationIdentity exp t m).1 := by
  obtain ⟨v, hv, hkey, hle⟩ := he
  cases hk : (resolveRevocationIdentity exp t m).1 with
  | jti t' =>
    have hexpiry := (h.jti v hv t' (hkey.trans hk)).symm.trans (resolveRevocationIdentity_jti hk)
    have hle' : e ≤ (resolveRevocationIdentity exp t m).2 := Option.some.inj hexpiry ▸ hle
    exact (resolveRevocationIdentity_mono hmn (hn.trans_le hle')).1.trans hk
  | raw t' => exact resolveRevocationIdentity_raw hmn hk

theorem Accounted.isTokenRevoked (h : Accounted exp s) (w : ℕ) (t : τ) (env : CallEnv)
    (hc : KeepsExpiry exp s (.check w t env)) :
    Accounted exp (s.isTokenRevoked ttl exp w t env).2 := by
  obtain ⟨hbacked, hanswer⟩ := (h.backed.tick env.d₀).revocationStatus w
    (resolveRevocationIdentity exp t s.clock).1 (resolveRevocationIdentity exp t s.clock).2 env hc
  have hanswers : Backed exp (s.isTokenRevoked ttl exp w t env).2 s.Recorded := by
    refine ⟨hbacked.rows, hbacked.redis, hbacked.cache, fun a ha hr => ?_⟩
    rcases List.mem_cons.1 ha with rfl | ha
    · obtain ⟨e, he, hlt⟩ := hanswer hr
      have hid := h.identity (Nat.le_add_right _ _) he hlt
      exact ⟨e, hid.symm ▸ he, hlt⟩
    · exact hbacked.answers a ha hr
  refine ⟨hanswers.mono fun k e he => ?_, ?_⟩
  · rwa [Recorded, revocations_isTokenRevoked]
  · rw [revocations_isTokenRevoked]
    exact h.jti

/-! ### Revocations -/

theorem Backed.store (h : Backed exp s R) (w : ℕ) {k : RevocationKey τ} {expiresAt : ℕ}
    (hk : R k expiresAt) : Backed exp (s.store w k expiresAt) R := by
  refine h.setRows fun k' e he => ?_
  by_cases hkey : k' = k
  · subst hkey
    cases storeRevokedJti_self.symm.trans he
    exact Or.inr hk
  · rcases storeRevokedJti_of_ne hkey with hsame | ⟨hnone, -⟩
    · exact Or.inl (hsame.symm.trans he)
    · cases hnone.symm.trans he

omit [DecidableEq τ] in
theorem Accounted.addRevocation {v : Revocation τ}
    (h : Backed exp s fun k e => s.Recorded k e ∨ k = v.key ∧ e ≤ v.expiry)
    (hold : ∀ v ∈ s.revocations, ∀ t, v.key = .jti t → exp t = some v.expiry)
    (hnew : ∀ t, v.key = .jti t → exp t = some v.expiry) :
    Accounted exp { s with revocations := v :: s.revocations } := by
  have hrecorded : ∀ k e, s.Recorded k e ∨ k = v.key ∧ e ≤ v.expiry →
      Recorded { s with revocations := v :: s.revocations } k e := by
    rintro k e (⟨v', hv', hkey, hle⟩ | ⟨rfl, hle⟩)
    · exact ⟨v', List.mem_cons_of_mem _ hv', hkey, hle⟩
    · exact ⟨v, List.mem_cons_self, rfl, hle⟩
  have h' := h.mono hrecorded
  refine ⟨⟨h'.rows, h'.redis, h'.cache, h'.answers⟩, fun v' hv' => ?_⟩
  rcases List.mem_cons.1 hv' with rfl | hv'
  · exact hnew
  · exact hold v' hv'

theorem Accounted.revokeToken (h : Accounted exp s) (w : ℕ) (t : τ) (env : CallEnv) :
    Accounted exp (s.revokeToken ttl exp w t env).2 := by
  obtain ⟨⟨k, expiry⟩, hr⟩ : ∃ r, resolveRevocationIdentity exp t s.clock = r := ⟨_, rfl⟩
  have hjti : ∀ t', k = .jti t' → exp t' = some expiry := by
    rintro t' rfl
    have hkey : (resolveRevocationIdentity exp t s.clock).1 = .jti t' := by rw [hr]
    simpa [hr] using resolveRevocationIdentity_jti hkey
  -- what is recorded with the new revocation
  have hnew : s.Recorded k expiry ∨ k = k ∧ expiry ≤ expiry := Or.inr ⟨rfl, le_refl _⟩
  have hbacked : Backed exp s fun k' e => s.Recorded k' e ∨ k' = k ∧ e ≤ expiry :=
    h.backed.mono fun _ _ => Or.inl
  have hstored := ((hbacked.tick env.d₀).store w hnew).tick env.d₁
  have hrevocations : ∀ now, ((((s.tick env.d₀).store w k expiry).tick env.d₁).cacheAnswer ttl w k
      true now expiry env).revocations = s.revocations :=
    fun _ => (frame_cacheAnswer ..).revocations
  unfold Cluster.revokeToken
  rw [hr]
  refine Accounted.addRevocation ?_ ?_ hjti
  · refine (hstored.cacheAnswer w _ env fun _ => hnew).mono fun k' e he => ?_
    rwa [Recorded, hrevocations]
  · rw [hrevocations]
    exact h.jti

theorem Accounted.step (h : Accounted exp s) (e : ClusterEvent τ) (hc : KeepsExpiry exp s e) :
    Accounted exp (s.step ttl exp e) := by
  cases e with
  | tick d => exact ⟨h.backed.tick d, h.jti⟩
  | evict w k =>
    exact ⟨h.backed.setCache fun k' u hu => Or.inl ((s.caches w).mem_pop.1 hu).1, h.jti⟩
  | drop k => exact ⟨h.backed.setRedis nofun, h.jti⟩
  | check w t env => exact h.isTokenRevoked w t env hc
  | revoke w t env => exact h.revokeToken w t env

/-! ## Runs -/

/-- A check that finds in Redis that the token is revoked copies it to its local cache. -/
theorem isTokenRevoked_copies {w : ℕ} {t : τ} {env : CallEnv} {k : RevocationKey τ}
    {tokenExp : ℕ} {e : RedisEntry} (hid : resolveRevocationIdentity exp t s.clock = (k, tokenExp))
    (hmiss : ∀ revoked u, (k, revoked, u) ∈ s.caches w → u ≤ s.clock + env.d₀)
    (hget : env.getFails = false) (hredis : s.redis k = some e) (hrevoked : e.revoked = true)
    (hexpired : s.clock + env.d₀ < e.expiresAt) (hdrop : s.clock + env.d₀ + env.d₁ < e.dropAt)
    (hlive : s.clock + env.d₀ < tokenExp) :
    (s.isTokenRevoked ttl exp w t env).2.clock = s.clock + env.d₀ + env.d₁ ∧
      (k, true, tokenExp) ∈ (s.isTokenRevoked ttl exp w t env).2.caches w := by
  have hmiss' : ∃ cache, (s.tick env.d₀).localStatus w k (s.clock + env.d₀) =
      (none, (s.tick env.d₀).setCache w cache) := by
    rcases localStatus_cases (s.tick env.d₀) w k (s.clock + env.d₀) with
      ⟨revoked, u, -, hmem, hvalid, -, -⟩ | ⟨cache, -, -, heq⟩
    · exact absurd hvalid (Nat.not_lt.2 (hmiss revoked u hmem))
    · exact ⟨cache, heq⟩
  obtain ⟨cache, hlocal⟩ := hmiss'
  have hhit : (((s.tick env.d₀).setCache w cache).tick env.d₁).getCachedRevocationStatus k
      (s.clock + env.d₀) env = (some e.revoked, ((s.tick env.d₀).setCache w cache).tick env.d₁) :=
    getCachedRevocationStatus_hit hget hredis hdrop hexpired
  have hrun : (s.tick env.d₀).revocationStatus ttl w k tokenExp env =
      (true, (((s.tick env.d₀).setCache w cache).tick env.d₁).cacheStatus ttl w k true
        (s.clock + env.d₀) tokenExp) := by
    unfold Cluster.revocationStatus
    rw [show (s.tick env.d₀).clock = s.clock + env.d₀ from rfl, hlocal]
    dsimp only
    rw [Cluster.sharedStatus, hhit, hrevoked]
  unfold Cluster.isTokenRevoked
  rw [hid]
  dsimp only
  rw [hrun]
  refine ⟨rfl, ?_⟩
  dsimp only
  rw [Cluster.cacheStatus, caches_setCache_self]
  exact self_mem_cacheRevocationStatus hlive

/-- A check is answered from a valid local entry. -/
theorem isTokenRevoked_hit {w : ℕ} {t : τ} {u : ℕ}
    (hmem : ((resolveRevocationIdentity exp t s.clock).1, true, u) ∈ s.caches w)
    (hvalid : s.clock < u) :
    (⟨t, s.clock, true⟩ : Answer τ) ∈ (s.isTokenRevoked ttl exp w t atOnce).2.answers := by
  rcases localStatus_cases (s.tick 0) w (resolveRevocationIdentity exp t s.clock).1 s.clock with
    ⟨revoked, u', cache, hmem', -, -, heq⟩ | ⟨cache, hmiss, -, -⟩
  · have hentry := (((s.caches w).get?_eq_some.2 hmem').symm.trans
      ((s.caches w).get?_eq_some.2 hmem))
    have hrevoked : revoked = true := congrArg Prod.fst (Option.some.inj hentry)
    have hrun : ((s.tick 0).revocationStatus ttl w (resolveRevocationIdentity exp t s.clock).1
        (resolveRevocationIdentity exp t s.clock).2 atOnce).1 = true := by
      unfold Cluster.revocationStatus
      rw [show (s.tick 0).clock = s.clock from rfl, heq]
      exact hrevoked
    refine List.mem_cons.2 (Or.inl ?_)
    rw [← hrun]
    rfl
  · exact absurd hvalid (Nat.not_lt.2 (hmiss true u hmem))

/-- A local entry that outlives all that has been recorded answers when that has expired. -/
theorem exists_not_grounded {w : ℕ} {t t' : τ} {u : ℕ}
    (hid : (resolveRevocationIdentity exp t s.clock).1 = .raw t')
    (hmem : (.raw t', true, u) ∈ s.caches w) (hlive : s.clock < u)
    (hrecorded : ¬ s.Recorded (.raw t') u) :
    ∃ more, ¬ Grounded exp (Transition.runFrom (Cluster.step ttl exp) s more) := by
  refine ⟨[.tick (u - 1 - s.clock), .check w t atOnce], fun hgrounded => ?_⟩
  have hclock : (s.tick (u - 1 - s.clock)).clock = u - 1 := by
    show s.clock + (u - 1 - s.clock) = u - 1
    omega
  have hid' := resolveRevocationIdentity_raw (Nat.le_sub_one_of_lt hlive) hid
  rw [← hclock] at hid'
  have hanswer : (⟨t, (s.tick (u - 1 - s.clock)).clock, true⟩ : Answer τ) ∈
      ((s.tick (u - 1 - s.clock)).isTokenRevoked ttl exp w t atOnce).2.answers := by
    refine isTokenRevoked_hit (u := u) ?_ (by omega)
    rw [hid']
    exact hmem
  obtain ⟨v, hv, hkey, hlt⟩ := hgrounded _ hanswer rfl
  have hsame : ((s.tick (u - 1 - s.clock)).isTokenRevoked ttl exp w t atOnce).2.revocations =
      s.revocations := revocations_isTokenRevoked ..
  refine hrecorded ⟨v, hsame ▸ hv, hkey.trans hid', ?_⟩
  dsimp only at hlt
  omega

theorem Accounted.exists_not_grounded (h : Accounted exp s) {e : ClusterEvent τ}
    (he : ¬ KeepsExpiry exp s e) :
    ∃ more, ¬ Grounded exp
      (Transition.runFrom (Cluster.step ttl exp) (s.step ttl exp e) more) := by
  cases e with
  | tick d | evict w k | drop k | revoke w t env => exact absurd trivial he
  | check w t env =>
    obtain ⟨⟨k, tokenExp⟩, hid⟩ : ∃ r, resolveRevocationIdentity exp t s.clock = r := ⟨_, rfl⟩
    have hkey : (resolveRevocationIdentity exp t s.clock).1 = k := by rw [hid]
    simp only [KeepsExpiry, hid, not_forall, not_or, not_le, exists_prop] at he
    obtain ⟨hmiss, hget, entry, hredis, hrevoked, hexpired, hdrop, hlive, hrecorded⟩ := he
    cases k with
    | jti t' =>
      -- a JWT is always recorded with its own expiry
      obtain ⟨v, hv, hvkey, -⟩ := h.backed.redis _ entry hredis hrevoked
      have hexp := (h.jti v hv t' hvkey).symm.trans (resolveRevocationIdentity_jti hkey)
      rw [hid] at hexp
      exact absurd ⟨v, hv, hvkey, (Option.some.inj hexp).ge⟩ hrecorded
    | raw t' =>
      have hnow : s.clock + env.d₀ < tokenExp := lt_of_le_of_lt (Nat.le_add_right _ _) hlive
      obtain ⟨hclock, hmem⟩ := isTokenRevoked_copies hid hmiss hget hredis hrevoked hexpired hdrop
        hnow
      show ∃ more, ¬ Grounded exp
        (Transition.runFrom (Cluster.step ttl exp) (s.isTokenRevoked ttl exp w t env).2 more)
      refine Cluster.exists_not_grounded (t := t) ?_ hmem ?_ ?_
      · refine resolveRevocationIdentity_raw ?_ hkey
        rw [hclock]
        omega
      · rwa [hclock]
      · rwa [Recorded, revocations_isTokenRevoked]

/-- Any number of workers and any order of checks and revocations: as long as no check breaks the
condition, every answer that a token is revoked has a revocation in force that accounts for it; and
a run that has met the condition so far and breaks it can go on to an answer that has none. -/
theorem grounded_along_keepsExpiry (ttl : CacheTtl) (exp : τ → Option ℕ) (clock : ℕ) :
    (∀ events,
      Transition.Along (Cluster.step ttl exp) (KeepsExpiry exp) (start clock fun _ => none) events →
      Transition.Always (Cluster.step ttl exp) (Grounded exp) (start clock fun _ => none) events) ∧
    ∀ events e,
      Transition.Along (Cluster.step ttl exp) (KeepsExpiry exp) (start clock fun _ => none) events →
      ¬ KeepsExpiry exp
        (Transition.runFrom (Cluster.step ttl exp) (start clock fun _ => none) events) e →
      ∃ more, ¬ Transition.Always (Cluster.step ttl exp) (Grounded exp)
        (start clock fun _ => none) (events ++ e :: more) := by
  constructor
  · intro events h
    have haccounted := Transition.Always.of_along (P := Accounted exp) (C := KeepsExpiry exp)
      (fun _ e hs he => hs.step e he) (accounted_start clock) h
    exact haccounted.mono fun _ hs => hs.grounded
  · intro events e h he
    have haccounted := h.runFrom_induct (P := Accounted exp) (fun _ e hs hc => hs.step e hc)
      (accounted_start clock)
    obtain ⟨more, hmore⟩ := @Accounted.exists_not_grounded _ _ _ _ ttl haccounted _ he
    refine ⟨more, fun halways => hmore ?_⟩
    have hlast := halways.last
    rwa [Transition.runFrom_append, Transition.runFrom_cons] at hlast

/-- Redis answers worker 1 for a token that worker 0 has revoked.  The token is a valid JWT, so what
worker 1 copies lives until the recorded expiry. -/
theorem grounded_along_keepsExpiry_jwt :
    Transition.Always (Cluster.step ⟨second, by decide⟩ fun _ : ℕ => some (5 * second))
      (Grounded fun _ => some (5 * second)) (start 0 fun _ => none)
      [.revoke 0 7 atOnce, .tick second, .check 1 7 atOnce] := by
  apply (grounded_along_keepsExpiry ⟨second, by decide⟩ (fun _ => some (5 * second)) 0).1
  refine ⟨trivial, trivial, fun _ _ e _ _ _ _ => ?_, trivial⟩
  exact Or.inr ⟨_, List.mem_cons_self, rfl, le_refl (5 * second)⟩

/-- Worker 1 copies the revocation from Redis after a second, and still answers with the copy when
the recorded thirty days are over. -/
theorem copied_revocation_outlives :
    ¬ Transition.Always (Cluster.step ⟨second, by decide⟩ fun _ : ℕ => none)
      (Grounded fun _ => none) (start 0 fun _ => none)
      [.revoke 0 7 atOnce, .tick second, .check 1 7 atOnce, .tick (fallbackRawTokenTtl - second),
        .check 1 7 atOnce] := by
  intro h
  obtain ⟨v, hv, -, hlt⟩ := h.last ⟨7, fallbackRawTokenTtl, true⟩ (List.mem_cons_self ..) rfl
  obtain rfl := List.mem_singleton.1 hv
  exact absurd hlt (by decide)

end AranesLms.Cluster
