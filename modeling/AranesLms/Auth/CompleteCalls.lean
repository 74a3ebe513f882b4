import AranesLms.Auth.Durability

/-!
# Complete calls

The two models of `is_token_revoked` and `revoke_token` agree: a call that goes on from its start
to its end without another one in between does what `Cluster.step` does in one step, so every run
of complete calls is a run of the interleaving (`complete_calls_interleave`).
-/

namespace AranesLms.Interleaving

open Transition

variable {τ : Type}

/-- The time passes or the call goes on. -/
def Continues (w c : ℕ) : InterleavingEvent τ → Prop
  | .tick _ => True
  | .resume w' c' _ => w' = w ∧ c' = c
  | _ => False

/-- The workers with another cluster, and one call at `x`. -/
def withCall (s : Interleaving τ) (w c : ℕ) (cluster : Cluster τ) (x : RevocationCall τ) :
    Interleaving τ :=
  (s.setCluster cluster).setCall w c x

/-- The check has returned, with the answer and the cluster that `r` holds. -/
def answered (s : Interleaving τ) (w c : ℕ) (k : RevocationKey τ) (now : ℕ)
    (r : Bool × Cluster τ) : Interleaving τ :=
  s.withCall w c { r.2 with answers := ⟨k.token, now, r.1⟩ :: r.2.answers } (.answered r.1)

variable {s : Interleaving τ} {w c : ℕ} {cluster cluster' : Cluster τ} {x y : RevocationCall τ}

@[simp] theorem withCall_cluster : (s.withCall w c cluster x).cluster = cluster := rfl

@[simp] theorem withCall_calls : (s.withCall w c cluster x).calls w c = x := by
  simp [withCall, Interleaving.setCall]

@[simp] theorem withCall_setCluster :
    (s.withCall w c cluster x).setCluster cluster' = s.withCall w c cluster' x := rfl

@[simp] theorem withCall_setCall :
    (s.withCall w c cluster x).setCall w c y = s.withCall w c cluster y := by
  simp [withCall, Interleaving.setCall, Interleaving.setCluster]

@[simp] theorem withCall_answer (k : RevocationKey τ) (now : ℕ) (revoked : Bool) :
    (s.withCall w c cluster x).answer w c k now revoked =
      s.answered w c k now (revoked, cluster) := by
  simp [Interleaving.answer, answered]

variable [DecidableEq τ] {ttl : CacheTtl} {exp : τ → Option ℕ}

/-- The call takes a step. -/
theorem leads_resume (fails : Bool) {t : Interleaving τ}
    (h : Leads (Interleaving.step ttl exp) (Continues w c)
      ((s.withCall w c cluster x).resume ttl w c fails x) t) :
    Leads (Interleaving.step ttl exp) (Continues w c) (s.withCall w c cluster x) t := by
  refine Leads.head (a := .resume w c fails) ⟨rfl, rfl⟩ ?_
  rwa [Interleaving.step, withCall_calls]

theorem leads_tick (d : ℕ) {t : Interleaving τ}
    (h : Leads (Interleaving.step ttl exp) (Continues w c)
      (s.withCall w c (cluster.tick d) x) t) :
    Leads (Interleaving.step ttl exp) (Continues w c) (s.withCall w c cluster x) t :=
  Leads.head (a := .tick d) trivial h

/-- The end of a check: the local entry, the Redis entry, the answer. -/
theorem leads_finish (s : Interleaving τ) (w c : ℕ) (cluster : Cluster τ) (x : RevocationCall τ)
    (k : RevocationKey τ) (revoked : Bool) (now expiresAt : ℕ) (env : CallEnv) :
    Leads (Interleaving.step ttl exp) (Continues w c)
      ((s.withCall w c cluster x).finish ttl w c k revoked now expiresAt)
      (s.answered w c k now (revoked, cluster.cacheAnswer ttl w k revoked now expiresAt env)) := by
  have hstart : (s.withCall w c cluster x).finish ttl w c k revoked now expiresAt =
      s.withCall w c (cluster.cacheStatus ttl w k revoked now expiresAt)
        (.caching k revoked now expiresAt) := by
    simp [Interleaving.finish]
  rw [hstart]
  refine leads_tick env.d₂ (leads_resume env.setFails ?_)
  simp only [Interleaving.resume, Interleaving.publish, withCall_cluster, withCall_setCluster,
    withCall_answer]
  exact .refl _

theorem leads_select (s : Interleaving τ) (w c : ℕ) (cluster : Cluster τ) (k : RevocationKey τ)
    (now tokenExp : ℕ) (env : CallEnv) :
    Leads (Interleaving.step ttl exp) (Continues w c)
      (s.withCall w c cluster (.selecting k now tokenExp))
      (s.answered w c k now (cluster.selectStatus ttl w k now tokenExp env)) := by
  refine leads_resume false ?_
  simp only [Interleaving.resume, withCall_cluster, withCall_setCall, Bool.false_eq_true, if_false]
  refine leads_resume false ?_
  unfold Cluster.selectStatus
  cases hrow : cluster.rows k with
  | none =>
    dsimp only
    exact leads_finish s w c cluster _ k false now tokenExp env
  | some expiresAt =>
    simp only [Interleaving.resume]
    split_ifs
    · rw [withCall_setCall]
      refine leads_resume false ?_
      simp only [Interleaving.resume, Interleaving.delete, withCall_cluster, withCall_setCluster,
        withCall_setCall, Bool.false_eq_true, if_false]
      refine leads_resume false ?_
      exact leads_finish s w c _ _ k false now tokenExp env
    · exact leads_finish s w c cluster _ k true now expiresAt env

theorem getCachedRevocationStatus_eq_getJson (s : Interleaving τ) (k : RevocationKey τ) (now : ℕ)
    (env : CallEnv) :
    s.cluster.getCachedRevocationStatus k now env =
      match s.getJson k env.getFails with
      | none => (none, s.cluster)
      | some e =>
        if e.expiresAt ≤ now then
          (none, if env.deleteFails then s.cluster else s.cluster.setRedis k none)
        else (some e.revoked, s.cluster) := by
  unfold Cluster.getCachedRevocationStatus Interleaving.getJson
  cases env.getFails with
  | true => rfl
  | false =>
    cases s.cluster.redis k with
    | none => rfl
    | some e =>
      by_cases hdrop : e.dropAt ≤ s.cluster.clock
      · simp [Option.filter, hdrop, Nat.not_lt.2 hdrop]
      · simp [Option.filter, hdrop, Nat.lt_of_not_le hdrop]

theorem leads_ask (s : Interleaving τ) (w c : ℕ) (cluster : Cluster τ) (k : RevocationKey τ)
    (now tokenExp : ℕ) (env : CallEnv) :
    Leads (Interleaving.step ttl exp) (Continues w c)
      (s.withCall w c cluster (.asking k now tokenExp))
      (s.answered w c k now (cluster.sharedStatus ttl w k now tokenExp env)) := by
  have hget := getCachedRevocationStatus_eq_getJson
    (s.withCall w c cluster (.asking k now tokenExp)) k now env
  rw [withCall_cluster] at hget
  unfold Cluster.sharedStatus
  rw [hget]
  refine leads_resume env.getFails ?_
  simp only [Interleaving.resume, withCall_setCall]
  refine leads_resume false ?_
  cases (s.withCall w c cluster (.asking k now tokenExp)).getJson k env.getFails with
  | none =>
    simp only [Interleaving.resume, withCall_setCall]
    exact leads_select s w c cluster k now tokenExp env
  | some e =>
    by_cases hexpired : e.expiresAt ≤ now
    · simp only [Interleaving.resume, if_pos hexpired, withCall_setCall]
      refine leads_resume env.deleteFails ?_
      simp only [Interleaving.resume, withCall_cluster, withCall_setCluster, withCall_setCall]
      exact leads_select s w c _ k now tokenExp env
    · simp only [Interleaving.resume, if_neg hexpired, withCall_cluster, withCall_setCluster,
        withCall_answer]
      exact .refl _

/-- A check that runs alone is the one of `Cluster.step`. -/
theorem leads_check (hfresh : s.calls w c = .fresh) (t : τ) (env : CallEnv) :
    ∃ revoked, Leads (Interleaving.step ttl exp) (Continues w c)
      (s.step ttl exp (.check w c t env.d₀))
      (s.withCall w c (s.cluster.isTokenRevoked ttl exp w t env).2 (.answered revoked)) := by
  have hstep : s.step ttl exp (.check w c t env.d₀) = s.startCheck exp w c t env.d₀ := by
    rw [Interleaving.step, hfresh]
  have htoken := resolveRevocationIdentity_token exp t s.cluster.clock
  obtain ⟨⟨k, tokenExp⟩, hid⟩ : ∃ r, resolveRevocationIdentity exp t s.cluster.clock = r :=
    ⟨_, rfl⟩
  rw [hid] at htoken
  subst htoken
  refine ⟨((s.cluster.tick env.d₀).revocationStatus ttl w k tokenExp env).1, ?_⟩
  have hgoal : s.withCall w c (s.cluster.isTokenRevoked ttl exp w k.token env).2
      (.answered ((s.cluster.tick env.d₀).revocationStatus ttl w k tokenExp env).1) =
      s.answered w c k (s.cluster.clock + env.d₀)
        ((s.cluster.tick env.d₀).revocationStatus ttl w k tokenExp env) := by
    rw [Cluster.isTokenRevoked, hid]
    rfl
  rw [hstep, hgoal, Interleaving.startCheck, hid]
  dsimp only
  unfold Cluster.revocationStatus
  rcases Cluster.localStatus_cases (s.cluster.tick env.d₀) w k (s.cluster.clock + env.d₀) with
    ⟨cached, u, cache, -, -, -, hlocal⟩ | ⟨cache, -, -, hlocal⟩
  · rw [show (s.cluster.tick env.d₀).clock = s.cluster.clock + env.d₀ from rfl, hlocal]
    exact .refl _
  · rw [show (s.cluster.tick env.d₀).clock = s.cluster.clock + env.d₀ from rfl, hlocal]
    exact leads_tick env.d₁ (leads_ask s w c _ k _ tokenExp env)

/-- A revocation that runs alone is the one of `Cluster.step`. -/
theorem leads_revoke (hfresh : s.calls w c = .fresh) (t : τ) (env : CallEnv) :
    Leads (Interleaving.step ttl exp) (Continues w c) (s.step ttl exp (.revoke w c t env.d₀))
      (withCall
        { s with committed := resolveRevocationIdentity exp t s.cluster.clock :: s.committed }
        w c (s.cluster.revokeToken ttl exp w t env).2 .revoked) := by
  have hstep : s.step ttl exp (.revoke w c t env.d₀) = s.startRevoke exp w c t env.d₀ := by
    rw [Interleaving.step, hfresh]
  have htoken := resolveRevocationIdentity_token exp t s.cluster.clock
  obtain ⟨⟨k, expiresAt⟩, hid⟩ : ∃ r, resolveRevocationIdentity exp t s.cluster.clock = r :=
    ⟨_, rfl⟩
  rw [hid] at htoken
  subst htoken
  rw [hstep, Interleaving.startRevoke, Cluster.revokeToken, hid]
  dsimp only
  refine leads_resume false ?_
  have hstore : (s.withCall w c (s.cluster.tick env.d₀)
      (.storing k (s.cluster.clock + env.d₀) expiresAt)).resume ttl w c false
        (.storing k (s.cluster.clock + env.d₀) expiresAt) =
      withCall { s with committed := (k, expiresAt) :: s.committed } w c
        ((s.cluster.tick env.d₀).store w k expiresAt) (.stored k expiresAt) := by
    rw [Interleaving.resume, if_neg Bool.false_ne_true]
    exact @withCall_setCall _ { s with committed := (k, expiresAt) :: s.committed } w c _
      (.storing k (s.cluster.clock + env.d₀) expiresAt) _
  rw [hstore]
  refine leads_tick env.d₁ (leads_resume false ?_)
  simp only [Interleaving.resume, withCall_cluster, withCall_setCluster, withCall_setCall]
  refine leads_tick env.d₂ (leads_resume env.setFails ?_)
  simp only [Interleaving.resume, Interleaving.publish, Interleaving.complete, withCall_cluster,
    withCall_setCluster, withCall_setCall]
  exact .refl _

/-- The calls from `n` on have not been made. -/
def FreshFrom (n : ℕ) (s : Interleaving τ) : Prop := ∀ w c, n ≤ c → s.calls w c = .fresh

omit [DecidableEq τ] in
theorem FreshFrom.withCall {n : ℕ} (h : s.FreshFrom n) (w : ℕ) (cluster : Cluster τ)
    (x : RevocationCall τ) : (s.withCall w n cluster x).FreshFrom (n + 1) := by
  intro w' c' hc
  rcases (s.setCluster cluster).setCall_calls w n x w' c' with ⟨-, -, rfl⟩ | hother
  · omega
  · exact hother.trans (h w' c' (Nat.le_of_succ_le hc))

theorem FreshFrom.exists_leads {n : ℕ} (h : s.FreshFrom n) (e : ClusterEvent τ) :
    ∃ s' n', s'.FreshFrom n' ∧ Leads (Interleaving.step ttl exp) (fun _ => True) s s' ∧
      s'.cluster = s.cluster.step ttl exp e := by
  cases e with
  | tick d =>
    exact ⟨s.step ttl exp (.tick d), n, h, .head (a := .tick d) trivial (.refl _), rfl⟩
  | evict w k =>
    exact ⟨s.step ttl exp (.evict w k), n, h, .head (a := .evict w k) trivial (.refl _), rfl⟩
  | drop k =>
    exact ⟨s.step ttl exp (.drop k), n, h, .head (a := .drop k) trivial (.refl _), rfl⟩
  | check w t env =>
    obtain ⟨revoked, hcheck⟩ : ∃ revoked, Leads (Interleaving.step ttl exp) (Continues w n)
        (s.step ttl exp (.check w n t env.d₀))
        (s.withCall w n (s.cluster.isTokenRevoked ttl exp w t env).2 (.answered revoked)) :=
      leads_check (h w n le_rfl) t env
    exact ⟨_, n + 1, h.withCall w _ _,
      .head (a := .check w n t env.d₀) trivial (hcheck.mono fun _ _ => trivial), rfl⟩
  | revoke w t env =>
    have hrevoke : Leads (Interleaving.step ttl exp) (Continues w n)
        (s.step ttl exp (.revoke w n t env.d₀)) _ := leads_revoke (h w n le_rfl) t env
    refine ⟨_, n + 1, ?_,
      .head (a := .revoke w n t env.d₀) trivial (hrevoke.mono fun _ _ => trivial), rfl⟩
    have hfresh : FreshFrom n { s with committed := resolveRevocationIdentity exp t s.cluster.clock
      :: s.committed } := h
    exact hfresh.withCall w _ .revoked

/-- Every run of complete calls is a run of the interleaving. -/
theorem complete_calls_interleave (ttl : CacheTtl) (exp : τ → Option ℕ) (cluster : Cluster τ)
    (events : List (ClusterEvent τ)) :
    ∃ s, Leads (Interleaving.step ttl exp) (fun _ => True) (start cluster) s ∧
      s.cluster = runFrom (Cluster.step ttl exp) cluster events := by
  suffices hrun : ∀ (s : Interleaving τ) (n : ℕ), s.FreshFrom n →
      ∃ s', Leads (Interleaving.step ttl exp) (fun _ => True) s s' ∧
        s'.cluster = runFrom (Cluster.step ttl exp) s.cluster events by
    exact hrun (start cluster) 0 fun _ _ _ => rfl
  induction events with
  | nil => exact fun s n _ => ⟨s, .refl s, rfl⟩
  | cons e es ih =>
    intro s n hs
    obtain ⟨s₁, n₁, hs₁, hlead, hstep⟩ := @FreshFrom.exists_leads _ _ _ ttl exp n hs e
    obtain ⟨s₂, hlead', hrun⟩ := ih s₁ n₁ hs₁
    exact ⟨s₂, hlead.trans hlead', by rw [hrun, hstep, runFrom_cons]⟩

end AranesLms.Interleaving
