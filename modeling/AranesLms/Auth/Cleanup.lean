import AranesLms.Auth.Durability

/-!
# The cleanup of the revocation table

A revocation deletes the expired rows in its own transaction, but each worker does so at most once
a minute.  The calls are interleaved as in `AranesLms.Auth.Durability`, so a call can commit long
after it has read the clock, and the calls of one worker in any order.

The table does not fill up with expired rows (`along_leavesTidy`): a revocation that commits leaves
no row that had expired more than a minute before the call read the clock.  This needs that no
transaction with a cleanup is rolled back, since the date of the next cleanup stays then; and a row
that is expired when it is committed is kept for that much longer.
-/

namespace AranesLms

/-- The call does not wait for the transaction of a revocation. -/
def RevocationCall.DoesNotStore {τ : Type} : RevocationCall τ → Prop
  | .storing _ _ _ => False
  | _ => True

theorem RevocationCall.doesNotStore_or {τ : Type} (x : RevocationCall τ) :
    x.DoesNotStore ∨ ∃ k now expiresAt, x = .storing k now expiresAt := by
  cases x with
  | storing k now expiresAt => exact Or.inr ⟨k, now, expiresAt, rfl⟩
  | fresh | asking | asked | clearing | selecting | selected | dropping | dropped | caching
  | answered | stored | announcing | revoked | raised => exact Or.inl trivial

namespace Interleaving

variable {τ : Type} [DecidableEq τ] {ttl : CacheTtl} {exp : τ → Option ℕ} {slack : ℕ}
  {s s' s'' : Interleaving τ}

/-- Condition on a step: no revocation is rolled back together with a cleanup, and none commits
later than `slack` after its expiry. -/
def Cleans (slack : ℕ) (s : Interleaving τ) : InterleavingEvent τ → Prop
  | .resume w c fails =>
    match s.calls w c with
    | .storing _ now expiresAt =>
      if fails then (s.cluster.cleanupDueAt w).any (now < ·) = true
      else s.cluster.clock < expiresAt + slack
    | _ => True
  | _ => True

/-- A revocation that commits in this step leaves no row that was expired for longer than the
interval of the cleanups, and `slack`, when the call read the clock. -/
def LeavesTidy (ttl : CacheTtl) (exp : τ → Option ℕ) (slack : ℕ) (s : Interleaving τ)
    (event : InterleavingEvent τ) : Prop :=
  ∀ w c k now expiresAt, event = .resume w c false → s.calls w c = .storing k now expiresAt →
    ∀ k' e, (s.step ttl exp event).cluster.rows k' = some e →
      now < e + revocationExpiryCleanupInterval + slack

/-- The worker's next cleanup is at most an interval away, and no row expires earlier than an
interval, and `slack`, before it. -/
structure Tidy (slack : ℕ) (s : Interleaving τ) : Prop where
  due : ∀ w d, s.cluster.cleanupDueAt w = some d →
    d ≤ s.cluster.clock + revocationExpiryCleanupInterval
  rows : ∀ w d, s.cluster.cleanupDueAt w = some d → ∀ k e, s.cluster.rows k = some e →
    d < e + revocationExpiryCleanupInterval + slack
  calls : ∀ w c k now expiresAt, s.calls w c = .storing k now expiresAt → now ≤ s.cluster.clock

omit [DecidableEq τ] in
theorem tidy_start (clock : ℕ) (rows : RevokedRows (RevocationKey τ)) :
    Tidy slack (start (Cluster.start clock rows)) := by
  refine ⟨fun w d hd => ?_, fun w d hd => ?_, fun w c k now expiresAt hc => ?_⟩
  · cases hd
  · cases hd
  · cases hc

/-! ## Steps that store nothing -/

/-- What every step but the transaction of a revocation does: it adds no row and moves no cleanup,
and a revocation that has not committed yet has read the clock. -/
structure Quiet (s s' : Interleaving τ) : Prop where
  clock : s.cluster.clock ≤ s'.cluster.clock
  dueAt : s'.cluster.cleanupDueAt = s.cluster.cleanupDueAt
  rows : ∀ k e, s'.cluster.rows k = some e → s.cluster.rows k = some e
  calls : ∀ w c k now expiresAt, s'.calls w c = .storing k now expiresAt →
    s.calls w c = .storing k now expiresAt ∨ now ≤ s'.cluster.clock

omit [DecidableEq τ] in
theorem Quiet.refl (s : Interleaving τ) : Quiet s s :=
  ⟨le_rfl, rfl, fun _ _ h => h, fun _ _ _ _ _ h => Or.inl h⟩

omit [DecidableEq τ] in
theorem Quiet.trans (h : Quiet s s') (h' : Quiet s' s'') : Quiet s s'' where
  clock := h.clock.trans h'.clock
  dueAt := h'.dueAt.trans h.dueAt
  rows k e he := h.rows k e (h'.rows k e he)
  calls w c k now expiresAt hc := by
    rcases h'.calls w c k now expiresAt hc with hc | hnow
    · exact (h.calls w c k now expiresAt hc).imp_right fun hnow => hnow.trans h'.clock
    · exact Or.inr hnow

omit [DecidableEq τ] in
theorem Quiet.tidy (h : Quiet s s') (ht : Tidy slack s) : Tidy slack s' where
  due w d hd := by
    rw [h.dueAt] at hd
    exact (ht.due w d hd).trans (Nat.add_le_add_right h.clock _)
  rows w d hd k e he := by
    rw [h.dueAt] at hd
    exact ht.rows w d hd k e (h.rows k e he)
  calls w c k now expiresAt hc := by
    rcases h.calls w c k now expiresAt hc with hc | hnow
    · exact (ht.calls w c k now expiresAt hc).trans h.clock
    · exact hnow

omit [DecidableEq τ] in
theorem quiet_setCluster {cluster : Cluster τ} (hclock : s.cluster.clock ≤ cluster.clock)
    (hdue : cluster.cleanupDueAt = s.cluster.cleanupDueAt) (hrows : cluster.rows = s.cluster.rows) :
    Quiet s (s.setCluster cluster) where
  clock := hclock
  dueAt := hdue
  rows k e he := by rwa [show (s.setCluster cluster).cluster.rows = s.cluster.rows from hrows] at he
  calls _ _ _ _ _ hc := Or.inl hc

omit [DecidableEq τ] in
/-- A call that goes on waits for its own transaction only when it has read the clock. -/
theorem quiet_setCall {w c : ℕ} {x : RevocationCall τ}
    (hx : ∀ k now expiresAt, x = .storing k now expiresAt → now ≤ s.cluster.clock) :
    Quiet s (s.setCall w c x) where
  clock := le_rfl
  dueAt := rfl
  rows _ _ he := he
  calls w' c' k now expiresAt hc := by
    rcases s.setCall_calls w c x w' c' with ⟨heq, -, -⟩ | hsame
    · exact Or.inr (hx k now expiresAt (heq.symm.trans hc))
    · exact Or.inl (hsame.symm.trans hc)

omit [DecidableEq τ] in
theorem quiet_move (s : Interleaving τ) {w c : ℕ} {x : RevocationCall τ} (hx : x.DoesNotStore) :
    Quiet s (s.setCall w c x) := by
  refine quiet_setCall fun k now expiresAt h => ?_
  subst h
  cases hx

omit [DecidableEq τ] in
theorem quiet_goOn {cluster : Cluster τ} {w c : ℕ} {x : RevocationCall τ}
    (hclock : s.cluster.clock ≤ cluster.clock)
    (hdue : cluster.cleanupDueAt = s.cluster.cleanupDueAt) (hrows : cluster.rows = s.cluster.rows)
    (hx : x.DoesNotStore) : Quiet s ((s.setCluster cluster).setCall w c x) :=
  (quiet_setCluster hclock hdue hrows).trans (quiet_move _ hx)

omit [DecidableEq τ] in
theorem quiet_answer (s : Interleaving τ) (w c : ℕ) (k : RevocationKey τ) (now : ℕ)
    (revoked : Bool) : Quiet s (s.answer w c k now revoked) :=
  quiet_goOn le_rfl rfl rfl trivial

theorem quiet_startCheck (s : Interleaving τ) (w c : ℕ) (t : τ) (d : ℕ) :
    Quiet s (s.startCheck exp w c t d) := by
  have hclock : s.cluster.clock ≤ s.cluster.clock + d := Nat.le_add_right _ _
  unfold Interleaving.startCheck
  dsimp only
  rcases Cluster.localStatus_cases (s.cluster.tick d) w
    (resolveRevocationIdentity exp t s.cluster.clock).1 (s.cluster.clock + d) with
    ⟨cached, u, cache, -, -, -, hlocal⟩ | ⟨cache, -, -, hlocal⟩
  · rw [hlocal]
    refine Quiet.trans ?_ (quiet_answer _ w c _ _ cached)
    exact quiet_setCluster hclock rfl rfl
  · rw [hlocal]
    exact quiet_goOn hclock rfl rfl trivial

omit [DecidableEq τ] in
/-- A revocation starts with the clock that it reads. -/
theorem quiet_startRevoke (s : Interleaving τ) (w c : ℕ) (t : τ) (d : ℕ) :
    Quiet s (s.startRevoke exp w c t d) := by
  have htick : Quiet s (s.setCluster (s.cluster.tick d)) :=
    quiet_setCluster (Nat.le_add_right _ _) rfl rfl
  refine htick.trans (quiet_setCall fun k now expiresAt h => ?_)
  cases h
  exact le_rfl

theorem quiet_publish (s : Interleaving τ) (k : RevocationKey τ) (revoked : Bool)
    (now expiresAt : ℕ) (fails : Bool) : Quiet s (s.publish ttl k revoked now expiresAt fails) := by
  unfold Interleaving.publish Cluster.setCachedRevocationStatus
  dsimp only
  split_ifs
  · exact quiet_setCluster le_rfl rfl rfl
  · exact quiet_setCluster le_rfl rfl rfl

theorem quiet_delete (s : Interleaving τ) (k : RevocationKey τ) : Quiet s (s.delete k) where
  clock := le_rfl
  dueAt := rfl
  rows k' e he := by
    by_cases hk : k' = k
    · subst hk
      cases (rows_delete_self s k').symm.trans he
    · exact (rows_delete_of_ne s hk).symm.trans he
  calls _ _ _ _ _ hc := Or.inl hc

/-- Every step of a call is quiet but the transaction of a revocation. -/
theorem quiet_resume (s : Interleaving τ) (w c : ℕ) (fails : Bool)
    (hx : (s.calls w c).DoesNotStore) : Quiet s (s.resume ttl w c fails (s.calls w c)) := by
  cases hcall : s.calls w c with
  | fresh | answered revoked | revoked | raised => exact Quiet.refl s
  | asking k now tokenExp => exact quiet_move s trivial
  | asked k now tokenExp payload =>
    cases payload with
    | none => exact quiet_move s trivial
    | some e =>
      unfold Interleaving.resume
      dsimp only
      split_ifs
      · exact quiet_move s trivial
      · refine Quiet.trans ?_ (quiet_answer _ w c k now e.revoked)
        exact quiet_setCluster le_rfl rfl rfl
  | clearing k now tokenExp =>
    cases fails with
    | true => exact quiet_goOn le_rfl rfl rfl trivial
    | false => exact quiet_goOn le_rfl rfl rfl trivial
  | selecting k now tokenExp =>
    cases fails with
    | true => exact quiet_move s trivial
    | false => exact quiet_move s trivial
  | selected k now tokenExp row =>
    cases row with
    | none => exact quiet_goOn le_rfl rfl rfl trivial
    | some expiresAt =>
      unfold Interleaving.resume
      dsimp only
      split_ifs
      · exact quiet_move s trivial
      · exact quiet_goOn le_rfl rfl rfl trivial
  | dropping k now tokenExp =>
    cases fails with
    | true => exact quiet_move s trivial
    | false =>
      exact (quiet_delete s k).trans
        (quiet_goOn le_rfl rfl rfl trivial)
  | dropped k now tokenExp =>
    exact quiet_goOn le_rfl rfl rfl trivial
  | caching k revoked now expiresAt =>
    exact (quiet_publish s k revoked now expiresAt fails).trans (quiet_answer _ w c k now revoked)
  | storing k now expiresAt =>
    rw [hcall] at hx
    cases hx
  | stored k expiresAt =>
    exact quiet_goOn le_rfl rfl rfl trivial
  | announcing k now expiresAt =>
    exact (quiet_publish s k true now expiresAt fails).trans
      (quiet_goOn le_rfl rfl rfl trivial)

/-! ## The transaction -/

omit [DecidableEq τ] in
theorem deleteExpired_eq_some {rows : RevokedRows (RevocationKey τ)} {now e : ℕ}
    {k : RevocationKey τ} :
    deleteExpired rows now k = some e ↔ rows k = some e ∧ now < e := by
  unfold deleteExpired
  cases rows k with
  | none => simp
  | some e' =>
    dsimp only
    split_ifs with he
    · constructor
      · intro h
        cases h
      · rintro ⟨h, hlive⟩
        cases h
        exact absurd hlive (Nat.not_lt.2 he)
    · constructor
      · intro h
        cases h
        exact ⟨rfl, Nat.not_le.1 he⟩
      · exact fun h => h.1

/-- The transaction leaves the cleanup for later, or only rows that live are left, and the new
one. -/
theorem store_cases (s : Interleaving τ) (w : ℕ) (k : RevocationKey τ) (now expiresAt : ℕ) :
    (s.store w k now expiresAt false).cluster.cleanupDueAt = s.cluster.cleanupDueAt ∧
      (∃ d, s.cluster.cleanupDueAt w = some d ∧ now < d) ∨
    (s.store w k now expiresAt false).cluster.cleanupDueAt =
        Function.update s.cluster.cleanupDueAt w (some (now + revocationExpiryCleanupInterval)) ∧
      ∀ k' e, k' ≠ k → (s.store w k now expiresAt false).cluster.rows k' = some e → now < e := by
  by_cases hdue : (s.cluster.cleanupDueAt w).any (now < ·) = true
  · left
    obtain ⟨d, hd, hlt⟩ := (Option.any_eq_true _ _).1 hdue
    refine ⟨?_, d, hd, of_decide_eq_true hlt⟩
    simp only [Interleaving.store, storeRevokedJti, shouldCleanupExpiredRevocations, if_pos hdue,
      Function.update_eq_self, Bool.false_eq_true, if_false]
  · right
    simp only [Interleaving.store, storeRevokedJti, shouldCleanupExpiredRevocations, if_neg hdue,
      Bool.false_eq_true, if_false, if_true, true_and]
    intro k' e hk he
    rw [Function.update_of_ne hk] at he
    exact (deleteExpired_eq_some.1 he).2

theorem rows_store (s : Interleaving τ) (w : ℕ) (k : RevocationKey τ) (now expiresAt : ℕ)
    {k' : RevocationKey τ} {e : ℕ}
    (he : (s.store w k now expiresAt false).cluster.rows k' = some e) :
    k' = k ∧ e = expiresAt ∨ k' ≠ k ∧ s.cluster.rows k' = some e := by
  by_cases hk : k' = k
  · subst hk
    cases (rows_store_self s w k' now expiresAt).symm.trans he
    exact Or.inl ⟨rfl, rfl⟩
  · rcases rows_store_of_ne s w now expiresAt hk with hsame | ⟨hnone, -⟩
    · exact Or.inr ⟨hk, hsame.symm.trans he⟩
    · cases hnone.symm.trans he

/-- A row that is new lives long enough, whatever date of the next cleanup it is held against. -/
theorem Tidy.store (ht : Tidy slack s) (w : ℕ) (k : RevocationKey τ) {now expiresAt : ℕ}
    (hnow : now ≤ s.cluster.clock) (hlate : s.cluster.clock < expiresAt + slack) :
    Tidy slack (s.store w k now expiresAt false) := by
  have hdue : ∀ w' d, (s.store w k now expiresAt false).cluster.cleanupDueAt w' = some d →
      d ≤ s.cluster.clock + revocationExpiryCleanupInterval := by
    intro w' d hd
    rcases store_cases s w k now expiresAt with ⟨hsame, -⟩ | ⟨hnew, -⟩
    · exact ht.due w' d (by rwa [hsame] at hd)
    · rw [hnew] at hd
      by_cases hw : w' = w
      · subst hw
        rw [Function.update_self] at hd
        cases hd
        exact Nat.add_le_add_right hnow _
      · rw [Function.update_of_ne hw] at hd
        exact ht.due w' d hd
  refine ⟨hdue, fun w' d hd k' e he => ?_, ht.calls⟩
  rcases rows_store s w k now expiresAt he with ⟨-, rfl⟩ | ⟨hk, hold⟩
  · have hle := hdue w' d hd
    omega
  · rcases store_cases s w k now expiresAt with ⟨hsame, -⟩ | ⟨hnew, hlive⟩
    · exact ht.rows w' d (by rwa [hsame] at hd) k' e hold
    · rw [hnew] at hd
      by_cases hw : w' = w
      · subst hw
        rw [Function.update_self] at hd
        cases hd
        have hlt := hlive k' e hk he
        omega
      · rw [Function.update_of_ne hw] at hd
        exact ht.rows w' d hd k' e hold

/-- The worker's next cleanup is ahead of what the call has read. -/
theorem exists_due_store (s : Interleaving τ) (w : ℕ) (k : RevocationKey τ) (now expiresAt : ℕ) :
    ∃ d, (s.store w k now expiresAt false).cluster.cleanupDueAt w = some d ∧ now < d := by
  rcases store_cases s w k now expiresAt with ⟨hsame, d, hd, hlt⟩ | ⟨hnew, -⟩
  · exact ⟨d, by rw [hsame, hd], hlt⟩
  · refine ⟨now + revocationExpiryCleanupInterval, by rw [hnew, Function.update_self], ?_⟩
    exact Nat.lt_add_of_pos_right (by decide)

/-- A transaction that is rolled back without a cleanup changes nothing. -/
theorem store_rollback {w : ℕ} {now : ℕ} (hdue : (s.cluster.cleanupDueAt w).any (now < ·) = true)
    (k : RevocationKey τ) (expiresAt : ℕ) : s.store w k now expiresAt true = s := by
  simp only [Interleaving.store, storeRevokedJti, shouldCleanupExpiredRevocations, if_pos hdue,
    Function.update_eq_self, if_true, setCluster]

/-! ## Runs -/

theorem Tidy.resume (ht : Tidy slack s) (w c : ℕ) (fails : Bool)
    (hc : s.Cleans slack (.resume w c fails)) :
    Tidy slack (s.resume ttl w c fails (s.calls w c)) := by
  rcases (s.calls w c).doesNotStore_or with hx | ⟨k, now, expiresAt, hx⟩
  · exact (quiet_resume s w c fails hx).tidy ht
  · simp only [Cleans, hx] at hc
    rw [hx, Interleaving.resume]
    cases fails with
    | true =>
      rw [if_pos rfl] at hc
      rw [store_rollback hc]
      refine (quiet_move s ?_).tidy ht
      trivial
    | false =>
      rw [if_neg Bool.false_ne_true] at hc
      refine (quiet_move _ ?_).tidy (ht.store w k (ht.calls w c k now expiresAt hx) hc)
      trivial

theorem Tidy.step (ht : Tidy slack s) (event : InterleavingEvent τ) (hc : s.Cleans slack event) :
    Tidy slack (s.step ttl exp event) := by
  cases event with
  | tick d =>
    refine Quiet.tidy (quiet_setCluster ?_ rfl rfl) ht
    exact Nat.le_add_right _ _
  | evict w k | drop k =>
    refine Quiet.tidy (quiet_setCluster ?_ ?_ ?_) ht
    exacts [le_rfl, rfl, rfl]
  | check w c t d =>
    unfold Interleaving.step
    dsimp only
    split
    · exact (quiet_startCheck s w c t d).tidy ht
    · exact ht
  | revoke w c t d =>
    unfold Interleaving.step
    dsimp only
    split
    · exact (quiet_startRevoke s w c t d).tidy ht
    · exact ht
  | resume w c fails => exact ht.resume w c fails hc

/-- What has committed has set or found the date of the next cleanup, and every row outlives it. -/
theorem Tidy.leavesTidy (ht : Tidy slack s) (event : InterleavingEvent τ)
    (hc : s.Cleans slack event) : s.LeavesTidy ttl exp slack event := by
  rintro w c k now expiresAt rfl hx k' e he
  have ht' : Tidy slack (s.step ttl exp (.resume w c false)) := ht.step _ hc
  have hstep : (s.step ttl exp (.resume w c false)).cluster =
      (s.store w k now expiresAt false).cluster := by
    show (s.resume ttl w c false (s.calls w c)).cluster = _
    rw [hx]
    rfl
  obtain ⟨d, hd, hlt⟩ := exists_due_store s w k now expiresAt
  rw [← hstep] at hd
  have hle := ht'.rows w d hd k' e he
  omega

/-- A token that expires after five seconds and one that expires after ten minutes are revoked, two
minutes apart. -/
def twoRevocations : List (InterleavingEvent ℕ) :=
  [.revoke 0 0 5 0, .resume 0 0 false, .tick (120 * second), .revoke 0 1 600 0, .resume 0 1 false]

end Interleaving

end AranesLms
