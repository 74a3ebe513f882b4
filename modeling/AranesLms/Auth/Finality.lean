import AranesLms.Auth.Revocation
import AranesLms.Lib.Transition

/-!
# Checks and revocations in one worker

`is_token_revoked` and `revoke_token` of `src/auth/service.py` in one worker process without Redis.
A token is its `jti`, and `expiry` gives its expiry.  Every call stops where it waits for the
database; a transaction is one step, and so is the code between two of them.

Once a revocation has returned, the checks that start later should find it.  They need not: a
check that has read the table before the revocation was stored can write its answer to the cache
after the revocation has returned, and a check that waits until the token has expired can find the
row deleted.  `final_along_timely` says that nothing else goes wrong.
-/

namespace AranesLms

variable {κ : Type}

/-- The progress of a call.  A check carries the time it has read and whether a revocation of the
token had returned when it started. -/
inductive AuthCall (κ : Type) where
  | fresh
  | checking (t : κ) (now : ℕ) (late : Bool)
  | selected (t : κ) (now : ℕ) (late : Bool) (row : Option ℕ)
  | dropping (t : κ) (now : ℕ) (late : Bool)
  | dropped (t : κ) (now : ℕ) (late : Bool)
  | answered (t : κ) (now : ℕ) (late revoked : Bool)
  | storing (t : κ) (now : ℕ)
  | stored (t : κ)
  | revoked (t : κ)
  deriving DecidableEq

/-- A worker process; `returned` lists the tokens of the revocations that have returned. -/
structure Worker (κ : Type) where
  clock : ℕ
  cache : RevocationCache κ
  rows : RevokedRows κ
  cleanupDueAt : Option ℕ
  calls : ℕ → AuthCall κ
  returned : List κ

inductive WorkerEvent (κ : Type) where
  | tick (d : ℕ)
  | check (c : ℕ) (t : κ)
  | revoke (c : ℕ) (t : κ)
  | resume (c : ℕ)

/-- The call that takes the step. -/
def WorkerEvent.call? : WorkerEvent κ → Option ℕ
  | .tick _ => none
  | .check c _ | .revoke c _ | .resume c => some c

namespace Worker

/-- A worker that starts, on the rows that are stored. -/
def start (clock : ℕ) (rows : RevokedRows κ) : Worker κ :=
  ⟨clock, ∅, rows, none, fun _ => .fresh, []⟩

section Steps

variable (s : Worker κ)

def setCall (c : ℕ) (x : AuthCall κ) : Worker κ := { s with calls := Function.update s.calls c x }

@[simp] theorem setCall_self (c : ℕ) (x : AuthCall κ) : (s.setCall c x).calls c = x :=
  Function.update_self _ _ _

theorem setCall_of_ne {c c' : ℕ} (h : c' ≠ c) (x : AuthCall κ) :
    (s.setCall c x).calls c' = s.calls c' :=
  Function.update_of_ne h _ _

variable [DecidableEq κ] (ttl : CacheTtl) (expiry : κ → ℕ) (s : Worker κ)

/-- `is_token_revoked` up to its first wait. -/
def startCheck (c : ℕ) (t : κ) : Worker κ :=
  let late := decide (t ∈ s.returned)
  match s.cache.get? t with
  | some (cachedRevoked, cachedUntil) =>
    if s.clock < cachedUntil then
      { s with cache := s.cache.moveToEnd t }.setCall c (.answered t s.clock late cachedRevoked)
    else { s with cache := s.cache.pop t }.setCall c (.checking t s.clock late)
  | none => s.setCall c (.checking t s.clock late)

/-- The end of `is_token_revoked`. -/
def finishCheck (c : ℕ) (t : κ) (now : ℕ) (late revoked : Bool) (expiresAt : ℕ) : Worker κ :=
  { s with cache := cacheRevocationStatus ttl s.cache t revoked now expiresAt }.setCall c
    (.answered t now late revoked)

/-- The next step of a call: the transaction it waits for, or the code behind one. -/
def resume (c : ℕ) : AuthCall κ → Worker κ
  | .checking t now late => s.setCall c (.selected t now late (s.rows t))
  | .selected t now late none => s.finishCheck ttl c t now late false (expiry t)
  | .selected t now late (some expiresAt) =>
    if expiresAt ≤ now then s.setCall c (.dropping t now late)
    else s.finishCheck ttl c t now late true expiresAt
  | .dropping t now late =>
    { s with rows := Function.update s.rows t none }.setCall c (.dropped t now late)
  | .dropped t now late => s.finishCheck ttl c t now late false (expiry t)
  | .storing t now =>
    let (rows, cleanupDueAt) := storeRevokedJti s.rows s.cleanupDueAt t (expiry t) now
    { s with rows, cleanupDueAt }.setCall c (.stored t)
  | .stored t =>
    { s with
      cache := cacheRevocationStatus ttl s.cache t true s.clock (expiry t)
      returned := t :: s.returned }.setCall c (.revoked t)
  | .fresh | .answered .. | .revoked .. => s

def step : WorkerEvent κ → Worker κ
  | .tick d => { s with clock := s.clock + d }
  | .check c t =>
    match s.calls c with
    | .fresh => s.startCheck c t
    | _ => s
  | .revoke c t =>
    match s.calls c with
    | .fresh => s.setCall c (.storing t s.clock)
    | _ => s
  | .resume c => s.resume ttl expiry c (s.calls c)

end Steps

variable (ttl : CacheTtl) (expiry : κ → ℕ) (s : Worker κ)

/-- Every check that has started after a revocation of its token had returned, at a time before
the expiry of the token, has answered that the token is revoked. -/
def Final : Prop :=
  ∀ c t now revoked, s.calls c = .answered t now true revoked → now < expiry t → revoked = true

/-- Condition on a step: a check that started after the revocation of an unexpired token finds
its row, and a check that has found no row of a token whose revocation has returned writes an
entry to the cache that is no longer valid. -/
def Timely : WorkerEvent κ → Prop
  | .resume c =>
    match s.calls c with
    | .checking t now true => now < expiry t → s.rows t ≠ none
    | .selected t now _ none => t ∈ s.returned → cacheUntil ttl false now (expiry t) ≤ s.clock
    | _ => True
  | _ => True

/-! ## The invariant -/

/-- What is known of a call. -/
def CallSound (clock : ℕ) (returned : List κ) : AuthCall κ → Prop
  | .checking t now late => now ≤ clock ∧ (late → t ∈ returned)
  | .selected t now late row =>
    now ≤ clock ∧ (late → t ∈ returned) ∧ (∀ e, row = some e → e = expiry t) ∧
      (late → now < expiry t → row ≠ none)
  | .dropping t now _ | .dropped t now _ => expiry t ≤ now ∧ now ≤ clock
  | .answered t now late revoked => late → now < expiry t → revoked = true
  | .storing _ now => now ≤ clock
  | .fresh | .stored _ | .revoked _ => True

/-- The revocation of the token is stored. -/
def Stored (t : κ) : Prop := t ∈ s.returned ∨ ∃ c, s.calls c = .stored t

structure Sound : Prop where
  rows : ∀ t e, s.rows t = some e → e = expiry t
  stored : ∀ t, s.Stored t → s.clock < expiry t → s.rows t = some (expiry t)
  cache : ∀ t ∈ s.returned, ∀ revoked validUntil, (t, revoked, validUntil) ∈ s.cache →
    s.clock < validUntil → revoked = true
  calls : ∀ c, CallSound expiry s.clock s.returned (s.calls c)

variable {ttl expiry s}

theorem CallSound.mono {clock clock' : ℕ} {returned returned' : List κ} {x : AuthCall κ}
    (h : CallSound expiry clock returned x) (hclock : clock ≤ clock')
    (hreturned : returned ⊆ returned') : CallSound expiry clock' returned' x := by
  cases x with
  | checking t now late => exact ⟨h.1.trans hclock, fun hl => hreturned (h.2 hl)⟩
  | selected t now late row =>
    obtain ⟨hnow, hlate, hrow⟩ := h
    exact ⟨hnow.trans hclock, fun hl => hreturned (hlate hl), hrow⟩
  | dropping t now late | dropped t now late => exact ⟨h.1, h.2.trans hclock⟩
  | answered t now late revoked => exact h
  | storing t now => exact le_trans h hclock
  | fresh | stored t | revoked t => trivial

theorem sound_start (clock : ℕ) {rows : RevokedRows κ}
    (h : ∀ t e, rows t = some e → e = expiry t) : Sound expiry (start clock rows) where
  rows := h
  stored := by
    rintro t (ht | ⟨c, hc⟩)
    · cases ht
    · cases hc
  cache := nofun
  calls := fun _ => trivial

theorem Sound.final (h : Sound expiry s) : Final expiry s := by
  intro c t now revoked hc hnow
  have hcall := h.calls c
  rw [hc] at hcall
  exact hcall rfl hnow

/-- A call goes on to a status that is sound. -/
theorem Sound.setCall (h : Sound expiry s) {c : ℕ} {x : AuthCall κ}
    (hx : CallSound expiry s.clock s.returned x)
    (hstored : ∀ t, x = .stored t → s.clock < expiry t → s.rows t = some (expiry t)) :
    Sound expiry (s.setCall c x) where
  rows := h.rows
  stored := by
    rintro t (ht | ⟨c', hc'⟩)
    · exact h.stored t (Or.inl ht)
    · by_cases hne : c' = c
      · rw [hne, s.setCall_self] at hc'
        exact hstored t hc'
      · rw [s.setCall_of_ne hne] at hc'
        exact h.stored t (Or.inr ⟨c', hc'⟩)
  cache := h.cache
  calls := by
    intro c'
    by_cases hne : c' = c
    · rw [hne, s.setCall_self]
      exact hx
    · rw [s.setCall_of_ne hne]
      exact h.calls c'

/-- The table may lose expired rows and gain new ones. -/
theorem Sound.setRows (h : Sound expiry s) {rows : RevokedRows κ} {cleanupDueAt : Option ℕ}
    (hrows : ∀ t, rows t = s.rows t ∨ rows t = some (expiry t) ∨
      rows t = none ∧ expiry t ≤ s.clock) : Sound expiry { s with rows, cleanupDueAt } where
  rows := by
    intro t e (he : rows t = some e)
    rcases hrows t with hrow | hrow | ⟨hrow, -⟩
    · exact h.rows t e (hrow ▸ he)
    · rw [hrow] at he
      exact (Option.some.inj he).symm
    · rw [hrow] at he
      cases he
  stored := by
    intro t ht hclock
    rcases hrows t with hrow | hrow | ⟨-, hexp⟩
    · exact hrow.trans (h.stored t ht hclock)
    · exact hrow
    · exact absurd hclock (Nat.not_lt.2 hexp)
  cache := h.cache
  calls := h.calls

/-- A stored revocation whose token has no misleading entry may return. -/
theorem Sound.setReturned (h : Sound expiry s) {t : κ} (ht : s.Stored t)
    (hcache : ∀ revoked validUntil, (t, revoked, validUntil) ∈ s.cache → revoked = true) :
    Sound expiry { s with returned := t :: s.returned } where
  rows := h.rows
  stored := by
    rintro t' (ht' | hc)
    · rcases List.mem_cons.1 ht' with rfl | ht'
      · exact h.stored t' ht
      · exact h.stored t' (Or.inl ht')
    · exact h.stored t' (Or.inr hc)
  cache := by
    intro t' ht' revoked validUntil hmem hvalid
    rcases List.mem_cons.1 ht' with rfl | ht'
    · exact hcache revoked validUntil hmem
    · exact h.cache t' ht' revoked validUntil hmem hvalid
  calls := fun c => (h.calls c).mono le_rfl (List.subset_cons_self t s.returned)

/-- The cache may lose entries, and gain ones that say revoked or are not valid. -/
theorem Sound.setCache (h : Sound expiry s) {cache : RevocationCache κ}
    (hcache : ∀ t revoked validUntil, (t, revoked, validUntil) ∈ cache →
      (t, revoked, validUntil) ∈ s.cache ∨
        (t ∈ s.returned → s.clock < validUntil → revoked = true)) :
    Sound expiry { s with cache } where
  rows := h.rows
  stored := h.stored
  cache := by
    intro t ht revoked validUntil hmem hvalid
    rcases hcache t revoked validUntil hmem with hold | hnew
    · exact h.cache t ht revoked validUntil hold hvalid
    · exact hnew ht hvalid
  calls := h.calls

section

variable [DecidableEq κ]

theorem Sound.finishCheck (h : Sound expiry s) {c : ℕ} {t : κ} {now : ℕ} {late revoked : Bool}
    {expiresAt : ℕ} (hcall : CallSound expiry s.clock s.returned (.answered t now late revoked))
    (hentry : t ∈ s.returned → s.clock < cacheUntil ttl revoked now expiresAt → revoked = true) :
    Sound expiry (s.finishCheck ttl c t now late revoked expiresAt) := by
  refine Sound.setCall (h.setCache fun t' revoked' validUntil hmem => ?_) hcall nofun
  rcases mem_cacheRevocationStatus hmem with ⟨hold, -⟩ | hnew
  · exact Or.inl hold
  · cases hnew
    exact Or.inr hentry

theorem Sound.startCheck (h : Sound expiry s) (c : ℕ) (t : κ) :
    Sound expiry (s.startCheck c t) := by
  have hlate : decide (t ∈ s.returned) = true → t ∈ s.returned := of_decide_eq_true
  unfold Worker.startCheck
  dsimp only
  split
  · rename_i cachedRevoked cachedUntil hget
    have hmem := s.cache.get?_eq_some.1 hget
    split_ifs with hvalid
    · refine Sound.setCall (h.setCache ?_) ?_ nofun
      · exact fun _ _ _ he => Or.inl (s.cache.mem_moveToEnd.1 he)
      · exact fun hl _ => h.cache t (hlate hl) cachedRevoked cachedUntil hmem hvalid
    · refine Sound.setCall (h.setCache ?_) ⟨le_rfl, hlate⟩ nofun
      exact fun _ _ _ he => Or.inl (s.cache.mem_pop.1 he).1
  · exact h.setCall ⟨le_rfl, hlate⟩ nofun

theorem Sound.resume (h : Sound expiry s) {c : ℕ} (htimely : Timely ttl expiry s (.resume c)) :
    Sound expiry (s.resume ttl expiry c (s.calls c)) := by
  have hcall := h.calls c
  unfold Timely at htimely
  dsimp only at htimely
  cases hc : s.calls c with
  | fresh | answered t now late revoked | revoked t => exact h
  | checking t now late =>
    rw [hc] at hcall htimely
    refine Sound.setCall h ⟨hcall.1, hcall.2, h.rows t, fun hl hnow => ?_⟩ nofun
    subst hl
    exact htimely hnow
  | selected t now late row =>
    rw [hc] at hcall htimely
    obtain ⟨hnow, hlate, hrow, hfound⟩ := hcall
    cases row with
    | none =>
      apply h.finishCheck
      · exact fun hl hexp => absurd rfl (hfound hl hexp)
      · intro ht hvalid
        have := htimely ht
        omega
    | some expiresAt =>
      obtain rfl := hrow expiresAt rfl
      rw [Worker.resume]
      split_ifs with hexp
      · exact h.setCall ⟨hexp, hnow⟩ nofun
      · exact h.finishCheck (fun _ _ => rfl) fun _ _ => rfl
  | dropping t now late =>
    rw [hc] at hcall
    refine Sound.setCall (h.setRows fun t' => ?_) hcall nofun
    by_cases ht' : t' = t
    · subst ht'
      exact Or.inr (Or.inr ⟨Function.update_self _ _ _, hcall.1.trans hcall.2⟩)
    · exact Or.inl (Function.update_of_ne ht' _ _)
  | dropped t now late =>
    rw [hc] at hcall
    obtain ⟨hexp, hnow⟩ := hcall
    apply h.finishCheck
    · intro _ hlt
      omega
    · intro _ hvalid
      have : cacheUntil ttl false now (expiry t) ≤ expiry t := min_le_left _ _
      omega
  | storing t now =>
    rw [hc] at hcall
    refine Sound.setCall (h.setRows fun t' => ?_) trivial fun t' ht' _ => ?_
    · by_cases ht' : t' = t
      · exact Or.inr (Or.inl (ht' ▸ storeRevokedJti_self))
      · rcases storeRevokedJti_of_ne ht' with hrow | ⟨hrow, e, he, hnow⟩
        · exact Or.inl hrow
        · rw [h.rows t' e he] at hnow
          exact Or.inr (Or.inr ⟨hrow, hnow.trans hcall⟩)
    · cases ht'
      exact storeRevokedJti_self
  | stored t =>
    have hcache : Sound expiry { s with
        cache := cacheRevocationStatus ttl s.cache t true s.clock (expiry t) } := by
      refine h.setCache fun t' revoked validUntil hmem => ?_
      rcases mem_cacheRevocationStatus hmem with ⟨hold, -⟩ | hnew
      · exact Or.inl hold
      · cases hnew
        exact Or.inr fun _ _ => rfl
    have hreturned := hcache.setReturned (Or.inr ⟨c, hc⟩) fun revoked validUntil hmem => by
      rcases mem_cacheRevocationStatus hmem with ⟨-, hne⟩ | hnew
      · exact absurd rfl hne
      · cases hnew
        rfl
    exact hreturned.setCall (x := .revoked t) trivial nofun

theorem Sound.step (h : Sound expiry s) {e : WorkerEvent κ} (he : Timely ttl expiry s e) :
    Sound expiry (s.step ttl expiry e) := by
  cases e with
  | tick d =>
    have hclock : s.clock ≤ s.clock + d := Nat.le_add_right _ _
    refine ⟨h.rows, fun t ht hexp => ?_, fun t ht revoked validUntil hmem hvalid => ?_,
      fun c => (h.calls c).mono hclock (List.Subset.refl _)⟩
    · exact h.stored t ht (hclock.trans_lt hexp)
    · exact h.cache t ht revoked validUntil hmem (hclock.trans_lt hvalid)
  | check c t =>
    rw [Worker.step]
    split
    · exact h.startCheck c t
    · exact h
  | revoke c t =>
    rw [Worker.step]
    split
    · exact h.setCall le_rfl nofun
    · exact h
  | resume c => exact h.resume he

/-! ## Every run -/

/-- A step changes the status of its own call only. -/
theorem step_calls {c : ℕ} {e : WorkerEvent κ} (he : e.call? ≠ some c) :
    (s.step ttl expiry e).calls c = s.calls c := by
  cases e with
  | tick d => rfl
  | check c' t =>
    have hc : c ≠ c' := fun heq => he (congrArg some heq.symm)
    rw [Worker.step]
    split
    · unfold Worker.startCheck
      dsimp only
      split
      · split_ifs <;> exact setCall_of_ne _ hc _
      · exact setCall_of_ne _ hc _
    · rfl
  | revoke c' t =>
    have hc : c ≠ c' := fun heq => he (congrArg some heq.symm)
    rw [Worker.step]
    split
    · exact setCall_of_ne _ hc _
    · rfl
  | resume c' =>
    have hc : c ≠ c' := fun heq => he (congrArg some heq.symm)
    rw [Worker.step]
    cases s.calls c' with
    | fresh | answered t now late revoked | revoked t => rfl
    | selected t now late row =>
      cases row with
      | none => exact setCall_of_ne _ hc _
      | some expiresAt =>
        rw [Worker.resume]
        split_ifs <;> exact setCall_of_ne _ hc _
    | _ => exact setCall_of_ne _ hc _

/-- There is always a call that has not started. -/
theorem exists_fresh (events : List (WorkerEvent κ))
    (h : ∃ n, ∀ c, n ≤ c → s.calls c = .fresh) :
    ∃ n, ∀ c, n ≤ c → (Transition.runFrom (Worker.step ttl expiry) s events).calls c = .fresh := by
  refine Transition.runFrom_induct (P := fun s : Worker κ => ∃ n, ∀ c, n ≤ c → s.calls c = .fresh)
    (fun s e ⟨n, hn⟩ => ?_) h events
  cases he : e.call? with
  | none => exact ⟨n, fun c hc => (step_calls (by simp [he])).trans (hn c hc)⟩
  | some c' =>
    refine ⟨max n (c' + 1), fun c hc => (step_calls ?_).trans (hn c (by omega))⟩
    rw [he, Ne, Option.some.injEq]
    omega

/-- A check that finds a valid entry answers with it. -/
theorem startCheck_hit {c : ℕ} {t : κ} {revoked : Bool} {validUntil : ℕ}
    (hmem : (t, revoked, validUntil) ∈ s.cache) (hvalid : s.clock < validUntil) :
    (s.startCheck c t).calls c = .answered t s.clock (decide (t ∈ s.returned)) revoked := by
  rw [Worker.startCheck, s.cache.get?_eq_some.2 hmem]
  dsimp only
  rw [if_pos hvalid, setCall_self]

/-- A step that breaks the condition can be followed by a check that is answered wrongly. -/
theorem Sound.exists_not_final (h : Sound expiry s) {c' : ℕ} (hfresh : s.calls c' = .fresh)
    {e : WorkerEvent κ} (he : ¬ Timely ttl expiry s e) :
    ∃ more, ¬ Final expiry
      (Transition.runFrom (Worker.step ttl expiry) (s.step ttl expiry e) more) := by
  cases e with
  | tick d | check c t | revoke c t => exact absurd trivial he
  | resume c =>
    have hcall := h.calls c
    unfold Timely at he
    dsimp only at he
    split at he
    · -- the row is gone: the check itself is answered wrongly
      rename_i t now hc
      rw [Classical.not_imp, not_not] at he
      obtain ⟨hexp, hrow⟩ := he
      have hstep : s.step ttl expiry (.resume c) = s.setCall c (.selected t now true none) := by
        rw [Worker.step, hc, Worker.resume, hrow]
      refine ⟨[.resume c], fun hfinal => ?_⟩
      rw [hstep, Transition.runFrom_cons, Transition.runFrom_nil, Worker.step, setCall_self]
        at hfinal
      exact absurd (hfinal c t now false (setCall_self _ _ _) hexp) Bool.false_ne_true
    · -- the entry is valid: the next check is answered from it
      rename_i t now late hc
      rw [Classical.not_imp, not_le] at he
      obtain ⟨ht, hvalid⟩ := he
      rw [hc] at hcall
      have hstep : s.step ttl expiry (.resume c) =
          s.finishCheck ttl c t now late false (expiry t) := by
        rw [Worker.step, hc, Worker.resume]
      have hne : c' ≠ c := by
        rintro rfl
        rw [hc] at hfresh
        cases hfresh
      have hcall' : (s.finishCheck ttl c t now late false (expiry t)).calls c' = .fresh :=
        (setCall_of_ne _ hne _).trans hfresh
      have hentry : (t, false, cacheUntil ttl false now (expiry t)) ∈
          cacheRevocationStatus ttl s.cache t false now (expiry t) :=
        self_mem_cacheRevocationStatus (lt_of_le_of_lt hcall.1 hvalid)
      refine ⟨[.check c' t], fun hfinal => ?_⟩
      rw [hstep, Transition.runFrom_cons, Transition.runFrom_nil, Worker.step, hcall'] at hfinal
      have hanswer := startCheck_hit (c := c')
        (s := s.finishCheck ttl c t now late false (expiry t)) hentry hvalid
      have hlate : decide (t ∈ s.returned) = true := decide_eq_true ht
      have hexp : s.clock < expiry t := lt_of_lt_of_le hvalid (min_le_left _ _)
      exact absurd (hfinal c' t s.clock false (hlate ▸ hanswer) hexp) Bool.false_ne_true
    · exact absurd trivial he

/-- Any number of checks and revocations of any tokens, interleaved in any order: as long as no
step breaks the condition, every check that starts after a revocation of its token has returned
finds it; and a run that has met the condition so far and breaks it can go on to a wrong answer. -/
theorem final_along_timely (ttl : CacheTtl) (expiry : κ → ℕ) (clock : ℕ) (rows : RevokedRows κ)
    (hrows : ∀ t e, rows t = some e → e = expiry t) :
    (∀ events,
      Transition.Along (Worker.step ttl expiry) (Timely ttl expiry) (start clock rows) events →
      Transition.Always (Worker.step ttl expiry) (Final expiry) (start clock rows) events) ∧
    ∀ events e,
      Transition.Along (Worker.step ttl expiry) (Timely ttl expiry) (start clock rows) events →
      ¬ Timely ttl expiry
        (Transition.runFrom (Worker.step ttl expiry) (start clock rows) events) e →
      ∃ more, ¬ Transition.Always (Worker.step ttl expiry) (Final expiry) (start clock rows)
        (events ++ e :: more) := by
  constructor
  · intro events h
    have hsound := Transition.Always.of_along (P := Sound expiry) (C := Timely ttl expiry)
      (fun _ _ hs he => hs.step he) (sound_start clock hrows) h
    exact hsound.mono fun _ hs => hs.final
  · intro events e h he
    have hsound := h.runFrom_induct (P := Sound expiry) (fun _ _ hs he => hs.step he)
      (sound_start clock hrows)
    obtain ⟨n, hfresh⟩ := exists_fresh (s := start clock rows) events ⟨0, fun _ _ => rfl⟩
    obtain ⟨more, hmore⟩ := hsound.exists_not_final (hfresh n le_rfl) he
    refine ⟨more, fun halways => hmore ?_⟩
    have hlast := halways.last
    rwa [Transition.runFrom_append, Transition.runFrom_cons] at hlast

end

/-! ## Runs -/

def oneSecond : CacheTtl := ⟨second, by decide⟩

/-- A check that has read the table before the revocation goes on when its entry is over already,
and the next check misses the cache and finds the row. -/
theorem final_along_timely_resume :
    Transition.Always (Worker.step oneSecond fun _ : ℕ => 100 * second)
      (Final fun _ => 100 * second) (start 0 fun _ => none)
      [.check 0 7, .resume 0, .revoke 1 7, .resume 1, .resume 1, .tick second, .resume 0,
        .check 2 7, .resume 2, .resume 2] := by
  apply (final_along_timely oneSecond (fun _ => 100 * second) 0 (fun _ => none) nofun).1
  refine ⟨trivial, trivial, trivial, trivial, trivial, trivial, ?late, trivial, ?found, trivial,
    trivial⟩
  case late =>
    intro _
    decide +kernel
  case found =>
    intro _
    decide +kernel

/-- A check reads the table, then a revocation runs from its start to its end, and then the check
writes what it has read to the cache. -/
theorem check_overwrites_revocation :
    ¬ Transition.Always (Worker.step oneSecond fun _ : ℕ => 100 * second)
      (Final fun _ => 100 * second) (start 0 fun _ => none)
      [.check 0 7, .resume 0, .revoke 1 7, .resume 1, .resume 1, .resume 0, .check 2 7] := by
  intro h
  have hanswer := h.last 2 7 0 false (by decide +kernel) (by decide)
  cases hanswer

end Worker

end AranesLms
