import AranesLms.UserRole.Middlewares
import AranesLms.UserRole.Operations

/-!
# Tokens and accounts

A run of operations and logins, with a ghost number for each account: `account` tells to which
account a user id belongs at the moment, and every issued token is kept with the account it was
issued for.  Tokens carry the user id, so they follow their account through renames; they stay with
it exactly as long as no new account is given an id that an issued token carries
(`always_isolated_iff`).
-/

namespace AranesLms

structure TokenState where
  db : Database
  account : ℕ → ℕ
  nextAccount : ℕ
  tokens : List (TokenPayload × ℕ)

inductive TokenEvent where
  | operation (op : Operation)
  | login (username : String) (verified : Bool)

namespace TokenState

/-- No token has been issued. -/
def start (db : Database) : TokenState := ⟨db, id, db.users.nextId, []⟩

variable (s : TokenState)

/-- `issue_access_token` for a user; nothing is issued when it raises. -/
def issue (username : String) (userId : ℕ) : TokenState :=
  match issueAccessToken username (some userId) with
  | .ok payload => { s with tokens := (payload, s.account userId) :: s.tokens }
  | .error _ => s

/-- The database after the insertion of a user, whose id belongs to a new account. -/
def register (db' : Database) : TokenState :=
  { s with
    db := db'
    account := Function.update s.account s.db.users.nextId s.nextAccount
    nextAccount := s.nextAccount + 1 }

/-- A successful operation; signup issues a token for the user it creates. -/
def complete (db' : Database) : Operation → TokenState
  | .createUserAdmin .. => s.register db'
  | .signup username _ => (s.register db').issue username s.db.users.nextId
  | _ => { s with db := db' }

/-- One event; `verified` is the answer of `verify_password`. -/
def step : TokenEvent → TokenState
  | .operation op =>
    match op.run (op.nextId s.db) s.db with
    | .ok db' => s.complete db' op
    | .error _ => s
  | .login username verified =>
    match s.db.users.findBy? username with
    | some user => if verified then s.issue user.username user.id else s
    | none => s

/-- Every issued token resolves to its own account only, and to none once that is deleted. -/
def Isolated : Prop :=
  ∀ t ∈ s.tokens,
    (∀ user role, getCurrentUserWithRole s.db t.1 = .ok (user, role) → s.account user.id = t.2) ∧
    (∀ actor, getCurrentActor s.db t.1 = .ok actor → s.account actor.userId = t.2) ∧
    ((∀ user ∈ s.db.users, s.account user.id ≠ t.2) →
      getCurrentUserWithRole s.db t.1 = .error ⟨401, "User not found"⟩ ∧
        getCurrentActor s.db t.1 = .error ⟨401, "User not found"⟩)

/-- Condition on an event: a user that is created gets an id that no issued token carries. -/
def FreshId : TokenEvent → Prop
  | .operation op =>
    op.CreatesUser → (∃ db', op.run (op.nextId s.db) s.db = .ok db') →
      ∀ t ∈ s.tokens, t.1.uid ≠ some (.int s.db.users.nextId)
  | .login .. => True

/-- Tokens carry ids, and a user with the id of a token belongs to the account of the token. -/
structure Owned : Prop where
  token_id : ∀ t ∈ s.tokens, ∃ i : ℕ, 0 < i ∧ t.1.uid = some (.int i)
  token_lt : ∀ t ∈ s.tokens, t.2 < s.nextAccount
  account_lt : ∀ user ∈ s.db.users, s.account user.id < s.nextAccount
  owned : ∀ t ∈ s.tokens, ∀ user ∈ s.db.users, t.1.uid = some (.int user.id) →
    s.account user.id = t.2

end TokenState

namespace TokenState

variable {s : TokenState}

theorem Owned.isolated (h : s.Owned) : s.Isolated := by
  intro t ht
  obtain ⟨i, hi, huid⟩ := h.token_id t ht
  have hacc : ∀ user role, findTokenAccount s.db t.1 = .ok (user, role) →
      s.account user.id = t.2 := by
    intro user role hf
    obtain ⟨⟨huser, rfl⟩, -⟩ := (findTokenAccount_ok hi huid).1 hf
    exact h.owned t ht user huser huid
  refine ⟨hacc, fun actor hactor => ?_, fun hdel => ?_⟩
  · obtain ⟨user, role, hf, hid⟩ := getCurrentActor_ok hactor
    rw [hid]
    exact hacc user role hf
  · have hno : ∀ user ∈ s.db.users, user.id ≠ i := by
      rintro user huser rfl
      exact hdel user huser (h.owned t ht user huser huid)
    have hf := findTokenAccount_error hi huid hno
    refine ⟨hf, ?_⟩
    rw [getCurrentActor, hf]
    rfl

/-! ## One event -/

theorem Owned.issue (h : s.Owned) {user : User} (huser : user ∈ s.db.users) (username : String) :
    (s.issue username user.id).Owned := by
  unfold TokenState.issue
  cases hp : issueAccessToken username (some user.id) with
  | error e => exact h
  | ok payload =>
    obtain ⟨hi, huid⟩ := issueAccessToken_ok hp
    refine ⟨?_, ?_, h.account_lt, ?_⟩
    · intro t ht
      rcases List.mem_cons.1 ht with rfl | ht
      · exact ⟨user.id, hi, huid⟩
      · exact h.token_id t ht
    · intro t ht
      rcases List.mem_cons.1 ht with rfl | ht
      · exact h.account_lt user huser
      · exact h.token_lt t ht
    · intro t ht other hother heq
      rcases List.mem_cons.1 ht with rfl | ht
      · rw [huid] at heq
        have hid : (user.id : ℤ) = other.id := by simpa using heq
        rw [Int.natCast_inj.1 hid]
      · exact h.owned t ht other hother heq

theorem register_account_self (db' : Database) :
    (s.register db').account s.db.users.nextId = s.nextAccount :=
  Function.update_self _ _ _

theorem Owned.register (h : s.Owned) {db' : Database}
    (hdb : ∀ user ∈ db'.users, (∃ old ∈ s.db.users, old.id = user.id) ∨
      user.id = s.db.users.nextId)
    (hfresh : ∀ t ∈ s.tokens, t.1.uid ≠ some (.int s.db.users.nextId)) :
    (s.register db').Owned := by
  have hother : ∀ {i : ℕ}, i ≠ s.db.users.nextId → (s.register db').account i = s.account i :=
    fun hi => Function.update_of_ne hi _ _
  refine ⟨h.token_id, fun t ht => Nat.lt_succ_of_lt (h.token_lt t ht), ?_, ?_⟩
  · intro user huser
    show (s.register db').account user.id < s.nextAccount + 1
    by_cases hid : user.id = s.db.users.nextId
    · rw [hid, register_account_self]
      exact Nat.lt_succ_self _
    · obtain ⟨old, hold, heq⟩ := (hdb user huser).resolve_right hid
      rw [hother hid, ← heq]
      exact Nat.lt_succ_of_lt (h.account_lt old hold)
  · intro t ht user huser huid
    have hid : user.id ≠ s.db.users.nextId := fun he => hfresh t ht (by rw [huid, he])
    obtain ⟨old, hold, heq⟩ := (hdb user huser).resolve_right hid
    rw [hother hid, ← heq]
    exact h.owned t ht old hold (by rw [huid, heq])

/-- An operation that creates no user. -/
theorem Owned.setDb (h : s.Owned) {db' : Database}
    (hdb : ∀ user ∈ db'.users, ∃ old ∈ s.db.users, old.id = user.id) :
    TokenState.Owned { s with db := db' } := by
  refine ⟨h.token_id, h.token_lt, fun user huser => ?_, fun t ht user huser huid => ?_⟩
  · obtain ⟨old, hold, heq⟩ := hdb user huser
    show s.account user.id < s.nextAccount
    rw [← heq]
    exact h.account_lt old hold
  · obtain ⟨old, hold, heq⟩ := hdb user huser
    show s.account user.id = t.2
    rw [← heq]
    exact h.owned t ht old hold (by rw [huid, heq])

theorem Owned.step (h : s.Owned) {e : TokenEvent} (he : s.FreshId e) : (s.step e).Owned := by
  cases e with
  | login username verified =>
    show TokenState.Owned (match s.db.users.findBy? username with
      | some user => if verified then s.issue user.username user.id else s
      | none => s)
    cases hf : s.db.users.findBy? username with
    | none => exact h
    | some user =>
      cases verified with
      | true => exact h.issue (Table.findBy?_eq_some.1 hf).1 user.username
      | false => exact h
  | operation op =>
    show TokenState.Owned (match op.run (op.nextId s.db) s.db with
      | .ok db' => s.complete db' op
      | .error _ => s)
    cases hrun : op.run (op.nextId s.db) s.db with
    | error _ => exact h
    | ok db' =>
      have hcases := (Operation.usersEffect hrun).mem_cases
      have hfresh := fun hop => he hop ⟨db', hrun⟩
      cases op with
      | createUserAdmin username password roleId =>
        exact h.register (fun user huser => (hcases user huser).imp_right And.right)
          (hfresh trivial)
      | signup username passwordHash =>
        have hreg := h.register (fun user huser => (hcases user huser).imp_right And.right)
          (hfresh trivial)
        obtain ⟨user, huser, hid, -⟩ := (Operation.usersEffect hrun).exists_created trivial
        have huser' : user ∈ (s.register db').db.users := huser
        have hissue := hreg.issue huser' username
        rwa [hid] at hissue
      | _ => exact h.setDb fun user huser => (hcases user huser).resolve_right nofun

/-- In an isolated state a token with the id of a user, whose role exists, is a token of the
account of this user. -/
theorem Isolated.account_eq (h : s.Isolated) {t : TokenPayload × ℕ} (ht : t ∈ s.tokens)
    {user : User} (huser : user ∈ s.db.users) (hrole : ∃ role ∈ s.db.roles, role.id = user.roleId)
    (hpos : 0 < user.id) (huid : t.1.uid = some (.int user.id)) : s.account user.id = t.2 := by
  obtain ⟨role, hmem, hid⟩ := hrole
  exact (h t ht).1 user role ((findTokenAccount_ok hpos huid).2 ⟨⟨huser, rfl⟩, hmem, hid⟩)

theorem issue_frame (username : String) (userId : ℕ) :
    (s.issue username userId).db = s.db ∧ (s.issue username userId).account = s.account ∧
      ∀ t ∈ s.tokens, t ∈ (s.issue username userId).tokens := by
  unfold issue
  cases issueAccessToken username (some userId) with
  | ok payload => exact ⟨rfl, rfl, fun t ht => List.mem_cons_of_mem _ ht⟩
  | error _ => exact ⟨rfl, rfl, fun t ht => ht⟩

/-- After the creation of a user everything is registered, whether or not a token is issued. -/
theorem complete_frame {op : Operation} (hop : op.CreatesUser) (db' : Database) :
    (s.complete db' op).db = db' ∧
      (s.complete db' op).account s.db.users.nextId = s.nextAccount ∧
      ∀ t ∈ s.tokens, t ∈ (s.complete db' op).tokens := by
  cases op with
  | createUserAdmin username password roleId =>
    exact ⟨rfl, register_account_self db', fun t ht => ht⟩
  | signup username passwordHash =>
    obtain ⟨hdb, hacc, htokens⟩ :=
      issue_frame (s := s.register db') username s.db.users.nextId
    refine ⟨hdb, ?_, htokens⟩
    rw [complete, hacc]
    exact register_account_self db'
  | _ => cases hop

theorem Owned.freshId_of_isolated (h : s.Owned) {e : TokenEvent} (he : (s.step e).Isolated) :
    s.FreshId e := by
  cases e with
  | login username verified => trivial
  | operation op =>
    rintro hop ⟨db', hrun⟩ t ht huid
    have hstep : s.step (.operation op) = s.complete db' op := by
      show (match op.run (op.nextId s.db) s.db with
        | .ok db' => s.complete db' op
        | .error _ => s) = _
      rw [hrun]
    have hid : op.nextId s.db = s.db.users.nextId := by
      cases op with
      | createUserAdmin => rfl
      | signup => rfl
      | _ => cases hop
    obtain ⟨user, huser, hnew, hrole⟩ := (Operation.usersEffect hrun).exists_created hop
    obtain ⟨hdb, hacc, htokens⟩ := complete_frame (s := s) hop db'
    rw [hstep] at he
    rw [hid] at hnew
    have haccount : (s.complete db' op).account user.id = t.2 := by
      refine he.account_eq (htokens t ht) (by rwa [hdb]) (by rwa [hdb]) ?_ (by rw [huid, hnew])
      rw [hnew]
      exact Table.nextId_pos _
    rw [hnew, hacc] at haccount
    exact (h.token_lt t ht).ne' haccount

end TokenState

/-! ## Every run -/

/-- In a run from any database every token stays with its account exactly when no created user is
given an id that an issued token carries. -/
theorem always_isolated_iff (db : Database) (events : List TokenEvent) :
    Transition.Always TokenState.step TokenState.Isolated (.start db) events ↔
      Transition.Along TokenState.step TokenState.FreshId (.start db) events := by
  refine Transition.always_iff_along (J := TokenState.Owned) (fun s hs => hs.isolated)
    (fun s e hs he => hs.step he) (fun s e hs he => hs.freshId_of_isolated he) ?_ events
  exact ⟨nofun, nofun, fun user huser => Table.pk_lt_nextId huser, nofun⟩

/-- The second user is deleted and the next one gets its id: the token of the first now resolves
to the account of the other. -/
theorem reused_id_not_isolated : ¬ Transition.Always TokenState.step TokenState.Isolated
    (.start seededDatabase)
    [.operation (.signup "admin" "hash"), .operation (.signup "alice" "hash"),
      .operation (.deleteUserAdmin 2), .operation (.signup "mallory" "hash")] := by
  intro h
  have hmallory := (h.last (⟨some (.str "alice"), some (.int 2)⟩, 2) (by decide +kernel)).1
    ⟨2, "mallory", "hash", 6, some ∅⟩
    ⟨6, "Student", "role.student.title", some (rbacServiceDefaults "Student")⟩ (by decide +kernel)
  revert hmallory
  decide +kernel

end AranesLms
