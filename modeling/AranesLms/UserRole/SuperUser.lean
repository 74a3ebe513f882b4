import AranesLms.Lib.Except
import AranesLms.UserRole.Bootstrap

/-!
# Creation of the superuser

`create_super_user`, `ensure_super_user_with_credentials` and its use at startup
(`ensure_super_user_from_env_if_enabled`, called by `ensure_initial_super_user`) of
`src/utils/super_user.py`.  The username has passed `_validate_superuser_credentials` and the
password is the hash that `hash_password` returned; `nid` is the identifier that the database
gives to the new row.  The read and the write of the startup function are definitions of their
own, so that they can also be run one at a time.
-/

namespace AranesLms

/-- What the creation of a superuser raises: a `ValueError` or a `RuntimeError` with its text, or
the `IntegrityError` of the flush. -/
inductive SuperUserError where
  | valueError (detail : String)
  | runtimeError (detail : String)
  | integrityError (violation : Violation)
  deriving DecidableEq

variable (db : Database)

/-- `_ensure_superadmin_role_exists`. -/
def ensureSuperadminRoleExists : Except SuperUserError Unit :=
  match db.role? superadminRoleId with
  | some _ => .ok ()
  | none => .error (.runtimeError
      "SuperAdmin role does not exist. Seed default roles before creating the superuser.")

/-- The `SELECT` for the username, which must not be taken. -/
def requireFreeUsername (username : String) : Except SuperUserError Unit :=
  match db.users.findBy? username with
  | some _ => .error (.valueError "Username already exists.")
  | none => .ok ()

/-- The row of a superuser. -/
def newSuperUser (nid : ℕ) (username password : String) : User :=
  ⟨nid, username, password, superadminRoleId, some ∅⟩

/-- The `INSERT` of the superuser and the commit. -/
def insertSuperUser (nid : ℕ) (username password : String) : Except SuperUserError Database :=
  match db.users.insert (newSuperUser nid username password) with
  | .ok users => .ok { db with users }
  | .error v => .error (.integrityError v)

def createSuperUser (nid : ℕ) (username password : String) : Except SuperUserError Database := do
  ensureSuperadminRoleExists db
  requireFreeUsername db username
  insertSuperUser db nid username password

/-- The reads of `ensure_super_user_with_credentials`: whether a superuser is to be created. -/
def readEnsureSuperUser (username : String) : Except SuperUserError Bool := do
  ensureSuperadminRoleExists db
  if db.usersOfRole superadminRoleId ≠ [] then return false
  requireFreeUsername db username
  return true

/-- The end of `ensure_super_user_with_credentials`. -/
def writeEnsureSuperUser (create : Bool) (nid : ℕ) (username password : String) :
    Except SuperUserError (Bool × Database) :=
  if create then return (true, ← insertSuperUser db nid username password)
  else return (false, db)

/-- The result is `true` when a superuser was created. -/
def ensureSuperUserWithCredentials (nid : ℕ) (username password : String) :
    Except SuperUserError (Bool × Database) := do
  let create ← readEnsureSuperUser db username
  writeEnsureSuperUser db create nid username password

/-- The handler of `ensure_super_user_from_env_if_enabled`: a `ValueError` is logged. -/
def catchValueError {α : Type} (skipped : α) : Except SuperUserError α → Except SuperUserError α
  | .error (.valueError _) => .ok skipped
  | result => result

/-- `ensure_super_user_from_env_if_enabled` with the bootstrap enabled and valid credentials. -/
def ensureSuperUserFromEnvIfEnabled (nid : ℕ) (username password : String) :
    Except SuperUserError (Bool × Database) :=
  catchValueError (false, db) (ensureSuperUserWithCredentials db nid username password)

/-! ## What a successful creation does -/

variable {db} {db' : Database}

theorem ensureSuperadminRoleExists_ok {x : Unit} :
    ensureSuperadminRoleExists db = .ok x ↔ ∃ role ∈ db.roles, role.id = superadminRoleId := by
  have : (∃ role ∈ db.roles, role.id = superadminRoleId) ↔
      ∃ role, db.role? superadminRoleId = some role :=
    exists_congr fun _ => Table.find?_eq_some.symm
  rw [this, ensureSuperadminRoleExists]
  cases db.role? superadminRoleId <;> simp

theorem requireFreeUsername_ok {username : String} {x : Unit} :
    requireFreeUsername db username = .ok x ↔ ∀ user ∈ db.users, user.username ≠ username := by
  have : (∀ user ∈ db.users, user.username ≠ username) ↔
      ¬ ∃ user, db.users.findBy? username = some user := by
    simp only [Table.findBy?_eq_some, not_exists, not_and, ne_eq]
  rw [this, requireFreeUsername]
  cases db.users.findBy? username <;> simp

theorem insertSuperUser_ok {nid : ℕ} {username password : String} :
    insertSuperUser db nid username password = .ok db' ↔
      ∃ t, db.users.insert (newSuperUser nid username password) = .ok t ∧
        db' = { db with users := t } := by
  unfold insertSuperUser
  cases db.users.insert (newSuperUser nid username password) <;> simp [eq_comm]

theorem createSuperUser_ok {nid : ℕ} {username password : String} :
    createSuperUser db nid username password = .ok db' ↔
      (∃ role ∈ db.roles, role.id = superadminRoleId) ∧
        (∀ user ∈ db.users, user.username ≠ username) ∧
        ∃ t, db.users.insert (newSuperUser nid username password) = .ok t ∧
          db' = { db with users := t } := by
  simp only [createSuperUser, Except.bind_eq_ok, ensureSuperadminRoleExists_ok,
    requireFreeUsername_ok, insertSuperUser_ok]
  constructor
  · rintro ⟨_, hrole, _, hname, hins⟩
    exact ⟨hrole, hname, hins⟩
  · rintro ⟨hrole, hname, hins⟩
    exact ⟨(), hrole, (), hname, hins⟩

/-- The startup function creates a superuser where there is none and the name is free. -/
theorem readEnsureSuperUser_ok {username : String} {create : Bool} :
    readEnsureSuperUser db username = .ok create ↔
      (∃ role ∈ db.roles, role.id = superadminRoleId) ∧
        ((∃ user ∈ db.users, user.roleId = superadminRoleId) ∧ create = false ∨
          (∀ user ∈ db.users, user.roleId ≠ superadminRoleId) ∧
            (∀ user ∈ db.users, user.username ≠ username) ∧ create = true) := by
  simp only [readEnsureSuperUser, Except.bind_eq_ok, ensureSuperadminRoleExists_ok,
    exists_const]
  refine and_congr_right fun _ => ?_
  by_cases hany : db.usersOfRole superadminRoleId = []
  · have hnone := usersOfRole_eq_nil.1 hany
    have hno : ¬ ∃ user ∈ db.users, user.roleId = superadminRoleId := by
      rintro ⟨user, huser, hrole⟩
      exact hnone user huser hrole
    rw [if_neg (not_not.2 hany)]
    simp only [Except.bind_eq_ok, requireFreeUsername_ok, Except.pure_eq_ok]
    constructor
    · rintro ⟨_, hname, rfl⟩
      exact Or.inr ⟨hnone, hname, rfl⟩
    · rintro (⟨hsome, -⟩ | ⟨-, hname, rfl⟩)
      · exact absurd hsome hno
      · exact ⟨(), hname, rfl⟩
  · have hsome := usersOfRole_ne_nil.1 hany
    rw [if_pos hany, Except.pure_eq_ok]
    constructor
    · rintro rfl
      exact Or.inl ⟨hsome, rfl⟩
    · rintro (⟨-, rfl⟩ | ⟨hnone, -⟩)
      · rfl
      · obtain ⟨user, huser, hrole⟩ := hsome
        exact absurd hrole (hnone user huser)

theorem writeEnsureSuperUser_ok {create created : Bool} {nid : ℕ} {username password : String} :
    writeEnsureSuperUser db create nid username password = .ok (created, db') ↔
      created = create ∧
        (create = false ∧ db' = db ∨ create = true ∧
          ∃ t, db.users.insert (newSuperUser nid username password) = .ok t ∧
            db' = { db with users := t }) := by
  cases create with
  | false =>
    simp only [writeEnsureSuperUser, Bool.false_eq_true, if_false, Except.pure_eq_ok,
      Prod.mk.injEq, true_and, false_and, or_false]
    exact and_congr eq_comm eq_comm
  | true =>
    simp only [writeEnsureSuperUser, if_true, Except.bind_eq_ok, Except.pure_eq_ok, Prod.mk.injEq,
      insertSuperUser_ok, Bool.true_eq_false, false_and, false_or, true_and]
    constructor
    · rintro ⟨_, ⟨t, ht, rfl⟩, rfl, rfl⟩
      exact ⟨rfl, t, ht, rfl⟩
    · rintro ⟨rfl, t, ht, rfl⟩
      exact ⟨_, ⟨t, ht, rfl⟩, rfl, rfl⟩

theorem writeEnsureSuperUser_error {create : Bool} {nid : ℕ} {username password : String}
    {e : SuperUserError} (h : writeEnsureSuperUser db create nid username password = .error e) :
    ∃ v, e = .integrityError v := by
  cases create with
  | false => cases h
  | true =>
    rcases Except.bind_eq_error.1 h with h | ⟨_, -, h⟩
    · unfold insertSuperUser at h
      split at h <;> cases h
      exact ⟨_, rfl⟩
    · cases h

/-- At startup a `ValueError` of the read counts as nothing created. -/
theorem ensureSuperUserFromEnvIfEnabled_ok {created : Bool} {nid : ℕ} {username password : String} :
    ensureSuperUserFromEnvIfEnabled db nid username password = .ok (created, db') ↔
      (∃ detail, readEnsureSuperUser db username = .error (.valueError detail)) ∧
          created = false ∧ db' = db ∨
        ∃ create, readEnsureSuperUser db username = .ok create ∧
          writeEnsureSuperUser db create nid username password = .ok (created, db') := by
  unfold ensureSuperUserFromEnvIfEnabled ensureSuperUserWithCredentials
  cases readEnsureSuperUser db username with
  | error e => cases e <;> simp [catchValueError, bind, Except.bind, eq_comm]
  | ok create =>
    cases hwrite : writeEnsureSuperUser db create nid username password with
    | error e =>
      obtain ⟨v, rfl⟩ := writeEnsureSuperUser_error hwrite
      simp [catchValueError, hwrite]
    | ok result => simp [catchValueError, hwrite]

end AranesLms
