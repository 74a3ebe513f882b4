import AranesLms.Auth.Tokens
import AranesLms.UserRole.SuperUser

/-!
# The superuser command

`cli_create_super_user(use_env=True)` of `src/utils/super_user.py` creates a superuser from the
environment and tells by its exit code whether there is one.  It looks for a superuser in two ways:
`ensure_super_user_with_credentials` asks for one row at most, `is_super_user_exist` for all of them
with `scalar_one_or_none`, which raises when there are several (`checksAgree_iff`).
-/

namespace AranesLms

namespace SuperUserCommand

/-- The hasher, and the rule by which the database numbers a new user. -/
structure Deployment where
  hashPassword : String → String
  nextUserId : UserTable → ℕ
  nextUserId_fresh : ∀ users, ∀ user ∈ users, user.id ≠ nextUserId users

/-- What the command raises: what the creation raises, or `MultipleResultsFound`. -/
inductive CommandError where
  | superUser (e : SuperUserError)
  | multipleResultsFound
  deriving DecidableEq

/-! ## Credentials -/

/-- What `UserAuthBody` has against a username. -/
def usernameError (username : String) : Option String :=
  if username.length < 5 then some "username: String should have at least 5 characters"
  else if 128 < username.length then some "username: String should have at most 128 characters"
  else if ¬ username.toList.all Char.isAlphanum then
    some "username: String should match pattern '^[a-zA-Z0-9]+$'"
  else none

/-- What `UserAuthBody` has against a password. -/
def passwordError (password : String) : Option String :=
  if password.length < 8 then some "password: String should have at least 8 characters"
  else if 128 < password.length then some "password: String should have at most 128 characters"
  else none

/-- `_validate_superuser_credentials`. -/
def validateSuperuserCredentials (username password : String) :
    Except SuperUserError (String × String) :=
  let normalizedUsername := strip username
  let messages := (usernameError normalizedUsername).toList ++ (passwordError password).toList
  if messages = [] then .ok (normalizedUsername, password)
  else .error (.valueError ("; ".intercalate messages))

/-- `_get_bool_env`; `lower` is `str.lower`. -/
def getBoolEnv (lower : String → String) (raw : Option String) (default : Bool) : Bool :=
  match raw with
  | none => default
  | some raw => lower (strip raw) ∈ ["1", "true", "yes", "on"]

/-! ## The two checks -/

/-- `Result.scalar_one_or_none`. -/
def scalarOneOrNone {α : Type} : List α → Except CommandError (Option α)
  | [] => .ok none
  | [a] => .ok (some a)
  | _ => .error .multipleResultsFound

def isSuperUserExist (db : Database) : Except CommandError Bool := do
  let user ← scalarOneOrNone (db.usersOfRole superadminRoleId)
  return user.isSome

section

variable (d : Deployment) (db : Database)

/-- With the result and the database afterwards. -/
def ensureSuperUserWithCredentials (username password : String) :
    Except SuperUserError (Bool × Database) := do
  let (username, password) ← validateSuperuserCredentials username password
  AranesLms.ensureSuperUserWithCredentials db (d.nextUserId db.users) username
    (d.hashPassword password)

/-- The environment is given by the values of its variables. -/
def ensureSuperUserFromEnvIfEnabled (lower : String → String) (env : String → Option String) :
    Except SuperUserError (Bool × Database) :=
  if ¬ getBoolEnv lower (env "BOOTSTRAP_SUPERUSER_CREATE") false then .ok (false, db)
  else
    let username := strip ((env "BOOTSTRAP_SUPERUSER_USERNAME").getD "")
    let bootstrapPassword := (env "BOOTSTRAP_SUPERUSER_PASSWORD").getD ""
    if username = "" ∨ bootstrapPassword = "" then .ok (false, db)
    else catchValueError (false, db)
      (ensureSuperUserWithCredentials d db username bootstrapPassword)

/-- `cli_create_super_user(use_env=True)`: the exit code and the database afterwards. -/
def cliCreateSuperUser (lower : String → String) (env : String → Option String) :
    Except CommandError (ℕ × Database) :=
  match ensureSuperUserFromEnvIfEnabled d db lower env with
  | .error e => .error (.superUser e)
  | .ok (created, db') =>
    if created then .ok (0, db')
    else do
      let superUserExists ← isSuperUserExist db'
      return (if superUserExists then 0 else 1, db')

end

/-! ## Agreement -/

/-- Somebody has the SuperAdmin role. -/
def HasSuperUser (db : Database) : Prop := ∃ user ∈ db.users, user.roleId = superadminRoleId

instance (db : Database) : Decidable (HasSuperUser db) :=
  inferInstanceAs (Decidable (∃ user ∈ db.users, user.roleId = superadminRoleId))

/-- The checks give the same answer, and the exit code is the one of the database afterwards. -/
structure ChecksAgree (d : Deployment) (db : Database) : Prop where
  isSuperUserExist : isSuperUserExist db = .ok (decide (HasSuperUser db))
  ensure_false : ∀ username password db',
    ensureSuperUserWithCredentials d db username password = .ok (false, db') →
      HasSuperUser db ∧ db' = db
  ensure_of_hasSuperUser : HasSuperUser db → (∃ role ∈ db.roles, role.id = superadminRoleId) →
    ∀ username password credentials,
      validateSuperuserCredentials username password = .ok credentials →
        ensureSuperUserWithCredentials d db username password = .ok (false, db)
  cli : (∃ role ∈ db.roles, role.id = superadminRoleId) → ∀ lower env, ∃ code db',
    cliCreateSuperUser d db lower env = .ok (code, db') ∧
      (code = 0 ∧ HasSuperUser db' ∨ code = 1 ∧ ¬ HasSuperUser db')

/-- At most one user has the SuperAdmin role. -/
def AtMostOneSuperUser (db : Database) : Prop := (db.usersOfRole superadminRoleId).length ≤ 1

variable {d : Deployment} {db db' : Database}

theorem hasSuperUser_iff : HasSuperUser db ↔ db.usersOfRole superadminRoleId ≠ [] :=
  usersOfRole_ne_nil.symm

theorem isSuperUserExist_eq (h : AtMostOneSuperUser db) :
    isSuperUserExist db = .ok (decide (HasSuperUser db)) := by
  rw [AtMostOneSuperUser] at h
  rw [SuperUserCommand.isSuperUserExist]
  cases husers : db.usersOfRole superadminRoleId with
  | nil =>
    rw [decide_eq_false fun hsuper => hasSuperUser_iff.1 hsuper husers]
    rfl
  | cons user rest =>
    cases rest with
    | nil =>
      rw [decide_eq_true (hasSuperUser_iff.2 (by simp [husers]))]
      rfl
    | cons user' rest =>
      rw [husers] at h
      simp at h

theorem atMostOne_of_isSuperUserExist {x : Bool} (h : isSuperUserExist db = .ok x) :
    AtMostOneSuperUser db := by
  rw [AtMostOneSuperUser]
  rw [SuperUserCommand.isSuperUserExist] at h
  cases husers : db.usersOfRole superadminRoleId with
  | nil => exact Nat.zero_le 1
  | cons user rest =>
    cases rest with
    | nil => exact le_rfl
    | cons user' rest =>
      rw [husers] at h
      cases h

/-! ### The creation -/

theorem validateSuperuserCredentials_error {username password : String} {e : SuperUserError}
    (h : validateSuperuserCredentials username password = .error e) :
    ∃ detail, e = .valueError detail := by
  unfold validateSuperuserCredentials at h
  dsimp only at h
  split_ifs at h
  cases h
  exact ⟨_, rfl⟩

/-- With a superuser there is nothing to create. -/
theorem ensure_of_hasSuperUser (hsuper : HasSuperUser db)
    (hrole : ∃ role ∈ db.roles, role.id = superadminRoleId) (nid : ℕ)
    (username passwordHash : String) :
    AranesLms.ensureSuperUserWithCredentials db nid username passwordHash = .ok (false, db) := by
  have hread : readEnsureSuperUser db username = .ok false :=
    readEnsureSuperUser_ok.2 ⟨hrole, Or.inl ⟨hsuper, rfl⟩⟩
  rw [AranesLms.ensureSuperUserWithCredentials, hread]
  rfl

/-- Without one it is created, unless the username is taken. -/
theorem ensure_of_not_hasSuperUser (hsuper : ¬ HasSuperUser db)
    (hrole : ∃ role ∈ db.roles, role.id = superadminRoleId) (username passwordHash : String) :
    (∃ detail, AranesLms.ensureSuperUserWithCredentials db (d.nextUserId db.users) username
        passwordHash = .error (.valueError detail)) ∨
      ∃ db', AranesLms.ensureSuperUserWithCredentials db (d.nextUserId db.users) username
        passwordHash = .ok (true, db') ∧ HasSuperUser db' := by
  have hnone : ∀ user ∈ db.users, user.roleId ≠ superadminRoleId :=
    fun user huser h => hsuper ⟨user, huser, h⟩
  by_cases hname : ∀ user ∈ db.users, user.username ≠ username
  · have hread : readEnsureSuperUser db username = .ok true :=
      readEnsureSuperUser_ok.2 ⟨hrole, Or.inr ⟨hnone, hname, rfl⟩⟩
    obtain ⟨t, ht⟩ := Table.exists_insert
      (r := newSuperUser (d.nextUserId db.users) username passwordHash)
      (d.nextUserId_fresh db.users) hname
    have hwrite : writeEnsureSuperUser db true (d.nextUserId db.users) username passwordHash =
        .ok (true, { db with users := t }) :=
      writeEnsureSuperUser_ok.2 ⟨rfl, Or.inr ⟨rfl, t, ht, rfl⟩⟩
    refine Or.inr ⟨{ db with users := t }, ?_, _, (Table.mem_insert ht).2 (Or.inr rfl), rfl⟩
    rw [AranesLms.ensureSuperUserWithCredentials, hread]
    exact hwrite
  · have hread : readEnsureSuperUser db username =
        .error (.valueError "Username already exists.") := by
      obtain ⟨role, hmem, hid⟩ := hrole
      push Not at hname
      obtain ⟨user, huser, rfl⟩ := hname
      have hfind : db.users.findBy? user.username = some user :=
        Table.findBy?_eq_some.2 ⟨huser, rfl⟩
      have hnil : ¬ db.usersOfRole superadminRoleId ≠ [] := fun h => hsuper (hasSuperUser_iff.2 h)
      rw [readEnsureSuperUser, (@ensureSuperadminRoleExists_ok db ()).2 ⟨role, hmem, hid⟩,
        Except.ok_bind, if_neg hnil, requireFreeUsername, hfind]
      rfl
    refine Or.inl ⟨"Username already exists.", ?_⟩
    rw [AranesLms.ensureSuperUserWithCredentials, hread]
    rfl

/-- What the environment leads to: nothing, when there is a superuser or none can be created, or a
superuser. -/
theorem ensureFromEnv_cases (hrole : ∃ role ∈ db.roles, role.id = superadminRoleId)
    (lower : String → String) (env : String → Option String) :
    ensureSuperUserFromEnvIfEnabled d db lower env = .ok (false, db) ∨
      ∃ db', ensureSuperUserFromEnvIfEnabled d db lower env = .ok (true, db') ∧
        HasSuperUser db' := by
  rw [ensureSuperUserFromEnvIfEnabled]
  by_cases henabled : ¬ getBoolEnv lower (env "BOOTSTRAP_SUPERUSER_CREATE") false
  · exact Or.inl (if_pos henabled)
  rw [if_neg henabled]
  generalize strip ((env "BOOTSTRAP_SUPERUSER_USERNAME").getD "") = username
  generalize (env "BOOTSTRAP_SUPERUSER_PASSWORD").getD "" = password
  by_cases hmissing : username = "" ∨ password = ""
  · exact Or.inl (if_pos hmissing)
  simp only [if_neg hmissing]
  rw [ensureSuperUserWithCredentials]
  cases hvalid : validateSuperuserCredentials username password with
  | error e =>
    obtain ⟨detail, rfl⟩ := validateSuperuserCredentials_error hvalid
    exact Or.inl rfl
  | ok credentials =>
    obtain ⟨username, password⟩ := credentials
    rw [Except.ok_bind]
    dsimp only
    by_cases hsuper : HasSuperUser db
    · rw [ensure_of_hasSuperUser hsuper hrole]
      exact Or.inl rfl
    · rcases ensure_of_not_hasSuperUser hsuper hrole username (d.hashPassword password) with
        ⟨detail, hensure⟩ | ⟨db', hensure, hsuper'⟩
      · rw [hensure]
        exact Or.inl rfl
      · rw [hensure]
        exact Or.inr ⟨db', rfl, hsuper'⟩

theorem cliCreateSuperUser_ok (h : AtMostOneSuperUser db)
    (hrole : ∃ role ∈ db.roles, role.id = superadminRoleId) (lower : String → String)
    (env : String → Option String) :
    ∃ code db', cliCreateSuperUser d db lower env = .ok (code, db') ∧
      (code = 0 ∧ HasSuperUser db' ∨ code = 1 ∧ ¬ HasSuperUser db') := by
  unfold cliCreateSuperUser
  rcases ensureFromEnv_cases (d := d) hrole lower env with hensure | ⟨db', hensure, hsuper⟩
  · rw [hensure]
    dsimp only
    rw [if_neg Bool.false_ne_true, isSuperUserExist_eq h]
    refine ⟨_, _, rfl, ?_⟩
    by_cases hsuper : HasSuperUser db
    · exact Or.inl ⟨if_pos (decide_eq_true hsuper), hsuper⟩
    · exact Or.inr ⟨if_neg (by simpa using hsuper), hsuper⟩
  · rw [hensure]
    exact ⟨0, db', rfl, Or.inl ⟨rfl, hsuper⟩⟩

theorem ensure_false {username password : String}
    (h : ensureSuperUserWithCredentials d db username password = .ok (false, db')) :
    HasSuperUser db ∧ db' = db := by
  rw [ensureSuperUserWithCredentials, Except.bind_eq_ok] at h
  obtain ⟨⟨username, password⟩, -, h⟩ := h
  dsimp only at h
  rw [AranesLms.ensureSuperUserWithCredentials, Except.bind_eq_ok] at h
  obtain ⟨create, hread, hwrite⟩ := h
  obtain ⟨rfl, ⟨-, rfl⟩ | ⟨hcreate, -⟩⟩ := writeEnsureSuperUser_ok.1 hwrite
  · obtain ⟨-, ⟨hsuper, -⟩ | ⟨-, -, hcreate⟩⟩ := readEnsureSuperUser_ok.1 hread
    · exact ⟨hsuper, rfl⟩
    · cases hcreate
  · cases hcreate

/-- The checks agree exactly as long as there are not several superusers. -/
theorem checksAgree_iff (d : Deployment) (db : Database) :
    ChecksAgree d db ↔ AtMostOneSuperUser db := by
  constructor
  · intro h
    exact atMostOne_of_isSuperUserExist h.isSuperUserExist
  · intro h
    refine ⟨isSuperUserExist_eq h, fun username password db' => ensure_false,
      fun hsuper hrole username password credentials hvalid => ?_, cliCreateSuperUser_ok h⟩
    rw [ensureSuperUserWithCredentials, hvalid, Except.ok_bind]
    exact ensure_of_hasSuperUser hsuper hrole _ _ _

/-! ## Two superusers -/

section

/-- The startup has created `admin`, who has given `bob` the same role. -/
def twoSuperUsers : Database :=
  { Database.empty with
    roles := ⟨[⟨superadminRoleId, "SuperAdmin", "roles.superadmin", some ∅⟩],
      by decide, by decide⟩
    users := ⟨[⟨1, "admin", "hash", superadminRoleId, some ∅⟩,
      ⟨2, "bob", "hash", superadminRoleId, some ∅⟩], by decide, by decide⟩ }

/-- A database that numbers past every row. -/
def countingDeployment : Deployment where
  hashPassword password := password
  nextUserId users := users.nextId
  nextUserId_fresh _ _ huser := (Table.pk_lt_nextId huser).ne

/-- The creation skips, and the other check raises. -/
theorem not_checksAgree_twoSuperUsers : ¬ ChecksAgree countingDeployment twoSuperUsers := by
  intro h
  have hraised : isSuperUserExist twoSuperUsers = .error .multipleResultsFound := rfl
  have hcheck := h.isSuperUserExist
  rw [hraised] at hcheck
  cases hcheck

end

end SuperUserCommand

end AranesLms
