import AranesLms.UserRole.Permission

/-!
# Rows and database

The rows of `src/user_role/models.py` and `src/i18n/models.py`, and the database: two tables with
an integer primary key and a unique name, and the two translation tables, whose only constraint is
their primary key.
-/

namespace AranesLms

/-- A row of `roles`. -/
structure Role where
  id : ℕ
  name : String
  titleKey : String
  permissions : Option PermissionMap
  deriving DecidableEq

/-- A row of `users`. -/
structure User where
  id : ℕ
  username : String
  password : String
  roleId : ℕ
  permissions : Option PermissionMap
  deriving DecidableEq

/-- `role.permissions or {}`. -/
def Role.perms (role : Role) : PermissionMap := role.permissions.getD ∅

/-- `user.permissions or {}`. -/
def User.perms (user : User) : PermissionMap := user.permissions.getD ∅

abbrev RoleTable := Table Role.id Role.name

abbrev UserTable := Table User.id User.username

/-- `dict[str, str]`, the texts of a translation by language. -/
abbrev TranslationMap := Finmap fun _ : String => String

/-- Content of `translate_small`, by `key`. -/
abbrev SmallTranslates := Finmap fun _ : String => TranslationMap

/-- Content of `translate_large`, by `(key1, key2)`. -/
abbrev LargeTranslates := Finmap fun _ : String × String => TranslationMap

structure Database where
  roles : RoleTable
  users : UserTable
  translateSmall : SmallTranslates
  translateLarge : LargeTranslates
  deriving DecidableEq

/-- The database after the migrations. -/
def Database.empty : Database := ⟨∅, ∅, ∅, ∅⟩

namespace Database

variable (db : Database)

/-- `session.get(Role, role_id)`. -/
def role? (roleId : ℕ) : Option Role := db.roles.find? roleId

/-- `session.get(User, user_id)`. -/
def user? (userId : ℕ) : Option User := db.users.find? userId

/-- `SELECT … FROM users WHERE role_id = …`. -/
def usersOfRole (roleId : ℕ) : List User := db.users.rows.filter fun u => u.roleId = roleId

/-- The effective permissions of a user row, the map of a missing role counting as empty. -/
def effectivePermissions (u : User) : PermissionMap :=
  buildEffectivePermissions u.permissions ((db.role? u.roleId).bind Role.permissions)

end Database

theorem usersOfRole_eq_nil {db : Database} {roleId : ℕ} :
    db.usersOfRole roleId = [] ↔ ∀ user ∈ db.users, user.roleId ≠ roleId := by
  simp [Database.usersOfRole, Table.mem_def]

theorem usersOfRole_ne_nil {db : Database} {roleId : ℕ} :
    db.usersOfRole roleId ≠ [] ↔ ∃ user ∈ db.users, user.roleId = roleId := by
  rw [ne_eq, usersOfRole_eq_nil]
  push Not
  rfl

end AranesLms
