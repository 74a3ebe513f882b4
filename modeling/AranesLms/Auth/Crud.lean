import AranesLms.UserRole.Crud

/-!
# Signup

`create_user` and `get_or_create_default_signup_role_with_config` of `src/auth/crud.py`, with the
values of the default configuration, and the database part of the `signup` endpoint.
-/

namespace AranesLms

variable (db : Database)

/-- `(id, 'name')`, as the drift messages print a role. -/
def describeRole (role : Role) : String := "(" ++ toString role.id ++ ", '" ++ role.name ++ "')"

/-- `_get_exact_default_signup_role`. -/
def getExactDefaultSignupRole (roleId : ℕ) (roleName : String) : Except CrudError (Option Role) :=
  let found := db.roles.rows.filter fun role => role.id = roleId ∨ role.name = roleName
  if found = [] then .ok none
  else
    match found.find? fun role => role.id = roleId ∧ role.name = roleName with
    | some role => .ok (some role)
    | none =>
      match found with
      | [role] =>
        .error (.runtimeError ("Default signup role drift detected. Expected (" ++
          toString roleId ++ ", '" ++ roleName ++ "') but found " ++ describeRole role ++ "."))
      | _ =>
        .error (.runtimeError ("Default signup role mapping drift detected. Expected id " ++
          toString roleId ++ " and name '" ++ roleName ++ "' to refer to one role, found: " ++
          ", ".intercalate (found.map describeRole) ++ "."))

/-- The default signup role as `get_or_create_default_signup_role_with_config` creates it. -/
def newSignupRole : Role :=
  ⟨defaultSignupRoleId, defaultSignupRoleName, defaultSignupRoleTitleKey,
    some (rbacServiceDefaults defaultSignupRoleName)⟩

/-- The flush of the new signup role; nothing translates its `IntegrityError`. -/
def insertSignupRole : Except CrudError Database :=
  match db.roles.insert newSignupRole with
  | .ok roles => .ok { db with roles }
  | .error v => .error (.integrityError v)

/-- `get_or_create_default_signup_role_with_config`; the role is flushed, not yet committed. -/
def getOrCreateDefaultSignupRoleWithConfig : Except CrudError (Role × Database) := do
  match ← getExactDefaultSignupRole db defaultSignupRoleId defaultSignupRoleName with
  | some role => return (role, db)
  | none =>
    let db' ← insertSignupRole db
    return (newSignupRole, db')

/-- `create_user`. -/
def createUser (nid : ℕ) (username passwordHash : String) (roleId : ℕ)
    (permissions : Option PermissionMap) : Except CrudError (User × Database) :=
  insertUser db ⟨nid, username, passwordHash, roleId, some (permissions.getD ∅)⟩

/-- The database part of `signup`: the role it may have created is committed with the user. -/
def signup (nid : ℕ) (username passwordHash : String) : Except CrudError (User × Database) := do
  let (role, db') ← getOrCreateDefaultSignupRoleWithConfig db
  createUser db' nid username passwordHash role.id (some ∅)

end AranesLms
