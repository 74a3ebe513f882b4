import AranesLms.UserRole.Models

/-!
# CRUD operations on roles and users

The functions of `src/user_role/crud.py`.  An operation takes the database as the session sees it
and returns its result together with the database after its commit, or the exception it raises;
an exception leaves the database as it was (every session is rolled back when it is closed).

Identifiers given by the database are the argument `nid`, and the password argument is the hash
that `hash_password` returned.  Where an operation reads the database more than once before it
commits, the reads and the commit are definitions of their own, so that they can also be run one
at a time.
-/

namespace AranesLms

/-- `is_superadmin_role`. -/
def isSuperadminRole (role : Role) : Prop :=
  role.id = superadminRoleId ∨ role.name = superadminRoleName

instance : DecidablePred isSuperadminRole := fun role =>
  inferInstanceAs (Decidable (role.id = superadminRoleId ∨ role.name = superadminRoleName))

/-- `_merge_permission_patch`. -/
def mergePermissionPatch (currentPermissions : Option PermissionMap)
    (permissionPatch : PermissionMap) : PermissionMap :=
  permissionPatch ∪ currentPermissions.getD ∅

section

variable (db : Database)

/-! ## Roles -/

def listRoles : List Role := db.roles.sorted

def getRoleById (roleId : ℕ) : Except CrudError Role :=
  match db.role? roleId with
  | some role => .ok role
  | none => .error .roleNotFound

/-- The handler for an `IntegrityError` raised by the commit of a role. -/
def roleIntegrity : Violation → CrudError
  | .unique => .roleAlreadyExists
  | v => .integrityError v

/-- Commit a new content of the table `roles`. -/
def commitRoles (roles : Except Violation RoleTable) : Except CrudError Database :=
  match roles with
  | .ok roles => .ok { db with roles }
  | .error v => .error (roleIntegrity v)

def createRole (nid : ℕ) (name titleKey : String) : Except CrudError (Role × Database) := do
  let role : Role := ⟨nid, name, titleKey, some ∅⟩
  let db' ← commitRoles db (db.roles.insert role)
  return (role, db')

def updateRole (roleId : ℕ) (name titleKey : Option String) :
    Except CrudError (Role × Database) := do
  let role ← getRoleById db roleId
  if isSuperadminRole role then
    throw (.superAdminRoleImmutable "SuperAdmin role is immutable")
  let role' := { role with name := name.getD role.name, titleKey := titleKey.getD role.titleKey }
  let db' ← commitRoles db (db.roles.modify roleId fun _ => role')
  return (role', db')

/-- The first read of `delete_role`: the role, which must not be the SuperAdmin role. -/
def deleteRoleLoad (roleId : ℕ) : Except CrudError Role := do
  let role ← getRoleById db roleId
  if isSuperadminRole role then
    throw (.superAdminRoleImmutable "SuperAdmin role is immutable")
  return role

/-- The second read of `delete_role`: the number of users of the role. -/
def deleteRoleCount (roleId : ℕ) : Except CrudError Unit :=
  let userCount := (db.usersOfRole roleId).length
  if 0 < userCount then .error (.roleInUse userCount) else .ok ()

/-- The end of `delete_role`: the flush sets `role_id` of the users it has loaded to `NULL`, which
the column does not accept, and otherwise the role is deleted. -/
def deleteRoleCommit (roleId : ℕ) (loadedUsers : List User) : Except CrudError Database :=
  if loadedUsers = [] then .ok { db with roles := db.roles.erase roleId }
  else .error (.integrityError .notNull)

def deleteRole (roleId : ℕ) : Except CrudError Database := do
  let _ ← deleteRoleLoad db roleId
  deleteRoleCount db roleId
  deleteRoleCommit db roleId (db.usersOfRole roleId)

/-- The `UPDATE` of the permission column of one role. -/
def writeRolePermissions (roleId : ℕ) (permissions : PermissionMap) : Except CrudError Database :=
  commitRoles db (db.roles.modify roleId fun role => { role with permissions := some permissions })

/-- The read of `patch_role_permissions`: the role with its merged map. -/
def readPatchRole (roleId : ℕ) (permissionPatch : PermissionPatch) : Except CrudError Role := do
  let patch ← validatePermissionPatch permissionPatch
  let role ← getRoleById db roleId
  if isSuperadminRole role then
    throw (.superAdminRoleImmutable "SuperAdmin role permissions are immutable")
  return { role with permissions := some (mergePermissionPatch role.permissions patch) }

def patchRolePermissions (roleId : ℕ) (permissionPatch : PermissionPatch) :
    Except CrudError (Role × Database) := do
  let role ← readPatchRole db roleId permissionPatch
  let db' ← writeRolePermissions db role.id role.perms
  return (role, db')

/-- A role row with its permissions cleared by `reset_role_permissions`. -/
def resetRole (role : Role) : Role :=
  if isSuperadminRole role then role else { role with permissions := some ∅ }

theorem resetRole_id (role : Role) : (resetRole role).id = role.id := by
  unfold resetRole
  split_ifs <;> rfl

theorem resetRole_name (role : Role) : (resetRole role).name = role.name := by
  unfold resetRole
  split_ifs <;> rfl

/-- The count of `reset_role_permissions`, whose filter excludes the SuperAdmin role. -/
def countResetRoles : ℕ := (db.roles.rows.filter fun role => ¬ isSuperadminRole role).length

/-- The bulk `UPDATE` of `reset_role_permissions`. -/
def writeResetRoles : Database :=
  { db with roles := db.roles.mapRows resetRole resetRole_id resetRole_name }

def resetRolePermissions : ℕ × Database :=
  let updatedCount := countResetRoles db
  if updatedCount = 0 then (0, db) else (updatedCount, writeResetRoles db)

/-! ## Users -/

def listUsers : List User := db.users.sorted

def getUserById (userId : ℕ) : Except CrudError User :=
  match db.user? userId with
  | some user => .ok user
  | none => .error .userNotFound

/-- The handler for an `IntegrityError` raised by the commit of a user. -/
def userIntegrity : Violation → CrudError
  | .unique => .usernameAlreadyExists
  | v => .integrityError v

/-- Commit a new content of the table `users`. -/
def commitUsers (users : Except Violation UserTable) : Except CrudError Database :=
  match users with
  | .ok users => .ok { db with users }
  | .error v => .error (userIntegrity v)

/-- The read of `create_user_admin` and `update_user_admin`: the role must exist. -/
def requireRole (roleId : ℕ) : Except CrudError Unit :=
  match db.role? roleId with
  | some _ => .ok ()
  | none => .error .roleNotFound

/-- The `INSERT` and commit of a user. -/
def insertUser (user : User) : Except CrudError (User × Database) := do
  let db' ← commitUsers db (db.users.insert user)
  return (user, db')

def createUserAdmin (nid : ℕ) (username password : String) (roleId : ℕ) :
    Except CrudError (User × Database) := do
  requireRole db roleId
  insertUser db ⟨nid, username, password, roleId, some ∅⟩

/-- The columns that `update_user_admin` has changed on the loaded user. -/
structure UserChanges where
  username : Option String
  roleId : Option ℕ
  deriving DecidableEq

/-- The columns of the request that differ from the loaded user. -/
def userChanges (user : User) (username : Option String) (roleId : Option ℕ) : UserChanges where
  username := username.filter (· ≠ user.username)
  roleId := roleId.filter (· ≠ user.roleId)

/-- The row with the changed columns written. -/
def UserChanges.apply (changes : UserChanges) (user : User) : User :=
  { user with
    username := changes.username.getD user.username
    roleId := changes.roleId.getD user.roleId }

/-- The `UPDATE` of the changed columns and the commit. -/
def writeUserChanges (userId : ℕ) (changes : UserChanges) : Except CrudError Database :=
  commitUsers db (db.users.modify userId changes.apply)

/-- The `SELECT` of the role in `update_user_admin`.  The session first flushes the pending
username, outside the `try` block that translates an `IntegrityError`. -/
def flushThenRequireRole (userId : ℕ) (changes : UserChanges) (roleId : ℕ) :
    Except CrudError Unit :=
  match db.users.modify userId ({ changes with roleId := none } : UserChanges).apply with
  | .ok _ => requireRole db roleId
  | .error v => .error (.integrityError v)

def updateUserAdmin (userId : ℕ) (username : Option String) (roleId : Option ℕ) :
    Except CrudError (User × Database) := do
  let user ← getUserById db userId
  let changes := userChanges user username roleId
  match roleId with
  | some rid => flushThenRequireRole db userId changes rid
  | none => pure ()
  let db' ← writeUserChanges db userId changes
  return (changes.apply user, db')

def setUserPasswordAdmin (userId : ℕ) (password : String) : Except CrudError (User × Database) := do
  let user ← getUserById db userId
  let db' ← commitUsers db (db.users.modify userId fun u => { u with password })
  return ({ user with password }, db')

def deleteUserAdmin (userId : ℕ) : Except CrudError Database := do
  let _ ← getUserById db userId
  return { db with users := db.users.erase userId }

/-- The `UPDATE` of the permission column of one user. -/
def writeUserPermissions (userId : ℕ) (permissions : PermissionMap) : Except CrudError Database :=
  commitUsers db (db.users.modify userId fun user => { user with permissions := some permissions })

/-- The read of `patch_user_permissions`: the user with its merged map. -/
def readPatchUser (userId : ℕ) (permissionPatch : PermissionPatch) : Except CrudError User := do
  let patch ← validatePermissionPatch permissionPatch
  let user ← getUserById db userId
  return { user with permissions := some (mergePermissionPatch user.permissions patch) }

def patchUserPermissions (userId : ℕ) (permissionPatch : PermissionPatch) :
    Except CrudError (User × Database) := do
  let user ← readPatchUser db userId permissionPatch
  let db' ← writeUserPermissions db user.id user.perms
  return (user, db')

/-- The bulk `UPDATE` of `reset_user_permissions`. -/
def writeResetUsers : Database :=
  { db with
    users := db.users.mapRows (fun user => { user with permissions := some ∅ }) (fun _ => rfl)
      (fun _ => rfl) }

def resetUserPermissions : ℕ × Database :=
  let updatedCount := db.users.rows.length
  if updatedCount = 0 then (0, db) else (updatedCount, writeResetUsers db)

/-! ## Role registry -/

/-- The read of the role registry: the role with the incoming entries appended, none of which may
be present. -/
def readAppendRole (roleName : String) (permissionPatch : PermissionPatch) :
    Except CrudError Role := do
  let patch ← validatePermissionPatch permissionPatch
  match db.roles.findBy? roleName with
  | none => throw .roleNotFound
  | some role =>
    let duplicateKeys := permissionPatch.keys.filter (· ∈ role.perms)
    if duplicateKeys ≠ [] then
      throw (.duplicatePermissionKeys (duplicateKeys.insertionSort (· ≤ ·)))
    return { role with permissions := some (patch ∪ role.perms) }

/-- `create_or_append_role_permissions_no_overwrite`; the result is the role it updated. -/
def createOrAppendRolePermissionsNoOverwrite (roleName : String)
    (permissionPatch : PermissionPatch) : Except CrudError (Role × Database) := do
  let role ← readAppendRole db roleName permissionPatch
  let db' ← writeRolePermissions db role.id role.perms
  return (role, db')

end

end AranesLms
