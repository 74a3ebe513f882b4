import AranesLms.Api

/-!
# The RBAC endpoints as programs

The endpoints of `src/user_role/endpoints/` step by step, with the session underneath: a flush
writes the columns of a loaded row that have changed, and fails when the row is gone.
-/

namespace AranesLms

/-! ## Flushes -/

section Flush

variable {ρ : Type} {pk : ρ → ℕ} {uk : ρ → String}

/-- The text of a `StaleDataError`. -/
def staleData (table : String) : CrudError :=
  .runtimeError ("UPDATE statement on table '" ++ table ++
    "' expected to update 1 row(s); 0 were matched.")

/-- The `UPDATE` of a loaded row. -/
def updateLoaded (table : String) (t : Table pk uk) (i : ℕ) (f : ρ → ρ) :
    Except CrudError (Table pk uk) :=
  match t.find? i with
  | none => .error (staleData table)
  | some _ =>
    match t.modify i f with
    | .ok t' => .ok t'
    | .error v => .error (.integrityError v)

end Flush

/-- The row with the columns written that differ between `old` and `new`. -/
def writeRoleColumns (old new role : Role) : Role where
  id := role.id
  name := if new.name = old.name then role.name else new.name
  titleKey := if new.titleKey = old.titleKey then role.titleKey else new.titleKey
  permissions := if new.permissions = old.permissions then role.permissions else new.permissions

/-- The flush and commit of a role that was loaded as `old`. -/
def flushRole (old new : Role) (db : Database) : Except CrudError Database :=
  if new = old then .ok db
  else do
    let roles ← updateLoaded "roles" db.roles old.id (writeRoleColumns old new)
    return { db with roles }

def writeUserColumns (old new user : User) : User where
  id := user.id
  username := if new.username = old.username then user.username else new.username
  password := if new.password = old.password then user.password else new.password
  roleId := if new.roleId = old.roleId then user.roleId else new.roleId
  permissions := if new.permissions = old.permissions then user.permissions else new.permissions

def flushUser (old new : User) (db : Database) : Except CrudError Database :=
  if new = old then .ok db
  else do
    let users ← updateLoaded "users" db.users old.id (writeUserColumns old new)
    return { db with users }

/-- A handler that translates the violation of a unique column. -/
def onUnique {α : Type} (alreadyExists : CrudError) : Except CrudError α → Except CrudError α
  | .error (.integrityError .unique) => .error alreadyExists
  | result => result

theorem updateLoaded_ok {ρ : Type} {pk : ρ → ℕ} {uk : ρ → String} {table : String}
    {t t' : Table pk uk} {i : ℕ} {f : ρ → ρ} :
    updateLoaded table t i f = .ok t' ↔ (∃ r ∈ t, pk r = i) ∧ t.modify i f = .ok t' := by
  unfold updateLoaded
  cases hfind : t.find? i with
  | none => simpa using fun r hr hi => absurd hi (Table.find?_eq_none.1 hfind r hr)
  | some r =>
    have hr : ∃ r ∈ t, pk r = i := ⟨r, Table.find?_eq_some.1 hfind⟩
    cases t.modify i f <;> simp [hr]

theorem flushRole_ok {old new : Role} {db db' : Database} (h : flushRole old new db = .ok db') :
    ∃ roles, db' = { db with roles } ∧ ∀ role ∈ db.roles, role.id ≠ old.id → role ∈ roles := by
  unfold flushRole at h
  split_ifs at h
  · cases h
    exact ⟨db.roles, rfl, fun role hrole _ => hrole⟩
  · simp only [Except.bind_eq_ok, Except.pure_eq_ok, updateLoaded_ok] at h
    obtain ⟨roles, ⟨-, hroles⟩, rfl⟩ := h
    exact ⟨roles, rfl, fun role => Table.mem_modify_of_ne hroles⟩

theorem flushUser_ok {old new : User} {db db' : Database} (h : flushUser old new db = .ok db') :
    ∃ users, db' = { db with users } ∧ ∀ user ∈ db.users, user.id ≠ old.id → user ∈ users := by
  unfold flushUser at h
  split_ifs at h
  · cases h
    exact ⟨db.users, rfl, fun user huser _ => huser⟩
  · simp only [Except.bind_eq_ok, Except.pure_eq_ok, updateLoaded_ok] at h
    obtain ⟨users, ⟨-, husers⟩, rfl⟩ := h
    exact ⟨users, rfl, fun user => Table.mem_modify_of_ne husers⟩

theorem onUnique_ok {α : Type} {e : CrudError} {x : Except CrudError α} {a : α} :
    onUnique e x = .ok a ↔ x = .ok a := by
  unfold onUnique
  split <;> simp

namespace ApiProgram

/-! ## Reads -/

def listRoles : ApiProgram :=
  cached roleListCacheKey Payload.normalizeRoleList
    (fun db => .ok ((AranesLms.listRoles db).map serializeRole))
    Payload.roleList fun items => .rbac (.roleList items)

def getRole (roleId : ℕ) : ApiProgram :=
  cached (roleCacheKey roleId) (Payload.normalizeRole roleId)
    (fun db => crudResult (serializeRole <$> getRoleById db roleId))
    Payload.role fun item => .rbac (.role item)

def listUsers : ApiProgram :=
  cached userListCacheKey Payload.normalizeUserList
    (fun db => .ok ((AranesLms.listUsers db).map serializeUser))
    Payload.userList fun items => .rbac (.userList items)

def getUser (userId : ℕ) : ApiProgram :=
  cached (userCacheKey userId) (Payload.normalizeUser userId)
    (fun db => crudResult (serializeUser <$> getUserById db userId))
    Payload.user fun item => .rbac (.user item)

def get : View → ApiProgram
  | .roleList => listRoles
  | .role roleId => getRole roleId
  | .userList => listUsers
  | .user userId => getUser userId

/-! ## Writes -/

/-- The end of an endpoint that has committed. -/
def respond (cs : List ApiCommand) (response : Response) : ApiProgram :=
  Program.commands (.done (.ok (.rbac response))) cs

/-- `invalidate_role_list` and `set_role`. -/
def refreshRole (role : Role) : List ApiCommand :=
  [.delete [roleListCacheKey], .set (roleCacheKey role.id) (.role (serializeRole role))]

/-- `invalidate_role` and `invalidate_role_list`. -/
def dropRole (roleId : ℕ) : List ApiCommand :=
  [.delete [roleCacheKey roleId], .delete [roleListCacheKey]]

/-- `invalidate_roles` with the list, one command. -/
def dropRoles (roleIds : List ℕ) : List ApiCommand :=
  [.delete (roleIds.map roleCacheKey ++ [roleListCacheKey])]

def refreshUser (user : User) : List ApiCommand :=
  [.delete [userListCacheKey], .set (userCacheKey user.id) (.user (serializeUser user))]

def dropUser (userId : ℕ) : List ApiCommand :=
  [.delete [userCacheKey userId], .delete [userListCacheKey]]

def dropUsers (userIds : List ℕ) : List ApiCommand :=
  [.delete (userIds.map userCacheKey ++ [userListCacheKey])]

/-- The end of an endpoint that answers with the role it has written. -/
def respondRole (role : Role) : ApiProgram :=
  respond (refreshRole role) (.role (serializeRole role))

def respondUser (user : User) : ApiProgram :=
  respond (refreshUser user) (.user (serializeUser user))

def createRole (nid : ℕ) (name titleKey : String) : ApiProgram :=
  let role : Role := ⟨nid, name, titleKey, some ∅⟩
  submit (fun db => commitRoles db (db.roles.insert role)) (respondRole role)

def updateRole (roleId : ℕ) (name titleKey : Option String) : ApiProgram :=
  query (fun db => crudResult (deleteRoleLoad db roleId)) fun role =>
    let role' := { role with name := name.getD role.name, titleKey := titleKey.getD role.titleKey }
    submit (fun db => onUnique .roleAlreadyExists (flushRole role role' db)) (respondRole role')

def deleteRole (roleId : ℕ) : ApiProgram :=
  query (fun db => crudResult (deleteRoleLoad db roleId)) fun _ =>
    query (fun db => crudResult (deleteRoleCount db roleId)) fun _ =>
      query (fun db => .ok (db.usersOfRole roleId)) fun loadedUsers =>
        submit (fun db => deleteRoleCommit db roleId loadedUsers)
          (respond (dropRole roleId) .noContent)

/-- The role is read with its merged map; the merge starts from the map that was loaded. -/
def patchRolePermissions (roleId : ℕ) (permissions : PermissionPatch) : ApiProgram :=
  query (fun db => crudResult (do
    let role ← readPatchRole db roleId permissions
    return (← getRoleById db roleId, role))) fun (role, role') =>
    submit (flushRole role role') (respondRole role')

def resetRolePermissions : ApiProgram :=
  query (fun db => .ok (AranesLms.listRoles db)) fun roles =>
    query (fun db => .ok (countResetRoles db)) fun updatedCount =>
      let finish := respond
        (dropRoles ((roles.filter fun role => ¬ isSuperadminRole role).map Role.id))
        (.updated updatedCount)
      if updatedCount = 0 then finish else submit (fun db => .ok (writeResetRoles db)) finish

def registryRolesOnceIfNotExist (name : String) (permissions : PermissionPatch) : ApiProgram :=
  query (fun db => crudResult (do
    let role ← readAppendRole db name permissions
    return (← getRoleById db role.id, role))) fun (role, role') =>
    submit (flushRole role role')
      (respond (dropRole role'.id) (.registry "updated" role'.name role'.perms))

def createUser (nid : ℕ) (username password : String) (roleId : ℕ) : ApiProgram :=
  query (fun db => crudResult (requireRole db roleId)) fun _ =>
    let user : User := ⟨nid, username, password, roleId, some ∅⟩
    submit (fun db => commitUsers db (db.users.insert user)) (respondUser user)

/-- The `SELECT` of the role flushes the pending username, outside the `try` block. -/
def updateUser (userId : ℕ) (username : Option String) (roleId : Option ℕ) : ApiProgram :=
  query (fun db => crudResult (getUserById db userId)) fun user =>
    let named := { user with username := username.getD user.username }
    let user' := { named with roleId := roleId.getD user.roleId }
    let write := submit (fun db => onUnique .usernameAlreadyExists (flushUser user user' db))
      (respondUser user')
    match roleId with
    | none => write
    | some rid =>
      query (fun db => crudResult (do
        let _ ← flushUser user named db
        requireRole db rid)) fun _ => write

/-- The password is not loaded, so that it is always written. -/
def setUserPassword (userId : ℕ) (password : String) : ApiProgram :=
  query (fun db => crudResult (getUserById db userId)) fun _ =>
    submit (fun db => do
      let users ← updateLoaded "users" db.users userId fun user => { user with password }
      return { db with users })
      (respond [.delete [userCacheKey userId]] (.message "Password updated"))

def deleteUser (actorId userId : ℕ) : ApiProgram :=
  if actorId = userId then .done (.error ⟨403, "Self-delete is not allowed"⟩)
  else
    query (fun db => crudResult (getUserById db userId)) fun _ =>
      submit (fun db => .ok { db with users := db.users.erase userId })
        (respond (dropUser userId) .noContent)

def patchUserPermissions (userId : ℕ) (permissions : PermissionPatch) : ApiProgram :=
  query (fun db => crudResult (do
    let user ← readPatchUser db userId permissions
    return (← getUserById db userId, user))) fun (user, user') =>
    submit (flushUser user user') (respondUser user')

def resetUserPermissions : ApiProgram :=
  query (fun db => .ok (AranesLms.listUsers db)) fun users =>
    query (fun db => .ok db.users.rows.length) fun updatedCount =>
      let finish := respond (dropUsers (users.map User.id)) (.updated updatedCount)
      if updatedCount = 0 then finish else submit (fun db => .ok (writeResetUsers db)) finish

end ApiProgram

end AranesLms
