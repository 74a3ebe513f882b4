import AranesLms.UserRole.Programs
import AranesLms.UserRole.CrudSpec

/-!
# A write that runs alone

While no other request is in progress, an endpoint that writes does what its CRUD function does in
one step, and then sends its commands to Redis, any of which may fail (`run_program`).
-/

namespace AranesLms

/-- A request that changes roles or users, other than signup. -/
inductive RbacWrite where
  | createRole (name titleKey : String)
  | updateRole (roleId : ℕ) (name titleKey : Option String)
  | deleteRole (roleId : ℕ)
  | patchRolePermissions (roleId : ℕ) (permissions : PermissionPatch)
  | resetRolePermissions
  | registryRolesOnceIfNotExist (name : String) (permissions : PermissionPatch)
  | createUser (username password : String) (roleId : ℕ)
  | updateUser (userId : ℕ) (username : Option String) (roleId : Option ℕ)
  | setUserPassword (userId : ℕ) (password : String)
  | deleteUser (actorId userId : ℕ)
  | patchUserPermissions (userId : ℕ) (permissions : PermissionPatch)
  | resetUserPermissions

/-- What a successful write leaves: the response, the commands it sends and the database. -/
structure Written where
  response : Response
  commands : List ApiCommand
  db : Database

namespace RbacWrite

open ApiProgram (refreshRole dropRole dropRoles refreshUser dropUser dropUsers)

def program (nid : ℕ) : RbacWrite → ApiProgram
  | createRole name titleKey => ApiProgram.createRole nid name titleKey
  | updateRole roleId name titleKey => ApiProgram.updateRole roleId name titleKey
  | deleteRole roleId => ApiProgram.deleteRole roleId
  | patchRolePermissions roleId permissions => ApiProgram.patchRolePermissions roleId permissions
  | resetRolePermissions => ApiProgram.resetRolePermissions
  | registryRolesOnceIfNotExist name permissions =>
    ApiProgram.registryRolesOnceIfNotExist name permissions
  | createUser username password roleId => ApiProgram.createUser nid username password roleId
  | updateUser userId username roleId => ApiProgram.updateUser userId username roleId
  | setUserPassword userId password => ApiProgram.setUserPassword userId password
  | deleteUser actorId userId => ApiProgram.deleteUser actorId userId
  | patchUserPermissions userId permissions => ApiProgram.patchUserPermissions userId permissions
  | resetUserPermissions => ApiProgram.resetUserPermissions

/-- The result of the CRUD function, with what the endpoint makes of it. -/
def result (nid : ℕ) (db : Database) : RbacWrite → Except HttpException Written
  | createRole name titleKey => do
    let (role, db') ← crudResult (AranesLms.createRole db nid name titleKey)
    return ⟨.role (serializeRole role), refreshRole role, db'⟩
  | updateRole roleId name titleKey => do
    let (role, db') ← crudResult (AranesLms.updateRole db roleId name titleKey)
    return ⟨.role (serializeRole role), refreshRole role, db'⟩
  | deleteRole roleId => do
    let db' ← crudResult (AranesLms.deleteRole db roleId)
    return ⟨.noContent, dropRole roleId, db'⟩
  | patchRolePermissions roleId permissions => do
    let (role, db') ← crudResult (AranesLms.patchRolePermissions db roleId permissions)
    return ⟨.role (serializeRole role), refreshRole role, db'⟩
  | resetRolePermissions =>
    let (updatedCount, db') := AranesLms.resetRolePermissions db
    let roles := (listRoles db).filter fun role => ¬ isSuperadminRole role
    return ⟨.updated updatedCount, dropRoles (roles.map Role.id), db'⟩
  | registryRolesOnceIfNotExist name permissions => do
    let (role, db') ← crudResult (createOrAppendRolePermissionsNoOverwrite db name permissions)
    return ⟨.registry "updated" role.name role.perms, dropRole role.id, db'⟩
  | createUser username password roleId => do
    let (user, db') ← crudResult (createUserAdmin db nid username password roleId)
    return ⟨.user (serializeUser user), refreshUser user, db'⟩
  | updateUser userId username roleId => do
    let (user, db') ← crudResult (updateUserAdmin db userId username roleId)
    return ⟨.user (serializeUser user), refreshUser user, db'⟩
  | setUserPassword userId password => do
    let (_, db') ← crudResult (setUserPasswordAdmin db userId password)
    return ⟨.message "Password updated", [.delete [userCacheKey userId]], db'⟩
  | deleteUser actorId userId => do
    if actorId = userId then
      throw ⟨403, "Self-delete is not allowed"⟩
    let db' ← crudResult (deleteUserAdmin db userId)
    return ⟨.noContent, dropUser userId, db'⟩
  | patchUserPermissions userId permissions => do
    let (user, db') ← crudResult (AranesLms.patchUserPermissions db userId permissions)
    return ⟨.user (serializeUser user), refreshUser user, db'⟩
  | resetUserPermissions =>
    let (updatedCount, db') := AranesLms.resetUserPermissions db
    return ⟨.updated updatedCount, dropUsers ((listUsers db).map User.id), db'⟩

end RbacWrite

/-! ## Flushes of rows that are there -/

section Flush

variable {db : Database}

theorem flushRole_of_mem {role : Role} (hrole : role ∈ db.roles) (role' : Role)
    (hid : role'.id = role.id) :
    flushRole role role' db =
      match db.roles.modify role.id fun _ => role' with
      | .ok roles => .ok { db with roles }
      | .error v => .error (.integrityError v) := by
  unfold flushRole
  split_ifs with heq
  · rw [heq, Table.modify_eq_self fun r hr hi => (Table.eq_of_pk hr hrole hi).symm]
  · have hcolumns : db.roles.modify role.id (writeRoleColumns role role') =
        db.roles.modify role.id fun _ => role' := by
      refine Table.modify_congr fun r hr hi => ?_
      obtain rfl := Table.eq_of_pk hr hrole hi
      obtain ⟨id, name, titleKey, permissions⟩ := role'
      obtain rfl : id = r.id := hid
      simp +contextual [writeRoleColumns]
    rw [updateLoaded, Table.find?_pk hrole, hcolumns]
    cases db.roles.modify role.id fun _ => role' <;> rfl

theorem flushUser_of_mem {user : User} (huser : user ∈ db.users) (user' : User)
    (hid : user'.id = user.id) :
    flushUser user user' db =
      match db.users.modify user.id fun _ => user' with
      | .ok users => .ok { db with users }
      | .error v => .error (.integrityError v) := by
  unfold flushUser
  split_ifs with heq
  · rw [heq, Table.modify_eq_self fun r hr hi => (Table.eq_of_pk hr huser hi).symm]
  · have hcolumns : db.users.modify user.id (writeUserColumns user user') =
        db.users.modify user.id fun _ => user' := by
      refine Table.modify_congr fun r hr hi => ?_
      obtain rfl := Table.eq_of_pk hr huser hi
      obtain ⟨id, username, password, roleId, permissions⟩ := user'
      obtain rfl : id = r.id := hid
      simp +contextual [writeUserColumns]
    rw [updateLoaded, Table.find?_pk huser, hcolumns]
    cases db.users.modify user.id fun _ => user' <;> rfl

/-- The handlers around the flush and around the commit of a CRUD function agree. -/
theorem onUnique_flushRole {role : Role} (hrole : role ∈ db.roles) (role' : Role)
    (hid : role'.id = role.id) :
    onUnique .roleAlreadyExists (flushRole role role' db) =
      commitRoles db (db.roles.modify role.id fun _ => role') := by
  rw [flushRole_of_mem hrole role' hid]
  cases db.roles.modify role.id fun _ => role' with
  | ok roles => rfl
  | error v => cases v <;> rfl

theorem onUnique_flushUser {user : User} (huser : user ∈ db.users) (user' : User)
    (hid : user'.id = user.id) :
    onUnique .usernameAlreadyExists (flushUser user user' db) =
      commitUsers db (db.users.modify user.id fun _ => user') := by
  rw [flushUser_of_mem huser user' hid]
  cases db.users.modify user.id fun _ => user' with
  | ok users => rfl
  | error v => cases v <;> rfl

/-- A write of the permissions violates no constraint. -/
theorem flushRole_permissions {role : Role} (hrole : role ∈ db.roles) (p : PermissionMap) :
    flushRole role { role with permissions := some p } db = writeRolePermissions db role.id p := by
  obtain ⟨roles, hroles⟩ := Table.exists_modify (t := db.roles) (i := role.id)
    (f := fun role => { role with permissions := some p }) (fun _ _ h => h)
    fun r hr hi x hx hne h => hne ((congrArg Role.id (Table.eq_of_uk hx hr h)).trans hi)
  have hrow : db.roles.modify role.id (fun _ => { role with permissions := some p }) =
      .ok roles := by
    rw [← hroles]
    refine Table.modify_congr fun r hr hi => ?_
    rw [Table.eq_of_pk hr hrole hi]
  rw [flushRole_of_mem hrole { role with permissions := some p } rfl, hrow, writeRolePermissions,
    hroles]
  rfl

theorem flushUser_permissions {user : User} (huser : user ∈ db.users) (p : PermissionMap) :
    flushUser user { user with permissions := some p } db = writeUserPermissions db user.id p := by
  obtain ⟨users, husers⟩ := Table.exists_modify (t := db.users) (i := user.id)
    (f := fun user => { user with permissions := some p }) (fun _ _ h => h)
    fun r hr hi x hx hne h => hne ((congrArg User.id (Table.eq_of_uk hx hr h)).trans hi)
  have hrow : db.users.modify user.id (fun _ => { user with permissions := some p }) =
      .ok users := by
    rw [← husers]
    refine Table.modify_congr fun r hr hi => ?_
    rw [Table.eq_of_pk hr huser hi]
  rw [flushUser_of_mem huser { user with permissions := some p } rfl, hrow, writeUserPermissions,
    husers]
  rfl

theorem modify_changes {user : User} (huser : user ∈ db.users) (changes : UserChanges) :
    db.users.modify user.id changes.apply = db.users.modify user.id fun _ => changes.apply user :=
  Table.modify_congr fun r hr hi => by rw [Table.eq_of_pk hr huser hi]

theorem writeUserChanges_of_mem {user : User} (huser : user ∈ db.users) (changes : UserChanges) :
    writeUserChanges db user.id changes =
      onUnique .usernameAlreadyExists (flushUser user (changes.apply user) db) := by
  rw [writeUserChanges, modify_changes huser, onUnique_flushUser huser (changes.apply user) rfl]

/-- The `SELECT` of the role comes after a flush of the username. -/
theorem flushThenRequireRole_of_mem {user : User} (huser : user ∈ db.users)
    (username : Option String) (roleId : Option ℕ) (rid : ℕ) :
    flushThenRequireRole db user.id (userChanges user username roleId) rid =
      flushUser user { user with username := username.getD user.username } db >>= fun _ =>
        requireRole db rid := by
  have hnamed :
      ({ userChanges user username roleId with roleId := none } : UserChanges).apply user =
      { user with username := username.getD user.username } :=
    UserChanges.apply_userChanges user username none
  rw [flushThenRequireRole, modify_changes huser, hnamed,
    flushUser_of_mem huser { user with username := username.getD user.username } rfl]
  cases db.users.modify user.id fun _ => { user with username := username.getD user.username } <;>
    rfl

end Flush

/-! ## Programs that run alone -/

section Run

variable (s : ApiStore) (fails : ℕ → Bool)

/-- What a result does to the database and, with some of its commands failing, to Redis. -/
def settle : Except HttpException Written → Except HttpException Reply × ApiStore
  | .ok w => (.ok (.rbac w.response), ⟨w.db, Command.performAll s.cache w.commands fails⟩)
  | .error e => (.error e, s)

variable {s fails}

theorem run_query {α : Type} {f : Database → Except HttpException α} {next : α → ApiProgram}
    {r : α → Except HttpException Written}
    (h : ∀ a, f s.db = .ok a → (next a).run fails s = settle s fails (r a)) :
    (ApiProgram.query f next).run fails s = settle s fails (f s.db >>= r) := by
  rw [ApiProgram.query, Program.run]
  cases hf : f s.db with
  | ok a => exact h a hf
  | error e => rfl

theorem run_submit {f : Database → Except CrudError Database} {cs : List ApiCommand}
    {response : Response} :
    (ApiProgram.submit f (ApiProgram.respond cs response)).run fails s =
      settle s fails (crudResult (f s.db) >>= fun db => pure ⟨response, cs, db⟩) := by
  rw [ApiProgram.submit, Program.run]
  cases f s.db with
  | ok db => exact Program.run_commands cs _ fails _
  | error e => rfl

theorem run_respond {cs : List ApiCommand} {response : Response} :
    (ApiProgram.respond cs response).run fails s = settle s fails (.ok ⟨response, cs, s.db⟩) :=
  Program.run_commands cs _ fails _

end Run

namespace RbacWrite

variable (s : ApiStore) (fails : ℕ → Bool) (nid : ℕ)

theorem run_createRole (name titleKey : String) :
    (ApiProgram.createRole nid name titleKey).run fails s =
      settle s fails ((createRole name titleKey).result nid s.db) := by
  refine run_submit.trans (congrArg (settle s fails) ?_)
  rw [result, AranesLms.createRole]
  cases commitRoles s.db (s.db.roles.insert ⟨nid, name, titleKey, some ∅⟩) <;> rfl

theorem run_updateRole (roleId : ℕ) (name titleKey : Option String) :
    (ApiProgram.updateRole roleId name titleKey).run fails s =
      settle s fails ((updateRole roleId name titleKey).result nid s.db) := by
  refine (run_query fun role _ => run_submit).trans (congrArg (settle s fails) ?_)
  rw [result, AranesLms.updateRole, deleteRoleLoad]
  cases hget : getRoleById s.db roleId with
  | error e => rfl
  | ok role =>
    obtain ⟨hrole, rfl⟩ := getRoleById_ok.1 hget
    simp only [Except.ok_bind]
    split_ifs with hs
    · rfl
    · rw [crudResult_pure, Except.ok_bind, ← onUnique_flushRole hrole { role with
        name := name.getD role.name, titleKey := titleKey.getD role.titleKey } rfl]
      cases onUnique .roleAlreadyExists (flushRole role _ s.db) <;> rfl

theorem run_deleteRole (roleId : ℕ) :
    (ApiProgram.deleteRole roleId).run fails s =
      settle s fails ((deleteRole roleId).result nid s.db) := by
  refine (run_query fun _ _ => run_query fun _ _ => run_query fun _ _ => run_submit).trans
    (congrArg (settle s fails) ?_)
  rw [result, AranesLms.deleteRole]
  cases deleteRoleLoad s.db roleId with
  | error e => rfl
  | ok role =>
    rw [Except.ok_bind]
    cases deleteRoleCount s.db roleId with
    | error e => rfl
    | ok _ => cases deleteRoleCommit s.db roleId (s.db.usersOfRole roleId) <;> rfl

theorem run_patchRolePermissions (roleId : ℕ) (permissions : PermissionPatch) :
    (ApiProgram.patchRolePermissions roleId permissions).run fails s =
      settle s fails ((patchRolePermissions roleId permissions).result nid s.db) := by
  refine (run_query fun _ _ => run_submit).trans (congrArg (settle s fails) ?_)
  rw [result, AranesLms.patchRolePermissions]
  cases hread : readPatchRole s.db roleId permissions with
  | error e => rfl
  | ok role =>
    obtain ⟨patch, -, old, hold, rfl, -, rfl⟩ := readPatchRole_ok.1 hread
    generalize patch ∪ old.perms = p at hread
    simp only [Except.ok_bind, getRoleById_ok.2 ⟨hold, rfl⟩, crudResult_pure,
      flushRole_permissions hold p, Role.perms, Option.getD_some]
    cases writeRolePermissions s.db old.id p <;> rfl

theorem run_resetRolePermissions :
    ApiProgram.resetRolePermissions.run fails s =
      settle s fails (resetRolePermissions.result nid s.db) := by
  have hrun : ApiProgram.resetRolePermissions.run fails s =
      Program.run (if countResetRoles s.db = 0 then ApiProgram.respond _ _
        else ApiProgram.submit (fun db => .ok (writeResetRoles db)) _) fails s := rfl
  rw [hrun, result, AranesLms.resetRolePermissions]
  dsimp only
  split_ifs with hzero
  · rw [hzero]
    exact run_respond
  · exact run_submit

theorem run_registryRolesOnceIfNotExist (name : String) (permissions : PermissionPatch) :
    (ApiProgram.registryRolesOnceIfNotExist name permissions).run fails s =
      settle s fails ((registryRolesOnceIfNotExist name permissions).result nid s.db) := by
  refine (run_query fun _ _ => run_submit).trans (congrArg (settle s fails) ?_)
  rw [result, createOrAppendRolePermissionsNoOverwrite]
  cases hread : readAppendRole s.db name permissions with
  | error e => rfl
  | ok role =>
    obtain ⟨patch, -, old, hold, rfl, -, rfl⟩ := readAppendRole_ok.1 hread
    generalize patch ∪ old.perms = p at hread
    simp only [Except.ok_bind, getRoleById_ok.2 ⟨hold, rfl⟩, crudResult_pure,
      flushRole_permissions hold p, Role.perms, Option.getD_some]
    cases writeRolePermissions s.db old.id p <;> rfl

theorem run_createUser (username password : String) (roleId : ℕ) :
    (ApiProgram.createUser nid username password roleId).run fails s =
      settle s fails ((createUser username password roleId).result nid s.db) := by
  refine (run_query fun _ _ => run_submit).trans (congrArg (settle s fails) ?_)
  rw [result, createUserAdmin, insertUser]
  cases requireRole s.db roleId with
  | error e => rfl
  | ok _ =>
    cases commitUsers s.db (s.db.users.insert ⟨nid, username, password, roleId, some ∅⟩) <;> rfl

theorem run_updateUser (userId : ℕ) (username : Option String) (roleId : Option ℕ) :
    (ApiProgram.updateUser userId username roleId).run fails s =
      settle s fails ((updateUser userId username roleId).result nid s.db) := by
  rw [result, updateUserAdmin]
  cases roleId with
  | none =>
    refine (run_query fun _ _ => run_submit).trans (congrArg (settle s fails) ?_)
    cases hget : getUserById s.db userId with
    | error e => rfl
    | ok user =>
      obtain ⟨huser, rfl⟩ := getUserById_ok.1 hget
      simp only [Except.ok_bind, crudResult, writeUserChanges_of_mem huser,
        UserChanges.apply_userChanges]
      cases onUnique .usernameAlreadyExists (flushUser user _ s.db) <;> rfl
  | some rid =>
    refine (run_query fun _ _ => run_query fun _ _ => run_submit).trans
      (congrArg (settle s fails) ?_)
    cases hget : getUserById s.db userId with
    | error e => rfl
    | ok user =>
      obtain ⟨huser, rfl⟩ := getUserById_ok.1 hget
      simp only [Except.ok_bind, crudResult, writeUserChanges_of_mem huser,
        flushThenRequireRole_of_mem huser, UserChanges.apply_userChanges]
      cases flushUser user { user with username := username.getD user.username } s.db with
      | error e => rfl
      | ok db =>
        simp only [Except.ok_bind]
        cases requireRole s.db rid with
        | error e => rfl
        | ok _ => cases onUnique .usernameAlreadyExists (flushUser user _ s.db) <;> rfl

theorem run_setUserPassword (userId : ℕ) (password : String) :
    (ApiProgram.setUserPassword userId password).run fails s =
      settle s fails ((setUserPassword userId password).result nid s.db) := by
  refine (run_query fun _ _ => run_submit).trans (congrArg (settle s fails) ?_)
  cases hget : getUserById s.db userId with
  | error e =>
    rw [result, setUserPasswordAdmin, hget]
    rfl
  | ok user =>
    obtain ⟨huser, rfl⟩ := getUserById_ok.1 hget
    obtain ⟨t, ht, hset⟩ := setUserPasswordAdmin_exists_ok huser password
    rw [result, hset, updateLoaded, Table.find?_pk huser, ht]
    rfl

theorem run_deleteUser (actorId userId : ℕ) :
    (ApiProgram.deleteUser actorId userId).run fails s =
      settle s fails ((deleteUser actorId userId).result nid s.db) := by
  rw [result, ApiProgram.deleteUser]
  split_ifs
  · rfl
  refine (run_query fun _ _ => run_submit).trans (congrArg (settle s fails) ?_)
  rw [deleteUserAdmin]
  cases getUserById s.db userId <;> rfl

theorem run_patchUserPermissions (userId : ℕ) (permissions : PermissionPatch) :
    (ApiProgram.patchUserPermissions userId permissions).run fails s =
      settle s fails ((patchUserPermissions userId permissions).result nid s.db) := by
  refine (run_query fun _ _ => run_submit).trans (congrArg (settle s fails) ?_)
  rw [result, AranesLms.patchUserPermissions]
  cases hread : readPatchUser s.db userId permissions with
  | error e => rfl
  | ok user =>
    obtain ⟨patch, -, old, hold, rfl, rfl⟩ := readPatchUser_ok.1 hread
    generalize patch ∪ old.perms = p at hread
    simp only [Except.ok_bind, getUserById_ok.2 ⟨hold, rfl⟩, crudResult_pure,
      flushUser_permissions hold p, User.perms, Option.getD_some]
    cases writeUserPermissions s.db old.id p <;> rfl

theorem run_resetUserPermissions :
    ApiProgram.resetUserPermissions.run fails s =
      settle s fails (resetUserPermissions.result nid s.db) := by
  have hrun : ApiProgram.resetUserPermissions.run fails s =
      Program.run (if s.db.users.rows.length = 0 then ApiProgram.respond _ _
        else ApiProgram.submit (fun db => .ok (writeResetUsers db)) _) fails s := rfl
  rw [hrun, result, AranesLms.resetUserPermissions]
  dsimp only
  split_ifs with hzero
  · rw [hzero]
    exact run_respond
  · exact run_submit

theorem run_program (w : RbacWrite) :
    (w.program nid).run fails s = settle s fails (w.result nid s.db) := by
  cases w with
  | createRole name titleKey => exact run_createRole s fails nid name titleKey
  | updateRole roleId name titleKey => exact run_updateRole s fails nid roleId name titleKey
  | deleteRole roleId => exact run_deleteRole s fails nid roleId
  | patchRolePermissions roleId permissions =>
    exact run_patchRolePermissions s fails nid roleId permissions
  | resetRolePermissions => exact run_resetRolePermissions s fails nid
  | registryRolesOnceIfNotExist name permissions =>
    exact run_registryRolesOnceIfNotExist s fails nid name permissions
  | createUser username password roleId =>
    exact run_createUser s fails nid username password roleId
  | updateUser userId username roleId => exact run_updateUser s fails nid userId username roleId
  | setUserPassword userId password => exact run_setUserPassword s fails nid userId password
  | deleteUser actorId userId => exact run_deleteUser s fails nid actorId userId
  | patchUserPermissions userId permissions =>
    exact run_patchUserPermissions s fails nid userId permissions
  | resetUserPermissions => exact run_resetUserPermissions s fails nid

end RbacWrite

end AranesLms
