import AranesLms.Auth.Crud
import AranesLms.Lib.Except

/-!
# What a successful operation does

One lemma for each operation of `Crud.lean` and of `Auth/Crud.lean`: the checks it has passed, its
result and the database it leaves.  Later modules cite these and do not unfold the operations.
-/

namespace AranesLms

variable {db db' : Database}

/-! ## Reads and commits -/

@[simp] theorem getRoleById_ok {roleId : ℕ} {role : Role} :
    getRoleById db roleId = .ok role ↔ role ∈ db.roles ∧ role.id = roleId := by
  rw [← Table.find?_eq_some, getRoleById, Database.role?]
  cases db.roles.find? roleId <;> simp

theorem getRoleById_error {roleId : ℕ} {e : CrudError} (h : getRoleById db roleId = .error e) :
    e = .roleNotFound := by
  unfold getRoleById at h
  split at h <;> cases h
  rfl

@[simp] theorem getUserById_ok {userId : ℕ} {user : User} :
    getUserById db userId = .ok user ↔ user ∈ db.users ∧ user.id = userId := by
  rw [← Table.find?_eq_some, getUserById, Database.user?]
  cases db.users.find? userId <;> simp

theorem getUserById_error {userId : ℕ} {e : CrudError} (h : getUserById db userId = .error e) :
    e = .userNotFound := by
  unfold getUserById at h
  split at h <;> cases h
  rfl

@[simp] theorem requireRole_ok {roleId : ℕ} {x : Unit} :
    requireRole db roleId = .ok x ↔ ∃ role ∈ db.roles, role.id = roleId := by
  have : (∃ role ∈ db.roles, role.id = roleId) ↔ ∃ role, db.role? roleId = some role :=
    exists_congr fun _ => Table.find?_eq_some.symm
  rw [this, requireRole]
  cases db.role? roleId <;> simp

@[simp] theorem commitRoles_ok {roles : Except Violation RoleTable} :
    commitRoles db roles = .ok db' ↔ ∃ t, roles = .ok t ∧ db' = { db with roles := t } := by
  cases roles <;> simp [commitRoles, eq_comm]

@[simp] theorem commitUsers_ok {users : Except Violation UserTable} :
    commitUsers db users = .ok db' ↔ ∃ t, users = .ok t ∧ db' = { db with users := t } := by
  cases users <;> simp [commitUsers, eq_comm]

theorem commitRoles_error {roles : Except Violation RoleTable} {e : CrudError}
    (h : commitRoles db roles = .error e) : ∃ v, e = roleIntegrity v := by
  cases roles <;> cases h
  exact ⟨_, rfl⟩

theorem commitUsers_error {users : Except Violation UserTable} {e : CrudError}
    (h : commitUsers db users = .error e) : ∃ v, e = userIntegrity v := by
  cases users <;> cases h
  exact ⟨_, rfl⟩

@[simp] theorem insertUser_ok {user user' : User} :
    insertUser db user = .ok (user', db') ↔
      user' = user ∧ ∃ t, db.users.insert user = .ok t ∧ db' = { db with users := t } := by
  simp only [insertUser, Except.bind_eq_ok, Except.pure_eq_ok, commitUsers_ok, Prod.mk.injEq]
  constructor
  · rintro ⟨_, ⟨t, ht, rfl⟩, rfl, rfl⟩
    exact ⟨rfl, t, ht, rfl⟩
  · rintro ⟨rfl, t, ht, rfl⟩
    exact ⟨_, ⟨t, ht, rfl⟩, rfl, rfl⟩

/-! ## Roles -/

theorem createRole_ok {nid : ℕ} {name titleKey : String} {role : Role} :
    createRole db nid name titleKey = .ok (role, db') ↔
      role = ⟨nid, name, titleKey, some ∅⟩ ∧
        ∃ t, db.roles.insert role = .ok t ∧ db' = { db with roles := t } := by
  simp only [createRole, Except.bind_eq_ok, Except.pure_eq_ok, commitRoles_ok, Prod.mk.injEq]
  constructor
  · rintro ⟨_, ⟨t, ht, rfl⟩, rfl, rfl⟩
    exact ⟨rfl, t, ht, rfl⟩
  · rintro ⟨rfl, t, ht, rfl⟩
    exact ⟨_, ⟨t, ht, rfl⟩, rfl, rfl⟩

theorem updateRole_ok {roleId : ℕ} {name titleKey : Option String} {role : Role} :
    updateRole db roleId name titleKey = .ok (role, db') ↔
      ∃ old ∈ db.roles, old.id = roleId ∧ ¬ isSuperadminRole old ∧
        role = { old with name := name.getD old.name, titleKey := titleKey.getD old.titleKey } ∧
        ∃ t, db.roles.modify roleId (fun _ => role) = .ok t ∧ db' = { db with roles := t } := by
  simp only [updateRole, Except.bind_eq_ok, getRoleById_ok, Except.throw_bind,
    Except.ite_throw_eq_ok, Except.pure_eq_ok, commitRoles_ok, Prod.mk.injEq]
  constructor
  · rintro ⟨old, ⟨hold, hid⟩, hs, _, ⟨t, ht, rfl⟩, rfl, rfl⟩
    exact ⟨old, hold, hid, hs, rfl, t, ht, rfl⟩
  · rintro ⟨old, hold, hid, hs, rfl, t, ht, rfl⟩
    exact ⟨old, ⟨hold, hid⟩, hs, _, ⟨t, ht, rfl⟩, rfl, rfl⟩

theorem deleteRoleLoad_ok {roleId : ℕ} {role : Role} (h : deleteRoleLoad db roleId = .ok role) :
    role ∈ db.roles ∧ role.id = roleId ∧ ¬ isSuperadminRole role := by
  simp only [deleteRoleLoad, Except.bind_eq_ok, getRoleById_ok, Except.throw_bind,
    Except.ite_throw_eq_ok, Except.pure_eq_ok] at h
  obtain ⟨_, ⟨hr, hid⟩, hs, rfl⟩ := h
  exact ⟨hr, hid, hs⟩

theorem deleteRoleCount_ok {roleId : ℕ} {x : Unit} :
    deleteRoleCount db roleId = .ok x ↔ ∀ u ∈ db.users, u.roleId ≠ roleId := by
  rw [← usersOfRole_eq_nil, ← List.length_eq_zero_iff, deleteRoleCount]
  by_cases h0 : (db.usersOfRole roleId).length = 0
  · simp [h0]
  · simp [h0, Nat.pos_iff_ne_zero]

theorem deleteRoleCommit_ok {roleId : ℕ} {loadedUsers : List User} :
    deleteRoleCommit db roleId loadedUsers = .ok db' ↔
      loadedUsers = [] ∧ db' = { db with roles := db.roles.erase roleId } := by
  unfold deleteRoleCommit
  split_ifs with hu <;> simp [hu, eq_comm]

theorem deleteRole_ok {roleId : ℕ} (h : deleteRole db roleId = .ok db') :
    (∃ role ∈ db.roles, role.id = roleId ∧ ¬ isSuperadminRole role) ∧
      (∀ u ∈ db.users, u.roleId ≠ roleId) ∧ db' = { db with roles := db.roles.erase roleId } := by
  simp only [deleteRole, Except.bind_eq_ok, deleteRoleCount_ok, deleteRoleCommit_ok] at h
  obtain ⟨role, hrole, _, hu, -, rfl⟩ := h
  exact ⟨⟨role, deleteRoleLoad_ok hrole⟩, hu, rfl⟩

theorem writeRolePermissions_ok {roleId : ℕ} {permissions : PermissionMap} :
    writeRolePermissions db roleId permissions = .ok db' ↔
      ∃ t, db.roles.modify roleId (fun role => { role with permissions := some permissions }) =
        .ok t ∧ db' = { db with roles := t } :=
  commitRoles_ok

theorem readPatchRole_ok {roleId : ℕ} {permissionPatch : PermissionPatch} {role : Role} :
    readPatchRole db roleId permissionPatch = .ok role ↔
      ∃ patch, validatePermissionPatch permissionPatch = .ok patch ∧
        ∃ old ∈ db.roles, old.id = roleId ∧ ¬ isSuperadminRole old ∧
          role = { old with permissions := some (patch ∪ old.perms) } := by
  simp only [readPatchRole, Except.bind_eq_ok, getRoleById_ok, Except.throw_bind,
    Except.ite_throw_eq_ok, Except.pure_eq_ok]
  constructor
  · rintro ⟨patch, hpatch, old, ⟨hold, hid⟩, hs, rfl⟩
    exact ⟨patch, hpatch, old, hold, hid, hs, rfl⟩
  · rintro ⟨patch, hpatch, old, hold, hid, hs, rfl⟩
    exact ⟨patch, hpatch, old, ⟨hold, hid⟩, hs, rfl⟩

theorem patchRolePermissions_ok {roleId : ℕ} {permissionPatch : PermissionPatch} {role : Role}
    (h : patchRolePermissions db roleId permissionPatch = .ok (role, db')) :
    readPatchRole db roleId permissionPatch = .ok role ∧
      writeRolePermissions db role.id role.perms = .ok db' := by
  simp only [patchRolePermissions, Except.bind_eq_ok, Except.pure_eq_ok, Prod.mk.injEq] at h
  obtain ⟨_, hr, _, hw, rfl, rfl⟩ := h
  exact ⟨hr, hw⟩

/-- A valid patch of a role other than the SuperAdmin role is accepted. -/
theorem patchRolePermissions_exists_ok {permissionPatch : PermissionPatch} {patch : PermissionMap}
    {role : Role} (hpatch : validatePermissionPatch permissionPatch = .ok patch)
    (hrole : role ∈ db.roles) (hs : ¬ isSuperadminRole role) :
    ∃ t, patchRolePermissions db role.id permissionPatch =
      .ok ({ role with permissions := some (patch ∪ role.perms) }, { db with roles := t }) := by
  obtain ⟨t, ht⟩ := Table.exists_modify (t := db.roles) (i := role.id)
    (f := fun r => { r with permissions := some (patch ∪ role.perms) }) (fun _ _ hid => hid)
    fun r hr hid x hx hne h => hne ((congrArg Role.id (Table.eq_of_uk hx hr h)).trans hid)
  have hread := readPatchRole_ok.2 ⟨patch, hpatch, role, hrole, rfl, hs, rfl⟩
  refine ⟨t, ?_⟩
  simp only [patchRolePermissions, Except.bind_eq_ok, Except.pure_eq_ok, Prod.mk.injEq]
  exact ⟨_, hread, _, writeRolePermissions_ok.2 ⟨t, ht, rfl⟩, rfl, rfl⟩

theorem readAppendRole_ok {roleName : String} {permissionPatch : PermissionPatch} {role : Role} :
    readAppendRole db roleName permissionPatch = .ok role ↔
      ∃ patch, validatePermissionPatch permissionPatch = .ok patch ∧
        ∃ old ∈ db.roles, old.name = roleName ∧ (∀ key ∈ permissionPatch.keys, key ∉ old.perms) ∧
          role = { old with permissions := some (patch ∪ old.perms) } := by
  simp only [readAppendRole, Except.bind_eq_ok]
  refine exists_congr fun patch => and_congr_right fun _ => ?_
  have hfind : (∃ old ∈ db.roles, old.name = roleName ∧
      (∀ key ∈ permissionPatch.keys, key ∉ old.perms) ∧
        role = { old with permissions := some (patch ∪ old.perms) }) ↔
      ∃ old, db.roles.findBy? roleName = some old ∧
        (∀ key ∈ permissionPatch.keys, key ∉ old.perms) ∧
          role = { old with permissions := some (patch ∪ old.perms) } := by
    simp only [Table.findBy?_eq_some, and_assoc]
  rw [hfind]
  cases db.roles.findBy? roleName with
  | none => simp
  | some old =>
    simp only [Except.throw_bind, Except.ite_throw_eq_ok, Except.pure_eq_ok, ne_eq, not_not,
      List.filter_eq_nil_iff, decide_eq_true_eq, Option.some.injEq, exists_eq_left']
    exact and_congr_right fun _ => eq_comm

theorem createOrAppendRolePermissionsNoOverwrite_ok {roleName : String}
    {permissionPatch : PermissionPatch} {role : Role}
    (h : createOrAppendRolePermissionsNoOverwrite db roleName permissionPatch = .ok (role, db')) :
    readAppendRole db roleName permissionPatch = .ok role ∧
      writeRolePermissions db role.id role.perms = .ok db' := by
  simp only [createOrAppendRolePermissionsNoOverwrite, Except.bind_eq_ok, Except.pure_eq_ok,
    Prod.mk.injEq] at h
  obtain ⟨_, hr, _, hw, rfl, rfl⟩ := h
  exact ⟨hr, hw⟩

theorem mem_writeResetRoles {role : Role} :
    role ∈ (writeResetRoles db).roles ↔ ∃ old ∈ db.roles, resetRole old = role := by
  rw [writeResetRoles, Table.mem_mapRows]

theorem resetRolePermissions_snd : (resetRolePermissions db).2 = writeResetRoles db := by
  unfold resetRolePermissions
  dsimp only
  split_ifs with h0
  · have hs : ∀ r ∈ db.roles, resetRole r = r := by
      intro r hr
      rw [countResetRoles, List.length_eq_zero_iff, List.filter_eq_nil_iff] at h0
      exact if_pos (by simpa using h0 r hr)
    rw [writeResetRoles, Table.mapRows_eq_self hs]
  · rfl

/-! ## Users -/

theorem createUserAdmin_ok {nid : ℕ} {username password : String} {roleId : ℕ} {user : User} :
    createUserAdmin db nid username password roleId = .ok (user, db') ↔
      (∃ role ∈ db.roles, role.id = roleId) ∧ user = ⟨nid, username, password, roleId, some ∅⟩ ∧
        ∃ t, db.users.insert user = .ok t ∧ db' = { db with users := t } := by
  simp only [createUserAdmin, Except.bind_eq_ok, requireRole_ok, insertUser_ok]
  constructor
  · rintro ⟨_, hrole, rfl, t, ht, rfl⟩
    exact ⟨hrole, rfl, t, ht, rfl⟩
  · rintro ⟨hrole, rfl, t, ht, rfl⟩
    exact ⟨(), hrole, rfl, t, ht, rfl⟩

theorem UserChanges.apply_userChanges (user : User) (username : Option String)
    (roleId : Option ℕ) :
    (userChanges user username roleId).apply user =
      { user with username := username.getD user.username, roleId := roleId.getD user.roleId } := by
  have getD_filter : ∀ {γ : Type} [DecidableEq γ] (o : Option γ) (d : γ),
      (o.filter (· ≠ d)).getD d = o.getD d := by
    intro γ _ o d
    cases o with
    | none => rfl
    | some c => by_cases hc : c = d <;> simp [Option.filter, hc]
  rw [userChanges, UserChanges.apply, getD_filter, getD_filter]

theorem updateUserAdmin_ok {userId : ℕ} {username : Option String} {roleId : Option ℕ} {user : User}
    (h : updateUserAdmin db userId username roleId = .ok (user, db')) :
    ∃ old ∈ db.users, old.id = userId ∧
      (∀ rid, roleId = some rid → ∃ role ∈ db.roles, role.id = rid) ∧
      user = { old with username := username.getD old.username, roleId := roleId.getD old.roleId } ∧
      ∃ t, db.users.modify userId (userChanges old username roleId).apply = .ok t ∧
        db' = { db with users := t } := by
  simp only [updateUserAdmin, Except.bind_eq_ok, getUserById_ok] at h
  obtain ⟨old, ⟨hold, hid⟩, h⟩ := h
  have hrole : ∀ rid, roleId = some rid → ∃ role ∈ db.roles, role.id = rid := by
    rintro rid rfl
    simp only [Except.bind_eq_ok, flushThenRequireRole] at h
    obtain ⟨_, hfl, -⟩ := h
    split at hfl
    · exact requireRole_ok.1 hfl
    · cases hfl
  refine ⟨old, hold, hid, hrole, ?_⟩
  rw [← UserChanges.apply_userChanges]
  cases roleId with
  | none =>
    simp only [Except.bind_eq_ok, Except.pure_eq_ok, writeUserChanges, commitUsers_ok,
      Prod.mk.injEq] at h
    obtain ⟨_, ⟨t, ht, rfl⟩, rfl, rfl⟩ := h
    exact ⟨rfl, t, ht, rfl⟩
  | some rid =>
    simp only [Except.bind_eq_ok, Except.pure_eq_ok, writeUserChanges, commitUsers_ok,
      Prod.mk.injEq] at h
    obtain ⟨_, -, _, ⟨t, ht, rfl⟩, rfl, rfl⟩ := h
    exact ⟨rfl, t, ht, rfl⟩

/-- An update is accepted when the role exists and no other user has the name. -/
theorem updateUserAdmin_exists_ok {user : User} {username : Option String} {roleId : Option ℕ}
    (huser : user ∈ db.users)
    (hname : ∀ name, username = some name → ∀ u ∈ db.users, u.id ≠ user.id → u.username ≠ name)
    (hrole : ∀ rid, roleId = some rid → ∃ role ∈ db.roles, role.id = rid) :
    ∃ t, db.users.modify user.id (userChanges user username roleId).apply = .ok t ∧
      updateUserAdmin db user.id username roleId =
        .ok ((userChanges user username roleId).apply user, { db with users := t }) := by
  have hmodify : ∀ changes : UserChanges,
      changes.username = (userChanges user username roleId).username →
      ∃ t, db.users.modify user.id changes.apply = .ok t := by
    intro changes hc
    refine Table.exists_modify (fun _ _ h => h) fun r hr hid x hx hne => ?_
    have hfree : x.username ≠ username.getD user.username := by
      cases username with
      | none => exact fun h => hne (congrArg User.id (Table.eq_of_uk hx huser h))
      | some name => exact hname name rfl x hx hne
    have happly : (changes.apply user).username = username.getD user.username := by
      rw [UserChanges.apply, hc]
      exact congrArg User.username (UserChanges.apply_userChanges user username roleId)
    rw [Table.eq_of_pk hr huser hid, happly]
    exact hfree
  obtain ⟨t, ht⟩ := hmodify (userChanges user username roleId) rfl
  refine ⟨t, ht, ?_⟩
  simp only [updateUserAdmin, Except.bind_eq_ok, getUserById_ok]
  refine ⟨user, ⟨huser, rfl⟩, ?_⟩
  cases roleId with
  | none =>
    simp only [Except.bind_eq_ok, Except.pure_eq_ok, writeUserChanges, commitUsers_ok,
      Prod.mk.injEq]
    exact ⟨_, ⟨t, ht, rfl⟩, trivial, rfl⟩
  | some rid =>
    obtain ⟨t', ht'⟩ := hmodify
      { userChanges user username (some rid) with roleId := none } rfl
    simp only [Except.bind_eq_ok, Except.pure_eq_ok, writeUserChanges, commitUsers_ok,
      Prod.mk.injEq, flushThenRequireRole, ht']
    exact ⟨(), requireRole_ok.2 (hrole rid rfl), _, ⟨t, ht, rfl⟩, trivial, rfl⟩

theorem setUserPasswordAdmin_ok {userId : ℕ} {password : String} {user : User}
    (h : setUserPasswordAdmin db userId password = .ok (user, db')) :
    ∃ old ∈ db.users, old.id = userId ∧ user = { old with password } ∧
      ∃ t, db.users.modify userId (fun u => { u with password }) = .ok t ∧
        db' = { db with users := t } := by
  simp only [setUserPasswordAdmin, Except.bind_eq_ok, getUserById_ok, commitUsers_ok,
    Except.pure_eq_ok, Prod.mk.injEq] at h
  obtain ⟨old, ⟨hold, hid⟩, _, ⟨t, ht, rfl⟩, rfl, rfl⟩ := h
  exact ⟨old, hold, hid, rfl, t, ht, rfl⟩

/-- Setting a password is always accepted. -/
theorem setUserPasswordAdmin_exists_ok {user : User} (huser : user ∈ db.users) (password : String) :
    ∃ t, db.users.modify user.id (fun u => { u with password }) = .ok t ∧
      setUserPasswordAdmin db user.id password =
        .ok ({ user with password }, { db with users := t }) := by
  obtain ⟨t, ht⟩ := Table.exists_modify (t := db.users) (i := user.id)
    (f := fun u => { u with password }) (fun _ _ h => h)
    fun r hr hid x hx hne h => hne ((congrArg User.id (Table.eq_of_uk hx hr h)).trans hid)
  refine ⟨t, ht, ?_⟩
  simp only [setUserPasswordAdmin, Except.bind_eq_ok, getUserById_ok, commitUsers_ok,
    Except.pure_eq_ok, Prod.mk.injEq]
  exact ⟨user, ⟨huser, rfl⟩, _, ⟨t, ht, rfl⟩, rfl, rfl⟩

theorem deleteUserAdmin_ok {userId : ℕ} (h : deleteUserAdmin db userId = .ok db') :
    (∃ user ∈ db.users, user.id = userId) ∧ db' = { db with users := db.users.erase userId } := by
  simp only [deleteUserAdmin, Except.bind_eq_ok, getUserById_ok, Except.pure_eq_ok] at h
  obtain ⟨user, huser, rfl⟩ := h
  exact ⟨⟨user, huser⟩, rfl⟩

theorem deleteUserAdmin_exists_ok {user : User} (huser : user ∈ db.users) :
    deleteUserAdmin db user.id = .ok { db with users := db.users.erase user.id } := by
  rw [deleteUserAdmin, getUserById_ok.2 ⟨huser, rfl⟩]
  rfl

theorem writeUserPermissions_ok {userId : ℕ} {permissions : PermissionMap} :
    writeUserPermissions db userId permissions = .ok db' ↔
      ∃ t, db.users.modify userId (fun user => { user with permissions := some permissions }) =
        .ok t ∧ db' = { db with users := t } :=
  commitUsers_ok

theorem readPatchUser_ok {userId : ℕ} {permissionPatch : PermissionPatch} {user : User} :
    readPatchUser db userId permissionPatch = .ok user ↔
      ∃ patch, validatePermissionPatch permissionPatch = .ok patch ∧
        ∃ old ∈ db.users, old.id = userId ∧
          user = { old with permissions := some (patch ∪ old.perms) } := by
  simp only [readPatchUser, Except.bind_eq_ok, getUserById_ok, Except.pure_eq_ok]
  constructor
  · rintro ⟨patch, hpatch, old, ⟨hold, hid⟩, rfl⟩
    exact ⟨patch, hpatch, old, hold, hid, rfl⟩
  · rintro ⟨patch, hpatch, old, hold, hid, rfl⟩
    exact ⟨patch, hpatch, old, ⟨hold, hid⟩, rfl⟩

theorem patchUserPermissions_ok {userId : ℕ} {permissionPatch : PermissionPatch} {user : User}
    (h : patchUserPermissions db userId permissionPatch = .ok (user, db')) :
    readPatchUser db userId permissionPatch = .ok user ∧
      writeUserPermissions db user.id user.perms = .ok db' := by
  simp only [patchUserPermissions, Except.bind_eq_ok, Except.pure_eq_ok, Prod.mk.injEq] at h
  obtain ⟨_, hr, _, hw, rfl, rfl⟩ := h
  exact ⟨hr, hw⟩

/-- A valid patch of a user is accepted. -/
theorem patchUserPermissions_exists_ok {permissionPatch : PermissionPatch} {patch : PermissionMap}
    {user : User} (hpatch : validatePermissionPatch permissionPatch = .ok patch)
    (huser : user ∈ db.users) :
    ∃ t, patchUserPermissions db user.id permissionPatch =
      .ok ({ user with permissions := some (patch ∪ user.perms) }, { db with users := t }) := by
  obtain ⟨t, ht⟩ := Table.exists_modify (t := db.users) (i := user.id)
    (f := fun u => { u with permissions := some (patch ∪ user.perms) }) (fun _ _ hid => hid)
    fun u hu hid x hx hne h => hne ((congrArg User.id (Table.eq_of_uk hx hu h)).trans hid)
  have hread := readPatchUser_ok.2 ⟨patch, hpatch, user, huser, rfl, rfl⟩
  refine ⟨t, ?_⟩
  simp only [patchUserPermissions, Except.bind_eq_ok, Except.pure_eq_ok, Prod.mk.injEq]
  exact ⟨_, hread, _, writeUserPermissions_ok.2 ⟨t, ht, rfl⟩, rfl, rfl⟩

theorem mem_writeResetUsers {user : User} : user ∈ (writeResetUsers db).users ↔
    ∃ old ∈ db.users, ({ old with permissions := some ∅ } : User) = user := by
  rw [writeResetUsers, Table.mem_mapRows]

theorem resetUserPermissions_snd : (resetUserPermissions db).2 = writeResetUsers db := by
  unfold resetUserPermissions
  dsimp only
  split_ifs with h0
  · have hs : ∀ u ∈ db.users, ({ u with permissions := some ∅ } : User) = u := by
      intro u hu
      rw [Table.mem_def, List.length_eq_zero_iff.1 h0] at hu
      cases hu
    rw [writeResetUsers, Table.mapRows_eq_self hs]
  · rfl

/-! ## Signup -/

theorem getExactDefaultSignupRole_some {roleId : ℕ} {roleName : String} {role : Role}
    (h : getExactDefaultSignupRole db roleId roleName = .ok (some role)) :
    role ∈ db.roles ∧ role.id = roleId ∧ role.name = roleName := by
  unfold getExactDefaultSignupRole at h
  dsimp only at h
  split_ifs at h with h0
  · cases h
  · split at h
    · rename_i role' hf
      cases h
      have hmem := List.mem_of_find?_eq_some hf
      exact ⟨(List.mem_filter.1 hmem).1, by simpa using List.find?_some hf⟩
    · split at h <;> cases h

theorem getExactDefaultSignupRole_of_mem {role : Role} (hrole : role ∈ db.roles) :
    getExactDefaultSignupRole db role.id role.name = .ok (some role) := by
  have hmem : role ∈ db.roles.rows.filter fun r => r.id = role.id ∨ r.name = role.name :=
    List.mem_filter.2 ⟨hrole, by simp⟩
  unfold getExactDefaultSignupRole
  dsimp only
  rw [if_neg (List.ne_nil_of_mem hmem)]
  cases hf : (db.roles.rows.filter fun r => r.id = role.id ∨ r.name = role.name).find? fun r =>
      r.id = role.id ∧ r.name = role.name with
  | none =>
    rw [List.find?_eq_none] at hf
    exact absurd (hf role hmem) (by simp)
  | some role' =>
    have hid : role'.id = role.id := by
      have := List.find?_some hf
      simp only [decide_eq_true_eq] at this
      exact this.1
    have hrole' : role' ∈ db.roles := (List.mem_filter.1 (List.mem_of_find?_eq_some hf)).1
    rw [Table.eq_of_pk hrole' hrole hid]

theorem getExactDefaultSignupRole_none {roleId : ℕ} {roleName : String} :
    getExactDefaultSignupRole db roleId roleName = .ok none ↔
      ∀ role ∈ db.roles, role.id ≠ roleId ∧ role.name ≠ roleName := by
  have hnil : (db.roles.rows.filter fun role => role.id = roleId ∨ role.name = roleName) = [] ↔
      ∀ role ∈ db.roles, role.id ≠ roleId ∧ role.name ≠ roleName := by
    simp [List.filter_eq_nil_iff, Table.mem_def]
  rw [← hnil]
  unfold getExactDefaultSignupRole
  dsimp only
  split_ifs with h0
  · exact iff_of_true rfl h0
  · refine iff_of_false ?_ h0
    split
    · nofun
    · split <;> nofun

theorem getOrCreateDefaultSignupRoleWithConfig_of_mem {role : Role} (hrole : role ∈ db.roles)
    (hid : role.id = defaultSignupRoleId) (hname : role.name = defaultSignupRoleName) :
    getOrCreateDefaultSignupRoleWithConfig db = .ok (role, db) := by
  have hfound := getExactDefaultSignupRole_of_mem hrole
  rw [hid, hname] at hfound
  rw [getOrCreateDefaultSignupRoleWithConfig, hfound]
  rfl

theorem insertSignupRole_ok : insertSignupRole db = .ok db' ↔
    ∃ t, db.roles.insert newSignupRole = .ok t ∧ db' = { db with roles := t } := by
  unfold insertSignupRole
  cases db.roles.insert newSignupRole <;> simp [eq_comm]

/-- Signup finds its role or creates it. -/
theorem getOrCreateDefaultSignupRoleWithConfig_ok {role : Role}
    (h : getOrCreateDefaultSignupRoleWithConfig db = .ok (role, db')) :
    (role ∈ db.roles ∧ role.id = defaultSignupRoleId ∧ role.name = defaultSignupRoleName ∧
        db' = db) ∨
      (role = newSignupRole ∧
        ∃ t, db.roles.insert newSignupRole = .ok t ∧ db' = { db with roles := t }) := by
  simp only [getOrCreateDefaultSignupRoleWithConfig, Except.bind_eq_ok] at h
  obtain ⟨found, hfound, h⟩ := h
  cases found with
  | some role' =>
    cases h
    obtain ⟨hr, hid, hn⟩ := getExactDefaultSignupRole_some hfound
    exact Or.inl ⟨hr, hid, hn, rfl⟩
  | none =>
    simp only [Except.bind_eq_ok, Except.pure_eq_ok, Prod.mk.injEq, insertSignupRole_ok] at h
    obtain ⟨_, ⟨t, ht, rfl⟩, rfl, rfl⟩ := h
    exact Or.inr ⟨rfl, t, ht, rfl⟩

theorem signup_ok {nid : ℕ} {username passwordHash : String} {user : User} :
    signup db nid username passwordHash = .ok (user, db') ↔
      ∃ role db₁, getOrCreateDefaultSignupRoleWithConfig db = .ok (role, db₁) ∧
        user = ⟨nid, username, passwordHash, role.id, some ∅⟩ ∧
        ∃ t, db₁.users.insert user = .ok t ∧ db' = { db₁ with users := t } := by
  simp only [signup, Except.bind_eq_ok, createUser, insertUser_ok]
  constructor
  · rintro ⟨⟨role, db₁⟩, hrole, rfl, t, ht, rfl⟩
    exact ⟨role, db₁, hrole, rfl, t, ht, rfl⟩
  · rintro ⟨role, db₁, hrole, rfl, t, ht, rfl⟩
    exact ⟨(role, db₁), hrole, rfl, t, ht, rfl⟩

end AranesLms
