import AranesLms.Lib.Transition
import AranesLms.UserRole.BootstrapSpec
import AranesLms.UserRole.CrudSpec

/-!
# Operations as steps of the database

`Operation` lists everything that changes roles or users: the functions of `Crud.lean`, signup and
a startup seeding.  An operation runs to its end before the next one starts; one that fails leaves
the database as it was.  `nid` is the identifier that the database gives to a row the operation
inserts.
-/

namespace AranesLms

inductive Operation where
  | createRole (name titleKey : String)
  | updateRole (roleId : ℕ) (name titleKey : Option String)
  | deleteRole (roleId : ℕ)
  | patchRolePermissions (roleId : ℕ) (permissionPatch : PermissionPatch)
  | resetRolePermissions
  | appendRolePermissions (roleName : String) (permissionPatch : PermissionPatch)
  | createUserAdmin (username password : String) (roleId : ℕ)
  | updateUserAdmin (userId : ℕ) (username : Option String) (roleId : Option ℕ)
  | setUserPasswordAdmin (userId : ℕ) (password : String)
  | deleteUserAdmin (userId : ℕ)
  | patchUserPermissions (userId : ℕ) (permissionPatch : PermissionPatch)
  | resetUserPermissions
  | signup (username passwordHash : String)
  | runBootstrapSeeding (small : SmallTranslates) (large : LargeTranslates)

namespace Operation

def run (nid : ℕ) (db : Database) : Operation → Except CrudError Database
  | createRole name titleKey => Prod.snd <$> AranesLms.createRole db nid name titleKey
  | updateRole roleId name titleKey => Prod.snd <$> AranesLms.updateRole db roleId name titleKey
  | deleteRole roleId => AranesLms.deleteRole db roleId
  | patchRolePermissions roleId patch => Prod.snd <$> AranesLms.patchRolePermissions db roleId patch
  | resetRolePermissions => pure (AranesLms.resetRolePermissions db).2
  | appendRolePermissions roleName patch =>
    Prod.snd <$> createOrAppendRolePermissionsNoOverwrite db roleName patch
  | createUserAdmin username password roleId =>
    Prod.snd <$> AranesLms.createUserAdmin db nid username password roleId
  | updateUserAdmin userId username roleId =>
    Prod.snd <$> AranesLms.updateUserAdmin db userId username roleId
  | setUserPasswordAdmin userId password =>
    Prod.snd <$> AranesLms.setUserPasswordAdmin db userId password
  | deleteUserAdmin userId => AranesLms.deleteUserAdmin db userId
  | patchUserPermissions userId patch => Prod.snd <$> AranesLms.patchUserPermissions db userId patch
  | resetUserPermissions => pure (AranesLms.resetUserPermissions db).2
  | signup username passwordHash => Prod.snd <$> AranesLms.signup db nid username passwordHash
  | runBootstrapSeeding small large => AranesLms.runBootstrapSeeding small large db

/-- The database after the operation, whether it succeeds or fails. -/
def step (nid : ℕ) (db : Database) (op : Operation) : Database :=
  match op.run nid db with
  | .ok db' => db'
  | .error _ => db

/-- What holds before the operation and of every successful result holds after the operation. -/
theorem step_induct {P : Database → Prop} {nid : ℕ} {db : Database} {op : Operation} (hdb : P db)
    (h : ∀ db', op.run nid db = .ok db' → P db') : P (op.step nid db) := by
  unfold step
  cases hrun : op.run nid db with
  | ok db' => exact h db' hrun
  | error e => exact hdb

/-- The operation inserts a user. -/
def CreatesUser : Operation → Prop
  | createUserAdmin .. | signup .. => True
  | _ => False

/-- `max + 1` in the table that the operation inserts into. -/
def nextId (db : Database) : Operation → ℕ
  | createRole .. => db.roles.nextId
  | _ => db.users.nextId

end Operation

/-! ## What a step can do -/

variable {nid : ℕ} {db db' : Database} {op : Operation}

/-- What a successful operation does to the table of roles. -/
inductive RolesEffect (nid : ℕ) (db : Database) : Operation → RoleTable → Prop
  | same (op : Operation) : RolesEffect nid db op db.roles
  | create {name titleKey : String} {roles : RoleTable}
      (h : db.roles.insert ⟨nid, name, titleKey, some ∅⟩ = .ok roles) :
      RolesEffect nid db (.createRole name titleKey) roles
  | update {name titleKey : Option String} {old : Role} {roles : RoleTable} (hold : old ∈ db.roles)
      (hs : ¬ isSuperadminRole old)
      (h : db.roles.modify old.id (fun _ => { old with
        name := name.getD old.name, titleKey := titleKey.getD old.titleKey }) = .ok roles) :
      RolesEffect nid db (.updateRole old.id name titleKey) roles
  | delete {role : Role} (hrole : role ∈ db.roles) (hs : ¬ isSuperadminRole role)
      (hu : ∀ u ∈ db.users, u.roleId ≠ role.id) :
      RolesEffect nid db (.deleteRole role.id) (db.roles.erase role.id)
  | patch {permissionPatch : PermissionPatch} {patch : PermissionMap} {old : Role}
      {roles : RoleTable} (hpatch : validatePermissionPatch permissionPatch = .ok patch)
      (hold : old ∈ db.roles) (hs : ¬ isSuperadminRole old)
      (h : db.roles.modify old.id (fun role => { role with
        permissions := some (patch ∪ old.perms) }) = .ok roles) :
      RolesEffect nid db (.patchRolePermissions old.id permissionPatch) roles
  | reset : RolesEffect nid db .resetRolePermissions (writeResetRoles db).roles
  | append {permissionPatch : PermissionPatch} {patch : PermissionMap} {old : Role}
      {roles : RoleTable} (hpatch : validatePermissionPatch permissionPatch = .ok patch)
      (hold : old ∈ db.roles) (hnew : ∀ key ∈ permissionPatch.keys, key ∉ old.perms)
      (h : db.roles.modify old.id (fun role => { role with
        permissions := some (patch ∪ old.perms) }) = .ok roles) :
      RolesEffect nid db (.appendRolePermissions old.name permissionPatch) roles
  | signup {username passwordHash : String} {roles : RoleTable}
      (h : db.roles.insert newSignupRole = .ok roles) :
      RolesEffect nid db (.signup username passwordHash) roles
  | seed {small : SmallTranslates} {large : LargeTranslates} {db' : Database}
      (h : SeededFrom db db') : RolesEffect nid db (.runBootstrapSeeding small large) db'.roles

theorem Operation.rolesEffect (h : op.run nid db = .ok db') : RolesEffect nid db op db'.roles := by
  cases op with
  | createRole name titleKey =>
    obtain ⟨⟨role, _⟩, hrun, rfl⟩ := Except.map_eq_ok.1 h
    obtain ⟨rfl, t, ht, rfl⟩ := createRole_ok.1 hrun
    exact .create ht
  | updateRole roleId name titleKey =>
    obtain ⟨⟨role, _⟩, hrun, rfl⟩ := Except.map_eq_ok.1 h
    obtain ⟨old, hold, rfl, hs, rfl, t, ht, rfl⟩ := updateRole_ok.1 hrun
    exact .update hold hs ht
  | deleteRole roleId =>
    obtain ⟨⟨role, hrole, rfl, hs⟩, hu, rfl⟩ := deleteRole_ok h
    exact .delete hrole hs hu
  | patchRolePermissions roleId permissionPatch =>
    obtain ⟨⟨role, _⟩, hrun, rfl⟩ := Except.map_eq_ok.1 h
    obtain ⟨hread, hwrite⟩ := patchRolePermissions_ok hrun
    obtain ⟨patch, hpatch, old, hold, rfl, hs, rfl⟩ := readPatchRole_ok.1 hread
    obtain ⟨t, ht, rfl⟩ := writeRolePermissions_ok.1 hwrite
    exact .patch hpatch hold hs ht
  | resetRolePermissions =>
    cases h
    rw [resetRolePermissions_snd]
    exact .reset
  | appendRolePermissions roleName permissionPatch =>
    obtain ⟨⟨role, _⟩, hrun, rfl⟩ := Except.map_eq_ok.1 h
    obtain ⟨hread, hwrite⟩ := createOrAppendRolePermissionsNoOverwrite_ok hrun
    obtain ⟨patch, hpatch, old, hold, rfl, hnew, rfl⟩ := readAppendRole_ok.1 hread
    obtain ⟨t, ht, rfl⟩ := writeRolePermissions_ok.1 hwrite
    exact .append hpatch hold hnew ht
  | createUserAdmin username password roleId =>
    obtain ⟨⟨user, _⟩, hrun, rfl⟩ := Except.map_eq_ok.1 h
    obtain ⟨-, -, t, -, rfl⟩ := createUserAdmin_ok.1 hrun
    exact .same _
  | updateUserAdmin userId username roleId =>
    obtain ⟨⟨user, _⟩, hrun, rfl⟩ := Except.map_eq_ok.1 h
    obtain ⟨old, -, -, -, -, t, -, rfl⟩ := updateUserAdmin_ok hrun
    exact .same _
  | setUserPasswordAdmin userId password =>
    obtain ⟨⟨user, _⟩, hrun, rfl⟩ := Except.map_eq_ok.1 h
    obtain ⟨old, -, -, -, t, -, rfl⟩ := setUserPasswordAdmin_ok hrun
    exact .same _
  | deleteUserAdmin userId =>
    obtain ⟨-, rfl⟩ := deleteUserAdmin_ok h
    exact .same _
  | patchUserPermissions userId permissionPatch =>
    obtain ⟨⟨user, _⟩, hrun, rfl⟩ := Except.map_eq_ok.1 h
    obtain ⟨-, hwrite⟩ := patchUserPermissions_ok hrun
    obtain ⟨t, -, rfl⟩ := writeUserPermissions_ok.1 hwrite
    exact .same _
  | resetUserPermissions =>
    cases h
    rw [resetUserPermissions_snd]
    exact .same _
  | signup username passwordHash =>
    obtain ⟨⟨user, _⟩, hrun, rfl⟩ := Except.map_eq_ok.1 h
    obtain ⟨role, db₁, hrole, -, t, -, rfl⟩ := signup_ok.1 hrun
    rcases getOrCreateDefaultSignupRoleWithConfig_ok hrole with ⟨-, -, -, rfl⟩ | ⟨-, t', ht', rfl⟩
    · exact .same _
    · exact .signup ht'
  | runBootstrapSeeding small large => exact .seed (runBootstrapSeeding_ok h)

/-- What a successful operation does to the table of users. -/
inductive UsersEffect (nid : ℕ) (db : Database) : Operation → Database → Prop
  | same {op : Operation} {db' : Database} (hop : ¬ op.CreatesUser) (h : db'.users = db.users) :
      UsersEffect nid db op db'
  | create {username password : String} {role : Role} {users : UserTable}
      (hrole : role ∈ db.roles)
      (h : db.users.insert ⟨nid, username, password, role.id, some ∅⟩ = .ok users) :
      UsersEffect nid db (.createUserAdmin username password role.id) { db with users }
  | update {old : User} {username : Option String} {roleId : Option ℕ} {users : UserTable}
      (hold : old ∈ db.users)
      (hrole : ∀ rid, roleId = some rid → ∃ role ∈ db.roles, role.id = rid)
      (h : db.users.modify old.id (userChanges old username roleId).apply = .ok users) :
      UsersEffect nid db (.updateUserAdmin old.id username roleId) { db with users }
  | password {old : User} {password : String} {users : UserTable} (hold : old ∈ db.users)
      (h : db.users.modify old.id (fun u => { u with password }) = .ok users) :
      UsersEffect nid db (.setUserPasswordAdmin old.id password) { db with users }
  | delete {user : User} (huser : user ∈ db.users) :
      UsersEffect nid db (.deleteUserAdmin user.id) { db with users := db.users.erase user.id }
  | patch {permissionPatch : PermissionPatch} {patch : PermissionMap} {old : User}
      {users : UserTable} (hpatch : validatePermissionPatch permissionPatch = .ok patch)
      (hold : old ∈ db.users)
      (h : db.users.modify old.id (fun user => { user with
        permissions := some (patch ∪ old.perms) }) = .ok users) :
      UsersEffect nid db (.patchUserPermissions old.id permissionPatch) { db with users }
  | reset : UsersEffect nid db .resetUserPermissions (writeResetUsers db)
  | signup {username passwordHash : String} {role : Role} {db₁ : Database} {users : UserTable}
      (hrole : getOrCreateDefaultSignupRoleWithConfig db = .ok (role, db₁))
      (h : db.users.insert ⟨nid, username, passwordHash, role.id, some ∅⟩ = .ok users) :
      UsersEffect nid db (.signup username passwordHash) { db₁ with users }

theorem Operation.usersEffect (h : op.run nid db = .ok db') : UsersEffect nid db op db' := by
  cases op with
  | createRole name titleKey =>
    obtain ⟨⟨role, _⟩, hrun, rfl⟩ := Except.map_eq_ok.1 h
    obtain ⟨-, t, -, rfl⟩ := createRole_ok.1 hrun
    exact .same nofun rfl
  | updateRole roleId name titleKey =>
    obtain ⟨⟨role, _⟩, hrun, rfl⟩ := Except.map_eq_ok.1 h
    obtain ⟨old, -, -, -, -, t, -, rfl⟩ := updateRole_ok.1 hrun
    exact .same nofun rfl
  | deleteRole roleId =>
    obtain ⟨-, -, rfl⟩ := deleteRole_ok h
    exact .same nofun rfl
  | patchRolePermissions roleId permissionPatch =>
    obtain ⟨⟨role, _⟩, hrun, rfl⟩ := Except.map_eq_ok.1 h
    obtain ⟨-, hwrite⟩ := patchRolePermissions_ok hrun
    obtain ⟨t, -, rfl⟩ := writeRolePermissions_ok.1 hwrite
    exact .same nofun rfl
  | resetRolePermissions =>
    cases h
    rw [resetRolePermissions_snd]
    exact .same nofun rfl
  | appendRolePermissions roleName permissionPatch =>
    obtain ⟨⟨role, _⟩, hrun, rfl⟩ := Except.map_eq_ok.1 h
    obtain ⟨-, hwrite⟩ := createOrAppendRolePermissionsNoOverwrite_ok hrun
    obtain ⟨t, -, rfl⟩ := writeRolePermissions_ok.1 hwrite
    exact .same nofun rfl
  | createUserAdmin username password roleId =>
    obtain ⟨⟨user, _⟩, hrun, rfl⟩ := Except.map_eq_ok.1 h
    obtain ⟨⟨role, hrole, rfl⟩, rfl, t, ht, rfl⟩ := createUserAdmin_ok.1 hrun
    exact .create hrole ht
  | updateUserAdmin userId username roleId =>
    obtain ⟨⟨user, _⟩, hrun, rfl⟩ := Except.map_eq_ok.1 h
    obtain ⟨old, hold, rfl, hrole, -, t, ht, rfl⟩ := updateUserAdmin_ok hrun
    exact .update hold hrole ht
  | setUserPasswordAdmin userId password =>
    obtain ⟨⟨user, _⟩, hrun, rfl⟩ := Except.map_eq_ok.1 h
    obtain ⟨old, hold, rfl, -, t, ht, rfl⟩ := setUserPasswordAdmin_ok hrun
    exact .password hold ht
  | deleteUserAdmin userId =>
    obtain ⟨⟨user, huser, rfl⟩, rfl⟩ := deleteUserAdmin_ok h
    exact .delete huser
  | patchUserPermissions userId permissionPatch =>
    obtain ⟨⟨user, _⟩, hrun, rfl⟩ := Except.map_eq_ok.1 h
    obtain ⟨hread, hwrite⟩ := patchUserPermissions_ok hrun
    obtain ⟨patch, hpatch, old, hold, rfl, rfl⟩ := readPatchUser_ok.1 hread
    obtain ⟨t, ht, rfl⟩ := writeUserPermissions_ok.1 hwrite
    exact .patch hpatch hold ht
  | resetUserPermissions =>
    cases h
    rw [resetUserPermissions_snd]
    exact .reset
  | signup username passwordHash =>
    obtain ⟨⟨user, _⟩, hrun, rfl⟩ := Except.map_eq_ok.1 h
    obtain ⟨role, db₁, hrole, rfl, t, ht, rfl⟩ := signup_ok.1 hrun
    have husers : db₁.users = db.users := by
      rcases getOrCreateDefaultSignupRoleWithConfig_ok hrole with
        ⟨-, -, -, rfl⟩ | ⟨-, _, -, rfl⟩ <;> rfl
    rw [husers] at ht
    exact .signup hrole ht
  | runBootstrapSeeding small large => exact .same nofun (runBootstrapSeeding_ok h).users_eq

namespace UsersEffect

/-- An operation keeps user ids; only the one of a created user is new. -/
theorem mem_cases (h : UsersEffect nid db op db') : ∀ user ∈ db'.users,
    (∃ old ∈ db.users, old.id = user.id) ∨ op.CreatesUser ∧ user.id = nid := by
  have modify_cases : ∀ {users : UserTable} {i : ℕ} {f : User → User},
      db.users.modify i f = .ok users → (∀ u, (f u).id = u.id) →
      ∀ user ∈ users, ∃ old ∈ db.users, old.id = user.id := by
    intro users i f ht hf user huser
    rcases (Table.mem_modify ht).1 huser with ⟨hold, -⟩ | ⟨old, hold, -, rfl⟩
    · exact ⟨user, hold, rfl⟩
    · exact ⟨old, hold, (hf old).symm⟩
  intro user huser
  cases h with
  | same _ heq =>
    rw [heq] at huser
    exact Or.inl ⟨user, huser, rfl⟩
  | create _ ht =>
    rcases (Table.mem_insert ht).1 huser with hold | rfl
    · exact Or.inl ⟨user, hold, rfl⟩
    · exact Or.inr ⟨trivial, rfl⟩
  | update _ _ ht => exact Or.inl (modify_cases ht (fun _ => rfl) user huser)
  | password _ ht => exact Or.inl (modify_cases ht (fun _ => rfl) user huser)
  | delete _ => exact Or.inl ⟨user, (Table.mem_erase.1 huser).1, rfl⟩
  | patch _ _ ht => exact Or.inl (modify_cases ht (fun _ => rfl) user huser)
  | reset =>
    obtain ⟨old, hold, rfl⟩ := mem_writeResetUsers.1 huser
    exact Or.inl ⟨old, hold, rfl⟩
  | signup _ ht =>
    rcases (Table.mem_insert ht).1 huser with hold | rfl
    · exact Or.inl ⟨user, hold, rfl⟩
    · exact Or.inr ⟨trivial, rfl⟩

/-- A created user has an id that was not in use. -/
theorem fresh (h : UsersEffect nid db op db') (hop : op.CreatesUser) : ∀ user ∈ db.users,
    user.id ≠ nid := by
  intro user huser
  cases h with
  | same hno => exact absurd hop hno
  | create _ ht => exact (Table.insert_fresh ht huser).1
  | signup _ ht => exact (Table.insert_fresh ht huser).1
  | _ => cases hop

/-- A created user is in the table, and so is its role. -/
theorem exists_created (h : UsersEffect nid db op db') (hop : op.CreatesUser) :
    ∃ user ∈ db'.users, user.id = nid ∧ ∃ role ∈ db'.roles, role.id = user.roleId := by
  cases h with
  | same hno => exact absurd hop hno
  | @create _ _ role _ hrole ht =>
    exact ⟨_, (Table.mem_insert ht).2 (Or.inr rfl), rfl, role, hrole, rfl⟩
  | @signup _ _ role db₁ _ hget ht =>
    refine ⟨_, (Table.mem_insert ht).2 (Or.inr rfl), rfl, role, ?_, rfl⟩
    rcases getOrCreateDefaultSignupRoleWithConfig_ok hget with
      ⟨hrole, -, -, rfl⟩ | ⟨rfl, t, ht', rfl⟩
    · exact hrole
    · exact (Table.mem_insert ht').2 (Or.inr rfl)
  | _ => cases hop

end UsersEffect

end AranesLms
