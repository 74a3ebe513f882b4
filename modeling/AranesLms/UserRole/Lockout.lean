import AranesLms.UserRole.Escalation
import AranesLms.UserRole.SuperAdmin

/-!
# Locking out administration

The SuperAdmin role cannot be changed and nobody can delete oneself, but the endpoints that change
users have no such guard: an administrator can be put in another role, deleted by someone else, or
be given an entry that takes `rbac_can_manage_permissions` away, and so can the last one.
`Operation.Spares` says from which users an operation does not take the permission, and
`always_administered_iff` that the API keeps an administrator exactly as long as each admitted
request spares one.
-/

namespace AranesLms

/-- Some user manages permissions. -/
def Database.Administered (db : Database) : Prop := ∃ user ∈ db.users, db.Manages user

/-- The patch takes `rbac_can_manage_permissions` away. -/
def Revokes (permissionPatch : PermissionPatch) : Prop :=
  ∃ patch, validatePermissionPatch permissionPatch = .ok patch ∧
    patch.lookup rbacCanManagePermissions = some false

namespace Operation

/-- The operation does not take `rbac_can_manage_permissions` from a user who has it; when the
entries of all users are reset, the user's role must grant it. -/
def Spares (db : Database) (user : User) : Operation → Prop
  | patchRolePermissions roleId patch =>
    user.roleId = roleId → Revokes patch → user.perms.allows rbacCanManagePermissions
  | resetRolePermissions =>
    user.perms.allows rbacCanManagePermissions ∨ user.roleId = superadminRoleId
  | updateUserAdmin userId _ (some roleId) =>
    user.id = userId → user.perms.allows rbacCanManagePermissions ∨ db.Grants roleId
  | deleteUserAdmin userId => user.id ≠ userId
  | patchUserPermissions userId patch => user.id = userId → ¬ Revokes patch
  | resetUserPermissions => db.Grants user.roleId
  | _ => True

/-- The operation spares an administrator; a reset of the entries of all users makes one of
everybody whose role grants the permission. -/
def KeepsManager (db : Database) (op : Operation) : Prop :=
  ∃ user ∈ db.users, (db.Manages user ∨ op = .resetUserPermissions) ∧ op.Spares db user

/-- The operation is not refused for its role or its user name. -/
def Applies (db : Database) : Operation → Prop
  | patchRolePermissions roleId _ => ∃ role ∈ db.roles, role.id = roleId ∧ ¬ isSuperadminRole role
  | updateUserAdmin userId username (some roleId) =>
    (∃ role ∈ db.roles, role.id = roleId) ∧
      ∀ name, username = some name → ∀ u ∈ db.users, u.id ≠ userId → u.username ≠ name
  | _ => True

end Operation

/-! ## One operation -/

variable {nid : ℕ} {db db' : Database} {op : Operation}

/-- The roles of the users keep the permission and the users their entries and roles. -/
theorem Database.Administered.of_kept (hadm : db.Administered)
    (hgrants : ∀ user ∈ db.users, db.Grants user.roleId → db'.Grants user.roleId)
    (hkept : ∀ user ∈ db.users, ∃ user' ∈ db'.users,
      user'.perms = user.perms ∧ user'.roleId = user.roleId) : db'.Administered := by
  obtain ⟨user, huser, hm⟩ := hadm
  obtain ⟨user', huser', hperms, hrole⟩ := hkept user huser
  refine ⟨user', huser', ?_⟩
  rw [Database.manages_iff] at hm ⊢
  rw [hperms, hrole]
  exact hm.imp_right fun ⟨hno, hg⟩ => ⟨hno, hgrants user huser hg⟩

/-- An entry of a patch decides whether the patched map allows the key. -/
theorem PermissionMap.allows_union {patch m : PermissionMap} {key : String} :
    (patch ∪ m).allows key ↔
      patch.lookup key ≠ some false ∧ (patch.lookup key = some true ∨ m.allows key) := by
  rw [PermissionMap.allows_iff, PermissionMap.allows_iff, Finmap.lookup_union]
  cases patch.lookup key with
  | none => simp
  | some b => cases b <;> simp

theorem revokes_iff {permissionPatch : PermissionPatch} {patch : PermissionMap}
    (hpatch : validatePermissionPatch permissionPatch = .ok patch) :
    Revokes permissionPatch ↔ patch.lookup rbacCanManagePermissions = some false := by
  constructor
  · rintro ⟨patch', hpatch', h⟩
    rw [hpatch, Except.ok.injEq] at hpatch'
    rwa [hpatch']
  · intro h
    exact ⟨patch, hpatch, h⟩

/-- Only a patch and the reset take the permission from a role that users have. -/
theorem RolesEffect.grants_kept (h : RolesEffect nid db op db'.roles)
    (hpatch : ∀ roleId patch, op = .patchRolePermissions roleId patch → ¬ Revokes patch)
    (hreset : op ≠ .resetRolePermissions) (hop : op.requiredPermission ≠ none) {user : User}
    (huser : user ∈ db.users) (hg : db.Grants user.roleId) : db'.Grants user.roleId := by
  obtain ⟨role, hrole, hid, hallows⟩ := hg
  show ∃ role ∈ db'.roles, role.id = user.roleId ∧ role.perms.allows rbacCanManagePermissions
  generalize db'.roles = roles at h
  cases h with
  | same => exact ⟨role, hrole, hid, hallows⟩
  | create ht => exact ⟨role, (Table.mem_insert ht).2 (Or.inl hrole), hid, hallows⟩
  | @update name titleKey old _ hold hs ht =>
    by_cases hne : role.id = old.id
    · obtain rfl := Table.eq_of_pk hrole hold hne
      exact ⟨_, Table.mem_modify_self ht hrole, hid, hallows⟩
    · exact ⟨role, Table.mem_modify_of_ne ht hrole hne, hid, hallows⟩
  | delete _ _ hunused =>
    exact ⟨role, Table.mem_erase.2 ⟨hrole, hid.trans_ne (hunused user huser)⟩, hid, hallows⟩
  | @patch permissionPatch patch old _ hvalid hold hs ht =>
    by_cases hne : role.id = old.id
    · obtain rfl := Table.eq_of_pk hrole hold hne
      have hkeep := mt (revokes_iff hvalid).2 (hpatch _ _ rfl)
      exact ⟨_, Table.mem_modify_self ht hrole, hid,
        PermissionMap.allows_union.2 ⟨hkeep, Or.inr hallows⟩⟩
    · exact ⟨role, Table.mem_modify_of_ne ht hrole hne, hid, hallows⟩
  | @append permissionPatch patch old _ hvalid hold hnew ht =>
    by_cases hne : role.id = old.id
    · -- the registry adds only keys that the map does not have
      obtain rfl := Table.eq_of_pk hrole hold hne
      have hlookup := PermissionMap.allows_iff.1 hallows
      have hno : rbacCanManagePermissions ∉ patch := fun hk =>
        hnew _ (mem_keys_of_validatePermissionPatch hvalid hk)
          (Finmap.mem_of_lookup_eq_some hlookup)
      refine ⟨_, Table.mem_modify_self ht hrole, hid, ?_⟩
      refine PermissionMap.allows_iff.2 ?_
      rw [Role.perms, Option.getD_some, Finmap.lookup_union_right hno, hlookup]
    · exact ⟨role, Table.mem_modify_of_ne ht hrole hne, hid, hallows⟩
  | reset => exact absurd rfl hreset
  | signup | seed => exact absurd rfl hop

namespace Operation

/-- An operation that spares everybody, and takes the permission from nobody. -/
theorem administered_iff_of_spares (hadm : db.Administered)
    (hspares : ∀ user, op.Spares db user) (h : db'.Administered) :
    db'.Administered ↔ op.KeepsManager db := by
  obtain ⟨user, huser, hm⟩ := hadm
  exact iff_of_true h ⟨user, huser, Or.inl hm, hspares user⟩

/-- With roles and users kept nobody loses the permission. -/
theorem administered_iff_of_kept (hadm : db.Administered) (hspares : ∀ user, op.Spares db user)
    (hroles : RolesEffect nid db op db'.roles)
    (hpatch : ∀ roleId patch, op = .patchRolePermissions roleId patch → ¬ Revokes patch)
    (hreset : op ≠ .resetRolePermissions) (hop : op.requiredPermission ≠ none)
    (hkept : ∀ user ∈ db.users, ∃ user' ∈ db'.users,
      user'.perms = user.perms ∧ user'.roleId = user.roleId) :
    db'.Administered ↔ op.KeepsManager db := by
  refine administered_iff_of_spares hadm hspares (hadm.of_kept ?_ hkept)
  exact fun user huser hg => hroles.grants_kept hpatch hreset hop huser hg

/-- An update of one user that keeps its entries and its role. -/
theorem exists_kept_of_modify {users users' : UserTable} {i : ℕ} {f : User → User}
    (h : users.modify i f = .ok users')
    (hf : ∀ user ∈ users, user.id = i →
      (f user).perms = user.perms ∧ (f user).roleId = user.roleId) :
    ∀ user ∈ users, ∃ user' ∈ users', user'.perms = user.perms ∧ user'.roleId = user.roleId := by
  intro user huser
  by_cases hid : user.id = i
  · exact ⟨f user, (Table.mem_modify h).2 (Or.inr ⟨user, huser, hid, rfl⟩), hf user huser hid⟩
  · exact ⟨user, Table.mem_modify_of_ne h huser hid, rfl, rfl⟩

/-- A patch that revokes the permission takes it from the users of the role without an own entry. -/
theorem administered_iff_patchRole {roleId : ℕ} {permissionPatch : PermissionPatch}
    (hadm : db.Administered)
    (h : (patchRolePermissions roleId permissionPatch).run nid db = .ok db') :
    db'.Administered ↔ (patchRolePermissions roleId permissionPatch).KeepsManager db := by
  by_cases hrev : Revokes permissionPatch
  swap
  · refine administered_iff_of_kept hadm (fun _ _ hr => absurd hr hrev) (Operation.rolesEffect h)
      ?_ nofun nofun ?_
    · rintro _ _ ⟨⟩
      exact hrev
    · have husers : db'.users = db.users := by
        cases Operation.usersEffect h with
        | same _ heq => exact heq
      exact fun user huser => ⟨user, husers ▸ huser, rfl, rfl⟩
  obtain ⟨⟨role, _⟩, hrun, rfl⟩ := Except.map_eq_ok.1 h
  obtain ⟨hread, hwrite⟩ := patchRolePermissions_ok hrun
  obtain ⟨patch, hpatch, old, hold, rfl, -, rfl⟩ := readPatchRole_ok.1 hread
  obtain ⟨t, ht, rfl⟩ := writeRolePermissions_ok.1 hwrite
  have hgrants : ∀ i, Database.Grants { db with roles := t } i ↔ i ≠ old.id ∧ db.Grants i := by
    intro i
    constructor
    · rintro ⟨role, hrole, rfl, hallows⟩
      rcases (Table.mem_modify ht).1 hrole with ⟨hrole, hne⟩ | ⟨_, -, -, rfl⟩
      · exact ⟨hne, role, hrole, rfl, hallows⟩
      · exact absurd ((revokes_iff hpatch).1 hrev) (PermissionMap.allows_union.1 hallows).1
    · rintro ⟨hne, role, hrole, rfl, hallows⟩
      exact ⟨role, Table.mem_modify_of_ne ht hrole hne, rfl, hallows⟩
  refine exists_congr fun user => and_congr_right fun _ => ?_
  rw [or_iff_left nofun, Database.manages_iff, Database.manages_iff, hgrants]
  constructor
  · rintro (hown | ⟨hno, hne, hg⟩)
    · exact ⟨Or.inl hown, fun _ _ => hown⟩
    · exact ⟨Or.inr ⟨hno, hg⟩, fun hid => absurd hid hne⟩
  · rintro ⟨hm, hspares⟩
    by_cases hid : user.roleId = old.id
    · exact Or.inl (hspares hid hrev)
    · exact hm.imp_right fun ⟨hno, hg⟩ => ⟨hno, hid, hg⟩

/-- The reset empties every role but the SuperAdmin role. -/
theorem administered_iff_resetRoles {row : Role} (hrow : IsSeededSuperadmin row)
    (hmem : row ∈ db.roles) (h : resetRolePermissions.run nid db = .ok db') :
    db'.Administered ↔ resetRolePermissions.KeepsManager db := by
  cases h
  rw [resetRolePermissions_snd]
  have hgrants : ∀ i, (writeResetRoles db).Grants i ↔ i = superadminRoleId ∧ db.Grants i := by
    intro i
    constructor
    · rintro ⟨role, hrole, rfl, hallows⟩
      obtain ⟨old, hold, rfl⟩ := mem_writeResetRoles.1 hrole
      unfold resetRole at hallows ⊢
      split_ifs at hallows ⊢ with hs
      · refine ⟨?_, old, hold, rfl, hallows⟩
        rw [hrow.eq_of_isSuperadminRole hmem hold hs, hrow.id_eq]
      · exact absurd hallows PermissionMap.not_allows_empty
    · rintro ⟨rfl, role, hrole, hid, hallows⟩
      exact ⟨role, mem_writeResetRoles.2 ⟨role, hrole, if_pos (Or.inl hid)⟩, hid, hallows⟩
  refine exists_congr fun user => and_congr_right fun _ => ?_
  rw [or_iff_left nofun, Database.manages_iff, Database.manages_iff, hgrants]
  constructor
  · rintro (hown | ⟨hno, hid, hg⟩)
    · exact ⟨Or.inl hown, Or.inl hown⟩
    · exact ⟨Or.inr ⟨hno, hg⟩, Or.inr hid⟩
  · rintro ⟨hm, hown | hid⟩
    · exact Or.inl hown
    · exact hm.imp_right fun ⟨hno, hg⟩ => ⟨hno, hid, hg⟩

/-- A user who is put in another role manages permissions by its own entry or by the new role. -/
theorem administered_iff_updateUser {userId roleId : ℕ} {username : Option String}
    (hadm : db.Administered)
    (h : (updateUserAdmin userId username (some roleId)).run nid db = .ok db') :
    db'.Administered ↔ (updateUserAdmin userId username (some roleId)).KeepsManager db := by
  obtain ⟨⟨user, _⟩, hrun, rfl⟩ := Except.map_eq_ok.1 h
  obtain ⟨old, hold, rfl, -, -, t, ht, rfl⟩ := updateUserAdmin_ok hrun
  have hmanages : Database.Manages { db with users := t }
      ((userChanges old username (some roleId)).apply old) ↔
        old.perms.allows rbacCanManagePermissions ∨
          rbacCanManagePermissions ∉ old.perms ∧ db.Grants roleId := by
    rw [UserChanges.apply_userChanges, Database.manages_iff]
    exact Iff.rfl
  constructor
  · rintro ⟨user', huser', hm'⟩
    rcases (Table.mem_modify_of_mem ht hold).1 huser' with ⟨hkeep, hne⟩ | rfl
    · exact ⟨user', hkeep, Or.inl hm', fun hid => absurd hid hne⟩
    -- the user put in the role may not have managed permissions before: spare the one who did
    obtain ⟨manager, hmanager, hm⟩ := hadm
    refine ⟨manager, hmanager, Or.inl hm, fun heq => ?_⟩
    rw [Table.eq_of_pk hmanager hold heq]
    exact (hmanages.1 hm').imp_right And.right
  · rintro ⟨manager, hmanager, hm | hm, hspares⟩
    swap
    · cases hm
    by_cases hid : manager.id = old.id
    · obtain rfl := Table.eq_of_pk hmanager hold hid
      refine ⟨_, Table.mem_modify_self ht hmanager, hmanages.2 ?_⟩
      rcases Database.manages_iff.1 hm with hown | ⟨hno, -⟩
      · exact Or.inl hown
      · exact (hspares rfl).imp_right fun hg => ⟨hno, hg⟩
    · exact ⟨manager, Table.mem_modify_of_ne ht hmanager hid, hm⟩

theorem administered_iff_deleteUser {userId : ℕ}
    (h : (deleteUserAdmin userId).run nid db = .ok db') :
    db'.Administered ↔ (deleteUserAdmin userId).KeepsManager db := by
  obtain ⟨-, rfl⟩ := deleteUserAdmin_ok h
  constructor
  · rintro ⟨user, huser, hm⟩
    obtain ⟨huser, hne⟩ := Table.mem_erase.1 huser
    exact ⟨user, huser, Or.inl hm, hne⟩
  · rintro ⟨user, huser, hm | hm, hne⟩
    · exact ⟨user, Table.mem_erase.2 ⟨huser, hne⟩, hm⟩
    · cases hm

/-- An entry of the patch decides whether the patched user manages permissions. -/
theorem administered_iff_patchUser {userId : ℕ} {permissionPatch : PermissionPatch}
    (hadm : db.Administered)
    (h : (patchUserPermissions userId permissionPatch).run nid db = .ok db') :
    db'.Administered ↔ (patchUserPermissions userId permissionPatch).KeepsManager db := by
  obtain ⟨⟨user, _⟩, hrun, rfl⟩ := Except.map_eq_ok.1 h
  obtain ⟨hread, hwrite⟩ := patchUserPermissions_ok hrun
  obtain ⟨patch, hpatch, old, hold, rfl, rfl⟩ := readPatchUser_ok.1 hread
  obtain ⟨t, ht, rfl⟩ := writeUserPermissions_ok.1 hwrite
  constructor
  · rintro ⟨user', huser', hm'⟩
    rcases (Table.mem_modify ht).1 huser' with ⟨hkeep, hne⟩ | ⟨r, hr, hid, rfl⟩
    · exact ⟨user', hkeep, Or.inl hm', fun hid => absurd hid hne⟩
    by_cases hrev : Revokes permissionPatch
    · exfalso
      have hfalse := (revokes_iff hpatch).1 hrev
      rcases Database.manages_iff.1 hm' with hown | ⟨hno, -⟩
      · exact (PermissionMap.allows_union.1 hown).1 hfalse
      · exact hno (Finmap.mem_union.2 (Or.inl (Finmap.mem_of_lookup_eq_some hfalse)))
    · obtain ⟨manager, hmanager, hm⟩ := hadm
      exact ⟨manager, hmanager, Or.inl hm, fun _ => hrev⟩
  · rintro ⟨manager, hmanager, hm | hm, hspares⟩
    swap
    · cases hm
    by_cases hid : manager.id = old.id
    swap
    · exact ⟨manager, Table.mem_modify_of_ne ht hmanager hid, hm⟩
    obtain rfl := Table.eq_of_pk hmanager hold hid
    have hkeep := mt (revokes_iff hpatch).2 (hspares rfl)
    refine ⟨_, Table.mem_modify_self (r := manager) ht hmanager, ?_⟩
    rw [Database.manages_iff]
    show (patch ∪ manager.perms).allows _ ∨ _ ∉ patch ∪ manager.perms ∧ db.Grants manager.roleId
    by_cases hpos : patch.lookup rbacCanManagePermissions = some true
    · exact Or.inl (PermissionMap.allows_union.2 ⟨hkeep, Or.inl hpos⟩)
    have hnone : rbacCanManagePermissions ∉ patch := by
      rw [← Finmap.lookup_eq_none]
      cases hp : patch.lookup rbacCanManagePermissions with
      | none => rfl
      | some b => cases b <;> contradiction
    rcases Database.manages_iff.1 hm with hown | ⟨hno, hg⟩
    · exact Or.inl (PermissionMap.allows_union.2 ⟨hkeep, Or.inr hown⟩)
    · exact Or.inr ⟨fun hk => (Finmap.mem_union.1 hk).elim hnone hno, hg⟩

/-- The reset leaves everybody what the role grants. -/
theorem administered_iff_resetUsers (h : resetUserPermissions.run nid db = .ok db') :
    db'.Administered ↔ resetUserPermissions.KeepsManager db := by
  cases h
  rw [resetUserPermissions_snd]
  have hmanages : ∀ user : User,
      (writeResetUsers db).Manages { user with permissions := some ∅ } ↔ db.Grants user.roleId :=
    fun _ => Database.manages_new_iff
  constructor
  · rintro ⟨user, huser, hm⟩
    obtain ⟨old, hold, rfl⟩ := mem_writeResetUsers.1 huser
    exact ⟨old, hold, Or.inr rfl, (hmanages old).1 hm⟩
  · rintro ⟨user, huser, -, hg⟩
    exact ⟨_, mem_writeResetUsers.2 ⟨user, huser, rfl⟩, (hmanages user).2 hg⟩

/-- With the SuperAdmin row in place, a successful operation of the API keeps an administrator
exactly when it spares one. -/
theorem administered_iff {row : Role} (hrow : IsSeededSuperadmin row) (hmem : row ∈ db.roles)
    (hadm : db.Administered) (hop : op.requiredPermission ≠ none) (h : op.run nid db = .ok db') :
    db'.Administered ↔ op.KeepsManager db := by
  have hroles := Operation.rolesEffect h
  have husers := Operation.usersEffect h
  have hkept : db'.users = db.users → ∀ user ∈ db.users, ∃ user' ∈ db'.users,
      user'.perms = user.perms ∧ user'.roleId = user.roleId :=
    fun heq user huser => ⟨user, heq ▸ huser, rfl, rfl⟩
  cases op with
  | createRole | updateRole | deleteRole | appendRolePermissions =>
    refine administered_iff_of_kept hadm (fun _ => trivial) hroles nofun nofun hop (hkept ?_)
    cases husers with
    | same _ heq => exact heq
  | patchRolePermissions => exact administered_iff_patchRole hadm h
  | resetRolePermissions => exact administered_iff_resetRoles hrow hmem h
  | createUserAdmin =>
    refine administered_iff_of_kept hadm (fun _ => trivial) hroles nofun nofun hop ?_
    intro user huser
    cases husers with
    | same hcreates => exact absurd trivial hcreates
    | create _ ht => exact ⟨user, (Table.mem_insert ht).2 (Or.inl huser), rfl, rfl⟩
  | updateUserAdmin userId username roleId =>
    cases roleId with
    | some roleId => exact administered_iff_updateUser hadm h
    | none =>
      refine administered_iff_of_kept hadm (fun _ => trivial) hroles nofun nofun hop ?_
      cases husers with
      | same _ heq => exact hkept heq
      | @update old _ _ _ hold _ ht =>
        refine exists_kept_of_modify ht fun user huser hid => ?_
        rw [Table.eq_of_pk huser hold hid, UserChanges.apply_userChanges]
        exact ⟨rfl, rfl⟩
  | setUserPasswordAdmin =>
    refine administered_iff_of_kept hadm (fun _ => trivial) hroles nofun nofun hop ?_
    cases husers with
    | same _ heq => exact hkept heq
    | password _ ht => exact exists_kept_of_modify ht fun _ _ _ => ⟨rfl, rfl⟩
  | deleteUserAdmin => exact administered_iff_deleteUser h
  | patchUserPermissions => exact administered_iff_patchUser hadm h
  | resetUserPermissions => exact administered_iff_resetUsers h
  | signup | runBootstrapSeeding => exact absurd rfl hop

/-- What succeeds applies. -/
theorem applies_of_run (h : op.run nid db = .ok db') : op.Applies db := by
  cases op with
  | patchRolePermissions roleId permissionPatch =>
    obtain ⟨⟨role, _⟩, hrun, rfl⟩ := Except.map_eq_ok.1 h
    obtain ⟨-, -, old, hold, hid, hs, -⟩ := readPatchRole_ok.1 (patchRolePermissions_ok hrun).1
    exact ⟨old, hold, hid, hs⟩
  | updateUserAdmin userId username roleId =>
    cases roleId with
    | none => trivial
    | some roleId =>
      obtain ⟨⟨user, _⟩, hrun, rfl⟩ := Except.map_eq_ok.1 h
      obtain ⟨old, hold, rfl, hrole, -, t, ht, rfl⟩ := updateUserAdmin_ok hrun
      refine ⟨hrole roleId rfl, ?_⟩
      rintro name rfl u hu hne hname
      refine Table.modify_fresh ht hold rfl rfl hu hne ?_
      rw [hname, UserChanges.apply_userChanges]
      rfl
  | _ => trivial

/-- What applies and spares no administrator succeeds. -/
theorem exists_run_of_not_keepsManager (hadm : db.Administered) (happlies : op.Applies db)
    (h : ¬ op.KeepsManager db) : ∃ db', op.run nid db = .ok db' := by
  obtain ⟨manager, hmanager, hm⟩ := hadm
  have hnot : ¬ op.Spares db manager := fun hs => h ⟨manager, hmanager, Or.inl hm, hs⟩
  cases op with
  | patchRolePermissions roleId permissionPatch =>
    obtain ⟨role, hrole, rfl, hs⟩ := happlies
    obtain ⟨-, ⟨patch, hpatch, -⟩, -⟩ : manager.roleId = role.id ∧ Revokes permissionPatch ∧
      ¬ manager.perms.allows rbacCanManagePermissions := by simpa [Spares] using hnot
    obtain ⟨t, hok⟩ := patchRolePermissions_exists_ok hpatch hrole hs
    exact ⟨_, Except.map_eq_ok.2 ⟨(_, _), hok, rfl⟩⟩
  | updateUserAdmin userId username roleId =>
    cases roleId with
    | none => exact absurd trivial hnot
    | some roleId =>
      obtain rfl : manager.id = userId := by
        by_contra hne
        exact hnot fun hid => absurd hid hne
      have hrole : ∀ rid, some roleId = some rid → ∃ role ∈ db.roles, role.id = rid := by
        rintro _ ⟨⟩
        exact happlies.1
      obtain ⟨t, -, hok⟩ := updateUserAdmin_exists_ok hmanager happlies.2 hrole
      exact ⟨_, Except.map_eq_ok.2 ⟨(_, _), hok, rfl⟩⟩
  | deleteUserAdmin userId =>
    obtain rfl : manager.id = userId := not_not.1 hnot
    exact ⟨_, deleteUserAdmin_exists_ok hmanager⟩
  | patchUserPermissions userId permissionPatch =>
    obtain ⟨rfl, patch, hpatch, -⟩ : manager.id = userId ∧ Revokes permissionPatch := by
      simpa [Spares] using hnot
    obtain ⟨t, hok⟩ := patchUserPermissions_exists_ok hpatch hmanager
    exact ⟨_, Except.map_eq_ok.2 ⟨(_, _), hok, rfl⟩⟩
  | resetRolePermissions | resetUserPermissions => exact ⟨_, rfl⟩
  | _ => exact absurd trivial hnot

end Operation

/-! ## Every run -/

/-- A request to the API: the identifier for a new row, the payload of the token and the
operation. -/
structure RbacRequest where
  nid : ℕ
  payload : TokenPayload
  op : Operation

namespace RbacRequest

/-- A refused request leaves the database as it was. -/
def step (db : Database) (r : RbacRequest) : Database :=
  match request r.nid db r.payload r.op with
  | .ok db' => db'
  | .error _ => db

/-- The actor has the permission that the endpoint requires and does not delete itself, and the
operation applies. -/
def Admitted (db : Database) (r : RbacRequest) : Prop :=
  (∃ key actor, r.op.requiredPermission = some key ∧ getCurrentActor db r.payload = .ok actor ∧
    actor.effectivePermissions.allows key ∧ checkSelfDelete actor r.op = .ok ()) ∧ r.op.Applies db

variable {row : Role} {r : RbacRequest}

theorem mem_step (hrow : IsSeededSuperadmin row) (hmem : row ∈ db.roles) (r : RbacRequest) :
    row ∈ (r.step db).roles := by
  unfold step
  cases hreq : request r.nid db r.payload r.op with
  | error _ => exact hmem
  | ok db' =>
    obtain ⟨_, _, -, -, -, -, hrun⟩ := request_ok.1 hreq
    exact hrow.mem_of_rolesEffect hmem (Operation.rolesEffect hrun)

theorem administered_step_iff (hrow : IsSeededSuperadmin row) (hmem : row ∈ db.roles)
    (hadm : db.Administered) : (r.step db).Administered ↔
      (r.Admitted db → r.op.KeepsManager db) := by
  unfold step
  cases hreq : request r.nid db r.payload r.op with
  | error e =>
    refine iff_of_true hadm ?_
    rintro ⟨⟨key, actor, hkey, hactor, hallows, hself⟩, happlies⟩
    by_contra hno
    -- the request would have succeeded
    obtain ⟨db', hrun⟩ : ∃ db', r.op.run r.nid db = .ok db' :=
      Operation.exists_run_of_not_keepsManager hadm happlies hno
    have hok := request_ok.2 ⟨key, actor, hkey, hactor, hallows, hself, hrun⟩
    rw [hreq] at hok
    cases hok
  | ok db' =>
    obtain ⟨key, actor, hkey, hactor, hallows, hself, hrun⟩ := request_ok.1 hreq
    have hop : r.op.requiredPermission ≠ none := by
      rw [hkey]
      exact nofun
    have hadmitted : r.Admitted db :=
      ⟨⟨key, actor, hkey, hactor, hallows, hself⟩, Operation.applies_of_run hrun⟩
    rw [Operation.administered_iff hrow hmem hadm hop hrun]
    exact ⟨fun hkeeps _ => hkeeps, fun hkeeps => hkeeps hadmitted⟩

end RbacRequest

/-- From a seeded database with an administrator in the SuperAdmin role on, an administrator is
there throughout exactly when every admitted request spares one. -/
theorem always_administered_iff (small : SmallTranslates) (large : LargeTranslates)
    (db₀ db : Database) (hseed : runBootstrapSeeding small large db₀ = .ok db)
    (hadm : ∃ user ∈ db.users, user.roleId = superadminRoleId ∧ db.Manages user)
    (requests : List RbacRequest) :
    Transition.Always RbacRequest.step Database.Administered db requests ↔
      Transition.Along RbacRequest.step (fun s r => r.Admitted s → r.op.KeepsManager s) db
        requests := by
  obtain ⟨row, hmem, hrow, -⟩ := (runBootstrapSeeding_ok hseed).exists_superadmin
  obtain ⟨user, huser, -, hm⟩ := hadm
  refine Transition.always_iff_along (J := fun s : Database => row ∈ s.roles ∧ s.Administered)
    (fun _ hs => hs.2) ?_ ?_ ⟨hmem, user, huser, hm⟩ requests
  · intro s r hs hc
    exact ⟨r.mem_step hrow hs.1, (RbacRequest.administered_step_iff hrow hs.1 hs.2).2 hc⟩
  · intro s r hs hadm
    exact (RbacRequest.administered_step_iff hrow hs.1 hs.2).1 hadm

/-- A seeded database with one user, in the SuperAdmin role. -/
def administratorDatabase : Database :=
  { seededDatabase with users := ⟨[⟨1, "admin", "hash", 1, some ∅⟩], by decide, by decide⟩ }

/-- The administrator creates a second one and gives up its own permission. -/
theorem always_administered_hand_over : Transition.Always RbacRequest.step Database.Administered
    administratorDatabase
    [⟨2, ControlState.token 1 "admin", .createUserAdmin "second" "hash" 1⟩,
      ⟨0, ControlState.token 1 "admin", .patchUserPermissions 1
        [⟨rbacCanManagePermissions, .bool false⟩].toAList⟩] := by
  refine (always_administered_iff ∅ ∅ administratorDatabase administratorDatabase
    (by decide +kernel) (by decide +kernel) _).2 ⟨fun _ => ?_, fun _ => ?_, trivial⟩
  · exact ⟨⟨1, "admin", "hash", 1, some ∅⟩, by decide, Or.inl (by decide +kernel), trivial⟩
  · exact ⟨⟨2, "second", "hash", 1, some ∅⟩, by decide +kernel, Or.inl (by decide +kernel), nofun⟩

/-- The only administrator gives up its own permission. -/
theorem patch_self_not_administered :
    (∃ db₀, runBootstrapSeeding ∅ ∅ db₀ = .ok administratorDatabase) ∧
      (∃ user ∈ administratorDatabase.users,
        user.roleId = superadminRoleId ∧ administratorDatabase.Manages user) ∧
      ¬ Transition.Always RbacRequest.step Database.Administered administratorDatabase
        [⟨0, ControlState.token 1 "admin", .patchUserPermissions 1
          [⟨rbacCanManagePermissions, .bool false⟩].toAList⟩] := by
  refine ⟨⟨administratorDatabase, by decide +kernel⟩, by decide +kernel, fun h => ?_⟩
  have hnone : ∀ user ∈ (RbacRequest.step administratorDatabase
      ⟨0, ControlState.token 1 "admin", .patchUserPermissions 1
        [⟨rbacCanManagePermissions, .bool false⟩].toAList⟩).users,
      ¬ Database.Manages (RbacRequest.step administratorDatabase
        ⟨0, ControlState.token 1 "admin", .patchUserPermissions 1
          [⟨rbacCanManagePermissions, .bool false⟩].toAList⟩) user := by
    decide +kernel
  obtain ⟨user, huser, hm⟩ := h.last
  exact hnone user huser hm

end AranesLms
