import AranesLms.UserRole.Models

/-!
# Seeding of the default roles

`seed_roles_if_missing` of `src/user_role/bootstrap.py` with the permission backfill of
`RBACService.init_role_permissions_if_missing`, and `run_bootstrap_seeding` of
`src/startup/bootstrap.py`, which runs it in one transaction with the two translation seeders.
-/

namespace AranesLms

/-- A default id as the source prints it. -/
def reprId : Option ℕ → String
  | some i => toString i
  | none => "None"

/-- The drift error for one role that does not match its default. -/
def defaultRoleDrift (d : DefaultRole) (role : Role) : CrudError :=
  .runtimeError ("Default role drift detected. Expected role (" ++ reprId d.id ++ ", '" ++ d.name ++
    "') but found (" ++ toString role.id ++ ", '" ++ role.name ++ "').")

/-- The drift error for an id and a name that belong to two roles. -/
def defaultRoleMappingDrift (d : DefaultRole) (byId byName : Role) : CrudError :=
  .runtimeError ("Default role mapping drift detected. Role id " ++ reprId d.id ++ " maps to '" ++
    byId.name ++ "' while role name '" ++ d.name ++ "' maps to id " ++ toString byName.id ++ "'.")

/-- The last check of `_resolve_default_role_match`. -/
def checkDefaultRole (d : DefaultRole) (role : Role) : Except CrudError (Option Role) :=
  if (d.id ≠ none ∧ d.id ≠ some role.id) ∨ role.name ≠ d.name then
    .error (defaultRoleDrift d role)
  else .ok (some role)

/-- `_resolve_default_role_match`, `existing` being the roles the candidate query returned. -/
def resolveDefaultRoleMatch (existing : List Role) (d : DefaultRole) :
    Except CrudError (Option Role) :=
  let byId := d.id.bind fun i => existing.find? fun role => role.id = i
  let byName := existing.find? fun role => role.name = d.name
  match byId, byName with
  | none, none => .ok none
  | some role, some role' =>
    if role ≠ role' then .error (defaultRoleMappingDrift d role role') else checkDefaultRole d role
  | some role, none => checkDefaultRole d role
  | none, some role => checkDefaultRole d role

/-- The `WHERE` clause of the candidate query. -/
def isDefaultCandidate (role : Role) : Prop :=
  some role.id ∈ defaultRoles.map DefaultRole.id ∨ role.name ∈ defaultRoles.map DefaultRole.name

instance : DecidablePred isDefaultCandidate := fun role =>
  inferInstanceAs (Decidable (some role.id ∈ defaultRoles.map DefaultRole.id ∨
    role.name ∈ defaultRoles.map DefaultRole.name))

/-- The loop over `DEFAULT_ROLES`; the result is `roles_to_add`. -/
def missingDefaultRoles (existing : List Role) :
    List DefaultRole → Except CrudError (List DefaultRole)
  | [] => .ok []
  | d :: ds => do
    let found ← resolveDefaultRoleMatch existing d
    let rest ← missingDefaultRoles existing ds
    match found with
    | some _ => return rest
    | none => return d :: rest

/-- The title of a default role is filled in when it is empty. -/
def fillTitleKey (role : Role) : Role :=
  if role.titleKey = "" then
    match defaultRoles.find? fun d => d.name = role.name with
    | some d => { role with titleKey := d.titleKey }
    | none => role
  else role

/-- One iteration of `init_role_permissions_if_missing`: missing default keys are added, present
ones are kept. -/
def initRolePermissionsIfMissing (role : Role) : Role :=
  let defaults := rbacServiceDefaults role.name
  if ∀ key ∈ defaults.keys, key ∈ role.perms then role
  else { role with permissions := some (role.perms ∪ defaults) }

/-- What seeding does to a role that exists. -/
def seedExistingRole (role : Role) : Role :=
  if isDefaultCandidate role then initRolePermissionsIfMissing (fillTitleKey role) else role

theorem fillTitleKey_eq (role : Role) :
    ∃ titleKey, fillTitleKey role = { role with titleKey := titleKey } := by
  unfold fillTitleKey
  split_ifs
  · split
    · exact ⟨_, rfl⟩
    · exact ⟨role.titleKey, rfl⟩
  · exact ⟨role.titleKey, rfl⟩

theorem fillTitleKey_id (role : Role) : (fillTitleKey role).id = role.id := by
  obtain ⟨titleKey, h⟩ := fillTitleKey_eq role
  rw [h]

theorem fillTitleKey_name (role : Role) : (fillTitleKey role).name = role.name := by
  obtain ⟨titleKey, h⟩ := fillTitleKey_eq role
  rw [h]

theorem fillTitleKey_permissions (role : Role) :
    (fillTitleKey role).permissions = role.permissions := by
  obtain ⟨titleKey, h⟩ := fillTitleKey_eq role
  rw [h]

theorem fillTitleKey_perms (role : Role) : (fillTitleKey role).perms = role.perms :=
  congrArg (Option.getD · ∅) (fillTitleKey_permissions role)

theorem initRolePermissionsIfMissing_id (role : Role) :
    (initRolePermissionsIfMissing role).id = role.id := by
  unfold initRolePermissionsIfMissing
  dsimp only
  split_ifs <;> rfl

theorem initRolePermissionsIfMissing_name (role : Role) :
    (initRolePermissionsIfMissing role).name = role.name := by
  unfold initRolePermissionsIfMissing
  dsimp only
  split_ifs <;> rfl

theorem initRolePermissionsIfMissing_titleKey (role : Role) :
    (initRolePermissionsIfMissing role).titleKey = role.titleKey := by
  unfold initRolePermissionsIfMissing
  dsimp only
  split_ifs <;> rfl

/-- After the backfill every default key of the role is present. -/
theorem mem_perms_initRolePermissionsIfMissing {role : Role} {key : String}
    (hk : key ∈ rbacServiceDefaults role.name) :
    key ∈ (initRolePermissionsIfMissing role).perms := by
  unfold initRolePermissionsIfMissing
  dsimp only
  split_ifs with h
  · exact h key (Finmap.mem_keys.2 hk)
  · exact Finmap.mem_union.2 (Or.inr hk)

theorem seedExistingRole_id (role : Role) : (seedExistingRole role).id = role.id := by
  unfold seedExistingRole
  split_ifs
  · rw [initRolePermissionsIfMissing_id, fillTitleKey_id]
  · rfl

theorem seedExistingRole_name (role : Role) : (seedExistingRole role).name = role.name := by
  unfold seedExistingRole
  split_ifs
  · rw [initRolePermissionsIfMissing_name, fillTitleKey_name]
  · rfl

/-- A role that seeding has nothing to add to. -/
def SeedComplete (role : Role) : Prop :=
  role.titleKey ≠ "" ∧ ∀ key ∈ rbacServiceDefaults role.name, key ∈ role.perms

theorem SeedComplete.seedExistingRole_eq {role : Role} (h : SeedComplete role) :
    seedExistingRole role = role := by
  have hfill : fillTitleKey role = role := if_neg h.1
  unfold seedExistingRole
  rw [hfill, initRolePermissionsIfMissing, if_pos fun key hk => h.2 key (Finmap.mem_keys.1 hk),
    ite_self]

/-- The row added for a missing default role; without a fixed id the database chooses one. -/
def newDefaultRole (roles : RoleTable) (d : DefaultRole) : Role :=
  ⟨d.id.getD roles.nextId, d.name, d.titleKey, some (rbacServiceDefaults d.name)⟩

/-- The `INSERT`s of the missing default roles, in the order of `DEFAULT_ROLES`. -/
def addDefaultRoles : RoleTable → List DefaultRole → Except CrudError RoleTable
  | roles, [] => .ok roles
  | roles, d :: ds =>
    match roles.insert (newDefaultRole roles d) with
    | .ok roles' => addDefaultRoles roles' ds
    | .error v => .error (.integrityError v)

/-- `seed_roles_if_missing` with its flush; the result is the number of roles created. -/
def seedRolesIfMissing (db : Database) : Except CrudError (ℕ × Database) := do
  let existing := db.roles.rows.filter isDefaultCandidate
  let rolesToAdd ← missingDefaultRoles existing defaultRoles
  let updated := db.roles.mapRows seedExistingRole seedExistingRole_id seedExistingRole_name
  let roles ← addDefaultRoles updated rolesToAdd
  return (rolesToAdd.length, { db with roles })

/-- `run_bootstrap_seeding`: registered translations are added where their key is missing. -/
def runBootstrapSeeding (small : SmallTranslates) (large : LargeTranslates) (db : Database) :
    Except CrudError Database := do
  let (_, db') ← seedRolesIfMissing db
  return { db' with
    translateSmall := db'.translateSmall ∪ small
    translateLarge := db'.translateLarge ∪ large }

end AranesLms
