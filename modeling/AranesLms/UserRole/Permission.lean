import Mathlib.Data.List.Sort
import Mathlib.Data.String.Basic
import AranesLms.Lib.Finmap
import AranesLms.Lib.Table

/-!
# Permission keys, default maps and errors

The permission keys of `src/user_role/permission.py` and `src/i18n/permission.py`, the two tables
of role defaults and their union `getDefaultRolePermissions`, the default roles of
`src/user_role/defaults.py`, the exceptions of `src/user_role/exceptions.py`, and
`validatePermissionPatch`.

A permission map is a finite map (`dict[str, bool]`, compared as Python compares dictionaries); a
patch as the CRUD layer receives it has arbitrary values, of which only booleans are accepted.
-/

namespace AranesLms

/-! ## Keys -/

def rbacCanManagePermissions : String := "rbac_can_manage_permissions"
def rbacRolesRead : String := "rbac_roles_read"
def rbacRolesCreate : String := "rbac_roles_create"
def rbacRolesUpdate : String := "rbac_roles_update"
def rbacRolesDelete : String := "rbac_roles_delete"
def rbacUsersRead : String := "rbac_users_read"
def rbacUsersCreate : String := "rbac_users_create"
def rbacUsersManage : String := "rbac_users_manage"

def i18nCanReadSmall : String := "i18n_can_read_small"
def i18nCanCreateSmall : String := "i18n_can_create_small"
def i18nCanPatchSmall : String := "i18n_can_patch_small"
def i18nCanReadLarge : String := "i18n_can_read_large"
def i18nCanCreateLarge : String := "i18n_can_create_large"
def i18nCanPatchLarge : String := "i18n_can_patch_large"

/-- `REGISTERED_PERMISSION_KEYS`. -/
def registeredPermissionKeys : List String :=
  [rbacCanManagePermissions, rbacRolesRead, rbacRolesCreate, rbacRolesUpdate, rbacRolesDelete,
    rbacUsersRead, rbacUsersCreate, rbacUsersManage, i18nCanReadSmall, i18nCanCreateSmall,
    i18nCanPatchSmall, i18nCanReadLarge, i18nCanCreateLarge, i18nCanPatchLarge]

/-! ## Maps -/

/-- `dict[str, bool]`. -/
abbrev PermissionMap := Finmap fun _ : String => Bool

/-- A literal map. -/
def permissionMap (l : List (String × Bool)) : PermissionMap :=
  (l.map fun p => (⟨p.1, p.2⟩ : Σ _ : String, Bool)).toFinmap

/-- `permissions.get(key, False)`. -/
def PermissionMap.allows (m : PermissionMap) (key : String) : Bool := (m.lookup key).getD false

theorem PermissionMap.allows_iff {m : PermissionMap} {key : String} :
    m.allows key ↔ m.lookup key = some true := by
  unfold PermissionMap.allows
  cases m.lookup key <;> simp

theorem PermissionMap.not_allows_empty {key : String} : ¬ (∅ : PermissionMap).allows key := by
  rw [PermissionMap.allows_iff, Finmap.lookup_empty]
  exact nofun

/-- `_build_effective_permissions`: the user's entries win over those of the role. -/
def buildEffectivePermissions (userPermissions rolePermissions : Option PermissionMap) :
    PermissionMap :=
  userPermissions.getD ∅ ∪ rolePermissions.getD ∅

theorem buildEffectivePermissions_lookup (u r : Option PermissionMap) (key : String) :
    (buildEffectivePermissions u r).lookup key =
      ((u.getD ∅).lookup key).or ((r.getD ∅).lookup key) := by
  rw [buildEffectivePermissions, Finmap.lookup_union]

/-! ## Defaults -/

def superadminRoleId : ℕ := 1
def superadminRoleName : String := "SuperAdmin"

/-- An entry of `DEFAULT_ROLES`; `id` is `none` where any stable primary key will do. -/
structure DefaultRole where
  id : Option ℕ
  name : String
  titleKey : String
  deriving DecidableEq

def defaultRoles : List DefaultRole :=
  [⟨some superadminRoleId, superadminRoleName, "role.super_admin.title"⟩,
    ⟨some 2, "Admin", "role.admin.title"⟩,
    ⟨some 3, "User", "role.user.title"⟩,
    ⟨some 4, "Guest", "role.guest.title"⟩,
    ⟨some 5, "Teacher", "role.teacher.title"⟩,
    ⟨some 6, "Student", "role.student.title"⟩,
    ⟨none, "PLUGIN", "role.plugin.title"⟩]

def defaultSignupRoleId : ℕ := 6
def defaultSignupRoleName : String := "Student"
def defaultSignupRoleTitleKey : String := "role.student.title"

/-- A row of `RBAC_ROLE_PERMISSION_DEFAULTS`: all eight keys, the reading keys being `read` and
all others `write`. -/
def rbacPermissions (read write : Bool) : PermissionMap :=
  permissionMap
    [(rbacCanManagePermissions, write), (rbacRolesRead, read), (rbacRolesCreate, write),
      (rbacRolesUpdate, write), (rbacRolesDelete, write), (rbacUsersRead, read),
      (rbacUsersCreate, write), (rbacUsersManage, write)]

/-- `get_rbac_role_permission_defaults`. -/
def getRbacRolePermissionDefaults : String → PermissionMap
  | "SuperAdmin" => rbacPermissions true true
  | "Admin" | "PLUGIN" => rbacPermissions true false
  | "Teacher" | "Student" | "User" | "Guest" => rbacPermissions false false
  | _ => ∅

/-- A row of `I18N_ROLE_PERMISSION_DEFAULTS`: reading is always allowed. -/
def i18nPermissions (create patch : Bool) : PermissionMap :=
  permissionMap
    [(i18nCanReadSmall, true), (i18nCanCreateSmall, create), (i18nCanPatchSmall, patch),
      (i18nCanReadLarge, true), (i18nCanCreateLarge, create), (i18nCanPatchLarge, patch)]

/-- `get_i18n_role_permission_defaults`. -/
def getI18nRolePermissionDefaults : String → PermissionMap
  | "SuperAdmin" | "Admin" | "Teacher" => i18nPermissions true true
  | "Student" | "User" | "Guest" => i18nPermissions false false
  | "PLUGIN" => i18nPermissions true false
  | _ => ∅

/-- `get_default_role_permissions`: the RBAC defaults are applied over the i18n defaults. -/
def getDefaultRolePermissions (roleName : String) : PermissionMap :=
  getRbacRolePermissionDefaults roleName ∪ getI18nRolePermissionDefaults roleName

/-- `RBACService.get_default_role_permissions` of `RBAC_SERVICE`, which knows the default roles
only. -/
def rbacServiceDefaults (roleName : String) : PermissionMap :=
  if roleName ∈ defaultRoles.map DefaultRole.name then getDefaultRolePermissions roleName else ∅

/-- Every default role has a default for every registered key. -/
theorem registered_mem_rbacServiceDefaults :
    ∀ d ∈ defaultRoles, ∀ key ∈ registeredPermissionKeys, key ∈ rbacServiceDefaults d.name := by
  decide

/-! ## Exceptions -/

/-- What an operation of the CRUD layer raises.  `integrityError` is an `IntegrityError` that no
handler translates and `runtimeError` a `RuntimeError` with its text. -/
inductive CrudError where
  | duplicatePermissionKeys (duplicateKeys : List String)
  | roleNotFound
  | userNotFound
  | roleAlreadyExists
  | usernameAlreadyExists
  | roleInUse (userCount : ℕ)
  | superAdminRoleImmutable (detail : String)
  | invalidPermissionPatch (unknownKeys nonBooleanKeys : List String)
  | integrityError (violation : Violation)
  | runtimeError (detail : String)
  deriving DecidableEq

/-- The text of the exception. -/
def CrudError.detail : CrudError → String
  | .duplicatePermissionKeys _ => "Permission keys already exist and cannot be overwritten"
  | .roleNotFound => "Role not found"
  | .userNotFound => "User not found"
  | .roleAlreadyExists => "Role with this name already exists"
  | .usernameAlreadyExists => "Username already exists"
  | .roleInUse n => s!"Role is assigned to {n} user(s)"
  | .superAdminRoleImmutable detail => detail
  | .invalidPermissionPatch unknown nonBoolean =>
    let details :=
      (if unknown = [] then [] else ["unknown keys: " ++ ", ".intercalate unknown]) ++
      (if nonBoolean = [] then [] else ["non-boolean values: " ++ ", ".intercalate nonBoolean])
    "Invalid permission patch" ++
      (if details = [] then "" else " (" ++ "; ".intercalate details ++ ")")
  | .integrityError _ => "Internal Server Error"
  | .runtimeError detail => detail

/-! ## Patches -/

/-- A value of a patch: a Python `bool` or any other object. -/
inductive PatchValue where
  | bool (b : Bool)
  | other
  deriving DecidableEq

/-- `dict[str, object]`, the patch before validation. -/
abbrev PermissionPatch := AList fun _ : String => PatchValue

instance : DecidableEq PermissionPatch := fun patch patch' =>
  decidable_of_iff (patch.entries = patch'.entries) AList.ext_iff.symm

/-- The entry with its boolean value. -/
def PatchValue.toEntry (e : Σ _ : String, PatchValue) : Option (Σ _ : String, Bool) :=
  match e.2 with
  | .bool b => some ⟨e.1, b⟩
  | .other => none

/-- `get_unknown_permission_keys`. -/
def getUnknownPermissionKeys (patch : PermissionPatch) : List String :=
  (patch.keys.filter (· ∉ registeredPermissionKeys)).insertionSort (· ≤ ·)

/-- The keys `validate_permission_patch` finds to have a value that is not exactly a `bool`. -/
def nonBooleanKeys (patch : PermissionPatch) : List String :=
  ((patch.entries.filter fun e => e.2 = .other).map Sigma.fst).insertionSort (· ≤ ·)

/-- `validate_permission_patch`. -/
def validatePermissionPatch (patch : PermissionPatch) : Except CrudError PermissionMap :=
  if getUnknownPermissionKeys patch ≠ [] ∨ nonBooleanKeys patch ≠ [] then
    .error (.invalidPermissionPatch (getUnknownPermissionKeys patch) (nonBooleanKeys patch))
  else .ok (patch.entries.filterMap PatchValue.toEntry).toFinmap

theorem mem_keys_of_validatePermissionPatch {patch : PermissionPatch} {m : PermissionMap}
    (h : validatePermissionPatch patch = .ok m) {key : String} (hk : key ∈ m) :
    key ∈ patch.keys := by
  unfold validatePermissionPatch at h
  split_ifs at h
  cases h
  obtain ⟨b, hb⟩ := Finmap.mem_list_toFinmap _ _ |>.1 hk
  obtain ⟨⟨k, v⟩, he, hv⟩ := List.mem_filterMap.1 hb
  have hkey : k = key := by
    cases v <;> simp only [PatchValue.toEntry, Option.some.injEq, reduceCtorEq] at hv
    exact congrArg Sigma.fst hv
  exact hkey ▸ List.mem_map_of_mem he

/-- A validated patch has registered keys only. -/
theorem registered_of_validatePermissionPatch {patch : PermissionPatch} {m : PermissionMap}
    (h : validatePermissionPatch patch = .ok m) {key : String} (hk : key ∈ m) :
    key ∈ registeredPermissionKeys := by
  have hkeys := mem_keys_of_validatePermissionPatch h hk
  unfold validatePermissionPatch at h
  split_ifs at h with hbad
  rw [not_or, not_not, not_not] at hbad
  by_contra hn
  have : key ∈ getUnknownPermissionKeys patch := by
    rw [getUnknownPermissionKeys, List.mem_insertionSort, List.mem_filter]
    exact ⟨hkeys, by simpa using hn⟩
  rw [hbad.1] at this
  cases this

end AranesLms
