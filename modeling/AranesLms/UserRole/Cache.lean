import AranesLms.Lib.ViewCache
import AranesLms.UserRole.Models

/-!
# The RBAC cache

`RbacCacheService` of `src/user_role/cache.py` over a working Redis, with the serializers of
`src/user_role/endpoints/serializers.py`.  The four kinds of keys (`rbac:role:{id}`,
`rbac:role:list`, `rbac:user:{id}` and `rbac:user:list`) are four components, and an entry is the
payload that was stored.
-/

namespace AranesLms

/-- `RoleResponseSchema`. -/
structure RoleResponse where
  id : ℕ
  name : String
  titleKey : String
  permissions : PermissionMap
  deriving DecidableEq

/-- `UserResponseSchema`. -/
structure UserResponse where
  id : ℕ
  username : String
  roleId : ℕ
  permissions : PermissionMap
  deriving DecidableEq

def serializeRole (role : Role) : RoleResponse := ⟨role.id, role.name, role.titleKey, role.perms⟩

def serializeUser (user : User) : UserResponse := ⟨user.id, user.username, user.roleId, user.perms⟩

theorem serializeRole_id (role : Role) : (serializeRole role).id = role.id := rfl

theorem serializeUser_id (user : User) : (serializeUser user).id = user.id := rfl

structure RbacCache where
  roles : ViewCache RoleResponse
  users : ViewCache UserResponse

namespace RbacCache

def empty : RbacCache := ⟨.empty, .empty⟩

variable (cache : RbacCache)

/-! ## Roles -/

def getRole (roleId : ℕ) : Option RoleResponse × RbacCache :=
  let (item, roles) := cache.roles.getItem RoleResponse.id roleId
  (item, { cache with roles })

def setRole (roleId : ℕ) (payload : RoleResponse) : RbacCache :=
  { cache with roles := cache.roles.setItem roleId payload }

def invalidateRole (roleId : ℕ) : RbacCache :=
  { cache with roles := cache.roles.invalidate roleId }

def invalidateRoles (roleIds : List ℕ) (includeList : Bool) : RbacCache :=
  { cache with roles := cache.roles.invalidateMany roleIds includeList }

def getRoleList : Option (List RoleResponse) × RbacCache :=
  let (items, roles) := cache.roles.getList RoleResponse.id
  (items, { cache with roles })

def setRoleList (items : List RoleResponse) : RbacCache :=
  { cache with roles := cache.roles.setList items }

def invalidateRoleList : RbacCache := { cache with roles := cache.roles.invalidateList }

/-! ## Users -/

def getUser (userId : ℕ) : Option UserResponse × RbacCache :=
  let (item, users) := cache.users.getItem UserResponse.id userId
  (item, { cache with users })

def setUser (userId : ℕ) (payload : UserResponse) : RbacCache :=
  { cache with users := cache.users.setItem userId payload }

def invalidateUser (userId : ℕ) : RbacCache :=
  { cache with users := cache.users.invalidate userId }

def invalidateUsers (userIds : List ℕ) (includeList : Bool) : RbacCache :=
  { cache with users := cache.users.invalidateMany userIds includeList }

def getUserList : Option (List UserResponse) × RbacCache :=
  let (items, users) := cache.users.getList UserResponse.id
  (items, { cache with users })

def setUserList (items : List UserResponse) : RbacCache :=
  { cache with users := cache.users.setList items }

def invalidateUserList : RbacCache := { cache with users := cache.users.invalidateList }

end RbacCache

end AranesLms
