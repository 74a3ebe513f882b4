import AranesLms.Auth.Crud
import AranesLms.UserRole.Cache
import AranesLms.UserRole.Requests

/-!
# The endpoints and the cache

The endpoints of `src/user_role/endpoints/` and of signup, each with what it does to the cache
after its transaction.  An endpoint runs once the dependencies of its route have admitted the
request; `deleteUser` is given the id of the actor they have found.  Between two requests an entry
of the cache may expire.
-/

namespace AranesLms

/-- The database and the cache. -/
structure App where
  db : Database
  cache : RbacCache

/-- What a `GET` asks for, and what is cached under one key. -/
inductive View where
  | roleList
  | role (roleId : ℕ)
  | userList
  | user (userId : ℕ)

/-- The body of a response. -/
inductive Response where
  | role (item : RoleResponse)
  | roleList (items : List RoleResponse)
  | user (item : UserResponse)
  | userList (items : List UserResponse)
  | registry (status role : String) (permissions : PermissionMap)
  | updated (count : ℕ)
  | message (text : String)
  | accessToken (payload : TokenPayload)
  | noContent
  deriving DecidableEq

namespace App

variable (s : App)

/-! ## Reads -/

def listRoles : Except HttpException Response × App :=
  match s.cache.getRoleList with
  | (some items, cache) => (.ok (.roleList items), { s with cache })
  | (none, cache) =>
    let serializedRoles := (AranesLms.listRoles s.db).map serializeRole
    (.ok (.roleList serializedRoles), { s with cache := cache.setRoleList serializedRoles })

def getRole (roleId : ℕ) : Except HttpException Response × App :=
  match s.cache.getRole roleId with
  | (some item, cache) => (.ok (.role item), { s with cache })
  | (none, cache) =>
    match getRoleById s.db roleId with
    | .ok role =>
      let serializedRole := serializeRole role
      (.ok (.role serializedRole), { s with cache := cache.setRole roleId serializedRole })
    | .error e => (.error (httpError e), { s with cache })

def listUsers : Except HttpException Response × App :=
  match s.cache.getUserList with
  | (some items, cache) => (.ok (.userList items), { s with cache })
  | (none, cache) =>
    let serializedUsers := (AranesLms.listUsers s.db).map serializeUser
    (.ok (.userList serializedUsers), { s with cache := cache.setUserList serializedUsers })

def getUser (userId : ℕ) : Except HttpException Response × App :=
  match s.cache.getUser userId with
  | (some item, cache) => (.ok (.user item), { s with cache })
  | (none, cache) =>
    match getUserById s.db userId with
    | .ok user =>
      let serializedUser := serializeUser user
      (.ok (.user serializedUser), { s with cache := cache.setUser userId serializedUser })
    | .error e => (.error (httpError e), { s with cache })

def get : View → Except HttpException Response × App
  | .roleList => s.listRoles
  | .role roleId => s.getRole roleId
  | .userList => s.listUsers
  | .user userId => s.getUser userId

/-! ## Writes -/

/-- The end of an endpoint that writes: an exception of the transaction is translated, and after
a success the cache is brought up to date. -/
def respond {α : Type} (result : Except CrudError (α × Database))
    (body : α → Except HttpException Response) (refresh : α → RbacCache) :
    Except HttpException Response × App :=
  match result with
  | .ok (a, db) => (body a, ⟨db, refresh a⟩)
  | .error e => (.error (httpError e), s)

def createRole (nid : ℕ) (name titleKey : String) : Except HttpException Response × App :=
  s.respond (AranesLms.createRole s.db nid name titleKey)
    (fun role => .ok (.role (serializeRole role)))
    fun role => s.cache.invalidateRoleList.setRole role.id (serializeRole role)

def updateRole (roleId : ℕ) (name titleKey : Option String) :
    Except HttpException Response × App :=
  s.respond (AranesLms.updateRole s.db roleId name titleKey)
    (fun role => .ok (.role (serializeRole role)))
    fun role => s.cache.invalidateRoleList.setRole roleId (serializeRole role)

def deleteRole (roleId : ℕ) : Except HttpException Response × App :=
  s.respond (Prod.mk () <$> AranesLms.deleteRole s.db roleId) (fun _ => .ok .noContent)
    fun _ => (s.cache.invalidateRole roleId).invalidateRoleList

def patchRolePermissions (roleId : ℕ) (permissions : PermissionPatch) :
    Except HttpException Response × App :=
  s.respond (AranesLms.patchRolePermissions s.db roleId permissions)
    (fun role => .ok (.role (serializeRole role)))
    fun role => s.cache.invalidateRoleList.setRole roleId (serializeRole role)

def resetRolePermissions : Except HttpException Response × App :=
  let roles := AranesLms.listRoles s.db
  s.respond (.ok (AranesLms.resetRolePermissions s.db)) (fun count => .ok (.updated count))
    fun _ => s.cache.invalidateRoles
      ((roles.filter fun role => ¬ isSuperadminRole role).map Role.id) true

/-- `registry_roles_once_if_not_exist`. -/
def registryRolesOnceIfNotExist (name : String) (permissions : PermissionPatch) :
    Except HttpException Response × App :=
  s.respond (createOrAppendRolePermissionsNoOverwrite s.db name permissions)
    (fun role => .ok (.registry "updated" role.name role.perms))
    fun role => (s.cache.invalidateRole role.id).invalidateRoleList

def createUser (nid : ℕ) (username password : String) (roleId : ℕ) :
    Except HttpException Response × App :=
  s.respond (createUserAdmin s.db nid username password roleId)
    (fun user => .ok (.user (serializeUser user)))
    fun user => s.cache.invalidateUserList.setUser user.id (serializeUser user)

def updateUser (userId : ℕ) (username : Option String) (roleId : Option ℕ) :
    Except HttpException Response × App :=
  s.respond (updateUserAdmin s.db userId username roleId)
    (fun user => .ok (.user (serializeUser user)))
    fun user => s.cache.invalidateUserList.setUser userId (serializeUser user)

def setUserPassword (userId : ℕ) (password : String) : Except HttpException Response × App :=
  s.respond (setUserPasswordAdmin s.db userId password)
    (fun _ => .ok (.message "Password updated"))
    fun _ => s.cache.invalidateUser userId

def deleteUser (actorId userId : ℕ) : Except HttpException Response × App :=
  if actorId = userId then (.error ⟨403, "Self-delete is not allowed"⟩, s)
  else
    s.respond (Prod.mk () <$> deleteUserAdmin s.db userId) (fun _ => .ok .noContent)
      fun _ => (s.cache.invalidateUser userId).invalidateUserList

def patchUserPermissions (userId : ℕ) (permissions : PermissionPatch) :
    Except HttpException Response × App :=
  s.respond (AranesLms.patchUserPermissions s.db userId permissions)
    (fun user => .ok (.user (serializeUser user)))
    fun user => s.cache.invalidateUserList.setUser userId (serializeUser user)

def resetUserPermissions : Except HttpException Response × App :=
  let users := AranesLms.listUsers s.db
  s.respond (.ok (AranesLms.resetUserPermissions s.db)) (fun count => .ok (.updated count))
    fun _ => s.cache.invalidateUsers (users.map User.id) true

/-- The token in the response to `signup`. -/
def signupToken (user : User) : Except HttpException Response :=
  match issueAccessToken user.username (some user.id) with
  | .ok payload => .ok (.accessToken payload)
  | .error _ => .error ⟨500, "Internal Server Error"⟩

/-- `signup` leaves the cache alone. -/
def signup (nid : ℕ) (username passwordHash : String) : Except HttpException Response × App :=
  s.respond (AranesLms.signup s.db nid username passwordHash) signupToken fun _ => s.cache

end App

/-! ## Requests -/

inductive ApiRequest where
  | get (view : View)
  | createRole (name titleKey : String)
  | updateRole (roleId : ℕ) (name titleKey : Option String)
  | deleteRole (roleId : ℕ)
  | patchRolePermissions (roleId : ℕ) (permissions : PermissionPatch)
  | resetRolePermissions
  | registryRolesOnceIfNotExist (name : String) (permissions : PermissionPatch)
  | createUser (username password : String) (roleId : ℕ)
  | updateUser (userId : ℕ) (username : Option String) (roleId : Option ℕ)
  | setUserPassword (userId : ℕ) (password : String)
  | deleteUser (actorId userId : ℕ)
  | patchUserPermissions (userId : ℕ) (permissions : PermissionPatch)
  | resetUserPermissions
  | signup (username passwordHash : String)

/-- The response to a request and the state after it; `nid` is the id of an inserted row. -/
def App.serve (nid : ℕ) (s : App) : ApiRequest → Except HttpException Response × App
  | .get view => s.get view
  | .createRole name titleKey => s.createRole nid name titleKey
  | .updateRole roleId name titleKey => s.updateRole roleId name titleKey
  | .deleteRole roleId => s.deleteRole roleId
  | .patchRolePermissions roleId permissions => s.patchRolePermissions roleId permissions
  | .resetRolePermissions => s.resetRolePermissions
  | .registryRolesOnceIfNotExist name permissions => s.registryRolesOnceIfNotExist name permissions
  | .createUser username password roleId => s.createUser nid username password roleId
  | .updateUser userId username roleId => s.updateUser userId username roleId
  | .setUserPassword userId password => s.setUserPassword userId password
  | .deleteUser actorId userId => s.deleteUser actorId userId
  | .patchUserPermissions userId permissions => s.patchUserPermissions userId permissions
  | .resetUserPermissions => s.resetUserPermissions
  | .signup username passwordHash => s.signup nid username passwordHash

/-- Redis drops an entry. -/
def RbacCache.expire (cache : RbacCache) : View → RbacCache
  | .roleList => cache.invalidateRoleList
  | .role roleId => cache.invalidateRole roleId
  | .userList => cache.invalidateUserList
  | .user userId => cache.invalidateUser userId

/-- A request, or the expiry of a cache entry. -/
inductive AppEvent where
  | request (nid : ℕ) (r : ApiRequest)
  | expire (view : View)

/-- One step of the application, with the response it sends. -/
def App.handle (s : App) : AppEvent → Option (Except HttpException Response) × App
  | .request nid r => (some (s.serve nid r).1, (s.serve nid r).2)
  | .expire view => (none, { s with cache := s.cache.expire view })

def App.step (s : App) (e : AppEvent) : App := (s.handle e).2

end AranesLms
