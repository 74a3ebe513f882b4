import AranesLms.I18n.Endpoints
import AranesLms.Lib.Program
import AranesLms.UserRole.Endpoints

/-!
# Endpoints as programs

An endpoint is a program over the database and Redis: it waits at each query, at the commit and at
each Redis command, and between two of these other requests go on.  Here a row of a translation
table holds a map of texts, and what Redis holds is a `Payload` under the string that the source
builds.

Most endpoints are made of three parts: `query` is a read whose exception ends the request, `submit`
a commit whose exception does, and `cached` the body of a `GET`.
-/

namespace AranesLms

variable {ω : Type} {kind : TranslationKind}

/-! ## Translations by kind -/

/-- The map as a JSON object. -/
def TranslationMap.toData (m : TranslationMap) : TranslationData ω where
  entries := m.entries.map fun e => ⟨e.1, .text e.2⟩
  nodupKeys := by
    rw [← Multiset.nodup_keys, Multiset.keys, Multiset.map_map]
    exact Multiset.nodup_keys.2 m.nodupKeys

/-- `serialize_small` and `serialize_large` of a row with a map. -/
def serializeTranslationMap (key : kind.Key) (m : TranslationMap) : TranslationItem ω kind :=
  serializeTranslation key (some m.toData)

namespace Database

variable (db : Database)

/-- `get_small_optional` and `get_large_optional`. -/
def translation? : (kind : TranslationKind) → kind.Key → Option TranslationMap
  | .small, key => getSmallOptional db key
  | .large, key => getLargeOptional db (ofLex key).1 (ofLex key).2

/-- `list_small` and `list_large`. -/
def translations : (kind : TranslationKind) → List (kind.Key × TranslationMap)
  | .small => listSmall db
  | .large => (listLarge db).map fun (key, m) => (toLex key, m)

/-- The commit of `upsert_small` and `upsert_large`. -/
def writeTranslation :
    (kind : TranslationKind) → kind.Key → Option TranslationMap → TranslationMap →
      Except CrudError Database
  | .small, key => writeSmall db key
  | .large, key => writeLarge db (ofLex key).1 (ofLex key).2

end Database

/-! ## Payloads -/

/-- `build_role_cache_key`. -/
def roleCacheKey (roleId : ℕ) : String := "rbac:role:" ++ toString roleId

/-- `build_role_list_cache_key`. -/
def roleListCacheKey : String := "rbac:role:list"

/-- `build_user_cache_key`. -/
def userCacheKey (userId : ℕ) : String := "rbac:user:" ++ toString userId

/-- `build_user_list_cache_key`. -/
def userListCacheKey : String := "rbac:user:list"

/-- What is stored in Redis. -/
inductive Payload where
  | role (item : RoleResponse)
  | roleList (items : List RoleResponse)
  | user (item : UserResponse)
  | userList (items : List UserResponse)
  | translation (payload : TranslationPayload Empty)

namespace Payload

/-- The key that the payload is stored under. -/
def cacheKey : Payload → String
  | role item => roleCacheKey item.id
  | roleList _ => roleListCacheKey
  | user item => userCacheKey item.id
  | userList _ => userListCacheKey
  | translation (.item kind item) => kind.cacheKey item.key
  | translation (.items kind _) => kind.listCacheKey

/-- The payload is the serialisation of the present rows. -/
def Current (db : Database) : Payload → Prop
  | role item => ∃ role ∈ db.roles, serializeRole role = item
  | roleList items => items = (listRoles db).map serializeRole
  | user item => ∃ user ∈ db.users, serializeUser user = item
  | userList items => items = (listUsers db).map serializeUser
  | translation (.item kind item) =>
    (db.translation? kind item.key).map (serializeTranslationMap item.key) = some item
  | translation (.items kind items) =>
    items = (db.translations kind).map fun (key, m) => serializeTranslationMap key m

/-! ### Normalisation of what is read from Redis -/

/-- `_normalize_role_item`. -/
def normalizeRole (roleId : ℕ) : Payload → Option RoleResponse
  | role item => if item.id = roleId then some item else none
  | _ => none

/-- `_normalize_role_list`. -/
def normalizeRoleList : Payload → Option (List RoleResponse)
  | roleList items =>
    if ViewCache.idsAreStrictlyIncreasing none (items.map RoleResponse.id) then some items else none
  | _ => none

/-- `_normalize_user_item`. -/
def normalizeUser (userId : ℕ) : Payload → Option UserResponse
  | user item => if item.id = userId then some item else none
  | _ => none

/-- `_normalize_user_list`. -/
def normalizeUserList : Payload → Option (List UserResponse)
  | userList items =>
    if ViewCache.idsAreStrictlyIncreasing none (items.map UserResponse.id) then some items else none
  | _ => none

/-- `_normalize_small_item` and `_normalize_large_item`. -/
def normalizeTranslation (key : kind.Key) : Payload → Option (TranslationItem Empty kind)
  | translation payload => normalizeItem payload key
  | _ => none

/-- `_normalize_small_list` and `_normalize_large_list`. -/
def normalizeTranslationList (kind : TranslationKind) :
    Payload → Option (List (TranslationItem Empty kind))
  | translation payload => (payload.items? kind).bind normalizeList
  | _ => none

end Payload

/-! ## Views that a commit changes -/

section Changed

variable {db : Database} {b : Payload}

theorem changed_of_roles {roles : RoleTable} {roleId : ℕ}
    (h : ∀ role ∈ db.roles, role.id ≠ roleId → role ∈ roles) (hb : b.Current db)
    (hb' : ¬ b.Current { db with roles }) :
    b.cacheKey = roleCacheKey roleId ∨ b.cacheKey = roleListCacheKey := by
  cases b with
  | role item =>
    obtain ⟨role, hrole, rfl⟩ := hb
    by_cases hid : role.id = roleId
    · exact Or.inl (congrArg roleCacheKey hid)
    · exact absurd ⟨role, h role hrole hid, rfl⟩ hb'
  | roleList items => exact Or.inr rfl
  | user item => exact absurd hb hb'
  | userList items => exact absurd hb hb'
  | translation payload =>
    rcases payload with ⟨_ | _, item⟩ | ⟨_ | _, items⟩ <;> exact absurd hb hb'

theorem changed_of_users {users : UserTable} {userId : ℕ}
    (h : ∀ user ∈ db.users, user.id ≠ userId → user ∈ users) (hb : b.Current db)
    (hb' : ¬ b.Current { db with users }) :
    b.cacheKey = userCacheKey userId ∨ b.cacheKey = userListCacheKey := by
  cases b with
  | role item => exact absurd hb hb'
  | roleList items => exact absurd hb hb'
  | user item =>
    obtain ⟨user, huser, rfl⟩ := hb
    by_cases hid : user.id = userId
    · exact Or.inl (congrArg userCacheKey hid)
    · exact absurd ⟨user, h user huser hid, rfl⟩ hb'
  | userList items => exact Or.inr rfl
  | translation payload =>
    rcases payload with ⟨_ | _, item⟩ | ⟨_ | _, items⟩ <;> exact absurd hb hb'

end Changed

/-! ## Programs -/

/-- The body of a response of either API. -/
inductive Reply where
  | rbac (response : Response)
  | i18n (response : TranslationResponse Empty)

abbrev ApiProgram := Program Database String Payload CrudError (Except HttpException Reply)

abbrev ApiStore := Store Database String Payload

abbrev ApiCommand := Command String Payload

/-- The response to a result of the CRUD layer. -/
def crudResult {α : Type} : Except CrudError α → Except HttpException α
  | .ok a => .ok a
  | .error e => .error (httpError e)

@[simp] theorem crudResult_ok {α : Type} {x : Except CrudError α} {a : α} :
    crudResult x = .ok a ↔ x = .ok a := by
  cases x <;> simp [crudResult]

@[simp] theorem crudResult_pure {α : Type} (a : α) :
    crudResult (pure a : Except CrudError α) = .ok a := rfl

namespace ApiProgram

variable {α : Type}

/-- A read of the database; an exception ends the request. -/
def query (f : Database → Except HttpException α) (next : α → ApiProgram) : ApiProgram :=
  .read fun db =>
    match f db with
    | .ok a => next a
    | .error e => .done (.error e)

/-- A commit; an exception ends the request. -/
def submit (f : Database → Except CrudError Database) (next : ApiProgram) : ApiProgram :=
  .commit f fun result =>
    match result with
    | .ok _ => next
    | .error e => .done (.error (httpError e))

/-- The answer computed from the database and stored. -/
def fill (cacheKey : String) (load : Database → Except HttpException α) (payload : α → Payload)
    (reply : α → Reply) : ApiProgram :=
  query load fun a => .set cacheKey (payload a) (.done (.ok (reply a)))

/-- The body of a `GET`: an entry that passes its check is the answer, and one that fails it is
dropped. -/
def cached (cacheKey : String) (normalize : Payload → Option α)
    (load : Database → Except HttpException α) (payload : α → Payload) (reply : α → Reply) :
    ApiProgram :=
  .get cacheKey fun entry =>
    match entry with
    | none => fill cacheKey load payload reply
    | some p =>
      match normalize p with
      | some a => .done (.ok (reply a))
      | none => .delete [cacheKey] (fill cacheKey load payload reply)

end ApiProgram

end AranesLms
