import AranesLms.Auth.Tokens
import AranesLms.Http
import AranesLms.UserRole.Models
import AranesLms.Lib.Except

/-!
# The account behind a token

The dependencies of `src/user_role/middlewares.py` that turn the payload of an access token into
a user with its role or into a `CurrentActor`, for a request that has not resolved its token
before.
-/

namespace AranesLms

structure CurrentActor where
  userId : ℕ
  roleId : ℕ
  effectivePermissions : PermissionMap
  deriving DecidableEq

/-- The number a string claim stands for when it consists of the digits `0` to `9`.  The tokens that
`issue_access_token` makes carry an integer or no `uid` at all. -/
def parseDigits (s : String) : Option ℕ :=
  let cs := (strip s).toList
  if cs ≠ [] ∧ cs.all Char.isDigit then
    some (cs.foldl (fun n c => 10 * n + (c.toNat - '0'.toNat)) 0)
  else none

/-- `_resolve_token_user_id`; in Python `True` is the integer 1. -/
def resolveTokenUserId (payload : TokenPayload) : Except HttpException (Option ℕ) :=
  match payload.uid with
  | none => .ok none
  | some (.int n) =>
    if 0 < n then .ok (some n.toNat) else .error ⟨401, "Invalid token user id"⟩
  | some (.bool true) => .ok (some 1)
  | some (.str s) =>
    match parseDigits s with
    | some n => if 0 < n then .ok (some n) else .error ⟨401, "Invalid token user id"⟩
    | none => .error ⟨401, "Invalid token user id"⟩
  | some _ => .error ⟨401, "Invalid token user id"⟩

/-- `_resolve_token_username`. -/
def resolveTokenUsername (payload : TokenPayload) : Except HttpException String :=
  match payload.sub with
  | some (.str s) => if s = "" then .error ⟨401, "Invalid token subject"⟩ else .ok s
  | _ => .error ⟨401, "Invalid token subject"⟩

section

variable (db : Database)

/-- `SELECT … FROM users JOIN roles ON roles.id = users.role_id`, for one user. -/
def joinRole (user : Option User) : Option (User × Role) :=
  user.bind fun user => (db.role? user.roleId).map fun role => (user, role)

/-- The `WHERE` clause that both dependencies build: by user id, or by name without one. -/
def findTokenUser (payload : TokenPayload) : Except HttpException (Option User) := do
  match ← resolveTokenUserId payload with
  | some userId => return db.user? userId
  | none => return db.users.findBy? (← resolveTokenUsername payload)

/-- The query that both dependencies make. -/
def findTokenAccount (payload : TokenPayload) : Except HttpException (User × Role) := do
  let user ← findTokenUser db payload
  match joinRole db user with
  | some pair => return pair
  | none => throw ⟨401, "User not found"⟩

def getCurrentUserWithRole (payload : TokenPayload) : Except HttpException (User × Role) :=
  findTokenAccount db payload

def getCurrentActor (payload : TokenPayload) : Except HttpException CurrentActor := do
  let (user, role) ← findTokenAccount db payload
  return ⟨user.id, role.id, buildEffectivePermissions user.permissions role.permissions⟩

end

/-- `require_permission(permission_key)`, applied to the current actor. -/
def requirePermission (permissionKey : String) (actor : CurrentActor) :
    Except HttpException CurrentActor :=
  if actor.effectivePermissions.allows permissionKey then .ok actor
  else .error ⟨403, .text ("Missing permission: " ++ permissionKey)⟩

/-! ## Tokens with a user id -/

theorem findTokenAccount_of_uid {db : Database} {payload : TokenPayload} {i : ℕ} (hi : 0 < i)
    (h : payload.uid = some (.int i)) :
    findTokenAccount db payload =
      match joinRole db (db.user? i) with
      | some pair => .ok pair
      | none => .error ⟨401, "User not found"⟩ := by
  have hres : resolveTokenUserId payload = .ok (some i) := by
    rw [resolveTokenUserId, h]
    exact if_pos (Int.natCast_pos.2 hi)
  have hfind : findTokenUser db payload = .ok (db.user? i) := by
    rw [findTokenUser, hres]
    rfl
  rw [findTokenAccount, hfind, Except.ok_bind]
  cases joinRole db (db.user? i) <;> rfl

theorem joinRole_eq_some {db : Database} {i : ℕ} {user : User} {role : Role} :
    joinRole db (db.user? i) = some (user, role) ↔
      (user ∈ db.users ∧ user.id = i) ∧ role ∈ db.roles ∧ role.id = user.roleId := by
  simp only [joinRole, Option.bind_eq_some_iff, Option.map_eq_some_iff, Database.user?,
    Database.role?, Table.find?_eq_some, Prod.mk.injEq]
  constructor
  · rintro ⟨u, hu, r, hr, rfl, rfl⟩
    exact ⟨hu, hr⟩
  · rintro ⟨hu, hr⟩
    exact ⟨user, hu, role, hr, rfl, rfl⟩

/-- A token that carries a user id resolves to the user with this id, if its role exists. -/
theorem findTokenAccount_ok {db : Database} {payload : TokenPayload} {i : ℕ} (hi : 0 < i)
    (h : payload.uid = some (.int i)) {user : User} {role : Role} :
    findTokenAccount db payload = .ok (user, role) ↔
      (user ∈ db.users ∧ user.id = i) ∧ role ∈ db.roles ∧ role.id = user.roleId := by
  rw [findTokenAccount_of_uid hi h, ← joinRole_eq_some]
  cases joinRole db (db.user? i) <;> simp

theorem findTokenAccount_error {db : Database} {payload : TokenPayload} {i : ℕ} (hi : 0 < i)
    (h : payload.uid = some (.int i)) (hno : ∀ user ∈ db.users, user.id ≠ i) :
    findTokenAccount db payload = .error ⟨401, "User not found"⟩ := by
  have hjoin : joinRole db (db.user? i) = none := by
    rw [Database.user?, Table.find?_eq_none.2 hno]
    rfl
  rw [findTokenAccount_of_uid hi h, hjoin]

theorem getCurrentActor_ok {db : Database} {payload : TokenPayload} {actor : CurrentActor}
    (h : getCurrentActor db payload = .ok actor) :
    ∃ user role, findTokenAccount db payload = .ok (user, role) ∧ actor.userId = user.id := by
  simp only [getCurrentActor, Except.bind_eq_ok] at h
  obtain ⟨⟨user, role⟩, hf, h⟩ := h
  cases h
  exact ⟨user, role, hf, rfl⟩

end AranesLms
