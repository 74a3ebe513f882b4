import AranesLms.UserRole.Middlewares
import AranesLms.UserRole.Operations

/-!
# Requests to the RBAC API

The part of the endpoints of `src/user_role/endpoints/` around the CRUD functions: the permission
an endpoint requires of the current actor, the refusal to delete oneself, and the translation of
exceptions.
-/

namespace AranesLms

/-- The permission that the endpoint of an operation requires.  Signup has an open endpoint and a
start is no request. -/
def Operation.requiredPermission : Operation → Option String
  | .createRole .. => some rbacRolesCreate
  | .updateRole .. => some rbacRolesUpdate
  | .deleteRole .. => some rbacRolesDelete
  | .patchRolePermissions .. | .resetRolePermissions | .appendRolePermissions ..
  | .patchUserPermissions .. | .resetUserPermissions => some rbacCanManagePermissions
  | .createUserAdmin .. => some rbacUsersCreate
  | .updateUserAdmin .. | .setUserPasswordAdmin .. | .deleteUserAdmin .. => some rbacUsersManage
  | .signup .. | .runBootstrapSeeding .. => none

/-- The response to an exception of the CRUD layer. -/
def httpError (e : CrudError) : HttpException :=
  match e with
  | .roleNotFound | .userNotFound => ⟨404, e.detail⟩
  | .roleAlreadyExists | .usernameAlreadyExists => ⟨409, e.detail⟩
  | .roleInUse n => ⟨409, .userCount e.detail n⟩
  | .duplicatePermissionKeys keys => ⟨409, .duplicateKeys e.detail keys⟩
  | .superAdminRoleImmutable _ => ⟨403, e.detail⟩
  | .invalidPermissionPatch .. => ⟨400, e.detail⟩
  | .integrityError _ | .runtimeError _ => ⟨500, "Internal Server Error"⟩

/-- The check of `delete_user`. -/
def checkSelfDelete (actor : CurrentActor) : Operation → Except HttpException Unit
  | .deleteUserAdmin userId =>
    if actor.userId = userId then .error ⟨403, "Self-delete is not allowed"⟩ else .ok ()
  | _ => .ok ()

/-- A request with the token `payload` to the endpoint of `op`. -/
def request (nid : ℕ) (db : Database) (payload : TokenPayload) (op : Operation) :
    Except HttpException Database := do
  match op.requiredPermission with
  | none => throw ⟨404, "Not Found"⟩
  | some permissionKey =>
    let actor ← requirePermission permissionKey (← getCurrentActor db payload)
    checkSelfDelete actor op
    match op.run nid db with
    | .ok db' => return db'
    | .error e => throw (httpError e)

theorem requirePermission_ok {key : String} {actor actor' : CurrentActor} :
    requirePermission key actor = .ok actor' ↔
      actor.effectivePermissions.allows key ∧ actor' = actor := by
  unfold requirePermission
  split_ifs with h <;> simp [h, eq_comm]

/-- What an accepted request has passed. -/
theorem request_ok {nid : ℕ} {db db' : Database} {payload : TokenPayload} {op : Operation} :
    request nid db payload op = .ok db' ↔
      ∃ key actor, op.requiredPermission = some key ∧ getCurrentActor db payload = .ok actor ∧
        actor.effectivePermissions.allows key ∧ checkSelfDelete actor op = .ok () ∧
        op.run nid db = .ok db' := by
  unfold request
  cases hkey : op.requiredPermission with
  | none => simp
  | some key =>
    simp only [Except.bind_eq_ok, requirePermission_ok]
    constructor
    · rintro ⟨actor, hactor, actor', ⟨hallows, hact⟩, _, hself, h⟩
      rw [hact] at hself
      cases hrun : op.run nid db with
      | error e => simp [hrun] at h
      | ok db₁ =>
        simp only [hrun, Except.pure_eq_ok] at h
        exact ⟨key, actor, rfl, hactor, hallows, hself, by rw [h]⟩
    · rintro ⟨_, actor, hk, hactor, hallows, hself, h⟩
      cases hk
      exact ⟨actor, hactor, actor, ⟨hallows, rfl⟩, (), hself, by rw [h]; rfl⟩

end AranesLms
