import AranesLms.UserRole.Referential

/-!
# Deleting a role that is in use by then

`delete_role` of `src/user_role/crud.py`, one statement at a time, on a database that enforces
foreign keys, while other calls write and delete users.  `_is_foreign_key_violation` looks at the
text of an `IntegrityError`: a user that is committed after the flush has loaded the users of the
role is reported as `RoleInUseError`, but one that is committed between the count and the flush
makes the `UPDATE` of the flush fail with another text (`always_classified_iff`).
-/

namespace AranesLms

/-- A database whose foreign keys are satisfied; it takes no other content. -/
structure ForeignKeyDatabase where
  db : Database
  hasRoles : RoleRace.HasRoles db

/-- The constraint that a statement of the deletion violates: `users.role_id` must not be `NULL`,
and must be the id of a role. -/
inductive RoleIdConstraint where
  | notNull
  | foreignKey
  deriving DecidableEq

def foreignKeyViolationMarkers : List String :=
  ["foreign key constraint failed", "violates foreign key constraint",
    "foreign key constraint fails"]

/-- `_is_foreign_key_violation`, on `str(exc.orig)`; `lower` is `str.lower`. -/
def isForeignKeyViolation (lower : String → String) (message : String) : Bool :=
  foreignKeyViolationMarkers.any fun marker => marker.toList <:+: (lower message).toList

/-- The texts of the database driver; a text about a foreign key, and no other, says so. -/
structure DatabaseDriver where
  lower : String → String
  message : RoleIdConstraint → String
  foreignKey_marked : isForeignKeyViolation lower (message .foreignKey)
  notNull_unmarked : ¬ isForeignKeyViolation lower (message .notNull)

/-- What `delete_role` raises: what it reads leads to, or an `IntegrityError` as it is. -/
inductive DeleteRoleError where
  | crudError (e : CrudError)
  | integrityError (violated : RoleIdConstraint)
  deriving DecidableEq

/-- The exceptions that `delete_role` is written to raise. -/
def DeleteRoleError.Expected : DeleteRoleError → Prop
  | .crudError .roleNotFound => True
  | .crudError (.superAdminRoleImmutable _) => True
  | .crudError (.roleInUse userCount) => 0 < userCount
  | _ => False

/-- The statement that `delete_role` comes to next: the `SELECT` of the role, the count, the load
and the `UPDATE` of its users, the `DELETE`, the commit, the count in the handler. -/
inductive DeleteRoleCall where
  | loading
  | counting
  | flushing
  | deleting
  | committing
  | recounting
  | finished (result : Except DeleteRoleError Unit)

/-- A call that writes or deletes a user, between two of its steps. -/
inductive UserCall where
  | write (call : RoleCall)
  | deleteLoaded (userId : ℕ)

namespace UserCall

/-- The first step of a call, a read; an exception ends the call. -/
def start (db : Database) : Operation → Option UserCall
  | .deleteUserAdmin userId =>
    match getUserById db userId with
    | .ok _ => some (.deleteLoaded userId)
    | .error _ => none
  | .createUserAdmin username password roleId =>
    (RoleCall.start db (.createUserAdmin username password roleId)).map .write
  | .updateUserAdmin userId username roleId =>
    (RoleCall.start db (.updateUserAdmin userId username roleId)).map .write
  | .signup username passwordHash =>
    (RoleCall.start db (.signup username passwordHash)).map .write
  | _ => none

/-- The next step of a call, without a check of foreign keys. -/
def resume (db : Database) (nid : ℕ) : UserCall → Database × Option UserCall
  | write call =>
    let (db', call') := call.resume db nid
    (db', call'.map .write)
  | deleteLoaded userId => ({ db with users := db.users.erase userId }, none)

end UserCall

namespace ForeignKeyDatabase

/-- The next step of a call; a commit that would break a foreign key fails and ends the call. -/
def resume (d : ForeignKeyDatabase) (nid : ℕ) (call : UserCall) :
    ForeignKeyDatabase × Option UserCall :=
  let (db', call') := call.resume d.db nid
  if h : RoleRace.HasRoles db' then (⟨db', h⟩, call') else (d, none)

end ForeignKeyDatabase

/-- The committed content, the call of `delete_role` and the other calls. -/
structure RoleDeletion where
  database : ForeignKeyDatabase
  call : DeleteRoleCall
  others : ℕ → Option UserCall

inductive RoleDeletionEvent where
  | delete
  | start (call : ℕ) (op : Operation)
  | resume (call nid : ℕ)

def RoleDeletionEvent.isDelete : RoleDeletionEvent → Bool
  | .delete => true
  | _ => false

namespace RoleDeletion

variable (driver : DatabaseDriver) (roleId : ℕ)

/-- The handler around the commit; the session has been rolled back. -/
def onIntegrityError (violated : RoleIdConstraint) : DeleteRoleCall :=
  if isForeignKeyViolation driver.lower (driver.message violated) then .recounting
  else .finished (.error (.integrityError violated))

/-- The end of `delete_role`, when the database accepts that the role is gone. -/
def commit (d : ForeignKeyDatabase) : ForeignKeyDatabase × DeleteRoleCall :=
  let db' := { d.db with roles := d.db.roles.erase roleId }
  if h : RoleRace.HasRoles db' then (⟨db', h⟩, .finished (.ok ()))
  else (d, onIntegrityError driver .foreignKey)

/-- The next statement of `delete_role`. -/
def deleteStep (d : ForeignKeyDatabase) : DeleteRoleCall → ForeignKeyDatabase × DeleteRoleCall
  | .loading =>
    match deleteRoleLoad d.db roleId with
    | .ok _ => (d, .counting)
    | .error e => (d, .finished (.error (.crudError e)))
  | .counting =>
    match deleteRoleCount d.db roleId with
    | .ok _ => (d, .flushing)
    | .error e => (d, .finished (.error (.crudError e)))
  | .flushing =>
    if d.db.usersOfRole roleId = [] then (d, .deleting)
    else (d, onIntegrityError driver .notNull)
  | .deleting =>
    if d.db.usersOfRole roleId = [] then (d, .committing)
    else (d, onIntegrityError driver .foreignKey)
  | .committing => commit driver roleId d
  | .recounting =>
    (d, .finished (.error (.crudError (.roleInUse (max (d.db.usersOfRole roleId).length 1)))))
  | .finished result => (d, .finished result)

def step (s : RoleDeletion) : RoleDeletionEvent → RoleDeletion
  | .delete =>
    let (d, call) := deleteStep driver roleId s.database s.call
    ⟨d, call, s.others⟩
  | .start c op =>
    { s with others := Function.update s.others c (UserCall.start s.database.db op) }
  | .resume c nid =>
    match s.others c with
    | some call =>
      let (d, call') := s.database.resume nid call
      ⟨d, s.call, Function.update s.others c call'⟩
    | none => s

/-- `delete_role` is called. -/
def init (d : ForeignKeyDatabase) : RoleDeletion := ⟨d, .loading, fun _ => none⟩

/-- What a statement of `delete_role` may do: it ends with the role removed and no user referring
to it, or with an expected exception, or not at all, and only in the first case it changes a row. -/
def Proper (d : ForeignKeyDatabase) : ForeignKeyDatabase × DeleteRoleCall → Prop
  | (d', .finished (.ok _)) => d'.db = { d.db with roles := d.db.roles.erase roleId } ∧
      ∀ user ∈ d'.db.users, user.roleId ≠ roleId
  | (d', .finished (.error e)) => e.Expected ∧ d' = d
  | (d', _) => d' = d

def Classified (s : RoleDeletion) : RoleDeletionEvent → Prop
  | .delete => (∀ result, s.call ≠ .finished result) →
      Proper roleId s.database (deleteStep driver roleId s.database s.call)
  | _ => True

/-- When the flush loads the users of the role, there is none. -/
def UnusedAtFlush (s : RoleDeletion) : RoleDeletionEvent → Prop
  | .delete => s.call = .flushing → ∀ user ∈ s.database.db.users, user.roleId ≠ roleId
  | _ => True

/-! ## One statement -/

variable {driver roleId} {d : ForeignKeyDatabase}

theorem onIntegrityError_foreignKey : onIntegrityError driver .foreignKey = .recounting :=
  if_pos driver.foreignKey_marked

theorem onIntegrityError_notNull :
    onIntegrityError driver .notNull = .finished (.error (.integrityError .notNull)) :=
  if_neg driver.notNull_unmarked

theorem expected_of_deleteRoleLoad {db : Database} {e : CrudError}
    (h : deleteRoleLoad db roleId = .error e) : (DeleteRoleError.crudError e).Expected := by
  rcases Except.bind_eq_error.1 h with h | ⟨role, -, h⟩
  · unfold getRoleById at h
    split at h <;> cases h
    trivial
  · split_ifs at h
    · cases h
      trivial
    · cases h

theorem expected_of_deleteRoleCount {db : Database} {e : CrudError}
    (h : deleteRoleCount db roleId = .error e) : (DeleteRoleError.crudError e).Expected := by
  unfold deleteRoleCount at h
  dsimp only at h
  split_ifs at h with hpos
  cases h
  exact hpos

/-- The database does not accept the removal of a role that a user refers to. -/
theorem proper_commit : Proper roleId d (commit driver roleId d) := by
  unfold commit
  dsimp only
  split_ifs with hroles
  · refine ⟨rfl, fun user huser hid => ?_⟩
    obtain ⟨role, hrole, hrid⟩ := hroles user huser
    exact (Table.mem_erase.1 hrole).2 (hrid.trans hid)
  · rw [onIntegrityError_foreignKey]
    exact rfl

/-- Of all statements only the flush can go wrong. -/
theorem proper_deleteStep_iff {call : DeleteRoleCall} (hcall : ∀ result, call ≠ .finished result) :
    Proper roleId d (deleteStep driver roleId d call) ↔
      (call = .flushing → ∀ user ∈ d.db.users, user.roleId ≠ roleId) := by
  cases call with
  | loading =>
    refine iff_of_true ?_ (fun h => nomatch h)
    rw [deleteStep]
    cases hload : deleteRoleLoad d.db roleId with
    | ok role => exact rfl
    | error e => exact ⟨expected_of_deleteRoleLoad hload, rfl⟩
  | counting =>
    refine iff_of_true ?_ (fun h => nomatch h)
    rw [deleteStep]
    cases hcount : deleteRoleCount d.db roleId with
    | ok _ => exact rfl
    | error e => exact ⟨expected_of_deleteRoleCount hcount, rfl⟩
  | flushing =>
    rw [deleteStep, forall_prop_of_true rfl, ← usersOfRole_eq_nil]
    split_ifs with hunused
    · exact iff_of_true rfl hunused
    · rw [onIntegrityError_notNull]
      exact iff_of_false And.left hunused
  | deleting =>
    refine iff_of_true ?_ (fun h => nomatch h)
    rw [deleteStep]
    split_ifs
    · exact rfl
    · rw [onIntegrityError_foreignKey]
      exact rfl
  | committing => exact iff_of_true proper_commit (fun h => nomatch h)
  | recounting => exact iff_of_true ⟨lt_max_of_lt_right zero_lt_one, rfl⟩ (fun h => nomatch h)
  | finished result => exact absurd rfl (hcall result)

/-! ## A call alone

Without other calls in between, the statements do what `deleteRole` does. -/

theorem commit_of_unused (hunused : ∀ user ∈ d.db.users, user.roleId ≠ roleId) :
    (commit driver roleId d).1.db = { d.db with roles := d.db.roles.erase roleId } ∧
      (commit driver roleId d).2 = .finished (.ok ()) := by
  have hroles : RoleRace.HasRoles { d.db with roles := d.db.roles.erase roleId } := by
    intro user huser
    obtain ⟨role, hrole, hid⟩ := d.hasRoles user huser
    exact ⟨role, Table.mem_erase.2 ⟨hrole, hid ▸ hunused user huser⟩, hid⟩
  unfold commit
  rw [dif_pos hroles]
  exact ⟨rfl, rfl⟩

/-- The state after `n` statements of `delete_role`. -/
def deleteSteps (driver : DatabaseDriver) (roleId : ℕ) :
    ℕ → ForeignKeyDatabase × DeleteRoleCall → ForeignKeyDatabase × DeleteRoleCall
  | 0, x => x
  | n + 1, (d, call) => deleteSteps driver roleId n (deleteStep driver roleId d call)

theorem deleteSteps_finished (n : ℕ) (result : Except DeleteRoleError Unit) :
    deleteSteps driver roleId n (d, .finished result) = (d, .finished result) := by
  induction n with
  | zero => rfl
  | succ n ih => exact ih

theorem deleteSteps_alone (d : ForeignKeyDatabase) :
    match deleteRole d.db roleId with
    | .ok db' => (deleteSteps driver roleId 5 (d, .loading)).1.db = db' ∧
        (deleteSteps driver roleId 5 (d, .loading)).2 = .finished (.ok ())
    | .error e => deleteSteps driver roleId 5 (d, .loading) =
        (d, .finished (.error (.crudError e))) := by
  rw [deleteSteps, deleteStep, deleteRole]
  cases deleteRoleLoad d.db roleId with
  | error e => exact deleteSteps_finished 4 _
  | ok role =>
    dsimp only [Except.ok_bind]
    rw [deleteSteps, deleteStep]
    cases hcount : deleteRoleCount d.db roleId with
    | error e => exact deleteSteps_finished 3 _
    | ok _ =>
      have hunused := deleteRoleCount_ok.1 hcount
      have hnil := usersOfRole_eq_nil.2 hunused
      simp only [Except.ok_bind, hnil, deleteRoleCommit, if_true, deleteSteps, deleteStep]
      exact commit_of_unused hunused

/-! ## Every run -/

/-- The statements that are still to come, at most. -/
def remaining : DeleteRoleCall → ℕ
  | .loading => 6
  | .counting => 5
  | .flushing => 4
  | .deleting => 3
  | .committing => 2
  | .recounting => 1
  | .finished _ => 0

theorem remaining_onIntegrityError (violated : RoleIdConstraint) :
    remaining (onIntegrityError driver violated) ≤ 1 := by
  cases violated with
  | notNull => rw [onIntegrityError_notNull]; exact Nat.zero_le _
  | foreignKey => rw [onIntegrityError_foreignKey]; exact le_rfl

theorem remaining_commit : remaining (commit driver roleId d).2 ≤ 1 := by
  unfold commit
  dsimp only
  split_ifs
  · exact Nat.zero_le _
  · exact remaining_onIntegrityError _

theorem remaining_deleteStep (d : ForeignKeyDatabase) (call : DeleteRoleCall) :
    remaining (deleteStep driver roleId d call).2 ≤ remaining call - 1 := by
  cases call with
  | loading =>
    rw [deleteStep]
    cases deleteRoleLoad d.db roleId with
    | ok role => exact le_rfl
    | error e => exact Nat.zero_le _
  | counting =>
    rw [deleteStep]
    cases deleteRoleCount d.db roleId with
    | ok _ => exact le_rfl
    | error e => exact Nat.zero_le _
  | flushing =>
    rw [deleteStep]
    split_ifs
    · exact le_rfl
    · exact (remaining_onIntegrityError _).trans (by decide)
  | deleting =>
    rw [deleteStep]
    split_ifs
    · exact le_rfl
    · exact (remaining_onIntegrityError _).trans (by decide)
  | committing => exact remaining_commit
  | recounting => exact le_rfl
  | finished result => exact le_rfl

theorem remaining_runFrom (s : RoleDeletion) (events : List RoleDeletionEvent) :
    remaining (Transition.runFrom (step driver roleId) s events).call ≤
      remaining s.call - events.countP RoleDeletionEvent.isDelete := by
  induction events generalizing s with
  | nil => exact le_rfl
  | cons e events ih =>
    refine (ih (step driver roleId s e)).trans ?_
    rw [List.countP_cons]
    cases e with
    | delete =>
      have hstep : remaining (step driver roleId s .delete).call ≤ remaining s.call - 1 :=
        remaining_deleteStep s.database s.call
      rw [RoleDeletionEvent.isDelete, if_pos rfl]
      omega
    | start c op => exact le_rfl
    | resume c nid =>
      have hcall : (step driver roleId s (.resume c nid)).call = s.call := by
        rw [step]
        split <;> rfl
      rw [hcall]
      exact le_rfl

/-- After six statements `delete_role` has ended. -/
theorem finished_runFrom (s : RoleDeletion) {events : List RoleDeletionEvent}
    (h : 6 ≤ events.countP RoleDeletionEvent.isDelete) :
    ∃ result, (Transition.runFrom (step driver roleId) s events).call = .finished result := by
  have hzero : remaining (Transition.runFrom (step driver roleId) s events).call = 0 := by
    have hrun := @remaining_runFrom driver roleId s events
    have hmax : remaining s.call ≤ 6 := by cases s.call <;> simp [remaining]
    omega
  revert hzero
  cases (Transition.runFrom (step driver roleId) s events).call with
  | finished result => exact fun _ => ⟨result, rfl⟩
  | _ => exact fun hzero => absurd hzero (by decide)

theorem classified_iff (s : RoleDeletion) (e : RoleDeletionEvent) :
    Classified driver roleId s e ↔ UnusedAtFlush roleId s e := by
  cases e with
  | delete =>
    by_cases hcall : ∃ result, s.call = .finished result
    · obtain ⟨result, hresult⟩ := hcall
      refine iff_of_true (fun hne => absurd hresult (hne result)) fun hflush => ?_
      rw [hresult] at hflush
      cases hflush
    · rw [not_exists] at hcall
      exact (imp_iff_right hcall).trans (proper_deleteStep_iff hcall)
  | _ => exact Iff.rfl

/-- In every run in which no user has the role when the flush loads its users, and in no other,
every statement of `delete_role` does what it may do; and `delete_role` always ends. -/
theorem always_classified_iff (driver : DatabaseDriver) (roleId : ℕ) (d : ForeignKeyDatabase)
    (events : List RoleDeletionEvent) :
    (Transition.Along (step driver roleId) (Classified driver roleId) (init d) events ↔
      Transition.Along (step driver roleId) (UnusedAtFlush roleId) (init d) events) ∧
    (6 ≤ events.countP RoleDeletionEvent.isDelete → ∃ result,
      (Transition.runFrom (step driver roleId) (init d) events).call = .finished result) := by
  have hstep : Classified driver roleId = UnusedAtFlush roleId :=
    funext fun s => funext fun e => propext (classified_iff s e)
  exact ⟨by rw [hstep], finished_runFrom (init d)⟩

/-! ### A user between the count and the flush -/

/-- The texts of SQLite. -/
def sqlite : DatabaseDriver where
  lower := String.toLower
  message
    | .notNull => "NOT NULL constraint failed: users.role_id"
    | .foreignKey => "FOREIGN KEY constraint failed"
  foreignKey_marked := by decide +kernel
  notNull_unmarked := by decide +kernel

/-- The seeded database, with foreign keys. -/
def seeded : ForeignKeyDatabase := ⟨seededDatabase, by decide +kernel⟩

/-- The role is counted as unused, a user is committed with it, and the flush fails with an
`IntegrityError` that is raised as it is. -/
theorem not_always_classified :
    ¬ Transition.Along (step sqlite 7) (Classified sqlite 7) (init seeded)
      [.delete, .delete, .start 0 (.createUserAdmin "plugin" "hash" 7), .resume 0 1, .delete] := by
  rintro ⟨-, -, -, -, h, -⟩
  exact (classified_iff _ _).1 h rfl ⟨1, "plugin", "hash", 7, some ∅⟩ (by decide +kernel) rfl

end RoleDeletion

end AranesLms
