import AranesLms.Lib.Session
import AranesLms.UserRole.CrudSpec

/-!
# The outcome of updating a user

`update_user_admin` of `src/user_role/crud.py` in the session that `get_db_session` opens for it.
The new username is pending when the role is looked up, so that the query flushes it: a username
that is taken is then reported by the query, outside the `try` block of the commit.
`specified_iff`: this is the only way in which the function fails its specification.
-/

namespace AranesLms

namespace UserUpdate

/-- The `UPDATE` of the columns of the loaded user that have been set. -/
def changes (userId : ℕ) : UnitOfWork Database UserChanges Violation where
  clean := ⟨none, none⟩
  write changes db :=
    match db.users.modify userId changes.apply with
    | .ok users => .ok { db with users }
    | .error v => .error v

abbrev UserSession (α : Type) := SessionM Database UserChanges CrudError α

/-- The handler around the commit. -/
def translateIntegrityError (userId : ℕ) (e : CrudError) : UserSession Unit := do
  SessionM.rollback (changes userId)
  match e with
  | .integrityError v => SessionM.raise (userIntegrity v)
  | e => SessionM.raise e

/-- The attributes that are set on the loaded user, with the query for the role between them. -/
def setAttributes (user : User) (username : Option String) (roleId : Option ℕ) :
    UserSession Unit := do
  SessionM.change fun c => { c with username := username.filter (· ≠ user.username) }
  match roleId with
  | some rid => do
    SessionM.query (changes user.id) .integrityError (requireRole · rid)
    SessionM.change fun c => { c with roleId := roleId.filter (· ≠ user.roleId) }
  | none => pure ()

def updateUserAdmin (userId : ℕ) (username : Option String) (roleId : Option ℕ) :
    UserSession User := do
  let user ← SessionM.query (changes userId) .integrityError (getUserById · userId)
  setAttributes user username roleId
  (SessionM.commit (changes userId) .integrityError).handle (translateIntegrityError userId)
  return (userChanges user username roleId).apply user

/-- A request for an update, in a session of its own. -/
def request (db : Database) (userId : ℕ) (username : Option String) (roleId : Option ℕ) :
    Except CrudError User × Database :=
  SessionM.scope (changes userId) (updateUserAdmin userId username roleId) db

/-! ## The session and the database -/

section

variable {db : Database} {userId : ℕ} {username : Option String} {roleId : Option ℕ}

theorem write_ok {c : UserChanges} {users : UserTable}
    (h : db.users.modify userId c.apply = .ok users) :
    (changes userId).write c db = .ok { db with users } := by
  rw [changes]
  dsimp only
  rw [h]

theorem write_error {c : UserChanges} {v : Violation}
    (h : db.users.modify userId c.apply = .error v) : (changes userId).write c db = .error v := by
  rw [changes]
  dsimp only
  rw [h]

theorem write_clean (db : Database) :
    (changes userId).write (changes userId).clean db = .ok db :=
  write_ok (Table.modify_eq_self fun _ _ _ => rfl)

/-- The end of the function, from the commit on. -/
theorem run_commit {s : Session Database UserChanges} (user : User) (hs : s.committed = db) :
    ((SessionM.commit (changes userId) .integrityError).handle (translateIntegrityError userId) >>=
        fun _ => (pure user : UserSession User)).run s =
      match (changes userId).write s.pending s.working with
      | .ok db' => (.ok user, ⟨db', db', (changes userId).clean⟩)
      | .error v => (.error (userIntegrity v), ⟨db, db, (changes userId).clean⟩) := by
  cases hwrite : (changes userId).write s.pending s.working with
  | ok db' => exact SessionM.run_bind_ok (SessionM.run_handle_ok (SessionM.run_commit_ok hwrite))
  | error v =>
    rw [← hs]
    exact SessionM.run_bind_error (SessionM.run_handle_error (SessionM.run_commit_error hwrite))

/-- The end of the function with the changes `c` pending on the content `db₁`. -/
theorem scope_commit {user : User} {db₁ : Database} {c : UserChanges}
    (hload : (SessionM.query (changes user.id) .integrityError (getUserById · user.id)).run
      ⟨db, db, (changes user.id).clean⟩ = (.ok user, ⟨db, db, (changes user.id).clean⟩))
    (hset : (setAttributes user username roleId).run ⟨db, db, (changes user.id).clean⟩ =
      (.ok (), ⟨db, db₁, c⟩)) :
    request db user.id username roleId =
      match (changes user.id).write c db₁ with
      | .ok db' => (.ok ((userChanges user username roleId).apply user), db')
      | .error v => (.error (userIntegrity v), db) := by
  have hrun : (updateUserAdmin user.id username roleId).run ⟨db, db, (changes user.id).clean⟩ =
      match (changes user.id).write c db₁ with
      | .ok db' => (.ok ((userChanges user username roleId).apply user),
          ⟨db', db', (changes user.id).clean⟩)
      | .error v => (.error (userIntegrity v), ⟨db, db, (changes user.id).clean⟩) := by
    refine (SessionM.run_bind_ok hload).trans ?_
    refine (SessionM.run_bind_ok hset).trans ?_
    exact run_commit _ rfl
  rw [request, SessionM.scope_eq hrun]
  cases (changes user.id).write c db₁ <;> rfl

/-- The function does not come to its commit. -/
theorem request_of_error {user : User} {e : CrudError} {s : Session Database UserChanges}
    (hload : (SessionM.query (changes user.id) .integrityError (getUserById · user.id)).run
      ⟨db, db, (changes user.id).clean⟩ = (.ok user, ⟨db, db, (changes user.id).clean⟩))
    (hset : (setAttributes user username roleId).run ⟨db, db, (changes user.id).clean⟩ =
      (.error e, s)) :
    request db user.id username roleId = (.error e, s.committed) := by
  have hrun : (updateUserAdmin user.id username roleId).run ⟨db, db, (changes user.id).clean⟩ =
      (.error e, s) := by
    refine (SessionM.run_bind_ok hload).trans ?_
    exact SessionM.run_bind_error hset
  exact SessionM.scope_eq hrun

/-- The role is looked up with the username pending. -/
theorem run_setAttributes_some (user : User) (rid : ℕ) :
    (setAttributes user username (some rid)).run ⟨db, db, (changes user.id).clean⟩ =
      (SessionM.query (changes user.id) .integrityError (requireRole · rid) >>= fun _ =>
        SessionM.change fun c => { c with roleId := (some rid).filter (· ≠ user.roleId) }).run
        ⟨db, db, userChanges user username none⟩ := rfl

theorem request_eq : request db userId username roleId =
    match AranesLms.updateUserAdmin db userId username roleId with
    | .ok (user, db') => (.ok user, db')
    | .error e => (.error e, db) := by
  have hload : (SessionM.query (changes userId) .integrityError (getUserById · userId)).run
      ⟨db, db, (changes userId).clean⟩ =
        (getUserById db userId, ⟨db, db, (changes userId).clean⟩) :=
    SessionM.run_query_ok (write_clean db) _
  rw [AranesLms.updateUserAdmin]
  cases huser : getUserById db userId with
  | error e =>
    rw [huser] at hload
    exact SessionM.scope_eq (SessionM.run_bind_error hload)
  | ok user =>
    rw [huser] at hload
    obtain ⟨-, rfl⟩ := getUserById_ok.1 huser
    cases roleId with
    | none =>
      have hset : (setAttributes user username none).run ⟨db, db, (changes user.id).clean⟩ =
          (.ok (), ⟨db, db, userChanges user username none⟩) := rfl
      rw [scope_commit hload hset]
      simp only [Except.ok_bind, writeUserChanges, commitUsers, changes]
      cases db.users.modify user.id (userChanges user username none).apply <;> rfl
    | some rid =>
      rw [Except.ok_bind]
      dsimp only
      rw [flushThenRequireRole]
      cases hflush : db.users.modify user.id
          ({ userChanges user username (some rid) with roleId := none } : UserChanges).apply with
      | error v =>
        have hwrite : (changes user.id).write (userChanges user username none) db = .error v :=
          write_error hflush
        have hset : (setAttributes user username (some rid)).run
            ⟨db, db, (changes user.id).clean⟩ =
              (.error (.integrityError v), ⟨db, db, userChanges user username none⟩) :=
          (run_setAttributes_some user rid).trans
            (SessionM.run_bind_error (SessionM.run_query_error hwrite _))
        exact request_of_error hload hset
      | ok users =>
        have hwrite : (changes user.id).write (userChanges user username none) db =
            .ok { db with users } := write_ok hflush
        have hquery : (SessionM.query (changes user.id) .integrityError (requireRole · rid)).run
            ⟨db, db, userChanges user username none⟩ =
              (requireRole { db with users } rid,
                ⟨db, { db with users }, (changes user.id).clean⟩) :=
          SessionM.run_query_ok hwrite (requireRole · rid)
        have hsame : requireRole { db with users } rid = requireRole db rid := rfl
        cases hrole : requireRole db rid with
        | error e =>
          rw [hsame, hrole] at hquery
          have hset : (setAttributes user username (some rid)).run
              ⟨db, db, (changes user.id).clean⟩ =
                (.error e, ⟨db, { db with users }, (changes user.id).clean⟩) :=
            (run_setAttributes_some user rid).trans (SessionM.run_bind_error hquery)
          exact request_of_error hload hset
        | ok _ =>
          rw [hsame, hrole] at hquery
          have hset : (setAttributes user username (some rid)).run
              ⟨db, db, (changes user.id).clean⟩ =
                (.ok (), ⟨db, { db with users }, userChanges user none (some rid)⟩) :=
            (run_setAttributes_some user rid).trans (SessionM.run_bind_ok hquery)
          have hboth : users.modify user.id (userChanges user none (some rid)).apply =
              db.users.modify user.id (userChanges user username (some rid)).apply :=
            Table.modify_modify hflush fun _ h => h
          rw [scope_commit hload hset]
          simp only [Except.ok_bind, writeUserChanges, commitUsers, changes, hboth]
          cases db.users.modify user.id (userChanges user username (some rid)).apply <;> rfl

end

/-! ## The specification -/

section

variable (db : Database) (userId : ℕ) (username : Option String) (roleId : Option ℕ)

def HasUser : Prop := ∃ user ∈ db.users, user.id = userId

/-- A role is given that does not exist. -/
def RoleMissing : Prop := ∃ rid, roleId = some rid ∧ ∀ role ∈ db.roles, role.id ≠ rid

/-- A username is given that belongs to another user. -/
def NameTaken : Prop :=
  ∃ name, username = some name ∧ ∃ user ∈ db.users, user.id ≠ userId ∧ user.username = name

/-- The row with the given fields. -/
def updatedRow (user : User) : User :=
  { user with username := username.getD user.username, roleId := roleId.getD user.roleId }

/-- The exceptions are raised when they should be and leave the database as it was, and an update
writes the given fields of the user and nothing else. -/
structure Specified (r : Except CrudError User × Database) : Prop where
  userNotFound : r.1 = .error .userNotFound ↔ ¬ HasUser db userId
  roleNotFound : r.1 = .error .roleNotFound ↔ HasUser db userId ∧ RoleMissing db roleId
  usernameAlreadyExists : r.1 = .error .usernameAlreadyExists ↔
    HasUser db userId ∧ ¬ RoleMissing db roleId ∧ NameTaken db userId username
  raised : ∀ e, r.1 = .error e →
    (e = .userNotFound ∨ e = .roleNotFound ∨ e = .usernameAlreadyExists) ∧ r.2 = db
  updated : ∀ user, r.1 = .ok user → (user ∈ r.2.users ∧ user.id = userId) ∧
    r.2 = { db with users := r.2.users } ∧ r.2.users.rows = db.users.rows.map fun u =>
      if u.id = userId then updatedRow username roleId u else u

variable {db userId username roleId}

/-! ## What each case leads to -/

theorem updateUserAdmin_of_missing (h : ¬ HasUser db userId) :
    AranesLms.updateUserAdmin db userId username roleId = .error .userNotFound := by
  have hnone : db.user? userId = none :=
    Table.find?_eq_none.2 fun user huser hid => h ⟨user, huser, hid⟩
  rw [AranesLms.updateUserAdmin, getUserById, hnone]
  rfl

/-- The name of another user is not written. -/
theorem modify_of_taken {user : User} (huser : user ∈ db.users)
    (h : NameTaken db user.id username) (roleId : Option ℕ) :
    db.users.modify user.id (userChanges user username roleId).apply = .error .unique := by
  obtain ⟨name, rfl, other, hother, hne, hname⟩ := h
  refine Table.modify_eq_unique huser rfl hother hne ?_
  rw [UserChanges.apply_userChanges]
  exact hname

theorem updateUserAdmin_of_taken {user : User} (huser : user ∈ db.users)
    (h : NameTaken db user.id username) :
    AranesLms.updateUserAdmin db user.id username roleId =
      .error (if roleId.isSome then .integrityError .unique else .usernameAlreadyExists) := by
  rw [AranesLms.updateUserAdmin, getUserById_ok.2 ⟨huser, rfl⟩, Except.ok_bind]
  cases roleId with
  | none =>
    dsimp only
    rw [writeUserChanges, modify_of_taken huser h]
    rfl
  | some rid =>
    dsimp only
    rw [flushThenRequireRole, show ({ userChanges user username (some rid) with roleId := none } :
      UserChanges) = userChanges user username none from rfl, modify_of_taken huser h]
    rfl

theorem not_nameTaken_iff {user : User} : ¬ NameTaken db user.id username ↔
    ∀ name, username = some name → ∀ u ∈ db.users, u.id ≠ user.id → u.username ≠ name := by
  constructor
  · rintro h name hname u hu hne heq
    exact h ⟨name, hname, u, hu, hne, heq⟩
  · rintro h ⟨name, hname, u, hu, hne, heq⟩
    exact h name hname u hu hne heq

theorem updateUserAdmin_of_roleMissing {user : User} (huser : user ∈ db.users)
    (hname : ¬ NameTaken db user.id username) (h : RoleMissing db roleId) :
    AranesLms.updateUserAdmin db user.id username roleId = .error .roleNotFound := by
  obtain ⟨rid, rfl, hmissing⟩ := h
  obtain ⟨t, ht, -⟩ := @updateUserAdmin_exists_ok db user username none huser
    (not_nameTaken_iff.1 hname) (by simp)
  have hnone : db.role? rid = none := Table.find?_eq_none.2 hmissing
  have hrole : requireRole db rid = .error .roleNotFound := by rw [requireRole, hnone]
  rw [AranesLms.updateUserAdmin, getUserById_ok.2 ⟨huser, rfl⟩, Except.ok_bind]
  dsimp only
  rw [flushThenRequireRole, show ({ userChanges user username (some rid) with roleId := none } :
    UserChanges) = userChanges user username none from rfl, ht]
  dsimp only
  rw [hrole]
  rfl

theorem updateUserAdmin_of_free {user : User} (huser : user ∈ db.users)
    (hname : ¬ NameTaken db user.id username) (hrole : ¬ RoleMissing db roleId) :
    ∃ users : UserTable, AranesLms.updateUserAdmin db user.id username roleId =
        .ok (updatedRow username roleId user, { db with users }) ∧
      users.rows = db.users.rows.map fun u =>
        if u.id = user.id then updatedRow username roleId u else u := by
  have hgiven : ∀ rid, roleId = some rid → ∃ role ∈ db.roles, role.id = rid := by
    intro rid hrid
    by_contra hno
    push Not at hno
    exact hrole ⟨rid, hrid, hno⟩
  obtain ⟨t, ht, hok⟩ := updateUserAdmin_exists_ok huser (not_nameTaken_iff.1 hname) hgiven
  refine ⟨t, ?_, ?_⟩
  · rw [hok, UserChanges.apply_userChanges, updatedRow]
  · rw [Table.commit_eq_ok.1 ht]
    refine List.map_congr_left fun u hu => ?_
    split_ifs with hid
    · rw [Table.eq_of_pk hu huser hid, UserChanges.apply_userChanges, updatedRow]
    · rfl

theorem specified_error {e : CrudError} (huser : e = .userNotFound ↔ ¬ HasUser db userId)
    (hrole : e = .roleNotFound ↔ HasUser db userId ∧ RoleMissing db roleId)
    (hname : e = .usernameAlreadyExists ↔
      HasUser db userId ∧ ¬ RoleMissing db roleId ∧ NameTaken db userId username)
    (hraised : e = .userNotFound ∨ e = .roleNotFound ∨ e = .usernameAlreadyExists) :
    Specified db userId username roleId (.error e, db) where
  userNotFound := Except.error.injEq e _ ▸ huser
  roleNotFound := Except.error.injEq e _ ▸ hrole
  usernameAlreadyExists := Except.error.injEq e _ ▸ hname
  raised e' he' := by
    cases he'
    exact ⟨hraised, rfl⟩
  updated _ h := nomatch h

/-- The function meets its specification unless a role is given together with a username that is
taken. -/
theorem specified_iff (db : Database) (userId : ℕ) (username : Option String)
    (roleId : Option ℕ) :
    Specified db userId username roleId (request db userId username roleId) ↔
      ¬ (HasUser db userId ∧ roleId.isSome ∧ NameTaken db userId username) := by
  rw [request_eq]
  by_cases hexists : HasUser db userId
  · obtain ⟨user, huser, rfl⟩ := id hexists
    by_cases hname : NameTaken db user.id username
    · rw [updateUserAdmin_of_taken huser hname]
      cases roleId with
      | none =>
        have hrole : ¬ RoleMissing db none := by simp [RoleMissing]
        refine iff_of_true (specified_error ?_ ?_ ?_ ?_) (by simp) <;> simp [hexists, hname, hrole]
      | some rid =>
        refine iff_of_false (fun h => ?_) (not_not.2 ⟨hexists, rfl, hname⟩)
        have hraised := (h.raised _ rfl).1
        simp at hraised
    · refine iff_of_true ?_ (fun h => hname h.2.2)
      by_cases hrole : RoleMissing db roleId
      · rw [updateUserAdmin_of_roleMissing huser hname hrole]
        refine specified_error ?_ ?_ ?_ ?_ <;> simp [hexists, hname, hrole]
      · obtain ⟨users, hok, hrows⟩ := updateUserAdmin_of_free huser hname hrole
        rw [hok]
        refine ⟨by simp [hexists], by simp [hrole], by simp [hname], by simp, ?_⟩
        rintro _ ⟨⟩
        refine ⟨⟨?_, rfl⟩, rfl, hrows⟩
        rw [Table.mem_def, hrows]
        exact List.mem_map.2 ⟨user, huser, if_pos rfl⟩
  · rw [updateUserAdmin_of_missing hexists]
    refine iff_of_true (specified_error ?_ ?_ ?_ ?_) (fun h => hexists h.1) <;> simp [hexists]

/-- Two users of one role. -/
def twoUsers : Database :=
  { Database.empty with
    roles := ⟨[⟨6, "Student", "", some ∅⟩], by decide, by decide⟩
    users := ⟨[⟨1, "alice", "hash", 6, some ∅⟩, ⟨2, "bobby", "hash", 6, some ∅⟩], by decide,
      by decide⟩ }

/-- Bobby is to get the name of alice, and a role. -/
theorem not_specified_taken_with_role :
    ¬ Specified twoUsers 2 (some "alice") (some 6)
      (request twoUsers 2 (some "alice") (some 6)) := by
  intro h
  have herror : (request twoUsers 2 (some "alice") (some 6)).1 =
      .error (.integrityError .unique) := by decide +kernel
  have hraised := (h.raised _ herror).1
  simp at hraised

end

end UserUpdate

end AranesLms
