import AranesLms.UserRole.Operations

/-!
# Users and roles under interleaving

The steps of `delete_role`, `create_user_admin`, `update_user_admin` and `signup`, of any number of
calls, in any order.  The database checks no foreign keys, so what a call has read may be outdated
when it commits: `RoleStays` says when a commit is harmless, and every user has an existing role
throughout a run exactly when every commit is (`always_hasRoles_iff`).
-/

namespace AranesLms

/-- A call between two of its steps, with what it has read. -/
inductive RoleCall where
  | deleteLoaded (roleId : ℕ)
  | deleteCounted (roleId : ℕ)
  | deleteFlushing (roleId : ℕ) (loadedUsers : List User)
  | createChecked (username password : String) (roleId : ℕ)
  | updateLoaded (userId : ℕ) (changes : UserChanges) (roleId : Option ℕ)
  | updateChecked (userId : ℕ) (changes : UserChanges)
  | signupChecked (found : Option Role) (username passwordHash : String)
  deriving DecidableEq

namespace RoleCall

/-- The first step of a call, a read; an exception ends the call. -/
def start (db : Database) : Operation → Option RoleCall
  | .deleteRole roleId =>
    match deleteRoleLoad db roleId with
    | .ok _ => some (.deleteLoaded roleId)
    | .error _ => none
  | .createUserAdmin username password roleId =>
    match requireRole db roleId with
    | .ok _ => some (.createChecked username password roleId)
    | .error _ => none
  | .updateUserAdmin userId username roleId =>
    match getUserById db userId with
    | .ok user => some (.updateLoaded userId (userChanges user username roleId) roleId)
    | .error _ => none
  | .signup username passwordHash =>
    match getExactDefaultSignupRole db defaultSignupRoleId defaultSignupRoleName with
    | .ok found => some (.signupChecked found username passwordHash)
    | .error _ => none
  | _ => none

/-- The end of `signup`: the role, if it has to be created, is committed with the user. -/
def signupCommit (db : Database) (nid : ℕ) (found : Option Role) (username passwordHash : String) :
    Except CrudError (User × Database) :=
  match found with
  | some role => createUser db nid username passwordHash role.id (some ∅)
  | none => do
    let db' ← insertSignupRole db
    createUser db' nid username passwordHash newSignupRole.id (some ∅)

/-- The database after a commit, or unchanged when it fails. -/
def commit (db : Database) : Except CrudError Database → Database × Option RoleCall
  | .ok db' => (db', none)
  | .error _ => (db, none)

/-- The next step of a call. -/
def resume (db : Database) (nid : ℕ) : RoleCall → Database × Option RoleCall
  | deleteLoaded roleId =>
    match deleteRoleCount db roleId with
    | .ok _ => (db, some (deleteCounted roleId))
    | .error _ => (db, none)
  | deleteCounted roleId => (db, some (deleteFlushing roleId (db.usersOfRole roleId)))
  | deleteFlushing roleId loadedUsers => commit db (deleteRoleCommit db roleId loadedUsers)
  | createChecked username password roleId =>
    commit db (Prod.snd <$> insertUser db ⟨nid, username, password, roleId, some ∅⟩)
  | updateLoaded userId changes none => (db, some (updateChecked userId changes))
  | updateLoaded userId changes (some roleId) =>
    match flushThenRequireRole db userId changes roleId with
    | .ok _ => (db, some (updateChecked userId changes))
    | .error _ => (db, none)
  | updateChecked userId changes => commit db (writeUserChanges db userId changes)
  | signupChecked found username passwordHash =>
    commit db (Prod.snd <$> signupCommit db nid found username passwordHash)

end RoleCall

/-- The database and the calls in progress. -/
structure RoleRace where
  db : Database
  calls : ℕ → Option RoleCall

inductive RoleRaceEvent where
  | start (call : ℕ) (op : Operation)
  | resume (call nid : ℕ)

namespace RoleRace

variable (s : RoleRace)

def step : RoleRaceEvent → RoleRace
  | .start c op => { s with calls := Function.update s.calls c (RoleCall.start s.db op) }
  | .resume c nid =>
    match s.calls c with
    | some call =>
      let (db, call') := call.resume s.db nid
      ⟨db, Function.update s.calls c call'⟩
    | none => s

/-- Every user has an existing role. -/
def HasRoles (db : Database) : Prop :=
  ∀ user ∈ db.users, ∃ role ∈ db.roles, role.id = user.roleId

instance (db : Database) : Decidable (HasRoles db) :=
  inferInstanceAs (Decidable (∀ user ∈ db.users, ∃ role ∈ db.roles, role.id = user.roleId))

/-- Condition on a step: a user is written with a role that still exists, and a role is deleted
that still has no users. -/
def RoleStays (db : Database) (nid : ℕ) : RoleCall → Prop
  | .createChecked username _ roleId =>
    (∀ user ∈ db.users, user.id ≠ nid ∧ user.username ≠ username) →
      ∃ role ∈ db.roles, role.id = roleId
  | .updateChecked userId ⟨username, some roleId⟩ =>
    (∃ user ∈ db.users, user.id = userId) →
    (∀ name, username = some name → ∀ user ∈ db.users, user.id ≠ userId → user.username ≠ name) →
      ∃ role ∈ db.roles, role.id = roleId
  | .signupChecked (some role) username _ =>
    (∀ user ∈ db.users, user.id ≠ nid ∧ user.username ≠ username) →
      ∃ role' ∈ db.roles, role'.id = role.id
  | .deleteFlushing roleId [] => ∀ user ∈ db.users, user.roleId ≠ roleId
  | _ => True

/-- The condition on an event. -/
def Timely : RoleRaceEvent → Prop
  | .start .. => True
  | .resume c nid => ∀ call, s.calls c = some call → RoleStays s.db nid call

/-! ## One step -/

variable {db db' : Database} {nid : ℕ}

theorem hasRoles_commit {x : Except CrudError Database} (h : HasRoles db)
    (hok : ∀ db', x = .ok db' → HasRoles db') : HasRoles (RoleCall.commit db x).1 := by
  cases x with
  | ok db' => exact hok db' rfl
  | error e => exact h

/-- The roles after the insertion of a user. -/
theorem HasRoles.insertUser (h : HasRoles db) {user user' : User}
    (hrole : ∃ role ∈ db.roles, role.id = user.roleId)
    (hok : AranesLms.insertUser db user = .ok (user', db')) : HasRoles db' := by
  obtain ⟨rfl, t, ht, rfl⟩ := insertUser_ok.1 hok
  intro u hu
  rcases (Table.mem_insert ht).1 hu with hu | rfl
  · exact h u hu
  · exact hrole

theorem HasRoles.resume (h : HasRoles db) {call : RoleCall} (hcall : RoleStays db nid call) :
    HasRoles (call.resume db nid).1 := by
  cases call with
  | deleteLoaded roleId =>
    rw [RoleCall.resume]
    cases deleteRoleCount db roleId <;> exact h
  | deleteCounted roleId => exact h
  | deleteFlushing roleId loadedUsers =>
    refine hasRoles_commit h fun db' hok => ?_
    obtain ⟨rfl, rfl⟩ := deleteRoleCommit_ok.1 hok
    intro user huser
    obtain ⟨role, hrole, hid⟩ := h user huser
    exact ⟨role, Table.mem_erase.2 ⟨hrole, hid ▸ hcall user huser⟩, hid⟩
  | createChecked username password roleId =>
    refine hasRoles_commit h fun db' hok => ?_
    obtain ⟨⟨user, _⟩, hins, rfl⟩ := Except.map_eq_ok.1 hok
    obtain ⟨-, t, ht, -⟩ := insertUser_ok.1 hins
    exact h.insertUser (hcall fun u hu => Table.insert_fresh ht hu) hins
  | updateLoaded userId changes roleId =>
    cases roleId with
    | none => exact h
    | some roleId =>
      rw [RoleCall.resume]
      cases flushThenRequireRole db userId changes roleId <;> exact h
  | updateChecked userId changes =>
    refine hasRoles_commit h fun db' hok => ?_
    obtain ⟨t, ht, rfl⟩ := commitUsers_ok.1 hok
    intro user huser
    rcases (Table.mem_modify ht).1 huser with ⟨huser, -⟩ | ⟨r, hr, hid, rfl⟩
    · exact h user huser
    obtain ⟨username, roleId⟩ := changes
    cases roleId with
    | none => exact h r hr
    | some roleId =>
      refine hcall ⟨r, hr, hid⟩ ?_
      rintro name rfl u hu hne
      exact Table.modify_fresh ht hr hid hid hu hne
  | signupChecked found username passwordHash =>
    refine hasRoles_commit h fun db' hok => ?_
    obtain ⟨⟨user, _⟩, hcommit, rfl⟩ := Except.map_eq_ok.1 hok
    cases found with
    | some role =>
      obtain ⟨rfl, t, ht, -⟩ := insertUser_ok.1 hcommit
      exact h.insertUser (hcall fun u hu => Table.insert_fresh ht hu) hcommit
    | none =>
      obtain ⟨db₁, hins, hcommit⟩ := Except.bind_eq_ok.1 hcommit
      obtain ⟨t, ht, rfl⟩ := insertSignupRole_ok.1 hins
      have hroles : HasRoles { db with roles := t } := by
        intro u hu
        obtain ⟨role, hrole, hid⟩ := h u hu
        exact ⟨role, (Table.mem_insert ht).2 (Or.inl hrole), hid⟩
      exact hroles.insertUser ⟨newSignupRole, (Table.mem_insert ht).2 (Or.inr rfl), rfl⟩ hcommit

/-- A user that can be inserted is found with its role afterwards. -/
theorem exists_role_of_insertUser {user : User}
    (hfree : ∀ u ∈ db.users, u.id ≠ user.id ∧ u.username ≠ user.username)
    (h : HasRoles (RoleCall.commit db (Prod.snd <$> AranesLms.insertUser db user)).1) :
    ∃ role ∈ db.roles, role.id = user.roleId := by
  obtain ⟨t, ht⟩ := Table.exists_insert (fun u hu => (hfree u hu).1) fun u hu => (hfree u hu).2
  have hok : Prod.snd <$> AranesLms.insertUser db user = .ok { db with users := t } :=
    Except.map_eq_ok.2 ⟨(_, _), insertUser_ok.2 ⟨rfl, t, ht, rfl⟩, rfl⟩
  rw [hok] at h
  exact h user ((Table.mem_insert ht).2 (Or.inr rfl))

theorem RoleStays.of_hasRoles {call : RoleCall} (h : HasRoles (call.resume db nid).1) :
    RoleStays db nid call := by
  cases call with
  | deleteLoaded | deleteCounted | updateLoaded => trivial
  | deleteFlushing roleId loadedUsers =>
    cases loadedUsers with
    | cons => trivial
    | nil =>
      intro user huser hid
      obtain ⟨role, hrole, hid'⟩ := h user huser
      exact (Table.mem_erase.1 hrole).2 (hid'.trans hid)
  | createChecked username password roleId => exact fun hfree => exists_role_of_insertUser hfree h
  | updateChecked userId changes =>
    obtain ⟨username, roleId⟩ := changes
    cases roleId with
    | none => trivial
    | some roleId =>
      rintro ⟨user, huser, rfl⟩ hname
      obtain ⟨t, ht⟩ := Table.exists_modify (t := db.users) (i := user.id)
        (f := UserChanges.apply ⟨username, some roleId⟩) (fun _ _ hid => hid) (by
          intro r hr hid x hx hne hxname
          cases username with
          | none => exact hne ((congrArg User.id (Table.eq_of_uk hx hr hxname)).trans hid)
          | some name => exact hname name rfl x hx hne hxname)
      have hok : writeUserChanges db user.id ⟨username, some roleId⟩ =
          .ok { db with users := t } := commitUsers_ok.2 ⟨t, ht, rfl⟩
      rw [RoleCall.resume, hok] at h
      exact h _ (Table.mem_modify_self ht huser)
  | signupChecked found username passwordHash =>
    cases found with
    | none => trivial
    | some role => exact fun hfree => exists_role_of_insertUser hfree h

/-! ## A call alone

Run to its end without interruption, a call does what the operation does. -/

/-- The database after a call has been resumed `n` times. -/
def finish (nid : ℕ) : ℕ → Database × Option RoleCall → Database
  | 0, (db, _) => db
  | _ + 1, (db, none) => db
  | n + 1, (db, some call) => finish nid n (call.resume db nid)

theorem finish_commit (n : ℕ) (x : Except CrudError Database) :
    finish nid n (RoleCall.commit db x) =
      match x with
      | .ok db' => db'
      | .error _ => db := by
  cases x <;> cases n <;> rfl

theorem finish_start_delete (roleId : ℕ) :
    finish nid 3 (db, RoleCall.start db (.deleteRole roleId)) =
      (Operation.deleteRole roleId).step nid db := by
  rw [Operation.step, Operation.run, RoleCall.start, deleteRole]
  cases deleteRoleLoad db roleId with
  | error e => rfl
  | ok role =>
    show finish nid 2 ((RoleCall.deleteLoaded roleId).resume db nid) = _
    rw [RoleCall.resume]
    cases deleteRoleCount db roleId with
    | error e => rfl
    | ok _ => exact @finish_commit db nid 0 _

theorem finish_start_create (username password : String) (roleId : ℕ) :
    finish nid 3 (db, RoleCall.start db (.createUserAdmin username password roleId)) =
      (Operation.createUserAdmin username password roleId).step nid db := by
  rw [Operation.step, Operation.run, RoleCall.start, createUserAdmin]
  cases requireRole db roleId with
  | error e => rfl
  | ok _ => exact finish_commit 2 _

theorem finish_start_update (userId : ℕ) (username : Option String) (roleId : Option ℕ) :
    finish nid 3 (db, RoleCall.start db (.updateUserAdmin userId username roleId)) =
      (Operation.updateUserAdmin userId username roleId).step nid db := by
  rw [Operation.step, Operation.run, RoleCall.start, updateUserAdmin]
  cases getUserById db userId with
  | error e => rfl
  | ok user =>
    cases roleId with
    | none =>
      refine (finish_commit 1 _).trans ?_
      simp only [Except.ok_bind]
      cases writeUserChanges db userId (userChanges user username none) <;> rfl
    | some roleId =>
      show finish nid 2 (RoleCall.resume db nid (.updateLoaded userId _ (some roleId))) = _
      rw [RoleCall.resume]
      simp only [Except.ok_bind]
      cases flushThenRequireRole db userId (userChanges user username (some roleId)) roleId with
      | error e => rfl
      | ok _ =>
        refine (finish_commit 1 _).trans ?_
        simp only [Except.ok_bind]
        cases writeUserChanges db userId (userChanges user username (some roleId)) <;> rfl

theorem finish_start_signup (username passwordHash : String) :
    finish nid 3 (db, RoleCall.start db (.signup username passwordHash)) =
      (Operation.signup username passwordHash).step nid db := by
  rw [Operation.step, Operation.run, RoleCall.start, signup, getOrCreateDefaultSignupRoleWithConfig]
  cases getExactDefaultSignupRole db defaultSignupRoleId defaultSignupRoleName with
  | error e => rfl
  | ok found =>
    refine (finish_commit 2 _).trans ?_
    cases found with
    | none =>
      rw [RoleCall.signupCommit]
      cases insertSignupRole db <;> rfl
    | some role => rfl

/-! ## Every run -/

theorem resume_eq {s : RoleRace} {c nid : ℕ} {call : RoleCall} (hc : s.calls c = some call) :
    (s.step (.resume c nid)).db = (call.resume s.db nid).1 := by
  rw [step, hc]

/-- With any number of calls interleaved in any order, every user has an existing role throughout
exactly when every commit is timely. -/
theorem always_hasRoles_iff (db : Database) (h : HasRoles db) (events : List RoleRaceEvent) :
    Transition.Always step (fun s => HasRoles s.db) ⟨db, fun _ => none⟩ events ↔
      Transition.Along step Timely ⟨db, fun _ => none⟩ events := by
  refine Transition.always_iff_along (J := fun s : RoleRace => HasRoles s.db) (fun _ hs => hs)
    (fun s e hs he => ?_) (fun s e _ hs => ?_) h events
  · cases e with
    | start c op => exact hs
    | resume c nid =>
      cases hc : s.calls c with
      | none => rwa [step, hc]
      | some call =>
        rw [resume_eq hc]
        exact HasRoles.resume hs (he call hc)
  · cases e with
    | start c op => trivial
    | resume c nid =>
      intro call hc
      rw [resume_eq hc] at hs
      exact .of_hasRoles hs

/-- The seeded roles and a teacher. -/
def schoolDatabase : Database :=
  { seededDatabase with users := ⟨[⟨1, "teacher", "hash", 5, some ∅⟩], by decide, by decide⟩ }

/-- A user is created with a role while another role is deleted that nobody has. -/
theorem always_hasRoles_overlap : Transition.Always step (fun s => HasRoles s.db)
    ⟨schoolDatabase, fun _ => none⟩
    [.start 0 (.createUserAdmin "student" "hash" 5), .start 1 (.deleteRole 7), .resume 1 0,
      .resume 1 0, .resume 1 0, .resume 0 2] := by
  refine (always_hasRoles_iff schoolDatabase (by decide +kernel) _).2
    ⟨trivial, trivial, ?load, ?count, ?delete, ?create, trivial⟩
  case load | count =>
    rintro call h
    cases h
    trivial
  case delete =>
    rintro call h
    cases h
    show ∀ user ∈ schoolDatabase.users, user.roleId ≠ 7
    decide +kernel
  case create =>
    rintro call h
    cases h
    intro _
    decide +kernel

/-- A role is deleted between the check of `create_user_admin` and its commit. -/
theorem delete_between_not_hasRoles : HasRoles seededDatabase ∧
    ¬ Transition.Always step (fun s => HasRoles s.db) ⟨seededDatabase, fun _ => none⟩
      [.start 0 (.createUserAdmin "plugin" "hash" 7), .start 1 (.deleteRole 7), .resume 1 0,
        .resume 1 0, .resume 1 0, .resume 0 1] := by
  refine ⟨by decide +kernel, fun h => ?_⟩
  have hrole := h.last ⟨1, "plugin", "hash", 7, some ∅⟩ (by decide +kernel)
  revert hrole
  decide +kernel

end RoleRace

end AranesLms
