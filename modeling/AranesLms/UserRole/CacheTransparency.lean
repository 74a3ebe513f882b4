import AranesLms.UserRole.BootstrapSpec
import AranesLms.UserRole.CrudSpec
import AranesLms.UserRole.Endpoints

/-!
# What the cache shows

With the cache an application should answer as it does without one.  Each endpoint of the RBAC
API drops or refreshes the views it changes; signup, which adds a user and may create a role,
does not.  `transparent_iff` says that this is the only defect: every `GET` in every state of a run
is answered from the present rows, and the application refines the one whose reads all miss, as
long as the lists a signup changes are not cached at that time.
-/

namespace AranesLms

/-- The response to a `GET` that the present rows give. -/
def View.serialize (db : Database) : View → Except HttpException Response
  | .roleList => .ok (.roleList (db.roles.sorted.map serializeRole))
  | .role roleId =>
    match db.role? roleId with
    | some row => .ok (.role (serializeRole row))
    | none => .error ⟨404, "Role not found"⟩
  | .userList => .ok (.userList (db.users.sorted.map serializeUser))
  | .user userId =>
    match db.user? userId with
    | some row => .ok (.user (serializeUser row))
    | none => .error ⟨404, "User not found"⟩

namespace App

/-- Every `GET` gets the response that the present rows give. -/
def Transparent (s : App) : Prop := ∀ view, (s.get view).1 = view.serialize s.db

/-- The application without a cache: no request finds an entry. -/
def handleUncached (db : Database) (e : AppEvent) :
    Option (Except HttpException Response) × Database :=
  ((handle ⟨db, .empty⟩ e).1, (handle ⟨db, .empty⟩ e).2.db)

/-! ## Coherence -/

structure Coherent (s : App) : Prop where
  roles : s.cache.roles.Coherent serializeRole s.db.roles
  users : s.cache.users.Coherent serializeUser s.db.users

theorem coherent_empty (db : Database) : Coherent ⟨db, .empty⟩ := ⟨.empty _, .empty _⟩

variable {s : App}

theorem Coherent.getRole_eq (h : s.Coherent) (roleId : ℕ) :
    s.cache.getRole roleId = (s.cache.roles.item roleId, s.cache) := by
  rw [RbacCache.getRole, h.roles.getItem serializeRole_id]

theorem Coherent.getRoleList_eq (h : s.Coherent) :
    s.cache.getRoleList = (s.cache.roles.list, s.cache) := by
  rw [RbacCache.getRoleList, h.roles.getList serializeRole_id]

theorem Coherent.getUser_eq (h : s.Coherent) (userId : ℕ) :
    s.cache.getUser userId = (s.cache.users.item userId, s.cache) := by
  rw [RbacCache.getUser, h.users.getItem serializeUser_id]

theorem Coherent.getUserList_eq (h : s.Coherent) :
    s.cache.getUserList = (s.cache.users.list, s.cache) := by
  rw [RbacCache.getUserList, h.users.getList serializeUser_id]

/-- A `GET` of a coherent state is answered from the rows and leaves the state coherent. -/
theorem Coherent.get (h : s.Coherent) (view : View) :
    (s.get view).1 = view.serialize s.db ∧ (s.get view).2.Coherent ∧ (s.get view).2.db = s.db := by
  cases view with
  | roleList =>
    rw [App.get, listRoles, h.getRoleList_eq]
    cases hl : s.cache.roles.list with
    | none => exact ⟨rfl, ⟨h.roles.setList, h.users⟩, rfl⟩
    | some items =>
      rw [h.roles.list items hl]
      exact ⟨rfl, h, rfl⟩
  | role roleId =>
    rw [App.get, getRole, h.getRole_eq, View.serialize]
    cases hb : s.cache.roles.item roleId with
    | some item =>
      obtain ⟨role, hrole, rfl, rfl⟩ := h.roles.item roleId item hb
      rw [Database.role?, Table.find?_pk hrole]
      exact ⟨rfl, h, rfl⟩
    | none =>
      rw [getRoleById]
      cases hrole : s.db.role? roleId with
      | none => exact ⟨rfl, h, rfl⟩
      | some role =>
        obtain ⟨hmem, rfl⟩ := Table.find?_eq_some.1 hrole
        exact ⟨rfl, ⟨h.roles.setItem hmem, h.users⟩, rfl⟩
  | userList =>
    rw [App.get, listUsers, h.getUserList_eq]
    cases hl : s.cache.users.list with
    | none => exact ⟨rfl, ⟨h.roles, h.users.setList⟩, rfl⟩
    | some items =>
      rw [h.users.list items hl]
      exact ⟨rfl, h, rfl⟩
  | user userId =>
    rw [App.get, getUser, h.getUser_eq, View.serialize]
    cases hb : s.cache.users.item userId with
    | some item =>
      obtain ⟨user, huser, rfl, rfl⟩ := h.users.item userId item hb
      rw [Database.user?, Table.find?_pk huser]
      exact ⟨rfl, h, rfl⟩
    | none =>
      rw [getUserById]
      cases huser : s.db.user? userId with
      | none => exact ⟨rfl, h, rfl⟩
      | some user =>
        obtain ⟨hmem, rfl⟩ := Table.find?_eq_some.1 huser
        exact ⟨rfl, ⟨h.roles, h.users.setItem hmem⟩, rfl⟩

theorem Coherent.transparent (h : s.Coherent) : s.Transparent := fun view => (h.get view).1

theorem Coherent.expire (h : s.Coherent) (view : View) :
    Coherent { s with cache := s.cache.expire view } := by
  cases view with
  | roleList => exact ⟨h.roles.invalidateList, h.users⟩
  | role roleId => exact ⟨h.roles.invalidate roleId, h.users⟩
  | userList => exact ⟨h.roles, h.users.invalidateList⟩
  | user userId => exact ⟨h.roles, h.users.invalidate userId⟩

/-! ## Writes -/

/-- The response and the database do not depend on the cache. -/
theorem respond_uncached {α : Type} (s s₀ : App) (hdb : s₀.db = s.db)
    (result : Except CrudError (α × Database)) (body : α → Except HttpException Response)
    (refresh refresh₀ : α → RbacCache) :
    (s.respond result body refresh).1 = (s₀.respond result body refresh₀).1 ∧
      (s.respond result body refresh).2.db = (s₀.respond result body refresh₀).2.db := by
  cases result with
  | ok x => exact ⟨rfl, rfl⟩
  | error e => exact ⟨rfl, hdb.symm⟩

theorem Coherent.respond {α : Type} (h : s.Coherent) {result : Except CrudError (α × Database)}
    {body : α → Except HttpException Response} {refresh : α → RbacCache}
    (hok : ∀ a db, result = .ok (a, db) → Coherent ⟨db, refresh a⟩) :
    (s.respond result body refresh).2.Coherent := by
  cases result with
  | ok x => exact hok x.1 x.2 rfl
  | error e => exact h

/-- A reset leaves the roles alone whose entries are not invalidated. -/
theorem resetRole_of_notMem {db : Database} {role : Role} (hrole : role ∈ db.roles)
    (hid : role.id ∉
      ((AranesLms.listRoles db).filter fun role => ¬ isSuperadminRole role).map Role.id) :
    resetRole role = role := by
  by_contra hreset
  apply hid
  have hs : ¬ isSuperadminRole role := fun hs => hreset (if_pos hs)
  apply List.mem_map_of_mem
  rw [List.mem_filter]
  exact ⟨Table.mem_sorted.2 hrole, by simpa using hs⟩

/-- Every request but signup leaves the state coherent. -/
theorem Coherent.serve (h : s.Coherent) (nid : ℕ) {r : ApiRequest}
    (hr : ∀ username passwordHash, r ≠ .signup username passwordHash) :
    (s.serve nid r).2.Coherent := by
  cases r with
  | get view => exact (h.get view).2.1
  | createRole name titleKey =>
    apply h.respond
    intro role db hrun
    obtain ⟨rfl, t, ht, rfl⟩ := createRole_ok.1 hrun
    exact ⟨h.roles.insert_setItem ht, h.users⟩
  | updateRole roleId name titleKey =>
    apply h.respond
    intro role db hrun
    obtain ⟨old, hold, rfl, -, rfl, t, ht, rfl⟩ := updateRole_ok.1 hrun
    exact ⟨h.roles.modify_setItem hold rfl ht, h.users⟩
  | deleteRole roleId =>
    apply h.respond
    intro _ db hrun
    obtain ⟨db', hrun, heq⟩ := Except.map_eq_ok.1 hrun
    cases heq
    obtain ⟨-, -, rfl⟩ := deleteRole_ok hrun
    exact ⟨h.roles.erase roleId, h.users⟩
  | patchRolePermissions roleId permissions =>
    apply h.respond
    intro role db hrun
    obtain ⟨hread, hwrite⟩ := patchRolePermissions_ok hrun
    obtain ⟨patch, -, old, hold, rfl, -, rfl⟩ := readPatchRole_ok.1 hread
    obtain ⟨t, ht, rfl⟩ := writeRolePermissions_ok.1 hwrite
    exact ⟨h.roles.modify_setItem hold rfl ht, h.users⟩
  | resetRolePermissions =>
    apply h.respond
    intro count db hrun
    obtain rfl : writeResetRoles s.db = db := by
      rw [← resetRolePermissions_snd]
      exact congrArg Prod.snd (Except.ok.inj hrun)
    exact ⟨h.roles.mapRows resetRole resetRole_id resetRole_name fun role => resetRole_of_notMem,
      h.users⟩
  | registryRolesOnceIfNotExist name permissions =>
    apply h.respond
    intro role db hrun
    obtain ⟨-, hwrite⟩ := createOrAppendRolePermissionsNoOverwrite_ok hrun
    obtain ⟨t, ht, rfl⟩ := writeRolePermissions_ok.1 hwrite
    exact ⟨h.roles.modify ht, h.users⟩
  | createUser username password roleId =>
    apply h.respond
    intro user db hrun
    obtain ⟨-, rfl, t, ht, rfl⟩ := createUserAdmin_ok.1 hrun
    exact ⟨h.roles, h.users.insert_setItem ht⟩
  | updateUser userId username roleId =>
    apply h.respond
    intro user db hrun
    obtain ⟨old, hold, rfl, -, rfl, t, ht, rfl⟩ := updateUserAdmin_ok hrun
    rw [← UserChanges.apply_userChanges]
    exact ⟨h.roles, h.users.modify_setItem hold rfl ht⟩
  | setUserPassword userId password =>
    apply h.respond
    intro user db hrun
    obtain ⟨old, -, -, -, t, ht, rfl⟩ := setUserPasswordAdmin_ok hrun
    exact ⟨h.roles, (h.users.modify_of_ser ht serializeUser_id fun _ => rfl).invalidate userId⟩
  | deleteUser actorId userId =>
    rw [App.serve, deleteUser]
    split_ifs
    · exact h
    apply h.respond
    intro _ db hrun
    obtain ⟨db', hrun, heq⟩ := Except.map_eq_ok.1 hrun
    cases heq
    obtain ⟨-, rfl⟩ := deleteUserAdmin_ok hrun
    exact ⟨h.roles, h.users.erase userId⟩
  | patchUserPermissions userId permissions =>
    apply h.respond
    intro user db hrun
    obtain ⟨hread, hwrite⟩ := patchUserPermissions_ok hrun
    obtain ⟨patch, -, old, hold, rfl, rfl⟩ := readPatchUser_ok.1 hread
    obtain ⟨t, ht, rfl⟩ := writeUserPermissions_ok.1 hwrite
    exact ⟨h.roles, h.users.modify_setItem hold rfl ht⟩
  | resetUserPermissions =>
    apply h.respond
    intro count db hrun
    obtain rfl : writeResetUsers s.db = db := by
      rw [← resetUserPermissions_snd]
      exact congrArg Prod.snd (Except.ok.inj hrun)
    refine ⟨h.roles, h.users.mapRows (fun user => { user with permissions := some ∅ })
      (fun _ => rfl) (fun _ => rfl) fun user huser hid => ?_⟩
    exact absurd (List.mem_map_of_mem (Table.mem_sorted.2 huser)) hid
  | signup username passwordHash => exact absurd rfl (hr username passwordHash)

/-- The response to a request, and the rows after it, are those of the application without a
cache. -/
theorem Coherent.serve_uncached (h : s.Coherent) (nid : ℕ) (r : ApiRequest) :
    (s.serve nid r).1 = (App.serve nid ⟨s.db, .empty⟩ r).1 ∧
      (s.serve nid r).2.db = (App.serve nid ⟨s.db, .empty⟩ r).2.db := by
  cases r with
  | get view =>
    obtain ⟨hresponse, -, hdb⟩ := h.get view
    obtain ⟨hresponse', -, hdb'⟩ := (coherent_empty s.db).get view
    exact ⟨hresponse.trans hresponse'.symm, hdb.trans hdb'.symm⟩
  | deleteUser actorId userId =>
    rw [App.serve, App.serve, deleteUser, deleteUser]
    split_ifs
    · exact ⟨rfl, rfl⟩
    · exact respond_uncached s ⟨s.db, .empty⟩ rfl _ _ _ _
  | _ => exact respond_uncached s ⟨s.db, .empty⟩ rfl _ _ _ _

/-! ## Signup -/

/-- Signup has to create its role. -/
def SignupRoleMissing (db : Database) : Prop :=
  ∀ role ∈ db.roles, role.id ≠ defaultSignupRoleId ∧ role.name ≠ defaultSignupRoleName

/-- Signup succeeds: its role is there or can be created, and id and name of the user are free. -/
def SignupAccepted (db : Database) (nid : ℕ) (username : String) : Prop :=
  (SignupRoleMissing db ∨
    ∃ role ∈ db.roles, role.id = defaultSignupRoleId ∧ role.name = defaultSignupRoleName) ∧
    ∀ user ∈ db.users, user.id ≠ nid ∧ user.username ≠ username

instance (db : Database) : Decidable (SignupRoleMissing db) := Table.decidableBAll

instance (db : Database) (nid : ℕ) (username : String) :
    Decidable (SignupAccepted db nid username) :=
  inferInstanceAs (Decidable (_ ∧ _))

/-- What a successful signup has done to the roles. -/
theorem signup_roles {nid : ℕ} {username passwordHash : String} {user : User} {db db' : Database}
    (h : AranesLms.signup db nid username passwordHash = .ok (user, db')) :
    (∃ role ∈ db.roles, role.id = defaultSignupRoleId ∧ role.name = defaultSignupRoleName) ∧
        db'.roles = db.roles ∨
      SignupRoleMissing db ∧ db.roles.insert newSignupRole = .ok db'.roles := by
  obtain ⟨role, db₁, hget, -, t, -, rfl⟩ := signup_ok.1 h
  rcases getOrCreateDefaultSignupRoleWithConfig_ok hget with ⟨hrole, hid, hname, rfl⟩ |
    ⟨-, t', ht', rfl⟩
  · exact Or.inl ⟨⟨role, hrole, hid, hname⟩, rfl⟩
  · exact Or.inr ⟨fun role hrole => Table.insert_fresh ht' hrole, ht'⟩

/-- What a successful signup has done to the users. -/
theorem signup_users {nid : ℕ} {username passwordHash : String} {user : User} {db db' : Database}
    (h : AranesLms.signup db nid username passwordHash = .ok (user, db')) :
    user.id = nid ∧ user.username = username ∧ db.users.insert user = .ok db'.users := by
  obtain ⟨role, db₁, hget, rfl, t, ht, rfl⟩ := signup_ok.1 h
  refine ⟨rfl, rfl, ?_⟩
  rcases getOrCreateDefaultSignupRoleWithConfig_ok hget with ⟨-, -, -, rfl⟩ | ⟨-, t', -, rfl⟩
  · exact ht
  · exact ht

theorem signupAccepted_of_ok {nid : ℕ} {username passwordHash : String} {user : User}
    {db db' : Database} (h : AranesLms.signup db nid username passwordHash = .ok (user, db')) :
    SignupAccepted db nid username := by
  obtain ⟨rfl, rfl, hinsert⟩ := signup_users h
  refine ⟨?_, fun u hu => Table.insert_fresh hinsert hu⟩
  rcases signup_roles h with ⟨hrole, -⟩ | ⟨hmissing, -⟩
  · exact Or.inr hrole
  · exact Or.inl hmissing

theorem SignupAccepted.exists_ok {nid : ℕ} {username : String} {db : Database}
    (h : SignupAccepted db nid username) (passwordHash : String) :
    ∃ user db', AranesLms.signup db nid username passwordHash = .ok (user, db') := by
  obtain ⟨hrole, hfree⟩ := h
  obtain ⟨role, db₁, hget, husers⟩ : ∃ role db₁,
      getOrCreateDefaultSignupRoleWithConfig db = .ok (role, db₁) ∧ db₁.users = db.users := by
    rcases hrole with hmissing | ⟨role, hrole, hid, hname⟩
    · obtain ⟨t, ht⟩ := Table.exists_insert (t := db.roles) (r := newSignupRole)
        (fun role hrole => (hmissing role hrole).1) fun role hrole => (hmissing role hrole).2
      refine ⟨newSignupRole, { db with roles := t }, ?_, rfl⟩
      rw [getOrCreateDefaultSignupRoleWithConfig, getExactDefaultSignupRole_none.2 hmissing]
      simp only [Except.ok_bind, insertSignupRole_ok.2 ⟨t, ht, rfl⟩]
      rfl
    · exact ⟨role, db, getOrCreateDefaultSignupRoleWithConfig_of_mem hrole hid hname, rfl⟩
  have hfree₁ : ∀ u ∈ db₁.users, u.id ≠ nid ∧ u.username ≠ username := by rwa [husers]
  obtain ⟨t, ht⟩ := Table.exists_insert (t := db₁.users)
    (r := ⟨nid, username, passwordHash, role.id, some ∅⟩)
    (fun u hu => (hfree₁ u hu).1) fun u hu => (hfree₁ u hu).2
  exact ⟨_, _, signup_ok.2 ⟨role, db₁, hget, rfl, t, ht, rfl⟩⟩

/-- Condition on a step: the lists that a signup changes are not cached when it succeeds. -/
def ListsNotCached (s : App) : AppEvent → Prop
  | .request nid (.signup username _) =>
    SignupAccepted s.db nid username →
      s.cache.users.list = none ∧ (SignupRoleMissing s.db → s.cache.roles.list = none)
  | _ => True

theorem Coherent.signup (h : s.Coherent) {nid : ℕ} {username passwordHash : String}
    (hlists : s.ListsNotCached (.request nid (.signup username passwordHash))) :
    (s.signup nid username passwordHash).2.Coherent := by
  apply h.respond
  intro user db hrun
  obtain ⟨huserList, hroleList⟩ := hlists (signupAccepted_of_ok hrun)
  obtain ⟨-, -, hinsert⟩ := signup_users hrun
  refine ⟨?_, ?_⟩
  · rcases signup_roles hrun with ⟨-, hroles⟩ | ⟨hmissing, hroles⟩
    · rw [hroles]
      exact h.roles
    · apply h.roles.of_table
      · exact fun role hrole _ => ⟨role, (Table.mem_insert hroles).2 (Or.inl hrole), rfl, rfl⟩
      · exact fun hcached => absurd (hroleList hmissing) hcached
  · apply h.users.of_table
    · exact fun u hu _ => ⟨u, (Table.mem_insert hinsert).2 (Or.inl hu), rfl, rfl⟩
    · exact fun hcached => absurd huserList hcached

/-- After a signup the lists are right only if they were not cached. -/
theorem Coherent.listsNotCached_of_transparent (h : s.Coherent) {nid : ℕ}
    {username passwordHash : String} (ht : (s.signup nid username passwordHash).2.Transparent) :
    s.ListsNotCached (.request nid (.signup username passwordHash)) := by
  intro haccepted
  obtain ⟨user, db, hrun⟩ := haccepted.exists_ok passwordHash
  have hafter : (s.signup nid username passwordHash).2 = ⟨db, s.cache⟩ := by
    rw [App.signup, hrun, App.respond]
  rw [hafter] at ht
  obtain ⟨-, -, hinsert⟩ := signup_users hrun
  constructor
  · by_contra hcached
    obtain ⟨items, hitems⟩ := Option.ne_none_iff_exists'.1 hcached
    have hlist := ht .userList
    rw [App.get, listUsers, h.getUserList_eq, hitems] at hlist
    have heq : items = db.users.sorted.map serializeUser :=
      Response.userList.inj (Except.ok.inj hlist)
    rw [h.users.list items hitems] at heq
    exact Table.sorted_map_insert_ne hinsert serializeUser heq.symm
  · intro hmissing
    by_contra hcached
    obtain ⟨items, hitems⟩ := Option.ne_none_iff_exists'.1 hcached
    have hlist := ht .roleList
    rw [App.get, listRoles, h.getRoleList_eq, hitems] at hlist
    have heq : items = db.roles.sorted.map serializeRole :=
      Response.roleList.inj (Except.ok.inj hlist)
    rw [h.roles.list items hitems] at heq
    rcases signup_roles hrun with ⟨⟨role, hrole, hid, -⟩, -⟩ | ⟨-, hroles⟩
    · exact (hmissing role hrole).1 hid
    · exact Table.sorted_map_insert_ne hroles serializeRole heq.symm

/-! ## Every run -/

theorem Coherent.step (h : s.Coherent) {e : AppEvent} (he : s.ListsNotCached e) :
    (s.step e).Coherent := by
  cases e with
  | expire view => exact h.expire view
  | request nid r =>
    by_cases hr : ∃ username passwordHash, r = .signup username passwordHash
    · obtain ⟨username, passwordHash, rfl⟩ := hr
      exact h.signup he
    · exact h.serve nid fun username passwordHash heq => hr ⟨username, passwordHash, heq⟩

theorem Coherent.listsNotCached (h : s.Coherent) {e : AppEvent} (ht : (s.step e).Transparent) :
    s.ListsNotCached e := by
  cases e with
  | expire view => trivial
  | request nid r =>
    cases r with
    | signup username passwordHash => exact h.listsNotCached_of_transparent ht
    | _ => trivial

/-- With requests handled one at a time and entries expiring at any time: every `GET` in every
state of a run is answered as the present rows give exactly when no successful signup finds a list
it changes in the cache, and then all responses of the run are those of the application without a
cache. -/
theorem transparent_iff (s : App) (h : s.Coherent) (events : List AppEvent) :
    (Transition.Always step Transparent s events ↔
        Transition.Along step ListsNotCached s events) ∧
      (Transition.Along step ListsNotCached s events →
        Transition.outputs handle s events = Transition.outputs handleUncached s.db events) := by
  constructor
  · exact Transition.always_iff_along (J := Coherent) (fun _ hs => hs.transparent)
      (fun _ _ hs he => hs.step he) (fun _ _ hs ht => hs.listsNotCached ht) h events
  · intro hlists
    apply Transition.outputs_eq_of_simulation (R := fun s db => s.Coherent ∧ s.db = db) _ hlists
      ⟨h, rfl⟩
    rintro s db e ⟨hs, rfl⟩ he
    refine ⟨?_, hs.step he, ?_⟩
    · cases e with
      | expire view => rfl
      | request nid r => exact congrArg some (hs.serve_uncached nid r).1
    · cases e with
      | expire view => rfl
      | request nid r => exact (hs.serve_uncached nid r).2

theorem transparent_signup : Transition.Always step Transparent ⟨seededDatabase, .empty⟩
    [.request 0 (.get .roleList), .request 1 (.signup "alice" "hash"),
      .request 0 (.get (.user 1))] := by
  refine (transparent_iff _ (coherent_empty seededDatabase) _).1.2 ⟨trivial, fun _ => ⟨rfl, ?_⟩,
    trivial, trivial⟩
  intro hmissing
  have hpresent : ¬ SignupRoleMissing seededDatabase := by decide +kernel
  exact absurd hmissing hpresent

/-- The list of users is read, a user signs up, and the list is read again. -/
theorem signup_not_transparent :
    ¬ Transition.Always step Transparent ⟨seededDatabase, .empty⟩
      [.request 0 (.get .userList), .request 1 (.signup "alice" "hash")] := by
  intro h
  have hlist := h.last .userList
  revert hlist
  decide +kernel

end App

end AranesLms
