import AranesLms.UserRole.Requests

/-!
# Who can come to manage permissions

A party without `rbac_can_manage_permissions` controls some accounts and sends requests with their
tokens; it comes to control the accounts that it creates or signs up and those whose password it
sets.  The endpoints that change permissions are closed to it, but those that put an account in a
role or set a password ask for other permissions only.  `Escalates` says when such a request takes
effect, and a run is safe exactly when none of its events does (`always_safe_iff`).
-/

namespace AranesLms

namespace Database

variable (db : Database)

/-- The effective permissions of the user include `rbac_can_manage_permissions`. -/
def Manages (user : User) : Prop :=
  (db.effectivePermissions user).allows rbacCanManagePermissions

/-- The map of the role allows `rbac_can_manage_permissions`. -/
def Grants (roleId : ℕ) : Prop :=
  ∃ role ∈ db.roles, role.id = roleId ∧ role.perms.allows rbacCanManagePermissions

instance (user : User) : Decidable (db.Manages user) :=
  inferInstanceAs (Decidable (_ = true))

instance (roleId : ℕ) : Decidable (db.Grants roleId) :=
  inferInstanceAs (Decidable (∃ role ∈ db.roles, role.id = roleId ∧ _))

/-- No user has the id or the name. -/
def Free (nid : ℕ) (username : String) : Prop :=
  ∀ user ∈ db.users, user.id ≠ nid ∧ user.username ≠ username

variable {db}

/-- A user manages permissions by its own map or, where that has no entry, by its role. -/
theorem manages_iff {user : User} : db.Manages user ↔
    user.perms.allows rbacCanManagePermissions ∨
      rbacCanManagePermissions ∉ user.perms ∧ db.Grants user.roleId := by
  have hrole : (((db.role? user.roleId).bind Role.permissions).getD ∅).allows
      rbacCanManagePermissions ↔ db.Grants user.roleId := by
    cases hr : db.role? user.roleId with
    | none =>
      refine iff_of_false PermissionMap.not_allows_empty ?_
      rintro ⟨role, hrole, hid, -⟩
      exact Table.find?_eq_none.1 hr role hrole hid
    | some role =>
      obtain ⟨hmem, hid⟩ := Table.find?_eq_some.1 hr
      constructor
      · intro h
        exact ⟨role, hmem, hid, h⟩
      · rintro ⟨role', hmem', hid', h⟩
        rw [Table.eq_of_pk hmem' hmem (hid'.trans hid.symm)] at h
        exact h
  rw [← hrole, Manages, effectivePermissions, PermissionMap.allows_iff,
    buildEffectivePermissions_lookup, ← Finmap.lookup_eq_none, PermissionMap.allows_iff,
    PermissionMap.allows_iff, User.perms]
  cases (user.permissions.getD ∅).lookup rbacCanManagePermissions with
  | none => simp
  | some b => simp

/-- A new user has no entries of its own. -/
theorem manages_new_iff {nid : ℕ} {username password : String} {roleId : ℕ} :
    db.Manages ⟨nid, username, password, roleId, some ∅⟩ ↔ db.Grants roleId := by
  rw [manages_iff]
  have hno : ¬ (User.perms ⟨nid, username, password, roleId, some ∅⟩).allows
      rbacCanManagePermissions := PermissionMap.not_allows_empty
  rw [or_iff_right hno]
  exact and_iff_right Finmap.notMem_empty

end Database

/-! ## What an operation can add -/

variable {db db' : Database} {nid : ℕ} {op : Operation}

/-- The operation is accepted and puts the user `userId` in a role whose map grants
`rbac_can_manage_permissions` while the map of the user does not mention it. -/
def Operation.Promotes (nid : ℕ) (db : Database) (userId : ℕ) : Operation → Prop
  | .createUserAdmin username _ roleId => userId = nid ∧ db.Free nid username ∧ db.Grants roleId
  | .updateUserAdmin target username (some roleId) =>
    userId = target ∧ db.Grants roleId ∧
      (∃ user ∈ db.users, user.id = target ∧ rbacCanManagePermissions ∉ user.perms) ∧
      ∀ name, username = some name → ∀ u ∈ db.users, u.id ≠ target → u.username ≠ name
  | .signup username _ =>
    userId = nid ∧ db.Free nid username ∧ ∃ role ∈ db.roles, role.id = defaultSignupRoleId ∧
      role.name = defaultSignupRoleName ∧ role.perms.allows rbacCanManagePermissions
  | _ => False

/-- A request that changes no permissions makes no role grant more. -/
theorem RolesEffect.grants (h : RolesEffect nid db op db'.roles)
    (hop : op.requiredPermission ≠ some rbacCanManagePermissions)
    (hstart : ∀ small large, op ≠ .runBootstrapSeeding small large) {i : ℕ} (hi : db'.Grants i) :
    db.Grants i := by
  obtain ⟨role, hrole, rfl, hallows⟩ := hi
  generalize hroles : db'.roles = roles at h hrole
  cases h with
  | same => exact ⟨role, hrole, rfl, hallows⟩
  | create ht =>
    rcases (Table.mem_insert ht).1 hrole with hrole | rfl
    · exact ⟨role, hrole, rfl, hallows⟩
    · exact absurd hallows PermissionMap.not_allows_empty
  | update hold _ ht =>
    rcases (Table.mem_modify ht).1 hrole with ⟨hrole, -⟩ | ⟨_, -, -, rfl⟩
    · exact ⟨role, hrole, rfl, hallows⟩
    · exact ⟨_, hold, rfl, hallows⟩
  | delete => exact ⟨role, (Table.mem_erase.1 hrole).1, rfl, hallows⟩
  | signup ht =>
    rcases (Table.mem_insert ht).1 hrole with hrole | rfl
    · exact ⟨role, hrole, rfl, hallows⟩
    · exact absurd hallows (by decide)
  | seed => exact absurd rfl (hstart _ _)
  | patch | reset | append => exact absurd rfl hop

/-- Whoever manages permissions after a request that changes none did so before or has been
promoted by it. -/
theorem UsersEffect.manages_cases (h : UsersEffect nid db op db')
    (hgrants : ∀ i, db'.Grants i → db.Grants i)
    (hop : op.requiredPermission ≠ some rbacCanManagePermissions) {user : User}
    (huser : user ∈ db'.users) (hm : db'.Manages user) :
    (∃ old ∈ db.users, old.id = user.id ∧ db.Manages old) ∨ op.Promotes nid db user.id := by
  have hkept : ∀ u : User, db'.Manages u → db.Manages u := by
    intro u hu
    rw [Database.manages_iff] at hu ⊢
    exact hu.imp_right fun ⟨hno, hg⟩ => ⟨hno, hgrants _ hg⟩
  cases h with
  | same _ heq => exact Or.inl ⟨user, heq ▸ huser, rfl, hkept user hm⟩
  | create hrole ht =>
    rcases (Table.mem_insert ht).1 huser with hold | rfl
    · exact Or.inl ⟨user, hold, rfl, hkept user hm⟩
    · exact Or.inr ⟨rfl, fun u hu => Table.insert_fresh ht hu,
        hgrants _ (Database.manages_new_iff.1 hm)⟩
  | @update old username roleId _ hold hrole ht =>
    rcases (Table.mem_modify_of_mem ht hold).1 huser with ⟨hkeep, -⟩ | rfl
    · exact Or.inl ⟨user, hkeep, rfl, hkept user hm⟩
    have hold' := hkept _ hm
    rw [UserChanges.apply_userChanges, Database.manages_iff] at hold'
    rcases hold' with hown | ⟨hno, hg⟩
    · exact Or.inl ⟨old, hold, rfl, Database.manages_iff.2 (Or.inl hown)⟩
    cases roleId with
    | none => exact Or.inl ⟨old, hold, rfl, Database.manages_iff.2 (Or.inr ⟨hno, hg⟩)⟩
    | some rid =>
      refine Or.inr ⟨rfl, hg, ⟨old, hold, rfl, hno⟩, ?_⟩
      rintro name rfl u hu hne hname
      refine Table.modify_fresh ht hold rfl rfl hu hne ?_
      rw [hname, UserChanges.apply_userChanges]
      rfl
  | password hold ht =>
    rcases (Table.mem_modify ht).1 huser with ⟨hkeep, -⟩ | ⟨r, hr, -, rfl⟩
    · exact Or.inl ⟨user, hkeep, rfl, hkept user hm⟩
    · exact Or.inl ⟨r, hr, rfl, hkept _ hm⟩
  | delete => exact Or.inl ⟨user, (Table.mem_erase.1 huser).1, rfl, hkept user hm⟩
  | @signup username passwordHash role db₁ _ hget ht =>
    rcases (Table.mem_insert ht).1 huser with hkeep | rfl
    · exact Or.inl ⟨user, hkeep, rfl, hkept user hm⟩
    obtain ⟨role', hrole', hid', hallows⟩ := hgrants _ (Database.manages_new_iff.1 hm)
    rcases getOrCreateDefaultSignupRoleWithConfig_ok hget with
      ⟨hrole, hid, hname, -⟩ | ⟨rfl, t, ht', -⟩
    · rw [Table.eq_of_pk hrole' hrole hid'] at hallows
      exact Or.inr ⟨rfl, fun u hu => Table.insert_fresh ht hu, role, hrole, hid, hname, hallows⟩
    · exact absurd hid' (Table.insert_fresh ht' hrole').1
  | patch | reset => exact absurd rfl hop

/-- A promotion takes effect. -/
theorem Operation.Promotes.exists_manages {userId : ℕ} (h : op.Promotes nid db userId) :
    ∃ db', op.run nid db = .ok db' ∧ ∃ user ∈ db'.users, user.id = userId ∧ db'.Manages user := by
  cases op with
  | createUserAdmin username password roleId =>
    obtain ⟨rfl, hfree, hg⟩ := h
    obtain ⟨t, ht⟩ := Table.exists_insert (r := ⟨userId, username, password, roleId, some ∅⟩)
      (fun u hu => (hfree u hu).1) (fun u hu => (hfree u hu).2)
    obtain ⟨role, hrole, hid, hallows⟩ := hg
    refine ⟨{ db with users := t }, Except.map_eq_ok.2 ⟨(_, _),
      createUserAdmin_ok.2 ⟨⟨role, hrole, hid⟩, rfl, t, ht, rfl⟩, rfl⟩, _,
      (Table.mem_insert ht).2 (Or.inr rfl), rfl, ?_⟩
    exact Database.manages_new_iff.2 ⟨role, hrole, hid, hallows⟩
  | updateUserAdmin target username roleId =>
    cases roleId with
    | none => cases h
    | some rid =>
      obtain ⟨rfl, hg, ⟨user, huser, rfl, hno⟩, hname⟩ := h
      obtain ⟨role, hrole, hid, hallows⟩ := hg
      have hgiven : ∀ r, some rid = some r → ∃ role ∈ db.roles, role.id = r := by
        rintro _ ⟨⟩
        exact ⟨role, hrole, hid⟩
      obtain ⟨t, ht, hok⟩ := updateUserAdmin_exists_ok huser hname hgiven
      refine ⟨{ db with users := t }, Except.map_eq_ok.2 ⟨(_, _), hok, rfl⟩, _,
        Table.mem_modify_self ht huser, rfl, ?_⟩
      rw [UserChanges.apply_userChanges]
      exact Database.manages_iff.2 (Or.inr ⟨hno, role, hrole, hid, hallows⟩)
  | signup username passwordHash =>
    obtain ⟨rfl, hfree, role, hrole, hid, hname, hallows⟩ := h
    obtain ⟨t, ht⟩ := Table.exists_insert (r := ⟨userId, username, passwordHash, role.id, some ∅⟩)
      (fun u hu => (hfree u hu).1) (fun u hu => (hfree u hu).2)
    have hget := getOrCreateDefaultSignupRoleWithConfig_of_mem hrole hid hname
    refine ⟨{ db with users := t }, Except.map_eq_ok.2 ⟨(_, _),
      signup_ok.2 ⟨role, db, hget, rfl, t, ht, rfl⟩, rfl⟩, _,
      (Table.mem_insert ht).2 (Or.inr rfl), rfl, ?_⟩
    exact Database.manages_new_iff.2 ⟨role, hrole, rfl, hallows⟩
  | _ => cases h

/-! ## A party and its accounts -/

structure ControlState where
  db : Database
  controlled : List ℕ

/-- A request with a token of a controlled account, a signup by the party itself, or a request of
someone else. -/
inductive ControlEvent where
  | own (nid userId : ℕ) (subject : String) (op : Operation)
  | signup (nid : ℕ) (username passwordHash : String)
  | foreign (nid : ℕ) (op : Operation)

/-- The accounts that a request with the new identifier `nid` brings under control. -/
def Operation.newControl (nid : ℕ) : Operation → List ℕ
  | .createUserAdmin .. => [nid]
  | .setUserPasswordAdmin userId _ => [userId]
  | _ => []

theorem Operation.newControl_cases {i : ℕ} (h : i ∈ op.newControl nid) :
    op.CreatesUser ∧ i = nid ∨ ∃ password, op = .setUserPasswordAdmin i password := by
  cases op with
  | createUserAdmin => exact Or.inl ⟨trivial, List.mem_singleton.1 h⟩
  | setUserPasswordAdmin userId password =>
    obtain rfl := List.mem_singleton.1 h
    exact Or.inr ⟨password, rfl⟩
  | _ => cases h

/-- Others change neither roles nor permissions meanwhile. -/
def Operation.KeepsRoles : Operation → Prop
  | .createUserAdmin .. | .updateUserAdmin _ _ none | .setUserPasswordAdmin .. | .deleteUserAdmin _
  | .signup .. => True
  | _ => False

instance : DecidablePred Operation.KeepsRoles := by
  intro op
  unfold Operation.KeepsRoles
  split <;> infer_instance

theorem Operation.KeepsRoles.requiredPermission_ne (hop : op.KeepsRoles) :
    op.requiredPermission ≠ some rbacCanManagePermissions := by
  have hcreate : some rbacUsersCreate ≠ some rbacCanManagePermissions := by decide
  have hmanage : some rbacUsersManage ≠ some rbacCanManagePermissions := by decide
  cases op with
  | createUserAdmin => exact hcreate
  | updateUserAdmin | setUserPasswordAdmin | deleteUserAdmin => exact hmanage
  | signup => exact nofun
  | _ => cases hop

namespace ControlState

variable (s : ControlState)

def token (userId : ℕ) (subject : String) : TokenPayload :=
  ⟨some (.str subject), some (.int userId)⟩

def step : ControlEvent → ControlState
  | .own nid userId subject op =>
    if userId ∈ s.controlled then
      match request nid s.db (token userId subject) op with
      | .ok db' => ⟨db', op.newControl nid ++ s.controlled⟩
      | .error _ => s
    else s
  | .signup nid username passwordHash =>
    match (Operation.signup username passwordHash).run nid s.db with
    | .ok db' => ⟨db', nid :: s.controlled⟩
    | .error _ => s
  | .foreign nid op => if op.KeepsRoles then { s with db := op.step nid s.db } else s

/-- No controlled account manages permissions. -/
def Safe : Prop :=
  ∀ user ∈ s.db.users, user.id ∈ s.controlled → ¬ s.db.Manages user

/-- The actor of the token has the permission that the endpoint requires. -/
def Authorized (userId : ℕ) (subject : String) (op : Operation) : Prop :=
  ∃ key, op.requiredPermission = some key ∧ ∃ actor,
    getCurrentActor s.db (token userId subject) = .ok actor ∧ actor.effectivePermissions.allows key

/-- The event promotes a controlled account, or it sets the password of an account that manages
permissions. -/
def Escalates : ControlEvent → Prop
  | .own nid userId subject op =>
    userId ∈ s.controlled ∧ s.Authorized userId subject op ∧
      ((∃ i ∈ op.newControl nid ++ s.controlled, op.Promotes nid s.db i) ∨
        ∃ user ∈ s.db.users, (∃ password, op = .setUserPasswordAdmin user.id password) ∧
          s.db.Manages user)
  | .signup nid username passwordHash =>
    (Operation.signup username passwordHash).Promotes nid s.db nid
  | .foreign nid op => op.KeepsRoles ∧ ∃ i ∈ s.controlled, op.Promotes nid s.db i

variable {s : ControlState}

/-- Whoever passes the check for `rbac_can_manage_permissions` manages permissions. -/
theorem exists_manages_of_actor {userId : ℕ} {subject : String} {actor : CurrentActor}
    (h : getCurrentActor s.db (token userId subject) = .ok actor)
    (hallows : actor.effectivePermissions.allows rbacCanManagePermissions) :
    ∃ user ∈ s.db.users, user.id = userId ∧ s.db.Manages user := by
  have hpos : 0 < userId := by
    rcases Nat.eq_zero_or_pos userId with rfl | hpos
    · cases h
    · exact hpos
  simp only [getCurrentActor, Except.bind_eq_ok, Prod.exists] at h
  obtain ⟨user, role, hf, h⟩ := h
  cases h
  obtain ⟨⟨huser, hid⟩, hrole, hrid⟩ := (findTokenAccount_ok hpos rfl).1 hf
  refine ⟨user, huser, hid, ?_⟩
  have hfind : s.db.role? user.roleId = some role := Table.find?_eq_some.2 ⟨hrole, hrid⟩
  rw [Database.Manages, Database.effectivePermissions, hfind]
  exact hallows

/-! ## One event -/

theorem Safe.own (h : s.Safe) {nid userId : ℕ} {subject : String} {op : Operation}
    (he : ¬ s.Escalates (.own nid userId subject op)) :
    (s.step (.own nid userId subject op)).Safe := by
  by_cases hc : userId ∈ s.controlled
  swap
  · rw [step, if_neg hc]
    exact h
  rw [step, if_pos hc]
  cases hreq : request nid s.db (token userId subject) op with
  | error _ => exact h
  | ok db' =>
    obtain ⟨key, actor, hkey, hactor, hallows, -, hrun⟩ := request_ok.1 hreq
    have hop : op.requiredPermission ≠ some rbacCanManagePermissions := by
      intro hm
      rw [hkey, Option.some.injEq] at hm
      obtain ⟨user, huser, hid, hmanages⟩ := exists_manages_of_actor hactor (hm ▸ hallows)
      exact h user huser (hid ▸ hc) hmanages
    have hstart : ∀ small large, op ≠ .runBootstrapSeeding small large := by
      rintro small large rfl
      cases hkey
    have hauth : s.Authorized userId subject op := ⟨key, hkey, actor, hactor, hallows⟩
    have heff := Operation.usersEffect hrun
    intro user huser hmem hm
    rcases heff.manages_cases (fun i hi => (Operation.rolesEffect hrun).grants hop hstart hi) hop
      huser hm with ⟨old, hold, hid, hmold⟩ | hp
    · rcases List.mem_append.1 hmem with hnew | hmem
      · rcases Operation.newControl_cases hnew with ⟨hcreates, hnid⟩ | ⟨password, rfl⟩
        · exact heff.fresh hcreates old hold (hid.trans hnid)
        · exact he ⟨hc, hauth, Or.inr ⟨old, hold, ⟨password, by rw [hid]⟩, hmold⟩⟩
      · exact h old hold (hid ▸ hmem) hmold
    · exact he ⟨hc, hauth, Or.inl ⟨user.id, hmem, hp⟩⟩

theorem Safe.step (h : s.Safe) {e : ControlEvent} (he : ¬ s.Escalates e) : (s.step e).Safe := by
  cases e with
  | own nid userId subject op => exact h.own he
  | signup nid username passwordHash =>
    show Safe (match (Operation.signup username passwordHash).run nid s.db with
      | .ok db' => ⟨db', nid :: s.controlled⟩
      | .error _ => s)
    cases hrun : (Operation.signup username passwordHash).run nid s.db with
    | error _ => exact h
    | ok db' =>
      have heff := Operation.usersEffect hrun
      intro user huser hmem hm
      rcases heff.manages_cases (fun i hi => (Operation.rolesEffect hrun).grants nofun nofun hi)
        nofun huser hm with ⟨old, hold, hid, hmold⟩ | hp
      · rcases List.mem_cons.1 hmem with hnew | hmem
        · exact heff.fresh trivial old hold (hid.trans hnew)
        · exact h old hold (hid ▸ hmem) hmold
      · exact he (hp.1 ▸ hp)
  | foreign nid op =>
    by_cases hop : op.KeepsRoles
    swap
    · rw [ControlState.step, if_neg hop]
      exact h
    rw [ControlState.step, if_pos hop]
    have hkey := hop.requiredPermission_ne
    have hstart : ∀ small large, op ≠ .runBootstrapSeeding small large := by
      rintro small large rfl
      cases hop
    refine Operation.step_induct (P := fun db' => Safe ⟨db', s.controlled⟩) h fun db' hrun => ?_
    intro user huser hmem hm
    rcases (Operation.usersEffect hrun).manages_cases
      (fun i hi => (Operation.rolesEffect hrun).grants hkey hstart hi) hkey huser hm with
      ⟨old, hold, hid, hmold⟩ | hp
    · exact h old hold (hid ▸ hmem) hmold
    · exact he ⟨hop, user.id, hmem, hp⟩

/-- An escalation takes effect. -/
theorem Safe.not_escalates {e : ControlEvent} (h : (s.step e).Safe) : ¬ s.Escalates e := by
  cases e with
  | own nid userId subject op =>
    rintro ⟨hc, ⟨key, hkey, actor, hactor, hallows⟩, hesc⟩
    have hself : ∀ {db'}, op.run nid s.db = .ok db' → checkSelfDelete actor op = .ok () →
        s.step (.own nid userId subject op) = ⟨db', op.newControl nid ++ s.controlled⟩ := by
      intro db' hrun hself
      rw [ControlState.step, if_pos hc,
        request_ok.2 ⟨key, actor, hkey, hactor, hallows, hself, hrun⟩]
    rcases hesc with ⟨i, hi, hp⟩ | ⟨user, huser, ⟨password, rfl⟩, hm⟩
    · obtain ⟨db', hrun, user, huser, rfl, hm⟩ := hp.exists_manages
      have hcheck : checkSelfDelete actor op = .ok () := by
        cases op with
        | deleteUserAdmin => cases hp
        | _ => rfl
      rw [hself hrun hcheck] at h
      exact h user huser hi hm
    · obtain ⟨t, ht, hok⟩ := setUserPasswordAdmin_exists_ok huser password
      rw [hself (Except.map_eq_ok.2 ⟨(_, _), hok, rfl⟩) rfl] at h
      exact h { user with password } (Table.mem_modify_self ht huser)
        List.mem_cons_self hm
  | signup nid username passwordHash =>
    rintro (hp : (Operation.signup username passwordHash).Promotes nid s.db nid)
    obtain ⟨db', hrun, user, huser, hid, hm⟩ := hp.exists_manages
    have hstep : s.step (.signup nid username passwordHash) = ⟨db', nid :: s.controlled⟩ := by
      rw [ControlState.step, hrun]
    rw [hstep] at h
    exact h user huser (hid ▸ List.mem_cons_self) hm
  | foreign nid op =>
    rintro ⟨hop, i, hi, hp⟩
    obtain ⟨db', hrun, user, huser, rfl, hm⟩ := hp.exists_manages
    have hstep : s.step (.foreign nid op) = { s with db := db' } := by
      rw [ControlState.step, if_pos hop, Operation.step, hrun]
    rw [hstep] at h
    exact h user huser hi hm

end ControlState

/-! ## Every run -/

/-- An actor without `rbac_can_manage_permissions` never controls an account that has it exactly
when no event of the run escalates. -/
theorem always_safe_iff (db : Database) (actorId : ℕ)
    (h : ∀ user ∈ db.users, user.id = actorId → ¬ db.Manages user) (events : List ControlEvent) :
    Transition.Always ControlState.step ControlState.Safe ⟨db, [actorId]⟩ events ↔
      Transition.Along ControlState.step (fun s e => ¬ s.Escalates e) ⟨db, [actorId]⟩ events := by
  refine Transition.always_iff_along (J := ControlState.Safe) (fun _ hs => hs)
    (fun _ _ hs he => hs.step he) (fun _ _ _ hs => hs.not_escalates) ?_ events
  intro user huser hmem
  exact h user huser (List.mem_singleton.1 hmem)

/-- A student who may create users. -/
def helperDatabase : Database :=
  let db := (Operation.signup "helper" "hash").step 1 seededDatabase
  (Operation.patchUserPermissions 1 [⟨rbacUsersCreate, .bool true⟩].toAList).step 0 db

theorem always_safe_create_student : Transition.Always ControlState.step ControlState.Safe
    ⟨helperDatabase, [1]⟩ [.own 2 1 "helper" (.createUserAdmin "student" "hash" 6)] := by
  refine (always_safe_iff helperDatabase 1 (by decide +kernel) _).2 ⟨?_, trivial⟩
  have hstudent : ¬ helperDatabase.Grants 6 := by decide +kernel
  rintro ⟨-, -, ⟨i, -, -, -, hgrants⟩ | ⟨user, -, ⟨password, hop⟩, -⟩⟩
  · exact hstudent hgrants
  · cases hop

/-- The student creates a user in the SuperAdmin role. -/
theorem create_superadmin_not_safe :
    (∀ user ∈ helperDatabase.users, user.id = 1 → ¬ helperDatabase.Manages user) ∧
      ¬ Transition.Always ControlState.step ControlState.Safe ⟨helperDatabase, [1]⟩
        [.own 2 1 "helper" (.createUserAdmin "puppet" "hash" 1)] := by
  refine ⟨by decide +kernel, fun h => ?_⟩
  exact h.last ⟨2, "puppet", "hash", 1, some ∅⟩ (by decide +kernel) (by decide +kernel)
    (by decide +kernel)

end AranesLms
