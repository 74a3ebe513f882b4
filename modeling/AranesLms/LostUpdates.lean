import Mathlib.Data.List.Permutation
import AranesLms.I18n.Crud
import AranesLms.Lib.ReadModifyWrite
import AranesLms.UserRole.Operations

/-!
# Concurrent updates of stored maps

The requests that read a JSON map in one step and write it in another, as an instance of
`ReadModifyWrite`.  Nothing locks the row in between, so an update can be lost
(`concurrent_patches_not_serializable`); a run in which each map that is written back is still the
one that was read is serializable (`mapUpdates_serializable`).
-/

namespace AranesLms

inductive MapRequest where
  | patchRolePermissions (roleId : ℕ) (permissionPatch : PermissionPatch)
  | patchUserPermissions (userId : ℕ) (permissionPatch : PermissionPatch)
  | appendRolePermissions (roleName : String) (permissionPatch : PermissionPatch)
  | resetRolePermissions
  | resetUserPermissions
  | upsertSmall (key : String) (translationPatch : TranslationMap)
  | upsertLarge (key1 key2 : String) (translationPatch : TranslationMap)
  deriving DecidableEq

/-- What a request is going to write, with the map it has read or the number of rows it has
counted. -/
inductive MapWrite where
  | rolePermissions (roleId : ℕ) (loaded : Option PermissionMap) (merged : PermissionMap)
  | userPermissions (userId : ℕ) (loaded : Option PermissionMap) (merged : PermissionMap)
  | resetRoles (count : ℕ)
  | resetUsers (count : ℕ)
  | small (key : String) (loaded : Option TranslationMap) (merged : TranslationMap)
  | large (key1 key2 : String) (loaded : Option TranslationMap) (merged : TranslationMap)
  deriving DecidableEq

/-- The map of a role, `none` where it is `NULL` or the role is missing. -/
def Database.rolePermissions (db : Database) (roleId : ℕ) : Option PermissionMap :=
  (db.role? roleId).bind Role.permissions

def Database.userPermissions (db : Database) (userId : ℕ) : Option PermissionMap :=
  (db.user? userId).bind User.permissions

/-- The write of a role that a read returned with its new map. -/
def MapWrite.ofRole (db : Database) (role : Role) : MapWrite :=
  .rolePermissions role.id (db.rolePermissions role.id) role.perms

def MapWrite.ofUser (db : Database) (user : User) : MapWrite :=
  .userPermissions user.id (db.userPermissions user.id) user.perms

/-- The read step. -/
def MapRequest.read (db : Database) : MapRequest → Option MapWrite
  | patchRolePermissions roleId patch =>
    (readPatchRole db roleId patch).toOption.map (MapWrite.ofRole db)
  | patchUserPermissions userId patch =>
    (readPatchUser db userId patch).toOption.map (MapWrite.ofUser db)
  | appendRolePermissions roleName patch =>
    (readAppendRole db roleName patch).toOption.map (MapWrite.ofRole db)
  | resetRolePermissions => some (.resetRoles (countResetRoles db))
  | resetUserPermissions => some (.resetUsers db.users.rows.length)
  | upsertSmall key patch =>
    let existingItem := getSmallOptional db key
    some (.small key existingItem (mergeTranslationPatch existingItem patch))
  | upsertLarge key1 key2 patch =>
    let existingItem := getLargeOptional db key1 key2
    some (.large key1 key2 existingItem (mergeTranslationPatch existingItem patch))

namespace MapWrite

/-- The write and commit step.  The session emits no `UPDATE` for a map that is equal to the one
it has loaded. -/
def write (db : Database) : MapWrite → Option Database
  | rolePermissions roleId loaded merged =>
    if loaded = some merged then some db else (writeRolePermissions db roleId merged).toOption
  | userPermissions userId loaded merged =>
    if loaded = some merged then some db else (writeUserPermissions db userId merged).toOption
  | resetRoles count => if count = 0 then some db else some (writeResetRoles db)
  | resetUsers count => if count = 0 then some db else some (writeResetUsers db)
  | small key loaded merged => (writeSmall db key loaded merged).toOption
  | large key1 key2 loaded merged => (writeLarge db key1 key2 loaded merged).toOption

/-- Nothing is written. -/
def Idle : MapWrite → Prop
  | rolePermissions _ loaded merged | userPermissions _ loaded merged => loaded = some merged
  | resetRoles count | resetUsers count => count = 0
  | small _ loaded merged | large _ _ loaded merged => loaded = some merged

/-- The map that was read is still the stored one.  A reset reads no map, and an insertion fails
by itself when it comes too late. -/
def CopyCurrent (db : Database) : MapWrite → Prop
  | rolePermissions roleId loaded _ => db.rolePermissions roleId = loaded
  | userPermissions userId loaded _ => db.userPermissions userId = loaded
  | resetRoles _ | resetUsers _ => True
  | small key (some m) _ => getSmallOptional db key = some m
  | large key1 key2 (some m) _ => getLargeOptional db key1 key2 = some m
  | small _ none _ | large _ _ none _ => True

theorem write_of_idle (p : MapWrite) (db : Database) (h : p.Idle) : p.write db = some db := by
  cases p with
  | rolePermissions roleId loaded merged => exact if_pos h
  | userPermissions userId loaded merged => exact if_pos h
  | resetRoles count => exact if_pos h
  | resetUsers count => exact if_pos h
  | small key loaded merged =>
    obtain rfl : loaded = some merged := h
    rw [write, writeSmall, if_pos rfl]
    rfl
  | large key1 key2 loaded merged =>
    obtain rfl : loaded = some merged := h
    rw [write, writeLarge, if_pos rfl]
    rfl

end MapWrite

/-! ## Rows

No request inserts, deletes or renames a role or a user. -/

/-- The databases have the same roles and users up to their other columns. -/
structure SameRows (db db' : Database) : Prop where
  roles : db'.roles.rows.map (fun role => (role.id, role.name)) =
    db.roles.rows.map fun role => (role.id, role.name)
  users : db'.users.rows.map User.id = db.users.rows.map User.id

namespace SameRows

variable {db db' db'' : Database}

theorem refl (db : Database) : SameRows db db := ⟨rfl, rfl⟩

theorem trans (h : SameRows db db') (h' : SameRows db' db'') : SameRows db db'' :=
  ⟨h'.roles.trans h.roles, h'.users.trans h.users⟩

theorem exists_role (h : SameRows db db') {role : Role} (hrole : role ∈ db.roles) :
    ∃ role' ∈ db'.roles, role'.id = role.id ∧ role'.name = role.name := by
  have hmem := List.mem_map_of_mem (f := fun role : Role => (role.id, role.name)) hrole
  rw [← h.roles] at hmem
  obtain ⟨role', hrole', heq⟩ := List.mem_map.1 hmem
  exact ⟨role', hrole', congrArg Prod.fst heq, congrArg Prod.snd heq⟩

theorem exists_user (h : SameRows db db') {user : User} (huser : user ∈ db.users) :
    ∃ user' ∈ db'.users, user'.id = user.id := by
  have hmem := List.mem_map_of_mem (f := User.id) huser
  rw [← h.users] at hmem
  exact List.mem_map.1 hmem

theorem countResetRoles (h : SameRows db db') : countResetRoles db' = countResetRoles db := by
  have hcount : ∀ db : Database, AranesLms.countResetRoles db =
      (db.roles.rows.map fun role => (role.id, role.name)).countP fun key =>
        ¬ (key.1 = superadminRoleId ∨ key.2 = superadminRoleName) := by
    intro db
    rw [List.countP_map, AranesLms.countResetRoles, ← List.countP_eq_length_filter]
    rfl
  rw [hcount, hcount, h.roles]

theorem length_users (h : SameRows db db') : db'.users.rows.length = db.users.rows.length := by
  have hlength := congrArg List.length h.users
  rwa [List.length_map, List.length_map] at hlength

end SameRows

theorem MapWrite.sameRows {p : MapWrite} {db db' : Database} (h : p.write db = some db') :
    SameRows db db' := by
  cases p with
  | rolePermissions roleId loaded merged =>
    rw [write] at h
    split_ifs at h
    · cases h
      exact .refl db
    · obtain ⟨t, ht, rfl⟩ := writeRolePermissions_ok.1 (Except.toOption_eq_some.1 h)
      exact ⟨Table.map_rows_modify ht fun _ => rfl, rfl⟩
  | userPermissions userId loaded merged =>
    rw [write] at h
    split_ifs at h
    · cases h
      exact .refl db
    · obtain ⟨t, ht, rfl⟩ := writeUserPermissions_ok.1 (Except.toOption_eq_some.1 h)
      exact ⟨rfl, Table.map_rows_modify ht fun _ => rfl⟩
  | resetRoles count =>
    rw [write] at h
    split_ifs at h <;> cases h
    · exact .refl db
    · refine ⟨?_, rfl⟩
      rw [writeResetRoles, Table.mapRows, List.map_map]
      exact List.map_congr_left fun role _ => Prod.ext (resetRole_id role) (resetRole_name role)
  | resetUsers count =>
    rw [write] at h
    split_ifs at h <;> cases h
    · exact .refl db
    · refine ⟨rfl, ?_⟩
      rw [writeResetUsers, Table.mapRows, List.map_map]
      exact List.map_congr_left fun user _ => rfl
  | small key loaded merged =>
    have h := Except.toOption_eq_some.1 h
    unfold writeSmall at h
    split at h <;> split_ifs at h <;> cases h <;> exact ⟨rfl, rfl⟩
  | large key1 key2 loaded merged =>
    have h := Except.toOption_eq_some.1 h
    unfold writeLarge at h
    split at h <;> split_ifs at h <;> cases h <;> exact ⟨rfl, rfl⟩

/-! ## Reading again -/

theorem Database.rolePermissions_of_mem {db : Database} {role : Role} (h : role ∈ db.roles) :
    db.rolePermissions role.id = role.permissions := by
  rw [rolePermissions, role?, Table.find?_pk h, Option.bind_some]

theorem Database.userPermissions_of_mem {db : Database} {user : User} (h : user ∈ db.users) :
    db.userPermissions user.id = user.permissions := by
  rw [userPermissions, user?, Table.find?_pk h, Option.bind_some]

theorem MapWrite.ofRole_eq {db₁ db : Database} {old new : Role} {m : PermissionMap}
    (hold : old ∈ db₁.roles) (hnew : new ∈ db.roles) (hid : new.id = old.id)
    (hcopy : (ofRole db₁ { old with permissions := some (m ∪ old.perms) }).CopyCurrent db) :
    new.permissions = old.permissions ∧
      ofRole db { new with permissions := some (m ∪ new.perms) } =
        ofRole db₁ { old with permissions := some (m ∪ old.perms) } := by
  have hcopy : db.rolePermissions old.id = db₁.rolePermissions old.id := hcopy
  have hperms : new.permissions = old.permissions := by
    rw [← Database.rolePermissions_of_mem hold, ← Database.rolePermissions_of_mem hnew, hid, hcopy]
  refine ⟨hperms, ?_⟩
  show rolePermissions new.id (db.rolePermissions new.id) (m ∪ new.perms) = _
  rw [hid, hcopy, Role.perms, hperms]
  rfl

theorem MapWrite.ofUser_eq {db₁ db : Database} {old new : User} {m : PermissionMap}
    (hold : old ∈ db₁.users) (hnew : new ∈ db.users) (hid : new.id = old.id)
    (hcopy : (ofUser db₁ { old with permissions := some (m ∪ old.perms) }).CopyCurrent db) :
    ofUser db { new with permissions := some (m ∪ new.perms) } =
      ofUser db₁ { old with permissions := some (m ∪ old.perms) } := by
  have hcopy : db.userPermissions old.id = db₁.userPermissions old.id := hcopy
  have hperms : new.permissions = old.permissions := by
    rw [← Database.userPermissions_of_mem hold, ← Database.userPermissions_of_mem hnew, hid, hcopy]
  show userPermissions new.id (db.userPermissions new.id) (m ∪ new.perms) = _
  rw [hid, hcopy, User.perms, hperms]
  rfl

/-- A translation that is written to the place it was read from is still the stored one. -/
theorem getSmallOptional_of_copyCurrent {db db' : Database} {key : String}
    {loaded : Option TranslationMap} {merged : TranslationMap}
    (hcopy : (MapWrite.small key loaded merged).CopyCurrent db)
    (hwrite : (MapWrite.small key loaded merged).write db = some db') :
    getSmallOptional db key = loaded := by
  cases loaded with
  | some m => exact hcopy
  | none =>
    have hwrite := Except.toOption_eq_some.1 hwrite
    rw [writeSmall] at hwrite
    split_ifs at hwrite with hmem
    exact Finmap.lookup_eq_none.2 hmem

theorem getLargeOptional_of_copyCurrent {db db' : Database} {key1 key2 : String}
    {loaded : Option TranslationMap} {merged : TranslationMap}
    (hcopy : (MapWrite.large key1 key2 loaded merged).CopyCurrent db)
    (hwrite : (MapWrite.large key1 key2 loaded merged).write db = some db') :
    getLargeOptional db key1 key2 = loaded := by
  cases loaded with
  | some m => exact hcopy
  | none =>
    have hwrite := Except.toOption_eq_some.1 hwrite
    rw [writeLarge] at hwrite
    split_ifs at hwrite with hmem
    exact Finmap.lookup_eq_none.2 hmem

/-- A request that has read the map which is still stored would read the same again. -/
theorem MapRequest.read_of_copyCurrent {r : MapRequest} {p : MapWrite} {db₁ db db' : Database}
    (hread : r.read db₁ = some p) (hrows : SameRows db₁ db) (hcopy : p.CopyCurrent db)
    (hwrite : p.write db = some db') : r.read db = some p := by
  cases r with
  | patchRolePermissions roleId patch =>
    obtain ⟨role, hrole, rfl⟩ := Option.map_eq_some_iff.1 hread
    obtain ⟨m, hm, old, hold, hroleId, hs, rfl⟩ :=
      readPatchRole_ok.1 (Except.toOption_eq_some.1 hrole)
    obtain ⟨new, hnew, hid, hname⟩ := hrows.exists_role hold
    have hs' : ¬ isSuperadminRole new := by rwa [isSuperadminRole, hid, hname]
    apply Option.map_eq_some_iff.2
    refine ⟨_, Except.toOption_eq_some.2 (readPatchRole_ok.2 ⟨m, hm, new, hnew, ?_, hs', rfl⟩),
      (MapWrite.ofRole_eq hold hnew hid hcopy).2⟩
    rw [hid, hroleId]
  | patchUserPermissions userId patch =>
    obtain ⟨user, huser, rfl⟩ := Option.map_eq_some_iff.1 hread
    obtain ⟨m, hm, old, hold, huserId, rfl⟩ :=
      readPatchUser_ok.1 (Except.toOption_eq_some.1 huser)
    obtain ⟨new, hnew, hid⟩ := hrows.exists_user hold
    apply Option.map_eq_some_iff.2
    refine ⟨_, Except.toOption_eq_some.2 (readPatchUser_ok.2 ⟨m, hm, new, hnew, ?_, rfl⟩),
      MapWrite.ofUser_eq hold hnew hid hcopy⟩
    rw [hid, huserId]
  | appendRolePermissions roleName patch =>
    obtain ⟨role, hrole, rfl⟩ := Option.map_eq_some_iff.1 hread
    obtain ⟨m, hm, old, hold, hroleName, hkeys, rfl⟩ :=
      readAppendRole_ok.1 (Except.toOption_eq_some.1 hrole)
    obtain ⟨new, hnew, hid, hname⟩ := hrows.exists_role hold
    obtain ⟨hperms, hsame⟩ := MapWrite.ofRole_eq hold hnew hid hcopy
    apply Option.map_eq_some_iff.2
    refine ⟨_, Except.toOption_eq_some.2 (readAppendRole_ok.2 ⟨m, hm, new, hnew, ?_, ?_, rfl⟩),
      hsame⟩
    · rw [hname, hroleName]
    · rwa [Role.perms, hperms]
  | resetRolePermissions =>
    cases hread
    exact congrArg (fun n => some (MapWrite.resetRoles n)) hrows.countResetRoles
  | resetUserPermissions =>
    cases hread
    exact congrArg (fun n => some (MapWrite.resetUsers n)) hrows.length_users
  | upsertSmall key patch =>
    obtain rfl := Option.some.inj hread
    rw [read, getSmallOptional_of_copyCurrent hcopy hwrite]
  | upsertLarge key1 key2 patch =>
    obtain rfl := Option.some.inj hread
    rw [read, getLargeOptional_of_copyCurrent hcopy hwrite]

/-- The requests as a `ReadModifyWrite`. -/
def mapUpdates : ReadModifyWrite Database MapRequest MapWrite where
  read := fun db r => r.read db
  write := fun p db => p.write db
  idle := MapWrite.Idle
  write_idle := MapWrite.write_of_idle

/-- Condition on a step: what is written comes from the map that is still stored. -/
def CommitsCurrent (s : ReadModifyWrite.State Database MapRequest MapWrite) :
    ReadModifyWrite.Event MapRequest → Prop
  | .read .. => True
  | .write c => ∀ r p, s.calls c = .pending r p → ¬ p.Idle → p.CopyCurrent s.store

/-! ## A request alone -/

/-- What a request does when no other one runs. -/
def MapRequest.run (db : Database) : MapRequest → Except CrudError Database
  | patchRolePermissions roleId patch => Prod.snd <$> AranesLms.patchRolePermissions db roleId patch
  | patchUserPermissions userId patch => Prod.snd <$> AranesLms.patchUserPermissions db userId patch
  | appendRolePermissions roleName patch =>
    Prod.snd <$> createOrAppendRolePermissionsNoOverwrite db roleName patch
  | resetRolePermissions => pure (AranesLms.resetRolePermissions db).2
  | resetUserPermissions => pure (AranesLms.resetUserPermissions db).2
  | upsertSmall key patch => Prod.snd <$> AranesLms.upsertSmall db key patch
  | upsertLarge key1 key2 patch => Prod.snd <$> AranesLms.upsertLarge db key1 key2 patch

theorem write_ofRole (db : Database) (role : Role) :
    (MapWrite.ofRole db role).write db = (writeRolePermissions db role.id role.perms).toOption := by
  rw [MapWrite.ofRole, MapWrite.write]
  split_ifs with hsame
  · have hmodify : db.roles.modify role.id (fun r => { r with permissions := some role.perms }) =
        .ok db.roles := by
      apply Table.modify_eq_self
      rintro ⟨id, name, titleKey, permissions⟩ hr rfl
      rw [← hsame]
      exact congrArg (Role.mk role.id name titleKey) (Database.rolePermissions_of_mem hr)
    rw [writeRolePermissions, hmodify]
    rfl
  · rfl

theorem write_ofUser (db : Database) (user : User) :
    (MapWrite.ofUser db user).write db = (writeUserPermissions db user.id user.perms).toOption := by
  rw [MapWrite.ofUser, MapWrite.write]
  split_ifs with hsame
  · have hmodify : db.users.modify user.id (fun u => { u with permissions := some user.perms }) =
        .ok db.users := by
      apply Table.modify_eq_self
      rintro ⟨id, username, password, roleId, permissions⟩ hu rfl
      rw [← hsame]
      exact congrArg (User.mk user.id username password roleId) (Database.userPermissions_of_mem hu)
    rw [writeUserPermissions, hmodify]
    rfl
  · rfl

/-- The two steps of a request, one right after the other, are the operation. -/
theorem serve_eq_run (db : Database) (r : MapRequest) :
    mapUpdates.serve db r = (r.run db).toOption := by
  cases r with
  | patchRolePermissions roleId patch =>
    show ((readPatchRole db roleId patch).toOption.map (MapWrite.ofRole db)).bind _ = _
    rw [MapRequest.run, patchRolePermissions]
    cases readPatchRole db roleId patch with
    | error e => rfl
    | ok role =>
      refine (write_ofRole db role).trans ?_
      rw [Except.ok_bind, Except.map_snd_bind]
  | patchUserPermissions userId patch =>
    show ((readPatchUser db userId patch).toOption.map (MapWrite.ofUser db)).bind _ = _
    rw [MapRequest.run, patchUserPermissions]
    cases readPatchUser db userId patch with
    | error e => rfl
    | ok user =>
      refine (write_ofUser db user).trans ?_
      rw [Except.ok_bind, Except.map_snd_bind]
  | appendRolePermissions roleName patch =>
    show ((readAppendRole db roleName patch).toOption.map (MapWrite.ofRole db)).bind _ = _
    rw [MapRequest.run, createOrAppendRolePermissionsNoOverwrite]
    cases readAppendRole db roleName patch with
    | error e => rfl
    | ok role =>
      refine (write_ofRole db role).trans ?_
      rw [Except.ok_bind, Except.map_snd_bind]
  | resetRolePermissions =>
    show (if _ = 0 then some db else some (writeResetRoles db)) = _
    rw [MapRequest.run, resetRolePermissions]
    split_ifs <;> rfl
  | resetUserPermissions =>
    show (if _ = 0 then some db else some (writeResetUsers db)) = _
    rw [MapRequest.run, resetUserPermissions]
    split_ifs <;> rfl
  | upsertSmall key patch =>
    show (writeSmall db key _ _).toOption = _
    rw [MapRequest.run, upsertSmall, Except.map_snd_bind]
  | upsertLarge key1 key2 patch =>
    show (writeLarge db key1 key2 _ _).toOption = _
    rw [MapRequest.run, upsertLarge, Except.map_snd_bind]

/-! ## Every run -/

/-- Every pending request has read a database with the rows of the present one. -/
def PendingRead (s : ReadModifyWrite.State Database MapRequest MapWrite) : Prop :=
  ∀ c r p, s.calls c = .pending r p → ∃ db₁, SameRows db₁ s.store ∧ r.read db₁ = some p

theorem PendingRead.setCall {s : ReadModifyWrite.State Database MapRequest MapWrite}
    (h : PendingRead s) (c : ℕ) {x : ReadModifyWrite.Call MapRequest MapWrite}
    (hx : ∀ r p, x = .pending r p → r.read s.store = some p) : PendingRead (s.setCall c x) := by
  intro c' r p hc'
  by_cases hne : c' = c
  · rw [hne, s.setCall_self] at hc'
    exact ⟨s.store, .refl s.store, hx r p hc'⟩
  · rw [s.setCall_of_ne hne] at hc'
    exact h c' r p hc'

theorem PendingRead.step {s : ReadModifyWrite.State Database MapRequest MapWrite}
    (h : PendingRead s) (e : ReadModifyWrite.Event MapRequest) :
    PendingRead (mapUpdates.step s e) := by
  cases e with
  | read c r =>
    unfold ReadModifyWrite.step
    dsimp only
    split
    · split
      · rename_i p hread
        apply h.setCall
        intro r' p' heq
        cases heq
        exact hread
      · exact h.setCall c nofun
    · exact h
  | write c =>
    unfold ReadModifyWrite.step
    dsimp only
    split
    · rename_i r p hc
      split
      · rename_i db' hwrite
        have hrows : SameRows s.store db' := MapWrite.sameRows hwrite
        apply PendingRead.setCall
        · intro c' r' p' hc'
          obtain ⟨db₁, hdb₁, hread⟩ := h c' r' p' hc'
          exact ⟨db₁, hdb₁.trans hrows, hread⟩
        · nofun
      · exact h.setCall c nofun
    · exact h

theorem CommitsCurrent.validated {s : ReadModifyWrite.State Database MapRequest MapWrite}
    (h : PendingRead s) {e : ReadModifyWrite.Event MapRequest} (he : CommitsCurrent s e) :
    mapUpdates.Validated s e := by
  cases e with
  | read c r => trivial
  | write c =>
    intro r p hc hidle hwrite
    obtain ⟨db', hwrite⟩ := Option.isSome_iff_exists.1 hwrite
    obtain ⟨db₁, hrows, hread⟩ := h c r p hc
    exact MapRequest.read_of_copyCurrent hread hrows (he r p hc hidle) hwrite

/-- Any number of requests, interleaved in any order: when each map that is written back is still
the one that was read, the outcome is that of the successful requests one after the other. -/
theorem mapUpdates_serializable (db : Database) (events : List (ReadModifyWrite.Event MapRequest))
    (h : Transition.Along mapUpdates.step CommitsCurrent (ReadModifyWrite.start db) events) :
    mapUpdates.Serializable db events := by
  apply ReadModifyWrite.serializable
  exact h.mono_of_invariant (J := PendingRead) (fun _ e hs => hs.step e)
    (fun _ _ hs he => he.validated hs) nofun

/-- Two patches that overlap, of different roles: the first one leaves alone what the second one has
read. -/
theorem mapUpdates_serializable_overlap : mapUpdates.Serializable seededDatabase
    [.read 0 (.patchRolePermissions 7 [⟨rbacRolesCreate, .bool true⟩].toAList),
      .read 1 (.patchRolePermissions 5 [⟨rbacRolesDelete, .bool true⟩].toAList),
      .write 0, .write 1] := by
  apply mapUpdates_serializable
  refine ⟨trivial, trivial, fun r p hc _ => ?_, fun r p hc _ => ?_, trivial⟩
  · cases hc
    show Database.rolePermissions _ 7 = _
    decide +kernel
  · cases hc
    show Database.rolePermissions _ 5 = _
    decide +kernel

/-- Two patches of one role, each of which has read the role before the other one has written:
both succeed, and the role lacks what the first one has set.  One after the other, in either
order, they set both permissions. -/
theorem concurrent_patches_not_serializable : ¬ mapUpdates.Serializable seededDatabase
    [.read 0 (.patchRolePermissions 7 [⟨rbacRolesCreate, .bool true⟩].toAList),
      .read 1 (.patchRolePermissions 7 [⟨rbacRolesDelete, .bool true⟩].toAList),
      .write 0, .write 1] := by
  rintro ⟨l, hnodup, hl, hserial⟩
  let r₀ : MapRequest := .patchRolePermissions 7 [⟨rbacRolesCreate, .bool true⟩].toAList
  let r₁ : MapRequest := .patchRolePermissions 7 [⟨rbacRolesDelete, .bool true⟩].toAList
  let s := Transition.runFrom mapUpdates.step (ReadModifyWrite.start seededDatabase)
    [.read 0 r₀, .read 1 r₁, .write 0, .write 1]
  have hperm : l.Perm [(0, r₀), (1, r₁)] := by
    refine (List.perm_ext_iff_of_nodup hnodup.of_map (by decide +kernel)).2 fun ⟨c, r⟩ => ?_
    rw [hl]
    by_cases h0 : c = 0
    · subst h0
      have hdone : s.calls 0 = .done r₀ := by decide +kernel
      rw [hdone]
      simp [eq_comm]
    by_cases h1 : c = 1
    · subst h1
      have hdone : s.calls 1 = .done r₁ := by decide +kernel
      rw [hdone]
      simp [eq_comm]
    rw [ReadModifyWrite.runFrom_calls_of_ne (by simp [ReadModifyWrite.Event.call, h0, h1])]
    simp [ReadModifyWrite.start, h0, h1]
  have horders : ∀ l' ∈ [(0, r₀), (1, r₁)].permutations',
      mapUpdates.serial seededDatabase (l'.map Prod.snd) ≠ some s.store := by
    decide +kernel
  exact horders l (List.mem_permutations'.2 hperm) hserial

end AranesLms
