import AranesLms.I18n.Programs
import AranesLms.Lib.CacheAside
import AranesLms.UserRole.Programs

/-!
# The cache when no request is in progress

Every request drops or replaces, after its commit, the entries of the rows it has changed
(`CachedRequest.covers`).  Between the commit and that command, and between the read of a `GET` and
its write to Redis, other requests go on.  A `GET` that has read a row before it is changed can
store it after the writer has cleaned up, and two writers can refresh an item in the opposite order
of their commits; then the entry stays wrong when all is quiet again.  Where neither happens, the
cache is right at rest (`coherent_at_rest`).
-/

namespace AranesLms

open Program

variable {kind : TranslationKind}

/-! ## Every endpoint covers what it changes -/

namespace ApiProgram

variable {α : Type}

/-- The program stores entries under their keys and repairs what it changes. -/
abbrev Repairs (p : ApiProgram) : Prop := p.Covers Payload.Current Payload.cacheKey

theorem repairs_query {f : Database → Except HttpException α} {next : α → ApiProgram}
    (h : ∀ db a, f db = .ok a → (next a).Repairs) : (query f next).Repairs := by
  intro db
  dsimp only
  cases hf : f db with
  | ok a => exact h db a hf
  | error e => trivial

theorem repairs_submit {f : Database → Except CrudError Database} {next : ApiProgram}
    (hnext : next.Repairs)
    (h : ∀ db db', f db = .ok db' → ∀ b : Payload, b.Current db → ¬ b.Current db' →
      next.Touches b.cacheKey) :
    (submit f next).Repairs := by
  refine ⟨fun result => ?_, h⟩
  cases result with
  | ok _ => exact hnext
  | error e => trivial

theorem repairs_cached {cacheKey : String} {normalize : Payload → Option α}
    {load : Database → Except HttpException α} {payload : α → Payload} {reply : α → Reply}
    (hkey : ∀ db a, load db = .ok a → (payload a).cacheKey = cacheKey) :
    (cached cacheKey normalize load payload reply).Repairs := by
  have hfill : (fill cacheKey load payload reply).Repairs :=
    repairs_query fun db a ha => ⟨hkey db a ha, trivial⟩
  intro entry
  cases entry with
  | none => exact hfill
  | some p =>
    dsimp only
    cases normalize p with
    | some a => trivial
    | none => exact hfill

theorem repairs_respond {cs : List ApiCommand} {response : Response}
    (h : ∀ k b, .set k b ∈ cs → b.cacheKey = k) : (respond cs response).Repairs :=
  covers_commands h trivial

theorem repairs_respondRole (role : Role) : (respondRole role).Repairs := by
  refine repairs_respond fun k b hb => ?_
  simp only [refreshRole, List.mem_cons, Command.set.injEq, reduceCtorEq, List.not_mem_nil,
    or_false, false_or] at hb
  obtain ⟨rfl, rfl⟩ := hb
  rfl

theorem repairs_respondUser (user : User) : (respondUser user).Repairs := by
  refine repairs_respond fun k b hb => ?_
  simp only [refreshUser, List.mem_cons, Command.set.injEq, reduceCtorEq, List.not_mem_nil,
    or_false, false_or] at hb
  obtain ⟨rfl, rfl⟩ := hb
  rfl

theorem touches_respond {cs : List ApiCommand} {response : Response} {k : String}
    (h : ∃ c ∈ cs, k ∈ c.keys) : (respond cs response).Touches k :=
  touches_commands h _

theorem touches_respondRole {role : Role} {k : String}
    (h : k = roleCacheKey role.id ∨ k = roleListCacheKey) : (respondRole role).Touches k := by
  apply touches_respond
  rcases h with rfl | rfl <;> simp [refreshRole, Command.keys]

theorem touches_respondUser {user : User} {k : String}
    (h : k = userCacheKey user.id ∨ k = userListCacheKey) : (respondUser user).Touches k := by
  apply touches_respond
  rcases h with rfl | rfl <;> simp [refreshUser, Command.keys]

/-! ### Reads -/

theorem repairs_get (view : View) : (get view).Repairs := by
  cases view with
  | roleList => exact repairs_cached fun _ _ _ => rfl
  | role roleId =>
    refine repairs_cached fun db item hitem => ?_
    simp only [crudResult_ok, Except.map_eq_ok, getRoleById_ok] at hitem
    obtain ⟨role, ⟨-, rfl⟩, rfl⟩ := hitem
    rfl
  | userList => exact repairs_cached fun _ _ _ => rfl
  | user userId =>
    refine repairs_cached fun db item hitem => ?_
    simp only [crudResult_ok, Except.map_eq_ok, getUserById_ok] at hitem
    obtain ⟨user, ⟨-, rfl⟩, rfl⟩ := hitem
    rfl

theorem repairs_listTranslations (kind : TranslationKind) : (listTranslations kind).Repairs :=
  repairs_cached fun _ _ _ => rfl

theorem repairs_getTranslation (kind : TranslationKind) (key : kind.Key) :
    (getTranslation kind key).Repairs := by
  refine repairs_cached fun db item hitem => ?_
  split at hitem
  · cases hitem
    rfl
  · cases hitem

/-! ### Writes -/

/-- A flush of a role changes the views of this role. -/
theorem repairs_flushRole {f : Database → Except CrudError Database} (role : Role) {role' : Role}
    (hid : role'.id = role.id) (hf : ∀ db db', f db = .ok db' → flushRole role role' db = .ok db') :
    (submit f (respondRole role')).Repairs := by
  refine repairs_submit (repairs_respondRole role') fun db db' h b hb hb' => ?_
  obtain ⟨roles, rfl, hroles⟩ := flushRole_ok (hf db db' h)
  rw [← hid] at hroles
  exact touches_respondRole (changed_of_roles hroles hb hb')

theorem repairs_flushUser {f : Database → Except CrudError Database} (user : User) {user' : User}
    (hid : user'.id = user.id) (hf : ∀ db db', f db = .ok db' → flushUser user user' db = .ok db') :
    (submit f (respondUser user')).Repairs := by
  refine repairs_submit (repairs_respondUser user') fun db db' h b hb hb' => ?_
  obtain ⟨users, rfl, husers⟩ := flushUser_ok (hf db db' h)
  rw [← hid] at husers
  exact touches_respondUser (changed_of_users husers hb hb')

theorem repairs_updateRole (roleId : ℕ) (name titleKey : Option String) :
    (updateRole roleId name titleKey).Repairs :=
  repairs_query fun _ role _ => repairs_flushRole role rfl fun _ _ h => onUnique_ok.1 h

theorem repairs_deleteRole (roleId : ℕ) : (deleteRole roleId).Repairs := by
  refine repairs_query fun _ _ _ => repairs_query fun _ _ _ => repairs_query fun _ _ _ =>
    repairs_submit (repairs_respond (by simp [dropRole])) fun db db' h b hb hb' => ?_
  obtain ⟨-, rfl⟩ := deleteRoleCommit_ok.1 h
  apply touches_respond
  rcases changed_of_roles (fun role hrole hid => Table.mem_erase.2 ⟨hrole, hid⟩) hb hb' with hk | hk
  · exact ⟨_, List.mem_cons_self, List.mem_singleton.2 hk⟩
  · exact ⟨_, List.mem_cons_of_mem _ List.mem_cons_self, List.mem_singleton.2 hk⟩

theorem repairs_patchRolePermissions (roleId : ℕ) (permissions : PermissionPatch) :
    (patchRolePermissions roleId permissions).Repairs := by
  refine repairs_query fun db pair hpair => repairs_flushRole pair.1 ?_ fun _ _ h => h
  simp only [crudResult_ok, Except.bind_eq_ok, readPatchRole_ok, getRoleById_ok,
    Except.pure_eq_ok] at hpair
  obtain ⟨_, ⟨_, -, old, -, rfl, -, rfl⟩, old', ⟨-, hid⟩, rfl⟩ := hpair
  exact hid.symm

theorem repairs_updateUser (userId : ℕ) (username : Option String) (roleId : Option ℕ) :
    (updateUser userId username roleId).Repairs := by
  refine repairs_query fun _ user _ => ?_
  have hwrite : ∀ user', user'.id = user.id → (submit (fun db => onUnique .usernameAlreadyExists
      (flushUser user user' db)) (respondUser user')).Repairs :=
    fun _ hid => repairs_flushUser user hid fun _ _ h => onUnique_ok.1 h
  cases roleId with
  | none => exact hwrite _ rfl
  | some rid => exact repairs_query fun _ _ _ => hwrite _ rfl

theorem repairs_deleteUser (actorId userId : ℕ) : (deleteUser actorId userId).Repairs := by
  unfold deleteUser
  split_ifs
  · trivial
  refine repairs_query fun _ _ _ => repairs_submit (repairs_respond (by simp [dropUser]))
    fun db db' h b hb hb' => ?_
  cases h
  apply touches_respond
  rcases changed_of_users (fun user huser hid => Table.mem_erase.2 ⟨huser, hid⟩) hb hb' with hk | hk
  · exact ⟨_, List.mem_cons_self, List.mem_singleton.2 hk⟩
  · exact ⟨_, List.mem_cons_of_mem _ List.mem_cons_self, List.mem_singleton.2 hk⟩

theorem repairs_patchUserPermissions (userId : ℕ) (permissions : PermissionPatch) :
    (patchUserPermissions userId permissions).Repairs := by
  refine repairs_query fun db pair hpair => repairs_flushUser pair.1 ?_ fun _ _ h => h
  simp only [crudResult_ok, Except.bind_eq_ok, readPatchUser_ok, getUserById_ok,
    Except.pure_eq_ok] at hpair
  obtain ⟨_, ⟨_, -, old, -, rfl, rfl⟩, old', ⟨-, hid⟩, rfl⟩ := hpair
  exact hid.symm

theorem repairs_upsertTranslation (kind : TranslationKind) (token : TokenPayload) (key : kind.Key)
    (data : TranslationMap) : (upsertTranslation kind token key data).Repairs := by
  refine repairs_query fun _ actor _ => fun db => ?_
  dsimp only
  cases requirePermission (upsertPermission kind (db.translation? kind key)) actor with
  | error e => trivial
  | ok _ =>
    refine repairs_submit (covers_commands (by simp) trivial) fun db db' h b hb hb' => ?_
    rcases writeTranslation_ok h with ⟨-, rfl⟩ | ⟨hwritten, -⟩
    · exact absurd hb hb'
    · apply touches_commands
      have hkeys := changed_of_translation hwritten hb hb'
      exact ⟨_, List.mem_cons_self, by simpa [Command.keys] using hkeys⟩

end ApiProgram

/-! ## Runs -/

/-- A request that reads or changes views of rows. -/
inductive CachedRequest where
  | get (view : View)
  | updateRole (roleId : ℕ) (name titleKey : Option String)
  | deleteRole (roleId : ℕ)
  | patchRolePermissions (roleId : ℕ) (permissions : PermissionPatch)
  | updateUser (userId : ℕ) (username : Option String) (roleId : Option ℕ)
  | deleteUser (actorId userId : ℕ)
  | patchUserPermissions (userId : ℕ) (permissions : PermissionPatch)
  | listSmall
  | getSmall (key : String)
  | upsertSmall (token : TokenPayload) (key : String) (data : TranslationMap)
  | listLarge
  | getLarge (key1 key2 : String)
  | upsertLarge (token : TokenPayload) (key1 key2 : String) (data : TranslationMap)

namespace CachedRequest

def program : CachedRequest → ApiProgram
  | get view => ApiProgram.get view
  | updateRole roleId name titleKey => ApiProgram.updateRole roleId name titleKey
  | deleteRole roleId => ApiProgram.deleteRole roleId
  | patchRolePermissions roleId permissions => ApiProgram.patchRolePermissions roleId permissions
  | updateUser userId username roleId => ApiProgram.updateUser userId username roleId
  | deleteUser actorId userId => ApiProgram.deleteUser actorId userId
  | patchUserPermissions userId permissions => ApiProgram.patchUserPermissions userId permissions
  | listSmall => ApiProgram.listSmall
  | getSmall key => ApiProgram.getSmall key
  | upsertSmall token key data => ApiProgram.upsertSmall token key data
  | listLarge => ApiProgram.listLarge
  | getLarge key1 key2 => ApiProgram.getLarge key1 key2
  | upsertLarge token key1 key2 data => ApiProgram.upsertLarge token key1 key2 data

theorem repairs (r : CachedRequest) : r.program.Repairs := by
  cases r with
  | get view => exact ApiProgram.repairs_get view
  | updateRole roleId name titleKey => exact ApiProgram.repairs_updateRole roleId name titleKey
  | deleteRole roleId => exact ApiProgram.repairs_deleteRole roleId
  | patchRolePermissions roleId permissions =>
    exact ApiProgram.repairs_patchRolePermissions roleId permissions
  | updateUser userId username roleId => exact ApiProgram.repairs_updateUser userId username roleId
  | deleteUser actorId userId => exact ApiProgram.repairs_deleteUser actorId userId
  | patchUserPermissions userId permissions =>
    exact ApiProgram.repairs_patchUserPermissions userId permissions
  | listSmall => exact ApiProgram.repairs_listTranslations .small
  | getSmall key => exact ApiProgram.repairs_getTranslation .small key
  | upsertSmall token key data => exact ApiProgram.repairs_upsertTranslation .small token key data
  | listLarge => exact ApiProgram.repairs_listTranslations .large
  | getLarge key1 key2 => exact ApiProgram.repairs_getTranslation .large (toLex (key1, key2))
  | upsertLarge token key1 key2 data =>
    exact ApiProgram.repairs_upsertTranslation .large token (toLex (key1, key2)) data

abbrev State := System CachedRequest Database String Payload CrudError (Except HttpException Reply)

abbrev Event := SystemEvent CachedRequest String

def step : State → Event → State := System.step program

/-- When no request is in progress, every entry is the serialisation of the present rows. -/
def CoherentAtRest (s : State) : Prop :=
  s.AtRest → s.Coherent Payload.Current Payload.cacheKey

/-- In every run in which each entry that is stored is the serialisation of the present rows, or
another request in progress is still to store or delete this entry, the cache is right at rest. -/
theorem coherent_at_rest (db : Database) (events : List Event)
    (h : Transition.Along step (System.SetsCurrent Payload.Current) (System.init db) events) :
    Transition.Always step CoherentAtRest (System.init db) events :=
  System.coherent_of_along repairs db h

/-- One role. -/
def editorDatabase : Database :=
  ⟨⟨[⟨2, "Editor", "role.editor.title", some ∅⟩], by decide, by decide⟩, ∅, ∅, ∅⟩

/-- A `GET` reads the role before an update commits and stores it afterwards, but before the update
has stored the new one. -/
theorem coherent_at_rest_overlap :
    Transition.Always step CoherentAtRest (System.init editorDatabase)
      [.start 0 (.get (.role 2)), .resume 0, .resume 0,
        .start 1 (.updateRole 2 none (some "role.editor")), .resume 1, .resume 1, .resume 0,
        .resume 1, .resume 1] := by
  refine coherent_at_rest editorDatabase _
    ⟨trivial, ?get, ?read, trivial, ?load, ?commit, ?fill, ?list, ?item, trivial⟩
  case get | read | load | commit | list =>
    rintro a k b next h
    cases h
  case fill =>
    rintro a k b next h
    cases h
    -- the update is still going to store the item
    refine Or.inr ⟨1, _, _, by decide, rfl, ?_⟩
    exact Or.inr (Or.inl rfl)
  case item =>
    rintro a k b next h
    cases h
    exact Or.inl ⟨_, List.mem_cons_self, rfl⟩

/-- A `GET` reads the role before an update commits and stores it after the update has stored the
new one. -/
theorem late_fill_not_coherent :
    ¬ Transition.Always step CoherentAtRest (System.init editorDatabase)
      [.start 0 (.get (.role 2)), .resume 0, .resume 0,
        .start 1 (.updateRole 2 none (some "role.editor")), .resume 1, .resume 1, .resume 1,
        .resume 1, .resume 0] := by
  intro h
  have hcoherent := h.last fun c a p hcall => by
    match c with
    | 0 =>
      cases hcall
      exact ⟨_, rfl⟩
    | 1 =>
      cases hcall
      exact ⟨_, rfl⟩
    | _ + 2 => cases hcall
  obtain ⟨-, role, hrole, hitem⟩ :=
    hcoherent (roleCacheKey 2) (.role ⟨2, "Editor", "role.editor.title", ∅⟩) rfl
  obtain rfl := List.mem_singleton.1 hrole
  exact absurd (congrArg RoleResponse.titleKey hitem) (by decide)

end CachedRequest

end AranesLms
