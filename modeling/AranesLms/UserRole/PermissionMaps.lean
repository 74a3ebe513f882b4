import AranesLms.UserRole.Operations
import AranesLms.UserRole.SuperUser

/-!
# Permission maps stay well formed

`validatePermissionPatch` accepts a patch exactly when all its keys are registered and all its
values are booleans (`PermissionPatch.Valid`), and its error lists the offending keys
(`IsPatchError`).  The three operations that take a patch fail with this error and otherwise write
the patch over one map (`PatchTarget.exact`).  Every writer adds registered keys only
(`KeysFrom`), so the maps of a run have the unregistered keys they started with and no others.
-/

namespace AranesLms

/-! ## Patches -/

/-- All keys are registered and all values are booleans. -/
def PermissionPatch.Valid (patch : PermissionPatch) : Prop :=
  (∀ key ∈ patch, key ∈ registeredPermissionKeys) ∧ ∀ key, patch.lookup key ≠ some .other

/-- The error of an invalid patch: its two lists are sorted, without repetition, and have exactly
the unknown keys and the keys of values that are not booleans. -/
def IsPatchError (patch : PermissionPatch) (e : CrudError) : Prop :=
  ∃ unknown nonBoolean, e = .invalidPermissionPatch unknown nonBoolean ∧
    unknown.Pairwise (· < ·) ∧ nonBoolean.Pairwise (· < ·) ∧
    (∀ key, key ∈ unknown ↔ key ∈ patch ∧ key ∉ registeredPermissionKeys) ∧
    ∀ key, key ∈ nonBoolean ↔ patch.lookup key = some .other

/-- `new` is `old` with the entries of the patch written over it. -/
def Patched (patch : PermissionPatch) (old new : PermissionMap) : Prop :=
  ∀ key, (new.lookup key).map PatchValue.bool =
    (patch.lookup key).or ((old.lookup key).map PatchValue.bool)

section

variable {patch : PermissionPatch} {key : String}

theorem pairwise_lt_insertionSort {l : List String} (h : l.Nodup) :
    (l.insertionSort (· ≤ ·)).Pairwise (· < ·) := by
  have hsorted : (l.insertionSort (· ≤ ·)).Pairwise (· ≤ ·) := List.pairwise_insertionSort _ l
  have hnodup : (l.insertionSort (· ≤ ·)).Nodup :=
    (List.perm_insertionSort (· ≤ ·) l).nodup_iff.2 h
  exact (hsorted.and hnodup).imp fun h => lt_of_le_of_ne h.1 h.2

theorem mem_getUnknownPermissionKeys :
    key ∈ getUnknownPermissionKeys patch ↔ key ∈ patch ∧ key ∉ registeredPermissionKeys := by
  rw [getUnknownPermissionKeys, List.mem_insertionSort, List.mem_filter, AList.mem_keys,
    decide_eq_true_eq]

theorem pairwise_getUnknownPermissionKeys : (getUnknownPermissionKeys patch).Pairwise (· < ·) :=
  pairwise_lt_insertionSort (patch.keys_nodup.filter _)

theorem mem_nonBooleanKeys : key ∈ nonBooleanKeys patch ↔ patch.lookup key = some .other := by
  have hlookup : patch.lookup key = some .other ↔
      (⟨key, .other⟩ : Σ _ : String, PatchValue) ∈ patch.entries :=
    AList.mem_lookup_iff
  rw [hlookup, nonBooleanKeys, List.mem_insertionSort, List.mem_map]
  constructor
  · rintro ⟨⟨k, v⟩, he, rfl⟩
    obtain ⟨he, hv⟩ := List.mem_filter.1 he
    obtain rfl : v = .other := by simpa using hv
    exact he
  · intro he
    exact ⟨_, List.mem_filter.2 ⟨he, by simp⟩, rfl⟩

theorem pairwise_nonBooleanKeys : (nonBooleanKeys patch).Pairwise (· < ·) :=
  pairwise_lt_insertionSort (patch.keys_nodup.sublist (List.filter_sublist.map Sigma.fst))

theorem PermissionPatch.valid_iff :
    patch.Valid ↔ getUnknownPermissionKeys patch = [] ∧ nonBooleanKeys patch = [] := by
  refine and_congr ?_ ?_
  · simp only [List.eq_nil_iff_forall_not_mem, mem_getUnknownPermissionKeys, not_and, not_not]
  · simp only [List.eq_nil_iff_forall_not_mem, mem_nonBooleanKeys, ne_eq]

instance PermissionPatch.decidableValid : Decidable patch.Valid :=
  decidable_of_iff' _ PermissionPatch.valid_iff

theorem validatePermissionPatch_of_not_valid (h : ¬ patch.Valid) :
    ∃ e, validatePermissionPatch patch = .error e ∧ IsPatchError patch e := by
  rw [PermissionPatch.valid_iff, not_and_or] at h
  exact ⟨_, if_pos h, _, _, rfl, pairwise_getUnknownPermissionKeys, pairwise_nonBooleanKeys,
    fun _ => mem_getUnknownPermissionKeys, fun _ => mem_nonBooleanKeys⟩

theorem validatePermissionPatch_of_valid (h : patch.Valid) :
    ∃ m, validatePermissionPatch patch = .ok m := by
  rw [PermissionPatch.valid_iff] at h
  exact ⟨_, if_neg (by rw [h.1, h.2]; simp)⟩

theorem valid_of_validatePermissionPatch {m : PermissionMap}
    (h : validatePermissionPatch patch = .ok m) : patch.Valid := by
  by_contra hbad
  obtain ⟨e, he, -⟩ := validatePermissionPatch_of_not_valid hbad
  rw [h] at he
  cases he

/-- Dropping the wrapper of boolean values keeps every entry. -/
theorem dlookup_filterMap_toEntry {l : List (Σ _ : String, PatchValue)}
    (h : ∀ e ∈ l, e.2 ≠ .other) :
    ((l.filterMap PatchValue.toEntry).dlookup key).map PatchValue.bool = l.dlookup key := by
  induction l with
  | nil => rfl
  | cons e l ih =>
    have ih := ih fun e' he' => h e' (List.mem_cons_of_mem e he')
    obtain ⟨k, v⟩ := e
    cases v with
    | other => exact absurd rfl (h ⟨k, .other⟩ List.mem_cons_self)
    | bool b =>
      have hcons : (⟨k, .bool b⟩ :: l : List (Σ _ : String, PatchValue)).filterMap
          PatchValue.toEntry = ⟨k, b⟩ :: l.filterMap PatchValue.toEntry := rfl
      rw [hcons]
      by_cases hk : key = k
      · obtain rfl := hk
        rw [List.dlookup_cons_eq, List.dlookup_cons_eq]
        rfl
      · rw [List.dlookup_cons_ne _ _ hk, List.dlookup_cons_ne _ _ hk, ih]

theorem lookup_of_validatePermissionPatch {m : PermissionMap}
    (h : validatePermissionPatch patch = .ok m) :
    (m.lookup key).map PatchValue.bool = patch.lookup key := by
  have hbool : ∀ e ∈ patch.entries, e.2 ≠ .other := by
    rintro ⟨k, v⟩ he hv
    obtain rfl : v = .other := hv
    exact (valid_of_validatePermissionPatch h).2 k (AList.mem_lookup_iff.2 he)
  unfold validatePermissionPatch at h
  split_ifs at h
  cases h
  rw [Finmap.dlookup_list_toFinmap]
  exact dlookup_filterMap_toEntry hbool

theorem patched_union {m : PermissionMap} (h : validatePermissionPatch patch = .ok m)
    (old : PermissionMap) : Patched patch old (m ∪ old) := by
  intro key
  rw [← lookup_of_validatePermissionPatch h, Finmap.lookup_union, Option.map_or]

end

/-! ## The three operations that take a patch -/

/-- Which map a patch is for: that of a role by id, of a user by id, or, through the role registry,
of a role by name. -/
inductive PatchTarget where
  | role (roleId : ℕ)
  | user (userId : ℕ)
  | registry (roleName : String)

/-- Only the permission map of the role `old` differs in `db'`. -/
def WritesRole (db db' : Database) (old : Role) (permissions : PermissionMap) : Prop :=
  db'.users = db.users ∧ db'.translateSmall = db.translateSmall ∧
    db'.translateLarge = db.translateLarge ∧
    ∀ role, role ∈ db'.roles ↔ role ∈ db.roles ∧ role.id ≠ old.id ∨
      role = { old with permissions := some permissions }

/-- Only the permission map of the user `old` differs in `db'`. -/
def WritesUser (db db' : Database) (old : User) (permissions : PermissionMap) : Prop :=
  db'.roles = db.roles ∧ db'.translateSmall = db.translateSmall ∧
    db'.translateLarge = db.translateLarge ∧
    ∀ user, user ∈ db'.users ↔ user ∈ db.users ∧ user.id ≠ old.id ∨
      user = { old with permissions := some permissions }

namespace PatchTarget

def operation : PatchTarget → PermissionPatch → Operation
  | role roleId, patch => .patchRolePermissions roleId patch
  | user userId, patch => .patchUserPermissions userId patch
  | registry roleName, patch => .appendRolePermissions roleName patch

/-- The patch is written over the map of the target and nothing else changes; the registry also
keeps the value of every key that was present. -/
def Applied (db db' : Database) (patch : PermissionPatch) : PatchTarget → Prop
  | role roleId => ∃ old ∈ db.roles, old.id = roleId ∧
      ∃ new, WritesRole db db' old new ∧ Patched patch old.perms new
  | user userId => ∃ old ∈ db.users, old.id = userId ∧
      ∃ new, WritesUser db db' old new ∧ Patched patch old.perms new
  | registry roleName => ∃ old ∈ db.roles, old.name = roleName ∧
      ∃ new, WritesRole db db' old new ∧ Patched patch old.perms new ∧
        ∀ key ∈ old.perms, new.lookup key = old.perms.lookup key

/-- In the state `db` the target accepts valid patches only and writes them exactly, and it
answers an invalid one, and no other, with the patch error. -/
structure Exact (db : Database) (target : PatchTarget) : Prop where
  accepted : ∀ nid patch db', (target.operation patch).run nid db = .ok db' →
    patch.Valid ∧ target.Applied db db' patch
  rejected : ∀ nid patch, ¬ patch.Valid →
    (∃ e, (target.operation patch).run nid db = .error e ∧ IsPatchError patch e) ∧
      (target.operation patch).step nid db = db
  valid : ∀ nid patch unknown nonBoolean,
    (target.operation patch).run nid db = .error (.invalidPermissionPatch unknown nonBoolean) →
      ¬ patch.Valid

end PatchTarget

section

variable {db db' : Database} {nid : ℕ} {patch : PermissionPatch}

theorem writesRole_of_writeRolePermissions {old : Role} {m : PermissionMap} (hold : old ∈ db.roles)
    (h : writeRolePermissions db old.id m = .ok db') : WritesRole db db' old m := by
  obtain ⟨t, ht, rfl⟩ := writeRolePermissions_ok.1 h
  exact ⟨rfl, rfl, rfl, fun role => Table.mem_modify_of_mem ht hold⟩

theorem writesUser_of_writeUserPermissions {old : User} {m : PermissionMap} (hold : old ∈ db.users)
    (h : writeUserPermissions db old.id m = .ok db') : WritesUser db db' old m := by
  obtain ⟨t, ht, rfl⟩ := writeUserPermissions_ok.1 h
  exact ⟨rfl, rfl, rfl, fun user => Table.mem_modify_of_mem ht hold⟩

/-- Each of the three operations begins with the validation of the patch. -/
theorem PatchTarget.run_error_of_validate {target : PatchTarget} {e : CrudError}
    (h : validatePermissionPatch patch = .error e) :
    (target.operation patch).run nid db = .error e := by
  cases target with
  | role roleId =>
    simp only [operation, Operation.run, patchRolePermissions, readPatchRole, h]
    rfl
  | user userId =>
    simp only [operation, Operation.run, patchUserPermissions, readPatchUser, h]
    rfl
  | registry roleName =>
    simp only [operation, Operation.run, createOrAppendRolePermissionsNoOverwrite, readAppendRole,
      h]
    rfl

theorem PatchTarget.applied_of_run {target : PatchTarget}
    (h : (target.operation patch).run nid db = .ok db') :
    patch.Valid ∧ target.Applied db db' patch := by
  cases target with
  | role roleId =>
    obtain ⟨⟨role, _⟩, hrun, rfl⟩ := Except.map_eq_ok.1 h
    obtain ⟨hread, hwrite⟩ := patchRolePermissions_ok hrun
    obtain ⟨m, hm, old, hold, hid, -, rfl⟩ := readPatchRole_ok.1 hread
    exact ⟨valid_of_validatePermissionPatch hm, old, hold, hid, _,
      writesRole_of_writeRolePermissions hold hwrite, patched_union hm old.perms⟩
  | user userId =>
    obtain ⟨⟨user, _⟩, hrun, rfl⟩ := Except.map_eq_ok.1 h
    obtain ⟨hread, hwrite⟩ := patchUserPermissions_ok hrun
    obtain ⟨m, hm, old, hold, hid, rfl⟩ := readPatchUser_ok.1 hread
    exact ⟨valid_of_validatePermissionPatch hm, old, hold, hid, _,
      writesUser_of_writeUserPermissions hold hwrite, patched_union hm old.perms⟩
  | registry roleName =>
    obtain ⟨⟨role, _⟩, hrun, rfl⟩ := Except.map_eq_ok.1 h
    obtain ⟨hread, hwrite⟩ := createOrAppendRolePermissionsNoOverwrite_ok hrun
    obtain ⟨m, hm, old, hold, hname, hnew, rfl⟩ := readAppendRole_ok.1 hread
    refine ⟨valid_of_validatePermissionPatch hm, old, hold, hname, _,
      writesRole_of_writeRolePermissions hold hwrite, patched_union hm old.perms, ?_⟩
    intro key hkey
    refine Finmap.lookup_union_right fun hk => ?_
    exact hnew key (mem_keys_of_validatePermissionPatch hm hk) hkey

/-- Past the validation no check and no write raises the patch error. -/
theorem PatchTarget.not_valid_of_run_error {target : PatchTarget} {unknown nonBoolean : List String}
    (h : (target.operation patch).run nid db =
      .error (.invalidPermissionPatch unknown nonBoolean)) : ¬ patch.Valid := by
  intro hvalid
  obtain ⟨m, hm⟩ := validatePermissionPatch_of_valid hvalid
  have hrole : ∀ v, CrudError.invalidPermissionPatch unknown nonBoolean ≠ roleIntegrity v := by
    intro v
    cases v <;> exact nofun
  have huser : ∀ v, CrudError.invalidPermissionPatch unknown nonBoolean ≠ userIntegrity v := by
    intro v
    cases v <;> exact nofun
  cases target with
  | role roleId =>
    rcases Except.bind_eq_error.1 (Except.map_eq_error.1 h) with h | ⟨role, -, h⟩
    · rw [readPatchRole, hm, Except.ok_bind] at h
      rcases Except.bind_eq_error.1 h with h | ⟨role, -, h⟩
      · cases getRoleById_error h
      · split_ifs at h <;> cases h
    · rcases Except.bind_eq_error.1 h with h | ⟨_, -, h⟩
      · obtain ⟨v, hv⟩ := commitRoles_error h
        exact hrole v hv
      · cases h
  | user userId =>
    rcases Except.bind_eq_error.1 (Except.map_eq_error.1 h) with h | ⟨user, -, h⟩
    · rw [readPatchUser, hm, Except.ok_bind] at h
      rcases Except.bind_eq_error.1 h with h | ⟨user, -, h⟩
      · cases getUserById_error h
      · cases h
    · rcases Except.bind_eq_error.1 h with h | ⟨_, -, h⟩
      · obtain ⟨v, hv⟩ := commitUsers_error h
        exact huser v hv
      · cases h
  | registry roleName =>
    rcases Except.bind_eq_error.1 (Except.map_eq_error.1 h) with h | ⟨role, -, h⟩
    · rw [readAppendRole, hm, Except.ok_bind] at h
      cases hfind : db.roles.findBy? roleName with
      | none =>
        rw [hfind] at h
        cases h
      | some role =>
        rw [hfind] at h
        dsimp only at h
        split_ifs at h <;> cases h
    · rcases Except.bind_eq_error.1 h with h | ⟨_, -, h⟩
      · obtain ⟨v, hv⟩ := commitRoles_error h
        exact hrole v hv
      · cases h

theorem PatchTarget.exact (db : Database) (target : PatchTarget) : target.Exact db where
  accepted nid patch db' h := applied_of_run h
  rejected nid patch h := by
    obtain ⟨e, he, hpatch⟩ := validatePermissionPatch_of_not_valid h
    have hrun : (target.operation patch).run nid db = .error e := run_error_of_validate he
    refine ⟨⟨e, hrun, hpatch⟩, ?_⟩
    rw [Operation.step, hrun]
  valid nid patch unknown nonBoolean h := not_valid_of_run_error h

end

/-! ## Where the keys of a map come from -/

/-- Every map of the database has registered keys only; their values are booleans by type. -/
structure WellFormed (db : Database) : Prop where
  roles : ∀ role ∈ db.roles, ∀ key ∈ role.perms, key ∈ registeredPermissionKeys
  users : ∀ user ∈ db.users, ∀ key ∈ user.perms, key ∈ registeredPermissionKeys

/-- A key of a map of `db'` is registered, or the map of the same row of `db` has it. -/
structure KeysFrom (db db' : Database) : Prop where
  roles : ∀ role ∈ db'.roles, ∀ key ∈ role.perms, key ∈ registeredPermissionKeys ∨
    ∃ old ∈ db.roles, old.id = role.id ∧ key ∈ old.perms
  users : ∀ user ∈ db'.users, ∀ key ∈ user.perms, key ∈ registeredPermissionKeys ∨
    ∃ old ∈ db.users, old.id = user.id ∧ key ∈ old.perms

theorem KeysFrom.refl (db : Database) : KeysFrom db db :=
  ⟨fun role hrole _ hk => Or.inr ⟨role, hrole, rfl, hk⟩,
    fun user huser _ hk => Or.inr ⟨user, huser, rfl, hk⟩⟩

theorem KeysFrom.trans {db₁ db₂ db₃ : Database} (h : KeysFrom db₁ db₂) (h' : KeysFrom db₂ db₃) :
    KeysFrom db₁ db₃ := by
  constructor
  · intro role hrole key hk
    rcases h'.roles role hrole key hk with hreg | ⟨old, hold, hid, hk⟩
    · exact Or.inl hreg
    · rw [← hid]
      exact h.roles old hold key hk
  · intro user huser key hk
    rcases h'.users user huser key hk with hreg | ⟨old, hold, hid, hk⟩
    · exact Or.inl hreg
    · rw [← hid]
      exact h.users old hold key hk

theorem KeysFrom.wellFormed {db db' : Database} (h : KeysFrom db db') (hdb : WellFormed db) :
    WellFormed db' := by
  constructor
  · intro role hrole key hk
    rcases h.roles role hrole key hk with hreg | ⟨old, hold, -, hk⟩
    · exact hreg
    · exact hdb.roles old hold key hk
  · intro user huser key hk
    rcases h.users user huser key hk with hreg | ⟨old, hold, -, hk⟩
    · exact hreg
    · exact hdb.users old hold key hk

theorem wellFormed_empty : WellFormed Database.empty := ⟨nofun, nofun⟩

/-- The defaults have registered keys only. -/
theorem mem_registered_of_mem_defaults (name : String) {key : String}
    (h : key ∈ rbacServiceDefaults name) : key ∈ registeredPermissionKeys := by
  have hall : ∀ d ∈ defaultRoles, ∀ key ∈ (rbacServiceDefaults d.name).keys,
      key ∈ registeredPermissionKeys := by decide
  by_cases hname : name ∈ defaultRoles.map DefaultRole.name
  · obtain ⟨d, hd, rfl⟩ := List.mem_map.1 hname
    exact hall d hd key (Finmap.mem_keys.2 h)
  · rw [rbacServiceDefaults, if_neg hname] at h
    exact absurd h Finmap.notMem_empty

theorem mem_perms_seedExistingRole {role : Role} {key : String}
    (h : key ∈ (seedExistingRole role).perms) :
    key ∈ registeredPermissionKeys ∨ key ∈ role.perms := by
  unfold seedExistingRole at h
  split_ifs at h
  · unfold initRolePermissionsIfMissing at h
    dsimp only at h
    rw [fillTitleKey_perms] at h
    split_ifs at h
    · rw [fillTitleKey_perms] at h
      exact Or.inr h
    · rcases Finmap.mem_union.1 h with hk | hk
      · exact Or.inr hk
      · exact Or.inl (mem_registered_of_mem_defaults _ hk)
  · exact Or.inr h

section

variable {db db' : Database} {nid : ℕ} {op : Operation} {roles : RoleTable}

/-- A patched map has the keys of the old one and registered ones. -/
theorem mem_registered_or_of_mem_union {patch : PermissionPatch} {m old : PermissionMap}
    (h : validatePermissionPatch patch = .ok m) {key : String} (hk : key ∈ m ∪ old) :
    key ∈ registeredPermissionKeys ∨ key ∈ old :=
  (Finmap.mem_union.1 hk).imp_left (registered_of_validatePermissionPatch h)

theorem RolesEffect.keys_from (h : RolesEffect nid db op roles) :
    ∀ role ∈ roles, ∀ key ∈ role.perms, key ∈ registeredPermissionKeys ∨
      ∃ old ∈ db.roles, old.id = role.id ∧ key ∈ old.perms := by
  intro role hrole key hk
  have kept : role ∈ db.roles → key ∈ registeredPermissionKeys ∨
      ∃ old ∈ db.roles, old.id = role.id ∧ key ∈ old.perms :=
    fun hold => Or.inr ⟨role, hold, rfl, hk⟩
  cases h with
  | same => exact kept hrole
  | create ht =>
    rcases (Table.mem_insert ht).1 hrole with hold | rfl
    · exact kept hold
    · exact absurd hk Finmap.notMem_empty
  | update hold _ ht =>
    rcases (Table.mem_modify ht).1 hrole with ⟨hold, -⟩ | ⟨_, -, -, rfl⟩
    · exact kept hold
    · exact Or.inr ⟨_, hold, rfl, hk⟩
  | delete => exact kept (Table.mem_erase.1 hrole).1
  | @patch _ _ old _ hpatch hold _ ht =>
    rcases (Table.mem_modify ht).1 hrole with ⟨hold, -⟩ | ⟨_, -, hid, rfl⟩
    · exact kept hold
    · exact (mem_registered_or_of_mem_union hpatch hk).imp_right fun hk =>
        ⟨old, hold, hid.symm, hk⟩
  | reset =>
    obtain ⟨old, hold, rfl⟩ := mem_writeResetRoles.1 hrole
    unfold resetRole at hk ⊢
    split_ifs at hk ⊢
    · exact Or.inr ⟨old, hold, rfl, hk⟩
    · exact absurd hk Finmap.notMem_empty
  | @append _ _ old _ hpatch hold _ ht =>
    rcases (Table.mem_modify ht).1 hrole with ⟨hold, -⟩ | ⟨_, -, hid, rfl⟩
    · exact kept hold
    · exact (mem_registered_or_of_mem_union hpatch hk).imp_right fun hk =>
        ⟨old, hold, hid.symm, hk⟩
  | signup ht =>
    rcases (Table.mem_insert ht).1 hrole with hold | rfl
    · exact kept hold
    · exact Or.inl (mem_registered_of_mem_defaults defaultSignupRoleName hk)
  | seed hseed =>
    rcases hseed.mem_cases role hrole with ⟨old, hold, rfl⟩ | ⟨d, -, rs, rfl⟩
    · exact (mem_perms_seedExistingRole hk).imp_right fun hk =>
        ⟨old, hold, (seedExistingRole_id old).symm, hk⟩
    · exact Or.inl (mem_registered_of_mem_defaults _ hk)

theorem UsersEffect.keys_from (h : UsersEffect nid db op db') :
    ∀ user ∈ db'.users, ∀ key ∈ user.perms, key ∈ registeredPermissionKeys ∨
      ∃ old ∈ db.users, old.id = user.id ∧ key ∈ old.perms := by
  intro user huser key hk
  have kept : user ∈ db.users → key ∈ registeredPermissionKeys ∨
      ∃ old ∈ db.users, old.id = user.id ∧ key ∈ old.perms :=
    fun hold => Or.inr ⟨user, hold, rfl, hk⟩
  cases h with
  | same _ heq => exact kept (heq ▸ huser)
  | create _ ht =>
    rcases (Table.mem_insert ht).1 huser with hold | rfl
    · exact kept hold
    · exact absurd hk Finmap.notMem_empty
  | update _ _ ht =>
    rcases (Table.mem_modify ht).1 huser with ⟨hold, -⟩ | ⟨old, hold, -, rfl⟩
    · exact kept hold
    · exact Or.inr ⟨old, hold, rfl, hk⟩
  | password _ ht =>
    rcases (Table.mem_modify ht).1 huser with ⟨hold, -⟩ | ⟨old, hold, -, rfl⟩
    · exact kept hold
    · exact Or.inr ⟨old, hold, rfl, hk⟩
  | delete _ => exact kept (Table.mem_erase.1 huser).1
  | @patch _ _ old _ hpatch hold ht =>
    rcases (Table.mem_modify ht).1 huser with ⟨hold, -⟩ | ⟨_, -, hid, rfl⟩
    · exact kept hold
    · exact (mem_registered_or_of_mem_union hpatch hk).imp_right fun hk =>
        ⟨old, hold, hid.symm, hk⟩
  | reset =>
    obtain ⟨old, hold, rfl⟩ := mem_writeResetUsers.1 huser
    exact absurd hk Finmap.notMem_empty
  | signup _ ht =>
    rcases (Table.mem_insert ht).1 huser with hold | rfl
    · exact kept hold
    · exact absurd hk Finmap.notMem_empty

theorem KeysFrom.of_run (h : op.run nid db = .ok db') : KeysFrom db db' := by
  have hroles : RolesEffect nid db op db'.roles := Operation.rolesEffect h
  exact ⟨hroles.keys_from, (Operation.usersEffect h).keys_from⟩

theorem KeysFrom.of_insertSuperUser {username password : String} {users : UserTable}
    (h : db.users.insert (newSuperUser nid username password) = .ok users) :
    KeysFrom db { db with users } := by
  refine ⟨(KeysFrom.refl db).roles, fun user huser key hk => ?_⟩
  rcases (Table.mem_insert h).1 huser with hold | rfl
  · exact Or.inr ⟨user, hold, rfl, hk⟩
  · exact absurd hk Finmap.notMem_empty

end

/-! ## Every run -/

/-- What can change the accounts: an operation, or the creation of a superuser from the command
line or at startup. -/
inductive AccountEvent where
  | operation (nid : ℕ) (op : Operation)
  | createSuperUser (nid : ℕ) (username password : String)
  | ensureSuperUser (nid : ℕ) (username password : String)

namespace AccountEvent

/-- The database after the event, when it succeeds. -/
def run (db : Database) : AccountEvent → Option Database
  | operation nid op => (op.run nid db).toOption
  | createSuperUser nid username password =>
    (AranesLms.createSuperUser db nid username password).toOption
  | ensureSuperUser nid username password =>
    (Prod.snd <$> ensureSuperUserWithCredentials db nid username password).toOption

/-- The database after the event, whether it succeeds or fails. -/
def step (db : Database) (event : AccountEvent) : Database := (event.run db).getD db

theorem keysFrom_of_run {db db' : Database} {event : AccountEvent} (h : event.run db = some db') :
    KeysFrom db db' := by
  cases event with
  | operation nid op => exact .of_run (Except.toOption_eq_some.1 h)
  | createSuperUser nid username password =>
    obtain ⟨-, -, t, ht, rfl⟩ := createSuperUser_ok.1 (Except.toOption_eq_some.1 h)
    exact .of_insertSuperUser ht
  | ensureSuperUser nid username password =>
    obtain ⟨⟨created, _⟩, hrun, rfl⟩ := Except.map_eq_ok.1 (Except.toOption_eq_some.1 h)
    obtain ⟨create, -, hwrite⟩ := Except.bind_eq_ok.1 hrun
    obtain ⟨-, ⟨-, rfl⟩ | ⟨-, t, ht, rfl⟩⟩ := writeEnsureSuperUser_ok.1 hwrite
    · exact .refl _
    · exact .of_insertSuperUser ht

theorem keysFrom_step (db : Database) (event : AccountEvent) : KeysFrom db (event.step db) := by
  unfold step
  cases h : event.run db with
  | none => exact .refl db
  | some db' => exact keysFrom_of_run h

end AccountEvent

/-- From a seeded database on, no map gets an unregistered key: a map has those it had before the
seeding, hence none where all maps were well formed, as in a freshly migrated database.  In every
state the operations that take a patch accept, reject and write it exactly. -/
theorem permission_maps_along (small : SmallTranslates) (large : LargeTranslates)
    (db₀ db : Database) (h : runBootstrapSeeding small large db₀ = .ok db)
    (events : List AccountEvent) :
    Transition.Always AccountEvent.step
      (fun s => KeysFrom db₀ s ∧ (WellFormed db₀ → WellFormed s) ∧
        ∀ target : PatchTarget, target.Exact s) db events := by
  have hrun : (Operation.runBootstrapSeeding small large).run 0 db₀ = .ok db := h
  have hstart : KeysFrom db₀ db := .of_run hrun
  have hkeys : Transition.Always AccountEvent.step (KeysFrom db₀) db events :=
    .of_step (fun s event hs => hs.trans (event.keysFrom_step s)) hstart events
  exact hkeys.mono fun s hs => ⟨hs, hs.wellFormed, PatchTarget.exact s⟩

theorem permission_maps_along_fresh :
    Transition.Always AccountEvent.step
      (fun s => WellFormed s ∧ ∀ target : PatchTarget, target.Exact s) seededDatabase
      [.operation 1 (.signup "ada" "hash"), .operation 0 .resetUserPermissions] :=
  (permission_maps_along ∅ ∅ Database.empty seededDatabase runBootstrapSeeding_empty _).mono
    fun _ hs => ⟨hs.2.1 wellFormed_empty, hs.2.2⟩

end AranesLms
