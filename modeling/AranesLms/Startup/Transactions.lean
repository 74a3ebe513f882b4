import AranesLms.Startup.Seeding
import AranesLms.UserRole.SuperUser

/-!
# The transactions of a startup

`run_bootstrap_seeding` as a read step, whose result is a `SeedPlan`, and a step that writes the
plan and commits, in the order of the flush: the changed columns of the loaded roles, the new
roles, the new translations.  `gen` is the rule by which the database fills a missing role id.

`seedingWith_nextId` shows that the two steps in a row are `runBootstrapSeeding`.  A plan that was
made before another process seeded the database changes nothing any more: it fails or it has
nothing to write (`writeSeed_of_seeded`).
-/

namespace AranesLms

/-! ## The steps of a seeding -/

/-- The columns that seeding has changed on one loaded role. -/
structure RoleBackfill where
  roleId : ℕ
  titleKey : Option String
  permissions : Option PermissionMap
  deriving DecidableEq

/-- The columns in which a loaded role differs from what seeding makes of it. -/
def roleBackfill (role : Role) : RoleBackfill where
  roleId := role.id
  titleKey := some (seedExistingRole role).titleKey |>.filter (· ≠ role.titleKey)
  permissions := (seedExistingRole role).permissions.filter (some · ≠ role.permissions)

/-- The row with the changed columns written. -/
def RoleBackfill.apply (backfill : RoleBackfill) (role : Role) : Role :=
  { role with
    titleKey := backfill.titleKey.getD role.titleKey
    permissions := backfill.permissions.or role.permissions }

/-- The changed columns of the loaded roles, for those that have changed. -/
def roleBackfills (existing : List Role) : List RoleBackfill :=
  (existing.filter fun role => seedExistingRole role ≠ role).map roleBackfill

/-- The `UPDATE`s of the flush, each `WHERE id = …`. -/
def applyBackfills (backfills : List RoleBackfill) (role : Role) : Role :=
  match backfills.find? fun backfill => backfill.roleId = role.id with
  | some backfill => backfill.apply role
  | none => role

theorem applyBackfills_id (backfills : List RoleBackfill) (role : Role) :
    (applyBackfills backfills role).id = role.id := by
  unfold applyBackfills
  split <;> rfl

theorem applyBackfills_name (backfills : List RoleBackfill) (role : Role) :
    (applyBackfills backfills role).name = role.name := by
  unfold applyBackfills
  split <;> rfl

/-- What a seeding session is going to write. -/
structure SeedPlan where
  backfills : List RoleBackfill
  rolesToAdd : List DefaultRole
  small : SmallTranslates
  large : LargeTranslates

/-- The plan of a session that has found everything in place. -/
def SeedPlan.empty : SeedPlan := ⟨[], [], ∅, ∅⟩

/-- The reads of `run_bootstrap_seeding`. -/
def readSeed (small : SmallTranslates) (large : LargeTranslates) (db : Database) :
    Except CrudError SeedPlan := do
  let existing := db.roles.rows.filter isDefaultCandidate
  let rolesToAdd ← missingDefaultRoles existing defaultRoles
  return {
    backfills := roleBackfills existing
    rolesToAdd
    small := small.filterKeys fun key => key ∉ db.translateSmall
    large := large.filterKeys fun key => key ∉ db.translateLarge }

/-- The row added for a missing default role, `nid` being the id the database generates. -/
def newDefaultRoleWith (nid : ℕ) (d : DefaultRole) : Role :=
  ⟨d.id.getD nid, d.name, d.titleKey, some (rbacServiceDefaults d.name)⟩

/-- The `INSERT`s of `addDefaultRoles` with the ids that `gen` generates. -/
def addDefaultRolesWith (gen : RoleTable → ℕ) :
    RoleTable → List DefaultRole → Except CrudError RoleTable
  | roles, [] => .ok roles
  | roles, d :: ds =>
    match roles.insert (newDefaultRoleWith (gen roles) d) with
    | .ok roles' => addDefaultRolesWith gen roles' ds
    | .error v => .error (.integrityError v)

/-- The flushes and the commit of `run_bootstrap_seeding`. -/
def writeSeed (gen : RoleTable → ℕ) (plan : SeedPlan) (db : Database) :
    Except CrudError Database := do
  let updated := db.roles.mapRows (applyBackfills plan.backfills)
    (applyBackfills_id plan.backfills) (applyBackfills_name plan.backfills)
  let roles ← addDefaultRolesWith gen updated plan.rolesToAdd
  if (∃ key ∈ plan.small.keys, key ∈ db.translateSmall) ∨
      ∃ key ∈ plan.large.keys, key ∈ db.translateLarge then
    throw (.integrityError .primaryKey)
  return { db with
    roles
    translateSmall := db.translateSmall ∪ plan.small
    translateLarge := db.translateLarge ∪ plan.large }

/-- `run_bootstrap_seeding` with the ids that `gen` generates. -/
def seedingWith (gen : RoleTable → ℕ) (small : SmallTranslates) (large : LargeTranslates)
    (db : Database) : Except CrudError Database := do
  let plan ← readSeed small large db
  writeSeed gen plan db

/-! ## The changed columns -/

section

variable {role role' : Role} {roles : RoleTable}

theorem permissions_eq_none_of_seedExistingRole (h : (seedExistingRole role).permissions = none) :
    role.permissions = none := by
  unfold seedExistingRole at h
  split_ifs at h
  · unfold initRolePermissionsIfMissing at h
    dsimp only at h
    split_ifs at h
    rwa [fillTitleKey_permissions] at h
  · exact h

/-- Written over the loaded row, or over a row that has them already, the changed columns give the
seeded row. -/
theorem apply_roleBackfill (h : role' = role ∨ role' = seedExistingRole role) :
    (roleBackfill role).apply role' = seedExistingRole role := by
  have hid : role'.id = (seedExistingRole role).id := by
    rcases h with rfl | rfl
    · exact (seedExistingRole_id role').symm
    · rfl
  have hname : role'.name = (seedExistingRole role).name := by
    rcases h with rfl | rfl
    · exact (seedExistingRole_name role').symm
    · rfl
  have htitle : (roleBackfill role).titleKey.getD role'.titleKey =
      (seedExistingRole role).titleKey := by
    by_cases ht : (seedExistingRole role).titleKey = role.titleKey
    · rcases h with rfl | rfl <;> simp [roleBackfill, Option.filter, ht]
    · simp [roleBackfill, Option.filter, ht]
  have hperms : (roleBackfill role).permissions.or role'.permissions =
      (seedExistingRole role).permissions := by
    cases hp : (seedExistingRole role).permissions with
    | none =>
      have hnone : role'.permissions = none := by
        rcases h with rfl | rfl
        · exact permissions_eq_none_of_seedExistingRole hp
        · exact hp
      simp [roleBackfill, hp, hnone]
    | some m =>
      by_cases hm : some m = role.permissions
      · rcases h with rfl | rfl
        · simp [roleBackfill, Option.filter, hp, ← hm]
        · simp [roleBackfill, Option.filter, hp, ← hm]
      · simp [roleBackfill, Option.filter, hp, hm]
  show (⟨role'.id, role'.name, _, _⟩ : Role) = _
  rw [hid, hname, htitle, hperms]

/-- The `UPDATE`s of the session that has loaded the candidates make every row the seeded one. -/
theorem applyBackfills_eq (hrole : role ∈ roles)
    (h : role' = role ∨ role' = seedExistingRole role) :
    applyBackfills (roleBackfills (roles.rows.filter isDefaultCandidate)) role' =
      seedExistingRole role := by
  have hid : role'.id = role.id := by
    rcases h with rfl | rfl
    · rfl
    · exact seedExistingRole_id role
  -- a backfill of this id is that of the role
  have hmem : ∀ backfill ∈ roleBackfills (roles.rows.filter isDefaultCandidate),
      backfill.roleId = role'.id → backfill = roleBackfill role ∧ seedExistingRole role ≠ role := by
    intro backfill hb hbid
    obtain ⟨old, hold, rfl⟩ := List.mem_map.1 hb
    obtain ⟨hold, hne⟩ := List.mem_filter.1 hold
    obtain rfl : old = role := Table.eq_of_pk (List.mem_filter.1 hold).1 hrole (hbid.trans hid)
    exact ⟨rfl, by simpa using hne⟩
  unfold applyBackfills
  cases hf : (roleBackfills (roles.rows.filter isDefaultCandidate)).find? fun backfill =>
      backfill.roleId = role'.id with
  | some backfill =>
    have hbid : backfill.roleId = role'.id := by simpa using List.find?_some hf
    rw [(hmem backfill (List.mem_of_find?_eq_some hf) hbid).1]
    exact apply_roleBackfill h
  | none =>
    have hsame : seedExistingRole role = role := by
      by_contra hne
      have hc : isDefaultCandidate role := by
        by_contra hc
        exact hne (if_neg hc)
      have hb : roleBackfill role ∈ roleBackfills (roles.rows.filter isDefaultCandidate) :=
        List.mem_map_of_mem (List.mem_filter.2
          ⟨List.mem_filter.2 ⟨hrole, by simpa using hc⟩, by simpa using hne⟩)
      rw [List.find?_eq_none] at hf
      exact hf _ hb (by simpa [roleBackfill] using hid.symm)
    rcases h with rfl | rfl
    · exact hsame.symm
    · rfl

end

/-! ## The new roles -/

section

variable {gen : RoleTable → ℕ} {roles roles' : RoleTable} {ds : List DefaultRole}

theorem DefaultRole.matches_newDefaultRoleWith (d : DefaultRole) (nid : ℕ) :
    d.Matches (newDefaultRoleWith nid d) := by
  refine ⟨rfl, fun i hi => ?_⟩
  simp [newDefaultRoleWith, hi]

theorem addDefaultRolesWith_nextId : addDefaultRolesWith Table.nextId roles ds =
    addDefaultRoles roles ds := by
  induction ds generalizing roles with
  | nil => rfl
  | cons d ds ih =>
    have hrole : newDefaultRoleWith roles.nextId d = newDefaultRole roles d := rfl
    rw [addDefaultRolesWith, addDefaultRoles, hrole]
    cases roles.insert (newDefaultRole roles d) with
    | ok roles' => exact ih
    | error v => rfl

theorem addDefaultRolesWith_ok (h : addDefaultRolesWith gen roles ds = .ok roles') :
    (∀ role ∈ roles, role ∈ roles') ∧ (∀ d ∈ ds, ∃ rs, newDefaultRoleWith (gen rs) d ∈ roles') ∧
      ∀ role ∈ roles', role ∈ roles ∨ ∃ d ∈ ds, ∃ rs, role = newDefaultRoleWith (gen rs) d := by
  induction ds generalizing roles with
  | nil =>
    cases h
    exact ⟨fun _ h => h, nofun, fun _ h => Or.inl h⟩
  | cons d ds ih =>
    rw [addDefaultRolesWith] at h
    cases hins : roles.insert (newDefaultRoleWith (gen roles) d) with
    | error v =>
      rw [hins] at h
      cases h
    | ok t =>
      rw [hins] at h
      obtain ⟨hold, hnew, hcases⟩ := ih h
      refine ⟨fun role hrole => hold role ((Table.mem_insert hins).2 (Or.inl hrole)),
        fun e he => ?_, fun role hrole => ?_⟩
      · rcases List.mem_cons.1 he with rfl | he
        · exact ⟨_, hold _ ((Table.mem_insert hins).2 (Or.inr rfl))⟩
        · exact hnew e he
      · rcases hcases role hrole with hrole | ⟨e, he, hrole⟩
        · rcases (Table.mem_insert hins).1 hrole with hrole | rfl
          · exact Or.inl hrole
          · exact Or.inr ⟨d, List.mem_cons_self, _, rfl⟩
        · exact Or.inr ⟨e, List.mem_cons_of_mem d he, hrole⟩

/-- A role of the name of a default role is in the way of that default role. -/
theorem eq_nil_of_addDefaultRolesWith (h : addDefaultRolesWith gen roles ds = .ok roles')
    (hnames : ∀ d ∈ ds, ∃ role ∈ roles, role.name = d.name) : ds = [] := by
  cases ds with
  | nil => rfl
  | cons d ds =>
    obtain ⟨role, hrole, hname⟩ := hnames d List.mem_cons_self
    rw [addDefaultRolesWith] at h
    cases hins : roles.insert (newDefaultRoleWith (gen roles) d) with
    | error v =>
      rw [hins] at h
      cases h
    | ok t => exact absurd hname (Table.insert_fresh hins hrole).2

end

/-! ## Seeding in two steps -/

section

variable {gen gen' : RoleTable → ℕ} {small : SmallTranslates} {large : LargeTranslates}
  {db db' : Database} {plan : SeedPlan}

theorem readSeed_ok : readSeed small large db = .ok plan ↔
    ∃ missing, missingDefaultRoles (db.roles.rows.filter isDefaultCandidate) defaultRoles =
        .ok missing ∧
      plan = ⟨roleBackfills (db.roles.rows.filter isDefaultCandidate), missing,
        small.filterKeys fun key => key ∉ db.translateSmall,
        large.filterKeys fun key => key ∉ db.translateLarge⟩ := by
  simp only [readSeed, Except.bind_eq_ok, Except.pure_eq_ok]
  exact exists_congr fun missing => and_congr_right fun _ => eq_comm

theorem writeSeed_ok : writeSeed gen plan db = .ok db' ↔
    ∃ roles, addDefaultRolesWith gen (db.roles.mapRows (applyBackfills plan.backfills)
        (applyBackfills_id plan.backfills) (applyBackfills_name plan.backfills))
        plan.rolesToAdd = .ok roles ∧
      (∀ key ∈ plan.small, key ∉ db.translateSmall) ∧
      (∀ key ∈ plan.large, key ∉ db.translateLarge) ∧
      db' = ⟨roles, db.users, db.translateSmall ∪ plan.small, db.translateLarge ∪ plan.large⟩ := by
  simp only [writeSeed, Except.bind_eq_ok, Except.throw_bind, Except.ite_throw_eq_ok,
    Except.pure_eq_ok, not_or, not_exists, not_and, Finmap.mem_keys, and_assoc]
  refine exists_congr fun roles => and_congr_right fun _ => and_congr_right fun _ =>
    and_congr_right fun _ => eq_comm

theorem mapRows_applyBackfills {roles : RoleTable} :
    roles.mapRows (applyBackfills (roleBackfills (roles.rows.filter isDefaultCandidate)))
        (applyBackfills_id _) (applyBackfills_name _) =
      roles.mapRows seedExistingRole seedExistingRole_id seedExistingRole_name :=
  Table.mapRows_congr fun _ hrole =>
    applyBackfills_eq hrole (Or.inl rfl)

theorem seedingWith_ok : seedingWith gen small large db = .ok db' ↔
    ∃ missing roles, missingDefaultRoles (db.roles.rows.filter isDefaultCandidate) defaultRoles =
        .ok missing ∧
      addDefaultRolesWith gen
        (db.roles.mapRows seedExistingRole seedExistingRole_id seedExistingRole_name) missing =
        .ok roles ∧
      db' = ⟨roles, db.users, db.translateSmall ∪ small, db.translateLarge ∪ large⟩ := by
  simp only [seedingWith, Except.bind_eq_ok, readSeed_ok, writeSeed_ok]
  constructor
  · rintro ⟨_, ⟨missing, hmissing, rfl⟩, roles, hroles, -, -, rfl⟩
    rw [mapRows_applyBackfills] at hroles
    exact ⟨missing, roles, hmissing, hroles, by
      rw [Finmap.union_filterKeys_not_mem, Finmap.union_filterKeys_not_mem]⟩
  · rintro ⟨missing, roles, hmissing, hroles, rfl⟩
    refine ⟨_, ⟨missing, hmissing, rfl⟩, roles, ?_, fun key hk => (Finmap.mem_filterKeys.1 hk).2,
      fun key hk => (Finmap.mem_filterKeys.1 hk).2, ?_⟩
    · rw [mapRows_applyBackfills]
      exact hroles
    · rw [Finmap.union_filterKeys_not_mem, Finmap.union_filterKeys_not_mem]

/-- With `max + 1` for a missing id, the two steps in a row are `runBootstrapSeeding`. -/
theorem seedingWith_nextId : seedingWith Table.nextId small large db = .ok db' ↔
    runBootstrapSeeding small large db = .ok db' := by
  simp only [seedingWith_ok, runBootstrapSeeding_ok_iff, seedRolesIfMissing, Except.bind_eq_ok,
    Except.pure_eq_ok, Prod.mk.injEq, addDefaultRolesWith_nextId]
  constructor
  · rintro ⟨missing, roles, hmissing, hroles, rfl⟩
    exact ⟨_, roles, ⟨missing, hmissing, roles, hroles, rfl, rfl⟩, rfl⟩
  · rintro ⟨_, roles, ⟨missing, hmissing, roles', hroles, -, heq⟩, rfl⟩
    obtain rfl : roles' = roles := congrArg Database.roles heq
    exact ⟨missing, roles', hmissing, hroles, rfl⟩

theorem users_eq_of_seedingWith (h : seedingWith gen small large db = .ok db') :
    db'.users = db.users := by
  obtain ⟨_, _, _, _, rfl⟩ := seedingWith_ok.1 h
  rfl

theorem seedDone_of_seedingWith (h : seedingWith gen small large db = .ok db') :
    SeedDone small large db' := by
  obtain ⟨missing, roles, hmissing, hroles, rfl⟩ := seedingWith_ok.1 h
  obtain ⟨hlist, hcases, -⟩ := missingDefaultRoles_ok hmissing
  obtain ⟨hold, hnew, -⟩ := addDefaultRolesWith_ok hroles
  refine ⟨fun d hd => ?_, fun key hk => Finmap.mem_union.2 (Or.inr hk),
    fun key hk => Finmap.mem_union.2 (Or.inr hk)⟩
  rcases hcases d hd with ⟨role, hrole, hm⟩ | hd'
  · have hmem : role ∈ db.roles := (List.mem_filter.1 hrole).1
    refine ⟨seedExistingRole role, hold _ (Table.mem_mapRows.2 ⟨role, hmem, rfl⟩), ?_, ?_⟩
    · rw [DefaultRole.Matches, seedExistingRole_id, seedExistingRole_name]
      exact hm
    · refine seedComplete_seedExistingRole ?_
      rw [hm.1]
      exact List.mem_map_of_mem hd
  · obtain ⟨rs, hrole⟩ := hnew d hd'
    exact ⟨_, hrole, d.matches_newDefaultRoleWith (gen rs), titleKey_ne_of_mem_defaultRoles d hd,
      fun _ hk => hk⟩

/-- Where nothing is left to seed, the plan is empty. -/
theorem readSeed_of_done (h : SeedDone small large db) : readSeed small large db = .ok .empty := by
  refine readSeed_ok.2 ⟨[], h.missingDefaultRoles_eq, ?_⟩
  have hbackfills : roleBackfills (db.roles.rows.filter isDefaultCandidate) = [] := by
    refine List.map_eq_nil_iff.2 (List.filter_eq_nil_iff.2 fun role hrole => ?_)
    simpa using h.seedExistingRole_eq (List.mem_filter.1 hrole).1
  rw [hbackfills, Finmap.filterKeys_eq_empty fun key hk => not_not.2 (h.small key hk),
    Finmap.filterKeys_eq_empty fun key hk => not_not.2 (h.large key hk)]
  rfl

theorem writeSeed_empty : writeSeed gen .empty db = .ok db := by
  have hroles : db.roles.mapRows (applyBackfills []) (applyBackfills_id []) (applyBackfills_name [])
      = db.roles := Table.mapRows_eq_self fun _ _ => rfl
  refine writeSeed_ok.2 ⟨db.roles, ?_, fun key hk => absurd hk Finmap.notMem_empty,
    fun key hk => absurd hk Finmap.notMem_empty, ?_⟩
  · show addDefaultRolesWith gen (db.roles.mapRows (applyBackfills []) _ _) [] = _
    rw [hroles]
    rfl
  · show db = ⟨db.roles, db.users, db.translateSmall ∪ ∅, db.translateLarge ∪ ∅⟩
    rw [Finmap.union_empty, Finmap.union_empty]

/-- The plan of a session that has read the database before another one seeded it: a role or a
translation it wants to insert is there by now, so its write fails, or it has none to insert and
writes the columns that are there already. -/
theorem writeSeed_of_seeded {seeded s s' : Database} (hplan : readSeed small large db = .ok plan)
    (hseeded : seedingWith gen small large db = .ok seeded) (hroles : s.roles = seeded.roles)
    (hsmall : s.translateSmall = seeded.translateSmall)
    (hlarge : s.translateLarge = seeded.translateLarge) (h : writeSeed gen' plan s = .ok s') :
    s' = s := by
  obtain ⟨missing, roles, hmissing, hadd, rfl⟩ := seedingWith_ok.1 hseeded
  obtain ⟨missing', hmissing', rfl⟩ := readSeed_ok.1 hplan
  obtain rfl : missing = missing' := Except.ok.inj (hmissing.symm.trans hmissing')
  obtain ⟨roles', hadd', hfreeSmall, hfreeLarge, rfl⟩ := writeSeed_ok.1 h
  dsimp only at hroles hsmall hlarge hadd' hfreeSmall hfreeLarge
  obtain ⟨-, hnew, hcases⟩ := addDefaultRolesWith_ok hadd
  -- every role the plan adds is in the way of its own insert
  obtain rfl : missing = [] := by
    refine eq_nil_of_addDefaultRolesWith hadd' fun d hd => ?_
    obtain ⟨rs, hrole⟩ := hnew d hd
    rw [← hroles] at hrole
    exact ⟨_, Table.mem_mapRows.2 ⟨_, hrole, rfl⟩, applyBackfills_name _ _⟩
  -- and every translation likewise
  have hsmall' : ∀ key ∈ small, key ∈ s.translateSmall := by
    rw [hsmall]
    exact fun key hk => Finmap.mem_union.2 (Or.inr hk)
  have hlarge' : ∀ key ∈ large, key ∈ s.translateLarge := by
    rw [hlarge]
    exact fun key hk => Finmap.mem_union.2 (Or.inr hk)
  have hsame : s.roles.mapRows
      (applyBackfills (roleBackfills (db.roles.rows.filter isDefaultCandidate)))
      (applyBackfills_id _) (applyBackfills_name _) = s.roles := by
    refine Table.mapRows_eq_self fun role hrole => ?_
    rw [hroles] at hrole
    rcases hcases role hrole with hrole | ⟨d, hd, -⟩
    · obtain ⟨old, hold, rfl⟩ := Table.mem_mapRows.1 hrole
      exact applyBackfills_eq hold (Or.inr rfl)
    · cases hd
  rw [hsame] at hadd'
  obtain rfl : s.roles = roles' := Except.ok.inj hadd'
  rw [Finmap.union_filterKeys_of_free hsmall' hfreeSmall,
    Finmap.union_filterKeys_of_free hlarge' hfreeLarge]

end

end AranesLms
