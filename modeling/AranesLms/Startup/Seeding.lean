import AranesLms.Lib.Finmap
import AranesLms.UserRole.Drift

/-!
# Seeding is all-or-nothing, conservative and idempotent

`runBootstrapSeeding` fails exactly when a default role has drifted (`HasDrift`).  Otherwise it
leaves the default roles, their keys and the registered translations in place and keeps what was
there (`SeedPost`), and seeding such a database again changes nothing (`SeedDone`).
-/

namespace AranesLms

/-- A fixed default id is held by a role of another name, or its name by a role of another id. -/
def HasDrift (roles : RoleTable) : Prop :=
  ∃ d ∈ defaultRoles, ∃ i, d.id = some i ∧ ∃ role ∈ roles,
    role.id = i ∧ role.name ≠ d.name ∨ role.name = d.name ∧ role.id ≠ i

theorem hasDrift_iff {roles : RoleTable} : HasDrift roles ↔ ¬ FixedIdsAgree roles := by
  constructor
  · rintro ⟨d, hd, i, hi, role, hrole, ⟨hid, hname⟩ | ⟨hname, hid⟩⟩ h
    · exact hname ((h role hrole d hd i hi).1 hid)
    · exact hid ((h role hrole d hd i hi).2 hname)
  · intro h
    by_contra hno
    refine h fun role hrole d hd i hi => ⟨fun hid => ?_, fun hname => ?_⟩
    · by_contra hname
      exact hno ⟨d, hd, i, hi, role, hrole, Or.inl ⟨hid, hname⟩⟩
    · by_contra hid
      exact hno ⟨d, hd, i, hi, role, hrole, Or.inr ⟨hname, hid⟩⟩

/-! ## What seeding leaves -/

/-- What seeding makes of a role that exists: an empty title is filled, missing default keys are
added, and nothing else changes. -/
structure SeededRole (old role : Role) : Prop where
  id_eq : role.id = old.id
  name_eq : role.name = old.name
  titleKey_of_ne : old.titleKey ≠ "" → role.titleKey = old.titleKey
  titleKey_of_default : ∀ d ∈ defaultRoles, d.name = old.name → old.titleKey = "" →
    role.titleKey = d.titleKey
  lookup_perms : ∀ key, role.perms.lookup key =
    (old.perms.lookup key).or ((rbacServiceDefaults old.name).lookup key)
  eq_of_not_default : (∀ d ∈ defaultRoles, d.name ≠ old.name) → role = old

/-- The database after a successful seeding of `db`. -/
structure SeedPost (small : SmallTranslates) (large : LargeTranslates) (db db' : Database) :
    Prop where
  default : ∀ d ∈ defaultRoles, ∃ role ∈ db'.roles, d.Matches role ∧
    ∀ key ∈ getDefaultRolePermissions d.name, key ∈ role.perms
  existing : ∀ old ∈ db.roles, ∃ role ∈ db'.roles, SeededRole old role
  created : ∀ role ∈ db'.roles, (∃ old ∈ db.roles, old.id = role.id) ∨
    ∃ d ∈ defaultRoles, d.Matches role ∧ role.titleKey = d.titleKey ∧
      role.permissions = some (getDefaultRolePermissions d.name)
  users : db'.users = db.users
  small : ∀ key, db'.translateSmall.lookup key =
    (db.translateSmall.lookup key).or (small.lookup key)
  large : ∀ key, db'.translateLarge.lookup key =
    (db.translateLarge.lookup key).or (large.lookup key)

/-- Nothing is left to seed. -/
structure SeedDone (small : SmallTranslates) (large : LargeTranslates) (db : Database) : Prop where
  roles : ∀ d ∈ defaultRoles, ∃ role ∈ db.roles, d.Matches role ∧ SeedComplete role
  small : ∀ key ∈ small, key ∈ db.translateSmall
  large : ∀ key ∈ large, key ∈ db.translateLarge

theorem rbacServiceDefaults_of_mem {d : DefaultRole} (hd : d ∈ defaultRoles) :
    rbacServiceDefaults d.name = getDefaultRolePermissions d.name :=
  if_pos (List.mem_map_of_mem hd)

/-! ## One role -/

theorem fillTitleKey_titleKey_of_ne {role : Role} (h : role.titleKey ≠ "") :
    (fillTitleKey role).titleKey = role.titleKey := by
  rw [fillTitleKey, if_neg h]

theorem fillTitleKey_titleKey_of_default {role : Role} {d : DefaultRole} (hd : d ∈ defaultRoles)
    (hname : d.name = role.name) (h : role.titleKey = "") :
    (fillTitleKey role).titleKey = d.titleKey := by
  have hinj : ∀ d ∈ defaultRoles, ∀ e ∈ defaultRoles, d.name = e.name → d = e := by decide
  rw [fillTitleKey, if_pos h]
  cases hf : defaultRoles.find? fun e => e.name = role.name with
  | none =>
    rw [List.find?_eq_none] at hf
    exact absurd hname (by simpa using hf d hd)
  | some e =>
    have he : e.name = role.name := by simpa using List.find?_some hf
    rw [hinj d hd e (List.mem_of_find?_eq_some hf) (hname.trans he.symm)]

theorem initRolePermissionsIfMissing_perms (role : Role) :
    (initRolePermissionsIfMissing role).perms = role.perms ∪ rbacServiceDefaults role.name := by
  unfold initRolePermissionsIfMissing
  dsimp only
  split_ifs with h
  · exact (Finmap.union_eq_left fun key hk => h key (Finmap.mem_keys.2 hk)).symm
  · rfl

theorem rbacServiceDefaults_of_not_mem {name : String} (h : ∀ d ∈ defaultRoles, d.name ≠ name) :
    rbacServiceDefaults name = ∅ := by
  refine if_neg fun hmem => ?_
  obtain ⟨d, hd, hname⟩ := List.mem_map.1 hmem
  exact h d hd hname

/-- A role that is no default role is left alone, a candidate by its id alone having drifted. -/
theorem seedExistingRole_eq_of_not_default {role : Role}
    (hagree : AgreesWithDefaults role.id role.name) (h : ∀ d ∈ defaultRoles, d.name ≠ role.name) :
    seedExistingRole role = role := by
  refine if_neg ?_
  rintro (hid | hname)
  · obtain ⟨d, hd, hi⟩ := List.mem_map.1 hid
    exact h d hd ((hagree d hd role.id hi).1 rfl).symm
  · obtain ⟨d, hd, hname⟩ := List.mem_map.1 hname
    exact h d hd hname

theorem seededRole_seedExistingRole {role : Role}
    (hagree : AgreesWithDefaults role.id role.name) : SeededRole role (seedExistingRole role) := by
  by_cases hdefault : ∀ d ∈ defaultRoles, d.name ≠ role.name
  · rw [seedExistingRole_eq_of_not_default hagree hdefault]
    refine ⟨rfl, rfl, fun _ => rfl, fun d hd hname => absurd hname (hdefault d hd), fun key => ?_,
      fun _ => rfl⟩
    rw [rbacServiceDefaults_of_not_mem hdefault, Finmap.lookup_empty, Option.or_none]
  · have hname : role.name ∈ defaultRoles.map DefaultRole.name := by
      push Not at hdefault
      obtain ⟨d, hd, hname⟩ := hdefault
      exact List.mem_map.2 ⟨d, hd, hname⟩
    have heq : seedExistingRole role = initRolePermissionsIfMissing (fillTitleKey role) :=
      if_pos (Or.inr hname)
    refine ⟨seedExistingRole_id role, seedExistingRole_name role, fun h => ?_,
      fun d hd hd' h => ?_, fun key => ?_, fun h => absurd h hdefault⟩
    · rw [heq, initRolePermissionsIfMissing_titleKey, fillTitleKey_titleKey_of_ne h]
    · rw [heq, initRolePermissionsIfMissing_titleKey, fillTitleKey_titleKey_of_default hd hd' h]
    · rw [heq, initRolePermissionsIfMissing_perms, fillTitleKey_perms, fillTitleKey_name,
        Finmap.lookup_union]

/-! ## A successful run -/

section

variable {small : SmallTranslates} {large : LargeTranslates} {db db' : Database}

theorem seedRolesIfMissing_snd {n : ℕ} (h : seedRolesIfMissing db = .ok (n, db')) :
    ∃ roles, db' = { db with roles } := by
  simp only [seedRolesIfMissing, Except.bind_eq_ok, Except.pure_eq_ok, Prod.mk.injEq] at h
  obtain ⟨_, _, roles, _, _, rfl⟩ := h
  exact ⟨roles, rfl⟩

theorem runBootstrapSeeding_ok_iff : runBootstrapSeeding small large db = .ok db' ↔
    ∃ n roles, seedRolesIfMissing db = .ok (n, { db with roles }) ∧
      db' = ⟨roles, db.users, db.translateSmall ∪ small, db.translateLarge ∪ large⟩ := by
  simp only [runBootstrapSeeding, Except.bind_eq_ok, Except.pure_eq_ok, Prod.exists]
  constructor
  · rintro ⟨n, db₁, hseed, rfl⟩
    obtain ⟨roles, rfl⟩ := seedRolesIfMissing_snd hseed
    exact ⟨n, roles, hseed, rfl⟩
  · rintro ⟨n, roles, hseed, rfl⟩
    exact ⟨n, _, hseed, rfl⟩

theorem SeededFrom.complete (h : SeededFrom db db') {d : DefaultRole} (hd : d ∈ defaultRoles) :
    ∃ role ∈ db'.roles, d.Matches role ∧ SeedComplete role := by
  obtain ⟨role, hrole, hm⟩ := h.mem_default d hd
  refine ⟨role, hrole, hm, ?_⟩
  rcases h.mem_cases role hrole with ⟨old, -, rfl⟩ | ⟨e, he, rs, rfl⟩
  · refine seedComplete_seedExistingRole ?_
    rw [← seedExistingRole_name, hm.1]
    exact List.mem_map_of_mem hd
  · exact seedComplete_newDefaultRole he rs

theorem seedPost_of_run (h : runBootstrapSeeding small large db = .ok db') :
    SeedPost small large db db' := by
  have hseeded := runBootstrapSeeding_ok h
  obtain ⟨n, roles, hseed, rfl⟩ := runBootstrapSeeding_ok_iff.1 h
  have hagree : FixedIdsAgree db.roles := fixedIdsAgree_of_seedRolesIfMissing hseed
  refine ⟨fun d hd => ?_, fun old hold => ?_, fun role hrole => ?_, rfl,
    Finmap.lookup_union _ _, Finmap.lookup_union _ _⟩
  · obtain ⟨role, hrole, hm, hcomplete⟩ := hseeded.complete hd
    refine ⟨role, hrole, hm, fun key hk => hcomplete.2 key ?_⟩
    rwa [hm.1, rbacServiceDefaults_of_mem hd]
  · exact ⟨_, hseeded.mem_existing old hold, seededRole_seedExistingRole (hagree old hold)⟩
  · rcases hseeded.mem_cases role hrole with ⟨old, hold, rfl⟩ | ⟨d, hd, rs, rfl⟩
    · exact Or.inl ⟨old, hold, (seedExistingRole_id old).symm⟩
    · refine Or.inr ⟨d, hd, d.matches_newDefaultRole rs, rfl, ?_⟩
      rw [← rbacServiceDefaults_of_mem hd]
      rfl

theorem seedDone_of_run (h : runBootstrapSeeding small large db = .ok db') :
    SeedDone small large db' := by
  have hpost := seedPost_of_run h
  exact ⟨fun _ hd => (runBootstrapSeeding_ok h).complete hd,
    fun key hk => (Finmap.mem_iff_of_lookup_eq_or (hpost.small key)).2 (Or.inr hk),
    fun key hk => (Finmap.mem_iff_of_lookup_eq_or (hpost.large key)).2 (Or.inr hk)⟩

end

/-! ## Nothing left to seed -/

namespace SeedDone

variable {small : SmallTranslates} {large : LargeTranslates} {db : Database}

theorem fixedIdsAgree (h : SeedDone small large db) : FixedIdsAgree db.roles := by
  intro role hrole d hd i hi
  obtain ⟨role', hrole', hm, -⟩ := h.roles d hd
  exact hm.agree hrole' hi hrole

theorem seedExistingRole_eq (h : SeedDone small large db) {role : Role} (hrole : role ∈ db.roles) :
    seedExistingRole role = role := by
  by_cases hdefault : ∀ d ∈ defaultRoles, d.name ≠ role.name
  · exact seedExistingRole_eq_of_not_default (h.fixedIdsAgree role hrole) hdefault
  · push Not at hdefault
    obtain ⟨d, hd, hname⟩ := hdefault
    obtain ⟨role', hrole', hm, hcomplete⟩ := h.roles d hd
    rw [Table.eq_of_uk hrole hrole' (hname.symm.trans hm.1.symm)]
    exact hcomplete.seedExistingRole_eq

theorem mapRows_eq (h : SeedDone small large db) :
    db.roles.mapRows seedExistingRole seedExistingRole_id seedExistingRole_name = db.roles :=
  Table.mapRows_eq_self fun _ hrole => h.seedExistingRole_eq hrole

/-- Every default role is found. -/
theorem missingDefaultRoles_eq (h : SeedDone small large db) :
    missingDefaultRoles (db.roles.rows.filter isDefaultCandidate) defaultRoles = .ok [] := by
  have hsub : ∀ role ∈ db.roles.rows.filter isDefaultCandidate, role ∈ db.roles :=
    fun role hrole => (List.mem_filter.1 hrole).1
  obtain ⟨missing, hmissing⟩ := missingDefaultRoles_exists_ok fun d hd =>
    resolveDefaultRoleMatch_exists_ok hsub (fixedIdsAgree_candidates.1 h.fixedIdsAgree d hd)
  obtain ⟨hlist, -, hfree⟩ := missingDefaultRoles_ok hmissing
  have hnil : missing = [] := by
    refine List.eq_nil_iff_forall_not_mem.2 fun d hd => ?_
    obtain ⟨role, hrole, hm, -⟩ := h.roles d (hlist.subset hd)
    exact (free_of_candidates (hlist.subset hd) (hfree d hd) role hrole).2 hm.1
  rw [hmissing, hnil]

theorem runBootstrapSeeding_eq (h : SeedDone small large db) :
    runBootstrapSeeding small large db = .ok db := by
  refine runBootstrapSeeding_ok_iff.2 ⟨0, db.roles, ?_, ?_⟩
  · simp only [seedRolesIfMissing, h.missingDefaultRoles_eq, h.mapRows_eq, addDefaultRoles,
      Except.ok_bind]
    rfl
  · rw [Finmap.union_eq_left h.small, Finmap.union_eq_left h.large]

end SeedDone

/-! ## Seeding -/

variable (small : SmallTranslates) (large : LargeTranslates) (db : Database)

theorem runBootstrapSeeding_of_drift (h : HasDrift db.roles) :
    ∃ detail, runBootstrapSeeding small large db = .error (.runtimeError detail) := by
  have hloop : ∃ e, missingDefaultRoles (db.roles.rows.filter isDefaultCandidate) defaultRoles =
      .error e := by
    cases hm : missingDefaultRoles (db.roles.rows.filter isDefaultCandidate) defaultRoles with
    | error e => exact ⟨e, rfl⟩
    | ok missing => exact absurd (fixedIdsAgree_of_missingDefaultRoles hm) (hasDrift_iff.1 h)
  obtain ⟨e, he⟩ := hloop
  obtain ⟨detail, rfl⟩ := missingDefaultRoles_error he
  refine ⟨detail, ?_⟩
  simp only [runBootstrapSeeding, seedRolesIfMissing, he]
  rfl

theorem runBootstrapSeeding_of_no_drift (h : ¬ HasDrift db.roles) :
    ∃ db', runBootstrapSeeding small large db = .ok db' := by
  rw [hasDrift_iff, not_not] at h
  obtain ⟨n, db₁, hseed, -⟩ := seedRolesIfMissing_of_agree h
  obtain ⟨roles, rfl⟩ := seedRolesIfMissing_snd hseed
  exact ⟨_, runBootstrapSeeding_ok_iff.2 ⟨n, roles, hseed, rfl⟩⟩

/-- Seeding fails where a default role has drifted, and there it changes nothing; everywhere else
it succeeds, keeps what was there, adds what was missing, and a second seeding changes nothing. -/
theorem runBootstrapSeeding_spec :
    (HasDrift db.roles ∧
      (∃ detail, runBootstrapSeeding small large db = .error (.runtimeError detail)) ∧
      ∀ nid, (Operation.runBootstrapSeeding small large).step nid db = db) ∨
    (¬ HasDrift db.roles ∧ ∃ db', runBootstrapSeeding small large db = .ok db' ∧
      (∀ nid, (Operation.runBootstrapSeeding small large).step nid db = db') ∧
      SeedPost small large db db' ∧ runBootstrapSeeding small large db' = .ok db') := by
  by_cases h : HasDrift db.roles
  · obtain ⟨detail, he⟩ := runBootstrapSeeding_of_drift small large db h
    refine Or.inl ⟨h, ⟨detail, he⟩, fun nid => ?_⟩
    rw [Operation.step, Operation.run, he]
  · obtain ⟨db', hok⟩ := runBootstrapSeeding_of_no_drift small large db h
    refine Or.inr ⟨h, db', hok, fun nid => ?_, seedPost_of_run hok,
      (seedDone_of_run hok).runBootstrapSeeding_eq⟩
    rw [Operation.step, Operation.run, hok]

end AranesLms
