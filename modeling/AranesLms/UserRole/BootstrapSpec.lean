import AranesLms.UserRole.Bootstrap
import AranesLms.Lib.Except

/-!
# When seeding succeeds and what it leaves

`FixedIdsAgree` is the condition under which no drift is found: a fixed default id and the name
that goes with it belong to the same role.  `seedRolesIfMissing_ok_iff` shows that seeding succeeds
in exactly this case, and `SeededFrom` describes the roles it leaves.
-/

namespace AranesLms

/-- The id is a fixed default id exactly when the name is the one that goes with it. -/
def AgreesWithDefaults (id : ℕ) (name : String) : Prop :=
  ∀ d ∈ defaultRoles, ∀ i, d.id = some i → (id = i ↔ name = d.name)

theorem agreesWithDefaults_iff {id : ℕ} {name : String} : AgreesWithDefaults id name ↔
    ∀ d ∈ defaultRoles, d.id ≠ none → (d.id = some id ↔ name = d.name) := by
  refine forall₂_congr fun d _ => ?_
  cases hd : d.id with
  | none => simp
  | some i => simp [eq_comm]

instance (id : ℕ) (name : String) : Decidable (AgreesWithDefaults id name) :=
  decidable_of_iff' _ agreesWithDefaults_iff

/-- A fixed default id and its name belong to the same role, or to none. -/
def FixedIdsAgree (roles : RoleTable) : Prop :=
  ∀ role ∈ roles, AgreesWithDefaults role.id role.name

/-- The role is the one the default entry stands for. -/
def DefaultRole.Matches (d : DefaultRole) (role : Role) : Prop :=
  role.name = d.name ∧ ∀ i, d.id = some i → role.id = i

/-- Where the default role is present, its id and its name agree. -/
theorem DefaultRole.Matches.agree {roles : RoleTable} {d : DefaultRole} {role' : Role}
    (hm : d.Matches role') (hrole' : role' ∈ roles) {i : ℕ} (hi : d.id = some i) {role : Role}
    (hrole : role ∈ roles) : role.id = i ↔ role.name = d.name := by
  obtain ⟨hname, hid⟩ := hm
  constructor
  · intro hr
    rw [Table.eq_of_pk hrole hrole' (hr.trans (hid i hi).symm), hname]
  · intro hr
    rw [Table.eq_of_uk hrole hrole' (hr.trans hname.symm), hid i hi]

/-! ## Matching one default role -/

theorem checkDefaultRole_ok {d : DefaultRole} {role : Role} {found : Option Role} :
    checkDefaultRole d role = .ok found ↔ d.Matches role ∧ found = some role := by
  unfold checkDefaultRole DefaultRole.Matches
  cases hd : d.id with
  | none => by_cases hn : role.name = d.name <;> simp [hn, eq_comm]
  | some i =>
    by_cases hn : role.name = d.name <;> by_cases hi : i = role.id <;>
      simp [hn, hi, eq_comm]

theorem resolveDefaultRoleMatch_none {existing : List Role} {d : DefaultRole} :
    resolveDefaultRoleMatch existing d = .ok none ↔
      ∀ role ∈ existing, some role.id ≠ d.id ∧ role.name ≠ d.name := by
  have hid : (d.id.bind fun i => existing.find? fun role => role.id = i) = none ↔
      ∀ role ∈ existing, some role.id ≠ d.id := by
    cases d.id <;> simp
  have hname : (existing.find? fun role => role.name = d.name) = none ↔
      ∀ role ∈ existing, role.name ≠ d.name := by simp
  simp only [forall_and, ← hid, ← hname]
  unfold resolveDefaultRoleMatch
  dsimp only
  split
  · simp [*]
  · rename_i r r' hr hr'
    split_ifs <;> simp [hr, hr', checkDefaultRole_ok]
  · rename_i r hr hr'
    simp [hr, checkDefaultRole_ok]
  · rename_i r hr hr'
    simp [hr', checkDefaultRole_ok]

theorem resolveDefaultRoleMatch_some {existing : List Role} {d : DefaultRole} {role : Role}
    (h : resolveDefaultRoleMatch existing d = .ok (some role)) :
    role ∈ existing ∧ d.Matches role := by
  have hid : ∀ r, (d.id.bind fun i => existing.find? fun role => role.id = i) = some r →
      r ∈ existing := by
    intro r hr
    obtain ⟨i, -, hi⟩ := Option.bind_eq_some_iff.1 hr
    exact List.mem_of_find?_eq_some hi
  have hname : ∀ r, (existing.find? fun role => role.name = d.name) = some r → r ∈ existing :=
    fun r hr => List.mem_of_find?_eq_some hr
  unfold resolveDefaultRoleMatch at h
  dsimp only at h
  split at h
  · cases h
  · rename_i r r' hr hr'
    split_ifs at h with hne
    obtain ⟨hm, he⟩ := checkDefaultRole_ok.1 h
    cases he
    exact ⟨hid _ hr, hm⟩
  · rename_i r hr hr'
    obtain ⟨hm, he⟩ := checkDefaultRole_ok.1 h
    cases he
    exact ⟨hid _ hr, hm⟩
  · rename_i r hr hr'
    obtain ⟨hm, he⟩ := checkDefaultRole_ok.1 h
    cases he
    exact ⟨hname _ hr', hm⟩

/-- Among rows with unique names an entry whose fixed id agrees with its name raises no drift. -/
theorem resolveDefaultRoleMatch_exists_ok {roles : RoleTable} {existing : List Role}
    (hsub : ∀ role ∈ existing, role ∈ roles) {d : DefaultRole}
    (hd : ∀ i, d.id = some i → ∀ role ∈ existing, role.id = i ↔ role.name = d.name) :
    ∃ found, resolveDefaultRoleMatch existing d = .ok found := by
  have hid : ∀ r, (d.id.bind fun i => existing.find? fun role => role.id = i) = some r →
      r ∈ existing ∧ d.Matches r := by
    intro r hr
    obtain ⟨i, hi, hf⟩ := Option.bind_eq_some_iff.1 hr
    have hmem := List.mem_of_find?_eq_some hf
    have hri : r.id = i := by simpa using List.find?_some hf
    refine ⟨hmem, (hd i hi r hmem).1 hri, fun j hj => ?_⟩
    rw [hi] at hj
    exact hri.trans (Option.some.inj hj)
  have hname : ∀ r, (existing.find? fun role => role.name = d.name) = some r →
      r ∈ existing ∧ d.Matches r := by
    intro r hr
    have hmem := List.mem_of_find?_eq_some hr
    have hrn : r.name = d.name := by simpa using List.find?_some hr
    exact ⟨hmem, hrn, fun j hj => (hd j hj r hmem).2 hrn⟩
  unfold resolveDefaultRoleMatch
  dsimp only
  split
  · exact ⟨none, rfl⟩
  · rename_i r r' hr hr'
    obtain ⟨hmem, hm⟩ := hid r hr
    obtain ⟨hmem', hm'⟩ := hname r' hr'
    have : r = r' := Table.eq_of_uk (hsub r hmem) (hsub r' hmem') (hm.1.trans hm'.1.symm)
    rw [if_neg (not_not.2 this)]
    exact ⟨_, checkDefaultRole_ok.2 ⟨hm, rfl⟩⟩
  · rename_i r hr hr'
    exact ⟨_, checkDefaultRole_ok.2 ⟨(hid r hr).2, rfl⟩⟩
  · rename_i r hr hr'
    exact ⟨_, checkDefaultRole_ok.2 ⟨(hname r hr').2, rfl⟩⟩

/-! ## The loop over the default roles -/

theorem missingDefaultRoles_exists_ok {existing : List Role} {ds : List DefaultRole}
    (h : ∀ d ∈ ds, ∃ found, resolveDefaultRoleMatch existing d = .ok found) :
    ∃ missing, missingDefaultRoles existing ds = .ok missing := by
  induction ds with
  | nil => exact ⟨[], rfl⟩
  | cons d ds ih =>
    obtain ⟨found, hfound⟩ := h d List.mem_cons_self
    obtain ⟨rest, hrest⟩ := ih fun e he => h e (List.mem_cons_of_mem d he)
    rw [missingDefaultRoles, hfound, hrest]
    cases found with
    | none => exact ⟨_, rfl⟩
    | some role => exact ⟨_, rfl⟩

/-- Every entry is matched by an existing role or is missing, and then nothing has its id or its
name. -/
theorem missingDefaultRoles_ok {existing : List Role} {ds missing : List DefaultRole}
    (h : missingDefaultRoles existing ds = .ok missing) :
    missing.Sublist ds ∧ (∀ d ∈ ds, (∃ role ∈ existing, d.Matches role) ∨ d ∈ missing) ∧
      ∀ d ∈ missing, ∀ role ∈ existing, some role.id ≠ d.id ∧ role.name ≠ d.name := by
  induction ds generalizing missing with
  | nil =>
    cases h
    exact ⟨List.Sublist.refl _, nofun, nofun⟩
  | cons d ds ih =>
    simp only [missingDefaultRoles, Except.bind_eq_ok] at h
    obtain ⟨found, hfound, rest, hrest, h⟩ := h
    obtain ⟨hsub, hcases, hfree⟩ := ih hrest
    cases found with
    | some role =>
      cases h
      refine ⟨hsub.cons d, fun e he => ?_, hfree⟩
      rcases List.mem_cons.1 he with rfl | he
      · exact Or.inl ⟨role, resolveDefaultRoleMatch_some hfound⟩
      · exact hcases e he
    | none =>
      cases h
      refine ⟨hsub.cons_cons d, fun e he => ?_, fun e he => ?_⟩
      · rcases List.mem_cons.1 he with rfl | he
        · exact Or.inr List.mem_cons_self
        · exact (hcases e he).imp_right (List.mem_cons_of_mem d)
      · rcases List.mem_cons.1 he with rfl | he
        · exact resolveDefaultRoleMatch_none.1 hfound
        · exact hfree e he

theorem DefaultRole.matches_newDefaultRole (d : DefaultRole) (roles : RoleTable) :
    d.Matches (newDefaultRole roles d) := by
  refine ⟨rfl, fun i hi => ?_⟩
  simp [newDefaultRole, hi]

/-- The new rows do not clash with each other: only the last default role has no fixed id. -/
theorem defaultRoles_pairwise :
    defaultRoles.Pairwise fun d e => d.id ≠ none ∧ d.id ≠ e.id ∧ d.name ≠ e.name := by
  decide

theorem addDefaultRoles_exists_ok {ds : List DefaultRole} {roles : RoleTable}
    (hds : ds.Pairwise fun d e => d.id ≠ none ∧ d.id ≠ e.id ∧ d.name ≠ e.name)
    (hfree : ∀ d ∈ ds, ∀ role ∈ roles, some role.id ≠ d.id ∧ role.name ≠ d.name) :
    ∃ t, addDefaultRoles roles ds = .ok t ∧ (∀ role ∈ roles, role ∈ t) ∧
      (∀ d ∈ ds, ∃ role ∈ t, d.Matches role) ∧
      ∀ role ∈ t, role ∈ roles ∨ ∃ d ∈ ds, ∃ rs, role = newDefaultRole rs d := by
  induction ds generalizing roles with
  | nil => exact ⟨roles, rfl, fun _ h => h, nofun, fun _ h => Or.inl h⟩
  | cons d ds ih =>
    obtain ⟨hd, hds⟩ := List.pairwise_cons.1 hds
    have hpk : ∀ role ∈ roles, role.id ≠ (newDefaultRole roles d).id := by
      intro role hrole
      cases hid : d.id with
      | none =>
        simp only [newDefaultRole, hid, Option.getD_none]
        exact (Table.pk_lt_nextId hrole).ne
      | some i =>
        have := (hfree d List.mem_cons_self role hrole).1
        simpa [newDefaultRole, hid] using this
    obtain ⟨roles', hins⟩ := Table.exists_insert hpk
      fun role hrole => (hfree d List.mem_cons_self role hrole).2
    have hmem : ∀ role, role ∈ roles' ↔ role ∈ roles ∨ role = newDefaultRole roles d :=
      fun role => Table.mem_insert hins
    have hfree' : ∀ e ∈ ds, ∀ role ∈ roles', some role.id ≠ e.id ∧ role.name ≠ e.name := by
      intro e he role hrole
      rcases (hmem role).1 hrole with hrole | rfl
      · exact hfree e (List.mem_cons_of_mem d he) role hrole
      · obtain ⟨hnone, hid, hname⟩ := hd e he
        refine ⟨?_, hname⟩
        obtain ⟨i, hi⟩ := Option.ne_none_iff_exists'.1 hnone
        rw [((d.matches_newDefaultRole roles).2 i hi), ← hi]
        exact hid
    obtain ⟨t, ht, hold, hnew, hcases⟩ := ih hds hfree'
    refine ⟨t, by rw [addDefaultRoles, hins]; exact ht, fun role hrole => ?_, fun e he => ?_,
      fun role hrole => ?_⟩
    · exact hold role ((hmem role).2 (Or.inl hrole))
    · rcases List.mem_cons.1 he with rfl | he
      · exact ⟨_, hold _ ((hmem _).2 (Or.inr rfl)), e.matches_newDefaultRole roles⟩
      · exact hnew e he
    · rcases hcases role hrole with hrole | ⟨e, he, hrole⟩
      · rcases (hmem role).1 hrole with hrole | rfl
        · exact Or.inl hrole
        · exact Or.inr ⟨d, List.mem_cons_self, roles, rfl⟩
      · exact Or.inr ⟨e, List.mem_cons_of_mem d he, hrole⟩

/-! ## Complete roles -/

theorem titleKey_ne_of_mem_defaultRoles : ∀ d ∈ defaultRoles, d.titleKey ≠ "" := by decide

theorem seedComplete_newDefaultRole {d : DefaultRole} (hd : d ∈ defaultRoles) (roles : RoleTable) :
    SeedComplete (newDefaultRole roles d) :=
  ⟨titleKey_ne_of_mem_defaultRoles d hd, fun _ hk => hk⟩

theorem fillTitleKey_titleKey_ne {role : Role} (h : role.name ∈ defaultRoles.map DefaultRole.name) :
    (fillTitleKey role).titleKey ≠ "" := by
  unfold fillTitleKey
  split_ifs with ht
  · obtain ⟨d, hd, hname⟩ := List.mem_map.1 h
    cases hf : defaultRoles.find? fun d => d.name = role.name with
    | none =>
      rw [List.find?_eq_none] at hf
      exact absurd hname (by simpa using hf d hd)
    | some d' => exact titleKey_ne_of_mem_defaultRoles d' (List.mem_of_find?_eq_some hf)
  · exact ht

theorem seedComplete_seedExistingRole {role : Role}
    (h : role.name ∈ defaultRoles.map DefaultRole.name) : SeedComplete (seedExistingRole role) := by
  have hc : isDefaultCandidate role := Or.inr h
  rw [seedExistingRole, if_pos hc]
  constructor
  · rw [initRolePermissionsIfMissing_titleKey]
    exact fillTitleKey_titleKey_ne h
  · intro key hk
    rw [initRolePermissionsIfMissing_name] at hk
    exact mem_perms_initRolePermissionsIfMissing hk

/-! ## Seeding -/

/-- The roles and users after a successful seeding. -/
structure SeededFrom (db db' : Database) : Prop where
  users_eq : db'.users = db.users
  mem_existing : ∀ role ∈ db.roles, seedExistingRole role ∈ db'.roles
  mem_default : ∀ d ∈ defaultRoles, ∃ role ∈ db'.roles, d.Matches role
  mem_cases : ∀ role ∈ db'.roles, (∃ old ∈ db.roles, role = seedExistingRole old) ∨
    ∃ d ∈ defaultRoles, ∃ rs, role = newDefaultRole rs d

theorem SeededFrom.fixedIdsAgree {db db' : Database} (h : SeededFrom db db') :
    FixedIdsAgree db'.roles := by
  intro role hrole d hd i hi
  obtain ⟨role', hrole', hm⟩ := h.mem_default d hd
  exact hm.agree hrole' hi hrole

theorem fixedIdsAgree_candidates {roles : RoleTable} :
    FixedIdsAgree roles ↔ ∀ d ∈ defaultRoles, ∀ i, d.id = some i →
      ∀ role ∈ roles.rows.filter isDefaultCandidate, role.id = i ↔ role.name = d.name := by
  constructor
  · intro h d hd i hi role hrole
    exact h role (List.mem_filter.1 hrole).1 d hd i hi
  · intro h role hrole d hd i hi
    by_cases hc : isDefaultCandidate role
    · exact h d hd i hi role (List.mem_filter.2 ⟨hrole, by simpa using hc⟩)
    · rw [isDefaultCandidate, not_or] at hc
      refine iff_of_false (fun hr => hc.1 ?_) (fun hr => hc.2 ?_)
      · rw [hr, ← hi]
        exact List.mem_map_of_mem hd
      · rw [hr]
        exact List.mem_map_of_mem hd

/-- What is missing among the candidates is missing in the table. -/
theorem free_of_candidates {roles : RoleTable} {d : DefaultRole} (hd : d ∈ defaultRoles)
    (h : ∀ role ∈ roles.rows.filter isDefaultCandidate, some role.id ≠ d.id ∧ role.name ≠ d.name) :
    ∀ role ∈ roles, some role.id ≠ d.id ∧ role.name ≠ d.name := by
  intro role hrole
  by_cases hc : isDefaultCandidate role
  · exact h role (List.mem_filter.2 ⟨hrole, by simpa using hc⟩)
  · rw [isDefaultCandidate, not_or] at hc
    constructor
    · intro hr
      exact hc.1 (hr ▸ List.mem_map_of_mem hd)
    · intro hr
      exact hc.2 (hr ▸ List.mem_map_of_mem hd)

theorem seedRolesIfMissing_of_agree {db : Database} (h : FixedIdsAgree db.roles) :
    ∃ n db', seedRolesIfMissing db = .ok (n, db') ∧ SeededFrom db db' := by
  have hsub : ∀ role ∈ db.roles.rows.filter isDefaultCandidate, role ∈ db.roles :=
    fun role hrole => (List.mem_filter.1 hrole).1
  obtain ⟨missing, hmissing⟩ := missingDefaultRoles_exists_ok fun d hd =>
    resolveDefaultRoleMatch_exists_ok hsub (fixedIdsAgree_candidates.1 h d hd)
  obtain ⟨hlist, hcases, hfree⟩ := missingDefaultRoles_ok hmissing
  have hfree' : ∀ d ∈ missing, ∀ role ∈ db.roles.mapRows seedExistingRole seedExistingRole_id
      seedExistingRole_name, some role.id ≠ d.id ∧ role.name ≠ d.name := by
    intro d hd role hrole
    obtain ⟨old, hold, rfl⟩ := Table.mem_mapRows.1 hrole
    rw [seedExistingRole_id, seedExistingRole_name]
    exact free_of_candidates (hlist.subset hd) (hfree d hd) old hold
  obtain ⟨t, ht, hold, hnew, hmem⟩ :=
    addDefaultRoles_exists_ok (defaultRoles_pairwise.sublist hlist) hfree'
  refine ⟨missing.length, { db with roles := t }, ?_, rfl, fun role hrole => ?_, fun d hd => ?_,
    fun role hrole => ?_⟩
  · simp only [seedRolesIfMissing, hmissing, Except.bind_eq_ok, Except.pure_eq_ok]
    exact ⟨missing, rfl, t, ht, rfl⟩
  · exact hold _ (Table.mem_mapRows.2 ⟨role, hrole, rfl⟩)
  · rcases hcases d hd with ⟨role, hrole, hm⟩ | hd
    · refine ⟨seedExistingRole role, hold _ (Table.mem_mapRows.2 ⟨role, hsub role hrole, rfl⟩), ?_⟩
      rw [DefaultRole.Matches, seedExistingRole_id, seedExistingRole_name]
      exact hm
    · exact hnew d hd
  · rcases hmem role hrole with hrole | ⟨d, hd, hrole⟩
    · obtain ⟨old, hold, rfl⟩ := Table.mem_mapRows.1 hrole
      exact Or.inl ⟨old, hold, rfl⟩
    · exact Or.inr ⟨d, hlist.subset hd, hrole⟩

theorem fixedIdsAgree_of_missingDefaultRoles {roles : RoleTable} {missing : List DefaultRole}
    (h : missingDefaultRoles (roles.rows.filter isDefaultCandidate) defaultRoles = .ok missing) :
    FixedIdsAgree roles := by
  obtain ⟨-, hcases, hfree⟩ := missingDefaultRoles_ok h
  rw [fixedIdsAgree_candidates]
  intro d hd i hi role hrole
  rcases hcases d hd with ⟨role', hrole', hm⟩ | hd
  · exact hm.agree (List.mem_filter.1 hrole').1 hi (List.mem_filter.1 hrole).1
  · obtain ⟨hne, hne'⟩ := hfree d hd role hrole
    exact iff_of_false (fun hr => hne (by rw [hr, hi])) hne'

theorem fixedIdsAgree_of_seedRolesIfMissing {db db' : Database} {n : ℕ}
    (h : seedRolesIfMissing db = .ok (n, db')) : FixedIdsAgree db.roles := by
  simp only [seedRolesIfMissing, Except.bind_eq_ok] at h
  obtain ⟨missing, hmissing, -⟩ := h
  exact fixedIdsAgree_of_missingDefaultRoles hmissing

/-- Seeding succeeds in exactly the databases without drift. -/
theorem seedRolesIfMissing_ok_iff {db : Database} :
    (∃ n db', seedRolesIfMissing db = .ok (n, db')) ↔ FixedIdsAgree db.roles := by
  constructor
  · rintro ⟨n, db', h⟩
    exact fixedIdsAgree_of_seedRolesIfMissing h
  · intro h
    obtain ⟨n, db', hok, -⟩ := seedRolesIfMissing_of_agree h
    exact ⟨n, db', hok⟩

theorem seedRolesIfMissing_ok {db db' : Database} {n : ℕ}
    (h : seedRolesIfMissing db = .ok (n, db')) : SeededFrom db db' := by
  obtain ⟨n', db'', hok, hs⟩ := seedRolesIfMissing_of_agree (fixedIdsAgree_of_seedRolesIfMissing h)
  rw [h] at hok
  cases hok
  exact hs

theorem runBootstrapSeeding_ok {small : SmallTranslates} {large : LargeTranslates}
    {db db' : Database} (h : runBootstrapSeeding small large db = .ok db') :
    SeededFrom db db' := by
  simp only [runBootstrapSeeding, Except.bind_eq_ok] at h
  obtain ⟨⟨n, db₁⟩, hseed, h⟩ := h
  cases h
  obtain ⟨husers, hold, hdefault, hcases⟩ := seedRolesIfMissing_ok hseed
  exact ⟨husers, hold, hdefault, hcases⟩

/-- The database after a first start that registers no translations. -/
def seededDatabase : Database :=
  match runBootstrapSeeding ∅ ∅ Database.empty with
  | .ok db => db
  | .error _ => Database.empty

theorem runBootstrapSeeding_empty :
    runBootstrapSeeding ∅ ∅ Database.empty = .ok seededDatabase := by
  decide +kernel

end AranesLms
