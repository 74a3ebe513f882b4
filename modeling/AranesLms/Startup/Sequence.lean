import AranesLms.Startup.Transactions

/-!
# Role ids from a sequence

The application on a database that fills a missing `roles.id` from a sequence: it starts at 1,
every `INSERT` without an id draws a value, also one that is rolled back, and an `INSERT` with an
explicit id does not touch it.

The default roles take the ids 1 to 6 explicitly, so the first six values that the sequence hands
out collide with them.  `always_works_iff` shows that this is all: without drift, seeding and role
creation work exactly when at least six values have been drawn.
-/

namespace AranesLms

structure SequenceState where
  db : Database
  nextval : ℕ

/-- A startup (its seeding, and the creation of a superuser), a role creation or a deletion. -/
inductive RoleEvent where
  | runBootstrapSeeding (small : SmallTranslates) (large : LargeTranslates)
  | ensureSuperUser (nid : ℕ) (username password : String)
  | createRole (name titleKey : String)
  | deleteRole (roleId : ℕ)

/-- The number of values that a seeding draws: one for each role it inserts without an id. -/
def seedDraws (small : SmallTranslates) (large : LargeTranslates) (db : Database) : ℕ :=
  match readSeed small large db with
  | .ok plan => (plan.rolesToAdd.filter fun d => d.id = none).length
  | .error _ => 0

namespace SequenceState

/-- The migrated database and a new sequence. -/
def init : SequenceState := ⟨Database.empty, 1⟩

variable (s : SequenceState)

/-- `run_bootstrap_seeding`; of the default roles only one has no id of its own. -/
def seed (small : SmallTranslates) (large : LargeTranslates) : Except CrudError Database :=
  seedingWith (fun _ => s.nextval) small large s.db

def createRole (name titleKey : String) : Except CrudError (Role × Database) :=
  AranesLms.createRole s.db s.nextval name titleKey

/-- What the event leaves; a failed one leaves the rows as they were. -/
def step : RoleEvent → SequenceState
  | .runBootstrapSeeding small large =>
    ⟨(s.seed small large).toOption.getD s.db, s.nextval + seedDraws small large s.db⟩
  | .ensureSuperUser nid username password =>
    { s with db := (Prod.snd <$> ensureSuperUserWithCredentials s.db nid username
        password).toOption.getD s.db }
  | .createRole name titleKey =>
    ⟨(Prod.snd <$> s.createRole name titleKey).toOption.getD s.db, s.nextval + 1⟩
  | .deleteRole roleId => { s with db := (AranesLms.deleteRole s.db roleId).toOption.getD s.db }

/-- Seeding succeeds and creates all missing default roles, and a role with an unused name can be
created. -/
def Works : Prop :=
  (∀ small large, ∃ db', s.seed small large = .ok db' ∧
    ∀ d ∈ defaultRoles, ∃ role ∈ db'.roles, d.Matches role) ∧
  ∀ name titleKey, (∀ role ∈ s.db.roles, role.name ≠ name) →
    ∃ role db', s.createRole name titleKey = .ok (role, db')

/-! ## Where ids come from -/

/-- Every id in use has been drawn from the sequence or is one of the fixed ids 1 to 6. -/
structure IdsDrawn : Prop where
  nextval_pos : 1 ≤ s.nextval
  id_pos : ∀ role ∈ s.db.roles, 1 ≤ role.id
  id_cases : ∀ role ∈ s.db.roles, role.id < s.nextval ∨ role.id ≤ 6

variable {s} {small : SmallTranslates} {large : LargeTranslates}

theorem idsDrawn_init : init.IdsDrawn := ⟨le_rfl, nofun, nofun⟩

theorem fixed_id_bounds : ∀ d ∈ defaultRoles, ∀ i ∈ d.id, 1 ≤ i ∧ i ≤ 6 := by decide

/-- A row of a seeded table has the id of an old row, a fixed id, or the drawn value. -/
theorem id_cases_of_seed {db' : Database} (h : s.seed small large = .ok db') {role : Role}
    (hrole : role ∈ db'.roles) :
    (∃ old ∈ s.db.roles, old.id = role.id) ∨ (1 ≤ role.id ∧ role.id ≤ 6) ∨
      role.id = s.nextval ∧ 1 ≤ seedDraws small large s.db := by
  obtain ⟨missing, roles, hmissing, hadd, rfl⟩ := seedingWith_ok.1 h
  obtain ⟨-, -, hcases⟩ := addDefaultRolesWith_ok hadd
  rcases hcases role hrole with hrole | ⟨d, hd, -, rfl⟩
  · obtain ⟨old, hold, rfl⟩ := Table.mem_mapRows.1 hrole
    exact Or.inl ⟨old, hold, (seedExistingRole_id old).symm⟩
  · cases hid : d.id with
    | some i =>
      have hmem : d ∈ defaultRoles := (missingDefaultRoles_ok hmissing).1.subset hd
      have hbounds := fixed_id_bounds d hmem i hid
      refine Or.inr (Or.inl ?_)
      simpa [newDefaultRoleWith, hid] using hbounds
    | none =>
      refine Or.inr (Or.inr ⟨by simp [newDefaultRoleWith, hid], ?_⟩)
      obtain ⟨plan, hread, rfl⟩ : ∃ plan, readSeed small large s.db = .ok plan ∧
          plan.rolesToAdd = missing := ⟨_, readSeed_ok.2 ⟨missing, hmissing, rfl⟩, rfl⟩
      unfold seedDraws
      rw [hread]
      exact List.length_pos_of_mem (List.mem_filter.2 ⟨hd, by simpa using hid⟩)

theorem IdsDrawn.seed (hs : s.IdsDrawn) :
    (s.step (.runBootstrapSeeding small large)).IdsDrawn := by
  have hpos := hs.nextval_pos
  cases hseed : s.seed small large with
  | error e =>
    have hstep : s.step (.runBootstrapSeeding small large) =
        ⟨s.db, s.nextval + seedDraws small large s.db⟩ := by
      rw [step, hseed]
      rfl
    rw [hstep]
    exact ⟨Nat.le_add_right_of_le hpos, hs.id_pos,
      fun role hrole => (hs.id_cases role hrole).imp_left fun h => Nat.lt_add_right _ h⟩
  | ok db' =>
    have hstep : s.step (.runBootstrapSeeding small large) =
        ⟨db', s.nextval + seedDraws small large s.db⟩ := by
      rw [step, hseed]
      rfl
    rw [hstep]
    refine ⟨Nat.le_add_right_of_le hpos, fun role hrole => ?_, fun role hrole => ?_⟩
    · rcases id_cases_of_seed hseed hrole with ⟨old, hold, hid⟩ | ⟨hid, -⟩ | ⟨hid, -⟩
      · exact hid ▸ hs.id_pos old hold
      · exact hid
      · exact hid ▸ hpos
    · rcases id_cases_of_seed hseed hrole with ⟨old, hold, hid⟩ | ⟨-, hid⟩ | ⟨hid, hdraw⟩
      · exact (hid ▸ hs.id_cases old hold).imp_left fun h => Nat.lt_add_right _ h
      · exact Or.inr hid
      · left
        show role.id < s.nextval + seedDraws small large s.db
        omega

/-- Fewer rows and no value drawn. -/
theorem IdsDrawn.of_subset (hs : s.IdsDrawn) {db' : Database}
    (h : ∀ role ∈ db'.roles, role ∈ s.db.roles) : IdsDrawn { s with db := db' } :=
  ⟨hs.nextval_pos, fun role hrole => hs.id_pos role (h role hrole),
    fun role hrole => hs.id_cases role (h role hrole)⟩

theorem IdsDrawn.step (hs : s.IdsDrawn) (event : RoleEvent) : (s.step event).IdsDrawn := by
  cases event with
  | runBootstrapSeeding small large => exact hs.seed
  | ensureSuperUser nid username password =>
    refine hs.of_subset fun role hrole => ?_
    cases h : ensureSuperUserWithCredentials s.db nid username password with
    | error e =>
      rw [h] at hrole
      exact hrole
    | ok result =>
      obtain ⟨create, -, hwrite⟩ := Except.bind_eq_ok.1 h
      rw [h] at hrole
      obtain ⟨-, ⟨-, hdb⟩ | ⟨-, users, -, hdb⟩⟩ := writeEnsureSuperUser_ok.1 hwrite
      · exact hdb ▸ hrole
      · have : result.2.roles = s.db.roles := by rw [hdb]
        exact this ▸ hrole
  | createRole name titleKey =>
    have hpos := hs.nextval_pos
    cases h : s.createRole name titleKey with
    | error e =>
      have hstep : s.step (.createRole name titleKey) = ⟨s.db, s.nextval + 1⟩ := by
        rw [SequenceState.step, h]
        rfl
      rw [hstep]
      exact ⟨Nat.le_add_right_of_le hpos, hs.id_pos,
        fun role hrole => (hs.id_cases role hrole).imp_left fun h => Nat.lt_add_right _ h⟩
    | ok result =>
      obtain ⟨role, db'⟩ := result
      have hstep : s.step (.createRole name titleKey) = ⟨db', s.nextval + 1⟩ := by
        rw [SequenceState.step, h]
        rfl
      obtain ⟨rfl, t, ht, rfl⟩ := createRole_ok.1 h
      rw [hstep]
      refine ⟨Nat.le_add_right_of_le hpos, fun role hrole => ?_, fun role hrole => ?_⟩
      · rcases (Table.mem_insert ht).1 hrole with hold | rfl
        · exact hs.id_pos role hold
        · exact hpos
      · rcases (Table.mem_insert ht).1 hrole with hold | rfl
        · exact (hs.id_cases role hold).imp_left fun h => Nat.lt_add_right _ h
        · exact Or.inl (Nat.lt_succ_self _)
  | deleteRole roleId =>
    refine hs.of_subset fun role hrole => ?_
    cases h : AranesLms.deleteRole s.db roleId with
    | error e =>
      rw [h] at hrole
      exact hrole
    | ok db' =>
      rw [h] at hrole
      obtain ⟨-, -, rfl⟩ := deleteRole_ok h
      exact (Table.mem_erase.1 hrole).1

/-! ## When seeding and creation work -/

/-- Past the fixed ids, the next value is no role's id. -/
theorem IdsDrawn.id_ne_nextval (hs : s.IdsDrawn) (h7 : 7 ≤ s.nextval) {role : Role}
    (hrole : role ∈ s.db.roles) : role.id ≠ s.nextval := by
  have := hs.id_cases role hrole
  omega

/-- The missing default roles can be inserted when the generated id is neither in use nor fixed. -/
theorem addDefaultRolesWith_exists_ok {nid : ℕ} {ds : List DefaultRole} {roles : RoleTable}
    (hds : ds.Pairwise fun d e => d.id ≠ none ∧ d.id ≠ e.id ∧ d.name ≠ e.name)
    (hfree : ∀ d ∈ ds, ∀ role ∈ roles, some role.id ≠ d.id ∧ role.name ≠ d.name)
    (hnid : ∀ role ∈ roles, role.id ≠ nid) (hfixed : ∀ d ∈ ds, d.id ≠ some nid) :
    ∃ t, addDefaultRolesWith (fun _ => nid) roles ds = .ok t := by
  have hlast : ∀ d ∈ ds, d.id = none → ∀ role ∈ roles, role.id ≠ nid :=
    fun _ _ _ role hrole => hnid role hrole
  clear hnid
  induction ds generalizing roles with
  | nil => exact ⟨roles, rfl⟩
  | cons d ds ih =>
    obtain ⟨hd, hds⟩ := List.pairwise_cons.1 hds
    have hpk : ∀ role ∈ roles, role.id ≠ (newDefaultRoleWith nid d).id := by
      intro role hrole
      cases hid : d.id with
      | none => simpa [newDefaultRoleWith, hid] using hlast d List.mem_cons_self hid role hrole
      | some i =>
        simpa [newDefaultRoleWith, hid] using (hfree d List.mem_cons_self role hrole).1
    obtain ⟨roles', hins⟩ := Table.exists_insert hpk
      fun role hrole => (hfree d List.mem_cons_self role hrole).2
    rw [addDefaultRolesWith, hins]
    refine ih hds (fun e he role hrole => ?_) (fun e he => hfixed e (List.mem_cons_of_mem d he))
      fun e he hnone role hrole => ?_
    · rcases (Table.mem_insert hins).1 hrole with hrole | rfl
      · exact hfree e (List.mem_cons_of_mem d he) role hrole
      · obtain ⟨hnone, hid, hname⟩ := hd e he
        obtain ⟨i, hi⟩ := Option.ne_none_iff_exists'.1 hnone
        refine ⟨?_, hname⟩
        rwa [(d.matches_newDefaultRoleWith nid).2 i hi, ← hi]
    · rcases (Table.mem_insert hins).1 hrole with hrole | rfl
      · exact hlast e (List.mem_cons_of_mem d he) hnone role hrole
      · -- a role before the one without an id has a fixed id
        obtain ⟨i, hi⟩ := Option.ne_none_iff_exists'.1 (hd e he).1
        rw [(d.matches_newDefaultRoleWith nid).2 i hi]
        rintro rfl
        exact hfixed d List.mem_cons_self hi

theorem IdsDrawn.works (hs : s.IdsDrawn) (hdrift : ¬ HasDrift s.db.roles) (h7 : 7 ≤ s.nextval) :
    s.Works := by
  rw [hasDrift_iff, not_not] at hdrift
  refine ⟨fun small large => ?_, fun name titleKey hname => ?_⟩
  · have hsub : ∀ role ∈ s.db.roles.rows.filter isDefaultCandidate, role ∈ s.db.roles :=
      fun role hrole => (List.mem_filter.1 hrole).1
    obtain ⟨missing, hmissing⟩ := missingDefaultRoles_exists_ok fun d hd =>
      resolveDefaultRoleMatch_exists_ok hsub (fixedIdsAgree_candidates.1 hdrift d hd)
    obtain ⟨hlist, -, hfree⟩ := missingDefaultRoles_ok hmissing
    have hadd : ∃ t, addDefaultRolesWith (fun _ => s.nextval)
        (s.db.roles.mapRows seedExistingRole seedExistingRole_id seedExistingRole_name) missing =
        .ok t := by
      refine addDefaultRolesWith_exists_ok (defaultRoles_pairwise.sublist hlist)
        (fun d hd role hrole => ?_) (fun role hrole => ?_) fun d hd hid => ?_
      · obtain ⟨old, hold, rfl⟩ := Table.mem_mapRows.1 hrole
        rw [seedExistingRole_id, seedExistingRole_name]
        exact free_of_candidates (hlist.subset hd) (hfree d hd) old hold
      · obtain ⟨old, hold, rfl⟩ := Table.mem_mapRows.1 hrole
        rw [seedExistingRole_id]
        exact hs.id_ne_nextval h7 hold
      · have := (fixed_id_bounds d (hlist.subset hd) s.nextval hid).2
        omega
    obtain ⟨t, ht⟩ := hadd
    have hseed : s.seed small large = .ok _ := seedingWith_ok.2 ⟨missing, t, hmissing, ht, rfl⟩
    refine ⟨_, hseed, fun d hd => ?_⟩
    obtain ⟨role, hrole, hm, -⟩ := (seedDone_of_seedingWith hseed).roles d hd
    exact ⟨role, hrole, hm⟩
  · obtain ⟨t, ht⟩ := Table.exists_insert (t := s.db.roles)
      (r := ⟨s.nextval, name, titleKey, some ∅⟩) (fun role hrole => hs.id_ne_nextval h7 hrole) hname
    exact ⟨_, _, createRole_ok.2 ⟨rfl, t, ht, rfl⟩⟩

/-- While the sequence hands out fixed ids, the role without one is missing, and its insert
collides with the default role that has the drawn id. -/
theorem IdsDrawn.not_works (hs : s.IdsDrawn) (h6 : s.nextval ≤ 6) : ¬ s.Works := by
  rintro ⟨hseeding, -⟩
  obtain ⟨db', hseed, -⟩ := hseeding ∅ ∅
  have hfixed : ∀ i < 7, 1 ≤ i → ∃ d ∈ defaultRoles, d.id = some i ∧ d.name ≠ "PLUGIN" := by
    decide
  have hplugin : (⟨none, "PLUGIN", "role.plugin.title"⟩ : DefaultRole) ∈ defaultRoles := by decide
  have hdone : SeedDone ∅ ∅ db' := seedDone_of_seedingWith hseed
  obtain ⟨role, hrole, hm, -⟩ := hdone.roles _ hplugin
  have hid : 1 ≤ role.id ∧ role.id ≤ 6 := by
    rcases id_cases_of_seed hseed hrole with ⟨old, hold, hid⟩ | hid | ⟨hid, -⟩
    · have hpos := hs.id_pos old hold
      have hcases := hs.id_cases old hold
      omega
    · exact hid
    · have hpos := hs.nextval_pos
      omega
  obtain ⟨d, hd, hdid, hne⟩ := hfixed role.id (Nat.lt_succ_of_le hid.2) hid.1
  exact hne (((hdone.fixedIdsAgree role hrole d hd role.id hdid).1 rfl).symm.trans hm.1)

/-- In every state without drift that startups, role creations and deletions lead to from an empty
migrated database, seeding and role creation work exactly when the sequence has handed out the
first six values. -/
theorem always_works_iff (events : List RoleEvent) :
    Transition.Always step (fun s => ¬ HasDrift s.db.roles → (s.Works ↔ 7 ≤ s.nextval)) init
      events := by
  have halways : Transition.Always step IdsDrawn init events :=
    .of_step (fun _ event hs => hs.step event) idsDrawn_init events
  refine halways.mono fun s hs hdrift => ⟨fun hworks => ?_, hs.works hdrift⟩
  by_contra h7
  exact hs.not_works (by omega) hworks

/-- The first seeding of an empty database fails: PLUGIN is given the id 1 of SuperAdmin. -/
theorem first_seeding_collides :
    init.seed ∅ ∅ = .error (.integrityError .primaryKey) ∧
      ¬ ∀ events,
        Transition.Always step (fun s => ¬ HasDrift s.db.roles → s.Works) init events := by
  have hseed : init.seed ∅ ∅ = .error (.integrityError .primaryKey) := by decide +kernel
  refine ⟨hseed, fun h => ?_⟩
  have hdrift : ¬ HasDrift init.db.roles := by
    rintro ⟨d, -, i, -, role, hrole, -⟩
    cases hrole
  obtain ⟨hseeding, -⟩ := (h []).head hdrift
  obtain ⟨db', hok, -⟩ := hseeding ∅ ∅
  rw [hseed] at hok
  cases hok

end SequenceState

end AranesLms
