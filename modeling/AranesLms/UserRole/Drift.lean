import AranesLms.UserRole.Operations

/-!
# Role operations and the default roles

The next start and the next signup need each fixed default id and its name on one role
(`startable_iff`).  `update_role` and `create_role` protect the SuperAdmin role only, so a run
keeps the application startable exactly when every role it creates or renames agrees with the
defaults (`always_startable_iff`).
-/

namespace AranesLms

variable {db db' : Database}

/-- The database after one API operation, new rows being given `max + 1`. -/
def apiStep (db : Database) (op : Operation) : Database := op.step (op.nextId db) db

/-- The next seeding raises no drift error and signup gets its role. -/
def Startable (db : Database) : Prop :=
  (∀ detail, seedRolesIfMissing db ≠ .error (.runtimeError detail)) ∧
    ∃ role db', getOrCreateDefaultSignupRoleWithConfig db = .ok (role, db')

/-! ## Startable databases -/

theorem resolveDefaultRoleMatch_error {existing : List Role} {d : DefaultRole} {e : CrudError}
    (h : resolveDefaultRoleMatch existing d = .error e) : ∃ detail, e = .runtimeError detail := by
  have hcheck : ∀ {role : Role}, checkDefaultRole d role = .error e →
      ∃ detail, e = .runtimeError detail := by
    intro role h
    unfold checkDefaultRole at h
    split_ifs at h
    cases h
    exact ⟨_, rfl⟩
  unfold resolveDefaultRoleMatch at h
  dsimp only at h
  split at h
  · cases h
  · split_ifs at h
    · cases h
      exact ⟨_, rfl⟩
    · exact hcheck h
  · exact hcheck h
  · exact hcheck h

theorem missingDefaultRoles_error {existing : List Role} {ds : List DefaultRole} {e : CrudError}
    (h : missingDefaultRoles existing ds = .error e) : ∃ detail, e = .runtimeError detail := by
  induction ds with
  | nil => cases h
  | cons d ds ih =>
    rw [missingDefaultRoles] at h
    cases hfound : resolveDefaultRoleMatch existing d with
    | error e' =>
      rw [hfound] at h
      cases h
      exact resolveDefaultRoleMatch_error hfound
    | ok found =>
      cases hrest : missingDefaultRoles existing ds with
      | error e' =>
        rw [hfound, hrest] at h
        cases h
        exact ih hrest
      | ok rest =>
        rw [hfound, hrest] at h
        cases found <;> cases h

/-- Whatever stops the loop is a drift error, so seeding without drift succeeds. -/
theorem no_drift_iff :
    (∀ detail, seedRolesIfMissing db ≠ .error (.runtimeError detail)) ↔
      FixedIdsAgree db.roles := by
  constructor
  · intro h
    cases hloop : missingDefaultRoles (db.roles.rows.filter isDefaultCandidate) defaultRoles with
    | ok missing => exact fixedIdsAgree_of_missingDefaultRoles hloop
    | error e =>
      obtain ⟨detail, rfl⟩ := missingDefaultRoles_error hloop
      refine absurd ?_ (h detail)
      rw [seedRolesIfMissing]
      dsimp only
      rw [hloop]
      rfl
  · intro h detail hd
    obtain ⟨n, db', hok, -⟩ := seedRolesIfMissing_of_agree h
    rw [hok] at hd
    cases hd

theorem agreesWithDefaults_signup :
    AgreesWithDefaults defaultSignupRoleId defaultSignupRoleName := by
  decide

theorem exists_signup_role (h : FixedIdsAgree db.roles) :
    ∃ role db', getOrCreateDefaultSignupRoleWithConfig db = .ok (role, db') := by
  have hagree : ∀ role ∈ db.roles,
      role.id = defaultSignupRoleId ↔ role.name = defaultSignupRoleName :=
    fun role hrole => h role hrole
      ⟨some defaultSignupRoleId, defaultSignupRoleName, defaultSignupRoleTitleKey⟩ (by decide) _ rfl
  by_cases hex : ∃ role ∈ db.roles, role.id = defaultSignupRoleId
  · obtain ⟨role, hrole, hid⟩ := hex
    exact ⟨role, db,
      getOrCreateDefaultSignupRoleWithConfig_of_mem hrole hid ((hagree role hrole).1 hid)⟩
  · have hid : ∀ role ∈ db.roles, role.id ≠ newSignupRole.id :=
      fun role hrole he => hex ⟨role, hrole, he⟩
    have hname : ∀ role ∈ db.roles, role.name ≠ newSignupRole.name :=
      fun role hrole he => hid role hrole ((hagree role hrole).2 he)
    have hfound := getExactDefaultSignupRole_none.2 fun role hrole =>
      ⟨hid role hrole, hname role hrole⟩
    obtain ⟨t, ht⟩ := Table.exists_insert hid hname
    refine ⟨newSignupRole, { db with roles := t }, ?_⟩
    rw [getOrCreateDefaultSignupRoleWithConfig, insertSignupRole, ht]
    rw [show getExactDefaultSignupRole db defaultSignupRoleId defaultSignupRoleName = .ok none
      from hfound]
    rfl

/-- Startup and signup work exactly when fixed default ids and names agree. -/
theorem startable_iff : Startable db ↔ FixedIdsAgree db.roles := by
  rw [Startable, no_drift_iff]
  exact ⟨fun h => h.1, fun h => ⟨h, exists_signup_role h⟩⟩

/-! ## One operation -/

/-- Condition on an operation: the role that it creates or renames, if it is accepted, has a
fixed default id exactly when it has the name that goes with it. -/
def KeepsDefaults (db : Database) : Operation → Prop
  | .createRole name _ =>
    (∀ role ∈ db.roles, role.name ≠ name) → AgreesWithDefaults db.roles.nextId name
  | .updateRole roleId (some name) _ =>
    (∃ role ∈ db.roles, role.id = roleId ∧ ¬ isSuperadminRole role) →
    (∀ role ∈ db.roles, role.id ≠ roleId → role.name ≠ name) → AgreesWithDefaults roleId name
  | _ => True

/-- A write that keeps ids and names keeps the agreement. -/
theorem FixedIdsAgree.modify {roles roles' : RoleTable} {i : ℕ} {f : Role → Role}
    (h : FixedIdsAgree roles) (ht : roles.modify i f = .ok roles')
    (hf : ∀ r, (f r).id = r.id ∧ (f r).name = r.name) : FixedIdsAgree roles' := by
  intro role hrole
  rcases (Table.mem_modify ht).1 hrole with ⟨hrole, -⟩ | ⟨old, hold, -, rfl⟩
  · exact h role hrole
  · rw [(hf old).1, (hf old).2]
    exact h old hold

theorem FixedIdsAgree.insert_iff {roles roles' : RoleTable} {role : Role} (h : FixedIdsAgree roles)
    (ht : roles.insert role = .ok roles') :
    FixedIdsAgree roles' ↔ AgreesWithDefaults role.id role.name := by
  constructor
  · exact fun h' => h' role ((Table.mem_insert ht).2 (Or.inr rfl))
  · intro hr r hmem
    rcases (Table.mem_insert ht).1 hmem with hmem | rfl
    · exact h r hmem
    · exact hr

/-- A successful operation that keeps the defaults keeps the agreement. -/
theorem FixedIdsAgree.of_rolesEffect {op : Operation} {roles : RoleTable}
    (h : FixedIdsAgree db.roles) (heff : RolesEffect (op.nextId db) db op roles)
    (hop : KeepsDefaults db op) : FixedIdsAgree roles := by
  cases heff with
  | same => exact h
  | create ht => exact (h.insert_iff ht).2 (hop fun r hr => (Table.insert_fresh ht hr).2)
  | @update name titleKey old _ hold hs ht =>
    intro role hrole
    rcases (Table.mem_modify ht).1 hrole with ⟨hrole, -⟩ | ⟨_, -, -, rfl⟩
    · exact h role hrole
    cases name with
    | none => exact h old hold
    | some name =>
      exact hop ⟨old, hold, rfl, hs⟩ fun r hr hne => Table.modify_fresh ht hold rfl rfl hr hne
  | delete => exact fun role hrole => h role (Table.mem_erase.1 hrole).1
  | patch _ _ _ ht => exact h.modify ht fun _ => ⟨rfl, rfl⟩
  | reset =>
    intro role hrole
    obtain ⟨old, hold, rfl⟩ := mem_writeResetRoles.1 hrole
    rw [resetRole_id, resetRole_name]
    exact h old hold
  | append _ _ _ ht => exact h.modify ht fun _ => ⟨rfl, rfl⟩
  | signup ht => exact (h.insert_iff ht).2 agreesWithDefaults_signup
  | seed hseed => exact hseed.fixedIdsAgree

theorem FixedIdsAgree.apiStep {op : Operation} (h : FixedIdsAgree db.roles)
    (hop : KeepsDefaults db op) : FixedIdsAgree (apiStep db op).roles :=
  Operation.step_induct (P := fun db' => FixedIdsAgree db'.roles) h
    fun _ hrun => h.of_rolesEffect (Operation.rolesEffect hrun) hop

/-- An operation that does not keep the defaults is accepted and breaks the agreement. -/
theorem KeepsDefaults.of_fixedIdsAgree {op : Operation}
    (h : FixedIdsAgree (apiStep db op).roles) : KeepsDefaults db op := by
  have hrun : ∀ db', op.run (op.nextId db) db = .ok db' → apiStep db op = db' := by
    intro db' hok
    rw [apiStep, Operation.step, hok]
  cases op with
  | createRole name titleKey =>
    intro hname
    obtain ⟨t, ht⟩ := Table.exists_insert (t := db.roles)
      (r := ⟨db.roles.nextId, name, titleKey, some ∅⟩) (fun r hr => (Table.pk_lt_nextId hr).ne)
      hname
    rw [hrun _ (Except.map_eq_ok.2 ⟨(_, _), createRole_ok.2 ⟨rfl, t, ht, rfl⟩, rfl⟩)] at h
    exact h _ ((Table.mem_insert ht).2 (Or.inr rfl))
  | updateRole roleId name titleKey =>
    cases name with
    | none => trivial
    | some name =>
      rintro ⟨old, hold, rfl, hs⟩ hname
      obtain ⟨t, ht⟩ := Table.exists_modify (t := db.roles) (i := old.id) (f := fun _ => { old with
        name := (some name).getD old.name, titleKey := titleKey.getD old.titleKey })
        (fun _ _ _ => rfl) fun _ _ _ x hx hne => hname x hx hne
      have hok := updateRole_ok.2 ⟨old, hold, rfl, hs, rfl, t, ht, rfl⟩
      rw [hrun _ (Except.map_eq_ok.2 ⟨(_, _), hok, rfl⟩)] at h
      exact h _ (Table.mem_modify_self ht hold)
  | _ => trivial

/-! ## Every run -/

/-- From a seeded database on, the application can be started and signed up to throughout a run
of operations exactly when each of them keeps the defaults. -/
theorem always_startable_iff (small : SmallTranslates) (large : LargeTranslates)
    (db₀ db : Database) (h : runBootstrapSeeding small large db₀ = .ok db)
    (ops : List Operation) :
    Transition.Always apiStep Startable db ops ↔ Transition.Along apiStep KeepsDefaults db ops := by
  refine Transition.always_iff_along (J := fun db => FixedIdsAgree db.roles)
    (fun _ => startable_iff.2) (fun _ _ hs => hs.apiStep) (fun _ _ _ h => ?_)
    (runBootstrapSeeding_ok h).fixedIdsAgree ops
  exact .of_fixedIdsAgree (startable_iff.1 h)

theorem always_startable_create_editor : Transition.Always apiStep Startable seededDatabase
    [.createRole "Editor" "role.editor.title"] := by
  refine (always_startable_iff ∅ ∅ Database.empty seededDatabase runBootstrapSeeding_empty _).2
    ⟨fun _ => ?_, trivial⟩
  decide +kernel

/-- Renaming the Student role stops the next start and every signup. -/
theorem rename_student_not_startable :
    runBootstrapSeeding ∅ ∅ Database.empty = .ok seededDatabase ∧
      ¬ Transition.Always apiStep Startable seededDatabase
        [.updateRole 6 (some "Learner") none] := by
  refine ⟨runBootstrapSeeding_empty, fun h => h.last.1 ("Default role drift detected. " ++
    "Expected role (6, 'Student') but found (6, 'Learner').") ?_⟩
  decide +kernel

end AranesLms
