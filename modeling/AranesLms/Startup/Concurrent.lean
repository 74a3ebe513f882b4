import AranesLms.Startup.Transactions

/-!
# Concurrent startups

Any number of processes start against one database, each as `lifespan` does: a seeding transaction
and then, with the superuser bootstrap enabled, the transaction that ensures a superuser, each a
read step and a step that writes and commits.

The database goes through three stages only: as it was, seeded, and with the superuser
(`StartupStage`).  A process whose write would repeat what another process has done fails and
changes nothing, so from the first process on that completes the database is that of a single
startup (`startups_once`).
-/

namespace AranesLms

/-- What all processes have in common: the translation registries, the validated username of the
superuser, and the rule by which the database numbers a new user. -/
structure StartupEnv where
  small : SmallTranslates
  large : LargeTranslates
  username : String
  nextUserId : UserTable → ℕ

inductive StartupError where
  | seeding (e : CrudError)
  | superUser (e : SuperUserError)

/-- Where a process is: before its first transaction, between the read and the write of one of its
transactions, between the two, after the second, or stopped by an exception. -/
inductive StartupPhase where
  | starting
  | seeding (plan : SeedPlan)
  | seeded
  | creating (create : Bool)
  | completed (created : Bool)
  | failed (e : StartupError)

structure StartupState where
  db : Database
  phase : ℕ → StartupPhase

/-- A step of one process.  `pluginId` is the id that the database generates for a role without a
fixed one, and `passwordHash` what `hash_password` returns with the salt it draws. -/
structure StartupStep where
  process : ℕ
  pluginId : ℕ
  passwordHash : String

/-- No process has begun. -/
def StartupState.init (db : Database) : StartupState := ⟨db, fun _ => .starting⟩

def StartupState.enter (s : StartupState) (process : ℕ) (phase : StartupPhase) : StartupState :=
  { s with phase := Function.update s.phase process phase }

namespace StartupEnv

variable (env : StartupEnv)

/-- One step of `lifespan` in one process. -/
def step (s : StartupState) (a : StartupStep) : StartupState :=
  match s.phase a.process with
  | .starting =>
    match readSeed env.small env.large s.db with
    | .ok plan => s.enter a.process (.seeding plan)
    | .error e => s.enter a.process (.failed (.seeding e))
  | .seeding plan =>
    match writeSeed (fun _ => a.pluginId) plan s.db with
    | .ok db => { s with db }.enter a.process .seeded
    | .error e => s.enter a.process (.failed (.seeding e))
  | .seeded =>
    match readEnsureSuperUser s.db env.username with
    | .ok create => s.enter a.process (.creating create)
    | .error (.valueError _) => s.enter a.process (.completed false)
    | .error e => s.enter a.process (.failed (.superUser e))
  | .creating create =>
    match writeEnsureSuperUser s.db create (env.nextUserId s.db.users) env.username
      a.passwordHash with
    | .ok (created, db) => { s with db }.enter a.process (.completed created)
    | .error e => s.enter a.process (.failed (.superUser e))
  | .completed _ => s
  | .failed _ => s

/-- The seeding of a single process. -/
def seed (pluginId : ℕ) (db : Database) : Except CrudError Database :=
  seedingWith (fun _ => pluginId) env.small env.large db

/-- The startup of a single process, from its first read to its last commit. -/
def startup (pluginId : ℕ) (passwordHash : String) (db : Database) :
    Except StartupError Database :=
  match env.seed pluginId db with
  | .error e => .error (.seeding e)
  | .ok db₁ =>
    match ensureSuperUserFromEnvIfEnabled db₁ (env.nextUserId db₁.users) env.username
      passwordHash with
    | .error e => .error (.superUser e)
    | .ok (_, db₂) => .ok db₂

/-- A migrated database without drift, without a superuser and in which the username is free. -/
structure Ready (db : Database) : Prop where
  no_drift : ¬ HasDrift db.roles
  no_superuser : ∀ user ∈ db.users, user.roleId ≠ superadminRoleId
  username_free : ∀ user ∈ db.users, user.username ≠ env.username

/-! ## A single startup -/

variable {env} {db₀ db : Database}

theorem Ready.exists_plan (h : env.Ready db₀) :
    ∃ plan, readSeed env.small env.large db₀ = .ok plan := by
  have hagree : FixedIdsAgree db₀.roles := by
    have := h.no_drift
    rwa [hasDrift_iff, not_not] at this
  have hsub : ∀ role ∈ db₀.roles.rows.filter isDefaultCandidate, role ∈ db₀.roles :=
    fun role hrole => (List.mem_filter.1 hrole).1
  obtain ⟨missing, hmissing⟩ := missingDefaultRoles_exists_ok fun d hd =>
    resolveDefaultRoleMatch_exists_ok hsub (fixedIdsAgree_candidates.1 hagree d hd)
  exact ⟨_, readSeed_ok.2 ⟨missing, hmissing, rfl⟩⟩

/-- A seeded database has the role of the superuser. -/
theorem exists_superadminRole (h : SeedDone env.small env.large db) :
    ∃ role ∈ db.roles, role.id = superadminRoleId := by
  obtain ⟨role, hrole, hm, -⟩ := h.roles
    ⟨some superadminRoleId, superadminRoleName, "role.super_admin.title"⟩ (by decide)
  exact ⟨role, hrole, hm.2 _ rfl⟩

/-- After the seeding of a ready database a superuser is to be created. -/
theorem Ready.readEnsureSuperUser_eq (h : env.Ready db₀) {pluginId : ℕ}
    (hseed : env.seed pluginId db₀ = .ok db) : readEnsureSuperUser db env.username = .ok true := by
  refine readEnsureSuperUser_ok.2 ⟨exists_superadminRole (seedDone_of_seedingWith hseed),
    Or.inr ?_⟩
  rw [users_eq_of_seedingWith hseed]
  exact ⟨h.no_superuser, h.username_free, rfl⟩

theorem Ready.startup_ok (h : env.Ready db₀) {pluginId : ℕ} {passwordHash : String} :
    env.startup pluginId passwordHash db₀ = .ok db ↔
      ∃ db₁, env.seed pluginId db₀ = .ok db₁ ∧ ∃ users, db₁.users.insert (newSuperUser
        (env.nextUserId db₁.users) env.username passwordHash) = .ok users ∧
        db = { db₁ with users } := by
  unfold startup
  cases hseed : env.seed pluginId db₀ with
  | error e => exact ⟨nofun, fun ⟨_, h, _⟩ => nomatch h⟩
  | ok db₁ =>
    have hread := h.readEnsureSuperUser_eq hseed
    have hensure : ∀ created db₂, ensureSuperUserFromEnvIfEnabled db₁ (env.nextUserId db₁.users)
        env.username passwordHash = .ok (created, db₂) ↔ created = true ∧
          ∃ users, db₁.users.insert (newSuperUser (env.nextUserId db₁.users) env.username
            passwordHash) = .ok users ∧ db₂ = { db₁ with users } := by
      intro created db₂
      simp [ensureSuperUserFromEnvIfEnabled_ok, hread, writeEnsureSuperUser_ok]
    simp only [Except.ok.injEq, exists_eq_left']
    constructor
    · intro hok
      split at hok
      · cases hok
      · rename_i created db₂ hrun
        obtain rfl : db₂ = db := Except.ok.inj hok
        exact ((hensure _ _).1 hrun).2
    · intro hins
      rw [(hensure true db).2 ⟨rfl, hins⟩]

/-- Alone, a process runs through its four steps and leaves what `startup` computes. -/
theorem runFrom_startup {pluginId : ℕ} {passwordHash : String}
    (h : env.startup pluginId passwordHash db₀ = .ok db) (process : ℕ) :
    (Transition.runFrom env.step (.init db₀)
      (List.replicate 4 ⟨process, pluginId, passwordHash⟩)).db = db := by
  unfold startup at h
  cases hseed : env.seed pluginId db₀ with
  | error e =>
    rw [hseed] at h
    cases h
  | ok db₁ =>
    obtain ⟨plan, hplan, hwrite⟩ := Except.bind_eq_ok.1 hseed
    rw [hseed] at h
    dsimp only at h
    split at h
    · cases h
    rename_i created db₂ hensure
    obtain rfl : db₂ = db := Except.ok.inj h
    simp only [List.replicate_succ, List.replicate_zero, Transition.runFrom_cons,
      Transition.runFrom_nil]
    rcases ensureSuperUserFromEnvIfEnabled_ok.1 hensure with
      ⟨⟨detail, hread⟩, -, rfl⟩ | ⟨create, hread, hcreate⟩
    · simp [step, StartupState.init, StartupState.enter, hplan, hwrite, hread]
    · simp [step, StartupState.init, StartupState.enter, hplan, hwrite, hread, hcreate]

/-! ## The stages of the database -/

end StartupEnv

inductive StartupStage where
  | unseeded
  | seeded
  | complete

namespace StartupStage

/-- The database of the stage, `db₀` being the one before all startups. -/
def Reached (env : StartupEnv) (db₀ db : Database) : StartupStage → Prop
  | unseeded => db = db₀
  | seeded => ∃ pluginId, env.seed pluginId db₀ = .ok db
  | complete => ∃ pluginId passwordHash, env.startup pluginId passwordHash db₀ = .ok db

/-- The phases a process can be in at the stage; `plan` is the one made from the database as it
was. -/
def Allows (plan : SeedPlan) : StartupStage → StartupPhase → Prop
  | _, .starting => True
  | _, .failed _ => True
  | unseeded, .seeding plan' => plan' = plan
  | seeded, .seeding plan' | complete, .seeding plan' => plan' = plan ∨ plan' = .empty
  | unseeded, .seeded => False
  | seeded, .seeded | complete, .seeded => True
  | unseeded, .creating _ => False
  | seeded, .creating create => create = true
  | complete, .creating _ => True
  | unseeded, .completed _ | seeded, .completed _ => False
  | complete, .completed _ => True

variable {plan : SeedPlan} {phase : StartupPhase}

theorem allows_seeded (h : unseeded.Allows plan phase) : seeded.Allows plan phase := by
  cases phase with
  | starting => trivial
  | failed e => trivial
  | seeding plan' => exact Or.inl h
  | seeded => cases h
  | creating create => cases h
  | completed created => cases h

theorem allows_complete (h : seeded.Allows plan phase) : complete.Allows plan phase := by
  cases phase with
  | seeding plan' => exact h
  | completed created => cases h
  | _ => trivial

end StartupStage

/-- The invariant: the database is at one of the stages and every process is where it allows. -/
def StartupInv (env : StartupEnv) (db₀ : Database) (plan : SeedPlan) (s : StartupState) : Prop :=
  ∃ stage : StartupStage, stage.Reached env db₀ s.db ∧ ∀ p, stage.Allows plan (s.phase p)

namespace StartupEnv

variable {env : StartupEnv} {db₀ : Database} {plan : SeedPlan} {s : StartupState}
  {a : StartupStep}

/-- A process that enters an allowed phase, the stage being at least what it was. -/
theorem startupInv_enter {db : Database} {process : ℕ} {phase : StartupPhase} (stage : StartupStage)
    (hdb : stage.Reached env db₀ db) (hother : ∀ p, stage.Allows plan (s.phase p))
    (hphase : stage.Allows plan phase) :
    StartupInv env db₀ plan (StartupState.enter { s with db } process phase) := by
  refine ⟨stage, hdb, fun p => ?_⟩
  show stage.Allows plan (Function.update s.phase process phase p)
  by_cases hp : p = process
  · rw [hp, Function.update_self]
    exact hphase
  · rw [Function.update_of_ne hp]
    exact hother p

/-- From the second stage on the seeded parts of the database are those of the first seeding. -/
theorem Ready.seeded_of_reached (h : env.Ready db₀) {stage : StartupStage} {db : Database}
    (hdb : stage.Reached env db₀ db) (hstage : stage ≠ .unseeded) :
    ∃ pluginId seeded, env.seed pluginId db₀ = .ok seeded ∧ db.roles = seeded.roles ∧
      db.translateSmall = seeded.translateSmall ∧ db.translateLarge = seeded.translateLarge := by
  cases stage with
  | unseeded => exact absurd rfl hstage
  | seeded =>
    obtain ⟨pluginId, hseed⟩ := hdb
    exact ⟨pluginId, db, hseed, rfl, rfl, rfl⟩
  | complete =>
    obtain ⟨pluginId, passwordHash, hdb⟩ := hdb
    obtain ⟨db₁, hseed, users, -, rfl⟩ := h.startup_ok.1 hdb
    exact ⟨pluginId, db₁, hseed, rfl, rfl, rfl⟩

theorem Ready.seedDone_of_reached (h : env.Ready db₀) {stage : StartupStage} {db : Database}
    (hdb : stage.Reached env db₀ db) (hstage : stage ≠ .unseeded) :
    SeedDone env.small env.large db := by
  obtain ⟨pluginId, seeded, hseed, hroles, hsmall, hlarge⟩ := h.seeded_of_reached hdb hstage
  have hdone : SeedDone env.small env.large seeded := seedDone_of_seedingWith hseed
  exact ⟨hroles ▸ hdone.roles, hsmall ▸ hdone.small, hlarge ▸ hdone.large⟩

/-- From the second stage on no seeding changes the database. -/
theorem Ready.writeSeed_eq (h : env.Ready db₀) (hplan : readSeed env.small env.large db₀ = .ok plan)
    {stage : StartupStage} {db db' : Database} (hdb : stage.Reached env db₀ db)
    (hstage : stage ≠ .unseeded) {plan' : SeedPlan} (hplan' : plan' = plan ∨ plan' = .empty)
    {gen : RoleTable → ℕ} (hwrite : writeSeed gen plan' db = .ok db') : db' = db := by
  obtain ⟨pluginId, seeded, hseed, hroles, hsmall, hlarge⟩ := h.seeded_of_reached hdb hstage
  rcases hplan' with rfl | rfl
  · exact writeSeed_of_seeded hplan hseed hroles hsmall hlarge hwrite
  · rw [writeSeed_empty] at hwrite
    exact (Except.ok.inj hwrite).symm

/-- At the last stage the superuser exists. -/
theorem Ready.exists_superuser (h : env.Ready db₀) {db : Database}
    (hdb : StartupStage.complete.Reached env db₀ db) :
    ∃ user ∈ db.users, user.roleId = superadminRoleId ∧ user.username = env.username ∧
      ∀ user' ∈ db.users, user'.roleId = superadminRoleId → user' = user := by
  obtain ⟨pluginId, passwordHash, hdb⟩ := hdb
  obtain ⟨db₁, hseed, users, hins, rfl⟩ := h.startup_ok.1 hdb
  refine ⟨_, (Table.mem_insert hins).2 (Or.inr rfl), rfl, rfl, fun user' huser' hrole => ?_⟩
  rcases (Table.mem_insert hins).1 huser' with hold | rfl
  · rw [users_eq_of_seedingWith hseed] at hold
    exact absurd hrole (h.no_superuser user' hold)
  · rfl

/-! ## One step -/

theorem Ready.step_starting (h : env.Ready db₀)
    (hplan : readSeed env.small env.large db₀ = .ok plan) (hs : StartupInv env db₀ plan s)
    (hphase : s.phase a.process = .starting) : StartupInv env db₀ plan (env.step s a) := by
  obtain ⟨stage, hdb, hall⟩ := hs
  rw [step, hphase]
  dsimp only
  cases stage with
  | unseeded =>
    obtain rfl : s.db = db₀ := hdb
    rw [hplan]
    exact startupInv_enter .unseeded rfl hall rfl
  | seeded =>
    rw [readSeed_of_done (h.seedDone_of_reached hdb nofun)]
    exact startupInv_enter .seeded hdb hall (Or.inr rfl)
  | complete =>
    rw [readSeed_of_done (h.seedDone_of_reached hdb nofun)]
    exact startupInv_enter .complete hdb hall (Or.inr rfl)

theorem Ready.step_seeding (h : env.Ready db₀)
    (hplan : readSeed env.small env.large db₀ = .ok plan) (hs : StartupInv env db₀ plan s)
    {plan' : SeedPlan} (hphase : s.phase a.process = .seeding plan') :
    StartupInv env db₀ plan (env.step s a) := by
  obtain ⟨stage, hdb, hall⟩ := hs
  have hallowed := hall a.process
  rw [hphase] at hallowed
  rw [step, hphase]
  dsimp only
  cases hwrite : writeSeed (fun _ => a.pluginId) plan' s.db with
  | error e =>
    cases stage <;> exact startupInv_enter _ hdb hall trivial
  | ok db =>
    cases stage with
    | unseeded =>
      -- the first commit of all processes
      obtain rfl : s.db = db₀ := hdb
      obtain rfl : plan' = plan := hallowed
      have hseed : env.seed a.pluginId s.db = .ok db :=
        Except.bind_eq_ok.2 ⟨plan', hplan, hwrite⟩
      exact startupInv_enter .seeded ⟨a.pluginId, hseed⟩
        (fun p => StartupStage.allows_seeded (hall p)) trivial
    | seeded =>
      obtain rfl := h.writeSeed_eq hplan hdb nofun hallowed hwrite
      exact startupInv_enter .seeded hdb hall trivial
    | complete =>
      obtain rfl := h.writeSeed_eq hplan hdb nofun hallowed hwrite
      exact startupInv_enter .complete hdb hall trivial

theorem Ready.step_seeded (h : env.Ready db₀) (hs : StartupInv env db₀ plan s)
    (hphase : s.phase a.process = .seeded) : StartupInv env db₀ plan (env.step s a) := by
  obtain ⟨stage, hdb, hall⟩ := hs
  have hallowed := hall a.process
  rw [hphase] at hallowed
  rw [step, hphase]
  dsimp only
  cases stage with
  | unseeded => cases hallowed
  | seeded =>
    obtain ⟨pluginId, hseed⟩ := hdb
    rw [h.readEnsureSuperUser_eq hseed]
    exact startupInv_enter .seeded ⟨pluginId, hseed⟩ hall rfl
  | complete =>
    obtain ⟨user, huser, hrole, -⟩ := h.exists_superuser hdb
    rw [readEnsureSuperUser_ok.2 ⟨exists_superadminRole (h.seedDone_of_reached hdb nofun),
      Or.inl ⟨⟨user, huser, hrole⟩, rfl⟩⟩]
    exact startupInv_enter .complete hdb hall trivial

theorem Ready.step_creating (h : env.Ready db₀) (hs : StartupInv env db₀ plan s) {create : Bool}
    (hphase : s.phase a.process = .creating create) : StartupInv env db₀ plan (env.step s a) := by
  obtain ⟨stage, hdb, hall⟩ := hs
  have hallowed := hall a.process
  rw [hphase] at hallowed
  rw [step, hphase]
  dsimp only
  cases hwrite : writeEnsureSuperUser s.db create (env.nextUserId s.db.users) env.username
      a.passwordHash with
  | error e => cases stage <;> exact startupInv_enter _ hdb hall trivial
  | ok result =>
    obtain ⟨created, db⟩ := result
    obtain ⟨rfl, hcases⟩ := writeEnsureSuperUser_ok.1 hwrite
    cases stage with
    | unseeded => cases hallowed
    | seeded =>
      -- the first superuser
      obtain ⟨pluginId, hseed⟩ := hdb
      rcases hcases with ⟨hno, -⟩ | ⟨-, users, hins, rfl⟩
      · rw [hno] at hallowed
        cases hallowed
      · have hstartup : env.startup pluginId a.passwordHash db₀ = .ok { s.db with users } :=
          h.startup_ok.2 ⟨s.db, hseed, users, hins, rfl⟩
        exact startupInv_enter .complete ⟨pluginId, a.passwordHash, hstartup⟩
          (fun p => StartupStage.allows_complete (hall p)) trivial
    | complete =>
      rcases hcases with ⟨-, rfl⟩ | ⟨-, users, hins, rfl⟩
      · exact startupInv_enter .complete hdb hall trivial
      · -- the name is taken
        obtain ⟨user, huser, -, hname, -⟩ := h.exists_superuser hdb
        exact absurd hname (Table.insert_fresh hins huser).2

theorem Ready.step_inv (h : env.Ready db₀) (hplan : readSeed env.small env.large db₀ = .ok plan)
    (s : StartupState) (a : StartupStep) (hs : StartupInv env db₀ plan s) :
    StartupInv env db₀ plan (env.step s a) := by
  cases hphase : s.phase a.process with
  | starting => exact h.step_starting hplan hs hphase
  | seeding plan' => exact h.step_seeding hplan hs hphase
  | seeded => exact h.step_seeded hs hphase
  | creating create => exact h.step_creating hs hphase
  | completed created =>
    rw [step, hphase]
    exact hs
  | failed e =>
    rw [step, hphase]
    exact hs

/-! ## Every interleaving -/

variable (env)

/-- Each default role, each registered translation and the superuser is there exactly once. -/
structure Once (db : Database) : Prop where
  role : ∀ d ∈ defaultRoles, ∃! role, role ∈ db.roles ∧ role.name = d.name
  role_matches : ∀ d ∈ defaultRoles, ∀ role ∈ db.roles, role.name = d.name → d.Matches role
  small : ∀ key ∈ env.small, key ∈ db.translateSmall
  large : ∀ key ∈ env.large, key ∈ db.translateLarge
  superuser : ∃! user, user ∈ db.users ∧ user.roleId = superadminRoleId
  superuser_name : ∃ user ∈ db.users, user.roleId = superadminRoleId ∧ user.username = env.username

/-- The database is as it was, or what the seeding of one process leaves, or what the startup of
one process leaves; the last as soon as a process has completed both of its transactions. -/
structure AsIfOne (db₀ : Database) (s : StartupState) : Prop where
  stages : s.db = db₀ ∨ (∃ pluginId, env.seed pluginId db₀ = .ok s.db) ∨
    ∃ pluginId passwordHash, env.startup pluginId passwordHash db₀ = .ok s.db
  completed : ∀ p created, s.phase p = .completed created →
    (∃ pluginId passwordHash, env.startup pluginId passwordHash db₀ = .ok s.db) ∧ env.Once s.db

/-- A transaction that fails in this step leaves the database as it found it. -/
def FailsCleanly (s : StartupState) (a : StartupStep) : Prop :=
  ∀ e, (∀ e', s.phase a.process ≠ .failed e') → (env.step s a).phase a.process = .failed e →
    (env.step s a).db = s.db

variable {env}

theorem failsCleanly (s : StartupState) (a : StartupStep) : env.FailsCleanly s a := by
  intro e hne hfail
  have henter : ∀ (db : Database) (phase : StartupPhase),
      (StartupState.enter { s with db } a.process phase).phase a.process = phase :=
    fun _ _ => Function.update_self ..
  unfold step at hfail ⊢
  split at hfail
  · split <;> rfl
  · split at hfail
    · rw [henter] at hfail
      cases hfail
    · rfl
  · split <;> rfl
  · split at hfail
    · rw [henter] at hfail
      cases hfail
    · rfl
  · rfl
  · rfl

theorem Ready.once_of_complete (h : env.Ready db₀) {db : Database}
    (hdb : StartupStage.complete.Reached env db₀ db) : env.Once db := by
  have hdone := h.seedDone_of_reached hdb nofun
  obtain ⟨user, huser, hrole, hname, honly⟩ := h.exists_superuser hdb
  refine ⟨fun d hd => ?_, fun d hd role hrole hname => ?_, hdone.small, hdone.large,
    ⟨user, ⟨huser, hrole⟩, fun user' h' => honly user' h'.1 h'.2⟩, user, huser, hrole, hname⟩
  · obtain ⟨role, hrole, hm, -⟩ := hdone.roles d hd
    exact ⟨role, ⟨hrole, hm.1⟩, fun role' h' => Table.eq_of_uk h'.1 hrole (h'.2.trans hm.1.symm)⟩
  · obtain ⟨role', hrole', hm, -⟩ := hdone.roles d hd
    rwa [Table.eq_of_uk hrole hrole' (hname.trans hm.1.symm)]

theorem Ready.asIfOne (h : env.Ready db₀) (hs : StartupInv env db₀ plan s) :
    env.AsIfOne db₀ s := by
  obtain ⟨stage, hdb, hall⟩ := hs
  cases stage with
  | unseeded =>
    refine ⟨Or.inl hdb, fun p created hp => ?_⟩
    have hallowed := hall p
    rw [hp] at hallowed
    cases hallowed
  | seeded =>
    refine ⟨Or.inr (Or.inl hdb), fun p created hp => ?_⟩
    have hallowed := hall p
    rw [hp] at hallowed
    cases hallowed
  | complete => exact ⟨Or.inr (Or.inr hdb), fun _ _ _ => ⟨hdb, h.once_of_complete hdb⟩⟩

/-- However the steps of any number of startups interleave, no state is half seeded, a transaction
that fails changes nothing, and once a process has completed, the database is that of a single
startup, the id of the PLUGIN role and the salt of the password being those one process drew. -/
theorem startups_once (env : StartupEnv) (db₀ : Database) (h : env.Ready db₀)
    (steps : List StartupStep) :
    Transition.Always env.step (env.AsIfOne db₀) (.init db₀) steps ∧
      Transition.Along env.step env.FailsCleanly (.init db₀) steps := by
  obtain ⟨plan, hplan⟩ := h.exists_plan
  have hinit : StartupInv env db₀ plan (.init db₀) := ⟨.unseeded, rfl, fun _ => trivial⟩
  have halways : Transition.Always env.step (StartupInv env db₀ plan) (.init db₀) steps :=
    .of_step (h.step_inv hplan) hinit steps
  refine ⟨halways.mono fun _ hs => h.asIfOne hs, ?_⟩
  exact .of_invariant (J := fun _ => True) (fun _ _ _ => trivial) (fun s a _ => failsCleanly s a)
    trivial steps

theorem startups_once_fresh :
    (StartupEnv.mk ∅ ∅ "root" Table.nextId).Ready Database.empty ∧
      ∀ steps : List StartupStep,
        Transition.Always (StartupEnv.mk ∅ ∅ "root" Table.nextId).step
            ((StartupEnv.mk ∅ ∅ "root" Table.nextId).AsIfOne Database.empty)
            (.init Database.empty) steps ∧
          Transition.Along (StartupEnv.mk ∅ ∅ "root" Table.nextId).step
            (StartupEnv.mk ∅ ∅ "root" Table.nextId).FailsCleanly (.init Database.empty) steps := by
  have hready : (StartupEnv.mk ∅ ∅ "root" Table.nextId).Ready Database.empty := by
    refine ⟨?_, nofun, nofun⟩
    rintro ⟨d, -, i, -, role, hrole, -⟩
    cases hrole
  exact ⟨hready, startups_once _ Database.empty hready⟩

end StartupEnv

end AranesLms
