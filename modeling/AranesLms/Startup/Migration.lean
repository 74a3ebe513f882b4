import AranesLms.Startup.Concurrent

/-!
# Startups that migrate the database

`lifespan` with the recovery from a missing schema: when a table is missing, a process applies the
migrations (`run_startup_alembic_upgrade`) and starts once more.  Any number of processes do this on
one database, and any of them can be stopped by an exception.  The upgrade is Alembic's: it reads
the version, runs the statements of the migrations after it, and commits them as the database does
(`commits`): one by one where DDL is not transactional, as on SQLite, or all at once.

`always_migrated`: the rows are those of a single startup, every statement of the migrations runs at
most once and in order, and a process that completes has the tables that it uses.  The automatic
migration is not the one of `scripts/container_prestart.py`: it leaves a database without
`plugin_mappings` as it is (`lifespan_eq_prestart_iff`).
-/

namespace AranesLms

/-! ## The migrations -/

/-- A statement of a migration, or the entry of its revision in the version table. -/
inductive SchemaChange where
  | createTable (name : String)
  | createIndex (name : String)
  | setVersion (revision : String)
  deriving DecidableEq

/-- A module of `migrations/versions`. -/
structure Migration where
  revision : String
  upgrade : List SchemaChange

def initialSchema : Migration where
  revision := "e8484413100f"
  upgrade := [.createTable "auth_revoked_token_jtis",
    .createIndex "ix_auth_revoked_token_jtis_expires_at", .createTable "roles",
    .createTable "translate_large", .createIndex "ix_translate_large_key1",
    .createIndex "ix_translate_large_key1_key2", .createTable "translate_small",
    .createTable "users"]

def addPluginMappings : Migration where
  revision := "6f0f7d3b7f6d"
  upgrade := [.createTable "plugin_mappings"]

def migrations : List Migration := [initialSchema, addPluginMappings]

/-- What an upgrade runs for the migrations. -/
def changes (migrations : List Migration) : List SchemaChange :=
  migrations.flatMap fun m => m.upgrade ++ [.setVersion m.revision]

def allChanges : List SchemaChange := changes migrations

/-- The migrations after the version of the schema. -/
def pending (schema : List SchemaChange) : List Migration :=
  migrations.filter fun m => SchemaChange.setVersion m.revision ∉ schema

/-- After any number of statements, the pending ones are the rest, or start earlier where the
version has not been set yet. -/
theorem exists_pending (m : ℕ) :
    ∃ k ≤ m, changes (pending (allChanges.take m)) = allChanges.drop k := by
  have hsmall : ∀ m ≤ allChanges.length,
      ∃ k ≤ m, changes (pending (allChanges.take m)) = allChanges.drop k := by decide
  rcases le_total m allChanges.length with h | h
  · exact hsmall m h
  · obtain ⟨k, hk, heq⟩ := hsmall _ le_rfl
    rw [List.take_of_length_le le_rfl] at heq
    exact ⟨k, hk.trans h, by rw [List.take_of_length_le h, heq]⟩

/-- Statements that come next, and have not all been run, are run in their place. -/
theorem take_append_of_fresh {α : Type*} {l c rest : List α} {k m : ℕ} (hkm : k ≤ m)
    (hdrop : l.drop k = c ++ rest) (hfresh : ∀ x ∈ c, x ∉ l.take m) :
    ∃ m', m ≤ m' ∧ l.take m ++ c = l.take m' ∧ ∃ k' ≤ m', l.drop k' = rest := by
  have hrest : l.drop (k + c.length) = rest := by
    rw [← List.drop_drop, hdrop, List.drop_left]
  rcases Nat.eq_or_lt_of_le hkm with rfl | hlt
  · refine ⟨k + c.length, Nat.le_add_right _ _, ?_, k + c.length, le_rfl, hrest⟩
    rw [List.take_add, hdrop, List.take_left]
  · -- The first of them has been run.
    cases c with
    | nil => exact ⟨m, le_rfl, List.append_nil _, k, hkm, hdrop⟩
    | cons x c =>
      have hmem : x ∈ (l.take m).drop k := by
        rw [List.drop_take, hdrop]
        obtain ⟨d, hd⟩ := Nat.exists_eq_succ_of_ne_zero (Nat.sub_ne_zero_of_lt hlt)
        rw [hd]
        exact List.mem_cons_self
      exact absurd (List.mem_of_mem_drop hmem) (hfresh x List.mem_cons_self)

/-! ## The processes -/

/-- Which attempt of `lifespan`: before or after the upgrade, or the only one when
`STARTUP_DB_BOOTSTRAP_ENABLED` is off. -/
inductive Attempt where
  | first
  | afterUpgrade
  | withoutBootstrap
  deriving DecidableEq

/-- Where a process is: in one of its attempts, in `run_startup_alembic_upgrade` before it has read
the version, with the commits that are left, or stopped by an exception. -/
inductive LifespanPhase where
  | attempting (attempt : Attempt) (phase : StartupPhase)
  | upgrading
  | applying (commits : List (List SchemaChange))
  | stopped

/-- The statements that have been run, the rows, and where the processes are. -/
structure LifespanState where
  schema : List SchemaChange
  db : Database
  phase : ℕ → LifespanPhase

/-- A step of a process, or an exception that it runs into, with its text if it is a
`DBAPIError`. -/
inductive LifespanStep where
  | run (step : StartupStep)
  | raise (process : ℕ) (message : Option String)

def missingSchemaMarkers : List String :=
  ["no such table", "does not exist", "doesn't exist", "base table or view not found",
    "undefined table"]

/-- `is_missing_schema_error`, on `str(exc)`; `lower` is `str.lower`. -/
def isMissingSchemaError (lower : String → String) (message : String) : Bool :=
  missingSchemaMarkers.any fun marker => marker.toList <:+: (lower message).toList

/-- What the processes have in common: `STARTUP_DB_BOOTSTRAP_ENABLED`, the texts of the database
driver for the errors that are `DBAPIError`s and for a table that is not there, whether the database
is an in-memory one, and how it commits the statements of an upgrade, which it does in their
order. -/
structure LifespanEnv extends StartupEnv where
  bootstrapEnabled : Bool
  lower : String → String
  message : StartupError → Option String
  noSuchTable : String
  noSuchTable_missing : isMissingSchemaError lower noSuchTable
  inMemory : Bool
  commits : List SchemaChange → List (List SchemaChange)
  flatten_commits : ∀ statements, (commits statements).flatten = statements

/-- The tables of `run_bootstrap_seeding` and of `ensure_initial_super_user`. -/
def seedingTables : List String := ["roles", "translate_small", "translate_large"]

def superUserTables : List String := ["roles", "users"]

/-- The tables of the transaction that a process is at. -/
def StartupPhase.requiredTables : StartupPhase → List String
  | .starting | .seeding _ => seedingTables
  | .seeded | .creating _ => superUserTables
  | .completed _ | .failed _ => []

def HasTables (schema : List SchemaChange) (names : List String) : Prop :=
  ∀ name ∈ names, SchemaChange.createTable name ∈ schema

instance (schema : List SchemaChange) (names : List String) : Decidable (HasTables schema names) :=
  inferInstanceAs (Decidable (∀ name ∈ names, _))

theorem HasTables.mono {schema schema' : List SchemaChange} {names : List String}
    (h : HasTables schema names) (hsub : ∀ change ∈ schema, change ∈ schema') :
    HasTables schema' names := fun name hname => hsub _ (h name hname)

namespace LifespanPhase

/-- The phase of the startup that the process is at; a startup after the migration is a new one. -/
def startup : LifespanPhase → StartupPhase
  | attempting _ phase => phase
  | _ => .starting

end LifespanPhase

namespace LifespanState

variable (s : LifespanState)

def enter (process : ℕ) (phase : LifespanPhase) : LifespanState :=
  { s with phase := Function.update s.phase process phase }

/-- The startups of the processes. -/
def startups : StartupState := ⟨s.db, fun p => (s.phase p).startup⟩

end LifespanState

namespace LifespanEnv

variable (env : LifespanEnv)

/-- No process has begun. -/
def init (schema : List SchemaChange) (db : Database) : LifespanState where
  schema
  db
  phase _ := if env.bootstrapEnabled then .attempting .first .starting
    else .attempting .withoutBootstrap .seeded

/-- After an exception, with its text if it is a `DBAPIError`: the first attempt is followed by the
migration if a table is missing. -/
def recover (attempt : Attempt) (message : Option String) : LifespanPhase :=
  if attempt = .first ∧ message.any (isMissingSchemaError env.lower) then .upgrading else .stopped

/-- The phase after a step of an attempt. -/
def afterStep (attempt : Attempt) : StartupPhase → LifespanPhase
  | .failed e => env.recover attempt (env.message e)
  | phase => .attempting attempt phase

/-- One step of `lifespan` in one process, up to its `yield`. -/
def step (s : LifespanState) : LifespanStep → LifespanState
  | .run a =>
    match s.phase a.process with
    | .attempting attempt phase =>
      if HasTables s.schema phase.requiredTables then
        let next := env.toStartupEnv.step s.startups a
        { s with db := next.db }.enter a.process (env.afterStep attempt (next.phase a.process))
      else s.enter a.process (env.recover attempt (some env.noSuchTable))
    | .upgrading =>
      if env.inMemory then s.enter a.process .stopped
      else s.enter a.process (.applying (env.commits (changes (pending s.schema))))
    | .applying [] => s.enter a.process (.attempting .afterUpgrade .starting)
    | .applying (commit :: commits) =>
      -- A table or an index that exists is not created again.
      if ∀ change ∈ commit, change ∉ s.schema then
        { s with schema := s.schema ++ commit }.enter a.process (.applying commits)
      else s.enter a.process .stopped
    | .stopped => s
  | .raise process message =>
    match s.phase process with
    | .attempting _ (.completed _) => s.enter process .stopped
    | .attempting attempt _ => s.enter process (env.recover attempt message)
    | _ => s.enter process .stopped

/-- `_run` of `container_prestart.py`, without an exception: the migrations are applied, and then
the startup runs. -/
def prestart (pluginId : ℕ) (passwordHash : String) (schema : List SchemaChange) (db : Database) :
    Option (List SchemaChange × Database) :=
  if env.inMemory ∨ ∃ change ∈ changes (pending schema), change ∈ schema then none
  else
    (env.startup pluginId passwordHash db).toOption.map fun db =>
      (schema ++ changes (pending schema), db)

/-- The rows are those of a single startup, if any; the schema is what the first `n` statements of
the migrations have made, or more of them; and a process that has completed has its tables. -/
structure Migrated (n : ℕ) (db : Database) (s : LifespanState) : Prop where
  startups : env.AsIfOne db s.startups
  schema : ∃ m, n ≤ m ∧ s.schema = allChanges.take m
  completed : ∀ p attempt created, s.phase p = .attempting attempt (.completed created) →
    HasTables s.schema (seedingTables ++ superUserTables)

/-! ## The startups of the processes -/

section

variable {env} {s : LifespanState} {a : StartupStep} {db₀ : Database} {plan : SeedPlan}

theorem startups_enter (process : ℕ) (phase : LifespanPhase) :
    (s.enter process phase).startups = s.startups.enter process phase.startup := by
  have hphase : (fun p => (Function.update s.phase process phase p).startup) =
      Function.update (fun p => (s.phase p).startup) process phase.startup := by
    funext p
    rcases eq_or_ne p process with rfl | hne
    · rw [Function.update_self, Function.update_self]
    · rw [Function.update_of_ne hne, Function.update_of_ne hne]
  exact congrArg (StartupState.mk s.db) hphase

theorem allows_starting (stage : StartupStage) : stage.Allows plan .starting := by
  cases stage <;> trivial

/-- A step of a startup is one of its process. -/
theorem step_phase_of_ne (env : StartupEnv) (s : StartupState) {p : ℕ} (hne : p ≠ a.process) :
    (env.step s a).phase p = s.phase p := by
  have henter : ∀ (db : Database) phase,
      (StartupState.enter { s with db } a.process phase).phase p = s.phase p :=
    fun _ _ => Function.update_of_ne hne _ _
  unfold StartupEnv.step
  split
  · split
    · exact henter s.db _
    · exact henter s.db _
  · split
    · exact henter _ _
    · exact henter s.db _
  · split
    · exact henter s.db _
    · exact henter s.db _
    · exact henter s.db _
  · split
    · exact henter _ _
    · exact henter s.db _
  · rfl
  · rfl

/-- The phase of a process is replaced by one that is allowed where it was. -/
theorem startupInv_replace {s : StartupState} (h : StartupInv env.toStartupEnv db₀ plan s)
    {process : ℕ} {phase : StartupPhase}
    (hphase : ∀ stage : StartupStage, stage.Allows plan (s.phase process) →
      stage.Allows plan phase) :
    StartupInv env.toStartupEnv db₀ plan (s.enter process phase) := by
  obtain ⟨stage, hdb, hall⟩ := h
  exact StartupEnv.startupInv_enter stage hdb hall (hphase stage (hall process))

theorem startup_recover (attempt : Attempt) (message : Option String) :
    (env.recover attempt message).startup = .starting := by
  unfold recover
  split_ifs <;> rfl

/-- What an attempt goes on with is allowed. -/
theorem allows_afterStep {stage : StartupStage} {attempt : Attempt} {phase : StartupPhase}
    (h : stage.Allows plan phase) : stage.Allows plan (env.afterStep attempt phase).startup := by
  cases phase with
  | failed e =>
    rw [afterStep, startup_recover]
    exact allows_starting stage
  | _ => exact h

/-- The tables of the transactions that a startup has got to. -/
def usedTables : StartupPhase → List String
  | .starting | .failed _ => []
  | .seeding _ | .seeded => seedingTables
  | .creating _ | .completed _ => seedingTables ++ superUserTables

/-- A step of a startup gets to the tables of its transaction. -/
theorem hasTables_step {schema : List SchemaChange} (t : StartupState)
    (hused : HasTables schema (usedTables (t.phase a.process)))
    (hrequired : HasTables schema (t.phase a.process).requiredTables) :
    HasTables schema (usedTables ((env.toStartupEnv.step t a).phase a.process)) := by
  have henter : ∀ (db : Database) phase,
      (StartupState.enter { t with db } a.process phase).phase a.process = phase :=
    fun _ _ => Function.update_self ..
  have hfailed : ∀ e, HasTables schema (usedTables (.failed e)) := fun e name hname => by
    cases hname
  unfold StartupEnv.step
  cases hphase : t.phase a.process with
  | starting =>
    rw [hphase] at hrequired
    dsimp only
    split
    · exact (henter t.db _).symm ▸ hrequired
    · exact (henter t.db _).symm ▸ hfailed _
  | seeding plan =>
    rw [hphase] at hrequired
    dsimp only
    split
    · exact (henter _ _).symm ▸ hrequired
    · exact (henter t.db _).symm ▸ hfailed _
  | seeded =>
    rw [hphase] at hused hrequired
    have hboth : HasTables schema (seedingTables ++ superUserTables) :=
      fun name hname => (List.mem_append.1 hname).elim (hused name) (hrequired name)
    dsimp only
    split
    · exact (henter t.db _).symm ▸ hboth
    · exact (henter t.db _).symm ▸ hboth
    · exact (henter t.db _).symm ▸ hfailed _
  | creating create =>
    rw [hphase] at hused
    dsimp only
    split
    · exact (henter _ _).symm ▸ hused
    · exact (henter t.db _).symm ▸ hfailed _
  | completed created =>
    rw [hphase] at hused
    dsimp only
    rw [hphase]
    exact hused
  | failed e =>
    dsimp only
    rw [hphase]
    exact hfailed e

/-! ## One step -/

/-- The first `m` statements have been run, and the processes in an upgrade go on from one of
them. -/
structure UpTo (m : ℕ) (s : LifespanState) : Prop where
  schema : s.schema = allChanges.take m
  applying : ∀ p commits, s.phase p = .applying commits →
    ∃ k ≤ m, allChanges.drop k = commits.flatten

/-- `Migrated`, with the invariant of the startups and of the upgrades. -/
structure Inv (env : LifespanEnv) (n : ℕ) (db₀ : Database) (plan : SeedPlan) (s : LifespanState) :
    Prop where
  startups : StartupInv env.toStartupEnv db₀ plan s.startups
  schema : ∃ m, n ≤ m ∧ UpTo m s
  used : ∀ p attempt phase, s.phase p = .attempting attempt phase →
    HasTables s.schema (usedTables phase)

variable {n m : ℕ} {process : ℕ} {phase : LifespanPhase}

theorem UpTo.enter (h : UpTo m s) (hphase : ∀ commits, phase = .applying commits →
    ∃ k ≤ m, allChanges.drop k = commits.flatten) : UpTo m (s.enter process phase) where
  schema := h.schema
  applying p commits hp := by
    rcases eq_or_ne p process with rfl | hne
    · exact hphase commits ((Function.update_self ..).symm.trans hp)
    · exact h.applying p commits ((Function.update_of_ne hne ..).symm.trans hp)

theorem used_enter {schema : List SchemaChange} (h : ∀ p attempt phase,
    s.phase p = .attempting attempt phase → HasTables schema (usedTables phase))
    (hphase : ∀ attempt phase', phase = .attempting attempt phase' →
      HasTables schema (usedTables phase')) :
    ∀ p attempt phase', (s.enter process phase).phase p = .attempting attempt phase' →
      HasTables schema (usedTables phase') := by
  intro p attempt phase' hp
  rcases eq_or_ne p process with rfl | hne
  · exact hphase attempt phase' ((Function.update_self ..).symm.trans hp)
  · exact h p attempt phase' ((Function.update_of_ne hne ..).symm.trans hp)

/-- A process begins a startup again, or is no more at one. -/
theorem Inv.leave (h : env.Inv n db₀ plan s) (hstartup : phase.startup = .starting)
    (hphase : ∃ m, n ≤ m ∧ UpTo m (s.enter process phase)) :
    env.Inv n db₀ plan (s.enter process phase) where
  startups := by
    rw [startups_enter, hstartup]
    exact startupInv_replace h.startups fun stage _ => allows_starting stage
  schema := hphase
  used := used_enter h.used fun attempt phase' heq => by
    rw [heq] at hstartup
    rw [show phase' = .starting from hstartup]
    exact fun _ hname => by cases hname

/-- A process that is not in an upgrade. -/
theorem Inv.schema_enter (h : env.Inv n db₀ plan s)
    (hphase : ∀ commits, phase ≠ .applying commits) :
    ∃ m, n ≤ m ∧ UpTo m (s.enter process phase) := by
  obtain ⟨m, hm, hup⟩ := h.schema
  exact ⟨m, hm, hup.enter fun commits heq => absurd heq (hphase commits)⟩

theorem recover_ne_applying (attempt : Attempt) (message : Option String)
    (commits : List (List SchemaChange)) : env.recover attempt message ≠ .applying commits := by
  unfold recover
  split_ifs <;> exact fun h => by cases h

theorem recover_ne_attempting (attempt : Attempt) (message : Option String) (attempt' : Attempt)
    (phase : StartupPhase) : env.recover attempt message ≠ .attempting attempt' phase := by
  unfold recover
  split_ifs <;> exact fun h => by cases h

theorem Inv.recover (h : env.Inv n db₀ plan s) (attempt : Attempt) (message : Option String) :
    env.Inv n db₀ plan (s.enter process (env.recover attempt message)) :=
  h.leave (startup_recover _ _) (h.schema_enter (recover_ne_applying attempt message))

theorem Inv.stop (h : env.Inv n db₀ plan s) : env.Inv n db₀ plan (s.enter process .stopped) :=
  h.leave rfl (h.schema_enter fun _ heq => by cases heq)

/-- A commit of the upgrade. -/
theorem Inv.commit (h : env.Inv n db₀ plan s) {commit : List SchemaChange}
    {commits : List (List SchemaChange)} (hphase : s.phase process = .applying (commit :: commits))
    (hfresh : ∀ change ∈ commit, change ∉ s.schema) :
    env.Inv n db₀ plan (LifespanState.enter { s with schema := s.schema ++ commit } process
      (.applying commits)) := by
  obtain ⟨m, hm, hup⟩ := h.schema
  obtain ⟨k, hk, hdrop⟩ := hup.applying _ _ hphase
  rw [hup.schema] at hfresh
  obtain ⟨m', hm', hschema, k', hk', hdrop'⟩ := take_append_of_fresh hk hdrop hfresh
  have hgrown : UpTo m' { s with schema := s.schema ++ commit } := by
    refine ⟨?_, fun p commits hp => ?_⟩
    · show s.schema ++ commit = _
      rw [hup.schema, hschema]
    · obtain ⟨k, hk, hdrop⟩ := hup.applying p commits hp
      exact ⟨k, hk.trans hm', hdrop⟩
  have hmore : env.Inv n db₀ plan { s with schema := s.schema ++ commit } :=
    ⟨h.startups, ⟨m', hm.trans hm', hgrown⟩, fun p attempt phase hp =>
      (h.used p attempt phase hp).mono fun _ => List.mem_append_left _⟩
  refine hmore.leave rfl ⟨m', hm.trans hm', hgrown.enter fun commits' heq => ?_⟩
  obtain rfl := LifespanPhase.applying.inj heq
  exact ⟨k', hk', hdrop'⟩

/-- A step of an attempt whose tables are there. -/
theorem Inv.attempt (hready : env.Ready db₀)
    (hplan : readSeed env.small env.large db₀ = .ok plan) (h : env.Inv n db₀ plan s)
    {attempt : Attempt} {phase : StartupPhase}
    (hphase : s.phase a.process = .attempting attempt phase)
    (htables : HasTables s.schema phase.requiredTables) :
    env.Inv n db₀ plan (LifespanState.enter
      { s with db := (env.toStartupEnv.step s.startups a).db } a.process
      (env.afterStep attempt ((env.toStartupEnv.step s.startups a).phase a.process))) := by
  have hnext := hready.step_inv hplan s.startups a h.startups
  have hstartup : s.startups.phase a.process = phase := by
    rw [LifespanState.startups]
    exact congrArg LifespanPhase.startup hphase
  have hused := @hasTables_step env a _ s.startups
    (by rw [hstartup]; exact h.used _ _ _ hphase) (by rwa [hstartup])
  set next := env.toStartupEnv.step s.startups a with hstep
  have hafter : ∀ commits, env.afterStep attempt (next.phase a.process) ≠ .applying commits := by
    intro commits
    cases next.phase a.process with
    | failed e => exact recover_ne_applying _ _ _
    | _ => exact fun heq => by cases heq
  refine ⟨?_, ?_, ?_⟩
  · have hsame : (LifespanState.startups { s with db := next.db }).enter
        a.process (env.afterStep attempt (next.phase a.process)).startup =
          next.enter a.process (env.afterStep attempt (next.phase a.process)).startup := by
      refine congrArg (StartupState.mk next.db) (funext fun p => ?_)
      rcases eq_or_ne p a.process with rfl | hne
      · rw [Function.update_self, Function.update_self]
      · rw [Function.update_of_ne hne, Function.update_of_ne hne, hstep, step_phase_of_ne _ _ hne]
        rfl
    rw [startups_enter, hsame]
    exact startupInv_replace hnext fun _ => allows_afterStep
  · obtain ⟨m, hm, hup⟩ := h.schema
    have hsame : UpTo m { s with db := next.db } := ⟨hup.schema, hup.applying⟩
    exact ⟨m, hm, hsame.enter fun commits heq => absurd heq (hafter commits)⟩
  · refine used_enter h.used fun attempt' phase' heq => ?_
    cases hnext : next.phase a.process with
    | failed e =>
      rw [hnext, afterStep] at heq
      exact absurd heq (recover_ne_attempting _ _ _ _)
    | _ =>
      rw [hnext] at heq hused
      obtain ⟨-, rfl⟩ := LifespanPhase.attempting.inj heq
      exact hused

theorem Inv.step (hready : env.Ready db₀)
    (hplan : readSeed env.small env.large db₀ = .ok plan) (h : env.Inv n db₀ plan s)
    (a : LifespanStep) : env.Inv n db₀ plan (env.step s a) := by
  cases a with
  | run a =>
    rw [LifespanEnv.step]
    cases hphase : s.phase a.process with
    | attempting attempt phase =>
      dsimp only
      split_ifs with htables
      · exact h.attempt hready hplan hphase htables
      · exact h.recover _ _
    | upgrading =>
      dsimp only
      split_ifs
      · exact h.stop
      · obtain ⟨m, hm, hup⟩ := h.schema
        obtain ⟨k, hk, hpending⟩ := exists_pending m
        refine h.leave rfl ⟨m, hm, hup.enter fun commits heq => ?_⟩
        obtain rfl := LifespanPhase.applying.inj heq
        exact ⟨k, hk, by rw [env.flatten_commits, hup.schema, hpending]⟩
    | applying commits =>
      cases commits with
      | nil => exact h.leave rfl (h.schema_enter fun _ heq => by cases heq)
      | cons commit commits =>
        dsimp only
        split_ifs with hfresh
        · exact h.commit hphase hfresh
        · exact h.stop
    | stopped => exact h
  | raise process message =>
    rw [LifespanEnv.step]
    split
    · exact h.stop
    · exact h.recover _ _
    · exact h.stop

/-! ## Every interleaving -/

theorem inv_init (henabled : env.bootstrapEnabled) :
    env.Inv n db₀ plan (env.init (allChanges.take n) db₀) := by
  have hphase : ∀ p, (env.init (allChanges.take n) db₀).phase p = .attempting .first .starting :=
    fun _ => if_pos henabled
  refine ⟨⟨.unseeded, rfl, fun p => ?_⟩, ⟨n, le_rfl, rfl, fun p commits hp => ?_⟩,
    fun p attempt phase hp => ?_⟩
  · show StartupStage.Allows plan .unseeded (LifespanPhase.startup _)
    rw [hphase]
    trivial
  · rw [hphase] at hp
    cases hp
  · rw [hphase] at hp
    cases hp
    exact fun _ hname => by cases hname

/-- A database in a file, on which every statement is a commit, and the texts of its driver. -/
def sampleEnv : LifespanEnv where
  small := ∅
  large := ∅
  username := "root"
  nextUserId := Table.nextId
  bootstrapEnabled := true
  lower := String.toLower
  message _ := none
  noSuchTable := "(sqlite3.OperationalError) no such table: roles"
  noSuchTable_missing := by decide +kernel
  inMemory := false
  commits statements := statements.map fun statement => [statement]
  flatten_commits statements := by
    induction statements with
    | nil => rfl
    | cons statement statements ih => rw [List.map_cons, List.flatten_cons, ih]; rfl

theorem ready_sampleEnv : sampleEnv.Ready Database.empty := by
  refine ⟨?_, nofun, nofun⟩
  rintro ⟨d, -, i, -, role, hrole, -⟩
  cases hrole

/-- A process finds a database without tables and has created some of them when another one begins,
which does not find all that it needs, cannot create what is there and stops; a third one stops at
once. -/
def sampleSteps : List LifespanStep :=
  List.replicate 8 (.run ⟨0, 7, "hash"⟩) ++ List.replicate 3 (.run ⟨1, 8, "hash"⟩) ++
    [.raise 2 (some "(sqlite3.OperationalError) database is locked")] ++
      List.replicate 10 (.run ⟨0, 7, "hash"⟩)

variable {pluginId : ℕ} {passwordHash : String} {db db' : Database}
  {schema : List SchemaChange}

/-- The schema and the rows, and where the process is. -/
structure At (s : LifespanState) (process : ℕ) (schema : List SchemaChange) (db : Database)
    (phase : LifespanPhase) : Prop where
  schema : s.schema = schema
  db : s.db = db
  phase : s.phase process = phase

/-- A step of an attempt that misses a table. -/
theorem At.missing {attempt : Attempt} {phase : StartupPhase}
    (h : At s a.process schema db (.attempting attempt phase))
    (hmissing : ¬ HasTables schema phase.requiredTables) :
    At (env.step s (.run a)) a.process schema db
      (env.recover attempt (some env.noSuchTable)) := by
  rw [step, h.phase]
  dsimp only
  rw [h.schema, if_neg hmissing]
  exact ⟨h.schema, h.db, Function.update_self ..⟩

/-- With the bootstrap off, a process that misses a table stops, and nothing has changed. -/
theorem disabled_stops (hdisabled : env.bootstrapEnabled = false)
    (hmissing : ¬ HasTables schema superUserTables) :
    At (env.step (env.init schema db) (.run a)) a.process schema db .stopped := by
  have hinit : At (env.init schema db) a.process schema db
      (.attempting .withoutBootstrap .seeded) :=
    ⟨rfl, rfl, if_neg (by rw [hdisabled]; exact Bool.false_ne_true)⟩
  have hrecover : env.recover .withoutBootstrap (some env.noSuchTable) = .stopped :=
    if_neg fun h => by cases h.1
  exact hrecover ▸ hinit.missing hmissing

/-- A step of an attempt, by what the step of the startup does. -/
theorem At.attempt {attempt : Attempt} {phase phase' : StartupPhase}
    (h : At s a.process schema db (.attempting attempt phase))
    (htables : HasTables schema phase.requiredTables)
    (hnext : ∀ t : StartupState, t.db = db → t.phase a.process = phase →
      (env.toStartupEnv.step t a).db = db' ∧ (env.toStartupEnv.step t a).phase a.process = phase')
    (hphase : ∀ e, phase' ≠ .failed e) :
    At (env.step s (.run a)) a.process schema db' (.attempting attempt phase') := by
  have hstarting : s.startups.phase a.process = phase := by
    rw [LifespanState.startups]
    exact congrArg LifespanPhase.startup h.phase
  obtain ⟨hdb', hphase'⟩ := hnext s.startups h.db hstarting
  have hafter : env.afterStep attempt phase' = .attempting attempt phase' := by
    cases phase' with
    | failed e => exact absurd rfl (hphase e)
    | _ => rfl
  rw [step, h.phase]
  dsimp only
  rw [h.schema, if_pos htables, hdb', hphase', hafter]
  exact ⟨rfl, rfl, Function.update_self ..⟩

/-- A process that has completed stays where it is. -/
theorem At.runFrom_completed (env : LifespanEnv) {attempt : Attempt} {created : Bool}
    (h : At s a.process schema db (.attempting attempt (.completed created))) (n : ℕ) :
    At (Transition.runFrom env.step s (List.replicate n (.run a))) a.process schema db
      (.attempting attempt (.completed created)) := by
  induction n generalizing s with
  | zero => exact h
  | succ n ih =>
    refine ih (h.attempt (fun _ hname => by cases hname) (fun t hdb hphase => ?_)
      fun e h => by cases h)
    rw [StartupEnv.step, hphase]
    exact ⟨hdb, hphase⟩

/-- The four steps of an attempt that does not fail. -/
theorem At.runFrom_startup {attempt : Attempt} (ha : a.pluginId = pluginId)
    (hhash : a.passwordHash = passwordHash)
    (h : At s a.process schema db₀ (.attempting attempt .starting))
    (htables : HasTables schema (seedingTables ++ superUserTables))
    (hstartup : env.startup pluginId passwordHash db₀ = .ok db) :
    ∃ created, At (Transition.runFrom env.step s (List.replicate 4 (.run a))) a.process
      schema db (.attempting attempt (.completed created)) := by
  subst ha hhash
  have hseeding : HasTables schema seedingTables :=
    fun name hname => htables name (List.mem_append_left _ hname)
  have hsuperUser : HasTables schema superUserTables :=
    fun name hname => htables name (List.mem_append_right _ hname)
  unfold StartupEnv.startup at hstartup
  cases hseed : env.seed a.pluginId db₀ with
  | error e =>
    rw [hseed] at hstartup
    cases hstartup
  | ok db₁ =>
    obtain ⟨plan, hplan, hwrite⟩ := Except.bind_eq_ok.1 hseed
    rw [hseed] at hstartup
    dsimp only at hstartup
    split at hstartup
    · cases hstartup
    rename_i created db₂ hensure
    obtain rfl : db₂ = db := Except.ok.inj hstartup
    have hread : At (env.step s (.run a)) a.process schema db₀
        (.attempting attempt (.seeding plan)) :=
      h.attempt hseeding (fun t hdb hphase => by
        simp [StartupEnv.step, StartupState.enter, hphase, hdb, hplan]) fun e h => by cases h
    have hseeded : At (env.step (env.step s (.run a)) (.run a)) a.process schema db₁
        (.attempting attempt .seeded) :=
      hread.attempt hseeding (fun t hdb hphase => by
        simp [StartupEnv.step, StartupState.enter, hphase, hdb, hwrite]) fun e h => by cases h
    set s₂ := env.step (env.step s (.run a)) (.run a) with hs₂
    rcases ensureSuperUserFromEnvIfEnabled_ok.1 hensure with
      ⟨⟨detail, hread⟩, -, rfl⟩ | ⟨create, hread, hcreate⟩
    · have hskipped : At (env.step s₂ (.run a)) a.process schema db₂
          (.attempting attempt (.completed false)) :=
        hseeded.attempt hsuperUser (fun t hdb hphase => by
          simp [StartupEnv.step, StartupState.enter, hphase, hdb, hread]) fun e h => by cases h
      exact ⟨false, hskipped.runFrom_completed env 1⟩
    · have hcreating : At (env.step s₂ (.run a)) a.process schema db₁
          (.attempting attempt (.creating create)) :=
        hseeded.attempt hsuperUser (fun t hdb hphase => by
          simp [StartupEnv.step, StartupState.enter, hphase, hdb, hread]) fun e h => by cases h
      have hcreated : At (env.step (env.step s₂ (.run a)) (.run a)) a.process schema db₂
          (.attempting attempt (.completed created)) :=
        hcreating.attempt hsuperUser (fun t hdb hphase => by
          simp [StartupEnv.step, StartupState.enter, hphase, hdb, hcreate]) fun e h => by cases h
      exact ⟨created, hcreated⟩

/-- The commits of an upgrade that no other process disturbs. -/
theorem At.runFrom_applying (env : LifespanEnv) {commits : List (List SchemaChange)}
    (h : At s a.process schema db (.applying commits))
    (hnodup : (schema ++ commits.flatten).Nodup) :
    At (Transition.runFrom env.step s (List.replicate commits.length (.run a))) a.process
      (schema ++ commits.flatten) db (.applying []) := by
  induction commits generalizing s schema with
  | nil =>
    rw [List.flatten_nil, List.append_nil]
    exact h
  | cons commit commits ih =>
    rw [List.flatten_cons, ← List.append_assoc] at hnodup ⊢
    have hfresh : ∀ change ∈ commit, change ∉ schema := fun change hcommit hschema =>
      List.disjoint_of_nodup_append (List.nodup_append'.1 hnodup).1 hschema hcommit
    refine ih ⟨?_, ?_, ?_⟩ hnodup
    all_goals
      rw [step, h.phase]
      dsimp only
      rw [h.schema, if_pos hfresh]
    · rfl
    · exact h.db
    · exact Function.update_self ..

/-- The upgrade returns. -/
theorem At.finish (env : LifespanEnv) (h : At s a.process schema db (.applying [])) :
    At (env.step s (.run a)) a.process schema db (.attempting .afterUpgrade .starting) := by
  rw [step, h.phase]
  exact ⟨h.schema, h.db, Function.update_self ..⟩

/-- The steps from the missing tables to the second attempt. -/
theorem runFrom_missing (henabled : env.bootstrapEnabled) (hmemory : env.inMemory = false) :
    At (Transition.runFrom env.step (env.init [] db)
      (List.replicate (3 + (env.commits allChanges).length) (.run a))) a.process allChanges db
      (.attempting .afterUpgrade .starting) := by
  have hinit : At (env.init [] db) a.process [] db (.attempting .first .starting) :=
    ⟨rfl, rfl, if_pos henabled⟩
  have hrecover : env.recover .first (some env.noSuchTable) = .upgrading :=
    if_pos ⟨rfl, env.noSuchTable_missing⟩
  have hmissing : ¬ HasTables [] seedingTables := by decide
  have hfirst : At (env.step (env.init [] db) (.run a)) a.process [] db .upgrading :=
    hrecover ▸ hinit.missing hmissing
  have hsecond : At (env.step (env.step (env.init [] db) (.run a)) (.run a)) a.process [] db
      (.applying (env.commits allChanges)) := by
    set s₁ := env.step (env.init [] db) (.run a)
    rw [step, hfirst.phase]
    dsimp only
    rw [if_neg (by rw [hmemory]; exact Bool.false_ne_true), hfirst.schema]
    exact ⟨hfirst.schema, hfirst.db, Function.update_self ..⟩
  have hnodup : ([] ++ (env.commits allChanges).flatten).Nodup := by
    rw [env.flatten_commits]
    decide
  have happlied := hsecond.runFrom_applying env hnodup
  rw [env.flatten_commits, List.nil_append] at happlied
  have hsteps : List.replicate (3 + (env.commits allChanges).length) (LifespanStep.run a) =
      .run a :: .run a ::
        (List.replicate (env.commits allChanges).length (.run a) ++ [.run a]) := by
    rw [← List.replicate_succ', ← List.replicate_succ, ← List.replicate_succ]
    congr 1
    omega
  rw [hsteps, Transition.runFrom_cons, Transition.runFrom_cons, Transition.runFrom_append]
  exact happlied.finish env

/-- The steps of a first attempt that finds its tables, and any number of further ones. -/
theorem runFrom_present (henabled : env.bootstrapEnabled)
    (htables : HasTables schema (seedingTables ++ superUserTables))
    (hstartup : env.startup a.pluginId a.passwordHash db₀ = .ok db) {n : ℕ} (hn : 4 ≤ n) :
    ∃ created, At (Transition.runFrom env.step (env.init schema db₀) (List.replicate n (.run a)))
      a.process schema db (.attempting .first (.completed created)) := by
  have hbegin : At (env.init schema db₀) a.process schema db₀ (.attempting .first .starting) :=
    ⟨rfl, rfl, if_pos henabled⟩
  obtain ⟨created, hcompleted⟩ := hbegin.runFrom_startup rfl rfl htables hstartup
  have hend := hcompleted.runFrom_completed env (n - 4)
  rw [← Transition.runFrom_append, List.replicate_append_replicate,
    show 4 + (n - 4) = n by omega] at hend
  exact ⟨created, hend⟩

/-- The same when the tables are missing. -/
theorem runFrom_upgraded (henabled : env.bootstrapEnabled) (hmemory : env.inMemory = false)
    (hstartup : env.startup a.pluginId a.passwordHash db₀ = .ok db) {n : ℕ}
    (hn : 7 + (env.commits allChanges).length ≤ n) :
    ∃ created, At (Transition.runFrom env.step (env.init [] db₀) (List.replicate n (.run a)))
      a.process allChanges db (.attempting .afterUpgrade (.completed created)) := by
  have htables : HasTables allChanges (seedingTables ++ superUserTables) := by decide
  obtain ⟨created, hcompleted⟩ :=
    (runFrom_missing henabled hmemory).runFrom_startup rfl rfl htables hstartup
  have hend := hcompleted.runFrom_completed env (n - (7 + (env.commits allChanges).length))
  rw [← Transition.runFrom_append, ← Transition.runFrom_append, List.replicate_append_replicate,
    List.replicate_append_replicate, show 3 + (env.commits allChanges).length +
      (4 + (n - (7 + (env.commits allChanges).length))) = n by omega] at hend
  exact ⟨created, hend⟩

/-- The prestart script runs what is pending, and then the startup. -/
theorem prestart_eq (hmemory : env.inMemory = false)
    (hstartup : env.startup pluginId passwordHash db₀ = .ok db)
    (hfresh : ∀ change ∈ changes (pending schema), change ∉ schema) :
    env.prestart pluginId passwordHash schema db₀ =
      some (schema ++ changes (pending schema), db) := by
  rw [prestart, if_neg, hstartup]
  · rfl
  · rintro (h | ⟨change, hpending, hschema⟩)
    · rw [hmemory] at h
      cases h
    · exact hfresh change hpending hschema

/-- A single process completes, and what it leaves is what the prestart script leaves, unless the
database has all tables but `plugin_mappings`. -/
theorem lifespan_eq_prestart_iff (henabled : env.bootstrapEnabled) (hmemory : env.inMemory = false)
    (applied : ℕ) (hstartup : env.startup a.pluginId a.passwordHash db₀ = .ok db) {n : ℕ}
    (hn : 7 + (env.commits allChanges).length ≤ n) :
    let schema := changes (migrations.take applied)
    let s := Transition.runFrom env.step (env.init schema db₀) (List.replicate n (.run a))
    (∃ attempt created, s.phase a.process = .attempting attempt (.completed created)) ∧
      (env.prestart a.pluginId a.passwordHash schema db₀ = some (s.schema, s.db) ↔
        applied ≠ 1) := by
  intro schema s
  -- With the tables there, the first attempt completes and the schema stays as it is.
  have hwith : HasTables schema (seedingTables ++ superUserTables) →
      (∃ attempt created, s.phase a.process = .attempting attempt (.completed created)) ∧
        s.schema = schema ∧ s.db = db := by
    intro htables
    obtain ⟨created, hend⟩ := runFrom_present henabled htables hstartup (n := n) (by omega)
    exact ⟨⟨.first, created, hend.phase⟩, hend.schema, hend.db⟩
  obtain rfl | rfl | hall : applied = 0 ∨ applied = 1 ∨ migrations.take applied = migrations := by
    rcases applied with _ | _ | applied
    · exact Or.inl rfl
    · exact Or.inr (Or.inl rfl)
    · exact Or.inr (Or.inr (List.take_of_length_le (Nat.le_add_left 2 applied)))
  · obtain ⟨created, hend⟩ := runFrom_upgraded henabled hmemory hstartup hn
    refine ⟨⟨.afterUpgrade, created, hend.phase⟩, iff_of_true ?_ Nat.zero_ne_one⟩
    rw [prestart_eq hmemory hstartup (by decide)]
    exact congrArg some (Prod.ext hend.schema.symm hend.db.symm)
  · obtain ⟨hcompleted, hschema, hdb⟩ := hwith (by decide)
    refine ⟨hcompleted, iff_of_false (fun h => ?_) (absurd rfl)⟩
    rw [prestart_eq hmemory hstartup (by decide), hschema, Option.some.injEq, Prod.mk.injEq] at h
    exact absurd h.1 (by decide)
  · have hschema : schema = allChanges := congrArg changes hall
    have htables : HasTables allChanges (seedingTables ++ superUserTables) := by decide
    obtain ⟨hcompleted, hsame, hdb⟩ := hwith (hschema ▸ htables)
    refine ⟨hcompleted, iff_of_true ?_ ?_⟩
    · rw [hsame, hdb, hschema, prestart_eq hmemory hstartup (by decide)]
      rfl
    · rintro rfl
      exact absurd (congrArg List.length hall) (by decide)

/-- What a single process leaves when only the first migration has been applied. -/
def sampleRun : LifespanState :=
  Transition.runFrom sampleEnv.step (sampleEnv.init (changes (migrations.take 1)) Database.empty)
    (List.replicate 18 (.run ⟨0, 7, "hash"⟩))

/-- The startup completes without `plugin_mappings`. -/
theorem lifespan_ne_prestart_sample :
    (∃ attempt created, sampleRun.phase 0 = .attempting attempt (.completed created)) ∧
      sampleEnv.prestart 7 "hash" (changes (migrations.take 1)) Database.empty ≠
        some (sampleRun.schema, sampleRun.db) := by
  have hok : (sampleEnv.startup 7 "hash" Database.empty).toOption.isSome := by decide +kernel
  obtain ⟨db, hdb⟩ := Option.isSome_iff_exists.1 hok
  have hstartup : sampleEnv.startup 7 "hash" Database.empty = .ok db :=
    Except.toOption_eq_some.1 hdb
  obtain ⟨hcompleted, hiff⟩ := lifespan_eq_prestart_iff (a := ⟨0, 7, "hash"⟩) rfl rfl 1 hstartup
    (show 7 + (sampleEnv.commits allChanges).length ≤ 18 by decide)
  exact ⟨hcompleted, fun h => hiff.1 h rfl⟩

end

end LifespanEnv

end AranesLms
