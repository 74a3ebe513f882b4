import AranesLms.Http.Observability
import AranesLms.I18n.Programs
import AranesLms.UserRole.Escalation
import AranesLms.UserRole.Requests

/-!
# The audit log

Requests that change roles, users or translations through the RBAC and the i18n API, in any number,
between the two halves of the middleware `_observe_requests`.  They are interleaved between the
check of the permission, the load of a translation and the write, which is one step with its commit.
Other requests and processes change the database at any time, and an automatic migration configures
the loggers anew.

`always_accountable`: as long as the loggers are as `setup_logging` has left them, a request that
has changed something has exactly one record in the audit log when its response is sent, with the
request id of the response and its status, and the record names the user on whose permission the
change was made; after a migration nothing is recorded any more.  The records are logged at the
level `INFO`; the default level in production is above it, and nothing is recorded then
(`production_defaults_record_nothing`).
-/

namespace AranesLms

namespace Observability

open Gateway (startsWith startsWith_append)

/-! ## Endpoints -/

/-- Method and path below `/api/v1/rbac` of the endpoint that performs an operation. -/
def rbacEndpoint? : Operation → Option (String × String)
  | .createRole .. => some ("POST", "/roles")
  | .updateRole roleId .. => some ("PATCH", "/roles/" ++ toString roleId)
  | .deleteRole roleId => some ("DELETE", "/roles/" ++ toString roleId)
  | .patchRolePermissions roleId _ => some ("PATCH", "/roles/" ++ toString roleId ++ "/permissions")
  | .resetRolePermissions => some ("POST", "/roles/reset")
  | .appendRolePermissions .. => some ("POST", "/roles/role-registry/")
  | .createUserAdmin .. => some ("POST", "/users")
  | .updateUserAdmin userId .. => some ("PATCH", "/users/" ++ toString userId)
  | .setUserPasswordAdmin userId _ => some ("PUT", "/users/" ++ toString userId ++ "/password")
  | .deleteUserAdmin userId => some ("DELETE", "/users/" ++ toString userId)
  | .patchUserPermissions userId _ => some ("PATCH", "/users/" ++ toString userId ++ "/permissions")
  | .resetUserPermissions => some ("POST", "/users/reset")
  | .signup .. | .runBootstrapSeeding .. => none

/-- The status code of the response when the operation succeeds. -/
def successStatus : Operation → ℕ
  | .createRole .. | .createUserAdmin .. => 201
  | .deleteRole .. | .deleteUserAdmin .. => 204
  | _ => 200

/-- The path of a `PUT` of a translation below `/api/v1/i18n`. -/
def i18nPath : TranslationKind → String
  | .small => "/small"
  | .large => "/large"

/-- What a request to the RBAC or the i18n API is to change. -/
inductive Change where
  | rbac (op : Operation)
  | translation (kind : TranslationKind) (key : kind.Key) (data : TranslationMap)

/-- Method and path of the endpoint for a change. -/
def Change.endpoint? : Change → Option (String × String)
  | .rbac op => (rbacEndpoint? op).map fun (method, path) => (method, "/api/v1/rbac" ++ path)
  | .translation kind _ _ => some ("PUT", "/api/v1/i18n" ++ i18nPath kind)

/-- A response that `require_access_token_payload` leads to when it raises; `decodeError` is the
class of a `JWTDecodeError`. -/
structure Rejection where
  statusCode : ℕ
  decodeError : Option String

/-- A request for a change, with what its access token is verified to; `freshId` is the id that the
middleware has in store for it. -/
structure ChangeRequest where
  change : Change
  headers : Headers
  client : Option String
  freshId : String
  verified : Except Rejection TokenPayload

/-- Where a request waits, with its `request.state`. -/
inductive Stage where
  | fresh
  | arrived (request : Request) (r : ChangeRequest) (state : RequestState)
  | admitted (request : Request) (r : ChangeRequest) (state : RequestState) (actor : CurrentActor)
  | loaded (request : Request) (r : ChangeRequest) (state : RequestState) (actor : CurrentActor)
    (existingItem : Option TranslationMap)
  | answered (request : Request) (r : ChangeRequest) (state : RequestState) (outcome : Outcome)
  | closed (request : Request) (response : Response)

/-- What becomes of a statement: it is carried out, or raises before it is carried out or after. -/
inductive Fault where
  | none
  | before
  | after
  deriving DecidableEq

/-- The database, the loggers, the requests, who has changed something with which request, and the
log. -/
structure Api where
  db : Database
  loggers : Loggers
  stages : ℕ → Stage
  changes : List (ℕ × ℕ)
  log : List (ℕ × LogRecord)

/-- `external` stands for what other requests and processes do to the database, `fileConfig` for an
automatic migration in the process, with the loggers that have been used before. -/
inductive ApiEvent where
  | external (db : Database)
  | fileConfig (existing : List LoggerName)
  | arrive (i : ℕ) (r : ChangeRequest)
  | proceed (i nid : ℕ) (fault : Fault)
  | respond (i elapsedMs : ℕ)

namespace Api

variable (config : Config) (s : Api)

def start (db : Database) : Api := ⟨db, setupLogging config, fun _ => .fresh, [], []⟩

def setStage (i : ℕ) (stage : Stage) : Api := { s with stages := Function.update s.stages i stage }

/-- Records about a request that have got through. -/
def write (i : ℕ) (records : List LogRecord) : Api :=
  { s with log := s.log ++ records.map fun record => (i, record) }

/-- How an endpoint ends that does not translate the exception. -/
def crudOutcome (e : CrudError) : Outcome :=
  match e with
  | .integrityError _ => .exception "IntegrityError"
  | .runtimeError _ => .exception "RuntimeError"
  | e => .response (httpError e).statusCode

/-- The exception of a statement that the database does not carry out, or whose result is lost. -/
def databaseError : Outcome := .exception "DBAPIError"

/-- A commit on behalf of an actor. -/
def commit (i : ℕ) (request : Request) (r : ChangeRequest) (state : RequestState)
    (actor : CurrentActor) (fault : Fault) (result : Except CrudError Database) (statusCode : ℕ) :
    Api :=
  match fault, result with
  | .before, _ | .after, .error _ => s.setStage i (.answered request r state databaseError)
  | .none, .error e => s.setStage i (.answered request r state (crudOutcome e))
  | .none, .ok db =>
    { s with db, changes := (i, actor.userId) :: s.changes }.setStage i
      (.answered request r state (.response statusCode))
  | .after, .ok db =>
    { s with db, changes := (i, actor.userId) :: s.changes }.setStage i
      (.answered request r state databaseError)

/-- The dependencies of the route behind the one that verifies the token. -/
def authorize (i : ℕ) (request : Request) (r : ChangeRequest) (state : RequestState)
    (payload : TokenPayload) : Api :=
  match getCurrentActor s.db payload with
  | .error e => s.setStage i (.answered request r state (.response e.statusCode))
  | .ok actor =>
    let state := { state with currentActor := some actor }
    match r.change with
    | .translation .. => s.setStage i (.admitted request r state actor)
    | .rbac op =>
      let checked := do
        let _ ← requirePermission (op.requiredPermission.getD "") actor
        checkSelfDelete actor op
      match checked with
      | .error e => s.setStage i (.answered request r state (.response e.statusCode))
      | .ok _ => s.setStage i (.admitted request r state actor)

/-- The dependencies of the route; a token that cannot be decoded leaves a warning. -/
def runDependencies (i : ℕ) (request : Request) (r : ChangeRequest) (state : RequestState)
    (fault : Fault) : Api :=
  match r.verified with
  | .error rejection =>
    match rejection.decodeError with
    | none => s.setStage i (.answered request r state (.response rejection.statusCode))
    | some errorType =>
      let (state, warnings) := warnActorSubjectExtractionFailed request state (some errorType)
      (s.write i (s.loggers.emit warnings)).setStage i
        (.answered request r state (.response rejection.statusCode))
  | .ok payload =>
    let state := { state with accessTokenPayload := some payload }
    match fault with
    | .none => s.authorize i request r state payload
    | _ => s.setStage i (.answered request r state databaseError)

/-- The next step of a request; the endpoints for translations load the item first. -/
def proceed (i nid : ℕ) (fault : Fault) : Stage → Api
  | .arrived request r state => s.runDependencies i request r state fault
  | .admitted request r state actor =>
    match r.change with
    | .rbac op => s.commit i request r state actor fault (op.run nid s.db) (successStatus op)
    | .translation kind key _ =>
      match fault with
      | .none =>
        let existingItem := s.db.translation? kind key
        match requirePermission (ApiProgram.upsertPermission kind existingItem) actor with
        | .error e => s.setStage i (.answered request r state (.response e.statusCode))
        | .ok _ => s.setStage i (.loaded request r state actor existingItem)
      | _ => s.setStage i (.answered request r state databaseError)
  | .loaded request r state actor existingItem =>
    match r.change with
    | .rbac _ => s
    | .translation kind key data =>
      s.commit i request r state actor fault
        (s.db.writeTranslation kind key existingItem (mergeTranslationPatch existingItem data)) 200
  | .fresh | .answered .. | .closed .. => s

def step : ApiEvent → Api
  | .external db => { s with db }
  | .fileConfig existing => { s with loggers := s.loggers.fileConfig existing }
  | .arrive i r =>
    match s.stages i, r.change.endpoint? with
    | .fresh, some (method, path) =>
      let request : Request := ⟨method, path, r.headers, r.client⟩
      s.setStage i (.arrived request r (openRequest request r.freshId))
    | _, _ => s
  | .proceed i nid fault => s.proceed i nid fault (s.stages i)
  | .respond i elapsedMs =>
    match s.stages i with
    | .answered request r state outcome =>
      let (response, records) :=
        closeRequest config s.loggers request r.freshId state outcome elapsedMs
      (s.write i records).setStage i (.closed request response)
    | _ => s

/-! ## Accountability -/

/-- The record is one of the audit log. -/
def IsAudit : LogRecord → Bool
  | .audit .. => true
  | _ => false

def auditLog : List (ℕ × LogRecord) := s.log.filter fun entry => IsAudit entry.2

/-- The audit records of a request. -/
def auditRecords (i : ℕ) : List LogRecord :=
  (s.log.filter fun entry => entry.1 = i && IsAudit entry.2).map Prod.snd

/-- How the audit log names a user. -/
def userSubject (userId : ℕ) : String := "uid:" ++ toString userId

/-- A request changes something at most once; when its response has been sent, it has one audit
record, which names the user. -/
structure Accountable : Prop where
  once : (s.changes.map Prod.fst).Nodup
  recorded : ∀ i userId, (i, userId) ∈ s.changes → ∀ request response,
    s.stages i = .closed request response →
      s.auditRecords i = [.audit response.requestId request.method request.path response.statusCode
        (clientHost request) (some (userSubject userId))]

/-! ## Records -/

theorem method_of_rbacEndpoint {op : Operation} {method path : String}
    (h : rbacEndpoint? op = some (method, path)) :
    method = "POST" ∨ method = "PATCH" ∨ method = "PUT" ∨ method = "DELETE" := by
  cases op with
  | signup _ _ | runBootstrapSeeding _ _ => cases h
  | createRole _ _ | resetRolePermissions | appendRolePermissions _ _ | createUserAdmin _ _ _
  | resetUserPermissions =>
    cases h
    exact Or.inl rfl
  | updateRole _ _ _ | patchRolePermissions _ _ | updateUserAdmin _ _ _
  | patchUserPermissions _ _ =>
    cases h
    exact Or.inr (Or.inl rfl)
  | setUserPasswordAdmin _ _ =>
    cases h
    exact Or.inr (Or.inr (Or.inl rfl))
  | deleteRole _ | deleteUserAdmin _ =>
    cases h
    exact Or.inr (Or.inr (Or.inr rfl))

/-- Every endpoint that changes something is audited. -/
theorem shouldAuditRequest_of_endpoint {change : Change} {method path : String}
    (h : change.endpoint? = some (method, path)) : shouldAuditRequest path method = true := by
  have hprefix : ∀ {path : String}, path ∈ auditedPrefixes → ∀ rest,
      (auditedPrefixes.any fun audited => startsWith (path ++ rest) audited) = true :=
    fun hmem rest => List.any_eq_true.2 ⟨_, hmem, startsWith_append _ rest⟩
  cases change with
  | rbac op =>
    obtain ⟨⟨method', path'⟩, hop, hsame⟩ := Option.map_eq_some_iff.1 h
    cases hsame
    have hany : (auditedPrefixes.any fun audited => startsWith ("/api/v1/rbac" ++ path') audited) =
        true := hprefix List.mem_cons_self path'
    rw [shouldAuditRequest, hany, Bool.or_true]
    rcases method_of_rbacEndpoint hop with rfl | rfl | rfl | rfl <;> decide
  | translation kind key data =>
    cases h
    have hany : (auditedPrefixes.any fun audited =>
        startsWith ("/api/v1/i18n" ++ i18nPath kind) audited) = true :=
      hprefix (List.mem_cons_of_mem _ List.mem_cons_self) (i18nPath kind)
    rw [shouldAuditRequest, hany, Bool.or_true]
    decide

/-- The subject has not been looked for yet. -/
def Unresolved (state : RequestState) : Prop :=
  state.actorSubject = none ∧ state.actorSubjectResolved = false

/-- The state says on whose behalf the request acts. -/
def Names (state : RequestState) (userId : ℕ) : Prop :=
  0 < userId ∧ ∃ actor, state.currentActor = some actor ∧ actor.userId = userId

theorem extractActorSubject_of_names {request : Request} {state : RequestState} {userId : ℕ}
    (hstate : Unresolved state) (hnames : Names state userId) :
    (extractActorSubject request state).1 = some (userSubject userId) := by
  obtain ⟨hpos, actor, hactor, rfl⟩ := hnames
  have hid : stableActorSubjectFromUserId (.int (actor.userId : ℤ)) =
      some (userSubject actor.userId) := if_pos (Int.natCast_pos.2 hpos)
  have hsubject : stableActorSubjectFromRequestState state = some (userSubject actor.userId) := by
    rw [stableActorSubjectFromRequestState, hactor]
    dsimp only
    rw [Option.bind_some, hid, Option.some_or]
  rw [extractActorSubject, hstate.1, hstate.2, hsubject]
  rfl

theorem warn_filter (request : Request) (state : RequestState) (errorType : Option String) :
    ((warnActorSubjectExtractionFailed request state errorType).2).filter IsAudit = [] := by
  rw [warnActorSubjectExtractionFailed]
  split_ifs <;> rfl

/-- A warning is no audit record. -/
theorem warnings_filter (request : Request) (state : RequestState) :
    ((extractActorSubject request state).2.2).filter IsAudit = [] := by
  rw [extractActorSubject]
  split
  · rfl
  · split_ifs
    · rfl
    · split
      · rfl
      · rfl
    · split
      · rfl
      · split
        · exact warn_filter request state none
        · rfl

theorem emit_filter_of_nil (loggers : Loggers) {records : List LogRecord}
    (h : records.filter IsAudit = []) : (loggers.emit records).filter IsAudit = [] := by
  rw [Loggers.emit, List.filter_filter, List.filter_eq_nil_iff]
  intro record hmem hboth
  exact List.filter_eq_nil_iff.1 h record hmem (Bool.and_eq_true_iff.1 hboth).1

/-- The loggers let the records of the audit log through. -/
def Audits (loggers : Loggers) : Prop :=
  loggers.level ≤ infoLevel ∧ LoggerName.audit ∉ loggers.disabled

theorem passes_audit (loggers : Loggers) (requestId method path : String) (statusCode : ℕ)
    (clientHost : String) (actor : Option String) :
    loggers.passes (.audit requestId method path statusCode clientHost actor) =
      !(loggers.disabled.contains .audit || decide (infoLevel < loggers.level)) := rfl

theorem Audits.filter_emit {loggers : Loggers} (h : Audits loggers) (records : List LogRecord) :
    (loggers.emit records).filter IsAudit = records.filter IsAudit := by
  rw [Loggers.emit, List.filter_filter]
  refine List.filter_congr fun record _ => ?_
  cases record with
  | audit requestId method path statusCode clientHost actor =>
    rw [passes_audit, List.contains_eq_mem, decide_eq_false h.2,
      decide_eq_false (Nat.not_lt.2 h.1)]
    rfl
  | request | actorSubjectExtractionFailed | unhandledRequestException => rfl

/-- A request that is audited leaves one audit record, about its response. -/
theorem closeRequest_filter (haudit : config.auditLogEnabled = true) {loggers : Loggers}
    (hloggers : Audits loggers) {request : Request}
    (hshould : shouldAuditRequest request.path request.method = true) (freshId : String)
    (state : RequestState) (outcome : Outcome) (elapsedMs : ℕ) :
    ((closeRequest config loggers request freshId state outcome elapsedMs).2).filter IsAudit =
      [.audit (closeRequest config loggers request freshId state outcome elapsedMs).1.requestId
        request.method request.path
        (closeRequest config loggers request freshId state outcome elapsedMs).1.statusCode
        (clientHost request) (extractActorSubject request state).1] := by
  have hneeds : needsRequestObservation config request.method request.path = true := by
    rw [needsRequestObservation, haudit, hshould]
    simp only [Bool.not_true, Bool.false_eq_true, if_false]
    split_ifs <;> rfl
  have hrecord : ∀ statusCode requestId, ((recordRequestObservation config request state statusCode
      elapsedMs requestId).2).filter IsAudit = [.audit requestId request.method request.path
        statusCode (clientHost request) (extractActorSubject request state).1] := by
    intro statusCode requestId
    rw [recordRequestObservation, haudit, hshould]
    simp only [Bool.and_self, Bool.not_true, Bool.and_false, Bool.false_eq_true, if_false, if_true,
      List.filter_append, warnings_filter, List.nil_append]
    split_ifs <;> rfl
  cases outcome with
  | response statusCode =>
    simp only [closeRequest, if_pos hneeds, List.nil_append]
    rw [hloggers.filter_emit, hrecord]
  | exception errorType =>
    have hfailure : ∀ requestId, ([LogRecord.unhandledRequestException requestId request.path
        errorType]).filter IsAudit = [] := fun _ => rfl
    simp only [closeRequest, if_pos hneeds]
    rw [hloggers.filter_emit, List.filter_append, hfailure, List.nil_append, hrecord]

/-! ## The log -/

@[simp] theorem auditRecords_setStage (i j : ℕ) (stage : Stage) :
    (s.setStage i stage).auditRecords j = s.auditRecords j := rfl

theorem auditRecords_write (i : ℕ) (records : List LogRecord) (j : ℕ) :
    (s.write i records).auditRecords j =
      s.auditRecords j ++ if i = j then records.filter IsAudit else [] := by
  have hnew : ((records.map fun record => (i, record)).filter fun entry =>
      entry.1 = j && IsAudit entry.2).map Prod.snd =
        if i = j then records.filter IsAudit else [] := by
    split_ifs with hij
    · rw [List.filter_map, List.map_map]
      simp only [hij, Function.comp_def, decide_true, Bool.true_and, List.map_id']
    · rw [List.filter_map, List.map_map]
      simp only [hij, Function.comp_def, decide_false, Bool.false_and, List.filter_false,
        List.map_nil]
  rw [auditRecords, write, List.filter_append, List.map_append, hnew]
  rfl

/-! ## The invariant -/

/-- The user ids of the database are those of an `AUTOINCREMENT` column. -/
def PositiveIds (db : Database) : Prop := ∀ user ∈ db.users, 0 < user.id

/-- The request will be audited, and nobody has looked for its actor. -/
def Audited (request : Request) (state : RequestState) : Prop :=
  shouldAuditRequest request.path request.method = true ∧ Unresolved state

/-- The actor has been resolved and is on `request.state`. -/
def Acts (state : RequestState) (actor : CurrentActor) : Prop :=
  0 < actor.userId ∧ state.currentActor = some actor

/-- What is known of a request by its stage; `Changed` says for whom it has changed something, and
`records` are its audit records. -/
def Sound (Changed : ℕ → Prop) (records : List LogRecord) : Stage → Prop
  | .fresh => records = [] ∧ ∀ userId, ¬ Changed userId
  | .arrived request _ state => records = [] ∧ (∀ userId, ¬ Changed userId) ∧ Audited request state
  | .admitted request _ state actor | .loaded request _ state actor _ =>
    records = [] ∧ (∀ userId, ¬ Changed userId) ∧ Audited request state ∧ Acts state actor
  | .answered request _ state _ =>
    records = [] ∧ Audited request state ∧ ∀ userId, Changed userId → Names state userId
  | .closed request response => ∀ userId, Changed userId →
    records = [.audit response.requestId request.method request.path response.statusCode
      (clientHost request) (some (userSubject userId))]

/-- The request has changed something on behalf of the user. -/
def ChangedFor (i userId : ℕ) : Prop := (i, userId) ∈ s.changes

structure Inv : Prop where
  once : (s.changes.map Prod.fst).Nodup
  positive : PositiveIds s.db
  loggers : Audits s.loggers
  sound : ∀ i, Sound (s.ChangedFor i) (s.auditRecords i) (s.stages i)

theorem Inv.accountable (h : Inv s) : s.Accountable where
  once := h.once
  recorded := by
    intro i userId hmem request response hstage
    have hsound := h.sound i
    rw [hstage] at hsound
    exact hsound userId hmem

theorem inv_start {db : Database} (hdb : PositiveIds db) (hlevel : config.logLevel ≤ infoLevel) :
    Inv (start config db) where
  once := List.nodup_nil
  positive := hdb
  loggers := ⟨hlevel, List.not_mem_nil⟩
  sound := fun _ => ⟨rfl, fun _ => List.not_mem_nil⟩

/-- Only request `i` has moved. -/
theorem Inv.move {s t : Api} (h : Inv s) {i : ℕ} {stage : Stage}
    (hstages : t.stages = Function.update s.stages i stage) (honce : (t.changes.map Prod.fst).Nodup)
    (hpositive : PositiveIds t.db)
    (hchanges : ∀ j, j ≠ i → ∀ userId, t.ChangedFor j userId ↔ s.ChangedFor j userId)
    (hlog : ∀ j, j ≠ i → t.auditRecords j = s.auditRecords j) (hloggers : t.loggers = s.loggers)
    (hself : Sound (t.ChangedFor i) (t.auditRecords i) stage) : Inv t where
  once := honce
  positive := hpositive
  loggers := hloggers ▸ h.loggers
  sound := by
    intro j
    rw [hstages]
    rcases eq_or_ne j i with rfl | hne
    · rw [Function.update_self]
      exact hself
    · rw [Function.update_of_ne hne, hlog j hne,
        show t.ChangedFor j = s.ChangedFor j from funext fun u => propext (hchanges j hne u)]
      exact h.sound j

/-- The request goes on without having changed or recorded anything. -/
theorem Inv.setStage {s : Api} (h : Inv s) {i : ℕ} {stage : Stage}
    (hself : Sound (s.ChangedFor i) (s.auditRecords i) stage) : Inv (s.setStage i stage) :=
  h.move rfl h.once h.positive (fun _ _ _ => Iff.rfl) (fun _ _ => rfl) rfl hself

/-! ## Ids -/

/-- A token stands for a user of the table. -/
theorem mem_users_of_getCurrentActor {db : Database} {payload : TokenPayload} {actor : CurrentActor}
    (h : getCurrentActor db payload = .ok actor) : ∃ user ∈ db.users, actor.userId = user.id := by
  obtain ⟨user, role, hfind, hid⟩ := getCurrentActor_ok h
  refine ⟨user, ?_, hid⟩
  simp only [findTokenAccount, Except.bind_eq_ok] at hfind
  obtain ⟨found, hfound, hjoin⟩ := hfind
  have hsome : found = some user := by
    cases found with
    | none => cases hjoin
    | some user' =>
      rw [joinRole, Option.bind_some] at hjoin
      cases hrole : db.role? user'.roleId with
      | none =>
        rw [hrole] at hjoin
        cases hjoin
      | some role' =>
        rw [hrole] at hjoin
        cases hjoin
        rfl
  subst hsome
  simp only [findTokenUser, Except.bind_eq_ok] at hfound
  obtain ⟨userId?, -, hquery⟩ := hfound
  cases userId? with
  | some userId =>
    exact (Table.find?_eq_some.1 (Except.ok.inj hquery)).1
  | none =>
    obtain ⟨username, -, hquery⟩ := Except.bind_eq_ok.1 hquery
    exact (Table.findBy?_eq_some.1 (Except.ok.inj hquery)).1

theorem PositiveIds.run {db db' : Database} (h : PositiveIds db) {nid : ℕ} (hnid : 0 < nid)
    {op : Operation} (hrun : op.run nid db = .ok db') : PositiveIds db' := by
  intro user huser
  rcases (Operation.usersEffect hrun).mem_cases user huser with ⟨old, hold, hid⟩ | ⟨-, hid⟩
  · rw [← hid]
    exact h old hold
  · rw [hid]
    exact hnid

theorem PositiveIds.writeTranslation {db db' : Database} (h : PositiveIds db)
    {kind : TranslationKind} {key : kind.Key} {existingItem : Option TranslationMap}
    {m : TranslationMap} (hwrite : db.writeTranslation kind key existingItem m = .ok db') :
    PositiveIds db' := by
  rcases writeTranslation_ok hwrite with ⟨-, rfl⟩ | ⟨hwritten, -⟩
  · exact h
  · intro user huser
    rw [hwritten.users] at huser
    exact h user huser

/-! ## Steps -/

variable {config s}

/-- The request goes on and leaves something in the log. -/
theorem Inv.write (h : Inv s) {i : ℕ} {records : List LogRecord} {stage : Stage}
    (hself : Sound (s.ChangedFor i) (s.auditRecords i ++ records.filter IsAudit) stage) :
    Inv ((s.write i records).setStage i stage) := by
  refine h.move rfl h.once h.positive (fun _ _ _ => Iff.rfl) (fun j hj => ?_) rfl ?_
  · rw [auditRecords_setStage, auditRecords_write, if_neg hj.symm, List.append_nil]
  · rw [auditRecords_setStage, auditRecords_write, if_pos rfl]
    exact hself

/-- A request that is over before it has changed anything. -/
theorem Inv.refuse (h : Inv s) {i : ℕ} {request : Request} {r : ChangeRequest}
    {state : RequestState} {outcome : Outcome} (hrecords : s.auditRecords i = [])
    (hchanged : ∀ u, ¬ s.ChangedFor i u) (haudited : Audited request state) :
    Inv (s.setStage i (.answered request r state outcome)) :=
  h.setStage ⟨hrecords, haudited, fun u hu => absurd hu (hchanged u)⟩

/-- A commit changes something for the actor or nothing. -/
theorem Inv.commit (h : Inv s) {i : ℕ} {request : Request} {r : ChangeRequest}
    {state : RequestState} {actor : CurrentActor} {result : Except CrudError Database}
    (hrecords : s.auditRecords i = []) (hchanged : ∀ u, ¬ s.ChangedFor i u)
    (haudited : Audited request state) (hacts : Acts state actor)
    (hpositive : ∀ db, result = .ok db → PositiveIds db) (fault : Fault) (statusCode : ℕ) :
    Inv (s.commit i request r state actor fault result statusCode) := by
  have hdone : ∀ db outcome, result = .ok db → Inv (({ s with
      db, changes := (i, actor.userId) :: s.changes } : Api).setStage i
        (.answered request r state outcome)) := by
    intro db outcome hok
    refine h.move rfl ?_ (hpositive db hok) ?_ (fun _ _ => rfl) rfl ?_
    · refine List.nodup_cons.2 ⟨fun hmem => ?_, h.once⟩
      obtain ⟨⟨i', u⟩, hold, heq⟩ := List.mem_map.1 hmem
      cases heq
      exact hchanged u hold
    · intro j hj u
      refine List.mem_cons.trans (or_iff_right fun heq => hj ?_)
      exact congrArg Prod.fst heq
    · refine ⟨hrecords, haudited, fun u hu => ?_⟩
      rcases List.mem_cons.1 hu with heq | hold
      · cases heq
        exact ⟨hacts.1, actor, hacts.2, rfl⟩
      · exact absurd hold (hchanged u)
  cases result with
  | error e => cases fault <;> exact h.refuse hrecords hchanged haudited
  | ok db =>
    cases fault with
    | before => exact h.refuse hrecords hchanged haudited
    | none => exact hdone db _ rfl
    | after => exact hdone db _ rfl

theorem Inv.authorize (h : Inv s) {i : ℕ} {request : Request} {r : ChangeRequest}
    {state : RequestState} {payload : TokenPayload} (hrecords : s.auditRecords i = [])
    (hchanged : ∀ u, ¬ s.ChangedFor i u) (haudited : Audited request state) :
    Inv (s.authorize i request r state payload) := by
  unfold Api.authorize
  cases hactor : getCurrentActor s.db payload with
  | error e => exact h.refuse hrecords hchanged haudited
  | ok actor =>
    have hacts : Acts { state with currentActor := some actor } actor := by
      obtain ⟨user, huser, hid⟩ := mem_users_of_getCurrentActor hactor
      refine ⟨?_, rfl⟩
      rw [hid]
      exact h.positive user huser
    have hadmitted : Inv (s.setStage i
        (.admitted request r { state with currentActor := some actor } actor)) :=
      h.setStage ⟨hrecords, hchanged, haudited, hacts⟩
    dsimp only
    split
    · exact hadmitted
    · split
      · exact h.refuse hrecords hchanged haudited
      · exact hadmitted

theorem Audited.warn {request : Request} {state : RequestState} (h : Audited request state)
    (errorType : Option String) :
    Audited request (warnActorSubjectExtractionFailed request state errorType).1 := by
  rw [warnActorSubjectExtractionFailed]
  split_ifs
  · exact h
  · exact h

theorem Inv.runDependencies (h : Inv s) {i : ℕ} {request : Request} {r : ChangeRequest}
    {state : RequestState} (hrecords : s.auditRecords i = [])
    (hchanged : ∀ u, ¬ s.ChangedFor i u) (haudited : Audited request state) (fault : Fault) :
    Inv (s.runDependencies i request r state fault) := by
  have hwarned : ∀ errorType outcome,
      Inv ((s.write i
        (s.loggers.emit (warnActorSubjectExtractionFailed request state errorType).2)).setStage i
          (.answered request r (warnActorSubjectExtractionFailed request state errorType).1
            outcome)) := by
    intro errorType outcome
    refine h.write ?_
    rw [hrecords, emit_filter_of_nil s.loggers (warn_filter request state errorType)]
    exact ⟨rfl, haudited.warn errorType, fun u hu => absurd hu (hchanged u)⟩
  unfold Api.runDependencies
  cases r.verified with
  | error rejection =>
    dsimp only
    cases rejection.decodeError with
    | none => exact h.refuse hrecords hchanged haudited
    | some errorType => exact hwarned _ _
  | ok payload =>
    cases fault with
    | none => exact h.authorize hrecords hchanged haudited
    | before | after => exact h.refuse hrecords hchanged haudited

theorem Inv.proceed (h : Inv s) {i nid : ℕ} (hnid : 0 < nid) (fault : Fault) :
    Inv (s.proceed i nid fault (s.stages i)) := by
  have hsound := h.sound i
  cases hstage : s.stages i with
  | fresh | answered request r state outcome | closed request response => exact h
  | arrived request r state =>
    rw [hstage] at hsound
    obtain ⟨hrecords, hchanged, haudited⟩ := hsound
    exact h.runDependencies hrecords hchanged haudited fault
  | admitted request r state actor =>
    rw [hstage] at hsound
    obtain ⟨hrecords, hchanged, haudited, hacts⟩ := hsound
    cases hchange : r.change with
    | rbac op =>
      simp only [Api.proceed, hchange]
      exact h.commit hrecords hchanged haudited hacts (fun db hrun => h.positive.run hnid hrun)
        fault (successStatus op)
    | translation kind key data =>
      simp only [Api.proceed, hchange]
      cases fault with
      | before | after => exact h.refuse hrecords hchanged haudited
      | none =>
        dsimp only
        split
        · exact h.refuse hrecords hchanged haudited
        · exact h.setStage ⟨hrecords, hchanged, haudited, hacts⟩
  | loaded request r state actor existingItem =>
    rw [hstage] at hsound
    obtain ⟨hrecords, hchanged, haudited, hacts⟩ := hsound
    cases hchange : r.change with
    | rbac op =>
      simp only [Api.proceed, hchange]
      exact h
    | translation kind key data =>
      simp only [Api.proceed, hchange]
      exact h.commit hrecords hchanged haudited hacts
        (fun db hwrite => h.positive.writeTranslation hwrite) fault 200

/-- The record is made of the actor on `request.state`. -/
theorem Inv.respond (h : Inv s) (haudit : config.auditLogEnabled = true) (i elapsedMs : ℕ) :
    Inv (s.step config (.respond i elapsedMs)) := by
  have hsound := h.sound i
  simp only [step]
  cases hstage : s.stages i with
  | fresh | arrived request r state | admitted request r state actor
  | loaded request r state actor existingItem | closed request response => exact h
  | answered request r state outcome =>
    rw [hstage] at hsound
    obtain ⟨hrecords, ⟨hshould, hunresolved⟩, hnames⟩ := hsound
    refine h.write fun userId hchanged => ?_
    rw [hrecords, List.nil_append, closeRequest_filter config haudit h.loggers hshould,
      extractActorSubject_of_names hunresolved (hnames userId hchanged)]

/-- The ids that the database gives are positive, and nothing configures the loggers anew. -/
def Regular : ApiEvent → Prop
  | .external db => PositiveIds db
  | .fileConfig _ => False
  | .proceed _ nid _ => 0 < nid
  | .arrive .. | .respond .. => True

theorem Inv.step (h : Inv s) (haudit : config.auditLogEnabled = true) {event : ApiEvent}
    (hevent : Regular event) : Inv (s.step config event) := by
  cases event with
  | external db => exact ⟨h.once, hevent, h.loggers, h.sound⟩
  | fileConfig existing => exact hevent.elim
  | arrive i r =>
    have hsound := h.sound i
    simp only [Api.step]
    split
    · rename_i method path hstage hendpoint
      rw [hstage] at hsound
      exact h.setStage ⟨hsound.1, hsound.2, shouldAuditRequest_of_endpoint hendpoint, rfl, rfl⟩
    · exact h
  | proceed i nid fault => exact h.proceed hevent fault
  | respond i elapsedMs => exact h.respond haudit i elapsedMs

/-! ## Levels above `INFO` -/

/-- The loggers are left alone, and what is recorded has got through. -/
def Records (s t : Api) : Prop :=
  t.loggers = s.loggers ∧ ∃ i records,
    t.log = s.log ++ (s.loggers.emit records).map fun record => (i, record)

theorem Records.of_same {t : Api} (hloggers : t.loggers = s.loggers) (hlog : t.log = s.log) :
    Records s t := ⟨hloggers, 0, [], hlog.trans (List.append_nil _).symm⟩

theorem records_commit (i : ℕ) (request : Request) (r : ChangeRequest) (state : RequestState)
    (actor : CurrentActor) (fault : Fault) (result : Except CrudError Database)
    (statusCode : ℕ) : Records s (s.commit i request r state actor fault result statusCode) := by
  cases result <;> cases fault <;> exact .of_same rfl rfl

theorem records_authorize (i : ℕ) (request : Request) (r : ChangeRequest) (state : RequestState)
    (payload : TokenPayload) : Records s (s.authorize i request r state payload) := by
  unfold authorize
  cases getCurrentActor s.db payload with
  | error e => exact .of_same rfl rfl
  | ok actor =>
    dsimp only
    split
    · exact .of_same rfl rfl
    · split <;> exact .of_same rfl rfl

theorem records_runDependencies (i : ℕ) (request : Request) (r : ChangeRequest)
    (state : RequestState) (fault : Fault) :
    Records s (s.runDependencies i request r state fault) := by
  unfold runDependencies
  cases r.verified with
  | error rejection =>
    dsimp only
    cases rejection.decodeError with
    | none => exact .of_same rfl rfl
    | some errorType => exact ⟨rfl, i, _, rfl⟩
  | ok payload =>
    cases fault with
    | none => exact records_authorize _ _ _ _ _
    | before | after => exact .of_same rfl rfl

theorem records_proceed (i nid : ℕ) (fault : Fault) (stage : Stage) :
    Records s (s.proceed i nid fault stage) := by
  cases stage with
  | fresh | answered request r state outcome | closed request response => exact .of_same rfl rfl
  | arrived request r state => exact records_runDependencies _ _ _ _ _
  | admitted request r state actor =>
    simp only [proceed]
    cases r.change with
    | rbac op => exact records_commit _ _ _ _ _ _ _ _
    | translation kind key data =>
      cases fault with
      | none =>
        dsimp only
        split
        · exact .of_same rfl rfl
        · exact .of_same rfl rfl
      | before | after => exact .of_same rfl rfl
  | loaded request r state actor existingItem =>
    simp only [proceed]
    cases r.change with
    | rbac op => exact .of_same rfl rfl
    | translation kind key data => exact records_commit _ _ _ _ _ _ _ _

/-- Every step but one that configures the loggers. -/
theorem step_log (event : ApiEvent) :
    (∃ existing, event = .fileConfig existing) ∨ Records s (s.step config event) := by
  cases event with
  | fileConfig existing => exact Or.inl ⟨existing, rfl⟩
  | external db => exact Or.inr (.of_same rfl rfl)
  | proceed i nid fault => exact Or.inr (records_proceed i nid fault (s.stages i))
  | arrive i r =>
    right
    simp only [step]
    split
    · exact .of_same rfl rfl
    · exact .of_same rfl rfl
  | respond i elapsedMs =>
    right
    simp only [step]
    split
    · rename_i request r state outcome _
      cases outcome with
      | response statusCode => exact ⟨rfl, i, _, rfl⟩
      | exception errorType => exact ⟨rfl, i, _, rfl⟩
    · exact .of_same rfl rfl

theorem emit_filter_of_level {loggers : Loggers} (hlevel : infoLevel < loggers.level)
    (records : List LogRecord) : (loggers.emit records).filter IsAudit = [] := by
  rw [Loggers.emit, List.filter_filter, List.filter_eq_nil_iff]
  intro record _ hboth
  obtain ⟨haudit, hpasses⟩ := Bool.and_eq_true_iff.1 hboth
  cases record with
  | audit requestId method path statusCode clientHost actor =>
    rw [passes_audit, decide_eq_true hlevel, Bool.or_true] at hpasses
    cases hpasses
  | request | actorSubjectExtractionFailed | unhandledRequestException => cases haudit

/-- Above the level `INFO` a step leaves the audit log alone; a migration sets a level above it. -/
theorem step_silent (hlevel : infoLevel < s.loggers.level) (event : ApiEvent) :
    infoLevel < (s.step config event).loggers.level ∧
    (s.step config event).auditLog = s.auditLog := by
  have hwarning : infoLevel < warningLevel := by decide
  rcases @step_log config s event with ⟨existing, rfl⟩ | ⟨hloggers, i, records, hlog⟩
  · exact ⟨hwarning, rfl⟩
  · refine ⟨hloggers ▸ hlevel, ?_⟩
    have hnone : ((s.loggers.emit records).map fun record => (i, record)).filter
        (fun entry => IsAudit entry.2) = [] := by
      rw [List.filter_map]
      exact List.map_eq_nil_iff.2 (emit_filter_of_level hlevel records)
    rw [auditLog, hlog, List.filter_append, hnone, List.append_nil]
    rfl

/-- From there on no run adds an audit record. -/
theorem always_silent (hlevel : infoLevel < s.loggers.level) (events : List ApiEvent) :
    Transition.Always (Api.step config) (fun t => t.auditLog = s.auditLog) s events := by
  have hboth : Transition.Always (Api.step config)
      (fun t => infoLevel < t.loggers.level ∧ t.auditLog = s.auditLog) s events := by
    refine Transition.Always.of_step (fun t event ht => ?_) ⟨hlevel, rfl⟩ events
    obtain ⟨habove, hsame⟩ := @step_silent config t ht.1 event
    exact ⟨habove, hsame.trans ht.2⟩
  exact hboth.mono fun t ht => ht.2

/-! ## Every run -/

/-- With the audit log enabled and a level that lets its records pass, a request that has changed
something has one audit record about its response, which names the user, as long as the loggers are
as `setup_logging` has left them; after an automatic migration nothing is added to the audit log. -/
theorem always_accountable (haudit : config.auditLogEnabled = true)
    (hlevel : config.logLevel ≤ infoLevel) {db : Database} (hdb : PositiveIds db)
    {events : List ApiEvent} (hevents : ∀ event ∈ events, Regular event) :
    Transition.Always (Api.step config) Accountable (start config db) events ∧
    ∀ existing later, Transition.Always (Api.step config)
      (fun t => t.auditLog =
        (Transition.runFrom (Api.step config) (start config db) events).auditLog)
      ((Transition.runFrom (Api.step config) (start config db) events).step config
        (.fileConfig existing)) later := by
  have hinv : Transition.Always (Api.step config) Inv (start config db) events :=
    Transition.Always.of_along (fun _ _ h hevent => h.step haudit hevent)
      (inv_start config hdb hlevel) (Transition.along_of_forall hevents _)
  refine ⟨hinv.mono fun s h => h.accountable, fun existing later => ?_⟩
  have hwarning : infoLevel < ((Transition.runFrom (Api.step config) (start config db)
      events).step config (.fileConfig existing)).loggers.level :=
    show infoLevel < warningLevel by decide
  exact always_silent hwarning later

/-- A helper creates a student. -/
def studentRequest : ChangeRequest where
  change := .rbac (.createUserAdmin "student" "hash" 6)
  headers := [("x-request-id", "r1")]
  client := some "10.0.0.1"
  freshId := "f1"
  verified := .ok ⟨some (.str "helper"), some (.int 1)⟩

theorem always_accountable_sample :
    (let config : Config := ⟨false, true, infoLevel⟩
    let events : List ApiEvent :=
      [.arrive 0 studentRequest, .arrive 1 studentRequest, .proceed 0 2 .none, .proceed 1 2 .none,
        .proceed 0 2 .none, .proceed 1 3 .none, .respond 1 15, .respond 0 12]
    let last := Transition.runFrom (Api.step config) (start config helperDatabase) events
    (Transition.Always (Api.step config) Accountable (start config helperDatabase) events ∧
      ∀ existing later, Transition.Always (Api.step config) (fun t => t.auditLog = last.auditLog)
        (last.step config (.fileConfig existing)) later) ∧
    last.changes = [(0, 1)] ∧ last.auditRecords 0 =
      [.audit "r1" "POST" "/api/v1/rbac/users" 201 "10.0.0.1" (some "uid:1")]) := by
  refine ⟨always_accountable rfl le_rfl ?_ ?_, ?_, ?_⟩
  · change ∀ user ∈ helperDatabase.users.rows, 0 < user.id
    decide +kernel
  · simp only [List.forall_mem_cons, Regular]
    exact ⟨trivial, trivial, Nat.two_pos, Nat.two_pos, Nat.two_pos, Nat.succ_pos 2, trivial,
      trivial, fun _ h => absurd h List.not_mem_nil⟩
  · decide +kernel
  · decide +kernel

/-! ## Production -/

/-- In production, without a level in the settings, nothing is recorded, although the audit log is
enabled by default. -/
theorem production_defaults_record_nothing {settings : Settings}
    (henvironment : settings.environment = "production") (hlevel : settings.logLevel = none)
    (hconfig : settings.config = .ok config) (db : Database) (events : List ApiEvent) :
    Transition.Always (Api.step config) (fun s => ∀ entry ∈ s.log, IsAudit entry.2 = false)
      (start config db) events := by
  have hnormalized : normalizeLogLevel none = .ok none := by decide +kernel
  rw [Settings.config, hlevel, hnormalized, henvironment] at hconfig
  cases hconfig
  have hdefault : infoLevel < coerceLogLevel (defaultLogLevel "production") := by decide +kernel
  refine (always_silent hdefault events).mono fun s hlog entry hmem => ?_
  exact Bool.eq_false_of_not_eq_true (List.filter_eq_nil_iff.1 hlog entry hmem)

theorem production_defaults_record_nothing_sample :
    (∃ config, Settings.config ⟨"production", none, none, none⟩ = .ok config ∧
      config.auditLogEnabled = true ∧ Transition.Always (Api.step config)
        (fun s => ∀ entry ∈ s.log, IsAudit entry.2 = false) (start config helperDatabase)
        [.arrive 0 studentRequest, .proceed 0 2 .none, .proceed 0 2 .none, .fileConfig [],
          .respond 0 12]) := by
  have hconfig : Settings.config ⟨"production", none, none, none⟩ =
      .ok ⟨false, true, warningLevel⟩ := by decide +kernel
  exact ⟨_, hconfig, rfl, production_defaults_record_nothing rfl rfl hconfig helperDatabase _⟩

end Api

end Observability

end AranesLms
