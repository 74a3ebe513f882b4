import AranesLms.Gateway.Paths
import AranesLms.UserRole.Middlewares

/-!
# Observation of requests

`src/http/observability.py` and the middleware `_observe_requests` of `src/app.py` around the
handling of a request, with the levels of `src/utils/structured_logging.py` and `src/config.py` and
what `migrations/env.py` makes of the loggers.  A handler leaves its traces on `request.state`, and
the actor of a request is read off them after the response has been made.
-/

namespace AranesLms

namespace Observability

open Gateway (startsWith)

/-- `str.upper`, for ASCII letters. -/
def upper (s : String) : String := String.ofList (s.toList.map Char.toUpper)

/-- `str.lower`, for ASCII letters. -/
def lower (s : String) : String := String.ofList (s.toList.map Char.toLower)

/-! ## Levels -/

/-- `logging.getLevelNamesMapping`. -/
def levelNames : List (String × ℕ) :=
  [("CRITICAL", 50), ("FATAL", 50), ("ERROR", 40), ("WARN", 30), ("WARNING", 30), ("INFO", 20),
    ("DEBUG", 10), ("NOTSET", 0)]

def infoLevel : ℕ := 20

def warningLevel : ℕ := 30

def errorLevel : ℕ := 40

/-- `logging.getLevelName`. -/
def levelName (level : ℕ) : String :=
  match level with
  | 50 => "CRITICAL"
  | 40 => "ERROR"
  | 30 => "WARNING"
  | 20 => "INFO"
  | 10 => "DEBUG"
  | 0 => "NOTSET"
  | n => "Level " ++ toString n

/-- `_default_log_level`. -/
def defaultLogLevel (environment : String) : String :=
  if environment = "production" then "WARNING" else "INFO"

/-- `_normalize_log_level`. -/
def normalizeLogLevel (value : Option String) : Except String (Option String) :=
  let normalized := upper (strip (value.getD ""))
  if normalized = "" then .ok none
  else
    match levelNames.lookup normalized with
    | some level => .ok (some (levelName level))
    | none => .error ("LOG_LEVEL must be one of: " ++
      "CRITICAL, DEBUG, ERROR, FATAL, INFO, NOTSET, WARN, WARNING.")

/-- `_coerce_log_level` of the text in the configuration. -/
def coerceLogLevel (logLevel : String) : ℕ := (levelNames.lookup (upper logLevel)).getD infoLevel

/-- The part of `AppConfig` that the middleware and `setup_logging` read. -/
structure Config where
  requestLogEnabled : Bool
  auditLogEnabled : Bool
  logLevel : ℕ
  deriving DecidableEq

/-- The settings behind it, as `_AppSettings` reads them. -/
structure Settings where
  environment : String
  logLevel : Option String
  requestLogEnabled : Option Bool
  auditLogEnabled : Option Bool

/-- `_apply_runtime_defaults`, and `_coerce_log_level` of the level. -/
def Settings.config (settings : Settings) : Except String Config := do
  let logLevel :=
    (← normalizeLogLevel settings.logLevel).getD (defaultLogLevel settings.environment)
  return ⟨settings.requestLogEnabled.getD (settings.environment != "production"),
    settings.auditLogEnabled.getD true, coerceLogLevel logLevel⟩

/-! ## Requests -/

/-- What the middleware reads of a request. -/
structure Request where
  method : String
  path : String
  headers : Headers
  client : Option String

/-- `request.state`. -/
structure RequestState where
  requestId : Option String := none
  accessTokenPayload : Option TokenPayload := none
  currentUserWithRole : Option (User × Role) := none
  currentActor : Option CurrentActor := none
  actorSubject : Option String := none
  actorSubjectResolved : Bool := false
  actorSubjectWarningEmitted : Bool := false

/-- A response, as far as the middleware and the exception handlers set it. -/
structure Response where
  statusCode : ℕ
  requestId : String

/-- The loggers of `observability.py`. -/
inductive LoggerName where
  | request
  | audit
  | operability
  | security
  deriving DecidableEq

/-- What is logged; `logger` says by whom, and `level` with which of its methods. -/
inductive LogRecord where
  | request (requestId method path : String) (statusCode elapsedMs : ℕ) (clientHost : String)
      (actor : Option String)
  | audit (requestId method path : String) (statusCode : ℕ) (clientHost : String)
      (actor : Option String)
  | actorSubjectExtractionFailed (requestId : Option String) (path : String)
      (errorType : Option String)
  | unhandledRequestException (requestId path errorType : String)
  deriving DecidableEq

def LogRecord.logger : LogRecord → LoggerName
  | request .. => .request
  | audit .. => .audit
  | actorSubjectExtractionFailed .. => .security
  | unhandledRequestException .. => .operability

def LogRecord.level : LogRecord → ℕ
  | request .. | audit .. => infoLevel
  | actorSubjectExtractionFailed .. => warningLevel
  | unhandledRequestException .. => errorLevel

/-- The level of the root logger, which the others inherit, and those that are disabled. -/
structure Loggers where
  level : ℕ
  disabled : List LoggerName
  deriving DecidableEq

/-- `setup_logging` in a new process. -/
def setupLogging (config : Config) : Loggers := ⟨config.logLevel, []⟩

/-- `fileConfig` of `alembic.ini` in `migrations/env.py`: the root logger gets the level `WARN`, and
the loggers that exist by then are disabled. -/
def Loggers.fileConfig (loggers : Loggers) (existing : List LoggerName) : Loggers :=
  ⟨warningLevel, existing ++ loggers.disabled⟩

/-- `_proxy_to_logger`: whether a record gets through. -/
def Loggers.passes (loggers : Loggers) (record : LogRecord) : Bool :=
  !(loggers.disabled.contains record.logger || record.level < loggers.level)

def Loggers.emit (loggers : Loggers) (records : List LogRecord) : List LogRecord :=
  records.filter loggers.passes

/-! ## The actor -/

/-- `_stable_actor_subject_from_user_id`; in Python `True` is an integer above 0 and prints as
itself. -/
def stableActorSubjectFromUserId : Claim → Option String
  | .int n => if 0 < n then some ("uid:" ++ toString n) else none
  | .bool b => if b then some "uid:True" else none
  | .str s => (parseDigits s).bind fun n => if 0 < n then some ("uid:" ++ toString n) else none
  | .other => none

/-- `_stable_actor_subject_from_request_state`. -/
def stableActorSubjectFromRequestState (state : RequestState) : Option String :=
  let fromId := fun userId : ℕ => stableActorSubjectFromUserId (.int userId)
  (state.currentActor.bind fun actor => fromId actor.userId).or
    (state.currentUserWithRole.bind fun pair => fromId pair.1.id)

/-- `_stable_actor_subject_from_payload`. -/
def stableActorSubjectFromPayload (payload : TokenPayload) : Option String :=
  (payload.uid.bind stableActorSubjectFromUserId).or
    (match payload.sub with
    | some (.str username) => if username = "" then none else some username
    | _ => none)

/-- `warn_actor_subject_extraction_failed`. -/
def warnActorSubjectExtractionFailed (request : Request) (state : RequestState)
    (errorType : Option String) : RequestState × List LogRecord :=
  if state.actorSubjectWarningEmitted then (state, [])
  else ({ state with actorSubjectWarningEmitted := true },
    [.actorSubjectExtractionFailed state.requestId request.path errorType])

/-- The text of the first header of a name. -/
def header? (request : Request) (name : String) : Option String :=
  (request.headers.getlist name).head?

/-- The token behind `Bearer`, if there is one. -/
def bearerToken? (request : Request) : Option String :=
  let authHeader := strip ((header? request "authorization").getD "")
  if startsWith (lower authHeader) "bearer " then
    let token := strip (String.ofList (authHeader.toList.drop 7))
    if token = "" then none else some token
  else none

/-- `extract_actor_subject`. -/
def extractActorSubject (request : Request) (state : RequestState) :
    Option String × RequestState × List LogRecord :=
  match state.actorSubject with
  | some cached => (some cached, state, [])
  | none =>
    if state.actorSubjectResolved then (none, state, [])
    else
      match stableActorSubjectFromRequestState state with
      | some actorSubject =>
        (some actorSubject,
          { state with actorSubject := some actorSubject, actorSubjectResolved := true }, [])
      | none =>
        if (bearerToken? request).isNone then
          (none, { state with actorSubjectResolved := true }, [])
        else
          match state.accessTokenPayload with
          | none =>
            let (state, warnings) := warnActorSubjectExtractionFailed request state none
            (none, { state with actorSubjectResolved := true }, warnings)
          | some payload =>
            let actorSubject := stableActorSubjectFromPayload payload
            (actorSubject, { state with actorSubject, actorSubjectResolved := true }, [])

/-! ## The middleware -/

/-- `_AUDITED_PREFIXES`. -/
def auditedPrefixes : List String := ["/api/v1/rbac", "/api/v1/i18n"]

/-- `_AUDITED_EXACT_PATHS`. -/
def auditedExactPaths : List String := ["/api/v1/auth/reset"]

def shouldAuditRequest (path method : String) : Bool :=
  if ["GET", "HEAD", "OPTIONS"].contains (upper method) then false
  else auditedExactPaths.contains path || auditedPrefixes.any fun audited => startsWith path audited

def needsRequestObservation (config : Config) (method path : String) : Bool :=
  if config.requestLogEnabled then true
  else if !config.auditLogEnabled then false
  else shouldAuditRequest path method

def clientHost (request : Request) : String :=
  match request.client with
  | some host => if host = "" then "unknown" else host
  | none => "unknown"

/-- `record_request_observation`. -/
def recordRequestObservation (config : Config) (request : Request) (state : RequestState)
    (statusCode elapsedMs : ℕ) (requestId : String) : RequestState × List LogRecord :=
  let shouldLogRequest := config.requestLogEnabled
  let shouldLogAudit := config.auditLogEnabled && shouldAuditRequest request.path request.method
  if !shouldLogRequest && !shouldLogAudit then (state, [])
  else
    let (actorSubject, state, warnings) := extractActorSubject request state
    let requestRecord := if shouldLogRequest then
      [LogRecord.request requestId request.method request.path statusCode elapsedMs
        (clientHost request) actorSubject] else []
    let auditRecord := if shouldLogAudit then
      [LogRecord.audit requestId request.method request.path statusCode (clientHost request)
        actorSubject] else []
    (state, warnings ++ requestRecord ++ auditRecord)

/-- The `request_id` that `_observe_requests` takes, given a fresh one. -/
def takeRequestId (request : Request) (freshId : String) : String :=
  match header? request "x-request-id" with
  | some requestId => if requestId = "" then freshId else requestId
  | none => freshId

/-- How a handler ends: with the status of a response, or with an exception of a class. -/
inductive Outcome where
  | response (statusCode : ℕ)
  | exception (errorType : String)

/-- The beginning of `_observe_requests`. -/
def openRequest (request : Request) (freshId : String) : RequestState :=
  { requestId := some (takeRequestId request freshId) }

/-- The end of `_observe_requests`, when the handler has left its traces on `request.state`. -/
def closeRequest (config : Config) (loggers : Loggers) (request : Request) (freshId : String)
    (state : RequestState) (outcome : Outcome) (elapsedMs : ℕ) : Response × List LogRecord :=
  let requestId := takeRequestId request freshId
  let (statusCode, failure) := match outcome with
    | .response statusCode => (statusCode, [])
    | .exception errorType =>
      (500, [LogRecord.unhandledRequestException (state.requestId.getD requestId) request.path
        errorType])
  let records := if needsRequestObservation config request.method request.path then
    (recordRequestObservation config request state statusCode elapsedMs requestId).2 else []
  (⟨statusCode, requestId⟩, loggers.emit (failure ++ records))

end Observability

end AranesLms
