import AranesLms.I18n.Cache
import AranesLms.I18n.Crud
import AranesLms.UserRole.Middlewares

/-!
# The translation endpoints and the cache

The endpoints of `src/i18n/endpoints/`, with what they do to the cache.  A request comes with the
actor that its token resolves to; a body that the schema rejects does not reach an endpoint.  The
tables are taken as they are stored: a column may hold any JSON value.
-/

namespace AranesLms

variable {ω : Type} {kind : TranslationKind}

namespace TranslationKind

/-- `I18N_CAN_READ_SMALL` and `I18N_CAN_READ_LARGE`. -/
def canRead : TranslationKind → String
  | small => i18nCanReadSmall
  | large => i18nCanReadLarge

def canCreate : TranslationKind → String
  | small => i18nCanCreateSmall
  | large => i18nCanCreateLarge

def canPatch : TranslationKind → String
  | small => i18nCanPatchSmall
  | large => i18nCanPatchLarge

/-- The texts of `I18nSmallNotFoundError` and `I18nLargeNotFoundError`. -/
def notFound : TranslationKind → String
  | small => "i18n small data not found"
  | large => "i18n large data not found"

end TranslationKind

/-! ## Rows -/

/-- The JSON value in a column `title` or `description`. -/
inductive TranslationColumn (ω : Type) where
  | object (data : TranslationData ω)
  | null
  | other (v : ω)

/-- The attribute of a loaded row; `MutableDict` refuses a value that is neither an object nor
`null`. -/
def TranslationColumn.load : TranslationColumn ω → Except HttpException (Option (TranslationData ω))
  | object data => .ok (some data)
  | null => .ok none
  | other _ => .error ⟨500, "Internal Server Error"⟩

/-- A table of translations. -/
abbrev TranslationTable (ω : Type) (kind : TranslationKind) :=
  Finmap fun _ : kind.Key => TranslationColumn ω

/-- `translate_small` and `translate_large`. -/
abbrev TranslationTables (ω : Type) := (kind : TranslationKind) → TranslationTable ω kind

/-- `serialize_small` and `serialize_large`. -/
def serializeTranslation (key : kind.Key) (data : Option (TranslationData ω)) :
    TranslationItem ω kind :=
  ⟨key, data.getD ∅⟩

/-- The serialised result of `list_small` and `list_large` of `src/i18n/crud.py`. -/
def listTranslations (table : TranslationTable ω kind) :
    Except HttpException (List (TranslationItem ω kind)) :=
  (sortedRows table).mapM fun (key, column) => do
    let data ← column.load
    return serializeTranslation key data

/-- `get_small_optional` and `get_large_optional`, with the loaded column of the row. -/
def getTranslationOptional (table : TranslationTable ω kind) (key : kind.Key) :
    Except HttpException (Option (Option (TranslationData ω))) :=
  match table.lookup key with
  | none => .ok none
  | some column => some <$> column.load

/-- The serialised result of `get_small_by_key` and `get_large`. -/
def getTranslation (table : TranslationTable ω kind) (key : kind.Key) :
    Except HttpException (TranslationItem ω kind) := do
  match ← getTranslationOptional table key with
  | some data => return serializeTranslation key data
  | none => throw ⟨404, kind.notFound⟩

/-- `upsert_small` and `upsert_large` up to the commit: the item and the table it leaves. -/
def upsertTranslation (table : TranslationTable ω kind) (actor : CurrentActor)
    (payload : TranslationSchema ω kind) :
    Except HttpException (TranslationItem ω kind × TranslationTable ω kind) := do
  let key := payload.val.key
  let existingItem ← getTranslationOptional table key
  let permissionKey := if existingItem.isNone then kind.canCreate else kind.canPatch
  let _ ← requirePermission permissionKey actor
  let data := payload.val.data ∪ (existingItem.getD none).getD ∅
  return (serializeTranslation key (some data), table.insert key (.object data))

/-! ## Endpoints -/

/-- The tables and the cache. -/
structure I18nApp (ω : Type) where
  tables : TranslationTables ω
  redis : TranslationRedis ω

/-- The body of a response. -/
inductive TranslationResponse (ω : Type) where
  | item (kind : TranslationKind) (item : TranslationItem ω kind)
  | items (kind : TranslationKind) (items : List (TranslationItem ω kind))

namespace I18nApp

/-- The response of an endpoint and the state it leaves. -/
abbrev Result (ω : Type) := Except HttpException (TranslationResponse ω) × I18nApp ω

variable (s : I18nApp ω)

/-- The common body of `list_small` and `list_large`. -/
def list (kind : TranslationKind) (actor : CurrentActor) : Result ω :=
  match requirePermission kind.canRead actor with
  | .error e => (.error e, s)
  | .ok _ =>
    match s.redis.getList kind with
    | (some items, redis) => (.ok (.items kind items), { s with redis })
    | (none, redis) =>
      match listTranslations (s.tables kind) with
      | .ok items => (.ok (.items kind items), { s with redis := redis.setList items })
      | .error e => (.error e, { s with redis })

/-- The common body of `get_small` and `get_large`. -/
def get (kind : TranslationKind) (key : kind.Key) (actor : CurrentActor) : Result ω :=
  match requirePermission kind.canRead actor with
  | .error e => (.error e, s)
  | .ok _ =>
    match s.redis.getItem key with
    | (some item, redis) => (.ok (.item kind item), { s with redis })
    | (none, redis) =>
      match getTranslation (s.tables kind) key with
      | .ok item => (.ok (.item kind item), { s with redis := redis.setItem key item })
      | .error e => (.error e, { s with redis })

/-- The common body of `upsert_small` and `upsert_large`. -/
def upsert (actor : CurrentActor) (payload : TranslationSchema ω kind) : Result ω :=
  match upsertTranslation (s.tables kind) actor payload with
  | .ok (item, table) =>
    (.ok (.item kind item), ⟨Function.update s.tables kind table,
      s.redis.invalidateEntryAndList payload.val.key⟩)
  | .error e => (.error e, s)

def listSmall (actor : CurrentActor) : Result ω := s.list .small actor

def getSmall (key : String) (actor : CurrentActor) : Result ω := s.get .small key actor

def upsertSmall (actor : CurrentActor) (payload : TranslationSchema ω .small) : Result ω :=
  s.upsert actor payload

def listLarge (actor : CurrentActor) : Result ω := s.list .large actor

def getLarge (key1 key2 : String) (actor : CurrentActor) : Result ω :=
  s.get .large (toLex (key1, key2)) actor

def upsertLarge (actor : CurrentActor) (payload : TranslationSchema ω .large) : Result ω :=
  s.upsert actor payload

end I18nApp

/-! ## Requests -/

inductive I18nRequest (ω : Type) where
  | listSmall (actor : CurrentActor)
  | getSmall (key : String) (actor : CurrentActor)
  | upsertSmall (actor : CurrentActor) (payload : TranslationSchema ω .small)
  | listLarge (actor : CurrentActor)
  | getLarge (key1 key2 : String) (actor : CurrentActor)
  | upsertLarge (actor : CurrentActor) (payload : TranslationSchema ω .large)

/-- A request, or the expiry of an entry of the cache. -/
inductive I18nEvent (ω : Type) where
  | request (r : I18nRequest ω)
  | expire (cacheKey : String)

namespace I18nApp

def serve (s : I18nApp ω) : I18nRequest ω → Result ω
  | .listSmall actor => s.listSmall actor
  | .getSmall key actor => s.getSmall key actor
  | .upsertSmall actor payload => s.upsertSmall actor payload
  | .listLarge actor => s.listLarge actor
  | .getLarge key1 key2 actor => s.getLarge key1 key2 actor
  | .upsertLarge actor payload => s.upsertLarge actor payload

/-- One step of the application, with the response it sends. -/
def handle (s : I18nApp ω) :
    I18nEvent ω → Option (Except HttpException (TranslationResponse ω)) × I18nApp ω
  | .request r => (some (s.serve r).1, (s.serve r).2)
  | .expire cacheKey => (none, { s with redis := Function.update s.redis cacheKey none })

end I18nApp

/-! ## The same endpoints without the cache -/

namespace TranslationTables

variable (tables : TranslationTables ω)

/-- The response and the tables it leaves. -/
abbrev Result (ω : Type) := Except HttpException (TranslationResponse ω) × TranslationTables ω

def list (kind : TranslationKind) (actor : CurrentActor) : Result ω :=
  (do
    let _ ← requirePermission kind.canRead actor
    return .items kind (← listTranslations (tables kind)), tables)

def get (kind : TranslationKind) (key : kind.Key) (actor : CurrentActor) : Result ω :=
  (do
    let _ ← requirePermission kind.canRead actor
    return .item kind (← getTranslation (tables kind) key), tables)

def upsert (actor : CurrentActor) (payload : TranslationSchema ω kind) : Result ω :=
  match upsertTranslation (tables kind) actor payload with
  | .ok (item, table) => (.ok (.item kind item), Function.update tables kind table)
  | .error e => (.error e, tables)

def serve : I18nRequest ω → Result ω
  | .listSmall actor => tables.list .small actor
  | .getSmall key actor => tables.get .small key actor
  | .upsertSmall actor payload => tables.upsert actor payload
  | .listLarge actor => tables.list .large actor
  | .getLarge key1 key2 actor => tables.get .large (toLex (key1, key2)) actor
  | .upsertLarge actor payload => tables.upsert actor payload

def handle : I18nEvent ω →
    Option (Except HttpException (TranslationResponse ω)) × TranslationTables ω
  | .request r => (some (tables.serve r).1, (tables.serve r).2)
  | .expire _ => (none, tables)

end TranslationTables

end AranesLms
