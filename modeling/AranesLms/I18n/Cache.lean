import Mathlib.Data.Finmap
import Mathlib.Data.Finset.Sort
import Mathlib.Data.Prod.Lex
import Mathlib.Data.String.Basic
import AranesLms.Http

/-!
# The translation cache

`I18nCacheService` of `src/i18n/cache.py` over a working Redis, with the schemas of
`src/i18n/schemas.py`.  Small and large translations are two kinds of the same thing: they differ
in their keys, in the length of their texts and in the names of their Redis keys.

The rows of the two tables may hold any JSON value (`ω` stands for what is neither a text nor an
object), and the Redis keys are the strings the source builds.  The item with the small key `list`
has the Redis key of the list of all small items; what is found there is told apart by its form.
-/

namespace AranesLms

/-- The two kinds of translations. -/
inductive TranslationKind where
  | small
  | large
  deriving DecidableEq

namespace TranslationKind

/-- The key of a row: `key`, or `(key1, key2)`. -/
abbrev Key : TranslationKind → Type
  | small => String
  | large => String ×ₗ String

instance : (kind : TranslationKind) → LinearOrder kind.Key
  | small => inferInstanceAs (LinearOrder String)
  | large => inferInstanceAs (LinearOrder (String ×ₗ String))

/-- `SMALL_I18N_DATA_MAX_LENGTH` and `LARGE_I18N_DATA_MAX_LENGTH`. -/
def dataMaxLength : TranslationKind → ℕ
  | small => 128
  | large => 3000

/-- The constraints of the schema on the key. -/
def ValidKey : (kind : TranslationKind) → kind.Key → Prop
  | small, key => 1 ≤ key.length ∧ key.length ≤ 128
  | large, key => (ofLex key).1.length ≤ 128 ∧ (ofLex key).2.length ≤ 128

instance : (kind : TranslationKind) → DecidablePred kind.ValidKey
  | small => fun key => inferInstanceAs (Decidable (1 ≤ key.length ∧ key.length ≤ 128))
  | large => fun key =>
    inferInstanceAs (Decidable ((ofLex key).1.length ≤ 128 ∧ (ofLex key).2.length ≤ 128))

/-- `build_small_cache_key` and `build_large_cache_key`. -/
def cacheKey : (kind : TranslationKind) → kind.Key → String
  | small, key => "i18n:small:" ++ key
  | large, key =>
    let (key1, key2) := ofLex key
    "i18n:large:" ++ toString key1.length ++ ":" ++ key1 ++ "|" ++ toString key2.length ++ ":" ++
      key2

/-- `build_small_list_cache_key` and `build_large_list_cache_key`. -/
def listCacheKey : TranslationKind → String
  | small => "i18n:small:list"
  | large => "i18n:large:list"

end TranslationKind

/-! ## Items -/

/-- A value of a JSON object: a text or anything else. -/
inductive TranslationValue (ω : Type) where
  | text (s : String)
  | other (v : ω)
  deriving DecidableEq

/-- A JSON object. -/
abbrev TranslationData (ω : Type) := Finmap fun _ : String => TranslationValue ω

/-- A serialised row: `{"key", "data"}`, or `{"key1", "key2", "data"}`. -/
structure TranslationItem (ω : Type) (kind : TranslationKind) where
  key : kind.Key
  data : TranslationData ω
  deriving DecidableEq

/-- `REQUIRED_LANGUAGES`. -/
def requiredLanguages : List String := ["en", "ru", "uz"]

variable {ω : Type} {kind : TranslationKind}

/-- A value that `_validate_translation_map` accepts. -/
def TranslationValue.Valid (maxLength : ℕ) : TranslationValue ω → Prop
  | text s => s.length ≤ maxLength
  | other _ => False

instance (maxLength : ℕ) : DecidablePred (TranslationValue.Valid (ω := ω) maxLength)
  | .text s => inferInstanceAs (Decidable (s.length ≤ maxLength))
  | .other _ => inferInstanceAs (Decidable False)

/-- What the schema accepts. -/
def TranslationItem.Valid (item : TranslationItem ω kind) : Prop :=
  kind.ValidKey item.key ∧ ∀ lang ∈ item.data.keys, lang ∈ requiredLanguages ∧
    ∀ value ∈ item.data.lookup lang, value.Valid kind.dataMaxLength

instance (item : TranslationItem ω kind) : Decidable item.Valid :=
  inferInstanceAs (Decidable (kind.ValidKey item.key ∧ ∀ lang ∈ item.data.keys,
    lang ∈ requiredLanguages ∧ ∀ value ∈ item.data.lookup lang, value.Valid kind.dataMaxLength))

/-- `I18nSmallSchema` and `I18nLargeSchema`: an item that has been validated. -/
abbrev TranslationSchema (ω : Type) (kind : TranslationKind) :=
  { item : TranslationItem ω kind // item.Valid }

/-- `model_validate`.  Validation coerces nothing, so that `model_dump` gives the item back. -/
def modelValidate (item : TranslationItem ω kind) : Option (TranslationSchema ω kind) :=
  if h : item.Valid then some ⟨item, h⟩ else none

/-! ## Payloads -/

/-- What is stored in Redis: an item, or `{"items": […]}`. -/
inductive TranslationPayload (ω : Type) where
  | item (kind : TranslationKind) (item : TranslationItem ω kind)
  | items (kind : TranslationKind) (items : List (TranslationItem ω kind))

/-- The payload as an item; a payload of another form lacks a field of the schema. -/
def TranslationPayload.item? : (kind : TranslationKind) → TranslationPayload ω →
    Option (TranslationItem ω kind)
  | .small, item .small i => some i
  | .large, item .large i => some i
  | _, _ => none

/-- The field `items` of the payload. -/
def TranslationPayload.items? : (kind : TranslationKind) → TranslationPayload ω →
    Option (List (TranslationItem ω kind))
  | .small, items .small l => some l
  | .large, items .large l => some l
  | _, _ => none

theorem TranslationPayload.item?_eq_some {payload : TranslationPayload ω}
    {i : TranslationItem ω kind} : payload.item? kind = some i ↔ payload = .item kind i := by
  cases kind <;> rcases payload with ⟨_ | _, _⟩ | ⟨_ | _, _⟩ <;> simp [item?]

theorem TranslationPayload.items?_eq_some {payload : TranslationPayload ω}
    {l : List (TranslationItem ω kind)} :
    payload.items? kind = some l ↔ payload = .items kind l := by
  cases kind <;> rcases payload with ⟨_ | _, _⟩ | ⟨_ | _, _⟩ <;> simp [items?]

/-- `_normalize_small_item` and `_normalize_large_item`. -/
def normalizeItem (payload : TranslationPayload ω) (expectedKey : kind.Key) :
    Option (TranslationItem ω kind) := do
  let item ← modelValidate (← payload.item? kind)
  if item.val.key = expectedKey then some item.val else none

/-- `_small_keys_are_strictly_increasing` and `_large_keys_are_strictly_increasing`. -/
def keysAreStrictlyIncreasing (previousKey : Option kind.Key) :
    List (TranslationItem ω kind) → Bool
  | [] => true
  | item :: items =>
    if previousKey.any (item.key ≤ ·) then false
    else keysAreStrictlyIncreasing (some item.key) items

/-- `_normalize_small_list` and `_normalize_large_list`. -/
def normalizeList (items : List (TranslationItem ω kind)) :
    Option (List (TranslationItem ω kind)) := do
  let validated ← items.mapM modelValidate
  let items := validated.map Subtype.val
  if keysAreStrictlyIncreasing none items then some items else none

/-- A normalised item is the one that was stored, and it has the expected key. -/
theorem normalizeItem_eq_some {payload : TranslationPayload ω} {expectedKey : kind.Key}
    {item : TranslationItem ω kind} (h : normalizeItem payload expectedKey = some item) :
    payload = .item kind item ∧ item.key = expectedKey := by
  simp only [normalizeItem, Option.bind_eq_bind, Option.bind_eq_some_iff, modelValidate] at h
  obtain ⟨item', hitem, validated, hvalid, h⟩ := h
  split_ifs at hvalid h with _ hkey
  cases hvalid
  cases h
  exact ⟨TranslationPayload.item?_eq_some.1 hitem, hkey⟩

theorem map_val_of_mapM_modelValidate {items : List (TranslationItem ω kind)}
    {validated : List (TranslationSchema ω kind)} (h : items.mapM modelValidate = some validated) :
    validated.map Subtype.val = items := by
  induction items generalizing validated with
  | nil =>
    cases h
    rfl
  | cons item items ih =>
    simp only [List.mapM_cons, Option.bind_eq_bind, Option.bind_eq_some_iff, modelValidate] at h
    obtain ⟨schema, hitem, rest, hrest, h⟩ := h
    split_ifs at hitem
    cases hitem
    cases h
    rw [List.map_cons, ih hrest]

/-- A normalised list is the one that was stored. -/
theorem normalizeList_eq_some {items items' : List (TranslationItem ω kind)}
    (h : normalizeList items = some items') : items' = items := by
  simp only [normalizeList, Option.bind_eq_bind, Option.bind_eq_some_iff] at h
  obtain ⟨validated, hvalidated, h⟩ := h
  split_ifs at h
  cases h
  exact map_val_of_mapM_modelValidate hvalidated

/-! ## The cache service -/

/-- The content of Redis. -/
abbrev TranslationRedis (ω : Type) := String → Option (TranslationPayload ω)

namespace TranslationRedis

variable (redis : TranslationRedis ω)

/-- `get_small_list` and `get_large_list`. -/
def getList (kind : TranslationKind) :
    Option (List (TranslationItem ω kind)) × TranslationRedis ω :=
  match redis kind.listCacheKey with
  | none => (none, redis)
  | some payload =>
    match (payload.items? kind).bind normalizeList with
    | some items => (some items, redis)
    | none => (none, Function.update redis kind.listCacheKey none)

/-- `set_small_list` and `set_large_list`. -/
def setList (items : List (TranslationItem ω kind)) : TranslationRedis ω :=
  Function.update redis kind.listCacheKey (some (.items kind items))

/-- `get_small` and `get_large`. -/
def getItem (key : kind.Key) : Option (TranslationItem ω kind) × TranslationRedis ω :=
  match redis (kind.cacheKey key) with
  | none => (none, redis)
  | some payload =>
    match normalizeItem payload key with
    | some item => (some item, redis)
    | none => (none, Function.update redis (kind.cacheKey key) none)

/-- `set_small` and `set_large`. -/
def setItem (key : kind.Key) (item : TranslationItem ω kind) : TranslationRedis ω :=
  Function.update redis (kind.cacheKey key) (some (.item kind item))

/-- `invalidate_small_entry_and_list` and `invalidate_large_entry_and_list`. -/
def invalidateEntryAndList (key : kind.Key) : TranslationRedis ω :=
  Function.update (Function.update redis (kind.cacheKey key) none) kind.listCacheKey none

end TranslationRedis

end AranesLms
