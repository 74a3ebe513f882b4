import AranesLms.Gateway.Paths
import AranesLms.Lib.Except
import AranesLms.Lib.Json
import Mathlib.Data.List.Sort
import Mathlib.Data.String.Basic

/-!
# Merging OpenAPI documents

`merge_openapi_documents` of `gateway_server/gateway.py`.  A document is whatever a service has
answered; where Python raises on a value that is no object, the merge ends with a `PyError`.
`mergeOpenapiDocuments_eq_ok` says when it does not and what it gives then: the contributions of the
documents (`publishedPaths`, `namespacedSchemas` and their tags), one after the other.
-/

namespace AranesLms

namespace Gateway

/-- A Python exception. -/
inductive PyError where
  | attributeError
  | typeError
  | valueError
  | overflowError
  | runtimeError
  | osError
  | timeoutError
  | invalidUrl
  deriving DecidableEq

/-! ## References to schemas -/

/-- `schema_prefix`. -/
def schemaPrefix : String := "#/components/schemas/"

def buildOpenapiRef (serviceName schemaName : String) : String :=
  "#/components/schemas/" ++ serviceName ++ "_" ++ schemaName

/-- `str.removeprefix`. -/
def removePrefix (s t : String) : String :=
  if startsWith s t then String.ofList (s.toList.drop t.length) else s

def rewriteSchemaRefs (serviceName : String) : Json → Json
  | .object n keys inj values => .object n keys inj fun i =>
    match values i with
    | .str value =>
      if keys i = "$ref" ∧ startsWith value schemaPrefix then
        .str (buildOpenapiRef serviceName (removePrefix value schemaPrefix))
      else .str value
    | _ => rewriteSchemaRefs serviceName (values i)
  | .array n elems => .array n fun i => rewriteSchemaRefs serviceName (elems i)
  | payload => payload

/-! ## One document -/

/-- The methods that the mergers look for in a path item. -/
def methods : List String := ["get", "post", "put", "patch", "delete", "head", "options"]

/-- `path_name.strip("/").replace("/", "_").replace("-", "_") or default`. -/
def pathPrefix (pathName default : String) : String :=
  let stripped := ((pathName.toList.dropWhile (· = '/')).reverse.dropWhile (· = '/')).reverse
  if stripped = [] then default
  else String.ofList (stripped.map fun c => if c = '/' ∨ c = '-' then '_' else c)

/-- `operation[key] = value`, for the operations of a path item. -/
def setInOperations (key : String) (value : String → Json) (item : OrderedDict String Json) :
    OrderedDict String Json :=
  item.mapVal fun method operation =>
    match operation.asDict? with
    | some d => if method ∈ methods then .obj (d.set key (value method)) else operation
    | none => operation

/-- `merged` and `seen_tags`. -/
structure Merged where
  paths : OrderedDict String Json
  schemas : OrderedDict String Json
  tags : List Json
  seenTags : List String

/-- What the attributes of a dictionary are read from. -/
def asDict (j : Json) : Except PyError (OrderedDict String Json) :=
  match j.asDict? with
  | some d => .ok d
  | none => .error .attributeError

/-- `d.get(key, {})`. -/
def getObject (d : OrderedDict String Json) (key : String) : Json :=
  (d.get? key).getD (.obj ∅)

/-- What a `for` loop over the value goes through. -/
def iterate : Json → Except PyError (List Json)
  | .array _ elems => .ok (List.ofFn elems)
  | .object _ keys _ _ => .ok (List.ofFn fun i => .str (keys i))
  | .str s => .ok (s.toList.map fun c => .str (String.singleton c))
  | _ => .error .typeError

def addPath (merged : Merged) (path : String × Json) : Except PyError Merged := do
  let item ← asDict path.2
  let operationId := fun method => Json.str (pathPrefix path.1 "path" ++ "_" ++ method)
  return { merged with
    paths := merged.paths.set path.1 (.obj (setInOperations "operationId" operationId item)) }

def addSchema (serviceName : String) (merged : Merged) (schema : String × Json) : Merged :=
  { merged with
    schemas := merged.schemas.set (serviceName ++ "_" ++ schema.1)
      (rewriteSchemaRefs serviceName schema.2) }

def addTag (merged : Merged) (tag : Json) : Except PyError Merged := do
  let d ← asDict tag
  match d.get? "name" with
  | some (.str name) =>
    if name ∈ merged.seenTags then return merged
    else return { merged with tags := merged.tags ++ [tag], seenTags := name :: merged.seenTags }
  | _ => return merged

/-- The body of the loop over the documents. -/
def addDocument (merged : Merged) (document : String × Json) : Except PyError Merged := do
  let (serviceName, document) := document
  let document ← asDict document
  let documentPaths ← asDict (rewriteSchemaRefs serviceName (getObject document "paths"))
  let merged ← (toPublicOpenapiPaths documentPaths serviceName).entries.foldlM addPath merged
  let components ← asDict (getObject document "components")
  let documentSchemas ← asDict (getObject components "schemas")
  let merged := documentSchemas.entries.foldl (addSchema serviceName) merged
  let tags ← iterate ((document.get? "tags").getD (.arr []))
  tags.foldlM addTag merged

/-! ## The merge -/

def Merged.empty : Merged := ⟨∅, ∅, [], []⟩

/-- The members of `merged` at the end, without empty components and tags. -/
def Merged.members (merged : Merged) : List (String × Json) :=
  [("openapi", .str "3.1.0"),
    ("info", .obj ⟨[("title", .str "Process Manager Gateway"), ("version", .str "1.0.0")],
      by decide⟩),
    ("paths", .obj merged.paths)] ++
  (if merged.schemas.entries = [] then []
    else [("components", .obj ⟨[("schemas", .obj merged.schemas)], List.nodup_singleton _⟩)]) ++
  if merged.tags = [] then [] else [("tags", .arr merged.tags)]

def Merged.toJson (merged : Merged) : Json :=
  .obj ((∅ : OrderedDict String Json).setAll merged.members)

/-- `sorted(service_documents.items())`; the names are distinct. -/
def sortedItems {α : Type} (d : OrderedDict String α) : List (String × α) :=
  d.entries.insertionSort fun e e' => e.1 ≤ e'.1

def mergeOpenapiDocuments (serviceDocuments : OrderedDict String Json) : Except PyError Json := do
  let merged ← (sortedItems serviceDocuments).foldlM addDocument Merged.empty
  return merged.toJson

/-! ## What a document contributes -/

/-- The entries of an object. -/
def contents (j : Json) : OrderedDict String Json := j.asDict?.getD ∅

def IsObject (j : Json) : Prop := j.asDict?.isSome

instance (j : Json) : Decidable (IsObject j) := inferInstanceAs (Decidable (_ = true))

def documentPaths (document : Json) : OrderedDict String Json :=
  contents (getObject (contents document) "paths")

def documentSchemas (document : Json) : OrderedDict String Json :=
  contents (getObject (contents (getObject (contents document) "components")) "schemas")

def documentTags (document : Json) : List Json :=
  (iterate (((contents document).get? "tags").getD (.arr []))).toOption.getD []

/-- The path items of a document with their references rewritten, under their published paths. -/
def publicItems (serviceName : String) (document : Json) : OrderedDict String Json :=
  toPublicOpenapiPaths
    (contents (rewriteSchemaRefs serviceName (getObject (contents document) "paths"))) serviceName

/-- A path item with the operation ids of its published path. -/
def publishedItem (pathName : String) (item : Json) : Json :=
  .obj (setInOperations "operationId"
    (fun method => .str (pathPrefix pathName "path" ++ "_" ++ method)) (contents item))

def publishedPaths (serviceName : String) (document : Json) : OrderedDict String Json :=
  (publicItems serviceName document).mapVal publishedItem

/-- The path items of the services under their public paths, each with the name of its service; of
the items with one public path, the last one counts. -/
def contributions (documents : OrderedDict String Json) : OrderedDict String (String × Json) :=
  (∅ : OrderedDict String (String × Json)).setAll
    ((sortedItems documents).flatMap fun e =>
      ((toPublicOpenapiPaths (documentPaths e.2) e.1).mapVal fun _ item => (e.1, item)).entries)

def schemaKey (serviceName schemaName : String) : String := serviceName ++ "_" ++ schemaName

def namespacedSchemas (serviceName : String) (document : Json) : List (String × Json) :=
  (documentSchemas document).entries.map fun e =>
    (schemaKey serviceName e.1, rewriteSchemaRefs serviceName e.2)

/-- The document has the shape that the merge relies on. -/
structure Mergeable (serviceName : String) (document : Json) : Prop where
  isObject : IsObject document
  paths : IsObject (getObject (contents document) "paths")
  items : ∀ e ∈ publicItems serviceName document, IsObject e.2
  components : IsObject (getObject (contents document) "components")
  schemas : IsObject (getObject (contents (getObject (contents document) "components")) "schemas")
  tags : (iterate (((contents document).get? "tags").getD (.arr []))).isOk
  tagObjects : ∀ tag ∈ documentTags document, IsObject tag

/-- The name of a tag, if it is a string. -/
def tagName (tag : Json) : Option String :=
  match (contents tag).get? "name" with
  | some (.str name) => some name
  | _ => none

/-- The tags of all documents, in the order of the names of the services. -/
def allTags (documents : OrderedDict String Json) : List Json :=
  (sortedItems documents).flatMap fun e => documentTags e.2

/-- The tag is the first one of its name. -/
def IsFirstTag (documents : OrderedDict String Json) (tag : Json) : Prop :=
  ∃ name, tagName tag = some name ∧
    (allTags documents).find? (fun tag' => tagName tag' = some name) = some tag

namespace Merged

variable (merged : Merged)

def setPath (path : String × Json) : Merged :=
  { merged with paths := merged.paths.set path.1 (publishedItem path.1 path.2) }

/-- A tag is kept if it has a new name. -/
def noteTag (tag : Json) : Merged :=
  match tagName tag with
  | some name =>
    if name ∈ merged.seenTags then merged
    else { merged with tags := merged.tags ++ [tag], seenTags := name :: merged.seenTags }
  | none => merged

/-- `merged` with the contributions of a document. -/
def add (document : String × Json) : Merged :=
  (documentTags document.2).foldl noteTag { merged with
    paths := merged.paths.setAll (publishedPaths document.1 document.2).entries
    schemas := merged.schemas.setAll (namespacedSchemas document.1 document.2) }

end Merged

/-- `serviceDocuments` merged, before it is given back as a document. -/
def mergedOf (serviceDocuments : OrderedDict String Json) : Merged :=
  (sortedItems serviceDocuments).foldl Merged.add Merged.empty

/-! ## Rewriting references -/

/-- What becomes of a reference. -/
def rewriteRef (serviceName value : String) : String :=
  if startsWith value schemaPrefix then
    buildOpenapiRef serviceName (removePrefix value schemaPrefix)
  else value

/-- The references of a document or of a part of it. -/
def references (j : Json) : List String := j.strsAt "$ref"

theorem rewriteSchemaRefs_eq (serviceName : String) (j : Json) :
    rewriteSchemaRefs serviceName j = j.mapStrAt "$ref" (rewriteRef serviceName) := by
  induction j with
  | array n elems ih =>
    rw [rewriteSchemaRefs, Json.mapStrAt]
    exact congrArg _ (funext ih)
  | object n keys inj values ih =>
    rw [rewriteSchemaRefs, Json.mapStrAt]
    refine congrArg _ (funext fun i => ?_)
    have hi := ih i
    cases hvalue : values i with
    | str value =>
      by_cases hkey : keys i = "$ref"
      · simp only [Json.strUnder, hkey, true_and, if_true, rewriteRef]
        split_ifs <;> rfl
      · simp only [Json.strUnder, hkey, false_and, if_false]
        rfl
    | _ =>
      rw [hvalue] at hi
      exact hi
  | _ => rfl

/-- Every reference is rewritten, and nothing else is a reference afterwards. -/
theorem references_rewriteSchemaRefs (serviceName : String) (j : Json) :
    references (rewriteSchemaRefs serviceName j) =
      (references j).map (rewriteRef serviceName) := by
  rw [rewriteSchemaRefs_eq]
  exact Json.strsAt_mapStrAt j

theorem removePrefix_append (s t : String) : removePrefix (s ++ t) s = t := by
  rw [removePrefix, if_pos (startsWith_append s t), drop_length_append]

theorem buildOpenapiRef_eq (serviceName name : String) :
    buildOpenapiRef serviceName name = schemaPrefix ++ schemaKey serviceName name := by
  have hassoc : ∀ root : String,
      root ++ serviceName ++ "_" ++ name = root ++ (serviceName ++ "_" ++ name) := fun root => by
    rw [String.append_assoc, String.append_assoc, String.append_assoc]
  exact hassoc "#/components/schemas/"

theorem isObject_rewriteSchemaRefs {serviceName : String} {j : Json} :
    IsObject (rewriteSchemaRefs serviceName j) ↔ IsObject j := by
  cases j <;> rfl

theorem rewriteRef_append (serviceName name : String) :
    rewriteRef serviceName (schemaPrefix ++ name) =
      schemaPrefix ++ schemaKey serviceName name := by
  rw [rewriteRef, if_pos (startsWith_append schemaPrefix name), removePrefix_append,
    buildOpenapiRef_eq]

/-- What becomes of a member of an object. -/
def rewriteMember (serviceName key : String) (value : Json) : Json :=
  Json.mapMember "$ref" (rewriteRef serviceName) key value

theorem contents_rewriteSchemaRefs (serviceName : String) (j : Json) :
    contents (rewriteSchemaRefs serviceName j) =
      (contents j).mapVal (rewriteMember serviceName) := by
  rw [contents, contents, rewriteSchemaRefs_eq, Json.asDict?_mapStrAt]
  cases j.asDict? <;> rfl

/-- An object is rewritten as a whole. -/
theorem rewriteMember_of_isObject {serviceName key : String} {value : Json} (h : IsObject value) :
    rewriteMember serviceName key value = rewriteSchemaRefs serviceName value := by
  rw [rewriteSchemaRefs_eq]
  cases value with
  | object => rfl
  | _ => cases h

/-! ## Well-formed documents -/

/-- A well-formed OpenAPI document, as far as the gateway looks into it. -/
structure WellFormed (document : Json) : Prop where
  isObject : IsObject document
  paths : IsObject (getObject (contents document) "paths")
  items : ∀ e ∈ documentPaths document, IsObject e.2
  operations : ∀ e ∈ documentPaths document, ∀ operation ∈ contents e.2,
    operation.1 ∈ methods → IsObject operation.2
  components : IsObject (getObject (contents document) "components")
  schemas : IsObject (getObject (contents (getObject (contents document) "components")) "schemas")
  tags : (((contents document).get? "tags").getD (.arr [])).asList?.isSome
  tagObjects : ∀ tag ∈ documentTags document, IsObject tag

instance (document : Json) : Decidable (WellFormed document) :=
  decidable_of_iff
    (IsObject document ∧ IsObject (getObject (contents document) "paths") ∧
      (∀ e ∈ documentPaths document, IsObject e.2) ∧
      (∀ e ∈ documentPaths document, ∀ operation ∈ contents e.2,
        operation.1 ∈ methods → IsObject operation.2) ∧
      IsObject (getObject (contents document) "components") ∧
      IsObject (getObject (contents (getObject (contents document) "components")) "schemas") ∧
      (((contents document).get? "tags").getD (.arr [])).asList?.isSome = true ∧
      ∀ tag ∈ documentTags document, IsObject tag)
    ⟨fun ⟨h₁, h₂, h₃, h₄, h₅, h₆, h₇, h₈⟩ => ⟨h₁, h₂, h₃, h₄, h₅, h₆, h₇, h₈⟩,
      fun ⟨h₁, h₂, h₃, h₄, h₅, h₆, h₇, h₈⟩ => ⟨h₁, h₂, h₃, h₄, h₅, h₆, h₇, h₈⟩⟩

/-- A published path item comes from a path of the document. -/
theorem exists_of_mem_publicItems {serviceName : String} {document : Json} {e : String × Json}
    (he : e ∈ publicItems serviceName document) : ∃ p item, (p, item) ∈ documentPaths document ∧
      e = (publicPath p serviceName, rewriteMember serviceName p item) := by
  rw [publicItems, contents_rewriteSchemaRefs] at he
  rcases OrderedDict.mem_of_mem_setAll _ he with he | he
  · exact absurd he (OrderedDict.notMem_empty e)
  · obtain ⟨⟨p, item'⟩, hp, rfl⟩ := List.mem_map.1 he
    obtain ⟨item, hitem, rfl⟩ := (OrderedDict.mem_mapVal _).1 hp
    exact ⟨p, item, hitem, rfl⟩

theorem WellFormed.mergeable {document : Json} (h : WellFormed document) (serviceName : String) :
    Mergeable serviceName document := by
  refine ⟨h.isObject, h.paths, fun e he => ?_, h.components, h.schemas, ?_, h.tagObjects⟩
  · obtain ⟨p, item, hitem, rfl⟩ := exists_of_mem_publicItems he
    have hobject : IsObject item := h.items _ hitem
    show IsObject (rewriteMember serviceName p item)
    rwa [rewriteMember_of_isObject hobject, isObject_rewriteSchemaRefs]
  · obtain ⟨l, hl⟩ := Option.isSome_iff_exists.1 h.tags
    rw [Json.asList?_eq_some.1 hl]
    rfl

/-! ## When the merge succeeds -/

@[simp] theorem contents_obj (d : OrderedDict String Json) : contents (.obj d) = d := by
  rw [contents, Json.asDict?_obj, Option.getD_some]

theorem isObject_obj (d : OrderedDict String Json) : IsObject (.obj d) := by
  rw [IsObject, Json.asDict?_obj, Option.isSome_some]

theorem obj_contents {j : Json} (h : IsObject j) : .obj (contents j) = j := by
  obtain ⟨d, hd⟩ := Option.isSome_iff_exists.1 h
  rw [Json.asDict?_eq_some.1 hd, contents_obj]

theorem rewriteMember_obj (serviceName key : String) (d : OrderedDict String Json) :
    rewriteMember serviceName key (.obj d) = .obj (d.mapVal (rewriteMember serviceName)) := by
  rw [rewriteMember_of_isObject (isObject_obj d), rewriteSchemaRefs_eq, Json.mapStrAt_obj]
  rfl

/-- Only objects become objects. -/
theorem isObject_of_rewriteMember {serviceName key : String} {value : Json}
    (h : IsObject (rewriteMember serviceName key value)) : IsObject value := by
  cases value with
  | object => rfl
  | str s =>
    unfold rewriteMember Json.mapMember at h
    split at h
    · cases h
    · cases h
  | _ => cases h

theorem asDict_of_isObject {j : Json} (h : IsObject j) : asDict j = .ok (contents j) := by
  obtain ⟨d, hd⟩ := Option.isSome_iff_exists.1 h
  rw [asDict, contents, hd]
  rfl

theorem asDict_eq_ok {j : Json} {d : OrderedDict String Json} :
    asDict j = .ok d ↔ IsObject j ∧ contents j = d := by
  by_cases h : IsObject j
  · rw [asDict_of_isObject h, Except.ok.injEq, and_iff_right h]
  · have hnone : j.asDict? = none := by simpa [IsObject] using h
    rw [asDict, hnone]
    exact ⟨nofun, fun hj => absurd hj.1 h⟩

theorem addPath_eq_ok {merged merged' : Merged} {path : String × Json} :
    addPath merged path = .ok merged' ↔ IsObject path.2 ∧ merged.setPath path = merged' := by
  simp only [addPath, Except.bind_eq_ok, asDict_eq_ok, Except.pure_eq_ok]
  constructor
  · rintro ⟨_, ⟨h, rfl⟩, rfl⟩
    exact ⟨h, rfl⟩
  · rintro ⟨h, rfl⟩
    exact ⟨_, ⟨h, rfl⟩, rfl⟩

theorem foldlM_addPath {paths : List (String × Json)} {merged merged' : Merged} :
    paths.foldlM addPath merged = .ok merged' ↔
      (∀ path ∈ paths, IsObject path.2) ∧ paths.foldl Merged.setPath merged = merged' :=
  Except.foldlM_eq_ok (f := Merged.setPath) (P := fun path => IsObject path.2)
    fun _ _ _ => addPath_eq_ok

theorem addTag_eq_ok {merged merged' : Merged} {tag : Json} :
    addTag merged tag = .ok merged' ↔ IsObject tag ∧ merged.noteTag tag = merged' := by
  have hnote : (match (contents tag).get? "name" with
      | some (.str name) =>
        if name ∈ merged.seenTags then (pure merged : Except PyError Merged)
        else pure { merged with
          tags := merged.tags ++ [tag], seenTags := name :: merged.seenTags }
      | _ => pure merged) = .ok (merged.noteTag tag) := by
    unfold Merged.noteTag tagName
    split
    · dsimp only
      split_ifs <;> rfl
    · rfl
  simp only [addTag, Except.bind_eq_ok, asDict_eq_ok]
  constructor
  · rintro ⟨_, ⟨h, rfl⟩, heq⟩
    exact ⟨h, Except.ok.inj (hnote.symm.trans heq)⟩
  · rintro ⟨h, rfl⟩
    exact ⟨_, ⟨h, rfl⟩, hnote⟩

theorem foldlM_addTag {tags : List Json} {merged merged' : Merged} :
    tags.foldlM addTag merged = .ok merged' ↔
      (∀ tag ∈ tags, IsObject tag) ∧ tags.foldl Merged.noteTag merged = merged' :=
  Except.foldlM_eq_ok (f := Merged.noteTag) (P := IsObject) fun _ _ _ => addTag_eq_ok

theorem foldl_setPath (merged : Merged) (items : List (String × Json)) :
    items.foldl Merged.setPath merged = { merged with
      paths := merged.paths.setAll (items.map fun e => (e.1, publishedItem e.1 e.2)) } := by
  induction items generalizing merged with
  | nil => rfl
  | cons e es ih => rw [List.foldl_cons, ih, List.map_cons, OrderedDict.setAll_cons]; rfl

theorem foldl_addSchema (merged : Merged) (serviceName : String) (document : Json) :
    (documentSchemas document).entries.foldl (addSchema serviceName) merged =
      { merged with
        schemas := merged.schemas.setAll (namespacedSchemas serviceName document) } := by
  rw [namespacedSchemas]
  induction (documentSchemas document).entries generalizing merged with
  | nil => rfl
  | cons e es ih => rw [List.foldl_cons, ih, List.map_cons, OrderedDict.setAll_cons]; rfl

theorem add_eq (merged : Merged) (serviceName : String) (document : Json) :
    merged.add (serviceName, document) = (documentTags document).foldl Merged.noteTag
      ((documentSchemas document).entries.foldl (addSchema serviceName)
        ((publicItems serviceName document).entries.foldl Merged.setPath merged)) := by
  rw [foldl_setPath, foldl_addSchema]
  rfl

theorem addDocument_eq_ok {merged merged' : Merged} {serviceName : String} {document : Json} :
    addDocument merged (serviceName, document) = .ok merged' ↔
      Mergeable serviceName document ∧ merged.add (serviceName, document) = merged' := by
  simp only [addDocument, Except.bind_eq_ok, asDict_eq_ok]
  constructor
  · rintro ⟨_, ⟨hdoc, rfl⟩, _, ⟨hpaths, rfl⟩, m, hm, _, ⟨hcomponents, rfl⟩, _, ⟨hschemas, rfl⟩, l,
      hl, htags⟩
    obtain ⟨hitems, rfl⟩ := foldlM_addPath.1 hm
    obtain ⟨hobjects, rfl⟩ := foldlM_addTag.1 htags
    have hdocumentTags : documentTags document = l := by rw [documentTags, hl]; rfl
    refine ⟨⟨hdoc, isObject_rewriteSchemaRefs.1 hpaths, hitems, hcomponents, hschemas, ?_, ?_⟩, ?_⟩
    · rw [hl]; rfl
    · rwa [hdocumentTags]
    · rw [add_eq, hdocumentTags]
      rfl
  · rintro ⟨h, rfl⟩
    obtain ⟨l, hl⟩ : ∃ l, iterate (((contents document).get? "tags").getD (.arr [])) = .ok l := by
      have htags := h.tags
      cases hl : iterate (((contents document).get? "tags").getD (.arr [])) with
      | ok l => exact ⟨l, rfl⟩
      | error e => rw [hl] at htags; cases htags
    have hdocumentTags : documentTags document = l := by rw [documentTags, hl]; rfl
    refine ⟨_, ⟨h.isObject, rfl⟩, _, ⟨isObject_rewriteSchemaRefs.2 h.paths, rfl⟩, _,
      foldlM_addPath.2 ⟨h.items, rfl⟩, _,
      ⟨h.components, rfl⟩, _, ⟨h.schemas, rfl⟩, l, hl,
      foldlM_addTag.2 ⟨hdocumentTags ▸ h.tagObjects, ?_⟩⟩
    rw [add_eq, hdocumentTags]
    rfl

theorem foldlM_addDocument {documents : List (String × Json)} {merged merged' : Merged} :
    documents.foldlM addDocument merged = .ok merged' ↔
      (∀ e ∈ documents, Mergeable e.1 e.2) ∧ documents.foldl Merged.add merged = merged' :=
  Except.foldlM_eq_ok (f := Merged.add) (P := fun e => Mergeable e.1 e.2)
    fun _ _ _ => addDocument_eq_ok

theorem mem_sortedItems {α : Type} {d : OrderedDict String α} {e : String × α} :
    e ∈ sortedItems d ↔ e ∈ d := List.mem_insertionSort _

/-- The order of the entries does not matter. -/
theorem sortedItems_congr {α : Type} {d d' : OrderedDict String α} (h : ∀ e, e ∈ d ↔ e ∈ d') :
    sortedItems d = sortedItems d' := by
  have hperm : d.entries.Perm d'.entries :=
    (List.perm_ext_iff_of_nodup d.nodup.of_map d'.nodup.of_map).2 h
  have hsorted : ∀ d : OrderedDict String α, (sortedItems d).Pairwise fun e e' => e.1 ≤ e'.1 :=
    fun d => List.pairwise_insertionSort _ _
  have hsame : (sortedItems d).Perm (sortedItems d') :=
    (List.perm_insertionSort _ _).trans (hperm.trans (List.perm_insertionSort _ _).symm)
  refine hsame.eq_of_pairwise (fun e e' he he' hle hle' => ?_) (hsorted d) (hsorted d')
  exact List.inj_on_of_nodup_map d.nodup (mem_sortedItems.1 he) ((h e').2 (mem_sortedItems.1 he'))
    (le_antisymm hle hle')

theorem mergeOpenapiDocuments_eq_ok {serviceDocuments : OrderedDict String Json} {document : Json} :
    mergeOpenapiDocuments serviceDocuments = .ok document ↔
      (∀ e ∈ serviceDocuments, Mergeable e.1 e.2) ∧
        (mergedOf serviceDocuments).toJson = document := by
  simp only [mergeOpenapiDocuments, Except.bind_eq_ok, Except.pure_eq_ok]
  constructor
  · rintro ⟨m, hm, rfl⟩
    obtain ⟨hmergeable, rfl⟩ := foldlM_addDocument.1 hm
    exact ⟨fun e he => hmergeable e (mem_sortedItems.2 he), rfl⟩
  · rintro ⟨hmergeable, rfl⟩
    exact ⟨_, foldlM_addDocument.2
      ⟨fun e he => hmergeable e (mem_sortedItems.1 he), rfl⟩, rfl⟩

/-! ## What the merge gives -/

theorem paths_foldl_noteTag (merged : Merged) (tags : List Json) :
    (tags.foldl Merged.noteTag merged).paths = merged.paths ∧
      (tags.foldl Merged.noteTag merged).schemas = merged.schemas := by
  induction tags generalizing merged with
  | nil => exact ⟨rfl, rfl⟩
  | cons tag tags ih =>
    rw [List.foldl_cons, (ih _).1, (ih _).2, Merged.noteTag]
    split
    · split_ifs <;> exact ⟨rfl, rfl⟩
    · exact ⟨rfl, rfl⟩

/-- The paths of all documents, in the order of the names. -/
theorem paths_mergedOf (serviceDocuments : OrderedDict String Json) :
    (mergedOf serviceDocuments).paths = (∅ : OrderedDict String Json).setAll
      ((sortedItems serviceDocuments).flatMap fun e => (publishedPaths e.1 e.2).entries) := by
  have hfold : ∀ (l : List (String × Json)) (merged : Merged),
      (l.foldl Merged.add merged).paths =
        merged.paths.setAll (l.flatMap fun e => (publishedPaths e.1 e.2).entries) := by
    intro l
    induction l with
    | nil => exact fun _ => rfl
    | cons e l ih =>
      intro merged
      rw [List.foldl_cons, ih, List.flatMap_cons, OrderedDict.setAll_append, Merged.add,
        (paths_foldl_noteTag _ _).1]
  exact hfold _ Merged.empty

/-- The schemas of all documents, in the order of the names. -/
theorem schemas_mergedOf (serviceDocuments : OrderedDict String Json) :
    (mergedOf serviceDocuments).schemas = (∅ : OrderedDict String Json).setAll
      ((sortedItems serviceDocuments).flatMap fun e => namespacedSchemas e.1 e.2) := by
  have hfold : ∀ (l : List (String × Json)) (merged : Merged),
      (l.foldl Merged.add merged).schemas =
        merged.schemas.setAll (l.flatMap fun e => namespacedSchemas e.1 e.2) := by
    intro l
    induction l with
    | nil => exact fun _ => rfl
    | cons e l ih =>
      intro merged
      rw [List.foldl_cons, ih, List.flatMap_cons, OrderedDict.setAll_append, Merged.add,
        (paths_foldl_noteTag _ _).2]
  exact hfold _ Merged.empty

/-! ### Tags -/

/-- The tags have distinct names, which have been seen. -/
def TagsNamed (merged : Merged) : Prop :=
  (∀ tag ∈ merged.tags, ∃ name ∈ merged.seenTags, tagName tag = some name) ∧
    (merged.tags.map tagName).Nodup

theorem TagsNamed.noteTag {merged : Merged} (h : TagsNamed merged) (tag : Json) :
    TagsNamed (merged.noteTag tag) := by
  unfold Merged.noteTag
  split
  · rename_i name hname
    split_ifs with hseen
    · exact h
    · refine ⟨fun tag' htag' => ?_, ?_⟩
      · rcases List.mem_append.1 htag' with htag' | htag'
        · obtain ⟨name', hname', heq⟩ := h.1 tag' htag'
          exact ⟨name', List.mem_cons_of_mem _ hname', heq⟩
        · exact ⟨name, List.mem_cons_self, List.mem_singleton.1 htag' ▸ hname⟩
      · rw [List.map_append, List.nodup_append']
        refine ⟨h.2, List.nodup_singleton _, fun n hn hn' => ?_⟩
        obtain ⟨tag', htag', rfl⟩ := List.mem_map.1 hn
        obtain ⟨name', hname', heq⟩ := h.1 tag' htag'
        rw [List.map_singleton, List.mem_singleton, heq, hname, Option.some.injEq] at hn'
        exact hseen (hn' ▸ hname')
  · exact h

theorem tagsNamed_mergedOf (serviceDocuments : OrderedDict String Json) :
    TagsNamed (mergedOf serviceDocuments) := by
  have htags : ∀ (tags : List Json) (merged : Merged), TagsNamed merged →
      TagsNamed (tags.foldl Merged.noteTag merged) := by
    intro tags
    induction tags with
    | nil => exact fun _ h => h
    | cons tag tags ih => exact fun merged h => ih _ (h.noteTag tag)
  have hdocuments : ∀ (l : List (String × Json)) (merged : Merged), TagsNamed merged →
      TagsNamed (l.foldl Merged.add merged) := by
    intro l
    induction l with
    | nil => exact fun _ h => h
    | cons e l ih => exact fun merged h => ih _ (htags _ _ h)
  exact hdocuments _ _ ⟨fun _ h => absurd h List.not_mem_nil, List.nodup_nil⟩

section

variable {tag : Json} {name : String}

theorem mem_seenTags_foldl {tags : List Json} {merged : Merged} :
    name ∈ (tags.foldl Merged.noteTag merged).seenTags ↔
      name ∈ merged.seenTags ∨ ∃ tag ∈ tags, tagName tag = some name := by
  induction tags generalizing merged with
  | nil => simp
  | cons tag' tags ih =>
    have hnote : name ∈ (merged.noteTag tag').seenTags ↔
        name ∈ merged.seenTags ∨ tagName tag' = some name := by
      unfold Merged.noteTag
      cases htag' : tagName tag' with
      | none => simp
      | some name' =>
        by_cases hseen : name' ∈ merged.seenTags
        · simp only [hseen, if_true, Option.some.injEq]
          exact ⟨Or.inl, fun h => h.elim id fun heq => heq ▸ hseen⟩
        · simp [hseen, eq_comm, or_comm]
    rw [List.foldl_cons, ih, hnote, List.exists_mem_cons_iff, or_assoc]

/-- The first tag with a new name is kept. -/
theorem mem_tags_foldl_iff (hname : tagName tag = some name) {tags : List Json} {merged : Merged} :
    tag ∈ (tags.foldl Merged.noteTag merged).tags ↔ tag ∈ merged.tags ∨
      name ∉ merged.seenTags ∧ tags.find? (fun tag' => tagName tag' = some name) = some tag := by
  induction tags generalizing merged with
  | nil => simp
  | cons tag' tags ih =>
    rw [List.foldl_cons, ih]
    unfold Merged.noteTag
    cases htag' : tagName tag' with
    | none => simp [htag']
    | some name' =>
      by_cases hsame : name' = name
      · subst hsame
        by_cases hseen : name' ∈ merged.seenTags
        · simp [hseen]
        · simp [hseen, htag', eq_comm]
      · have hne : tag ≠ tag' := fun h => hsame (Option.some.inj (htag'.symm.trans (h ▸ hname)))
        by_cases hseen : name' ∈ merged.seenTags
        · simp [hseen, htag', hsame]
        · simp [hseen, htag', hsame, hne, Ne.symm hsame]

theorem mem_tags_mergedOf {documents : OrderedDict String Json} (hname : tagName tag = some name) :
    tag ∈ (mergedOf documents).tags ↔
      (allTags documents).find? (fun tag' => tagName tag' = some name) = some tag := by
  have hfold : ∀ (l : List (String × Json)) (merged : Merged),
      tag ∈ (l.foldl Merged.add merged).tags ↔ tag ∈ merged.tags ∨ name ∉ merged.seenTags ∧
        ((l.flatMap fun e => documentTags e.2).find? fun tag' => tagName tag' = some name) =
          some tag := by
    intro l
    induction l with
    | nil => simp
    | cons e l ih =>
      intro merged
      rw [List.foldl_cons, ih, Merged.add, mem_tags_foldl_iff hname, mem_seenTags_foldl,
        List.flatMap_cons, List.find?_append]
      cases hfind : (documentTags e.2).find? fun tag' => tagName tag' = some name with
      | none =>
        have hnone : ¬ ∃ tag' ∈ documentTags e.2, tagName tag' = some name := by
          simpa using hfind
        simp only [hnone, or_false, reduceCtorEq, and_false, Option.none_or]
      | some tag' =>
        have hsome : ∃ tag' ∈ documentTags e.2, tagName tag' = some name :=
          ⟨tag', List.mem_of_find?_eq_some hfind, by simpa using List.find?_some hfind⟩
        simp only [hsome, or_true, not_true_eq_false, false_and, or_false, Option.some_or]
  rw [mergedOf, hfold, allTags]
  simp [Merged.empty]

/-- The tags that are published are the first ones of their names. -/
theorem mem_tags_iff {documents : OrderedDict String Json} :
    tag ∈ (mergedOf documents).tags ↔ IsFirstTag documents tag := by
  constructor
  · intro h
    obtain ⟨name, -, hname⟩ := (tagsNamed_mergedOf documents).1 tag h
    exact ⟨name, hname, (mem_tags_mergedOf hname).1 h⟩
  · rintro ⟨name, hname, hfind⟩
    exact (mem_tags_mergedOf hname).2 hfind

end

/-! ### Reading the merged document -/

section

variable (merged : Merged)

theorem nodup_members : (merged.members.map Prod.fst).Nodup := by
  unfold Merged.members
  split_ifs <;> simp

theorem get?_toJson {key : String} {value : Json} (h : (key, value) ∈ merged.members) :
    (contents merged.toJson).get? key = some value := by
  rw [Merged.toJson, contents_obj]
  exact OrderedDict.get?_setAll_of_mem _ (nodup_members merged) h

theorem get?_toJson_of_notMem {key : String} (h : key ∉ merged.members.map Prod.fst) :
    (contents merged.toJson).get? key = none := by
  rw [Merged.toJson, contents_obj, OrderedDict.get?_setAll_of_notMem _ h, OrderedDict.get?_empty]

theorem isObject_toJson : IsObject merged.toJson := isObject_obj _

@[simp] theorem documentPaths_toJson : documentPaths merged.toJson = merged.paths := by
  have h : (contents merged.toJson).get? "paths" = some (.obj merged.paths) :=
    get?_toJson merged (by simp [Merged.members])
  rw [documentPaths, getObject, h, Option.getD_some, contents_obj]

theorem components_toJson : getObject (contents merged.toJson) "components" =
    .obj (if merged.schemas.entries = [] then ∅
      else ⟨[("schemas", .obj merged.schemas)], List.nodup_singleton _⟩) := by
  rw [getObject]
  split_ifs with hempty
  · have h : (contents merged.toJson).get? "components" = none :=
      get?_toJson_of_notMem merged (by unfold Merged.members; split_ifs <;> simp)
    rw [h, Option.getD_none]
  · have h : (contents merged.toJson).get? "components" =
        some (.obj ⟨[("schemas", .obj merged.schemas)], List.nodup_singleton _⟩) :=
      get?_toJson merged (by simp [Merged.members, hempty])
    rw [h, Option.getD_some]

theorem schemas_toJson :
    getObject (contents (getObject (contents merged.toJson) "components")) "schemas" =
      .obj merged.schemas := by
  rw [components_toJson, contents_obj, getObject]
  split_ifs with hempty
  · exact congrArg Json.obj (OrderedDict.ext hempty.symm)
  · rfl

@[simp] theorem documentSchemas_toJson : documentSchemas merged.toJson = merged.schemas := by
  rw [documentSchemas, schemas_toJson, contents_obj]

@[simp] theorem documentTags_toJson : documentTags merged.toJson = merged.tags := by
  by_cases hempty : merged.tags = []
  · have h : (contents merged.toJson).get? "tags" = none :=
      get?_toJson_of_notMem merged (by unfold Merged.members; split_ifs <;> simp)
    rw [documentTags, h, hempty]
    rfl
  · have h : (contents merged.toJson).get? "tags" = some (.arr merged.tags) :=
      get?_toJson merged (by simp [Merged.members, hempty])
    rw [documentTags, h]
    exact List.ofFn_get merged.tags

end

/-! ### The merged document is well-formed -/

theorem isObject_of_mem_setInOperations {key method : String} {value : String → Json}
    {item : OrderedDict String Json} {operation : Json}
    (h : (method, operation) ∈ setInOperations key value item) (hmethod : method ∈ methods)
    (hitem : ∀ e ∈ item, e.1 ∈ methods → IsObject e.2) : ∃ d : OrderedDict String Json,
      (method, .obj d) ∈ item ∧ operation = .obj (d.set key (value method)) := by
  obtain ⟨operation', hmem, rfl⟩ := (OrderedDict.mem_mapVal _).1 h
  obtain ⟨d, hd⟩ : ∃ d, operation'.asDict? = some d :=
    Option.isSome_iff_exists.1 (hitem _ hmem hmethod)
  rw [Json.asDict?_eq_some.1 hd] at hmem ⊢
  refine ⟨d, hmem, ?_⟩
  rw [Json.asDict?_obj]
  exact if_pos hmethod

theorem operations_rewriteSchemaRefs {serviceName : String} {item : Json}
    (h : ∀ e ∈ contents item, e.1 ∈ methods → IsObject e.2) :
    ∀ e ∈ contents (rewriteSchemaRefs serviceName item), e.1 ∈ methods → IsObject e.2 := by
  rw [contents_rewriteSchemaRefs]
  rintro ⟨method, operation'⟩ hmem hmethod
  obtain ⟨operation, hoperation, rfl⟩ := (OrderedDict.mem_mapVal _).1 hmem
  have hobject : IsObject operation := h _ hoperation hmethod
  show IsObject (rewriteMember serviceName method operation)
  rwa [rewriteMember_of_isObject hobject, isObject_rewriteSchemaRefs]

section

variable {documents : OrderedDict String Json}

/-- A path of the merged document is a path of one of the documents. -/
theorem exists_of_mem_paths (hdocuments : ∀ e ∈ documents, WellFormed e.2) {e : String × Json}
    (he : e ∈ (mergedOf documents).paths) : ∃ serviceName document p item,
      (serviceName, document) ∈ documents ∧ (p, item) ∈ documentPaths document ∧ IsObject item ∧
      e = (publicPath p serviceName,
        publishedItem (publicPath p serviceName) (rewriteSchemaRefs serviceName item)) := by
  rw [paths_mergedOf] at he
  rcases OrderedDict.mem_of_mem_setAll _ he with he | he
  · exact absurd he (OrderedDict.notMem_empty e)
  · obtain ⟨⟨serviceName, document⟩, hdocument, he⟩ := List.mem_flatMap.1 he
    obtain ⟨e, value⟩ := e
    obtain ⟨item', hitem', rfl⟩ := (OrderedDict.mem_mapVal _).1 he
    obtain ⟨p, item, hitem, heq⟩ := exists_of_mem_publicItems hitem'
    obtain ⟨rfl, rfl⟩ := Prod.mk.inj heq
    have hobject := (hdocuments _ (mem_sortedItems.1 hdocument)).items _ hitem
    refine ⟨serviceName, document, p, item, mem_sortedItems.1 hdocument, hitem, hobject, ?_⟩
    rw [rewriteMember_of_isObject hobject]

theorem exists_of_mem_contributions {path serviceName : String} {item : Json}
    (h : (path, (serviceName, item)) ∈ contributions documents) :
    ∃ document p, (serviceName, document) ∈ documents ∧ (p, item) ∈ documentPaths document ∧
      publicPath p serviceName = path := by
  rcases OrderedDict.mem_of_mem_setAll _ h with h | h
  · exact absurd h (OrderedDict.notMem_empty _)
  · obtain ⟨⟨serviceName', document⟩, hdocument, h⟩ := List.mem_flatMap.1 h
    obtain ⟨item', hpublic, heq⟩ := (OrderedDict.mem_mapVal _).1 h
    obtain ⟨rfl, rfl⟩ := Prod.mk.inj heq
    rcases OrderedDict.mem_of_mem_setAll _ hpublic with hpublic | hpublic
    · exact absurd hpublic (OrderedDict.notMem_empty _)
    · obtain ⟨⟨p, item'⟩, hitem, heq⟩ := List.mem_map.1 hpublic
      obtain ⟨rfl, rfl⟩ := Prod.mk.inj heq
      exact ⟨document, p, mem_sortedItems.1 hdocument, hitem, rfl⟩

/-- The paths of the merged document are what the services contribute. -/
theorem paths_mergedOf_eq (hdocuments : ∀ e ∈ documents, WellFormed e.2) :
    (mergedOf documents).paths = (contributions documents).mapVal fun path contribution =>
      publishedItem path (rewriteSchemaRefs contribution.1 contribution.2) := by
  rw [paths_mergedOf, contributions, OrderedDict.mapVal_setAll, List.map_flatMap]
  refine congrArg _ (List.flatMap_congr fun e he => ?_)
  have hitems : (documentPaths e.2).mapVal (rewriteMember e.1) =
      (documentPaths e.2).mapVal fun _ item => rewriteSchemaRefs e.1 item := by
    refine OrderedDict.ext (List.map_congr_left fun path hpath => ?_)
    have hobject : IsObject path.2 := (hdocuments e (mem_sortedItems.1 he)).items path hpath
    rw [rewriteMember_of_isObject hobject]
  have hpublic : publicItems e.1 e.2 = (toPublicOpenapiPaths (documentPaths e.2) e.1).mapVal
      fun _ item => rewriteSchemaRefs e.1 item := by
    rw [publicItems, contents_rewriteSchemaRefs, ← toPublicOpenapiPaths_mapVal, ← hitems]
    rfl
  rw [publishedPaths, hpublic]
  simp only [OrderedDict.mapVal, List.map_map]
  rfl

/-- A schema of the merged document is a schema of one of the documents. -/
theorem exists_of_mem_schemas {e : String × Json} (he : e ∈ (mergedOf documents).schemas) :
    ∃ serviceName document name schema, (serviceName, document) ∈ documents ∧
      (name, schema) ∈ documentSchemas document ∧
      e = (schemaKey serviceName name, rewriteSchemaRefs serviceName schema) := by
  rw [schemas_mergedOf] at he
  rcases OrderedDict.mem_of_mem_setAll _ he with he | he
  · exact absurd he (OrderedDict.notMem_empty e)
  · obtain ⟨⟨serviceName, document⟩, hdocument, he⟩ := List.mem_flatMap.1 he
    obtain ⟨⟨name, schema⟩, hschema, rfl⟩ := List.mem_map.1 he
    exact ⟨serviceName, document, name, schema, mem_sortedItems.1 hdocument, hschema, rfl⟩

theorem mem_tags_foldl {tags : List Json} {merged : Merged} {tag : Json}
    (h : tag ∈ (tags.foldl Merged.noteTag merged).tags) : tag ∈ merged.tags ∨ tag ∈ tags := by
  induction tags generalizing merged with
  | nil => exact Or.inl h
  | cons tag' tags ih =>
    rcases ih h with h | h
    · unfold Merged.noteTag at h
      split at h
      · split_ifs at h
        · exact Or.inl h
        · rcases List.mem_append.1 h with h | h
          · exact Or.inl h
          · exact Or.inr (List.mem_singleton.1 h ▸ List.mem_cons_self)
      · exact Or.inl h
    · exact Or.inr (List.mem_cons_of_mem _ h)

/-- A tag of the merged document is a tag of one of the documents. -/
theorem exists_of_mem_tags {tag : Json} (h : tag ∈ (mergedOf documents).tags) :
    ∃ e ∈ documents, tag ∈ documentTags e.2 := by
  have hfold : ∀ (l : List (String × Json)) (merged : Merged),
      tag ∈ (l.foldl Merged.add merged).tags →
        tag ∈ merged.tags ∨ ∃ e ∈ l, tag ∈ documentTags e.2 := by
    intro l
    induction l with
    | nil => exact fun _ h => Or.inl h
    | cons e l ih =>
      intro merged h
      rcases ih _ h with h | ⟨e', he', h⟩
      · rcases mem_tags_foldl h with h | h
        · exact Or.inl h
        · exact Or.inr ⟨e, List.mem_cons_self, h⟩
      · exact Or.inr ⟨e', List.mem_cons_of_mem _ he', h⟩
  rcases hfold _ _ h with h | ⟨e, he, h⟩
  · cases h
  · exact ⟨e, mem_sortedItems.1 he, h⟩

/-- The merged document of well-formed documents is well-formed. -/
theorem wellFormed_toJson (hdocuments : ∀ e ∈ documents, WellFormed e.2) :
    WellFormed (mergedOf documents).toJson := by
  have hpaths : getObject (contents (mergedOf documents).toJson) "paths" =
      .obj (mergedOf documents).paths := by
    have h : (contents (mergedOf documents).toJson).get? "paths" =
        some (.obj (mergedOf documents).paths) := get?_toJson _ (by simp [Merged.members])
    rw [getObject, h, Option.getD_some]
  refine ⟨isObject_toJson _, hpaths ▸ isObject_obj _, ?_, ?_,
    components_toJson _ ▸ isObject_obj _, schemas_toJson _ ▸ isObject_obj _, ?_, ?_⟩
  · rw [documentPaths_toJson]
    intro e he
    obtain ⟨serviceName, document, p, item, -, -, -, rfl⟩ := exists_of_mem_paths hdocuments he
    exact isObject_obj _
  · rw [documentPaths_toJson]
    rintro e he ⟨method, operation⟩ hmem hmethod
    obtain ⟨serviceName, document, p, item, hdocument, hitem, -, rfl⟩ :=
      exists_of_mem_paths hdocuments he
    change (method, operation) ∈ contents (.obj _) at hmem
    rw [contents_obj] at hmem
    obtain ⟨d, -, rfl⟩ := isObject_of_mem_setInOperations hmem hmethod
      (operations_rewriteSchemaRefs ((hdocuments _ hdocument).operations _ hitem))
    exact isObject_obj _
  · by_cases hempty : (mergedOf documents).tags = []
    · have h : (contents (mergedOf documents).toJson).get? "tags" = none :=
        get?_toJson_of_notMem _ (by unfold Merged.members; split_ifs <;> simp)
      rw [h]
      rfl
    · have h : (contents (mergedOf documents).toJson).get? "tags" =
          some (.arr (mergedOf documents).tags) :=
        get?_toJson _ (by simp [Merged.members, hempty])
      rw [h]
      rfl
  · rw [documentTags_toJson]
    intro tag htag
    obtain ⟨e, he, htag⟩ := exists_of_mem_tags htag
    exact (hdocuments e he).tagObjects tag htag

end

end Gateway

end AranesLms
