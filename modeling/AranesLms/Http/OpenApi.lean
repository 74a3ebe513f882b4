import AranesLms.Gateway.OpenApi

/-!
# The core's OpenAPI document

`_merge_gateway_openapi` of `http/openapi.py` adds the merged document of the gateway to the one of
the core.  It changes the core's dictionary in place, which is why every step returns it.
`mergeGatewayOpenapi_ok` gives the result for well-formed documents.
-/

namespace AranesLms

namespace OpenApi

open Gateway

/-! ## The merge -/

/-- `[{"BearerAuth": []}]`. -/
def bearerAuth : Json := .arr [.obj ⟨[("BearerAuth", .arr [])], List.nodup_singleton _⟩]

/-- The operations of a path item with the security and the ids of the core. -/
def protect (pathName : String) (item : OrderedDict String Json) : OrderedDict String Json :=
  setInOperations "operationId"
    (fun method => .str (pathPrefix pathName "gateway" ++ "_" ++ method))
    (setInOperations "security" (fun _ => bearerAuth) item)

/-- A dictionary that is stored into. -/
def asMutable (j : Json) : Except PyError (OrderedDict String Json) :=
  match j.asDict? with
  | some d => .ok d
  | none => .error .typeError

/-- `core_schema["paths"][path_name] = item`. -/
def setGatewayPath (core : OrderedDict String Json) (path : String × Json) :
    Except PyError (OrderedDict String Json) := do
  let paths ← asMutable (getObject core "paths")
  let item ← asDict path.2
  return core.set "paths" (.obj (paths.set path.1 (.obj (protect path.1 item))))

/-- `core_schemas[schema_name] = schema_val`. -/
def setGatewaySchema (core : OrderedDict String Json) (schema : String × Json) :
    Except PyError (OrderedDict String Json) := do
  let components ← asDict (getObject core "components")
  let schemas ← asMutable (getObject components "schemas")
  return core.set "components"
    (.obj (components.set "schemas" (.obj (schemas.set schema.1 schema.2))))

/-- `core_schema["tags"].append(tag)`, for a tag with a new name. -/
def addGatewayTag (core : OrderedDict String Json × List String) (tag : Json) :
    Except PyError (OrderedDict String Json × List String) :=
  match tagName tag with
  | some name =>
    if name ∈ core.2 then .ok core
    else
      match ((core.1.get? "tags").getD (.arr [])).asList? with
      | some tags => .ok (core.1.set "tags" (.arr (tags ++ [tag])), name :: core.2)
      | none => .error .attributeError
  | none => .ok core

def mergePaths (core gateway : OrderedDict String Json) :
    Except PyError (OrderedDict String Json) := do
  let gatewayPaths ← asDict (getObject gateway "paths")
  gatewayPaths.entries.foldlM setGatewayPath core

def mergeSchemas (core gateway : OrderedDict String Json) :
    Except PyError (OrderedDict String Json) := do
  let gatewayComponents ← asDict (getObject gateway "components")
  let gatewaySchemas := getObject gatewayComponents "schemas"
  let components ← asDict (getObject core "components")
  let core := core.set "components"
    (.obj (components.set "schemas" (getObject components "schemas")))
  let gatewaySchemas ← asDict gatewaySchemas
  gatewaySchemas.entries.foldlM setGatewaySchema core

def mergeTags (core gateway : OrderedDict String Json) :
    Except PyError (OrderedDict String Json) := do
  let gatewayTags := (gateway.get? "tags").getD (.arr [])
  let coreTags ← iterate ((core.get? "tags").getD (.arr []))
  let coreTags ← coreTags.mapM asDict
  let seen := coreTags.filterMap fun tag => tagName (.obj tag)
  let gatewayTags ← iterate gatewayTags
  Prod.fst <$> gatewayTags.foldlM addGatewayTag (core, seen)

/-- `_merge_gateway_openapi`: what becomes of `core_schema`. -/
def mergeGatewayOpenapi (coreSchema gatewaySchema : Json) : Except PyError Json := do
  let core ← asDict coreSchema
  let gateway ← asDict gatewaySchema
  let core ← mergePaths core gateway
  let core ← mergeSchemas core gateway
  let core ← mergeTags core gateway
  return .obj core

/-! ## Paths -/

/-- The path items as the core stores them. -/
def protectedPaths (paths : List (String × Json)) : List (String × Json) :=
  paths.map fun e => (e.1, .obj (protect e.1 (contents e.2)))

/-- The core with the paths of the gateway. -/
def withPaths (core : OrderedDict String Json) (paths : List (String × Json)) :
    OrderedDict String Json :=
  if paths = [] then core
  else core.set "paths" (.obj ((contents (getObject core "paths")).setAll (protectedPaths paths)))

theorem asMutable_of_isObject {j : Json} (h : IsObject j) : asMutable j = .ok (contents j) := by
  obtain ⟨d, hd⟩ := Option.isSome_iff_exists.1 h
  rw [asMutable, contents, hd]
  rfl

theorem getObject_set_self (d : OrderedDict String Json) (key : String) (value : Json) :
    getObject (d.set key value) key = value := by
  rw [getObject, OrderedDict.get?_set_self, Option.getD_some]

theorem getObject_set_of_ne {d : OrderedDict String Json} {key key' : String} {value : Json}
    (h : key' ≠ key) : getObject (d.set key value) key' = getObject d key' := by
  rw [getObject, OrderedDict.get?_set_of_ne _ h, getObject]

theorem setGatewayPath_ok {core : OrderedDict String Json} {path : String × Json}
    (hcore : IsObject (getObject core "paths")) (hitem : IsObject path.2) :
    setGatewayPath core path = .ok (withPaths core [path]) := by
  rw [setGatewayPath, asMutable_of_isObject hcore, Except.ok_bind, asDict_of_isObject hitem,
    Except.ok_bind]
  rfl

theorem withPaths_cons (core : OrderedDict String Json) (path : String × Json)
    (paths : List (String × Json)) :
    withPaths core (path :: paths) = withPaths (withPaths core [path]) paths := by
  cases paths with
  | nil => rfl
  | cons path' paths =>
    have hone : withPaths core [path] = core.set "paths" (.obj
        ((contents (getObject core "paths")).set path.1
          (.obj (protect path.1 (contents path.2))))) := rfl
    rw [withPaths, if_neg (List.cons_ne_nil _ _), withPaths, if_neg (List.cons_ne_nil _ _), hone,
      getObject_set_self, contents_obj, OrderedDict.set_set]
    rfl

theorem foldlM_setGatewayPath {core : OrderedDict String Json} {paths : List (String × Json)}
    (hcore : IsObject (getObject core "paths")) (hitems : ∀ e ∈ paths, IsObject e.2) :
    paths.foldlM setGatewayPath core = .ok (withPaths core paths) := by
  induction paths generalizing core with
  | nil => rfl
  | cons path paths ih =>
    have hset : IsObject (getObject (withPaths core [path]) "paths") := by
      rw [withPaths, if_neg (List.cons_ne_nil _ _), getObject_set_self]
      exact isObject_obj _
    rw [List.foldlM_cons, setGatewayPath_ok hcore (hitems path List.mem_cons_self), Except.ok_bind,
      ih hset fun e he => hitems e (List.mem_cons_of_mem _ he), ← withPaths_cons]

/-! ## Schemas -/

/-- The core with the schemas of the gateway. -/
def withSchemas (core : OrderedDict String Json) (schemas : List (String × Json)) :
    OrderedDict String Json :=
  let components := contents (getObject core "components")
  core.set "components" (.obj (components.set "schemas"
    (.obj ((contents (getObject components "schemas")).setAll schemas))))

theorem setGatewaySchema_ok {core : OrderedDict String Json} {schema : String × Json}
    (hcomponents : IsObject (getObject core "components"))
    (hschemas : IsObject (getObject (contents (getObject core "components")) "schemas")) :
    setGatewaySchema core schema = .ok (withSchemas core [schema]) := by
  rw [setGatewaySchema, asDict_of_isObject hcomponents, Except.ok_bind,
    asMutable_of_isObject hschemas, Except.ok_bind]
  rfl

theorem withSchemas_append (core : OrderedDict String Json)
    (schemas schemas' : List (String × Json)) :
    withSchemas (withSchemas core schemas) schemas' = withSchemas core (schemas ++ schemas') := by
  simp only [withSchemas, getObject_set_self, contents_obj, OrderedDict.set_set,
    OrderedDict.setAll_append]

theorem foldlM_setGatewaySchema (core : OrderedDict String Json)
    (schemas schemas' : List (String × Json)) :
    schemas'.foldlM setGatewaySchema (withSchemas core schemas) =
      .ok (withSchemas core (schemas ++ schemas')) := by
  induction schemas' generalizing schemas with
  | nil => rw [List.append_nil]; rfl
  | cons schema schemas' ih =>
    have hcomponents : getObject (withSchemas core schemas) "components" = .obj _ :=
      getObject_set_self core "components" _
    rw [List.foldlM_cons, setGatewaySchema_ok (by rw [hcomponents]; exact isObject_obj _)
      (by rw [hcomponents, contents_obj, getObject_set_self]; exact isObject_obj _),
      Except.ok_bind, withSchemas_append, ih, List.append_assoc, List.singleton_append]

/-! ## Tags -/

/-- The tags with a new name, the first of each name. -/
def freshTags : List String → List Json → List Json
  | _, [] => []
  | seen, tag :: tags =>
    match tagName tag with
    | some name =>
      if name ∈ seen then freshTags seen tags else tag :: freshTags (name :: seen) tags
    | none => freshTags seen tags

theorem mem_of_mem_freshTags {seen : List String} {tags : List Json} {tag : Json}
    (h : tag ∈ freshTags seen tags) : tag ∈ tags := by
  induction tags generalizing seen with
  | nil => exact h
  | cons tag' tags ih =>
    rw [freshTags] at h
    split at h
    · split_ifs at h
      · exact List.mem_cons_of_mem _ (ih h)
      · rcases List.mem_cons.1 h with rfl | h
        · exact List.mem_cons_self
        · exact List.mem_cons_of_mem _ (ih h)
    · exact List.mem_cons_of_mem _ (ih h)

/-- Fresh tags have names, which are new and distinct. -/
theorem freshTags_names (seen : List String) (tags : List Json) :
    (∀ tag ∈ freshTags seen tags, ∃ name, tagName tag = some name ∧ name ∉ seen) ∧
      ((freshTags seen tags).map tagName).Nodup := by
  induction tags generalizing seen with
  | nil => exact ⟨fun _ h => absurd h List.not_mem_nil, List.nodup_nil⟩
  | cons tag tags ih =>
    rw [freshTags]
    cases htag : tagName tag with
    | none => exact ih seen
    | some name =>
      dsimp only
      split_ifs with hseen
      · exact ih seen
      · obtain ⟨hnames, hnodup⟩ := ih (name :: seen)
        refine ⟨fun tag' htag' => ?_, List.nodup_cons.2 ⟨fun hmem => ?_, hnodup⟩⟩
        · rcases List.mem_cons.1 htag' with rfl | htag'
          · exact ⟨name, htag, hseen⟩
          · obtain ⟨name', hname', hnew⟩ := hnames tag' htag'
            exact ⟨name', hname', fun h => hnew (List.mem_cons_of_mem _ h)⟩
        · obtain ⟨tag', htag', heq⟩ := List.mem_map.1 hmem
          obtain ⟨name', hname', hnew⟩ := hnames tag' htag'
          rw [hname', htag, Option.some.injEq] at heq
          exact hnew (heq ▸ List.mem_cons_self)

/-- Afterwards every name has been seen. -/
theorem mem_names_freshTags {seen : List String} {tags : List Json} {tag : Json} {name : String}
    (htag : tag ∈ tags) (hname : tagName tag = some name) :
    name ∈ seen ∨ name ∈ (freshTags seen tags).filterMap tagName := by
  induction tags generalizing seen with
  | nil => cases htag
  | cons tag' tags ih =>
    rw [freshTags]
    cases hname' : tagName tag' with
    | none =>
      rcases List.mem_cons.1 htag with rfl | htag
      · rw [hname] at hname'
        cases hname'
      · exact ih htag
    | some name' =>
      dsimp only
      split_ifs with hseen
      · rcases List.mem_cons.1 htag with rfl | htag
        · rw [hname, Option.some.injEq] at hname'
          exact Or.inl (hname' ▸ hseen)
        · exact ih htag
      · rw [List.filterMap_cons_some hname', List.mem_cons]
        rcases List.mem_cons.1 htag with rfl | htag
        · rw [hname, Option.some.injEq] at hname'
          exact Or.inr (Or.inl hname')
        · rcases @ih (name' :: seen) htag with h | h
          · rcases List.mem_cons.1 h with h | h
            · exact Or.inr (Or.inl h)
            · exact Or.inl h
          · exact Or.inr (Or.inr h)

/-- There are no fresh tags when all names have been seen. -/
theorem freshTags_eq_nil {seen : List String} {tags : List Json}
    (h : ∀ tag ∈ tags, ∀ name, tagName tag = some name → name ∈ seen) :
    freshTags seen tags = [] := by
  induction tags with
  | nil => rfl
  | cons tag tags ih =>
    have htags := ih fun tag' htag' => h tag' (List.mem_cons_of_mem _ htag')
    rw [freshTags]
    split
    · rename_i name hname
      rw [if_pos (h tag List.mem_cons_self name hname), htags]
    · exact htags

/-- `core_schema.get("tags", [])`, as a list. -/
def tagList (core : OrderedDict String Json) : List Json :=
  ((core.get? "tags").getD (.arr [])).asList?.getD []

def HasTagList (core : OrderedDict String Json) : Prop :=
  ((core.get? "tags").getD (.arr [])).asList?.isSome

/-- The core with new tags. -/
def withTags (core : OrderedDict String Json) (tags : List Json) : OrderedDict String Json :=
  if tags = [] then core else core.set "tags" (.arr (tagList core ++ tags))

theorem tagList_set (core : OrderedDict String Json) (tags : List Json) :
    tagList (core.set "tags" (.arr tags)) = tags := by
  rw [tagList, OrderedDict.get?_set_self, Option.getD_some, Json.asList?_arr, Option.getD_some]

theorem withTags_append (core : OrderedDict String Json) (tags tags' : List Json) :
    withTags (withTags core tags) tags' = withTags core (tags ++ tags') := by
  by_cases htags : tags = []
  · rw [htags, List.nil_append]
    rfl
  · by_cases htags' : tags' = []
    · rw [htags', List.append_nil]
      rfl
    · have happend : tags ++ tags' ≠ [] := fun h => htags (List.append_eq_nil_iff.1 h).1
      rw [withTags, if_neg htags', withTags, if_neg htags, withTags, if_neg happend, tagList_set,
        OrderedDict.set_set, List.append_assoc]

theorem hasTagList_withTags {core : OrderedDict String Json} (h : HasTagList core)
    (tags : List Json) : HasTagList (withTags core tags) := by
  rw [withTags]
  split_ifs
  · exact h
  · rw [HasTagList, OrderedDict.get?_set_self, Option.getD_some, Json.asList?_arr]
    rfl

/-- One tag: it is appended if it is fresh. -/
theorem addGatewayTag_ok {core : OrderedDict String Json} (h : HasTagList core)
    (seen : List String) (tag : Json) : ∃ seen', (∀ tags,
      freshTags seen (tag :: tags) = freshTags seen [tag] ++ freshTags seen' tags) ∧
      addGatewayTag (core, seen) tag = .ok (withTags core (freshTags seen [tag]), seen') := by
  rw [addGatewayTag]
  simp only [freshTags]
  cases tagName tag with
  | none => exact ⟨seen, fun _ => rfl, rfl⟩
  | some name =>
    by_cases hseen : name ∈ seen
    · exact ⟨seen, by simp [hseen], by simp [hseen, withTags]⟩
    · obtain ⟨l, hl⟩ := Option.isSome_iff_exists.1 h
      refine ⟨name :: seen, by simp [hseen], ?_⟩
      simp [hseen, hl, withTags, tagList]

theorem foldlM_addGatewayTag {core : OrderedDict String Json} (h : HasTagList core)
    (seen : List String) (tags : List Json) : ∃ seen', tags.foldlM addGatewayTag (core, seen) =
      .ok (withTags core (freshTags seen tags), seen') := by
  induction tags generalizing core seen with
  | nil => exact ⟨seen, rfl⟩
  | cons tag tags ih =>
    obtain ⟨seen', hfresh, hadd⟩ := addGatewayTag_ok h seen tag
    obtain ⟨seen'', hrest⟩ := ih (hasTagList_withTags h _) seen'
    refine ⟨seen'', ?_⟩
    rw [List.foldlM_cons, hadd, Except.ok_bind, hrest, withTags_append, hfresh tags]

/-! ## The result -/

/-- The names of the tags of a document. -/
def tagNames (document : Json) : List String := (documentTags document).filterMap tagName

/-- The core after the merge. -/
def mergedCore (coreSchema gatewaySchema : Json) : OrderedDict String Json :=
  withTags
    (withSchemas (withPaths (contents coreSchema) (documentPaths gatewaySchema).entries)
      (documentSchemas gatewaySchema).entries)
    (freshTags (tagNames coreSchema) (documentTags gatewaySchema))

theorem iterate_tags {document : Json} (h : WellFormed document) :
    iterate (((contents document).get? "tags").getD (.arr [])) = .ok (documentTags document) := by
  obtain ⟨l, hl⟩ := Option.isSome_iff_exists.1 h.tags
  rw [documentTags, Json.asList?_eq_some.1 hl]
  rfl

theorem mapM_asDict {tags : List Json} (h : ∀ tag ∈ tags, IsObject tag) :
    tags.mapM asDict = .ok (tags.map contents) := by
  induction tags with
  | nil => rfl
  | cons tag tags ih =>
    rw [List.mapM_cons, asDict_of_isObject (h tag List.mem_cons_self), Except.ok_bind,
      ih fun tag' htag' => h tag' (List.mem_cons_of_mem _ htag')]
    rfl

theorem getObject_withPaths {core : OrderedDict String Json} {paths : List (String × Json)}
    {key : String} (h : key ≠ "paths") :
    getObject (withPaths core paths) key = getObject core key := by
  rw [withPaths]
  split_ifs
  · rfl
  · exact getObject_set_of_ne h

theorem get?_withPaths {core : OrderedDict String Json} {paths : List (String × Json)}
    {key : String} (h : key ≠ "paths") : (withPaths core paths).get? key = core.get? key := by
  rw [withPaths]
  split_ifs
  · rfl
  · exact OrderedDict.get?_set_of_ne _ h

section

variable {coreSchema gatewaySchema : Json}

theorem mergePaths_ok {core : OrderedDict String Json} (hcore : IsObject (getObject core "paths"))
    (hgateway : WellFormed gatewaySchema) : mergePaths core (contents gatewaySchema) =
      .ok (withPaths core (documentPaths gatewaySchema).entries) := by
  rw [mergePaths, asDict_of_isObject hgateway.paths, Except.ok_bind]
  exact foldlM_setGatewayPath hcore hgateway.items

theorem mergeSchemas_ok {core : OrderedDict String Json}
    (hcomponents : IsObject (getObject core "components"))
    (hschemas : IsObject (getObject (contents (getObject core "components")) "schemas"))
    (hgateway : WellFormed gatewaySchema) : mergeSchemas core (contents gatewaySchema) =
      .ok (withSchemas core (documentSchemas gatewaySchema).entries) := by
  have hdefault : core.set "components" (.obj ((contents (getObject core "components")).set
      "schemas" (getObject (contents (getObject core "components")) "schemas"))) =
        withSchemas core [] := by
    rw [withSchemas, OrderedDict.setAll_nil, obj_contents hschemas]
  rw [mergeSchemas, asDict_of_isObject hgateway.components, Except.ok_bind,
    asDict_of_isObject hcomponents, Except.ok_bind, asDict_of_isObject hgateway.schemas,
    Except.ok_bind, hdefault]
  exact foldlM_setGatewaySchema core [] _

theorem mergeTags_ok {core : OrderedDict String Json} (hcore : WellFormed coreSchema)
    (htags : core.get? "tags" = (contents coreSchema).get? "tags")
    (hgateway : WellFormed gatewaySchema) : mergeTags core (contents gatewaySchema) =
      .ok (withTags core (freshTags (tagNames coreSchema) (documentTags gatewaySchema))) := by
  have hseen : ((documentTags coreSchema).map contents).filterMap (fun tag => tagName (.obj tag)) =
      tagNames coreSchema := by
    rw [List.filterMap_map, tagNames]
    refine List.filterMap_congr fun tag htag => ?_
    rw [Function.comp_apply, obj_contents (hcore.tagObjects tag htag)]
  have hlist : HasTagList core := by
    rw [HasTagList, htags]
    exact hcore.tags
  obtain ⟨seen', hfold⟩ := foldlM_addGatewayTag hlist (tagNames coreSchema)
    (documentTags gatewaySchema)
  rw [mergeTags, htags, iterate_tags hcore, Except.ok_bind, mapM_asDict hcore.tagObjects,
    Except.ok_bind, hseen, iterate_tags hgateway, Except.ok_bind, hfold]
  rfl

/-- The merge of well-formed documents succeeds. -/
theorem mergeGatewayOpenapi_ok (hcore : WellFormed coreSchema)
    (hgateway : WellFormed gatewaySchema) : mergeGatewayOpenapi coreSchema gatewaySchema =
      .ok (.obj (mergedCore coreSchema gatewaySchema)) := by
  have hcomponents : getObject (withPaths (contents coreSchema)
      (documentPaths gatewaySchema).entries) "components" =
        getObject (contents coreSchema) "components" := getObject_withPaths (by decide)
  rw [mergeGatewayOpenapi, asDict_of_isObject hcore.isObject, Except.ok_bind,
    asDict_of_isObject hgateway.isObject, Except.ok_bind, mergePaths_ok hcore.paths hgateway,
    Except.ok_bind, mergeSchemas_ok (hcomponents ▸ hcore.components)
      (hcomponents ▸ hcore.schemas) hgateway, Except.ok_bind, mergeTags_ok hcore ?_ hgateway,
    Except.ok_bind, mergedCore]
  · rfl
  · rw [withSchemas, OrderedDict.get?_set_of_ne _ (by decide), get?_withPaths (by decide)]

end

end OpenApi

end AranesLms
