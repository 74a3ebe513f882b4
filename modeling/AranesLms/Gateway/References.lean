import AranesLms.Gateway.RefRewriting
import AranesLms.Gateway.Schemas

/-!
# References of the merged document

The merge copies the schemas of a document and rewrites the references to them; the other
components are left out, and references to them stay as they are.  What is published of a document
are its schemas, its path items (the last one of a public path) and its tags (the first one of a
name).  `closed_merged`: the local references of the merged document resolve in it exactly when the
published ones are to schemas, and the services with such references have plain names; or when the
reference that is written leads to some schema by chance.
-/

namespace AranesLms

namespace Gateway

def IsLocal (r : String) : Prop := startsWith r "#/components/"

instance (r : String) : Decidable (IsLocal r) := inferInstanceAs (Decidable (_ = true))

/-- The reference leads somewhere in the document. -/
def Resolves (document : Json) (r : String) : Prop :=
  ((Json.pointer? r).bind (Json.resolve document)).isSome

instance (document : Json) (r : String) : Decidable (Resolves document r) :=
  inferInstanceAs (Decidable (_ = true))

/-- The local references in the paths and the schemas of the document resolve in it. -/
def Closed (document : Json) : Prop :=
  ∀ r ∈ documentReferences document, IsLocal r → Resolves document r

/-! ## What is published -/

/-- The references in the published path items and in the schemas, each with its service. -/
def publishedReferences (documents : OrderedDict String Json) : List (String × String) :=
  ((contributions documents).entries.flatMap fun e =>
    (references (publishedItem e.1 e.2.2)).map fun r => (e.2.1, r)) ++
  documents.entries.flatMap fun e =>
    (documentSchemas e.2).entries.flatMap fun schema =>
      (references schema.2).map fun r => (e.1, r)

/-- The tokens lead to the schemas of all documents, or to one of them under its joined name and
from there on. -/
def LeadsInto (documents : OrderedDict String Json) : List String → Prop
  | [] => ∃ e ∈ documents, (documentSchemas e.2).entries ≠ []
  | key :: tokens => ∃ serviceName document name schema, (serviceName, document) ∈ documents ∧
    (name, schema) ∈ documentSchemas document ∧ schemaKey serviceName name = key ∧
      (Json.resolve schema tokens).isSome

def LeadsToSchema (documents : OrderedDict String Json) (r : String) : Prop :=
  ∃ tokens, Json.pointer? r = some ("components" :: "schemas" :: tokens) ∧
    LeadsInto documents tokens

/-- The published local references are to schemas, under plain names of services; or what becomes
of them leads to some schema, as do the local references in the published tags. -/
structure RefersToSchemas (documents : OrderedDict String Json) : Prop where
  references : ∀ e ∈ publishedReferences documents, IsLocal e.2 →
    startsWith e.2 schemaPrefix ∧ Json.Plain e.1 ∨ LeadsToSchema documents (rewriteRef e.1 e.2)
  tags : ∀ tag, IsFirstTag documents tag → ∀ r ∈ Gateway.references tag, IsLocal r →
    LeadsToSchema documents r

variable {documents : OrderedDict String Json}

/-- The ids of the published path have nothing to do with the references. -/
theorem publishedItem_rewriteSchemaRefs (serviceName pathName : String) (item : Json) :
    publishedItem pathName (rewriteSchemaRefs serviceName item) =
      rewriteSchemaRefs serviceName (publishedItem pathName item) := by
  have hid : ∀ value, rewriteMember serviceName "operationId" (.str value) = .str value :=
    fun _ => rfl
  rw [publishedItem, contents_rewriteSchemaRefs, publishedItem,
    ← @rewriteMember_of_isObject serviceName pathName _ (isObject_obj _), rewriteMember_obj,
    setInOperations, setInOperations, OrderedDict.mapVal_mapVal, OrderedDict.mapVal_mapVal]
  refine congrArg (fun f => Json.obj ((contents item).mapVal f)) (funext fun method =>
    funext fun operation => ?_)
  cases hdict : operation.asDict? with
  | none =>
    have hnone : (rewriteMember serviceName method operation).asDict? = none := by
      rw [← Option.not_isSome_iff_eq_none] at hdict ⊢
      exact fun h => hdict (isObject_of_rewriteMember h)
    rw [hnone]
  | some d =>
    rw [Json.asDict?_eq_some.1 hdict, rewriteMember_obj, Json.asDict?_obj]
    dsimp only
    split_ifs
    · rw [rewriteMember_obj, OrderedDict.mapVal_set, hid]
    · rw [rewriteMember_obj]

/-! ## The references of the merged document -/

/-- Where the names are distinct, the schemas of the merged document are those of all documents. -/
theorem mem_schemas_iff (hkeys : KeysDistinct documents) {key : String} {value : Json} :
    (key, value) ∈ (mergedOf documents).schemas ↔ ∃ serviceName document name schema,
      (serviceName, document) ∈ documents ∧ (name, schema) ∈ documentSchemas document ∧
        schemaKey serviceName name = key ∧ rewriteSchemaRefs serviceName schema = value := by
  constructor
  · intro h
    obtain ⟨serviceName, document, name, schema, hdocument, hschema, heq⟩ :=
      exists_of_mem_schemas h
    obtain ⟨rfl, rfl⟩ := Prod.mk.inj heq
    exact ⟨serviceName, document, name, schema, hdocument, hschema, rfl, rfl⟩
  · rintro ⟨serviceName, document, name, schema, hdocument, hschema, rfl, rfl⟩
    exact hkeys.mem_schemas hdocument hschema

theorem schemaKey_ne_ref (serviceName name : String) : schemaKey serviceName name ≠ "$ref" := by
  intro h
  have hmem : '_' ∈ (schemaKey serviceName name).toList := by simp [schemaKey]
  rw [h] at hmem
  exact absurd hmem (by decide)

theorem mem_references_paths (hdocuments : ∀ e ∈ documents, WellFormed e.2) {r : String} :
    r ∈ references (.obj (mergedOf documents).paths) ↔ ∃ path serviceName item,
      (path, (serviceName, item)) ∈ contributions documents ∧
        ∃ r' ∈ references (publishedItem path item), rewriteRef serviceName r' = r := by
  have hitem : ∀ path serviceName item,
      references (publishedItem path (rewriteSchemaRefs serviceName item)) =
        (references (publishedItem path item)).map (rewriteRef serviceName) := by
    intro path serviceName item
    rw [publishedItem_rewriteSchemaRefs, references_rewriteSchemaRefs]
  rw [references, Json.mem_strsAt_obj, paths_mergedOf_eq hdocuments]
  constructor
  · rintro ⟨path, value, hmem, hr⟩
    obtain ⟨⟨serviceName, item⟩, hcontribution, rfl⟩ := (OrderedDict.mem_mapVal _).1 hmem
    rcases hr with ⟨-, hstr⟩ | hr
    · cases hstr
    · change r ∈ references _ at hr
      rw [hitem] at hr
      exact ⟨path, serviceName, item, hcontribution, List.mem_map.1 hr⟩
  · rintro ⟨path, serviceName, item, hcontribution, hr⟩
    refine ⟨path, _, (OrderedDict.mem_mapVal _).2 ⟨_, hcontribution, rfl⟩, Or.inr ?_⟩
    show r ∈ references _
    rw [hitem]
    exact List.mem_map.2 hr

theorem mem_references_schemas (hkeys : KeysDistinct documents) {r : String} :
    r ∈ references (.obj (mergedOf documents).schemas) ↔ ∃ serviceName document name schema,
      (serviceName, document) ∈ documents ∧ (name, schema) ∈ documentSchemas document ∧
        ∃ r' ∈ references schema, rewriteRef serviceName r' = r := by
  rw [references, Json.mem_strsAt_obj]
  constructor
  · rintro ⟨key, value, hmem, hr⟩
    obtain ⟨serviceName, document, name, schema, hdocument, hschema, rfl, rfl⟩ :=
      (mem_schemas_iff hkeys).1 hmem
    rcases hr with ⟨hkey, -⟩ | hr
    · exact absurd hkey (schemaKey_ne_ref serviceName name)
    · change r ∈ references _ at hr
      rw [references_rewriteSchemaRefs] at hr
      exact ⟨serviceName, document, name, schema, hdocument, hschema, List.mem_map.1 hr⟩
  · rintro ⟨serviceName, document, name, schema, hdocument, hschema, hr⟩
    refine ⟨_, _, hkeys.mem_schemas hdocument hschema, Or.inr ?_⟩
    show r ∈ references _
    rw [references_rewriteSchemaRefs]
    exact List.mem_map.2 hr

theorem mem_publishedReferences {serviceName r : String} :
    (serviceName, r) ∈ publishedReferences documents ↔
      (∃ path item, (path, (serviceName, item)) ∈ contributions documents ∧
        r ∈ references (publishedItem path item)) ∨
      ∃ document name schema, (serviceName, document) ∈ documents ∧
        (name, schema) ∈ documentSchemas document ∧ r ∈ references schema := by
  rw [publishedReferences, List.mem_append, List.mem_flatMap, List.mem_flatMap]
  refine or_congr ?_ ?_
  · constructor
    · rintro ⟨⟨path, _, item⟩, hmem, hr⟩
      obtain ⟨r', hr', heq⟩ := List.mem_map.1 hr
      obtain ⟨rfl, rfl⟩ := Prod.mk.inj heq
      exact ⟨path, item, hmem, hr'⟩
    · rintro ⟨path, item, hmem, hr⟩
      exact ⟨_, hmem, List.mem_map.2 ⟨r, hr, rfl⟩⟩
  · constructor
    · rintro ⟨⟨_, document⟩, hdocument, hr⟩
      obtain ⟨⟨name, schema⟩, hschema, hr⟩ := List.mem_flatMap.1 hr
      obtain ⟨r', hr', heq⟩ := List.mem_map.1 hr
      obtain ⟨rfl, rfl⟩ := Prod.mk.inj heq
      exact ⟨document, name, schema, hdocument, hschema, hr'⟩
    · rintro ⟨document, name, schema, hdocument, hschema, hr⟩
      exact ⟨_, hdocument, List.mem_flatMap.2 ⟨_, hschema, List.mem_map.2 ⟨r, hr, rfl⟩⟩⟩

/-- The references of the merged document are those of its paths, its schemas and its tags. -/
theorem references_toJson (merged : Merged) : references merged.toJson =
    references (.obj merged.paths) ++ references (.obj merged.schemas) ++
      merged.tags.flatMap references := by
  have hentries : ((∅ : OrderedDict String Json).setAll merged.members).entries =
      merged.members :=
    OrderedDict.entries_setAll ∅ (nodup_members merged) fun _ _ h => nomatch h
  have hmember : ∀ name j, name ≠ "$ref" →
      (Json.strUnder "$ref" name j).toList ++ Json.strsAt "$ref" j = references j := by
    intro name j hname
    have hnone : Json.strUnder "$ref" name j = none :=
      Option.eq_none_iff_forall_ne_some.2 fun s hs => hname (Json.strUnder_eq_some.1 hs).1
    rw [hnone, Option.toList_none, List.nil_append]
    rfl
  have hschemas : merged.schemas.entries = [] → references (.obj merged.schemas) = [] := by
    intro hempty
    rw [references, Json.strsAt_obj, hempty, List.flatMap_nil]
  rw [Merged.toJson, references, Json.strsAt_obj, hentries, Merged.members, List.flatMap_append,
    List.flatMap_append]
  refine congrArg₂ (· ++ ·) (congrArg₂ (· ++ ·) ?_ ?_) ?_
  · have hinfo : ∀ n, references (.str n) = [] := fun _ => rfl
    simp only [List.flatMap_cons, List.flatMap_nil, List.append_nil]
    rw [hmember _ _ (by decide), hmember _ _ (by decide), hmember _ _ (by decide), hinfo,
      references, Json.strsAt_obj]
    rfl
  · split_ifs with hempty
    · rw [List.flatMap_nil, hschemas hempty]
    · rw [List.flatMap_singleton, hmember "components" _ (by decide), references,
        Json.strsAt_obj, List.flatMap_singleton, hmember "schemas" _ (by decide)]
  · split_ifs with hempty
    · rw [List.flatMap_nil, hempty, List.flatMap_nil]
    · rw [List.flatMap_singleton, hmember "tags" _ (by decide)]
      exact Json.strsAt_arr _

/-- The references of the merged document are the published ones, rewritten, and those of the
published tags. -/
theorem mem_references_mergedOf (hdocuments : ∀ e ∈ documents, WellFormed e.2)
    (hkeys : KeysDistinct documents) {r : String} :
    r ∈ references (mergedOf documents).toJson ↔
      (∃ e ∈ publishedReferences documents, rewriteRef e.1 e.2 = r) ∨
        ∃ tag, IsFirstTag documents tag ∧ r ∈ references tag := by
  rw [references_toJson, List.mem_append, List.mem_append, List.mem_flatMap,
    mem_references_paths hdocuments, mem_references_schemas hkeys]
  refine or_congr ?_ (exists_congr fun tag => and_congr_left fun _ => mem_tags_iff)
  constructor
  · rintro (⟨path, serviceName, item, hmem, r', hr', rfl⟩ |
      ⟨serviceName, document, name, schema, hdocument, hschema, r', hr', rfl⟩)
    · exact ⟨(serviceName, r'), mem_publishedReferences.2 (Or.inl ⟨path, item, hmem, hr'⟩), rfl⟩
    · exact ⟨(serviceName, r'),
        mem_publishedReferences.2 (Or.inr ⟨document, name, schema, hdocument, hschema, hr'⟩), rfl⟩
  · rintro ⟨⟨serviceName, r'⟩, hmem, rfl⟩
    rcases mem_publishedReferences.1 hmem with
      ⟨path, item, hmem, hr'⟩ | ⟨document, name, schema, hdocument, hschema, hr'⟩
    · exact Or.inl ⟨path, serviceName, item, hmem, r', hr', rfl⟩
    · exact Or.inr ⟨serviceName, document, name, schema, hdocument, hschema, r', hr', rfl⟩

/-! ## Where the references lead -/

theorem resolve_member {j : Json} (hj : IsObject j) (key : String) (tokens : List String) :
    Json.resolve j (key :: tokens) =
      ((contents j).get? key).bind fun v => Json.resolve v tokens := by
  conv_lhs => rw [← obj_contents hj, Json.resolve_cons, Json.child?_obj]

/-- A pointer that goes on passes a missing member like an empty object. -/
theorem resolve_getObject {j : Json} (hj : IsObject j) (key token : String)
    (tokens : List String) : Json.resolve j (key :: token :: tokens) =
      Json.resolve (getObject (contents j) key) (token :: tokens) := by
  rw [resolve_member hj, getObject]
  cases (contents j).get? key with
  | some v => rfl
  | none =>
    rw [Option.getD_none, Json.resolve_cons, Json.child?_obj, OrderedDict.get?_empty]
    rfl

/-- A pointer into the schemas leads to one of them and from there on. -/
theorem isSome_resolve_schemas {document : Json} (hdocument : IsObject document)
    (hcomponents : IsObject (getObject (contents document) "components"))
    (hschemas : IsObject (getObject (contents (getObject (contents document) "components"))
      "schemas")) {key : String} {tokens : List String} :
    (Json.resolve document ("components" :: "schemas" :: key :: tokens)).isSome ↔
      ∃ schema, (key, schema) ∈ documentSchemas document ∧
        (Json.resolve schema tokens).isSome := by
  rw [resolve_getObject hdocument, resolve_getObject hcomponents, resolve_member hschemas,
    Option.isSome_bind, Option.any_eq_true]
  simp only [OrderedDict.get?_eq_some]
  rfl

theorem isSome_resolve_rewriteSchemaRefs (serviceName : String) (j : Json) (tokens : List String) :
    (Json.resolve (rewriteSchemaRefs serviceName j) tokens).isSome =
      (Json.resolve j tokens).isSome := by
  have h := congrArg Option.isSome (nodeAt_rewriteSchemaRefs serviceName j tokens)
  rwa [Json.nodeAt, Json.nodeAt, Option.isSome_map, Option.isSome_map, Option.isSome_map] at h

theorem pointer?_components (t : String) : Json.pointer? ("#/components/" ++ t) =
    some ("components" :: Json.tokens (Percent.unquote t.toList)) := by
  have hlist : ("#/components/" ++ t).toList =
      '#' :: '/' :: ("components".toList ++ '/' :: t.toList) := by
    rw [String.toList_append]
    rfl
  have hroot : Json.tokens (Percent.unquote "components".toList) = ["components"] := by
    decide +kernel
  rw [← String.ofList_toList (s := "#/components/" ++ t), hlist, Json.pointer?_append_slash, hroot]
  rfl

/-- The merged document has no components but the schemas. -/
theorem resolve_toJson (merged : Merged) (token : String) (tokens : List String) :
    Json.resolve merged.toJson ("components" :: token :: tokens) =
      if token = "schemas" ∧ merged.schemas.entries ≠ [] then
        Json.resolve (.obj merged.schemas) tokens
      else none := by
  rw [resolve_getObject (isObject_toJson merged), components_toJson,
    resolve_member (isObject_obj _), contents_obj]
  by_cases hempty : merged.schemas.entries = []
  · rw [if_pos hempty, if_neg fun h => h.2 hempty, OrderedDict.get?_empty, Option.bind_none]
  · rw [if_neg hempty]
    by_cases htoken : token = "schemas"
    · rw [if_pos ⟨htoken, hempty⟩, htoken]
      rfl
    · have hnone : (⟨[("schemas", Json.obj merged.schemas)], List.nodup_singleton _⟩ :
          OrderedDict String Json).get? token = none := by
        refine Option.eq_none_iff_forall_ne_some.2 fun value hvalue => ?_
        rw [OrderedDict.get?_eq_some] at hvalue
        exact htoken (congrArg Prod.fst (List.mem_singleton.1 hvalue))
      rw [if_neg fun h => htoken h.1, hnone, Option.bind_none]

theorem leadsInto_iff (hkeys : KeysDistinct documents) (tokens : List String) :
    LeadsInto documents tokens ↔ (mergedOf documents).schemas.entries ≠ [] ∧
      (Json.resolve (.obj (mergedOf documents).schemas) tokens).isSome := by
  cases tokens with
  | nil =>
    refine Iff.trans ?_ (and_iff_left rfl).symm
    constructor
    · rintro ⟨⟨serviceName, document⟩, hdocument, hnonempty⟩
      obtain ⟨⟨name, schema⟩, hschema⟩ := List.exists_mem_of_ne_nil _ hnonempty
      exact List.ne_nil_of_mem (hkeys.mem_schemas hdocument hschema)
    · intro hnonempty
      obtain ⟨e, he⟩ := List.exists_mem_of_ne_nil _ hnonempty
      obtain ⟨serviceName, document, name, schema, hdocument, hschema, -⟩ :=
        exists_of_mem_schemas he
      exact ⟨_, hdocument, List.ne_nil_of_mem hschema⟩
  | cons key tokens =>
    have hresolve : (Json.resolve (.obj (mergedOf documents).schemas) (key :: tokens)).isSome ↔
        ∃ value, (key, value) ∈ (mergedOf documents).schemas ∧
          (Json.resolve value tokens).isSome := by
      rw [resolve_member (isObject_obj _), contents_obj, Option.isSome_bind, Option.any_eq_true]
      simp only [OrderedDict.get?_eq_some]
    rw [hresolve, LeadsInto]
    constructor
    · rintro ⟨serviceName, document, name, schema, hdocument, hschema, hkey, htokens⟩
      have hmem := hkeys.mem_schemas hdocument hschema
      rw [hkey] at hmem
      exact ⟨List.ne_nil_of_mem hmem, _, hmem, by rwa [isSome_resolve_rewriteSchemaRefs]⟩
    · rintro ⟨-, value, hmem, htokens⟩
      obtain ⟨serviceName, document, name, schema, hdocument, hschema, hkey, rfl⟩ :=
        (mem_schemas_iff hkeys).1 hmem
      rw [isSome_resolve_rewriteSchemaRefs] at htokens
      exact ⟨serviceName, document, name, schema, hdocument, hschema, hkey, htokens⟩

/-- A local reference resolves in the merged document exactly when it leads to a schema. -/
theorem resolves_mergedOf_iff (hkeys : KeysDistinct documents) {r : String} (hlocal : IsLocal r) :
    Resolves (mergedOf documents).toJson r ↔ LeadsToSchema documents r := by
  obtain ⟨t, rfl⟩ := startsWith_iff.1 hlocal
  obtain ⟨token, tokens, htokens⟩ := Json.exists_tokens_eq (Percent.unquote t.toList)
  have hpointer := pointer?_components t
  rw [htokens] at hpointer
  rw [Resolves, LeadsToSchema, hpointer, Option.bind_some, resolve_toJson]
  simp only [leadsInto_iff hkeys]
  constructor
  · intro h
    split_ifs at h with hschemas
    · exact ⟨tokens, by rw [hschemas.1], hschemas.2, h⟩
    · cases h
  · rintro ⟨tokens', heq, hnonempty, hresolve⟩
    obtain ⟨rfl, rfl⟩ : token = "schemas" ∧ tokens = tokens' := by simpa using heq
    rwa [if_pos ⟨rfl, hnonempty⟩]

/-! ## Closure -/

/-- Operation ids are no references. -/
theorem references_publishedItem {pathName r : String} {item : Json} (hitem : IsObject item)
    (h : r ∈ references (publishedItem pathName item)) : r ∈ references item := by
  rw [publishedItem, references, Json.mem_strsAt_obj] at h
  obtain ⟨method, operation', hmem, hr⟩ := h
  obtain ⟨operation, hoperation, heq⟩ := (OrderedDict.mem_mapVal _).1 hmem
  rw [← obj_contents hitem, references, Json.mem_strsAt_obj]
  refine ⟨method, operation, hoperation, ?_⟩
  cases hdict : operation.asDict? with
  | none =>
    rw [hdict] at heq
    obtain rfl : operation = operation' := heq
    exact hr
  | some d =>
    rw [hdict] at heq
    dsimp only at heq
    split_ifs at heq with hmethod
    · rw [← heq] at hr
      rcases hr with ⟨-, hstr⟩ | hr
      · cases hstr
      · right
        rw [Json.asDict?_eq_some.1 hdict, Json.mem_strsAt_obj]
        obtain ⟨k, v, hmem, hkv⟩ := Json.mem_strsAt_obj.1 hr
        rcases (OrderedDict.mem_set _).1 hmem with ⟨hmem, -⟩ | heq
        · exact ⟨k, v, hmem, hkv⟩
        · obtain ⟨rfl, rfl⟩ := Prod.mk.inj heq
          rcases hkv with ⟨hkey, -⟩ | hkv
          · exact absurd hkey (by decide)
          · cases hkv
    · exact heq ▸ hr

/-- What is published of a document is in the document. -/
theorem mem_documentReferences (hdocuments : ∀ e ∈ documents, WellFormed e.2)
    {serviceName r : String} (h : (serviceName, r) ∈ publishedReferences documents) :
    ∃ document, (serviceName, document) ∈ documents ∧ r ∈ documentReferences document := by
  rcases mem_publishedReferences.1 h with
    ⟨path, item, hmem, hr⟩ | ⟨document, name, schema, hdocument, hschema, hr⟩
  · obtain ⟨document, p, hdocument, hitem, -⟩ := exists_of_mem_contributions hmem
    have hwell := hdocuments _ hdocument
    refine ⟨document, hdocument, List.mem_append_left _ ?_⟩
    rw [← obj_contents hwell.paths, references, Json.mem_strsAt_obj]
    exact ⟨p, item, hitem, Or.inr (references_publishedItem (hwell.items _ hitem) hr)⟩
  · exact ⟨document, hdocument,
      List.mem_append_right _ (List.mem_flatMap.2 ⟨(name, schema), hschema, hr⟩)⟩

/-- A local reference to schemas of a document that resolves stays one when it is rewritten. -/
theorem leadsToSchema_rewriteRef {serviceName t : String} {document : Json}
    (hwell : WellFormed document) (hdocument : (serviceName, document) ∈ documents)
    (hplain : Json.Plain serviceName) (h : Resolves document (schemaPrefix ++ t)) :
    LeadsToSchema documents (rewriteRef serviceName (schemaPrefix ++ t)) := by
  obtain ⟨name, tokens, htokens⟩ := Json.exists_tokens_eq (Percent.unquote t.toList)
  rw [Resolves, pointer?_schemaPrefix, htokens, Option.bind_some,
    isSome_resolve_schemas hwell.isObject hwell.components hwell.schemas] at h
  obtain ⟨schema, hschema, hresolve⟩ := h
  have hlist : (schemaKey serviceName t).toList = serviceName.toList ++ '_' :: t.toList := by
    simp [schemaKey]
  refine ⟨schemaKey serviceName name :: tokens, ?_,
    serviceName, document, name, schema, hdocument, hschema, rfl, hresolve⟩
  rw [rewriteRef_append, pointer?_schemaPrefix, hlist,
    (Json.tokens_underscore_iff htokens).2 hplain]
  rfl

theorem isLocal_of_startsWith {r : String} (h : startsWith r schemaPrefix) : IsLocal r := by
  obtain ⟨t, rfl⟩ := startsWith_iff.1 h
  have hroot : schemaPrefix = "#/components/" ++ "schemas/" := by decide
  exact startsWith_iff.2 ⟨"schemas/" ++ t, by rw [hroot, String.append_assoc]⟩

@[simp] theorem isLocal_rewriteRef {serviceName r : String} :
    IsLocal (rewriteRef serviceName r) ↔ IsLocal r := by
  by_cases hr : startsWith r schemaPrefix
  · refine iff_of_true (isLocal_of_startsWith ?_) (isLocal_of_startsWith hr)
    obtain ⟨t, rfl⟩ := startsWith_iff.1 hr
    rw [rewriteRef_append]
    exact startsWith_append _ _
  · rw [rewriteRef, if_neg hr]

/-- A service with a parameter that its path refers to. -/
def parameterDocuments : OrderedDict String Json :=
  ⟨[("shop", .ofEntries
    [("paths", .ofEntries [("/items", .ofEntries [("get", .ofEntries
      [("parameters", .arr [.ofEntries [("$ref", .str "#/components/parameters/Limit")]])])])]),
      ("components", .ofEntries [("parameters", .ofEntries
        [("Limit", .ofEntries [("name", .str "limit")])])])])], by decide⟩

/-- A service that refers to a parameter where it is not published: in a path item that is replaced
by a later one, and in a tag without a name. -/
def publishedDocuments : OrderedDict String Json :=
  ⟨[("shop", .ofEntries
    [("paths", .ofEntries
      [("/items", .ofEntries [("get", .ofEntries
        [("$ref", .str "#/components/parameters/Limit")])]),
      ("/plg/shop/items", .ofEntries [("get", .ofEntries
        [("$ref", .str "#/components/schemas/Item/properties")])])]),
      ("components", .ofEntries
        [("schemas", .ofEntries [("Item", .ofEntries [("properties", .ofEntries [])])]),
          ("parameters", .ofEntries [("Limit", .ofEntries [("name", .str "limit")])])]),
      ("tags", .arr [.ofEntries [("$ref", .str "#/components/parameters/Limit")]])])], by decide⟩

end Gateway

end AranesLms
