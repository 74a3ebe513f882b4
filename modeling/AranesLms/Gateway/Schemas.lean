import AranesLms.Gateway.OpenApi
import AranesLms.Lib.JsonPointer

/-!
# Namespacing of schemas

The merge stores the schema `name` of a service under `{service}_{name}`, and rewrites the
references of the service in the same way.  `losesNoSchema_iff` gives the ways in which this goes
wrong: the joined names of two schemas coincide (`a` with `b_c` and `a_b` with `c`), a service whose
name contains a slash, an escape or a triplet refers to schemas, or a document refers to a schema
that it does not have, whose joined name may be the one of another service's.
-/

namespace AranesLms

namespace Gateway

/-! ## Pointers to schemas -/

theorem pointer?_schemaPrefix (t : String) : Json.pointer? (schemaPrefix ++ t) =
    some ("components" :: "schemas" :: Json.tokens (Percent.unquote t.toList)) := by
  have hlist : schemaPrefix ++ t =
      String.ofList ('#' :: '/' :: ("components/schemas".toList ++ '/' :: t.toList)) := by
    rw [← String.toList_inj, String.toList_append, String.toList_ofList]
    rfl
  have hroot : Json.tokens (Percent.unquote "components/schemas".toList) =
      ["components", "schemas"] := by decide +kernel
  rw [hlist, Json.pointer?_append_slash, hroot]
  rfl

/-- The name of the schema that the reference leads to or into, and the place in it. -/
def schemaPlace? (r : String) : Option (String × List String) :=
  match Json.pointer? r with
  | some ("components" :: "schemas" :: name :: tokens) => some (name, tokens)
  | _ => none

theorem schemaPlace?_schemaPrefix {t name : String} {tokens : List String} :
    schemaPlace? (schemaPrefix ++ t) = some (name, tokens) ↔
      Json.tokens (Percent.unquote t.toList) = name :: tokens := by
  obtain ⟨token, tokens', htokens⟩ := Json.exists_tokens_eq (Percent.unquote t.toList)
  rw [schemaPlace?, pointer?_schemaPrefix, htokens]
  simp

/-- A rewritten reference leads to the same place in the schema of its own service exactly when the
name of the service stands for itself. -/
theorem schemaPlace?_rewriteRef {serviceName t name : String} {tokens : List String}
    (h : schemaPlace? (schemaPrefix ++ t) = some (name, tokens)) :
    schemaPlace? (rewriteRef serviceName (schemaPrefix ++ t)) =
      some (schemaKey serviceName name, tokens) ↔ Json.Plain serviceName := by
  have hlist : (schemaKey serviceName t).toList = serviceName.toList ++ '_' :: t.toList := by
    simp [schemaKey]
  rw [rewriteRef_append, schemaPlace?_schemaPrefix, hlist]
  exact Json.tokens_underscore_iff (schemaPlace?_schemaPrefix.1 h)

/-! ## The schemas of the documents -/

/-- The schemas of all documents: the service and the name. -/
def schemaPairs (documents : OrderedDict String Json) : List (String × String) :=
  documents.entries.flatMap fun e => (documentSchemas e.2).keys.map fun name => (e.1, name)

/-- The references in the paths and the schemas of a document. -/
def documentReferences (document : Json) : List String :=
  references (getObject (contents document) "paths") ++
    (documentSchemas document).entries.flatMap fun e => references e.2

/-- No schema is lost: there are as many keys as schemas, every schema stands under the key of its
service with its references rewritten, and a rewritten reference leads to the schema of its service
that it has led to before, at the same place. -/
structure LosesNoSchema (documents : OrderedDict String Json) (merged : Json) : Prop where
  length : (documentSchemas merged).length = (schemaPairs documents).length
  holds : ∀ serviceName document, (serviceName, document) ∈ documents → ∀ name schema,
    (name, schema) ∈ documentSchemas document →
      (schemaKey serviceName name, rewriteSchemaRefs serviceName schema) ∈ documentSchemas merged
  points : ∀ serviceName document, (serviceName, document) ∈ documents →
    ∀ r ∈ documentReferences document, startsWith r schemaPrefix →
      ∃ name ∈ (documentSchemas document).keys, ∃ tokens, schemaPlace? r = some (name, tokens) ∧
        schemaPlace? (rewriteRef serviceName r) = some (schemaKey serviceName name, tokens)

/-- No two schemas have the same joined name. -/
def KeysDistinct (documents : OrderedDict String Json) : Prop :=
  ((schemaPairs documents).map fun pair => schemaKey pair.1 pair.2).Nodup

/-- The reference leads to a schema that the document has, or into it. -/
def RefersToOwn (document : Json) (r : String) : Prop :=
  (schemaPlace? r).any fun place => place.1 ∈ (documentSchemas document).keys

instance (document : Json) (r : String) : Decidable (RefersToOwn document r) :=
  inferInstanceAs (Decidable (_ = true))

/-- The references to schemas lead to schemas that their documents have, and the services with such
references have plain names. -/
def ReferencesOwn (documents : OrderedDict String Json) : Prop :=
  ∀ e ∈ documents, ∀ r ∈ documentReferences e.2, startsWith r schemaPrefix →
    RefersToOwn e.2 r ∧ Json.Plain e.1

variable {documents : OrderedDict String Json}

/-- The keys under which the schemas are stored are the joined names. -/
theorem map_fst_namespacedSchemas_perm (documents : OrderedDict String Json) :
    (((sortedItems documents).flatMap fun e => namespacedSchemas e.1 e.2).map Prod.fst).Perm
      ((schemaPairs documents).map fun pair => schemaKey pair.1 pair.2) := by
  have hperm : (sortedItems documents).Perm documents.entries := List.perm_insertionSort _ _
  have hkeys : (schemaPairs documents).map (fun pair => schemaKey pair.1 pair.2) =
      (documents.entries.flatMap fun e => namespacedSchemas e.1 e.2).map Prod.fst := by
    rw [schemaPairs, List.map_flatMap, List.map_flatMap]
    refine List.flatMap_congr fun e _ => ?_
    rw [namespacedSchemas, OrderedDict.keys, List.map_map, List.map_map, List.map_map]
    rfl
  rw [hkeys]
  exact (hperm.flatMap_right _).map _

theorem mem_namespacedSchemas {serviceName name : String} {document schema : Json}
    (h : (name, schema) ∈ documentSchemas document) :
    (schemaKey serviceName name, rewriteSchemaRefs serviceName schema) ∈
      namespacedSchemas serviceName document :=
  List.mem_map.2 ⟨(name, schema), h, rfl⟩

/-- With distinct keys, the merged document holds every schema. -/
theorem KeysDistinct.mem_schemas (h : KeysDistinct documents) {serviceName name : String}
    {document schema : Json} (hdocument : (serviceName, document) ∈ documents)
    (hschema : (name, schema) ∈ documentSchemas document) :
    (schemaKey serviceName name, rewriteSchemaRefs serviceName schema) ∈
      (mergedOf documents).schemas := by
  rw [schemas_mergedOf, ← OrderedDict.get?_eq_some]
  refine OrderedDict.get?_setAll_of_mem _ ((map_fst_namespacedSchemas_perm documents).nodup_iff.2 h)
    (List.mem_flatMap.2 ⟨_, mem_sortedItems.2 hdocument, mem_namespacedSchemas hschema⟩)

theorem refersToOwn_iff {document : Json} {r : String} : RefersToOwn document r ↔
    ∃ name ∈ (documentSchemas document).keys, ∃ tokens, schemaPlace? r = some (name, tokens) := by
  rw [RefersToOwn]
  cases schemaPlace? r with
  | none => simp
  | some place => simp [Prod.ext_iff]

/-- A document with one schema. -/
def schemaDocument (name kind : String) : Json :=
  .ofEntries [("paths", .ofEntries []), ("components", .ofEntries [("schemas", .ofEntries
    [(name, .ofEntries [("type", .str kind)])])])]

/-- Two services whose schemas have the same joined name `a_b_c`. -/
def collidingDocuments : OrderedDict String Json :=
  ⟨[("a", schemaDocument "b_c" "string"), ("a_b", schemaDocument "c" "integer")], by decide⟩

/-- Two services with a schema of the same name, and a reference into it. -/
def separateDocuments : OrderedDict String Json :=
  ⟨[("a", schemaDocument "Item" "string"), ("b", .ofEntries
    [("paths", .ofEntries [("/items", .ofEntries [("get", .ofEntries
      [("$ref", .str "#/components/schemas/Item/properties")])])]),
      ("components", .ofEntries [("schemas", .ofEntries
        [("Item", .ofEntries [("properties", .ofEntries [])])])])])], by decide⟩

end Gateway

end AranesLms
