import AranesLms.Http.GatewayMerge
import AranesLms.Lib.LengthPrefix
import Mathlib.Data.List.Forall2
import Mathlib.Data.List.TakeWhile

/-!
# Operation ids

Both mergers overwrite the ids of the operations of the gateway.  An id is the public path, with
`_` for `/` and `-`, and the method; so `/plg/shop/items/list` and `/plg/shop/items-list` get the
same ids.  An operation with the method `trace`, which the mergers do not look for, keeps the id of
its service.  `operationIdsUnique_iff`: the ids are unique in both merged documents exactly when the
paths of the services keep them apart.
-/

namespace AranesLms

namespace OpenApi

open Gateway

/-! ## The ids of a document -/

/-- The methods of the operations of a path item. -/
def operationMethods : List String := methods ++ ["trace"]

/-- Under the method, the path item has the operation. -/
def HasOperation (item : OrderedDict String Json) (method : String)
    (operation : OrderedDict String Json) : Prop :=
  (method, .obj operation) ∈ item

instance (item : OrderedDict String Json) (method : String) (operation : OrderedDict String Json) :
    Decidable (HasOperation item method operation) :=
  inferInstanceAs (Decidable (_ ∈ item.entries))

/-- `operation["operationId"]`, if it is a string. -/
def operationId (operation : OrderedDict String Json) : Option String :=
  match operation.get? "operationId" with
  | some (.str value) => some value
  | _ => none

/-- The path item has an operation with the id. -/
def ItemCarries (item : OrderedDict String Json) (method value : String) : Prop :=
  method ∈ operationMethods ∧
    ∃ operation, HasOperation item method operation ∧ operationId operation = some value

def Carries (paths : OrderedDict String Json) (path method value : String) : Prop :=
  ∃ item, (path, item) ∈ paths ∧ ItemCarries (contents item) method value

/-- No two operations have the same id. -/
def UniqueOperationIds (paths : OrderedDict String Json) : Prop :=
  ∀ path method path' method' value, Carries paths path method value →
    Carries paths path' method' value → path = path' ∧ method = method'

/-- Both mergers succeed, and the ids of the operations of the gateway are unique in its own
document and in the one of the core. -/
def OperationIdsUnique (documents : OrderedDict String Json) (coreSchema : Json) : Prop :=
  ∃ gatewaySchema merged, mergeOpenapiDocuments documents = .ok gatewaySchema ∧
    mergeGatewayOpenapi coreSchema gatewaySchema = .ok merged ∧
    UniqueOperationIds (documentPaths gatewaySchema) ∧
    UniqueOperationIds
      ((documentPaths merged).retain fun e => e.1 ∈ (documentPaths gatewaySchema).keys)

/-! ## Paths that are kept apart -/

/-- A service has the operation under the public path. -/
def Offers (documents : OrderedDict String Json) (path method : String)
    (operation : OrderedDict String Json) : Prop :=
  ∃ serviceName item, (path, (serviceName, item)) ∈ contributions documents ∧
    HasOperation (contents item) method operation

/-- `path_name.strip("/")`. -/
def stripSlashes (pathName : String) : List Char :=
  ((pathName.toList.dropWhile (· = '/')).reverse.dropWhile (· = '/')).reverse

def separators : List Char := ['/', '-', '_']

/-- The characters are the same, or both separate. -/
def Alike (c c' : Char) : Prop := c = c' ∨ c ∈ separators ∧ c' ∈ separators

instance (c c' : Char) : Decidable (Alike c c') := inferInstanceAs (Decidable (_ ∨ _ ∧ _))

/-- The paths differ in nothing but their separators and the slashes around them. -/
def Confusable (path path' : String) : Prop :=
  List.Forall₂ Alike (stripSlashes path) (stripSlashes path')

instance (path path' : String) : Decidable (Confusable path path') :=
  inferInstanceAs (Decidable (List.Forall₂ Alike _ _))

/-- The id has no slashes and hyphens, and differs from the path with the method behind it in
nothing but the separators. -/
def Imitates (value path method : String) : Prop :=
  '/' ∉ value.toList ∧ '-' ∉ value.toList ∧
    List.Forall₂ Alike value.toList (stripSlashes path ++ '_' :: method.toList)

instance (value path method : String) : Decidable (Imitates value path method) :=
  inferInstanceAs (Decidable (_ ∧ _ ∧ List.Forall₂ Alike _ _))

/-- The public paths with one method are not confusable, and the ids that the services themselves
give to their `trace` operations are distinct and imitate no other operation. -/
structure IdsApart (documents : OrderedDict String Json) : Prop where
  paths : ∀ method ∈ methods, ∀ path path' operation operation',
    Offers documents path method operation → Offers documents path' method operation' →
      Confusable path path' → path = path'
  traces : ∀ path path' operation operation' value, Offers documents path "trace" operation →
    Offers documents path' "trace" operation' → operationId operation = some value →
      operationId operation' = some value → path = path'
  imitations : ∀ method ∈ methods, ∀ path path' operation operation' value,
    Offers documents path "trace" operation → operationId operation = some value →
      Offers documents path' method operation' → ¬ Imitates value path' method

/-! ## Underscores -/

/-- `.replace("/", "_").replace("-", "_")`, for one character. -/
def underscore (c : Char) : Char := if c = '/' ∨ c = '-' then '_' else c

theorem underscore_of_mem {c : Char} (h : c ∈ separators) : underscore c = '_' := by
  rw [separators, List.mem_cons, List.mem_cons, List.mem_singleton] at h
  rcases h with rfl | rfl | rfl <;> rfl

theorem underscore_of_notMem {c : Char} (h : c ∉ separators) : underscore c = c := by
  rw [separators, List.mem_cons, List.mem_cons, not_or, not_or] at h
  rw [underscore, if_neg]
  rintro (hc | hc)
  · exact h.1 hc
  · exact h.2.1 hc

theorem underscore_eq_underscore {c c' : Char} : underscore c = underscore c' ↔ Alike c c' := by
  have hunderscore : '_' ∈ separators := by decide
  by_cases hc : c ∈ separators
  · by_cases hc' : c' ∈ separators
    · rw [underscore_of_mem hc, underscore_of_mem hc']
      exact iff_of_true rfl (Or.inr ⟨hc, hc'⟩)
    · rw [underscore_of_mem hc, underscore_of_notMem hc']
      refine iff_of_false (fun h => hc' (h ▸ hunderscore)) ?_
      rintro (h | h)
      · exact hc' (h ▸ hc)
      · exact hc' h.2
  · rw [underscore_of_notMem hc]
    constructor
    · intro h
      by_cases hc' : c' ∈ separators
      · rw [underscore_of_mem hc'] at h
        exact absurd (h ▸ hunderscore) hc
      · rw [underscore_of_notMem hc'] at h
        exact Or.inl h
    · rintro (h | h)
      · rw [← h, underscore_of_notMem hc]
      · exact absurd h.1 hc

theorem map_underscore_eq {l l' : List Char} :
    l.map underscore = l'.map underscore ↔ List.Forall₂ Alike l l' := by
  rw [← List.forall₂_eq_eq_eq, List.forall₂_map_left_iff, List.forall₂_map_right_iff]
  simp only [underscore_eq_underscore]

theorem map_underscore_of_notMem {l : List Char} (hslash : '/' ∉ l) (hhyphen : '-' ∉ l) :
    l.map underscore = l := by
  conv_rhs => rw [← List.map_id l]
  refine List.map_congr_left fun c hc => ?_
  rw [underscore, if_neg, id_eq]
  rintro (rfl | rfl)
  · exact hslash hc
  · exact hhyphen hc

theorem underscore_ne (c : Char) : underscore c ≠ '/' ∧ underscore c ≠ '-' := by
  rw [underscore]
  split_ifs with h
  · decide
  · exact not_or.1 h

theorem notMem_map_underscore (l : List Char) :
    '/' ∉ l.map underscore ∧ '-' ∉ l.map underscore := by
  constructor
  · intro h
    obtain ⟨c, -, hc⟩ := List.mem_map.1 h
    exact (underscore_ne c).1 hc
  · intro h
    obtain ⟨c, -, hc⟩ := List.mem_map.1 h
    exact (underscore_ne c).2 hc

/-! ## The ids of the mergers -/

theorem pathPrefix_of_ne_nil {path : String} (h : stripSlashes path ≠ []) (default : String) :
    pathPrefix path default = String.ofList ((stripSlashes path).map underscore) :=
  if_neg h

theorem toList_pathPrefix_append {path : String} (h : stripSlashes path ≠ [])
    (default method : String) : (pathPrefix path default ++ "_" ++ method).toList =
      (stripSlashes path).map underscore ++ '_' :: method.toList := by
  rw [pathPrefix_of_ne_nil h, String.toList_append, String.toList_append, String.toList_ofList,
    List.append_assoc]
  rfl

theorem notMem_of_mem_methods {method : String} (h : method ∈ methods) :
    '_' ∉ method.toList ∧ '/' ∉ method.toList ∧ '-' ∉ method.toList := by
  have hmethods : ∀ method ∈ methods,
      '_' ∉ method.toList ∧ '/' ∉ method.toList ∧ '-' ∉ method.toList := by decide
  exact hmethods method h

/-- The id determines the method, and the path up to its separators. -/
theorem pathPrefix_append_inj {path path' method method' : String} (hpath : stripSlashes path ≠ [])
    (hpath' : stripSlashes path' ≠ []) (hmethod : method ∈ methods) (hmethod' : method' ∈ methods) :
    pathPrefix path "path" ++ "_" ++ method = pathPrefix path' "path" ++ "_" ++ method' ↔
      Confusable path path' ∧ method = method' := by
  rw [← String.toList_inj, toList_pathPrefix_append hpath, toList_pathPrefix_append hpath']
  constructor
  · intro h
    -- The last underscore stands before the method.
    have hreverse := congrArg List.reverse h
    rw [List.reverse_append, List.reverse_append, List.reverse_cons, List.reverse_cons,
      List.append_assoc, List.append_assoc, List.singleton_append, List.singleton_append]
      at hreverse
    obtain ⟨heq, hrest⟩ := Framing.append_sep_inj
      (fun hmem => (notMem_of_mem_methods hmethod).1 (List.mem_reverse.1 hmem))
      (fun hmem => (notMem_of_mem_methods hmethod').1 (List.mem_reverse.1 hmem)) hreverse
    exact ⟨map_underscore_eq.1 (List.reverse_injective hrest),
      String.toList_inj.1 (List.reverse_injective heq)⟩
  · rintro ⟨hconfusable, rfl⟩
    rw [map_underscore_eq.2 hconfusable]

/-- The texts that imitate an operation are those that are its id. -/
theorem pathPrefix_append_eq_iff {path method value : String} (hpath : stripSlashes path ≠ [])
    (hmethod : method ∈ methods) :
    pathPrefix path "path" ++ "_" ++ method = value ↔ Imitates value path method := by
  obtain ⟨-, hslash, hhyphen⟩ := notMem_of_mem_methods hmethod
  have hid : (stripSlashes path).map underscore ++ '_' :: method.toList =
      (stripSlashes path ++ '_' :: method.toList).map underscore := by
    rw [List.map_append, List.map_cons, map_underscore_of_notMem hslash hhyphen]
    rfl
  rw [← String.toList_inj, toList_pathPrefix_append hpath, hid, Imitates, ← map_underscore_eq]
  constructor
  · intro h
    obtain ⟨hslash, hhyphen⟩ := notMem_map_underscore (stripSlashes path ++ '_' :: method.toList)
    rw [h] at hslash hhyphen
    exact ⟨hslash, hhyphen, by rw [map_underscore_of_notMem hslash hhyphen, h]⟩
  · rintro ⟨hslash, hhyphen, h⟩
    rw [← h, map_underscore_of_notMem hslash hhyphen]

/-! ## Path items -/

theorem trace_notMem_methods : "trace" ∉ methods := by decide

theorem hasOperation_setInOperations {key method : String} {value : String → Json}
    {item operation : OrderedDict String Json} :
    HasOperation (setInOperations key value item) method operation ↔
      ∃ operation', HasOperation item method operation' ∧
        operation = if method ∈ methods then operation'.set key (value method) else operation' := by
  rw [HasOperation, setInOperations, OrderedDict.mem_mapVal]
  constructor
  · rintro ⟨j, hmem, hj⟩
    cases hdict : j.asDict? with
    | none =>
      rw [hdict] at hj
      obtain rfl : j = .obj operation := hj
      rw [Json.asDict?_obj] at hdict
      cases hdict
    | some operation' =>
      rw [hdict] at hj
      obtain rfl := Json.asDict?_eq_some.1 hdict
      refine ⟨operation', hmem, Json.obj_injective ?_⟩
      rw [← hj]
      dsimp only
      split_ifs <;> rfl
  · rintro ⟨operation', hmem, rfl⟩
    refine ⟨_, hmem, ?_⟩
    rw [Json.asDict?_obj]
    dsimp only
    split_ifs <;> rfl

theorem hasOperation_rewriteSchemaRefs {serviceName method : String} {item : Json}
    {operation : OrderedDict String Json} :
    HasOperation (contents (rewriteSchemaRefs serviceName item)) method operation ↔
      ∃ operation', HasOperation (contents item) method operation' ∧
        operation = operation'.mapVal (rewriteMember serviceName) := by
  rw [HasOperation, contents_rewriteSchemaRefs, OrderedDict.mem_mapVal]
  constructor
  · rintro ⟨j, hmem, hj⟩
    have hobject : IsObject j := isObject_of_rewriteMember (hj ▸ isObject_obj _)
    rw [← obj_contents hobject] at hmem hj
    rw [rewriteMember_obj] at hj
    exact ⟨_, hmem, (Json.obj_injective hj).symm⟩
  · rintro ⟨operation', hmem, rfl⟩
    exact ⟨_, hmem, rewriteMember_obj serviceName method operation'⟩

theorem operationId_eq_some {operation : OrderedDict String Json} {value : String} :
    operationId operation = some value ↔ operation.get? "operationId" = some (.str value) := by
  rw [operationId]
  constructor
  · intro h
    split at h
    · rename_i value' hvalue
      rw [hvalue, Option.some.inj h]
    · cases h
  · intro h
    rw [h]

/-- Ids are no references. -/
theorem operationId_mapVal_rewriteMember (serviceName : String)
    (operation : OrderedDict String Json) :
    operationId (operation.mapVal (rewriteMember serviceName)) = operationId operation := by
  refine Option.ext fun value => ?_
  rw [operationId_eq_some, operationId_eq_some, OrderedDict.get?_mapVal, Option.map_eq_some_iff]
  constructor
  · rintro ⟨j, hj, heq⟩
    rw [hj]
    cases j with
    | str s =>
      have hsame : rewriteMember serviceName "operationId" (.str s) = .str s := rfl
      rw [← heq, hsame]
    | _ => cases heq
  · intro h
    exact ⟨_, h, rfl⟩

/-- The path item has an operation which the mergers give the new id, or which they leave its own
one. -/
def ItemPublishes (item : OrderedDict String Json) (newId method value : String) : Prop :=
  ∃ operation, HasOperation item method operation ∧
    (method ∈ methods ∧ newId = value ∨ method = "trace" ∧ operationId operation = some value)

theorem itemCarries_setInOperations {newId : String → String} {item : OrderedDict String Json}
    {method value : String} :
    ItemCarries (setInOperations "operationId" (fun method => .str (newId method)) item)
      method value ↔ ItemPublishes item (newId method) method value := by
  rw [ItemCarries, operationMethods, List.mem_append, List.mem_singleton]
  simp only [hasOperation_setInOperations]
  constructor
  · rintro ⟨hmethod, _, ⟨operation, hmem, rfl⟩, hid⟩
    refine ⟨operation, hmem, ?_⟩
    rcases hmethod with hmethod | rfl
    · rw [if_pos hmethod, operationId_eq_some, OrderedDict.get?_set_self, Option.some.injEq,
        Json.str.injEq] at hid
      exact Or.inl ⟨hmethod, hid⟩
    · rw [if_neg trace_notMem_methods] at hid
      exact Or.inr ⟨rfl, hid⟩
  · rintro ⟨operation, hmem, ⟨hmethod, rfl⟩ | ⟨rfl, hid⟩⟩
    · refine ⟨Or.inl hmethod, _, ⟨operation, hmem, rfl⟩, ?_⟩
      rw [if_pos hmethod, operationId_eq_some, OrderedDict.get?_set_self]
    · refine ⟨Or.inr rfl, _, ⟨operation, hmem, rfl⟩, ?_⟩
      rw [if_neg trace_notMem_methods, hid]

/-- What is stored in the operations of the mergers does not count. -/
theorem itemPublishes_setInOperations {key newId method value : String} {new : String → Json}
    {item : OrderedDict String Json} :
    ItemPublishes (setInOperations key new item) newId method value ↔
      ItemPublishes item newId method value := by
  simp only [ItemPublishes, hasOperation_setInOperations]
  constructor
  · rintro ⟨_, ⟨operation, hmem, rfl⟩, hid⟩
    refine ⟨operation, hmem, hid.imp_right fun ⟨hmethod, hid⟩ => ?_⟩
    rw [hmethod, if_neg trace_notMem_methods] at hid
    exact ⟨hmethod, hid⟩
  · rintro ⟨operation, hmem, hid⟩
    refine ⟨_, ⟨operation, hmem, rfl⟩, hid.imp_right fun ⟨hmethod, hid⟩ => ⟨hmethod, ?_⟩⟩
    rw [hmethod, if_neg trace_notMem_methods, hid]

theorem itemPublishes_rewriteSchemaRefs {serviceName newId method value : String} {item : Json} :
    ItemPublishes (contents (rewriteSchemaRefs serviceName item)) newId method value ↔
      ItemPublishes (contents item) newId method value := by
  simp only [ItemPublishes, hasOperation_rewriteSchemaRefs]
  constructor
  · rintro ⟨_, ⟨operation, hmem, rfl⟩, hid⟩
    rw [operationId_mapVal_rewriteMember] at hid
    exact ⟨operation, hmem, hid⟩
  · rintro ⟨operation, hmem, hid⟩
    refine ⟨_, ⟨operation, hmem, rfl⟩, ?_⟩
    rwa [operationId_mapVal_rewriteMember]

/-! ## The ids after the mergers -/

section

variable {documents : OrderedDict String Json}

theorem startsWith_of_mem_contributions {path : String} {contribution : String × Json}
    (h : (path, contribution) ∈ contributions documents) : startsWith path "/plg/" := by
  obtain ⟨document, p, -, -, rfl⟩ := exists_of_mem_contributions h
  exact startsWith_publicPath p _

theorem mem_dropWhile {l : List Char} {c : Char} (hc : c ∈ l) (hslash : c ≠ '/') :
    c ∈ l.dropWhile (· = '/') := by
  rw [← List.takeWhile_append_dropWhile (p := (· = '/')) (l := l), List.mem_append] at hc
  refine hc.resolve_left fun hmem => hslash ?_
  simpa using List.mem_takeWhile_imp hmem

theorem stripSlashes_ne_nil {path : String} (h : startsWith path "/plg/") :
    stripSlashes path ≠ [] := by
  obtain ⟨rest, rfl⟩ := startsWith_iff.1 h
  have hmem : 'p' ∈ ("/plg/" ++ rest).toList := by
    rw [String.toList_append]
    exact List.mem_append_left _ (by decide)
  have hstrip : 'p' ∈ stripSlashes ("/plg/" ++ rest) :=
    List.mem_reverse.2 (mem_dropWhile (List.mem_reverse.2 (mem_dropWhile hmem (by decide)))
      (by decide))
  exact List.ne_nil_of_mem hstrip

/-- The ids of the operations that the services offer, as the mergers leave them. -/
def Publishes (documents : OrderedDict String Json) (path method value : String) : Prop :=
  ∃ serviceName item, (path, (serviceName, item)) ∈ contributions documents ∧
    ItemPublishes (contents item) (pathPrefix path "path" ++ "_" ++ method) method value

theorem carries_mergedOf (hdocuments : ∀ e ∈ documents, WellFormed e.2)
    {path method value : String} : Carries (mergedOf documents).paths path method value ↔
      Publishes documents path method value := by
  have hitem : ∀ serviceName item, ItemCarries
      (contents (publishedItem path (rewriteSchemaRefs serviceName item))) method value ↔
        ItemPublishes (contents item) (pathPrefix path "path" ++ "_" ++ method) method value :=
    fun serviceName item => by
      rw [publishedItem, contents_obj, itemCarries_setInOperations,
        itemPublishes_rewriteSchemaRefs]
  rw [Carries, paths_mergedOf_eq hdocuments]
  constructor
  · rintro ⟨item, hmem, hcarries⟩
    obtain ⟨⟨serviceName, item'⟩, hitem', rfl⟩ := (OrderedDict.mem_mapVal _).1 hmem
    exact ⟨serviceName, item', hitem', (hitem _ _).1 hcarries⟩
  · rintro ⟨serviceName, item, hmem, hpublishes⟩
    exact ⟨_, (OrderedDict.mem_mapVal _).2 ⟨_, hmem, rfl⟩, (hitem _ _).2 hpublishes⟩

/-- The paths of the gateway in the document of the core. -/
theorem mem_gatewayPaths {coreSchema gatewaySchema : Json} (hcore : WellFormed coreSchema)
    {path : String} {item : Json} :
    (path, item) ∈ (documentPaths (.obj (mergedCore coreSchema gatewaySchema))).retain
        (fun e => e.1 ∈ (documentPaths gatewaySchema).keys) ↔
      ∃ item', (path, item') ∈ documentPaths gatewaySchema ∧
        item = .obj (protect path (contents item')) := by
  have hstored : ∀ item', (path, item') ∈ documentPaths gatewaySchema →
      (path, Json.obj (protect path (contents item'))) ∈
        documentPaths (.obj (mergedCore coreSchema gatewaySchema)) := fun item' hitem' => by
    rw [documentPaths_mergedCore _ _ hcore]
    exact mem_setAll_protectedPaths _ _ (List.mem_map.2 ⟨(path, item'), hitem', rfl⟩)
  rw [OrderedDict.mem_retain, decide_eq_true_eq, OrderedDict.mem_keys]
  constructor
  · rintro ⟨hmem, item', hitem'⟩
    exact ⟨item', hitem', OrderedDict.eq_of_mem hmem (hstored item' hitem')⟩
  · rintro ⟨item', hitem', rfl⟩
    exact ⟨hstored item' hitem', item', hitem'⟩

theorem carries_mergedCore {coreSchema : Json} (hcore : WellFormed coreSchema)
    (hdocuments : ∀ e ∈ documents, WellFormed e.2) {path method value : String} :
    Carries ((documentPaths (.obj (mergedCore coreSchema (mergedOf documents).toJson))).retain
        fun e => e.1 ∈ (documentPaths (mergedOf documents).toJson).keys) path method value ↔
      Publishes documents path method value := by
  -- The default of the prefix is not used: a public path is more than slashes.
  have hitem : ∀ contribution, (path, contribution) ∈ contributions documents →
      (ItemCarries (protect path (contents (publishedItem path
        (rewriteSchemaRefs contribution.1 contribution.2)))) method value ↔
      ItemPublishes (contents contribution.2) (pathPrefix path "path" ++ "_" ++ method)
        method value) := by
    intro contribution hmem
    have hpath := stripSlashes_ne_nil (startsWith_of_mem_contributions hmem)
    rw [protect, publishedItem, contents_obj, itemCarries_setInOperations,
      itemPublishes_setInOperations, itemPublishes_setInOperations,
      itemPublishes_rewriteSchemaRefs, pathPrefix_of_ne_nil hpath, pathPrefix_of_ne_nil hpath]
  simp only [Carries, mem_gatewayPaths hcore]
  rw [documentPaths_toJson, paths_mergedOf_eq hdocuments]
  constructor
  · rintro ⟨_, ⟨item, hmem, rfl⟩, hcarries⟩
    obtain ⟨⟨serviceName, item'⟩, hitem', rfl⟩ := (OrderedDict.mem_mapVal _).1 hmem
    rw [contents_obj] at hcarries
    exact ⟨serviceName, item', hitem', (hitem _ hitem').1 hcarries⟩
  · rintro ⟨serviceName, item, hmem, hpublishes⟩
    refine ⟨_, ⟨_, (OrderedDict.mem_mapVal _).2 ⟨_, hmem, rfl⟩, rfl⟩, ?_⟩
    rw [contents_obj]
    exact (hitem _ hmem).2 hpublishes

/-! ## When the ids are unique -/

theorem publishes_iff {path method value : String} : Publishes documents path method value ↔
    ∃ operation, Offers documents path method operation ∧
      (method ∈ methods ∧ pathPrefix path "path" ++ "_" ++ method = value ∨
        method = "trace" ∧ operationId operation = some value) := by
  constructor
  · rintro ⟨serviceName, item, hmem, operation, hoperation, hid⟩
    exact ⟨operation, ⟨serviceName, item, hmem, hoperation⟩, hid⟩
  · rintro ⟨operation, ⟨serviceName, item, hmem, hoperation⟩, hid⟩
    exact ⟨serviceName, item, hmem, operation, hoperation, hid⟩

theorem Offers.ne_nil {path method : String} {operation : OrderedDict String Json}
    (h : Offers documents path method operation) : stripSlashes path ≠ [] := by
  obtain ⟨_, _, hmem, -⟩ := h
  exact stripSlashes_ne_nil (startsWith_of_mem_contributions hmem)

/-- The published ids are unique exactly when the documents keep them apart. -/
theorem idsApart_iff : (∀ path method path' method' value, Publishes documents path method value →
    Publishes documents path' method' value → path = path' ∧ method = method') ↔
      IdsApart documents := by
  constructor
  · intro h
    refine ⟨?_, ?_, ?_⟩
    · intro method hmethod path path' operation operation' hoffers hoffers' hconfusable
      have hid := (pathPrefix_append_inj hoffers.ne_nil hoffers'.ne_nil hmethod hmethod).2
        ⟨hconfusable, rfl⟩
      exact (h _ _ _ _ _ (publishes_iff.2 ⟨operation, hoffers, Or.inl ⟨hmethod, hid⟩⟩)
        (publishes_iff.2 ⟨operation', hoffers', Or.inl ⟨hmethod, rfl⟩⟩)).1
    · intro path path' operation operation' value hoffers hoffers' hid hid'
      exact (h _ _ _ _ _ (publishes_iff.2 ⟨operation, hoffers, Or.inr ⟨rfl, hid⟩⟩)
        (publishes_iff.2 ⟨operation', hoffers', Or.inr ⟨rfl, hid'⟩⟩)).1
    · intro method hmethod path path' operation operation' value hoffers hid hoffers' himitates
      have hid' := (pathPrefix_append_eq_iff hoffers'.ne_nil hmethod).2 himitates
      obtain ⟨-, rfl⟩ := h _ _ _ _ _ (publishes_iff.2 ⟨operation, hoffers, Or.inr ⟨rfl, hid⟩⟩)
        (publishes_iff.2 ⟨operation', hoffers', Or.inl ⟨hmethod, hid'⟩⟩)
      exact trace_notMem_methods hmethod
  · intro h path method path' method' value hpublishes hpublishes'
    obtain ⟨operation, hoffers, hid⟩ := publishes_iff.1 hpublishes
    obtain ⟨operation', hoffers', hid'⟩ := publishes_iff.1 hpublishes'
    rcases hid with ⟨hmethod, hid⟩ | ⟨rfl, hid⟩
    · rcases hid' with ⟨hmethod', hid'⟩ | ⟨rfl, hid'⟩
      · obtain ⟨hconfusable, rfl⟩ := (pathPrefix_append_inj hoffers.ne_nil hoffers'.ne_nil hmethod
          hmethod').1 (hid.trans hid'.symm)
        exact ⟨h.paths _ hmethod _ _ _ _ hoffers hoffers' hconfusable, rfl⟩
      · have himitates := (pathPrefix_append_eq_iff hoffers.ne_nil hmethod).1 hid
        exact absurd himitates (h.imitations _ hmethod _ _ _ _ _ hoffers' hid' hoffers)
    · rcases hid' with ⟨hmethod', hid'⟩ | ⟨rfl, hid'⟩
      · have himitates := (pathPrefix_append_eq_iff hoffers'.ne_nil hmethod').1 hid'
        exact absurd himitates (h.imitations _ hmethod' _ _ _ _ _ hoffers hid hoffers')
      · exact ⟨h.traces _ _ _ _ _ hoffers hoffers' hid hid', rfl⟩

theorem uniqueOperationIds_iff {paths : OrderedDict String Json}
    (hpaths : ∀ path method value, Carries paths path method value ↔
      Publishes documents path method value) :
    UniqueOperationIds paths ↔ IdsApart documents := by
  rw [UniqueOperationIds, ← idsApart_iff]
  simp only [hpaths]

/-- For any well-formed documents of services and any well-formed core: the mergers succeed and the
ids of the operations are unique exactly when the services keep them apart. -/
theorem operationIdsUnique_iff {coreSchema : Json} (hdocuments : ∀ e ∈ documents, WellFormed e.2)
    (hcore : WellFormed coreSchema) :
    OperationIdsUnique documents coreSchema ↔ IdsApart documents := by
  have hgateway := wellFormed_toJson hdocuments
  have hmerged : UniqueOperationIds (documentPaths (mergedOf documents).toJson) ↔
      IdsApart documents := by
    rw [documentPaths_toJson]
    exact uniqueOperationIds_iff fun _ _ _ => carries_mergedOf hdocuments
  constructor
  · rintro ⟨gatewaySchema, _, hmerge, -, hunique, -⟩
    obtain ⟨-, rfl⟩ := mergeOpenapiDocuments_eq_ok.1 hmerge
    exact hmerged.1 hunique
  · intro h
    exact ⟨_, _, mergeOpenapiDocuments_eq_ok.2 ⟨fun e he => (hdocuments e he).mergeable e.1, rfl⟩,
      mergeGatewayOpenapi_ok hcore hgateway, hmerged.2 h,
      (uniqueOperationIds_iff fun _ _ _ => carries_mergedCore hcore hdocuments).2 h⟩

end

/-- Two services with the same path, one of which traces it under an id of its own. -/
def tracedDocuments : OrderedDict String Json :=
  ⟨[("shop", .ofEntries [("paths", .ofEntries [("/items", .ofEntries [("get", .ofEntries []),
      ("trace", .ofEntries [("operationId", .str "trace_items")])])])]),
    ("forum", .ofEntries [("paths", .ofEntries [("/items", .ofEntries
      [("get", .ofEntries [])])])])], by decide⟩

theorem operationIdsUnique_tracedDocuments :
    OperationIdsUnique tracedDocuments usersSchema := by
  have hkeys : ∀ path ∈ (contributions tracedDocuments).keys,
      ∀ path' ∈ (contributions tracedDocuments).keys, Confusable path path' → path = path' := by
    decide +kernel
  have htraces : ∀ e ∈ contributions tracedDocuments, ∀ operation ∈ contents e.2.2,
      operation.1 = "trace" → e.1 = "/plg/shop/items" ∧
        operationId (contents operation.2) = some "trace_items" := by decide +kernel
  have himitations : ∀ method ∈ methods, ∀ path ∈ (contributions tracedDocuments).keys,
      ¬ Imitates "trace_items" path method := by decide +kernel
  have hpath : ∀ {path method operation}, Offers tracedDocuments path method operation →
      path ∈ (contributions tracedDocuments).keys := by
    rintro path method operation ⟨serviceName, item, hmem, -⟩
    exact List.mem_map_of_mem hmem
  have htrace : ∀ {path operation}, Offers tracedDocuments path "trace" operation →
      path = "/plg/shop/items" ∧ operationId operation = some "trace_items" := by
    rintro path operation ⟨serviceName, item, hmem, hoperation⟩
    have h := htraces _ hmem _ hoperation rfl
    rwa [contents_obj] at h
  refine (operationIdsUnique_iff (by decide +kernel) (by decide +kernel)).2 ⟨?_, ?_, ?_⟩
  · intro method _ path path' operation operation' hoffers hoffers'
    exact hkeys path (hpath hoffers) path' (hpath hoffers')
  · intro path path' operation operation' value hoffers hoffers' _ _
    rw [(htrace hoffers).1, (htrace hoffers').1]
  · intro method hmethod path path' operation operation' value hoffers hid hoffers'
    rw [(htrace hoffers).2, Option.some.injEq] at hid
    rw [← hid]
    exact himitations method hmethod path' (hpath hoffers')

/-! ## Two operations with one id -/

/-- A service with two paths that differ in a separator. -/
def confusableDocuments : OrderedDict String Json :=
  ⟨[("shop", .ofEntries [("paths", .ofEntries
    [("/items/list", .ofEntries [("get", .ofEntries [])]),
      ("/items-list", .ofEntries [("get", .ofEntries [])])])])], by decide⟩

/-- Both operations get the id `plg_shop_items_list_get`. -/
theorem not_operationIdsUnique_confusableDocuments :
    (∀ e ∈ confusableDocuments, WellFormed e.2 ∧ '/' ∉ e.1.toList) ∧ WellFormed usersSchema ∧
    Carries (mergedOf confusableDocuments).paths "/plg/shop/items/list" "get"
      "plg_shop_items_list_get" ∧
    Carries (mergedOf confusableDocuments).paths "/plg/shop/items-list" "get"
      "plg_shop_items_list_get" ∧
    ¬ OperationIdsUnique confusableDocuments usersSchema := by
  have hdocuments : ∀ e ∈ confusableDocuments, WellFormed e.2 := by decide +kernel
  have hget : ∀ path ∈ ["/plg/shop/items/list", "/plg/shop/items-list"],
      (path, "shop", Json.ofEntries [("get", .ofEntries [])]) ∈
          (contributions confusableDocuments).entries ∧
        pathPrefix path "path" ++ "_" ++ "get" = "plg_shop_items_list_get" := by decide +kernel
  have hcarries : ∀ path ∈ ["/plg/shop/items/list", "/plg/shop/items-list"],
      Carries (mergedOf confusableDocuments).paths path "get" "plg_shop_items_list_get" := by
    intro path hpath
    obtain ⟨hmem, hid⟩ := hget path hpath
    exact (carries_mergedOf hdocuments).2 ⟨_, _, hmem, ∅, by decide +kernel,
      Or.inl ⟨by decide, hid⟩⟩
  refine ⟨by decide +kernel, by decide +kernel, hcarries _ (by decide), hcarries _ (by decide), ?_⟩
  rintro ⟨gatewaySchema, _, hmerge, -, hunique, -⟩
  obtain ⟨-, rfl⟩ := mergeOpenapiDocuments_eq_ok.1 hmerge
  rw [documentPaths_toJson] at hunique
  have hsame := hunique _ _ _ _ _ (hcarries "/plg/shop/items/list" (by decide))
    (hcarries "/plg/shop/items-list" (by decide))
  exact absurd hsame.1 (by decide)

end OpenApi

end AranesLms
