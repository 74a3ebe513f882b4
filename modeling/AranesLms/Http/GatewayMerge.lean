import AranesLms.Http.OpenApi

/-!
# The core's document after the merge

What `_merge_gateway_openapi` leaves alone and what it adds, for a core that has nothing under
`/plg` and no schema with a joined name of a service.  The paths, schemas and tags of a document are
its `Parts`.  In memory the merge stores the schemas and tags of the gateway themselves into the
core and changes copies of its path items (`mergeInPlace`), so that the gateway's document keeps its
parts (`mergeInPlace_spec`).
-/

namespace AranesLms

namespace OpenApi

open Gateway

/-! ## Parts -/

/-- The paths, schemas and tags of a document. -/
structure Parts (α : Type) where
  paths : OrderedDict String α
  schemas : OrderedDict String α
  tags : List α

def partsOf (document : Json) : Parts Json :=
  ⟨documentPaths document, documentSchemas document, documentTags document⟩

/-- The parts of the core after the merge. -/
def mergedParts (core gateway : Parts Json) : Parts Json where
  paths := core.paths.setAll (protectedPaths gateway.paths.entries)
  schemas := core.schemas.setAll gateway.schemas.entries
  tags := core.tags ++ freshTags (core.tags.filterMap tagName) gateway.tags

section

variable (coreSchema gatewaySchema : Json)

theorem paths_mergedCore (hcore : WellFormed coreSchema) :
    getObject (mergedCore coreSchema gatewaySchema) "paths" =
      .obj ((documentPaths coreSchema).setAll
        (protectedPaths (documentPaths gatewaySchema).entries)) := by
  have htags : ∀ (core : OrderedDict String Json) tags,
      getObject (withTags core tags) "paths" = getObject core "paths" := fun core tags => by
    rw [withTags]
    split_ifs
    · rfl
    · exact getObject_set_of_ne (by decide)
  rw [mergedCore, htags, withSchemas, getObject_set_of_ne (by decide), withPaths]
  split_ifs with hempty
  · rw [hempty]
    exact (obj_contents hcore.paths).symm
  · rw [getObject_set_self]
    rfl

theorem documentPaths_mergedCore (hcore : WellFormed coreSchema) :
    documentPaths (.obj (mergedCore coreSchema gatewaySchema)) = (documentPaths coreSchema).setAll
      (protectedPaths (documentPaths gatewaySchema).entries) := by
  rw [documentPaths, contents_obj, paths_mergedCore coreSchema gatewaySchema hcore, contents_obj]

theorem components_mergedCore :
    getObject (mergedCore coreSchema gatewaySchema) "components" =
      .obj ((contents (getObject (contents coreSchema) "components")).set "schemas"
        (.obj ((documentSchemas coreSchema).setAll (documentSchemas gatewaySchema).entries))) := by
  have htags : ∀ (core : OrderedDict String Json) tags,
      getObject (withTags core tags) "components" = getObject core "components" :=
    fun core tags => by
      rw [withTags]
      split_ifs
      · rfl
      · exact getObject_set_of_ne (by decide)
  rw [mergedCore, htags, withSchemas, getObject_set_self, getObject_withPaths (by decide)]
  rfl

theorem documentSchemas_mergedCore :
    documentSchemas (.obj (mergedCore coreSchema gatewaySchema)) =
      (documentSchemas coreSchema).setAll (documentSchemas gatewaySchema).entries := by
  rw [documentSchemas, contents_obj, components_mergedCore, contents_obj, getObject_set_self,
    contents_obj]

theorem get?_tags_withSchemas (paths schemas : List (String × Json)) :
    (withSchemas (withPaths (contents coreSchema) paths) schemas).get? "tags" =
      (contents coreSchema).get? "tags" := by
  rw [withSchemas, OrderedDict.get?_set_of_ne _ (by decide), get?_withPaths (by decide)]

theorem documentTags_obj {core : OrderedDict String Json} (h : HasTagList core) :
    documentTags (.obj core) = tagList core := by
  obtain ⟨l, hl⟩ := Option.isSome_iff_exists.1 h
  rw [documentTags, contents_obj, tagList, hl, Json.asList?_eq_some.1 hl]
  exact List.ofFn_get l

theorem tagList_withTags (core : OrderedDict String Json) (tags : List Json) :
    tagList (withTags core tags) = tagList core ++ tags := by
  rw [withTags]
  split_ifs with hempty
  · rw [hempty, List.append_nil]
  · exact tagList_set core _

theorem hasTagList_mergedCore (hcore : WellFormed coreSchema) :
    HasTagList (mergedCore coreSchema gatewaySchema) := by
  refine hasTagList_withTags ?_ _
  rw [HasTagList, get?_tags_withSchemas]
  exact hcore.tags

theorem documentTags_mergedCore (hcore : WellFormed coreSchema) :
    documentTags (.obj (mergedCore coreSchema gatewaySchema)) = documentTags coreSchema ++
      freshTags (tagNames coreSchema) (documentTags gatewaySchema) := by
  have htags : documentTags coreSchema = tagList (contents coreSchema) := by
    rw [← documentTags_obj hcore.tags, obj_contents hcore.isObject]
  rw [documentTags_obj (hasTagList_mergedCore coreSchema gatewaySchema hcore), mergedCore,
    tagList_withTags, htags, tagList, get?_tags_withSchemas]
  rfl

/-- The parts of the core after the merge are the merged parts. -/
theorem partsOf_mergedCore (hcore : WellFormed coreSchema) :
    partsOf (.obj (mergedCore coreSchema gatewaySchema)) =
      mergedParts (partsOf coreSchema) (partsOf gatewaySchema) := by
  rw [partsOf, documentPaths_mergedCore coreSchema gatewaySchema hcore, documentSchemas_mergedCore,
    documentTags_mergedCore coreSchema gatewaySchema hcore]
  rfl

end

/-! ## The core afterwards -/

section

variable {coreSchema gatewaySchema : Json}

theorem keys_protectedPaths (paths : List (String × Json)) :
    (protectedPaths paths).map Prod.fst = paths.map Prod.fst := by
  rw [protectedPaths, List.map_map]
  rfl

/-- Every operation of a protected path item has the bearer security. -/
theorem security_of_mem_protect {pathName method : String} {item : OrderedDict String Json}
    {operation : Json} (hitem : ∀ e ∈ item, e.1 ∈ methods → IsObject e.2)
    (hmethod : method ∈ methods) (h : (method, operation) ∈ protect pathName item) :
    IsObject operation ∧ (contents operation).get? "security" = some bearerAuth := by
  have hsecurity : ∀ e ∈ setInOperations "security" (fun _ => bearerAuth) item,
      e.1 ∈ methods → ∃ d : OrderedDict String Json, e.2 = .obj (d.set "security" bearerAuth) := by
    rintro ⟨method', operation'⟩ hmem hmethod'
    obtain ⟨d, -, rfl⟩ := isObject_of_mem_setInOperations hmem hmethod' hitem
    exact ⟨d, rfl⟩
  obtain ⟨d, hmem, rfl⟩ := isObject_of_mem_setInOperations h hmethod fun e he hmethod' => by
    obtain ⟨d, hd⟩ := hsecurity e he hmethod'
    exact hd ▸ isObject_obj _
  obtain ⟨d', hd'⟩ := hsecurity _ hmem hmethod
  refine ⟨isObject_obj _, ?_⟩
  rw [contents_obj, OrderedDict.get?_set_of_ne _ (by decide), Json.obj_injective hd',
    OrderedDict.get?_set_self]

/-- The core is well-formed after the merge. -/
theorem wellFormed_mergedCore (hcore : WellFormed coreSchema)
    (hgateway : WellFormed gatewaySchema) :
    WellFormed (.obj (mergedCore coreSchema gatewaySchema)) := by
  have hpaths : ∀ e ∈ documentPaths (.obj (mergedCore coreSchema gatewaySchema)),
      e ∈ documentPaths coreSchema ∨ ∃ item, (e.1, item) ∈ documentPaths gatewaySchema ∧
        e.2 = .obj (protect e.1 (contents item)) := by
    intro e he
    rw [documentPaths_mergedCore coreSchema gatewaySchema hcore] at he
    rcases OrderedDict.mem_of_mem_setAll _ he with he | he
    · exact Or.inl he
    · obtain ⟨⟨path, item⟩, hitem, rfl⟩ := List.mem_map.1 he
      exact Or.inr ⟨item, hitem, rfl⟩
  refine ⟨isObject_obj _, ?_, ?_, ?_, ?_, ?_, ?_, ?_⟩
  · rw [contents_obj, paths_mergedCore coreSchema gatewaySchema hcore]
    exact isObject_obj _
  · intro e he
    rcases hpaths e he with he | ⟨item, -, heq⟩
    · exact hcore.items e he
    · exact heq ▸ isObject_obj _
  · rintro e he ⟨method, operation⟩ hmem hmethod
    rcases hpaths e he with he | ⟨item, hitem, heq⟩
    · exact hcore.operations e he _ hmem hmethod
    · rw [heq, contents_obj] at hmem
      exact (security_of_mem_protect (hgateway.operations _ hitem) hmethod hmem).1
  · rw [contents_obj, components_mergedCore]
    exact isObject_obj _
  · rw [contents_obj, components_mergedCore, contents_obj, getObject_set_self]
    exact isObject_obj _
  · rw [contents_obj]
    exact hasTagList_mergedCore coreSchema gatewaySchema hcore
  · intro tag htag
    rw [documentTags_mergedCore coreSchema gatewaySchema hcore] at htag
    rcases List.mem_append.1 htag with htag | htag
    · exact hcore.tagObjects tag htag
    · exact hgateway.tagObjects tag (mem_of_mem_freshTags htag)

/-! ## Doing it again -/

theorem set_getObject {d : OrderedDict String Json} {key : String} {value : Json}
    (h : getObject d key = value) (hvalue : value ≠ .obj ∅) : d.set key value = d := by
  subst h
  refine OrderedDict.set_of_mem _ ?_
  rw [← OrderedDict.get?_eq_some]
  cases hget : d.get? key with
  | none =>
    rw [getObject, hget] at hvalue
    exact absurd rfl hvalue
  | some v => rw [getObject, hget, Option.getD_some]

/-- The protected paths of the gateway are in the core after the merge. -/
theorem mem_setAll_protectedPaths (paths gatewayPaths : OrderedDict String Json) {e : String × Json}
    (he : e ∈ protectedPaths gatewayPaths.entries) :
    e ∈ paths.setAll (protectedPaths gatewayPaths.entries) := by
  rw [← OrderedDict.get?_eq_some]
  refine OrderedDict.get?_setAll_of_mem _ ?_ he
  rw [keys_protectedPaths]
  exact gatewayPaths.nodup

theorem mem_setAll_schemas (schemas gatewaySchemas : OrderedDict String Json) {e : String × Json}
    (he : e ∈ gatewaySchemas) : e ∈ schemas.setAll gatewaySchemas.entries := by
  rw [← OrderedDict.get?_eq_some]
  exact OrderedDict.get?_setAll_of_mem _ gatewaySchemas.nodup he

theorem withPaths_mergedCore (hcore : WellFormed coreSchema) :
    withPaths (mergedCore coreSchema gatewaySchema) (documentPaths gatewaySchema).entries =
      mergedCore coreSchema gatewaySchema := by
  have hpaths := paths_mergedCore coreSchema gatewaySchema hcore
  rw [withPaths]
  split_ifs with hempty
  · rfl
  · rw [hpaths, contents_obj, OrderedDict.setAll_of_forall_mem _
      fun e he => mem_setAll_protectedPaths _ _ he]
    refine set_getObject hpaths fun hnone => ?_
    obtain ⟨e, es, hcons⟩ := List.exists_cons_of_ne_nil hempty
    have hmem : (e.1, Json.obj (protect e.1 (contents e.2))) ∈
        protectedPaths (documentPaths gatewaySchema).entries :=
      List.mem_map.2 ⟨e, hcons ▸ List.mem_cons_self, rfl⟩
    have habsurd := mem_setAll_protectedPaths (documentPaths coreSchema) _ hmem
    rw [Json.obj_injective hnone] at habsurd
    exact OrderedDict.notMem_empty _ habsurd

theorem withSchemas_mergedCore :
    withSchemas (mergedCore coreSchema gatewaySchema) (documentSchemas gatewaySchema).entries =
      mergedCore coreSchema gatewaySchema := by
  have hcomponents := components_mergedCore coreSchema gatewaySchema
  simp only [withSchemas, hcomponents, contents_obj, getObject_set_self, OrderedDict.set_set]
  rw [OrderedDict.setAll_of_forall_mem _ fun e he => mem_setAll_schemas _ _ he]
  refine set_getObject hcomponents fun hnone => ?_
  have habsurd := congrArg (fun d => d.get? "schemas") (Json.obj_injective hnone)
  simp only [OrderedDict.get?_set_self, OrderedDict.get?_empty, reduceCtorEq] at habsurd

/-- The merge with the same document once more changes nothing. -/
theorem mergedCore_mergedCore (hcore : WellFormed coreSchema) :
    mergedCore (.obj (mergedCore coreSchema gatewaySchema)) gatewaySchema =
      mergedCore coreSchema gatewaySchema := by
  have hfresh : freshTags (tagNames (.obj (mergedCore coreSchema gatewaySchema)))
      (documentTags gatewaySchema) = [] := by
    refine freshTags_eq_nil fun tag htag name hname => ?_
    rw [tagNames, documentTags_mergedCore coreSchema gatewaySchema hcore, List.filterMap_append,
      List.mem_append]
    exact mem_names_freshTags htag hname
  conv_lhs => rw [mergedCore, contents_obj, withPaths_mergedCore hcore, withSchemas_mergedCore,
    hfresh]
  rfl

end

/-! ## In memory -/

/-- The path items, schemas and tags in memory, by their addresses; from `next` on, nothing is
stored yet. -/
structure Memory where
  cells : ℕ → Json
  next : ℕ

/-- `copy.deepcopy`. -/
def Memory.copy (mem : Memory) (a : ℕ) : Memory × ℕ :=
  (⟨Function.update mem.cells mem.next (mem.cells a), mem.next + 1⟩, mem.next)

/-- The object at `a` is changed in place. -/
def Memory.modify (mem : Memory) (a : ℕ) (f : Json → Json) : Memory :=
  { mem with cells := Function.update mem.cells a (f (mem.cells a)) }

/-- The loop over the paths: a copy of the path item is changed and stored. -/
def storePath (s : Memory × OrderedDict String ℕ) (path : String × ℕ) :
    Memory × OrderedDict String ℕ :=
  let (mem, item) := s.1.copy path.2
  (mem.modify item fun j => .obj (protect path.1 (contents j)), s.2.set path.1 item)

/-- The loop over the tags: the tag of the gateway itself is appended. -/
def storeTag (mem : Memory) (s : List ℕ × List String) (tag : ℕ) : List ℕ × List String :=
  match tagName (mem.cells tag) with
  | some name => if name ∈ s.2 then s else (s.1 ++ [tag], name :: s.2)
  | none => s

/-- `_merge_gateway_openapi` on the addresses: the schemas and tags are shared afterwards. -/
def mergeInPlace (mem : Memory) (core gateway : Parts ℕ) : Memory × Parts ℕ :=
  let (mem, paths) := gateway.paths.entries.foldl storePath (mem, core.paths)
  let schemas := core.schemas.setAll gateway.schemas.entries
  let seen := core.tags.filterMap fun tag => tagName (mem.cells tag)
  (mem, ⟨paths, schemas, (gateway.tags.foldl (storeTag mem) (core.tags, seen)).1⟩)

namespace Parts

/-- What stands at the addresses. -/
def read (parts : Parts ℕ) (mem : Memory) : Parts Json where
  paths := parts.paths.mapVal fun _ a => mem.cells a
  schemas := parts.schemas.mapVal fun _ a => mem.cells a
  tags := parts.tags.map mem.cells

/-- All addresses are in use. -/
structure Stored (parts : Parts ℕ) (mem : Memory) : Prop where
  paths : ∀ e ∈ parts.paths, e.2 < mem.next
  schemas : ∀ e ∈ parts.schemas, e.2 < mem.next
  tags : ∀ a ∈ parts.tags, a < mem.next

end Parts

/-- The memory has grown: what was stored is still there. -/
structure Memory.Grows (mem mem' : Memory) : Prop where
  cells : ∀ a < mem.next, mem'.cells a = mem.cells a
  next : mem.next ≤ mem'.next

theorem Memory.Grows.mapVal {mem mem' : Memory} (h : mem.Grows mem') {d : OrderedDict String ℕ}
    (hd : ∀ e ∈ d, e.2 < mem.next) :
    (d.mapVal fun _ a => mem'.cells a) = d.mapVal fun _ a => mem.cells a := by
  refine OrderedDict.ext (List.map_congr_left fun e he => ?_)
  exact congrArg (Prod.mk e.1) (h.cells e.2 (hd e he))

theorem Parts.Stored.read {parts : Parts ℕ} {mem mem' : Memory} (hparts : parts.Stored mem)
    (h : mem.Grows mem') : parts.read mem' = parts.read mem := by
  rw [Parts.read, Parts.read, h.mapVal hparts.paths, h.mapVal hparts.schemas,
    List.map_congr_left fun a ha => h.cells a (hparts.tags a ha)]

theorem Parts.Stored.mono {parts : Parts ℕ} {mem mem' : Memory} (hparts : parts.Stored mem)
    (h : mem.Grows mem') : parts.Stored mem' :=
  ⟨fun e he => (hparts.paths e he).trans_le h.next,
    fun e he => (hparts.schemas e he).trans_le h.next,
    fun a ha => (hparts.tags a ha).trans_le h.next⟩

theorem storePath_spec {mem : Memory} {paths : OrderedDict String ℕ} {path : String × ℕ}
    (hpaths : ∀ e ∈ paths, e.2 < mem.next) :
    mem.Grows (storePath (mem, paths) path).1 ∧
    (∀ e ∈ (storePath (mem, paths) path).2, e.2 < (storePath (mem, paths) path).1.next) ∧
    ((storePath (mem, paths) path).2.mapVal fun _ a => (storePath (mem, paths) path).1.cells a) =
      (paths.mapVal fun _ a => mem.cells a).set path.1
        (.obj (protect path.1 (contents (mem.cells path.2)))) := by
  have hgrows : mem.Grows (storePath (mem, paths) path).1 := by
    refine ⟨fun a ha => ?_, Nat.le_succ _⟩
    simp [storePath, Memory.copy, Memory.modify, Function.update_of_ne ha.ne]
  refine ⟨hgrows, fun e he => ?_, ?_⟩
  · rcases (OrderedDict.mem_set _).1 he with ⟨he, -⟩ | rfl
    · exact Nat.lt_succ_of_lt (hpaths e he)
    · exact Nat.lt_succ_self _
  · rw [← hgrows.mapVal hpaths]
    show (paths.set path.1 mem.next).mapVal _ = _
    rw [OrderedDict.mapVal_set]
    congr 1
    simp [storePath, Memory.copy, Memory.modify]

theorem Memory.Grows.trans {mem mem' mem'' : Memory} (h : mem.Grows mem') (h' : mem'.Grows mem'') :
    mem.Grows mem'' :=
  ⟨fun a ha => (h'.cells a (ha.trans_le h.next)).trans (h.cells a ha), h.next.trans h'.next⟩

theorem foldl_storePath_spec {mem : Memory} {paths : OrderedDict String ℕ}
    {items : List (String × ℕ)} (hpaths : ∀ e ∈ paths, e.2 < mem.next)
    (hitems : ∀ e ∈ items, e.2 < mem.next) :
    let s := items.foldl storePath (mem, paths)
    mem.Grows s.1 ∧ (∀ e ∈ s.2, e.2 < s.1.next) ∧
    (s.2.mapVal fun _ a => s.1.cells a) = (paths.mapVal fun _ a => mem.cells a).setAll
      (protectedPaths (items.map fun e => (e.1, mem.cells e.2))) := by
  induction items generalizing mem paths with
  | nil => exact ⟨⟨fun _ _ => rfl, le_rfl⟩, hpaths, rfl⟩
  | cons item items ih =>
    obtain ⟨hgrows, hstored, hset⟩ := @storePath_spec mem paths item hpaths
    have hrest : ∀ e ∈ items, e.2 < mem.next := fun e he => hitems e (List.mem_cons_of_mem _ he)
    obtain ⟨hgrows', hstored', hset'⟩ := ih hstored fun e he => (hrest e he).trans_le hgrows.next
    refine ⟨hgrows.trans hgrows', hstored', hset'.trans ?_⟩
    have hcells : (items.map fun e => (e.1, (storePath (mem, paths) item).1.cells e.2)) =
        items.map fun e => (e.1, mem.cells e.2) :=
      List.map_congr_left fun e he => congrArg (Prod.mk e.1) (hgrows.cells e.2 (hrest e he))
    rw [hset, hcells]
    rfl

theorem foldl_storeTag (mem : Memory) (s : List ℕ × List String) (tags : List ℕ) :
    (tags.foldl (storeTag mem) s).1.map mem.cells =
      s.1.map mem.cells ++ freshTags s.2 (tags.map mem.cells) ∧
    ∀ a ∈ (tags.foldl (storeTag mem) s).1, a ∈ s.1 ∨ a ∈ tags := by
  induction tags generalizing s with
  | nil => exact ⟨(List.append_nil _).symm, fun _ h => Or.inl h⟩
  | cons tag tags ih =>
    obtain ⟨hmap, hmem⟩ := ih (storeTag mem s tag)
    rw [List.foldl_cons, hmap, List.map_cons, freshTags]
    cases hname : tagName (mem.cells tag) with
    | none =>
      have hsame : storeTag mem s tag = s := by rw [storeTag, hname]
      rw [hsame] at hmem ⊢
      exact ⟨rfl, fun a ha => (hmem a ha).imp_right (List.mem_cons_of_mem _)⟩
    | some name =>
      by_cases hseen : name ∈ s.2
      · have hsame : storeTag mem s tag = s := by rw [storeTag, hname]; exact if_pos hseen
        rw [hsame] at hmem ⊢
        exact ⟨by simp [hseen], fun a ha => (hmem a ha).imp_right (List.mem_cons_of_mem _)⟩
      · have hnew : storeTag mem s tag = (s.1 ++ [tag], name :: s.2) := by
          rw [storeTag, hname]
          exact if_neg hseen
        rw [hnew] at hmem ⊢
        refine ⟨by simp [hseen], fun a ha => ?_⟩
        rcases hmem a ha with ha | ha
        · rcases List.mem_append.1 ha with ha | ha
          · exact Or.inl ha
          · exact Or.inr (List.mem_singleton.1 ha ▸ List.mem_cons_self)
        · exact Or.inr (List.mem_cons_of_mem _ ha)

/-- In memory, the core gets the merged parts and the gateway's document keeps its own. -/
theorem mergeInPlace_spec {mem : Memory} {core gateway : Parts ℕ} (hcore : core.Stored mem)
    (hgateway : gateway.Stored mem) :
    let s := mergeInPlace mem core gateway
    mem.Grows s.1 ∧ s.2.Stored s.1 ∧ gateway.read s.1 = gateway.read mem ∧
      s.2.read s.1 = mergedParts (core.read mem) (gateway.read mem) := by
  obtain ⟨hgrows, hstored, hpaths⟩ :=
    @foldl_storePath_spec mem core.paths gateway.paths.entries hcore.paths hgateway.paths
  set s := gateway.paths.entries.foldl storePath (mem, core.paths) with hs
  have hmerge : mergeInPlace mem core gateway =
      (s.1, ⟨s.2, core.schemas.setAll gateway.schemas.entries, (gateway.tags.foldl (storeTag s.1)
        (core.tags, core.tags.filterMap fun tag => tagName (s.1.cells tag))).1⟩) := rfl
  obtain ⟨htags, hmem⟩ := foldl_storeTag s.1
    (core.tags, core.tags.filterMap fun tag => tagName (s.1.cells tag)) gateway.tags
  have hread := hgateway.read hgrows
  rw [hmerge]
  refine ⟨hgrows, ⟨hstored, fun e he => ?_, fun a ha => ?_⟩, hread, ?_⟩
  · rcases OrderedDict.mem_of_mem_setAll _ he with he | he
    · exact (hcore.schemas e he).trans_le hgrows.next
    · exact (hgateway.schemas e he).trans_le hgrows.next
  · rcases hmem a ha with ha | ha
    · exact (hcore.tags a ha).trans_le hgrows.next
    · exact (hgateway.tags a ha).trans_le hgrows.next
  · have hsame := hcore.read hgrows
    have hpaths' : (s.2.mapVal fun _ a => s.1.cells a) =
        (core.read mem).paths.setAll (protectedPaths (gateway.read mem).paths.entries) := hpaths
    have hschemas : ((core.schemas.setAll gateway.schemas.entries).mapVal fun _ a =>
        s.1.cells a) = (core.read mem).schemas.setAll (gateway.read mem).schemas.entries := by
      rw [OrderedDict.mapVal_setAll, ← hsame, ← hread]
      rfl
    have hcoreTags : core.tags.map s.1.cells = (core.read mem).tags := congrArg Parts.tags hsame
    have hgatewayTags : gateway.tags.map s.1.cells = (gateway.read mem).tags :=
      congrArg Parts.tags hread
    have hnames : (core.tags.filterMap fun tag => tagName (s.1.cells tag)) =
        (core.read mem).tags.filterMap tagName := by
      rw [← hcoreTags, List.filterMap_map]
      rfl
    rw [Parts.read, htags, hpaths', hschemas, hnames, hcoreTags, hgatewayTags]
    rfl

/-! ## The core with the merged document of the gateway -/

/-- The path is `/plg` or lies below it. -/
def IsPluginPath (path : String) : Prop := path = "/plg" ∨ startsWith path "/plg/"

theorem startsWith_publicPath (p a : String) : startsWith (publicPath p a) "/plg/" := by
  obtain ⟨rest, hpath, -⟩ := isUnder_iff.1 (isUnder_publicPath p a)
  exact startsWith_iff.2 ⟨a ++ rest, by rw [hpath, publicPluginPrefix, String.append_assoc]⟩

/-- The core has no path of the gateway and no schema with a joined name of a service. -/
structure Separate (coreSchema : Json) (documents : OrderedDict String Json) : Prop where
  paths : ∀ path ∈ (documentPaths coreSchema).keys, ¬ IsPluginPath path
  schemas : ∀ key ∈ (documentSchemas coreSchema).keys, ∀ e ∈ documents, ∀ name,
    key ≠ schemaKey e.1 name

/-- What the merge should do: the core keeps its paths, schemas and tags; the paths of the gateway
are there with all their operations protected; and a tag name that was unique stays unique. -/
structure AddsGateway (coreSchema gatewaySchema merged : Json) : Prop where
  corePaths : ∀ e ∈ documentPaths coreSchema, e ∈ documentPaths merged
  coreSchemas : ∀ e ∈ documentSchemas coreSchema, e ∈ documentSchemas merged
  coreTags : documentTags coreSchema <+: documentTags merged
  gatewayPaths : ∀ path item, (path, item) ∈ documentPaths gatewaySchema → ∃ item',
    (path, item') ∈ documentPaths merged ∧ (contents item').keys = (contents item).keys ∧
    ∀ method ∈ methods, ∀ operation, (method, operation) ∈ contents item' →
      (contents operation).get? "security" = some bearerAuth
  gatewaySchemas : ∀ e ∈ documentSchemas gatewaySchema, e ∈ documentSchemas merged
  uniqueTags : ∀ name, (tagNames coreSchema).count name ≤ 1 → (tagNames merged).count name ≤ 1

section

variable {coreSchema : Json} {documents : OrderedDict String Json}

theorem notMem_of_separate {coreSchema : Json} (hdocuments : ∀ e ∈ documents, WellFormed e.2)
    (hseparate : Separate coreSchema documents) :
    (∀ e ∈ documentPaths coreSchema,
      e.1 ∉ (protectedPaths (mergedOf documents).paths.entries).map Prod.fst) ∧
    ∀ e ∈ documentSchemas coreSchema, e.1 ∉ (mergedOf documents).schemas.entries.map Prod.fst := by
  constructor
  · intro e he hmem
    rw [keys_protectedPaths] at hmem
    obtain ⟨e', he', heq⟩ := List.mem_map.1 hmem
    obtain ⟨serviceName, document, p, item, -, -, -, rfl⟩ := exists_of_mem_paths hdocuments he'
    refine hseparate.paths e.1 (List.mem_map_of_mem he) (Or.inr ?_)
    rw [← heq]
    exact startsWith_publicPath p serviceName
  · intro e he hmem
    obtain ⟨e', he', heq⟩ := List.mem_map.1 hmem
    obtain ⟨serviceName, document, name, schema, hdocument, -, rfl⟩ := exists_of_mem_schemas he'
    exact hseparate.schemas e.1 (List.mem_map_of_mem he) _ hdocument name heq.symm

theorem count_tagNames_le (gatewaySchema : Json) (hcore : WellFormed coreSchema) {name : String}
    (h : (tagNames coreSchema).count name ≤ 1) :
    (tagNames (.obj (mergedCore coreSchema gatewaySchema))).count name ≤ 1 := by
  obtain ⟨hnew, hnodup⟩ := freshTags_names (tagNames coreSchema) (documentTags gatewaySchema)
  have hfresh : ((freshTags (tagNames coreSchema) (documentTags gatewaySchema)).filterMap
      tagName).Nodup := by
    have hmap := hnodup.filterMap (f := id) fun a a' b ha ha' => ha.trans ha'.symm
    rwa [List.filterMap_map] at hmap
  rw [tagNames, documentTags_mergedCore coreSchema gatewaySchema hcore, List.filterMap_append,
    List.count_append]
  by_cases hseen : name ∈ tagNames coreSchema
  · have hzero : ((freshTags (tagNames coreSchema) (documentTags gatewaySchema)).filterMap
        tagName).count name = 0 := by
      rw [List.count_eq_zero, List.mem_filterMap]
      rintro ⟨tag, htag, hname⟩
      obtain ⟨name', hname', hnot⟩ := hnew tag htag
      rw [hname, Option.some.injEq] at hname'
      exact hnot (hname' ▸ hseen)
    rw [hzero, Nat.add_zero]
    exact h
  · have hzero : ((documentTags coreSchema).filterMap tagName).count name = 0 :=
      List.count_eq_zero.2 hseen
    rw [hzero, Nat.zero_add]
    exact List.nodup_iff_count_le_one.1 hfresh name

theorem addsGateway (hcore : WellFormed coreSchema) (hdocuments : ∀ e ∈ documents, WellFormed e.2)
    (hseparate : Separate coreSchema documents) :
    AddsGateway coreSchema (mergedOf documents).toJson
      (.obj (mergedCore coreSchema (mergedOf documents).toJson)) := by
  have hgateway := wellFormed_toJson hdocuments
  obtain ⟨hpaths, hschemas⟩ := notMem_of_separate hdocuments hseparate
  constructor
  · intro e he
    rw [documentPaths_mergedCore _ _ hcore, documentPaths_toJson, ← OrderedDict.get?_eq_some,
      OrderedDict.get?_setAll_of_notMem _ (hpaths e he)]
    exact OrderedDict.get?_eq_some _ |>.2 he
  · intro e he
    rw [documentSchemas_mergedCore, documentSchemas_toJson, ← OrderedDict.get?_eq_some,
      OrderedDict.get?_setAll_of_notMem _ (hschemas e he)]
    exact OrderedDict.get?_eq_some _ |>.2 he
  · rw [documentTags_mergedCore _ _ hcore]
    exact List.prefix_append _ _
  · intro path item hitem
    refine ⟨.obj (protect path (contents item)), ?_, ?_, ?_⟩
    · rw [documentPaths_mergedCore _ _ hcore]
      exact mem_setAll_protectedPaths _ _ (List.mem_map.2 ⟨(path, item), hitem, rfl⟩)
    · rw [contents_obj, protect, setInOperations, setInOperations, OrderedDict.keys_mapVal,
        OrderedDict.keys_mapVal]
    · intro method hmethod operation hmem
      rw [contents_obj] at hmem
      exact (security_of_mem_protect (hgateway.operations _ hitem) hmethod hmem).2
  · intro e he
    rw [documentSchemas_mergedCore]
    exact mem_setAll_schemas _ _ he
  · exact fun name => count_tagNames_le _ hcore

/-- For any well-formed core without plugin paths and joined schema names, and any well-formed
documents of services: the merged document of the gateway is added as it should be, merging it again
changes nothing, and in memory the core gets the merged parts, while the document of the gateway
keeps its own, after one merge and after two. -/
theorem mergeGatewayOpenapi_spec (hcore : WellFormed coreSchema)
    (hdocuments : ∀ e ∈ documents, WellFormed e.2) (hseparate : Separate coreSchema documents) :
    ∃ gatewaySchema merged, mergeOpenapiDocuments documents = .ok gatewaySchema ∧
      mergeGatewayOpenapi coreSchema gatewaySchema = .ok merged ∧
      AddsGateway coreSchema gatewaySchema merged ∧
      mergeGatewayOpenapi merged gatewaySchema = .ok merged ∧
      ∀ (mem : Memory) (core gateway : Parts ℕ), core.Stored mem → gateway.Stored mem →
        core.read mem = partsOf coreSchema → gateway.read mem = partsOf gatewaySchema →
        let once := mergeInPlace mem core gateway
        let twice := mergeInPlace once.1 once.2 gateway
        once.2.read once.1 = partsOf merged ∧ gateway.read once.1 = partsOf gatewaySchema ∧
          twice.2.read twice.1 = partsOf merged ∧
          gateway.read twice.1 = partsOf gatewaySchema := by
  have hgateway := wellFormed_toJson hdocuments
  have hmerged := wellFormed_mergedCore hcore hgateway
  refine ⟨_, _, mergeOpenapiDocuments_eq_ok.2
    ⟨fun e he => (hdocuments e he).mergeable e.1, rfl⟩, mergeGatewayOpenapi_ok hcore hgateway,
    addsGateway hcore hdocuments hseparate, ?_, ?_⟩
  · rw [mergeGatewayOpenapi_ok hmerged hgateway, mergedCore_mergedCore hcore]
  · intro mem core gateway hcoreStored hgatewayStored hcoreRead hgatewayRead
    obtain ⟨hgrows, hstored, hsame, hread⟩ := mergeInPlace_spec hcoreStored hgatewayStored
    obtain ⟨-, -, hsame', hread'⟩ := mergeInPlace_spec hstored (hgatewayStored.mono hgrows)
    rw [hcoreRead, hgatewayRead, ← partsOf_mergedCore _ _ hcore] at hread
    rw [hgatewayRead] at hsame
    rw [hread, hsame, ← partsOf_mergedCore _ _ hmerged, mergedCore_mergedCore hcore] at hread'
    exact ⟨hread, hsame, hread', hsame'.trans hsame⟩

/-- A core with one path and one tag. -/
def usersSchema : Json :=
  .ofEntries [("paths", .ofEntries [("/users", .ofEntries [("get", .ofEntries [])])]),
    ("components", .ofEntries [("schemas", .ofEntries [("User", .ofEntries [])])]),
    ("tags", .arr [.ofEntries [("name", .str "users")]])]

/-- Two services, one of which has a tag of the core. -/
def taggedDocuments : OrderedDict String Json :=
  ⟨[("shop", .ofEntries [("paths", .ofEntries [("/items", .ofEntries [("get", .ofEntries [])])]),
      ("tags", .arr [.ofEntries [("name", .str "users")], .ofEntries [("name", .str "items")]])]),
    ("forum", .ofEntries [("components", .ofEntries [("schemas",
      .ofEntries [("Post", .ofEntries [])])])])], by decide⟩

theorem schemaKey_ne {key serviceName : String} (h : '_' ∉ key.toList) (name : String) :
    key ≠ schemaKey serviceName name := by
  rintro rfl
  exact h (by simp [schemaKey])

theorem mergeGatewayOpenapi_usersSchema : ∃ gatewaySchema merged,
    mergeOpenapiDocuments taggedDocuments = .ok gatewaySchema ∧
    mergeGatewayOpenapi usersSchema gatewaySchema = .ok merged ∧
    AddsGateway usersSchema gatewaySchema merged := by
  have hseparate : Separate usersSchema taggedDocuments := by
    refine ⟨by unfold IsPluginPath; decide +kernel, fun key hkey e _ name => ?_⟩
    have hplain : ∀ key ∈ (documentSchemas usersSchema).keys, '_' ∉ key.toList := by decide +kernel
    exact schemaKey_ne (hplain key hkey) name
  obtain ⟨gatewaySchema, merged, hmerge, hadd, hspec, -⟩ := @mergeGatewayOpenapi_spec
    usersSchema taggedDocuments (by decide +kernel) (by decide +kernel) hseparate
  exact ⟨gatewaySchema, merged, hmerge, hadd, hspec⟩

end

end OpenApi

end AranesLms
