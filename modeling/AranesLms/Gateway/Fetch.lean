import AranesLms.Gateway.OpenApi

/-!
# Fetching the documents of the services

`fetch_service_openapi_documents` of `gateway_server/gateway.py` asks every running service for its
document, and `openapi_document` merges the answers.  `loads` is `json.loads`: it gives no value
when it raises a `ValueError`.  `contained_iff`: one answer that is not JSON, or not of the shape
that the merge relies on, makes the request for the whole document fail; when there is no such
answer, a malformed document changes what the others contribute exactly when it gives something
else for a path or a schema that it is the last one to have, or for a tag that it is the first one
to have.
-/

namespace AranesLms

namespace Gateway

/-- What comes of the request for the document of a service: an `httpx.HTTPError`, an
`httpx.InvalidURL`, or a response. -/
inductive Answer where
  | httpError
  | invalidUrl
  | response (statusCode : ℕ) (content : List UInt8)

/-- What is used of a `ManagedServiceRuntime`: whether its process runs, `service_openapi_path`, and
what it answers. -/
structure RegisteredService where
  running : Bool
  openapiPath : Option String
  answer : Answer

/-- `raise_for_status` does not raise. -/
def isSuccess (statusCode : ℕ) : Bool := 200 ≤ statusCode ∧ statusCode ≤ 299

section

variable (loads : List UInt8 → Option Json)

def fetchSingleServiceOpenapi (service : RegisteredService) : Except PyError (Option Json) :=
  if ¬ service.running then .ok none
  else
    match service.openapiPath with
    | none => .ok none
    | some _ =>
      match service.answer with
      | .httpError => .ok none
      | .invalidUrl => .error .invalidUrl
      | .response statusCode content =>
        if ¬ isSuccess statusCode then .ok none
        else
          match loads content with
          | some document => .ok (some document)
          | none => .error .valueError

/-- `documents[service_name] = document`, unless the document is `None`. -/
def addAnswer (documents : OrderedDict String Json) (answer : String × Option Json) :
    OrderedDict String Json :=
  match answer.2 with
  | none | some .null => documents
  | some document => documents.set answer.1 document

def fetchServiceOpenapiDocuments (services : OrderedDict String RegisteredService) :
    Except PyError (OrderedDict String Json) := do
  let results ← (sortedItems services).mapM fun e =>
    (fun document => (e.1, document)) <$> fetchSingleServiceOpenapi loads e.2
  return results.foldl addAnswer ∅

def openapiDocument (services : OrderedDict String RegisteredService) : Except PyError Json := do
  let documents ← fetchServiceOpenapiDocuments loads services
  mergeOpenapiDocuments documents

/-! ## The answers -/

/-- The document that a service has answered with, if any. -/
def answered (service : RegisteredService) : Option Json :=
  match fetchSingleServiceOpenapi loads service with
  | .ok (some .null) => none
  | .ok document => document
  | .error _ => none

/-- Every service that is asked and answers with success sends JSON, which is `null` or satisfies
`P`. -/
def AnswersWith (P : String → Json → Prop) (services : OrderedDict String RegisteredService) :
    Prop :=
  ∀ e ∈ services, e.2.running → e.2.openapiPath.isSome → e.2.answer ≠ .invalidUrl ∧
    ∀ statusCode content, e.2.answer = .response statusCode content → isSuccess statusCode →
      ∃ document, loads content = some document ∧ (document = .null ∨ P e.1 document)

theorem fetch_ok_iff {P : String → Json → Prop} {services : OrderedDict String RegisteredService} :
    AnswersWith loads P services ↔ ∀ e ∈ services,
      (∃ d, fetchSingleServiceOpenapi loads e.2 = .ok d) ∧
        ∀ document, answered loads e.2 = some document → P e.1 document := by
  refine forall₂_congr fun e he => ?_
  unfold answered fetchSingleServiceOpenapi
  by_cases hrunning : e.2.running
  · cases hpath : e.2.openapiPath with
    | none => simp [hrunning]
    | some path =>
      cases hanswer : e.2.answer with
      | httpError => simp [hrunning]
      | invalidUrl => simp [hrunning]
      | response statusCode content =>
        by_cases hsuccess : isSuccess statusCode
        · cases hloads : loads content with
          | none => simp [hrunning, hsuccess, hloads]
          | some document => cases document <;> simp [hrunning, hsuccess, hloads]
        · simp [hrunning, hsuccess]
  · simp [hrunning]

/-- The items of a part of a dictionary, in order. -/
theorem sortedItems_retain {α : Type} (d : OrderedDict String α) (p : String × α → Bool) :
    sortedItems (d.retain p) = (sortedItems d).filter p := by
  have hnodup : (((sortedItems d).filter p).map Prod.fst).Nodup :=
    (((List.perm_insertionSort _ _).map _).nodup_iff.2 d.nodup).sublist
      (List.filter_sublist.map _)
  have hsame : sortedItems (d.retain p) = sortedItems ⟨(sortedItems d).filter p, hnodup⟩ :=
    sortedItems_congr fun e => by
      show e ∈ d.retain p ↔ e ∈ (sortedItems d).filter p
      rw [OrderedDict.mem_retain, List.mem_filter, mem_sortedItems]
  rw [hsame]
  exact ((List.pairwise_insertionSort _ _).filter p).insertionSort_eq

/-- The documents of the services that have answered with one. -/
def answeredDocuments (services : OrderedDict String RegisteredService) :
    OrderedDict String Json :=
  (∅ : OrderedDict String Json).setAll
    ((sortedItems services).filterMap fun e => (answered loads e.2).map fun document =>
      (e.1, document))

theorem foldl_addAnswer (services : List (String × RegisteredService))
    (hfetch : ∀ e ∈ services, ∃ d, fetchSingleServiceOpenapi loads e.2 = .ok d) :
    ∃ results, (services.mapM fun e =>
        (fun document => (e.1, document)) <$> fetchSingleServiceOpenapi loads e.2) = .ok results ∧
      ∀ documents : OrderedDict String Json, results.foldl addAnswer documents =
        documents.setAll (services.filterMap fun e => (answered loads e.2).map fun document =>
          (e.1, document)) := by
  induction services with
  | nil => exact ⟨[], rfl, fun _ => rfl⟩
  | cons e services ih =>
    obtain ⟨d, hd⟩ := hfetch e List.mem_cons_self
    obtain ⟨results, hresults, hfold⟩ := ih fun e' he' => hfetch e' (List.mem_cons_of_mem _ he')
    refine ⟨(e.1, d) :: results, by rw [List.mapM_cons, hd, hresults]; rfl, fun documents => ?_⟩
    have hanswered : addAnswer documents (e.1, d) = documents.setAll
        ((answered loads e.2).map fun document => (e.1, document)).toList := by
      rw [answered, hd]
      cases d with
      | none => rfl
      | some document => cases document <;> rfl
    rw [List.foldl_cons, hfold, hanswered, ← OrderedDict.setAll_append]
    cases hnone : answered loads e.2 with
    | none => rw [List.filterMap_cons_none (by rw [hnone]; rfl)]; rfl
    | some document => rw [List.filterMap_cons_some (by rw [hnone]; rfl)]; rfl

theorem fetchServiceOpenapiDocuments_eq_ok {services : OrderedDict String RegisteredService}
    {documents : OrderedDict String Json} :
    fetchServiceOpenapiDocuments loads services = .ok documents ↔
      (∀ e ∈ services, ∃ d, fetchSingleServiceOpenapi loads e.2 = .ok d) ∧
        answeredDocuments loads services = documents := by
  simp only [fetchServiceOpenapiDocuments, Except.bind_eq_ok, Except.pure_eq_ok]
  constructor
  · rintro ⟨results, hresults, rfl⟩
    have hfetch : ∀ e ∈ sortedItems services,
        ∃ d, fetchSingleServiceOpenapi loads e.2 = .ok d := fun e he => by
      obtain ⟨result, hresult⟩ := Except.exists_of_mapM_eq_ok hresults e he
      obtain ⟨d, hd, -⟩ := Except.map_eq_ok.1 hresult
      exact ⟨d, hd⟩
    obtain ⟨results', hresults', hfold⟩ := foldl_addAnswer loads _ hfetch
    obtain rfl : results = results' := Except.ok.inj (hresults.symm.trans hresults')
    exact ⟨fun e he => hfetch e (mem_sortedItems.2 he), (hfold ∅).symm⟩
  · rintro ⟨hfetch, rfl⟩
    obtain ⟨results, hresults, hfold⟩ := foldl_addAnswer loads (sortedItems services)
      fun e he => hfetch e (mem_sortedItems.1 he)
    exact ⟨results, hresults, hfold ∅⟩

theorem mem_answeredDocuments {services : OrderedDict String RegisteredService}
    {serviceName : String} {document : Json} :
    (serviceName, document) ∈ answeredDocuments loads services ↔
      ∃ service, (serviceName, service) ∈ services ∧ answered loads service = some document := by
  have hnames : (((sortedItems services).filterMap fun e =>
      (answered loads e.2).map fun document => (e.1, document)).map Prod.fst).Nodup := by
    have hsorted : ((sortedItems services).map Prod.fst).Nodup :=
      ((List.perm_insertionSort _ _).map _).nodup_iff.2 services.nodup
    refine hsorted.sublist ?_
    induction sortedItems services with
    | nil => exact List.Sublist.refl []
    | cons e es ih =>
      cases hanswered : answered loads e.2 with
      | none => rw [List.filterMap_cons_none (by rw [hanswered]; rfl)]; exact ih.cons _
      | some d => rw [List.filterMap_cons_some (by rw [hanswered]; rfl)]; exact ih.cons_cons _
  have hentries : (answeredDocuments loads services).entries = (sortedItems services).filterMap
      fun e => (answered loads e.2).map fun document => (e.1, document) :=
    OrderedDict.entries_setAll ∅ hnames fun _ _ h => nomatch h
  rw [OrderedDict.mem_def, hentries, List.mem_filterMap]
  constructor
  · rintro ⟨⟨serviceName', service⟩, he, heq⟩
    obtain ⟨document', hdocument, heq⟩ := Option.map_eq_some_iff.1 heq
    obtain ⟨rfl, rfl⟩ := Prod.mk.inj heq
    exact ⟨service, mem_sortedItems.1 he, hdocument⟩
  · rintro ⟨service, he, hdocument⟩
    exact ⟨(serviceName, service), mem_sortedItems.2 he, by rw [hdocument]; rfl⟩

/-- When the document is returned, and which it is. -/
theorem openapiDocument_eq_ok {services : OrderedDict String RegisteredService} {merged : Json} :
    openapiDocument loads services = .ok merged ↔ AnswersWith loads Mergeable services ∧
      (mergedOf (answeredDocuments loads services)).toJson = merged := by
  simp only [openapiDocument, Except.bind_eq_ok, fetchServiceOpenapiDocuments_eq_ok,
    mergeOpenapiDocuments_eq_ok, fetch_ok_iff]
  constructor
  · rintro ⟨_, ⟨hfetch, rfl⟩, hmergeable, rfl⟩
    refine ⟨fun e he => ⟨hfetch e he, fun document hdocument => ?_⟩, rfl⟩
    exact hmergeable (e.1, document) ((mem_answeredDocuments loads).2 ⟨e.2, he, hdocument⟩)
  · rintro ⟨h, rfl⟩
    refine ⟨_, ⟨fun e he => (h e he).1, rfl⟩, ?_, rfl⟩
    rintro ⟨serviceName, document⟩ hmem
    obtain ⟨service, he, hdocument⟩ := (mem_answeredDocuments loads).1 hmem
    exact (h _ he).2 document hdocument

/-- One document that the merge cannot take, and there is none at all. -/
theorem returns_iff {services : OrderedDict String RegisteredService} :
    (∃ merged, openapiDocument loads services = .ok merged) ↔
      AnswersWith loads Mergeable services := by
  simp only [openapiDocument_eq_ok, exists_and_left, exists_eq', and_true]

/-! ## The document without the other services -/

/-- The services that have answered with a well-formed document. -/
def wellBehaved (services : OrderedDict String RegisteredService) :
    OrderedDict String RegisteredService :=
  services.retain fun e => (answered loads e.2).any fun document => WellFormed document

/-- The document is returned, and what the services with well-formed documents have contributed to
it is what it would be without the other services. -/
def Contained (services : OrderedDict String RegisteredService) : Prop :=
  ∃ merged own, openapiDocument loads services = .ok merged ∧
    openapiDocument loads (wellBehaved loads services) = .ok own ∧
    (∀ path ∈ documentPaths own, path ∈ documentPaths merged) ∧
    (∀ schema ∈ documentSchemas own, schema ∈ documentSchemas merged) ∧
    ∀ tag ∈ documentTags own, tag ∈ documentTags merged

/-- Of the documents that satisfy `p`, this is the first one that gives the key a value. -/
structure Decides (documents : OrderedDict String Json) (before : String → String → Prop)
    (p : Json → Prop) (value : String × Json → Option Json) (e : String × Json) : Prop where
  mem : e ∈ documents
  holds : p e.2
  isSome : (value e).isSome
  first : ∀ e' ∈ documents, p e'.2 → before e'.1 e.1 → value e' = none

/-- Of the well-formed documents, the one that decides gives the value that counts. -/
def Undisturbed (documents : OrderedDict String Json) (before : String → String → Prop)
    (value : String × Json → Option Json) : Prop :=
  ∀ e e', Decides documents before WellFormed value e →
    Decides documents before (fun _ => True) value e' → value e = value e'

/-- Of the paths and the schemas, the last ones count, and of the tags, the first ones: for each of
them, the well-formed document that counts among the well-formed ones has the same as the one that
counts among all. -/
structure NotDisturbed (documents : OrderedDict String Json) : Prop where
  paths : ∀ path, Undisturbed documents (· > ·) fun e => (publishedPaths e.1 e.2).get? path
  schemas : ∀ key, Undisturbed documents (· > ·) fun e =>
    ((∅ : OrderedDict String Json).setAll (namespacedSchemas e.1 e.2)).get? key
  tags : ∀ name, Undisturbed documents (· < ·) fun e =>
    (documentTags e.2).find? fun tag => tagName tag = some name

theorem answeredDocuments_wellBehaved (services : OrderedDict String RegisteredService) :
    sortedItems (answeredDocuments loads (wellBehaved loads services)) =
      (sortedItems (answeredDocuments loads services)).filter fun e => WellFormed e.2 := by
  rw [← sortedItems_retain]
  refine sortedItems_congr ?_
  rintro ⟨serviceName, document⟩
  rw [mem_answeredDocuments, OrderedDict.mem_retain, mem_answeredDocuments]
  constructor
  · rintro ⟨service, he, hdocument⟩
    obtain ⟨he, hwellFormed⟩ := (OrderedDict.mem_retain services).1 he
    rw [hdocument] at hwellFormed
    exact ⟨⟨service, he, hdocument⟩, hwellFormed⟩
  · rintro ⟨⟨service, he, hdocument⟩, hwellFormed⟩
    refine ⟨service, (OrderedDict.mem_retain services).2 ⟨he, ?_⟩, hdocument⟩
    rw [hdocument]
    exact hwellFormed

end

/-! ### The documents that count -/

/-- In an ordered list, the first element with a value is the one that no other one with a value
precedes. -/
theorem findSome?_eq_some_of_pairwise {α β : Type} {r : α → α → Prop} {l : List α}
    (hl : l.Pairwise r) (hr : ∀ a b, r a b → ¬ r b a) {f : α → Option β} {b : β} :
    l.findSome? f = some b ↔ ∃ a ∈ l, f a = some b ∧ ∀ a' ∈ l, r a' a → f a' = none := by
  have hirrefl : ∀ a, ¬ r a a := fun a h => hr a a h h
  induction l with
  | nil => simp
  | cons a l ih =>
    obtain ⟨hall, hl⟩ := List.pairwise_cons.1 hl
    rw [List.findSome?_cons]
    cases hfa : f a with
    | some b' =>
      rw [Option.some.injEq]
      constructor
      · rintro rfl
        refine ⟨a, List.mem_cons_self, hfa, fun a' ha' hbefore => ?_⟩
        rcases List.mem_cons.1 ha' with rfl | ha'
        · exact absurd hbefore (hirrefl _)
        · exact absurd hbefore (hr _ _ (hall a' ha'))
      · rintro ⟨a', ha', hfa', hfirst⟩
        rcases List.mem_cons.1 ha' with rfl | ha'
        · exact Option.some.inj (hfa.symm.trans hfa')
        · have hnone := hfirst a List.mem_cons_self (hall a' ha')
          rw [hfa] at hnone
          cases hnone
    | none =>
      refine (ih hl).trans ?_
      constructor
      · rintro ⟨a', ha', hfa', hfirst⟩
        refine ⟨a', List.mem_cons_of_mem _ ha', hfa', fun a'' ha'' hbefore => ?_⟩
        rcases List.mem_cons.1 ha'' with rfl | ha''
        · exact hfa
        · exact hfirst a'' ha'' hbefore
      · rintro ⟨a', ha', hfa', hfirst⟩
        rcases List.mem_cons.1 ha' with rfl | ha'
        · rw [hfa] at hfa'
          cases hfa'
        · exact ⟨a', ha', hfa', fun a'' ha'' => hfirst a'' (List.mem_cons_of_mem _ ha'')⟩

section

variable {documents : OrderedDict String Json} {before : String → String → Prop}
  {value : String × Json → Option Json}

/-- The value of the document that decides is the first one of the list. -/
theorem findSome?_filter_iff {l : List (String × Json)} {p : Json → Prop} [DecidablePred p]
    (hmem : ∀ e, e ∈ l ↔ e ∈ documents) (hl : l.Pairwise fun e e' => before e.1 e'.1)
    (hbefore : ∀ a b, before a b → ¬ before b a) {v : Json} :
    (l.filter fun e => p e.2).findSome? value = some v ↔
      ∃ e, Decides documents before p value e ∧ value e = some v := by
  rw [findSome?_eq_some_of_pairwise (hl.filter _) fun e e' => hbefore e.1 e'.1]
  simp only [List.mem_filter, decide_eq_true_eq, hmem]
  constructor
  · rintro ⟨e, ⟨he, hp⟩, hv, hfirst⟩
    exact ⟨e, ⟨he, hp, by rw [hv]; rfl, fun e' he' hp' => hfirst e' ⟨he', hp'⟩⟩, hv⟩
  · rintro ⟨e, h, hv⟩
    exact ⟨e, ⟨h.mem, h.holds⟩, hv, fun e' he' => h.first e' he'.1 he'.2⟩

/-- What the well-formed documents decide holds among all of them exactly when they are not
disturbed. -/
theorem undisturbed_iff {l : List (String × Json)} (hmem : ∀ e, e ∈ l ↔ e ∈ documents)
    (hl : l.Pairwise fun e e' => before e.1 e'.1) (hbefore : ∀ a b, before a b → ¬ before b a) :
    (∀ v, (l.filter fun e => WellFormed e.2).findSome? value = some v →
      l.findSome? value = some v) ↔ Undisturbed documents before value := by
  have hall : ∀ v, l.findSome? value = some v ↔
      ∃ e, Decides documents before (fun _ => True) value e ∧ value e = some v := by
    intro v
    have htrue : (l.filter fun _ => decide True) = l := List.filter_eq_self.2 fun _ _ => rfl
    rw [← findSome?_filter_iff hmem hl hbefore, htrue]
  constructor
  · intro h e e' he he'
    obtain ⟨v, hv⟩ := Option.isSome_iff_exists.1 he.isSome
    obtain ⟨v', hv'⟩ := Option.isSome_iff_exists.1 he'.isSome
    have hown := h v ((findSome?_filter_iff hmem hl hbefore).2 ⟨e, he, hv⟩)
    rw [hv, hv', ← hown]
    exact (hall v').2 ⟨e', he', hv'⟩
  · intro h v hown
    obtain ⟨e, he, hv⟩ := (findSome?_filter_iff hmem hl hbefore).1 hown
    obtain ⟨v', hv'⟩ : ∃ v', l.findSome? value = some v' := by
      rw [← Option.isSome_iff_exists, List.findSome?_isSome_iff]
      exact ⟨e, (hmem e).2 he.mem, he.isSome⟩
    obtain ⟨e', he', hvalue⟩ := (hall v').1 hv'
    rw [hv', ← hvalue, ← h e e' he he', hv]

end

theorem pairwise_sortedItems {α : Type} (d : OrderedDict String α) :
    (sortedItems d).Pairwise fun e e' => e.1 < e'.1 := by
  have hsorted : (sortedItems d).Pairwise fun e e' => e.1 ≤ e'.1 :=
    List.pairwise_insertionSort _ _
  have hnodup : (sortedItems d).Pairwise fun e e' => e.1 ≠ e'.1 :=
    List.pairwise_map.1 (((List.perm_insertionSort _ _).map Prod.fst).nodup_iff.2 d.nodup)
  exact (hsorted.and hnodup).imp fun h => lt_of_le_of_ne h.1 h.2

section

variable {documents : OrderedDict String Json}

/-- The documents without those that are not well-formed. -/
def wellFormedItems (documents : OrderedDict String Json) : List (String × Json) :=
  (sortedItems documents).filter fun e => WellFormed e.2

/-- What is stored under the keys of several documents: the last value counts. -/
theorem forall_mem_setAll_iff (f : String × Json → List (String × Json)) :
    (∀ e ∈ (∅ : OrderedDict String Json).setAll ((wellFormedItems documents).flatMap f),
      e ∈ (∅ : OrderedDict String Json).setAll ((sortedItems documents).flatMap f)) ↔
    ∀ key, Undisturbed documents (· > ·) fun e =>
      ((∅ : OrderedDict String Json).setAll (f e)).get? key := by
  have hmem : ∀ e, e ∈ (sortedItems documents).reverse ↔ e ∈ documents :=
    fun e => List.mem_reverse.trans mem_sortedItems
  have hsorted := List.pairwise_reverse.2 (pairwise_sortedItems documents)
  rw [Prod.forall]
  refine forall_congr' fun key => ?_
  rw [← undisturbed_iff hmem hsorted fun a b => lt_asymm]
  refine forall_congr' fun v => ?_
  rw [← OrderedDict.get?_eq_some, ← OrderedDict.get?_eq_some, OrderedDict.get?_setAll_flatMap,
    OrderedDict.get?_setAll_flatMap, wellFormedItems, List.filter_reverse]

/-- Of the tags, the first ones count. -/
theorem forall_isFirstTag_iff {own : OrderedDict String Json}
    (hown : sortedItems own = wellFormedItems documents) :
    (∀ tag, IsFirstTag own tag → IsFirstTag documents tag) ↔
      ∀ name, Undisturbed documents (· < ·) fun e =>
        (documentTags e.2).find? fun tag => tagName tag = some name := by
  have hfirst : (∀ tag, IsFirstTag own tag → IsFirstTag documents tag) ↔ ∀ name tag,
      (allTags own).find? (fun tag' => tagName tag' = some name) = some tag →
        (allTags documents).find? (fun tag' => tagName tag' = some name) = some tag := by
    constructor
    · intro h name tag hfind
      have hname : tagName tag = some name := by simpa using List.find?_some hfind
      obtain ⟨name', hname', hfind'⟩ := h tag ⟨name, hname, hfind⟩
      obtain rfl : name' = name := Option.some.inj (hname'.symm.trans hname)
      exact hfind'
    · rintro h tag ⟨name, hname, hfind⟩
      exact ⟨name, hname, h name tag hfind⟩
  rw [hfirst]
  refine forall_congr' fun name => ?_
  rw [← undisturbed_iff (fun e => mem_sortedItems) (pairwise_sortedItems documents)
    fun a b => lt_asymm]
  refine forall_congr' fun tag => ?_
  rw [allTags, allTags, hown, wellFormedItems, List.find?_flatMap, List.find?_flatMap]

end

section

variable {loads : List UInt8 → Option Json}

/-- Whether one answer spoils the document for the other services: the document is returned exactly
when every answer can be merged, and the services with well-formed documents are not disturbed
exactly when, in addition, what counts among their documents is what counts among all. -/
theorem contained_iff (services : OrderedDict String RegisteredService) :
    ((∃ merged, openapiDocument loads services = .ok merged) ↔
      AnswersWith loads Mergeable services) ∧
    (Contained loads services ↔ AnswersWith loads Mergeable services ∧
      NotDisturbed (answeredDocuments loads services)) := by
  refine ⟨returns_iff loads, ?_⟩
  have hitems := answeredDocuments_wellBehaved loads services
  have hpaths := @forall_mem_setAll_iff (answeredDocuments loads services)
    fun e => (publishedPaths e.1 e.2).entries
  rw [wellFormedItems, ← hitems, ← paths_mergedOf, ← paths_mergedOf] at hpaths
  simp only [OrderedDict.setAll_entries] at hpaths
  have hschemas := @forall_mem_setAll_iff (answeredDocuments loads services)
    fun e => namespacedSchemas e.1 e.2
  rw [wellFormedItems, ← hitems, ← schemas_mergedOf, ← schemas_mergedOf] at hschemas
  have htags := forall_isFirstTag_iff hitems
  constructor
  · rintro ⟨merged, own, hmerged, hown, hp, hs, ht⟩
    obtain ⟨hanswers, rfl⟩ := (openapiDocument_eq_ok loads).1 hmerged
    obtain ⟨-, rfl⟩ := (openapiDocument_eq_ok loads).1 hown
    simp only [documentPaths_toJson, documentSchemas_toJson, documentTags_toJson,
      mem_tags_iff] at hp hs ht
    exact ⟨hanswers, hpaths.1 hp, hschemas.1 hs, htags.1 ht⟩
  · rintro ⟨hanswers, hcounts⟩
    have hwell : AnswersWith loads Mergeable (wellBehaved loads services) := fun e he =>
      hanswers e ((OrderedDict.mem_retain services).1 he).1
    refine ⟨_, _, (openapiDocument_eq_ok loads).2 ⟨hanswers, rfl⟩,
      (openapiDocument_eq_ok loads).2 ⟨hwell, rfl⟩, ?_⟩
    simp only [documentPaths_toJson, documentSchemas_toJson, documentTags_toJson, mem_tags_iff]
    exact ⟨hpaths.2 hcounts.paths, hschemas.2 hcounts.schemas, htags.2 hcounts.tags⟩

end

/-! ### Two answers -/

/-- `json.loads` on `{}` and on what is not JSON. -/
def loadsEmptyObject (content : List UInt8) : Option Json :=
  if content = [123, 125] then some (.obj ∅) else none

def serviceAnswering (content : List UInt8) : RegisteredService :=
  ⟨true, some "/openapi.json", .response 200 content⟩

/-- The documents of two services with the same tag; the second one has a path whose operation is no
object. -/
def taggedDocument : Json :=
  .ofEntries [("paths", .obj ∅), ("tags", .arr [.ofEntries [("name", .str "t")]])]

def nullDocument : Json :=
  .ofEntries [("paths", .ofEntries [("/x", .ofEntries [("get", .null)])]),
    ("tags", .arr [.ofEntries [("name", .str "t")]])]

def taggedContent : List UInt8 :=
  "\x7b\"paths\": \x7b\x7d, \"tags\": [\x7b\"name\": \"t\"\x7d]\x7d".toUTF8.data.toList

def nullContent : List UInt8 :=
  ("\x7b\"paths\": \x7b\"/x\": \x7b\"get\": null\x7d\x7d, " ++
    "\"tags\": [\x7b\"name\": \"t\"\x7d]\x7d").toUTF8.data.toList

/-- `json.loads` on the two documents. -/
def loadsTagged (content : List UInt8) : Option Json :=
  if content = taggedContent then some taggedDocument
  else if content = nullContent then some nullDocument
  else none

def taggedServices : OrderedDict String RegisteredService :=
  ⟨[("shop", serviceAnswering taggedContent), ("zeta", serviceAnswering nullContent)], by decide⟩

/-- The malformed document changes nothing: its path is its own, and its tag is the second one. -/
theorem contained_taggedServices : Contained loadsTagged taggedServices := by
  have hdocuments : (answeredDocuments loadsTagged taggedServices).entries =
      [("shop", taggedDocument), ("zeta", nullDocument)] := by decide +kernel
  have hmem : ∀ {before p value e},
      Decides (answeredDocuments loadsTagged taggedServices) before p value e →
        e = ("shop", taggedDocument) ∨ e = ("zeta", nullDocument) := fun h => by
    have hmem := h.mem
    rw [OrderedDict.mem_def, hdocuments] at hmem
    simpa using hmem
  have hshop : ∀ {before value e},
      Decides (answeredDocuments loadsTagged taggedServices) before WellFormed value e →
        e = ("shop", taggedDocument) := fun h => by
    rcases hmem h with rfl | rfl
    · rfl
    · exact absurd h.holds (by decide +kernel)
  -- The first document has no paths and no schemas, and its tag comes first.
  have hundisturbed : ∀ {before value}, value ("shop", taggedDocument) = none ∨
      before "shop" "zeta" →
        Undisturbed (answeredDocuments loadsTagged taggedServices) before value := by
    intro before value h e e' he he'
    obtain rfl := hshop he
    rcases hmem he' with rfl | rfl
    · rfl
    · have hnone : value ("shop", taggedDocument) = none :=
        h.elim id fun hbefore => he'.first _ he.mem trivial hbefore
      have hsome := he.isSome
      rw [hnone] at hsome
      cases hsome
  have hmergeable : Mergeable "zeta" nullDocument :=
    ⟨by decide +kernel, by decide +kernel, by decide +kernel, by decide +kernel, by decide +kernel,
      by decide +kernel, by decide +kernel⟩
  refine (contained_iff taggedServices).2.2 ⟨?_, fun path => hundisturbed (Or.inl ?_),
    fun key => hundisturbed (Or.inl ?_), fun name => hundisturbed (Or.inr (by decide))⟩
  · have hshop : WellFormed taggedDocument := by decide +kernel
    have hloads : loadsTagged taggedContent = some taggedDocument ∧
        loadsTagged nullContent = some nullDocument := by decide +kernel
    have hcase : ∀ content document serviceName, loadsTagged content = some document →
        Mergeable serviceName document → (serviceAnswering content).answer ≠ .invalidUrl ∧
        ∀ statusCode content', (serviceAnswering content).answer = .response statusCode content' →
          isSuccess statusCode → ∃ document, loadsTagged content' = some document ∧
            (document = .null ∨ Mergeable serviceName document) := by
      intro content document serviceName hdocument hmergeable
      refine ⟨by simp [serviceAnswering], fun statusCode content' hanswer _ => ?_⟩
      obtain ⟨-, rfl⟩ : 200 = statusCode ∧ content = content' := by
        simpa [serviceAnswering] using hanswer
      exact ⟨document, hdocument, Or.inr hmergeable⟩
    rintro e he - -
    rw [OrderedDict.mem_def, taggedServices] at he
    rcases List.mem_cons.1 he with rfl | he
    · exact hcase _ _ _ hloads.1 (hshop.mergeable "shop")
    · obtain rfl := List.mem_singleton.1 he
      exact hcase _ _ _ hloads.2 hmergeable
  · have hpaths : publishedPaths "shop" taggedDocument = ∅ := by decide +kernel
    rw [hpaths, OrderedDict.get?_empty]
  · have hschemas : namespacedSchemas "shop" taggedDocument = [] := by decide +kernel
    rw [hschemas, OrderedDict.setAll_nil, OrderedDict.get?_empty]

/-- An empty response makes the request for the whole document fail. -/
theorem not_contained_broken :
    ¬ ∀ (loads : List UInt8 → Option Json) (services : OrderedDict String RegisteredService),
      Contained loads services := by
  intro h
  obtain ⟨merged, -, hmerged, -⟩ := h loadsEmptyObject
    ⟨[("broken", serviceAnswering []), ("shop", serviceAnswering [123, 125])], by decide⟩
  have herror : openapiDocument loadsEmptyObject ⟨[("broken", serviceAnswering []),
      ("shop", serviceAnswering [123, 125])], by decide⟩ = .error .valueError := by rfl
  rw [herror] at hmerged
  cases hmerged

end Gateway

end AranesLms
