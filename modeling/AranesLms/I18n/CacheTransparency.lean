import AranesLms.I18n.Endpoints
import AranesLms.Lib.Transition

/-!
# The translation cache is transparent

What the cache holds for an item or a list is the serialisation of the present rows (`Coherent`).
An item carries its own key, so a read takes an entry only if it is the one it asks for; anything
else under its Redis key, such as the list where the small item `list` is looked for, is dropped.
Hence no request can tell the cache from the tables, whatever rows these hold.
-/

namespace AranesLms

namespace I18nApp

variable {ω : Type} {kind : TranslationKind} {s : I18nApp ω}

/-- Every entry is under the Redis key it is made for and is what the present rows give. -/
structure Coherent (s : I18nApp ω) : Prop where
  item : ∀ cacheKey kind item, s.redis cacheKey = some (.item kind item) →
    cacheKey = kind.cacheKey item.key ∧ getTranslation (s.tables kind) item.key = .ok item
  items : ∀ cacheKey kind items, s.redis cacheKey = some (.items kind items) →
    cacheKey = kind.listCacheKey ∧ listTranslations (s.tables kind) = .ok items

theorem coherent_empty (tables : TranslationTables ω) : Coherent ⟨tables, fun _ => none⟩ :=
  ⟨nofun, nofun⟩

theorem getTranslation_key {table : TranslationTable ω kind} {key : kind.Key}
    {item : TranslationItem ω kind} (h : getTranslation table key = .ok item) : item.key = key := by
  simp only [getTranslation, Except.bind_eq_ok] at h
  obtain ⟨found, -, h⟩ := h
  cases found with
  | none => cases h
  | some data =>
    cases h
    rfl

theorem getTranslation_insert_of_ne {table : TranslationTable ω kind} {key key' : kind.Key}
    (h : key' ≠ key) (column : TranslationColumn ω) :
    getTranslation (table.insert key column) key' = getTranslation table key' := by
  rw [getTranslation, getTranslationOptional, Finmap.lookup_insert_of_ne _ h]
  rfl

namespace Coherent

/-- An entry may be replaced by one that is right. -/
theorem set (h : s.Coherent) (cacheKey : String) {payload : Option (TranslationPayload ω)}
    (hitem : ∀ kind item, payload = some (.item kind item) →
      cacheKey = kind.cacheKey item.key ∧ getTranslation (s.tables kind) item.key = .ok item)
    (hitems : ∀ kind items, payload = some (.items kind items) →
      cacheKey = kind.listCacheKey ∧ listTranslations (s.tables kind) = .ok items) :
    Coherent { s with redis := Function.update s.redis cacheKey payload } := by
  constructor
  · intro cacheKey' kind item (he : Function.update s.redis cacheKey payload cacheKey' = _)
    by_cases hkey : cacheKey' = cacheKey
    · rw [hkey, Function.update_self] at he
      rw [hkey]
      exact hitem kind item he
    · rw [Function.update_of_ne hkey] at he
      exact h.item cacheKey' kind item he
  · intro cacheKey' kind items (he : Function.update s.redis cacheKey payload cacheKey' = _)
    by_cases hkey : cacheKey' = cacheKey
    · rw [hkey, Function.update_self] at he
      rw [hkey]
      exact hitems kind items he
    · rw [Function.update_of_ne hkey] at he
      exact h.items cacheKey' kind items he

theorem delete (h : s.Coherent) (cacheKey : String) :
    Coherent { s with redis := Function.update s.redis cacheKey none } :=
  h.set cacheKey nofun nofun

theorem setItem (h : s.Coherent) {key : kind.Key} {item : TranslationItem ω kind}
    (hitem : getTranslation (s.tables kind) key = .ok item) :
    Coherent { s with redis := s.redis.setItem key item } := by
  refine h.set (kind.cacheKey key) (fun kind' item' he => ?_) nofun
  cases he
  rw [getTranslation_key hitem]
  exact ⟨rfl, hitem⟩

theorem setList (h : s.Coherent) {items : List (TranslationItem ω kind)}
    (hitems : listTranslations (s.tables kind) = .ok items) :
    Coherent { s with redis := s.redis.setList items } := by
  refine h.set kind.listCacheKey nofun fun kind' items' he => ?_
  cases he
  exact ⟨rfl, hitems⟩

/-! ### Reads -/

/-- A read that misses has at most dropped an entry; one that hits gives the present item. -/
theorem getItem (h : s.Coherent) (key : kind.Key) :
    (∃ item, s.redis.getItem key = (some item, s.redis) ∧
      getTranslation (s.tables kind) key = .ok item) ∨
    ∃ redis, s.redis.getItem key = (none, redis) ∧ Coherent { s with redis } := by
  unfold TranslationRedis.getItem
  cases hpayload : s.redis (kind.cacheKey key) with
  | none => exact Or.inr ⟨s.redis, rfl, h⟩
  | some payload =>
    cases hnormalized : normalizeItem payload key with
    | none =>
      exact Or.inr ⟨Function.update s.redis (kind.cacheKey key) none, by simp only [hnormalized],
        h.delete _⟩
    | some item =>
      refine Or.inl ⟨item, by simp only [hnormalized], ?_⟩
      obtain ⟨rfl, rfl⟩ := normalizeItem_eq_some hnormalized
      exact (h.item _ _ _ hpayload).2

theorem getList (h : s.Coherent) (kind : TranslationKind) :
    (∃ items, s.redis.getList kind = (some items, s.redis) ∧
      listTranslations (s.tables kind) = .ok items) ∨
    ∃ redis, s.redis.getList kind = (none, redis) ∧ Coherent { s with redis } := by
  unfold TranslationRedis.getList
  cases hpayload : s.redis kind.listCacheKey with
  | none => exact Or.inr ⟨s.redis, rfl, h⟩
  | some payload =>
    cases hnormalized : (payload.items? kind).bind normalizeList with
    | none =>
      exact Or.inr ⟨Function.update s.redis kind.listCacheKey none, by simp only [hnormalized],
        h.delete _⟩
    | some items =>
      refine Or.inl ⟨items, by simp only [hnormalized], ?_⟩
      obtain ⟨stored, hstored, hitems⟩ := Option.bind_eq_some_iff.1 hnormalized
      obtain rfl := normalizeList_eq_some hitems
      obtain rfl := TranslationPayload.items?_eq_some.1 hstored
      exact (h.items _ _ _ hpayload).2

/-! ### Endpoints -/

theorem list (h : s.Coherent) (kind : TranslationKind) (actor : CurrentActor) :
    (s.list kind actor).1 = (s.tables.list kind actor).1 ∧
      (s.list kind actor).2.tables = s.tables ∧ (s.list kind actor).2.Coherent := by
  unfold I18nApp.list TranslationTables.list
  cases requirePermission kind.canRead actor with
  | error e => exact ⟨rfl, rfl, h⟩
  | ok actor' =>
    rcases h.getList kind with ⟨items, hget, hitems⟩ | ⟨redis, hget, hredis⟩
    · rw [hget, hitems]
      exact ⟨rfl, rfl, h⟩
    · cases hitems : listTranslations (s.tables kind) with
      | error e =>
        rw [hget]
        exact ⟨rfl, rfl, hredis⟩
      | ok items =>
        rw [hget]
        exact ⟨rfl, rfl, hredis.setList hitems⟩

theorem get (h : s.Coherent) (kind : TranslationKind) (key : kind.Key) (actor : CurrentActor) :
    (s.get kind key actor).1 = (s.tables.get kind key actor).1 ∧
      (s.get kind key actor).2.tables = s.tables ∧ (s.get kind key actor).2.Coherent := by
  unfold I18nApp.get TranslationTables.get
  cases requirePermission kind.canRead actor with
  | error e => exact ⟨rfl, rfl, h⟩
  | ok actor' =>
    rcases h.getItem key with ⟨item, hget, hitem⟩ | ⟨redis, hget, hredis⟩
    · rw [hget, hitem]
      exact ⟨rfl, rfl, h⟩
    · cases hitem : getTranslation (s.tables kind) key with
      | error e =>
        rw [hget]
        exact ⟨rfl, rfl, hredis⟩
      | ok item =>
        rw [hget]
        exact ⟨rfl, rfl, hredis.setItem hitem⟩

/-- A row may change when its item and the list of its kind are dropped. -/
theorem insert (h : s.Coherent) (key : kind.Key) (column : TranslationColumn ω) :
    Coherent ⟨Function.update s.tables kind ((s.tables kind).insert key column),
      s.redis.invalidateEntryAndList key⟩ := by
  have hold : ∀ cacheKey payload, s.redis.invalidateEntryAndList key cacheKey = some payload →
      s.redis cacheKey = some payload ∧ cacheKey ≠ kind.cacheKey key ∧
        cacheKey ≠ kind.listCacheKey := by
    intro cacheKey payload he
    unfold TranslationRedis.invalidateEntryAndList at he
    by_cases hlist : cacheKey = kind.listCacheKey
    · rw [hlist, Function.update_self] at he
      cases he
    · rw [Function.update_of_ne hlist] at he
      by_cases hentry : cacheKey = kind.cacheKey key
      · rw [hentry, Function.update_self] at he
        cases he
      · rw [Function.update_of_ne hentry] at he
        exact ⟨he, hentry, hlist⟩
  refine ⟨fun cacheKey kind' item he => ?_, fun cacheKey kind' items he => ?_⟩
  · obtain ⟨he, hentry, -⟩ := hold cacheKey _ he
    obtain ⟨rfl, hitem⟩ := h.item cacheKey kind' item he
    refine ⟨rfl, ?_⟩
    by_cases hkind : kind' = kind
    · subst hkind
      have hkey : item.key ≠ key := fun heq => hentry (by rw [heq])
      show getTranslation (Function.update s.tables kind' _ kind') item.key = _
      rw [Function.update_self, getTranslation_insert_of_ne hkey, hitem]
    · show getTranslation (Function.update s.tables kind _ kind') item.key = _
      rw [Function.update_of_ne hkind, hitem]
  · obtain ⟨he, -, hlist⟩ := hold cacheKey _ he
    obtain ⟨rfl, hitems⟩ := h.items cacheKey kind' items he
    refine ⟨rfl, ?_⟩
    have hkind : kind' ≠ kind := fun heq => hlist (by rw [heq])
    show listTranslations (Function.update s.tables kind _ kind') = _
    rw [Function.update_of_ne hkind, hitems]

theorem upsert (h : s.Coherent) (actor : CurrentActor) (payload : TranslationSchema ω kind) :
    (s.upsert actor payload).1 = (s.tables.upsert actor payload).1 ∧
      (s.upsert actor payload).2.tables = (s.tables.upsert actor payload).2 ∧
        (s.upsert actor payload).2.Coherent := by
  unfold I18nApp.upsert TranslationTables.upsert
  cases hupsert : upsertTranslation (s.tables kind) actor payload with
  | error e => exact ⟨rfl, rfl, h⟩
  | ok result =>
    refine ⟨rfl, rfl, ?_⟩
    simp only [upsertTranslation, Except.bind_eq_ok, Except.pure_eq_ok] at hupsert
    obtain ⟨existingItem, -, _, -, rfl⟩ := hupsert
    exact h.insert payload.val.key _

end Coherent

/-- A request cannot tell the cache from the tables. -/
theorem Coherent.serve (h : s.Coherent) (r : I18nRequest ω) :
    (s.serve r).1 = (s.tables.serve r).1 ∧ (s.serve r).2.tables = (s.tables.serve r).2 ∧
      (s.serve r).2.Coherent := by
  cases r with
  | listSmall actor => exact h.list .small actor
  | getSmall key actor => exact h.get .small key actor
  | upsertSmall actor payload => exact h.upsert actor payload
  | listLarge actor => exact h.list .large actor
  | getLarge key1 key2 actor => exact h.get .large (toLex (key1, key2)) actor
  | upsertLarge actor payload => exact h.upsert actor payload

/-- With requests handled one at a time and entries expiring at any time, every response of every
run is the one the endpoints give without a cache, whatever rows the tables hold at first. -/
theorem i18n_transparent (tables : TranslationTables ω) (events : List (I18nEvent ω)) :
    Transition.outputs handle ⟨tables, fun _ => none⟩ events =
      Transition.outputs TranslationTables.handle tables events := by
  refine Transition.outputs_eq_of_simulation (R := fun s tables => s.Coherent ∧ s.tables = tables)
    (C := fun _ _ => True) ?_ (Transition.along_true _ _) ⟨coherent_empty tables, rfl⟩
  rintro s tables e ⟨hs, rfl⟩ -
  cases e with
  | expire cacheKey => exact ⟨rfl, hs.delete cacheKey, rfl⟩
  | request r =>
    obtain ⟨hresponse, htables, hcoherent⟩ := hs.serve r
    exact ⟨congrArg some hresponse, hcoherent, htables⟩

end I18nApp

end AranesLms
