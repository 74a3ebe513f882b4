import AranesLms.Api

/-!
# The translation endpoints as programs

The endpoints of `src/i18n/endpoints/` step by step.  A request has been validated; the `PUT`
endpoints check the permission themselves, once they know whether the key is there.
-/

namespace AranesLms

variable {kind : TranslationKind}

namespace ApiProgram

/-- The common body of `list_small` and `list_large`. -/
def listTranslations (kind : TranslationKind) : ApiProgram :=
  cached kind.listCacheKey (Payload.normalizeTranslationList kind)
    (fun db => .ok ((db.translations kind).map fun (key, m) => serializeTranslationMap key m))
    (fun items => .translation (.items kind items)) fun items => .i18n (.items kind items)

/-- The common body of `get_small` and `get_large`. -/
def getTranslation (kind : TranslationKind) (key : kind.Key) : ApiProgram :=
  cached (kind.cacheKey key) (Payload.normalizeTranslation key)
    (fun db =>
      match db.translation? kind key with
      | some m => .ok (serializeTranslationMap key m)
      | none => .error ⟨404, kind.notFound⟩)
    (fun item => .translation (.item kind item)) fun item => .i18n (.item kind item)

/-- The permission that a `PUT` requires, given what it has found under the key. -/
def upsertPermission (kind : TranslationKind) (existingItem : Option TranslationMap) : String :=
  if existingItem.isNone then kind.canCreate else kind.canPatch

/-- The common body of `upsert_small` and `upsert_large`. -/
def upsertTranslation (kind : TranslationKind) (token : TokenPayload) (key : kind.Key)
    (data : TranslationMap) : ApiProgram :=
  query (fun db => getCurrentActor db token) fun actor =>
    .read fun db =>
      let existingItem := db.translation? kind key
      match requirePermission (upsertPermission kind existingItem) actor with
      | .error e => .done (.error e)
      | .ok _ =>
        let merged := mergeTranslationPatch existingItem data
        submit (fun db => db.writeTranslation kind key existingItem merged)
          (Program.commands (.done (.ok (.i18n (.item kind (serializeTranslationMap key merged)))))
            [.delete [kind.cacheKey key, kind.listCacheKey]])

def listSmall : ApiProgram := listTranslations .small

def getSmall (key : String) : ApiProgram := getTranslation .small key

def upsertSmall (token : TokenPayload) (key : String) (data : TranslationMap) : ApiProgram :=
  upsertTranslation .small token key data

def listLarge : ApiProgram := listTranslations .large

def getLarge (key1 key2 : String) : ApiProgram := getTranslation .large (toLex (key1, key2))

def upsertLarge (token : TokenPayload) (key1 key2 : String) (data : TranslationMap) : ApiProgram :=
  upsertTranslation .large token (toLex (key1, key2)) data

end ApiProgram

/-! ## What a write changes -/

/-- A commit that has written the map of one key. -/
structure TranslationWritten (kind : TranslationKind) (key : kind.Key) (m : TranslationMap)
    (db db' : Database) : Prop where
  roles : db'.roles = db.roles
  users : db'.users = db.users
  self : db'.translation? kind key = some m
  others : ∀ key', key' ≠ key → db'.translation? kind key' = db.translation? kind key'
  otherKind : ∀ kind', kind' ≠ kind →
    db'.translation? kind' = db.translation? kind' ∧ db'.translations kind' = db.translations kind'

theorem translationWritten_small (db : Database) (key : String) (m : TranslationMap) :
    TranslationWritten .small key m db
      { db with translateSmall := db.translateSmall.insert key m } where
  roles := rfl
  users := rfl
  self := Finmap.lookup_insert _
  others := fun _ h => Finmap.lookup_insert_of_ne _ h
  otherKind := fun kind' h => by
    cases kind' with
    | small => exact absurd rfl h
    | large => exact ⟨rfl, rfl⟩

theorem translationWritten_large (db : Database) (key1 key2 : String) (m : TranslationMap) :
    TranslationWritten .large (toLex (key1, key2)) m db
      { db with translateLarge := db.translateLarge.insert (key1, key2) m } where
  roles := rfl
  users := rfl
  self := Finmap.lookup_insert _
  others := fun _ h => Finmap.lookup_insert_of_ne _ fun heq => h (congrArg toLex heq)
  otherKind := fun kind' h => by
    cases kind' with
    | small => exact ⟨rfl, rfl⟩
    | large => exact absurd rfl h

/-- The commit of a `PUT` creates the key, leaves everything alone because the map is the one that
was loaded, or writes the map. -/
theorem writeTranslation_ok {db db' : Database} {key : kind.Key}
    {existingItem : Option TranslationMap} {m : TranslationMap}
    (h : db.writeTranslation kind key existingItem m = .ok db') :
    (existingItem = some m ∧ db' = db) ∨
      TranslationWritten kind key m db db' ∧
        (existingItem = none → db.translation? kind key = none) := by
  cases kind with
  | small =>
    change writeSmall db key existingItem m = .ok db' at h
    unfold writeSmall at h
    cases existingItem with
    | none =>
      dsimp only at h
      split_ifs at h with hmem
      cases h
      exact Or.inr ⟨translationWritten_small db key m, fun _ => Finmap.lookup_eq_none.2 hmem⟩
    | some old =>
      dsimp only at h
      split_ifs at h with hm
      · cases h
        exact Or.inl ⟨congrArg some hm, rfl⟩
      · cases h
        exact Or.inr ⟨translationWritten_small db key m, nofun⟩
  | large =>
    obtain ⟨key1, key2⟩ := key
    change writeLarge db key1 key2 existingItem m = .ok db' at h
    unfold writeLarge at h
    cases existingItem with
    | none =>
      dsimp only at h
      split_ifs at h with hmem
      cases h
      exact Or.inr ⟨translationWritten_large db key1 key2 m, fun _ => Finmap.lookup_eq_none.2 hmem⟩
    | some old =>
      dsimp only at h
      split_ifs at h with hm
      · cases h
        exact Or.inl ⟨congrArg some hm, rfl⟩
      · cases h
        exact Or.inr ⟨translationWritten_large db key1 key2 m, nofun⟩

theorem changed_of_translation {db db' : Database} {b : Payload} {key : kind.Key}
    {m : TranslationMap} (h : TranslationWritten kind key m db db') (hb : b.Current db)
    (hb' : ¬ b.Current db') :
    b.cacheKey = kind.cacheKey key ∨ b.cacheKey = kind.listCacheKey := by
  cases b with
  | role item =>
    refine absurd ?_ hb'
    rw [Payload.Current, h.roles]
    exact hb
  | roleList items =>
    refine absurd ?_ hb'
    rw [Payload.Current, listRoles, h.roles]
    exact hb
  | user item =>
    refine absurd ?_ hb'
    rw [Payload.Current, h.users]
    exact hb
  | userList items =>
    refine absurd ?_ hb'
    rw [Payload.Current, listUsers, h.users]
    exact hb
  | translation payload =>
    cases payload with
    | item kind' item =>
      by_cases hkind : kind' = kind
      · subst hkind
        by_cases hkey : item.key = key
        · exact Or.inl (congrArg kind'.cacheKey hkey)
        · refine absurd ?_ hb'
          rw [Payload.Current, h.others item.key hkey]
          exact hb
      · refine absurd ?_ hb'
        rw [Payload.Current, (h.otherKind kind' hkind).1]
        exact hb
    | items kind' items =>
      by_cases hkind : kind' = kind
      · subst hkind
        exact Or.inr rfl
      · refine absurd ?_ hb'
        rw [Payload.Current, (h.otherKind kind' hkind).2]
        exact hb

end AranesLms
