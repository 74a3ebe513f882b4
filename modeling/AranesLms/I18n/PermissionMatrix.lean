import AranesLms.I18n.Programs
import AranesLms.UserRole.Requests

/-!
# Who may create and who may patch a translation

A `PUT` chooses the permission it requires by looking the key up, and commits later.  Another
request can create the key in between, but then the insert violates the primary key; and a key that
has been found stays.  So in every interleaving each request does what its actor is permitted to do
(`matrix_along`).  Each request is specified by what it relies on (`Persists`) and what it
guarantees (`UpsertRequest.Guarantee`).
-/

namespace AranesLms

open ApiProgram (upsertPermission)

/-! ## Actors -/

/-- The actor behind the token has the permission. -/
def Permitted (db : Database) (token : TokenPayload) (permissionKey : String) : Prop :=
  ∃ actor, getCurrentActor db token = .ok actor ∧ actor.effectivePermissions.allows permissionKey

/-- The same roles and the same users. -/
structure SameAccounts (db db' : Database) : Prop where
  roles : db'.roles = db.roles
  users : db'.users = db.users

theorem SameAccounts.refl (db : Database) : SameAccounts db db := ⟨rfl, rfl⟩

theorem SameAccounts.trans {db db' db'' : Database} (h : SameAccounts db db')
    (h' : SameAccounts db' db'') : SameAccounts db db'' :=
  ⟨h'.roles.trans h.roles, h'.users.trans h.users⟩

/-- A token resolves to an actor by the roles and the users only. -/
theorem SameAccounts.getCurrentActor {db db' : Database} (h : SameAccounts db db')
    (token : TokenPayload) : getCurrentActor db' token = getCurrentActor db token := by
  simp only [AranesLms.getCurrentActor, findTokenAccount, findTokenUser, joinRole, Database.user?,
    Database.role?, h.roles, h.users]

/-! ## Rely and guarantee -/

section Guarantees

variable {kind : TranslationKind}

/-- Accounts stay as they are and no key is deleted. -/
structure Persists (db db' : Database) : Prop where
  accounts : SameAccounts db db'
  keys : ∀ kind key, db.translation? kind key ≠ none → db'.translation? kind key ≠ none

theorem Persists.refl (db : Database) : Persists db db := ⟨.refl db, fun _ _ h => h⟩

theorem Persists.trans {db db' db'' : Database} (h : Persists db db') (h' : Persists db' db'') :
    Persists db db'' :=
  ⟨h.accounts.trans h'.accounts, fun kind key hkey => h'.keys kind key (h.keys kind key hkey)⟩

theorem TranslationWritten.persists {key : kind.Key} {m : TranslationMap} {db db' : Database}
    (h : TranslationWritten kind key m db db') : Persists db db' := by
  refine ⟨⟨h.roles, h.users⟩, fun kind' key' hkey => ?_⟩
  by_cases hkind : kind' = kind
  · subst hkind
    by_cases hk : key' = key
    · rw [hk, h.self]
      exact nofun
    · rwa [h.others key' hk]
  · rwa [(h.otherKind kind' hkind).1]

/-- The matrix: without the permission to create no key comes into existence, without the
permission to patch no data changes, and without both nothing changes. -/
structure Respects (canCreate canPatch : Prop) (db db' : Database) : Prop where
  create : ¬ canCreate → ∀ kind key, db.translation? kind key = none →
    db'.translation? kind key = none
  patch : ¬ canPatch → ∀ kind key m, db.translation? kind key = some m →
    db'.translation? kind key = some m
  neither : ¬ canCreate → ¬ canPatch → db' = db

theorem Respects.refl (canCreate canPatch : Prop) (db : Database) :
    Respects canCreate canPatch db db :=
  ⟨fun _ _ _ h => h, fun _ _ _ _ h => h, fun _ _ => rfl⟩

/-- A key is created by one who may create, and written by one who may patch if it was there. -/
theorem TranslationWritten.respects {key : kind.Key} {m : TranslationMap} {db db' : Database}
    (h : TranslationWritten kind key m db db') {canCreate canPatch : Prop}
    (hcreate : db.translation? kind key = none → canCreate)
    (hpatch : db.translation? kind key ≠ none → canPatch) : Respects canCreate canPatch db db' := by
  -- the data of all other keys stays
  have hframe : ∀ kind' key', (∀ hkind : kind' = kind, hkind ▸ key' ≠ key) →
      db'.translation? kind' key' = db.translation? kind' key' := by
    intro kind' key' hne
    by_cases hkind : kind' = kind
    · subst hkind
      exact h.others key' (hne rfl)
    · rw [(h.otherKind kind' hkind).1]
  refine ⟨fun hno kind' key' hnone => ?_, fun hno kind' key' m' hsome => ?_, fun hno hno' => ?_⟩
  · rw [hframe kind' key', hnone]
    rintro rfl rfl
    exact hno (hcreate hnone)
  · rw [hframe kind' key', hsome]
    rintro rfl rfl
    exact hno (hpatch (by simp [hsome]))
  · by_cases hnone : db.translation? kind key = none
    · exact absurd (hcreate hnone) hno
    · exact absurd (hpatch hnone) hno'

/-- What a `PUT` with the token does in one step, the accounts being those of `db`. -/
def UpsertGuarantee (db : Database) (kind : TranslationKind) (token : TokenPayload)
    (d d' : Database) : Prop :=
  Persists d d' ∧
    Respects (Permitted db token kind.canCreate) (Permitted db token kind.canPatch) d d'

/-- The permission is checked against what the look-up has found.  A key that was missing then is
missing at the commit, or the insert fails; a key that was there is still there. -/
theorem guarantees_upsertTranslation {db d : Database} (hd : SameAccounts db d)
    (token : TokenPayload) (key : kind.Key) (data : TranslationMap) :
    (ApiProgram.upsertTranslation kind token key data).Guarantees Persists
      (UpsertGuarantee db kind token) d := by
  intro d₁ h₁
  dsimp only
  rw [(hd.trans h₁.accounts).getCurrentActor token]
  cases hactor : getCurrentActor db token with
  | error e => trivial
  | ok actor =>
    intro d₂ h₂
    dsimp only
    cases hrequire :
        requirePermission (upsertPermission kind (d₂.translation? kind key)) actor with
    | error e => trivial
    | ok _ =>
      have hpermitted : Permitted db token (upsertPermission kind (d₂.translation? kind key)) :=
        ⟨actor, hactor, (requirePermission_ok.1 hrequire).1⟩
      intro d₃ h₃
      refine ⟨fun d₄ hwrite => ⟨?_, trivial⟩, fun e _ => trivial⟩
      rcases writeTranslation_ok hwrite with ⟨-, rfl⟩ | ⟨hwritten, hmissing⟩
      · exact ⟨.refl d₄, .refl _ _ d₄⟩
      · refine ⟨hwritten.persists, hwritten.respects (fun hnone => ?_) fun hsome => ?_⟩
        · have hnone₂ : d₂.translation? kind key = none := by
            by_contra hne
            exact h₃.keys kind key hne hnone
          rwa [upsertPermission, hnone₂] at hpermitted
        · have hsome₂ : d₂.translation? kind key ≠ none := fun hnone => hsome (hmissing hnone)
          obtain ⟨m, hm⟩ := Option.ne_none_iff_exists'.1 hsome₂
          rwa [upsertPermission, hm] at hpermitted

end Guarantees

/-! ## Runs -/

inductive UpsertRequest where
  | small (token : TokenPayload) (key : String) (data : TranslationMap)
  | large (token : TokenPayload) (key1 key2 : String) (data : TranslationMap)

namespace UpsertRequest

def kind : UpsertRequest → TranslationKind
  | small .. => .small
  | large .. => .large

def token : UpsertRequest → TokenPayload
  | small token _ _ => token
  | large token _ _ _ => token

def program : UpsertRequest → ApiProgram
  | small token key data => ApiProgram.upsertSmall token key data
  | large token key1 key2 data => ApiProgram.upsertLarge token key1 key2 data

theorem guarantees {db d : Database} (hd : SameAccounts db d) (r : UpsertRequest) :
    r.program.Guarantees Persists (UpsertGuarantee db r.kind r.token) d := by
  cases r with
  | small token key data => exact @guarantees_upsertTranslation .small _ _ hd token key data
  | large token key1 key2 data =>
    exact @guarantees_upsertTranslation .large _ _ hd token (toLex (key1, key2)) data

abbrev State := System UpsertRequest Database String Payload CrudError (Except HttpException Reply)

abbrev Event := SystemEvent UpsertRequest String

def step : State → Event → State := System.step program

/-- The step of a request respects the matrix for its actor, and every other step leaves the
database alone. -/
def MatrixStep (db : Database) (s : State) (e : Event) : Prop :=
  (step s e).db = s.db ∨ ∃ c r p, e = .resume c ∧ s.calls c = some (r, p) ∧
    Respects (Permitted db r.token r.kind.canCreate) (Permitted db r.token r.kind.canPatch) s.db
      (step s e).db

/-- In every interleaving of `PUT` requests every step respects the matrix. -/
theorem matrix_along (db : Database) (events : List Event) :
    Transition.Along step (MatrixStep db) (System.init db) events := by
  have hguarantee : ∀ (r : UpsertRequest) d d', UpsertGuarantee db r.kind r.token d d' →
      Persists d d' := fun _ _ _ h => h.1
  refine Transition.Along.of_invariant (J := fun s => System.Guaranteed Persists
      (fun r : UpsertRequest => UpsertGuarantee db r.kind r.token) s ∧ SameAccounts db s.db)
    (fun s e hs => ?_) (fun s e hs => ?_) ⟨System.guaranteed_init db, .refl db⟩ events
  · exact hs.1.step Persists.refl (fun _ _ _ => Persists.trans) hguarantee
      (fun _ _ h hd => hd.trans h.accounts) (fun r _ hd => r.guarantees hd) hs.2 e
  · cases e with
    | start c r =>
      left
      rw [step, System.step]
      cases s.calls c <;> rfl
    | expire k => exact Or.inl rfl
    | resume c =>
      rw [MatrixStep, step, System.step]
      cases hcall : s.calls c with
      | none => exact Or.inl rfl
      | some call =>
        obtain ⟨r, p⟩ := call
        obtain ⟨-, hdb⟩ := hs.1.resume Persists.refl (fun _ _ _ => Persists.trans) hguarantee hcall
        refine hdb.imp_right fun hdb => ?_
        exact ⟨c, r, p, rfl, hcall, hdb.2⟩

end UpsertRequest

end AranesLms
