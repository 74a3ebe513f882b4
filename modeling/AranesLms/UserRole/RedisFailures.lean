import AranesLms.UserRole.CacheTransparency
import AranesLms.UserRole.Writes

/-!
# Redis commands that fail

Requests are handled one at a time, and any command they send to Redis may fail, which the cache
service swallows.  A write drops or refreshes the item it has changed with a single command.  When
this command fails and the item is cached, the old row is served until the entry expires, also after
Redis answers again.  `always_answersCurrent_iff` says that this is the only way in which a `GET` of
a role or of a user gets anything but the present row.
-/

namespace AranesLms

open ApiProgram (refreshRole dropRole dropRoles refreshUser dropUser dropUsers)

/-! ## Items -/

/-- The payload is that of one role or of one user. -/
def Payload.IsItem : Payload → Prop
  | .role _ | .user _ => True
  | _ => False

theorem append_toString_ne_list (pre : String) (n : ℕ) : pre ++ toString n ≠ pre ++ "list" := by
  intro h
  have hlist : n.repr = "list" := (String.append_right_inj pre).1 h
  have hmem : 'l' ∈ Nat.toDigits 10 n := by
    rw [← Nat.toList_repr, hlist]
    decide
  exact absurd (Nat.isDigit_of_mem_toDigits (by decide) (by decide) hmem) (by decide)

/-- No item is stored under the key of a list. -/
theorem Payload.IsItem.cacheKey_ne {b : Payload} (h : b.IsItem) :
    b.cacheKey ≠ roleListCacheKey ∧ b.cacheKey ≠ userListCacheKey := by
  have htake : ∀ (pre suf : String), (pre ++ suf).toList.take pre.toList.length = pre.toList := by
    intro pre suf
    rw [String.toList_append, List.take_left]
  cases b with
  | role item =>
    refine ⟨append_toString_ne_list "rbac:role:" item.id, fun heq => ?_⟩
    have hpre := htake "rbac:role:" (toString item.id)
    rw [show "rbac:role:" ++ toString item.id = userListCacheKey from heq] at hpre
    exact absurd hpre (by decide)
  | user item =>
    refine ⟨fun heq => ?_, append_toString_ne_list "rbac:user:" item.id⟩
    have hpre := htake "rbac:user:" (toString item.id)
    rw [show "rbac:user:" ++ toString item.id = roleListCacheKey from heq] at hpre
    exact absurd hpre (by decide)
  | _ => cases h

theorem Payload.normalizeRole_eq_some {roleId : ℕ} {p : Payload} {item : RoleResponse}
    (h : p.normalizeRole roleId = some item) : p = .role item ∧ item.id = roleId := by
  unfold normalizeRole at h
  split at h
  · split_ifs at h with hid
    cases h
    exact ⟨rfl, hid⟩
  · cases h

theorem Payload.normalizeUser_eq_some {userId : ℕ} {p : Payload} {item : UserResponse}
    (h : p.normalizeUser userId = some item) : p = .user item ∧ item.id = userId := by
  unfold normalizeUser at h
  split at h
  · split_ifs at h with hid
    cases h
    exact ⟨rfl, hid⟩
  · cases h

/-! ## Reads -/

section Cached

variable {α : Type} {cacheKey : String} {normalize : Payload → Option α}
variable {load : Database → Except HttpException α} {payload : α → Payload} {reply : α → Reply}
variable {s : ApiStore} {fails : ℕ → Bool}

/-- The answer comes from the database, and the entries that are left were there or have been
stored. -/
structure Loaded (s : ApiStore) (load : Database → Except HttpException α) (payload : α → Payload)
    (reply : α → Reply) (r : Except HttpException Reply × ApiStore) : Prop where
  response : r.1 = reply <$> load s.db
  db : r.2.db = s.db
  entries : ∀ k b, r.2.cache k = some b →
    s.cache k = some b ∨ ∃ a, load s.db = .ok a ∧ b = payload a

theorem loaded_fill :
    Loaded s load payload reply ((ApiProgram.fill cacheKey load payload reply).run fails s) := by
  rw [ApiProgram.fill, ApiProgram.query, Program.run]
  cases hload : load s.db with
  | error e => exact ⟨by rw [hload]; rfl, rfl, fun _ _ hb => Or.inl hb⟩
  | ok a =>
    refine ⟨by rw [hload]; rfl, rfl, fun k b hb => ?_⟩
    replace hb : (Command.set cacheKey (payload a)).perform (fails 0) s.cache k = some b := hb
    rcases Command.perform_eq_some hb with ⟨hb, -⟩ | heq
    · exact Or.inl hb
    · cases heq
      exact Or.inr ⟨a, hload, rfl⟩

/-- A `GET` finds an entry that passes its check, or computes its answer from the database. -/
theorem run_cached :
    (∃ p a, s.cache cacheKey = some p ∧ normalize p = some a ∧
      (ApiProgram.cached cacheKey normalize load payload reply).run fails s = (.ok (reply a), s)) ∨
    Loaded s load payload reply
      ((ApiProgram.cached cacheKey normalize load payload reply).run fails s) := by
  rw [ApiProgram.cached, Program.run]
  cases hentry : (if fails 0 then none else s.cache cacheKey) with
  | none => exact Or.inr loaded_fill
  | some p =>
    have hp : s.cache cacheKey = some p := by
      split_ifs at hentry
      exact hentry
    cases ha : normalize p with
    | some a =>
      refine Or.inl ⟨p, a, hp, ha, ?_⟩
      simp only [ha]
      rfl
    | none =>
      right
      simp only [ha]
      obtain ⟨hresponse, hdb, hentries⟩ := @loaded_fill _ cacheKey load payload reply
        ⟨s.db, (Command.delete [cacheKey]).perform (fails 1) s.cache⟩ fun i => fails (i + 2)
      refine ⟨hresponse, hdb, fun k b hb => ?_⟩
      rcases hentries k b hb with hb | hset
      · replace hb : (Command.delete [cacheKey]).perform (fails 1) s.cache k = some b := hb
        rcases Command.perform_eq_some hb with ⟨hb, -⟩ | heq
        · exact Or.inl hb
        · cases heq
      · exact Or.inr hset

/-- When the entry that is found is what the database gives, so is the answer. -/
theorem run_cached_response
    (h : ∀ p a, s.cache cacheKey = some p → normalize p = some a → load s.db = .ok a) :
    ((ApiProgram.cached cacheKey normalize load payload reply).run fails s).1 =
      reply <$> load s.db := by
  rcases @run_cached _ cacheKey normalize load payload reply s fails with
    ⟨p, a, hp, ha, hrun⟩ | hloaded
  · rw [hrun, h p a hp ha]
    rfl
  · exact hloaded.response

theorem run_cached_hit {p : Payload} {a : α} (hentry : s.cache cacheKey = some p)
    (ha : normalize p = some a) (hget : fails 0 = false) :
    (ApiProgram.cached cacheKey normalize load payload reply).run fails s =
      (.ok (reply a), s) := by
  rw [ApiProgram.cached, Program.run, hget, hentry]
  simp only [ha, Bool.false_eq_true, if_false, Program.run]

end Cached

/-! ## What a write does for the items it changes -/

/-- Every command that sets an entry sets a current one, the command number `n` is about every item
that has changed, and the others are about the lists. -/
structure Written.Refreshes (db : Database) (n : ℕ) (w : Written) : Prop where
  sets : ∀ k b, .set k b ∈ w.commands → b.Current w.db
  covers : ∀ b : Payload, b.IsItem → b.Current db → ¬ b.Current w.db →
    ∃ c, w.commands[n]? = some c ∧ b.cacheKey ∈ c.keys
  others : ∀ i c, w.commands[i]? = some c → i ≠ n →
    c.keys = [roleListCacheKey] ∨ c.keys = [userListCacheKey]

section Refreshes

variable {db db' : Database} {response : Response} {listKey : String}

/-- The list is deleted and the item is set. -/
theorem refreshes_set {b : Payload}
    (hlist : listKey = roleListCacheKey ∨ listKey = userListCacheKey) (hb : b.Current db')
    (h : ∀ b' : Payload, b'.IsItem → b'.Current db → ¬ b'.Current db' → b'.cacheKey = b.cacheKey) :
    Written.Refreshes db 1 ⟨response, [.delete [listKey], .set b.cacheKey b], db'⟩ where
  sets := by
    intro k b' hset
    simp only [List.mem_cons, reduceCtorEq, Command.set.injEq, List.not_mem_nil, or_false,
      false_or] at hset
    obtain ⟨-, rfl⟩ := hset
    exact hb
  covers := fun b' hitem hb' hnot =>
    ⟨_, rfl, List.mem_singleton.2 (h b' hitem hb' hnot)⟩
  others := by
    intro i c hc hi
    match i with
    | 0 =>
      cases hc
      exact hlist.imp (congrArg fun k => [k]) (congrArg fun k => [k])
    | 1 => exact absurd rfl hi
    | i + 2 => cases hc

/-- The items are deleted by the first command. -/
theorem refreshes_delete {keys : List String} {cs : List ApiCommand}
    (hcs : cs = [] ∨ cs = [.delete [roleListCacheKey]] ∨ cs = [.delete [userListCacheKey]])
    (h : ∀ b : Payload, b.IsItem → b.Current db → ¬ b.Current db' → b.cacheKey ∈ keys) :
    Written.Refreshes db 0 ⟨response, .delete keys :: cs, db'⟩ where
  sets := by
    rcases hcs with rfl | rfl | rfl <;> simp
  covers := fun b hitem hb hnot => ⟨_, rfl, h b hitem hb hnot⟩
  others := by
    intro i c hc hi
    have hlists : ∀ c ∈ cs, c.keys = [roleListCacheKey] ∨ c.keys = [userListCacheKey] := by
      rcases hcs with rfl | rfl | rfl <;> simp [Command.keys]
    match i with
    | 0 => exact absurd rfl hi
    | i + 1 => exact hlists c (List.mem_of_getElem? hc)

theorem refreshes_refreshRole {roles : RoleTable} {role : Role} (hrole : role ∈ roles)
    (h : ∀ r ∈ db.roles, r.id ≠ role.id → r ∈ roles) :
    Written.Refreshes db 1 ⟨response, refreshRole role, { db with roles }⟩ := by
  refine refreshes_set (b := .role (serializeRole role)) (Or.inl rfl) ⟨role, hrole, rfl⟩
    fun b hitem hb hnot => ?_
  exact (changed_of_roles h hb hnot).resolve_right hitem.cacheKey_ne.1

theorem refreshes_refreshUser {users : UserTable} {user : User} (huser : user ∈ users)
    (h : ∀ u ∈ db.users, u.id ≠ user.id → u ∈ users) :
    Written.Refreshes db 1 ⟨response, refreshUser user, { db with users }⟩ := by
  refine refreshes_set (b := .user (serializeUser user)) (Or.inr rfl) ⟨user, huser, rfl⟩
    fun b hitem hb hnot => ?_
  exact (changed_of_users h hb hnot).resolve_right hitem.cacheKey_ne.2

theorem refreshes_dropRole {roles : RoleTable} {roleId : ℕ}
    (h : ∀ r ∈ db.roles, r.id ≠ roleId → r ∈ roles) :
    Written.Refreshes db 0 ⟨response, dropRole roleId, { db with roles }⟩ := by
  refine refreshes_delete (Or.inr (Or.inl rfl)) fun b hitem hb hnot => ?_
  exact List.mem_singleton.2 ((changed_of_roles h hb hnot).resolve_right hitem.cacheKey_ne.1)

theorem refreshes_dropUser {users : UserTable} {userId : ℕ}
    (h : ∀ u ∈ db.users, u.id ≠ userId → u ∈ users) :
    Written.Refreshes db 0 ⟨response, dropUser userId, { db with users }⟩ := by
  refine refreshes_delete (Or.inr (Or.inr rfl)) fun b hitem hb hnot => ?_
  exact List.mem_singleton.2 ((changed_of_users h hb hnot).resolve_right hitem.cacheKey_ne.2)

end Refreshes

/-- The number of the command that refreshes or drops the item that the write changes. -/
def RbacWrite.itemCommand : RbacWrite → ℕ
  | .createRole .. | .updateRole .. | .patchRolePermissions .. | .createUser .. | .updateUser ..
  | .patchUserPermissions .. => 1
  | .deleteRole .. | .resetRolePermissions | .registryRolesOnceIfNotExist .. | .setUserPassword ..
  | .deleteUser .. | .resetUserPermissions => 0

theorem RbacWrite.refreshes {w : RbacWrite} {nid : ℕ} {db : Database} {x : Written}
    (h : w.result nid db = .ok x) : x.Refreshes db w.itemCommand := by
  cases w with
  | createRole name titleKey =>
    simp only [result, Except.bind_eq_ok, crudResult_ok, Except.pure_eq_ok] at h
    obtain ⟨⟨role, _⟩, hrun, rfl⟩ := h
    obtain ⟨-, t, ht, rfl⟩ := createRole_ok.1 hrun
    exact refreshes_refreshRole ((Table.mem_insert ht).2 (Or.inr rfl))
      fun r hr _ => (Table.mem_insert ht).2 (Or.inl hr)
  | updateRole roleId name titleKey =>
    simp only [result, Except.bind_eq_ok, crudResult_ok, Except.pure_eq_ok] at h
    obtain ⟨⟨role, _⟩, hrun, rfl⟩ := h
    obtain ⟨old, hold, rfl, -, rfl, t, ht, rfl⟩ := updateRole_ok.1 hrun
    exact refreshes_refreshRole (Table.mem_modify_self ht hold)
      fun r => Table.mem_modify_of_ne ht
  | deleteRole roleId =>
    simp only [result, Except.bind_eq_ok, crudResult_ok, Except.pure_eq_ok] at h
    obtain ⟨_, hrun, rfl⟩ := h
    obtain ⟨-, -, rfl⟩ := deleteRole_ok hrun
    exact refreshes_dropRole fun r hr hid => Table.mem_erase.2 ⟨hr, hid⟩
  | patchRolePermissions roleId permissions =>
    simp only [result, Except.bind_eq_ok, crudResult_ok, Except.pure_eq_ok] at h
    obtain ⟨⟨role, _⟩, hrun, rfl⟩ := h
    obtain ⟨hread, hwrite⟩ := patchRolePermissions_ok hrun
    obtain ⟨patch, -, old, hold, rfl, -, rfl⟩ := readPatchRole_ok.1 hread
    obtain ⟨t, ht, rfl⟩ := writeRolePermissions_ok.1 hwrite
    exact refreshes_refreshRole (Table.mem_modify_self (r := old) ht hold)
      fun r => Table.mem_modify_of_ne ht
  | resetRolePermissions =>
    have hx : x = ⟨_, dropRoles _, (AranesLms.resetRolePermissions db).2⟩ := (Except.ok.inj h).symm
    rw [hx, resetRolePermissions_snd]
    refine refreshes_delete (Or.inl rfl) fun b hitem hb hnot => List.mem_append_left _ ?_
    cases b with
    | role item =>
      obtain ⟨role, hrole, rfl⟩ := hb
      apply List.mem_map_of_mem
      by_contra hid
      exact hnot ⟨role, mem_writeResetRoles.2 ⟨role, hrole, App.resetRole_of_notMem hrole hid⟩, rfl⟩
    | user item => exact absurd hb hnot
    | _ => cases hitem
  | registryRolesOnceIfNotExist name permissions =>
    simp only [result, Except.bind_eq_ok, crudResult_ok, Except.pure_eq_ok] at h
    obtain ⟨⟨role, _⟩, hrun, rfl⟩ := h
    obtain ⟨-, hwrite⟩ := createOrAppendRolePermissionsNoOverwrite_ok hrun
    obtain ⟨t, ht, rfl⟩ := writeRolePermissions_ok.1 hwrite
    exact refreshes_dropRole fun r => Table.mem_modify_of_ne ht
  | createUser username password roleId =>
    simp only [result, Except.bind_eq_ok, crudResult_ok, Except.pure_eq_ok] at h
    obtain ⟨⟨user, _⟩, hrun, rfl⟩ := h
    obtain ⟨-, -, t, ht, rfl⟩ := createUserAdmin_ok.1 hrun
    exact refreshes_refreshUser ((Table.mem_insert ht).2 (Or.inr rfl))
      fun u hu _ => (Table.mem_insert ht).2 (Or.inl hu)
  | updateUser userId username roleId =>
    simp only [result, Except.bind_eq_ok, crudResult_ok, Except.pure_eq_ok] at h
    obtain ⟨⟨user, _⟩, hrun, rfl⟩ := h
    obtain ⟨old, hold, rfl, -, rfl, t, ht, rfl⟩ := updateUserAdmin_ok hrun
    refine refreshes_refreshUser ((Table.mem_modify ht).2 (Or.inr ⟨old, hold, rfl, ?_⟩))
      fun u => Table.mem_modify_of_ne ht
    exact (UserChanges.apply_userChanges old username roleId).symm
  | setUserPassword userId password =>
    simp only [result, Except.bind_eq_ok, crudResult_ok, Except.pure_eq_ok] at h
    obtain ⟨⟨user, _⟩, hrun, rfl⟩ := h
    obtain ⟨old, -, -, -, t, ht, rfl⟩ := setUserPasswordAdmin_ok hrun
    refine refreshes_delete (Or.inl rfl) fun b hitem hb hnot => List.mem_singleton.2 ?_
    exact (changed_of_users (fun u => Table.mem_modify_of_ne ht) hb hnot).resolve_right
      hitem.cacheKey_ne.2
  | deleteUser actorId userId =>
    simp only [result, Except.throw_bind, Except.ite_throw_eq_ok, Except.bind_eq_ok, crudResult_ok,
      Except.pure_eq_ok] at h
    obtain ⟨-, _, hrun, rfl⟩ := h
    obtain ⟨-, rfl⟩ := deleteUserAdmin_ok hrun
    exact refreshes_dropUser fun u hu hid => Table.mem_erase.2 ⟨hu, hid⟩
  | patchUserPermissions userId permissions =>
    simp only [result, Except.bind_eq_ok, crudResult_ok, Except.pure_eq_ok] at h
    obtain ⟨⟨user, _⟩, hrun, rfl⟩ := h
    obtain ⟨hread, hwrite⟩ := patchUserPermissions_ok hrun
    obtain ⟨patch, -, old, hold, rfl, rfl⟩ := readPatchUser_ok.1 hread
    obtain ⟨t, ht, rfl⟩ := writeUserPermissions_ok.1 hwrite
    exact refreshes_refreshUser (Table.mem_modify_self (r := old) ht hold)
      fun u => Table.mem_modify_of_ne ht
  | resetUserPermissions =>
    have hx : x = ⟨_, dropUsers _, (AranesLms.resetUserPermissions db).2⟩ := (Except.ok.inj h).symm
    rw [hx, resetUserPermissions_snd]
    refine refreshes_delete (Or.inl rfl) fun b hitem hb hnot => List.mem_append_left _ ?_
    cases b with
    | role item => exact absurd hb hnot
    | user item =>
      obtain ⟨user, huser, rfl⟩ := hb
      exact List.mem_map_of_mem (List.mem_map_of_mem (Table.mem_sorted.2 huser))
    | _ => cases hitem

/-! ## Runs -/

/-- A request with the commands of it that fail, or the expiry of an entry. -/
inductive RbacEvent where
  | get (view : View) (fails : ℕ → Bool)
  | write (nid : ℕ) (w : RbacWrite) (fails : ℕ → Bool)
  | expire (cacheKey : String)

namespace RbacEvent

/-- The state after the event. -/
def step (s : ApiStore) : RbacEvent → ApiStore
  | get view fails => ((ApiProgram.get view).run fails s).2
  | write nid w fails => ((w.program nid).run fails s).2
  | expire cacheKey => { s with cache := Function.update s.cache cacheKey none }

/-- Every `GET` of a role or of a user, whichever of its commands fail, gets the present row. -/
structure AnswersCurrent (s : ApiStore) : Prop where
  role : ∀ roleId fails, ((ApiProgram.getRole roleId).run fails s).1 =
    Reply.rbac <$> (View.role roleId).serialize s.db
  user : ∀ userId fails, ((ApiProgram.getUser userId).run fails s).1 =
    Reply.rbac <$> (View.user userId).serialize s.db

/-- Condition on a step: a write that succeeds and changes a role or a user that is cached does not
have the command fail that refreshes or drops it. -/
def KeepsItems (s : ApiStore) : RbacEvent → Prop
  | write nid w fails => ∀ x, w.result nid s.db = .ok x → ∀ b : Payload, b.IsItem →
    s.cache b.cacheKey = some b → ¬ b.Current x.db → fails w.itemCommand = false
  | _ => True

/-- Every item in Redis is the serialisation of the present row. -/
def ItemsCurrent (s : ApiStore) : Prop :=
  ∀ b : Payload, b.IsItem → s.cache b.cacheKey = some b → b.Current s.db

variable {s : ApiStore}

theorem itemsCurrent_empty (db : Database) : ItemsCurrent ⟨db, fun _ => none⟩ := nofun

theorem answersCurrent_iff : AnswersCurrent s ↔ ItemsCurrent s := by
  constructor
  · intro h b hitem hb
    cases b with
    | role item =>
      have hrun : (ApiProgram.getRole item.id).run (fun _ => false) s =
          (.ok (.rbac (.role item)), s) :=
        run_cached_hit hb (if_pos rfl) rfl
      have hrole := h.role item.id fun _ => false
      rw [hrun, View.serialize] at hrole
      cases hfind : s.db.role? item.id with
      | none =>
        rw [hfind] at hrole
        cases hrole
      | some role =>
        rw [hfind] at hrole
        cases hrole
        exact ⟨role, (Table.find?_eq_some.1 hfind).1, rfl⟩
    | user item =>
      have hrun : (ApiProgram.getUser item.id).run (fun _ => false) s =
          (.ok (.rbac (.user item)), s) :=
        run_cached_hit hb (if_pos rfl) rfl
      have huser := h.user item.id fun _ => false
      rw [hrun, View.serialize] at huser
      cases hfind : s.db.user? item.id with
      | none =>
        rw [hfind] at huser
        cases huser
      | some user =>
        rw [hfind] at huser
        cases huser
        exact ⟨user, (Table.find?_eq_some.1 hfind).1, rfl⟩
    | _ => cases hitem
  · intro h
    constructor
    · intro roleId fails
      rw [ApiProgram.getRole, run_cached_response, getRoleById, View.serialize]
      · cases s.db.role? roleId <;> rfl
      · intro p item hp hitem
        obtain ⟨rfl, rfl⟩ := Payload.normalizeRole_eq_some hitem
        obtain ⟨role, hrole, rfl⟩ := h (.role item) trivial hp
        rw [serializeRole_id, getRoleById_ok.2 ⟨hrole, rfl⟩]
        rfl
    · intro userId fails
      rw [ApiProgram.getUser, run_cached_response, getUserById, View.serialize]
      · cases s.db.user? userId <;> rfl
      · intro p item hp hitem
        obtain ⟨rfl, rfl⟩ := Payload.normalizeUser_eq_some hitem
        obtain ⟨user, huser, rfl⟩ := h (.user item) trivial hp
        rw [serializeUser_id, getUserById_ok.2 ⟨huser, rfl⟩]
        rfl

/-- A `GET` stores nothing but present rows. -/
theorem ItemsCurrent.get (h : ItemsCurrent s) (view : View) (fails : ℕ → Bool) :
    ItemsCurrent (step s (.get view fails)) := by
  have hloaded : ∀ {α : Type} {load : Database → Except HttpException α} {payload : α → Payload}
      {reply : α → Reply} {r : Except HttpException Reply × ApiStore},
      (∀ a, load s.db = .ok a → (payload a).Current s.db) → Loaded s load payload reply r →
      ItemsCurrent r.2 := by
    intro α load payload reply r hload hr b hitem hb
    rw [hr.db]
    rcases hr.entries _ _ hb with hb | ⟨a, ha, rfl⟩
    · exact h b hitem hb
    · exact hload a ha
  have hcached : ∀ {α : Type} {cacheKey : String} {normalize : Payload → Option α}
      {load : Database → Except HttpException α} {payload : α → Payload} {reply : α → Reply},
      (∀ a, load s.db = .ok a → (payload a).Current s.db) →
      ItemsCurrent ((ApiProgram.cached cacheKey normalize load payload reply).run fails s).2 := by
    intro α cacheKey normalize load payload reply hload
    rcases run_cached with ⟨_, _, -, -, hrun⟩ | hr
    · rw [hrun]
      exact h
    · exact hloaded hload hr
  cases view with
  | roleList => exact hcached fun items hitems => (Except.ok.inj hitems).symm
  | role roleId =>
    refine hcached fun item hitem => ?_
    simp only [crudResult_ok, Except.map_eq_ok, getRoleById_ok] at hitem
    obtain ⟨role, ⟨hrole, -⟩, rfl⟩ := hitem
    exact ⟨role, hrole, rfl⟩
  | userList => exact hcached fun items hitems => (Except.ok.inj hitems).symm
  | user userId =>
    refine hcached fun item hitem => ?_
    simp only [crudResult_ok, Except.map_eq_ok, getUserById_ok] at hitem
    obtain ⟨user, ⟨huser, -⟩, rfl⟩ := hitem
    exact ⟨user, huser, rfl⟩

/-- An item that is left after a write was there before, and its command has failed, or it has been
set. -/
theorem ItemsCurrent.write (h : ItemsCurrent s) {nid : ℕ} {w : RbacWrite} {fails : ℕ → Bool} :
    ItemsCurrent (step s (.write nid w fails)) ↔ KeepsItems s (.write nid w fails) := by
  rw [step, RbacWrite.run_program]
  show ItemsCurrent _ ↔ ∀ x, w.result nid s.db = .ok x → _
  cases hresult : w.result nid s.db with
  | error e => exact iff_of_true h nofun
  | ok x =>
    obtain ⟨hsets, hcovers, hothers⟩ := RbacWrite.refreshes hresult
    constructor
    · intro h' x' hx' b hitem hb hnot
      cases hx'
      by_contra hfails
      rw [Bool.not_eq_false] at hfails
      refine hnot (h' b hitem ?_)
      rw [← hb]
      refine Command.performAll_eq fun i c hc hk => ?_
      by_cases hi : i = w.itemCommand
      · rw [hi, hfails]
      · have hkeys := hothers i c hc hi
        obtain ⟨hrole, huser⟩ := hitem.cacheKey_ne
        rcases hkeys with hkeys | hkeys <;> rw [hkeys, List.mem_singleton] at hk
        · exact absurd hk hrole
        · exact absurd hk huser
    · intro hcond b hitem hb
      rcases Command.performAll_eq_some hb with ⟨hb, hfails⟩ | hset
      · by_contra hnot
        obtain ⟨c, hc, hk⟩ := hcovers b hitem (h b hitem hb) hnot
        exact absurd (hcond x rfl b hitem hb hnot) (by simp [hfails _ c hc hk])
      · exact hsets _ b hset

/-- Throughout a run that starts with an empty cache, every `GET` of a role or of a user gets the
present row exactly when no write that changes a cached role or user has the command fail that
refreshes or drops it. -/
theorem always_answersCurrent_iff (db : Database) (events : List RbacEvent) :
    Transition.Always step AnswersCurrent ⟨db, fun _ => none⟩ events ↔
      Transition.Along step KeepsItems ⟨db, fun _ => none⟩ events := by
  refine Transition.always_iff_along (J := ItemsCurrent) (fun s => answersCurrent_iff.2)
    (fun s e hs he => ?_) (fun s e hs h => ?_) (itemsCurrent_empty db) events
  · cases e with
    | get view fails => exact hs.get view fails
    | write nid w fails => exact hs.write.2 he
    | expire cacheKey =>
      intro b hitem hb
      replace hb : Function.update s.cache cacheKey none b.cacheKey = some b := hb
      by_cases hkey : b.cacheKey = cacheKey
      · rw [hkey, Function.update_self] at hb
        cases hb
      · rw [Function.update_of_ne hkey] at hb
        exact hs b hitem hb
  · cases e with
    | get view fails => trivial
    | write nid w fails => exact hs.write.1 (answersCurrent_iff.1 h)
    | expire cacheKey => trivial

/-- The role Editor is cached, the item cannot be set after its title has been changed, and a `GET`
gets the old title. -/
theorem failed_set_not_current :
    ¬ Transition.Always step AnswersCurrent
      ⟨⟨⟨[⟨2, "Editor", "role.editor.title", some ∅⟩], by decide, by decide⟩, ∅, ∅, ∅⟩,
        fun _ => none⟩
      [.get (.role 2) fun _ => false,
        .write 0 (.updateRole 2 none (some "role.editor")) fun i => i = 1] := by
  intro h
  have hrole : (Except.ok (.rbac (.role ⟨2, "Editor", "role.editor.title", ∅⟩)) :
      Except HttpException Reply) = .ok (.rbac (.role ⟨2, "Editor", "role.editor", ∅⟩)) :=
    h.last.role 2 fun _ => false
  have hitem := Response.role.inj (Reply.rbac.inj (Except.ok.inj hrole))
  exact absurd (congrArg RoleResponse.titleKey hitem) (by decide)

end RbacEvent

end AranesLms
