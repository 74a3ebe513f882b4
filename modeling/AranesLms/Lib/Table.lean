import Mathlib.Data.List.Nodup
import Mathlib.Data.List.Sort
import Mathlib.Data.List.MinMax
import Mathlib.Tactic.Common

/-!
# Tables with a primary key and a unique column

`Table pk uk` is a list of rows in which the numeric primary key `pk` and the column `uk` are
unique.  A statement of the database computes the new list of rows and the database accepts it
or rejects the statement: `commit` is that decision, so a table that breaks a constraint cannot be
built.  `insert` and `modify` go through `commit`; `erase` and `mapRows` cannot break a
constraint.

Every operation comes with the description of its rows (`mem_insert`, `mem_modify`, …), and the
later developments use these and `eq_of_pk` only.
-/

variable {ρ κ : Type*}

/-- Rows with unique `pk` and unique `uk`. -/
structure Table (pk : ρ → ℕ) (uk : ρ → κ) where
  rows : List ρ
  pk_nodup : (rows.map pk).Nodup
  uk_nodup : (rows.map uk).Nodup

/-- The constraint a rejected statement violates. -/
inductive Violation where
  | primaryKey
  | unique
  | notNull
  deriving DecidableEq, Repr

namespace Table

variable {pk : ρ → ℕ} {uk : ρ → κ}

@[ext] theorem ext {t t' : Table pk uk} (h : t.rows = t'.rows) : t = t' := by
  cases t; cases t'; cases h; rfl

instance [DecidableEq ρ] : DecidableEq (Table pk uk) := fun t t' =>
  decidable_of_iff (t.rows = t'.rows) ⟨ext, fun h => h ▸ rfl⟩

instance : EmptyCollection (Table pk uk) := ⟨⟨[], List.nodup_nil, List.nodup_nil⟩⟩

instance : Membership ρ (Table pk uk) := ⟨fun t r => r ∈ t.rows⟩

theorem mem_def {t : Table pk uk} {r : ρ} : r ∈ t ↔ r ∈ t.rows := Iff.rfl

instance decidableBAll {t : Table pk uk} {p : ρ → Prop} [DecidablePred p] :
    Decidable (∀ r ∈ t, p r) := inferInstanceAs (Decidable (∀ r ∈ t.rows, p r))

instance decidableBEx {t : Table pk uk} {p : ρ → Prop} [DecidablePred p] :
    Decidable (∃ r ∈ t, p r) := inferInstanceAs (Decidable (∃ r ∈ t.rows, p r))

instance [DecidableEq ρ] {t : Table pk uk} {r : ρ} : Decidable (r ∈ t) :=
  inferInstanceAs (Decidable (r ∈ t.rows))

theorem eq_of_pk {t : Table pk uk} {r r' : ρ} (hr : r ∈ t) (hr' : r' ∈ t) (h : pk r = pk r') :
    r = r' := List.inj_on_of_nodup_map t.pk_nodup hr hr' h

theorem eq_of_uk {t : Table pk uk} {r r' : ρ} (hr : r ∈ t) (hr' : r' ∈ t) (h : uk r = uk r') :
    r = r' := List.inj_on_of_nodup_map t.uk_nodup hr hr' h

/-! ## Queries -/

/-- The row with primary key `i`. -/
def find? (t : Table pk uk) (i : ℕ) : Option ρ := t.rows.find? fun r => pk r = i

theorem find?_eq_some {t : Table pk uk} {i : ℕ} {r : ρ} :
    t.find? i = some r ↔ r ∈ t ∧ pk r = i := by
  constructor
  · intro h
    exact ⟨List.mem_of_find?_eq_some h, by simpa using List.find?_some h⟩
  · rintro ⟨hr, rfl⟩
    obtain ⟨r', h⟩ : ∃ r', t.find? (pk r) = some r' := by
      rw [← Option.isSome_iff_exists, find?, List.find?_isSome]
      exact ⟨r, hr, by simp⟩
    have hr' : r' ∈ t := List.mem_of_find?_eq_some h
    rw [h, eq_of_pk hr' hr (by simpa using List.find?_some h)]

theorem find?_eq_none {t : Table pk uk} {i : ℕ} : t.find? i = none ↔ ∀ r ∈ t, pk r ≠ i := by
  simp [find?, mem_def]

theorem find?_pk {t : Table pk uk} {r : ρ} (hr : r ∈ t) : t.find? (pk r) = some r :=
  find?_eq_some.2 ⟨hr, rfl⟩

section

variable [DecidableEq κ]

/-- The row with value `k` in the unique column. -/
def findBy? (t : Table pk uk) (k : κ) : Option ρ := t.rows.find? fun r => uk r = k

theorem findBy?_eq_some {t : Table pk uk} {k : κ} {r : ρ} :
    t.findBy? k = some r ↔ r ∈ t ∧ uk r = k := by
  constructor
  · intro h
    exact ⟨List.mem_of_find?_eq_some h, by simpa using List.find?_some h⟩
  · rintro ⟨hr, rfl⟩
    obtain ⟨r', h⟩ : ∃ r', t.findBy? (uk r) = some r' := by
      rw [← Option.isSome_iff_exists, findBy?, List.find?_isSome]
      exact ⟨r, hr, by simp⟩
    have hr' : r' ∈ t := List.mem_of_find?_eq_some h
    rw [h, eq_of_uk hr' hr (by simpa using List.find?_some h)]

end

/-- The rows ordered by primary key. -/
def sorted (t : Table pk uk) : List ρ := t.rows.insertionSort fun r r' => pk r ≤ pk r'

@[simp] theorem mem_sorted {t : Table pk uk} {r : ρ} : r ∈ t.sorted ↔ r ∈ t :=
  List.mem_insertionSort _

theorem length_sorted (t : Table pk uk) : t.sorted.length = t.rows.length :=
  List.length_insertionSort _ _

theorem pairwise_sorted (t : Table pk uk) : (t.sorted.map pk).Pairwise (· < ·) := by
  have hsorted : (t.sorted.map pk).Pairwise (· ≤ ·) :=
    List.pairwise_map.2 (List.pairwise_insertionSort (fun r r' => pk r ≤ pk r') t.rows)
  have hnodup : (t.sorted.map pk).Nodup :=
    ((List.perm_insertionSort (fun r r' => pk r ≤ pk r') t.rows).map pk).nodup_iff.2 t.pk_nodup
  exact (hsorted.and hnodup).imp fun h => lt_of_le_of_ne h.1 h.2

/-- The sorted rows under a map that keeps the key depend on the rows under that map only. -/
theorem sorted_map_congr {β : Type*} {f : ρ → β} {idOf : β → ℕ} (hf : ∀ r, idOf (f r) = pk r)
    {t t' : Table pk uk} (h : t'.rows.map f = t.rows.map f) : t'.sorted.map f = t.sorted.map f := by
  have hsorted : ∀ t : Table pk uk, t.sorted.map f =
      (t.rows.map f).insertionSort fun b b' => idOf b ≤ idOf b' := by
    intro t
    apply List.map_insertionSort
    intro r _ r' _
    rw [hf, hf]
  rw [hsorted, hsorted, h]

/-- `max + 1`, the key an integer primary key column gives to the next row. -/
def nextId (t : Table pk uk) : ℕ := (t.rows.map pk).foldr max 0 + 1

theorem pk_lt_nextId {t : Table pk uk} {r : ρ} (hr : r ∈ t) : pk r < t.nextId := by
  have key : ∀ l : List ℕ, ∀ n ∈ l, n ≤ l.foldr max 0 := by
    intro l n hn
    induction l with
    | nil => cases hn
    | cons m l ih =>
      rcases List.mem_cons.1 hn with rfl | hn
      · exact le_max_left _ _
      · exact le_trans (ih hn) (le_max_right _ _)
  exact Nat.lt_succ_of_le (key _ _ (List.mem_map_of_mem hr))

theorem nextId_pos (t : Table pk uk) : 0 < t.nextId := Nat.succ_pos _

/-! ## Statements -/

section

variable [DecidableEq κ]

/-- The database accepts `rows` exactly when they satisfy both constraints. -/
def commit (pk : ρ → ℕ) (uk : ρ → κ) (rows : List ρ) : Except Violation (Table pk uk) :=
  if hu : (rows.map uk).Nodup then
    if hp : (rows.map pk).Nodup then .ok ⟨rows, hp, hu⟩ else .error .primaryKey
  else .error .unique

theorem commit_eq_ok {rows : List ρ} {t : Table pk uk} :
    commit pk uk rows = .ok t ↔ t.rows = rows := by
  unfold commit
  split_ifs with hu hp
  · constructor
    · rintro ⟨⟩; rfl
    · rintro rfl; rfl
  · simp only [false_iff]
    rintro rfl
    exact hp t.pk_nodup
  · simp only [false_iff]
    rintro rfl
    exact hu t.uk_nodup

/-- `INSERT` of one row. -/
def insert (t : Table pk uk) (r : ρ) : Except Violation (Table pk uk) :=
  commit pk uk (t.rows ++ [r])

theorem mem_insert {t t' : Table pk uk} {r x : ρ} (h : t.insert r = .ok t') :
    x ∈ t' ↔ x ∈ t ∨ x = r := by
  rw [mem_def, commit_eq_ok.1 h]
  simp [mem_def]

/-- With a row more, the list is another one. -/
theorem sorted_map_insert_ne {β : Type*} {t t' : Table pk uk} {r : ρ} (h : t.insert r = .ok t')
    (f : ρ → β) : t'.sorted.map f ≠ t.sorted.map f := by
  intro heq
  have hlength := congrArg List.length heq
  rw [List.length_map, List.length_map, length_sorted, length_sorted, commit_eq_ok.1 h,
    List.length_append, List.length_singleton] at hlength
  omega

theorem insert_fresh {t t' : Table pk uk} {r x : ρ} (h : t.insert r = .ok t') (hx : x ∈ t) :
    pk x ≠ pk r ∧ uk x ≠ uk r := by
  have hrows := commit_eq_ok.1 h
  have hp := t'.pk_nodup
  have hu := t'.uk_nodup
  rw [hrows, List.map_append, List.nodup_append'] at hp hu
  constructor
  · intro e
    exact hp.2.2 (List.mem_map_of_mem hx) (by simp [e])
  · intro e
    exact hu.2.2 (List.mem_map_of_mem hx) (by simp [e])

/-- An `INSERT` succeeds when no row has the key or the unique value of the new one. -/
theorem exists_insert {t : Table pk uk} {r : ρ} (hp : ∀ x ∈ t, pk x ≠ pk r)
    (hu : ∀ x ∈ t, uk x ≠ uk r) : ∃ t', t.insert r = .ok t' := by
  refine ⟨⟨t.rows ++ [r], ?_, ?_⟩, commit_eq_ok.2 rfl⟩
  · rw [List.map_append, List.nodup_append']
    refine ⟨t.pk_nodup, by simp, ?_⟩
    intro i hi hi'
    obtain ⟨x, hx, rfl⟩ := List.mem_map.1 hi
    exact hp x hx (by simpa using hi')
  · rw [List.map_append, List.nodup_append']
    refine ⟨t.uk_nodup, by simp, ?_⟩
    intro i hi hi'
    obtain ⟨x, hx, rfl⟩ := List.mem_map.1 hi
    exact hu x hx (by simpa using hi')

/-- `UPDATE … WHERE pk = i`, the row replaced by its image under `f`. -/
def modify (t : Table pk uk) (i : ℕ) (f : ρ → ρ) : Except Violation (Table pk uk) :=
  commit pk uk (t.rows.map fun r => if pk r = i then f r else r)

theorem mem_modify {t t' : Table pk uk} {i : ℕ} {f : ρ → ρ} {x : ρ}
    (h : t.modify i f = .ok t') :
    x ∈ t' ↔ (x ∈ t ∧ pk x ≠ i) ∨ ∃ r ∈ t, pk r = i ∧ x = f r := by
  rw [mem_def, commit_eq_ok.1 h, List.mem_map]
  constructor
  · rintro ⟨r, hr, rfl⟩
    by_cases hi : pk r = i
    · exact Or.inr ⟨r, hr, hi, if_pos hi⟩
    · rw [if_neg hi]
      exact Or.inl ⟨hr, hi⟩
  · rintro (⟨hx, hi⟩ | ⟨r, hr, hi, rfl⟩)
    · exact ⟨x, hx, if_neg hi⟩
    · exact ⟨r, hr, if_pos hi⟩

theorem modify_fresh {t t' : Table pk uk} {i : ℕ} {f : ρ → ρ} {r x : ρ}
    (h : t.modify i f = .ok t') (hr : r ∈ t) (hi : pk r = i) (hf : pk (f r) = i) (hx : x ∈ t)
    (hne : pk x ≠ i) : uk x ≠ uk (f r) := by
  intro heq
  have hx' : x ∈ t' := (mem_modify h).2 (Or.inl ⟨hx, hne⟩)
  have hr' : f r ∈ t' := (mem_modify h).2 (Or.inr ⟨r, hr, hi, rfl⟩)
  rw [eq_of_uk hx' hr' heq] at hne
  exact hne hf

/-- An `UPDATE` succeeds when it keeps the key and no other row has the new unique value. -/
theorem exists_modify {t : Table pk uk} {i : ℕ} {f : ρ → ρ} (hp : ∀ r ∈ t, pk r = i → pk (f r) = i)
    (hu : ∀ r ∈ t, pk r = i → ∀ x ∈ t, pk x ≠ i → uk x ≠ uk (f r)) :
    ∃ t', t.modify i f = .ok t' := by
  have hrows : t.rows.Nodup := List.Nodup.of_map pk t.pk_nodup
  refine ⟨⟨t.rows.map fun r => if pk r = i then f r else r, ?_, ?_⟩, commit_eq_ok.2 rfl⟩
  · rw [List.map_map]
    refine List.Nodup.map_on (fun x hx y hy hxy => eq_of_pk hx hy ?_) hrows
    have hkey : ∀ r ∈ t, pk (if pk r = i then f r else r) = pk r := by
      intro r hr
      by_cases hi : pk r = i
      · rw [if_pos hi, hp r hr hi, hi]
      · rw [if_neg hi]
    rw [← hkey x hx, ← hkey y hy]
    exact hxy
  · rw [List.map_map]
    refine List.Nodup.map_on (fun x hx y hy hxy => ?_) hrows
    rw [Function.comp_apply, Function.comp_apply] at hxy
    by_cases hxi : pk x = i <;> by_cases hyi : pk y = i
    · exact eq_of_pk hx hy (hxi.trans hyi.symm)
    · rw [if_pos hxi, if_neg hyi] at hxy
      exact absurd hxy.symm (hu x hx hxi y hy hyi)
    · rw [if_neg hxi, if_pos hyi] at hxy
      exact absurd hxy (hu y hy hyi x hx hxi)
    · rw [if_neg hxi, if_neg hyi] at hxy
      exact eq_of_uk hx hy hxy

/-- An `UPDATE` that gives a row the unique value of another one is rejected. -/
theorem modify_eq_unique {t : Table pk uk} {i : ℕ} {f : ρ → ρ} {r x : ρ} (hr : r ∈ t)
    (hi : pk r = i) (hx : x ∈ t) (hne : pk x ≠ i) (huk : uk x = uk (f r)) :
    t.modify i f = .error .unique := by
  refine dif_neg fun hnodup => ?_
  rw [List.map_map] at hnodup
  have heq : r = x := List.inj_on_of_nodup_map hnodup hr hx (by
    rw [Function.comp_apply, Function.comp_apply, if_pos hi, if_neg hne, huk])
  exact hne (heq ▸ hi)

/-- Two `UPDATE`s of one row are one. -/
theorem modify_modify {t t' : Table pk uk} {i : ℕ} {f g : ρ → ρ} (h : t.modify i f = .ok t')
    (hf : ∀ r, pk r = i → pk (f r) = i) : t'.modify i g = t.modify i fun r => g (f r) := by
  rw [modify, modify, commit_eq_ok.1 h, List.map_map]
  congr 1
  refine List.map_congr_left fun r _ => ?_
  rw [Function.comp_apply]
  by_cases hi : pk r = i
  · rw [if_pos hi, if_pos (hf r hi), if_pos hi]
  · rw [if_neg hi, if_neg hi, if_neg hi]

theorem modify_eq_self {t : Table pk uk} {i : ℕ} {f : ρ → ρ} (h : ∀ r ∈ t, pk r = i → f r = r) :
    t.modify i f = .ok t := by
  apply commit_eq_ok.2
  symm
  calc (t.rows.map fun r => if pk r = i then f r else r) = t.rows.map id := by
        refine List.map_congr_left fun r hr => ?_
        split_ifs with hi
        · exact h r hr hi
        · rfl
    _ = t.rows := List.map_id t.rows

theorem modify_congr {t : Table pk uk} {i : ℕ} {f g : ρ → ρ}
    (h : ∀ r ∈ t, pk r = i → f r = g r) : t.modify i f = t.modify i g := by
  unfold modify
  congr 1
  refine List.map_congr_left fun r hr => ?_
  split_ifs with hi
  · exact h r hr hi
  · rfl

/-- What `f` keeps of a row, an `UPDATE` keeps of the table. -/
theorem map_rows_modify {γ : Type*} {t t' : Table pk uk} {i : ℕ} {f : ρ → ρ}
    (h : t.modify i f = .ok t') {g : ρ → γ} (hg : ∀ r, g (f r) = g r) :
    t'.rows.map g = t.rows.map g := by
  rw [commit_eq_ok.1 h, List.map_map]
  refine List.map_congr_left fun r _ => ?_
  rw [Function.comp_apply]
  split_ifs
  · exact hg r
  · rfl

/-- The changed row. -/
theorem mem_modify_self {t t' : Table pk uk} {f : ρ → ρ} {r : ρ} (h : t.modify (pk r) f = .ok t')
    (hr : r ∈ t) : f r ∈ t' :=
  (mem_modify h).2 (Or.inr ⟨r, hr, rfl, rfl⟩)

/-- The rows after a change of one row. -/
theorem mem_modify_of_mem {t t' : Table pk uk} {f : ρ → ρ} {r x : ρ}
    (h : t.modify (pk r) f = .ok t') (hr : r ∈ t) :
    x ∈ t' ↔ (x ∈ t ∧ pk x ≠ pk r) ∨ x = f r := by
  refine (mem_modify h).trans (or_congr_right ?_)
  constructor
  · rintro ⟨r', hr', hpk, rfl⟩
    rw [eq_of_pk hr' hr hpk]
  · rintro rfl
    exact ⟨r, hr, rfl, rfl⟩

theorem mem_modify_of_ne {t t' : Table pk uk} {i : ℕ} {f : ρ → ρ} {x : ρ}
    (h : t.modify i f = .ok t') (hx : x ∈ t) (hi : pk x ≠ i) : x ∈ t' :=
  (mem_modify h).2 (Or.inl ⟨hx, hi⟩)

end

/-- `DELETE … WHERE pk = i`. -/
def erase (t : Table pk uk) (i : ℕ) : Table pk uk where
  rows := t.rows.filter fun r => pk r ≠ i
  pk_nodup := t.pk_nodup.sublist (List.filter_sublist.map pk)
  uk_nodup := t.uk_nodup.sublist (List.filter_sublist.map uk)

@[simp] theorem mem_erase {t : Table pk uk} {i : ℕ} {x : ρ} :
    x ∈ t.erase i ↔ x ∈ t ∧ pk x ≠ i := by
  simp [erase, mem_def]

/-- A bulk `UPDATE` of other columns. -/
def mapRows (t : Table pk uk) (f : ρ → ρ) (hp : ∀ r, pk (f r) = pk r) (hu : ∀ r, uk (f r) = uk r) :
    Table pk uk where
  rows := t.rows.map f
  pk_nodup := by
    have : pk ∘ f = pk := funext hp
    rw [List.map_map, this]
    exact t.pk_nodup
  uk_nodup := by
    have : uk ∘ f = uk := funext hu
    rw [List.map_map, this]
    exact t.uk_nodup

@[simp] theorem mem_mapRows {t : Table pk uk} {f : ρ → ρ} {hp hu} {x : ρ} :
    x ∈ t.mapRows f hp hu ↔ ∃ r ∈ t, f r = x := by
  simp [mapRows, mem_def]

theorem mapRows_congr {t : Table pk uk} {f g : ρ → ρ} {hp hu hp' hu'} (h : ∀ r ∈ t, f r = g r) :
    t.mapRows f hp hu = t.mapRows g hp' hu' := ext (List.map_congr_left h)

theorem mapRows_eq_self {t : Table pk uk} {f : ρ → ρ} {hp hu} (h : ∀ r ∈ t, f r = r) :
    t.mapRows f hp hu = t := by
  have hrows : t.rows.map f = t.rows := by rw [List.map_congr_left h, List.map_id']
  exact ext hrows

end Table
