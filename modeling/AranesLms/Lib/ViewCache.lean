import Mathlib.Logic.Function.Basic
import AranesLms.Lib.Table

/-!
# Cached views of a table

A `ViewCache` holds answers computed from a table: the serialised row of a key and the serialised
list of all rows.  A read takes an entry only if it passes a check (the item has the key it is
asked for, the list has increasing keys) and drops it otherwise.

A cache is `Coherent` with a table when each entry is what serialising the present rows gives.
Then no check fails, and a read of the cache cannot be told from one of the table.  `of_table` says
what has to be dropped when the table changes, and `insert`, `modify`, `erase` and `mapRows` what
that is for each statement.
-/

/-- Cached items and a cached list. -/
structure ViewCache (β : Type*) where
  item : ℕ → Option β
  list : Option (List β)

namespace ViewCache

variable {ρ κ β : Type*}

def empty : ViewCache β := ⟨fun _ => none, none⟩

variable (c : ViewCache β)

def setItem (i : ℕ) (b : β) : ViewCache β := { c with item := Function.update c.item i (some b) }

def invalidate (i : ℕ) : ViewCache β := { c with item := Function.update c.item i none }

/-- Invalidate the items of several keys and, if `includeList` is set, the list. -/
def invalidateMany (keys : List ℕ) (includeList : Bool) : ViewCache β where
  item := fun i => if i ∈ keys then none else c.item i
  list := if includeList then none else c.list

def setList (l : List β) : ViewCache β := { c with list := some l }

def invalidateList : ViewCache β := { c with list := none }

/-- What is set replaces what was invalidated. -/
theorem setItem_invalidate (i : ℕ) (b : β) :
    (c.invalidate i).invalidateList.setItem i b = c.invalidateList.setItem i b :=
  congrArg (fun item => ViewCache.mk item none) (Function.update_idem _ _ _)

@[simp] theorem setItem_self (i : ℕ) (b : β) : (c.setItem i b).item i = some b :=
  Function.update_self _ _ _

theorem setItem_of_ne {i j : ℕ} (h : j ≠ i) (b : β) : (c.setItem i b).item j = c.item j :=
  Function.update_of_ne h _ _

@[simp] theorem invalidate_self (i : ℕ) : (c.invalidate i).item i = none :=
  Function.update_self _ _ _

theorem invalidate_of_ne {i j : ℕ} (h : j ≠ i) : (c.invalidate i).item j = c.item j :=
  Function.update_of_ne h _ _

/-- Each key is greater than the one before it. -/
def idsAreStrictlyIncreasing (previousId : Option ℕ) : List ℕ → Bool
  | [] => true
  | i :: l =>
    if previousId.any (i ≤ ·) then false else idsAreStrictlyIncreasing (some i) l

theorem idsAreStrictlyIncreasing_of_pairwise {previousId : Option ℕ} {l : List ℕ}
    (hfirst : ∀ j, previousId = some j → ∀ i ∈ l, j < i) (h : l.Pairwise (· < ·)) :
    idsAreStrictlyIncreasing previousId l := by
  induction l generalizing previousId with
  | nil => rfl
  | cons i l ih =>
    obtain ⟨hi, hl⟩ := List.pairwise_cons.1 h
    have hnot : ¬ previousId.any (i ≤ ·) := by
      cases previousId with
      | none => simp
      | some j =>
        have := hfirst j rfl i List.mem_cons_self
        simp only [Option.any_some, decide_eq_true_eq]
        omega
    rw [idsAreStrictlyIncreasing, if_neg hnot]
    apply ih _ hl
    intro j hj i' hi'
    cases hj
    exact hi i' hi'

section Reads

variable (idOf : β → ℕ)

/-- Read an item: the answer, and the cache without the entry if it fails its check. -/
def getItem (i : ℕ) : Option β × ViewCache β :=
  match c.item i with
  | none => (none, c)
  | some b => if idOf b = i then (some b, c) else (none, c.invalidate i)

/-- Read the list. -/
def getList : Option (List β) × ViewCache β :=
  match c.list with
  | none => (none, c)
  | some l =>
    if idsAreStrictlyIncreasing none (l.map idOf) then (some l, c) else (none, c.invalidateList)

end Reads

/-! ## Coherence -/

variable {pk : ρ → ℕ} {uk : ρ → κ}

/-- Each entry is what serialising the rows gives. -/
structure Coherent (ser : ρ → β) (t : Table pk uk) (c : ViewCache β) : Prop where
  item : ∀ i b, c.item i = some b → ∃ r ∈ t, pk r = i ∧ ser r = b
  list : ∀ l, c.list = some l → l = t.sorted.map ser

namespace Coherent

variable {ser : ρ → β} {t t' : Table pk uk} {c : ViewCache β}

theorem empty (t : Table pk uk) : Coherent ser t (empty : ViewCache β) := by
  constructor
  · intro i b hb
    cases hb
  · intro l hl
    cases hl

section Reads

variable {idOf : β → ℕ} (hser : ∀ r, idOf (ser r) = pk r)

include hser

/-- No item fails its check. -/
theorem getItem (h : Coherent ser t c) (i : ℕ) : c.getItem idOf i = (c.item i, c) := by
  unfold ViewCache.getItem
  cases hb : c.item i with
  | none => rfl
  | some b =>
    obtain ⟨r, -, rfl, rfl⟩ := h.item i b hb
    exact if_pos (hser r)

/-- The list does not fail its check. -/
theorem getList (h : Coherent ser t c) : c.getList idOf = (c.list, c) := by
  unfold ViewCache.getList
  cases hl : c.list with
  | none => rfl
  | some l =>
    have hids : l.map idOf = t.sorted.map pk := by
      rw [h.list l hl, List.map_map]
      exact List.map_congr_left fun r _ => hser r
    have hincreasing : (l.map idOf).Pairwise (· < ·) := hids ▸ t.pairwise_sorted
    have hfirst : ∀ j, none = some j → ∀ i ∈ l.map idOf, j < i := nofun
    exact if_pos (idsAreStrictlyIncreasing_of_pairwise hfirst hincreasing)

end Reads

/-! ### Entries -/

theorem setItem (h : Coherent ser t c) {r : ρ} (hr : r ∈ t) :
    Coherent ser t (c.setItem (pk r) (ser r)) := by
  refine ⟨fun i b hb => ?_, h.list⟩
  by_cases hi : i = pk r
  · rw [hi, setItem_self] at hb
    exact ⟨r, hr, hi.symm, Option.some.inj hb⟩
  · rw [c.setItem_of_ne hi] at hb
    exact h.item i b hb

theorem setList (h : Coherent ser t c) : Coherent ser t (c.setList (t.sorted.map ser)) :=
  ⟨h.item, fun _ hl => (Option.some.inj hl).symm⟩

theorem invalidate (h : Coherent ser t c) (i : ℕ) : Coherent ser t (c.invalidate i) := by
  refine ⟨fun j b hb => ?_, h.list⟩
  by_cases hj : j = i
  · rw [hj, invalidate_self] at hb
    cases hb
  · rw [c.invalidate_of_ne hj] at hb
    exact h.item j b hb

theorem invalidateList (h : Coherent ser t c) : Coherent ser t c.invalidateList := ⟨h.item, nofun⟩

/-! ### Statements -/

/-- The entries that are left must be right for the new rows. -/
theorem of_table (h : Coherent ser t c)
    (hitem : ∀ r ∈ t, c.item (pk r) ≠ none → ∃ r' ∈ t', pk r' = pk r ∧ ser r' = ser r)
    (hlist : c.list ≠ none → t'.sorted.map ser = t.sorted.map ser) : Coherent ser t' c := by
  refine ⟨fun i b hb => ?_, fun l hl => ?_⟩
  · obtain ⟨r, hr, rfl, rfl⟩ := h.item i b hb
    exact hitem r hr (by simp [hb])
  · rw [h.list l hl, hlist (by simp [hl])]

variable [DecidableEq κ]

theorem insert (h : Coherent ser t c) {r : ρ} (ht : t.insert r = .ok t') :
    Coherent ser t' c.invalidateList := by
  apply h.invalidateList.of_table
  · intro r' hr' _
    exact ⟨r', (Table.mem_insert ht).2 (Or.inl hr'), rfl, rfl⟩
  · exact fun hl => absurd rfl hl

/-- An `INSERT` after which the item of the new row is set. -/
theorem insert_setItem (h : Coherent ser t c) {r : ρ} (ht : t.insert r = .ok t') :
    Coherent ser t' (c.invalidateList.setItem (pk r) (ser r)) :=
  (h.insert ht).setItem ((Table.mem_insert ht).2 (Or.inr rfl))

theorem modify (h : Coherent ser t c) {i : ℕ} {f : ρ → ρ} (ht : t.modify i f = .ok t') :
    Coherent ser t' (c.invalidate i).invalidateList := by
  apply (h.invalidate i).invalidateList.of_table
  · intro r hr hcached
    have hi : pk r ≠ i := by
      rintro rfl
      exact hcached (c.invalidate_self _)
    exact ⟨r, Table.mem_modify_of_ne ht hr hi, rfl, rfl⟩
  · exact fun hl => absurd rfl hl

/-- An `UPDATE` after which the item of the row is set. -/
theorem modify_setItem (h : Coherent ser t c) {r : ρ} {f : ρ → ρ} (hr : r ∈ t)
    (hf : pk (f r) = pk r) (ht : t.modify (pk r) f = .ok t') :
    Coherent ser t' (c.invalidateList.setItem (pk r) (ser (f r))) := by
  have hmem : f r ∈ t' := Table.mem_modify_self ht hr
  have hset := (h.modify ht).setItem hmem
  rwa [hf, setItem_invalidate] at hset

/-- An `UPDATE` of a column that is not serialised. -/
theorem modify_of_ser (h : Coherent ser t c) {i : ℕ} {f : ρ → ρ} (ht : t.modify i f = .ok t')
    {idOf : β → ℕ} (hser : ∀ r, idOf (ser r) = pk r) (hf : ∀ r, ser (f r) = ser r) :
    Coherent ser t' c := by
  have hpk : ∀ r, pk (f r) = pk r := fun r => by rw [← hser, hf, hser]
  apply h.of_table
  · intro r hr _
    by_cases hi : pk r = i
    · exact ⟨f r, (Table.mem_modify ht).2 (Or.inr ⟨r, hr, hi, rfl⟩), hpk r, hf r⟩
    · exact ⟨r, Table.mem_modify_of_ne ht hr hi, rfl, rfl⟩
  · intro _
    exact Table.sorted_map_congr hser (Table.map_rows_modify ht hf)

omit [DecidableEq κ] in
theorem erase (h : Coherent ser t c) (i : ℕ) :
    Coherent ser (t.erase i) (c.invalidate i).invalidateList := by
  apply (h.invalidate i).invalidateList.of_table
  · intro r hr hcached
    refine ⟨r, Table.mem_erase.2 ⟨hr, ?_⟩, rfl, rfl⟩
    rintro rfl
    exact hcached (c.invalidate_self _)
  · exact fun hl => absurd rfl hl

omit [DecidableEq κ] in
/-- A bulk `UPDATE` that leaves the rows with other keys alone. -/
theorem mapRows (h : Coherent ser t c) (f : ρ → ρ) (hp : ∀ r, pk (f r) = pk r)
    (hu : ∀ r, uk (f r) = uk r) {keys : List ℕ} (hkeys : ∀ r ∈ t, pk r ∉ keys → f r = r) :
    Coherent ser (t.mapRows f hp hu) (c.invalidateMany keys true) := by
  refine ⟨fun i b hb => ?_, nofun⟩
  by_cases hi : i ∈ keys
  · simp only [invalidateMany, if_pos hi, reduceCtorEq] at hb
  · simp only [invalidateMany, if_neg hi] at hb
    obtain ⟨r, hr, rfl, rfl⟩ := h.item i b hb
    exact ⟨r, Table.mem_mapRows.2 ⟨r, hr, hkeys r hr hi⟩, rfl, rfl⟩

end Coherent

end ViewCache
