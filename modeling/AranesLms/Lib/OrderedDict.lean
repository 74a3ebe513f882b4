import Mathlib.Data.Finset.Card
import Mathlib.Tactic.Common

/-!
# Ordered dictionaries

An `OrderedDict` is a list of entries with distinct keys, the oldest first.  `setLast` stores an
entry as the newest one, `set` stores it in the place of the old one, and `dropOldest` keeps the
newest entries.  What the operations do is described by membership; `get?` finds the entry of a key
(`get?_eq_some`).  `setAll` stores entries one after the other, and `mapVal` changes the values.
-/

variable {κ ν : Type*}

structure OrderedDict (κ ν : Type*) where
  entries : List (κ × ν)
  nodup : (entries.map Prod.fst).Nodup

namespace OrderedDict

instance : EmptyCollection (OrderedDict κ ν) := ⟨⟨[], List.nodup_nil⟩⟩

instance : Membership (κ × ν) (OrderedDict κ ν) := ⟨fun d e => e ∈ d.entries⟩

theorem mem_def {d : OrderedDict κ ν} {e : κ × ν} : e ∈ d ↔ e ∈ d.entries := Iff.rfl

theorem notMem_empty (e : κ × ν) : e ∉ (∅ : OrderedDict κ ν) := List.not_mem_nil

instance decidableForallMem (d : OrderedDict κ ν) (p : κ × ν → Prop) [DecidablePred p] :
    Decidable (∀ e ∈ d, p e) := inferInstanceAs (Decidable (∀ e ∈ d.entries, p e))

theorem eq_of_mem {d : OrderedDict κ ν} {k : κ} {v w : ν} (hv : (k, v) ∈ d) (hw : (k, w) ∈ d) :
    v = w := congrArg Prod.snd (List.inj_on_of_nodup_map d.nodup hv hw rfl)

variable (d : OrderedDict κ ν)

def length : ℕ := d.entries.length

/-- Keep the entries that satisfy `p`. -/
def retain (p : κ × ν → Bool) : OrderedDict κ ν :=
  ⟨d.entries.filter p, d.nodup.sublist (List.filter_sublist.map Prod.fst)⟩

@[simp] theorem mem_retain {p : κ × ν → Bool} {e : κ × ν} : e ∈ d.retain p ↔ e ∈ d ∧ p e :=
  List.mem_filter

/-- Remove the oldest entries until there are at most `n`. -/
def dropOldest (n : ℕ) : OrderedDict κ ν :=
  ⟨d.entries.drop (d.length - n), d.nodup.sublist ((List.drop_sublist _ _).map Prod.fst)⟩

theorem mem_of_mem_dropOldest {n : ℕ} {e : κ × ν} (h : e ∈ d.dropOldest n) : e ∈ d :=
  List.mem_of_mem_drop h

section

variable [DecidableEq κ]

def get? (k : κ) : Option ν := (d.entries.find? fun e => e.1 = k).map Prod.snd

theorem get?_eq_some {k : κ} {v : ν} : d.get? k = some v ↔ (k, v) ∈ d := by
  unfold get?
  constructor
  · intro h
    obtain ⟨⟨k', w⟩, he, rfl⟩ := Option.map_eq_some_iff.1 h
    have hk : k' = k := by simpa using List.find?_some he
    exact hk ▸ List.mem_of_find?_eq_some he
  · intro h
    obtain ⟨e, he⟩ : ∃ e, d.entries.find? (fun e => e.1 = k) = some e := by
      rw [← Option.isSome_iff_exists, List.find?_isSome]
      exact ⟨(k, v), h, by simp⟩
    have hk : e.1 = k := by simpa using List.find?_some he
    have hmem : (k, e.2) ∈ d := hk ▸ List.mem_of_find?_eq_some he
    rw [he, Option.map_some, eq_of_mem hmem h]

/-- `d.pop(k, None)`. -/
def pop (k : κ) : OrderedDict κ ν := d.retain fun e => e.1 ≠ k

@[simp] theorem mem_pop {k : κ} {e : κ × ν} : e ∈ d.pop k ↔ e ∈ d ∧ e.1 ≠ k := by
  simp [pop]

/-- `d[k] = v`, moved to the end. -/
def setLast (k : κ) (v : ν) : OrderedDict κ ν where
  entries := (d.pop k).entries ++ [(k, v)]
  nodup := by
    rw [List.map_append, List.nodup_append']
    refine ⟨(d.pop k).nodup, List.nodup_singleton _, fun k' hk' hk => ?_⟩
    obtain ⟨e, he, rfl⟩ := List.mem_map.1 hk'
    exact (d.mem_pop.1 he).2 (by simpa using hk)

@[simp] theorem mem_setLast {k : κ} {v : ν} {e : κ × ν} :
    e ∈ d.setLast k v ↔ e ∈ d ∧ e.1 ≠ k ∨ e = (k, v) := by
  rw [mem_def, setLast, List.mem_append, List.mem_singleton]
  exact or_congr_left d.mem_pop

/-- `d.move_to_end(k)`. -/
def moveToEnd (k : κ) : OrderedDict κ ν :=
  match d.get? k with
  | some v => d.setLast k v
  | none => d

@[simp] theorem mem_moveToEnd {k : κ} {e : κ × ν} : e ∈ d.moveToEnd k ↔ e ∈ d := by
  unfold moveToEnd
  split
  · rename_i v hv
    rw [mem_setLast]
    constructor
    · rintro (⟨he, -⟩ | rfl)
      · exact he
      · exact d.get?_eq_some.1 hv
    · intro he
      by_cases hk : e.1 = k
      · obtain ⟨k', w⟩ := e
        obtain rfl : k' = k := hk
        exact Or.inr (by rw [eq_of_mem he (d.get?_eq_some.1 hv)])
      · exact Or.inl ⟨he, hk⟩
  · rfl

/-- The newest entry outlives an eviction that it passes. -/
theorem mem_evict_setLast {k : κ} {v : ν} {p : κ × ν → Bool} {n : ℕ} (hp : p (k, v)) (hn : 0 < n) :
    (k, v) ∈ ((d.setLast k v).retain p).dropOldest n := by
  have hentries : ((d.setLast k v).retain p).entries = (d.pop k).entries.filter p ++ [(k, v)] := by
    show ((d.pop k).entries ++ [(k, v)]).filter p = _
    rw [List.filter_append, List.filter_cons_of_pos hp, List.filter_nil]
  have hdrop : ((d.pop k).entries.filter p ++ [(k, v)]).length - n ≤
      ((d.pop k).entries.filter p).length := by
    rw [List.length_append, List.length_singleton]
    omega
  show (k, v) ∈ List.drop (((d.setLast k v).retain p).entries.length - n) _
  rw [hentries, List.drop_append_of_le_length hdrop]
  exact List.mem_append_right _ (List.mem_singleton_self _)

/-! ### Storing in place -/

/-- The entries after `d[k] = v`. -/
def setEntry (k : κ) (v : ν) : List (κ × ν) → List (κ × ν)
  | [] => [(k, v)]
  | e :: es => if e.1 = k then (k, v) :: es else e :: setEntry k v es

theorem map_fst_setEntry (k : κ) (v : ν) (es : List (κ × ν)) :
    (setEntry k v es).map Prod.fst =
      if k ∈ es.map Prod.fst then es.map Prod.fst else es.map Prod.fst ++ [k] := by
  induction es with
  | nil => simp [setEntry]
  | cons e es ih =>
    rw [setEntry]
    by_cases hk : e.1 = k
    · simp [hk]
    · rw [if_neg hk, List.map_cons, ih, List.map_cons]
      have hne : k ≠ e.1 := Ne.symm hk
      split_ifs <;> simp_all

theorem mem_setEntry {k : κ} {v : ν} {es : List (κ × ν)} (hes : (es.map Prod.fst).Nodup)
    {e : κ × ν} : e ∈ setEntry k v es ↔ e ∈ es ∧ e.1 ≠ k ∨ e = (k, v) := by
  induction es with
  | nil => simp [setEntry]
  | cons e' es ih =>
    obtain ⟨hnotMem, hnodup⟩ := List.nodup_cons.1 hes
    rw [setEntry]
    by_cases hk : e'.1 = k
    · rw [if_pos hk]
      have hother : e ∈ es → e.1 ≠ k := fun hmem heq =>
        hnotMem (hk ▸ heq ▸ List.mem_map_of_mem hmem)
      constructor
      · intro hmem
        rcases List.mem_cons.1 hmem with rfl | hmem
        · exact Or.inr rfl
        · exact Or.inl ⟨List.mem_cons_of_mem _ hmem, hother hmem⟩
      · rintro (⟨hmem, hne⟩ | rfl)
        · rcases List.mem_cons.1 hmem with rfl | hmem
          · exact absurd hk hne
          · exact List.mem_cons_of_mem _ hmem
        · exact List.mem_cons_self
    · rw [if_neg hk, List.mem_cons, ih hnodup, List.mem_cons]
      constructor
      · rintro (rfl | ⟨hmem, hne⟩ | rfl)
        · exact Or.inl ⟨Or.inl rfl, hk⟩
        · exact Or.inl ⟨Or.inr hmem, hne⟩
        · exact Or.inr rfl
      · rintro (⟨rfl | hmem, hne⟩ | rfl)
        · exact Or.inl rfl
        · exact Or.inr (Or.inl ⟨hmem, hne⟩)
        · exact Or.inr (Or.inr rfl)

/-- `d[k] = v`. -/
def set (k : κ) (v : ν) : OrderedDict κ ν where
  entries := setEntry k v d.entries
  nodup := by
    rw [map_fst_setEntry]
    split_ifs with hk
    · exact d.nodup
    · refine List.nodup_append'.2 ⟨d.nodup, List.nodup_singleton k, fun k' hk' hmem => ?_⟩
      exact hk (List.mem_singleton.1 hmem ▸ hk')

@[simp] theorem mem_set {k : κ} {v : ν} {e : κ × ν} :
    e ∈ d.set k v ↔ e ∈ d ∧ e.1 ≠ k ∨ e = (k, v) := mem_setEntry d.nodup

end

/-! ## Keys and values -/

@[ext] theorem ext {d d' : OrderedDict κ ν} (h : d.entries = d'.entries) : d = d' := by
  cases d
  cases d'
  cases h
  rfl

def keys : List κ := d.entries.map Prod.fst

theorem mem_keys {k : κ} : k ∈ d.keys ↔ ∃ v, (k, v) ∈ d := by
  simp [keys, mem_def]

/-- The dictionary with changed values. -/
def mapVal {μ : Type*} (f : κ → ν → μ) : OrderedDict κ μ where
  entries := d.entries.map fun e => (e.1, f e.1 e.2)
  nodup := by
    rw [List.map_map]
    exact d.nodup

@[simp] theorem mem_mapVal {μ : Type*} {f : κ → ν → μ} {k : κ} {w : μ} :
    (k, w) ∈ d.mapVal f ↔ ∃ v, (k, v) ∈ d ∧ f k v = w := by
  constructor
  · intro h
    obtain ⟨e, he, heq⟩ := List.mem_map.1 h
    obtain ⟨rfl, rfl⟩ := Prod.mk.inj heq
    exact ⟨e.2, he, rfl⟩
  · rintro ⟨v, hv, rfl⟩
    exact List.mem_map.2 ⟨(k, v), hv, rfl⟩

@[simp] theorem keys_mapVal {μ : Type*} {f : κ → ν → μ} : (d.mapVal f).keys = d.keys := by
  rw [keys, mapVal, List.map_map]
  rfl

theorem mapVal_mapVal {μ ρ : Type*} {f : κ → ν → μ} {g : κ → μ → ρ} :
    (d.mapVal f).mapVal g = d.mapVal fun k v => g k (f k v) :=
  ext List.map_map

section

variable [DecidableEq κ]

instance decidableEq [DecidableEq ν] : DecidableEq (OrderedDict κ ν) := fun d d' =>
  decidable_of_iff (d.entries = d'.entries) ⟨ext, congrArg entries⟩

/-- Two dictionaries with the same entries find the same values. -/
theorem get?_congr {d d' : OrderedDict κ ν} {k : κ} (h : ∀ v, (k, v) ∈ d ↔ (k, v) ∈ d') :
    d.get? k = d'.get? k := Option.ext fun v => by
  rw [get?_eq_some, get?_eq_some, h]

theorem get?_set {k k' : κ} {v : ν} :
    (d.set k v).get? k' = if k' = k then some v else d.get? k' := by
  by_cases hk : k' = k
  · subst hk
    rw [if_pos rfl, get?_eq_some, mem_set]
    exact Or.inr rfl
  · rw [if_neg hk]
    refine get?_congr fun w => ?_
    rw [mem_set]
    constructor
    · rintro (⟨hmem, -⟩ | heq)
      · exact hmem
      · exact absurd (congrArg Prod.fst heq) hk
    · exact fun hmem => Or.inl ⟨hmem, hk⟩

@[simp] theorem get?_set_self {k : κ} {v : ν} : (d.set k v).get? k = some v := by
  rw [get?_set, if_pos rfl]

theorem get?_set_of_ne {k k' : κ} {v : ν} (hk : k' ≠ k) : (d.set k v).get? k' = d.get? k' := by
  rw [get?_set, if_neg hk]

@[simp] theorem get?_empty {k : κ} : (∅ : OrderedDict κ ν).get? k = none := rfl

theorem get?_mapVal {μ : Type*} {f : κ → ν → μ} {k : κ} :
    (d.mapVal f).get? k = (d.get? k).map (f k) := Option.ext fun w => by
  simp [get?_eq_some]

theorem keys_set {k : κ} {v : ν} :
    (d.set k v).keys = if k ∈ d.keys then d.keys else d.keys ++ [k] :=
  map_fst_setEntry k v d.entries

/-- Storing what is there changes nothing. -/
theorem set_of_mem {k : κ} {v : ν} (h : (k, v) ∈ d) : d.set k v = d := by
  have hset : ∀ es : List (κ × ν), (es.map Prod.fst).Nodup → (k, v) ∈ es →
      setEntry k v es = es := by
    intro es hes hmem
    induction es with
    | nil => cases hmem
    | cons e es ih =>
      obtain ⟨hnotMem, hnodup⟩ := List.nodup_cons.1 hes
      rw [setEntry]
      rcases List.mem_cons.1 hmem with rfl | hmem
      · rw [if_pos rfl]
      · have hne : e.1 ≠ k := fun hk => hnotMem (hk ▸ List.mem_map_of_mem (f := Prod.fst) hmem)
        rw [if_neg hne, ih hnodup hmem]
  exact ext (hset d.entries d.nodup h)

/-- The last value counts, in the place of the first one. -/
@[simp] theorem set_set {k : κ} {v w : ν} : (d.set k v).set k w = d.set k w := by
  have hset : ∀ es : List (κ × ν), setEntry k w (setEntry k v es) = setEntry k w es := by
    intro es
    induction es with
    | nil => simp [setEntry]
    | cons e es ih =>
      rw [setEntry]
      by_cases hk : e.1 = k
      · simp [setEntry, hk]
      · simp [setEntry, hk, ih]
  exact ext (hset d.entries)

theorem mapVal_set {μ : Type*} {f : κ → ν → μ} {k : κ} {v : ν} :
    (d.set k v).mapVal f = (d.mapVal f).set k (f k v) := by
  have hset : ∀ es : List (κ × ν), (setEntry k v es).map (fun e => (e.1, f e.1 e.2)) =
      setEntry k (f k v) (es.map fun e => (e.1, f e.1 e.2)) := by
    intro es
    induction es with
    | nil => rfl
    | cons e es ih =>
      rw [setEntry, List.map_cons, setEntry]
      by_cases hk : e.1 = k
      · simp [hk]
      · simp [hk, ih]
  exact ext (hset d.entries)

/-- Store the entries one after the other. -/
def setAll (es : List (κ × ν)) : OrderedDict κ ν := es.foldl (fun d e => d.set e.1 e.2) d

@[simp] theorem setAll_nil : d.setAll [] = d := rfl

@[simp] theorem setAll_cons {e : κ × ν} {es : List (κ × ν)} :
    d.setAll (e :: es) = (d.set e.1 e.2).setAll es := rfl

theorem setAll_append {es es' : List (κ × ν)} : d.setAll (es ++ es') = (d.setAll es).setAll es' :=
  List.foldl_append

theorem mapVal_setAll {μ : Type*} {f : κ → ν → μ} {es : List (κ × ν)} :
    (d.setAll es).mapVal f = (d.mapVal f).setAll (es.map fun e => (e.1, f e.1 e.2)) := by
  induction es generalizing d with
  | nil => rfl
  | cons e es ih => rw [setAll_cons, ih, mapVal_set, List.map_cons, setAll_cons]

theorem get?_setAll_of_notMem {es : List (κ × ν)} {k : κ} (h : k ∉ es.map Prod.fst) :
    (d.setAll es).get? k = d.get? k := by
  induction es generalizing d with
  | nil => rfl
  | cons e es ih =>
    rw [List.map_cons, List.mem_cons, not_or] at h
    rw [setAll_cons, ih _ h.2, get?_set_of_ne _ h.1]

theorem get?_setAll_of_mem {es : List (κ × ν)} (hes : (es.map Prod.fst).Nodup) {k : κ} {v : ν}
    (h : (k, v) ∈ es) : (d.setAll es).get? k = some v := by
  induction es generalizing d with
  | nil => cases h
  | cons e es ih =>
    obtain ⟨hnotMem, hnodup⟩ := List.nodup_cons.1 hes
    rw [setAll_cons]
    rcases List.mem_cons.1 h with rfl | h
    · rw [get?_setAll_of_notMem _ hnotMem, get?_set_self]
    · exact ih _ hnodup h

/-- What is found after storing entries is one of them, or was there before. -/
theorem mem_of_mem_setAll {es : List (κ × ν)} {e : κ × ν} (h : e ∈ d.setAll es) :
    e ∈ d ∨ e ∈ es := by
  induction es generalizing d with
  | nil => exact Or.inl h
  | cons e' es ih =>
    rcases ih _ h with h | h
    · rcases (d.mem_set).1 h with ⟨h, -⟩ | rfl
      · exact Or.inl h
      · exact Or.inr List.mem_cons_self
    · exact Or.inr (List.mem_cons_of_mem _ h)

theorem mem_keys_setAll {es : List (κ × ν)} {k : κ} :
    k ∈ (d.setAll es).keys ↔ k ∈ d.keys ∨ k ∈ es.map Prod.fst := by
  induction es generalizing d with
  | nil => simp
  | cons e es ih =>
    rw [setAll_cons, ih, keys_set, List.map_cons, List.mem_cons]
    split_ifs with hk
    · constructor
      · rintro (h | h)
        · exact Or.inl h
        · exact Or.inr (Or.inr h)
      · rintro (h | rfl | h)
        · exact Or.inl h
        · exact Or.inl hk
        · exact Or.inr h
    · rw [List.mem_append, List.mem_singleton, or_assoc]

theorem setEntry_of_notMem {k : κ} {v : ν} {es : List (κ × ν)} (h : k ∉ es.map Prod.fst) :
    setEntry k v es = es ++ [(k, v)] := by
  induction es with
  | nil => rfl
  | cons e es ih =>
    rw [List.map_cons, List.mem_cons, not_or] at h
    rw [setEntry, if_neg (Ne.symm h.1), ih h.2, List.cons_append]

/-- New keys come at the end. -/
theorem entries_setAll {es : List (κ × ν)} (hes : (es.map Prod.fst).Nodup)
    (h : ∀ k ∈ es.map Prod.fst, k ∉ d.keys) : (d.setAll es).entries = d.entries ++ es := by
  induction es generalizing d with
  | nil => exact (List.append_nil _).symm
  | cons e es ih =>
    obtain ⟨hnotMem, hnodup⟩ := List.nodup_cons.1 hes
    have hset : (d.set e.1 e.2).entries = d.entries ++ [e] :=
      setEntry_of_notMem (h e.1 List.mem_cons_self)
    rw [setAll_cons, ih _ hnodup, hset, List.append_assoc, List.singleton_append]
    intro k hk hmem
    rw [keys, hset, List.map_append, List.mem_append, List.map_singleton,
      List.mem_singleton] at hmem
    rcases hmem with hmem | rfl
    · exact h k (List.mem_cons_of_mem _ hk) hmem
    · exact hnotMem hk

/-- A dictionary is what storing its entries gives. -/
theorem setAll_entries : (∅ : OrderedDict κ ν).setAll d.entries = d :=
  ext (entries_setAll ∅ d.nodup fun _ _ h => nomatch h)

/-- As many entries as have been stored are there exactly when their keys are distinct. -/
theorem length_setAll_eq_iff {es : List (κ × ν)} :
    ((∅ : OrderedDict κ ν).setAll es).length = es.length ↔ (es.map Prod.fst).Nodup := by
  have hkeys : ((∅ : OrderedDict κ ν).setAll es).keys.toFinset = (es.map Prod.fst).toFinset := by
    ext k
    rw [List.mem_toFinset, List.mem_toFinset, mem_keys_setAll]
    exact or_iff_right List.not_mem_nil
  have hlength : ((∅ : OrderedDict κ ν).setAll es).length = (es.map Prod.fst).toFinset.card := by
    have hnodup : ((∅ : OrderedDict κ ν).setAll es).keys.Nodup := nodup _
    rw [← hkeys, List.toFinset_card_of_nodup hnodup, keys, List.length_map, length]
  rw [hlength, ← List.length_map (f := Prod.fst)]
  exact Multiset.toFinset_card_eq_card_iff_nodup (m := (es.map Prod.fst : Multiset κ))

/-- What is found is one of the stored entries, or what was there before. -/
theorem get?_setAll {es : List (κ × ν)} {k : κ} :
    (d.setAll es).get? k = (((∅ : OrderedDict κ ν).setAll es).get? k).or (d.get? k) := by
  induction es using List.reverseRecOn with
  | nil => rfl
  | append_singleton es e ih =>
    rw [setAll_append, setAll_append, setAll_cons, setAll_cons, setAll_nil, setAll_nil, get?_set,
      get?_set, ih]
    split_ifs <;> rfl

/-- Of several lists of entries, the last one with the key counts. -/
theorem get?_setAll_flatMap {α : Type*} {l : List α} {f : α → List (κ × ν)} {k : κ} :
    ((∅ : OrderedDict κ ν).setAll (l.flatMap f)).get? k =
      l.reverse.findSome? fun a => ((∅ : OrderedDict κ ν).setAll (f a)).get? k := by
  induction l using List.reverseRecOn with
  | nil => rfl
  | append_singleton l a ih =>
    rw [List.flatMap_append, List.flatMap_singleton, setAll_append, get?_setAll, ih,
      List.reverse_append, List.reverse_singleton, List.singleton_append, List.findSome?_cons]
    cases ((∅ : OrderedDict κ ν).setAll (f a)).get? k <;> rfl

/-- Storing entries that are there changes nothing. -/
theorem setAll_of_forall_mem {es : List (κ × ν)} (h : ∀ e ∈ es, e ∈ d) : d.setAll es = d := by
  induction es with
  | nil => rfl
  | cons e es ih =>
    rw [setAll_cons, set_of_mem _ (h e List.mem_cons_self)]
    exact ih fun e' he' => h e' (List.mem_cons_of_mem _ he')

end

end OrderedDict
