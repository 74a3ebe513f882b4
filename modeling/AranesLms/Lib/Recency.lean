import AranesLms.Lib.OrderedDict

/-!
# Dictionaries in the order of use

The keys that have been used are listed with the newest use first; `LessRecent uses k k'` says that
`k'` has been used since `k` was.  A dictionary is in this order (`OrderedDict.InOrder`) as long as
each use moves its key to the end and entries are only removed otherwise, and what `dropOldest`
removes then is the least recently used part (`InOrder.of_dropOldest`).
-/

variable {κ ν : Type*}

/-- `k'` has been used since `k` was. -/
def LessRecent (uses : List κ) (k k' : κ) : Prop :=
  ∃ latest, latest <+: uses ∧ k ∉ latest ∧ k' ∈ latest

theorem lessRecent_cons {k₀ k k' : κ} {uses : List κ} :
    LessRecent (k₀ :: uses) k k' ↔ k ≠ k₀ ∧ (k' = k₀ ∨ LessRecent uses k k') := by
  constructor
  · rintro ⟨latest, hlatest, hk, hk'⟩
    rcases List.prefix_cons_iff.1 hlatest with rfl | ⟨latest, rfl, hprefix⟩
    · cases hk'
    · rw [List.mem_cons, not_or] at hk
      exact ⟨hk.1, (List.mem_cons.1 hk').imp_right fun hk' => ⟨latest, hprefix, hk.2, hk'⟩⟩
  · rintro ⟨hne, rfl | ⟨latest, hlatest, hk, hk'⟩⟩
    · exact ⟨[k'], List.prefix_append [k'] uses, by simpa using hne, List.mem_singleton_self k'⟩
    · exact ⟨k₀ :: latest, List.cons_prefix_cons.2 ⟨rfl, hlatest⟩, by simp [hne, hk],
        List.mem_cons_of_mem _ hk'⟩

namespace OrderedDict

/-- The keys stand in the order of their latest uses. -/
def InOrder (uses : List κ) (d : OrderedDict κ ν) : Prop := d.keys.Pairwise (LessRecent uses)

variable {uses : List κ} {d d' : OrderedDict κ ν}

theorem inOrder_empty : InOrder uses (∅ : OrderedDict κ ν) := List.Pairwise.nil

theorem InOrder.sublist (h : d.InOrder uses) (hsub : d'.entries.Sublist d.entries) :
    d'.InOrder uses := List.Pairwise.sublist (hsub.map Prod.fst) h

theorem InOrder.retain (h : d.InOrder uses) (p : κ × ν → Bool) : (d.retain p).InOrder uses :=
  h.sublist List.filter_sublist

theorem InOrder.dropOldest (h : d.InOrder uses) (n : ℕ) : (d.dropOldest n).InOrder uses :=
  h.sublist (List.drop_sublist _ _)

/-- What is removed has been used less recently than what is left. -/
theorem InOrder.of_dropOldest (h : d.InOrder uses) {n : ℕ} {e e' : κ × ν} (he : e ∈ d)
    (hgone : e ∉ d.dropOldest n) (he' : e' ∈ d.dropOldest n) : LessRecent uses e.1 e'.1 := by
  have hsplit : d.keys = (d.entries.take (d.length - n)).map Prod.fst ++
      (d.dropOldest n).keys := by
    rw [keys, keys, OrderedDict.dropOldest, ← List.map_append, List.take_append_drop]
  have hold : e ∈ d.entries.take (d.length - n) := by
    rw [mem_def, ← List.take_append_drop (d.length - n) d.entries, List.mem_append] at he
    exact he.resolve_right hgone
  rw [InOrder, hsplit, List.pairwise_append] at h
  exact h.2.2 _ (List.mem_map_of_mem hold) _ (List.mem_map_of_mem he')

theorem length_dropOldest (d : OrderedDict κ ν) (n : ℕ) :
    (d.dropOldest n).length = min n d.length := by
  show (d.entries.drop (d.length - n)).length = _
  rw [List.length_drop, ← length]
  omega

theorem mem_dropOldest_of_length_le {e : κ × ν} (he : e ∈ d) {n : ℕ} (h : d.length ≤ n) :
    e ∈ d.dropOldest n := by
  show e ∈ d.entries.drop (d.length - n)
  rw [Nat.sub_eq_zero_of_le h, List.drop_zero]
  exact he

/-- The newest entry outlives the removal of the oldest ones. -/
theorem getLast?_keys_dropOldest (d : OrderedDict κ ν) {n : ℕ} (hn : 0 < n) :
    (d.dropOldest n).keys.getLast? = d.keys.getLast? := by
  have hkeys : (d.dropOldest n).keys = d.keys.drop (d.length - n) := by
    rw [keys, OrderedDict.dropOldest, List.map_drop, keys]
  rw [hkeys, List.getLast?_drop]
  split_ifs with hle
  · rw [keys, List.length_map, ← length] at hle
    have hnil : d.keys = [] := by
      rw [keys, List.map_eq_nil_iff, ← List.length_eq_zero_iff, ← length]
      omega
    rw [hnil, List.getLast?_nil]
  · rfl

section

variable [DecidableEq κ]

theorem keys_setLast (d : OrderedDict κ ν) (k : κ) (v : ν) :
    (d.setLast k v).keys = (d.pop k).keys ++ [k] := by
  rw [keys, setLast, List.map_append, List.map_singleton, keys]

theorem InOrder.setLast (h : d.InOrder uses) (k : κ) (v : ν) :
    (d.setLast k v).InOrder (k :: uses) := by
  rw [InOrder, keys_setLast, List.pairwise_append]
  have hne : ∀ k' ∈ (d.pop k).keys, k' ≠ k := by
    intro k' hk'
    obtain ⟨w, hw⟩ := (d.pop k).mem_keys.1 hk'
    exact (d.mem_pop.1 hw).2
  refine ⟨(h.retain _).imp_of_mem fun hk _ hless => ?_, List.pairwise_singleton _ _,
    fun k' hk' k'' hk'' => ?_⟩
  · exact lessRecent_cons.2 ⟨hne _ hk, Or.inr hless⟩
  · exact lessRecent_cons.2 ⟨hne k' hk', Or.inl (List.mem_singleton.1 hk'')⟩

theorem InOrder.moveToEnd (h : d.InOrder uses) {k : κ} {v : ν} (hk : d.get? k = some v) :
    (d.moveToEnd k).InOrder (k :: uses) := by
  rw [OrderedDict.moveToEnd, hk]
  exact h.setLast k v

theorem length_moveToEnd (d : OrderedDict κ ν) (k : κ) : (d.moveToEnd k).length = d.length := by
  refine List.Perm.length_eq ((List.perm_ext_iff_of_nodup ?_ ?_).2 fun e => d.mem_moveToEnd)
  · exact (d.moveToEnd k).nodup.of_map
  · exact d.nodup.of_map

end

end OrderedDict
