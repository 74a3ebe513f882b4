import Mathlib.Data.Finmap

/-!
# Unions and restrictions of finite maps

`m ∪ m'` has the entries of `m` and, where `m` has none, those of `m'` (`lookup_union`);
`m.filterKeys p` has the entries of `m` whose keys satisfy `p`.
-/

namespace Finmap

variable {κ : Type*} [DecidableEq κ] {β : κ → Type*} {m m' : Finmap β}

theorem lookup_union (m m' : Finmap β) (key : κ) :
    (m ∪ m').lookup key = (m.lookup key).or (m'.lookup key) := by
  by_cases hk : key ∈ m
  · obtain ⟨b, hb⟩ := mem_iff.1 hk
    rw [lookup_union_left hk, hb, Option.some_or]
  · rw [lookup_union_right hk, lookup_eq_none.2 hk, Option.none_or]

/-- A map that has all keys of the other one already is not changed. -/
theorem union_eq_left (h : ∀ key ∈ m', key ∈ m) : m ∪ m' = m := by
  refine ext_lookup fun key => ?_
  by_cases hk : key ∈ m
  · exact lookup_union_left hk
  · rw [lookup_union_right hk, lookup_eq_none.2 hk]
    exact lookup_eq_none.2 fun hk' => hk (h key hk')

/-- The maps that are looked up one after the other have the keys of both. -/
theorem mem_iff_of_lookup_eq_or {m₁ m₂ : Finmap β} {key : κ}
    (h : m.lookup key = (m₁.lookup key).or (m₂.lookup key)) : key ∈ m ↔ key ∈ m₁ ∨ key ∈ m₂ := by
  rw [← lookup_isSome, ← lookup_isSome, ← lookup_isSome, h, Option.isSome_or, Bool.or_eq_true]

/-! ## Restriction -/

section

variable (m) (p : κ → Prop) [DecidablePred p]

def filterKeys : Finmap β where
  entries := m.entries.filter fun e => p e.1
  nodupKeys := by
    rw [← Multiset.nodup_keys]
    refine Multiset.nodup_of_le ?_ (Multiset.nodup_keys.2 m.nodupKeys)
    exact Multiset.map_le_map (Multiset.filter_le _ _)

variable {m p}

theorem lookup_filterKeys_of_pos {key : κ} (h : p key) :
    (m.filterKeys p).lookup key = m.lookup key := by
  ext b
  rw [lookup_eq_some_iff, lookup_eq_some_iff, filterKeys, Multiset.mem_filter, and_iff_left h]

@[simp] theorem mem_filterKeys {key : κ} : key ∈ m.filterKeys p ↔ key ∈ m ∧ p key := by
  constructor
  · intro hk
    have hp : p key := by
      obtain ⟨b, hb⟩ := mem_iff.1 hk
      rw [lookup_eq_some_iff, filterKeys, Multiset.mem_filter] at hb
      exact hb.2
    rw [← lookup_isSome, lookup_filterKeys_of_pos hp, lookup_isSome] at hk
    exact ⟨hk, hp⟩
  · rintro ⟨hk, hp⟩
    rwa [← lookup_isSome, lookup_filterKeys_of_pos hp, lookup_isSome]

/-- Adding what is missing is adding everything. -/
theorem union_filterKeys_not_mem : m' ∪ m.filterKeys (fun key => key ∉ m') = m' ∪ m := by
  refine ext_lookup fun key => ?_
  by_cases hk : key ∈ m'
  · rw [lookup_union_left hk, lookup_union_left hk]
  · rw [lookup_union_right hk, lookup_union_right hk,
      lookup_filterKeys_of_pos (p := fun key => key ∉ m') hk]

/-- Of the keys that `m'` has, none are left that it does not have. -/
theorem union_filterKeys_of_free (hm : ∀ key ∈ m, key ∈ m')
    (hfree : ∀ key ∈ m.filterKeys p, key ∉ m') : m' ∪ m.filterKeys p = m' :=
  union_eq_left fun key hk => absurd (hm key (mem_filterKeys.1 hk).1) (hfree key hk)

theorem filterKeys_eq_empty (h : ∀ key ∈ m, ¬ p key) : m.filterKeys p = ∅ := by
  refine ext_lookup fun key => ?_
  rw [lookup_empty, lookup_eq_none, mem_filterKeys]
  exact fun hk => h key hk.1 hk.2

end

end Finmap
