import AranesLms.Lib.Table

/-!
# Tables with several unique columns

`UniqueTable cols` is a list of rows in which each of the columns `cols` is unique.  `insertAll`
adds rows in one statement, which the database accepts or rejects as a whole; `insertAll_eq_ok` says
when it does.
-/

variable {ρ κ : Type*}

/-- Rows in which every column of `cols` is unique. -/
structure UniqueTable (cols : List (ρ → κ)) where
  rows : List ρ
  nodup : ∀ col ∈ cols, (rows.map col).Nodup

namespace UniqueTable

variable {cols : List (ρ → κ)}

@[ext] theorem ext {t t' : UniqueTable cols} (h : t.rows = t'.rows) : t = t' := by
  cases t; cases t'; cases h; rfl

instance : EmptyCollection (UniqueTable cols) := ⟨⟨[], fun _ _ => List.nodup_nil⟩⟩

instance : Membership ρ (UniqueTable cols) := ⟨fun t r => r ∈ t.rows⟩

theorem mem_def {t : UniqueTable cols} {r : ρ} : r ∈ t ↔ r ∈ t.rows := Iff.rfl

theorem eq_of_col {t : UniqueTable cols} {col : ρ → κ} (hcol : col ∈ cols) {r r' : ρ} (hr : r ∈ t)
    (hr' : r' ∈ t) (h : col r = col r') : r = r' :=
  List.inj_on_of_nodup_map (t.nodup col hcol) hr hr' h

/-- The new rows differ from each other and from the old ones in every unique column. -/
def Insertable (t : UniqueTable cols) (new : List ρ) : Prop :=
  ∀ col ∈ cols, (new.map col).Nodup ∧ ∀ r ∈ new, ∀ x ∈ t, col x ≠ col r

theorem insertable_iff {t : UniqueTable cols} {new : List ρ} :
    t.Insertable new ↔ ∀ col ∈ cols, ((t.rows ++ new).map col).Nodup := by
  refine forall₂_congr fun col hcol => ?_
  rw [List.map_append, List.nodup_append, and_iff_right (t.nodup col hcol)]
  refine and_congr_right fun _ => ?_
  simp only [List.forall_mem_map]
  exact ⟨fun h x hx r hr => h r hr x hx, fun h r hr x hx => h x hx r hr⟩

section

variable [DecidableEq κ]

/-- `INSERT` of some rows. -/
def insertAll (t : UniqueTable cols) (new : List ρ) : Except Violation (UniqueTable cols) :=
  if h : ∀ col ∈ cols, ((t.rows ++ new).map col).Nodup then .ok ⟨t.rows ++ new, h⟩
  else .error .unique

theorem insertAll_eq_ok {t t' : UniqueTable cols} {new : List ρ} :
    t.insertAll new = .ok t' ↔ t.Insertable new ∧ t'.rows = t.rows ++ new := by
  rw [insertable_iff, insertAll]
  split_ifs with h
  · rw [and_iff_right h]
    constructor
    · rintro ⟨⟩
      rfl
    · intro hrows
      exact congrArg Except.ok (ext hrows.symm)
  · exact iff_of_false (by simp) fun h' => h h'.1

theorem exists_insertAll {t : UniqueTable cols} {new : List ρ} :
    (∃ t', t.insertAll new = .ok t') ↔ t.Insertable new := by
  constructor
  · rintro ⟨t', h⟩
    exact (insertAll_eq_ok.1 h).1
  · intro h
    exact ⟨⟨t.rows ++ new, insertable_iff.1 h⟩, insertAll_eq_ok.2 ⟨h, rfl⟩⟩

theorem insertAll_nil (t : UniqueTable cols) : t.insertAll [] = .ok t :=
  insertAll_eq_ok.2 ⟨fun _ _ => ⟨List.nodup_nil, fun _ h => absurd h List.not_mem_nil⟩,
    (List.append_nil _).symm⟩

/-- The rows with the value of a given one in a unique column. -/
theorem filter_col_eq (t : UniqueTable cols) {col : ρ → κ} (hcol : col ∈ cols) {r : ρ}
    (hr : r ∈ t) : (t.rows.filter fun r' => col r' = col r) = [r] := by
  have hnodup : (t.rows.filter fun r' => col r' = col r).Nodup :=
    (t.nodup col hcol).of_map.filter _
  refine List.perm_singleton.1 ((List.perm_ext_iff_of_nodup hnodup (List.nodup_singleton r)).2 ?_)
  intro r'
  rw [List.mem_filter, List.mem_singleton, decide_eq_true_eq]
  constructor
  · rintro ⟨hr', heq⟩
    exact eq_of_col hcol hr' hr heq
  · rintro rfl
    exact ⟨hr, rfl⟩

end

end UniqueTable
