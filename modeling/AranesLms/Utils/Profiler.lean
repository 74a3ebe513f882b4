import AranesLms.Lib.OrderedDict
import AranesLms.Lib.Transition
import Mathlib.Data.List.MinMax
import Mathlib.Order.Bounds.Basic

/-!
# The samples of the profiler

`_append_sample` of `src/utils/profiler.py` from a fresh state.  A sample is anything with a value
of `elapsed_ms` in a linear order.  When there are too many samples under a key, the first one is
removed that is neither the first of the least nor the first of the greatest (`removeIdx`); that is
one of the first three, so the newest sample stays as well (`trims_removeOne`).
`summarises_profile`: after any calls, the entry of a key says what was appended under it.
-/

namespace AranesLms

/-- `_MAX_SAMPLES_PER_KEY`. -/
def maxSamplesPerKey : ℕ := 100

section

variable {σ τ : Type} [LinearOrder τ] (elapsedMs : σ → τ)

/-! ## Trimming -/

/-- `min_idx`: the first index of a least sample. -/
def minIdx (samples : List σ) : Option (Fin samples.length) :=
  (List.finRange samples.length).argmin fun i => elapsedMs (samples.get i)

/-- `max_idx`: the first index of a greatest sample. -/
def maxIdx (samples : List σ) : Option (Fin samples.length) :=
  (List.finRange samples.length).argmax fun i => elapsedMs (samples.get i)

/-- The index is not one of the `protected`. -/
def Removable (samples : List σ) (i : Fin samples.length) : Prop :=
  some i ≠ minIdx elapsedMs samples ∧ some i ≠ maxIdx elapsedMs samples

instance (samples : List σ) : DecidablePred (Removable elapsedMs samples) :=
  fun _ => inferInstanceAs (Decidable (_ ∧ _))

def removeIdx (samples : List σ) : ℕ :=
  match (List.finRange samples.length).find? fun i => Removable elapsedMs samples i with
  | some i => i
  | none => 0

def removeOne (samples : List σ) : List σ := samples.eraseIdx (removeIdx elapsedMs samples)

theorem removeIdx_lt {samples : List σ} (h : 0 < samples.length) :
    removeIdx elapsedMs samples < samples.length := by
  rw [removeIdx]
  split
  · rename_i i _
    exact i.isLt
  · exact h

theorem length_removeOne {samples : List σ} (h : 0 < samples.length) :
    (removeOne elapsedMs samples).length = samples.length - 1 :=
  List.length_eraseIdx_of_lt (removeIdx_lt elapsedMs h)

def trimSamplesKeepExtremes (samples : List σ) : List σ :=
  if samples.length > maxSamplesPerKey then
    trimSamplesKeepExtremes (removeOne elapsedMs samples)
  else samples
termination_by samples.length
decreasing_by
  rename_i hlt
  have hpos : 0 < samples.length := lt_of_le_of_lt (Nat.zero_le _) hlt
  rw [length_removeOne elapsedMs hpos]
  omega

/-! ### What trimming keeps -/

/-- The values of `elapsed_ms` among the samples. -/
def elapsedValues (samples : List σ) : Set τ := { t | ∃ s ∈ samples, elapsedMs s = t }

/-- Samples are removed; the newest one stays, and so do a least and a greatest one. -/
structure Trims (samples samples' : List σ) : Prop where
  sublist : samples'.Sublist samples
  newest : samples'.getLast? = samples.getLast?
  least : ∀ t, IsLeast (elapsedValues elapsedMs samples) t → t ∈ elapsedValues elapsedMs samples'
  greatest : ∀ t, IsGreatest (elapsedValues elapsedMs samples) t →
    t ∈ elapsedValues elapsedMs samples'

variable {elapsedMs} {samples samples' samples'' : List σ}

omit [LinearOrder τ] in
theorem elapsedValues_subset (h : samples'.Sublist samples) :
    elapsedValues elapsedMs samples' ⊆ elapsedValues elapsedMs samples := by
  rintro t ⟨s, hs, ht⟩
  exact ⟨s, h.subset hs, ht⟩

theorem Trims.refl (samples : List σ) : Trims elapsedMs samples samples :=
  ⟨List.Sublist.refl _, rfl, fun _ ht => ht.1, fun _ ht => ht.1⟩

theorem Trims.trans (h : Trims elapsedMs samples samples')
    (h' : Trims elapsedMs samples' samples'') : Trims elapsedMs samples samples'' where
  sublist := h'.sublist.trans h.sublist
  newest := h'.newest.trans h.newest
  least t ht := h'.least t ⟨h.least t ht, fun _ hu => ht.2 (elapsedValues_subset h.sublist hu)⟩
  greatest t ht :=
    h'.greatest t ⟨h.greatest t ht, fun _ hu => ht.2 (elapsedValues_subset h.sublist hu)⟩

variable (elapsedMs)

/-- Two indices are protected, so one of the first three is not. -/
theorem exists_removable (h : 3 ≤ samples.length) :
    ∃ i : Fin samples.length, i.val < 3 ∧ Removable elapsedMs samples i := by
  by_contra hnone
  have hprotected : ∀ i : Fin samples.length, i.val < 3 →
      some i = minIdx elapsedMs samples ∨ some i = maxIdx elapsedMs samples := by
    intro i hi
    by_contra hboth
    rw [not_or] at hboth
    exact hnone ⟨i, hi, hboth⟩
  have h0 := hprotected ⟨0, by omega⟩ (by simp)
  have h1 := hprotected ⟨1, by omega⟩ (by simp)
  have h2 := hprotected ⟨2, by omega⟩ (by simp)
  grind

theorem removeIdx_spec (h : 3 ≤ samples.length) : ∃ i : Fin samples.length,
    removeIdx elapsedMs samples = i.val ∧ i.val < 3 ∧ Removable elapsedMs samples i := by
  obtain ⟨j, hj, hremovable⟩ := exists_removable elapsedMs h
  rw [removeIdx]
  cases hfind : (List.finRange samples.length).find? fun i => Removable elapsedMs samples i with
  | none =>
    have hnot := List.find?_eq_none.1 hfind j (List.mem_finRange j)
    exact absurd (decide_eq_true hremovable) hnot
  | some i =>
    refine ⟨i, rfl, ?_, of_decide_eq_true (List.find?_some hfind :)⟩
    obtain ⟨-, k, hk, hget, hbefore⟩ := List.find?_eq_some_iff_getElem.1 hfind
    rw [List.getElem_finRange] at hget
    obtain rfl : k = i.val := congrArg Fin.val hget
    -- nothing before the index that is found is removable
    by_contra hi
    have hnot := hbefore j.val (by omega)
    rw [List.getElem_finRange] at hnot
    exact absurd (decide_eq_true hremovable) (by simpa using hnot)

variable {elapsedMs} in
theorem mem_removeOne {i : Fin samples.length} (h : i.val ≠ removeIdx elapsedMs samples) :
    samples.get i ∈ removeOne elapsedMs samples :=
  List.mem_eraseIdx_iff_getElem.2 ⟨i.val, i.isLt, h, rfl⟩

theorem exists_argmax {n : ℕ} (hn : 0 < n) (f : Fin n → τ) :
    ∃ i, (List.finRange n).argmax f = some i ∧ ∀ j, f j ≤ f i := by
  cases hmax : (List.finRange n).argmax f with
  | none =>
    have hnil := List.argmax_eq_none.1 hmax
    rw [List.finRange_eq_nil_iff] at hnil
    omega
  | some i => exact ⟨i, rfl, fun j => List.le_of_mem_argmax (List.mem_finRange j) hmax⟩

theorem exists_maxIdx (h : 0 < samples.length) : ∃ i, maxIdx elapsedMs samples = some i ∧
    ∀ s ∈ samples, elapsedMs s ≤ elapsedMs (samples.get i) := by
  obtain ⟨i, hi, hle⟩ := exists_argmax h fun i => elapsedMs (samples.get i)
  refine ⟨i, hi, fun s hs => ?_⟩
  obtain ⟨j, rfl⟩ := List.get_of_mem hs
  exact hle j

/-- A least sample is a greatest one in the dual order. -/
theorem exists_minIdx (h : 0 < samples.length) : ∃ i, minIdx elapsedMs samples = some i ∧
    ∀ s ∈ samples, elapsedMs (samples.get i) ≤ elapsedMs s :=
  exists_maxIdx (fun s => OrderDual.toDual (elapsedMs s)) h

theorem trims_removeOne (h : 3 < samples.length) :
    Trims elapsedMs samples (removeOne elapsedMs samples) := by
  obtain ⟨i, hi, hlt, hmin, hmax⟩ := removeIdx_spec elapsedMs h.le
  have hpos : 0 < samples.length := lt_of_le_of_lt (Nat.zero_le _) h
  refine ⟨List.eraseIdx_sublist _ _, ?_, ?_, ?_⟩
  · rw [List.getLast?_eq_getElem?, length_removeOne elapsedMs hpos, removeOne, hi,
      List.getElem?_eraseIdx_of_ge (by omega), List.getLast?_eq_getElem?]
    congr 1
    omega
  · rintro t ⟨⟨s, hs, rfl⟩, hleast⟩
    obtain ⟨m, hm, hle⟩ := exists_minIdx elapsedMs hpos
    refine ⟨samples.get m, mem_removeOne fun heq => hmin ?_, ?_⟩
    · rw [hm, Fin.ext (heq.trans hi)]
    · exact le_antisymm (hle s hs) (hleast ⟨_, List.get_mem samples m, rfl⟩)
  · rintro t ⟨⟨s, hs, rfl⟩, hgreatest⟩
    obtain ⟨m, hm, hle⟩ := exists_maxIdx elapsedMs hpos
    refine ⟨samples.get m, mem_removeOne fun heq => hmax ?_, ?_⟩
    · rw [hm, Fin.ext (heq.trans hi)]
    · exact le_antisymm (hgreatest ⟨_, List.get_mem samples m, rfl⟩) (hle s hs)

theorem trims_trimSamplesKeepExtremes (samples : List σ) :
    Trims elapsedMs samples (trimSamplesKeepExtremes elapsedMs samples) := by
  fun_induction trimSamplesKeepExtremes with
  | case1 samples hlt ih => exact (trims_removeOne elapsedMs (lt_trans (by decide) hlt)).trans ih
  | case2 samples hle => exact Trims.refl samples

theorem length_trimSamplesKeepExtremes (samples : List σ) :
    (trimSamplesKeepExtremes elapsedMs samples).length ≤ maxSamplesPerKey := by
  fun_induction trimSamplesKeepExtremes with
  | case1 samples hlt ih => exact ih
  | case2 samples hle => exact not_lt.1 hle

theorem trimSamplesKeepExtremes_of_le (h : samples.length ≤ maxSamplesPerKey) :
    trimSamplesKeepExtremes elapsedMs samples = samples := by
  rw [trimSamplesKeepExtremes, if_neg (not_lt.2 h)]

/-! ## Entries -/

structure ProfileEntry (σ τ : Type) where
  kind : String
  uniqueKey : String
  count : ℕ
  fastestMs : τ
  slowestMs : τ
  samples : List σ

/-- The entry that is made for a key that has none. -/
def newEntry (uniqueKey kind : String) (sample : σ) : ProfileEntry σ τ where
  kind := kind
  uniqueKey := uniqueKey
  count := 0
  fastestMs := elapsedMs sample
  slowestMs := elapsedMs sample
  samples := []

namespace ProfileEntry

def append (entry : ProfileEntry σ τ) (sample : σ) : ProfileEntry σ τ :=
  { entry with
    count := entry.count + 1
    fastestMs := min entry.fastestMs (elapsedMs sample)
    slowestMs := max entry.slowestMs (elapsedMs sample)
    samples := trimSamplesKeepExtremes elapsedMs (entry.samples ++ [sample]) }

/-- The entry says what has been appended under its key. -/
structure Summarises (appended : List σ) (entry : ProfileEntry σ τ) : Prop where
  count : entry.count = appended.length
  sublist : entry.samples.Sublist appended
  bounded : entry.samples.length ≤ maxSamplesPerKey
  all : appended.length ≤ maxSamplesPerKey → entry.samples = appended
  newest : entry.samples.getLast? = appended.getLast?
  fastest : IsLeast (elapsedValues elapsedMs appended) entry.fastestMs
  slowest : IsGreatest (elapsedValues elapsedMs appended) entry.slowestMs
  fastest_mem : entry.fastestMs ∈ elapsedValues elapsedMs entry.samples
  slowest_mem : entry.slowestMs ∈ elapsedValues elapsedMs entry.samples

variable {elapsedMs} {appended : List σ} {entry : ProfileEntry σ τ}

omit [LinearOrder τ] in
theorem elapsedValues_append (sample : σ) : elapsedValues elapsedMs (appended ++ [sample]) =
    insert (elapsedMs sample) (elapsedValues elapsedMs appended) := by
  ext t
  constructor
  · rintro ⟨s, hs, ht⟩
    rcases List.mem_append.1 hs with hs | hs
    · exact Or.inr ⟨s, hs, ht⟩
    · rw [List.mem_singleton.1 hs] at ht
      exact Or.inl ht.symm
  · rintro (rfl | ⟨s, hs, ht⟩)
    · exact ⟨sample, List.mem_append_right _ (List.mem_singleton_self sample), rfl⟩
    · exact ⟨s, List.mem_append_left _ hs, ht⟩

theorem summarises_newEntry (uniqueKey kind : String) (sample : σ) :
    Summarises elapsedMs [sample] ((newEntry elapsedMs uniqueKey kind sample).append elapsedMs
      sample) := by
  have hsamples : trimSamplesKeepExtremes elapsedMs ([] ++ [sample]) = [sample] :=
    trimSamplesKeepExtremes_of_le elapsedMs (by decide : 1 ≤ 100)
  have hmem : elapsedMs sample ∈ elapsedValues elapsedMs [sample] :=
    ⟨sample, List.mem_singleton_self sample, rfl⟩
  have heq : ∀ t ∈ elapsedValues elapsedMs [sample], t = elapsedMs sample := by
    rintro t ⟨s, hs, rfl⟩
    rw [List.mem_singleton.1 hs]
  simp only [ProfileEntry.append, newEntry, hsamples, min_self, max_self]
  exact ⟨rfl, List.Sublist.refl _, (by decide : 1 ≤ 100), fun _ => rfl, rfl,
    ⟨hmem, fun t ht => (heq t ht).ge⟩, ⟨hmem, fun t ht => (heq t ht).le⟩, hmem, hmem⟩

theorem Summarises.append (h : Summarises elapsedMs appended entry) (sample : σ) :
    Summarises elapsedMs (appended ++ [sample]) (entry.append elapsedMs sample) := by
  have hsub : (entry.samples ++ [sample]).Sublist (appended ++ [sample]) :=
    h.sublist.append (List.Sublist.refl _)
  have htrims := trims_trimSamplesKeepExtremes elapsedMs (entry.samples ++ [sample])
  have hfastest : IsLeast (elapsedValues elapsedMs (appended ++ [sample]))
      (min entry.fastestMs (elapsedMs sample)) := by
    rw [elapsedValues_append, min_comm]
    exact h.fastest.insert _
  have hslowest : IsGreatest (elapsedValues elapsedMs (appended ++ [sample]))
      (max entry.slowestMs (elapsedMs sample)) := by
    rw [elapsedValues_append, max_comm]
    exact h.slowest.insert _
  have hfastest_mem : min entry.fastestMs (elapsedMs sample) ∈
      elapsedValues elapsedMs (entry.samples ++ [sample]) := by
    rw [elapsedValues_append]
    rcases min_choice entry.fastestMs (elapsedMs sample) with hmin | hmin
    · rw [hmin]
      exact Set.mem_insert_of_mem _ h.fastest_mem
    · rw [hmin]
      exact Set.mem_insert _ _
  have hslowest_mem : max entry.slowestMs (elapsedMs sample) ∈
      elapsedValues elapsedMs (entry.samples ++ [sample]) := by
    rw [elapsedValues_append]
    rcases max_choice entry.slowestMs (elapsedMs sample) with hmax | hmax
    · rw [hmax]
      exact Set.mem_insert_of_mem _ h.slowest_mem
    · rw [hmax]
      exact Set.mem_insert _ _
  constructor
  · show entry.count + 1 = _
    rw [h.count, List.length_append, List.length_singleton]
  · exact htrims.sublist.trans hsub
  · exact length_trimSamplesKeepExtremes elapsedMs _
  · intro hle
    rw [List.length_append, List.length_singleton] at hle
    show trimSamplesKeepExtremes elapsedMs (entry.samples ++ [sample]) = _
    rw [h.all (by omega), trimSamplesKeepExtremes_of_le elapsedMs]
    rwa [List.length_append, List.length_singleton]
  · rw [List.getLast?_concat]
    exact htrims.newest.trans List.getLast?_concat
  · exact hfastest
  · exact hslowest
  · exact htrims.least _ ⟨hfastest_mem, fun t ht => hfastest.2 (elapsedValues_subset hsub ht)⟩
  · exact htrims.greatest _ ⟨hslowest_mem, fun t ht => hslowest.2 (elapsedValues_subset hsub ht)⟩

end ProfileEntry

/-! ## Every run -/

/-- A call of `_append_sample`, and what `is_profiling_enabled` gives for it. -/
structure SampleCall (σ : Type) where
  enabled : Bool
  uniqueKey : String
  kind : String
  sample : σ

/-- `_STATE["entries"]`. -/
abbrev ProfileEntries (σ τ : Type) := OrderedDict String (ProfileEntry σ τ)

def appendSample (entries : ProfileEntries σ τ) (call : SampleCall σ) : ProfileEntries σ τ :=
  if ¬ call.enabled then entries
  else
    let entry := match entries.get? call.uniqueKey with
      | some entry => entry
      | none => newEntry elapsedMs call.uniqueKey call.kind call.sample
    entries.set call.uniqueKey (entry.append elapsedMs call.sample)

/-- The entries after the calls, from a fresh state. -/
def profile (calls : List (SampleCall σ)) : ProfileEntries σ τ :=
  Transition.runFrom (appendSample elapsedMs) ∅ calls

/-- The samples that the calls append under a key. -/
def appendedSamples (calls : List (SampleCall σ)) (key : String) : List σ :=
  (calls.filter fun call => call.enabled ∧ call.uniqueKey = key).map SampleCall.sample

/-- What there is under a key after samples have been appended under it. -/
def Reports (appended : List σ) : Option (ProfileEntry σ τ) → Prop
  | none => appended = []
  | some entry => entry.Summarises elapsedMs appended

theorem reports_appendSample {entries : ProfileEntries σ τ} {calls : List (SampleCall σ)}
    (h : ∀ key, Reports elapsedMs (appendedSamples calls key) (entries.get? key))
    (call : SampleCall σ) (key : String) :
    Reports elapsedMs (appendedSamples (calls ++ [call]) key)
      ((appendSample elapsedMs entries call).get? key) := by
  have happended : appendedSamples (calls ++ [call]) key = appendedSamples calls key ++
      if call.enabled ∧ call.uniqueKey = key then [call.sample] else [] := by
    rw [appendedSamples, List.filter_append, List.map_append, appendedSamples]
    congr 1
    split_ifs with hcall
    · simp [hcall]
    · simpa using hcall
  rw [happended, appendSample]
  by_cases henabled : call.enabled
  · rw [if_neg (not_not.2 henabled)]
    by_cases hkey : call.uniqueKey = key
    · subst hkey
      have hbefore := h call.uniqueKey
      dsimp only
      rw [if_pos ⟨henabled, rfl⟩, OrderedDict.get?_set_self]
      cases hget : entries.get? call.uniqueKey with
      | none =>
        rw [hget] at hbefore
        rw [show appendedSamples calls call.uniqueKey = [] from hbefore]
        exact ProfileEntry.summarises_newEntry call.uniqueKey call.kind call.sample
      | some entry =>
        rw [hget] at hbefore
        exact ProfileEntry.Summarises.append hbefore call.sample
    · rw [if_neg (fun hcall => hkey hcall.2), List.append_nil,
        OrderedDict.get?_set_of_ne _ (Ne.symm hkey)]
      exact h key
  · rw [if_pos henabled, if_neg (fun hcall => henabled hcall.1), List.append_nil]
    exact h key

theorem summarises_profile (calls : List (SampleCall σ)) (key : String) :
    Reports elapsedMs (appendedSamples calls key) ((profile elapsedMs calls).get? key) := by
  induction calls using List.reverseRecOn generalizing key with
  | nil => exact rfl
  | append_singleton calls call ih =>
    rw [profile, Transition.runFrom_append]
    exact reports_appendSample elapsedMs ih call key

end

end AranesLms
