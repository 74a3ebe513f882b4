import Mathlib.Data.Finset.Card
import Mathlib.Tactic.Common

/-!
# Buckets that limit a rate

A bucket is asked about one item after the other and admits it or not; time passes in between.
`Serves` relates its state to the times at which it has admitted items, and a bucket keeps to a
rate if no window of the rate's interval has more of these times than the limit (`Bounded`).  What
matters to a caller is `Bounded.card_le`: items that are found in the log of one bucket are no more
than the limit in every window.  `slidingLog` is the bucket that keeps the times of what it has
admitted.
-/

structure Rate where
  limit : ℕ
  interval : ℕ

/-- The time lies in the window that begins at `start`. -/
def Rate.InWindow (rate : Rate) (start time : ℕ) : Prop :=
  start ≤ time ∧ time < start + rate.interval

instance Rate.decidableInWindow (rate : Rate) (start : ℕ) : DecidablePred (rate.InWindow start) :=
  fun _ => inferInstanceAs (Decidable (_ ∧ _))

/-- A bucket: `put rate now` says whether an item is admitted at the time `now`. -/
structure RateBucket where
  State : Type
  empty : State
  put : Rate → ℕ → State → Bool × State

namespace RateBucket

variable (b : RateBucket) (rate : Rate)

/-- At the time `now` the bucket is in the state and has admitted items at the listed times. -/
inductive Serves : ℕ → b.State → List ℕ → Prop
  | empty (now : ℕ) : Serves now b.empty []
  | wait {now later : ℕ} {st : b.State} {times : List ℕ} (h : Serves now st times)
      (hle : now ≤ later) : Serves later st times
  | accept {now : ℕ} {st : b.State} {times : List ℕ} (h : Serves now st times)
      (hput : (b.put rate now st).1 = true) : Serves now (b.put rate now st).2 (now :: times)
  | refuse {now : ℕ} {st : b.State} {times : List ℕ} (h : Serves now st times)
      (hput : (b.put rate now st).1 = false) : Serves now (b.put rate now st).2 times

/-- No window has more admitted items than the limit. -/
def Bounded : Prop :=
  ∀ (now : ℕ) (st : b.State) (times : List ℕ), b.Serves rate now st times →
    ∀ start, (times.filter (rate.InWindow start)).length ≤ rate.limit

variable {b rate}

/-- Items that the log of one bucket lists with times in one window are no more than the limit. -/
theorem Bounded.card_le {α : Type*} [DecidableEq α] (hb : b.Bounded rate) {now : ℕ} {st : b.State}
    {log : List (α × ℕ)} (h : b.Serves rate now st (log.map Prod.snd)) {start : ℕ} {s : Finset α}
    (hs : ∀ a ∈ s, ∃ time, (a, time) ∈ log ∧ rate.InWindow start time) : s.card ≤ rate.limit := by
  let inWindow := log.filter fun e => rate.InWindow start e.2
  have hsub : s ⊆ (inWindow.map Prod.fst).toFinset := by
    intro a ha
    obtain ⟨time, hmem, ht⟩ := hs a ha
    rw [List.mem_toFinset, List.mem_map]
    exact ⟨(a, time), List.mem_filter.2 ⟨hmem, decide_eq_true ht⟩, rfl⟩
  have hlength : inWindow.length = ((log.map Prod.snd).filter (rate.InWindow start)).length := by
    rw [List.filter_map, List.length_map]
    rfl
  calc s.card ≤ (inWindow.map Prod.fst).toFinset.card := Finset.card_le_card hsub
    _ ≤ (inWindow.map Prod.fst).length := List.toFinset_card_le _
    _ = ((log.map Prod.snd).filter (rate.InWindow start)).length := by
      rw [List.length_map, hlength]
    _ ≤ rate.limit := hb now st _ h start

/-! ## The sliding log -/

/-- An item is admitted if fewer than the limit have been admitted at most an interval back. -/
def slidingPut (rate : Rate) (now : ℕ) (times : List ℕ) : Bool × List ℕ :=
  if (times.filter fun time => now ≤ time + rate.interval).length < rate.limit then
    (true, now :: times)
  else (false, times)

/-- The bucket whose state lists the times of the admitted items. -/
def slidingLog : RateBucket := ⟨List ℕ, [], slidingPut⟩

theorem slidingPut_admits {rate : Rate} {now : ℕ} {times : List ℕ}
    (h : (slidingPut rate now times).1 = true) :
    (times.filter fun time => now ≤ time + rate.interval).length < rate.limit ∧
      (slidingPut rate now times).2 = now :: times := by
  unfold slidingPut at h ⊢
  split_ifs at h ⊢ with hroom
  exact ⟨hroom, rfl⟩

theorem slidingPut_refuses {rate : Rate} {now : ℕ} {times : List ℕ}
    (h : (slidingPut rate now times).1 = false) : (slidingPut rate now times).2 = times := by
  unfold slidingPut at h ⊢
  split_ifs at h ⊢
  rfl

/-- The state of a sliding log is its log. -/
theorem slidingLog_state {rate : Rate} {now : ℕ} {st : slidingLog.State} {times : List ℕ}
    (h : slidingLog.Serves rate now st times) : times = st := by
  induction h with
  | empty => rfl
  | wait _ _ ih => exact ih
  | accept _ hput ih =>
    rw [ih]
    exact (slidingPut_admits hput).2.symm
  | refuse _ hput ih =>
    rw [ih]
    exact (slidingPut_refuses hput).symm

theorem slidingLog_bounded (rate : Rate) : slidingLog.Bounded rate := by
  intro now st times h start
  induction h with
  | empty => exact Nat.zero_le _
  | wait _ _ ih => exact ih
  | refuse _ _ ih => exact ih
  | @accept now st times h hput ih =>
    obtain rfl := slidingLog_state h
    by_cases hnow : rate.InWindow start now
    swap
    · rwa [List.filter_cons_of_neg (by simpa using hnow)]
    -- whatever else lies in the window of `now` is at most an interval back
    have hroom := (slidingPut_admits hput).1
    have hback : (times.filter (rate.InWindow start)).length ≤
        (times.filter fun time => now ≤ time + rate.interval).length := by
      refine (List.monotone_filter_right times fun time ht => ?_).length_le
      obtain ⟨hle, -⟩ : rate.InWindow start time := of_decide_eq_true ht
      have hlt := hnow.2
      exact decide_eq_true (by omega)
    rw [List.filter_cons_of_pos (by simpa using hnow), List.length_cons]
    omega

end RateBucket
