import AranesLms.Lib.Transition
import Mathlib.Data.List.ReduceOption
import Mathlib.Logic.Function.Basic

/-!
# Requests in two steps

A request is answered by its `first` step, or goes on later with its `second` one, which knows what
the first has read.  The steps of any number of requests interleave.

`Current` is the condition that a second step does what the request would do if it were served now.
Runs in which every second step is current are linearizable (`linearizable`): the answers and the
store are those of the same requests served one at a time, each in the place of the step that
answers it (`order`).
-/

structure TwoStep (σ ρ π β : Type*) where
  first : σ → ρ → β × σ ⊕ π
  second : σ → π → β × σ

namespace TwoStep

variable {σ ρ π β : Type*} (P : TwoStep σ ρ π β)

/-- A request served at once. -/
def serve (s : σ) (r : ρ) : β × σ :=
  match P.first s r with
  | .inl result => result
  | .inr p => P.second s p

/-- The store, and the requests between their steps. -/
structure State (σ ρ π : Type*) where
  store : σ
  calls : ℕ → Option (ρ × π)

inductive Event (ρ : Type*) where
  | start (c : ℕ) (r : ρ)
  | finish (c : ℕ)

def init (store : σ) : State σ ρ π := ⟨store, fun _ => none⟩

def handle (s : State σ ρ π) : Event ρ → Option β × State σ ρ π
  | .start c r =>
    match s.calls c with
    | some _ => (none, s)
    | none =>
      match P.first s.store r with
      | .inl (answer, store) => (some answer, { s with store })
      | .inr p => (none, { s with calls := Function.update s.calls c (some (r, p)) })
  | .finish c =>
    match s.calls c with
    | some (_, p) =>
      (some (P.second s.store p).1, ⟨(P.second s.store p).2, Function.update s.calls c none⟩)
    | none => (none, s)

/-- A second step does what the request would do if it were served now. -/
def Current (s : State σ ρ π) : Event ρ → Prop
  | .start _ _ => True
  | .finish c => ∀ r p, s.calls c = some (r, p) → P.second s.store p = P.serve s.store r

/-- The request that a step answers. -/
def answers (s : State σ ρ π) : Event ρ → Option ρ
  | .start c r =>
    match s.calls c with
    | some _ => none
    | none =>
      match P.first s.store r with
      | .inl _ => some r
      | .inr _ => none
  | .finish c => (s.calls c).map Prod.fst

/-- The requests in the order of the steps that answer them. -/
def order : State σ ρ π → List (Event ρ) → List ρ
  | _, [] => []
  | s, e :: events => (P.answers s e).toList ++ order (P.handle s e).2 events

variable {P} {s : State σ ρ π}

/-- A step answers a request as if it were served now, or it answers none and leaves the store. -/
theorem handle_cases {e : Event ρ} (h : P.Current s e) :
    (∃ r, P.answers s e = some r ∧ (P.handle s e).1 = some (P.serve s.store r).1 ∧
      (P.handle s e).2.store = (P.serve s.store r).2) ∨
    (P.answers s e = none ∧ (P.handle s e).1 = none ∧ (P.handle s e).2.store = s.store) := by
  cases e with
  | start c r =>
    rw [answers, handle]
    cases s.calls c with
    | some call => exact Or.inr ⟨rfl, rfl, rfl⟩
    | none =>
      cases hfirst : P.first s.store r with
      | inl result =>
        refine Or.inl ⟨r, rfl, ?_, ?_⟩
        · rw [serve, hfirst]
        · rw [serve, hfirst]
      | inr p => exact Or.inr ⟨rfl, rfl, rfl⟩
  | finish c =>
    rw [answers, handle]
    cases hcall : s.calls c with
    | none => exact Or.inr ⟨rfl, rfl, rfl⟩
    | some call =>
      obtain ⟨r, p⟩ := call
      have hsecond := h r p hcall
      exact Or.inl ⟨r, rfl, congrArg (fun x => some x.1) hsecond, congrArg Prod.snd hsecond⟩

/-- What the first step makes sure of is so for every request between its steps. -/
theorem calls_handle {Q : ρ → π → Prop} (hfirst : ∀ store r p, P.first store r = .inr p → Q r p)
    (h : ∀ c r p, s.calls c = some (r, p) → Q r p) (e : Event ρ) :
    ∀ c r p, (P.handle s e).2.calls c = some (r, p) → Q r p := by
  have hupdate : ∀ {c : ℕ} {call : Option (ρ × π)}, (∀ r p, call = some (r, p) → Q r p) →
      ∀ c' r p, Function.update s.calls c call c' = some (r, p) → Q r p := by
    intro c call hcall c' r p hc'
    by_cases hne : c' = c
    · rw [hne, Function.update_self] at hc'
      exact hcall r p hc'
    · rw [Function.update_of_ne hne] at hc'
      exact h c' r p hc'
  cases e with
  | start c r =>
    rw [handle]
    split
    · exact h
    · split
      · exact h
      · rename_i p hp
        refine hupdate fun r' p' heq => ?_
        cases heq
        exact hfirst _ _ _ hp
  | finish c =>
    rw [handle]
    split
    · exact hupdate fun r' p' heq => by cases heq
    · exact h

theorem linearizable {events : List (Event ρ)}
    (h : Transition.Along (fun s e => (P.handle s e).2) P.Current s events) :
    (Transition.outputs P.handle s events).reduceOption =
        Transition.outputs P.serve s.store (P.order s events) ∧
      (Transition.runFrom (fun s e => (P.handle s e).2) s events).store =
        Transition.runFrom (fun s r => (P.serve s r).2) s.store (P.order s events) := by
  induction events generalizing s with
  | nil => exact ⟨rfl, rfl⟩
  | cons e events ih =>
    obtain ⟨houtputs, hstore⟩ := ih h.2
    rw [Transition.outputs, Transition.runFrom_cons, order]
    rcases handle_cases h.1 with ⟨r, hanswers, houtput, hserve⟩ | ⟨hanswers, houtput, hserve⟩
    · rw [hanswers, houtput, Option.toList_some, List.singleton_append, Transition.outputs,
        List.reduceOption_cons_of_some, houtputs, hserve, Transition.runFrom_cons, hstore, hserve]
      exact ⟨rfl, rfl⟩
    · rw [hanswers, houtput, Option.toList_none, List.nil_append, List.reduceOption_cons_of_none,
        houtputs, hstore, hserve]
      exact ⟨rfl, rfl⟩

end TwoStep
