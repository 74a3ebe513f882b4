import Mathlib.Data.List.Nodup
import Mathlib.Logic.Function.Basic
import AranesLms.Lib.Transition

/-!
# Requests that read and then write

A store serves requests in two steps: `read` computes from the present content what is to be
written, and `write`, later, writes it.  The steps of any number of requests interleave.  A write
that is `idle` leaves the store alone.

`Validated` is the condition that a write is still what the request would write if it read again
now.  Runs in which every effective write is validated are serializable (`serializable`): the
store is what the successful requests lead to when they run one after the other.  In that order
an effective request stands where it has written, an idle one where it has read.
-/

/-- The two steps of a request; `none` is a failure. -/
structure ReadModifyWrite (σ ρ π : Type*) where
  read : σ → ρ → Option π
  write : π → σ → Option σ
  idle : π → Prop
  write_idle : ∀ p s, idle p → write p s = some s

namespace ReadModifyWrite

variable {σ ρ π : Type*} (P : ReadModifyWrite σ ρ π)

/-- The progress of a request. -/
inductive Call (ρ π : Type*) where
  | fresh
  | pending (r : ρ) (p : π)
  | done (r : ρ)
  | failed
  deriving DecidableEq

structure State (σ ρ π : Type*) where
  store : σ
  calls : ℕ → Call ρ π

inductive Event (ρ : Type*) where
  | read (c : ℕ) (r : ρ)
  | write (c : ℕ)

/-- The call that takes the step. -/
def Event.call : Event ρ → ℕ
  | .read c _ => c
  | .write c => c

namespace State

variable (s : State σ ρ π)

def setCall (c : ℕ) (x : Call ρ π) : State σ ρ π :=
  { s with calls := Function.update s.calls c x }

@[simp] theorem setCall_self (c : ℕ) (x : Call ρ π) : (s.setCall c x).calls c = x :=
  Function.update_self _ _ _

theorem setCall_of_ne {c c' : ℕ} (h : c' ≠ c) (x : Call ρ π) :
    (s.setCall c x).calls c' = s.calls c' :=
  Function.update_of_ne h _ _

end State

/-- The state before the first request. -/
def start (store : σ) : State σ ρ π := ⟨store, fun _ => .fresh⟩

def step (s : State σ ρ π) : Event ρ → State σ ρ π
  | .read c r =>
    match s.calls c with
    | .fresh =>
      match P.read s.store r with
      | some p => s.setCall c (.pending r p)
      | none => s.setCall c .failed
    | _ => s
  | .write c =>
    match s.calls c with
    | .pending r p =>
      match P.write p s.store with
      | some store => { s with store }.setCall c (.done r)
      | none => s.setCall c .failed
    | _ => s

variable {P} in
/-- A step leaves the other calls alone. -/
theorem step_calls_of_ne {s : State σ ρ π} {e : Event ρ} {c : ℕ} (h : c ≠ e.call) :
    (P.step s e).calls c = s.calls c := by
  cases e with
  | read c' r =>
    unfold step
    dsimp only
    split
    · split
      · exact s.setCall_of_ne h _
      · exact s.setCall_of_ne h _
    · rfl
  | write c' =>
    unfold step
    dsimp only
    split
    · split
      · exact State.setCall_of_ne _ h _
      · exact s.setCall_of_ne h _
    · rfl

variable {P} in
theorem runFrom_calls_of_ne {s : State σ ρ π} {events : List (Event ρ)} {c : ℕ}
    (h : ∀ e ∈ events, c ≠ e.call) :
    (Transition.runFrom P.step s events).calls c = s.calls c := by
  induction events generalizing s with
  | nil => rfl
  | cons e events ih =>
    rw [Transition.runFrom_cons, ih fun e' he' => h e' (List.mem_cons_of_mem e he')]
    exact step_calls_of_ne (h e List.mem_cons_self)

/-- A request served at once. -/
def serve (s : σ) (r : ρ) : Option σ := (P.read s r).bind fun p => P.write p s

/-- Requests served one after the other, all of them with success. -/
def serial : σ → List ρ → Option σ
  | s, [] => some s
  | s, r :: rs => (P.serve s r).bind fun s' => serial s' rs

/-- An effective write that succeeds is what the request would write if it read again. -/
def Validated (s : State σ ρ π) : Event ρ → Prop
  | .read .. => True
  | .write c => ∀ r p, s.calls c = .pending r p → ¬ P.idle p → (P.write p s.store).isSome →
      P.read s.store r = some p

/-! ## Serial order -/

/-- A place in the serial order: the number of the call, the request, and whether it is idle. -/
structure Entry (ρ : Type*) where
  call : ℕ
  request : ρ
  idle : Bool

/-- The entries lead from `s` to `s'`, and the idle ones change nothing. -/
def Replays : σ → List (Entry ρ) → σ → Prop
  | s, [], s' => s = s'
  | s, e :: l, s' => ∃ s₁, P.serve s e.request = some s₁ ∧ (e.idle → s₁ = s) ∧ Replays s₁ l s'

variable {P}

theorem Replays.append {s s' s'' : σ} {l l' : List (Entry ρ)} (h : P.Replays s l s')
    (h' : P.Replays s' l' s'') : P.Replays s (l ++ l') s'' := by
  induction l generalizing s with
  | nil =>
    obtain rfl : s = s' := h
    exact h'
  | cons e l ih =>
    obtain ⟨s₁, hserve, hidle, h⟩ := h
    exact ⟨s₁, hserve, hidle, ih h⟩

theorem Replays.serial {s s' : σ} {l : List (Entry ρ)} (h : P.Replays s l s') :
    P.serial s (l.map Entry.request) = some s' := by
  induction l generalizing s with
  | nil => exact congrArg some h
  | cons e l ih =>
    obtain ⟨s₁, hserve, -, h⟩ := h
    rw [List.map_cons, ReadModifyWrite.serial, hserve]
    exact ih h

/-- Idle entries can be left out. -/
theorem Replays.filter {s s' : σ} {l : List (Entry ρ)} (h : P.Replays s l s') {p : Entry ρ → Bool}
    (hp : ∀ e ∈ l, p e = false → e.idle) : P.Replays s (l.filter p) s' := by
  induction l generalizing s with
  | nil => exact h
  | cons e l ih =>
    obtain ⟨s₁, hserve, hidle, h⟩ := h
    have hrest := ih h fun e' he' => hp e' (List.mem_cons_of_mem e he')
    cases hpe : p e with
    | true =>
      rw [List.filter_cons_of_pos hpe]
      exact ⟨s₁, hserve, hidle, hrest⟩
    | false =>
      rw [List.filter_cons_of_neg (by rw [hpe]; exact Bool.false_ne_true)]
      rwa [hidle (hp e List.mem_cons_self hpe)] at hrest

/-! ## The order of a run -/

variable (P)

/-- The order `l` explains the state: its entries are the successful requests and the idle ones
that have read. -/
structure Explains (store : σ) (s : State σ ρ π) (l : List (Entry ρ)) : Prop where
  replays : P.Replays store l s.store
  nodup : (l.map Entry.call).Nodup
  entry : ∀ e ∈ l, s.calls e.call = .done e.request ∨
    e.idle ∧ ∃ p, s.calls e.call = .pending e.request p ∧ P.idle p
  done : ∀ c r, s.calls c = .done r → ∃ b, ⟨c, r, b⟩ ∈ l
  pending : ∀ c r p, s.calls c = .pending r p → P.idle p → ⟨c, r, true⟩ ∈ l

variable {P}

namespace Explains

variable {store : σ} {s : State σ ρ π} {l : List (Entry ρ)}

theorem start (store : σ) : P.Explains store (start store) [] :=
  ⟨rfl, List.nodup_nil, nofun, nofun, nofun⟩

/-- A call that is neither done nor idle has no entry. -/
theorem notMem (h : P.Explains store s l) {c : ℕ} (hdone : ∀ r, s.calls c ≠ .done r)
    (hpending : ∀ r p, s.calls c = .pending r p → ¬ P.idle p) : c ∉ l.map Entry.call := by
  intro hc
  obtain ⟨e, he, rfl⟩ := List.mem_map.1 hc
  rcases h.entry e he with hd | ⟨-, p, hp, hidle⟩
  · exact hdone _ hd
  · exact hpending _ p hp hidle

/-- A call without an entry gets a status that needs none. -/
theorem update (h : P.Explains store s l) {c : ℕ} (hc : c ∉ l.map Entry.call) {x : Call ρ π}
    (hdone : ∀ r, x ≠ .done r) (hpending : ∀ r p, x = .pending r p → ¬ P.idle p) :
    P.Explains store (s.setCall c x) l := by
  refine ⟨h.replays, h.nodup, fun e he => ?_, fun c' r hc' => ?_, fun c' r p hc' hidle => ?_⟩
  · have hne : e.call ≠ c := fun heq => hc (heq ▸ List.mem_map_of_mem he)
    rw [s.setCall_of_ne hne]
    exact h.entry e he
  · by_cases hne : c' = c
    · rw [hne, s.setCall_self] at hc'
      exact absurd hc' (hdone r)
    · rw [s.setCall_of_ne hne] at hc'
      exact h.done c' r hc'
  · by_cases hne : c' = c
    · rw [hne, s.setCall_self] at hc'
      exact absurd hidle (hpending r p hc')
    · rw [s.setCall_of_ne hne] at hc'
      exact h.pending c' r p hc' hidle

/-- A call without an entry takes effect and gets one, at the end. -/
theorem append (h : P.Explains store s l) {c : ℕ} (hc : c ∉ l.map Entry.call) {r : ρ} {s' : σ}
    (hserve : P.serve s.store r = some s') {b : Bool} (hb : b → s' = s.store) {x : Call ρ π}
    (hx : x = .done r ∨ b ∧ ∃ p, x = .pending r p ∧ P.idle p) :
    P.Explains store ({ s with store := s' }.setCall c x) (l ++ [⟨c, r, b⟩]) := by
  have hother : ∀ {c'}, c' ≠ c → ({ s with store := s' }.setCall c x).calls c' = s.calls c' :=
    fun hne => State.setCall_of_ne _ hne x
  refine ⟨h.replays.append ⟨s', hserve, hb, rfl⟩, ?_, fun e he => ?_, fun c' r' hc' => ?_,
    fun c' r' p hc' hidle => ?_⟩
  · rw [List.map_append, List.nodup_append']
    refine ⟨h.nodup, by simp, fun c' hc' hmem => ?_⟩
    obtain rfl : c' = c := by simpa using hmem
    exact hc hc'
  · rcases List.mem_append.1 he with he | he
    · have hne : e.call ≠ c := fun heq => hc (heq ▸ List.mem_map_of_mem he)
      rw [hother hne]
      exact h.entry e he
    · obtain rfl := List.mem_singleton.1 he
      rw [State.setCall_self]
      exact hx
  · by_cases hne : c' = c
    · rw [hne, State.setCall_self] at hc'
      rcases hx with rfl | ⟨-, p, rfl, -⟩
      · cases hc'
        exact ⟨b, hne ▸ List.mem_append_right l (List.mem_singleton_self _)⟩
      · cases hc'
    · obtain ⟨b', hb'⟩ := h.done c' r' (hother hne ▸ hc')
      exact ⟨b', List.mem_append_left _ hb'⟩
  · by_cases hne : c' = c
    · rw [hne, State.setCall_self] at hc'
      rcases hx with rfl | ⟨rfl, q, rfl, -⟩
      · cases hc'
      · cases hc'
        exact hne ▸ List.mem_append_right l (List.mem_singleton_self _)
    · exact List.mem_append_left _ (h.pending c' r' p (hother hne ▸ hc') hidle)

/-- An idle call that has its entry is done. -/
theorem finish (h : P.Explains store s l) {c : ℕ} {r : ρ} {p : π}
    (hc : s.calls c = .pending r p) (hidle : P.idle p) :
    P.Explains store (s.setCall c (.done r)) l := by
  refine ⟨h.replays, h.nodup, fun e he => ?_, fun c' r' hc' => ?_, fun c' r' q hc' hq => ?_⟩
  · by_cases hne : e.call = c
    · have hentry := h.entry e he
      rw [hne, hc] at hentry
      rw [hne, s.setCall_self]
      rcases hentry with hd | ⟨-, q, hq, -⟩
      · cases hd
      · cases hq
        exact Or.inl rfl
    · rw [s.setCall_of_ne hne]
      exact h.entry e he
  · by_cases hne : c' = c
    · rw [hne, s.setCall_self] at hc'
      cases hc'
      exact ⟨true, hne ▸ h.pending c r p hc hidle⟩
    · rw [s.setCall_of_ne hne] at hc'
      exact h.done c' r' hc'
  · by_cases hne : c' = c
    · rw [hne, s.setCall_self] at hc'
      cases hc'
    · rw [s.setCall_of_ne hne] at hc'
      exact h.pending c' r' q hc' hq

theorem read (h : P.Explains store s l) (c : ℕ) (r : ρ) :
    ∃ l', P.Explains store (P.step s (.read c r)) l' := by
  cases hc : s.calls c with
  | pending r' p => exact ⟨l, by simpa only [step, hc] using h⟩
  | done r' => exact ⟨l, by simpa only [step, hc] using h⟩
  | failed => exact ⟨l, by simpa only [step, hc] using h⟩
  | fresh =>
    have hnot := h.notMem (c := c) (by simp [hc]) (by simp [hc])
    cases hread : P.read s.store r with
    | none =>
      simp only [step, hc, hread]
      exact ⟨l, h.update hnot nofun nofun⟩
    | some p =>
      simp only [step, hc, hread]
      by_cases hidle : P.idle p
      · have hserve : P.serve s.store r = some s.store := by
          rw [serve, hread]
          exact P.write_idle p s.store hidle
        exact ⟨_, h.append hnot hserve (b := true) (fun _ => rfl) (Or.inr ⟨rfl, p, rfl, hidle⟩)⟩
      · refine ⟨l, h.update hnot nofun ?_⟩
        intro r' p' hp'
        cases hp'
        exact hidle

theorem write (h : P.Explains store s l) {c : ℕ} (hvalid : P.Validated s (.write c)) :
    ∃ l', P.Explains store (P.step s (.write c)) l' := by
  cases hc : s.calls c with
  | fresh => exact ⟨l, by simpa only [step, hc] using h⟩
  | done r' => exact ⟨l, by simpa only [step, hc] using h⟩
  | failed => exact ⟨l, by simpa only [step, hc] using h⟩
  | pending r p =>
    by_cases hidle : P.idle p
    · simp only [step, hc, P.write_idle p s.store hidle]
      exact ⟨l, h.finish hc hidle⟩
    · have hnot : c ∉ l.map Entry.call := by
        refine h.notMem (by simp [hc]) fun r' p' hc' => ?_
        rw [hc] at hc'
        cases hc'
        exact hidle
      cases hwrite : P.write p s.store with
      | none =>
        simp only [step, hc, hwrite]
        exact ⟨l, h.update hnot (fun _ => nofun) fun _ _ => nofun⟩
      | some s' =>
        have hserve : P.serve s.store r = some s' := by
          rw [serve, hvalid r p hc hidle (by rw [hwrite]; rfl)]
          exact hwrite
        simp only [step, hc, hwrite]
        exact ⟨_, h.append hnot hserve (b := false) nofun (Or.inl rfl)⟩

end Explains

variable (P)

/-- The run has the outcome of a serial one: its successful requests, each once, lead one after
the other to the store of the run. -/
def Serializable (store : σ) (events : List (Event ρ)) : Prop :=
  let s := Transition.runFrom P.step (start store) events
  ∃ l : List (ℕ × ρ), (l.map Prod.fst).Nodup ∧ (∀ c r, (c, r) ∈ l ↔ s.calls c = .done r) ∧
    P.serial store (l.map Prod.snd) = some s.store

variable {P}

/-- A run whose effective writes are validated is serializable. -/
theorem serializable {store : σ} {events : List (Event ρ)}
    (h : Transition.Along P.step P.Validated (start store) events) :
    P.Serializable store events := by
  obtain ⟨l, hl⟩ := h.runFrom_induct (P := fun s => ∃ l, P.Explains store s l)
    (fun s e ⟨l, hl⟩ he => by
      cases e with
      | read c r => exact hl.read c r
      | write c => exact hl.write he) ⟨[], Explains.start store⟩
  unfold Serializable
  generalize Transition.runFrom P.step (start store) events = s at hl ⊢
  -- the idle requests that have read but are not done are left out
  let isDone : Entry ρ → Bool := fun e =>
    match s.calls e.call with
    | .done _ => true
    | _ => false
  refine ⟨(l.filter isDone).map fun e => (e.call, e.request), ?_, fun c r => ?_, ?_⟩
  · rw [List.map_map]
    exact hl.nodup.sublist (List.filter_sublist.map _)
  · rw [List.mem_map]
    constructor
    · rintro ⟨e, he, ⟨⟩⟩
      obtain ⟨he, hd⟩ := List.mem_filter.1 he
      rcases hl.entry e he with hdone | ⟨-, p, hp, -⟩
      · exact hdone
      · simp [isDone, hp] at hd
    · intro hc
      obtain ⟨b, hb⟩ := hl.done c r hc
      exact ⟨⟨c, r, b⟩, List.mem_filter.2 ⟨hb, by simp [isDone, hc]⟩, rfl⟩
  · have hfilter : P.Replays store (l.filter isDone) s.store := by
      refine hl.replays.filter fun e he hd => ?_
      rcases hl.entry e he with hdone | ⟨hidle, -⟩
      · simp [isDone, hdone] at hd
      · exact hidle
    rw [List.map_map]
    exact hfilter.serial

end ReadModifyWrite
