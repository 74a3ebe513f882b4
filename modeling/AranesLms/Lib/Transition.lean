import Mathlib.Data.List.Infix
import Mathlib.Tactic.Common

/-!
# Runs of a labelled step function

A system is a total function `step : σ → α → σ`; whatever the environment decides (clock
readings, identifiers, which component moves) is part of the label, and a label that is not
enabled leaves the state as it is.  A run is a list of labels.

* `runFrom step s as` is the state after the labels `as`.
* `Always step P s as`: every state the run passes through, both ends included, satisfies `P`.
* `Along step C s as`: every step of the run meets `C` in the state it is taken from.

* `Leads step A s t`: labels in `A` lead from `s` to `t`.

`runFrom_induct` is the invariant rule.  `Always.of_along` is the same rule for an invariant that
only the steps meeting `C` preserve, and `always_iff_along` its exact form.
-/

namespace Transition

variable {σ α : Type*} (step : σ → α → σ)

/-- The state after the labels `as`. -/
def runFrom (s : σ) (as : List α) : σ := as.foldl step s

/-- Every state of the run satisfies `P`. -/
def Always (P : σ → Prop) : σ → List α → Prop
  | s, [] => P s
  | s, a :: as => P s ∧ Always P (step s a) as

/-- Every step of the run meets `C` in the state it is taken from. -/
def Along (C : σ → α → Prop) : σ → List α → Prop
  | _, [] => True
  | s, a :: as => C s a ∧ Along C (step s a) as

/-- Labels in `A` lead from `s` to `t`. -/
def Leads (A : α → Prop) (s t : σ) : Prop := ∃ as, (∀ a ∈ as, A a) ∧ runFrom step s as = t

variable {step}

@[simp] theorem runFrom_nil (s : σ) : runFrom step s [] = s := rfl

@[simp] theorem runFrom_cons (s : σ) (a : α) (as : List α) :
    runFrom step s (a :: as) = runFrom step (step s a) as := rfl

@[simp] theorem runFrom_append (s : σ) (as bs : List α) :
    runFrom step s (as ++ bs) = runFrom step (runFrom step s as) bs :=
  List.foldl_append

/-- The invariant rule: what every step preserves, every run preserves. -/
theorem runFrom_induct {P : σ → Prop} (hstep : ∀ s a, P s → P (step s a)) {s : σ} (hs : P s)
    (as : List α) : P (runFrom step s as) := by
  induction as generalizing s with
  | nil => exact hs
  | cons a as ih => exact ih (hstep s a hs)

theorem Leads.refl {A : α → Prop} (s : σ) : Leads step A s s := ⟨[], by simp, rfl⟩

/-- A step first, and then the rest. -/
theorem Leads.head {A : α → Prop} {s t : σ} {a : α} (ha : A a) (h : Leads step A (step s a) t) :
    Leads step A s t := by
  obtain ⟨as, has, hrun⟩ := h
  exact ⟨a :: as, List.forall_mem_cons.2 ⟨ha, has⟩, hrun⟩

theorem Leads.trans {A : α → Prop} {s t u : σ} (h : Leads step A s t) (h' : Leads step A t u) :
    Leads step A s u := by
  obtain ⟨as, has, rfl⟩ := h
  obtain ⟨bs, hbs, rfl⟩ := h'
  refine ⟨as ++ bs, fun a ha => ?_, runFrom_append s as bs⟩
  rcases List.mem_append.1 ha with ha | ha
  · exact has a ha
  · exact hbs a ha

theorem Leads.mono {A B : α → Prop} {s t : σ} (h : Leads step A s t) (hAB : ∀ a, A a → B a) :
    Leads step B s t := by
  obtain ⟨as, has, hrun⟩ := h
  exact ⟨as, fun a ha => hAB a (has a ha), hrun⟩

/-! ## Conditions along a run -/

section Along

variable {C D : σ → α → Prop}

@[simp] theorem along_nil (s : σ) : Along step C s [] := trivial

@[simp] theorem along_cons (s : σ) (a : α) (as : List α) :
    Along step C s (a :: as) ↔ C s a ∧ Along step C (step s a) as := Iff.rfl

theorem along_true (s : σ) (as : List α) : Along step (fun _ _ => True) s as := by
  induction as generalizing s with
  | nil => trivial
  | cons a as ih => exact ⟨trivial, ih (step s a)⟩

/-- A condition on the labels alone. -/
theorem along_of_forall {p : α → Prop} {as : List α} (h : ∀ a ∈ as, p a) (s : σ) :
    Along step (fun _ a => p a) s as := by
  induction as generalizing s with
  | nil => trivial
  | cons a as ih =>
    exact ⟨h a List.mem_cons_self, ih (fun b hb => h b (List.mem_cons_of_mem a hb)) _⟩

/-- What an invariant says of each step holds along every run. -/
theorem Along.of_invariant {J : σ → Prop} (hstep : ∀ s a, J s → J (step s a))
    (hC : ∀ s a, J s → C s a) {s : σ} (hs : J s) (as : List α) : Along step C s as := by
  induction as generalizing s with
  | nil => trivial
  | cons a as ih => exact ⟨hC s a hs, ih (hstep s a hs)⟩

/-- Under an invariant `J`, the condition `C` on the steps can be replaced by a weaker one. -/
theorem Along.mono_of_invariant {J : σ → Prop} (hstep : ∀ s a, J s → J (step s a))
    (hCD : ∀ s a, J s → C s a → D s a) {s : σ} {as : List α} (h : Along step C s as) (hs : J s) :
    Along step D s as := by
  induction as generalizing s with
  | nil => trivial
  | cons a as ih => exact ⟨hCD s a hs h.1, ih h.2 (hstep s a hs)⟩

/-- The same for an invariant that only the steps meeting `C` preserve. -/
theorem Along.mono_of_preserved {J : σ → Prop} (hstep : ∀ s a, J s → C s a → J (step s a))
    (hCD : ∀ s a, J s → C s a → D s a) {s : σ} {as : List α} (h : Along step C s as) (hs : J s) :
    Along step D s as := by
  induction as generalizing s with
  | nil => trivial
  | cons a as ih => exact ⟨hCD s a hs h.1, ih h.2 (hstep s a hs h.1)⟩

/-- The invariant rule under a condition on the steps. -/
theorem Along.runFrom_induct {P : σ → Prop} (hstep : ∀ s a, P s → C s a → P (step s a)) {s : σ}
    {as : List α} (h : Along step C s as) (hs : P s) : P (runFrom step s as) := by
  induction as generalizing s with
  | nil => exact hs
  | cons a as ih => exact ih h.2 (hstep s a hs h.1)

end Along

/-! ## Properties of all states of a run -/

section Always

variable {P Q : σ → Prop} {C : σ → α → Prop}

@[simp] theorem always_nil (s : σ) : Always step P s [] ↔ P s := Iff.rfl

@[simp] theorem always_cons (s : σ) (a : α) (as : List α) :
    Always step P s (a :: as) ↔ P s ∧ Always step P (step s a) as := Iff.rfl

theorem Always.head {s : σ} {as : List α} (h : Always step P s as) : P s := by
  cases as with
  | nil => exact h
  | cons a as => exact h.1

/-- The states of a run are those its prefixes lead to. -/
theorem always_iff_initial (s : σ) (as : List α) :
    Always step P s as ↔ ∀ pre, pre <+: as → P (runFrom step s pre) := by
  induction as generalizing s with
  | nil => simp
  | cons a as ih =>
    rw [always_cons, ih]
    constructor
    · rintro ⟨hs, h⟩ pre hpre
      rcases List.prefix_cons_iff.1 hpre with rfl | ⟨t, rfl, ht⟩
      · exact hs
      · exact h t ht
    · intro h
      refine ⟨h [] List.nil_prefix, fun pre hpre => ?_⟩
      exact h (a :: pre) (List.cons_prefix_cons.2 ⟨rfl, hpre⟩)

theorem Always.last {s : σ} {as : List α} (h : Always step P s as) : P (runFrom step s as) :=
  (always_iff_initial s as).1 h as List.prefix_rfl

theorem Always.mono {s : σ} {as : List α} (h : Always step P s as) (hPQ : ∀ s, P s → Q s) :
    Always step Q s as := by
  rw [always_iff_initial] at h ⊢
  exact fun pre hpre => hPQ _ (h pre hpre)

theorem Always.of_step (hstep : ∀ s a, P s → P (step s a)) {s : σ} (hs : P s) (as : List α) :
    Always step P s as := by
  induction as generalizing s with
  | nil => exact hs
  | cons a as ih => exact ⟨hs, ih (hstep s a hs)⟩

theorem Always.of_along (hstep : ∀ s a, P s → C s a → P (step s a)) {s : σ} (hs : P s)
    {as : List α} (h : Along step C s as) : Always step P s as := by
  induction as generalizing s with
  | nil => exact hs
  | cons a as ih => exact ⟨hs, ih (hstep s a hs h.1) h.2⟩

/-- The exact form of the rule: when `J` implies `P`, steps meeting `C` preserve `J` and no other
step from `J` leads to `P`, then `P` holds throughout a run if and only if every step meets `C`. -/
theorem always_iff_along {J : σ → Prop} (hP : ∀ s, J s → P s)
    (hstep : ∀ s a, J s → C s a → J (step s a)) (hbad : ∀ s a, J s → P (step s a) → C s a) {s : σ}
    (hs : J s) (as : List α) : Always step P s as ↔ Along step C s as := by
  induction as generalizing s with
  | nil => simpa using hP s hs
  | cons a as ih =>
    rw [always_cons, along_cons]
    constructor
    · rintro ⟨-, h⟩
      have hc := hbad s a hs h.head
      exact ⟨hc, (ih (hstep s a hs hc)).1 h⟩
    · rintro ⟨hc, h⟩
      exact ⟨hP s hs, (ih (hstep s a hs hc)).2 h⟩

end Always

/-! ## Outputs -/

section Outputs

variable {τ β : Type*}

/-- The outputs of a run of a system that answers each label. -/
def outputs (handle : σ → α → β × σ) : σ → List α → List β
  | _, [] => []
  | s, a :: as => (handle s a).1 :: outputs handle (handle s a).2 as

/-- Two systems have the same outputs along a run when a relation between their states is kept by
the steps that meet `C`, with equal outputs. -/
theorem outputs_eq_of_simulation {handle : σ → α → β × σ} {handle' : τ → α → β × τ}
    {R : σ → τ → Prop} {C : σ → α → Prop}
    (hstep : ∀ s t a, R s t → C s a →
      (handle s a).1 = (handle' t a).1 ∧ R (handle s a).2 (handle' t a).2)
    {s : σ} {t : τ} {as : List α} (h : Along (fun s a => (handle s a).2) C s as) (hR : R s t) :
    outputs handle s as = outputs handle' t as := by
  induction as generalizing s t with
  | nil => rfl
  | cons a as ih =>
    obtain ⟨hout, hR'⟩ := hstep s t a hR h.1
    rw [outputs, outputs, hout, ih h.2 hR']

end Outputs

end Transition
