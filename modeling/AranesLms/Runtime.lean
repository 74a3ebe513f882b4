import AranesLms.Lib.Transition
import Mathlib.Data.List.Nodup
import Mathlib.Logic.Function.Basic

/-!
# The default runtime

`get_default_runtime` and `reset_default_runtime` of `src/runtime.py`, called by any number of
threads.  When the first read of `_default_runtime` finds a runtime, the variable is read again
without the lock; everything else is done under the lock, between whose acquisition and release
other threads go on.

`always_shared`: at most one runtime is made between two resets, what a call returns was the default
while it ran, and every call can end.  Only a call during which a reset was carried out can return
`None`, and `returns_none` is a run in which one does.
-/

namespace AranesLms

/-- Where a call is, with the number of resets before its begin: before it, after a first read that
has found a runtime, before the lock, in `create_runtime_from_env`, after the assignment, and after
its end, with the number of resets by then; or a reset before and after it is carried out. -/
inductive RuntimeCall (ρ : Type) where
  | idle
  | found (began : ℕ)
  | waiting (began : ℕ)
  | creating (began : ℕ)
  | assigned (began : ℕ)
  | returned (began ended : ℕ) (runtime : Option ρ)
  | raised
  | resetting
  | reset

/-- The variable, the call that holds the lock, the calls, the number of resets, and every runtime
with the number of resets before it was made. -/
structure DefaultRuntime (ρ : Type) where
  defaultRuntime : Option ρ
  lockedBy : Option ℕ
  calls : ℕ → RuntimeCall ρ
  resets : ℕ
  made : List (ℕ × ρ)

/-- A call begins, or goes on; `created` is what `create_runtime_from_env` gives if that is where
the call is, and it gives nothing when it raises. -/
inductive RuntimeEvent (ρ : Type) where
  | getDefaultRuntime (i : ℕ)
  | resetDefaultRuntime (i : ℕ)
  | proceed (i : ℕ) (created : Option ρ)

namespace DefaultRuntime

variable {ρ : Type}

def init : DefaultRuntime ρ := ⟨none, none, fun _ => .idle, 0, []⟩

variable (s : DefaultRuntime ρ)

def enter (i : ℕ) (call : RuntimeCall ρ) : DefaultRuntime ρ :=
  { s with calls := Function.update s.calls i call }

/-- The call returns what it reads now. -/
def answer (i began : ℕ) : DefaultRuntime ρ :=
  s.enter i (.returned began s.resets s.defaultRuntime)

def proceed (i : ℕ) (created : Option ρ) : DefaultRuntime ρ :=
  match s.calls i with
  | .found began => s.answer i began
  | .waiting began =>
    if s.lockedBy.isSome then s
    -- both reads and the release: nothing is assigned without the lock
    else if s.defaultRuntime.isSome then s.answer i began
    else { s with lockedBy := some i }.enter i (.creating began)
  | .creating began =>
    match created with
    | some runtime =>
      { s with defaultRuntime := some runtime, made := (s.resets, runtime) :: s.made }.enter i
        (.assigned began)
    | none => { s with lockedBy := none }.enter i .raised
  | .assigned began => { s with lockedBy := none }.answer i began
  | .resetting =>
    if s.lockedBy.isSome then s
    else { s with defaultRuntime := none, resets := s.resets + 1 }.enter i .reset
  | _ => s

def step : RuntimeEvent ρ → DefaultRuntime ρ
  | .getDefaultRuntime i =>
    match s.calls i with
    | .idle => s.enter i (if s.defaultRuntime.isSome then .found s.resets else .waiting s.resets)
    | _ => s
  | .resetDefaultRuntime i =>
    match s.calls i with
    | .idle => s.enter i .resetting
    | _ => s
  | .proceed i created => s.proceed i created

end DefaultRuntime

/-! ## What the calls share -/

/-- The call holds the lock. -/
def RuntimeCall.InLock {ρ : Type} : RuntimeCall ρ → Prop
  | .creating _ => True
  | .assigned _ => True
  | _ => False

def RuntimeCall.Ended {ρ : Type} : RuntimeCall ρ → Prop
  | .returned _ _ _ => True
  | .raised => True
  | .reset => True
  | _ => False

/-- The answer was the default runtime during the call, or it is `None` and there was a reset. -/
def Answers {ρ : Type} (made : List (ℕ × ρ)) (began ended : ℕ) : Option ρ → Prop
  | some runtime => ∃ n, began ≤ n ∧ n ≤ ended ∧ (n, runtime) ∈ made
  | none => began < ended

theorem Answers.cons {ρ : Type} {made : List (ℕ × ρ)} {began ended : ℕ} {runtime : Option ρ}
    (h : Answers made began ended runtime) (e : ℕ × ρ) :
    Answers (e :: made) began ended runtime := by
  cases runtime with
  | none => exact h
  | some runtime =>
    obtain ⟨n, hbegan, hended, hmem⟩ := h
    exact ⟨n, hbegan, hended, List.mem_cons_of_mem _ hmem⟩

namespace DefaultRuntime

variable {ρ : Type}

/-- A call that has begun goes on. -/
def Goes : RuntimeEvent ρ → Prop
  | .proceed _ _ => True
  | _ => False

/-- Between two resets at most one runtime is made; the answers are right; and no call is stuck. -/
structure Shared (s : DefaultRuntime ρ) : Prop where
  made : (s.made.map Prod.fst).Nodup
  returned : ∀ i began ended runtime, s.calls i = .returned began ended runtime →
    Answers s.made began ended runtime
  finishes : ∀ i, s.calls i ≠ .idle →
    ∃ t, Transition.Leads step Goes s t ∧ (t.calls i).Ended

/-- What holds of a call with the values of the variable and of the counters. -/
def CallOk (defaultRuntime : Option ρ) (resets : ℕ) (made : List (ℕ × ρ)) : RuntimeCall ρ → Prop
  | .found began => began ≤ resets ∧ (began = resets → defaultRuntime.isSome)
  | .waiting began => began ≤ resets
  | .creating began => began ≤ resets ∧ defaultRuntime = none
  | .assigned began => began ≤ resets ∧ defaultRuntime.isSome
  | .returned began ended runtime => Answers made began ended runtime
  | _ => True

structure Inv (s : DefaultRuntime ρ) : Prop where
  made_le : ∀ e ∈ s.made, e.1 ≤ s.resets
  nodup : (s.made.map Prod.fst).Nodup
  current : ∀ runtime, s.defaultRuntime = some runtime ↔ (s.resets, runtime) ∈ s.made
  locked : ∀ i, s.lockedBy = some i ↔ (s.calls i).InLock
  ok : ∀ i, CallOk s.defaultRuntime s.resets s.made (s.calls i)

theorem inv_init : (init : DefaultRuntime ρ).Inv where
  made_le _ he := absurd he List.not_mem_nil
  nodup := List.nodup_nil
  current _ := iff_of_false nofun List.not_mem_nil
  locked _ := iff_of_false nofun id
  ok _ := trivial

variable {s : DefaultRuntime ρ} {i : ℕ}

/-- The answer that a call reads now. -/
theorem Inv.answers (h : s.Inv) {began : ℕ} (hbegan : began ≤ s.resets)
    (hnone : s.defaultRuntime = none → began < s.resets) :
    Answers s.made began s.resets s.defaultRuntime := by
  cases hruntime : s.defaultRuntime with
  | none => exact hnone hruntime
  | some runtime => exact ⟨s.resets, hbegan, le_rfl, (h.current runtime).1 hruntime⟩

/-- A call moves, and may take or release the lock. -/
theorem Inv.enter (h : s.Inv) {call : RuntimeCall ρ} (lockedBy : Option ℕ)
    (hok : CallOk s.defaultRuntime s.resets s.made call)
    (hself : lockedBy = some i ↔ call.InLock)
    (hother : ∀ j, j ≠ i → (lockedBy = some j ↔ s.lockedBy = some j)) :
    ({ s with lockedBy }.enter i call).Inv := by
  refine ⟨h.made_le, h.nodup, h.current, ?_, ?_⟩
  · exact (Function.forall_update_iff s.calls fun j call => lockedBy = some j ↔ call.InLock).2
      ⟨hself, fun j hj => (hother j hj).trans (h.locked j)⟩
  · exact (Function.forall_update_iff s.calls fun _ call =>
      CallOk s.defaultRuntime s.resets s.made call).2 ⟨hok, fun j _ => h.ok j⟩

theorem Inv.move (h : s.Inv) {call : RuntimeCall ρ}
    (hok : CallOk s.defaultRuntime s.resets s.made call)
    (hfrom : ¬ (s.calls i).InLock) (hto : ¬ call.InLock) : (s.enter i call).Inv :=
  h.enter s.lockedBy hok
    (iff_of_false (fun hlocked => hfrom ((h.locked i).1 hlocked)) hto) fun _ _ => Iff.rfl

/-- The call that holds the lock releases it. -/
theorem Inv.release (h : s.Inv) {call : RuntimeCall ρ}
    (hok : CallOk s.defaultRuntime s.resets s.made call) (hfrom : (s.calls i).InLock)
    (hto : ¬ call.InLock) : ({ s with lockedBy := none }.enter i call).Inv :=
  h.enter none hok (iff_of_false nofun hto) fun j hj => by
    rw [(h.locked i).2 hfrom]
    exact iff_of_false nofun fun heq => hj (Option.some.inj heq).symm

/-- A runtime is assigned by the call that holds the lock. -/
theorem Inv.assign (h : s.Inv) {began : ℕ} (hcall : s.calls i = .creating began) (runtime : ρ) :
    (DefaultRuntime.enter { s with
      defaultRuntime := some runtime, made := (s.resets, runtime) :: s.made } i
        (.assigned began)).Inv := by
  have hok := h.ok i
  rw [hcall] at hok
  have hnone : ∀ other, (s.resets, other) ∉ s.made := fun other hmem => by
    rw [(h.current other).2 hmem] at hok
    exact absurd hok.2 nofun
  have hlocked : s.lockedBy = some i := (h.locked i).2 (by rw [hcall]; trivial)
  refine ⟨?_, ?_, fun other => ?_, ?_, ?_⟩
  · exact List.forall_mem_cons.2 ⟨le_rfl, h.made_le⟩
  · refine List.nodup_cons.2 ⟨fun hmem => ?_, h.nodup⟩
    obtain ⟨e, he, heq⟩ := List.mem_map.1 hmem
    have hresets : e.1 = s.resets := heq
    exact hnone e.2 (by rw [← hresets]; exact he)
  · show some runtime = some other ↔ (s.resets, other) ∈ (s.resets, runtime) :: s.made
    rw [List.mem_cons, or_iff_left (hnone other), Prod.mk.injEq, Option.some.injEq]
    exact ⟨fun heq => ⟨rfl, heq.symm⟩, fun heq => heq.2.symm⟩
  · exact (Function.forall_update_iff s.calls fun j call => s.lockedBy = some j ↔ call.InLock).2
      ⟨iff_of_true hlocked trivial, fun j _ => h.locked j⟩
  · refine (Function.forall_update_iff s.calls fun _ call =>
      CallOk (some runtime) s.resets ((s.resets, runtime) :: s.made) call).2
      ⟨⟨hok.1, rfl⟩, fun j hj => ?_⟩
    have hother := h.ok j
    cases hcall' : s.calls j with
    | creating began' =>
      -- there is only one call that has the lock
      have hlocked' : s.lockedBy = some j := (h.locked j).2 (by rw [hcall']; trivial)
      exact absurd (Option.some.inj (hlocked'.symm.trans hlocked)) hj
    | found began' =>
      rw [hcall'] at hother
      exact ⟨hother.1, fun _ => rfl⟩
    | assigned began' =>
      rw [hcall'] at hother
      exact ⟨hother.1, rfl⟩
    | returned began' ended runtime' =>
      rw [hcall'] at hother
      exact hother.cons _
    | waiting began' =>
      rw [hcall'] at hother
      exact hother
    | _ => trivial

/-- A reset is carried out when nobody holds the lock. -/
theorem Inv.carryOut (h : s.Inv) (hfree : s.lockedBy = none) :
    (DefaultRuntime.enter { s with defaultRuntime := none, resets := s.resets + 1 } i
      .reset).Inv := by
  have hlock : ∀ j, ¬ (s.calls j).InLock := fun j hj => by
    have hlocked := (h.locked j).2 hj
    rw [hfree] at hlocked
    cases hlocked
  refine ⟨fun e he => Nat.le_succ_of_le (h.made_le e he), h.nodup, fun runtime => ?_, ?_, ?_⟩
  · exact iff_of_false nofun fun hmem => Nat.not_succ_le_self _ (h.made_le _ hmem)
  · refine (Function.forall_update_iff s.calls fun j call => s.lockedBy = some j ↔ call.InLock).2
      ⟨?_, fun j _ => h.locked j⟩
    rw [hfree]
    exact iff_of_false nofun id
  · refine (Function.forall_update_iff s.calls fun _ call =>
      CallOk none (s.resets + 1) s.made call).2 ⟨trivial, fun j _ => ?_⟩
    have hother := h.ok j
    cases hcall' : s.calls j with
    | creating began => exact absurd (by rw [hcall']; trivial) (hlock j)
    | assigned began => exact absurd (by rw [hcall']; trivial) (hlock j)
    | found began =>
      rw [hcall'] at hother
      have hbegan : began ≤ s.resets := hother.1
      exact ⟨Nat.le_succ_of_le hbegan, fun heq => by omega⟩
    | waiting began =>
      rw [hcall'] at hother
      exact Nat.le_succ_of_le hother
    | returned began ended runtime =>
      rw [hcall'] at hother
      exact hother
    | _ => trivial

theorem Inv.proceed (h : s.Inv) (i : ℕ) (created : Option ρ) : (s.proceed i created).Inv := by
  have hok := h.ok i
  rw [DefaultRuntime.proceed]
  cases hcall : s.calls i with
  | found began =>
    rw [hcall] at hok
    refine h.move (h.answers hok.1 fun hnone => ?_) (by rw [hcall]; exact id) id
    -- what the first read has found is gone: there was a reset
    refine lt_of_le_of_ne hok.1 fun heq => ?_
    have hsome := hok.2 heq
    rw [hnone] at hsome
    cases hsome
  | waiting began =>
    rw [hcall] at hok
    dsimp only
    split_ifs with hlocked hsome
    · exact h
    · refine h.move (h.answers hok fun hnone => ?_) (by rw [hcall]; exact id) id
      rw [hnone] at hsome
      cases hsome
    · have hfree : s.lockedBy = none := Option.not_isSome_iff_eq_none.1 hlocked
      refine h.enter (some i) ⟨hok, Option.not_isSome_iff_eq_none.1 hsome⟩ (iff_of_true rfl trivial)
        fun j hj => ?_
      rw [hfree]
      exact iff_of_false (fun heq => hj (Option.some.inj heq).symm) nofun
  | creating began =>
    dsimp only
    cases created with
    | none => exact h.release trivial (by rw [hcall]; trivial) id
    | some runtime => exact h.assign hcall runtime
  | assigned began =>
    rw [hcall] at hok
    refine h.release (h.answers hok.1 fun hnone => ?_) (by rw [hcall]; trivial) id
    have hsome := hok.2
    rw [hnone] at hsome
    cases hsome
  | resetting =>
    dsimp only
    split_ifs with hlocked
    · exact h
    · exact h.carryOut (Option.not_isSome_iff_eq_none.1 hlocked)
  | _ => exact h

theorem Inv.step (h : s.Inv) (event : RuntimeEvent ρ) : (s.step event).Inv := by
  cases event with
  | getDefaultRuntime i =>
    rw [DefaultRuntime.step]
    cases hcall : s.calls i with
    | idle =>
      dsimp only
      split_ifs with hsome
      · exact h.move ⟨le_rfl, fun _ => hsome⟩ (by rw [hcall]; exact id) id
      · exact h.move (le_refl s.resets) (by rw [hcall]; exact id) id
    | _ => exact h
  | resetDefaultRuntime i =>
    rw [DefaultRuntime.step]
    cases hcall : s.calls i with
    | idle => exact h.move trivial (by rw [hcall]; exact id) id
    | _ => exact h
  | proceed i created => exact h.proceed i created

/-! ## No call is stuck -/

theorem calls_enter (s : DefaultRuntime ρ) (i : ℕ) (call : RuntimeCall ρ) :
    (s.enter i call).calls i = call := Function.update_self ..

theorem calls_answer (s : DefaultRuntime ρ) (i began : ℕ) :
    (s.answer i began).calls i = .returned began s.resets s.defaultRuntime :=
  Function.update_self ..

/-- The call goes on by itself, whatever it awaits. -/
theorem leads_proceed (s : DefaultRuntime ρ) (i : ℕ) (created : Option ρ) {t : DefaultRuntime ρ}
    (h : Transition.Leads step Goes (s.proceed i created) t) : Transition.Leads step Goes s t :=
  h.head (a := .proceed i created) trivial

/-- A call that has the lock ends with its next step, if it makes no runtime, and the lock is free
after it. -/
theorem proceed_of_inLock (hcall : (s.calls i).InLock) :
    ((s.proceed i none).calls i).Ended ∧ (s.proceed i none).lockedBy = none ∧
      ∀ j, j ≠ i → (s.proceed i none).calls j = s.calls j := by
  rw [proceed]
  cases hphase : s.calls i with
  | creating began =>
    refine ⟨?_, rfl, fun j hj => Function.update_of_ne hj ..⟩
    rw [calls_enter]
    trivial
  | assigned began =>
    refine ⟨?_, rfl, fun j hj => Function.update_of_ne hj ..⟩
    rw [calls_answer]
    trivial
  | _ =>
    rw [hphase] at hcall
    exact hcall.elim

/-- When the lock is free, a call ends within two steps. -/
theorem finishes_of_free (hfree : s.lockedBy = none) (hcall : s.calls i ≠ .idle) :
    ∃ t, Transition.Leads step Goes s t ∧ (t.calls i).Ended := by
  have hunlocked : ¬ s.lockedBy.isSome := Option.not_isSome_iff_eq_none.2 hfree
  cases hphase : s.calls i with
  | idle => exact absurd hphase hcall
  | found began =>
    refine ⟨_, leads_proceed s i none (.refl _), ?_⟩
    rw [proceed, hphase]
    dsimp only
    rw [calls_answer]
    trivial
  | waiting began =>
    by_cases hsome : s.defaultRuntime.isSome
    · refine ⟨_, leads_proceed s i none (.refl _), ?_⟩
      rw [proceed, hphase]
      dsimp only
      rw [if_neg hunlocked, if_pos hsome, calls_answer]
      trivial
    · have hlocked : ((s.proceed i none).calls i).InLock := by
        rw [proceed, hphase]
        dsimp only
        rw [if_neg hunlocked, if_neg hsome, calls_enter]
        trivial
      exact ⟨_, leads_proceed s i none (leads_proceed _ i none (.refl _)),
        (proceed_of_inLock hlocked).1⟩
  | resetting =>
    refine ⟨_, leads_proceed s i none (.refl _), ?_⟩
    rw [proceed, hphase]
    dsimp only
    rw [if_neg hunlocked, calls_enter]
    trivial
  | creating began =>
    exact ⟨_, leads_proceed s i none (.refl _),
      (proceed_of_inLock (by rw [hphase]; trivial)).1⟩
  | assigned began =>
    exact ⟨_, leads_proceed s i none (.refl _),
      (proceed_of_inLock (by rw [hphase]; trivial)).1⟩
  | _ => exact ⟨s, .refl s, by rw [hphase]; trivial⟩

theorem Inv.finishes (h : s.Inv) (hcall : s.calls i ≠ .idle) :
    ∃ t, Transition.Leads DefaultRuntime.step Goes s t ∧ (t.calls i).Ended := by
  cases hlocked : s.lockedBy with
  | none => exact finishes_of_free hlocked hcall
  | some holder =>
    obtain ⟨hended, hfree, hothers⟩ := proceed_of_inLock ((h.locked holder).1 hlocked)
    by_cases hi : i = holder
    · subst hi
      exact ⟨_, leads_proceed s i none (.refl _), hended⟩
    · obtain ⟨t, hleads, ht⟩ := finishes_of_free hfree (by rw [hothers i hi]; exact hcall)
      exact ⟨t, leads_proceed s holder none hleads, ht⟩

theorem Inv.shared (h : s.Inv) : Shared s where
  made := h.nodup
  returned j began ended runtime hcall := by
    have hok := h.ok j
    rw [hcall] at hok
    exact hok
  finishes _ hcall := h.finishes hcall

/-- A call finds a runtime before a reset and reads the variable once more after it. -/
def overtaken (runtime : ρ) : List (RuntimeEvent ρ) :=
  [.getDefaultRuntime 0, .proceed 0 none, .proceed 0 (some runtime), .proceed 0 none,
    .getDefaultRuntime 1, .resetDefaultRuntime 2, .proceed 2 none, .proceed 1 none]

theorem returns_none (runtime : ρ) :
    (Transition.runFrom step init (overtaken runtime)).calls 0 = .returned 0 0 (some runtime) ∧
    (Transition.runFrom step init (overtaken runtime)).calls 1 = .returned 0 1 none :=
  ⟨rfl, rfl⟩

/-- However the calls and resets of any number of threads interleave; and a call that a reset
overtakes can return `None`. -/
theorem always_shared (events : List (RuntimeEvent ρ)) :
    Transition.Always step Shared (init : DefaultRuntime ρ) events ∧
    ∀ runtime : ρ, (Transition.runFrom step init (overtaken runtime)).calls 0 =
        .returned 0 0 (some runtime) ∧
      (Transition.runFrom step init (overtaken runtime)).calls 1 = .returned 0 1 none := by
  have hinv : Transition.Always step Inv (init : DefaultRuntime ρ) events :=
    .of_step (fun _ event h => h.step event) inv_init events
  exact ⟨hinv.mono fun _ h => h.shared, returns_none⟩

end DefaultRuntime

end AranesLms
