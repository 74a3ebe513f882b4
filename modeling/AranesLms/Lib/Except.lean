import Mathlib.Tactic.Common

/-!
# Results of computations in `Except`

`bind_eq_ok` and `map_eq_ok` take a successful computation apart into its successful steps, and a
guard that throws has not fired (`ite_throw_eq_ok`).  As simp lemmas they invert a `do` block
without unfolding the steps themselves.  `bind_eq_error` and `map_eq_error` find the step that has
failed.
-/

universe u v

namespace Except

variable {ε : Type u} {α β : Type v}

@[simp] theorem bind_eq_ok {x : Except ε α} {f : α → Except ε β} {b : β} :
    x >>= f = .ok b ↔ ∃ a, x = .ok a ∧ f a = .ok b := by
  cases x with
  | error e => exact ⟨nofun, fun ⟨_, h, _⟩ => nomatch h⟩
  | ok a => exact ⟨fun h => ⟨a, rfl, h⟩, fun ⟨_, h, h'⟩ => Except.ok.inj h ▸ h'⟩

@[simp] theorem map_eq_ok {x : Except ε α} {f : α → β} {b : β} :
    f <$> x = .ok b ↔ ∃ a, x = .ok a ∧ f a = b := by
  cases x with
  | error e => exact ⟨nofun, fun ⟨_, h, _⟩ => nomatch h⟩
  | ok a =>
    exact ⟨fun h => ⟨a, rfl, Except.ok.inj h⟩, fun ⟨_, h, h'⟩ => congrArg ok (ok.inj h ▸ h')⟩

@[simp] theorem pure_eq_ok {a b : α} : (pure a : Except ε α) = .ok b ↔ a = b :=
  ⟨fun h => Except.ok.inj h, fun h => congrArg Except.ok h⟩

@[simp] theorem throw_ne_ok {e : ε} {a : α} : (throw e : Except ε α) ≠ .ok a := nofun

@[simp] theorem ok_bind {a : α} {f : α → Except ε β} : (.ok a : Except ε α) >>= f = f a := rfl

@[simp] theorem throw_bind {e : ε} {f : α → Except ε β} : throw e >>= f = throw e := rfl

@[simp] theorem map_throw {e : ε} {f : α → β} : f <$> (throw e : Except ε α) = throw e := rfl

theorem bind_eq_error {x : Except ε α} {f : α → Except ε β} {e : ε} :
    x >>= f = .error e ↔ x = .error e ∨ ∃ a, x = .ok a ∧ f a = .error e := by
  cases x with
  | error e' => exact ⟨fun h => Or.inl (congrArg error (error.inj h)), fun h => h.elim
      (fun h => congrArg error (error.inj h)) fun ⟨_, h, _⟩ => nomatch h⟩
  | ok a => exact ⟨fun h => Or.inr ⟨a, rfl, h⟩, fun h => h.elim nofun
      fun ⟨_, h, h'⟩ => ok.inj h ▸ h'⟩

theorem map_eq_error {x : Except ε α} {f : α → β} {e : ε} :
    f <$> x = .error e ↔ x = .error e := by
  cases x with
  | error e' => exact ⟨fun h => congrArg error (error.inj h), fun h => congrArg error (error.inj h)⟩
  | ok a => exact ⟨nofun, nofun⟩

/-- A guard that throws has not fired. -/
@[simp] theorem ite_throw_eq_ok {c : Prop} [Decidable c] {e : ε} {x : Except ε α} {a : α} :
    (if c then throw e else x) = .ok a ↔ ¬ c ∧ x = .ok a := by
  by_cases hc : c
  · rw [if_pos hc]
    exact ⟨nofun, fun h => absurd hc h.1⟩
  · rw [if_neg hc, and_iff_right hc]

/-- A result that is added at the end and then dropped. -/
theorem map_snd_bind {x : Except ε α} {a : β} :
    Prod.snd <$> (x >>= fun b => pure (a, b)) = x := by
  cases x <;> rfl

/-- A loop whose steps succeed under a condition on the element alone. -/
theorem foldlM_eq_ok {γ : Type*} {step : α → γ → Except ε α} {f : α → γ → α} {P : γ → Prop}
    (hstep : ∀ a c a', step a c = .ok a' ↔ P c ∧ f a c = a') {l : List γ} {a a' : α} :
    l.foldlM step a = .ok a' ↔ (∀ c ∈ l, P c) ∧ l.foldl f a = a' := by
  induction l generalizing a with
  | nil => simp
  | cons c l ih =>
    rw [List.foldlM_cons, bind_eq_ok, List.forall_mem_cons, List.foldl_cons]
    constructor
    · rintro ⟨b, hb, h⟩
      obtain ⟨hc, rfl⟩ := (hstep a c b).1 hb
      obtain ⟨hl, h⟩ := ih.1 h
      exact ⟨⟨hc, hl⟩, h⟩
    · rintro ⟨⟨hc, hl⟩, h⟩
      exact ⟨f a c, (hstep a c _).2 ⟨hc, rfl⟩, ih.2 ⟨hl, h⟩⟩

/-- A computation for every element that succeeds does so for each of them. -/
theorem exists_of_mapM_eq_ok {γ : Type*} {f : γ → Except ε α} {l : List γ} {as : List α}
    (h : l.mapM f = .ok as) : ∀ c ∈ l, ∃ a, f c = .ok a := by
  induction l generalizing as with
  | nil => exact fun c hc => absurd hc List.not_mem_nil
  | cons c l ih =>
    simp only [List.mapM_cons, bind_eq_ok, pure_eq_ok] at h
    obtain ⟨a, ha, as', has', -⟩ := h
    exact List.forall_mem_cons.2 ⟨⟨a, ha⟩, ih has'⟩

/-- A computation for every element gives the results of a function exactly when each of them
does. -/
theorem mapM_eq_ok_map {γ : Type*} {f : γ → Except ε α} {g : γ → α} {l : List γ} :
    l.mapM f = .ok (l.map g) ↔ ∀ c ∈ l, f c = .ok (g c) := by
  induction l with
  | nil => exact iff_of_true rfl fun c hc => absurd hc List.not_mem_nil
  | cons c l ih =>
    simp only [List.mapM_cons, bind_eq_ok, pure_eq_ok, List.map_cons, List.forall_mem_cons, ← ih]
    constructor
    · rintro ⟨a, ha, as, has, heq⟩
      obtain ⟨rfl, rfl⟩ := List.cons.inj heq
      exact ⟨ha, has⟩
    · rintro ⟨ha, has⟩
      exact ⟨_, ha, _, has, rfl⟩

@[simp] theorem toOption_eq_some {x : Except ε α} {a : α} : x.toOption = some a ↔ x = .ok a := by
  cases x with
  | error e => exact ⟨nofun, nofun⟩
  | ok b => exact ⟨fun h => congrArg ok (Option.some.inj h), fun h => congrArg some (ok.inj h)⟩

end Except
