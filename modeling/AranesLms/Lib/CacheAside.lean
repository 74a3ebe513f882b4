import AranesLms.Lib.Program

/-!
# Cache-aside programs

A cache holds views of the database: `keyOf b` is the key that the view `b` is stored under, and
`current d b` says that `b` is what the database `d` gives now.  A program that changes views
removes or replaces their entries after its commit (`Covers`).

That alone does not keep the cache right.  Between the commit and the command other calls go on, and
an entry that a call sets may have been computed from rows that have changed since.  A wrong entry
does no harm as long as some call in progress is still going to send a command for its key
(`Repaired`).  So the condition on a step is `SetsCurrent`: an entry that is set is current, or
another call still has a command for its key to send.  Along a run whose steps meet it, the cache is
right whenever no call is in progress (`coherent_of_along`).
-/

namespace Program

variable {δ κ β ε ρ : Type}

/-- Whatever it is answered, the program goes on to set or delete the entry of `k`. -/
def Touches (k : κ) : Program δ κ β ε ρ → Prop
  | done _ => False
  | get _ next => ∀ o, (next o).Touches k
  | set k' _ next => k' = k ∨ next.Touches k
  | delete ks next => k ∈ ks ∨ next.Touches k
  | read next => ∀ d, (next d).Touches k
  | commit _ next => ∀ x, (next x).Touches k

theorem touches_commands {cs : List (Command κ β)} {k : κ} (h : ∃ c ∈ cs, k ∈ c.keys)
    (p : Program δ κ β ε ρ) : (p.commands cs).Touches k := by
  induction cs with
  | nil =>
    obtain ⟨c, hc, -⟩ := h
    cases hc
  | cons c cs ih =>
    obtain ⟨c', hc', hk⟩ := h
    rcases List.mem_cons.1 hc' with rfl | hmem
    · cases c' with
      | set k' b => exact Or.inl (List.mem_singleton.1 hk).symm
      | delete ks => exact Or.inl hk
    · cases c with
      | set k' b => exact Or.inr (ih ⟨c', hmem, hk⟩)
      | delete ks => exact Or.inr (ih ⟨c', hmem, hk⟩)

variable (current : δ → β → Prop) (keyOf : β → κ)

/-- Entries are stored under their keys, and a commit is followed by a command for every view that
it changes. -/
def Covers : Program δ κ β ε ρ → Prop
  | done _ => True
  | get _ next => ∀ o, (next o).Covers
  | set k b next => keyOf b = k ∧ next.Covers
  | delete _ next => next.Covers
  | read next => ∀ d, (next d).Covers
  | commit f next => (∀ x, (next x).Covers) ∧
    ∀ d d', f d = .ok d' → ∀ b, current d b → ¬ current d' b → (next (.ok ())).Touches (keyOf b)

variable {current keyOf}

theorem covers_commands {cs : List (Command κ β)} (h : ∀ k b, .set k b ∈ cs → keyOf b = k)
    {p : Program δ κ β ε ρ} (hp : p.Covers current keyOf) :
    (p.commands cs).Covers current keyOf := by
  induction cs with
  | nil => exact hp
  | cons c cs ih =>
    have hcs := ih fun k b hb => h k b (List.mem_cons_of_mem c hb)
    cases c with
    | set k b => exact ⟨h k b List.mem_cons_self, hcs⟩
    | delete ks => exact hcs

end Program

namespace System

open Program

variable {α δ κ β ε ρ : Type} (current : δ → β → Prop) (keyOf : β → κ)
variable (s : System α δ κ β ε ρ)

/-- Every entry is under its key and is what the database gives now. -/
def Coherent : Prop := ∀ k b, s.cache k = some b → keyOf b = k ∧ current s.db b

/-- A call in progress, other than `c`, is still going to send a command for the key. -/
def Repaired (c : Option ℕ) (k : κ) : Prop :=
  ∃ c' a p, some c' ≠ c ∧ s.calls c' = some (a, p) ∧ p.Touches k

/-- Condition on a step: an entry that is set is current, or another call in progress is still
going to send a command for its key. -/
def SetsCurrent : SystemEvent α κ → Prop
  | .resume c => ∀ a k b next, s.calls c = some (a, .set k b next) →
    current s.db b ∨ s.Repaired (some c) k
  | _ => True

/-- The calls cover their changes, and every entry is current or will be repaired. -/
structure Repairing : Prop where
  covers : ∀ c a p, s.calls c = some (a, p) → p.Covers current keyOf
  entries : ∀ k b, s.cache k = some b → keyOf b = k ∧ (current s.db b ∨ s.Repaired none k)

variable {current keyOf s}

theorem repairing_init (db : δ) :
    Repairing current keyOf (init db : System α δ κ β ε ρ) :=
  ⟨nofun, nofun⟩

/-- At rest nothing is left to be repaired. -/
theorem Repairing.coherent (h : s.Repairing current keyOf) (hrest : s.AtRest) :
    s.Coherent current keyOf := by
  intro k b hb
  obtain ⟨hkey, hcurrent⟩ := h.entries k b hb
  refine ⟨hkey, hcurrent.resolve_right ?_⟩
  rintro ⟨c, a, p, -, hcall, hp⟩
  obtain ⟨r, rfl⟩ := hrest c a p hcall
  exact hp

/-- What other calls are still going to do does not change when one call goes on. -/
theorem Repaired.setCall {c : ℕ} {k : κ} (h : s.Repaired (some c) k) (store : Store δ κ β) (a : α)
    (p : Program δ κ β ε ρ) :
    (System.setCall ⟨store, s.calls⟩ c a p).Repaired none k := by
  obtain ⟨c', a', p', hc, hcall, hp⟩ := h
  refine ⟨c', a', p', nofun, ?_, hp⟩
  rw [setCall_of_ne _ fun heq => hc (congrArg some heq)]
  exact hcall

theorem repaired_setCall_self {c : ℕ} {k : κ} {a : α} {p : Program δ κ β ε ρ} (h : p.Touches k) :
    (s.setCall c a p).Repaired none k :=
  ⟨c, a, p, nofun, setCall_self _ _ _ _, h⟩

/-- Who is going to repair an entry: one call, or the others. -/
theorem Repaired.cases {k : κ} (h : s.Repaired none k) (c : ℕ) :
    (∃ a p, s.calls c = some (a, p) ∧ p.Touches k) ∨ s.Repaired (some c) k := by
  obtain ⟨c', a, p, -, hcall, hp⟩ := h
  by_cases hc : c' = c
  · exact Or.inl ⟨a, p, hc ▸ hcall, hp⟩
  · exact Or.inr ⟨c', a, p, fun heq => hc (Option.some.inj heq), hcall, hp⟩

/-- A call goes on. -/
theorem Repairing.setCall (h : s.Repairing current keyOf) {c : ℕ} {a : α} {p : Program δ κ β ε ρ}
    (store : Store δ κ β) (hcovers : p.Covers current keyOf)
    (hentries : ∀ k b, store.cache k = some b →
      keyOf b = k ∧ (current store.db b ∨ p.Touches k ∨ s.Repaired (some c) k)) :
    (System.setCall ⟨store, s.calls⟩ c a p).Repairing current keyOf := by
  constructor
  · intro c' a' p' hcall
    by_cases hc : c' = c
    · rw [hc, setCall_self] at hcall
      cases hcall
      exact hcovers
    · rw [setCall_of_ne _ hc] at hcall
      exact h.covers c' a' p' hcall
  · intro k b hb
    obtain ⟨hkey, hentry⟩ := hentries k b hb
    refine ⟨hkey, hentry.imp_right ?_⟩
    rintro (hown | hother)
    · exact repaired_setCall_self hown
    · exact hother.setCall store a p

variable [DecidableEq κ] {program : α → Program δ κ β ε ρ}

theorem Repairing.resume (h : s.Repairing current keyOf) {c : ℕ} {a : α} {p : Program δ κ β ε ρ}
    (hcall : s.calls c = some (a, p)) (hset : s.SetsCurrent current (.resume c)) :
    (s.resume c a p).Repairing current keyOf := by
  have hp := h.covers c a p hcall
  have hold : ∀ k b, s.cache k = some b →
      keyOf b = k ∧ (current s.db b ∨ p.Touches k ∨ s.Repaired (some c) k) := by
    intro k b hb
    obtain ⟨hkey, hentry⟩ := h.entries k b hb
    refine ⟨hkey, hentry.imp_right fun hrepaired => ?_⟩
    rcases hrepaired.cases c with ⟨a', p', hcall', hown⟩ | hother
    · rw [hcall] at hcall'
      cases hcall'
      exact Or.inl hown
    · exact Or.inr hother
  cases p with
  | done r => exact h
  | get k next =>
    refine h.setCall s.toStore (hp _) fun k' b hb => ?_
    exact (hold k' b hb).imp_right fun hentry => hentry.imp_right fun htouch =>
      htouch.imp_left fun hown => hown _
  | set k b next =>
    refine h.setCall ⟨s.db, Function.update s.cache k (some b)⟩ hp.2 fun k' b' hb => ?_
    replace hb : Function.update s.cache k (some b) k' = some b' := hb
    by_cases hk : k' = k
    · rw [hk, Function.update_self] at hb
      cases hb
      rw [hk]
      exact ⟨hp.1, (hset a k b next hcall).imp_right Or.inr⟩
    · rw [Function.update_of_ne hk] at hb
      refine (hold k' b' hb).imp_right fun hentry => hentry.imp_right fun htouch =>
        htouch.imp_left fun hown => ?_
      exact hown.resolve_left (Ne.symm hk)
  | delete ks next =>
    refine h.setCall ⟨s.db, deleteAll s.cache ks⟩ hp fun k' b' hb => ?_
    replace hb : deleteAll s.cache ks k' = some b' := hb
    unfold deleteAll at hb
    split_ifs at hb with hk
    refine (hold k' b' hb).imp_right fun hentry => hentry.imp_right fun htouch =>
      htouch.imp_left fun hown => ?_
    exact hown.resolve_left hk
  | read next =>
    refine h.setCall s.toStore (hp _) fun k' b hb => ?_
    exact (hold k' b hb).imp_right fun hentry => hentry.imp_right fun htouch =>
      htouch.imp_left fun hown => hown _
  | commit f next =>
    obtain ⟨hnext, hcovers⟩ := hp
    rw [System.resume]
    cases hf : f s.db with
    | ok db =>
      refine h.setCall ⟨db, s.cache⟩ (hnext _) fun k b hb => ?_
      obtain ⟨hkey, hentry⟩ := hold k b hb
      refine ⟨hkey, ?_⟩
      rcases hentry with hcurrent | hown | hother
      · -- a view that the commit changes is one whose entry the call goes on to repair
        by_cases hstill : current db b
        · exact Or.inl hstill
        · exact Or.inr (Or.inl (hkey ▸ hcovers s.db db hf b hcurrent hstill))
      · exact Or.inr (Or.inl (hown _))
      · exact Or.inr (Or.inr hother)
    | error e =>
      refine h.setCall s.toStore (hnext _) fun k b hb => ?_
      exact (hold k b hb).imp_right fun hentry => hentry.imp_right fun htouch =>
        htouch.imp_left fun hown => hown _

theorem Repairing.step (h : s.Repairing current keyOf)
    (hprogram : ∀ a, (program a).Covers current keyOf) {e : SystemEvent α κ}
    (hset : s.SetsCurrent current e) : (s.step program e).Repairing current keyOf := by
  cases e with
  | start c a =>
    rw [System.step]
    cases hcall : s.calls c with
    | some call => exact h
    | none =>
      refine h.setCall s.toStore (hprogram a) fun k b hb => ?_
      obtain ⟨hkey, hentry⟩ := h.entries k b hb
      refine ⟨hkey, hentry.imp_right fun hrepaired => ?_⟩
      rcases hrepaired.cases c with ⟨a', p', hcall', -⟩ | hother
      · rw [hcall] at hcall'
        cases hcall'
      · exact Or.inr hother
  | resume c =>
    rw [System.step]
    cases hcall : s.calls c with
    | none => exact h
    | some call => exact h.resume hcall hset
  | expire k =>
    refine ⟨h.covers, fun k' b (hb : Function.update s.cache k none k' = some b) => ?_⟩
    by_cases hk : k' = k
    · rw [hk, Function.update_self] at hb
      cases hb
    · rw [Function.update_of_ne hk] at hb
      exact h.entries k' b hb

/-- Whenever no request is in progress the cache is right, in every run in which each entry that is
set is current or another call is still going to send a command for its key. -/
theorem coherent_of_along (hprogram : ∀ a, (program a).Covers current keyOf) (db : δ)
    {events : List (SystemEvent α κ)}
    (h : Transition.Along (System.step program) (SetsCurrent current) (init db) events) :
    Transition.Always (System.step program) (fun s => s.AtRest → s.Coherent current keyOf)
      (init db) events := by
  have hrepairing : Transition.Always (System.step program) (Repairing current keyOf) (init db)
      events := by
    refine Transition.Always.of_along (fun s e hs he => ?_) ?_ h
    · exact hs.step hprogram he
    · exact repairing_init db
  exact hrepairing.mono fun s hs => hs.coherent

end System
