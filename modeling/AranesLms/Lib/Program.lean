import Mathlib.Logic.Function.Basic
import AranesLms.Lib.Transition

/-!
# Programs over a database and a cache

A `Program` is a request handler cut at the points where it waits: it reads the database, commits a
transaction, or sends one command to a cache.  Between two of these points it only computes.

* `run` is a program alone, with some of its cache commands failing.
* `System.step` takes one step of one of any number of programs.
* `Guarantees` is a rely-guarantee specification: whatever the others have done to the database as
  far as `R` allows, every commit of the program is related by `G`.  `System.Guaranteed.step` is its
  rule: when what one call guarantees is what the others rely on, it holds of every call.
-/

/-- A handler that answers with a `ρ`.  A commit that fails gives an `ε`. -/
inductive Program (δ κ β ε ρ : Type) where
  | done (r : ρ)
  | get (k : κ) (next : Option β → Program δ κ β ε ρ)
  | set (k : κ) (b : β) (next : Program δ κ β ε ρ)
  | delete (ks : List κ) (next : Program δ κ β ε ρ)
  | read (next : δ → Program δ κ β ε ρ)
  | commit (f : δ → Except ε δ) (next : Except ε Unit → Program δ κ β ε ρ)

/-- The database and the entries of the cache. -/
structure Store (δ κ β : Type) where
  db : δ
  cache : κ → Option β

/-- A command that changes the cache. -/
inductive Command (κ β : Type) where
  | set (k : κ) (b : β)
  | delete (ks : List κ)

variable {α δ κ β ε ρ : Type}

/-- The entries after the deletion of some keys. -/
def deleteAll [DecidableEq κ] (cache : κ → Option β) (ks : List κ) : κ → Option β := fun k =>
  if k ∈ ks then none else cache k

namespace Command

/-- The keys whose entries the command sets or deletes. -/
def keys : Command κ β → List κ
  | set k _ => [k]
  | delete ks => ks

variable [DecidableEq κ]

/-- A command that fails changes nothing. -/
def perform (fails : Bool) (cache : κ → Option β) : Command κ β → κ → Option β
  | set k b => if fails then cache else Function.update cache k (some b)
  | delete ks => if fails then cache else deleteAll cache ks

/-- The commands one after the other; `fails` says which of them fail. -/
def performAll (cache : κ → Option β) : List (Command κ β) → (ℕ → Bool) → κ → Option β
  | [], _ => cache
  | c :: cs, fails => performAll (c.perform (fails 0) cache) cs fun i => fails (i + 1)

variable {cache : κ → Option β} {c : Command κ β} {cs : List (Command κ β)} {k : κ}

/-- A command that fails or is about other keys leaves the entry alone. -/
theorem perform_eq {f : Bool} (h : k ∈ c.keys → f = true) : c.perform f cache k = cache k := by
  cases f with
  | true => cases c <;> rfl
  | false =>
    have hk : k ∉ c.keys := fun hk => Bool.false_ne_true (h hk)
    cases c with
    | set k' b => exact Function.update_of_ne (fun heq => hk (List.mem_singleton.2 heq)) _ _
    | delete ks => exact if_neg hk

/-- An entry after a command was there before, and no successful command was about it, or it has
been set. -/
theorem perform_eq_some {f : Bool} {b : β} (h : c.perform f cache k = some b) :
    (cache k = some b ∧ (k ∈ c.keys → f = true)) ∨ c = .set k b := by
  by_cases hk : k ∈ c.keys → f = true
  · rw [perform_eq hk] at h
    exact Or.inl ⟨h, hk⟩
  · rw [Classical.not_imp, Bool.not_eq_true] at hk
    obtain ⟨hk, rfl⟩ := hk
    cases c with
    | set k' b' =>
      obtain rfl := List.mem_singleton.1 hk
      rw [show (Command.set k b').perform false cache k = some b' from
        Function.update_self _ _ _] at h
      cases h
      exact Or.inr rfl
    | delete ks =>
      rw [show (Command.delete ks).perform false cache k = none from if_pos hk] at h
      cases h

/-- An entry stays when every command about it fails. -/
theorem performAll_eq {fails : ℕ → Bool}
    (h : ∀ i c, cs[i]? = some c → k ∈ c.keys → fails i = true) :
    performAll cache cs fails k = cache k := by
  induction cs generalizing cache fails with
  | nil => rfl
  | cons c cs ih =>
    rw [performAll, ih fun i c' hc => h (i + 1) c' hc, perform_eq (h 0 c rfl)]

/-- An entry after the commands was there before, and every command about it has failed, or it has
been set. -/
theorem performAll_eq_some {fails : ℕ → Bool} {b : β}
    (h : performAll cache cs fails k = some b) :
    (cache k = some b ∧ ∀ i c, cs[i]? = some c → k ∈ c.keys → fails i = true) ∨
      .set k b ∈ cs := by
  induction cs generalizing cache fails with
  | nil => exact Or.inl ⟨h, nofun⟩
  | cons c cs ih =>
    rcases ih h with ⟨hentry, hcs⟩ | hset
    · rcases perform_eq_some hentry with ⟨hentry, hc⟩ | rfl
      · refine Or.inl ⟨hentry, fun i c' hc' => ?_⟩
        cases i with
        | zero =>
          cases hc'
          exact hc
        | succ i => exact hcs i c' hc'
      · exact Or.inr List.mem_cons_self
    · exact Or.inr (List.mem_cons_of_mem c hset)

end Command

namespace Program

/-- The program that sends the commands and goes on. -/
def commands (p : Program δ κ β ε ρ) : List (Command κ β) → Program δ κ β ε ρ
  | [] => p
  | .set k b :: cs => .set k b (commands p cs)
  | .delete ks :: cs => .delete ks (commands p cs)

section Run

variable [DecidableEq κ]

/-- The program alone; the cache command number `i` fails if `fails i`, and then a `get` finds
nothing. -/
def run : Program δ κ β ε ρ → (ℕ → Bool) → Store δ κ β → ρ × Store δ κ β
  | done r, _, s => (r, s)
  | get k next, fails, s =>
    (next (if fails 0 then none else s.cache k)).run (fun i => fails (i + 1)) s
  | set k b next, fails, s =>
    next.run (fun i => fails (i + 1))
      { s with cache := (Command.set k b).perform (fails 0) s.cache }
  | delete ks next, fails, s =>
    next.run (fun i => fails (i + 1))
      { s with cache := (Command.delete ks).perform (fails 0) s.cache }
  | read next, fails, s => (next s.db).run fails s
  | commit f next, fails, s =>
    match f s.db with
    | .ok db => (next (.ok ())).run fails { s with db }
    | .error e => (next (.error e)).run fails s

theorem run_commands (cs : List (Command κ β)) (r : ρ) (fails : ℕ → Bool) (s : Store δ κ β) :
    ((done r : Program δ κ β ε ρ).commands cs).run fails s =
      (r, { s with cache := Command.performAll s.cache cs fails }) := by
  induction cs generalizing fails s with
  | nil => rfl
  | cons c cs ih =>
    cases c with
    | set k b => exact ih _ _
    | delete ks => exact ih _ _

end Run

/-! ## Rely and guarantee -/

/-- From `d` on, whatever the others do within `R` between its steps, every commit of the program
takes a database to one that `G` relates to it. -/
def Guarantees (R G : δ → δ → Prop) : Program δ κ β ε ρ → δ → Prop
  | done _, _ => True
  | get _ next, d => ∀ o, (next o).Guarantees R G d
  | set _ _ next, d => next.Guarantees R G d
  | delete _ next, d => next.Guarantees R G d
  | read next, d => ∀ d', R d d' → (next d').Guarantees R G d'
  | commit f next, d => ∀ d', R d d' →
    (∀ d'', f d' = .ok d'' → G d' d'' ∧ (next (.ok ())).Guarantees R G d'') ∧
      ∀ e, f d' = .error e → (next (.error e)).Guarantees R G d'

/-- A specification survives what the others may do. -/
theorem Guarantees.rely {R G : δ → δ → Prop} (hR : ∀ d d' d'', R d d' → R d' d'' → R d d'')
    {p : Program δ κ β ε ρ} {d d' : δ} (h : p.Guarantees R G d) (hd : R d d') :
    p.Guarantees R G d' := by
  induction p with
  | done r => trivial
  | get k next ih => exact fun o => ih o (h o)
  | set k b next ih => exact ih h
  | delete ks next ih => exact ih h
  | read next ih => exact fun d'' hd' => h d'' (hR _ _ _ hd hd')
  | commit f next ih => exact fun d'' hd' => h d'' (hR _ _ _ hd hd')

theorem Guarantees.commands {R G : δ → δ → Prop} {p : Program δ κ β ε ρ} {d : δ}
    (h : p.Guarantees R G d) (cs : List (Command κ β)) : (p.commands cs).Guarantees R G d := by
  induction cs with
  | nil => exact h
  | cons c cs ih =>
    cases c with
    | set k b => exact ih
    | delete ks => exact ih

end Program

/-! ## Interleaving -/

/-- The store and the programs of the requests that have been received. -/
structure System (α δ κ β ε ρ : Type) extends Store δ κ β where
  calls : ℕ → Option (α × Program δ κ β ε ρ)

inductive SystemEvent (α κ : Type) where
  | start (c : ℕ) (a : α)
  | resume (c : ℕ)
  | expire (k : κ)

namespace System

section Calls

variable (s : System α δ κ β ε ρ)

/-- No request has been received. -/
def init (db : δ) : System α δ κ β ε ρ := ⟨⟨db, fun _ => none⟩, fun _ => none⟩

def setCall (c : ℕ) (a : α) (p : Program δ κ β ε ρ) : System α δ κ β ε ρ :=
  { s with calls := Function.update s.calls c (some (a, p)) }

@[simp] theorem setCall_self (c : ℕ) (a : α) (p : Program δ κ β ε ρ) :
    (s.setCall c a p).calls c = some (a, p) :=
  Function.update_self _ _ _

theorem setCall_of_ne {c c' : ℕ} (h : c' ≠ c) (a : α) (p : Program δ κ β ε ρ) :
    (s.setCall c a p).calls c' = s.calls c' :=
  Function.update_of_ne h _ _

/-- No request is in progress. -/
def AtRest : Prop := ∀ c a p, s.calls c = some (a, p) → ∃ r, p = .done r

end Calls

section Steps

variable [DecidableEq κ] (program : α → Program δ κ β ε ρ) (s : System α δ κ β ε ρ)

/-- The next step of a call. -/
def resume (c : ℕ) (a : α) : Program δ κ β ε ρ → System α δ κ β ε ρ
  | .done _ => s
  | .get k next => s.setCall c a (next (s.cache k))
  | .set k b next =>
    setCall { s with cache := Function.update s.cache k (some b) } c a next
  | .delete ks next => setCall { s with cache := deleteAll s.cache ks } c a next
  | .read next => s.setCall c a (next s.db)
  | .commit f next =>
    match f s.db with
    | .ok db => setCall { s with db } c a (next (.ok ()))
    | .error e => s.setCall c a (next (.error e))

/-- One step.  A call keeps its number; the entries of the cache may expire. -/
def step : SystemEvent α κ → System α δ κ β ε ρ
  | .start c a =>
    match s.calls c with
    | none => s.setCall c a (program a)
    | some _ => s
  | .resume c =>
    match s.calls c with
    | some (a, p) => s.resume c a p
    | none => s
  | .expire k => { s with cache := Function.update s.cache k none }

end Steps

variable {program : α → Program δ κ β ε ρ} {s : System α δ κ β ε ρ}

/-! ### The rule of rely and guarantee -/

section Guarantee

variable {R : δ → δ → Prop} {G : α → δ → δ → Prop}

/-- Every call meets its specification from now on. -/
def Guaranteed (R : δ → δ → Prop) (G : α → δ → δ → Prop) (s : System α δ κ β ε ρ) : Prop :=
  ∀ c a p, s.calls c = some (a, p) → p.Guarantees R (G a) s.db

theorem guaranteed_init (db : δ) : Guaranteed R G (init db : System α δ κ β ε ρ) := nofun

/-- A call goes on, possibly after a commit that the others accept. -/
theorem Guaranteed.setCall (h : Guaranteed R G s) (store : Store δ κ β)
    (hR : ∀ d d' d'', R d d' → R d' d'' → R d d'') (hdb : R s.db store.db) {c : ℕ} {a : α}
    {p : Program δ κ β ε ρ} (hp : p.Guarantees R (G a) store.db) :
    Guaranteed R G (System.setCall ⟨store, s.calls⟩ c a p) := by
  intro c' a' p' hcall
  by_cases hc : c' = c
  · rw [hc, setCall_self] at hcall
    cases hcall
    exact hp
  · rw [setCall_of_ne _ hc] at hcall
    exact (h c' a' p' hcall).rely hR hdb

variable [DecidableEq κ]

/-- A step of a call leaves the database alone or does what the call guarantees. -/
theorem Guaranteed.resume (hrefl : ∀ d, R d d) (hR : ∀ d d' d'', R d d' → R d' d'' → R d d'')
    (hG : ∀ a d d', G a d d' → R d d') (h : Guaranteed R G s) {c : ℕ} {a : α}
    {p : Program δ κ β ε ρ} (hcall : s.calls c = some (a, p)) :
    Guaranteed R G (s.resume c a p) ∧
      ((s.resume c a p).db = s.db ∨ G a s.db (s.resume c a p).db) := by
  have hp := h c a p hcall
  cases p with
  | done r => exact ⟨h, Or.inl rfl⟩
  | get k next => exact ⟨h.setCall s.toStore hR (hrefl _) (hp _), Or.inl rfl⟩
  | set k b next =>
    exact ⟨h.setCall ⟨s.db, Function.update s.cache k (some b)⟩ hR (hrefl _) hp, Or.inl rfl⟩
  | delete ks next =>
    exact ⟨h.setCall ⟨s.db, deleteAll s.cache ks⟩ hR (hrefl _) hp, Or.inl rfl⟩
  | read next => exact ⟨h.setCall s.toStore hR (hrefl _) (hp _ (hrefl _)), Or.inl rfl⟩
  | commit f next =>
    obtain ⟨hok, herror⟩ := hp s.db (hrefl _)
    rw [System.resume]
    cases hf : f s.db with
    | ok db =>
      obtain ⟨hG', hnext⟩ := hok db hf
      exact ⟨h.setCall ⟨db, s.cache⟩ hR (hG _ _ _ hG') hnext, Or.inr hG'⟩
    | error e => exact ⟨h.setCall s.toStore hR (hrefl _) (herror e hf), Or.inl rfl⟩

/-- When every request meets its specification from the databases that `I` holds of, all calls meet
theirs throughout a run. -/
theorem Guaranteed.step (hrefl : ∀ d, R d d) (hR : ∀ d d' d'', R d d' → R d' d'' → R d d'')
    (hG : ∀ a d d', G a d d' → R d d') {I : δ → Prop} (hI : ∀ d d', R d d' → I d → I d')
    (hprogram : ∀ a d, I d → (program a).Guarantees R (G a) d) (h : Guaranteed R G s)
    (hs : I s.db) (e : SystemEvent α κ) :
    Guaranteed R G (s.step program e) ∧ I (s.step program e).db := by
  cases e with
  | start c a =>
    rw [System.step]
    cases s.calls c with
    | none => exact ⟨h.setCall s.toStore hR (hrefl _) (hprogram a _ hs), hs⟩
    | some call => exact ⟨h, hs⟩
  | resume c =>
    rw [System.step]
    cases hcall : s.calls c with
    | none => exact ⟨h, hs⟩
    | some call =>
      obtain ⟨hnext, hdb⟩ := h.resume hrefl hR hG hcall
      refine ⟨hnext, ?_⟩
      rcases hdb with hdb | hdb
      · rw [hdb]
        exact hs
      · exact hI _ _ (hG _ _ _ hdb) hs
  | expire k => exact ⟨h, hs⟩

end Guarantee

end System
