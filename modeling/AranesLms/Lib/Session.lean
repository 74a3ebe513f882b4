import Mathlib.Tactic.Common

/-!
# Sessions with pending changes

A session works on a database in a transaction of its own: `committed` is what the others see and
`working` what its own statements see.  Changes of loaded objects are `pending` until a flush writes
them; a query flushes first, and so does a commit.  `scope` opens a session for a computation and
rolls back what it has not committed.

`δ` are the databases, `κ` the pending changes, `ν` the violations that a flush can end with and
`ε` the exceptions.
-/

/-- How pending changes are written. -/
structure UnitOfWork (δ κ ν : Type) where
  clean : κ
  write : κ → δ → Except ν δ

structure Session (δ κ : Type) where
  committed : δ
  working : δ
  pending : κ

/-- A computation in a session, which goes on after an exception. -/
def SessionM (δ κ ε α : Type) : Type := Session δ κ → Except ε α × Session δ κ

namespace SessionM

variable {δ κ ν ε α β : Type}

def run (x : SessionM δ κ ε α) (s : Session δ κ) : Except ε α × Session δ κ := x s

instance : Monad (SessionM δ κ ε) where
  pure a := fun s => (.ok a, s)
  bind x f := fun s =>
    match x s with
    | (.ok a, s') => f a s'
    | (.error e, s') => (.error e, s')

def raise (e : ε) : SessionM δ κ ε α := fun s => (.error e, s)

/-- `try … except …`. -/
def handle (x : SessionM δ κ ε α) (handler : ε → SessionM δ κ ε α) : SessionM δ κ ε α := fun s =>
  match x s with
  | (.ok a, s') => (.ok a, s')
  | (.error e, s') => handler e s'

/-- Attributes of loaded objects are set. -/
def change (f : κ → κ) : SessionM δ κ ε Unit := fun s => (.ok (), { s with pending := f s.pending })

variable (u : UnitOfWork δ κ ν)

def rollback : SessionM δ κ ε Unit := fun s => (.ok (), ⟨s.committed, s.committed, u.clean⟩)

/-- What is pending is written; `raised` is the exception for a violation. -/
def flush (raised : ν → ε) : SessionM δ κ ε Unit := fun s =>
  match u.write s.pending s.working with
  | .ok working => (.ok (), ⟨s.committed, working, u.clean⟩)
  | .error v => (.error (raised v), s)

def query (raised : ν → ε) (q : δ → Except ε α) : SessionM δ κ ε α := do
  flush u raised
  fun s => (q s.working, s)

def commit (raised : ν → ε) : SessionM δ κ ε Unit := do
  flush u raised
  fun s => (.ok (), { s with committed := s.working })

/-- A session for one computation: what is left is rolled back when it is closed. -/
def scope (x : SessionM δ κ ε α) (d : δ) : Except ε α × δ :=
  let (result, s) := x ⟨d, d, u.clean⟩
  (result, s.committed)

/-! ## Running a computation -/

section

variable {u} {x : SessionM δ κ ε α} {f : α → SessionM δ κ ε β} {raised : ν → ε}
  {s s' : Session δ κ} {a : α} {e : ε}

theorem run_bind_ok (h : x.run s = (.ok a, s')) : (x >>= f).run s = (f a).run s' := by
  show (match x s with
    | (.ok a, s') => f a s'
    | (.error e, s') => (.error e, s')) = _
  rw [show x s = (.ok a, s') from h]
  rfl

theorem run_bind_error (h : x.run s = (.error e, s')) : (x >>= f).run s = (.error e, s') := by
  show (match x s with
    | (.ok a, s') => f a s'
    | (.error e, s') => (.error e, s')) = _
  rw [show x s = (.error e, s') from h]

theorem run_handle_ok {handler : ε → SessionM δ κ ε α} (h : x.run s = (.ok a, s')) :
    (x.handle handler).run s = (.ok a, s') := by
  rw [run, handle, show x s = (.ok a, s') from h]

theorem run_handle_error {handler : ε → SessionM δ κ ε α} (h : x.run s = (.error e, s')) :
    (x.handle handler).run s = (handler e).run s' := by
  rw [run, handle, show x s = (.error e, s') from h]
  rfl

theorem run_flush_ok {d : δ} (h : u.write s.pending s.working = .ok d) :
    (flush u raised).run s = (.ok (), ⟨s.committed, d, u.clean⟩) := by
  rw [run, flush, h]

theorem run_flush_error {v : ν} (h : u.write s.pending s.working = .error v) :
    (flush u raised).run s = (.error (raised v), s) := by
  rw [run, flush, h]

/-- A query sees what has been pending. -/
theorem run_query_ok {d : δ} (h : u.write s.pending s.working = .ok d) (q : δ → Except ε α) :
    (query u raised q).run s = (q d, ⟨s.committed, d, u.clean⟩) :=
  run_bind_ok (run_flush_ok h)

/-- A query raises what the flush before it raises. -/
theorem run_query_error {v : ν} (h : u.write s.pending s.working = .error v)
    (q : δ → Except ε α) : (query u raised q).run s = (.error (raised v), s) :=
  run_bind_error (run_flush_error h)

theorem run_commit_ok {d : δ} (h : u.write s.pending s.working = .ok d) :
    (commit u raised).run s = (.ok (), ⟨d, d, u.clean⟩) :=
  run_bind_ok (run_flush_ok h)

theorem run_commit_error {v : ν} (h : u.write s.pending s.working = .error v) :
    (commit u raised).run s = (.error (raised v), s) :=
  run_bind_error (run_flush_error h)

theorem scope_eq {d : δ} {result : Except ε α} (h : x.run ⟨d, d, u.clean⟩ = (result, s')) :
    scope u x d = (result, s'.committed) := by
  rw [scope, show x ⟨d, d, u.clean⟩ = (result, s') from h]

end

end SessionM
