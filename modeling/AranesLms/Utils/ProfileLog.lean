import AranesLms.Lib.AtomicFile
import AranesLms.Utils.ProfileText

/-!
# The log file of the profiler

`_ensure_initialized`, `_append_sample` and `_flush_profile_writes_sync` of `src/utils/profiler.py`
in the threads of one process after another, on one log file.  A flush dumps the state under the
lock and writes the file outside it (`_atomic_write_text`), so appends and other flushes come
between its steps; any step of a write may fail, a process may crash and the power may fail at any
point.

`always_recoverable`: the file is never torn, and the next process goes on with a state that an
earlier one has had.  `always_saved`: when no flush begins while another one is in flight, then
whenever nothing is left to be flushed the file holds the state of the memory.  Two flushes that
overlap can leave the older state in the file, with nothing left to be flushed
(`not_saved_overlap`).
-/

namespace AranesLms

namespace ProfileLog

variable {τ : Type}

/-- A call of `_flush_profile_writes_sync`: it writes its payload, or is about to set the flag again
after an exception. -/
inductive Flush where
  | idle
  | writing (text : List Char) (phase : AtomicWrite)
  | failing

/-- A process: before `_ensure_initialized`, while that writes a new file, or behind it, with
`_STATE` and `_WRITE_DIRTY`. -/
inductive Process (τ : Type) where
  | down
  | opening (state : ProfileState τ) (phase : AtomicWrite)
  | up (state : ProfileState τ) (dirty : Bool) (flushes : ℕ → Flush)

/-- The disk, the process, and the states that the memory of a process has had. -/
structure Log (τ : Type) where
  disk : Disk Char
  process : Process τ
  states : List (ProfileState τ)

inductive LogEvent (τ : Type) where
  | start (now : String)
  | startStep (fault : DiskFault)
  | append (call : SampleCall (Sample τ)) (now : String)
  | flush (i : ℕ)
  | flushStep (i : ℕ) (fault : DiskFault)
  | crash
  | powerFailure (n : ℕ) (spoilt : List Char)

namespace Log

variable [LinearOrder τ] (lib : FloatRepr τ) (s : Log τ)

/-- There is no log file yet. -/
def fresh : Log τ := ⟨⟨[], fun _ => none⟩, .down, []⟩

/-- The process has a new state. -/
def enter (state : ProfileState τ) (process : Process τ) : Log τ :=
  { s with process, states := state :: s.states }

/-- `_ensure_initialized` up to the write of a new file. -/
def ensureInitialized (now : String) : Log τ :=
  match s.disk.content? with
  | some text =>
    let state := (load? lib text).getD (defaultState now)
    s.enter state (.up state false fun _ => .idle)
  | none => s.enter (defaultState now) (.opening (defaultState now) .creating)

/-- The write of a new file goes on; when it raises, the process is not initialised. -/
def startStep (state : ProfileState τ) (phase : AtomicWrite) (fault : DiskFault) : Log τ :=
  let (disk, next) := phase.step s.disk 0 (dumps lib state) fault
  match next with
  | .goesOn phase => { s with disk, process := .opening state phase }
  | .done => { s with disk, process := .up state false fun _ => .idle }
  | .raised => { s with disk, process := .down }

/-- `_append_sample`, under the lock. -/
def append (state : ProfileState τ) (dirty : Bool) (flushes : ℕ → Flush)
    (call : SampleCall (Sample τ)) (now : String) : Log τ :=
  if ¬ call.enabled then { s with process := .up state dirty flushes }
  else
    let state := ⟨now, appendSample Sample.elapsedMs state.entries call⟩
    s.enter state (.up state true flushes)

/-- `_flush_profile_writes_sync` up to the release of the lock. -/
def beginFlush (state : ProfileState τ) (dirty : Bool) (flushes : ℕ → Flush) (i : ℕ) : Log τ :=
  match flushes i, dirty with
  | .idle, true =>
    let flushes := Function.update flushes i (.writing (dumps lib state) .creating)
    { s with process := .up state false flushes }
  | _, _ => { s with process := .up state dirty flushes }

/-- A flush goes on. -/
def flushStep (state : ProfileState τ) (dirty : Bool) (flushes : ℕ → Flush) (i : ℕ)
    (fault : DiskFault) : Log τ :=
  match flushes i with
  | .idle => { s with process := .up state dirty flushes }
  | .failing => { s with process := .up state true (Function.update flushes i .idle) }
  | .writing text phase =>
    let (disk, next) := phase.step s.disk i text fault
    match next with
    | .goesOn phase =>
      { s with disk, process := .up state dirty (Function.update flushes i (.writing text phase)) }
    | .done => { s with disk, process := .up state dirty (Function.update flushes i .idle) }
    | .raised => { s with disk, process := .up state dirty (Function.update flushes i .failing) }

def step (e : LogEvent τ) : Log τ :=
  match e, s.process with
  | .start now, .down => s.ensureInitialized lib now
  | .startStep fault, .opening state phase => s.startStep lib state phase fault
  | .append call now, .up state dirty flushes => s.append state dirty flushes call now
  | .flush i, .up state dirty flushes => s.beginFlush lib state dirty flushes i
  | .flushStep i fault, .up state dirty flushes => s.flushStep state dirty flushes i fault
  | .crash, _ => { s with process := .down }
  | .powerFailure n spoilt, _ => { s with disk := s.disk.powerFailure n spoilt, process := .down }
  | _, _ => s

/-- The file is the dump of a state that the memory has had, and a process reads that state from it;
its entries summarise calls of `_append_sample`. -/
def Recoverable : Prop :=
  ∀ text, s.disk.content? = some text → ∃ state ∈ s.states, text = dumps lib state ∧
    load? lib text = some state ∧ ∃ calls, state.entries = profile Sample.elapsedMs calls

/-- When there is nothing left to be flushed and no flush is in flight, the file holds the state. -/
def Saved : Prop :=
  ∀ state flushes, s.process = .up state false flushes → (∀ i, flushes i = .idle) →
    s.disk.content? = some (dumps lib state)

/-- Condition on an event: a flush begins when no other one is in flight. -/
def Alone : LogEvent τ → Prop
  | .flush _ => ∀ state dirty flushes, s.process = .up state dirty flushes → ∀ j, flushes j = .idle
  | _ => True

/-! ## The invariant -/

variable {lib s}

/-- The text is the dump of one of the states. -/
def Dumped (lib : FloatRepr τ) (states : List (ProfileState τ)) (text : List Char) : Prop :=
  ∃ state ∈ states, text = dumps lib state

omit [LinearOrder τ] in
theorem Dumped.cons {states : List (ProfileState τ)} {text : List Char} (h : Dumped lib states text)
    (state : ProfileState τ) : Dumped lib (state :: states) text := by
  obtain ⟨state', hmem, htext⟩ := h
  exact ⟨state', List.mem_cons_of_mem _ hmem, htext⟩

/-- The flush writes such a text, and its temporary file is as far as it is. -/
def FlushSound (lib : FloatRepr τ) (disk : Disk Char) (states : List (ProfileState τ)) (i : ℕ) :
    Flush → Prop
  | .writing text phase => Dumped lib states text ∧ phase.Holds disk i text
  | .idle | .failing => True

def ProcessSound (lib : FloatRepr τ) (disk : Disk Char) (states : List (ProfileState τ)) :
    Process τ → Prop
  | .down => True
  | .opening state phase => state ∈ states ∧ phase.Holds disk 0 (dumps lib state)
  | .up state _ flushes => state ∈ states ∧ ∀ i, FlushSound lib disk states i (flushes i)

/-- The entries are what calls of `_append_sample` lead to. -/
def Profiled (state : ProfileState τ) : Prop :=
  ∃ calls, state.entries = profile Sample.elapsedMs calls

structure Sound (lib : FloatRepr τ) (s : Log τ) : Prop where
  whole : s.disk.Whole (Dumped lib s.states)
  process : ProcessSound lib s.disk s.states s.process
  profiled : ∀ state ∈ s.states, Profiled state

theorem Sound.recoverable (h : s.Sound lib) : s.Recoverable lib := by
  intro text htext
  obtain ⟨state, hmem, rfl⟩ := h.whole.content htext
  exact ⟨state, hmem, rfl, load?_dumps lib state, h.profiled state hmem⟩

theorem sound_fresh : (fresh : Log τ).Sound lib where
  whole := ⟨fun _ h => absurd h List.not_mem_nil, fun _ h => absurd h List.not_mem_nil⟩
  process := trivial
  profiled := fun _ h => absurd h List.not_mem_nil

theorem profiled_default (now : String) : Profiled (defaultState now : ProfileState τ) := ⟨[], rfl⟩

theorem Profiled.append {state : ProfileState τ} (h : Profiled state)
    (call : SampleCall (Sample τ)) (now : String) :
    Profiled ⟨now, appendSample Sample.elapsedMs state.entries call⟩ := by
  obtain ⟨calls, hcalls⟩ := h
  refine ⟨calls ++ [call], ?_⟩
  rw [profile, Transition.runFrom_append, hcalls]
  rfl

/-- The disk and the process go on; the states stay. -/
theorem Sound.goOn (h : s.Sound lib) {disk : Disk Char} {process : Process τ}
    (hwhole : disk.Whole (Dumped lib s.states))
    (hprocess : ProcessSound lib disk s.states process) :
    Sound lib { s with disk, process } :=
  ⟨hwhole, hprocess, h.profiled⟩

/-- The process goes on with a new state. -/
theorem Sound.enter (h : s.Sound lib) {state : ProfileState τ} {process : Process τ}
    (hstate : Profiled state) (hprocess : ProcessSound lib s.disk (state :: s.states) process) :
    (s.enter state process).Sound lib where
  whole := h.whole.mono fun _ hdumped => hdumped.cons state
  process := hprocess
  profiled := by
    intro state' hmem
    rcases List.mem_cons.1 hmem with rfl | hold
    · exact hstate
    · exact h.profiled state' hold

omit [LinearOrder τ] in
theorem FlushSound.cons {disk : Disk Char} {states : List (ProfileState τ)} {i : ℕ} {flush : Flush}
    (h : FlushSound lib disk states i flush) (state : ProfileState τ) :
    FlushSound lib disk (state :: states) i flush := by
  cases flush with
  | idle | failing => trivial
  | writing text phase => exact ⟨h.1.cons state, h.2⟩

theorem Sound.ensureInitialized (h : s.Sound lib) (now : String) :
    (s.ensureInitialized lib now).Sound lib := by
  unfold Log.ensureInitialized
  cases hcontent : s.disk.content? with
  | none =>
    exact h.enter (profiled_default now) ⟨List.mem_cons_self, trivial⟩
  | some text =>
    obtain ⟨state, hmem, -, hload, -⟩ := h.recoverable text hcontent
    dsimp only
    rw [hload, Option.getD_some]
    exact h.enter (h.profiled state hmem) ⟨List.mem_cons_self, fun _ => trivial⟩

theorem Sound.startStep (h : s.Sound lib) {state : ProfileState τ} {phase : AtomicWrite}
    (hprocess : s.process = .opening state phase) (fault : DiskFault) :
    (s.startStep lib state phase fault).Sound lib := by
  have hsound := h.process
  rw [hprocess] at hsound
  obtain ⟨hmem, hholds⟩ := hsound
  have hwhole : (phase.step s.disk 0 (dumps lib state) fault).1.Whole (Dumped lib s.states) :=
    AtomicWrite.whole_step h.whole hholds ⟨state, hmem, rfl⟩
  unfold Log.startStep
  cases hstep : phase.step s.disk 0 (dumps lib state) fault with
  | mk disk next =>
    rw [hstep] at hwhole
    cases next with
    | goesOn phase' =>
      have hholds' := hholds.step fault (congrArg Prod.snd hstep)
      rw [hstep] at hholds'
      exact h.goOn hwhole ⟨hmem, hholds'⟩
    | done => exact h.goOn hwhole ⟨hmem, fun _ => trivial⟩
    | raised => exact h.goOn hwhole trivial

theorem Sound.append (h : s.Sound lib) {state : ProfileState τ} {dirty : Bool} {flushes : ℕ → Flush}
    (hprocess : s.process = .up state dirty flushes) (call : SampleCall (Sample τ)) (now : String) :
    (s.append state dirty flushes call now).Sound lib := by
  have hsound := h.process
  rw [hprocess] at hsound
  obtain ⟨hmem, hflushes⟩ := hsound
  unfold Log.append
  split_ifs
  · exact h.enter ((h.profiled state hmem).append call now)
      ⟨List.mem_cons_self, fun i => (hflushes i).cons _⟩
  · exact h.goOn h.whole ⟨hmem, hflushes⟩

omit [LinearOrder τ] in
/-- One flush changes, and the others keep what they hold. -/
theorem flushSound_update {disk disk' : Disk Char} {states : List (ProfileState τ)}
    {flushes : ℕ → Flush} (h : ∀ i, FlushSound lib disk states i (flushes i)) {i : ℕ}
    {flush : Flush} (hflush : FlushSound lib disk' states i flush)
    (htemps : ∀ j, j ≠ i → disk'.temps j = disk.temps j) (j : ℕ) :
    FlushSound lib disk' states j (Function.update flushes i flush j) := by
  rcases eq_or_ne j i with rfl | hne
  · rw [Function.update_self]
    exact hflush
  · rw [Function.update_of_ne hne]
    have hj := h j
    cases hold : flushes j with
    | idle | failing => trivial
    | writing text phase =>
      rw [hold] at hj
      exact ⟨hj.1, hj.2.of_temps (htemps j hne)⟩

theorem Sound.beginFlush (h : s.Sound lib) {state : ProfileState τ} {dirty : Bool}
    {flushes : ℕ → Flush} (hprocess : s.process = .up state dirty flushes) (i : ℕ) :
    (s.beginFlush lib state dirty flushes i).Sound lib := by
  have hsound := h.process
  rw [hprocess] at hsound
  obtain ⟨hmem, hflushes⟩ := hsound
  unfold Log.beginFlush
  split
  · refine h.goOn h.whole ⟨hmem, flushSound_update hflushes ?_ fun _ _ => rfl⟩
    exact ⟨⟨state, hmem, rfl⟩, trivial⟩
  · exact h.goOn h.whole ⟨hmem, hflushes⟩

theorem Sound.flushStep (h : s.Sound lib) {state : ProfileState τ} {dirty : Bool}
    {flushes : ℕ → Flush} (hprocess : s.process = .up state dirty flushes) (i : ℕ)
    (fault : DiskFault) : (s.flushStep state dirty flushes i fault).Sound lib := by
  have hsound := h.process
  rw [hprocess] at hsound
  obtain ⟨hmem, hflushes⟩ := hsound
  unfold Log.flushStep
  cases hflush : flushes i with
  | idle => exact h.goOn h.whole ⟨hmem, hflushes⟩
  | failing =>
    exact h.goOn h.whole ⟨hmem, flushSound_update hflushes trivial fun _ _ => rfl⟩
  | writing text phase =>
    have hi := hflushes i
    rw [hflush] at hi
    obtain ⟨hdumped, hholds⟩ := hi
    have hwhole : (phase.step s.disk i text fault).1.Whole (Dumped lib s.states) :=
      AtomicWrite.whole_step h.whole hholds hdumped
    have htemps : ∀ j, j ≠ i → (phase.step s.disk i text fault).1.temps j = s.disk.temps j :=
      fun j hj => AtomicWrite.temps_step hj
    dsimp only
    cases hstep : phase.step s.disk i text fault with
    | mk disk next =>
      rw [hstep] at hwhole htemps
      cases next with
      | goesOn phase' =>
        have hholds' := hholds.step fault (congrArg Prod.snd hstep)
        rw [hstep] at hholds'
        exact h.goOn hwhole ⟨hmem, flushSound_update hflushes ⟨hdumped, hholds'⟩ htemps⟩
      | done => exact h.goOn hwhole ⟨hmem, flushSound_update hflushes trivial htemps⟩
      | raised => exact h.goOn hwhole ⟨hmem, flushSound_update hflushes trivial htemps⟩

/-- What a step can do. -/
theorem step_cases {P : Log τ → Prop} {e : LogEvent τ} (hsame : P s)
    (hcrash : P { s with process := .down })
    (hpower : ∀ n spoilt, P { s with disk := s.disk.powerFailure n spoilt, process := .down })
    (hstart : ∀ now, P (s.ensureInitialized lib now))
    (hstartStep : ∀ state phase fault, s.process = .opening state phase →
      P (s.startStep lib state phase fault))
    (happend : ∀ state dirty flushes call now, s.process = .up state dirty flushes →
      P (s.append state dirty flushes call now))
    (hflush : ∀ state dirty flushes i, e = .flush i → s.process = .up state dirty flushes →
      P (s.beginFlush lib state dirty flushes i))
    (hflushStep : ∀ state dirty flushes i fault, s.process = .up state dirty flushes →
      P (s.flushStep state dirty flushes i fault)) : P (s.step lib e) := by
  cases e with
  | crash => exact hcrash
  | powerFailure n spoilt => exact hpower n spoilt
  | start now =>
    cases hprocess : s.process <;> simp only [Log.step, hprocess]
    · exact hstart now
    · exact hsame
    · exact hsame
  | startStep fault =>
    cases hprocess : s.process <;> simp only [Log.step, hprocess]
    · exact hsame
    · exact hstartStep _ _ fault hprocess
    · exact hsame
  | append call now =>
    cases hprocess : s.process <;> simp only [Log.step, hprocess]
    · exact hsame
    · exact hsame
    · exact happend _ _ _ call now hprocess
  | flush i =>
    cases hprocess : s.process <;> simp only [Log.step, hprocess]
    · exact hsame
    · exact hsame
    · exact hflush _ _ _ i rfl hprocess
  | flushStep i fault =>
    cases hprocess : s.process <;> simp only [Log.step, hprocess]
    · exact hsame
    · exact hsame
    · exact hflushStep _ _ _ i fault hprocess

theorem Sound.step (h : s.Sound lib) (e : LogEvent τ) : (s.step lib e).Sound lib :=
  step_cases h (h.goOn h.whole trivial)
    (fun n spoilt => h.goOn (h.whole.powerFailure n spoilt) trivial)
    (fun now => h.ensureInitialized now)
    (fun _ _ fault hprocess => h.startStep hprocess fault)
    (fun _ _ _ call now hprocess => h.append hprocess call now)
    (fun _ _ _ i _ hprocess => h.beginFlush hprocess i)
    (fun _ _ _ i fault hprocess => h.flushStep hprocess i fault)

/-! ## Flushes one at a time -/

/-- At most one flush is in flight. -/
def OneFlush (flushes : ℕ → Flush) : Prop :=
  ∀ i j, flushes i ≠ .idle → flushes j ≠ .idle → i = j

/-- What there is to be flushed is marked, or a flush is about to write it. -/
structure UpKept (lib : FloatRepr τ) (disk : Disk Char) (state : ProfileState τ) (dirty : Bool)
    (flushes : ℕ → Flush) : Prop where
  one : OneFlush flushes
  saved : dirty = false → (∀ i, flushes i = .idle) → disk.content? = some (dumps lib state)
  current : dirty = false → ∀ i text phase, flushes i = .writing text phase → text = dumps lib state

def Kept (lib : FloatRepr τ) (s : Log τ) : Prop :=
  ∀ state dirty flushes, s.process = .up state dirty flushes →
    UpKept lib s.disk state dirty flushes

omit [LinearOrder τ] in
theorem Kept.savedState (h : s.Kept lib) : s.Saved lib :=
  fun state flushes hprocess => (h state false flushes hprocess).saved rfl

omit [LinearOrder τ] in
theorem UpKept.kept {disk : Disk Char} {state : ProfileState τ} {dirty : Bool}
    {flushes : ℕ → Flush} (h : UpKept lib disk state dirty flushes)
    (states : List (ProfileState τ)) :
    Kept lib ⟨disk, .up state dirty flushes, states⟩ := by
  intro state' dirty' flushes' hprocess
  cases hprocess
  exact h

omit [LinearOrder τ] in
/-- When the flag is set there is nothing to be said of the file. -/
theorem UpKept.dirty {disk : Disk Char} {state : ProfileState τ} {flushes : ℕ → Flush}
    (h : OneFlush flushes) : UpKept lib disk state true flushes where
  one := h
  saved := by
    intro hdirty
    cases hdirty
  current := by
    intro hdirty
    cases hdirty

theorem oneFlush_update {flushes : ℕ → Flush} (h : OneFlush flushes) {i : ℕ}
    (hi : flushes i ≠ .idle) (flush : Flush) : OneFlush (Function.update flushes i flush) := by
  have heq : ∀ j, Function.update flushes i flush j ≠ .idle → j = i := by
    intro j hj
    by_contra hne
    rw [Function.update_of_ne hne] at hj
    exact hne (h j i hj hi)
  intro j k hj hk
  rw [heq j hj, heq k hk]

theorem kept_ensureInitialized (hsound : s.Sound lib) (now : String) :
    (s.ensureInitialized lib now).Kept lib := by
  unfold Log.ensureInitialized
  cases hcontent : s.disk.content? with
  | none => exact fun _ _ _ hprocess => nomatch hprocess
  | some text =>
    obtain ⟨state, -, rfl, hload, -⟩ := hsound.recoverable text hcontent
    dsimp only
    rw [hload, Option.getD_some]
    exact UpKept.kept
      ⟨fun _ _ hi => absurd rfl hi, fun _ _ => hcontent, fun _ _ _ _ h => nomatch h⟩ _

theorem kept_startStep (hsound : s.Sound lib) {state : ProfileState τ} {phase : AtomicWrite}
    (hprocess : s.process = .opening state phase) (fault : DiskFault) :
    (s.startStep lib state phase fault).Kept lib := by
  have hholds := hsound.process
  rw [hprocess] at hholds
  have hversions := AtomicWrite.versions_step hholds.2 fault
  unfold Log.startStep
  cases hstep : phase.step s.disk 0 (dumps lib state) fault with
  | mk disk next =>
    rw [hstep] at hversions
    cases next with
    | goesOn phase' | raised => exact fun _ _ _ hprocess' => nomatch hprocess'
    | done =>
      obtain ⟨hne, -⟩ | ⟨-, hnew⟩ := hversions
      · exact absurd rfl hne
      · refine UpKept.kept
          ⟨fun _ _ hi => absurd rfl hi, fun _ _ => ?_, fun _ _ _ _ h => nomatch h⟩ _
        rw [Disk.content?, hnew]
        rfl

theorem Kept.append (h : s.Kept lib) {state : ProfileState τ} {dirty : Bool} {flushes : ℕ → Flush}
    (hprocess : s.process = .up state dirty flushes) (call : SampleCall (Sample τ)) (now : String) :
    (s.append state dirty flushes call now).Kept lib := by
  have hkept := h state dirty flushes hprocess
  unfold Log.append
  split_ifs
  · exact (UpKept.dirty hkept.one).kept _
  · exact hkept.kept _

omit [LinearOrder τ] in
theorem Kept.beginFlush (h : s.Kept lib) {state : ProfileState τ} {dirty : Bool}
    {flushes : ℕ → Flush} (hprocess : s.process = .up state dirty flushes)
    (halone : ∀ j, flushes j = .idle) (i : ℕ) :
    (s.beginFlush lib state dirty flushes i).Kept lib := by
  have hkept := h state dirty flushes hprocess
  unfold Log.beginFlush
  split
  · have hother : ∀ j, Function.update flushes i (.writing (dumps lib state) .creating) j ≠ .idle →
        j = i := by
      intro j hj
      by_contra hne
      rw [Function.update_of_ne hne] at hj
      exact hj (halone j)
    refine UpKept.kept ⟨fun j k hj hk => ?_, fun _ hidle => ?_, fun _ j text phase hj => ?_⟩ _
    · rw [hother j hj, hother k hk]
    · have hi := hidle i
      rw [Function.update_self] at hi
      cases hi
    · obtain rfl := hother j (by rw [hj]; exact nofun)
      rw [Function.update_self] at hj
      cases hj
      rfl
  · exact hkept.kept _

theorem Kept.flushStep (h : s.Kept lib) (hsound : s.Sound lib) {state : ProfileState τ}
    {dirty : Bool} {flushes : ℕ → Flush} (hprocess : s.process = .up state dirty flushes) (i : ℕ)
    (fault : DiskFault) : (s.flushStep state dirty flushes i fault).Kept lib := by
  have hkept := h state dirty flushes hprocess
  unfold Log.flushStep
  cases hflush : flushes i with
  | idle => exact hkept.kept _
  | failing =>
    have hone := oneFlush_update hkept.one (by rw [hflush]; exact nofun) .idle
    exact (UpKept.dirty hone).kept _
  | writing text phase =>
    have hi : flushes i ≠ .idle := by
      rw [hflush]
      exact nofun
    have hholds := hsound.process
    rw [hprocess] at hholds
    have hsoundi := hholds.2 i
    rw [hflush] at hsoundi
    have hversions := AtomicWrite.versions_step hsoundi.2 fault
    have hothers : ∀ flush j text' phase',
        Function.update flushes i flush j = .writing text' phase' → j = i := by
      intro flush j text' phase' hj
      by_contra hne
      rw [Function.update_of_ne hne] at hj
      exact hne (hkept.one j i (by rw [hj]; exact nofun) hi)
    have hbusy : ∀ flush, flush ≠ .idle → ¬ ∀ j, Function.update flushes i flush j = .idle := by
      intro flush hne hidle
      have hself := hidle i
      rw [Function.update_self] at hself
      exact hne hself
    dsimp only
    cases hstep : phase.step s.disk i text fault with
    | mk disk next =>
      rw [hstep] at hversions
      cases next with
      | goesOn phase' =>
        refine UpKept.kept ⟨oneFlush_update hkept.one hi (.writing text phase'),
          fun _ hidle => absurd hidle (hbusy _ nofun), fun hdirty j text' phase'' hj => ?_⟩ _
        obtain rfl := hothers _ j text' phase'' hj
        rw [Function.update_self] at hj
        cases hj
        exact hkept.current hdirty j text phase hflush
      | raised =>
        refine UpKept.kept ⟨oneFlush_update hkept.one hi .failing,
          fun _ hidle => absurd hidle (hbusy _ nofun), fun _ j text' phase'' hj => ?_⟩ _
        obtain rfl := hothers _ j text' phase'' hj
        rw [Function.update_self] at hj
        cases hj
      | done =>
        refine UpKept.kept ⟨oneFlush_update hkept.one hi .idle, fun hdirty _ => ?_,
          fun _ j text' phase'' hj => ?_⟩ _
        · obtain ⟨hne, -⟩ | ⟨-, hnew⟩ := hversions
          · exact absurd rfl hne
          · rw [Disk.content?, hnew, ← hkept.current hdirty i text phase hflush]
            rfl
        · obtain rfl := hothers _ j text' phase'' hj
          rw [Function.update_self] at hj
          cases hj

/-- Flushes that are apart keep what is to be saved. -/
theorem Kept.step (h : s.Kept lib) (hsound : s.Sound lib) {e : LogEvent τ} (halone : s.Alone e) :
    (s.step lib e).Kept lib := by
  refine step_cases h (fun _ _ _ hprocess => nomatch hprocess)
    (fun _ _ _ _ _ hprocess => nomatch hprocess)
    (fun now => kept_ensureInitialized hsound now)
    (fun _ _ fault hprocess => kept_startStep hsound hprocess fault)
    (fun _ _ _ call now hprocess => h.append hprocess call now)
    (fun state dirty flushes i he hprocess => ?_)
    (fun _ _ _ i fault hprocess => h.flushStep hsound hprocess i fault)
  subst he
  exact h.beginFlush hprocess (halone state dirty flushes hprocess) i

/-! ## Every run -/

variable (lib)

/-- Whatever fails: the file is the whole dump of a state that the memory has had, and the next
process goes on with that state. -/
theorem always_recoverable (events : List (LogEvent τ)) :
    Transition.Always (Log.step lib) (Recoverable lib) fresh events := by
  have hsound : Transition.Always (Log.step lib) (Sound lib) fresh events :=
    Transition.Always.of_step (fun _ e h => h.step e) sound_fresh events
  exact hsound.mono fun s h => h.recoverable

/-- When flushes are apart, what there is in the memory is in the file unless it is marked or in
flight. -/
theorem always_saved {events : List (LogEvent τ)}
    (h : Transition.Along (Log.step lib) Alone fresh events) :
    Transition.Always (Log.step lib) (Saved lib) fresh events := by
  have hkept : Transition.Always (Log.step lib) (fun s => s.Sound lib ∧ s.Kept lib) fresh events :=
    Transition.Always.of_along
      (fun s e hs halone => ⟨hs.1.step e, hs.2.step hs.1 halone⟩)
      ⟨sound_fresh, fun _ _ _ hprocess => nomatch hprocess⟩ h
  exact hkept.mono fun s hs => hs.2.savedState

/-- Two floats. -/
def sampleRepr : FloatRepr (Fin 2) where
  repr t := if t = 0 then "0.125" else "2.5"
  parse text := if text = "0.125" then some 0 else if text = "2.5" then some 1 else none
  numeral := by decide
  parse_repr := by decide

def sampleCall (t : Fin 2) : SampleCall (Sample (Fin 2)) :=
  ⟨true, "service.run", "function", .function "2025-01-01T00:00:00+00:00" t⟩

/-- A process starts on an empty directory and calls `_append_sample`. -/
def sampleStart : List (LogEvent (Fin 2)) :=
  [.start "2025-01-01T00:00:00+00:00", .startStep .none, .startStep .none, .startStep .none,
    .startStep .none, .append (sampleCall 1) "2025-01-01T00:00:01+00:00"]

/-- The steps of a flush that nothing fails. -/
def sampleWrite (i : ℕ) : List (LogEvent (Fin 2)) :=
  [.flushStep i .none, .flushStep i .none, .flushStep i .none, .flushStep i .none]

theorem always_saved_sample :
    Transition.Always (Log.step sampleRepr) (Saved sampleRepr) fresh
      (sampleStart ++ [.flush 0] ++ sampleWrite 0 ++ [.crash]) := by
  refine always_saved sampleRepr ⟨trivial, trivial, trivial, trivial, trivial, trivial, ?_, trivial,
    trivial, trivial, trivial, trivial, trivial⟩
  intro state dirty flushes hprocess
  cases hprocess
  exact fun _ => rfl

/-- The flush that began first writes last: the file has the older state for good. -/
theorem not_saved_overlap :
    ¬ (Transition.runFrom (Log.step sampleRepr) fresh (sampleStart ++ [.flush 0,
      .append (sampleCall 0) "2025-01-01T00:00:02+00:00", .flush 1] ++ sampleWrite 1 ++
      sampleWrite 0)).Saved sampleRepr := by
  intro hsaved
  have hcontent := hsaved _ _ rfl fun i => by
    rcases eq_or_ne i 0 with rfl | h0
    · rfl
    · rcases eq_or_ne i 1 with rfl | h1
      · rfl
      · simp [Function.update_of_ne h0, Function.update_of_ne h1]
  let older : ProfileState (Fin 2) :=
    ⟨"2025-01-01T00:00:01+00:00", appendSample Sample.elapsedMs ∅ (sampleCall 1)⟩
  have holder : load? sampleRepr (dumps sampleRepr older) = some older := load?_dumps _ older
  have htext : dumps sampleRepr older = dumps sampleRepr
      ⟨"2025-01-01T00:00:02+00:00", appendSample Sample.elapsedMs older.entries (sampleCall 0)⟩ :=
    Option.some.inj hcontent
  rw [htext, load?_dumps] at holder
  have htime := congrArg ProfileState.updatedAt (Option.some.inj holder)
  exact absurd htime (by decide)

end Log

end ProfileLog

end AranesLms
