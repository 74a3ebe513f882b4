import Mathlib.Data.List.Basic
import Mathlib.Logic.Function.Basic
import Mathlib.Tactic.Common

/-!
# Replacing a file at once

A file that is only ever replaced, by renaming a temporary file that has been written and
synchronised before (`AtomicWrite.step`).  Any number of writers take their steps in any order, any
of them may fail, and the system may go down at any point: a crash leaves the temporary files, and a
power failure also takes back renames and spoils what had not been synchronised.  The file holds one
of the texts that were to be written, as a whole, whatever happens (`Disk.Whole`).
-/

variable {α : Type*}

/-- A temporary file: what has been written to it, and whether that has been synchronised. -/
structure TempFile (α : Type*) where
  content : List α
  synced : Bool

/-- The contents that the file has had, the current one first, and the temporary files of the
writers. -/
structure Disk (α : Type*) where
  versions : List (TempFile α)
  temps : ℕ → Option (TempFile α)

namespace Disk

variable (d : Disk α)

/-- The content of the file, if there is one. -/
def content? : Option (List α) := d.versions.head?.map TempFile.content

def setTemp (w : ℕ) (temp : Option (TempFile α)) : Disk α :=
  { d with temps := Function.update d.temps w temp }

def create (w : ℕ) : Disk α := d.setTemp w (some ⟨[], false⟩)

def write (w : ℕ) (text : List α) : Disk α :=
  d.setTemp w ((d.temps w).map fun temp => ⟨temp.content ++ text, false⟩)

def sync (w : ℕ) : Disk α := d.setTemp w ((d.temps w).map fun temp => ⟨temp.content, true⟩)

/-- The temporary file is renamed. -/
def replace (w : ℕ) : Disk α :=
  match d.temps w with
  | some temp => { d with versions := temp :: d.versions }.setTemp w none
  | none => d

def unlink (w : ℕ) : Disk α := d.setTemp w none

/-- The last `n` renames are lost, and `spoilt` is found where nothing had been synchronised. -/
def powerFailure (n : ℕ) (spoilt : List α) : Disk α where
  versions := (d.versions.drop n).map fun v => if v.synced then v else ⟨spoilt, true⟩
  temps := fun _ => none

/-- Whatever happens to the disk, the file holds one of the texts, as a whole. -/
structure Whole (P : List α → Prop) : Prop where
  text : ∀ v ∈ d.versions, P v.content
  synced : ∀ v ∈ d.versions, v.synced = true

variable {d} {P Q : List α → Prop}

theorem Whole.mono (h : d.Whole P) (hPQ : ∀ text, P text → Q text) : d.Whole Q :=
  ⟨fun v hv => hPQ v.content (h.text v hv), h.synced⟩

theorem Whole.content (h : d.Whole P) {text : List α} (htext : d.content? = some text) :
    P text := by
  obtain ⟨v, hv, rfl⟩ := Option.map_eq_some_iff.1 htext
  exact h.text v (List.mem_of_mem_head? hv)

theorem Whole.setTemp (h : d.Whole P) (w : ℕ) (temp : Option (TempFile α)) :
    (d.setTemp w temp).Whole P := ⟨h.text, h.synced⟩

theorem Whole.powerFailure (h : d.Whole P) (n : ℕ) (spoilt : List α) :
    (d.powerFailure n spoilt).Whole P := by
  have hkept : ∀ v ∈ (d.powerFailure n spoilt).versions, v ∈ d.versions := by
    intro v hv
    obtain ⟨v', hv', rfl⟩ := List.mem_map.1 hv
    have hmem := List.mem_of_mem_drop hv'
    rw [if_pos (h.synced v' hmem)]
    exact hmem
  exact ⟨fun v hv => h.text v (hkept v hv), fun v hv => h.synced v (hkept v hv)⟩

end Disk

/-! ## Writing a text -/

/-- Where the writing of a text is. -/
inductive AtomicWrite where
  | creating
  | writing
  | syncing
  | replacing
  | unlinking
  deriving DecidableEq

/-- How a step of the operating system ends; a write that fails has written some of the text. -/
inductive DiskFault where
  | none
  | fails (written : ℕ)
  deriving DecidableEq

/-- Where the writing is after a step, or whether it has ended without an exception. -/
inductive AtomicWrite.Next where
  | goesOn (phase : AtomicWrite)
  | done
  | raised

namespace AtomicWrite

/-- One step of the writer `w` that writes `text`; a rename that fails is followed by the removal of
the temporary file, and an exception of the removal is dropped. -/
def step (d : Disk α) (w : ℕ) (text : List α) : AtomicWrite → DiskFault → Disk α × Next
  | creating, .none => (d.create w, .goesOn writing)
  | creating, .fails _ => (d, .raised)
  | writing, .none => (d.write w text, .goesOn syncing)
  | writing, .fails n => (d.write w (text.take n), .raised)
  | syncing, .none => (d.sync w, .goesOn replacing)
  | syncing, .fails _ => (d, .raised)
  | replacing, .none => (d.replace w, .done)
  | replacing, .fails _ => (d, .goesOn unlinking)
  | unlinking, .none => (d.unlink w, .raised)
  | unlinking, .fails _ => (d, .raised)

/-- What the temporary file of the writer holds when the writing is there. -/
def Holds (d : Disk α) (w : ℕ) (text : List α) : AtomicWrite → Prop
  | creating | unlinking => True
  | writing => d.temps w = some ⟨[], false⟩
  | syncing => d.temps w = some ⟨text, false⟩
  | replacing => d.temps w = some ⟨text, true⟩

variable {d : Disk α} {w : ℕ} {text : List α} {phase : AtomicWrite} {fault : DiskFault}
  {P : List α → Prop}

theorem temps_setTemp_of_ne {w' : ℕ} (h : w' ≠ w) (temp : Option (TempFile α)) :
    (d.setTemp w temp).temps w' = d.temps w' :=
  Function.update_of_ne h _ _

theorem temps_replace_of_ne {w' : ℕ} (h : w' ≠ w) : (d.replace w).temps w' = d.temps w' := by
  unfold Disk.replace
  split
  · exact temps_setTemp_of_ne h none
  · rfl

/-- A writer leaves the temporary files of the others alone. -/
theorem temps_step {w' : ℕ} (h : w' ≠ w) :
    (step d w text phase fault).1.temps w' = d.temps w' := by
  cases phase <;> cases fault <;>
    first
    | rfl
    | exact temps_setTemp_of_ne h _
    | exact temps_replace_of_ne h

theorem Holds.of_temps {d' : Disk α} (h : phase.Holds d w text) (heq : d'.temps w = d.temps w) :
    phase.Holds d' w text := by
  cases phase with
  | creating | unlinking => trivial
  | writing | syncing | replacing => exact heq.trans h

/-- Writing goes on with the right content in the temporary file. -/
theorem Holds.step (h : phase.Holds d w text) (fault : DiskFault) {phase' : AtomicWrite}
    (hnext : (step d w text phase fault).2 = .goesOn phase') :
    phase'.Holds (AtomicWrite.step d w text phase fault).1 w text := by
  cases phase <;> cases fault <;> cases hnext
  · exact Function.update_self _ _ _
  · exact (Function.update_self _ _ _).trans (by rw [show d.temps w = _ from h]; rfl)
  · exact (Function.update_self _ _ _).trans (by rw [show d.temps w = _ from h]; rfl)
  · trivial

/-- The file is left alone, or holds the text at the end. -/
theorem versions_step (h : phase.Holds d w text) (fault : DiskFault) :
    (step d w text phase fault).2 ≠ .done ∧
        (step d w text phase fault).1.versions = d.versions ∨
      (step d w text phase fault).2 = .done ∧
        (step d w text phase fault).1.versions = ⟨text, true⟩ :: d.versions := by
  cases phase <;> cases fault
  case replacing.none =>
    refine Or.inr ⟨rfl, ?_⟩
    change (d.replace w).versions = _
    rw [Disk.replace, show d.temps w = _ from h]
    rfl
  all_goals exact Or.inl ⟨nofun, rfl⟩

theorem whole_step (hd : d.Whole P) (h : phase.Holds d w text) (htext : P text) :
    (step d w text phase fault).1.Whole P := by
  rcases versions_step h fault with ⟨-, hsame⟩ | ⟨-, hnew⟩
  · exact ⟨fun v hv => hd.text v (hsame ▸ hv), fun v hv => hd.synced v (hsame ▸ hv)⟩
  · refine ⟨fun v hv => ?_, fun v hv => ?_⟩
    · rw [hnew] at hv
      rcases List.mem_cons.1 hv with rfl | hv
      · exact htext
      · exact hd.text v hv
    · rw [hnew] at hv
      rcases List.mem_cons.1 hv with rfl | hv
      · rfl
      · exact hd.synced v hv

end AtomicWrite
