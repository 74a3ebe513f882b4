import Mathlib.Tactic.Common

/-!
# HTTP

Exceptions that become responses, and headers.  Header names are in lower case, as the server and
the client library give them.
-/

namespace AranesLms

/-- The detail of an `HTTPException`: a text, or a text with the data that goes with it. -/
inductive Detail where
  | text (message : String)
  | userCount (message : String) (userCount : ℕ)
  | duplicateKeys (message : String) (duplicateKeys : List String)
  deriving DecidableEq

instance : Coe String Detail := ⟨.text⟩

structure HttpException where
  statusCode : ℕ
  detail : Detail
  deriving DecidableEq

/-- Headers in the order they were received, possibly with repeated names. -/
abbrev Headers := List (String × String)

namespace Headers

/-- `dict(headers)`: the first value of each name. -/
def dict : Headers → Headers
  | [] => []
  | h :: hs => h :: (dict hs).filter fun h' => h'.1 ≠ h.1

/-- `dict.pop`. -/
def pop (hs : Headers) (name : String) : Headers := hs.filter fun h => h.1 ≠ name

/-- All values of a name. -/
def getlist (hs : Headers) (name : String) : List String :=
  (hs.filter fun h => h.1 = name).map Prod.snd

/-- The headers of a response from the client library: the values of a repeated name are joined. -/
def items (hs : Headers) : Headers :=
  (dict hs).map fun h => (h.1, ", ".intercalate (hs.getlist h.1))

/-- Some header has the name. -/
def Has (hs : Headers) (name : String) : Prop := ∃ h ∈ hs, h.1 = name

instance (hs : Headers) (name : String) : Decidable (hs.Has name) :=
  inferInstanceAs (Decidable (∃ h ∈ hs, h.1 = name))

theorem has_dict {hs : Headers} {name : String} : hs.dict.Has name ↔ hs.Has name := by
  induction hs with
  | nil => rfl
  | cons h hs ih =>
    have hcons : ∀ l : Headers, Has (h :: l) name ↔ h.1 = name ∨ l.Has name := fun l => by
      simp [Has]
    rw [dict, hcons, hcons, ← ih]
    by_cases heq : h.1 = name
    · simp [heq]
    · refine or_congr_right ⟨?_, ?_⟩
      · rintro ⟨h', hmem, hname⟩
        exact ⟨h', (List.mem_filter.1 hmem).1, hname⟩
      · rintro ⟨h', hmem, hname⟩
        refine ⟨h', List.mem_filter.2 ⟨hmem, ?_⟩, hname⟩
        rw [hname]
        simpa using Ne.symm heq

theorem has_pop {hs : Headers} {name other : String} (h : name ≠ other) :
    (hs.pop other).Has name ↔ hs.Has name := by
  constructor
  · rintro ⟨h', hmem, hname⟩
    exact ⟨h', (List.mem_filter.1 hmem).1, hname⟩
  · rintro ⟨h', hmem, hname⟩
    refine ⟨h', List.mem_filter.2 ⟨hmem, ?_⟩, hname⟩
    rw [hname]
    simpa using h

end Headers

/-- `HOP_BY_HOP_HEADERS`. -/
def hopByHopHeaders : List String :=
  ["connection", "keep-alive", "proxy-authenticate", "proxy-authorization", "te", "trailer",
    "transfer-encoding", "upgrade"]

end AranesLms
