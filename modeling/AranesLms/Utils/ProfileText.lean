import AranesLms.Lib.JsonIndent
import AranesLms.Utils.Profiler

/-!
# The text of the profile

`_STATE` of `src/utils/profiler.py` and the text that `json.dumps` with `indent=2` makes of it,
which is the content of the log file.  The floats are an order with a `repr` that is a numeral and
is read back.  `load?` gives back what was dumped (`load?_dumps`).
-/

namespace AranesLms

namespace ProfileLog

open JsonText (IsNumeral Writable)

/-- The texts of floats. -/
structure FloatRepr (τ : Type) where
  repr : τ → String
  parse : String → Option τ
  numeral : ∀ t, IsNumeral (repr t)
  parse_repr : ∀ t, parse (repr t) = some t

/-- The samples of `_emit_function_profile` and `emit_request_profile`. -/
inductive Sample (τ : Type) where
  | function (tsUtc : String) (elapsedMs : τ)
  | request (tsUtc method path : String) (statusCode : ℕ) (elapsedMs : τ)

def Sample.elapsedMs {τ : Type} : Sample τ → τ
  | function _ elapsedMs | request _ _ _ _ elapsedMs => elapsedMs

/-- `_STATE`, whose version is 1. -/
structure ProfileState (τ : Type) where
  updatedAt : String
  entries : ProfileEntries (Sample τ) τ

/-- `_default_state`. -/
def defaultState {τ : Type} (now : String) : ProfileState τ := ⟨now, ∅⟩

/-! ## Members -/

def natural (n : ℕ) : Json := .number (toString n)

def natural? : Json → Option ℕ
  | .number m => if m.toList.all Char.isDigit then some (Nat.ofDigitChars 10 m.toList 0) else none
  | _ => none

def text? : Json → Option String
  | .str s => some s
  | _ => none

theorem natural?_natural (n : ℕ) : natural? (natural n) = some n := by
  have hlist : (toString n).toList = Nat.toDigits 10 n := Nat.toList_repr
  have hdigits : (Nat.toDigits 10 n).all Char.isDigit = true := by
    rw [List.all_eq_true]
    exact fun c hc => Nat.isDigit_of_mem_toDigits (by decide) (le_refl 10) hc
  rw [natural, natural?, hlist, if_pos hdigits, Nat.ofDigitChars_toDigits (by decide) (le_refl 10)]

theorem member?_ofEntries {es : List (String × Json)} {k : String} {v : Json}
    (hes : (es.map Prod.fst).Nodup) (h : (k, v) ∈ es) : (Json.ofEntries es).member? k = some v := by
  rw [Json.member?, Json.ofEntries, Json.asDict?_obj, Option.bind_some]
  exact OrderedDict.get?_setAll_of_mem _ hes h

theorem member?_ofEntries_of_notMem {es : List (String × Json)} {k : String}
    (h : k ∉ es.map Prod.fst) : (Json.ofEntries es).member? k = none := by
  rw [Json.member?, Json.ofEntries, Json.asDict?_obj, Option.bind_some,
    OrderedDict.get?_setAll_of_notMem _ h]
  rfl

theorem writable_ofEntries {es : List (String × Json)} (h : ∀ e ∈ es, Writable e.2) :
    Writable (.ofEntries es) :=
  JsonText.writable_obj.2 fun e he => h e
    ((OrderedDict.mem_of_mem_setAll _ he).resolve_left (OrderedDict.notMem_empty e))

variable {τ : Type} (lib : FloatRepr τ)

def float (t : τ) : Json := .number (lib.repr t)

def float? : Json → Option τ
  | .number m => lib.parse m
  | _ => none

theorem float?_float (t : τ) : float? lib (float lib t) = some t := lib.parse_repr t

theorem writable_float (t : τ) : Writable (float lib t) := lib.numeral t

theorem writable_natural (n : ℕ) : Writable (natural n) := JsonText.isNumeral_toString n

/-! ## Samples -/

def Sample.toJson : Sample τ → Json
  | function tsUtc elapsedMs =>
    .ofEntries [("ts_utc", .str tsUtc), ("elapsed_ms", float lib elapsedMs)]
  | request tsUtc method path statusCode elapsedMs =>
    .ofEntries [("ts_utc", .str tsUtc), ("method", .str method), ("path", .str path),
      ("status_code", natural statusCode), ("elapsed_ms", float lib elapsedMs)]

def sample? (j : Json) : Option (Sample τ) := do
  let tsUtc ← text? (← j.member? "ts_utc")
  let elapsedMs ← float? lib (← j.member? "elapsed_ms")
  match j.member? "method" with
  | none => return .function tsUtc elapsedMs
  | some method =>
    return .request tsUtc (← text? method) (← text? (← j.member? "path"))
      (← natural? (← j.member? "status_code")) elapsedMs

theorem sample?_toJson (sample : Sample τ) : sample? lib (sample.toJson lib) = some sample := by
  cases sample with
  | function tsUtc elapsedMs =>
    have hnodup : (["ts_utc", "elapsed_ms"] : List String).Nodup := by decide
    have hget : ∀ k v, (k, v) ∈ [("ts_utc", Json.str tsUtc), ("elapsed_ms", float lib elapsedMs)] →
        ((Sample.function tsUtc elapsedMs).toJson lib).member? k = some v :=
      fun k v h => member?_ofEntries hnodup h
    have hmethod : ((Sample.function tsUtc elapsedMs).toJson lib).member? "method" = none :=
      member?_ofEntries_of_notMem (by simp)
    rw [sample?, hget "ts_utc" (.str tsUtc) (by simp),
      hget "elapsed_ms" (float lib elapsedMs) (by simp), hmethod]
    simp [text?, float?_float]
  | request tsUtc method path statusCode elapsedMs =>
    have hnodup : (["ts_utc", "method", "path", "status_code", "elapsed_ms"] : List String).Nodup :=
      by decide
    have hget : ∀ k v, (k, v) ∈ [("ts_utc", Json.str tsUtc), ("method", .str method),
        ("path", .str path), ("status_code", natural statusCode),
        ("elapsed_ms", float lib elapsedMs)] →
        ((Sample.request tsUtc method path statusCode elapsedMs).toJson lib).member? k = some v :=
      fun k v h => member?_ofEntries hnodup h
    rw [sample?, hget "ts_utc" (.str tsUtc) (by simp),
      hget "elapsed_ms" (float lib elapsedMs) (by simp),
      hget "method" (.str method) (by simp), hget "path" (.str path) (by simp),
      hget "status_code" (natural statusCode) (by simp)]
    simp [text?, float?_float, natural?_natural]

theorem writable_sample (sample : Sample τ) : Writable (sample.toJson lib) := by
  cases sample with
  | function tsUtc elapsedMs =>
    refine writable_ofEntries ?_
    simp only [List.forall_mem_cons]
    exact ⟨trivial, writable_float lib elapsedMs, fun _ h => absurd h List.not_mem_nil⟩
  | request tsUtc method path statusCode elapsedMs =>
    refine writable_ofEntries ?_
    simp only [List.forall_mem_cons]
    exact ⟨trivial, trivial, trivial, writable_natural statusCode, writable_float lib elapsedMs,
      fun _ h => absurd h List.not_mem_nil⟩

/-! ## Entries -/

def entryToJson (entry : ProfileEntry (Sample τ) τ) : Json :=
  .ofEntries [("kind", .str entry.kind), ("unique_key", .str entry.uniqueKey),
    ("count", natural entry.count), ("fastest_ms", float lib entry.fastestMs),
    ("slowest_ms", float lib entry.slowestMs),
    ("samples", .arr (entry.samples.map (Sample.toJson lib)))]

def entryOf? (j : Json) : Option (ProfileEntry (Sample τ) τ) := do
  return {
    kind := ← text? (← j.member? "kind")
    uniqueKey := ← text? (← j.member? "unique_key")
    count := ← natural? (← j.member? "count")
    fastestMs := ← float? lib (← j.member? "fastest_ms")
    slowestMs := ← float? lib (← j.member? "slowest_ms")
    samples := ← (← (← j.member? "samples").asList?).mapM (sample? lib) }

theorem mapM_toJson {α β : Type} {read : β → Option α} {write : α → β}
    (h : ∀ a, read (write a) = some a) (l : List α) : (l.map write).mapM read = some l := by
  induction l with
  | nil => rfl
  | cons a l ih => simp [h, ih]

theorem entryOf?_toJson (entry : ProfileEntry (Sample τ) τ) :
    entryOf? lib (entryToJson lib entry) = some entry := by
  have hnodup : (["kind", "unique_key", "count", "fastest_ms", "slowest_ms", "samples"] :
      List String).Nodup := by decide
  have hget : ∀ k v, (k, v) ∈ [("kind", Json.str entry.kind), ("unique_key", .str entry.uniqueKey),
      ("count", natural entry.count), ("fastest_ms", float lib entry.fastestMs),
      ("slowest_ms", float lib entry.slowestMs),
      ("samples", .arr (entry.samples.map (Sample.toJson lib)))] →
      (entryToJson lib entry).member? k = some v :=
    fun k v h => member?_ofEntries hnodup h
  rw [entryOf?, hget "kind" (.str entry.kind) (by simp),
    hget "unique_key" (.str entry.uniqueKey) (by simp),
    hget "count" (natural entry.count) (by simp),
    hget "fastest_ms" (float lib entry.fastestMs) (by simp),
    hget "slowest_ms" (float lib entry.slowestMs) (by simp),
    hget "samples" (.arr (entry.samples.map (Sample.toJson lib))) (by simp)]
  simp [text?, float?_float, natural?_natural, mapM_toJson (sample?_toJson lib)]

theorem writable_entry (entry : ProfileEntry (Sample τ) τ) : Writable (entryToJson lib entry) := by
  refine writable_ofEntries ?_
  simp only [List.forall_mem_cons]
  refine ⟨trivial, trivial, writable_natural _, writable_float lib _, writable_float lib _, ?_,
    fun _ h => absurd h List.not_mem_nil⟩
  refine JsonText.writable_arr.2 fun j hj => ?_
  obtain ⟨sample, -, rfl⟩ := List.mem_map.1 hj
  exact writable_sample lib sample

/-! ## The state -/

def ProfileState.toJson (state : ProfileState τ) : Json :=
  .ofEntries [("version", natural 1), ("updated_at", .str state.updatedAt),
    ("entries", .obj (state.entries.mapVal fun _ entry => entryToJson lib entry))]

/-- The members of a dictionary, each of which is to be read. -/
def readEntries (d : OrderedDict String Json) : Option (ProfileEntries (Sample τ) τ) :=
  (d.entries.mapM fun e : String × Json => (entryOf? lib e.2).map fun entry => (e.1, entry)).map
    fun es => (∅ : ProfileEntries (Sample τ) τ).setAll es

def state? (j : Json) : Option (ProfileState τ) := do
  let updatedAt ← text? (← j.member? "updated_at")
  let entries ← readEntries lib (← (← j.member? "entries").asDict?)
  return ⟨updatedAt, entries⟩

/-- `json.dumps(_STATE, ensure_ascii=True, indent=2)`. -/
def dumps (state : ProfileState τ) : List Char := JsonText.printIndented 0 (state.toJson lib)

/-- What a process reads from the file. -/
def load? (text : List Char) : Option (ProfileState τ) := (JsonText.loads text).bind (state? lib)

theorem readEntries_mapVal (entries : ProfileEntries (Sample τ) τ) :
    readEntries lib (entries.mapVal fun _ entry => entryToJson lib entry) = some entries := by
  have hread : ∀ e : String × ProfileEntry (Sample τ) τ,
      ((entryOf? lib (entryToJson lib e.2)).map fun entry => (e.1, entry)) = some e := by
    intro e
    rw [entryOf?_toJson, Option.map_some]
  have hall : ((entries.entries.map fun e => (e.1, entryToJson lib e.2)).mapM
      fun e : String × Json => (entryOf? lib e.2).map fun entry => (e.1, entry)) =
        some entries.entries := mapM_toJson hread entries.entries
  rw [readEntries]
  change Option.map _ (((entries.entries.map fun e => (e.1, entryToJson lib e.2)).mapM
    fun e : String × Json => (entryOf? lib e.2).map fun entry => (e.1, entry))) = _
  rw [hall, Option.map_some, OrderedDict.setAll_entries]

theorem state?_toJson (state : ProfileState τ) : state? lib (state.toJson lib) = some state := by
  have hnodup : (["version", "updated_at", "entries"] : List String).Nodup := by decide
  have hget : ∀ k v, (k, v) ∈ [("version", natural 1), ("updated_at", .str state.updatedAt),
      ("entries", .obj (state.entries.mapVal fun _ entry => entryToJson lib entry))] →
      (state.toJson lib).member? k = some v :=
    fun k v h => member?_ofEntries hnodup h
  rw [state?, hget "updated_at" (.str state.updatedAt) (by simp),
    hget "entries" (.obj (state.entries.mapVal fun _ entry => entryToJson lib entry)) (by simp)]
  simp [text?, readEntries_mapVal]

/-- What was dumped is read back. -/
theorem load?_dumps (state : ProfileState τ) : load? lib (dumps lib state) = some state := by
  have hwritable : Writable (state.toJson lib) := by
    refine writable_ofEntries ?_
    simp only [List.forall_mem_cons]
    refine ⟨writable_natural 1, trivial, ?_, fun _ h => absurd h List.not_mem_nil⟩
    refine JsonText.writable_obj.2 fun e he => ?_
    obtain ⟨e', -, rfl⟩ := List.mem_map.1 he
    exact writable_entry lib e'.2
  rw [load?, dumps, JsonText.loads_printIndented hwritable, Option.bind_some, state?_toJson]

end ProfileLog

end AranesLms
