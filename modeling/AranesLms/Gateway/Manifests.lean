import AranesLms.Auth.Tokens
import AranesLms.Gateway.Launch
import AranesLms.Lib.UniqueTable
import AranesLms.Lib.Utf8

/-!
# Manifests

`_load_manifest` of `gateway_server/gateway.py` reads the `manifest.json` of a service directory and
gives every field a usable value (`wellFormed_of_pluginManifest`).  What it does not catch ends
`discover_services`, and with it the start of the gateway: bytes that are not UTF-8, a value that is
no object, and an integer that no double can hold (`survives_iff`).
-/

namespace AranesLms

namespace Gateway

/-- The doubles of Python, the texts of the values that are no strings, and `json.loads`, which
gives nothing for a `JSONDecodeError`. -/
structure Interpreter where
  Double : Type
  ofInt : ℤ → Double
  ofNumeral : String → Double
  ofText : String → Option Double
  isPos : Double → Bool
  isZero : Double → Bool
  repr : Json → String
  loads : String → Option Json

/-- What is at `manifest.json`: no file, one that raises an `OSError`, or one with these bytes. -/
inductive ManifestFile where
  | absent
  | unreadable
  | content (bytes : List UInt8)

/-- An entry of the services root. -/
structure Directory where
  name : String
  isDir : Bool
  manifestJson : ManifestFile
  runScript : Bool

/-- The names of the entries of a directory are distinct. -/
abbrev ServicesRoot := UniqueTable [Directory.name]

/-- `PluginManifest` with all of its fields. -/
structure FullManifest (Double : Type) extends PluginManifest where
  version : String
  runtime : String
  startupTimeoutSeconds : Double

/-- The line ends of `read_text`. -/
def universalNewlines : List Char → List Char
  | '\r' :: '\n' :: cs => '\n' :: universalNewlines cs
  | '\r' :: cs => '\n' :: universalNewlines cs
  | c :: cs => c :: universalNewlines cs
  | [] => []

/-- `read_text(encoding="utf-8")`; a `UnicodeDecodeError` is a `ValueError`. -/
def readText (bytes : List UInt8) : Except PyError String :=
  match Utf8.decodeStrict bytes with
  | some text => .ok (String.ofList (universalNewlines text))
  | none => .error .valueError

section

variable (py : Interpreter)

/-! ## The fields -/

namespace Interpreter

/-- `str`. -/
def str : Json → String
  | .str s => s
  | value => py.repr value

/-- `float`. -/
def float : Json → Except PyError py.Double
  | .bool b => .ok (py.ofInt (if b then 1 else 0))
  | .number numeral =>
    match numeral.toInt? with
    | some n =>
      -- The nearest double would be 2 ^ 1024.
      if 2 ^ 1024 - 2 ^ 970 ≤ n.natAbs then .error .overflowError else .ok (py.ofInt n)
    | none => .ok (py.ofNumeral numeral)
  | .str s =>
    match py.ofText s with
    | some x => .ok x
    | none => .error .valueError
  | _ => .error .typeError

end Interpreter

def normalizeManifestText (value : Json) (default : String) : String :=
  let text := if value ≠ .null then strip (py.str value) else ""
  if text ≠ "" then text else default

def normalizeManifestOptionalPath (value : Json) : Option String :=
  if value = .null then none
  else
    let text := strip (py.str value)
    if text = "" then none else some (if startsWith text "/" then text else "/" ++ text)

def normalizeManifestPath (value : Json) (default : String) : String :=
  (normalizeManifestOptionalPath py value).getD default

def normalizeManifestStartCommand (value : Json) : List String :=
  if value = .null then []
  else
    match value.asList? with
    | some items => (items.map fun item => strip (py.str item)).filter fun part => part ≠ ""
    | none =>
      let stripped := strip (py.str value)
      if stripped ≠ "" then [stripped] else []

def isBlank : Json → Bool
  | .str s => strip s = ""
  | _ => false

def normalizeManifestFloat (value : Json) (default : py.Double) : Except PyError py.Double :=
  if value = .null then .ok default
  else if isBlank value then .ok default
  else
    match py.float value with
    | .ok parsed => .ok (if py.isPos parsed then parsed else default)
    | .error .typeError => .ok default
    | .error .valueError => .ok default
    | .error e => .error e

/-- No letter outside ASCII has one of these words as its lower case. -/
def normalizeManifestBool (value : Json) (default : Bool) : Bool :=
  match value with
  | .null => default
  | .bool b => b
  | .number numeral =>
    match numeral.toInt? with
    | some n => n ≠ 0
    | none => ¬ py.isZero (py.ofNumeral numeral)
  | value =>
    let normalized := (strip (py.str value)).toLower
    if normalized = "" then default
    else if normalized ∈ ["1", "true", "yes", "on"] then true
    else if normalized ∈ ["0", "false", "no", "off"] then false
    else default

/-! ## The file -/

def readinessTimeoutSeconds : ℤ := 20

/-- The manifest for the value of a file. -/
def pluginManifest (data : Json) (dirName : String) : Except PyError (FullManifest py.Double) :=
  match data.asDict? with
  | none => .error .attributeError
  | some d => do
    let get (k : String) : Json := (d.get? k).getD .null
    let startupTimeoutSeconds ← normalizeManifestFloat py (get "startup_timeout_seconds")
      (py.ofInt readinessTimeoutSeconds)
    return {
      pluginName := normalizeManifestText py (get "plugin_name") dirName
      version := normalizeManifestText py (get "version") "0.0.0"
      runtime := normalizeManifestText py (get "runtime") "unknown"
      startCommand := normalizeManifestStartCommand py (get "start_command")
      healthPath := normalizeManifestPath py (get "health_path") "/health"
      openapiPath := normalizeManifestOptionalPath py (get "openapi_path")
      startupTimeoutSeconds
      autoStart := normalizeManifestBool py (get "auto_start") true }

/-- `_load_manifest`. -/
def loadManifest (serviceDir : Directory) : Except PyError (Option (FullManifest py.Double)) :=
  match serviceDir.manifestJson with
  | .absent => .ok none
  | .unreadable => .ok none
  | .content bytes => do
    let text ← readText bytes
    match py.loads text with
    | none => return none
    | some data => some <$> pluginManifest py data serviceDir.name

def Directory.toServiceDir (dir : Directory) : ServiceDir where
  name := dir.name
  isDir := dir.isDir
  loadManifest := Option.map FullManifest.toPluginManifest <$> loadManifest py dir
  runScript := dir.runScript

def discover (dirs : List Directory) : Except PyError (List DiscoveredService) :=
  discoverServices (dirs.map (Directory.toServiceDir py))

/-! ## What a manifest gives -/

section

variable {py}

theorem normalizeManifestText_ne {value : Json} {default : String} (h : default ≠ "") :
    normalizeManifestText py value default ≠ "" := by
  rw [normalizeManifestText]
  generalize (if value ≠ .null then strip (py.str value) else "") = text
  split_ifs with htext
  · exact htext
  · exact h

theorem startsWith_of_normalizeManifestOptionalPath {value : Json} {path : String}
    (h : normalizeManifestOptionalPath py value = some path) : startsWith path "/" := by
  rw [normalizeManifestOptionalPath] at h
  dsimp only at h
  split_ifs at h with hnull hempty hslash
  · cases h
    exact hslash
  · cases h
    exact startsWith_append "/" _

theorem startsWith_normalizeManifestPath {value : Json} {default : String}
    (h : startsWith default "/") : startsWith (normalizeManifestPath py value default) "/" := by
  rw [normalizeManifestPath]
  cases hpath : normalizeManifestOptionalPath py value with
  | none => exact h
  | some path => exact startsWith_of_normalizeManifestOptionalPath hpath

theorem ne_of_mem_normalizeManifestStartCommand {value : Json} {part : String}
    (h : part ∈ normalizeManifestStartCommand py value) : part ≠ "" := by
  rw [normalizeManifestStartCommand] at h
  split_ifs at h
  · exact absurd h List.not_mem_nil
  · cases hitems : value.asList? with
    | some items =>
      rw [hitems] at h
      exact of_decide_eq_true (List.mem_filter.1 h).2
    | none =>
      rw [hitems] at h
      dsimp only at h
      split_ifs at h with hstripped
      · exact List.mem_singleton.1 h ▸ hstripped
      · exact absurd h List.not_mem_nil

theorem normalizeManifestFloat_ok {value : Json} {default seconds : py.Double}
    (h : normalizeManifestFloat py value default = .ok seconds) :
    py.isPos seconds ∨ seconds = default := by
  rw [normalizeManifestFloat] at h
  split_ifs at h
  · exact Or.inr (Except.ok.inj h).symm
  · exact Or.inr (Except.ok.inj h).symm
  · split at h
    · obtain rfl := Except.ok.inj h
      split_ifs with hpos
      · exact Or.inl hpos
      · exact Or.inr rfl
    · exact Or.inr (Except.ok.inj h).symm
    · exact Or.inr (Except.ok.inj h).symm
    · cases h

/-- What the start of a service relies on. -/
structure FullManifest.WellFormed (m : FullManifest py.Double) : Prop where
  pluginName : m.pluginName ≠ ""
  version : m.version ≠ ""
  runtime : m.runtime ≠ ""
  startCommand : ∀ part ∈ m.startCommand, part ≠ ""
  healthPath : startsWith m.healthPath "/"
  openapiPath : ∀ path, m.openapiPath = some path → startsWith path "/"
  startupTimeoutSeconds : py.isPos m.startupTimeoutSeconds ∨
    m.startupTimeoutSeconds = py.ofInt readinessTimeoutSeconds

/-- Whatever the fields of an object are, its manifest is well formed. -/
theorem wellFormed_of_pluginManifest {data : Json} {dirName : String}
    {m : FullManifest py.Double} (hname : dirName ≠ "")
    (h : pluginManifest py data dirName = .ok m) : m.WellFormed := by
  rw [pluginManifest] at h
  cases hd : data.asDict? with
  | none =>
    rw [hd] at h
    cases h
  | some d =>
    rw [hd] at h
    obtain ⟨seconds, hseconds, h⟩ := Except.bind_eq_ok.1 h
    cases h
    exact
      { pluginName := normalizeManifestText_ne hname
        version := normalizeManifestText_ne (by decide)
        runtime := normalizeManifestText_ne (by decide)
        startCommand := fun _ => ne_of_mem_normalizeManifestStartCommand
        healthPath := startsWith_normalizeManifestPath (by decide)
        openapiPath := fun _ => startsWith_of_normalizeManifestOptionalPath
        startupTimeoutSeconds := normalizeManifestFloat_ok hseconds }

end

/-! ## What discovery should do -/

/-- The object in a file, if it is UTF-8 and JSON. -/
def ManifestFile.object? : ManifestFile → Option (OrderedDict String Json)
  | .content bytes => ((readText bytes).toOption.bind py.loads).bind Json.asDict?
  | _ => none

def Directory.withoutManifest (dir : Directory) : Directory := { dir with manifestJson := .absent }

/-- Nothing is raised; the services stand in the order of the directories; a directory gives what
it gives alone, and a manifest that is no object counts for nothing. -/
structure Survives (root : ServicesRoot) (services : List DiscoveredService) : Prop where
  ok : discover py root.rows = .ok services
  sorted : services.Pairwise fun s s' => s.directory ≤ s'.directory
  directory_mem : ∀ s ∈ services, ∃ dir ∈ root, s.directory = dir.name
  alone : ∀ dir ∈ root, discover py [dir] = .ok (services.filter fun s => s.directory = dir.name)
  absent : ∀ dir ∈ root, dir.manifestJson.object? py = none →
    discover py [dir] = discover py [dir.withoutManifest]
  runScript : ∀ dir ∈ root, dir.manifestJson.object? py = none → dir.isDir → dir.runScript →
    discover py [dir] = .ok [⟨dir.name, dir.name, none⟩]

/-! ## What is raised -/

/-- An integer that no double can hold. -/
def IsHuge (value : Json) : Prop :=
  ∃ numeral n, value = .number numeral ∧ numeral.toInt? = some n ∧ 2 ^ 1024 - 2 ^ 970 ≤ n.natAbs

/-- A file is UTF-8, and if it is JSON, it is an object whose timeout is not too large. -/
def ManifestFile.Loadable : ManifestFile → Prop
  | .content bytes => ∃ text, readText bytes = .ok text ∧ ∀ data, py.loads text = some data →
      ∃ d, data.asDict? = some d ∧ ¬ IsHuge ((d.get? "startup_timeout_seconds").getD .null)
  | _ => True

namespace Interpreter

variable {value : Json}

theorem float_eq_overflowError_iff : py.float value = .error .overflowError ↔ IsHuge value := by
  constructor
  · intro h
    cases value with
    | number numeral =>
      rw [float] at h
      cases hint : numeral.toInt? with
      | none =>
        rw [hint] at h
        cases h
      | some n =>
        rw [hint] at h
        dsimp only at h
        split_ifs at h with hhuge
        exact ⟨numeral, n, rfl, hint, hhuge⟩
    | str s =>
      rw [float] at h
      cases hs : py.ofText s <;> rw [hs] at h <;> cases h
    | _ => cases h
  · rintro ⟨numeral, n, rfl, hint, hhuge⟩
    rw [float, hint]
    exact if_pos hhuge

theorem float_error {e : PyError} (h : py.float value = .error e) :
    e = .typeError ∨ e = .valueError ∨ e = .overflowError := by
  cases value with
  | number numeral =>
    rw [float] at h
    split at h
    · split_ifs at h
      exact Or.inr (Or.inr (Except.error.inj h).symm)
    · cases h
  | str s =>
    rw [float] at h
    split at h
    · cases h
    · exact Or.inr (Or.inl (Except.error.inj h).symm)
  | bool b => cases h
  | _ => exact Or.inl (Except.error.inj h).symm

end Interpreter

theorem exists_normalizeManifestFloat_ok {value : Json} (default : py.Double) :
    (∃ seconds, normalizeManifestFloat py value default = .ok seconds) ↔ ¬ IsHuge value := by
  rw [normalizeManifestFloat]
  by_cases hnull : value = .null
  · rw [if_pos hnull]
    refine iff_of_true ⟨_, rfl⟩ ?_
    rintro ⟨numeral, n, hvalue, -⟩
    rw [hnull] at hvalue
    cases hvalue
  by_cases hblank : isBlank value
  · rw [if_neg hnull, if_pos hblank]
    refine iff_of_true ⟨_, rfl⟩ ?_
    rintro ⟨numeral, n, rfl, -⟩
    cases hblank
  rw [if_neg hnull, if_neg hblank, ← py.float_eq_overflowError_iff]
  cases h : py.float value with
  | ok x => exact iff_of_true ⟨_, rfl⟩ (by simp)
  | error e =>
    rcases py.float_error h with rfl | rfl | rfl
    · exact iff_of_true ⟨_, rfl⟩ (by simp)
    · exact iff_of_true ⟨_, rfl⟩ (by simp)
    · exact iff_of_false (by simp) (by simp)

theorem exists_pluginManifest_ok {data : Json} (dirName : String) :
    (∃ manifest, pluginManifest py data dirName = .ok manifest) ↔
      ∃ d, data.asDict? = some d ∧ ¬ IsHuge ((d.get? "startup_timeout_seconds").getD .null) := by
  rw [pluginManifest]
  cases data.asDict? with
  | none => exact iff_of_false (by simp) (by simp)
  | some d =>
    simp only [Option.some.injEq, exists_eq_left', Except.bind_eq_ok, Except.pure_eq_ok,
      ← exists_normalizeManifestFloat_ok py (py.ofInt readinessTimeoutSeconds)]
    constructor
    · rintro ⟨-, seconds, h, -⟩
      exact ⟨seconds, h⟩
    · rintro ⟨seconds, h⟩
      exact ⟨_, seconds, h, rfl⟩

theorem exists_loadManifest_ok {dir : Directory} :
    (∃ manifest, loadManifest py dir = .ok manifest) ↔ dir.manifestJson.Loadable py := by
  rw [loadManifest]
  cases dir.manifestJson with
  | absent => exact iff_of_true ⟨_, rfl⟩ trivial
  | unreadable => exact iff_of_true ⟨_, rfl⟩ trivial
  | content bytes =>
    simp only [ManifestFile.Loadable, Except.bind_eq_ok, ← exists_pluginManifest_ok py dir.name]
    constructor
    · rintro ⟨manifest, text, htext, h⟩
      refine ⟨text, htext, fun data hdata => ?_⟩
      rw [hdata] at h
      obtain ⟨full, hfull, -⟩ := Except.map_eq_ok.1 h
      exact ⟨full, hfull⟩
    · rintro ⟨text, htext, h⟩
      cases hdata : py.loads text with
      | none => exact ⟨none, text, htext, by rw [hdata]; rfl⟩
      | some data =>
        obtain ⟨full, hfull⟩ := h data hdata
        exact ⟨some full, text, htext, by rw [hdata]; exact Except.map_eq_ok.2 ⟨full, hfull, rfl⟩⟩

theorem loadManifest_of_object?_eq_none {dir : Directory} (h : dir.manifestJson.Loadable py)
    (hnone : dir.manifestJson.object? py = none) : loadManifest py dir = .ok none := by
  rw [loadManifest]
  cases hfile : dir.manifestJson with
  | absent => rfl
  | unreadable => rfl
  | content bytes =>
    rw [hfile] at h hnone
    obtain ⟨text, htext, h⟩ := h
    have hvalue : (py.loads text).bind Json.asDict? = none := by
      rw [ManifestFile.object?, htext] at hnone
      exact hnone
    refine Except.bind_eq_ok.2 ⟨text, htext, ?_⟩
    cases hdata : py.loads text with
    | none => rfl
    | some data =>
      obtain ⟨d, hd, -⟩ := h data hdata
      rw [hdata, Option.bind_some, hd] at hvalue
      cases hvalue

/-! ## Single directories -/

/-- The service of a directory, from its manifest. -/
def serviceOf (d : ServiceDir) (manifest : Option PluginManifest) : Option DiscoveredService :=
  if manifest.isSome ∨ d.runScript then
    some ⟨(manifest.map PluginManifest.pluginName).getD d.name, d.name, manifest⟩
  else none

theorem discoverService_of_isDir {d : ServiceDir} (h : d.isDir) :
    discoverService d = serviceOf d <$> d.loadManifest := by
  rw [discoverService, if_neg (not_not.2 h)]
  cases d.loadManifest with
  | error e => rfl
  | ok manifest =>
    rw [Except.ok_bind]
    change _ = Except.ok (serviceOf d manifest)
    rw [serviceOf]
    split_ifs <;> rfl

theorem discoverService_of_not_isDir {d : ServiceDir} (h : ¬ d.isDir) :
    discoverService d = .ok none := if_pos h

/-- What a directory gives. -/
def found (d : ServiceDir) : Option DiscoveredService := (discoverService d).toOption.join

theorem found_of_ok {d : ServiceDir} {s : Option DiscoveredService}
    (h : discoverService d = .ok s) : found d = s := by
  rw [found, h]
  rfl

theorem directory_of_found {d : ServiceDir} {s : DiscoveredService} (h : found d = some s) :
    s.directory = d.name := by
  have hok : discoverService d = .ok (some s) := by
    rw [found, Option.join_eq_some_iff, Except.toOption_eq_some] at h
    exact h
  by_cases hdir : d.isDir
  · rw [discoverService_of_isDir hdir] at hok
    obtain ⟨manifest, -, hservice⟩ := Except.map_eq_ok.1 hok
    rw [serviceOf] at hservice
    split_ifs at hservice
    cases hservice
    rfl
  · rw [discoverService_of_not_isDir hdir] at hok
    cases hok

theorem exists_discoverService_ok {dir : Directory} :
    (∃ s, discoverService (dir.toServiceDir py) = .ok s) ↔
      (dir.isDir → dir.manifestJson.Loadable py) := by
  by_cases hdir : dir.isDir
  · rw [discoverService_of_isDir hdir, ← exists_loadManifest_ok, forall_prop_of_true hdir]
    simp only [Directory.toServiceDir, Except.map_eq_ok]
    constructor
    · rintro ⟨-, -, ⟨full, hfull, -⟩, -⟩
      exact ⟨full, hfull⟩
    · rintro ⟨full, hfull⟩
      exact ⟨_, _, ⟨full, hfull, rfl⟩, rfl⟩
  · exact iff_of_true ⟨_, discoverService_of_not_isDir hdir⟩ fun h => absurd h hdir

/-- A manifest that is no object counts for nothing, if nothing is raised. -/
theorem discoverService_of_object?_eq_none {dir : Directory}
    (h : dir.isDir → dir.manifestJson.Loadable py) (hnone : dir.manifestJson.object? py = none) :
    discoverService (dir.toServiceDir py) =
      .ok (if dir.isDir ∧ dir.runScript then some ⟨dir.name, dir.name, none⟩ else none) := by
  by_cases hdir : dir.isDir
  · rw [discoverService_of_isDir hdir, Directory.toServiceDir,
      loadManifest_of_object?_eq_none py (h hdir) hnone]
    change Except.ok _ = _
    rw [serviceOf]
    simp [hdir]
  · rw [discoverService_of_not_isDir hdir, if_neg fun h => hdir h.1]

/-! ## The whole root -/

theorem exists_ok_of_discoverServices {dirs : List ServiceDir} {services : List DiscoveredService}
    (h : discoverServices dirs = .ok services) : ∀ d ∈ dirs, ∃ s, discoverService d = .ok s := by
  rw [discoverServices] at h
  obtain ⟨found, hfound, -⟩ := Except.bind_eq_ok.1 h
  intro d hd
  exact Except.exists_of_mapM_eq_ok hfound d ((List.mem_insertionSort _).2 hd)

theorem discoverServices_of_ok {dirs : List ServiceDir}
    (h : ∀ d ∈ dirs, ∃ s, discoverService d = .ok s) :
    discoverServices dirs =
      .ok ((dirs.insertionSort fun d d' => d.name ≤ d'.name).filterMap found) := by
  have hmap : (dirs.insertionSort fun d d' => d.name ≤ d'.name).mapM discoverService =
      .ok ((dirs.insertionSort fun d d' => d.name ≤ d'.name).map found) := by
    refine Except.mapM_eq_ok_map.2 fun d hd => ?_
    obtain ⟨s, hs⟩ := h d ((List.mem_insertionSort _).1 hd)
    rw [hs, found_of_ok hs]
  rw [discoverServices, hmap, Except.ok_bind]
  exact congrArg Except.ok List.filterMap_map

theorem filterMap_found_singleton {d : ServiceDir} {s : Option DiscoveredService}
    (h : discoverService d = .ok s) : [d].filterMap found = s.toList := by
  rw [List.filterMap_cons, found_of_ok h]
  cases s with
  | none => rfl
  | some s => rfl

theorem discoverServices_singleton {d : ServiceDir} {s : Option DiscoveredService}
    (h : discoverService d = .ok s) : discoverServices [d] = .ok s.toList := by
  have hall : ∀ d' ∈ [d], ∃ s, discoverService d' = .ok s := by
    intro d' hd'
    exact ⟨s, List.mem_singleton.1 hd' ▸ h⟩
  rw [discoverServices_of_ok hall, ← filterMap_found_singleton h]
  rfl

/-- The services of a directory are those that it gives alone. -/
theorem filter_filterMap_found (ds : List ServiceDir) (name : String) :
    (ds.filterMap found).filter (fun s => s.directory = name) =
      (ds.filter fun d => d.name = name).filterMap found := by
  rw [List.filter_filterMap, List.filterMap_filter]
  refine List.filterMap_congr fun d _ => ?_
  cases hfound : found d with
  | none => simp
  | some s =>
    have hdirectory := directory_of_found hfound
    by_cases hname : d.name = name
    · simp [hname, hdirectory]
    · simp [hname, hdirectory]

/-- Discovery survives every manifest exactly when each directory has none, or one that is UTF-8
and, if it is JSON, an object whose timeout is not too large. -/
theorem survives_iff (root : ServicesRoot) :
    (∃ services, Survives py root services) ↔
      ∀ dir ∈ root, dir.isDir → dir.manifestJson.Loadable py := by
  constructor
  · rintro ⟨services, h⟩ dir hdir
    exact (exists_discoverService_ok py).1
      (exists_ok_of_discoverServices h.ok _ (List.mem_map_of_mem hdir))
  · intro h
    have hall : ∀ d ∈ root.rows.map (Directory.toServiceDir py),
        ∃ s, discoverService d = .ok s := by
      refine List.forall_mem_map.2 fun dir hdir => ?_
      exact (exists_discoverService_ok py).2 (h dir hdir)
    have hperm := List.perm_insertionSort (fun d d' : ServiceDir => d.name ≤ d'.name)
      (root.rows.map (Directory.toServiceDir py))
    refine ⟨_, discoverServices_of_ok hall, ?_, ?_, ?_, ?_, ?_⟩
    · refine List.Pairwise.filterMap _ ?_ (List.pairwise_insertionSort _ _)
      intro d d' hle s hs s' hs'
      rw [directory_of_found hs, directory_of_found hs']
      exact hle
    · intro s hs
      obtain ⟨d, hd, hfound⟩ := List.mem_filterMap.1 hs
      obtain ⟨dir, hdir, rfl⟩ := List.mem_map.1 (hperm.mem_iff.1 hd)
      exact ⟨dir, hdir, directory_of_found hfound⟩
    · intro dir hdir
      obtain ⟨s, hs⟩ := (exists_discoverService_ok py).2 (h dir hdir)
      -- The name is that of no other directory.
      have honly : (root.rows.map (Directory.toServiceDir py)).filter
          (fun d => d.name = dir.name) = [dir.toServiceDir py] := by
        rw [List.filter_map]
        exact congrArg (List.map _) (root.filter_col_eq List.mem_cons_self hdir)
      have hsingle := List.perm_singleton.1 ((hperm.filter fun d => d.name = dir.name).trans
        (List.Perm.of_eq honly))
      rw [filter_filterMap_found, hsingle, filterMap_found_singleton hs]
      exact discoverServices_singleton hs
    · intro dir hdir hnone
      have hwithout : discoverService (dir.withoutManifest.toServiceDir py) =
          discoverService (dir.toServiceDir py) := by
        rw [discoverService_of_object?_eq_none py (h dir hdir) hnone]
        exact @discoverService_of_object?_eq_none py dir.withoutManifest (fun _ => trivial) rfl
      obtain ⟨s, hs⟩ := (exists_discoverService_ok py).2 (h dir hdir)
      exact (discoverServices_singleton hs).trans
        (discoverServices_singleton (hwithout.trans hs)).symm
    · intro dir hdir hnone hisDir hrun
      have hs := discoverService_of_object?_eq_none py (h dir hdir) hnone
      rw [if_pos ⟨hisDir, hrun⟩] at hs
      exact discoverServices_singleton hs

/-- A manifest that cannot be loaded keeps the gateway from starting any service. -/
theorem launchServices_of_not_loadable (env : DiscoveredService → Attempt) {root : ServicesRoot}
    {dir : Directory} (hmem : dir ∈ root) (hdir : dir.isDir)
    (h : ¬ dir.manifestJson.Loadable py) (startPort : ℕ) :
    ∃ e, launchServices env (root.rows.map (Directory.toServiceDir py)) startPort =
      (Services.empty, some e) := by
  rw [launchServices]
  cases hdiscovered : discoverServices (root.rows.map (Directory.toServiceDir py)) with
  | error e => exact ⟨e, rfl⟩
  | ok services =>
    have hok := exists_ok_of_discoverServices hdiscovered _ (List.mem_map_of_mem hmem)
    exact absurd ((exists_discoverService_ok py).1 hok hdir) h

end

/-! ## A manifest in UTF-16 -/

/-- Integers for doubles; no text is JSON. -/
def integers : Interpreter where
  Double := ℤ
  ofInt n := n
  ofNumeral _ := 0
  ofText _ := none
  isPos n := 0 < n
  isZero n := n = 0
  repr _ := ""
  loads _ := none

/-- The service `shop` has a `run.sh`, and `{}` in UTF-16 for a manifest. -/
def utf16Root : ServicesRoot where
  rows := [⟨"shop", true, .content [0xFF, 0xFE, 0x7B, 0x00, 0x7D, 0x00], true⟩]
  nodup := by
    rintro col -
    exact List.nodup_singleton _

theorem not_survives_utf16 : ¬ ∃ services, Survives integers utf16Root services := by
  rintro ⟨services, h⟩
  have hraised : discover integers utf16Root.rows = .error .valueError := rfl
  have hok := h.ok
  rw [hraised] at hok
  cases hok

end Gateway

end AranesLms
