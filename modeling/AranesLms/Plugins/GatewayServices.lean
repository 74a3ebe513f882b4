import AranesLms.Auth.Tokens
import AranesLms.Gateway.OpenApi

/-!
# The gateway's answer

`_fetch_gateway_services` of `src/plugins/endpoints.py` reads the services from what the gateway
answers to `/services`.  The request and the parsing of the body are guarded, but not what is done
with the value: an element that cannot be read makes the whole call fail, and so does a `services`
that is nothing to iterate over (`accepted_iff`).  `str` is the text that Python makes of a value.
-/

namespace AranesLms

namespace Plugins

open Gateway

structure PluginMappingRead where
  pluginName : String
  serviceName : String
  mountPrefix : String
  enabled : Bool
  discovered : Bool
  running : Bool
  deriving DecidableEq

/-- An exception of Python, or the `ValidationError` of a field. -/
inductive FetchError where
  | python (e : PyError)
  | validationError (field : String)
  deriving DecidableEq

/-- The constructor of `PluginMappingRead`; the other fields have the right types. -/
def pluginMappingRead (pluginName serviceName : String) (mountPrefix : Json)
    (enabled discovered running : Bool) : Except FetchError PluginMappingRead :=
  match mountPrefix with
  | .str mountPrefix =>
    .ok ⟨pluginName, serviceName, mountPrefix, enabled, discovered, running⟩
  | _ => .error (.validationError "mount_prefix")

/-- What comes of the request: an exception, or a response, whose body may be no JSON. -/
inductive GatewayAnswer where
  | raised
  | response (statusCode : ℕ) (json : Option Json)

section

variable (str : Json → String)

/-- A turn of the loop: the entry for an element, if any. -/
def readService (s : Json) : Except FetchError (Option PluginMappingRead) :=
  match s.asDict? with
  | none => .ok none
  | some d =>
    match d.get? "name" with
    | none => .ok none
    | some value =>
      let name := strip (str value)
      if name = "" then .ok none
      else
        some <$> pluginMappingRead name name
          ((d.get? "mount_prefix").getD (.str ("/plg/" ++ name))) true true
          (d.get? "status" = some (.str "running"))

/-- The loop. -/
def readItems (items : Json) : Except FetchError (List PluginMappingRead) :=
  match iterate items with
  | .error e => .error (.python e)
  | .ok items => List.reduceOption <$> items.mapM (readService str)

/-- `data.get("services", [])`. -/
def getServices (d : OrderedDict String Json) : Json := (d.get? "services").getD (.arr [])

def readServices (data : Json) : Except FetchError (List PluginMappingRead) :=
  match data.asDict? with
  | none => .ok []
  | some d => readItems str (getServices d)

def fetchGatewayServices : GatewayAnswer → Except FetchError (List PluginMappingRead)
  | .raised => .ok []
  | .response statusCode json =>
    if statusCode ≠ 200 then .ok []
    else
      match json with
      | none => .ok []
      | some data => readServices str data

/-! ## The entries of an answer -/

/-- The `mount_prefix` of a service, if it is absent or a text. -/
def usableMountPrefix (d : OrderedDict String Json) (name : String) : Option String :=
  match d.get? "mount_prefix" with
  | none => some ("/plg/" ++ name)
  | some (.str mountPrefix) => some mountPrefix
  | some _ => none

/-- The entry for an object with a name that is not blank and a usable `mount_prefix`. -/
def usableEntry (s : Json) : Option PluginMappingRead := do
  let d ← s.asDict?
  let value ← d.get? "name"
  let name := strip (str value)
  if name = "" then none
  else
    let mountPrefix ← usableMountPrefix d name
    return ⟨name, name, mountPrefix, true, true, d.get? "status" = some (.str "running")⟩

/-- An object with a name that is not blank, but without a usable `mount_prefix`. -/
def Unusable (s : Json) : Prop :=
  ∃ d value, s.asDict? = some d ∧ d.get? "name" = some value ∧ strip (str value) ≠ "" ∧
    usableMountPrefix d (strip (str value)) = none

/-- The elements of the `services` list, if there is one. -/
def listedServices (data : Json) : List Json :=
  (data.asDict?.bind fun d => (getServices d).asList?).getD []

/-- One entry for each usable element, in order. -/
def usableEntries : GatewayAnswer → List PluginMappingRead
  | .raised => []
  | .response statusCode json =>
    if statusCode = 200 then (json.elim [] listedServices).filterMap (usableEntry str) else []

def Accepted (answer : GatewayAnswer) : Prop :=
  fetchGatewayServices str answer = .ok (usableEntries str answer)

/-- A value that a loop cannot go through. -/
def NotIterable : Json → Prop
  | .null | .bool _ | .number _ => True
  | _ => False

/-- A `services` can be iterated over, and its elements are usable or no named objects. -/
structure Readable (data : Json) : Prop where
  iterable : ∀ d, data.asDict? = some d → ¬ NotIterable (getServices d)
  usable : ∀ s ∈ listedServices data, ¬ Unusable str s

end

variable {str : Json → String}

/-! ## One element -/

theorem pluginMappingRead_of_some {d : OrderedDict String Json} {name mountPrefix : String}
    (h : usableMountPrefix d name = some mountPrefix) (running : Bool) :
    pluginMappingRead name name ((d.get? "mount_prefix").getD (.str ("/plg/" ++ name))) true true
      running = .ok ⟨name, name, mountPrefix, true, true, running⟩ := by
  rw [usableMountPrefix] at h
  split at h
  next hnone =>
    rw [hnone]
    cases h
    rfl
  next hstr =>
    rw [hstr]
    cases h
    rfl
  next => cases h

theorem pluginMappingRead_of_none {d : OrderedDict String Json} {name : String}
    (h : usableMountPrefix d name = none) (running : Bool) :
    pluginMappingRead name name ((d.get? "mount_prefix").getD (.str ("/plg/" ++ name))) true true
      running = .error (.validationError "mount_prefix") := by
  rw [usableMountPrefix] at h
  split at h
  next => cases h
  next => cases h
  next value hstr hsome =>
    rw [hsome, Option.getD_some, pluginMappingRead]
    exact hstr

theorem readService_of_unusable {s : Json} (h : Unusable str s) :
    readService str s = .error (.validationError "mount_prefix") := by
  obtain ⟨d, value, hd, hvalue, hname, hnone⟩ := h
  simp only [readService, hd, hvalue, if_neg hname, pluginMappingRead_of_none hnone]
  rfl

theorem readService_of_not_unusable {s : Json} (h : ¬ Unusable str s) :
    readService str s = .ok (usableEntry str s) := by
  rw [readService, usableEntry]
  cases hd : s.asDict? with
  | none => rfl
  | some d =>
    cases hvalue : d.get? "name" with
    | none => simp only [hvalue, Option.bind_eq_bind, Option.bind_some, Option.bind_none]
    | some value =>
      simp only [hvalue, Option.bind_eq_bind, Option.bind_some]
      by_cases hname : strip (str value) = ""
      · rw [if_pos hname, if_pos hname]
      · rw [if_neg hname, if_neg hname]
        cases hmount : usableMountPrefix d (strip (str value)) with
        | none => exact absurd ⟨d, value, hd, hvalue, hname, hmount⟩ h
        | some mountPrefix =>
          rw [pluginMappingRead_of_some hmount]
          rfl

/-- All elements are read exactly when none is unusable. -/
theorem readAll_ok_iff {items : List Json} :
    List.reduceOption <$> items.mapM (readService str) = .ok (items.filterMap (usableEntry str)) ↔
      ∀ s ∈ items, ¬ Unusable str s := by
  constructor
  · intro h s hs
    obtain ⟨reads, hreads, -⟩ := Except.map_eq_ok.1 h
    obtain ⟨read, hread⟩ := Except.exists_of_mapM_eq_ok hreads s hs
    intro hunusable
    rw [readService_of_unusable hunusable] at hread
    cases hread
  · intro h
    have hreads : items.mapM (readService str) = .ok (items.map (usableEntry str)) :=
      Except.mapM_eq_ok_map.2 fun s hs => readService_of_not_unusable (h s hs)
    rw [hreads, Except.map_eq_ok]
    exact ⟨_, rfl, List.filterMap_map⟩

/-- Texts are no services. -/
theorem readAll_strs {items : List Json} (h : ∀ s ∈ items, s.asDict? = none) :
    List.reduceOption <$> items.mapM (readService str) = .ok [] := by
  have hnone : items.filterMap (usableEntry str) = [] := by
    refine List.filterMap_eq_nil_iff.2 fun s hs => ?_
    rw [usableEntry, h s hs]
    rfl
  rw [← hnone, readAll_ok_iff]
  rintro s hs ⟨d, -, hd, -⟩
  rw [h s hs] at hd
  cases hd

/-! ## The whole answer -/

theorem readItems_ok_iff (items : Json) :
    readItems str items = .ok ((items.asList?.getD []).filterMap (usableEntry str)) ↔
      ¬ NotIterable items ∧ ∀ s ∈ items.asList?.getD [], ¬ Unusable str s := by
  cases items with
  | null => exact iff_of_false (by rintro ⟨⟩) fun h => h.1 trivial
  | bool b => exact iff_of_false (by rintro ⟨⟩) fun h => h.1 trivial
  | number n => exact iff_of_false (by rintro ⟨⟩) fun h => h.1 trivial
  | str s =>
    refine iff_of_true (readAll_strs fun s hs => ?_)
      ⟨not_false, fun s hs => absurd hs List.not_mem_nil⟩
    obtain ⟨c, -, rfl⟩ := List.mem_map.1 hs
    rfl
  | array n elems => exact readAll_ok_iff.trans (and_iff_right not_false).symm
  | object n keys inj values =>
    refine iff_of_true (readAll_strs fun s hs => ?_)
      ⟨not_false, fun s hs => absurd hs List.not_mem_nil⟩
    obtain ⟨i, rfl⟩ := List.mem_ofFn.1 hs
    rfl

theorem readServices_ok_iff (data : Json) :
    readServices str data = .ok ((listedServices data).filterMap (usableEntry str)) ↔
      Readable str data := by
  rw [readServices, listedServices]
  cases hd : data.asDict? with
  | none =>
    refine iff_of_true rfl ⟨fun d h => ?_, ?_⟩
    · rw [hd] at h
      cases h
    · rw [listedServices, hd]
      exact fun s hs => absurd hs List.not_mem_nil
  | some d =>
    refine (readItems_ok_iff (getServices d)).trans ⟨fun h => ⟨?_, ?_⟩, fun h => ⟨?_, ?_⟩⟩
    · intro d' hd'
      rw [hd] at hd'
      cases hd'
      exact h.1
    · rw [listedServices, hd]
      exact h.2
    · exact h.iterable d hd
    · have husable := h.usable
      rw [listedServices, hd] at husable
      exact husable

variable (str)

/-- For every response whose body is JSON: the core makes of it one entry for each usable element
exactly when the status code is not 200, or no element is unusable and `services` can be iterated
over. -/
theorem accepted_iff (statusCode : ℕ) (data : Json) :
    Accepted str (.response statusCode (some data)) ↔ (statusCode = 200 → Readable str data) := by
  rw [Accepted, fetchGatewayServices, usableEntries]
  by_cases hstatus : statusCode = 200
  · rw [if_neg (not_not.2 hstatus), if_pos hstatus]
    exact (readServices_ok_iff data).trans ⟨fun h _ => h, fun h => h hstatus⟩
  · rw [if_pos hstatus, if_neg hstatus]
    exact iff_of_true rfl fun h => absurd h hstatus

/-- The text of a text. -/
def textOnly : Json → String
  | .str s => s
  | _ => ""

/-- The second service has a number for its prefix. -/
def numberedPrefix : Json :=
  .ofEntries [("services", .arr [.ofEntries [("name", .str "demo")],
    .ofEntries [("name", .str "shop"), ("mount_prefix", .number "5")]])]

/-- It hides the first one. -/
theorem not_accepted_numberedPrefix :
    ¬ Accepted textOnly (.response 200 (some numberedPrefix)) := by
  have herror : fetchGatewayServices textOnly (.response 200 (some numberedPrefix)) =
      .error (.validationError "mount_prefix") := by
    decide +kernel
  intro h
  rw [Accepted, herror] at h
  cases h

end Plugins

end AranesLms
