import AranesLms.Http
import AranesLms.Lib.TwoStep
import AranesLms.Plugins.GatewayServices
import AranesLms.Plugins.Mappings

/-!
# The plugin mappings

The endpoints of `src/plugins/endpoints.py` without a gateway, over the functions of
`src/plugins/crud.py`.  `PATCH` and `DELETE` load a row, and the statement that follows selects it
by its primary key; in between other requests go on, and the row may be gone or its key given to
another one.  As long as the row that was loaded is still there, the requests might as well be
served one at a time (`linearizable_of_stillThere`).
-/

namespace AranesLms

namespace Plugins

/-! ## The table -/

structure PluginRow extends PluginMapping where
  id : ℕ

/-- Content of `plugin_mappings`, with the primary keys. -/
structure PluginTable where
  table : UniqueTable [fun row : PluginRow => row.pluginName, fun row => row.serviceName,
    fun row => row.mountPrefix]
  ids : (table.rows.map PluginRow.id).Nodup

namespace PluginTable

variable (t : PluginTable)

def rows : List PluginRow := t.table.rows

@[ext] theorem ext {t t' : PluginTable} (h : t.rows = t'.rows) : t = t' := by
  obtain ⟨⟨_, _⟩, _⟩ := t
  obtain ⟨⟨_, _⟩, _⟩ := t'
  cases h
  rfl

def empty : PluginTable := ⟨∅, List.nodup_nil⟩

theorem eq_of_id {row row' : PluginRow} (hrow : row ∈ t.rows) (hrow' : row' ∈ t.rows)
    (h : row.id = row'.id) : row = row' := List.inj_on_of_nodup_map t.ids hrow hrow' h

theorem eq_of_pluginName {row row' : PluginRow} (hrow : row ∈ t.rows) (hrow' : row' ∈ t.rows)
    (h : row.pluginName = row'.pluginName) : row = row' :=
  t.table.eq_of_col List.mem_cons_self hrow hrow' h

/-- `INSERT` of a row. -/
def insert (row : PluginRow) : Except Violation PluginTable :=
  if hids : ((t.rows ++ [row]).map PluginRow.id).Nodup then
    if hcols : ∀ col ∈ [fun row : PluginRow => row.pluginName, fun row => row.serviceName,
        fun row => row.mountPrefix], ((t.rows ++ [row]).map col).Nodup then
      .ok ⟨⟨t.rows ++ [row], hcols⟩, hids⟩
    else .error .unique
  else .error .primaryKey

/-- The row with another flag, if it has the key. -/
def updateFlag (id : ℕ) (enabled : Bool) (row : PluginRow) : PluginRow :=
  if row.id = id then { row with enabled } else row

/-- The flag is in none of the unique columns. -/
theorem map_updateFlag {κ : Type} {col : PluginRow → κ}
    (hcol : ∀ (row : PluginRow) (enabled : Bool), col { row with enabled } = col row)
    (id : ℕ) (enabled : Bool) (rows : List PluginRow) :
    (rows.map (updateFlag id enabled)).map col = rows.map col := by
  rw [List.map_map]
  refine List.map_congr_left fun row _ => ?_
  rw [Function.comp_apply, updateFlag]
  split_ifs
  · exact hcol row enabled
  · rfl

theorem nodup_updateFlag (id : ℕ) (enabled : Bool) :
    ∀ col ∈ [fun row : PluginRow => row.pluginName, fun row => row.serviceName,
      fun row => row.mountPrefix], ((t.rows.map (updateFlag id enabled)).map col).Nodup := by
  intro col hcol
  rw [map_updateFlag]
  · exact t.table.nodup col hcol
  · rcases List.mem_cons.1 hcol with rfl | hcol
    · exact fun _ _ => rfl
    rcases List.mem_cons.1 hcol with rfl | hcol
    · exact fun _ _ => rfl
    rw [List.mem_singleton.1 hcol]
    exact fun _ _ => rfl

/-- `UPDATE` of the flag in the row with the key, if there is one. -/
def setEnabled (id : ℕ) (enabled : Bool) : PluginTable where
  table := ⟨t.rows.map (updateFlag id enabled), t.nodup_updateFlag id enabled⟩
  ids := by
    rw [map_updateFlag fun _ _ => rfl]
    exact t.ids

/-- `DELETE` of the row with the key, if there is one. -/
def erase (id : ℕ) : PluginTable where
  table :=
    { rows := t.rows.filter fun row => row.id ≠ id
      nodup := fun col hcol => (t.table.nodup col hcol).sublist (List.filter_sublist.map col) }
  ids := t.ids.sublist (List.filter_sublist.map PluginRow.id)

end PluginTable

/-! ## `crud.py` -/

def listPluginMappings (t : PluginTable) : List PluginRow :=
  t.rows.insertionSort fun row row' => row.pluginName ≤ row'.pluginName

def getPluginMapping (t : PluginTable) (pluginName : String) : Option PluginRow :=
  t.rows.find? fun row => row.pluginName = pluginName

/-- `mount_prefix or build_plugin_mount_prefix(plugin_name)`. -/
def mountPrefixOr (mountPrefix : Option String) (pluginName : String) : String :=
  match mountPrefix with
  | some mountPrefix => if mountPrefix = "" then pluginMountPrefix pluginName else mountPrefix
  | none => pluginMountPrefix pluginName

/-- The row gets the key `id` from the database. -/
def createPluginMapping (t : PluginTable) (id : ℕ) (pluginName serviceName : String)
    (mountPrefix : Option String) (enabled : Bool) :
    Except Violation (PluginRow × PluginTable) := do
  let row : PluginRow :=
    ⟨⟨pluginName, serviceName, mountPrefixOr mountPrefix pluginName, enabled⟩, id⟩
  let t ← t.insert row
  return (row, t)

/-! ## `endpoints.py` -/

structure PluginMappingCreate where
  pluginName : String
  serviceName : Option String
  mountPrefix : Option String
  enabled : Bool

/-- A request; `id` is the key that the database would give to a new row. -/
inductive PluginRequest where
  | getPlugins
  | createPlugin (payload : PluginMappingCreate) (id : ℕ)
  | getPlugin (pluginName : String)
  | patchPluginEnabled (pluginName : String) (enabled : Bool)
  | deletePlugin (pluginName : String)

inductive PluginReply where
  | mappings (mappings : List PluginMappingRead)
  | mapping (statusCode : ℕ) (mapping : PluginMappingRead)
  | noContent
  | error (e : HttpException)
  | staleDataError

/-- What a request does after it has loaded a row. -/
inductive PluginWrite where
  | setEnabled (row : PluginRow) (enabled : Bool)
  | delete (row : PluginRow)

def serializeDbMapping (mapping : PluginMapping) : PluginMappingRead :=
  ⟨mapping.pluginName, mapping.serviceName, mapping.mountPrefix, mapping.enabled, true, false⟩

/-- `payload.service_name or payload.plugin_name`. -/
def PluginMappingCreate.serviceNameOr (payload : PluginMappingCreate) : String :=
  match payload.serviceName with
  | some serviceName => if serviceName = "" then payload.pluginName else serviceName
  | none => payload.pluginName

def notFound (pluginName : String) : PluginReply :=
  .error ⟨404, "Plugin mapping not found: " ++ pluginName⟩

def alreadyExists (pluginName : String) : PluginReply :=
  .error ⟨409, "Plugin mapping already exists: " ++ pluginName⟩

/-- A request up to its answer, or up to its statement on the row that it has loaded.  Nothing is
flushed for a flag that has the wanted value already. -/
def firstStep (t : PluginTable) : PluginRequest → PluginReply × PluginTable ⊕ PluginWrite
  | .getPlugins =>
    .inl (.mappings ((listPluginMappings t).map fun row =>
      serializeDbMapping row.toPluginMapping), t)
  | .createPlugin payload id =>
    match createPluginMapping t id payload.pluginName payload.serviceNameOr payload.mountPrefix
      payload.enabled with
    | .ok (row, t') => .inl (.mapping 201 (serializeDbMapping row.toPluginMapping), t')
    | .error _ => .inl (alreadyExists payload.pluginName, t)
  | .getPlugin pluginName =>
    match getPluginMapping t pluginName with
    | some row => .inl (.mapping 200 (serializeDbMapping row.toPluginMapping), t)
    | none => .inl (notFound pluginName, t)
  | .patchPluginEnabled pluginName enabled =>
    match getPluginMapping t pluginName with
    | some row =>
      if row.enabled = enabled then .inl (.mapping 200 (serializeDbMapping row.toPluginMapping), t)
      else .inr (.setEnabled row enabled)
    | none => .inl (notFound pluginName, t)
  | .deletePlugin pluginName =>
    match getPluginMapping t pluginName with
    | some row => .inr (.delete row)
    | none => .inl (notFound pluginName, t)

/-- The statement, its commit and the answer.  An `UPDATE` that finds no row raises, and a `DELETE`
does not. -/
def secondStep (t : PluginTable) : PluginWrite → PluginReply × PluginTable
  | .setEnabled row enabled =>
    if row.id ∈ t.rows.map PluginRow.id then
      (.mapping 200 (serializeDbMapping { row with enabled }.toPluginMapping),
        t.setEnabled row.id enabled)
    else (.staleDataError, t)
  | .delete row => (.noContent, t.erase row.id)

def pluginEndpoints : TwoStep PluginTable PluginRequest PluginWrite PluginReply :=
  ⟨firstStep, secondStep⟩

/-! ## Interleaved requests -/

/-- The row that was loaded is in the table, perhaps with another flag. -/
def PluginTable.Has (t : PluginTable) (row : PluginRow) : Prop :=
  ∃ row' ∈ t.rows, ∃ enabled, row = { row' with enabled }

def PluginWrite.row : PluginWrite → PluginRow
  | setEnabled row _ => row
  | delete row => row

/-- The request has loaded a row for its statement. -/
def Loaded : PluginRequest → PluginWrite → Prop
  | .patchPluginEnabled pluginName enabled, .setEnabled row enabled' =>
    row.pluginName = pluginName ∧ enabled' = enabled
  | .deletePlugin pluginName, .delete row => row.pluginName = pluginName
  | _, _ => False

theorem getPluginMapping_eq_some {t : PluginTable} {pluginName : String} {row : PluginRow} :
    getPluginMapping t pluginName = some row ↔ row ∈ t.rows ∧ row.pluginName = pluginName := by
  constructor
  · intro h
    exact ⟨List.mem_of_find?_eq_some h, by simpa using List.find?_some h⟩
  · rintro ⟨hrow, rfl⟩
    obtain ⟨row', hrow'⟩ : ∃ row', getPluginMapping t row.pluginName = some row' := by
      rw [← Option.isSome_iff_exists, getPluginMapping, List.find?_isSome]
      exact ⟨row, hrow, by simp⟩
    rw [hrow', t.eq_of_pluginName (List.mem_of_find?_eq_some hrow') hrow
      (by simpa using List.find?_some hrow')]

theorem loaded_of_firstStep {t : PluginTable} {r : PluginRequest} {p : PluginWrite}
    (h : firstStep t r = .inr p) : Loaded r p := by
  cases r with
  | getPlugins => cases h
  | createPlugin payload id =>
    rw [firstStep] at h
    split at h <;> cases h
  | getPlugin pluginName =>
    rw [firstStep] at h
    split at h <;> cases h
  | patchPluginEnabled pluginName enabled =>
    rw [firstStep] at h
    split at h
    · rename_i row hrow
      split_ifs at h
      cases h
      exact ⟨(getPluginMapping_eq_some.1 hrow).2, rfl⟩
    · cases h
  | deletePlugin pluginName =>
    rw [firstStep] at h
    split at h
    · rename_i row hrow
      cases h
      exact (getPluginMapping_eq_some.1 hrow).2
    · cases h

theorem PluginTable.setEnabled_of_mem {t : PluginTable} {row : PluginRow} (hrow : row ∈ t.rows) :
    t.setEnabled row.id row.enabled = t := by
  refine PluginTable.ext ((List.map_congr_left fun row' hrow' => ?_).trans (List.map_id _))
  rw [updateFlag]
  split_ifs with hid
  · rw [t.eq_of_id hrow' hrow hid]
    rfl
  · rfl

/-- While the row is there, the statement does what the request would do from its beginning. -/
theorem secondStep_eq_serve {t : PluginTable} {r : PluginRequest} {p : PluginWrite}
    (hloaded : Loaded r p) (hhas : t.Has p.row) :
    secondStep t p = pluginEndpoints.serve t r := by
  cases r with
  | patchPluginEnabled pluginName enabled =>
    cases p with
    | delete row => exact hloaded.elim
    | setEnabled row enabled' =>
      obtain ⟨row', hrow', flag, rfl⟩ := hhas
      obtain ⟨hname, rfl⟩ := hloaded
      have hmem : row'.id ∈ t.rows.map PluginRow.id := List.mem_map_of_mem hrow'
      have hget : getPluginMapping t pluginName = some row' :=
        getPluginMapping_eq_some.2 ⟨hrow', hname⟩
      simp only [TwoStep.serve, pluginEndpoints, firstStep, hget]
      by_cases henabled : row'.enabled = enabled'
      · subst henabled
        rw [if_pos rfl, secondStep, if_pos hmem, t.setEnabled_of_mem hrow']
      · rw [if_neg henabled, secondStep, if_pos hmem]
        simp only [secondStep, if_pos hmem]
  | deletePlugin pluginName =>
    cases p with
    | setEnabled row enabled => exact hloaded.elim
    | delete row =>
      obtain ⟨row', hrow', flag, rfl⟩ := hhas
      have hget : getPluginMapping t pluginName = some row' :=
        getPluginMapping_eq_some.2 ⟨hrow', hloaded⟩
      simp only [TwoStep.serve, pluginEndpoints, firstStep, hget, secondStep]
  | _ => cases p <;> exact hloaded.elim

/-- Where a request goes on with its statement, the row that it has loaded is still there. -/
def StillThere (s : TwoStep.State PluginTable PluginRequest PluginWrite) :
    TwoStep.Event PluginRequest → Prop
  | .start _ _ => True
  | .finish c => ∀ r p, s.calls c = some (r, p) → s.store.Has p.row

/-- As long as no row is gone between its `SELECT` and the statement that follows, the interleaved
requests have the answers and the outcome of the same requests one at a time. -/
theorem linearizable_of_stillThere {t : PluginTable} {events : List (TwoStep.Event PluginRequest)}
    (h : Transition.Along (fun s e => (pluginEndpoints.handle s e).2) StillThere
      (TwoStep.init t) events) :
    (Transition.outputs pluginEndpoints.handle (TwoStep.init t) events).reduceOption =
        Transition.outputs pluginEndpoints.serve t
          (pluginEndpoints.order (TwoStep.init t) events) ∧
      (Transition.runFrom (fun s e => (pluginEndpoints.handle s e).2) (TwoStep.init t)
          events).store =
        Transition.runFrom (fun t r => (pluginEndpoints.serve t r).2) t
          (pluginEndpoints.order (TwoStep.init t) events) := by
  refine TwoStep.linearizable (h.mono_of_invariant
    (J := fun s => ∀ c r p, s.calls c = some (r, p) → Loaded r p) ?_ ?_ (by simp [TwoStep.init]))
  · exact fun s e hs => TwoStep.calls_handle (fun _ _ _ => loaded_of_firstStep) hs e
  · rintro s e hs he
    cases e with
    | start c r => trivial
    | finish c =>
      intro r p hcall
      exact secondStep_eq_serve (hs c r p hcall) (he r p hcall)

/-- A plugin is disabled while its mapping is listed. -/
def sampleRequests : List (TwoStep.Event PluginRequest) :=
  [.start 0 (.createPlugin ⟨"shop", none, some "/plg/shop", true⟩ 1),
    .start 1 (.patchPluginEnabled "shop" false), .start 2 .getPlugins, .finish 1]

theorem linearizable_of_stillThere_sample :
    (Transition.outputs pluginEndpoints.handle (TwoStep.init .empty)
        sampleRequests).reduceOption =
      Transition.outputs pluginEndpoints.serve .empty
        (pluginEndpoints.order (TwoStep.init .empty) sampleRequests) := by
  have halong : Transition.Along (fun s e => (pluginEndpoints.handle s e).2) StillThere
      (TwoStep.init .empty) sampleRequests := by
    refine ⟨trivial, trivial, trivial, fun r p hcall => ?_, trivial⟩
    cases hcall
    exact ⟨_, List.mem_cons_self, true, rfl⟩
  exact (linearizable_of_stillThere halong).1

end Plugins

end AranesLms
