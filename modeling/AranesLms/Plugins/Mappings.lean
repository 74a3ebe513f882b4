import AranesLms.Auth.Tokens
import AranesLms.Lib.UniqueTable
import AranesLms.Plugins.Manager

/-!
# Reconciling the plugin mappings

`sync_plugin_mappings` of `src/plugins/crud.py` adds a row to `plugin_mappings` for every discovered
service without one.  It looks for the service names only; the name is also the `plugin_name` of the
new row, and its `mount_prefix` comes from it, so that the insertion fails when two services have
one name or one prefix, or an existing row has them for another service (`reconciled_iff`).
-/

namespace AranesLms

namespace Plugins

open Gateway

/-- `str.strip` for one character. -/
def stripChar (c : Char) (s : String) : String :=
  String.ofList ((s.toList.dropWhile (· = c)).reverse.dropWhile (· = c)).reverse

def pluginMountPrefix (serviceName : String) : String :=
  let normalized := stripChar '/' (strip serviceName)
  if normalized ≠ "" then "/plg/" ++ normalized else "/plg/"

/-- Content of `plugin_mappings`. -/
abbrev MappingTable :=
  UniqueTable [PluginMapping.pluginName, PluginMapping.serviceName, PluginMapping.mountPrefix]

/-- The row for a discovered service. -/
def newMapping (service : DiscoveredService) : PluginMapping :=
  ⟨service.name, service.name, pluginMountPrefix service.name, true⟩

/-- The discovered services without a row. -/
def unmapped (existing : MappingTable) (discoveredServices : List DiscoveredService) :
    List DiscoveredService :=
  discoveredServices.filter fun service =>
    service.name ∉ existing.rows.map PluginMapping.serviceName

/-- The rows are added and flushed, if there are any. -/
def addMappings (existing : MappingTable) (created : List PluginMapping) :
    Except Violation MappingTable :=
  if created ≠ [] then existing.insertAll created else .ok existing

def syncPluginMappings (existing : MappingTable) (discoveredServices : List DiscoveredService) :
    Except Violation (List PluginMapping × MappingTable) := do
  let mappings ← addMappings existing ((unmapped existing discoveredServices).map newMapping)
  return (mappings.rows.insertionSort fun m m' => m.pluginName ≤ m'.pluginName, mappings)

/-! ## The specification -/

/-- What the mappings are after a synchronisation: every old row is there; every discovered service
has a row, and exactly one where it had none; nothing else is new; all rows are returned by plugin
name; and a second run creates nothing. -/
structure Reconciled (existing : MappingTable) (discoveredServices : List DiscoveredService)
    (returned : List PluginMapping) (mappings : MappingTable) : Prop where
  kept : ∀ m ∈ existing, m ∈ mappings
  covered : ∀ service ∈ discoveredServices, ∃ m ∈ mappings, m.serviceName = service.name
  created : ∀ service ∈ unmapped existing discoveredServices, ∃ m,
    (mappings.rows.filter fun m' => m'.serviceName = service.name) = [m] ∧ m ∉ existing
  only : ∀ m ∈ mappings, m ∈ existing ∨
    ∃ service ∈ unmapped existing discoveredServices, m.serviceName = service.name
  perm : returned.Perm mappings.rows
  sorted : returned.Pairwise fun m m' => m.pluginName ≤ m'.pluginName
  again : syncPluginMappings mappings discoveredServices = .ok (returned, mappings)

/-- The services without a row have different prefixes, and neither their names nor their prefixes
are those of an existing row. -/
structure Distinguishable (existing : MappingTable) (discoveredServices : List DiscoveredService) :
    Prop where
  prefixes : ((unmapped existing discoveredServices).map fun service =>
    pluginMountPrefix service.name).Nodup
  existing : ∀ service ∈ unmapped existing discoveredServices, ∀ m ∈ existing,
    m.pluginName ≠ service.name ∧ m.mountPrefix ≠ pluginMountPrefix service.name

variable {existing : MappingTable} {discoveredServices : List DiscoveredService}

theorem mem_unmapped {service : DiscoveredService} :
    service ∈ unmapped existing discoveredServices ↔
      service ∈ discoveredServices ∧ ∀ m ∈ existing, m.serviceName ≠ service.name := by
  simp [unmapped, UniqueTable.mem_def]

theorem insertable_iff_distinguishable :
    existing.Insertable ((unmapped existing discoveredServices).map newMapping) ↔
      Distinguishable existing discoveredServices := by
  unfold UniqueTable.Insertable
  simp only [List.forall_mem_cons, List.not_mem_nil, false_implies, implies_true, and_true,
    List.map_map, List.forall_mem_map, Function.comp_def, newMapping]
  constructor
  · intro h
    exact ⟨h.2.2.1, fun service hs m hm => ⟨h.1.2 service hs m hm, h.2.2.2 service hs m hm⟩⟩
  · intro h
    have hnames : ((unmapped existing discoveredServices).map fun service => service.name).Nodup :=
      List.Nodup.of_map pluginMountPrefix (by
        simpa only [List.map_map, Function.comp_def] using h.prefixes)
    exact ⟨⟨hnames, fun service hs m hm => (h.existing service hs m hm).1⟩,
      ⟨hnames, fun service hs m hm => (mem_unmapped.1 hs).2 m hm⟩, h.prefixes,
      fun service hs m hm => (h.existing service hs m hm).2⟩

/-! ## One run -/

theorem addMappings_eq_insertAll (existing : MappingTable) (created : List PluginMapping) :
    addMappings existing created = existing.insertAll created := by
  unfold addMappings
  split_ifs with hnew
  · rfl
  · rw [not_not.1 hnew, UniqueTable.insertAll_nil]

/-- The mappings that a run returns. -/
theorem syncPluginMappings_eq_ok {returned : List PluginMapping} {mappings : MappingTable} :
    syncPluginMappings existing discoveredServices = .ok (returned, mappings) ↔
      Distinguishable existing discoveredServices ∧
        mappings.rows = existing.rows ++ (unmapped existing discoveredServices).map newMapping ∧
        returned = mappings.rows.insertionSort fun m m' => m.pluginName ≤ m'.pluginName := by
  simp only [syncPluginMappings, addMappings_eq_insertAll, Except.bind_eq_ok,
    UniqueTable.insertAll_eq_ok, insertable_iff_distinguishable, Except.pure_eq_ok, Prod.mk.injEq]
  constructor
  · rintro ⟨t, ⟨hdist, hrows⟩, rfl, rfl⟩
    exact ⟨hdist, hrows, rfl⟩
  · rintro ⟨hdist, hrows, rfl⟩
    exact ⟨mappings, ⟨hdist, hrows⟩, rfl, rfl⟩

/-- After a run every service has a row. -/
theorem unmapped_eq_nil {mappings : MappingTable}
    (h : ∀ service ∈ discoveredServices, ∃ m ∈ mappings, m.serviceName = service.name) :
    unmapped mappings discoveredServices = [] := by
  refine List.eq_nil_iff_forall_not_mem.2 fun service hs => ?_
  obtain ⟨hmem, hnone⟩ := mem_unmapped.1 hs
  obtain ⟨m, hm, hname⟩ := h service hmem
  exact hnone m hm hname

theorem reconciled_of_ok {returned : List PluginMapping} {mappings : MappingTable}
    (h : syncPluginMappings existing discoveredServices = .ok (returned, mappings)) :
    Reconciled existing discoveredServices returned mappings := by
  obtain ⟨-, hrows, rfl⟩ := syncPluginMappings_eq_ok.1 h
  have hmem : ∀ m, m ∈ mappings ↔ m ∈ existing ∨
      ∃ service ∈ unmapped existing discoveredServices, newMapping service = m := by
    intro m
    rw [UniqueTable.mem_def, hrows, List.mem_append, List.mem_map]
    rfl
  have hcovered : ∀ service ∈ discoveredServices, ∃ m ∈ mappings, m.serviceName = service.name := by
    intro service hs
    by_cases hnone : ∀ m ∈ existing, m.serviceName ≠ service.name
    · exact ⟨newMapping service,
        (hmem _).2 (Or.inr ⟨service, mem_unmapped.2 ⟨hs, hnone⟩, rfl⟩), rfl⟩
    · push Not at hnone
      obtain ⟨m, hm, hname⟩ := hnone
      exact ⟨m, (hmem m).2 (Or.inl hm), hname⟩
  refine ⟨fun m hm => (hmem m).2 (Or.inl hm), hcovered, fun service hs => ?_, fun m hm => ?_,
    List.perm_insertionSort _ _, ?_, ?_⟩
  · have hnone : ∀ m ∈ existing, m.serviceName ≠ service.name := (mem_unmapped.1 hs).2
    have hnew : newMapping service ∈ mappings := (hmem _).2 (Or.inr ⟨service, hs, rfl⟩)
    refine ⟨newMapping service, ?_, fun hm => hnone _ hm rfl⟩
    exact mappings.filter_col_eq (by simp) hnew
  · rcases (hmem m).1 hm with hm | ⟨service, hs, rfl⟩
    · exact Or.inl hm
    · exact Or.inr ⟨service, hs, rfl⟩
  · exact List.pairwise_insertionSort _ _
  · have hnil := unmapped_eq_nil hcovered
    refine syncPluginMappings_eq_ok.2 ⟨⟨?_, ?_⟩, ?_, rfl⟩
    · rw [hnil]
      exact List.nodup_nil
    · rw [hnil]
      exact fun _ hs => absurd hs List.not_mem_nil
    · rw [hnil, List.map_nil, List.append_nil]

/-- A synchronisation does what it should exactly when the new rows can be told apart. -/
theorem reconciled_iff (existing : MappingTable) (discoveredServices : List DiscoveredService) :
    (∃ returned mappings,
      syncPluginMappings existing discoveredServices = .ok (returned, mappings) ∧
        Reconciled existing discoveredServices returned mappings) ↔
      Distinguishable existing discoveredServices := by
  constructor
  · rintro ⟨returned, mappings, hok, -⟩
    exact (syncPluginMappings_eq_ok.1 hok).1
  · intro h
    obtain ⟨mappings, hinsert⟩ :=
      UniqueTable.exists_insertAll.2 (insertable_iff_distinguishable.2 h)
    have hok := syncPluginMappings_eq_ok.2 ⟨h, (UniqueTable.insertAll_eq_ok.1 hinsert).2, rfl⟩
    exact ⟨_, mappings, hok, reconciled_of_ok hok⟩

/-! ### A name that is found twice -/

/-- A service directory whose manifest gives the name `shop`. -/
def manifestDir (name : String) : ServiceDir :=
  ⟨name, true, .ok (some ⟨"shop", ["python", "main.py"], "/health", none, true⟩), false⟩

/-- Two directories whose manifests give the same name are found, and the flush fails. -/
theorem not_reconciled_shop :
    ¬ ∀ (existing : MappingTable) (servicesRoot : List ServiceDir)
      (discovered : List DiscoveredService), discoverServices servicesRoot = .ok discovered →
      ∃ returned mappings, syncPluginMappings existing discovered = .ok (returned, mappings) ∧
        Reconciled existing discovered returned mappings := by
  intro h
  have hnames : (discoverServices [manifestDir "a", manifestDir "b"]).toOption.map
      (fun discovered => discovered.map DiscoveredService.name) = some ["shop", "shop"] := by
    decide +kernel
  obtain ⟨discovered, hdiscovered, hshop⟩ := Option.map_eq_some_iff.1 hnames
  obtain ⟨returned, mappings, hok, -⟩ := h ∅ _ discovered (Except.toOption_eq_some.1 hdiscovered)
  have hprefixes := (syncPluginMappings_eq_ok.1 hok).1.prefixes
  have hall : unmapped ∅ discovered = discovered :=
    List.filter_eq_self.2 fun service _ => by simp [EmptyCollection.emptyCollection]
  have hmap : (discovered.map fun service => pluginMountPrefix service.name) =
      (discovered.map DiscoveredService.name).map pluginMountPrefix := by
    simp only [List.map_map, Function.comp_def]
  rw [hall, hmap, hshop] at hprefixes
  simp at hprefixes

end Plugins

end AranesLms
