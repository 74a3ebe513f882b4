import AranesLms.Gateway.Proxy
import AranesLms.Lib.OrderedDict

/-!
# Published paths

`to_public_openapi_paths` of `gateway_server/gateway.py` publishes the paths of a service below
`/plg/{service_name}`, and `to_internal_plugin_path` (`toInternalPluginPath`) undoes this for the
proxied request.  `publicPath_routes_back`: the two agree for every path, and the published paths
of different services differ.
-/

namespace AranesLms

namespace Gateway

variable {α : Type}

/-- The path under which `to_public_openapi_paths` publishes a path. -/
def publicPath (pathName serviceName : String) : String :=
  let root := publicPluginPrefix serviceName
  let normalizedPath := if startsWith pathName "/" then pathName else "/" ++ pathName
  if normalizedPath = root ∨ startsWith normalizedPath (root ++ "/") then normalizedPath
  else if normalizedPath = "/" then root
  else root ++ normalizedPath

def toPublicOpenapiPaths (documentPaths : OrderedDict String α) (serviceName : String) :
    OrderedDict String α :=
  (∅ : OrderedDict String α).setAll
    (documentPaths.entries.map fun e => (publicPath e.1 serviceName, e.2))

/-! ## Segments -/

/-- What stands between the slashes. -/
def segments (path : String) : List String := (path.toList.splitOn '/').map String.ofList

theorem segments_of_notMem {s : String} (h : '/' ∉ s.toList) : segments s = [s] := by
  rw [segments, List.splitOn_eq_singleton h, List.map_singleton, String.ofList_toList]

theorem segments_append (s t : String) : segments (s ++ "/" ++ t) = segments s ++ segments t := by
  have hlist : (s ++ "/" ++ t).toList = s.toList ++ '/' :: t.toList := by simp
  rw [segments, hlist, List.splitOn_append_cons_self, List.map_append]
  rfl

/-! ## Prefixes -/

theorem startsWith_iff {s t : String} : startsWith s t ↔ ∃ rest, s = t ++ rest := by
  rw [startsWith, List.isPrefixOf_iff_prefix]
  constructor
  · rintro ⟨rest, h⟩
    exact ⟨String.ofList rest, String.toList_inj.1 (by simpa using h.symm)⟩
  · rintro ⟨rest, rfl⟩
    exact ⟨rest.toList, by simp⟩

theorem startsWith_append (s t : String) : startsWith (s ++ t) s := startsWith_iff.2 ⟨t, rfl⟩

theorem startsWith_slash_append {s : String} (h : startsWith s "/") (t : String) :
    startsWith (s ++ t) "/" := by
  obtain ⟨rest, rfl⟩ := startsWith_iff.1 h
  exact startsWith_iff.2 ⟨rest ++ t, String.append_assoc⟩

/-- A path with its leading slash. -/
def normalize (path : String) : String := if startsWith path "/" then path else "/" ++ path

theorem startsWith_normalize (path : String) : startsWith (normalize path) "/" := by
  unfold normalize
  split_ifs with h
  · exact h
  · exact startsWith_append "/" path

theorem normalize_of_startsWith {path : String} (h : startsWith path "/") :
    normalize path = path := if_pos h

theorem startsWith_publicPluginPrefix (a : String) : startsWith (publicPluginPrefix a) "/" :=
  startsWith_iff.2 ⟨"plg/" ++ a, by rw [publicPluginPrefix, ← String.append_assoc]; rfl⟩

/-- The path is the one of the service, or lies below it. -/
def IsUnder (a path : String) : Prop :=
  path = publicPluginPrefix a ∨ startsWith path (publicPluginPrefix a ++ "/")

/-- Such a path is the prefix with nothing, or something that starts with a slash, behind it. -/
theorem isUnder_iff {a path : String} : IsUnder a path ↔
    ∃ rest, path = publicPluginPrefix a ++ rest ∧ (rest = "" ∨ startsWith rest "/") := by
  constructor
  · rintro (rfl | h)
    · exact ⟨"", String.append_empty.symm, Or.inl rfl⟩
    · obtain ⟨rest, rfl⟩ := startsWith_iff.1 h
      exact ⟨"/" ++ rest, String.append_assoc, Or.inr (startsWith_append "/" rest)⟩
  · rintro ⟨rest, rfl, rfl | h⟩
    · exact Or.inl String.append_empty
    · obtain ⟨rest, rfl⟩ := startsWith_iff.1 h
      exact Or.inr (startsWith_iff.2 ⟨rest, String.append_assoc.symm⟩)

/-! ## The two rewriters -/

theorem toInternalPluginPath_eq (path a : String) : toInternalPluginPath path a =
    if normalize path = publicPluginPrefix a then "/"
    else if startsWith (normalize path) (publicPluginPrefix a ++ "/") then
      String.ofList ((normalize path).toList.drop (publicPluginPrefix a).length)
    else normalize path := rfl

theorem drop_length_append (s t : String) :
    String.ofList ((s ++ t).toList.drop s.length) = t := by
  rw [String.toList_append, ← String.length_toList, List.drop_left, String.ofList_toList]

/-- Only the normalized path counts. -/
theorem toInternalPluginPath_normalize (path a : String) :
    toInternalPluginPath (normalize path) a = toInternalPluginPath path a := by
  rw [toInternalPluginPath_eq, toInternalPluginPath_eq,
    normalize_of_startsWith (startsWith_normalize path)]

theorem toInternalPluginPath_root (a : String) :
    toInternalPluginPath (publicPluginPrefix a) a = "/" := by
  rw [toInternalPluginPath_eq, normalize_of_startsWith (startsWith_publicPluginPrefix a),
    if_pos rfl]

/-- What stands behind the prefix is the internal path. -/
theorem toInternalPluginPath_append {a rest : String} (h : startsWith rest "/") :
    toInternalPluginPath (publicPluginPrefix a ++ rest) a = rest := by
  obtain ⟨rest, rfl⟩ := startsWith_iff.1 h
  have hne : publicPluginPrefix a ++ ("/" ++ rest) ≠ publicPluginPrefix a := fun heq => by
    have hempty : "/" ++ rest = "" :=
      (String.append_right_inj (publicPluginPrefix a)).1 (heq.trans String.append_empty.symm)
    simpa using congrArg String.toList hempty
  have hunder : startsWith (publicPluginPrefix a ++ ("/" ++ rest)) (publicPluginPrefix a ++ "/") :=
    startsWith_iff.2 ⟨rest, String.append_assoc.symm⟩
  rw [toInternalPluginPath_eq, normalize_of_startsWith
    (startsWith_slash_append (startsWith_publicPluginPrefix a) _), if_neg hne, if_pos hunder,
    drop_length_append]

/-- A path outside of the service is its own internal path. -/
theorem toInternalPluginPath_of_not_isUnder {path a : String} (h : ¬ IsUnder a (normalize path)) :
    toInternalPluginPath path a = normalize path := by
  obtain ⟨hne, hnot⟩ := not_or.1 h
  rw [toInternalPluginPath_eq, if_neg hne, if_neg hnot]

theorem publicPath_of_isUnder {path a : String} (h : IsUnder a (normalize path)) :
    publicPath path a = normalize path := if_pos h

theorem publicPath_of_not_isUnder {path a : String} (h : ¬ IsUnder a (normalize path)) :
    publicPath path a = if normalize path = "/" then publicPluginPrefix a
      else publicPluginPrefix a ++ normalize path := if_neg h

theorem isUnder_publicPath (path a : String) : IsUnder a (publicPath path a) := by
  by_cases h : IsUnder a (normalize path)
  · rwa [publicPath_of_isUnder h]
  · rw [publicPath_of_not_isUnder h]
    split_ifs
    · exact Or.inl rfl
    · exact isUnder_iff.2 ⟨normalize path, rfl, Or.inr (startsWith_normalize path)⟩

theorem startsWith_of_isUnder {path a : String} (h : IsUnder a path) : startsWith path "/" := by
  obtain ⟨rest, rfl, -⟩ := isUnder_iff.1 h
  exact startsWith_slash_append (startsWith_publicPluginPrefix a) rest

/-- A published path is published as it is. -/
theorem publicPath_publicPath (path a : String) :
    publicPath (publicPath path a) a = publicPath path a := by
  have hunder := isUnder_publicPath path a
  have hnormalize := normalize_of_startsWith (startsWith_of_isUnder hunder)
  rw [publicPath_of_isUnder (hnormalize.symm ▸ hunder), hnormalize]

theorem toInternalPluginPath_publicPath (path a : String) :
    toInternalPluginPath (publicPath path a) a = toInternalPluginPath path a := by
  by_cases h : IsUnder a (normalize path)
  · rw [publicPath_of_isUnder h, toInternalPluginPath_normalize]
  · rw [publicPath_of_not_isUnder h, toInternalPluginPath_of_not_isUnder h]
    split_ifs with hroot
    · rw [toInternalPluginPath_root, hroot]
    · exact toInternalPluginPath_append (startsWith_normalize path)

/-- The segments of a published path. -/
theorem segments_publicPath (path : String) {a : String} (ha : '/' ∉ a.toList) :
    ∃ more, segments (publicPath path a) = "" :: "plg" :: a :: more := by
  have hplg : segments "/plg" = ["", "plg"] := by decide
  have hroot : publicPluginPrefix a = "/plg" ++ "/" ++ a := rfl
  obtain ⟨rest, heq, hrest⟩ := isUnder_iff.1 (isUnder_publicPath path a)
  rw [heq, hroot]
  rcases hrest with rfl | hslash
  · exact ⟨[], by rw [String.append_empty, segments_append, hplg, segments_of_notMem ha]; rfl⟩
  · obtain ⟨rest, rfl⟩ := startsWith_iff.1 hslash
    refine ⟨segments rest, ?_⟩
    rw [← String.append_assoc, segments_append, segments_append, hplg, segments_of_notMem ha]
    rfl

/-! ## Documents -/

theorem mem_keys_toPublicOpenapiPaths {d : OrderedDict String α} {a path : String} :
    path ∈ (toPublicOpenapiPaths d a).keys ↔ ∃ p ∈ d.keys, publicPath p a = path := by
  rw [toPublicOpenapiPaths, OrderedDict.mem_keys_setAll, List.map_map]
  constructor
  · rintro (h | h)
    · cases h
    · obtain ⟨e, he, rfl⟩ := List.mem_map.1 h
      exact ⟨e.1, List.mem_map_of_mem he, rfl⟩
  · rintro ⟨p, hp, rfl⟩
    obtain ⟨e, he, rfl⟩ := List.mem_map.1 hp
    exact Or.inr (List.mem_map.2 ⟨e, he, rfl⟩)

/-- Publishing published paths changes nothing. -/
theorem toPublicOpenapiPaths_idem (d : OrderedDict String α) (a : String) :
    toPublicOpenapiPaths (toPublicOpenapiPaths d a) a = toPublicOpenapiPaths d a := by
  have hsame : ∀ e ∈ (toPublicOpenapiPaths d a).entries, (publicPath e.1 a, e.2) = e := by
    intro e he
    obtain ⟨p, -, hp⟩ := mem_keys_toPublicOpenapiPaths.1 (List.mem_map_of_mem he)
    rw [← hp, publicPath_publicPath, hp]
  have hentries : (toPublicOpenapiPaths d a).entries.map (fun e => (publicPath e.1 a, e.2)) =
      (toPublicOpenapiPaths d a).entries := (List.map_congr_left hsame).trans (List.map_id _)
  rw [toPublicOpenapiPaths, hentries, OrderedDict.setAll_entries]

theorem toPublicOpenapiPaths_mapVal {α β : Type} (paths : OrderedDict String α) (f : α → β)
    (serviceName : String) : toPublicOpenapiPaths (paths.mapVal fun _ item => f item) serviceName =
      (toPublicOpenapiPaths paths serviceName).mapVal fun _ item => f item := by
  rw [toPublicOpenapiPaths, toPublicOpenapiPaths, OrderedDict.mapVal_setAll]
  simp only [OrderedDict.mapVal, List.map_map]
  rfl

/-- For different services, all documents and all paths: a published path starts with the segments
`plg` and the service, which is where the routes `/plg/{service_name}` take the service from; its
internal path is the one of the path; publishing again changes nothing; two paths share a published
path only if they share the internal path; and no two services share a published path. -/
theorem publicPath_routes_back {a b : String} (hab : a ≠ b) (haslash : '/' ∉ a.toList)
    (hbslash : '/' ∉ b.toList) (d : OrderedDict String α) (p q : String) :
    (∀ path, path ∈ (toPublicOpenapiPaths d a).keys ↔ ∃ p ∈ d.keys, publicPath p a = path) ∧
    (∃ more, segments (publicPath p a) = "" :: "plg" :: a :: more) ∧
    toInternalPluginPath (publicPath p a) a = toInternalPluginPath p a ∧
    publicPath (publicPath p a) a = publicPath p a ∧
    toPublicOpenapiPaths (toPublicOpenapiPaths d a) a = toPublicOpenapiPaths d a ∧
    (publicPath p a = publicPath q a → toInternalPluginPath p a = toInternalPluginPath q a) ∧
    publicPath p a ≠ publicPath q b := by
  have hsegments := segments_publicPath p haslash
  refine ⟨fun _ => mem_keys_toPublicOpenapiPaths, hsegments, toInternalPluginPath_publicPath p a,
    publicPath_publicPath p a, toPublicOpenapiPaths_idem d a, ?_, ?_⟩
  · intro h
    rw [← toInternalPluginPath_publicPath p, h, toInternalPluginPath_publicPath]
  · intro h
    obtain ⟨more, hmore⟩ := hsegments
    obtain ⟨more', hmore'⟩ := segments_publicPath q hbslash
    rw [h, hmore'] at hmore
    injection hmore with _ hmore
    injection hmore with _ hmore
    injection hmore with hba
    exact hab hba.symm

/-- A name that is a prefix of the other, and a path that carries the prefix of the other. -/
theorem publicPath_routes_back_shop :
    (∃ more, segments (publicPath "/plg/shop2/cart" "shop") = "" :: "plg" :: "shop" :: more) ∧
    publicPath "/plg/shop2/cart" "shop" ≠ publicPath "cart" "shop2" := by
  have h := publicPath_routes_back (a := "shop") (b := "shop2") (by decide) (by decide) (by decide)
    (∅ : OrderedDict String ℕ) "/plg/shop2/cart" "cart"
  exact ⟨h.2.1, h.2.2.2.2.2.2⟩

end Gateway

end AranesLms
