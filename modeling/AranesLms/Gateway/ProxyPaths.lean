import AranesLms.Gateway.Paths
import AranesLms.Http.ProxyHeaders
import AranesLms.Lib.PercentCoding
import Mathlib.Data.List.TakeWhile

/-!
# Paths and queries through the gateway's proxy

The path of a request is decoded by the server, cut at the first `?` or `#` when it is read from
`request.url`, stripped of its prefix and put into a URL, which the client library encodes again;
the service decodes what it gets.  `preservesTarget_iff` says when the service gets the path of the
client.  The query is parsed, grouped by name and encoded again, and no name loses a value.
-/

namespace AranesLms

namespace Gateway

/-- What the client library does not encode in a path and in a form, and whether it writes a space
in a form as `+`. -/
structure HttpxEncoding where
  pathSafe : Char → Bool
  formSafe : Char → Bool
  plus : Bool
  formSafe_separators : Percent.FormSafe formSafe

def isDelimiter (c : Char) : Bool := c = '?' ∨ c = '#'

/-- What is before the first `?` or `#`. -/
def cut (s : String) : String := String.ofList (s.toList.takeWhile fun c => ¬ isDelimiter c)

def unquoteText (s : String) : String := String.ofList (Percent.unquote s.toList)

/-- A request of a client of the gateway below `/plg/{service_name}`. -/
structure PluginTarget where
  rawPath : String
  rawQuery : String
  serviceName : String
  rest : String
  slash_free : '/' ∉ serviceName.toList
  unquote_rawPath : unquoteText rawPath = publicPluginPrefix serviceName ++ rest
  rest_slash : rest = "" ∨ startsWith rest "/"

namespace PluginTarget

variable (t : PluginTarget)

/-- `request.url.path`. -/
def urlPath : String := cut (unquoteText t.rawPath)

/-- `request.query_params.multi_items()`. -/
def queryParams : List (String × String) :=
  (Percent.parseQsl t.rawQuery.toList).map fun p => (String.ofList p.1, String.ofList p.2)

/-- The decoded path without the prefix. -/
def expectedPath : String := if t.rest = "" then "/" else t.rest

end PluginTarget

/-! ## What the service receives -/

/-- The path of a URL string. -/
def httpxPath (url : String) : String :=
  cut (String.ofList (Url.splitNetloc (Url.splitScheme url.toList).2).2)

/-- The pairs of `httpx.QueryParams`: the values of a name are together. -/
def groupParams (params : List (String × String)) : List (String × String) :=
  (Headers.dict params).flatMap fun h => params.filter fun p => p.1 = h.1

section

variable (httpx : HttpxEncoding) (upstream : UpstreamRequest)

def receivedPath : String :=
  String.ofList (Percent.unquote
    (Percent.quote httpx.pathSafe (httpxPath upstream.url).toList))

def receivedParams : List (String × String) :=
  (Percent.parseQsl (Percent.urlencode httpx.formSafe httpx.plus
    ((groupParams upstream.params).map fun p => (p.1.toList, p.2.toList)))).map
      fun p => (String.ofList p.1, String.ofList p.2)

theorem receivedParams_eq : receivedParams httpx upstream = groupParams upstream.params := by
  rw [receivedParams, Percent.parseQsl_urlencode httpx.formSafe_separators, List.map_map]
  refine (List.map_congr_left fun p _ => ?_).trans (List.map_id _)
  simp

theorem receivedPath_eq : receivedPath httpx upstream = unquoteText (httpxPath upstream.url) := by
  rw [receivedPath, Percent.unquote_quote, unquoteText]

end

/-- Of distinct names, at most one gives the values of a name. -/
theorem flatMap_ite_eq {hs : Headers} (hnodup : (hs.map Prod.fst).Nodup) (name : String)
    (values : Headers) : (hs.flatMap fun h => if h.1 = name then values else []) =
      if hs.Has name then values else [] := by
  induction hs with
  | nil => rfl
  | cons h hs ih =>
    obtain ⟨hnotMem, hnodup⟩ := List.nodup_cons.1 hnodup
    rw [List.flatMap_cons, ih hnodup]
    by_cases heq : h.1 = name
    · have hnot : ¬ Headers.Has hs name := fun hhas =>
        hnotMem (heq ▸ Headers.mem_map_fst.2 hhas)
      rw [if_pos heq, if_neg hnot, if_pos ⟨h, List.mem_cons_self, heq⟩, List.append_nil]
    · rw [if_neg heq, List.nil_append]
      refine if_congr ?_ rfl rfl
      simp [Headers.Has, heq]

/-- No name loses a value, and the values of a name keep their order. -/
theorem getlist_groupParams (params : List (String × String)) (name : String) :
    Headers.getlist (groupParams params) name = Headers.getlist params name := by
  have hgroup : ∀ h : String × String, (params.filter fun p => p.1 = h.1).filter
      (fun p => p.1 = name) =
      if h.1 = name then params.filter fun p => p.1 = name else [] := by
    intro h
    by_cases heq : h.1 = name
    · rw [if_pos heq, heq, List.filter_filter]
      simp
    · rw [if_neg heq, List.filter_filter, List.filter_eq_nil_iff]
      rintro p - hp
      simp only [Bool.and_eq_true, decide_eq_true_eq] at hp
      exact heq (hp.2.symm.trans hp.1)
  have hflat : (groupParams params).filter (fun p => p.1 = name) =
      params.filter fun p => p.1 = name := by
    rw [groupParams, List.filter_flatMap]
    simp only [hgroup]
    rw [flatMap_ite_eq Headers.dict_nodup]
    split_ifs with hhas
    · rfl
    · rw [Headers.has_dict] at hhas
      refine (List.filter_eq_nil_iff.2 fun p hp hname => hhas ⟨p, hp, ?_⟩).symm
      simpa using hname
  rw [Headers.getlist, hflat, Headers.getlist]

/-! ## Cutting -/

def HasDelimiter (s : String) : Prop := ∃ c ∈ s.toList, isDelimiter c

instance (s : String) : Decidable (HasDelimiter s) :=
  List.decidableBEx (fun c => isDelimiter c) s.toList

theorem hasDelimiter_append {s t : String} :
    HasDelimiter (s ++ t) ↔ HasDelimiter s ∨ HasDelimiter t := by
  simp only [HasDelimiter, String.toList_append, List.mem_append, or_and_right, exists_or]

theorem cut_of_not_hasDelimiter {s : String} (h : ¬ HasDelimiter s) : cut s = s := by
  have hself : s.toList.takeWhile (fun c => ¬ isDelimiter c) = s.toList :=
    List.takeWhile_eq_self_iff.2 fun c hc => by simpa using fun hd => h ⟨c, hc, hd⟩
  rw [cut, hself, String.ofList_toList]

theorem not_hasDelimiter_cut (s : String) : ¬ HasDelimiter (cut s) := by
  rintro ⟨c, hc, hd⟩
  rw [cut, String.toList_ofList] at hc
  have := List.mem_takeWhile_imp hc
  simp [hd] at this

theorem cut_append {s : String} (h : ¬ HasDelimiter s) (t : String) :
    cut (s ++ t) = s ++ cut t := by
  have hall : ∀ c ∈ s.toList, decide (¬ isDelimiter c) = true :=
    fun c hc => by simpa using fun hd => h ⟨c, hc, hd⟩
  rw [cut, String.toList_append, List.takeWhile_append_of_pos hall, String.ofList_append,
    String.ofList_toList, cut]

theorem cut_append_of_hasDelimiter {s : String} (h : HasDelimiter s) (t : String) :
    cut (s ++ t) = cut s := by
  have hne : (s.toList.takeWhile fun c => ¬ isDelimiter c).length ≠ s.toList.length := by
    intro hlength
    obtain ⟨c, hc, hd⟩ := h
    have hself := (List.takeWhile_prefix _).eq_of_length hlength
    simpa [hd] using List.takeWhile_eq_self_iff.1 hself c hc
  rw [cut, String.toList_append, List.takeWhile_append, if_neg hne, cut]

/-! ## The path -/

theorem httpxPath_baseUrl (service : ManagedServiceRuntime) {path : String}
    (h : startsWith path "/") : httpxPath (service.baseUrl ++ path) = cut path := by
  obtain ⟨rest, rfl⟩ := startsWith_iff.1 h
  have hport : ∀ c ∈ (toString service.port).toList, c ∉ ['/', '?', '#'] := by
    intro c hc hmem
    rw [Nat.toString_eq_repr, Nat.toList_repr] at hc
    have hdigit := Nat.isDigit_of_mem_toDigits (by decide) (by decide) hc
    have hnone : ['/', '?', '#'].all fun c => ¬ c.isDigit := by decide
    exact absurd hdigit (of_decide_eq_true (List.all_eq_true.1 hnone c hmem))
  have hauthority : ∀ c ∈ "127.0.0.1:".toList ++ (toString service.port).toList,
      decide (c ∉ ['/', '?', '#']) = true := by
    have hhost : "127.0.0.1:".toList.all fun c => c ∉ ['/', '?', '#'] := by decide
    intro c hc
    rcases List.mem_append.1 hc with hc | hc
    · exact List.all_eq_true.1 hhost c hc
    · exact decide_eq_true (hport c hc)
  -- The literals are variables here: rewriting would compare them character by character.
  have hconcat : ∀ (base port root : String) (host : List Char),
      base.toList = "http".toList ++ ':' :: '/' :: '/' :: host → root.toList = ['/'] →
      (base ++ port ++ (root ++ rest)).toList = "http".toList ++ ':' :: ('/' :: '/' ::
        ((host ++ port.toList) ++ '/' :: rest.toList)) := by
    intro base port root host hbase hroot
    simp only [String.toList_append, hbase, hroot, List.append_assoc, List.cons_append,
      List.nil_append]
  have hurl : (service.baseUrl ++ ("/" ++ rest)).toList = "http".toList ++ ':' :: ('/' :: '/' ::
      (("127.0.0.1:".toList ++ (toString service.port).toList) ++ '/' :: rest.toList)) :=
    hconcat "http://127.0.0.1:" (toString service.port) "/" _ (by decide) rfl
  have hscheme : ':' ∉ "http".toList := by decide
  have hguard : (("http".toList).head?.any Char.isAlpha : Prop) ∧
      ("http".toList).all Url.isSchemeChar := by decide
  rw [httpxPath, hurl, Url.splitScheme, Percent.partition_append hscheme]
  dsimp only
  rw [if_pos ⟨List.mem_append_right _ List.mem_cons_self, hguard⟩, Url.splitNetloc,
    List.dropWhile_append_of_pos hauthority, List.dropWhile_cons_of_neg (by decide)]
  refine congrArg cut (String.toList_inj.1 ?_)
  rw [String.toList_ofList, String.toList_append]
  rfl

/-- What the service gets is the decoded internal path. -/
theorem receivedPath_upstreamUrl (httpx : HttpxEncoding) {service : ManagedServiceRuntime}
    {serviceName : String} {request : ClientRequest} {upstream : UpstreamRequest}
    (hurl : upstream.url = upstreamUrl service serviceName request)
    (hslash : startsWith (toInternalPluginPath request.path serviceName) "/") :
    receivedPath httpx upstream =
      unquoteText (cut (toInternalPluginPath request.path serviceName)) := by
  rw [receivedPath_eq, hurl, upstreamUrl, httpxPath_baseUrl service hslash]

theorem countP_unquote (s : List Char) :
    (Percent.unquote s).countP Utf8.isAscii ≤ s.countP Utf8.isAscii := by
  rw [Percent.unquote, Utf8.countP_decode]
  exact (Percent.countP_unquoteToBytes s).1

/-- Cutting and decoding change a text unless there is nothing to cut or to decode. -/
theorem unquoteText_cut_eq_self_iff {s : String} :
    unquoteText (cut s) = s ↔ ¬ HasDelimiter s ∧ ¬ Percent.HasTriplet s.toList := by
  constructor
  · intro h
    have hnone : ¬ HasDelimiter s := by
      rintro ⟨c, hc, hd⟩
      have hlist : Percent.unquote (s.toList.takeWhile fun c => ¬ isDelimiter c) = s.toList := by
        have := congrArg String.toList h
        rwa [unquoteText, String.toList_ofList, cut, String.toList_ofList] at this
      have hle := countP_unquote (s.toList.takeWhile fun c => ¬ isDelimiter c)
      rw [hlist] at hle
      -- The delimiter is an ASCII character that is cut away.
      have hsplit : (s.toList.takeWhile fun c => ¬ isDelimiter c) ++
          (s.toList.dropWhile fun c => ¬ isDelimiter c) = s.toList :=
        List.takeWhile_append_dropWhile
      have hdrop : c ∈ s.toList.dropWhile fun c => ¬ isDelimiter c := by
        rw [← hsplit] at hc
        refine (List.mem_append.1 hc).resolve_left fun htake => ?_
        simpa [hd] using List.mem_takeWhile_imp htake
      have hascii : Utf8.isAscii c := by
        rcases of_decide_eq_true hd with rfl | rfl <;> decide
      have hpos := List.countP_pos_iff.2 ⟨c, hdrop, hascii⟩
      have hcount := congrArg (List.countP Utf8.isAscii) hsplit
      rw [List.countP_append] at hcount
      omega
    rw [cut_of_not_hasDelimiter hnone, unquoteText] at h
    refine ⟨hnone, Percent.unquote_eq_self_iff.1 ?_⟩
    rw [← String.toList_ofList (l := Percent.unquote s.toList), h]
  · rintro ⟨hnone, htriplet⟩
    rw [cut_of_not_hasDelimiter hnone, unquoteText, Percent.unquote_eq_self_iff.2 htriplet,
      String.ofList_toList]

namespace PluginTarget

variable (t : PluginTarget)

theorem toInternalPluginPath_of_not_hasDelimiter (h : ¬ HasDelimiter t.serviceName) :
    toInternalPluginPath t.urlPath t.serviceName = cut t.expectedPath := by
  have hroot : ¬ HasDelimiter (publicPluginPrefix t.serviceName) := by
    rw [publicPluginPrefix, hasDelimiter_append]
    exact not_or.2 ⟨by decide, h⟩
  rw [urlPath, t.unquote_rawPath, cut_append hroot, expectedPath]
  rcases t.rest_slash with hrest | hslash
  · rw [hrest, if_pos rfl]
    have hempty : cut "" = "" := rfl
    have hcut : cut "/" = "/" := rfl
    rw [hempty, String.append_empty, toInternalPluginPath_root, hcut]
  · obtain ⟨rest, hrest⟩ := startsWith_iff.1 hslash
    have hne : t.rest ≠ "" := by
      rw [hrest]
      intro hempty
      simpa using congrArg String.toList hempty
    have hcut : cut t.rest = "/" ++ cut rest := by rw [hrest, cut_append (by decide)]
    rw [if_neg hne, hcut]
    exact toInternalPluginPath_append (startsWith_append "/" _)

theorem toInternalPluginPath_of_hasDelimiter (h : HasDelimiter t.serviceName) :
    toInternalPluginPath t.urlPath t.serviceName = publicPluginPrefix (cut t.serviceName) := by
  have hroot : HasDelimiter (publicPluginPrefix t.serviceName) :=
    hasDelimiter_append.2 (Or.inr h)
  have hpath : t.urlPath = publicPluginPrefix (cut t.serviceName) := by
    rw [urlPath, t.unquote_rawPath, cut_append_of_hasDelimiter hroot, publicPluginPrefix,
      cut_append (by decide), publicPluginPrefix]
  have hslash : startsWith t.urlPath "/" := hpath ▸ startsWith_publicPluginPrefix _
  rw [toInternalPluginPath_of_not_isUnder, normalize_of_startsWith hslash, hpath]
  rw [normalize_of_startsWith hslash]
  intro hunder
  obtain ⟨rest, hrest, -⟩ := isUnder_iff.1 hunder
  refine not_hasDelimiter_cut (unquoteText t.rawPath) ?_
  rw [← urlPath, hrest]
  exact hasDelimiter_append.2 (Or.inl hroot)

/-- The internal path of a request. -/
def internalPath : String :=
  if HasDelimiter t.serviceName then publicPluginPrefix (cut t.serviceName)
  else cut t.expectedPath

theorem toInternalPluginPath_urlPath :
    toInternalPluginPath t.urlPath t.serviceName = t.internalPath := by
  rw [internalPath]
  split_ifs with h
  · exact t.toInternalPluginPath_of_hasDelimiter h
  · exact t.toInternalPluginPath_of_not_hasDelimiter h

theorem startsWith_expectedPath : startsWith t.expectedPath "/" := by
  rw [expectedPath]
  rcases t.rest_slash with hrest | hslash
  · rw [if_pos hrest]
    exact startsWith_append "/" ""
  · split_ifs
    · exact startsWith_append "/" ""
    · exact hslash

theorem startsWith_internalPath : startsWith t.internalPath "/" := by
  rw [internalPath]
  split_ifs
  · exact startsWith_publicPluginPrefix _
  · obtain ⟨rest, hrest⟩ := startsWith_iff.1 t.startsWith_expectedPath
    rw [hrest, cut_append (by decide)]
    exact startsWith_append "/" _

theorem not_hasDelimiter_internalPath : ¬ HasDelimiter t.internalPath := by
  rw [internalPath]
  split_ifs
  · rw [publicPluginPrefix, hasDelimiter_append]
    exact not_or.2 ⟨by decide, not_hasDelimiter_cut _⟩
  · exact not_hasDelimiter_cut _

end PluginTarget

/-! ## The whole target -/

/-- Whatever is sent upstream for the request, the service decodes the expected path from it, and
each query parameter has the values it had. -/
def PreservesTarget {Jar : Type} (httpx : HttpxEncoding) (client : AsyncClient Jar)
    (parseCookies : String → List (String × String)) (t : PluginTarget) : Prop :=
  ∀ services jar running request upstream, request.path = t.urlPath →
    request.queryParams = t.queryParams →
    proxyRequest client parseCookies services jar running t.serviceName request = .ok upstream →
      receivedPath httpx upstream = t.expectedPath ∧
        ∀ name, Headers.getlist (receivedParams httpx upstream) name =
          Headers.getlist t.queryParams name

/-- There is nothing to cut and nothing to decode once more; or the name is cut, and the rest of
the path happens to be what then remains. -/
def PluginTarget.Plain (t : PluginTarget) : Prop :=
  (¬ HasDelimiter t.serviceName ∧ ¬ HasDelimiter t.rest ∧ ¬ Percent.HasTriplet t.rest.toList) ∨
    (HasDelimiter t.serviceName ∧
      t.expectedPath = unquoteText (publicPluginPrefix (cut t.serviceName)))

theorem PluginTarget.plain_iff (t : PluginTarget) :
    unquoteText t.internalPath = t.expectedPath ↔ t.Plain := by
  rw [internalPath, Plain]
  by_cases hname : HasDelimiter t.serviceName
  · rw [if_pos hname]
    exact ⟨fun h => Or.inr ⟨hname, h.symm⟩, fun h => (h.resolve_left fun h' => h'.1 hname).2.symm⟩
  · rw [if_neg hname, unquoteText_cut_eq_self_iff, or_iff_left fun h => hname h.1,
      and_iff_right hname, expectedPath]
    split_ifs with hrest
    · rw [hrest]
      have htriplet : ∀ s : List Char, s.length < 3 → ¬ Percent.HasTriplet s := by
        rintro s hlength ⟨u, a, b, v, rfl, -⟩
        simp at hlength
        omega
      exact iff_of_true ⟨by decide, htriplet _ (by decide)⟩ ⟨by decide, htriplet _ (by decide)⟩
    · rfl

theorem proxyRequest_url_params {Jar : Type} {client : AsyncClient Jar}
    {parseCookies : String → List (String × String)}
    {services : String → Option ManagedServiceRuntime} {jar : Jar} {running : Bool}
    {serviceName : String} {request : ClientRequest} {upstream : UpstreamRequest}
    (h : proxyRequest client parseCookies services jar running serviceName request =
      .ok upstream) :
    (∃ service, upstream.url = upstreamUrl service serviceName request) ∧
      upstream.params = request.queryParams := by
  obtain ⟨service, -, -, rfl⟩ := proxyRequest_eq_ok.1 h
  exact ⟨⟨service, rfl⟩, rfl⟩

/-- A running service is sent the request. -/
theorem exists_proxyRequest_ok {Jar : Type} (client : AsyncClient Jar)
    (parseCookies : String → List (String × String)) (request : ClientRequest)
    (serviceName : String) :
    ∃ upstream, proxyRequest client parseCookies (fun name => some ⟨name, 10000⟩) client.emptyJar
      true serviceName request = .ok upstream :=
  ⟨_, proxyRequest_eq_ok.2 ⟨_, rfl, rfl, rfl⟩⟩

/-- For every request below `/plg/a`: the service gets its path and its query parameters exactly
when the name and the decoded rest of the path have no `?` and no `#` and the rest has no triplet
(or, when the name has a `?` or `#`, by coincidence). -/
theorem preservesTarget_iff {Jar : Type} (httpx : HttpxEncoding) (client : AsyncClient Jar)
    (parseCookies : String → List (String × String)) (t : PluginTarget) :
    PreservesTarget httpx client parseCookies t ↔ t.Plain := by
  have hpath : ∀ service request upstream, request.path = t.urlPath →
      upstream.url = upstreamUrl service t.serviceName request →
      receivedPath httpx upstream = unquoteText t.internalPath := by
    intro service request upstream hrequest hurl
    have hinternal : toInternalPluginPath request.path t.serviceName = t.internalPath := by
      rw [hrequest, t.toInternalPluginPath_urlPath]
    rw [receivedPath_upstreamUrl httpx hurl (hinternal ▸ t.startsWith_internalPath), hinternal,
      cut_of_not_hasDelimiter t.not_hasDelimiter_internalPath]
  rw [← t.plain_iff]
  constructor
  · intro h
    obtain ⟨upstream, hok⟩ := exists_proxyRequest_ok client parseCookies
      ⟨"GET", t.urlPath, [], t.queryParams, []⟩ t.serviceName
    obtain ⟨⟨service, hurl⟩, -⟩ := proxyRequest_url_params hok
    have hsent := h (fun name => some ⟨name, 10000⟩) client.emptyJar true
      ⟨"GET", t.urlPath, [], t.queryParams, []⟩ upstream rfl rfl hok
    rw [← hpath service ⟨"GET", t.urlPath, [], t.queryParams, []⟩ upstream rfl hurl]
    exact hsent.1
  · intro h services jar running request upstream hrequest hparams hok
    obtain ⟨⟨service, hurl⟩, hsame⟩ := proxyRequest_url_params hok
    refine ⟨(hpath service request upstream hrequest hurl).trans h, fun name => ?_⟩
    rw [receivedParams_eq, getlist_groupParams, hsame, hparams]

/-! ## An encoded question mark -/

/-- The letters and digits, and the marks that stand for themselves. -/
def unreserved : HttpxEncoding where
  pathSafe c := c.isAlphanum ∨ c ∈ ['/', '-', '.', '_', '~']
  formSafe c := c.isAlphanum ∨ c ∈ ['-', '.', '_', '~']
  plus := true
  formSafe_separators := by simp [Percent.FormSafe]

/-- `GET /plg/shop/a%3Fb?page=2`. -/
def questionMark : PluginTarget where
  rawPath := "/plg/shop/a%3Fb"
  rawQuery := "page=2"
  serviceName := "shop"
  rest := "/a?b"
  slash_free := by decide
  unquote_rawPath := by decide +kernel
  rest_slash := by decide

/-- The service is asked for `/a`. -/
theorem not_preservesTarget_questionMark :
    ¬ PreservesTarget unreserved simpleClient (fun _ => []) questionMark := by
  intro h
  obtain ⟨upstream, hok⟩ := exists_proxyRequest_ok simpleClient (fun _ => [])
    ⟨"GET", questionMark.urlPath, [], questionMark.queryParams, []⟩ "shop"
  obtain ⟨⟨service, hurl⟩, -⟩ := proxyRequest_url_params hok
  have hinternal : toInternalPluginPath questionMark.urlPath "shop" = "/a" := by decide +kernel
  have hreceived : receivedPath unreserved upstream = "/a" := by
    rw [receivedPath_upstreamUrl unreserved hurl (hinternal ▸ by decide), hinternal]
    decide +kernel
  have hsent := (h (fun name => some ⟨name, 10000⟩) [] true
    ⟨"GET", questionMark.urlPath, [], questionMark.queryParams, []⟩ upstream rfl rfl hok).1
  rw [hreceived] at hsent
  revert hsent
  decide +kernel

end Gateway

end AranesLms
