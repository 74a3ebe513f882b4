import AranesLms.Gateway.ProxyIsolation
import AranesLms.Lib.OrderedDict

/-!
# Headers through the proxies

A proxy should pass on the end-to-end headers of a request and of its response, each as often as it
was there.  The gateway's `proxy_request` and the core's `proxy_plugin_to_gateway`, of `src/app.py`,
put the headers into dictionaries, which have one value for each name: the first, the last or all of
them joined.  Neither filters the headers of the request, so that exactly the requests and responses
of `Forwardable` pass unchanged.
-/

namespace AranesLms

namespace Headers

/-- The names in lower case, as a server and the client library give them. -/
def lower (hs : Headers) : Headers := hs.map fun h => (h.1.toLower, h.2)

def endToEnd (hs : Headers) : Headers := hs.filter fun h => h.1 ∉ hopByHopHeaders

variable {hs given : Headers}

/-! ## Dictionaries of headers -/

theorem dict_nodup : (hs.dict.map Prod.fst).Nodup := by
  induction hs with
  | nil => exact List.nodup_nil
  | cons h hs ih =>
    rw [dict, List.map_cons, List.nodup_cons]
    constructor
    · intro hmem
      obtain ⟨h', hmem, heq⟩ := List.mem_map.1 hmem
      simpa [heq] using (List.mem_filter.1 hmem).2
    · exact ih.sublist (List.filter_sublist.map Prod.fst)

theorem dict_of_nodup (h : (hs.map Prod.fst).Nodup) : hs.dict = hs := by
  induction hs with
  | nil => rfl
  | cons h' hs ih =>
    rw [List.map_cons, List.nodup_cons] at h
    rw [dict, ih h.2, List.filter_eq_self.2]
    intro h'' hmem
    have hne : h''.1 ≠ h'.1 := fun heq => h.1 (heq ▸ List.mem_map_of_mem hmem)
    simpa using hne

/-- A filter on the names can be applied before or after. -/
theorem dict_filter (p : String → Bool) :
    dict (hs.filter fun h => p h.1) = hs.dict.filter fun h => p h.1 := by
  induction hs with
  | nil => rfl
  | cons h hs ih =>
    rw [dict, List.filter_cons, List.filter_cons]
    cases hp : p h.1 with
    | true => rw [if_pos rfl, if_pos rfl, dict, ih, List.filter_comm]
    | false =>
      rw [if_neg Bool.false_ne_true, if_neg Bool.false_ne_true, ih, List.filter_filter]
      refine List.filter_congr fun h' _ => ?_
      by_cases heq : h'.1 = h.1
      · simp [heq, hp]
      · simp [heq]

theorem dict_pop (name : String) : (hs.pop name).dict = hs.dict.pop name :=
  dict_filter fun other => other ≠ name

theorem getlist_of_nodup (h : (hs.map Prod.fst).Nodup) {h' : String × String} (hmem : h' ∈ hs) :
    hs.getlist h'.1 = [h'.2] := by
  have hsame : hs.filter (fun h => h.1 = h'.1) = hs.filter (· = h') := by
    refine List.filter_congr fun h'' hmem' => decide_eq_decide.2 ?_
    exact ⟨fun heq => List.inj_on_of_nodup_map h hmem' hmem heq, fun heq => heq ▸ rfl⟩
  rw [getlist, hsame, List.filter_eq, List.count_eq_one_of_mem (List.Nodup.of_map _ h) hmem]
  rfl

/-- Joining does nothing to a name that is there once. -/
theorem items_of_nodup (h : (hs.map Prod.fst).Nodup) : hs.items = hs := by
  rw [items, dict_of_nodup h]
  calc hs.map (fun h => (h.1, ", ".intercalate (hs.getlist h.1)))
      = hs.map id := List.map_congr_left fun h' hmem => by
        rw [getlist_of_nodup h hmem, String.intercalate_singleton]
        rfl
    _ = hs := List.map_id hs

theorem map_fst_items : hs.items.map Prod.fst = hs.dict.map Prod.fst := by
  rw [items, List.map_map]
  rfl

/-- So can one on a response. -/
theorem items_endToEnd : hs.endToEnd.items = hs.items.filter fun h => h.1 ∉ hopByHopHeaders := by
  have hdict : hs.endToEnd.dict = hs.dict.filter fun h => h.1 ∉ hopByHopHeaders :=
    dict_filter fun name => name ∉ hopByHopHeaders
  rw [items, items, hdict, List.filter_map]
  refine List.map_congr_left fun h hmem => ?_
  have hname : h.1 ∉ hopByHopHeaders := by simpa using (List.mem_filter.1 hmem).2
  have hgetlist : hs.endToEnd.getlist h.1 = hs.getlist h.1 := by
    rw [getlist, getlist, endToEnd, List.filter_filter]
    refine congrArg (List.map Prod.snd) (List.filter_congr fun h' _ => ?_)
    by_cases heq : h'.1 = h.1
    · simp [heq, hname]
    · simp [heq]
  rw [hgetlist]

/-! ## Collapsed headers -/

/-- Headers that are the given ones with one value for each name are the end-to-end ones only if
nothing had to be filtered or collapsed. -/
theorem perm_endToEnd_iff (hnodup : (given.map Prod.fst).Nodup)
    (hnames : ∀ name, name ∈ given.map Prod.fst ↔ name ∈ hs.map Prod.fst)
    (hsame : (hs.map Prod.fst).Nodup → given = hs) :
    given.Perm hs.endToEnd ↔ (∀ h ∈ hs, h.1 ∉ hopByHopHeaders) ∧ (hs.map Prod.fst).Nodup := by
  have hself : (∀ h ∈ hs, h.1 ∉ hopByHopHeaders) → hs.endToEnd = hs :=
    fun h => List.filter_eq_self.2 fun h' hmem => by simpa using h h' hmem
  constructor
  · intro hperm
    have hend : ∀ h ∈ hs, h.1 ∉ hopByHopHeaders := by
      intro h hmem
      obtain ⟨h', hmem', heq⟩ := List.mem_map.1 ((hnames h.1).2 (List.mem_map_of_mem hmem))
      have := (List.mem_filter.1 (hperm.mem_iff.1 hmem')).2
      simpa [heq] using this
    rw [hself hend] at hperm
    exact ⟨hend, (hperm.map Prod.fst).nodup_iff.1 hnodup⟩
  · rintro ⟨hend, hnodup⟩
    rw [hself hend, hsame hnodup]

theorem mem_map_fst {name : String} : name ∈ hs.map Prod.fst ↔ hs.Has name := by
  simp only [List.mem_map, Has]

/-- Joined headers are the headers only if nothing had to be joined. -/
theorem items_perm_iff : hs.items.Perm hs ↔ (hs.map Prod.fst).Nodup := by
  constructor
  · intro hperm
    rw [← (hperm.map Prod.fst).nodup_iff, map_fst_items]
    exact dict_nodup
  · intro h
    rw [items_of_nodup h]

end Headers

namespace Gateway

variable {Jar : Type} (client : AsyncClient Jar) (parseCookies : String → List (String × String))

/-! ## The two proxies -/

/-- The headers that `proxy_request` gives to `build_request`. -/
def gatewayHeaders (headers : Headers) : Headers := headers.dict.pop "host"

/-- The headers that `proxy_plugin_to_gateway` gives to `build_request`. -/
def coreHeaders (headers : Headers) : Headers :=
  ((∅ : OrderedDict String String).setAll (headers.filter fun h => h.1 ≠ "host")).entries

/-- The first part of `proxy_plugin_to_gateway`: the request to the gateway. -/
def proxyPluginToGateway (jar : Jar) (gatewayBase : String) (request : ClientRequest) :
    UpstreamRequest :=
  buildRequest client jar request.method (gatewayBase ++ request.path) (coreHeaders request.headers)
    request.queryParams request.body (request.cookies parseCookies)

/-- The second part of `proxy_plugin_to_gateway`: what the client of the core gets. -/
def proxyPluginResponse (response : UpstreamResponse) : ℕ × Headers :=
  (response.statusCode, response.headers.items.filter fun h => h.1 ∉ hopByHopHeaders)

/-- The headers of an upstream request without those that the client library has added to the ones
it was given. -/
def UpstreamRequest.givenHeaders (upstream : UpstreamRequest) (given : Headers) : Headers :=
  upstream.headers.filter fun h => given.Has h.1

/-- The library changes nothing of what it was given. -/
theorem givenHeaders_buildRequest (jar : Jar) (method url : String) (headers : Headers)
    (params : List (String × String)) (content : List UInt8) (cookies : List (String × String)) :
    (buildRequest client jar method url headers params content cookies).givenHeaders headers =
      headers := by
  have hdefaults : (client.headers.filter fun h => ¬ headers.Has h.1).filter
      (fun h => headers.Has h.1) = [] := by
    rw [List.filter_filter, List.filter_eq_nil_iff]
    simp
  have hown : headers.filter (fun h => headers.Has h.1) = headers :=
    List.filter_eq_self.2 fun h hmem => decide_eq_true ⟨h, hmem, rfl⟩
  have hmerged : (mergeHeaders client headers).filter (fun h => headers.Has h.1) = headers := by
    rw [mergeHeaders, List.filter_append, hdefaults, hown, List.nil_append]
  rw [UpstreamRequest.givenHeaders, buildRequest]
  dsimp only
  by_cases hcookie : (mergeHeaders client headers).Has "cookie"
  · rw [if_pos hcookie, hmerged]
  · rw [if_neg hcookie]
    cases client.cookieHeader jar cookies url with
    | none => exact hmerged
    | some value =>
      have hnone : ¬ headers.Has "cookie" := by
        rintro ⟨h, hmem, hname⟩
        exact hcookie ⟨h, List.mem_append_right _ hmem, hname⟩
      dsimp only
      rw [List.filter_append, hmerged, List.filter_cons_of_neg (by simpa using hnone),
        List.filter_nil, List.append_nil]

/-! ## Both directions -/

/-- For a request and a response with these headers, in any letter case, both proxies pass on the
end-to-end headers. -/
structure PassesEndToEnd (received answered : Headers) : Prop where
  gatewayRequest : ∀ services jar running serviceName request upstream,
    request.headers = received.lower →
    proxyRequest client parseCookies services jar running serviceName request = .ok upstream →
      (upstream.givenHeaders (gatewayHeaders request.headers)).Perm
        (received.lower.endToEnd.pop "host")
  coreRequest : ∀ jar gatewayBase request, request.headers = received.lower →
    ((proxyPluginToGateway client parseCookies jar gatewayBase request).givenHeaders
      (coreHeaders request.headers)).Perm (received.lower.endToEnd.pop "host")
  gatewayResponse : ∀ statusCode,
    (proxyResponse ⟨statusCode, answered.lower⟩).2.Perm answered.lower.endToEnd
  coreResponse : ∀ statusCode,
    (proxyPluginResponse ⟨statusCode, answered.lower⟩).2.Perm answered.lower.endToEnd

/-- There is nothing to filter or to collapse. -/
structure Forwardable (received answered : Headers) : Prop where
  no_hopByHop : ∀ h ∈ received.lower, h.1 ∉ hopByHopHeaders
  received_nodup : ((received.lower.pop "host").map Prod.fst).Nodup
  answered_nodup : (answered.lower.endToEnd.map Prod.fst).Nodup

variable {client parseCookies}

theorem proxyRequest_givenHeaders {services : String → Option ManagedServiceRuntime} {jar : Jar}
    {running : Bool} {serviceName : String} {request : ClientRequest} {upstream : UpstreamRequest}
    (h : proxyRequest client parseCookies services jar running serviceName request =
      .ok upstream) :
    upstream.givenHeaders (gatewayHeaders request.headers) = gatewayHeaders request.headers := by
  obtain ⟨service, -, -, rfl⟩ := proxyRequest_eq_ok.1 h
  exact givenHeaders_buildRequest ..

/-- For either dictionary, the headers of a request pass exactly when there is nothing to filter or
to collapse. -/
theorem request_perm_iff {hs given : Headers} (hnodup : (given.map Prod.fst).Nodup)
    (hnames : ∀ name, name ∈ given.map Prod.fst ↔ name ∈ (hs.pop "host").map Prod.fst)
    (hsame : ((hs.pop "host").map Prod.fst).Nodup → given = hs.pop "host") :
    given.Perm (hs.endToEnd.pop "host") ↔
      (∀ h ∈ hs, h.1 ∉ hopByHopHeaders) ∧ ((hs.pop "host").map Prod.fst).Nodup := by
  have hpop : hs.endToEnd.pop "host" = (hs.pop "host").endToEnd := List.filter_comm ..
  rw [hpop, Headers.perm_endToEnd_iff hnodup hnames hsame]
  refine and_congr_left fun _ => ⟨fun h header hmem => ?_, fun h header hmem => ?_⟩
  · by_cases hhost : header.1 = "host"
    · rw [hhost]
      decide
    · exact h header (List.mem_filter.2 ⟨hmem, by simpa using hhost⟩)
  · exact h header (List.mem_filter.1 hmem).1

theorem gatewayHeaders_perm_iff {hs : Headers} :
    (gatewayHeaders hs).Perm (hs.endToEnd.pop "host") ↔
      (∀ h ∈ hs, h.1 ∉ hopByHopHeaders) ∧ ((hs.pop "host").map Prod.fst).Nodup := by
  rw [gatewayHeaders, ← Headers.dict_pop]
  refine request_perm_iff Headers.dict_nodup (fun name => ?_) Headers.dict_of_nodup
  rw [Headers.mem_map_fst, Headers.mem_map_fst, Headers.has_dict]

theorem coreHeaders_perm_iff {hs : Headers} :
    (coreHeaders hs).Perm (hs.endToEnd.pop "host") ↔
      (∀ h ∈ hs, h.1 ∉ hopByHopHeaders) ∧ ((hs.pop "host").map Prod.fst).Nodup := by
  refine request_perm_iff (OrderedDict.nodup _) (fun name => ?_) (fun h => ?_)
  · exact (OrderedDict.mem_keys_setAll _).trans (or_iff_right List.not_mem_nil)
  · exact OrderedDict.entries_setAll ∅ h fun _ _ hmem => absurd hmem List.not_mem_nil

theorem proxyResponse_perm_iff {statusCode : ℕ} {hs : Headers} :
    (proxyResponse ⟨statusCode, hs⟩).2.Perm hs.endToEnd ↔ (hs.endToEnd.map Prod.fst).Nodup := by
  rw [proxyResponse, ← Headers.items_endToEnd]
  exact Headers.items_perm_iff

variable (client parseCookies)

/-- Both proxies pass on the end-to-end headers of a request and of its response exactly when no
header of the request is hop-by-hop, and neither the request nor, hop-by-hop headers apart, the
response repeats a name. -/
theorem passesEndToEnd_iff (received answered : Headers) :
    PassesEndToEnd client parseCookies received answered ↔ Forwardable received answered := by
  constructor
  · intro h
    have hrequest := h.coreRequest client.emptyJar "" ⟨"GET", "/", received.lower, [], []⟩ rfl
    rw [proxyPluginToGateway, givenHeaders_buildRequest, coreHeaders_perm_iff] at hrequest
    exact ⟨hrequest.1, hrequest.2, proxyResponse_perm_iff.1 (h.gatewayResponse 200)⟩
  · intro h
    have hreceived := And.intro h.no_hopByHop h.received_nodup
    constructor
    · intro services jar running serviceName request upstream heq hok
      rw [proxyRequest_givenHeaders hok, heq]
      exact gatewayHeaders_perm_iff.2 hreceived
    · intro jar gatewayBase request heq
      rw [proxyPluginToGateway, givenHeaders_buildRequest, heq]
      exact coreHeaders_perm_iff.2 hreceived
    · exact fun _ => proxyResponse_perm_iff.2 h.answered_nodup
    · exact fun _ => proxyResponse_perm_iff.2 h.answered_nodup

/-- A response that sets two cookies: its client gets one line for both. -/
theorem not_passesEndToEnd_cookies :
    ¬ PassesEndToEnd simpleClient (fun _ => []) [("Host", "lms"), ("Accept", "text/html")]
      [("Set-Cookie", "session=1; Path=/"), ("Set-Cookie", "theme=dark; Path=/")] := by
  intro h
  have hperm := (h.gatewayResponse 200).length_eq
  revert hperm
  decide +kernel

end Gateway

end AranesLms
