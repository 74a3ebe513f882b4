import AranesLms.Http
import AranesLms.Lib.OrderedDict
import AranesLms.Lib.Url

/-!
# The in-process HTTP client

`src/utils/inprocess_http.py`.  `AppHttpRouteResolver` sends a request for a route of the API into
the application and any other one to the network; it remembers which paths are routes, and what it
remembers agrees with the route table (`AppHttpRouteResolver.sound`).  `InternalAwareHttpClient`
adds the `Authorization` of the incoming request before the resolver decides where the request
goes, so that `credentialsStay_iff` puts a condition on the requests that go out.  `lower` and
`upper` are `str.lower` and `str.upper`, and `netlocOk` is the check that `urlsplit` makes.
-/

namespace AranesLms

namespace InprocessHttp

/-! ## Routes -/

/-- A route of the application: whether it is an `APIRoute`, and what its `path_regex` matches. -/
structure Route where
  isApiRoute : Bool
  path : String
  methods : List String
  pathRegex : String → Bool

/-- `str.startswith("/api")`. -/
def isApiPath (path : String) : Bool := "/api".toList.isPrefixOf path.toList

/-- The routes without and with parameters. -/
structure ApiRoutes where
  staticApiRoutes : List (String × String)
  dynamicApiRoutes : List (List String × (String → Bool))

/-- The loop of `AppHttpRouteResolver.__init__`. -/
def ApiRoutes.ofApp (upper : String → String) (routes : List Route) : ApiRoutes :=
  let apiRoutes := routes.filter fun route => route.isApiRoute ∧ isApiPath route.path
  { staticApiRoutes := (apiRoutes.filter fun route => '{' ∉ route.path.toList).flatMap fun route =>
      route.methods.map fun method => (upper method, route.path)
    dynamicApiRoutes := (apiRoutes.filter fun route => '{' ∈ route.path.toList).map fun route =>
      (route.methods.map upper, route.pathRegex) }

/-- Whether the path is one of the API for the method, which is in upper case. -/
def ApiRoutes.matchesKey (routes : ApiRoutes) (key : String × String) : Bool :=
  if ¬ isApiPath key.2 then false
  else if key ∈ routes.staticApiRoutes then true
  else routes.dynamicApiRoutes.any fun route => key.1 ∈ route.1 ∧ route.2 key.2

/-- The resolver, whose memo holds only what the route table gives. -/
structure AppHttpRouteResolver where
  routes : ApiRoutes
  routeCacheMaxsize : ℕ
  routeMatchLru : OrderedDict (String × String) Bool
  sound : ∀ e ∈ routeMatchLru, e.2 = routes.matchesKey e.1

namespace AppHttpRouteResolver

def ofApp (upper : String → String) (routes : List Route) (routeCacheMaxsize : ℤ) :
    AppHttpRouteResolver where
  routes := ApiRoutes.ofApp upper routes
  routeCacheMaxsize := (max 1 routeCacheMaxsize).toNat
  routeMatchLru := ∅
  sound _ h := absurd h (OrderedDict.notMem_empty _)

variable (resolver : AppHttpRouteResolver)

/-- A hit, which becomes the newest entry. -/
def touch (key : String × String) : AppHttpRouteResolver where
  routes := resolver.routes
  routeCacheMaxsize := resolver.routeCacheMaxsize
  routeMatchLru := resolver.routeMatchLru.moveToEnd key
  sound e he := resolver.sound e ((OrderedDict.mem_moveToEnd _).1 he)

/-- A miss, whose result is stored. -/
def remember (key : String × String) : AppHttpRouteResolver where
  routes := resolver.routes
  routeCacheMaxsize := resolver.routeCacheMaxsize
  routeMatchLru := (resolver.routeMatchLru.setLast key (resolver.routes.matchesKey key)).dropOldest
    resolver.routeCacheMaxsize
  sound e he := by
    have he := OrderedDict.mem_of_mem_dropOldest _ he
    rcases (OrderedDict.mem_setLast _).1 he with ⟨he, -⟩ | rfl
    · exact resolver.sound e he
    · rfl

/-- `_is_local_api_path`. -/
def isLocalApiPath (upper : String → String) (method path : String) :
    Bool × AppHttpRouteResolver :=
  let key := (upper method, path)
  match resolver.routeMatchLru.get? key with
  | some result => (result, resolver.touch key)
  | none => (resolver.routes.matchesKey key, resolver.remember key)

theorem isLocalApiPath_fst (upper : String → String) (method path : String) :
    (resolver.isLocalApiPath upper method path).1 =
      resolver.routes.matchesKey (upper method, path) := by
  rw [isLocalApiPath]
  cases hget : resolver.routeMatchLru.get? (upper method, path) with
  | none => rfl
  | some result => exact resolver.sound _ ((OrderedDict.get?_eq_some _).1 hget)

end AppHttpRouteResolver

/-! ## Requests -/

def internalHostAllowlist : List String := ["inprocess.local"]

/-- Where a request goes, with the headers that it is given, if any. -/
inductive Dispatch where
  | inProcess (method url : String) (headers : Option Headers)
  | external (method url : String) (headers : Option Headers)
  deriving DecidableEq

/-- A `ValueError`, of `urlsplit` or of the resolver. -/
inductive RequestError where
  | urlsplit
  | relativeUrl (message : String)
  deriving DecidableEq

/-- `httpx.Headers(headers)`, whose names are in lower case. -/
def httpxHeaders (headers : Option (List (String × String))) : Headers :=
  (headers.getD []).map fun h => (h.1.toLower, h.2)

/-- `request.headers.get(name)`. -/
def getHeader (headers : Headers) (name : String) : Option String :=
  (headers.find? fun h => h.1 = name).map Prod.snd

/-- `_build_headers`. -/
def buildHeaders (incoming : Headers) (headers : Option (List (String × String)))
    (forwardAuth : Bool) : Headers :=
  let headerValues := httpxHeaders headers
  if forwardAuth ∧ ¬ headerValues.Has "authorization" then
    match getHeader incoming "authorization" with
    | some authHeader =>
      if authHeader ≠ "" then headerValues ++ [("authorization", authHeader)] else headerValues
    | none => headerValues
  else headerValues

section

variable (lower upper : String → String) (netlocOk : String → Bool)

/-- The path of a URL, `/` if it is empty. -/
def requestPath (parts : SplitResult) : String := if parts.path = "" then "/" else parts.path

def isInternalHost (parts : SplitResult) : Bool :=
  lower (Url.hostname lower parts) ∈ internalHostAllowlist

namespace AppHttpRouteResolver

variable (resolver : AppHttpRouteResolver)

def isLocalRequest (method : String) (parts : SplitResult) : Bool × AppHttpRouteResolver :=
  if (parts.scheme = "" ∧ parts.netloc = "") ∨ isInternalHost lower parts then
    resolver.isLocalApiPath upper method (requestPath parts)
  else (false, resolver)

def request (method url : String) (headers : Option Headers) :
    Except RequestError Dispatch × AppHttpRouteResolver :=
  match Url.urlsplit netlocOk url with
  | none => (.error .urlsplit, resolver)
  | some parts =>
    let (isLocal, resolver) := resolver.isLocalRequest lower upper method parts
    if isLocal then
      let localUrl := requestPath parts
      (.ok (.inProcess method
        (if parts.query = "" then localUrl else localUrl ++ "?" ++ parts.query) headers), resolver)
    else if parts.scheme = "" ∨ parts.netloc = "" then
      (.error (.relativeUrl ("External requests must use an absolute URL. " ++
        "Received relative non-local URL: " ++ url)), resolver)
    else (.ok (.external method url headers), resolver)

end AppHttpRouteResolver

/-- `InternalAwareHttpClient.request`, for a client of the request with the headers `incoming`. -/
def request (resolver : AppHttpRouteResolver) (incoming : Headers) (method url : String)
    (headers : Option (List (String × String))) (forwardAuth : Bool) :
    Except RequestError Dispatch × AppHttpRouteResolver :=
  let mergedHeaders := buildHeaders incoming headers forwardAuth
  resolver.request lower upper netlocOk method url
    (if mergedHeaders ≠ [] ∨ headers.isSome then some mergedHeaders else none)

/-! ## Where credentials go -/

/-- The URL names a host of the allowlist. -/
def NamesInternalHost (url : String) : Prop :=
  ∃ parts, Url.urlsplit netlocOk url = some parts ∧ isInternalHost lower parts

/-- The URL is absolute, and it does not name an internal host with a path of the API. -/
def GoesOut (routes : ApiRoutes) (method url : String) : Prop :=
  ∃ parts, Url.urlsplit netlocOk url = some parts ∧ parts.scheme ≠ "" ∧ parts.netloc ≠ "" ∧
    ¬ (isInternalHost lower parts ∧ routes.matchesKey (upper method, requestPath parts))

/-- A request that is sent to the network has no `Authorization` but the ones that the caller has
passed, and does not go to an internal host. -/
structure CredentialsStay (headers : Option (List (String × String))) (url : String)
    (dispatch : Except RequestError Dispatch) : Prop where
  authorization : ∀ method' url' sent, dispatch = .ok (.external method' url' sent) →
    ∀ value, ("authorization", value) ∈ sent.getD [] →
      ("authorization", value) ∈ httpxHeaders headers
  internalHost : NamesInternalHost lower netlocOk url →
    ∀ method' url' sent, dispatch ≠ .ok (.external method' url' sent)

/-! ## One request -/

theorem isLocalRequest_fst (resolver : AppHttpRouteResolver) (method : String)
    (parts : SplitResult) : (resolver.isLocalRequest lower upper method parts).1 =
      (((parts.scheme = "" ∧ parts.netloc = "") ∨ isInternalHost lower parts) &&
        resolver.routes.matchesKey (upper method, requestPath parts)) := by
  rw [AppHttpRouteResolver.isLocalRequest]
  split_ifs with h
  · rw [resolver.isLocalApiPath_fst, decide_eq_true h, Bool.true_and]
  · rw [decide_eq_false h, Bool.false_and]

/-- Exactly the requests that go out are dispatched to the external client. -/
theorem request_eq_external (resolver : AppHttpRouteResolver) {method url method' url' : String}
    {headers sent : Option Headers} :
    (resolver.request lower upper netlocOk method url headers).1 =
        .ok (.external method' url' sent) ↔
      GoesOut lower upper netlocOk resolver.routes method url ∧
        method = method' ∧ url = url' ∧ headers = sent := by
  rw [AppHttpRouteResolver.request, GoesOut]
  cases hsplit : Url.urlsplit netlocOk url with
  | none => simp
  | some parts =>
    have hlocal := isLocalRequest_fst lower upper resolver method parts
    dsimp only
    by_cases habsolute : parts.scheme = "" ∨ parts.netloc = ""
    · have hno : ¬ ∃ parts', some parts = some parts' ∧ parts'.scheme ≠ "" ∧ parts'.netloc ≠ "" ∧
          ¬ (isInternalHost lower parts' ∧
            resolver.routes.matchesKey (upper method, requestPath parts')) := by
        rintro ⟨parts', heq, hscheme, hnetloc, -⟩
        obtain rfl := Option.some.inj heq
        exact habsolute.elim hscheme hnetloc
      refine iff_of_false (fun h => ?_) fun h => hno h.1
      split_ifs at h
      · cases h
      · cases h
    · obtain ⟨hscheme, hnetloc⟩ := not_or.1 habsolute
      have hdecide : ((parts.scheme = "" ∧ parts.netloc = "") ∨ isInternalHost lower parts) ↔
          isInternalHost lower parts := or_iff_right fun h => hscheme h.1
      rw [if_neg habsolute, hlocal]
      by_cases hinternal : isInternalHost lower parts ∧
          resolver.routes.matchesKey (upper method, requestPath parts)
      · rw [if_pos (by simpa [hdecide] using hinternal)]
        refine iff_of_false nofun ?_
        rintro ⟨⟨parts', heq, -, -, hnot⟩, -⟩
        obtain rfl := Option.some.inj heq
        exact hnot hinternal
      · rw [if_neg (by simpa [hdecide] using hinternal)]
        constructor
        · intro h
          obtain ⟨rfl, rfl, rfl⟩ := Dispatch.external.inj (Except.ok.inj h)
          exact ⟨⟨parts, rfl, hscheme, hnetloc, hinternal⟩, rfl, rfl, rfl⟩
        · rintro ⟨-, rfl, rfl, rfl⟩
          rfl

/-- The headers that are sent are those of the caller, but for an `Authorization` of the incoming
request. -/
theorem authorization_buildHeaders (incoming : Headers)
    (headers : Option (List (String × String))) :
    (∀ value, ("authorization", value) ∈ buildHeaders incoming headers true →
        ("authorization", value) ∈ httpxHeaders headers) ↔
      ((httpxHeaders headers).Has "authorization" ∨
        ∀ authHeader, getHeader incoming "authorization" = some authHeader → authHeader = "") := by
  rw [buildHeaders]
  by_cases hhas : (httpxHeaders headers).Has "authorization"
  · rw [if_neg (by simp [hhas])]
    exact iff_of_true (fun _ hmem => hmem) (Or.inl hhas)
  · rw [if_pos ⟨rfl, hhas⟩, or_iff_right hhas]
    cases hget : getHeader incoming "authorization" with
    | none => exact iff_of_true (fun _ hmem => hmem) nofun
    | some authHeader =>
      by_cases hempty : authHeader = ""
      · simp [hempty]
      · simp only [ne_eq, hempty, not_false_eq_true, if_true, Option.some.injEq, forall_eq',
          iff_false, not_forall]
        exact ⟨authHeader, List.mem_append_right _ (List.mem_singleton_self _),
          fun hmem => hhas ⟨_, hmem, rfl⟩⟩

/-- No header is sent when there are none. -/
theorem mem_sentHeaders (merged : Headers) (given : Bool) (h : String × String) :
    h ∈ (if merged ≠ [] ∨ given then some merged else none).getD [] ↔ h ∈ merged := by
  split_ifs with hsent
  · rfl
  · rw [not_or, not_not] at hsent
    rw [hsent.1, Option.getD_none]

/-- What is sent to the network, and the condition under which it is harmless. -/
theorem credentialsStay_iff (resolver : AppHttpRouteResolver) (incoming : Headers)
    (method url : String) (headers : Option (List (String × String))) :
    CredentialsStay lower netlocOk headers url
        (request lower upper netlocOk resolver incoming method url headers true).1 ↔
      (GoesOut lower upper netlocOk resolver.routes method url →
        ¬ NamesInternalHost lower netlocOk url ∧
          ((httpxHeaders headers).Has "authorization" ∨
            ∀ authHeader, getHeader incoming "authorization" = some authHeader →
              authHeader = "")) := by
  rw [← authorization_buildHeaders, request]
  constructor
  · intro h hout
    have hexternal := fun sent => (request_eq_external lower upper netlocOk resolver).2
      (⟨hout, rfl, rfl, rfl⟩ : _ ∧ method = method ∧ url = url ∧ sent = sent)
    refine ⟨fun hinternal => h.internalHost hinternal _ _ _ (hexternal _), fun value hmem => ?_⟩
    exact h.authorization _ _ _ (hexternal _) value ((mem_sentHeaders _ _ _).2 hmem)
  · intro h
    refine ⟨fun method' url' sent hexternal value hmem => ?_,
      fun hinternal method' url' sent hexternal => ?_⟩
    · obtain ⟨hout, -, -, rfl⟩ := (request_eq_external lower upper netlocOk resolver).1 hexternal
      exact (h hout).2 value ((mem_sentHeaders _ _ _).1 hmem)
    · obtain ⟨hout, -⟩ := (request_eq_external lower upper netlocOk resolver).1 hexternal
      exact (h hout).1 hinternal

end

/-- A resolver for an application without routes. -/
def noRoutes : AppHttpRouteResolver := .ofApp String.toUpper [] 4096

/-- The token of the incoming request is sent to another host, and a request for an internal host is
sent to the network. -/
theorem not_credentialsStay_example :
    ¬ CredentialsStay String.toLower (fun _ => true) none "https://example.com/health"
        (request String.toLower String.toUpper (fun _ => true) noRoutes
          [("authorization", "Bearer inherited-token")] "GET" "https://example.com/health" none
          true).1 ∧
      ¬ CredentialsStay String.toLower (fun _ => true) none "http://inprocess.local/health"
        (request String.toLower String.toUpper (fun _ => true) noRoutes [] "GET"
          "http://inprocess.local/health" none true).1 := by
  constructor
  · intro h
    have hmem := h.authorization "GET" "https://example.com/health"
      (some [("authorization", "Bearer inherited-token")]) (by decide +kernel)
      "Bearer inherited-token" List.mem_cons_self
    exact List.not_mem_nil hmem
  · intro h
    exact h.internalHost
      ⟨⟨"http", "inprocess.local", "/health", "", ""⟩, by decide +kernel, by decide +kernel⟩
      "GET" "http://inprocess.local/health" none (by decide +kernel)

end InprocessHttp

end AranesLms
