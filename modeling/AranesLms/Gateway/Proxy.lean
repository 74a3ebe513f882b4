import AranesLms.Http

/-!
# The gateway's proxy

`proxy_request` of `gateway_server/gateway.py`.  All upstream requests go through one client, the
`httpx.AsyncClient` that `lifespan` creates.  `AsyncClient` states what is used of it: it keeps
the cookies of every response in a jar, and `build_request` gives a request that has no `Cookie`
header the cookies of the jar that match its URL.
-/

namespace AranesLms

namespace Gateway

/-- An `httpx.AsyncClient`: the headers it gives to every request, the jar, and how cookies enter
and leave it. -/
structure AsyncClient (Jar : Type) where
  headers : Headers
  emptyJar : Jar
  /-- The jar after a response to a request for `url` with the values of its `Set-Cookie`. -/
  extractCookies : Jar → (url : String) → (setCookies : List String) → Jar
  /-- The `Cookie` header for `url` from the jar and the cookies of the call, if any match. -/
  cookieHeader : Jar → (cookies : List (String × String)) → (url : String) → Option String
  headers_cookie : ¬ headers.Has "cookie"
  cookieHeader_empty : ∀ url, cookieHeader emptyJar [] url = none

/-- A request that is sent upstream. -/
structure UpstreamRequest where
  method : String
  url : String
  headers : Headers
  params : List (String × String)
  content : List UInt8
  deriving DecidableEq

/-- An `httpx.Response`. -/
structure UpstreamResponse where
  statusCode : ℕ
  headers : Headers

/-- A request of a client of the gateway. -/
structure ClientRequest where
  method : String
  path : String
  headers : Headers
  queryParams : List (String × String)
  body : List UInt8
  deriving DecidableEq

/-- What the proxy uses of a `ManagedServiceRuntime`. -/
structure ManagedServiceRuntime where
  name : String
  port : ℕ

def ManagedServiceRuntime.baseUrl (service : ManagedServiceRuntime) : String :=
  "http://127.0.0.1:" ++ toString service.port

/-! ## Paths -/

def publicPluginPrefix (serviceName : String) : String := "/plg/" ++ serviceName

/-- `str.startswith`. -/
def startsWith (s t : String) : Bool := t.toList.isPrefixOf s.toList

def toInternalPluginPath (publicPath serviceName : String) : String :=
  let root := publicPluginPrefix serviceName
  let normalizedPath := if startsWith publicPath "/" then publicPath else "/" ++ publicPath
  if normalizedPath = root then "/"
  else if startsWith normalizedPath (root ++ "/") then
    String.ofList (normalizedPath.toList.drop root.length)
  else normalizedPath

/-- `upstream_url`. -/
def upstreamUrl (service : ManagedServiceRuntime) (serviceName : String)
    (request : ClientRequest) : String :=
  service.baseUrl ++ toInternalPluginPath request.path serviceName

/-! ## One request -/

section

variable {Jar : Type} (client : AsyncClient Jar)

/-- The headers of a request: its own, and those of the client that it does not set itself. -/
def mergeHeaders (headers : Headers) : Headers :=
  (client.headers.filter fun h => ¬ headers.Has h.1) ++ headers

/-- `AsyncClient.build_request`. -/
def buildRequest (jar : Jar) (method url : String) (headers : Headers)
    (params : List (String × String)) (content : List UInt8) (cookies : List (String × String)) :
    UpstreamRequest :=
  let merged := mergeHeaders client headers
  let withCookies :=
    if merged.Has "cookie" then merged
    else
      match client.cookieHeader jar cookies url with
      | some value => merged ++ [("cookie", value)]
      | none => merged
  ⟨method, url, withCookies, params, content⟩

/-- `request.cookies`, given what parses a `Cookie` header. -/
def ClientRequest.cookies (parseCookies : String → List (String × String))
    (request : ClientRequest) : List (String × String) :=
  (request.headers.getlist "cookie").flatMap parseCookies

variable (parseCookies : String → List (String × String))
  (services : String → Option ManagedServiceRuntime)

/-- The first part of `proxy_request`: the upstream request, or the exception.  `running` tells
whether the process of the service still runs. -/
def proxyRequest (jar : Jar) (running : Bool) (serviceName : String) (request : ClientRequest) :
    Except HttpException UpstreamRequest :=
  match services serviceName with
  | none => .error ⟨404, "Unknown service: " ++ serviceName⟩
  | some service =>
    if ¬ running then .error ⟨502, "Service is unavailable: " ++ serviceName⟩
    else
      .ok (buildRequest client jar request.method (upstreamUrl service serviceName request)
        (request.headers.dict.pop "host") request.queryParams request.body
        (request.cookies parseCookies))

/-- The second part of `proxy_request`: what the client of the gateway gets. -/
def proxyResponse (response : UpstreamResponse) : ℕ × Headers :=
  (response.statusCode, response.headers.items.filter fun h => h.1 ∉ hopByHopHeaders)

/-! ## The running gateway -/

/-- An upstream request on behalf of a client. -/
structure Sent where
  client : ℕ
  serviceName : String
  request : ClientRequest
  upstream : UpstreamRequest

/-- The jar of the shared client, the upstream requests so far and the responses given back. -/
structure State (Jar : Type) where
  jar : Jar
  sent : List Sent
  answered : List (ℕ × ℕ × Headers)

/-- A client sends a request, or the upstream request number `i` is answered. -/
inductive Event where
  | request (client : ℕ) (running : Bool) (serviceName : String) (request : ClientRequest)
  | response (i : ℕ) (response : UpstreamResponse)

/-- The gateway after `lifespan` has created its client. -/
def start : State Jar := ⟨client.emptyJar, [], []⟩

def step (s : State Jar) : Event → State Jar
  | .request c running serviceName request =>
    match proxyRequest client parseCookies services s.jar running serviceName request with
    | .ok upstream => { s with sent := s.sent ++ [⟨c, serviceName, request, upstream⟩] }
    | .error _ => s
  | .response i response =>
    match s.sent[i]? with
    | some e =>
      { s with
        jar := client.extractCookies s.jar e.upstream.url (response.headers.getlist "set-cookie")
        answered := s.answered ++ [(e.client, proxyResponse response)] }
    | none => s

end

end Gateway

end AranesLms
