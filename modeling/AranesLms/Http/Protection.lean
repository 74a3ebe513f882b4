import AranesLms.Http.GatewayMerge

/-!
# What the document says of security

`install_bearer_openapi` of `src/http/openapi.py` marks an operation when it finds
`require_access_token_payload` among the dependencies of its route, at any depth.  The routes are
those of `create_app`: closed routers and plugins get the dependency from `_include_route` and
`build_plugin_router`, and the proxy has its own.

`createApp_describes`: in the document of an app an operation is marked exactly when some API route
with its path and method is not called without a verified access token, provided that the opened
routers do not rely on `get_cached_access_token_payload` alone, which is guarded and not marked
(`guards_cached`).  This is the route of the operation when no documented path has a convertor and
no two routes have a path and a method in common.
-/

namespace AranesLms

namespace OpenApi

open Gateway

/-! ## Dependencies -/

/-- What a dependency calls. -/
inductive Callable where
  | requireAccessTokenPayload
  | getCachedAccessTokenPayload
  | other (name : String)
  deriving DecidableEq

/-- `Dependant`: what is called, and the dependencies that are solved before. -/
inductive Dependant where
  | mk (call : Option Callable) (n : ℕ) (dependencies : Fin n → Dependant)

namespace Dependant

def call : Dependant → Option Callable
  | mk call _ _ => call

def dependencies : Dependant → List Dependant
  | mk _ _ dependencies => List.ofFn dependencies

def of (call : Option Callable) (dependencies : List Dependant) : Dependant :=
  mk call dependencies.length dependencies.get

/-- `_dependant_requires_access_token`. -/
def requiresAccessToken : Dependant → Bool
  | mk _ _ dependencies => decide (∃ i, (dependencies i).call = some .requireAccessTokenPayload ∨
      requiresAccessToken (dependencies i) = true)

/-- `_dependency_calls_recursive`; only what is a member of it matters. -/
def dependencyCallsRecursive : Dependant → List Callable
  | mk _ _ dependencies => (List.ofFn fun i =>
      (dependencies i).call.toList ++ dependencyCallsRecursive (dependencies i)).flatten

theorem mem_dependencyCallsRecursive {d : Dependant} {c : Callable} :
    c ∈ d.dependencyCallsRecursive ↔
      ∃ sub ∈ d.dependencies, sub.call = some c ∨ c ∈ sub.dependencyCallsRecursive := by
  cases d with
  | mk call n dependencies =>
    simp only [dependencyCallsRecursive, Dependant.dependencies, List.mem_flatten, List.mem_ofFn,
      exists_exists_eq_and, List.mem_append, Option.mem_toList]

/-- The dependency that is looked for is found by both functions. -/
theorem requiresAccessToken_iff {d : Dependant} :
    d.requiresAccessToken ↔ .requireAccessTokenPayload ∈ d.dependencyCallsRecursive := by
  induction d with
  | mk call n dependencies ih =>
    simp only [requiresAccessToken, decide_eq_true_eq, dependencyCallsRecursive,
      List.mem_flatten, List.mem_ofFn, exists_exists_eq_and, List.mem_append, Option.mem_toList]
    exact exists_congr fun i => or_congr Iff.rfl (ih i)

end Dependant

/-! ## Routes -/

/-- A route of an app; only `APIRoute`s have a `Dependant`, and the endpoints of the other routes of
Starlette are called without one. -/
structure Route where
  path : String
  pathFormat : String
  methods : List String
  includeInSchema : Bool
  dependant : Option Dependant

def Route.isApiRoute (route : Route) : Bool := route.dependant.isSome

/-- What is called before the endpoint of a route. -/
def Route.dependencyCalls (route : Route) : List Callable :=
  (route.dependant.map Dependant.dependencyCallsRecursive).getD []

/-- `str.lower`, for an ASCII character. -/
def lowerChar (c : Char) : Char :=
  if 65 ≤ c.toNat ∧ c.toNat ≤ 90 then Char.ofNat (c.toNat + 32) else c

/-- `str.lower`, for the name of a method. -/
def lower (method : String) : String := String.ofList (method.toList.map lowerChar)

/-- `_is_route_protected`. -/
def isRouteProtected (route : Route) : Bool :=
  .requireAccessTokenPayload ∈ route.dependencyCalls

/-- The route that comes of a route when its router is included: the dependencies are those of an
`APIRoute` only, and the format of the path begins with what comes before its first parameter. -/
structure Included (pathPrefix : String) (dependencies : List Dependant) (route route' : Route) :
    Prop where
  path : route'.path = pathPrefix ++ route.path
  pathFormat : ∀ literal rest, pathPrefix = literal ++ rest → '{' ∉ literal.toList →
    ∃ format, route'.pathFormat = literal ++ format
  methods : route'.methods = route.methods
  includeInSchema : route'.includeInSchema = route.includeInSchema
  dependencies : route'.dependant.map Dependant.dependencies =
    route.dependant.map fun dependant => dependencies ++ dependant.dependencies

/-- What is used of FastAPI: what is called on a request depends on what the dependencies do, and
the routes of a router are included with a prefix and dependencies, its mounts left out. -/
structure FastApi where
  calls : (Callable → Bool) → Dependant → Bool
  calls_iff : ∀ returns d, calls returns d ↔
    ∀ sub ∈ d.dependencies, calls returns sub ∧ ∀ c ∈ sub.call, returns c
  includeRouter : String → List Dependant → List Route → List Route
  includeRouter_spec : ∀ pathPrefix dependencies routes,
    ∀ route' ∈ includeRouter pathPrefix dependencies routes,
      ∃ route ∈ routes, Included pathPrefix dependencies route route'
  ownRoutes : List Route
  ownRoutes_spec : ∀ route ∈ ownRoutes, ¬ route.isApiRoute

inductive RouteAccess where
  | opened
  | closed
  deriving DecidableEq

structure RouteSpec where
  router : List Route
  access : RouteAccess

structure Plugin where
  name : String
  router : List Route

/-- `Depends(require_access_token_payload)`. -/
def dependsOnToken : Dependant := .of (some .requireAccessTokenPayload) []

/-- A route of `create_app` itself. -/
def ownRoute (path : String) (includeInSchema : Bool) : Route :=
  ⟨path, path, ["GET"], includeInSchema, some (.of none [])⟩

/-- The route of `_install_plugin_proxy`. -/
def proxyRoute : Route where
  path := "/plg/{plugin_name}/{path:path}"
  pathFormat := "/plg/{plugin_name}/{path}"
  methods := ["GET", "POST", "PUT", "DELETE", "PATCH", "HEAD", "OPTIONS"]
  includeInSchema := false
  dependant := some (.of none [dependsOnToken])

namespace FastApi

variable (fastApi : FastApi)

/-- `_include_route`, for the parent with the prefix `/api`. -/
def includeRoute (spec : RouteSpec) : List Route :=
  match spec.access with
  | .closed => fastApi.includeRouter "/api" [dependsOnToken] spec.router
  | .opened => fastApi.includeRouter "/api" [] spec.router

def allRoutes (specs : List RouteSpec) : List Route := specs.flatMap fastApi.includeRoute

def buildPluginRouter (registry : List Plugin) : List Route :=
  registry.flatMap fun plugin =>
    fastApi.includeRouter ("/api" ++ ("/plugins/" ++ plugin.name)) [dependsOnToken] plugin.router

/-- The routes of the closed routers, of the plugins and of the proxy. -/
def closedRoutes (specs : List RouteSpec) (registry : List Plugin) : List Route :=
  proxyRoute :: fastApi.allRoutes (specs.filter fun spec => spec.access = .closed) ++
    fastApi.buildPluginRouter registry

/-- The routes that `create_app` installs. -/
def createApp (gatewayUrl : Option String) (specs : List RouteSpec) (registry : List Plugin) :
    List Route :=
  fastApi.ownRoutes ++ [ownRoute "/health" true, ownRoute "/ready" true, ownRoute "/metrics" false]
    ++ (if gatewayUrl.getD "" ≠ "" then [proxyRoute] else [])
    ++ fastApi.allRoutes specs ++ fastApi.buildPluginRouter registry

end FastApi

/-! ## The document -/

/-- `security_schemes["BearerAuth"] = …`. -/
def addBearerAuth (schema : OrderedDict String Json) : Except PyError (OrderedDict String Json) :=
  do
  let components ← asDict (getObject schema "components")
  let securitySchemes ← asMutable (getObject components "securitySchemes")
  let bearer := Json.ofEntries
    [("type", .str "http"), ("scheme", .str "bearer"), ("bearerFormat", .str "JWT")]
  return schema.set "components"
    (.obj (components.set "securitySchemes" (.obj (securitySchemes.set "BearerAuth" bearer))))

def protectedOperations (routes : List Route) : List (String × String) :=
  (routes.filter fun route => route.isApiRoute ∧ isRouteProtected route).flatMap fun route =>
    route.methods.map fun method => (route.path, lower method)

/-- `operation["security"] = …`, for the operations of a path. -/
def secure (operations : List (String × String)) (path : String) (item : OrderedDict String Json) :
    OrderedDict String Json :=
  item.mapVal fun method operation =>
    match operation.asDict? with
    | some d =>
      let security := if operations.contains (path, lower method) then bearerAuth else .arr []
      .obj (d.set "security" security)
    | none => operation

/-- The loop over the paths, which changes the items in place. -/
def secureOperations (operations : List (String × String)) (schema : OrderedDict String Json) :
    Except PyError (OrderedDict String Json) :=
  match schema.get? "paths" with
  | none => .ok schema
  | some paths => do
    let paths ← asDict paths
    if paths.entries.all fun e => IsObject e.2 then
      return schema.set "paths"
        (.obj (paths.mapVal fun path item => .obj (secure operations path (contents item))))
    else throw .attributeError

/-- `custom_openapi`, where `schema` is what `get_openapi` gives. -/
def customOpenapi (openapiSchema : Option Json) (schema : Json) (routes : List Route)
    (gatewayOpenapiSchema : Option Json) : Except PyError Json :=
  match openapiSchema with
  | some document => .ok document
  | none => do
    let schema ← asDict schema
    let schema ← addBearerAuth schema
    let schema ← secureOperations (protectedOperations routes) schema
    match gatewayOpenapiSchema with
    | some gatewaySchema =>
      if IsObject gatewaySchema ∧ (contents gatewaySchema).entries.isEmpty then return .obj schema
      else mergeGatewayOpenapi (.obj schema) gatewaySchema
    | none => return .obj schema

/-! ## The specification -/

/-- What comes of the callables on a request: whether the access token is verified, and which of the
others return. -/
structure Outcome where
  verified : Bool
  others : String → Bool

def Outcome.returns (outcome : Outcome) : Callable → Bool
  | .requireAccessTokenPayload | .getCachedAccessTokenPayload => outcome.verified
  | .other name => outcome.others name

/-- The endpoint of the route is called. -/
def FastApi.Called (fastApi : FastApi) (returns : Callable → Bool) (route : Route) : Prop :=
  ∀ dependant ∈ route.dependant, fastApi.calls returns dependant

/-- The endpoint is not called without a verified access token. -/
def FastApi.Guards (fastApi : FastApi) (route : Route) : Prop :=
  ∀ outcome : Outcome, ¬ outcome.verified → ¬ fastApi.Called outcome.returns route

/-- Some guarded API route has the path, convertors and all, and the method. -/
def FastApi.Marked (fastApi : FastApi) (routes : List Route) (path method : String) : Prop :=
  ∃ route ∈ routes, route.isApiRoute ∧ fastApi.Guards route ∧ route.path = path ∧
    method ∈ route.methods.map lower

/-- The operation of the document is the one of the route. -/
structure Route.Documented (route : Route) (path method : String) : Prop where
  isApiRoute : route.isApiRoute
  includeInSchema : route.includeInSchema
  pathFormat : route.pathFormat = path
  methods : method ∈ route.methods.map lower

/-- What `get_openapi` gives for the routes. -/
structure Documents (schema : Json) (routes : List Route) : Prop where
  wellFormed : WellFormed schema
  securitySchemes :
    IsObject (getObject (contents (getObject (contents schema) "components")) "securitySchemes")
  operations : ∀ path item, (path, item) ∈ documentPaths schema →
    ∀ method operation, (method, operation) ∈ contents item → IsObject operation →
      ∃ route ∈ routes, route.Documented path method

/-- No path of a documented route has a convertor, and no other route has its path and one of its
methods. -/
structure Plain (routes : List Route) : Prop where
  paths : ∀ route ∈ routes, route.isApiRoute → route.includeInSchema →
    route.path = route.pathFormat
  distinct : ∀ route ∈ routes, ∀ route' ∈ routes, route.isApiRoute → route'.isApiRoute →
    route.path = route'.path → ∀ method ∈ route.methods.map lower,
      method ∈ route'.methods.map lower → route = route'

/-- A route without the dependency of the closed routers verifies access tokens by it, if at all. -/
def PlainlyOpened (router : List Route) : Prop :=
  ∀ route ∈ router,
    .getCachedAccessTokenPayload ∈ route.dependencyCalls →
      .requireAccessTokenPayload ∈ route.dependencyCalls

/-- The operation is one of a route, and its security says whether it is `Marked`. -/
def DescribesOperation (fastApi : FastApi) (routes : List Route) (path method : String)
    (operation : Json) : Prop :=
  (∃ route ∈ routes, route.Documented path method) ∧
    (fastApi.Marked routes path method ∧ (contents operation).get? "security" = some bearerAuth ∨
      ¬ fastApi.Marked routes path method ∧ (contents operation).get? "security" = some (.arr []))

/-- The operations of the core are described, and all operations of the gateway are marked. -/
structure Describes (fastApi : FastApi) (routes : List Route) (document : Json) : Prop where
  core : ∀ path item, (path, item) ∈ documentPaths document → ¬ IsPluginPath path →
    ∀ method operation, (method, operation) ∈ contents item → IsObject operation →
      DescribesOperation fastApi routes path method operation
  gateway : ∀ path item, (path, item) ∈ documentPaths document → IsPluginPath path →
    ∀ method ∈ methods, ∀ operation, (method, operation) ∈ contents item →
      (contents operation).get? "security" = some bearerAuth

/-! ## Calls -/

variable {fastApi : FastApi}

/-- The endpoint is called when all callables below it return. -/
theorem calls_iff_forall {returns : Callable → Bool} {d : Dependant} :
    fastApi.calls returns d ↔ ∀ c ∈ d.dependencyCallsRecursive, returns c := by
  induction d with
  | mk call n dependencies ih =>
    rw [fastApi.calls_iff]
    constructor
    · intro h c hc
      obtain ⟨sub, hsub, hcall⟩ := Dependant.mem_dependencyCallsRecursive.1 hc
      obtain ⟨i, rfl⟩ := List.mem_ofFn.1 hsub
      obtain ⟨hcalls, hreturns⟩ := h _ hsub
      rcases hcall with hcall | hbelow
      · exact hreturns c hcall
      · exact (ih i).1 hcalls c hbelow
    · intro h sub hsub
      obtain ⟨i, rfl⟩ := List.mem_ofFn.1 hsub
      refine ⟨(ih i).2 fun c hc => ?_, fun c hc => ?_⟩
      · exact h c (Dependant.mem_dependencyCallsRecursive.2 ⟨_, hsub, Or.inr hc⟩)
      · exact h c (Dependant.mem_dependencyCallsRecursive.2 ⟨_, hsub, Or.inl hc⟩)

theorem called_iff_forall {returns : Callable → Bool} {route : Route} :
    fastApi.Called returns route ↔ ∀ c ∈ route.dependencyCalls, returns c := by
  rw [FastApi.Called, Route.dependencyCalls]
  cases route.dependant with
  | none => exact iff_of_true (fun _ h => by cases h) (fun _ h => absurd h List.not_mem_nil)
  | some dependant =>
    rw [Option.map_some, Option.getD_some, ← calls_iff_forall]
    exact ⟨fun h => h dependant rfl, fun h dependant' heq => Option.some.inj heq ▸ h⟩

theorem guards_iff {route : Route} : fastApi.Guards route ↔
    .requireAccessTokenPayload ∈ route.dependencyCalls ∨
      .getCachedAccessTokenPayload ∈ route.dependencyCalls := by
  constructor
  · intro h
    by_contra hnone
    obtain ⟨hrequire, hcached⟩ := not_or.1 hnone
    refine h ⟨false, fun _ => true⟩ Bool.false_ne_true (called_iff_forall.2 fun c hc => ?_)
    cases c with
    | requireAccessTokenPayload => exact absurd hc hrequire
    | getCachedAccessTokenPayload => exact absurd hc hcached
    | other name => rfl
  · rintro (hc | hc) outcome hverified hcalls
    · exact hverified (called_iff_forall.1 hcalls _ hc)
    · exact hverified (called_iff_forall.1 hcalls _ hc)

theorem Route.dependencyCalls_of_not_isApiRoute {route : Route} (h : ¬ route.isApiRoute) :
    route.dependencyCalls = [] := by
  rw [Route.dependencyCalls, Option.not_isSome_iff_eq_none.1 h]
  rfl

/-- The endpoint of a route that is no `APIRoute` is called on every request. -/
theorem not_guards_of_not_isApiRoute {route : Route} (h : ¬ route.isApiRoute) :
    ¬ fastApi.Guards route := by
  rw [guards_iff, Route.dependencyCalls_of_not_isApiRoute h]
  rintro (hmem | hmem) <;> exact List.not_mem_nil hmem

/-- A route that only asks for the cached payload is guarded, but not marked. -/
theorem guards_cached {route : Route}
    (h : route.dependant = some (.of none [.of (some .getCachedAccessTokenPayload) []])) :
    fastApi.Guards route ∧ isRouteProtected route = false := by
  constructor
  · rw [guards_iff, Route.dependencyCalls, h]
    exact Or.inr (by decide)
  · rw [isRouteProtected, Route.dependencyCalls, h]
    decide

/-! ## Included routes -/

section

variable {pathPrefix : String} {dependencies : List Dependant} {route route' : Route}

theorem Included.isApiRoute (h : Included pathPrefix dependencies route route') :
    route'.isApiRoute = route.isApiRoute := by
  have hsome := congrArg Option.isSome h.dependencies
  rwa [Option.isSome_map, Option.isSome_map] at hsome

/-- An `APIRoute` calls the dependencies of the router besides its own. -/
theorem Included.dependencyCalls (h : Included pathPrefix dependencies route route')
    (hroute : route'.isApiRoute) {c : Callable} : c ∈ route'.dependencyCalls ↔
      (∃ sub ∈ dependencies, sub.call = some c ∨ c ∈ sub.dependencyCallsRecursive) ∨
        c ∈ route.dependencyCalls := by
  obtain ⟨dependant', hdependant'⟩ := Option.isSome_iff_exists.1 hroute
  obtain ⟨dependant, hdependant⟩ := Option.isSome_iff_exists.1 (h.isApiRoute ▸ hroute)
  have hdependencies : dependant'.dependencies = dependencies ++ dependant.dependencies := by
    have heq := h.dependencies
    rw [hdependant', hdependant] at heq
    exact Option.some.inj heq
  rw [Route.dependencyCalls, hdependant', Route.dependencyCalls, hdependant, Option.map_some,
    Option.getD_some, Option.map_some, Option.getD_some, Dependant.mem_dependencyCallsRecursive,
    hdependencies, Dependant.mem_dependencyCallsRecursive]
  simp only [List.mem_append, or_and_right, exists_or]

/-- An `APIRoute` that is included with the dependency of the closed routers. -/
theorem Included.mem_requires (h : Included pathPrefix [dependsOnToken] route route')
    (hroute : route'.isApiRoute) : .requireAccessTokenPayload ∈ route'.dependencyCalls :=
  (h.dependencyCalls hroute).2 (Or.inl ⟨dependsOnToken, List.mem_singleton_self _, Or.inl rfl⟩)

end

/-! ## The routes of an app -/

section

variable {gatewayUrl : Option String} {specs : List RouteSpec} {registry : List Plugin}
  {route : Route}

theorem mem_includeRoute {spec : RouteSpec} (h : route ∈ fastApi.includeRoute spec) :
    ∃ route' ∈ spec.router, spec.access = .closed ∧ Included "/api" [dependsOnToken] route' route ∨
      spec.access = .opened ∧ Included "/api" [] route' route := by
  rw [FastApi.includeRoute] at h
  cases haccess : spec.access with
  | closed =>
    rw [haccess] at h
    obtain ⟨route', hmem, hincluded⟩ := fastApi.includeRouter_spec _ _ _ _ h
    exact ⟨route', hmem, Or.inl ⟨rfl, hincluded⟩⟩
  | opened =>
    rw [haccess] at h
    obtain ⟨route', hmem, hincluded⟩ := fastApi.includeRouter_spec _ _ _ _ h
    exact ⟨route', hmem, Or.inr ⟨rfl, hincluded⟩⟩

theorem mem_buildPluginRouter (h : route ∈ fastApi.buildPluginRouter registry) :
    ∃ name route', Included ("/api" ++ name) [dependsOnToken] route' route := by
  obtain ⟨plugin, -, hmem⟩ := List.mem_flatMap.1 h
  obtain ⟨route', -, hincluded⟩ := fastApi.includeRouter_spec _ _ _ _ hmem
  exact ⟨_, route', hincluded⟩

/-- The `APIRoute`s of an app. -/
theorem createApp_cases {P : Route → Prop} (hown : ∀ path inSchema,
      path ∈ ["/health", "/ready", "/metrics"] → P (ownRoute path inSchema))
    (hproxy : P proxyRoute)
    (hclosed : ∀ pathPrefix route' route, Included ("/api" ++ pathPrefix) [dependsOnToken] route'
      route → route.isApiRoute → P route)
    (hopened : ∀ spec ∈ specs, spec.access = .opened → ∀ route' ∈ spec.router, ∀ route,
      Included "/api" [] route' route → route.isApiRoute → P route)
    (h : route ∈ fastApi.createApp gatewayUrl specs registry) (hroute : route.isApiRoute) :
    P route := by
  simp only [FastApi.createApp, List.mem_append] at h
  obtain (((h | h) | h) | h) | h := h
  · exact absurd hroute (fastApi.ownRoutes_spec route h)
  · simp only [List.mem_cons, List.not_mem_nil, or_false] at h
    rcases h with rfl | rfl | rfl <;> exact hown _ _ (by decide)
  · split_ifs at h
    · rw [List.mem_singleton.1 h]
      exact hproxy
    · cases h
  · obtain ⟨spec, hspec, hmem⟩ := List.mem_flatMap.1 h
    obtain ⟨route', hmem', ⟨-, hincluded⟩ | ⟨haccess, hincluded⟩⟩ := mem_includeRoute hmem
    · exact hclosed "" route' route hincluded hroute
    · exact hopened spec hspec haccess route' hmem' route hincluded hroute
  · obtain ⟨name, route', hincluded⟩ := mem_buildPluginRouter h
    exact hclosed name route' route hincluded hroute

theorem not_isPluginPath_api (path : String) : ¬ IsPluginPath ("/api" ++ path) := by
  rintro (h | h)
  · have hlist := congrArg String.toList h
    simp at hlist
  · obtain ⟨rest, hrest⟩ := startsWith_iff.1 h
    have hlist := congrArg String.toList hrest
    simp at hlist

theorem Included.not_isPluginPath {pathPrefix : String} {dependencies : List Dependant}
    {route' : Route} (h : Included ("/api" ++ pathPrefix) dependencies route' route) :
    ¬ IsPluginPath route.pathFormat := by
  obtain ⟨format, hformat⟩ := h.pathFormat "/api" pathPrefix rfl (by decide)
  rw [hformat]
  exact not_isPluginPath_api format

/-- No documented route of an app is below `/plg`. -/
theorem not_isPluginPath_createApp (h : route ∈ fastApi.createApp gatewayUrl specs registry)
    (hroute : route.isApiRoute) : route.includeInSchema → ¬ IsPluginPath route.pathFormat := by
  refine createApp_cases (P := fun route => route.includeInSchema → ¬ IsPluginPath route.pathFormat)
    (fun path inSchema hpath _ => ?_) (fun h => by cases h)
    (fun pathPrefix route' route h _ _ => h.not_isPluginPath)
    (fun spec _ _ route' _ route h _ _ => @Included.not_isPluginPath _ "" _ _ h) h hroute
  have hown : ∀ path ∈ ["/health", "/ready", "/metrics"], ¬ IsPluginPath path := by
    unfold IsPluginPath
    decide
  exact hown path hpath

/-- Every route of an app that reads the cached payload requires it to be there. -/
theorem requires_of_cached (hopened : ∀ spec ∈ specs, spec.access = .opened →
      PlainlyOpened spec.router)
    (h : route ∈ fastApi.createApp gatewayUrl specs registry) (hroute : route.isApiRoute) :
    .getCachedAccessTokenPayload ∈ route.dependencyCalls →
      .requireAccessTokenPayload ∈ route.dependencyCalls := by
  refine createApp_cases (P := fun route =>
      .getCachedAccessTokenPayload ∈ route.dependencyCalls →
        .requireAccessTokenPayload ∈ route.dependencyCalls)
    (fun path inSchema _ hcached => ?_) (by decide)
    (fun pathPrefix route' route h hroute _ => h.mem_requires hroute)
    (fun spec hspec haccess route' hmem route h hroute hcached => ?_) h hroute
  · exact absurd hcached List.not_mem_nil
  · rw [h.dependencyCalls hroute] at hcached ⊢
    refine Or.inr (hopened spec hspec haccess route' hmem (hcached.resolve_left ?_))
    rintro ⟨sub, hsub, -⟩
    exact List.not_mem_nil hsub

/-- An API route of an app is guarded exactly when it requires the payload. -/
theorem guards_iff_requires (hopened : ∀ spec ∈ specs, spec.access = .opened →
      PlainlyOpened spec.router)
    (h : route ∈ fastApi.createApp gatewayUrl specs registry) (hroute : route.isApiRoute) :
    fastApi.Guards route ↔ .requireAccessTokenPayload ∈ route.dependencyCalls :=
  guards_iff.trans (or_iff_left_of_imp (requires_of_cached hopened h hroute))

end

/-! ## The document of an app -/

section

variable {schema : Json} {routes : List Route} {operations : List (String × String)}

/-- The items of the paths with their security. -/
def securedPaths (operations : List (String × String)) (paths : OrderedDict String Json) :
    OrderedDict String Json :=
  paths.mapVal fun path item => .obj (secure operations path (contents item))

/-- What the steps of `custom_openapi` before the merge change. -/
structure Secured (operations : List (String × String)) (schema : Json)
    (secured : OrderedDict String Json) : Prop where
  paths : getObject secured "paths" =
    .obj (securedPaths operations (documentPaths schema))
  components : ∃ securitySchemes, getObject secured "components" =
    .obj ((contents (getObject (contents schema) "components")).set "securitySchemes"
      securitySchemes)
  tags : secured.get? "tags" = (contents schema).get? "tags"

theorem addBearerAuth_ok (h : Documents schema routes) : ∃ securitySchemes,
    addBearerAuth (contents schema) = .ok ((contents schema).set "components"
      (.obj ((contents (getObject (contents schema) "components")).set "securitySchemes"
        securitySchemes))) := by
  rw [addBearerAuth, asDict_of_isObject h.wellFormed.components, Except.ok_bind,
    asMutable_of_isObject h.securitySchemes, Except.ok_bind]
  exact ⟨_, rfl⟩

/-- The steps before the merge succeed. -/
theorem secureOperations_ok (h : Documents schema routes) {value : Json}
    {core : OrderedDict String Json} (hcore : core = (contents schema).set "components" value) :
    ∃ secured, secureOperations operations core = .ok secured ∧
      getObject secured "paths" = .obj (securedPaths operations (documentPaths schema)) ∧
      getObject secured "components" = value ∧
      secured.get? "tags" = (contents schema).get? "tags" := by
  have hpaths : core.get? "paths" = (contents schema).get? "paths" := by
    rw [hcore, OrderedDict.get?_set_of_ne _ (by decide)]
  have hcomponents : getObject core "components" = value := by
    rw [hcore, getObject_set_self]
  have htags : core.get? "tags" = (contents schema).get? "tags" := by
    rw [hcore, OrderedDict.get?_set_of_ne _ (by decide)]
  rw [secureOperations, hpaths]
  cases hget : (contents schema).get? "paths" with
  | none =>
    have hempty : documentPaths schema = ∅ := by
      rw [documentPaths, getObject, hget]
      exact contents_obj ∅
    refine ⟨core, rfl, ?_, hcomponents, htags⟩
    rw [getObject, hpaths, hget, hempty]
    rfl
  | some paths =>
    have hdocument : documentPaths schema = contents paths := by
      rw [documentPaths, getObject, hget, Option.getD_some]
    have hobject : IsObject paths := by
      have hobject := h.wellFormed.paths
      rwa [getObject, hget, Option.getD_some] at hobject
    have hall : ((contents paths).entries.all fun e => IsObject e.2) = true := by
      rw [List.all_eq_true]
      intro e he
      exact decide_eq_true (h.wellFormed.items e (hdocument ▸ he))
    dsimp only
    rw [asDict_of_isObject hobject, Except.ok_bind, if_pos hall]
    refine ⟨_, rfl, ?_, ?_, ?_⟩
    · rw [getObject_set_self, hdocument]
      rfl
    · rw [getObject_set_of_ne (by decide), hcomponents]
    · rw [OrderedDict.get?_set_of_ne _ (by decide), htags]

theorem mem_securedPaths {paths : OrderedDict String Json} {path : String} {item : Json}
    (h : (path, item) ∈ securedPaths operations paths) :
    ∃ item', (path, item') ∈ paths ∧ item = .obj (secure operations path (contents item')) := by
  obtain ⟨item', hmem, rfl⟩ := (OrderedDict.mem_mapVal _).1 h
  exact ⟨item', hmem, rfl⟩

/-- What is an object after `secure` is an operation with its security. -/
theorem mem_secure {path method : String} {item : OrderedDict String Json} {operation : Json}
    (h : (method, operation) ∈ secure operations path item) (hobject : IsObject operation) :
    ∃ operation', (method, operation') ∈ item ∧ IsObject operation' ∧
      (contents operation).get? "security" =
        some (if (path, lower method) ∈ operations then bearerAuth else .arr []) := by
  obtain ⟨operation', hmem, heq⟩ := (OrderedDict.mem_mapVal _).1 h
  refine ⟨operation', hmem, ?_⟩
  cases hdict : operation'.asDict? with
  | none =>
    rw [hdict] at heq
    rw [← heq, IsObject, hdict] at hobject
    cases hobject
  | some d =>
    rw [hdict] at heq
    refine ⟨Option.isSome_iff_exists.2 ⟨d, hdict⟩, ?_⟩
    rw [← heq, contents_obj, OrderedDict.get?_set_self]
    simp only [List.contains_iff_mem]

/-- Objects stay objects. -/
theorem isObject_of_mem_secure {path method : String} {item : OrderedDict String Json}
    {operation : Json} (h : (method, operation) ∈ secure operations path item)
    (hitem : ∀ e ∈ item, e.1 ∈ methods → IsObject e.2) (hmethod : method ∈ methods) :
    IsObject operation := by
  obtain ⟨operation', hmem, heq⟩ := (OrderedDict.mem_mapVal _).1 h
  obtain ⟨d, hd⟩ := Option.isSome_iff_exists.1 (hitem _ hmem hmethod)
  rw [hd] at heq
  rw [← heq]
  exact isObject_obj _

variable {secured : OrderedDict String Json}

theorem Secured.documentPaths_eq (h : Secured operations schema secured) :
    documentPaths (.obj secured) = securedPaths operations (documentPaths schema) := by
  rw [documentPaths, contents_obj, h.paths, contents_obj]

theorem Secured.wellFormed (h : Secured operations schema secured) (hschema : WellFormed schema) :
    WellFormed (.obj secured) := by
  obtain ⟨securitySchemes, hcomponents⟩ := h.components
  have htags : documentTags (.obj secured) = documentTags schema := by
    rw [documentTags, documentTags, contents_obj, h.tags]
  refine ⟨isObject_obj _, ?_, ?_, ?_, ?_, ?_, ?_, ?_⟩
  · rw [contents_obj, h.paths]
    exact isObject_obj _
  · rintro ⟨path, item⟩ he
    rw [h.documentPaths_eq] at he
    obtain ⟨item', -, rfl⟩ := mem_securedPaths he
    exact isObject_obj _
  · rintro ⟨path, item⟩ he ⟨method, operation⟩ hmem hmethod
    rw [h.documentPaths_eq] at he
    obtain ⟨item', hitem', rfl⟩ := mem_securedPaths he
    rw [contents_obj] at hmem
    exact isObject_of_mem_secure hmem (hschema.operations _ hitem') hmethod
  · rw [contents_obj, hcomponents]
    exact isObject_obj _
  · rw [contents_obj, hcomponents, contents_obj, getObject_set_of_ne (by decide)]
    exact hschema.schemas
  · rw [contents_obj, h.tags]
    exact hschema.tags
  · rw [htags]
    exact hschema.tagObjects

theorem lowerChar_lowerChar (c : Char) : lowerChar (lowerChar c) = lowerChar c := by
  have hnat : ∀ n < 91, 65 ≤ n → (Char.ofNat (n + 32)).toNat = n + 32 := by decide
  unfold lowerChar
  split_ifs with hupper hlower
  · rw [hnat _ (by omega) hupper.1] at hlower
    omega
  · rfl
  · rfl

theorem lower_lower (method : String) : lower (lower method) = lower method := by
  rw [lower, lower, String.toList_ofList, List.map_map]
  congr 1
  exact List.map_congr_left fun c _ => lowerChar_lowerChar c

theorem mem_protectedOperations {path method : String} :
    (path, method) ∈ protectedOperations routes ↔ ∃ route ∈ routes, route.isApiRoute ∧
      .requireAccessTokenPayload ∈ route.dependencyCalls ∧ route.path = path ∧
        method ∈ route.methods.map lower := by
  simp only [protectedOperations, List.mem_flatMap, List.mem_filter, decide_eq_true_eq,
    isRouteProtected, List.mem_map, Prod.mk.injEq]
  constructor
  · rintro ⟨route, ⟨hmem, hapi, hrequires⟩, m, hm, hpath, hmethod⟩
    exact ⟨route, hmem, hapi, hrequires, hpath, m, hm, hmethod⟩
  · rintro ⟨route, hmem, hapi, hrequires, hpath, m, hm, hmethod⟩
    exact ⟨route, ⟨hmem, hapi, hrequires⟩, m, hm, hpath, hmethod⟩

theorem Route.Documented.lower_method {route : Route} {path method : String}
    (h : route.Documented path method) : lower method = method := by
  obtain ⟨m, -, rfl⟩ := List.mem_map.1 h.methods
  exact lower_lower m

/-- Without convertors and shared paths a documented operation is marked exactly when its own route
is guarded. -/
theorem Plain.marked_iff (h : Plain routes) {route : Route} (hroute : route ∈ routes)
    {path method : String} (hdocumented : route.Documented path method) :
    fastApi.Marked routes path method ↔ fastApi.Guards route := by
  obtain ⟨hapi, hschema, rfl, hmethods⟩ := hdocumented
  have hpath := h.paths route hroute hapi hschema
  constructor
  · rintro ⟨route', hroute', hapi', hguards, hpath', hmethods'⟩
    rw [h.distinct route hroute route' hroute' hapi hapi' (hpath.trans hpath'.symm) method hmethods
      hmethods']
    exact hguards
  · exact fun hguards => ⟨route, hroute, hapi, hguards, hpath, hmethods⟩

/-- The steps before the merge. -/
theorem exists_secured (h : Documents schema routes) (operations : List (String × String)) :
    ∃ core secured,
    addBearerAuth (contents schema) = .ok core ∧ secureOperations operations core = .ok secured ∧
      Secured operations schema secured := by
  obtain ⟨securitySchemes, hcore⟩ := addBearerAuth_ok h
  obtain ⟨secured, hok, hpaths, hcomponents, htags⟩ := secureOperations_ok h rfl
  exact ⟨_, secured, hcore, hok, hpaths, ⟨securitySchemes, hcomponents⟩, htags⟩

end

/-! ## The document and the dependencies -/

section

variable {gatewayUrl : Option String} {specs : List RouteSpec} {registry : List Plugin}
  {schema : Json} {secured : OrderedDict String Json}

/-- The document before the merge. -/
theorem Secured.describes (hopened : ∀ spec ∈ specs, spec.access = .opened →
      PlainlyOpened spec.router)
    (hschema : Documents schema (fastApi.createApp gatewayUrl specs registry))
    (h : Secured (protectedOperations (fastApi.createApp gatewayUrl specs registry)) schema secured)
    {path : String} {item : Json} (hitem : (path, item) ∈ documentPaths (.obj secured)) :
    ∀ method operation, (method, operation) ∈ contents item → IsObject operation →
      ¬ IsPluginPath path ∧
      DescribesOperation fastApi (fastApi.createApp gatewayUrl specs registry) path method
        operation := by
  intro method operation hmem hobject
  rw [h.documentPaths_eq] at hitem
  obtain ⟨item', hitem', rfl⟩ := mem_securedPaths hitem
  rw [contents_obj] at hmem
  obtain ⟨operation', hmem', hobject', hsecurity⟩ := mem_secure hmem hobject
  obtain ⟨route, hroute, hdocumented⟩ :=
    hschema.operations path item' hitem' method operation' hmem' hobject'
  have hmarked : (path, lower method) ∈
      protectedOperations (fastApi.createApp gatewayUrl specs registry) ↔
        fastApi.Marked (fastApi.createApp gatewayUrl specs registry) path method := by
    rw [hdocumented.lower_method, mem_protectedOperations]
    refine exists_congr fun route' => and_congr_right fun hroute' => and_congr_right fun hapi => ?_
    rw [guards_iff_requires hopened hroute' hapi]
  refine ⟨?_, ⟨route, hroute, hdocumented⟩, ?_⟩
  · rw [← hdocumented.pathFormat]
    exact not_isPluginPath_createApp hroute hdocumented.isApiRoute hdocumented.includeInSchema
  · rw [hsecurity, ← hmarked]
    by_cases hmem : (path, lower method) ∈
        protectedOperations (fastApi.createApp gatewayUrl specs registry)
    · exact Or.inl ⟨hmem, congrArg some (if_pos hmem)⟩
    · exact Or.inr ⟨hmem, congrArg some (if_neg hmem)⟩

/-- The gateway's part of the document. -/
theorem Describes.merge {routes : List Route} {gatewaySchema : Json}
    (hsecured : WellFormed (.obj secured)) (hgateway : WellFormed gatewaySchema)
    (hpaths : ∀ path ∈ (documentPaths gatewaySchema).keys, IsPluginPath path)
    (hcore : ∀ path item, (path, item) ∈ documentPaths (.obj secured) →
      ∀ method operation, (method, operation) ∈ contents item → IsObject operation →
        ¬ IsPluginPath path ∧ DescribesOperation fastApi routes path method operation) :
    Describes fastApi routes (.obj (mergedCore (.obj secured) gatewaySchema)) := by
  have hmem : ∀ path item,
      (path, item) ∈ documentPaths (.obj (mergedCore (.obj secured) gatewaySchema)) →
        (path, item) ∈ documentPaths (.obj secured) ∨ IsPluginPath path ∧ ∃ item',
          (path, item') ∈ documentPaths gatewaySchema ∧
            item = .obj (protect path (contents item')) := by
    intro path item h
    rw [documentPaths_mergedCore _ _ hsecured] at h
    rcases OrderedDict.mem_of_mem_setAll _ h with h | h
    · exact Or.inl h
    · obtain ⟨⟨path', item'⟩, hitem', heq⟩ := List.mem_map.1 h
      obtain ⟨rfl, rfl⟩ := Prod.mk.inj heq
      exact Or.inr ⟨hpaths _ (List.mem_map_of_mem hitem'), item', hitem', rfl⟩
  constructor
  · intro path item h hplugin method operation hoperation hobject
    rcases hmem path item h with h | ⟨habsurd, -⟩
    · exact (hcore path item h method operation hoperation hobject).2
    · exact absurd habsurd hplugin
  · intro path item h hplugin method hmethod operation hoperation
    rcases hmem path item h with h | ⟨-, item', hitem', rfl⟩
    · have hobject := hsecured.operations _ h _ hoperation hmethod
      exact absurd hplugin (hcore path item h method operation hoperation hobject).1
    · rw [contents_obj] at hoperation
      exact (security_of_mem_protect (hgateway.operations _ hitem') hmethod hoperation).2

theorem guards_iff_of_mem_closedRoutes {route : Route}
    (h : route ∈ fastApi.closedRoutes specs registry) :
    fastApi.Guards route ↔ route.isApiRoute := by
  constructor
  · exact fun hguards => by_contra fun hroute => not_guards_of_not_isApiRoute hroute hguards
  intro hroute
  refine guards_iff.2 (Or.inl ?_)
  rcases List.mem_append.1 h with h | h
  · rcases List.mem_cons.1 h with rfl | h
    · decide
    · obtain ⟨spec, hspec, hmem⟩ := List.mem_flatMap.1 h
      have haccess : spec.access = .closed := of_decide_eq_true (List.mem_filter.1 hspec).2
      obtain ⟨route', -, ⟨-, hincluded⟩ | ⟨hopened, -⟩⟩ := mem_includeRoute hmem
      · exact hincluded.mem_requires hroute
      · rw [haccess] at hopened
        cases hopened
  · obtain ⟨name, route', hincluded⟩ := mem_buildPluginRouter h
    exact hincluded.mem_requires hroute

/-- The document of an app says of every operation whether a guarded API route has its path and its
method, which is the route of the operation when the routes are plain.  Of the routes of the closed
routers, of the plugins and of the proxy exactly the API routes are guarded. -/
theorem createApp_describes (fastApi : FastApi) {gatewaySchema : Option Json}
    (hschema : Documents schema (fastApi.createApp gatewayUrl specs registry))
    (hopened : ∀ spec ∈ specs, spec.access = .opened → PlainlyOpened spec.router)
    (hgateway : ∀ document ∈ gatewaySchema, WellFormed document ∧
      ∀ path ∈ (documentPaths document).keys, IsPluginPath path) :
    (∃ document, customOpenapi none schema (fastApi.createApp gatewayUrl specs registry)
        gatewaySchema = .ok document ∧
      Describes fastApi (fastApi.createApp gatewayUrl specs registry) document) ∧
    (Plain (fastApi.createApp gatewayUrl specs registry) →
      ∀ route ∈ fastApi.createApp gatewayUrl specs registry, ∀ path method,
        route.Documented path method →
          (fastApi.Marked (fastApi.createApp gatewayUrl specs registry) path method ↔
            fastApi.Guards route)) ∧
    ∀ route ∈ fastApi.closedRoutes specs registry, fastApi.Guards route ↔ route.isApiRoute := by
  refine ⟨?_, fun hplain route hroute path method hdocumented =>
    hplain.marked_iff hroute hdocumented, fun route => guards_iff_of_mem_closedRoutes⟩
  obtain ⟨core, secured, hbearer, hok, hsecured⟩ := exists_secured hschema
    (protectedOperations (fastApi.createApp gatewayUrl specs registry))
  have hdescribes := fun path item => @Secured.describes fastApi gatewayUrl specs registry schema
    secured hopened hschema hsecured path item
  have hwellFormed := hsecured.wellFormed hschema.wellFormed
  have halone : Describes fastApi (fastApi.createApp gatewayUrl specs registry)
      (.obj secured) := by
    refine ⟨fun path item h _ method operation hmem hobject =>
      (hdescribes path item h method operation hmem hobject).2,
      fun path item h hplugin method hmethod operation hmem => ?_⟩
    have hobject := hwellFormed.operations _ h _ hmem hmethod
    exact absurd hplugin (hdescribes path item h method operation hmem hobject).1
  simp only [customOpenapi, asDict_of_isObject hschema.wellFormed.isObject, Except.ok_bind, hbearer,
    hok]
  cases gatewaySchema with
  | none => exact ⟨_, rfl, halone⟩
  | some document =>
    obtain ⟨hdocument, hpaths⟩ := hgateway document rfl
    dsimp only
    split_ifs
    · exact ⟨_, rfl, halone⟩
    · exact ⟨_, mergeGatewayOpenapi_ok hwellFormed hdocument,
        Describes.merge hwellFormed hdocument hpaths hdescribes⟩

/-- The dependencies one after the other. -/
def solve (returns : Callable → Bool) : Dependant → Bool
  | .mk _ _ dependencies =>
    decide (∀ i, solve returns (dependencies i) = true ∧ ∀ c ∈ (dependencies i).call, returns c)

def sampleFastApi : FastApi where
  calls := solve
  calls_iff returns d := by
    cases d with
    | mk call n dependencies =>
      rw [solve, decide_eq_true_eq, Dependant.dependencies, List.forall_mem_ofFn_iff]
  includeRouter pathPrefix dependencies routes := routes.map fun route => { route with
    path := pathPrefix ++ route.path
    pathFormat := pathPrefix ++ route.pathFormat
    dependant := route.dependant.map fun dependant =>
      .of dependant.call (dependencies ++ dependant.dependencies) }
  includeRouter_spec pathPrefix dependencies routes route' h := by
    obtain ⟨route, hroute, rfl⟩ := List.mem_map.1 h
    refine ⟨route, hroute, rfl, ?_, rfl, rfl, ?_⟩
    · rintro literal rest rfl -
      exact ⟨rest ++ route.pathFormat, String.append_assoc⟩
    · rw [Option.map_map]
      exact Option.map_congr fun dependant _ => List.ofFn_get _
  ownRoutes := []
  ownRoutes_spec _ h := absurd h List.not_mem_nil

/-- The login, and a list of users that asks for a permission, besides a route of Starlette. -/
def sampleSpecs : List RouteSpec :=
  [⟨[⟨"/v1/auth/login", "/v1/auth/login", ["POST"], true,
      some (.of none [.of (some (.other "request_rate_limiter")) []])⟩], .opened⟩,
    ⟨[⟨"/v1/rbac/users", "/v1/rbac/users", ["GET"], true,
        some (.of none [.of (some (.other "require_permission"))
          [.of (some (.other "get_current_actor"))
            [.of (some .getCachedAccessTokenPayload) []]]])⟩,
      ⟨"/v1/rbac/icon", "/v1/rbac/icon", ["GET"], true, none⟩], .closed⟩]

/-- An item with one operation. -/
def sampleItem (method : String) : Json := .ofEntries [(method, .ofEntries [])]

def sampleSchema : Json :=
  .ofEntries [("paths", .ofEntries [("/health", sampleItem "get"), ("/ready", sampleItem "get"),
    ("/api/v1/auth/login", sampleItem "post"), ("/api/v1/rbac/users", sampleItem "get")])]

def sampleGatewaySchema : Json :=
  .ofEntries [("paths", .ofEntries [("/plg/shop/items", sampleItem "get")])]

theorem createApp_describes_sample :
    let routes := sampleFastApi.createApp (some "http://127.0.0.1:9000") sampleSpecs []
    (∃ document, customOpenapi none sampleSchema routes (some sampleGatewaySchema) = .ok document ∧
        Describes sampleFastApi routes document) ∧
      (Plain routes → ∀ route ∈ routes, ∀ path method, route.Documented path method →
        (sampleFastApi.Marked routes path method ↔ sampleFastApi.Guards route)) ∧
      ∀ route ∈ sampleFastApi.closedRoutes sampleSpecs [],
        sampleFastApi.Guards route ↔ route.isApiRoute := by
  intro routes
  have hoperations : ∀ e ∈ documentPaths sampleSchema, ∀ e' ∈ contents e.2, ∃ route ∈ routes,
      route.isApiRoute ∧ route.includeInSchema ∧ route.pathFormat = e.1 ∧
        e'.1 ∈ route.methods.map lower := by decide +kernel
  refine createApp_describes sampleFastApi ⟨by decide +kernel, by decide +kernel, ?_⟩ ?_ ?_
  · intro path item hitem method operation hoperation _
    obtain ⟨route, hroute, hapi, hschema, hpath, hmethod⟩ :=
      hoperations _ hitem _ hoperation
    exact ⟨route, hroute, hapi, hschema, hpath, hmethod⟩
  · unfold PlainlyOpened
    decide
  · rintro document ⟨⟩
    exact ⟨by decide +kernel, by unfold IsPluginPath; decide +kernel⟩

/-- The paths of the sample have no convertors. -/
example : Plain (sampleFastApi.createApp (some "http://127.0.0.1:9000") sampleSpecs []) := by
  have hnodup : ((sampleFastApi.createApp (some "http://127.0.0.1:9000") sampleSpecs []).map
      Route.path).Nodup := by decide +kernel
  refine ⟨by decide +kernel, fun route hroute route' hroute' _ _ hpath _ _ _ => ?_⟩
  exact List.inj_on_of_nodup_map hnodup hroute hroute' hpath

end

end OpenApi

end AranesLms
