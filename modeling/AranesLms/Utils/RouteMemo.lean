import AranesLms.Lib.Recency
import AranesLms.Lib.Transition
import AranesLms.Utils.InprocessHttp

/-!
# Routing with and without the memo

Any sequence of calls of `AppHttpRouteResolver.request` on a new resolver.  `Routed` says where a
request goes, in terms of the route table alone.  `memo_eq_plain`: after any calls the resolver
still answers like this, and so like a new one; its memo is bounded, and the newest entry is the one
of the path that was looked up last.
-/

namespace AranesLms

namespace InprocessHttp

/-- An API route that answers the method on the path: by equality if it has no parameters, else by
its regular expression. -/
structure Route.Serves (upper : String → String) (route : Route) (method path : String) : Prop where
  isApiRoute : route.isApiRoute
  isApiPath : isApiPath route.path
  method : upper method ∈ route.methods.map upper
  path : if '{' ∈ route.path.toList then route.pathRegex path else path = route.path

structure RequestCall where
  method : String
  url : String
  headers : Option Headers

section

variable (lower upper : String → String) (netlocOk : String → Bool) (routes : List Route)

/-- The URL has neither scheme nor authority, or names a host of the allowlist in any case. -/
def MayBeLocal (parts : SplitResult) : Prop :=
  (parts.scheme = "" ∧ parts.netloc = "") ∨
    lower (Url.hostname lower parts) ∈ internalHostAllowlist

instance : DecidablePred (MayBeLocal lower) := fun _ => inferInstanceAs (Decidable (_ ∨ _))

/-- The request is one for the application. -/
structure IsLocal (method : String) (parts : SplitResult) : Prop where
  host : MayBeLocal lower parts
  path : isApiPath (requestPath parts)
  route : ∃ route ∈ routes, route.Serves upper method (requestPath parts)

/-- `local_url`. -/
def localUrl (parts : SplitResult) : String :=
  if parts.query = "" then requestPath parts else requestPath parts ++ "?" ++ parts.query

/-- Where a request goes. -/
inductive Routed (call : RequestCall) (parts : SplitResult) : Except RequestError Dispatch → Prop
  | inProcess (hlocal : IsLocal lower upper routes call.method parts) :
    Routed call parts (.ok (.inProcess call.method (localUrl parts) call.headers))
  | relative (hlocal : ¬ IsLocal lower upper routes call.method parts)
      (hrelative : parts.scheme = "" ∨ parts.netloc = "") :
    Routed call parts (.error (.relativeUrl ("External requests must use an absolute URL. " ++
      "Received relative non-local URL: " ++ call.url)))
  | external (hlocal : ¬ IsLocal lower upper routes call.method parts)
      (hscheme : parts.scheme ≠ "") (hnetloc : parts.netloc ≠ "") :
    Routed call parts (.ok (.external call.method call.url call.headers))

/-- The key that a call looks up in the memo. -/
def lookedUp (call : RequestCall) : Option (String × String) :=
  match Url.urlsplit netlocOk call.url with
  | some parts =>
    if MayBeLocal lower parts then some (upper call.method, requestPath parts) else none
  | none => none

def answer (resolver : AppHttpRouteResolver) (call : RequestCall) :
    Except RequestError Dispatch × AppHttpRouteResolver :=
  resolver.request lower upper netlocOk call.method call.url call.headers

/-- The resolver of an application after some calls. -/
def after (maxsize : ℤ) (calls : List RequestCall) : AppHttpRouteResolver :=
  Transition.runFrom (fun resolver call => (answer lower upper netlocOk resolver call).2)
    (.ofApp upper routes maxsize) calls

/-! ## The route table -/

variable {upper routes}

theorem mem_staticApiRoutes {method path : String} :
    (upper method, path) ∈ (ApiRoutes.ofApp upper routes).staticApiRoutes ↔
      ∃ route ∈ routes, '{' ∉ route.path.toList ∧ route.Serves upper method path := by
  rw [ApiRoutes.ofApp]
  simp only [List.mem_flatMap, List.mem_filter, List.mem_map, decide_eq_true_eq]
  constructor
  · rintro ⟨route, ⟨⟨hroute, hapi⟩, hbrace⟩, method', hmethod, heq⟩
    obtain ⟨hupper, rfl⟩ := Prod.mk.inj heq
    exact ⟨route, hroute, hbrace, hapi.1, hapi.2, List.mem_map.2 ⟨method', hmethod, hupper⟩,
      (if_neg hbrace).mpr rfl⟩
  · rintro ⟨route, hroute, hbrace, hserves⟩
    obtain ⟨method', hmethod, hupper⟩ := List.mem_map.1 hserves.method
    refine ⟨route, ⟨⟨hroute, hserves.isApiRoute, hserves.isApiPath⟩, hbrace⟩, method', hmethod, ?_⟩
    rw [hupper, (if_neg hbrace).mp hserves.path]

theorem any_dynamicApiRoutes {method path : String} :
    ((ApiRoutes.ofApp upper routes).dynamicApiRoutes.any fun route =>
        upper method ∈ route.1 ∧ route.2 path) ↔
      ∃ route ∈ routes, '{' ∈ route.path.toList ∧ route.Serves upper method path := by
  rw [ApiRoutes.ofApp]
  simp only [List.any_map, List.any_eq_true, List.mem_filter, Function.comp_apply,
    decide_eq_true_eq]
  constructor
  · rintro ⟨route, ⟨⟨hroute, hapi⟩, hbrace⟩, hmethod, hpath⟩
    exact ⟨route, hroute, hbrace, hapi.1, hapi.2, hmethod, (if_pos hbrace).mpr hpath⟩
  · rintro ⟨route, hroute, hbrace, hserves⟩
    exact ⟨route, ⟨⟨hroute, hserves.isApiRoute, hserves.isApiPath⟩, hbrace⟩, hserves.method,
      (if_pos hbrace).mp hserves.path⟩

/-- The static set and the dynamic patterns together are the route table. -/
theorem matchesKey_ofApp {method path : String} :
    (ApiRoutes.ofApp upper routes).matchesKey (upper method, path) ↔
      isApiPath path ∧ ∃ route ∈ routes, route.Serves upper method path := by
  rw [ApiRoutes.matchesKey]
  by_cases hpath : isApiPath path
  · rw [if_neg (not_not.2 hpath), and_iff_right hpath]
    split_ifs with hstatic
    · obtain ⟨route, hroute, -, hserves⟩ := mem_staticApiRoutes.1 hstatic
      exact iff_of_true rfl ⟨route, hroute, hserves⟩
    · rw [any_dynamicApiRoutes]
      constructor
      · rintro ⟨route, hroute, -, hserves⟩
        exact ⟨route, hroute, hserves⟩
      · rintro ⟨route, hroute, hserves⟩
        refine ⟨route, hroute, ?_, hserves⟩
        by_contra hbrace
        exact hstatic (mem_staticApiRoutes.2 ⟨route, hroute, hbrace, hserves⟩)
  · rw [if_pos hpath]
    exact iff_of_false Bool.false_ne_true fun h => hpath h.1

/-! ## One call -/

theorem isLocalRequest_iff {resolver : AppHttpRouteResolver}
    (hroutes : resolver.routes = ApiRoutes.ofApp upper routes) (method : String)
    (parts : SplitResult) : (resolver.isLocalRequest lower upper method parts).1 ↔
      IsLocal lower upper routes method parts := by
  rw [isLocalRequest_fst, hroutes, Bool.and_eq_true, matchesKey_ofApp, decide_eq_true_eq,
    isInternalHost, decide_eq_true_eq]
  constructor
  · rintro ⟨hhost, hpath, hroute⟩
    exact ⟨hhost, hpath, hroute⟩
  · rintro ⟨hhost, hpath, hroute⟩
    exact ⟨hhost, hpath, hroute⟩

theorem routed_answer {resolver : AppHttpRouteResolver}
    (hroutes : resolver.routes = ApiRoutes.ofApp upper routes) {call : RequestCall}
    {parts : SplitResult} (hsplit : Url.urlsplit netlocOk call.url = some parts) :
    Routed lower upper routes call parts (answer lower upper netlocOk resolver call).1 := by
  have hlocal := isLocalRequest_iff lower hroutes call.method parts
  rw [answer, AppHttpRouteResolver.request, hsplit]
  dsimp only
  by_cases hdispatch : (resolver.isLocalRequest lower upper call.method parts).1
  · rw [if_pos hdispatch]
    exact .inProcess (hlocal.1 hdispatch)
  · rw [if_neg hdispatch]
    by_cases hrelative : parts.scheme = "" ∨ parts.netloc = ""
    · rw [if_pos hrelative]
      exact .relative (fun h => hdispatch (hlocal.2 h)) hrelative
    · rw [if_neg hrelative]
      obtain ⟨hscheme, hnetloc⟩ := not_or.1 hrelative
      exact .external (fun h => hdispatch (hlocal.2 h)) hscheme hnetloc

/-- The answer depends on the routes only. -/
theorem answer_congr {resolver resolver' : AppHttpRouteResolver}
    (hroutes : resolver.routes = resolver'.routes) (call : RequestCall) :
    (answer lower upper netlocOk resolver call).1 =
      (answer lower upper netlocOk resolver' call).1 := by
  rw [answer, answer, AppHttpRouteResolver.request, AppHttpRouteResolver.request]
  cases Url.urlsplit netlocOk call.url with
  | none => rfl
  | some parts =>
    have hlocal : (resolver.isLocalRequest lower upper call.method parts).1 =
        (resolver'.isLocalRequest lower upper call.method parts).1 := by
      rw [isLocalRequest_fst, isLocalRequest_fst, hroutes]
    dsimp only
    rw [hlocal]
    split_ifs <;> rfl

end

namespace AppHttpRouteResolver

/-- What becomes of the resolver when a key is looked up. -/
def look (resolver : AppHttpRouteResolver) (key : String × String) : AppHttpRouteResolver :=
  match resolver.routeMatchLru.get? key with
  | some _ => resolver.touch key
  | none => resolver.remember key

variable {resolver : AppHttpRouteResolver}

theorem isLocalApiPath_snd (upper : String → String) (method path : String) :
    (resolver.isLocalApiPath upper method path).2 = resolver.look (upper method, path) := by
  rw [isLocalApiPath, look]
  cases resolver.routeMatchLru.get? (upper method, path) with
  | none => rfl
  | some result => rfl

/-- The memo of a resolver for the route table, after the keys have been looked up. -/
structure Remembers (routes : ApiRoutes) (maxsize : ℤ) (keys : List (String × String))
    (resolver : AppHttpRouteResolver) : Prop where
  routes : resolver.routes = routes
  maxsize : resolver.routeCacheMaxsize = (max 1 maxsize).toNat
  bounded : resolver.routeMatchLru.length ≤ resolver.routeCacheMaxsize
  newest : resolver.routeMatchLru.keys.getLast? = keys.getLast?

theorem Remembers.look {routes : ApiRoutes} {maxsize : ℤ} {keys : List (String × String)}
    (h : Remembers routes maxsize keys resolver) (key : String × String) :
    Remembers routes maxsize (keys ++ [key]) (resolver.look key) := by
  have hpos : 0 < resolver.routeCacheMaxsize := by
    rw [h.maxsize]
    omega
  rw [AppHttpRouteResolver.look]
  cases hget : resolver.routeMatchLru.get? key with
  | some result =>
    refine ⟨h.routes, h.maxsize, ?_, ?_⟩
    · show (resolver.routeMatchLru.moveToEnd key).length ≤ _
      rw [OrderedDict.length_moveToEnd]
      exact h.bounded
    · show (resolver.routeMatchLru.moveToEnd key).keys.getLast? = _
      rw [OrderedDict.moveToEnd, hget, OrderedDict.keys_setLast, List.getLast?_concat,
        List.getLast?_concat]
  | none =>
    refine ⟨h.routes, h.maxsize, ?_, ?_⟩
    · show (OrderedDict.dropOldest _ resolver.routeCacheMaxsize).length ≤ _
      rw [OrderedDict.length_dropOldest]
      exact min_le_left _ _
    · show (OrderedDict.dropOldest _ resolver.routeCacheMaxsize).keys.getLast? = _
      rw [OrderedDict.getLast?_keys_dropOldest _ hpos, OrderedDict.keys_setLast,
        List.getLast?_concat, List.getLast?_concat]

end AppHttpRouteResolver

open AppHttpRouteResolver

section

variable (lower upper : String → String) (netlocOk : String → Bool)

theorem isLocalRequest_snd (resolver : AppHttpRouteResolver) (method : String)
    (parts : SplitResult) : (resolver.isLocalRequest lower upper method parts).2 =
      if MayBeLocal lower parts then resolver.look (upper method, requestPath parts)
      else resolver := by
  have hiff : ((parts.scheme = "" ∧ parts.netloc = "") ∨ isInternalHost lower parts) ↔
      MayBeLocal lower parts := or_congr_right decide_eq_true_iff
  rw [isLocalRequest]
  by_cases h : MayBeLocal lower parts
  · rw [if_pos (hiff.2 h), if_pos h, isLocalApiPath_snd]
  · rw [if_neg (mt hiff.1 h), if_neg h]

theorem answer_snd (resolver : AppHttpRouteResolver) (call : RequestCall) :
    (answer lower upper netlocOk resolver call).2 =
      match lookedUp lower upper netlocOk call with
      | some key => resolver.look key
      | none => resolver := by
  rw [answer, AppHttpRouteResolver.request, lookedUp]
  cases Url.urlsplit netlocOk call.url with
  | none => rfl
  | some parts =>
    have hsnd : ∀ r r' r'' : Except RequestError Dispatch, ∀ p : Bool × AppHttpRouteResolver,
        ∀ c : Prop, ∀ _ : Decidable c,
          (if p.1 then (r, p.2) else if c then (r', p.2) else (r'', p.2)).2 = p.2 := by
      intro r r' r'' p c _
      split_ifs
      · rfl
      · rfl
      · rfl
    refine (hsnd _ _ _ (resolver.isLocalRequest lower upper call.method parts) _ _).trans ?_
    rw [isLocalRequest_snd]
    dsimp only
    split_ifs
    · rfl
    · rfl

/-- A call looks up its key, if it has one. -/
theorem Remembers.answer {routes : ApiRoutes} {maxsize : ℤ} {calls : List RequestCall}
    {resolver : AppHttpRouteResolver}
    (h : Remembers routes maxsize (calls.filterMap (lookedUp lower upper netlocOk)) resolver)
    (call : RequestCall) :
    Remembers routes maxsize ((calls ++ [call]).filterMap (lookedUp lower upper netlocOk))
      (answer lower upper netlocOk resolver call).2 := by
  rw [answer_snd, List.filterMap_append]
  cases hkey : lookedUp lower upper netlocOk call with
  | none =>
    rw [List.filterMap_cons_none hkey, List.filterMap_nil, List.append_nil]
    exact h
  | some key =>
    rw [List.filterMap_cons_some hkey, List.filterMap_nil]
    exact h.look key

theorem remembers_after (routes : List Route) (maxsize : ℤ) (calls : List RequestCall) :
    Remembers (ApiRoutes.ofApp upper routes) maxsize
      (calls.filterMap (lookedUp lower upper netlocOk))
      (after lower upper netlocOk routes maxsize calls) := by
  induction calls using List.reverseRecOn with
  | nil => exact ⟨rfl, rfl, Nat.zero_le _, rfl⟩
  | append_singleton calls call ih =>
    rw [after, Transition.runFrom_append]
    exact Remembers.answer lower upper netlocOk ih call

theorem memo_eq_plain (routes : List Route) (maxsize : ℤ) (calls : List RequestCall) :
    (∀ call parts, Url.urlsplit netlocOk call.url = some parts →
      Routed lower upper routes call parts
        (answer lower upper netlocOk (after lower upper netlocOk routes maxsize calls) call).1) ∧
    (∀ call,
      (answer lower upper netlocOk (after lower upper netlocOk routes maxsize calls) call).1 =
        (answer lower upper netlocOk (.ofApp upper routes maxsize) call).1) ∧
    ((after lower upper netlocOk routes maxsize calls).routeMatchLru.length : ℤ) ≤ max 1 maxsize ∧
    (after lower upper netlocOk routes maxsize calls).routeMatchLru.keys.getLast? =
      (calls.filterMap (lookedUp lower upper netlocOk)).getLast? := by
  have hafter := remembers_after lower upper netlocOk routes maxsize calls
  refine ⟨fun call parts hsplit => routed_answer lower netlocOk hafter.routes hsplit,
    fun call => answer_congr lower netlocOk hafter.routes call, ?_, hafter.newest⟩
  have hbounded := hafter.bounded
  rw [hafter.maxsize] at hbounded
  omega

end

end InprocessHttp

end AranesLms
