import AranesLms.Gateway.Proxy
import AranesLms.Lib.Except
import AranesLms.Lib.Transition

/-!
# Isolation of the clients of the proxy

The upstream request for a client should depend on nothing but the request of that client: it
should be the one that the gateway sends when nothing else has happened (`ownRequest`).  The shared
client breaks this, since a request without a `Cookie` header is given the cookies of the jar, which
come from responses to others.  `isolated_iff` says that this is the only way it breaks, and that
what is sent for a client who is spared it does not depend on the rest of the run.
-/

namespace AranesLms

namespace Gateway

variable {Jar : Type} (client : AsyncClient Jar) (parseCookies : String → List (String × String))
  (services : String → Option ManagedServiceRuntime)

/-! ## One request -/

theorem has_mergeHeaders {headers : Headers} :
    (mergeHeaders client headers).Has "cookie" ↔ headers.Has "cookie" := by
  constructor
  · rintro ⟨h, hmem, hname⟩
    rcases List.mem_append.1 hmem with hmem | hmem
    · exact absurd ⟨h, (List.mem_filter.1 hmem).1, hname⟩ client.headers_cookie
    · exact ⟨h, hmem, hname⟩
  · rintro ⟨h, hmem, hname⟩
    exact ⟨h, List.mem_append_right _ hmem, hname⟩

theorem has_forwarded {headers : Headers} :
    (headers.dict.pop "host").Has "cookie" ↔ headers.Has "cookie" := by
  rw [Headers.has_pop (by decide), Headers.has_dict]

theorem cookies_eq_nil {request : ClientRequest} (h : ¬ request.headers.Has "cookie") :
    request.cookies parseCookies = [] := by
  have hnone : request.headers.getlist "cookie" = [] := by
    rw [Headers.getlist, List.map_eq_nil_iff, List.filter_eq_nil_iff]
    intro header hmem hname
    exact h ⟨header, hmem, by simpa using hname⟩
  rw [ClientRequest.cookies, hnone, List.flatMap_nil]

/-- The jar adds no cookie: the request brings its own, or none of the jar matches. -/
def NoForeignCookie (jar : Jar) (service : ManagedServiceRuntime) (serviceName : String)
    (request : ClientRequest) : Prop :=
  request.headers.Has "cookie" ∨
    client.cookieHeader jar [] (upstreamUrl service serviceName request) = none

/-- The upstream request does not depend on the jar exactly when the jar adds no cookie. -/
theorem proxyRequest_eq_iff (jar : Jar) (running : Bool) (serviceName : String)
    (request : ClientRequest) :
    proxyRequest client parseCookies services jar running serviceName request =
        proxyRequest client parseCookies services client.emptyJar running serviceName request ↔
      ∀ service, services serviceName = some service → running →
        NoForeignCookie client jar service serviceName request := by
  cases hservice : services serviceName with
  | none => simp [proxyRequest, hservice]
  | some service =>
    by_cases hrunning : running
    · rw [proxyRequest, proxyRequest, hservice]
      simp only [hrunning, not_true_eq_false, if_false, Except.ok.injEq, Option.some.injEq,
        forall_eq', forall_const, buildRequest, UpstreamRequest.mk.injEq, true_and, and_true,
        has_mergeHeaders, has_forwarded, NoForeignCookie]
      by_cases hcookie : request.headers.Has "cookie"
      · simp only [hcookie, if_true, true_or]
      · simp only [hcookie, if_false, false_or, cookies_eq_nil parseCookies hcookie,
          client.cookieHeader_empty]
        cases client.cookieHeader jar [] (upstreamUrl service serviceName request) <;> simp
    · simp [proxyRequest, hservice, hrunning]

/-! ## Runs -/

/-- What the gateway sends for a request when nothing else has happened. -/
def ownRequest (running : Bool) (serviceName : String) (request : ClientRequest) :
    Option UpstreamRequest :=
  (proxyRequest client parseCookies services client.emptyJar running serviceName request).toOption

/-- Every upstream request is the one of its client. -/
def Isolated (s : State Jar) : Prop :=
  ∀ e ∈ s.sent, ownRequest client parseCookies services true e.serviceName e.request =
    some e.upstream

/-- Condition on a step: the jar adds no cookie to what is sent. -/
def OwnCookies (s : State Jar) : Event → Prop
  | .request _ running serviceName request =>
    ∀ service, services serviceName = some service → running →
      NoForeignCookie client s.jar service serviceName request
  | .response .. => True

variable {client parseCookies services} {s : State Jar}

/-- A request is sent upstream for a service that is known and running. -/
theorem proxyRequest_eq_ok {jar : Jar} {running : Bool} {serviceName : String}
    {request : ClientRequest} {upstream : UpstreamRequest} :
    proxyRequest client parseCookies services jar running serviceName request = .ok upstream ↔
      ∃ service, services serviceName = some service ∧ running ∧
        buildRequest client jar request.method (upstreamUrl service serviceName request)
          (request.headers.dict.pop "host") request.queryParams request.body
          (request.cookies parseCookies) = upstream := by
  rw [proxyRequest]
  cases services serviceName with
  | none => simp
  | some service =>
    cases running with
    | false => simp
    | true => simp

/-- An exception does not depend on the jar. -/
theorem proxyRequest_error {jar : Jar} (jar' : Jar) {running : Bool} {serviceName : String}
    {request : ClientRequest} {e : HttpException}
    (h : proxyRequest client parseCookies services jar running serviceName request = .error e) :
    proxyRequest client parseCookies services jar' running serviceName request = .error e := by
  unfold proxyRequest at h ⊢
  cases hservice : services serviceName with
  | none => rwa [hservice] at h
  | some service =>
    rw [hservice] at h
    by_cases hrunning : running
    · simp [hrunning] at h
    · simpa [hrunning] using h

/-- One step: from an isolated state, an isolated state is reached exactly when the jar adds no
cookie. -/
theorem Isolated.step_iff (h : Isolated client parseCookies services s) (e : Event) :
    Isolated client parseCookies services (step client parseCookies services s e) ↔
      OwnCookies client services s e := by
  cases e with
  | response i response =>
    rw [step]
    split <;> exact iff_of_true h trivial
  | request c running serviceName request =>
    rw [OwnCookies, ← proxyRequest_eq_iff client parseCookies services, step]
    cases hsent : proxyRequest client parseCookies services s.jar running serviceName request with
    | error e => exact iff_of_true h (proxyRequest_error client.emptyJar hsent).symm
    | ok upstream =>
      obtain ⟨-, -, rfl, -⟩ := proxyRequest_eq_ok.1 hsent
      rw [eq_comm, ← Except.toOption_eq_some]
      constructor
      · intro hafter
        exact hafter ⟨c, serviceName, request, upstream⟩
          (List.mem_append_right _ (List.mem_singleton_self _))
      · intro hown e he
        rcases List.mem_append.1 he with he | he
        · exact h e he
        · obtain rfl := List.mem_singleton.1 he
          exact hown

/-! ## Two runs -/

/-- The requests of one client in a run, with what it finds of their services. -/
def requestsOf (c : ℕ) : List Event → List (Bool × String × ClientRequest) :=
  List.filterMap fun
    | .request c' running serviceName request =>
      if c' = c then some (running, serviceName, request) else none
    | .response .. => none

/-- What is sent upstream for one client. -/
def sentFor (c : ℕ) (s : State Jar) : List UpstreamRequest :=
  (s.sent.filter fun e => e.client = c).map Sent.upstream

variable (client services) in
/-- Condition on a step: the jar adds no cookie to what is sent for one client. -/
def OwnCookiesOf (c : ℕ) (s : State Jar) : Event → Prop
  | .request c' running serviceName request =>
    c' = c → OwnCookies client services s (.request c' running serviceName request)
  | .response .. => True

theorem sentFor_step {c : ℕ} {e : Event} (he : OwnCookiesOf client services c s e) :
    sentFor c (step client parseCookies services s e) = sentFor c s ++
      (requestsOf c [e]).filterMap fun r =>
        ownRequest client parseCookies services r.1 r.2.1 r.2.2 := by
  cases e with
  | response i response =>
    rw [step]
    split <;> simp [sentFor, requestsOf]
  | request c' running serviceName request =>
    rw [step]
    by_cases hc : c' = c
    · have hown := (proxyRequest_eq_iff client parseCookies services s.jar running serviceName
        request).2 (he hc)
      have hrequests : requestsOf c [.request c' running serviceName request] =
          [(running, serviceName, request)] := by simp [requestsOf, hc]
      rw [hrequests, hown]
      cases hsent : proxyRequest client parseCookies services client.emptyJar running serviceName
          request with
      | error e => simp [ownRequest, hsent, Except.toOption]
      | ok upstream => simp [sentFor, ownRequest, hsent, Except.toOption, hc]
    · have hrequests : requestsOf c [.request c' running serviceName request] = [] := by
        simp [requestsOf, hc]
      rw [hrequests]
      cases proxyRequest client parseCookies services s.jar running serviceName request with
      | error e => simp
      | ok upstream => simp [sentFor, hc]

/-- What is sent for a client is what its requests alone give. -/
theorem sentFor_runFrom {c : ℕ} {events : List Event}
    (h : Transition.Along (step client parseCookies services) (OwnCookiesOf client services c) s
      events) :
    sentFor c (Transition.runFrom (step client parseCookies services) s events) = sentFor c s ++
      (requestsOf c events).filterMap fun r =>
        ownRequest client parseCookies services r.1 r.2.1 r.2.2 := by
  induction events generalizing s with
  | nil => simp [requestsOf]
  | cons e events ih =>
    have hcons : requestsOf c (e :: events) = requestsOf c [e] ++ requestsOf c events := by
      rw [requestsOf, ← List.filterMap_append, List.singleton_append]
    rw [Transition.runFrom_cons, ih h.2, sentFor_step h.1, hcons, List.filterMap_append,
      List.append_assoc]

variable (client parseCookies services)

/-- For any clients, services and responses: every upstream request in every state of a run is the
one of its client exactly when the jar never adds a cookie.  What is sent for a client to whose
requests the jar adds none is the same in all runs in which the client makes the same requests. -/
theorem isolated_iff (events : List Event) :
    (Transition.Always (step client parseCookies services) (Isolated client parseCookies services)
        (start client) events ↔
      Transition.Along (step client parseCookies services) (OwnCookies client services)
        (start client) events) ∧
    ∀ c events',
      Transition.Along (step client parseCookies services) (OwnCookiesOf client services c)
        (start client) events →
      Transition.Along (step client parseCookies services) (OwnCookiesOf client services c)
        (start client) events' →
      requestsOf c events = requestsOf c events' →
      sentFor c (Transition.runFrom (step client parseCookies services) (start client) events) =
        sentFor c (Transition.runFrom (step client parseCookies services) (start client)
          events') := by
  constructor
  · exact Transition.always_iff_along (J := Isolated client parseCookies services)
      (fun _ hs => hs) (fun _ e hs he => (hs.step_iff e).2 he)
      (fun _ e hs hafter => (hs.step_iff e).1 hafter)
      (fun _ he => absurd he List.not_mem_nil) events
  · intro c events' h h' hsame
    rw [sentFor_runFrom h, sentFor_runFrom h', hsame]

/-! ## A cookie of another client -/

/-- A client whose jar keeps names and values only. -/
def simpleClient : AsyncClient (List String) where
  headers := [("accept", "*/*"), ("accept-encoding", "gzip, deflate"),
    ("connection", "keep-alive"), ("user-agent", "python-httpx")]
  emptyJar := []
  extractCookies := fun jar _ setCookies =>
    jar ++ setCookies.map fun value => String.ofList (value.toList.takeWhile (· ≠ ';'))
  cookieHeader := fun jar cookies _ =>
    match jar ++ cookies.map fun cookie => cookie.1 ++ "=" ++ cookie.2 with
    | [] => none
    | pairs => some ("; ".intercalate pairs)
  headers_cookie := by decide
  cookieHeader_empty := fun _ => rfl

def forumAndShop : String → Option ManagedServiceRuntime
  | "forum" => some ⟨"forum", 10000⟩
  | "shop" => some ⟨"shop", 10001⟩
  | _ => none

/-- Client 0 logs in at one service, whose response sets a cookie; then client 1, who has none,
sends a request to another service. -/
def cookieRun : List Event :=
  [.request 0 true "forum" ⟨"POST", "/plg/forum/login", [("host", "lms")], [], []⟩,
    .response 0 ⟨200, [("set-cookie", "session=alice; Path=/")]⟩,
    .request 1 true "shop" ⟨"GET", "/plg/shop/cart", [("host", "lms")], [], []⟩]

/-- A client that sends its own cookie is spared the one of the other client. -/
theorem isolated_own_cookie :
    Transition.Always (step simpleClient (fun _ => []) forumAndShop)
      (Isolated simpleClient (fun _ => []) forumAndShop) (start simpleClient)
      (cookieRun.take 2 ++
        [.request 1 true "shop"
          ⟨"GET", "/plg/shop/cart", [("cookie", "session=bob")], [], []⟩]) := by
  refine (isolated_iff simpleClient (fun _ => []) forumAndShop _).1.2
    ⟨fun _ _ _ => Or.inr rfl, trivial, fun _ _ _ => Or.inl (by decide), trivial⟩

/-- The request of client 1 is sent with the cookie of client 0, and without it when client 0 has
done nothing. -/
theorem foreign_cookie_sent :
    requestsOf 1 cookieRun = requestsOf 1 (cookieRun.drop 2) ∧
    sentFor 1 (Transition.runFrom (step simpleClient (fun _ => []) forumAndShop)
        (start simpleClient) cookieRun) ≠
      sentFor 1 (Transition.runFrom (step simpleClient (fun _ => []) forumAndShop)
        (start simpleClient) (cookieRun.drop 2)) := by
  decide +kernel

end Gateway

end AranesLms
