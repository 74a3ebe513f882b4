import AranesLms.Lib.Transition
import AranesLms.Plugins.GatewayView
import Mathlib.Logic.Function.Basic

/-!
# The cached list of services

`get_plugins` and `get_plugin` of `src/plugins/endpoints.py` with a gateway.  The requests of a
process are interleaved while `_fetch_gateway_services` waits for the gateway, which answers at some
moment of this time with the services that it has then; so a slow fetch can store a list that is
older than the one it replaces.  `along_reflects` bounds how old a list can be that is given to a
request.
-/

namespace AranesLms

namespace Plugins

open Gateway

structure GatewayServicesCacheEntry where
  gatewayUrl : String
  services : List PluginMappingRead
  expiresAt : ℕ

/-- `GET /plugins` and `GET /plugins/{plugin_name}`. -/
inductive Listing where
  | plugins (refresh : Bool)
  | plugin (pluginName : String)
  deriving DecidableEq

inductive Reply where
  | services (services : List PluginMappingRead)
  | service (service : PluginMappingRead)
  | notFound (detail : String)
  | raised (e : FetchError)

/-- The answer to a request that has the services. -/
def Listing.reply (services : List PluginMappingRead) : Listing → Reply
  | plugins _ => .services services
  | plugin pluginName =>
    match services.find? fun s => s.pluginName = pluginName with
    | some s => .service s
    | none => .notFound ("Plugin not found: " ++ pluginName)

/-- A request that waits for the gateway since `startedAt`. -/
structure Fetch where
  listing : Listing
  startedAt : ℕ

structure CoreState where
  cache : Option GatewayServicesCacheEntry
  now : ℕ
  fetches : ℕ → Option Fetch

inductive CoreEvent where
  | start (request : ℕ) (listing : Listing)
  | finish (request : ℕ) (answeredAt : ℕ)
  | elapse (ticks : ℕ)

/-- `max(0.0, float(configured))`. -/
def gatewayServicesCacheTtl (configured : ℤ) : ℕ := configured.toNat

namespace CoreState

variable (s : CoreState)

def init (now : ℕ) : CoreState := ⟨none, now, fun _ => none⟩

def readGatewayServicesCache (gatewayUrl : String) : Option (List PluginMappingRead) :=
  match s.cache with
  | none => none
  | some cached =>
    if cached.gatewayUrl ≠ gatewayUrl ∨ cached.expiresAt ≤ s.now then none else some cached.services

def writeGatewayServicesCache (gatewayUrl : String) (services : List PluginMappingRead)
    (ttl : ℕ) : CoreState :=
  if ttl = 0 then { s with cache := none }
  else { s with cache := some ⟨gatewayUrl, services, s.now + ttl⟩ }

def wait (request : ℕ) (listing : Listing) : CoreState :=
  { s with fetches := Function.update s.fetches request (some ⟨listing, s.now⟩) }

def resume (request : ℕ) : CoreState :=
  { s with fetches := Function.update s.fetches request none }

variable (gatewayUrl : String) (configured : ℤ)

/-- A request up to its answer from the cache, or to the fetch. -/
def start (request : ℕ) (listing : Listing) : Option Reply × CoreState :=
  if listing = .plugins true ∨ gatewayServicesCacheTtl configured = 0 then
    (none, s.wait request listing)
  else
    match s.readGatewayServicesCache gatewayUrl with
    | some services => (some (listing.reply services), s)
    | none => (none, s.wait request listing)

/-- The rest of a request, when the fetch has ended.  Without a time to live only a refresh goes on
to the cache, which it empties. -/
def finish (request : ℕ) (listing : Listing)
    (fetched : Except FetchError (List PluginMappingRead)) : Option Reply × CoreState :=
  match fetched with
  | .error e => (some (.raised e), s.resume request)
  | .ok services =>
    let ttl := gatewayServicesCacheTtl configured
    (some (listing.reply services),
      if listing = .plugins true ∨ ttl ≠ 0 then
        (s.resume request).writeGatewayServicesCache gatewayUrl services ttl
      else s.resume request)

variable (str : Json → String) (gateway : ℕ → Option Services)

/-- What the gateway answers at a moment, if it can be reached. -/
def gatewayAnswer (time : ℕ) : GatewayAnswer :=
  match gateway time with
  | some services => .response 200 (some (listServices services))
  | none => .raised

def handle : CoreEvent → Option Reply × CoreState
  | .start request listing => s.start gatewayUrl configured request listing
  | .finish request answeredAt =>
    match s.fetches request with
    | none => (none, s)
    | some fetch =>
      if fetch.startedAt ≤ answeredAt ∧ answeredAt ≤ s.now then
        s.finish gatewayUrl configured request fetch.listing
          (fetchGatewayServices str (gatewayAnswer gateway answeredAt))
      else (none, s)
  | .elapse ticks => (none, { s with now := s.now + ticks })

end CoreState

/-! ## How old a list can be -/

/-- The services at a moment, none if the gateway cannot be reached. -/
def servicesAt (gateway : ℕ → Option Services) (time : ℕ) : List PluginMappingRead :=
  ((gateway time).map gatewayView).getD []

section

variable {str : Json → String} (hstr : ∀ s, str (.str s) = s) (gateway : ℕ → Option Services)

include hstr

theorem fetch_gatewayAnswer (time : ℕ) :
    fetchGatewayServices str (CoreState.gatewayAnswer gateway time) =
      .ok (servicesAt gateway time) := by
  rw [CoreState.gatewayAnswer, servicesAt]
  cases gateway time with
  | none => rfl
  | some services => exact fetchGatewayServices_listServices hstr services

end

/-- A fetch does not take longer than `limit`. -/
def Timely (limit : ℕ) (s : CoreState) : CoreEvent → Prop
  | .finish request _ => ∀ fetch, s.fetches request = some fetch → s.now ≤ fetch.startedAt + limit
  | _ => True

/-- The cached list is what the gateway had at some moment, and when it was stored this was not
longer ago than `limit`. -/
def CacheReflects (gateway : ℕ → Option Services) (ttl limit : ℕ) (s : CoreState) : Prop :=
  ∀ entry, s.cache = some entry → ∃ time, time ≤ s.now ∧ entry.expiresAt ≤ time + limit + ttl ∧
    entry.services = servicesAt gateway time

/-- What an answer says of the gateway: without a fetch it is from less than `limit + ttl` ago, and
otherwise from the time of the fetch. -/
def ReplyReflects (gateway : ℕ → Option Services) (ttl limit : ℕ) (s : CoreState) (reply : Reply) :
    CoreEvent → Prop
  | .start _ listing => listing ≠ .plugins true ∧ 0 < ttl ∧ ∃ time, time ≤ s.now ∧
    s.now < time + limit + ttl ∧ reply = listing.reply (servicesAt gateway time)
  | .finish request time => ∃ fetch, s.fetches request = some fetch ∧ fetch.startedAt ≤ time ∧
    time ≤ s.now ∧ reply = fetch.listing.reply (servicesAt gateway time)
  | .elapse _ => False

namespace CoreState

variable {str : Json → String} {gateway : ℕ → Option Services} {configured : ℤ}
variable {gatewayUrl : String} {limit : ℕ} {s : CoreState}

theorem cache_writeGatewayServicesCache {services : List PluginMappingRead} {ttl : ℕ}
    {entry : GatewayServicesCacheEntry}
    (h : (s.writeGatewayServicesCache gatewayUrl services ttl).cache = some entry) :
    entry = ⟨gatewayUrl, services, s.now + ttl⟩ := by
  rw [writeGatewayServicesCache] at h
  split_ifs at h
  exact (Option.some.inj h).symm

theorem now_writeGatewayServicesCache (services : List PluginMappingRead) (ttl : ℕ) :
    (s.writeGatewayServicesCache gatewayUrl services ttl).now = s.now := by
  rw [writeGatewayServicesCache]
  split_ifs <;> rfl

theorem readGatewayServicesCache_eq_some {services : List PluginMappingRead} :
    s.readGatewayServicesCache gatewayUrl = some services ↔ ∃ entry, s.cache = some entry ∧
      entry.gatewayUrl = gatewayUrl ∧ s.now < entry.expiresAt ∧ entry.services = services := by
  rw [readGatewayServicesCache]
  cases s.cache with
  | none => simp
  | some entry => simp [and_assoc]

end CoreState

section

variable {str : Json → String} (hstr : ∀ s, str (.str s) = s) (gateway : ℕ → Option Services)
variable (gatewayUrl : String) (configured : ℤ) (limit : ℕ) {s : CoreState}

theorem CacheReflects.start {ttl : ℕ} (h : CacheReflects gateway ttl limit s) (request : ℕ)
    (listing : Listing) :
    CacheReflects gateway ttl limit (s.start gatewayUrl configured request listing).2 := by
  rw [CoreState.start]
  split_ifs
  · exact h
  · cases s.readGatewayServicesCache gatewayUrl with
    | none => exact h
    | some services => exact h

theorem reflects_start (h : CacheReflects gateway (gatewayServicesCacheTtl configured) limit s)
    {request : ℕ} {listing : Listing} {reply : Reply}
    (hreply : (s.start gatewayUrl configured request listing).1 = some reply) :
    ReplyReflects gateway (gatewayServicesCacheTtl configured) limit s reply
      (.start request listing) := by
  rw [CoreState.start] at hreply
  split_ifs at hreply with hfetch
  rw [not_or] at hfetch
  cases hread : s.readGatewayServicesCache gatewayUrl with
  | none =>
    rw [hread] at hreply
    cases hreply
  | some services =>
    rw [hread] at hreply
    cases hreply
    obtain ⟨entry, hentry, -, hlt, rfl⟩ := CoreState.readGatewayServicesCache_eq_some.1 hread
    obtain ⟨time, htime, hexpires, hservices⟩ := h entry hentry
    rw [hservices]
    exact ⟨hfetch.1, Nat.pos_of_ne_zero hfetch.2, time, htime, by omega, rfl⟩

include hstr in
/-- The step lemma: the cached list stays young enough, and so is the list of every answer. -/
theorem reflects_handle (h : CacheReflects gateway (gatewayServicesCacheTtl configured) limit s)
    {e : CoreEvent} (he : Timely limit s e) :
    CacheReflects gateway (gatewayServicesCacheTtl configured) limit
        (s.handle gatewayUrl configured str gateway e).2 ∧
      ∀ reply, (s.handle gatewayUrl configured str gateway e).1 = some reply →
        ReplyReflects gateway (gatewayServicesCacheTtl configured) limit s reply e := by
  cases e with
  | start request listing =>
    exact ⟨h.start gateway gatewayUrl configured limit request listing,
      fun reply hreply => reflects_start gateway gatewayUrl configured limit h hreply⟩
  | elapse ticks =>
    refine ⟨fun entry hentry => ?_, fun reply hreply => by cases hreply⟩
    obtain ⟨time, htime, hexpires, hservices⟩ := h entry hentry
    exact ⟨time, le_add_right htime, hexpires, hservices⟩
  | finish request time =>
    rw [CoreState.handle]
    cases hfetch : s.fetches request with
    | none => exact ⟨h, fun reply hreply => by cases hreply⟩
    | some fetch =>
      dsimp only
      split_ifs with htime
      · have hlimit := he fetch hfetch
        rw [fetch_gatewayAnswer hstr, CoreState.finish]
        refine ⟨?_, fun reply hreply => ?_⟩
        · dsimp only
          split_ifs
          · intro entry hentry
            have heq := CoreState.cache_writeGatewayServicesCache hentry
            rw [CoreState.now_writeGatewayServicesCache, heq]
            exact ⟨time, htime.2, by show s.now + _ ≤ _; omega, rfl⟩
          · exact h
        · cases hreply
          exact ⟨fetch, hfetch, htime.1, htime.2, rfl⟩
      · exact ⟨h, fun reply hreply => by cases hreply⟩

include hstr in
/-- In every run whose fetches take `limit` at most, an answer without a fetch gives the services
that the gateway had less than `limit` and the time to live ago, and any other answer those that it
had during the fetch. -/
theorem along_reflects {events : List CoreEvent} {now : ℕ}
    (h : Transition.Along (fun s e => (CoreState.handle s gatewayUrl configured str gateway e).2)
      (Timely limit) (.init now) events) :
    Transition.Along (fun s e => (CoreState.handle s gatewayUrl configured str gateway e).2)
      (fun s e => ∀ reply, (s.handle gatewayUrl configured str gateway e).1 = some reply →
        ReplyReflects gateway (gatewayServicesCacheTtl configured) limit s reply e)
      (.init now) events := by
  refine h.mono_of_preserved
    (J := CacheReflects gateway (gatewayServicesCacheTtl configured) limit) ?_ ?_ ?_
  · exact fun s e hs he => (reflects_handle hstr gateway gatewayUrl configured limit hs he).1
  · exact fun s e hs he => (reflects_handle hstr gateway gatewayUrl configured limit hs he).2
  · intro entry hentry
    cases hentry

/-- A gateway that runs the plugin `shop` at first and cannot be reached any more after that. -/
def sampleGateway (time : ℕ) : Option Services :=
  if time = 0 then
    some ⟨OrderedDict.set ∅ "shop" ⟨⟨"shop", 10000⟩, "shop", ⟨0, "shop"⟩, none⟩,
      Processes.empty.spawn "shop"⟩
  else none

/-- The gateway is gone when the second request is answered. -/
def sampleEvents : List CoreEvent :=
  [.start 0 (.plugins false), .elapse 1, .finish 0 0, .elapse 1, .start 1 (.plugin "shop")]

theorem along_reflects_sample :
    Transition.Along (fun s e =>
        (CoreState.handle s "http://gateway" 2 textOnly sampleGateway e).2)
      (fun s e => ∀ reply,
        (s.handle "http://gateway" 2 textOnly sampleGateway e).1 = some reply →
          ReplyReflects sampleGateway (gatewayServicesCacheTtl 2) 1 s reply e)
      (.init 0) sampleEvents := by
  refine along_reflects (fun _ => rfl) _ "http://gateway" 2 1 ⟨trivial, trivial, ?_, trivial,
    trivial, trivial⟩
  intro fetch hfetch
  cases hfetch
  decide

end

end Plugins

end AranesLms
