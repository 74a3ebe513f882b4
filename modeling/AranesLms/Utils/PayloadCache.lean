import AranesLms.Lib.JsonText
import AranesLms.Utils.RateLimit

/-!
# Cached payloads

`set_json`, `get_json` and the other calls of `RedisCacheService` of `src/utils/cache.py`, made by
any number of processes on one Redis.  A command that raises may have been carried out all the same,
and Redis may drop a key at any time.  `get_json` gives up its turn before it deletes a text that it
cannot decode.

What is written for a payload and read from it is a `Codec`: the services use `texts`, and with
`payloads` the entries are the payloads themselves.  The two give the same answers
(`outputs_texts`), and an answer is the payload of the last `set_json` that was carried out
(`answer_getJson_iff`).
-/

namespace AranesLms

open RateLimit (RedisCacheService RedisError)

namespace PayloadCache

abbrev PayloadDict := OrderedDict String Json

/-- What became of a command: it may have been carried out although it raised. -/
inductive Outcome where
  | answered
  | raised (carriedOut : Bool)

namespace Outcome

def reply : Outcome → Except RedisError Unit
  | answered => .ok ()
  | raised _ => .error .mk

def carriedOut : Outcome → Bool
  | answered => true
  | raised carriedOut => carriedOut

end Outcome

structure Codec (τ : Type) where
  write : PayloadDict → τ
  read : τ → Option Json

/-- `json.dumps` and `json.loads`. -/
def texts : Codec (List Char) where
  write payload := JsonText.dumps (.obj payload)
  read := JsonText.loads

/-- The payloads themselves, in the order of their keys. -/
def payloads : Codec PayloadDict where
  write := id
  read payload := some (JsonText.sortKeys (.obj payload))

/-- What is under a key, and until when. -/
structure Entry (τ : Type) where
  value : τ
  expiresAt : ℕ

/-- The time is in milliseconds; `purges` are the deletions of texts that could not be decoded. -/
structure State (τ : Type) where
  services : ℕ → RedisCacheService
  server : String → Option (Entry τ)
  now : ℕ
  purges : List (ℕ × String)

inductive Call where
  | setJson (cacheKey : String) (payload : PayloadDict) (ttlSeconds : Option ℤ) (outcome : Outcome)
  | getJson (cacheKey : String) (fails : Bool)
  | delete (cacheKey : String) (outcome : Outcome)
  | deleteMany (cacheKeys : List String) (outcome : Outcome)
  | ping (reply : Except RedisError Bool)

inductive Event where
  | call (process : ℕ) (call : Call)
  | purge (process : ℕ) (cacheKey : String) (outcome : Outcome)
  | drop (cacheKey : String)
  | elapse (millis : ℕ)

/-- `ttl_seconds or self.default_ttl_seconds`. -/
def expiry (defaultTtlSeconds : ℤ) (ttlSeconds : Option ℤ) : ℤ :=
  match ttlSeconds with
  | some ttl => if ttl = 0 then defaultTtlSeconds else ttl
  | none => defaultTtlSeconds

variable {τ : Type}

namespace State

variable (defaultTtlSeconds : ℤ) (codec : Codec τ) (s : State τ)

def setService (process : ℕ) (service : RedisCacheService) : State τ :=
  { s with services := Function.update s.services process service }

/-- What a `GET` of the key gives. -/
def live (cacheKey : String) : Option τ :=
  (s.server cacheKey).bind fun e => if s.now < e.expiresAt then some e.value else none

def put (cacheKey : String) (entry : Entry τ) : State τ :=
  { s with server := Function.update s.server cacheKey (some entry) }

/-- Remove keys from the server. -/
def remove (cacheKeys : List String) : State τ :=
  { s with server := fun k => if k ∈ cacheKeys then none else s.server k }

/-- `delete`, or `delete_many` for some keys. -/
def delete (process : ℕ) (cacheKeys : List String) (outcome : Outcome) : State τ :=
  let service := s.services process
  let s' := if service.configured && outcome.carriedOut then s.remove cacheKeys else s
  s'.setService process (service.command outcome.reply)

/-- `set_json`.  The server rejects an expiry that is not positive. -/
def setJson (process : ℕ) (cacheKey : String) (payload : PayloadDict) (ttlSeconds : Option ℤ)
    (outcome : Outcome) : State τ :=
  let service := s.services process
  let seconds := expiry defaultTtlSeconds ttlSeconds
  if seconds ≤ 0 then s.setService process (service.setJson (.error .mk))
  else
    let entry : Entry τ := ⟨codec.write payload, s.now + 1000 * seconds.toNat⟩
    let s' := if service.configured && outcome.carriedOut then s.put cacheKey entry else s
    s'.setService process (service.setJson outcome.reply)

/-- The reply to the `GET` of `get_json`. -/
def raw (cacheKey : String) (fails : Bool) : Except RedisError (Option (Option Json)) :=
  if fails then .error .mk else .ok ((s.live cacheKey).map codec.read)

/-- `get_json` up to the deletion of a text that is not JSON. -/
def getJson (process : ℕ) (cacheKey : String) (fails : Bool) :
    Option PayloadDict × State τ :=
  let service := s.services process
  let result := service.getJson (s.raw codec cacheKey fails) (.ok ())
  let undecodable := service.configured && !fails && (s.live cacheKey).any fun v =>
    (codec.read v).isNone
  let purges := if undecodable then s.purges ++ [(process, cacheKey)] else s.purges
  (result.1, { s with purges }.setService process result.2)

/-- The deletion of such a text. -/
def purge (process : ℕ) (cacheKey : String) (outcome : Outcome) : State τ :=
  if (process, cacheKey) ∈ s.purges then
    { s with purges := s.purges.erase (process, cacheKey) }.delete process [cacheKey] outcome
  else s

def run (process : ℕ) : Call → Option (Option PayloadDict) × State τ
  | .setJson cacheKey payload ttlSeconds outcome =>
    (none, s.setJson defaultTtlSeconds codec process cacheKey payload ttlSeconds outcome)
  | .getJson cacheKey fails =>
    (some (s.getJson codec process cacheKey fails).1, (s.getJson codec process cacheKey fails).2)
  | .delete cacheKey outcome => (none, s.delete process [cacheKey] outcome)
  | .deleteMany cacheKeys outcome =>
    (none, if cacheKeys = [] then s else s.delete process cacheKeys outcome)
  | .ping reply => (none, s.setService process ((s.services process).ping reply).2)

/-- What an event answers, if it is the end of a `get_json`. -/
def handle : Event → Option (Option PayloadDict) × State τ
  | .call process call => s.run defaultTtlSeconds codec process call
  | .purge process cacheKey outcome => (none, s.purge process cacheKey outcome)
  | .drop cacheKey => (none, s.remove [cacheKey])
  | .elapse millis => (none, { s with now := s.now + millis })

/-- Nothing is cached. -/
def init (services : ℕ → RedisCacheService) : State τ := ⟨services, fun _ => none, 0, []⟩

end State

/-! ## Texts and payloads -/

/-- The payload that a call stores can be written. -/
def Event.Writable : Event → Prop
  | .call _ (.setJson _ payload _ _) => JsonText.Writable (.obj payload)
  | _ => True

namespace State

/-- The state with texts in the place of the payloads. -/
def encode (t : State PayloadDict) : State (List Char) where
  services := t.services
  server := fun k => (t.server k).map fun e => ⟨texts.write e.value, e.expiresAt⟩
  now := t.now
  purges := t.purges

/-- Every entry can be written, and none is being deleted because it cannot be read. -/
structure Decodable (t : State PayloadDict) : Prop where
  writable : ∀ k e, t.server k = some e → JsonText.Writable (.obj e.value)
  purges : t.purges = []

variable {t : State PayloadDict}

theorem decodable_init (services : ℕ → RedisCacheService) : (init services).Decodable :=
  ⟨by simp [init], rfl⟩

theorem Decodable.setService (h : t.Decodable) (process : ℕ) (service : RedisCacheService) :
    (t.setService process service).Decodable := ⟨h.writable, h.purges⟩

theorem Decodable.remove (h : t.Decodable) (cacheKeys : List String) :
    (t.remove cacheKeys).Decodable := by
  refine ⟨fun k e he => ?_, h.purges⟩
  simp only [State.remove] at he
  split_ifs at he
  exact h.writable k e he

theorem Decodable.put (h : t.Decodable) (cacheKey : String) {entry : Entry PayloadDict}
    (hentry : JsonText.Writable (.obj entry.value)) : (t.put cacheKey entry).Decodable := by
  refine ⟨fun k e he => ?_, h.purges⟩
  by_cases hk : k = cacheKey
  · simp only [State.put, hk, Function.update_self] at he
    cases he
    exact hentry
  · simp only [State.put, Function.update_of_ne hk] at he
    exact h.writable k e he

theorem encode_put (cacheKey : String) (entry : Entry PayloadDict) :
    (t.put cacheKey entry).encode =
      t.encode.put cacheKey ⟨texts.write entry.value, entry.expiresAt⟩ := by
  simp only [encode, State.put, State.mk.injEq, true_and, and_true]
  funext k
  by_cases hk : k = cacheKey
  · rw [hk, Function.update_self, Function.update_self, Option.map_some]
  · rw [Function.update_of_ne hk, Function.update_of_ne hk]

theorem encode_setService (process : ℕ) (service : RedisCacheService) :
    (t.setService process service).encode = t.encode.setService process service := rfl

theorem encode_remove (cacheKeys : List String) :
    (t.remove cacheKeys).encode = t.encode.remove cacheKeys := by
  simp only [encode, remove, State.mk.injEq, true_and, and_true]
  funext k
  split_ifs <;> rfl

theorem live_encode (cacheKey : String) :
    t.encode.live cacheKey = (t.live cacheKey).map texts.write := by
  simp only [live, encode]
  cases t.server cacheKey with
  | none => rfl
  | some e =>
    by_cases hlt : t.now < e.expiresAt
    · simp [hlt]
    · simp [hlt]

theorem live_eq_some {s : State τ} {cacheKey : String} {v : τ} :
    s.live cacheKey = some v ↔
      ∃ e, s.server cacheKey = some e ∧ s.now < e.expiresAt ∧ e.value = v := by
  simp only [live, Option.bind_eq_some_iff, Option.ite_none_right_eq_some, Option.some.injEq]

theorem Decodable.read_write (h : t.Decodable) {cacheKey : String} {payload : PayloadDict}
    (hlive : t.live cacheKey = some payload) :
    texts.read (texts.write payload) = payloads.read payload := by
  obtain ⟨e, he, -, rfl⟩ := live_eq_some.1 hlive
  exact JsonText.loads_dumps (h.writable _ _ he)

theorem Decodable.raw_encode (h : t.Decodable) (cacheKey : String) (fails : Bool) :
    t.encode.raw texts cacheKey fails = t.raw payloads cacheKey fails := by
  rw [raw, raw, live_encode, Option.map_map]
  split_ifs
  · rfl
  · exact congrArg Except.ok (Option.map_congr fun payload hlive => h.read_write hlive)

/-- No text is found that cannot be decoded. -/
theorem Decodable.purges_getJson (h : t.Decodable) (cacheKey : String) :
    ((t.live cacheKey).any fun v => (payloads.read v).isNone) = false ∧
      ((t.encode.live cacheKey).any fun v => (texts.read v).isNone) = false := by
  rw [live_encode]
  cases hlive : t.live cacheKey with
  | none => exact ⟨rfl, rfl⟩
  | some payload =>
    refine ⟨rfl, ?_⟩
    rw [Option.map_some, Option.any_some, h.read_write hlive]
    rfl

/-- The step of the texts is the encoded step of the payloads, with the same answer. -/
structure Encoded (r : Option (Option PayloadDict) × State (List Char))
    (r' : Option (Option PayloadDict) × State PayloadDict) : Prop where
  answer : r.1 = r'.1
  state : r.2 = r'.2.encode
  decodable : r'.2.Decodable

theorem Decodable.delete (h : t.Decodable) (process : ℕ) (cacheKeys : List String)
    (outcome : Outcome) :
    t.encode.delete process cacheKeys outcome = (t.delete process cacheKeys outcome).encode ∧
      (t.delete process cacheKeys outcome).Decodable := by
  simp only [State.delete]
  have hservices : t.encode.services = t.services := rfl
  rw [hservices]
  split_ifs
  · exact ⟨by rw [encode_setService, encode_remove], (h.remove cacheKeys).setService _ _⟩
  · exact ⟨(encode_setService _ _).symm, h.setService _ _⟩

theorem Decodable.setJson (h : t.Decodable) {payload : PayloadDict}
    (hpayload : JsonText.Writable (.obj payload)) (defaultTtlSeconds : ℤ) (process : ℕ)
    (cacheKey : String) (ttlSeconds : Option ℤ) (outcome : Outcome) :
    t.encode.setJson defaultTtlSeconds texts process cacheKey payload ttlSeconds outcome =
        (t.setJson defaultTtlSeconds payloads process cacheKey payload ttlSeconds outcome).encode ∧
      (t.setJson defaultTtlSeconds payloads process cacheKey payload ttlSeconds
        outcome).Decodable := by
  have hservices : t.encode.services = t.services := rfl
  have hnow : t.encode.now = t.now := rfl
  simp only [State.setJson, hservices, hnow]
  split_ifs
  · exact ⟨(encode_setService _ _).symm, h.setService _ _⟩
  · exact ⟨by rw [encode_setService, encode_put]; rfl, (h.put cacheKey hpayload).setService _ _⟩
  · exact ⟨(encode_setService _ _).symm, h.setService _ _⟩

theorem Decodable.handle (h : t.Decodable) (defaultTtlSeconds : ℤ) {e : Event} (he : e.Writable) :
    Encoded (t.encode.handle defaultTtlSeconds texts e)
      (t.handle defaultTtlSeconds payloads e) := by
  cases e with
  | call process call =>
    cases call with
    | setJson cacheKey payload ttlSeconds outcome =>
      obtain ⟨hstate, hdecodable⟩ :=
        h.setJson he defaultTtlSeconds process cacheKey ttlSeconds outcome
      exact ⟨rfl, hstate, hdecodable⟩
    | getJson cacheKey fails =>
      have hraw := h.raw_encode cacheKey fails
      obtain ⟨hpayload, htext⟩ := h.purges_getJson cacheKey
      have hservices : t.encode.services = t.services := rfl
      simp only [State.handle, State.run, State.getJson, hraw, hpayload, htext, hservices,
        Bool.and_false]
      exact ⟨rfl, rfl, h.setService _ _⟩
    | delete cacheKey outcome =>
      obtain ⟨hstate, hdecodable⟩ := h.delete process [cacheKey] outcome
      exact ⟨rfl, hstate, hdecodable⟩
    | deleteMany cacheKeys outcome =>
      obtain ⟨hstate, hdecodable⟩ := h.delete process cacheKeys outcome
      simp only [State.handle, State.run]
      split_ifs
      · exact ⟨rfl, rfl, h⟩
      · exact ⟨rfl, hstate, hdecodable⟩
    | ping reply => exact ⟨rfl, rfl, h.setService _ _⟩
  | purge process cacheKey outcome =>
    have hpurges : t.encode.purges = t.purges := rfl
    simp only [State.handle, State.purge, hpurges, h.purges, List.not_mem_nil, if_false]
    exact ⟨rfl, rfl, h⟩
  | drop cacheKey => exact ⟨rfl, (encode_remove _).symm, h.remove _⟩
  | elapse millis => exact ⟨rfl, rfl, h.writable, h.purges⟩

end State

section

variable (defaultTtlSeconds : ℤ) (services : ℕ → RedisCacheService) {events : List Event}

/-- The state after some events. -/
def after (codec : Codec τ) (events : List Event) : State τ :=
  Transition.runFrom (fun s e => (s.handle defaultTtlSeconds codec e).2) (State.init services)
    events

theorem after_texts (h : ∀ e ∈ events, e.Writable) :
    after defaultTtlSeconds services texts events =
        (after defaultTtlSeconds services payloads events).encode ∧
      (after defaultTtlSeconds services payloads events).Decodable := by
  induction events using List.reverseRecOn with
  | nil => exact ⟨rfl, State.decodable_init services⟩
  | append_singleton events e ih =>
    obtain ⟨hstate, hdecodable⟩ := ih fun e he => h e (List.mem_append_left _ he)
    have hencoded := hdecodable.handle defaultTtlSeconds (h e (by simp))
    rw [← hstate] at hencoded
    rw [after, after, Transition.runFrom_append, Transition.runFrom_append]
    exact ⟨hencoded.state, hencoded.decodable⟩

/-- With entries that are JSON texts the calls of any run are answered as with the payloads in their
place, the keys in order, and no text is ever deleted because it cannot be decoded. -/
theorem outputs_texts (h : ∀ e ∈ events, e.Writable) :
    Transition.outputs (State.handle defaultTtlSeconds texts) (State.init services) events =
        Transition.outputs (State.handle defaultTtlSeconds payloads) (State.init services) events ∧
      Transition.Always (fun s e => (s.handle defaultTtlSeconds texts e).2) (fun s => s.purges = [])
        (State.init services) events := by
  constructor
  · refine Transition.outputs_eq_of_simulation (R := fun s t => s = t.encode ∧ t.Decodable)
      (C := fun _ e => e.Writable) ?_ (Transition.along_of_forall h _)
      ⟨rfl, State.decodable_init services⟩
    rintro s t e ⟨rfl, ht⟩ he
    have hencoded := ht.handle defaultTtlSeconds he
    exact ⟨hencoded.answer, hencoded.state, hencoded.decodable⟩
  · refine (Transition.always_iff_initial _ _).2 fun pre hpre => ?_
    obtain ⟨hstate, hdecodable⟩ :=
      after_texts defaultTtlSeconds services fun e he => h e (hpre.subset he)
    show (after defaultTtlSeconds services texts pre).purges = []
    rw [hstate]
    exact hdecodable.purges

/-- A process stores a payload, which another one reads when the clock has gone on. -/
def sampleEvents : List Event :=
  [.call 0 (.setJson "rbac:role:1" ⟨[("name", .str "Größe"), ("id", .number "1")], by decide⟩ none
      (.raised true)),
    .elapse 59999, .call 1 (.getJson "rbac:role:1" false)]

theorem writable_sampleEvents : ∀ e ∈ sampleEvents, e.Writable := by
  refine List.forall_mem_cons.2 ⟨?_, by simp [Event.Writable]⟩
  show JsonText.Writable _
  decide

theorem outputs_texts_sample :
    Transition.outputs (State.handle 60 texts) (State.init fun _ => ⟨true, some 0, true⟩)
        sampleEvents =
      Transition.outputs (State.handle 60 payloads) (State.init fun _ => ⟨true, some 0, true⟩)
        sampleEvents ∧
    Transition.Always (fun s e => (s.handle 60 texts e).2) (fun s => s.purges = [])
      (State.init fun _ => ⟨true, some 0, true⟩) sampleEvents :=
  outputs_texts 60 (fun _ => ⟨true, some 0, true⟩) writable_sampleEvents

/-! ## Which payload is read -/

/-- The payload that the event stores under the key, and for how long. -/
def Event.stores? (cacheKey : String) : Event → Option (PayloadDict × ℕ)
  | .call process (.setJson k payload ttlSeconds outcome) =>
    if k = cacheKey ∧ (services process).configured ∧ outcome.carriedOut ∧
        0 < expiry defaultTtlSeconds ttlSeconds then
      some (payload, 1000 * (expiry defaultTtlSeconds ttlSeconds).toNat)
    else none
  | _ => none

/-- The event removes the key. -/
def Event.Removes (cacheKey : String) : Event → Prop
  | .call process (.delete k outcome) =>
    cacheKey = k ∧ (services process).configured ∧ outcome.carriedOut
  | .call process (.deleteMany ks outcome) =>
    cacheKey ∈ ks ∧ (services process).configured ∧ outcome.carriedOut
  | .drop k => cacheKey = k
  | _ => False

def Event.millis : Event → ℕ
  | .elapse millis => millis
  | _ => 0

def elapsed (events : List Event) : ℕ := events.foldr (fun e n => e.millis + n) 0

end

namespace State

variable {defaultTtlSeconds : ℤ} {services : ℕ → RedisCacheService}

/-- No key is to be purged, and the services are configured as at first. -/
structure Sound (services : ℕ → RedisCacheService) (s : State PayloadDict) : Prop where
  purges : s.purges = []
  configured : ∀ process, (s.services process).configured = (services process).configured

/-- What an event does: to the entries, and to the clock. -/
structure Effect (defaultTtlSeconds : ℤ) (services : ℕ → RedisCacheService) (s : State PayloadDict)
    (e : Event) (s' : State PayloadDict) : Prop where
  sound : s'.Sound services
  now : s'.now = s.now + e.millis
  stored : ∀ k payload life, e.stores? defaultTtlSeconds services k = some (payload, life) →
    s'.server k = some ⟨payload, s.now + life⟩
  removed : ∀ k, e.Removes services k → s'.server k = none
  kept : ∀ k, e.stores? defaultTtlSeconds services k = none → ¬ e.Removes services k →
    s'.server k = s.server k

variable {s : State PayloadDict}

theorem Sound.setService (h : s.Sound services) (process : ℕ) {service : RedisCacheService}
    (hservice : service.enabled = (s.services process).enabled ∧
      service.client = (s.services process).client) :
    (s.setService process service).Sound services := by
  refine ⟨h.purges, fun p => ?_⟩
  rw [← h.configured p]
  by_cases hp : p = process
  · subst hp
    simp only [State.setService, Function.update_self, RedisCacheService.configured, hservice.1,
      hservice.2]
  · simp only [State.setService, Function.update_of_ne hp]

theorem Sound.delete (h : s.Sound services) (process : ℕ) (cacheKeys : List String)
    (outcome : Outcome) :
    (s.delete process cacheKeys outcome).Sound services ∧
      (s.delete process cacheKeys outcome).now = s.now ∧
      ∀ k, (s.delete process cacheKeys outcome).server k =
        if k ∈ cacheKeys ∧ (services process).configured ∧ outcome.carriedOut then none
        else s.server k := by
  have hservice := (s.services process).command_client outcome.reply
  have hconfigured := h.configured process
  simp only [State.delete, hconfigured, Bool.and_eq_true]
  split_ifs with hdone
  · refine ⟨?_, rfl, fun k => ?_⟩
    · exact Sound.setService (s := s.remove cacheKeys) ⟨h.purges, h.configured⟩ process hservice
    · simp only [State.setService, State.remove, hdone, and_true]
  · refine ⟨h.setService process hservice, rfl, fun k => ?_⟩
    rw [if_neg fun hk => hdone hk.2]
    rfl

theorem Sound.setJson (h : s.Sound services) (process : ℕ) (cacheKey : String)
    (payload : PayloadDict) (ttlSeconds : Option ℤ) (outcome : Outcome) :
    Effect defaultTtlSeconds services s
      (.call process (.setJson cacheKey payload ttlSeconds outcome))
      (s.setJson defaultTtlSeconds payloads process cacheKey payload ttlSeconds outcome) := by
  have hservice := fun reply => (s.services process).command_client reply
  have hconfigured := h.configured process
  simp only [State.setJson, hconfigured, Bool.and_eq_true]
  split_ifs with hseconds hdone
  · refine ⟨h.setService process (hservice _), rfl, fun k _ _ hstores => ?_, fun _ => False.elim,
      fun _ _ _ => rfl⟩
    simp only [Event.stores?, Option.ite_none_right_eq_some] at hstores
    exact absurd hstores.1.2.2.2 (not_lt.2 hseconds)
  · have hsound : (s.put cacheKey ⟨payloads.write payload,
        s.now + 1000 * (expiry defaultTtlSeconds ttlSeconds).toNat⟩).Sound services :=
      ⟨h.purges, h.configured⟩
    refine ⟨hsound.setService process (hservice _), rfl, fun k _ _ hstores => ?_,
      fun _ => False.elim, fun k hstores _ => ?_⟩
    · simp only [Event.stores?, Option.ite_none_right_eq_some, Option.some.injEq,
        Prod.mk.injEq] at hstores
      obtain ⟨⟨rfl, -⟩, rfl, rfl⟩ := hstores
      simp only [State.setService, State.put, Function.update_self]
      rfl
    · have hk : k ≠ cacheKey := by
        rintro rfl
        simp [Event.stores?, hdone.1, hdone.2, not_le.1 hseconds] at hstores
      simp only [State.setService, State.put, Function.update_of_ne hk]
  · refine ⟨h.setService process (hservice _), rfl, fun k _ _ hstores => ?_, fun _ => False.elim,
      fun _ _ _ => rfl⟩
    simp only [Event.stores?, Option.ite_none_right_eq_some] at hstores
    exact absurd ⟨hstores.1.2.1, hstores.1.2.2.1⟩ hdone

theorem Sound.handle (h : s.Sound services) (e : Event) :
    Effect defaultTtlSeconds services s e (s.handle defaultTtlSeconds payloads e).2 := by
  cases e with
  | call process call =>
    cases call with
    | setJson cacheKey payload ttlSeconds outcome =>
      exact h.setJson process cacheKey payload ttlSeconds outcome
    | getJson cacheKey fails =>
      have hservice := RateLimit.CacheCall.run_client (s.services process)
        (.getJson (s.raw payloads cacheKey fails) (.ok ()))
      have hreadable : ((s.live cacheKey).any fun v => (payloads.read v).isNone) = false := by
        cases s.live cacheKey <;> rfl
      simp only [State.handle, State.run, State.getJson, hreadable, Bool.and_false]
      exact ⟨h.setService process hservice, rfl, by simp [Event.stores?], fun _ => False.elim,
        fun _ _ _ => rfl⟩
    | delete cacheKey outcome =>
      obtain ⟨hsound, hnow, hserver⟩ := h.delete process [cacheKey] outcome
      refine ⟨hsound, hnow, by simp [Event.stores?], fun k hk => ?_, fun k _ hk => ?_⟩
      · exact (hserver k).trans (if_pos (by simpa [Event.Removes] using hk))
      · exact (hserver k).trans (if_neg (by simpa [Event.Removes] using hk))
    | deleteMany cacheKeys outcome =>
      obtain ⟨hsound, hnow, hserver⟩ := h.delete process cacheKeys outcome
      simp only [State.handle, State.run]
      split_ifs with hnil
      · subst hnil
        exact ⟨h, rfl, by simp [Event.stores?], fun k hk => absurd hk.1 List.not_mem_nil,
          fun _ _ _ => rfl⟩
      · exact ⟨hsound, hnow, by simp [Event.stores?], fun k hk => (hserver k).trans (if_pos hk),
          fun k _ hk => (hserver k).trans (if_neg hk)⟩
    | ping reply =>
      have hservice := RateLimit.CacheCall.run_client (s.services process) (.ping reply)
      exact ⟨h.setService process hservice, rfl, by simp [Event.stores?], fun _ => False.elim,
        fun _ _ _ => rfl⟩
  | purge process cacheKey outcome =>
    have hnone : s.purge process cacheKey outcome = s := by
      rw [State.purge, h.purges, if_neg List.not_mem_nil]
    simp only [State.handle, hnone]
    exact ⟨h, rfl, by simp [Event.stores?], fun _ => False.elim, fun _ _ _ => rfl⟩
  | drop cacheKey =>
    refine ⟨⟨h.purges, h.configured⟩, rfl, by simp [Event.stores?], fun k hk => ?_,
      fun k _ hk => ?_⟩
    · exact if_pos (List.mem_singleton.2 hk)
    · exact if_neg fun hmem => hk (List.mem_singleton.1 hmem)
  | elapse millis =>
    exact ⟨⟨h.purges, h.configured⟩, rfl, by simp [Event.stores?], fun _ => False.elim,
      fun _ _ _ => rfl⟩

theorem answer_getJson (t : State PayloadDict) (process : ℕ) (cacheKey : String) (fails : Bool) :
    (t.handle defaultTtlSeconds payloads (.call process (.getJson cacheKey fails))).1 =
      some (if (t.services process).configured ∧ fails = false then
        (t.live cacheKey).bind fun payload => (JsonText.sortKeys (.obj payload)).asDict?
      else none) := by
  by_cases hconfigured : (t.services process).configured
  · cases fails with
    | true =>
      have hnot : ¬ ((t.services process).configured ∧ true = false) := nofun
      simp only [State.handle, State.run, State.getJson, State.raw, RedisCacheService.getJson,
        if_pos hconfigured, if_true, if_neg hnot]
    | false =>
      simp only [State.handle, State.run, State.getJson, State.raw, RedisCacheService.getJson,
        hconfigured]
      cases t.live cacheKey <;> rfl
  · have hnot : ¬ ((t.services process).configured ∧ fails = false) := fun h => hconfigured h.1
    simp only [State.handle, State.run, State.getJson, RedisCacheService.getJson,
      if_neg hconfigured, if_neg hnot]

end State

section

variable (defaultTtlSeconds : ℤ) (services : ℕ → RedisCacheService) {events : List Event}

/-- The payload was stored `age` milliseconds ago, for `life` milliseconds, and the key has not been
stored or removed since. -/
def LastStored (cacheKey : String) (events : List Event) (payload : PayloadDict)
    (life age : ℕ) : Prop :=
  ∃ pre e post, events = pre ++ e :: post ∧
    e.stores? defaultTtlSeconds services cacheKey = some (payload, life) ∧ elapsed post = age ∧
    ∀ e' ∈ post, e'.stores? defaultTtlSeconds services cacheKey = none ∧
      ¬ e'.Removes services cacheKey

theorem elapsed_append (events events' : List Event) :
    elapsed (events ++ events') = elapsed events + elapsed events' := by
  induction events with
  | nil => exact (Nat.zero_add _).symm
  | cons e events ih => exact (congrArg (e.millis + ·) ih).trans (Nat.add_assoc _ _ _).symm

theorem LastStored.age_le {cacheKey : String} {payload : PayloadDict} {life age : ℕ}
    (h : LastStored defaultTtlSeconds services cacheKey events payload life age) :
    age ≤ elapsed events := by
  obtain ⟨pre, e, post, rfl, -, rfl, -⟩ := h
  rw [← List.singleton_append, elapsed_append, elapsed_append]
  omega

/-- The last event stores the key, or has nothing to do with it and the payload is from before. -/
theorem lastStored_append {cacheKey : String} {e : Event} {payload : PayloadDict} {life age : ℕ} :
    LastStored defaultTtlSeconds services cacheKey (events ++ [e]) payload life age ↔
      (e.stores? defaultTtlSeconds services cacheKey = some (payload, life) ∧ age = 0) ∨
      (e.stores? defaultTtlSeconds services cacheKey = none ∧ ¬ e.Removes services cacheKey ∧
        ∃ age', age = age' + e.millis ∧
          LastStored defaultTtlSeconds services cacheKey events payload life age') := by
  constructor
  · rintro ⟨pre, e', post, heq, hstores, rfl, hpost⟩
    rcases List.eq_nil_or_concat post with rfl | ⟨post, e'', rfl⟩
    · obtain ⟨-, heq⟩ := List.append_inj' heq rfl
      obtain rfl : e = e' := (List.cons.inj heq).1
      exact Or.inl ⟨hstores, rfl⟩
    · rw [List.concat_eq_append] at heq hpost ⊢
      have hconcat : events ++ [e] = (pre ++ e' :: post) ++ [e''] := by simpa using heq
      obtain ⟨rfl, hsingle⟩ := List.append_inj' hconcat rfl
      obtain rfl : e = e'' := (List.cons.inj hsingle).1
      obtain ⟨hnone, hremoves⟩ := hpost e (by simp)
      refine Or.inr ⟨hnone, hremoves, elapsed post, ?_, pre, e', post, rfl, hstores, rfl,
        fun d hd => hpost d (List.mem_append_left _ hd)⟩
      rw [elapsed_append]
      rfl
  · rintro (⟨hstores, rfl⟩ | ⟨hnone, hremoves, age', rfl, pre, e', post, rfl, hstores, rfl, hpost⟩)
    · exact ⟨events, e, [], rfl, hstores, rfl, by simp⟩
    · refine ⟨pre, e', post ++ [e], by simp, hstores, by rw [elapsed_append]; rfl, ?_⟩
      intro d hd
      rcases List.mem_append.1 hd with hd | hd
      · exact hpost d hd
      · rw [List.mem_singleton.1 hd]
        exact ⟨hnone, hremoves⟩

/-- After any run the server has under a key what was last stored there. -/
theorem after_payloads (events : List Event) :
    (after defaultTtlSeconds services payloads events).Sound services ∧
      (after defaultTtlSeconds services payloads events).now = elapsed events ∧
      ∀ k payload expiresAt,
        (after defaultTtlSeconds services payloads events).server k = some ⟨payload, expiresAt⟩ ↔
          ∃ life age, LastStored defaultTtlSeconds services k events payload life age ∧
            (after defaultTtlSeconds services payloads events).now + life = expiresAt + age := by
  induction events using List.reverseRecOn with
  | nil =>
    refine ⟨⟨rfl, fun _ => rfl⟩, rfl, fun k payload expiresAt => ?_⟩
    constructor
    · intro h
      cases h
    · rintro ⟨life, age, ⟨pre, e, post, heq, -⟩, -⟩
      simp at heq
  | append_singleton events e ih =>
    obtain ⟨hsound, hnow, hserver⟩ := ih
    have heffect : State.Effect defaultTtlSeconds services _ e _ := hsound.handle e
    have hafter : after defaultTtlSeconds services payloads (events ++ [e]) =
        ((after defaultTtlSeconds services payloads events).handle defaultTtlSeconds payloads
          e).2 := by
      rw [after, Transition.runFrom_append]
      rfl
    rw [← hafter] at heffect
    refine ⟨heffect.sound, ?_, fun k payload expiresAt => ?_⟩
    · rw [heffect.now, hnow, elapsed_append]
      rfl
    simp only [lastStored_append, heffect.now]
    cases hstores : e.stores? defaultTtlSeconds services k with
    | some stored =>
      obtain ⟨payload', life'⟩ := stored
      rw [heffect.stored k payload' life' hstores]
      have hmillis : e.millis = 0 := by
        cases e with
        | elapse millis => cases hstores
        | _ => rfl
      rw [hmillis]
      constructor
      · intro h
        cases h
        exact ⟨life', 0, Or.inl ⟨rfl, rfl⟩, rfl⟩
      · rintro ⟨life, age, ⟨heq, rfl⟩ | ⟨hnone, -⟩, hexpires⟩
        · cases heq
          rw [Nat.add_zero, Nat.add_zero] at hexpires
          rw [hexpires]
        · cases hnone
    | none =>
      by_cases hremoves : e.Removes services k
      · rw [heffect.removed k hremoves]
        constructor
        · intro h
          cases h
        · rintro ⟨life, age, ⟨heq, -⟩ | ⟨-, hkept, -⟩, -⟩
          · cases heq
          · exact absurd hremoves hkept
      · rw [heffect.kept k hstores hremoves, hserver]
        constructor
        · rintro ⟨life, age, hlast, hexpires⟩
          exact ⟨life, age + e.millis, Or.inr ⟨rfl, hremoves, age, rfl, hlast⟩, by omega⟩
        · rintro ⟨life, age, ⟨heq, -⟩ | ⟨-, -, age', rfl, hlast⟩, hexpires⟩
          · cases heq
          · exact ⟨life, age', hlast, by omega⟩

/-- What `get_json` answers on texts: the payload last stored under the key, with its keys in order,
if it was stored less than its time to live ago and the `GET` does not raise. -/
theorem answer_getJson_iff (h : ∀ e ∈ events, e.Writable) (process : ℕ) (cacheKey : String)
    (fails : Bool) (answer : PayloadDict) :
    ((after defaultTtlSeconds services texts events).handle defaultTtlSeconds texts
        (.call process (.getJson cacheKey fails))).1 = some (some answer) ↔
      ((services process).configured ∧ fails = false) ∧ ∃ payload life age,
        LastStored defaultTtlSeconds services cacheKey events payload life age ∧ age < life ∧
          JsonText.sortKeys (.obj payload) = .obj answer := by
  obtain ⟨hstate, hdecodable⟩ := after_texts defaultTtlSeconds services h
  obtain ⟨hsound, hnow, hserver⟩ := after_payloads defaultTtlSeconds services events
  have hencoded := hdecodable.handle defaultTtlSeconds
    (e := .call process (.getJson cacheKey fails)) trivial
  rw [hstate, hencoded.answer, State.answer_getJson, hsound.configured]
  generalize after defaultTtlSeconds services payloads events = t at hnow hserver
  have hlive : ∀ payload, t.live cacheKey = some payload ↔ ∃ life age,
      LastStored defaultTtlSeconds services cacheKey events payload life age ∧ age < life := by
    intro payload
    rw [State.live_eq_some]
    constructor
    · rintro ⟨⟨_, expiresAt⟩, he, hlt, rfl⟩
      obtain ⟨life, age, hlast, hexpires⟩ := (hserver _ _ _).1 he
      dsimp only at hlt
      exact ⟨life, age, hlast, by omega⟩
    · rintro ⟨life, age, hlast, hlt⟩
      have hage : age ≤ t.now := hnow ▸ hlast.age_le
      exact ⟨⟨payload, t.now + life - age⟩, (hserver _ _ _).2 ⟨life, age, hlast, by omega⟩,
        by dsimp only; omega, rfl⟩
  rw [Option.some.injEq, Option.ite_none_right_eq_some, Option.bind_eq_some_iff]
  refine and_congr_right fun _ => exists_congr fun payload => ?_
  rw [hlive, Json.asDict?_eq_some]
  constructor
  · rintro ⟨⟨life, age, hlast, hlt⟩, hanswer⟩
    exact ⟨life, age, hlast, hlt, hanswer⟩
  · rintro ⟨life, age, hlast, hlt, hanswer⟩
    exact ⟨⟨life, age, hlast, hlt⟩, hanswer⟩

/-- What another process reads a millisecond before the entry expires. -/
theorem answer_getJson_sample :
    ((after 60 (fun _ => ⟨true, some 0, true⟩) texts sampleEvents).handle 60 texts
      (.call 1 (.getJson "rbac:role:1" false))).1 =
        some (some ⟨[("id", .number "1"), ("name", .str "Größe")], by decide⟩) := by
  refine (answer_getJson_iff 60 _ writable_sampleEvents 1 "rbac:role:1" false _).2
    ⟨⟨rfl, rfl⟩, _, 60000, 59999, ⟨[], _, _, rfl, rfl, rfl, ?_⟩, by decide, by decide⟩
  refine List.forall_mem_cons.2 ⟨⟨rfl, id⟩, List.forall_mem_cons.2 ⟨⟨rfl, id⟩, ?_⟩⟩
  exact fun _ h => absurd h List.not_mem_nil

end

end PayloadCache

end AranesLms
