import AranesLms.Auth.Staleness
import AranesLms.Lib.LengthPrefix
import AranesLms.Lib.Recency

/-!
# The cache of token identities

`_resolve_revocation_identity` of `src/auth/revocation.py`: a token that verifies is identified by
its `jti` until its expiry, any other token by a hash of its text.  What a verification has given is
kept in a cache of at most `_TOKEN_IDENTITY_CACHE_MAX_ENTRIES` entries, so that the token need not
be verified again.

`along_resolvesPlainly`: in every run the answers are those of a resolution without the cache, but
for the last second of a token.  The library that verifies is a parameter; a token that it accepts
once, it accepts until the last second before the expiry, with the same payload.  PyJWT compares the
time with the whole seconds of `exp`, whereas the cache keeps the fraction.
-/

namespace AranesLms

/-- `_TOKEN_IDENTITY_CACHE_MAX_ENTRIES`. -/
def tokenIdentityCacheMaxEntries : ℕ := 2048

/-- The `exp` of a verified payload, by its Python type; numbers and dates are given in
microseconds. -/
inductive ExpClaim where
  | text (s : String)
  | number (micros : ℕ)
  | datetime (micros : ℕ)
  | other

/-- What `_extract_jti_and_exp` reads of a verified payload. -/
structure VerifiedPayload where
  jti : Option String
  exp : Option ExpClaim

/-- The date behind an `exp`, with `datetime.fromisoformat` for the texts. -/
def ExpClaim.date? (fromisoformat : String → Option ℕ) : ExpClaim → Option ℕ
  | .text s => fromisoformat s
  | .number micros | .datetime micros => some micros
  | .other => none

/-- What `_extract_jti_and_exp` makes of a verified payload. -/
def VerifiedPayload.identity? (fromisoformat : String → Option ℕ) (payload : VerifiedPayload) :
    Option (String × ℕ) :=
  match payload.jti, payload.exp with
  | some tokenJti, some tokenExp =>
    if tokenJti = "" then none
    else (tokenExp.date? fromisoformat).map fun normalizedExp => (tokenJti, normalizedExp)
  | _, _ => none

/-- An `AuthX`, with its `id` and what it verifies with. -/
structure AuthX (σ : Type) where
  id : ℕ
  config : σ

/-- The libraries behind the identity of a token: `AuthX.verify_token` at a time, and
`hashlib.sha256` of a text, in hexadecimal. -/
structure TokenLib (σ : Type) where
  verifyToken : σ → String → ℕ → Option VerifiedPayload
  fromisoformat : String → Option ℕ
  sha256 : String → String

/-- A token that has been accepted is accepted until the last second before its expiry, with the
same payload. -/
def TokenLib.AcceptsUntilLastSecond {σ : Type} (lib : TokenLib σ) : Prop :=
  ∀ config t m n payload tokenJti tokenExp, lib.verifyToken config t m = some payload →
    payload.identity? lib.fromisoformat = some (tokenJti, tokenExp) → m ≤ n →
      n + second < tokenExp → lib.verifyToken config t n = some payload

/-- `_token_identity_cache`. -/
abbrev IdentityCache := OrderedDict String (String × ℕ)

/-- A process: its clock and its cache. -/
structure IdentityWorker where
  clock : ℕ
  cache : IdentityCache

/-- A call reads the clock up to three times; `d₀` passes before the token is verified, and `d₁`
from there to the reading of the fallback. -/
inductive IdentityEvent (σ : Type) where
  | tick (d : ℕ)
  | resolve (security : AuthX σ) (t : String) (d₀ d₁ : ℕ)

def IdentityEvent.call? {σ : Type} : IdentityEvent σ → Option (AuthX σ × String)
  | .tick _ => none
  | .resolve security t _ _ => some (security, t)

namespace TokenLib

variable {σ : Type} (lib : TokenLib σ)

/-- `_token_cache_key`. -/
def tokenCacheKey (t : String) : String := lib.sha256 t

/-- `_build_token_identity_cache_key`. -/
def buildTokenIdentityCacheKey (t : String) (security : AuthX σ) : String :=
  toString security.id ++ ":" ++ lib.tokenCacheKey t

/-- `_build_raw_token_revocation_key`. -/
def buildRawTokenRevocationKey (t : String) : String := "raw:" ++ lib.sha256 t

/-- The identity that a verification at the given time yields. -/
def verifiedIdentity (config : σ) (t : String) (now : ℕ) : Option (String × ℕ) :=
  (lib.verifyToken config t now).bind (VerifiedPayload.identity? lib.fromisoformat)

/-- The part of `_extract_jti_and_exp` behind a miss. -/
def extractVerified (cache : IdentityCache) (security : AuthX σ) (t : String) (now : ℕ) :
    Option (String × ℕ) × IdentityCache :=
  match lib.verifiedIdentity security.config t now with
  | some identity =>
    (some identity, (cache.setLast (lib.buildTokenIdentityCacheKey t security) identity).dropOldest
      tokenIdentityCacheMaxEntries)
  | none => (none, cache)

/-- `_extract_jti_and_exp`; nothing for a `ValueError`. -/
def extractJtiAndExp (cache : IdentityCache) (security : AuthX σ) (t : String)
    (now verifiedAt : ℕ) : Option (String × ℕ) × IdentityCache :=
  let cacheKey := lib.buildTokenIdentityCacheKey t security
  match cache.get? cacheKey with
  | some (tokenJti, tokenExp) =>
    if now < tokenExp then (some (tokenJti, tokenExp), cache.moveToEnd cacheKey)
    else lib.extractVerified (cache.pop cacheKey) security t verifiedAt
  | none => lib.extractVerified cache security t verifiedAt

/-- `_resolve_revocation_identity`, for what `_extract_jti_and_exp` gives. -/
def orFallback (t : String) (identity : Option (String × ℕ)) (now : ℕ) : String × ℕ :=
  identity.getD (lib.buildRawTokenRevocationKey t, now + fallbackRawTokenTtl)

variable (s : IdentityWorker)

/-- `_resolve_revocation_identity`. -/
def resolveRevocationIdentity (security : AuthX σ) (t : String) (d₀ d₁ : ℕ) :
    (String × ℕ) × IdentityWorker :=
  let (identity, cache) := lib.extractJtiAndExp s.cache security t s.clock (s.clock + d₀)
  (lib.orFallback t identity (s.clock + d₀ + d₁), ⟨s.clock + d₀ + d₁, cache⟩)

def step : IdentityEvent σ → IdentityWorker
  | .tick d => { s with clock := s.clock + d }
  | .resolve security t d₀ d₁ => (lib.resolveRevocationIdentity s security t d₀ d₁).2

/-- The answer is that of a resolution that verifies the token while the call runs, or in the last
second of the token the identity of an earlier verification. -/
def ResolvesPlainly : IdentityEvent σ → Prop
  | .resolve security t d₀ d₁ =>
    (∃ verifiedAt, s.clock ≤ verifiedAt ∧ verifiedAt ≤ s.clock + d₀ ∧
      (lib.resolveRevocationIdentity s security t d₀ d₁).1 =
        lib.orFallback t (lib.verifiedIdentity security.config t verifiedAt)
          (s.clock + d₀ + d₁)) ∨
    ∃ verifiedAt tokenJti tokenExp, verifiedAt ≤ s.clock ∧
      lib.verifiedIdentity security.config t verifiedAt = some (tokenJti, tokenExp) ∧
      s.clock < tokenExp ∧ tokenExp ≤ s.clock + second ∧
      (lib.resolveRevocationIdentity s security t d₀ d₁).1 = (tokenJti, tokenExp)
  | .tick _ => True

/-- No `AuthX` has the `id` of another one, as one made where another was freed would have, and no
two tokens the same hash. -/
def Distinguishes (calls : List (AuthX σ × String)) : Prop :=
  ∀ call ∈ calls, ∀ call' ∈ calls, (call.1.id = call'.1.id → call.1 = call'.1) ∧
    (lib.sha256 call.2 = lib.sha256 call'.2 → call.2 = call'.2)

/-- The cache is bounded and holds what has been verified, in calls of the run. -/
structure Sound (calls : List (AuthX σ × String)) : Prop where
  bounded : s.cache.length ≤ tokenIdentityCacheMaxEntries
  verified : ∀ key identity, (key, identity) ∈ s.cache → ∃ security t verifiedAt,
    (security, t) ∈ calls ∧ lib.buildTokenIdentityCacheKey t security = key ∧
      verifiedAt ≤ s.clock ∧ lib.verifiedIdentity security.config t verifiedAt = some identity

/-- The text of a key, given the `jti` of each token. -/
def keyText (jti : String → String) : RevocationKey String → String
  | .jti t => jti t
  | .raw t => lib.buildRawTokenRevocationKey t

/-- For a token that is accepted until its expiry, one in whole seconds, this is without the cache
the resolution that the model of the revocations starts from. -/
theorem orFallback_verifiedIdentity {exp : String → Option ℕ} {jti : String → String} {config : σ}
    {t : String} {now : ℕ} (h : lib.verifiedIdentity config t now =
      (exp t).bind fun tokenExp => if now < tokenExp then some (jti t, tokenExp) else none) :
    lib.orFallback t (lib.verifiedIdentity config t now) now =
      (lib.keyText jti (AranesLms.resolveRevocationIdentity exp t now).1,
        (AranesLms.resolveRevocationIdentity exp t now).2) := by
  rw [h, orFallback, AranesLms.resolveRevocationIdentity]
  cases exp t with
  | none => rfl
  | some tokenExp =>
    rw [Option.bind_some]
    split_ifs with hvalid
    · simp only [if_pos hvalid]
      rfl
    · simp only [if_neg hvalid]
      rfl

/-! ## One call -/

variable {lib} {s} {calls : List (AuthX σ × String)}

theorem verifiedIdentity_mono (hlib : lib.AcceptsUntilLastSecond) {config : σ} {t : String}
    {m n : ℕ} {identity : String × ℕ} (h : lib.verifiedIdentity config t m = some identity)
    (hmn : m ≤ n) (hn : n + second < identity.2) :
    lib.verifiedIdentity config t n = some identity := by
  obtain ⟨payload, hverify, hidentity⟩ := Option.bind_eq_some_iff.1 h
  have hstill := hlib config t m n payload identity.1 identity.2 hverify hidentity hmn hn
  exact Option.bind_eq_some_iff.2 ⟨payload, hstill, hidentity⟩

/-- Within the run a key stands for one `AuthX` and one token. -/
theorem Distinguishes.eq_of_key (h : lib.Distinguishes calls) {security security' : AuthX σ}
    {t t' : String} (hcall : (security, t) ∈ calls) (hcall' : (security', t') ∈ calls)
    (hkey : lib.buildTokenIdentityCacheKey t security =
      lib.buildTokenIdentityCacheKey t' security') : security = security' ∧ t = t' := by
  obtain ⟨hid, hhash⟩ := @Framing.toString_append_inj ':' rfl _ _ _ _ hkey
  obtain ⟨hsecurity, htoken⟩ := h _ hcall _ hcall'
  exact ⟨hsecurity hid, htoken hhash⟩

/-- What a miss leads to. -/
theorem extractVerified_fst (cache : IdentityCache) (security : AuthX σ) (t : String) (now : ℕ) :
    (lib.extractVerified cache security t now).1 =
      lib.verifiedIdentity security.config t now := by
  rw [extractVerified]
  cases lib.verifiedIdentity security.config t now with
  | none => rfl
  | some identity => rfl

theorem Sound.of_subset (h : lib.Sound s calls) {cache : IdentityCache} {clock : ℕ}
    (hclock : s.clock ≤ clock) (hlength : cache.length ≤ s.cache.length)
    (hsub : ∀ e ∈ cache, e ∈ s.cache) : lib.Sound ⟨clock, cache⟩ calls where
  bounded := hlength.trans h.bounded
  verified key identity he := by
    obtain ⟨security, t, m, hcall, hkey, hm, hverified⟩ := h.verified key identity (hsub _ he)
    exact ⟨security, t, m, hcall, hkey, hm.trans hclock, hverified⟩

/-- A verification adds what it has found, and removes the oldest entries. -/
theorem Sound.extractVerified (h : lib.Sound s calls) {security : AuthX σ} {t : String}
    (hcall : (security, t) ∈ calls) :
    lib.Sound ⟨s.clock, (lib.extractVerified s.cache security t s.clock).2⟩ calls := by
  rw [TokenLib.extractVerified]
  cases hverified : lib.verifiedIdentity security.config t s.clock with
  | none => exact h
  | some identity =>
    refine ⟨?_, fun key identity' he => ?_⟩
    · dsimp only
      rw [OrderedDict.length_dropOldest]
      exact min_le_left _ _
    · rcases s.cache.mem_setLast.1 (OrderedDict.mem_of_mem_dropOldest _ he) with ⟨hold, -⟩ | hnew
      · exact h.verified key identity' hold
      · cases hnew
        exact ⟨security, t, s.clock, hcall, rfl, le_rfl, hverified⟩

theorem Sound.resolve (h : lib.Sound s calls) {security : AuthX σ} {t : String}
    (hcall : (security, t) ∈ calls) (d₀ d₁ : ℕ) :
    lib.Sound (lib.resolveRevocationIdentity s security t d₀ d₁).2 calls := by
  have hlater : ∀ {cache : IdentityCache}, lib.Sound ⟨s.clock + d₀, cache⟩ calls →
      lib.Sound ⟨s.clock + d₀ + d₁, cache⟩ calls := fun h =>
    h.of_subset (Nat.le_add_right _ _) le_rfl fun _ he => he
  rw [resolveRevocationIdentity]
  refine hlater ?_
  rw [extractJtiAndExp]
  cases hget : s.cache.get? (lib.buildTokenIdentityCacheKey t security) with
  | none =>
    have hwait : lib.Sound ⟨s.clock + d₀, s.cache⟩ calls :=
      h.of_subset (Nat.le_add_right _ _) le_rfl fun _ he => he
    exact hwait.extractVerified hcall
  | some identity =>
    dsimp only
    split_ifs with hvalid
    · refine h.of_subset (Nat.le_add_right _ _) ?_ fun e he => s.cache.mem_moveToEnd.1 he
      rw [OrderedDict.length_moveToEnd]
    · have hpop : lib.Sound
          ⟨s.clock + d₀, s.cache.pop (lib.buildTokenIdentityCacheKey t security)⟩ calls :=
        h.of_subset (Nat.le_add_right _ _) (List.length_filter_le _ _)
          fun e he => (s.cache.mem_pop.1 he).1
      exact hpop.extractVerified hcall

/-- The call is one of the run. -/
def Within (calls : List (AuthX σ × String)) (event : IdentityEvent σ) : Prop :=
  ∀ call ∈ event.call?, call ∈ calls

theorem Sound.step (h : lib.Sound s calls) {event : IdentityEvent σ} (hevent : Within calls event) :
    lib.Sound (lib.step s event) calls := by
  cases event with
  | tick d => exact h.of_subset (Nat.le_add_right _ _) le_rfl fun _ he => he
  | resolve security t d₀ d₁ => exact h.resolve (hevent _ rfl) d₀ d₁

/-- An entry that is valid when the clock is read is what a verification would give then, until the
last second. -/
theorem Sound.resolvesPlainly (h : lib.Sound s calls) (hlib : lib.AcceptsUntilLastSecond)
    (hcalls : lib.Distinguishes calls) {event : IdentityEvent σ} (hevent : Within calls event) :
    lib.ResolvesPlainly s event := by
  cases event with
  | tick d => trivial
  | resolve security t d₀ d₁ =>
    have hmiss : ∀ cache : IdentityCache,
        (lib.extractVerified cache security t (s.clock + d₀)).1 =
          lib.verifiedIdentity security.config t (s.clock + d₀) :=
      fun cache => extractVerified_fst cache security t (s.clock + d₀)
    simp only [ResolvesPlainly, resolveRevocationIdentity, extractJtiAndExp]
    cases hget : s.cache.get? (lib.buildTokenIdentityCacheKey t security) with
    | none =>
      refine Or.inl ⟨s.clock + d₀, Nat.le_add_right _ _, le_rfl, ?_⟩
      rw [← hmiss s.cache]
    | some identity =>
      dsimp only
      split_ifs with hvalid
      · obtain ⟨security', t', m, hcall', hsame, hm, hverified⟩ :=
          h.verified _ _ (s.cache.get?_eq_some.1 hget)
        obtain ⟨rfl, rfl⟩ := hcalls.eq_of_key hcall' (hevent _ rfl) hsame
        by_cases hlast : s.clock + second < identity.2
        · refine Or.inl ⟨s.clock, le_rfl, Nat.le_add_right _ _, ?_⟩
          rw [verifiedIdentity_mono hlib hverified hm hlast]
        · exact Or.inr ⟨m, identity.1, identity.2, hm, hverified, hvalid, not_lt.1 hlast, rfl⟩
      · refine Or.inl ⟨s.clock + d₀, Nat.le_add_right _ _, le_rfl, ?_⟩
        rw [← hmiss (s.cache.pop (lib.buildTokenIdentityCacheKey t security))]

/-! ## Every run -/

/-- Tokens are resolved in any order, at any times: every answer is that of a resolution without
the cache, but for the last second of a token, and the cache stays bounded. -/
theorem along_resolvesPlainly (hlib : lib.AcceptsUntilLastSecond) (clock : ℕ)
    (events : List (IdentityEvent σ))
    (hcalls : lib.Distinguishes (events.filterMap IdentityEvent.call?)) :
    Transition.Along lib.step (fun s event => lib.ResolvesPlainly s event ∧
      s.cache.length ≤ tokenIdentityCacheMaxEntries) ⟨clock, ∅⟩ events := by
  have hstart : lib.Sound ⟨clock, ∅⟩ (events.filterMap IdentityEvent.call?) :=
    ⟨Nat.zero_le _, fun key identity he => absurd he (OrderedDict.notMem_empty _)⟩
  have hwithin : ∀ event ∈ events, Within (events.filterMap IdentityEvent.call?) event :=
    fun event hevent call hcall => List.mem_filterMap.2 ⟨event, hevent, hcall⟩
  refine (Transition.along_of_forall hwithin _).mono_of_preserved
    (J := fun s => lib.Sound s (events.filterMap IdentityEvent.call?)) ?_ ?_ hstart
  · exact fun s event h hevent => h.step hevent
  · exact fun s event h hevent => ⟨h.resolvesPlainly hlib hcalls hevent, h.bounded⟩

/-- A token that expires after one and a half seconds. -/
def sampleToken : String :=
  "eyJhbGciOiJIUzI1NiIsInR5cCI6IkpXVCJ9.eyJleHAiOjEuNSwianRpIjoiaiJ9." ++
    "Oywe6Pqjr2ziRmNfuqDTrg-RGOo-HmAnbI-rDFPtb1w"

/-- The token is signed with the key; it is accepted for one second. -/
def sampleLib : TokenLib String where
  verifyToken key t now :=
    if key = "sample-secret-key-sample-secret-key" ∧ t = sampleToken ∧ now < second then
      some ⟨some "j", some (.number 1500000)⟩
    else none
  fromisoformat _ := none
  sha256 t :=
    if t = sampleToken then "46a28905e7d65715e3b7a9ef5c43333fbe1acc9e10b0212bd929be70aa9ac816"
    else if t = "abcd" then "88d4266fd4e6338d13b845fcf289579d209c897823b9217da3e161936f031589"
    else ""

def sampleSecurity : AuthX String := ⟨1, "sample-secret-key-sample-secret-key"⟩

/-- The token is resolved when it is new, when it is refused already, and when it has expired, and a
text that is no token in between. -/
def sampleResolutions : List (IdentityEvent String) :=
  [.resolve sampleSecurity sampleToken 10 0, .tick 1200000, .resolve sampleSecurity "abcd" 10 10,
    .resolve ⟨2, "another-secret-key-another-secret-key"⟩ sampleToken 10 10,
    .resolve sampleSecurity sampleToken 10 0, .tick 400000,
    .resolve sampleSecurity sampleToken 10 10]

theorem along_resolvesPlainly_sample :
    Transition.Along sampleLib.step (fun s event => sampleLib.ResolvesPlainly s event ∧
      s.cache.length ≤ tokenIdentityCacheMaxEntries) ⟨0, ∅⟩ sampleResolutions ∧
    (sampleLib.resolveRevocationIdentity (Transition.runFrom sampleLib.step ⟨0, ∅⟩
      (sampleResolutions.take 4)) sampleSecurity sampleToken 10 0).1 = ("j", 1500000) ∧
    sampleLib.verifiedIdentity sampleSecurity.config sampleToken 1200000 = none := by
  refine ⟨along_resolvesPlainly ?_ 0 _ ?_, by decide +kernel, by decide +kernel⟩
  · intro key t m n payload tokenJti tokenExp hm hid hmn hn
    simp only [sampleLib] at hm hid ⊢
    split_ifs at hm with haccepted
    cases hm
    simp only [VerifiedPayload.identity?, ExpClaim.date?] at hid
    split_ifs at hid
    cases hid
    have hnow : n < second := by
      rw [second] at hn ⊢
      omega
    rw [if_pos ⟨haccepted.1, haccepted.2.1, hnow⟩]
  · have hpairs : ∀ call ∈ sampleResolutions.filterMap IdentityEvent.call?,
        ∀ call' ∈ sampleResolutions.filterMap IdentityEvent.call?,
          (call.1.id = call'.1.id → call.1.config = call'.1.config) ∧
            (sampleLib.sha256 call.2 = sampleLib.sha256 call'.2 → call.2 = call'.2) := by
      decide +kernel
    intro call hcall call' hcall'
    obtain ⟨hconfig, hhash⟩ := hpairs call hcall call' hcall'
    refine ⟨fun hid => ?_, hhash⟩
    cases hcall1 : call.1
    cases hcall2 : call'.1
    simp only [hcall1, hcall2] at hid hconfig
    rw [hid, hconfig hid]

end TokenLib

end AranesLms
