import AranesLms.I18n.Cache
import AranesLms.Lib.LengthPrefix
import AranesLms.Lib.PyStr

/-!
# The Redis keys of the translations

The key builders of `src/i18n/cache.py`, over the strings of Python, surrogates included; on a
`String` they are `TranslationKind.cacheKey` (`ofString_cacheKey_small`,
`ofString_cacheKey_large`), so that no two translations share a Redis key (`cacheKey_injective`).

The two parts of a large key stand behind their lengths, so `largeCacheKeys_never_collide`: the
Redis key determines them, and it is no other key of the cache.
-/

namespace AranesLms

open PyStr

def buildSmallCacheKey (key : PyStr) : PyStr := ofString "i18n:small:" ++ key

def buildSmallListCacheKey : PyStr := ofString "i18n:small:list"

def buildLargeCacheKey (key1 key2 : PyStr) : PyStr :=
  ofString "i18n:large:" ++ ofNat key1.length ++ ofString ":" ++ key1 ++ ofString "|" ++
    ofNat key2.length ++ ofString ":" ++ key2

def buildLargeListCacheKey : PyStr := ofString "i18n:large:list"

/-! ## The keys of the cache -/

theorem ofString_cacheKey_small (key : String) :
    ofString (TranslationKind.small.cacheKey key) = buildSmallCacheKey (ofString key) :=
  ofString_append _ _

theorem ofString_cacheKey_large (key : String ×ₗ String) :
    ofString (TranslationKind.large.cacheKey key) =
      buildLargeCacheKey (ofString (ofLex key).1) (ofString (ofLex key).2) := by
  rw [buildLargeCacheKey, ofNat, ofNat, length_ofString, length_ofString]
  simp only [← ofString_append]
  rfl

/-! ## Decoding a large key -/

/-- A part of a large key: its length, a colon and its text. -/
def keyFraming : Framing CodePoint := .decimal ofChar ofChar_injective ':' (by decide)

theorem frame_keyFraming (key : PyStr) :
    keyFraming.frame key = ofNat key.length ++ ofString ":" ++ key := by
  have hnumeral : ofNat key.length = keyFraming.numeral key.length := by
    rw [ofNat, ofString, Nat.toString_eq_ofList_toDigits, String.toList_ofList]
    rfl
  rw [hnumeral, List.append_assoc]
  rfl

theorem buildLargeCacheKey_eq (key1 key2 : PyStr) : buildLargeCacheKey key1 key2 =
    ofString "i18n:large:" ++
      (keyFraming.frame key1 ++ (ofString "|" ++ keyFraming.frame key2)) := by
  simp only [buildLargeCacheKey, frame_keyFraming, List.append_assoc]

theorem buildLargeCacheKey_injective : Function.Injective2 buildLargeCacheKey := by
  intro key1 key1' key2 key2' h
  rw [buildLargeCacheKey_eq, buildLargeCacheKey_eq] at h
  obtain ⟨hkey1, hrest⟩ := Framing.frame_append_inj (List.append_cancel_left h)
  exact ⟨hkey1, Framing.frame_injective (List.append_cancel_left hrest)⟩

/-- A digit follows `i18n:large:`. -/
theorem buildLargeCacheKey_ne_list (key1 key2 : PyStr) :
    buildLargeCacheKey key1 key2 ≠ buildLargeListCacheKey := by
  obtain ⟨c, rest, hdigit, hframe⟩ : ∃ c rest, c.isDigit = true ∧
      keyFraming.frame key1 = ofChar c :: rest := Framing.exists_frame_decimal key1
  intro h
  have hlist : buildLargeListCacheKey = ofString "i18n:large:" ++ ofString "list" :=
    ofString_append "i18n:large:" "list"
  rw [buildLargeCacheKey_eq, hframe, hlist, List.cons_append] at h
  have hc : ofChar c = ofChar 'l' := (List.cons.inj (List.append_cancel_left h)).1
  rw [ofChar_injective hc] at hdigit
  exact absurd hdigit (by decide)

theorem buildLargeCacheKey_ne_small (key1 key2 key : PyStr) :
    buildLargeCacheKey key1 key2 ≠ buildSmallCacheKey key := by
  intro h
  rw [buildLargeCacheKey_eq, buildSmallCacheKey] at h
  have hlength : (ofString "i18n:large:").length = (ofString "i18n:small:").length := by
    rw [length_ofString, length_ofString]
    decide
  have hkinds := ofString_injective (List.append_inj h hlength).1
  exact absurd hkinds (by decide)

theorem largeCacheKeys_never_collide : Function.Injective2 buildLargeCacheKey ∧
    ∀ key1 key2, buildLargeCacheKey key1 key2 ≠ buildLargeListCacheKey ∧
      buildLargeCacheKey key1 key2 ≠ buildSmallListCacheKey ∧
      ∀ key, buildLargeCacheKey key1 key2 ≠ buildSmallCacheKey key := by
  refine ⟨buildLargeCacheKey_injective, fun key1 key2 =>
    ⟨buildLargeCacheKey_ne_list key1 key2, ?_, buildLargeCacheKey_ne_small key1 key2⟩⟩
  have hlist : buildSmallListCacheKey = buildSmallCacheKey (ofString "list") :=
    ofString_append "i18n:small:" "list"
  rw [hlist]
  exact buildLargeCacheKey_ne_small key1 key2 _

/-- No two translations share a Redis key. -/
theorem cacheKey_injective :
    Function.Injective fun entry : Σ kind : TranslationKind, kind.Key =>
      entry.1.cacheKey entry.2 := by
  rintro ⟨kind, key⟩ ⟨kind', key'⟩ (h : kind.cacheKey key = kind'.cacheKey key')
  have hcodes : ofString (kind.cacheKey key) = ofString (kind'.cacheKey key') := congrArg ofString h
  cases kind with
  | small =>
    cases kind' with
    | small =>
      rw [ofString_cacheKey_small, ofString_cacheKey_small] at hcodes
      rw [ofString_injective (List.append_cancel_left hcodes)]
    | large =>
      rw [ofString_cacheKey_small, ofString_cacheKey_large] at hcodes
      exact absurd hcodes.symm (buildLargeCacheKey_ne_small _ _ _)
  | large =>
    cases kind' with
    | small =>
      rw [ofString_cacheKey_small, ofString_cacheKey_large] at hcodes
      exact absurd hcodes (buildLargeCacheKey_ne_small _ _ _)
    | large =>
      rw [ofString_cacheKey_large, ofString_cacheKey_large] at hcodes
      obtain ⟨hkey1, hkey2⟩ := buildLargeCacheKey_injective hcodes
      have hkey : ofLex key = ofLex key' :=
        Prod.ext (ofString_injective hkey1) (ofString_injective hkey2)
      rw [ofLex_inj.1 hkey]

end AranesLms
