import AranesLms.Lib.Url
import AranesLms.Lib.Utf8

/-!
# Percent coding

* `unquote` is `urllib.parse.unquote`; it is the identity exactly on the texts without a triplet,
  that is a `%` with two hexadecimal digits (`unquote_eq_self_iff`).
* `quote safe` encodes the characters that are not safe and leaves triplets as they are.  It does
  not change what a text decodes to (`unquote_quote`).
* `parseQsl` is `urllib.parse.parse_qsl` with blank values kept; it gives back what `urlencode` was
  given (`parseQsl_urlencode`).
-/

namespace Percent

open Utf8

def isHexDigit (c : Char) : Bool :=
  let n := c.toNat
  (48 ≤ n ∧ n ≤ 57) ∨ (65 ≤ n ∧ n ≤ 70) ∨ (97 ≤ n ∧ n ≤ 102)

def hexVal (c : Char) : ℕ :=
  let n := c.toNat
  if n ≤ 57 then n - 48 else if n ≤ 70 then n - 55 else n - 87

def hexChar (n : ℕ) : Char := if n < 10 then Char.ofNat (48 + n) else Char.ofNat (55 + n)

/-- The text begins with two hexadecimal digits. -/
def hexPair : List Char → Bool
  | a :: b :: _ => isHexDigit a ∧ isHexDigit b
  | _ => false

def HasTriplet (s : List Char) : Prop :=
  ∃ u a b v, s = u ++ '%' :: a :: b :: v ∧ isHexDigit a ∧ isHexDigit b

/-- `unquote_to_bytes`. -/
def unquoteToBytes : List Char → List UInt8
  | [] => []
  | [c] => encodeChar c
  | [c, d] => encodeChar c ++ encodeChar d
  | c :: a :: b :: s =>
    if c = '%' ∧ isHexDigit a ∧ isHexDigit b then
      .ofNat (hexVal a * 16 + hexVal b) :: unquoteToBytes s
    else encodeChar c ++ unquoteToBytes (a :: b :: s)

def unquote (s : List Char) : List Char := decode (unquoteToBytes s)

def percentEncode (bs : List UInt8) : List Char :=
  bs.flatMap fun b => ['%', hexChar (b.toNat / 16), hexChar (b.toNat % 16)]

section

variable (safe : Char → Bool)

def quoteChar (c : Char) : List Char := if safe c then [c] else percentEncode (encodeChar c)

def quote : List Char → List Char
  | [] => []
  | [c] => quoteChar safe c
  | [c, d] => quoteChar safe c ++ quoteChar safe d
  | c :: a :: b :: s =>
    if c = '%' ∧ isHexDigit a ∧ isHexDigit b then c :: a :: b :: quote s
    else quoteChar safe c ++ quote (a :: b :: s)

end

/-! ## Triplets -/

theorem unquoteToBytes_triplet {a b : Char} (ha : isHexDigit a) (hb : isHexDigit b)
    (s : List Char) : unquoteToBytes ('%' :: a :: b :: s) =
      .ofNat (hexVal a * 16 + hexVal b) :: unquoteToBytes s := by
  rw [unquoteToBytes, if_pos ⟨rfl, ha, hb⟩]

theorem unquoteToBytes_cons {c : Char} {s : List Char} (h : ¬ (c = '%' ∧ hexPair s)) :
    unquoteToBytes (c :: s) = encodeChar c ++ unquoteToBytes s := by
  cases s with
  | nil => rw [unquoteToBytes, unquoteToBytes, List.append_nil]
  | cons a s =>
    cases s with
    | nil => rw [unquoteToBytes, unquoteToBytes]
    | cons b s => rw [unquoteToBytes, if_neg fun h' => h ⟨h'.1, decide_eq_true h'.2⟩]

section

variable {safe : Char → Bool}

theorem quote_triplet {a b : Char} (ha : isHexDigit a) (hb : isHexDigit b) (s : List Char) :
    quote safe ('%' :: a :: b :: s) = '%' :: a :: b :: quote safe s := by
  rw [quote, if_pos ⟨rfl, ha, hb⟩]

theorem quote_cons {c : Char} {s : List Char} (h : ¬ (c = '%' ∧ hexPair s)) :
    quote safe (c :: s) = quoteChar safe c ++ quote safe s := by
  cases s with
  | nil => rw [quote, quote, List.append_nil]
  | cons a s =>
    cases s with
    | nil => rw [quote, quote]
    | cons b s => rw [quote, if_neg fun h' => h ⟨h'.1, decide_eq_true h'.2⟩]

end

theorem exists_of_hexPair {s : List Char} (h : hexPair s) :
    ∃ a b t, s = a :: b :: t ∧ isHexDigit a ∧ isHexDigit b := by
  cases s with
  | nil => cases h
  | cons a s =>
    cases s with
    | nil => cases h
    | cons b t => exact ⟨a, b, t, rfl, of_decide_eq_true h⟩

/-- A text is read one triplet or one other character at a time. -/
theorem triplet_induct {P : List Char → Prop} (nil : P [])
    (triplet : ∀ a b s, isHexDigit a → isHexDigit b → P s → P ('%' :: a :: b :: s))
    (char : ∀ c s, ¬ (c = '%' ∧ hexPair s) → P s → P (c :: s)) (s : List Char) : P s := by
  induction h : s.length using Nat.strongRecOn generalizing s with
  | ind n ih =>
    subst h
    cases s with
    | nil => exact nil
    | cons c s =>
      by_cases hc : c = '%' ∧ hexPair s
      · obtain ⟨rfl, hpair⟩ := hc
        obtain ⟨a, b, t, rfl, ha, hb⟩ := exists_of_hexPair hpair
        exact triplet a b t ha hb (ih t.length (by simp; omega) t rfl)
      · exact char c s hc (ih s.length (by simp) s rfl)

theorem not_hasTriplet_nil : ¬ HasTriplet [] := by
  rintro ⟨u, a, b, v, h, -⟩
  simp at h

/-- A triplet begins here or later. -/
theorem hasTriplet_cons {c : Char} {s : List Char} :
    HasTriplet (c :: s) ↔ c = '%' ∧ hexPair s ∨ HasTriplet s := by
  constructor
  · rintro ⟨u, a, b, v, h, ha, hb⟩
    cases u with
    | nil =>
      obtain ⟨rfl, rfl⟩ := List.cons.inj h
      exact Or.inl ⟨rfl, decide_eq_true ⟨ha, hb⟩⟩
    | cons d u =>
      obtain ⟨-, rfl⟩ := List.cons.inj h
      exact Or.inr ⟨u, a, b, v, rfl, ha, hb⟩
  · rintro (⟨rfl, hpair⟩ | ⟨u, a, b, v, rfl, hab⟩)
    · obtain ⟨a, b, t, rfl, hab⟩ := exists_of_hexPair hpair
      exact ⟨[], a, b, t, rfl, hab⟩
    · exact ⟨c :: u, a, b, v, rfl, hab⟩

/-! ## Decoding -/

theorem countP_encode (s : List Char) :
    (encode s).countP (fun b => b.toNat < 0x80) = s.countP isAscii := by
  rw [← countP_decode, decode_encode]

theorem countP_encodeChar (c : Char) :
    (encodeChar c).countP (fun b => b.toNat < 0x80) = if isAscii c then 1 else 0 := by
  have h := countP_encode [c]
  rw [encode, List.flatMap_singleton, List.countP_singleton] at h
  exact h

theorem isAscii_of_isHexDigit {c : Char} (h : isHexDigit c) : isAscii c := by
  have h := of_decide_eq_true h
  exact decide_eq_true (by omega)

/-- A triplet gives at most one ASCII character for three. -/
theorem countP_unquoteToBytes (s : List Char) :
    (unquoteToBytes s).countP (fun b => b.toNat < 0x80) ≤ s.countP isAscii ∧
      (HasTriplet s → (unquoteToBytes s).countP (fun b => b.toNat < 0x80) < s.countP isAscii) := by
  induction s using triplet_induct with
  | nil => exact ⟨Nat.le_refl 0, fun h => absurd h not_hasTriplet_nil⟩
  | triplet a b s ha hb ih =>
    have hpercent : isAscii '%' := by decide
    have ha := isAscii_of_isHexDigit ha
    have hb' := isAscii_of_isHexDigit hb
    rw [unquoteToBytes_triplet ‹_› hb]
    simp only [List.countP_cons, hpercent, ha, hb', if_true]
    have hbyte : ∀ p : Bool, (if p = true then 1 else 0) ≤ 1 := by decide
    have := hbyte (decide ((UInt8.ofNat (hexVal a * 16 + hexVal b)).toNat < 0x80))
    omega
  | char c s hc ih =>
    rw [unquoteToBytes_cons hc, List.countP_append, countP_encodeChar, List.countP_cons,
      hasTriplet_cons]
    refine ⟨by omega, ?_⟩
    rintro (h | h)
    · exact absurd h hc
    · have := ih.2 h
      omega

theorem unquoteToBytes_of_not_hasTriplet {s : List Char} (h : ¬ HasTriplet s) :
    unquoteToBytes s = encode s := by
  induction s using triplet_induct with
  | nil => rfl
  | triplet a b s ha hb ih => exact absurd ⟨[], a, b, s, rfl, ha, hb⟩ h
  | char c s hc ih =>
    rw [unquoteToBytes_cons hc, ih fun h' => h (hasTriplet_cons.2 (Or.inr h'))]
    rfl

/-- No triplet goes on across a character that is neither `%` nor a digit. -/
theorem unquoteToBytes_append_cons {c : Char} (hc : c ≠ '%') (hdigit : isHexDigit c = false)
    (s t : List Char) :
    unquoteToBytes (s ++ c :: t) = unquoteToBytes s ++ encodeChar c ++ unquoteToBytes t := by
  induction s using triplet_induct with
  | nil => exact unquoteToBytes_cons fun h => hc h.1
  | triplet a b s ha hb ih =>
    simp only [List.cons_append]
    rw [unquoteToBytes_triplet ha hb, unquoteToBytes_triplet ha hb, ih, List.cons_append,
      List.cons_append]
  | char d s hd ih =>
    have hnot : ¬ (d = '%' ∧ hexPair (s ++ c :: t)) := by
      rintro ⟨rfl, hpair⟩
      refine hd ⟨rfl, ?_⟩
      match s, hpair with
      | [], hpair => cases t <;> simp [hexPair, hdigit] at hpair
      | [a], hpair => simp [hexPair, hdigit] at hpair
      | a :: b :: s, hpair => exact hpair
    rw [List.cons_append, unquoteToBytes_cons hnot, unquoteToBytes_cons hd, ih,
      List.append_assoc, List.append_assoc, List.append_assoc]

theorem unquote_append_cons {c : Char} (hascii : isAscii c) (hc : c ≠ '%')
    (hdigit : isHexDigit c = false) (s t : List Char) :
    unquote (s ++ c :: t) = unquote s ++ c :: unquote t := by
  rw [unquote, unquoteToBytes_append_cons hc hdigit, decode_append_ascii _ hascii]
  rfl

/-- Decoding changes a text exactly when it has a triplet. -/
theorem unquote_eq_self_iff {s : List Char} : unquote s = s ↔ ¬ HasTriplet s := by
  constructor
  · intro h htriplet
    have hlt := (countP_unquoteToBytes s).2 htriplet
    rw [← countP_decode] at hlt
    exact absurd (congrArg (List.countP isAscii) h) (Nat.ne_of_lt hlt)
  · intro h
    rw [unquote, unquoteToBytes_of_not_hasTriplet h, decode_encode]

/-! ## Encoding -/

theorem isHexDigit_hexChar : ∀ n < 16, isHexDigit (hexChar n) ∧ hexVal (hexChar n) = n := by
  decide

theorem unquoteToBytes_percentEncode (bs : List UInt8) (s : List Char) :
    unquoteToBytes (percentEncode bs ++ s) = bs ++ unquoteToBytes s := by
  induction bs with
  | nil => rfl
  | cons b bs ih =>
    have hlt := b.toNat_lt
    obtain ⟨hhigh, hhighVal⟩ := isHexDigit_hexChar (b.toNat / 16) (by omega)
    obtain ⟨hlow, hlowVal⟩ := isHexDigit_hexChar (b.toNat % 16) (by omega)
    have hbyte : UInt8.ofNat (b.toNat / 16 * 16 + b.toNat % 16) = b := by
      rw [Nat.div_add_mod', UInt8.ofNat_toNat]
    rw [percentEncode, List.flatMap_cons, List.append_assoc]
    simp only [List.cons_append, List.nil_append]
    rw [unquoteToBytes_triplet hhigh hlow, hhighVal, hlowVal, hbyte]
    exact congrArg (b :: ·) ih

section

variable {safe : Char → Bool}

theorem percentEncode_encodeChar (c : Char) :
    ∃ t, percentEncode (encodeChar c) = '%' :: t := by
  rw [encodeChar]
  split_ifs <;> exact ⟨_, rfl⟩

/-- An encoded text begins with a `%` or as the text does. -/
theorem quote_eq_cons {s t : List Char} {c : Char} (h : quote safe s = c :: t) (hc : c ≠ '%') :
    ∃ s', s = c :: s' ∧ quote safe s' = t := by
  induction s using triplet_induct with
  | nil => cases h
  | triplet a b s ha hb =>
    rw [quote_triplet ha hb] at h
    exact absurd (List.cons.inj h).1.symm hc
  | char d s hd =>
    rw [quote_cons hd, quoteChar] at h
    split_ifs at h
    · obtain ⟨rfl, rfl⟩ := List.cons.inj h
      exact ⟨s, rfl, rfl⟩
    · obtain ⟨u, hu⟩ := percentEncode_encodeChar d
      rw [hu] at h
      exact absurd (List.cons.inj h).1.symm hc

theorem hexPair_of_quote {s : List Char} (h : hexPair (quote safe s)) : hexPair s := by
  have hpercent : ∀ c, isHexDigit c → c ≠ '%' := by
    rintro c hc rfl
    exact absurd hc (by decide)
  obtain ⟨a, b, t, heq, ha, hb⟩ := exists_of_hexPair h
  obtain ⟨s, rfl, hs⟩ := quote_eq_cons heq (hpercent a ha)
  obtain ⟨s, rfl, -⟩ := quote_eq_cons hs (hpercent b hb)
  exact decide_eq_true ⟨ha, hb⟩

theorem unquoteToBytes_quote (s : List Char) :
    unquoteToBytes (quote safe s) = unquoteToBytes s := by
  induction s using triplet_induct with
  | nil => rfl
  | triplet a b s ha hb ih =>
    rw [quote_triplet ha hb, unquoteToBytes_triplet ha hb, unquoteToBytes_triplet ha hb, ih]
  | char c s hc ih =>
    rw [quote_cons hc, unquoteToBytes_cons hc, quoteChar]
    split_ifs
    · have hc' : ¬ (c = '%' ∧ hexPair (quote safe s)) :=
        fun h => hc ⟨h.1, hexPair_of_quote h.2⟩
      rw [List.singleton_append, unquoteToBytes_cons hc', ih]
    · rw [unquoteToBytes_percentEncode, ih]

theorem unquote_quote (s : List Char) : unquote (quote safe s) = unquote s :=
  congrArg decode (unquoteToBytes_quote s)

end

/-! ## Forms -/

/-- A text of a form; `plus` tells whether a space is written `+`. -/
def quotePlus (safe : Char → Bool) (plus : Bool) (s : List Char) : List Char :=
  s.flatMap fun c => if plus ∧ c = ' ' then ['+'] else quoteChar safe c

def unquotePlus (s : List Char) : List Char :=
  unquote (s.map fun c => if c = '+' then ' ' else c)

def urlencode (safe : Char → Bool) (plus : Bool) (params : List (List Char × List Char)) :
    List Char :=
  ['&'].intercalate
    (params.map fun p => quotePlus safe plus p.1 ++ '=' :: quotePlus safe plus p.2)

def parseQsl (qs : List Char) : List (List Char × List Char) :=
  ((qs.splitOn '&').filter (· ≠ [])).map fun nameValue =>
    let (name, value) := Url.partition '=' nameValue
    (unquotePlus name, unquotePlus value)

/-- The characters that mean something in a form are not safe. -/
def FormSafe (safe : Char → Bool) : Prop := ∀ c ∈ ['%', '+', '&', '=', ' '], safe c = false

section

variable {safe : Char → Bool} {plus : Bool}

theorem notMem_percentEncode {c : Char} (hc : c ∈ ['+', '&', '=']) (bs : List UInt8) :
    c ∉ percentEncode bs := by
  have hhex : ∀ n < 16, hexChar n ∉ ['+', '&', '='] := by decide
  intro hmem
  obtain ⟨b, -, hb⟩ := List.mem_flatMap.1 hmem
  have hlt := b.toNat_lt
  simp only [List.mem_cons, List.not_mem_nil, or_false] at hb
  rcases hb with rfl | rfl | rfl
  · exact absurd hc (by decide)
  · exact hhex _ (by omega) hc
  · exact hhex _ (by omega) hc

/-- The separators do not occur in an encoded text. -/
theorem notMem_quotePlus (hsafe : FormSafe safe) {c : Char} (hc : c ∈ ['&', '=']) (s : List Char) :
    c ∉ quotePlus safe plus s := by
  intro hmem
  obtain ⟨d, -, hd⟩ := List.mem_flatMap.1 hmem
  have hsub : ∀ c ∈ ['&', '='], c ∈ ['%', '+', '&', '=', ' '] := by simp
  have hcSafe : safe c = false := hsafe c (hsub c hc)
  rw [quoteChar] at hd
  split_ifs at hd with hspace hdSafe
  · obtain rfl := List.mem_singleton.1 hd
    exact absurd hc (by decide)
  · obtain rfl := List.mem_singleton.1 hd
    rw [hcSafe] at hdSafe
    cases hdSafe
  · exact notMem_percentEncode (List.mem_cons_of_mem _ hc) _ hd

theorem unquotePlus_quotePlus (hsafe : FormSafe safe) (s : List Char) :
    unquotePlus (quotePlus safe plus s) = s := by
  have hbytes : unquoteToBytes ((quotePlus safe plus s).map fun c => if c = '+' then ' ' else c) =
      encode s := by
    induction s with
    | nil => rfl
    | cons c s ih =>
      have hencode : encode (c :: s) = encodeChar c ++ encode s := rfl
      rw [quotePlus, List.flatMap_cons, List.map_append, hencode, ← ih]
      by_cases hspace : plus ∧ c = ' '
      · obtain ⟨hplus, rfl⟩ := hspace
        rw [if_pos ⟨hplus, rfl⟩]
        exact unquoteToBytes_cons fun h => absurd h.1 (by decide)
      · rw [if_neg hspace, quoteChar]
        by_cases hc : safe c
        · have hne : c ≠ '+' ∧ c ≠ '%' := by
            constructor <;> rintro rfl
            · rw [hsafe '+' (by decide)] at hc
              cases hc
            · rw [hsafe '%' (by decide)] at hc
              cases hc
          rw [if_pos hc, List.map_singleton, if_neg hne.1]
          exact unquoteToBytes_cons fun h => hne.2 h.1
        · have hmap : (percentEncode (encodeChar c)).map (fun c => if c = '+' then ' ' else c) =
              percentEncode (encodeChar c) := by
            refine (List.map_congr_left fun d hd => if_neg ?_).trans (List.map_id _)
            rintro rfl
            exact notMem_percentEncode (by decide) _ hd
          rw [if_neg hc, hmap, unquoteToBytes_percentEncode]
          rfl
  rw [unquotePlus, unquote, hbytes, decode_encode]

theorem partition_append {c : Char} {a : List Char} (h : c ∉ a) (b : List Char) :
    Url.partition c (a ++ c :: b) = (a, b) := by
  have hall : ∀ d ∈ a, decide (d ≠ c) = true := fun d hd => decide_eq_true fun heq => h (heq ▸ hd)
  rw [Url.partition, List.takeWhile_append_of_pos hall, List.dropWhile_append_of_pos hall,
    List.takeWhile_cons_of_neg (by simp), List.dropWhile_cons_of_neg (by simp), List.append_nil,
    List.tail_cons]

theorem parseQsl_urlencode (hsafe : FormSafe safe) (params : List (List Char × List Char)) :
    parseQsl (urlencode safe plus params) = params := by
  by_cases hparams : params = []
  · subst hparams
    rfl
  have hsplit : (urlencode safe plus params).splitOn '&' =
      params.map fun p => quotePlus safe plus p.1 ++ '=' :: quotePlus safe plus p.2 := by
    refine List.splitOn_intercalate '&' (fun part hpart => ?_) (by simpa using hparams)
    obtain ⟨p, -, rfl⟩ := List.mem_map.1 hpart
    simp [notMem_quotePlus hsafe]
  have hfilter : (params.map fun p => quotePlus safe plus p.1 ++ '=' ::
      quotePlus safe plus p.2).filter (· ≠ []) =
      params.map fun p => quotePlus safe plus p.1 ++ '=' :: quotePlus safe plus p.2 := by
    refine List.filter_eq_self.2 fun part hpart => ?_
    obtain ⟨p, -, rfl⟩ := List.mem_map.1 hpart
    simp
  rw [parseQsl, hsplit, hfilter, List.map_map]
  refine (List.map_congr_left fun p _ => ?_).trans (List.map_id _)
  simp only [Function.comp_apply, id_eq]
  rw [partition_append (notMem_quotePlus hsafe (by decide) _)]
  exact Prod.ext (unquotePlus_quotePlus hsafe _) (unquotePlus_quotePlus hsafe _)

end

end Percent
