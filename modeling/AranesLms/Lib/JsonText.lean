import AranesLms.Lib.JsonParser
import Mathlib.Data.List.Sort
import Mathlib.Data.List.TakeWhile
import Mathlib.Data.String.Basic
import Mathlib.Tactic.IntervalCases

/-!
# JSON texts

`print` writes a value in ASCII, with `", "` and `": "` between the parts and the members in their
order; `sortKeys` puts the members in the order of their keys at any depth.  What is written is read
back (`loads_print`), and from `dumps`, which sorts the keys first, `loads` gives the value with its
keys sorted (`loads_dumps`).
-/

namespace JsonText

/-! ## Writing -/

def hexDigit (n : ℕ) : Char := if n < 10 then Char.ofNat (48 + n) else Char.ofNat (87 + n)

/-- The escape `\uXXXX`. -/
def unicodeEscape (n : ℕ) : List Char :=
  ['\\', 'u', hexDigit (n / 4096 % 16), hexDigit (n / 256 % 16), hexDigit (n / 16 % 16),
    hexDigit (n % 16)]

/-- The escapes of one letter. -/
def letterEscape (c : Char) : Option Char :=
  if c = '"' then some '"'
  else if c = '\\' then some '\\'
  else if c = '\n' then some 'n'
  else if c = '\r' then some 'r'
  else if c = '\t' then some 't'
  else if c = '\x08' then some 'b'
  else if c = '\x0c' then some 'f'
  else none

/-- A character in ASCII; from `0x10000` on it is written as two surrogates. -/
def escapeChar (c : Char) : List Char :=
  match letterEscape c with
  | some e => ['\\', e]
  | none =>
    if 0x20 ≤ c.toNat ∧ c.toNat ≤ 0x7e then [c]
    else if c.toNat < 0x10000 then unicodeEscape c.toNat
    else unicodeEscape (0xd800 + (c.toNat - 0x10000) / 0x400) ++
      unicodeEscape (0xdc00 + (c.toNat - 0x10000) % 0x400)

def printString (s : String) : List Char := '"' :: (s.toList.flatMap escapeChar ++ ['"'])

def separator : List Char := [',', ' ']

def print : Json → List Char
  | .null => ['n', 'u', 'l', 'l']
  | .bool true => ['t', 'r', 'u', 'e']
  | .bool false => ['f', 'a', 'l', 's', 'e']
  | .number numeral => numeral.toList
  | .str s => printString s
  | .array _ elems => '[' :: (separator.intercalate (List.ofFn fun i => print (elems i)) ++ [']'])
  | .object _ keys _ values =>
    '{' :: (separator.intercalate (List.ofFn fun i =>
      printString (keys i) ++ ':' :: ' ' :: print (values i)) ++ ['}'])

/-- The dictionary in the order of its keys. -/
def sorted (d : OrderedDict String Json) : OrderedDict String Json where
  entries := d.entries.insertionSort fun e f => e.1 ≤ f.1
  nodup := ((List.perm_insertionSort _ _).map _).nodup_iff.2 d.nodup

def sortKeys : Json → Json
  | .array n elems => .array n fun i => sortKeys (elems i)
  | .object _ keys inj values => .obj (sorted (Json.dict keys inj fun i => sortKeys (values i)))
  | j => j

/-! ## Strings -/

theorem hexValue_hexDigit : ∀ n < 16, hexValue (hexDigit n) = some n := by decide

theorem hex4_hexDigit {n : ℕ} (h : n < 0x10000) :
    hex4 (hexDigit (n / 4096 % 16)) (hexDigit (n / 256 % 16)) (hexDigit (n / 16 % 16))
      (hexDigit (n % 16)) = some n := by
  have hdigit : ∀ m : ℕ, hexValue (hexDigit (m % 16)) = some (m % 16) :=
    fun m => hexValue_hexDigit _ (Nat.mod_lt _ (by decide))
  simp only [hex4, hdigit, Option.bind_eq_bind, Option.bind_some, Option.pure_def,
    Option.some.injEq]
  omega

theorem unescape_letterEscape {c e : Char} (h : letterEscape c = some e) :
    unescape e = some c ∧ e ≠ 'u' := by
  unfold letterEscape at h
  split_ifs at h with h₁ h₂ h₃ h₄ h₅ h₆ h₇
  all_goals
    cases h
    subst c
    decide

theorem string_letter {e : Char} (he : e ≠ 'u') (cs : List Char) :
    string ('\\' :: e :: cs) =
      (unescape e).bind fun c => (string cs).map fun p => (c :: p.1, p.2) := by
  rw [string]
  rintro a b c d ds heq
  exact absurd heq he

theorem string_plain {c : Char} (hquote : c ≠ '"') (hbackslash : c ≠ '\\')
    (hcontrol : 0x20 ≤ c.toNat) (cs : List Char) :
    string (c :: cs) = (string cs).map fun p => (c :: p.1, p.2) := by
  rw [string, if_neg (by omega)]
  · exact hquote
  · rintro a b c d ds heq
    exact absurd heq hbackslash
  · rintro d ds heq
    exact absurd heq hbackslash

/-- A character other than a surrogate, of four digits. -/
theorem string_unicodeEscape {n : ℕ} (h : n < 0x10000) (hsurrogate : ¬(0xd800 ≤ n ∧ n < 0xe000))
    (cs : List Char) : string (unicodeEscape n ++ cs) =
      (string cs).map fun p => (Char.ofNat n :: p.1, p.2) := by
  rw [unicodeEscape]
  simp only [List.cons_append, List.nil_append]
  rw [string, hex4_hexDigit h, Option.bind_some, if_neg (by omega), if_neg (by omega)]

/-- A pair of surrogates. -/
theorem string_pair {a b c d a' b' c' d' : Char} {u v : ℕ} (hu : hex4 a b c d = some u)
    (hv : hex4 a' b' c' d' = some v) (hhigh : 0xd800 ≤ u ∧ u < 0xdc00)
    (hlow : 0xdc00 ≤ v ∧ v < 0xe000) (cs : List Char) :
    string ('\\' :: 'u' :: a :: b :: c :: d :: '\\' :: 'u' :: a' :: b' :: c' :: d' :: cs) =
      (string cs).map fun p =>
        (Char.ofNat (0x10000 + 0x400 * (u - 0xd800) + (v - 0xdc00)) :: p.1, p.2) := by
  rw [string, hu, Option.bind_some, if_pos hhigh]
  show (hex4 a' b' c' d').bind _ = _
  rw [hv, Option.bind_some, if_pos hlow]

theorem string_surrogates {n : ℕ} (h : n < 0x100000) (cs : List Char) :
    string (unicodeEscape (0xd800 + n / 0x400) ++ unicodeEscape (0xdc00 + n % 0x400) ++ cs) =
      (string cs).map fun p => (Char.ofNat (0x10000 + n) :: p.1, p.2) := by
  have hn : 0x10000 + 0x400 * (0xd800 + n / 0x400 - 0xd800) + (0xdc00 + n % 0x400 - 0xdc00) =
      0x10000 + n := by omega
  rw [unicodeEscape, unicodeEscape]
  simp only [List.cons_append, List.nil_append]
  rw [string_pair (hex4_hexDigit (by omega)) (hex4_hexDigit (by omega)) (by omega) (by omega), hn]

theorem string_escapeChar (c : Char) (cs : List Char) :
    string (escapeChar c ++ cs) = (string cs).map fun p => (c :: p.1, p.2) := by
  rw [escapeChar]
  cases hletter : letterEscape c with
  | some e =>
    obtain ⟨hunescape, he⟩ := unescape_letterEscape hletter
    rw [List.cons_append, List.cons_append, List.nil_append, string_letter he, hunescape,
      Option.bind_some]
  | none =>
    have hlt : c.toNat < 0x110000 ∧ ¬(0xd800 ≤ c.toNat ∧ c.toNat < 0xe000) := by
      rcases c.valid with hc | ⟨hlo, hhi⟩
      · exact ⟨lt_trans hc (by decide), fun h => absurd hc (Nat.not_lt.2 h.1)⟩
      · exact ⟨hhi, fun h => absurd h.2 (Nat.not_lt.2 (by exact hlo))⟩
    have hchar : Char.ofNat c.toNat = c := Char.ofNat_toNat c
    dsimp only
    split_ifs with hplain hbmp
    · have hquote : c ≠ '"' ∧ c ≠ '\\' := by
        constructor
        · rintro rfl
          exact absurd hletter (by decide)
        · rintro rfl
          exact absurd hletter (by decide)
      exact string_plain hquote.1 hquote.2 hplain.1 cs
    · rw [string_unicodeEscape hbmp hlt.2, hchar]
    · rw [string_surrogates (by omega), Nat.add_sub_cancel' (by omega), hchar]

theorem string_flatMap (cs rest : List Char) :
    string (cs.flatMap escapeChar ++ '"' :: rest) = some (cs, rest) := by
  induction cs with
  | nil => simp [string]
  | cons c cs ih =>
    rw [List.flatMap_cons, List.append_assoc, string_escapeChar, ih, Option.map_some]

theorem printString_append (s : String) (rest : List Char) :
    printString s ++ rest = '"' :: (s.toList.flatMap escapeChar ++ '"' :: rest) := by
  rw [printString, List.cons_append, List.append_assoc, List.singleton_append]

/-! ## Numerals -/

/-- The text is over, or goes on with a character that no numeral has. -/
def Follows (rest : List Char) : Prop :=
  ∀ c ∈ rest.head?, c.isDigit = false ∧ c ∉ ['.', 'e', 'E', '+', '-']

theorem follows_nil : Follows [] := by simp [Follows]

theorem follows_cons {c : Char} (h : c.isDigit = false ∧ c ∉ ['.', 'e', 'E', '+', '-'])
    (cs : List Char) : Follows (c :: cs) := by
  simpa [Follows] using h

section

variable {rest : List Char} (h : Follows rest)

include h

theorem digits_of_follows : digits rest = ([], rest) := by
  cases rest with
  | nil => rfl
  | cons c cs => simp [digits, (h c rfl).1]

theorem digits_append (cs : List Char) :
    digits (cs ++ rest) = ((digits cs).1, (digits cs).2 ++ rest) := by
  induction cs with
  | nil => exact digits_of_follows h
  | cons c cs ih =>
    cases hc : c.isDigit
    · simp [digits, hc]
    · rw [digits, Prod.mk.injEq] at ih
      simp [digits, hc, ih]

theorem ne_of_follows {c : Char} {cs : List Char} (heq : rest = c :: cs) :
    c.isDigit = false ∧ c ∉ ['.', 'e', 'E', '+', '-'] := by
  subst heq
  exact h c rfl

theorem integerPart_append (cs : List Char) :
    integerPart (cs ++ rest) = (integerPart cs).map fun p => (p.1, p.2 ++ rest) := by
  have hdigits : ∀ ds : List Char, (∀ ds', ds ++ rest = '0' :: ds' → False) →
      (∀ ds', ds = '0' :: ds' → False) →
      integerPart (ds ++ rest) = (integerPart ds).map fun p => (p.1, p.2 ++ rest) := by
    intro ds hne hne'
    rw [integerPart, integerPart, digits_append h]
    · split_ifs <;> rfl
    · exact hne'
    · exact hne
  cases cs with
  | nil =>
    refine hdigits [] (fun ds' heq => ?_) (by simp)
    exact absurd (ne_of_follows h heq).1 (by decide)
  | cons c cs =>
    by_cases hc : c = '0'
    · subst hc
      rfl
    · exact hdigits (c :: cs) (by simp [hc]) (by simp [hc])

theorem fraction_append (cs : List Char) :
    fraction (cs ++ rest) = ((fraction cs).1, (fraction cs).2 ++ rest) := by
  cases cs with
  | nil =>
    rw [List.nil_append, fraction]
    · rfl
    · intro ds heq
      exact absurd (ne_of_follows h heq).2 (by decide)
  | cons c cs =>
    by_cases hc : c = '.'
    · subst hc
      rw [List.cons_append, fraction, fraction, digits_append h]
      split_ifs <;> rfl
    · rw [List.cons_append, fraction, fraction]
      · rfl
      · simp [hc]
      · simp [hc]

theorem exponentDigits_append (cs : List Char) :
    exponentDigits (cs ++ rest) = (exponentDigits cs).map fun p => (p.1, p.2 ++ rest) := by
  cases cs with
  | nil =>
    rw [List.nil_append, exponentDigits, digits_of_follows h]
    · rfl
    · intro ds heq
      exact absurd (ne_of_follows h heq).2 (by decide)
    · intro ds heq
      exact absurd (ne_of_follows h heq).2 (by decide)
  | cons c cs =>
    by_cases hplus : c = '+'
    · subst hplus
      rw [List.cons_append, exponentDigits, exponentDigits, digits_append h]
      split_ifs <;> rfl
    by_cases hminus : c = '-'
    · subst hminus
      rw [List.cons_append, exponentDigits, exponentDigits, digits_append h]
      split_ifs <;> rfl
    · rw [List.cons_append, exponentDigits, exponentDigits, ← List.cons_append, digits_append h]
      · split_ifs <;> rfl
      all_goals simp [hplus, hminus]

theorem exponent_append (cs : List Char) :
    exponent (cs ++ rest) = ((exponent cs).1, (exponent cs).2 ++ rest) := by
  cases cs with
  | nil =>
    rw [List.nil_append, exponent]
    · rfl
    · intro ds heq
      exact absurd (ne_of_follows h heq).2 (by decide)
    · intro ds heq
      exact absurd (ne_of_follows h heq).2 (by decide)
  | cons c cs =>
    by_cases hlower : c = 'e'
    · subst hlower
      rw [List.cons_append, exponent, exponent, exponentDigits_append h]
      cases exponentDigits cs <;> rfl
    by_cases hupper : c = 'E'
    · subst hupper
      rw [List.cons_append, exponent, exponent, exponentDigits_append h]
      cases exponentDigits cs <;> rfl
    · rw [List.cons_append, exponent, exponent]
      · rfl
      all_goals simp [hlower, hupper]

theorem unsigned_append (cs : List Char) :
    unsigned (cs ++ rest) = (unsigned cs).map fun p => (p.1, p.2 ++ rest) := by
  rw [unsigned, unsigned, integerPart_append h]
  cases integerPart cs with
  | none => rfl
  | some p => simp only [Option.map_some, fraction_append h, exponent_append h]

end

/-- An unsigned numeral begins with a digit. -/
theorem exists_digit_of_unsigned {cs : List Char} {p : List Char × List Char}
    (h : unsigned cs = some p) : ∃ c ds, cs = c :: ds ∧ c.isDigit = true := by
  obtain ⟨q, hq, -⟩ := Option.map_eq_some_iff.1 h
  cases cs with
  | nil => cases hq
  | cons c ds =>
    refine ⟨c, ds, rfl, ?_⟩
    by_contra hc
    rw [integerPart] at hq
    · simp [digits, hc] at hq
    · intro es heq
      obtain ⟨rfl, -⟩ := List.cons.inj heq
      exact hc (by decide)

/-- The text is a numeral, or one of the three constants. -/
def IsNumeral (s : String) : Prop := numeral s.toList = some (s.toList, [])

instance (s : String) : Decidable (IsNumeral s) := inferInstanceAs (Decidable (_ = _))

theorem exists_cons_of_isNumeral {s : String} (h : IsNumeral s) :
    ∃ c cs, s.toList = c :: cs ∧ (c.isDigit = true ∨ c = '-' ∨ c = 'N' ∨ c = 'I') := by
  unfold IsNumeral at h
  generalize s.toList = cs at h
  unfold numeral at h
  split at h
  · exact ⟨_, _, rfl, by simp⟩
  · exact ⟨_, _, rfl, by simp⟩
  · exact ⟨_, _, rfl, by simp⟩
  · exact ⟨_, _, rfl, by simp⟩
  · obtain ⟨c, ds, rfl, hc⟩ := exists_digit_of_unsigned h
    exact ⟨c, ds, rfl, Or.inl hc⟩

/-- A numeral is read to its end. -/
theorem numeral_append {s : String} (h : IsNumeral s) {rest : List Char} (hrest : Follows rest) :
    numeral (s.toList ++ rest) = some (s.toList, rest) := by
  unfold IsNumeral at h
  generalize s.toList = cs at h
  have hunsigned : ∀ ds, unsigned ds = some (ds, []) → unsigned (ds ++ rest) = some (ds, rest) := by
    intro ds hds
    rw [unsigned_append hrest, hds, Option.map_some, List.nil_append]
  unfold numeral at h
  split at h
  · obtain ⟨heq, rfl⟩ := Prod.mk.inj (Option.some.inj h)
    rfl
  · obtain ⟨heq, rfl⟩ := Prod.mk.inj (Option.some.inj h)
    rfl
  · obtain ⟨heq, rfl⟩ := Prod.mk.inj (Option.some.inj h)
    rfl
  · rename_i ds hne
    obtain ⟨p, hp, heq⟩ := Option.map_eq_some_iff.1 h
    obtain ⟨hds, hnil⟩ := Prod.mk.inj heq
    obtain ⟨c, es, rfl, hc⟩ := exists_digit_of_unsigned hp
    obtain rfl : p = (c :: es, []) := Prod.ext (List.cons.inj hds).2 hnil
    rw [List.cons_append, numeral, hunsigned _ hp, Option.map_some]
    · intro fs hfs
      obtain ⟨rfl, -⟩ := List.cons.inj hfs
      exact absurd hc (by decide)
  · obtain ⟨c, es, rfl, hc⟩ := exists_digit_of_unsigned h
    have hhead : ∀ {d : Char} {fs : List Char}, d.isDigit = false → c :: es ++ rest = d :: fs →
        False := by
      intro d fs hd heq
      obtain ⟨rfl, -⟩ := List.cons.inj heq
      rw [hc] at hd
      cases hd
    rw [numeral, hunsigned _ h]
    · exact fun _ => hhead (by decide)
    · exact fun _ => hhead (by decide)
    · exact fun _ => hhead (by decide)
    · exact fun _ => hhead (by decide)

/-- The digits of a number do not begin with a zero. -/
theorem exists_cons_toDigits {n : ℕ} (hn : 0 < n) :
    ∃ c cs, Nat.toDigits 10 n = c :: cs ∧ c ≠ '0' := by
  induction n using Nat.strongRecOn with
  | ind n ih =>
    rcases Nat.lt_or_ge n 10 with hlt | hge
    · refine ⟨n.digitChar, [], Nat.toDigits_of_lt_base hlt, ?_⟩
      interval_cases n <;> decide
    · obtain ⟨c, cs, hcs, hc⟩ := ih (n / 10) (by omega) (by omega)
      refine ⟨c, cs ++ [(n % 10).digitChar], ?_, hc⟩
      rw [Nat.toDigits_of_base_le (by decide) hge, hcs, List.cons_append]

theorem isNumeral_toString (n : ℕ) : IsNumeral (toString n) := by
  rcases Nat.eq_zero_or_pos n with rfl | hn
  · decide
  · have hlist : (toString n).toList = Nat.toDigits 10 n := Nat.toList_repr
    obtain ⟨c, cs, hcs, hzero⟩ := exists_cons_toDigits hn
    have hdigit : ∀ d ∈ c :: cs, d.isDigit = true := fun d hd =>
      Nat.isDigit_of_mem_toDigits (by decide) (le_refl 10) (hcs ▸ hd)
    have hc : c.isDigit = true := hdigit c List.mem_cons_self
    have hne : ∀ {d : Char}, d.isDigit = false → c ≠ d := by
      rintro d hd rfl
      exact absurd hc (by simp [hd])
    have hdigits : digits (c :: cs) = (c :: cs, []) := by
      rw [digits, List.takeWhile_eq_self_iff.2 hdigit, List.dropWhile_eq_nil_iff.2 hdigit]
    have hinteger : integerPart (c :: cs) = some (c :: cs, []) := by
      rw [integerPart, hdigits]
      · rfl
      · rintro ds heq
        exact hzero (List.cons.inj heq).1
    rw [IsNumeral, hlist, hcs, numeral]
    · rw [unsigned, hinteger]
      simp [fraction, exponent]
    · exact fun ds heq => hne (by decide) (List.cons.inj heq).1
    · exact fun ds heq => hne (by decide) (List.cons.inj heq).1
    · exact fun ds heq => hne (by decide) (List.cons.inj heq).1
    · exact fun ds heq => hne (by decide) (List.cons.inj heq).1

/-! ## The round trip -/

/-- The numbers are numerals at any depth. -/
def Writable : Json → Prop
  | .number m => IsNumeral m
  | .array _ elems => ∀ i, Writable (elems i)
  | .object _ _ _ values => ∀ i, Writable (values i)
  | _ => True

instance decidableWritable : (j : Json) → Decidable (Writable j)
  | .null | .bool _ | .str _ => isTrue trivial
  | .number m => inferInstanceAs (Decidable (IsNumeral m))
  | .array n elems =>
    have (i : Fin n) : Decidable (Writable (elems i)) := decidableWritable (elems i)
    inferInstanceAs (Decidable (∀ i, Writable (elems i)))
  | .object n _ _ values =>
    have (i : Fin n) : Decidable (Writable (values i)) := decidableWritable (values i)
    inferInstanceAs (Decidable (∀ i, Writable (values i)))

theorem writable_arr {l : List Json} : Writable (.arr l) ↔ ∀ j ∈ l, Writable j :=
  List.forall_mem_iff_get.symm

theorem writable_obj {d : OrderedDict String Json} :
    Writable (.obj d) ↔ ∀ e ∈ d.entries, Writable e.2 :=
  (List.forall_mem_iff_get (p := fun e : String × Json => Writable e.2)).symm

def printEntry (e : String × Json) : List Char := printString e.1 ++ ':' :: ' ' :: print e.2

theorem print_arr (l : List Json) :
    print (.arr l) = '[' :: (separator.intercalate (l.map print) ++ [']']) := by
  rw [Json.arr, print]
  refine congrArg (fun parts => '[' :: (separator.intercalate parts ++ [']'])) ?_
  exact (List.ofFn_comp' l.get print).trans (by rw [List.ofFn_get])

theorem print_obj (d : OrderedDict String Json) :
    print (.obj d) = '{' :: (separator.intercalate (d.entries.map printEntry) ++ ['}']) := by
  refine congrArg (fun parts => '{' :: (separator.intercalate parts ++ ['}'])) ?_
  exact (List.ofFn_comp' d.entries.get printEntry).trans (by rw [List.ofFn_get])

/-- A value begins where the parser looks for it, and not with a closing bracket. -/
theorem exists_cons_print {j : Json} (h : Writable j) :
    ∃ c cs, print j = c :: cs ∧ isSpace c = false ∧ c ≠ ']' ∧ c ≠ '}' := by
  cases j with
  | null => exact ⟨_, _, rfl, by decide⟩
  | bool b => cases b <;> exact ⟨_, _, rfl, by decide⟩
  | number m =>
    obtain ⟨c, cs, hcs, hc⟩ := exists_cons_of_isNumeral h
    have hne : ∀ {d : Char}, ¬(d.isDigit = true ∨ d = '-' ∨ d = 'N' ∨ d = 'I') → c ≠ d := by
      rintro d hd rfl
      exact hd hc
    refine ⟨c, cs, hcs, ?_, hne (by decide), hne (by decide)⟩
    simp [isSpace, hne (d := ' ') (by decide), hne (d := '\t') (by decide),
      hne (d := '\n') (by decide), hne (d := '\r') (by decide)]
  | str s => exact ⟨_, _, rfl, by decide⟩
  | array n elems => exact ⟨_, _, rfl, by decide⟩
  | object n keys inj values => exact ⟨_, _, rfl, by decide⟩

theorem skipSpace_cons {c : Char} (h : isSpace c = false) (cs : List Char) :
    skipSpace (c :: cs) = c :: cs :=
  List.dropWhile_cons_of_neg (by simp [h])

theorem skipSpace_print {j : Json} (h : Writable j) (rest : List Char) :
    skipSpace (print j ++ rest) = print j ++ rest := by
  obtain ⟨c, cs, hcs, hc, -⟩ := exists_cons_print h
  rw [hcs, List.cons_append, skipSpace_cons hc]

/-- What is read back from any fuel beyond the length. -/
def ReadsBack (j : Json) : Prop := ∀ fuel rest, (print j).length < fuel → Follows rest →
  value fuel (print j ++ rest) = some (j, rest)

theorem readsBack_number {m : String} (h : IsNumeral m) : ReadsBack (.number m) := by
  intro fuel rest hfuel hrest
  cases fuel with
  | zero => cases hfuel
  | succ fuel =>
    have hnumeral := numeral_append h hrest
    obtain ⟨c, cs, hcs, hc⟩ := exists_cons_of_isNumeral h
    have hhead : ∀ {d : Char} {ds : List Char},
        ¬(d.isDigit = true ∨ d = '-' ∨ d = 'N' ∨ d = 'I') → c :: cs ++ rest = d :: ds → False := by
      intro d ds hd heq
      obtain ⟨rfl, -⟩ := List.cons.inj heq
      exact hd hc
    rw [print, hcs, value, ← hcs, hnumeral, Option.map_some, String.ofList_toList]
    · exact fun _ => hhead (by decide)
    · exact fun _ => hhead (by decide)
    · exact fun _ => hhead (by decide)
    · exact fun _ => hhead (by decide)
    · exact fun _ => hhead (by decide)
    · exact fun _ => hhead (by decide)

theorem readsBack_str (s : String) : ReadsBack (.str s) := by
  intro fuel rest hfuel hrest
  cases fuel with
  | zero => cases hfuel
  | succ fuel =>
    rw [print, printString_append, value, string_flatMap, Option.map_some, String.ofList_toList]

/-! ### The parts of arrays and objects -/

theorem elements_close {fuel : ℕ} {cs rest : List Char} {j : Json}
    (h : value fuel cs = some (j, ']' :: rest)) : elements (fuel + 1) cs = some ([j], rest) := by
  rw [elements, h, Option.bind_some, skipSpace_cons (by decide)]
  rfl

theorem elements_comma {fuel : ℕ} {cs rest : List Char} {j : Json}
    (h : value fuel cs = some (j, ',' :: rest)) :
    elements (fuel + 1) cs =
      (elements fuel (skipSpace rest)).map fun q => (j :: q.1, q.2) := by
  rw [elements, h, Option.bind_some, skipSpace_cons (by decide)]
  rfl

/-- The key of a member, and what follows its value. -/
theorem members_key {fuel : ℕ} {k : String} {v : Json} (hv : Writable v) (rest : List Char) :
    members (fuel + 1) (printEntry (k, v) ++ rest) =
      (value fuel (print v ++ rest)).bind fun p =>
        match skipSpace p.2 with
        | '}' :: rest => some ([(k, p.1)], rest)
        | ',' :: rest => (members fuel (skipSpace rest)).map fun q => ((k, p.1) :: q.1, q.2)
        | _ => none := by
  have hspace : skipSpace (' ' :: (print v ++ rest)) = print v ++ rest := skipSpace_print hv rest
  rw [printEntry, List.append_assoc, printString_append, members, string_flatMap, Option.bind_some,
    List.cons_append, List.cons_append, skipSpace_cons (by decide), String.ofList_toList]
  exact (congrArg (fun cs => (value fuel cs).bind _) hspace).trans rfl

theorem members_close {fuel : ℕ} {k : String} {v : Json} (hv : Writable v) {rest : List Char}
    (h : value fuel (print v ++ '}' :: rest) = some (v, '}' :: rest)) :
    members (fuel + 1) (printEntry (k, v) ++ '}' :: rest) = some ([(k, v)], rest) := by
  rw [members_key hv, h, Option.bind_some, skipSpace_cons (by decide)]
  rfl

theorem members_comma {fuel : ℕ} {k : String} {v : Json} (hv : Writable v) {rest : List Char}
    (h : value fuel (print v ++ ',' :: rest) = some (v, ',' :: rest)) :
    members (fuel + 1) (printEntry (k, v) ++ ',' :: rest) =
      (members fuel (skipSpace rest)).map fun q => ((k, v) :: q.1, q.2) := by
  rw [members_key hv, h, Option.bind_some, skipSpace_cons (by decide)]
  rfl

theorem exists_intercalate_cons (part : List Char) (parts : List (List Char)) :
    ∃ tail, separator.intercalate (part :: parts) = part ++ tail := by
  cases parts with
  | nil => exact ⟨[], by rw [List.intercalate_singleton, List.append_nil]⟩
  | cons part' parts => exact ⟨_, by rw [List.intercalate_cons_cons, List.append_assoc]⟩

theorem length_intercalate_cons_cons (part part' : List Char) (parts : List (List Char)) :
    (separator.intercalate (part :: part' :: parts)).length =
      part.length + 2 + (separator.intercalate (part' :: parts)).length := by
  rw [List.intercalate_cons_cons, List.length_append, List.length_append]
  rfl

theorem intercalate_cons_cons_append (part part' : List Char) (parts : List (List Char))
    (rest : List Char) : separator.intercalate (part :: part' :: parts) ++ rest =
      part ++ ',' :: ' ' :: (separator.intercalate (part' :: parts) ++ rest) := by
  rw [List.intercalate_cons_cons, List.append_assoc, List.append_assoc]
  rfl

theorem elements_intercalate {j : Json} {l : List Json} (hj : ∀ i ∈ j :: l, Writable i)
    (h : ∀ i ∈ j :: l, ReadsBack i) (fuel : ℕ) (rest : List Char)
    (hfuel : (separator.intercalate ((j :: l).map print)).length + 1 < fuel) :
    elements fuel (separator.intercalate ((j :: l).map print) ++ ']' :: rest) =
      some (j :: l, rest) := by
  induction l generalizing j fuel with
  | nil =>
    obtain ⟨fuel, rfl⟩ : ∃ n, fuel = n + 1 := ⟨fuel - 1, by omega⟩
    simp only [List.map_cons, List.map_nil, List.intercalate_singleton] at hfuel ⊢
    exact elements_close (h j (by simp) fuel _ (by omega) (follows_cons (by decide) rest))
  | cons j' l ih =>
    obtain ⟨fuel, rfl⟩ : ∃ n, fuel = n + 1 := ⟨fuel - 1, by omega⟩
    simp only [List.map_cons, length_intercalate_cons_cons] at hfuel ih ⊢
    have hhead := h j (by simp) fuel
      (',' :: ' ' :: (separator.intercalate (print j' :: l.map print) ++ ']' :: rest)) (by omega)
      (follows_cons (by decide) _)
    have hrest := ih (j := j') (fun i hi => hj i (List.mem_cons_of_mem _ hi))
      (fun i hi => h i (List.mem_cons_of_mem _ hi)) fuel (by omega)
    obtain ⟨tail, htail⟩ := exists_intercalate_cons (print j') (l.map print)
    rw [htail, List.append_assoc] at hrest hhead
    have hspace := skipSpace_print (hj j' (by simp)) (tail ++ ']' :: rest)
    rw [intercalate_cons_cons_append, htail, List.append_assoc, elements_comma hhead]
    show Option.map _ (elements fuel (skipSpace (print j' ++ _))) = _
    rw [hspace, hrest, Option.map_some]

theorem members_intercalate {e : String × Json} {l : List (String × Json)}
    (hj : ∀ i ∈ e :: l, Writable i.2) (h : ∀ i ∈ e :: l, ReadsBack i.2) (fuel : ℕ)
    (rest : List Char)
    (hfuel : (separator.intercalate ((e :: l).map printEntry)).length + 1 < fuel) :
    members fuel (separator.intercalate ((e :: l).map printEntry) ++ '}' :: rest) =
      some (e :: l, rest) := by
  have hlength : ∀ i : String × Json, (print i.2).length < (printEntry i).length := by
    intro i
    simp only [printEntry, List.length_append, List.length_cons]
    omega
  induction l generalizing e fuel with
  | nil =>
    obtain ⟨fuel, rfl⟩ : ∃ n, fuel = n + 1 := ⟨fuel - 1, by omega⟩
    simp only [List.map_cons, List.map_nil, List.intercalate_singleton] at hfuel ⊢
    have he := hlength e
    exact members_close (hj e (by simp))
      (h e (by simp) fuel _ (by omega) (follows_cons (by decide) rest))
  | cons e' l ih =>
    obtain ⟨fuel, rfl⟩ : ∃ n, fuel = n + 1 := ⟨fuel - 1, by omega⟩
    simp only [List.map_cons, length_intercalate_cons_cons] at hfuel ih ⊢
    have he := hlength e
    have hrest := ih (e := e') (fun i hi => hj i (List.mem_cons_of_mem _ hi))
      (fun i hi => h i (List.mem_cons_of_mem _ hi)) fuel (by omega)
    have hhead := fun more => h e (by simp) fuel (',' :: more) (by omega)
      (follows_cons (by decide) more)
    obtain ⟨tail, htail⟩ := exists_intercalate_cons (printEntry e') (l.map printEntry)
    have hspace : skipSpace (' ' :: (printEntry e' ++ (tail ++ '}' :: rest))) =
        printEntry e' ++ (tail ++ '}' :: rest) := by
      rw [printEntry, List.append_assoc, printString_append]
      exact skipSpace_cons (c := '"') (by decide) _
    rw [htail, List.append_assoc] at hrest
    rw [intercalate_cons_cons_append, htail, List.append_assoc,
      members_comma (hj e (by simp)) (hhead _), hspace, hrest, Option.map_some]

theorem value_bracket {fuel : ℕ} {c : Char} (hspace : isSpace c = false) (hclose : c ≠ ']')
    (cs : List Char) : value (fuel + 1) ('[' :: c :: cs) =
      (elements fuel (c :: cs)).map fun p => (.arr p.1, p.2) := by
  rw [value, skipSpace_cons hspace]
  split
  · rename_i heq
    exact absurd (List.cons.inj heq).1 hclose
  · rfl

theorem value_brace {fuel : ℕ} {c : Char} (hspace : isSpace c = false) (hclose : c ≠ '}')
    (cs : List Char) : value (fuel + 1) ('{' :: c :: cs) =
      (members fuel (c :: cs)).map fun p => (.ofEntries p.1, p.2) := by
  rw [value, skipSpace_cons hspace]
  split
  · rename_i heq
    exact absurd (List.cons.inj heq).1 hclose
  · rfl

theorem readsBack_arr {l : List Json} (h : ∀ j ∈ l, Writable j) (hread : ∀ j ∈ l, ReadsBack j) :
    ReadsBack (.arr l) := by
  intro fuel rest hfuel hrest
  obtain ⟨fuel, rfl⟩ : ∃ n, fuel = n + 1 := ⟨fuel - 1, by omega⟩
  rw [print_arr] at hfuel ⊢
  cases l with
  | nil => rfl
  | cons j l =>
    obtain ⟨c, cs, hcs, hspace, hclose, -⟩ := exists_cons_print (h j (by simp))
    obtain ⟨tail, htail⟩ := exists_intercalate_cons (print j) (l.map print)
    have helements := elements_intercalate h hread fuel rest (by
      simp only [List.length_cons, List.length_append, List.length_nil] at hfuel
      omega)
    rw [List.map_cons, htail, hcs] at helements ⊢
    simp only [List.cons_append, List.append_assoc, List.nil_append] at helements ⊢
    rw [value_bracket hspace hclose, helements, Option.map_some]

theorem readsBack_obj {d : OrderedDict String Json} (h : ∀ e ∈ d.entries, Writable e.2)
    (hread : ∀ e ∈ d.entries, ReadsBack e.2) : ReadsBack (.obj d) := by
  intro fuel rest hfuel hrest
  obtain ⟨fuel, rfl⟩ : ∃ n, fuel = n + 1 := ⟨fuel - 1, by omega⟩
  rw [print_obj] at hfuel ⊢
  have hentries : Json.ofEntries d.entries = .obj d := by
    rw [Json.ofEntries, OrderedDict.setAll_entries]
  cases hd : d.entries with
  | nil =>
    obtain rfl : d = ∅ := OrderedDict.ext hd
    rfl
  | cons e l =>
    rw [hd] at h hread hfuel hentries
    obtain ⟨tail, htail⟩ := exists_intercalate_cons (printEntry e) (l.map printEntry)
    have hmembers := members_intercalate h hread fuel rest (by
      simp only [List.length_cons, List.length_append, List.length_nil] at hfuel
      omega)
    rw [List.map_cons, htail] at hmembers ⊢
    simp only [printEntry, printString_append, List.cons_append, List.append_assoc,
      List.nil_append] at hmembers ⊢
    rw [value_brace (by decide) (by decide), hmembers, Option.map_some, hentries]

/-- What is written is read back, whatever follows. -/
theorem readsBack {j : Json} (h : Writable j) : ReadsBack j := by
  induction j using Json.induct with
  | null =>
    rintro (_ | fuel) rest hfuel -
    · cases hfuel
    · rfl
  | bool b =>
    rintro (_ | fuel) rest hfuel -
    · cases hfuel
    · cases b <;> rfl
  | number m => exact readsBack_number h
  | str s => exact readsBack_str s
  | arr l ih =>
    rw [writable_arr] at h
    exact readsBack_arr h fun j hj => ih j hj (h j hj)
  | obj d ih =>
    rw [writable_obj] at h
    exact readsBack_obj h fun e he => ih e.1 e.2 he (h e he)

theorem loads_print {j : Json} (h : Writable j) : loads (print j) = some j := by
  have hspace := skipSpace_print h []
  have hvalue := readsBack h (2 * (print j).length + 1) [] (by omega) follows_nil
  rw [List.append_nil] at hspace hvalue
  rw [loads, hspace, hvalue]
  rfl

/-! ## The order of the keys -/

theorem mem_sorted {d : OrderedDict String Json} {e : String × Json} : e ∈ sorted d ↔ e ∈ d :=
  List.mem_insertionSort _

theorem sortKeys_arr (l : List Json) : sortKeys (.arr l) = .arr (l.map sortKeys) :=
  Json.asList?_eq_some.1 (congrArg some
    ((List.ofFn_comp' l.get sortKeys).trans (by rw [List.ofFn_get])))

theorem sortKeys_obj (d : OrderedDict String Json) :
    sortKeys (.obj d) = .obj (sorted (d.mapVal fun _ => sortKeys)) := by
  refine congrArg (fun d => Json.obj (sorted d)) (OrderedDict.ext ?_)
  exact (List.ofFn_comp' d.entries.get fun e => (e.1, sortKeys e.2)).trans
    (by rw [List.ofFn_get, OrderedDict.mapVal])

theorem writable_sortKeys {j : Json} (h : Writable j) : Writable (sortKeys j) := by
  induction j using Json.induct with
  | arr l ih =>
    rw [writable_arr] at h
    rw [sortKeys_arr, writable_arr]
    intro j hj
    obtain ⟨i, hi, rfl⟩ := List.mem_map.1 hj
    exact ih i hi (h i hi)
  | obj d ih =>
    rw [writable_obj] at h
    rw [sortKeys_obj, writable_obj]
    intro e he
    obtain ⟨v, hv, heq⟩ := (OrderedDict.mem_mapVal d).1 (mem_sorted.1 he)
    rw [← heq]
    exact ih _ v hv (h _ hv)
  | _ => exact h

/-- `json.dumps` with sorted keys. -/
def dumps (j : Json) : List Char := print (sortKeys j)

theorem loads_dumps {j : Json} (h : Writable j) : loads (dumps j) = some (sortKeys j) :=
  loads_print (writable_sortKeys h)

end JsonText
