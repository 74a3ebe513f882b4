import AranesLms.Lib.Utf8
import Mathlib.Data.Int.Basic
import Mathlib.Data.List.Basic
import Mathlib.Data.List.TakeWhile
import Mathlib.Data.Nat.Digits.Defs
import Mathlib.Tactic.Common

/-!
# Python strings

A `str` is a sequence of code points, which may be surrogates, so that not every one can be encoded.

* `split sep n s` is `s.split(sep, n)` for a separator of one character; `split_append` gives its
  first part, and `split_succ_cases` says what parts there can be.
* `int decimal maxStrDigits s` is `int(s)`, where `decimal` gives the digits outside ASCII and
  `maxStrDigits` bounds the length of a numeral unless it is 0.
-/

abbrev CodePoint := Fin 0x110000

abbrev PyStr := List CodePoint

namespace PyStr

def ofChar (c : Char) : CodePoint := Fin.ofNat _ c.toNat

def ofString (s : String) : PyStr := s.toList.map ofChar

/-- `str(n)`. -/
def ofNat (n : ℕ) : PyStr := ofString (toString n)

theorem ofChar_injective : Function.Injective ofChar := by
  intro c d h
  have hlt : ∀ c : Char, c.toNat < 0x110000 := fun c => by
    rcases c.valid with hc | hc
    · exact lt_trans hc (by decide)
    · exact hc.2
  have hval : c.toNat % 0x110000 = d.toNat % 0x110000 := congrArg Fin.val h
  rw [Nat.mod_eq_of_lt (hlt c), Nat.mod_eq_of_lt (hlt d)] at hval
  exact Char.toNat_inj.1 hval

theorem ofString_injective : Function.Injective ofString := by
  intro s t h
  exact String.toList_inj.1 (ofChar_injective.list_map h)

theorem ofString_append (s t : String) : ofString (s ++ t) = ofString s ++ ofString t := by
  rw [ofString, String.toList_append, List.map_append, ofString, ofString]

theorem length_ofString (s : String) : (ofString s).length = s.length := by
  rw [ofString, List.length_map, String.length_toList]

/-- `str.isascii`. -/
def isAscii (s : PyStr) : Bool := s.all fun c => c.val < 128

/-! ## Encoding -/

/-- The character, unless it is a surrogate. -/
def toChar? (c : CodePoint) : Option Char :=
  if h : c.val.isValidChar then some (Char.ofNatAux c.val h) else none

/-- `s.encode("utf-8")`, or nothing for a `UnicodeEncodeError`. -/
def encode (s : PyStr) : Option (List UInt8) :=
  (s.mapM toChar?).map Utf8.encode

def hexDigit (n : ℕ) : CodePoint := if n < 10 then Fin.ofNat _ (48 + n) else Fin.ofNat _ (87 + n)

/-- `bytes.hex`. -/
def hex (bytes : List UInt8) : PyStr :=
  bytes.flatMap fun b => [hexDigit (b.toNat / 16), hexDigit (b.toNat % 16)]

theorem isAscii_hex (bytes : List UInt8) : isAscii (hex bytes) := by
  have hdigit : ∀ n < 16, (hexDigit n).val < 128 := by decide
  rw [isAscii, List.all_eq_true]
  intro c hc
  obtain ⟨b, -, hb⟩ := List.mem_flatMap.1 hc
  have hlt := b.toNat_lt
  simp only [List.mem_cons, List.not_mem_nil, or_false] at hb
  rcases hb with rfl | rfl
  · exact decide_eq_true (hdigit _ (by omega))
  · exact decide_eq_true (hdigit _ (by omega))

/-! ## Splitting -/

section

variable (sep : CodePoint)

def split : ℕ → PyStr → List PyStr
  | 0, s => [s]
  | n + 1, s =>
    match s.dropWhile (· ≠ sep) with
    | [] => [s]
    | _ :: rest => s.takeWhile (· ≠ sep) :: split n rest

variable {sep}

theorem split_of_notMem {s : PyStr} (h : sep ∉ s) (n : ℕ) : split sep n s = [s] := by
  cases n with
  | zero => rfl
  | succ n =>
    have hnil : s.dropWhile (· ≠ sep) = [] :=
      List.dropWhile_eq_nil_iff.2 fun c hc => decide_eq_true fun heq => h (heq ▸ hc)
    rw [split, hnil]

theorem split_append {a : PyStr} (h : sep ∉ a) (n : ℕ) (rest : PyStr) :
    split sep (n + 1) (a ++ sep :: rest) = a :: split sep n rest := by
  have hall : ∀ c ∈ a, decide (c ≠ sep) = true :=
    fun c hc => decide_eq_true fun heq => h (heq ▸ hc)
  have hdrop : (a ++ sep :: rest).dropWhile (· ≠ sep) = sep :: rest := by
    rw [List.dropWhile_append_of_pos hall, List.dropWhile_cons_of_neg (by simp)]
  have htake : (a ++ sep :: rest).takeWhile (· ≠ sep) = a := by
    rw [List.takeWhile_append_of_pos hall, List.takeWhile_cons_of_neg (by simp), List.append_nil]
  rw [split, hdrop, htake]

/-- There is only one part, or the first one is followed by a separator. -/
theorem split_succ_cases (s : PyStr) (n : ℕ) : split sep (n + 1) s = [s] ∨
    ∃ a rest, s = a ++ sep :: rest ∧ sep ∉ a ∧ split sep (n + 1) s = a :: split sep n rest := by
  by_cases hmem : sep ∈ s
  · obtain ⟨a, rest, rfl, ha⟩ := List.eq_append_cons_of_mem hmem
    exact Or.inr ⟨a, rest, rfl, ha, split_append ha n rest⟩
  · exact Or.inl (split_of_notMem hmem _)

end

/-! ## Integers -/

section

variable (decimal : CodePoint → Option (Fin 10)) (maxStrDigits : ℕ)

/-- The white space around a numeral. -/
def isSpace (c : CodePoint) : Bool :=
  let n := c.val
  (9 ≤ n ∧ n ≤ 13) ∨ n = 32 ∨ n = 0x85 ∨ n = 0xA0 ∨ n = 0x1680 ∨ (0x2000 ≤ n ∧ n ≤ 0x200A) ∨
    n = 0x2028 ∨ n = 0x2029 ∨ n = 0x202F ∨ n = 0x205F ∨ n = 0x3000

def digit (c : CodePoint) : Option ℕ :=
  if c.val < 128 then
    if 48 ≤ c.val ∧ c.val ≤ 57 then some (c.val - 48) else none
  else (decimal c).map Fin.val

/-- The digits of a numeral, with single underscores between some of them. -/
def digits : PyStr → Option (List ℕ)
  | [] => none
  | [c] => (digit decimal c).map fun d => [d]
  | c :: c' :: s => do
    let d ← digit decimal c
    let ds ← if c' = ofChar '_' then digits s else digits (c' :: s)
    return d :: ds

/-- `int(s)`, or nothing for a `ValueError`. -/
def int (s : PyStr) : Option ℤ := do
  let s := ((s.dropWhile isSpace).reverse.dropWhile isSpace).reverse
  let (sign, numeral) : ℤ × PyStr :=
    match s with
    | [] => (1, [])
    | c :: rest =>
      if c = ofChar '+' then (1, rest) else if c = ofChar '-' then (-1, rest) else (1, s)
  let ds ← digits decimal numeral
  if maxStrDigits ≠ 0 ∧ maxStrDigits < ds.length then none
  else return sign * (Nat.ofDigits 10 ds.reverse : ℕ)

example : int (fun _ => none) 4300 (ofString " -1_000\n") = some (-1000) := by decide

end

end PyStr
