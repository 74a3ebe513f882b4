import AranesLms.Lib.Json

/-!
# A JSON parser

`loads` reads a text.  A number is kept as its numeral, and the last value of a repeated key counts.
The parser counts down from twice the length of the text: what opens an array or an object costs
two, and a comma in it one.
-/

namespace JsonText

/-! ## Strings -/

/-- The value of a hexadecimal digit. -/
def hexValue (c : Char) : Option ℕ :=
  if '0' ≤ c ∧ c ≤ '9' then some (c.toNat - 48)
  else if 'a' ≤ c ∧ c ≤ 'f' then some (c.toNat - 87)
  else if 'A' ≤ c ∧ c ≤ 'F' then some (c.toNat - 55)
  else none

def hex4 (a b c d : Char) : Option ℕ := do
  let a ← hexValue a
  let b ← hexValue b
  let c ← hexValue c
  let d ← hexValue d
  return 4096 * a + 256 * b + 16 * c + d

/-- What the letter of an escape stands for. -/
def unescape (c : Char) : Option Char :=
  if c = '"' then some '"'
  else if c = '\\' then some '\\'
  else if c = '/' then some '/'
  else if c = 'b' then some '\x08'
  else if c = 'f' then some '\x0c'
  else if c = 'n' then some '\n'
  else if c = 'r' then some '\r'
  else if c = 't' then some '\t'
  else none

/-- The rest of a string behind its quotation mark.  A surrogate must be half of a pair: a string
with another one is no `String`. -/
def string : List Char → Option (List Char × List Char)
  | '"' :: cs => some ([], cs)
  | '\\' :: 'u' :: a :: b :: c :: d :: cs =>
    (hex4 a b c d).bind fun u =>
      if 0xd800 ≤ u ∧ u < 0xdc00 then
        match cs with
        | '\\' :: 'u' :: a' :: b' :: c' :: d' :: cs =>
          (hex4 a' b' c' d').bind fun v =>
            if 0xdc00 ≤ v ∧ v < 0xe000 then
              (string cs).map fun p =>
                (Char.ofNat (0x10000 + 0x400 * (u - 0xd800) + (v - 0xdc00)) :: p.1, p.2)
            else none
        | _ => none
      else if 0xdc00 ≤ u ∧ u < 0xe000 then none
      else (string cs).map fun p => (Char.ofNat u :: p.1, p.2)
  | '\\' :: c :: cs =>
    (unescape c).bind fun e => (string cs).map fun p => (e :: p.1, p.2)
  | c :: cs => if c.toNat < 0x20 then none else (string cs).map fun p => (c :: p.1, p.2)
  | [] => none

/-! ## Numerals -/

/-- Split off the digits in front. -/
def digits (cs : List Char) : List Char × List Char :=
  (cs.takeWhile Char.isDigit, cs.dropWhile Char.isDigit)

/-- `0|[1-9][0-9]*`. -/
def integerPart : List Char → Option (List Char × List Char)
  | '0' :: cs => some (['0'], cs)
  | cs => if (digits cs).1 = [] then none else some (digits cs)

/-- `(\.[0-9]+)?`. -/
def fraction : List Char → List Char × List Char
  | '.' :: cs =>
    if (digits cs).1 = [] then ([], '.' :: cs) else ('.' :: (digits cs).1, (digits cs).2)
  | cs => ([], cs)

/-- `([-+]?[0-9]+)?`, behind the letter of an exponent. -/
def exponentDigits : List Char → Option (List Char × List Char)
  | '+' :: cs => if (digits cs).1 = [] then none else some ('+' :: (digits cs).1, (digits cs).2)
  | '-' :: cs => if (digits cs).1 = [] then none else some ('-' :: (digits cs).1, (digits cs).2)
  | cs => if (digits cs).1 = [] then none else some (digits cs)

/-- `([eE][-+]?[0-9]+)?`. -/
def exponent : List Char → List Char × List Char
  | 'e' :: cs =>
    match exponentDigits cs with
    | some p => ('e' :: p.1, p.2)
    | none => ([], 'e' :: cs)
  | 'E' :: cs =>
    match exponentDigits cs with
    | some p => ('E' :: p.1, p.2)
    | none => ([], 'E' :: cs)
  | cs => ([], cs)

def unsigned (cs : List Char) : Option (List Char × List Char) :=
  (integerPart cs).map fun p =>
    (p.1 ++ (fraction p.2).1 ++ (exponent (fraction p.2).2).1, (exponent (fraction p.2).2).2)

/-- The numeral in front of a text, or one of the three constants that are no numerals. -/
def numeral : List Char → Option (List Char × List Char)
  | 'N' :: 'a' :: 'N' :: cs => some (['N', 'a', 'N'], cs)
  | 'I' :: 'n' :: 'f' :: 'i' :: 'n' :: 'i' :: 't' :: 'y' :: cs => some ("Infinity".toList, cs)
  | '-' :: 'I' :: 'n' :: 'f' :: 'i' :: 'n' :: 'i' :: 't' :: 'y' :: cs =>
    some ("-Infinity".toList, cs)
  | '-' :: cs => (unsigned cs).map fun p => ('-' :: p.1, p.2)
  | cs => unsigned cs

/-! ## Values -/

def isSpace (c : Char) : Bool := c = ' ' || c = '\t' || c = '\n' || c = '\r'

def skipSpace (cs : List Char) : List Char := cs.dropWhile isSpace

mutual

def value : ℕ → List Char → Option (Json × List Char)
  | 0, _ => none
  | fuel + 1, cs =>
    match cs with
    | '"' :: cs => (string cs).map fun p => (.str (String.ofList p.1), p.2)
    | '{' :: cs =>
      match skipSpace cs with
      | '}' :: rest => some (.obj ∅, rest)
      | cs => (members fuel cs).map fun p => (.ofEntries p.1, p.2)
    | '[' :: cs =>
      match skipSpace cs with
      | ']' :: rest => some (.arr [], rest)
      | cs => (elements fuel cs).map fun p => (.arr p.1, p.2)
    | 'n' :: 'u' :: 'l' :: 'l' :: rest => some (.null, rest)
    | 't' :: 'r' :: 'u' :: 'e' :: rest => some (.bool true, rest)
    | 'f' :: 'a' :: 'l' :: 's' :: 'e' :: rest => some (.bool false, rest)
    | cs => (numeral cs).map fun p => (.number (String.ofList p.1), p.2)

/-- The elements of an array, behind its bracket and the space there. -/
def elements : ℕ → List Char → Option (List Json × List Char)
  | 0, _ => none
  | fuel + 1, cs =>
    (value fuel cs).bind fun p =>
      match skipSpace p.2 with
      | ']' :: rest => some ([p.1], rest)
      | ',' :: rest => (elements fuel (skipSpace rest)).map fun q => (p.1 :: q.1, q.2)
      | _ => none

/-- The members of an object, behind its brace and the space there. -/
def members : ℕ → List Char → Option (List (String × Json) × List Char)
  | 0, _ => none
  | fuel + 1, cs =>
    match cs with
    | '"' :: cs =>
      (string cs).bind fun k =>
        match skipSpace k.2 with
        | ':' :: rest =>
          (value fuel (skipSpace rest)).bind fun p =>
            match skipSpace p.2 with
            | '}' :: rest => some ([(String.ofList k.1, p.1)], rest)
            | ',' :: rest =>
              (members fuel (skipSpace rest)).map fun q => ((String.ofList k.1, p.1) :: q.1, q.2)
            | _ => none
        | _ => none
    | _ => none

end

def loads (text : List Char) : Option Json :=
  match value (2 * text.length + 1) (skipSpace text) with
  | some (j, rest) => if skipSpace rest = [] then some j else none
  | none => none

end JsonText
