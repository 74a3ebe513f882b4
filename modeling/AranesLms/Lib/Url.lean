import Mathlib.Data.List.TakeDrop
import Mathlib.Tactic.Common

/-!
# Splitting URLs

`urlsplit` of Python's `urllib.parse`, on the characters of the URL.  `netlocOk` is its check of a
network location, which parses addresses in brackets and normalises; it raises a `ValueError` where
`netlocOk` fails.  `lower` is `str.lower`.
-/

/-- What `urlsplit` gives. -/
structure SplitResult where
  scheme : String
  netloc : String
  path : String
  query : String
  fragment : String
  deriving DecidableEq

namespace Url

/-- `str.partition`, but for the separator: what is before the first `c`, and what is after it. -/
def partition (c : Char) (l : List Char) : List Char × List Char :=
  (l.takeWhile (· ≠ c), (l.dropWhile (· ≠ c)).tail)

/-- What is after the last `c`, or everything. -/
def afterLast (c : Char) (l : List Char) : List Char := (l.reverse.takeWhile (· ≠ c)).reverse

/-- A control character or a space. -/
def isControlOrSpace (c : Char) : Bool := c.toNat ≤ 32

/-- Tabs and line ends are removed wherever they are. -/
def isRemoved (c : Char) : Bool := c = '\t' ∨ c = '\r' ∨ c = '\n'

def isSchemeChar (c : Char) : Bool := c.isAlphanum ∨ c = '+' ∨ c = '-' ∨ c = '.'

/-- The scheme, and the rest of the URL. -/
def splitScheme (url : List Char) : String × List Char :=
  let (scheme, rest) := partition ':' url
  if ':' ∈ url ∧ (scheme.head?.any Char.isAlpha) ∧ scheme.all isSchemeChar then
    ((String.ofList scheme).toLower, rest)
  else ("", url)

/-- The network location, and the rest of the URL. -/
def splitNetloc : List Char → List Char × List Char
  | '/' :: '/' :: url => (url.takeWhile fun c => c ∉ ['/', '?', '#'],
      url.dropWhile fun c => c ∉ ['/', '?', '#'])
  | url => ([], url)

def urlsplit (netlocOk : String → Bool) (url : String) : Option SplitResult :=
  let chars := (url.toList.dropWhile isControlOrSpace).filter fun c => ¬ isRemoved c
  let (scheme, rest) := splitScheme chars
  let (netloc, rest) := splitNetloc rest
  if ('[' ∈ netloc ↔ ']' ∈ netloc) ∧ netlocOk (String.ofList netloc) then
    let (rest, fragment) := partition '#' rest
    let (path, query) := partition '?' rest
    some ⟨scheme, String.ofList netloc, String.ofList path, String.ofList query,
      String.ofList fragment⟩
  else none

/-- The characters of the host in a network location. -/
def hostChars (netloc : List Char) : List Char :=
  let hostinfo := afterLast '@' netloc
  if '[' ∈ hostinfo then (partition ']' (partition '[' hostinfo).2).1
  else (partition ':' hostinfo).1

/-- `SplitResult.hostname`, with the empty string for `None`; the zone of an address is left as it
is. -/
def hostname (lower : String → String) (parts : SplitResult) : String :=
  let host := hostChars parts.netloc.toList
  lower (String.ofList (host.takeWhile (· ≠ '%'))) ++ String.ofList (host.dropWhile (· ≠ '%'))

example : urlsplit (fun _ => true) "HTTP://u:p@InProcess.local:80/api/v1?q=1#top" =
    some ⟨"http", "u:p@InProcess.local:80", "/api/v1", "q=1", "top"⟩ := by decide +kernel

example : hostname String.toLower ⟨"http", "u:p@InProcess.local:80", "", "", ""⟩ =
    "inprocess.local" := by decide +kernel

end Url
