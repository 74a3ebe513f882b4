import AranesLms.Lib.Json
import AranesLms.Lib.PercentCoding

/-!
# References inside a JSON document

A reference inside the document is a fragment `#/a/b`.  It is percent-encoded, and the pointer
`/a/b` writes `~` in a token as `~0` and `/` as `~1`; `pointer? ref` are the tokens.

A text with an underscore behind it stands for itself at the beginning of a token exactly when it
has no slash, no escape and no triplet (`tokens_underscore_iff`).
-/

namespace Json

open Percent (unquote)

def unescape : List Char → List Char
  | '~' :: '0' :: cs => '~' :: unescape cs
  | '~' :: '1' :: cs => '/' :: unescape cs
  | c :: cs => c :: unescape cs
  | [] => []

/-- The tokens of a pointer without its first slash. -/
def tokens (cs : List Char) : List String :=
  (cs.splitOn '/').map fun token => String.ofList (unescape token)

/-- The tokens of a reference inside the document. -/
def pointer? (ref : String) : Option (List String) :=
  match ref.toList with
  | '#' :: cs =>
    match unquote cs with
    | [] => some []
    | '/' :: ds => some (tokens ds)
    | _ => none
  | _ => none

/-- The text names itself in a reference. -/
def Plain (s : String) : Prop :=
  '/' ∉ s.toList ∧ unescape s.toList = s.toList ∧ unquote s.toList = s.toList

instance (s : String) : Decidable (Plain s) := inferInstanceAs (Decidable (_ ∧ _ ∧ _))

/-! ## Tokens -/

theorem exists_tokens_eq (cs : List Char) : ∃ token tokens', tokens cs = token :: tokens' := by
  cases hsplit : cs.splitOn '/' with
  | nil => exact absurd hsplit (List.splitOn_ne_nil '/' cs)
  | cons token tokens' => exact ⟨_, _, by rw [tokens, hsplit, List.map_cons]⟩

theorem tokens_append_slash (cs ds : List Char) :
    tokens (cs ++ '/' :: ds) = tokens cs ++ tokens ds := by
  rw [tokens, List.splitOn_append_cons_self, List.map_append]
  rfl

theorem unquote_append_slash (cs ds : List Char) :
    unquote (cs ++ '/' :: ds) = unquote cs ++ '/' :: unquote ds :=
  Percent.unquote_append_cons (by decide) (by decide) (by decide) cs ds

/-- The tokens of a reference with a slash in it. -/
theorem pointer?_append_slash (cs ds : List Char) :
    pointer? (String.ofList ('#' :: '/' :: (cs ++ '/' :: ds))) =
      some (tokens (unquote cs) ++ tokens (unquote ds)) := by
  have hroot : unquote ('/' :: (cs ++ '/' :: ds)) = '/' :: (unquote cs ++ '/' :: unquote ds) := by
    rw [← unquote_append_slash]
    exact unquote_append_slash [] _
  rw [pointer?, String.toList_ofList, ← tokens_append_slash]
  show (match unquote ('/' :: (cs ++ '/' :: ds)) with
    | [] => some []
    | '/' :: ds => some (tokens ds)
    | _ => none) = _
  rw [hroot]
  rfl

/-! ## Texts that name themselves -/

/-- A character that starts no escape. -/
theorem unescape_cons {c : Char} {cs : List Char} (h : ∀ ds, c = '~' → cs = '0' :: ds → False)
    (h' : ∀ ds, c = '~' → cs = '1' :: ds → False) : unescape (c :: cs) = c :: unescape cs :=
  unescape.eq_3 c cs h h'

/-- Nothing is unescaped across an underscore. -/
theorem unescape_append_underscore (cs ds : List Char) :
    unescape (cs ++ '_' :: ds) = unescape cs ++ '_' :: unescape ds := by
  induction cs using unescape.induct with
  | case1 cs ih => simpa [unescape] using ih
  | case2 cs ih => simpa [unescape] using ih
  | case3 c cs h h' ih =>
    rw [List.cons_append, unescape_cons, unescape_cons h h', ih, List.cons_append]
    · rintro es rfl heq
      cases cs with
      | nil => simp at heq
      | cons c' cs => exact h cs rfl (by simp_all)
    · rintro es rfl heq
      cases cs with
      | nil => simp at heq
      | cons c' cs => exact h' cs rfl (by simp_all)
  | case4 => simp [unescape]

theorem countP_unescape_le (p : Char → Bool) (hslash : p '/' = p '~') (cs : List Char) :
    (unescape cs).countP p ≤ cs.countP p := by
  induction cs using unescape.induct with
  | case1 cs ih =>
    simp only [unescape, List.countP_cons]
    omega
  | case2 cs ih =>
    simp only [unescape, List.countP_cons, hslash]
    omega
  | case3 c cs h h' ih =>
    rw [unescape_cons h h', List.countP_cons, List.countP_cons]
    omega
  | case4 => exact Nat.le_refl _

/-- What decodes and unescapes to itself has no triplet. -/
theorem plain_iff {s : String} :
    Plain s ↔ '/' ∉ unquote s.toList ∧ unescape (unquote s.toList) = s.toList := by
  constructor
  · rintro ⟨hslash, hescape, hquote⟩
    rw [hquote]
    exact ⟨hslash, hescape⟩
  · rintro ⟨hslash, hself⟩
    have hquote : unquote s.toList = s.toList := by
      rw [Percent.unquote_eq_self_iff]
      intro htriplet
      have hlt := (Percent.countP_unquoteToBytes s.toList).2 htriplet
      have hle := countP_unescape_le Utf8.isAscii rfl (unquote s.toList)
      rw [hself, unquote, Utf8.countP_decode] at hle
      exact absurd hlt (Nat.not_lt.2 hle)
    rw [hquote] at hslash hself
    exact ⟨hslash, hself, hquote⟩

theorem length_tokens (cs : List Char) : (tokens cs).length = cs.count '/' + 1 := by
  rw [tokens, List.length_map]
  induction cs with
  | nil => rfl
  | cons c cs ih =>
    rw [List.splitOn_cons_eq_if_modifyHead]
    split_ifs with h
    · rw [List.length_cons, ih, beq_iff_eq.1 h, List.count_cons_self]
    · rw [List.length_modifyHead, ih, List.count_cons_of_ne (by simpa using h)]

/-- A separator that does not occur in the first part. -/
theorem splitOn_append {c : Char} {cs : List Char} (h : c ∉ cs) (ds : List Char) :
    (cs ++ ds).splitOn c = (ds.splitOn c).modifyHead (cs ++ ·) := by
  induction cs with
  | nil =>
    rw [List.nil_append]
    cases ds.splitOn c <;> rfl
  | cons c' cs ih =>
    rw [List.mem_cons, not_or] at h
    rw [List.cons_append, List.splitOn_cons_eq_if_modifyHead, ih h.2,
      if_neg (by simpa using Ne.symm h.1)]
    cases ds.splitOn c <;> rfl

theorem tokens_underscore {u : List Char} (hslash : '/' ∉ u) {ds : List Char} {token : String}
    {tokens' : List String} (h : tokens ds = token :: tokens') :
    tokens (u ++ '_' :: ds) = String.ofList (unescape u ++ '_' :: token.toList) :: tokens' := by
  rw [tokens] at h ⊢
  cases hsplit : ds.splitOn '/' with
  | nil => exact absurd hsplit (List.splitOn_ne_nil '/' ds)
  | cons d ds' =>
    rw [hsplit, List.map_cons, List.cons.injEq] at h
    obtain ⟨rfl, rfl⟩ := h
    have hnot : '/' ∉ u ++ ['_'] := by simp [hslash]
    rw [show u ++ '_' :: ds = (u ++ ['_']) ++ ds by simp, splitOn_append hnot, hsplit,
      List.modifyHead_cons, List.map_cons, List.append_assoc, List.singleton_append,
      unescape_append_underscore, String.toList_ofList]

/-- The text stands for itself in front of an underscore, whatever follows. -/
theorem tokens_underscore_iff {s : String} {ds : List Char} {token : String}
    {tokens' : List String} (h : tokens (unquote ds) = token :: tokens') :
    tokens (unquote (s.toList ++ '_' :: ds)) = (s ++ "_" ++ token) :: tokens' ↔ Plain s := by
  rw [plain_iff, Percent.unquote_append_cons (by decide) (by decide) (by decide)]
  have hname : ∀ u : List Char, String.ofList (unescape u ++ '_' :: token.toList) =
      s ++ "_" ++ token ↔ unescape u = s.toList := by
    intro u
    rw [← String.toList_inj, String.toList_ofList, String.toList_append, String.toList_append,
      List.append_assoc]
    exact List.append_left_inj _
  constructor
  · intro heq
    have hslash : '/' ∉ unquote s.toList := by
      have hlength := congrArg List.length heq
      have hlength' := congrArg List.length h
      rw [length_tokens, List.length_cons] at hlength hlength'
      rw [List.count_append, List.count_cons_of_ne (by decide)] at hlength
      exact List.count_eq_zero.1 (by omega)
    rw [tokens_underscore hslash h, List.cons.injEq, hname] at heq
    exact ⟨hslash, heq.1⟩
  · rintro ⟨hslash, hself⟩
    rw [tokens_underscore hslash h, (hname _).2 hself]

end Json
