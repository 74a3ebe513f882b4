import AranesLms.Lib.JsonText

/-!
# Indented JSON texts

`printIndented` writes every element and every member on a line of its own, two blanks further in
at every depth.  What is written is read back (`loads_printIndented`); `reads_arr` and `reads_obj`
hold for any white space between the parts.
-/

namespace JsonText

/-! ## Writing -/

def newline (level : ℕ) : List Char := '\n' :: List.replicate (2 * level) ' '

/-- The parts between brackets, on lines of their own. -/
def block (opening closing : Char) (level : ℕ) (parts : List (List Char)) : List Char :=
  if parts = [] then [opening, closing]
  else opening :: (newline (level + 1) ++ ((',' :: newline (level + 1)).intercalate parts ++
    (newline level ++ [closing])))

def member (key : String) (text : List Char) : List Char := printString key ++ ':' :: ' ' :: text

/-- `json.dumps` with `indent=2`. -/
def printIndented : ℕ → Json → List Char
  | level, .array _ elems =>
    block '[' ']' level (List.ofFn fun i => printIndented (level + 1) (elems i))
  | level, .object _ keys _ values =>
    block '{' '}' level (List.ofFn fun i => member (keys i) (printIndented (level + 1) (values i)))
  | _, j => print j

/-! ## White space -/

def Blank (cs : List Char) : Prop := ∀ c ∈ cs, isSpace c = true

theorem blank_newline (level : ℕ) : Blank (newline level) := by
  intro c hc
  rcases List.mem_cons.1 hc with rfl | hc
  · rfl
  · obtain rfl := List.eq_of_mem_replicate hc
    rfl

theorem skipSpace_blank {gap : List Char} (h : Blank gap) (cs : List Char) :
    skipSpace (gap ++ cs) = skipSpace cs :=
  List.dropWhile_append_of_pos h

theorem follows_blank {gap cs : List Char} (h : Blank gap) (hcs : Follows cs) :
    Follows (gap ++ cs) := by
  cases gap with
  | nil => exact hcs
  | cons c gap =>
    have hc := h c List.mem_cons_self
    simp only [isSpace, Bool.or_eq_true, decide_eq_true_eq] at hc
    rcases hc with ((rfl | rfl) | rfl) | rfl
    all_goals exact follows_cons (by decide) _

/-! ## Reading -/

/-- The text begins where the parser looks for a value, and is read as the value, whatever
follows. -/
structure Reads (text : List Char) (j : Json) : Prop where
  head : ∃ c cs, text = c :: cs ∧ isSpace c = false ∧ c ≠ ']' ∧ c ≠ '}'
  value : ∀ fuel rest, text.length < fuel → Follows rest →
    value fuel (text ++ rest) = some (j, rest)

theorem reads_print {j : Json} (h : Writable j) : Reads (print j) j :=
  ⟨exists_cons_print h, readsBack h⟩

theorem Reads.skipSpace {text : List Char} {j : Json} (h : Reads text j) (rest : List Char) :
    skipSpace (text ++ rest) = text ++ rest := by
  obtain ⟨c, cs, rfl, hc, -⟩ := h.head
  exact skipSpace_cons hc (cs ++ rest)

theorem length_intercalate (gap part part' : List Char) (parts : List (List Char)) :
    ((',' :: gap).intercalate (part :: part' :: parts)).length =
      part.length + (gap.length + 1) + ((',' :: gap).intercalate (part' :: parts)).length := by
  rw [List.intercalate_cons_cons, List.length_append, List.length_append]
  rfl

theorem elements_end {fuel : ℕ} {cs tail rest : List Char} {j : Json}
    (h : value fuel cs = some (j, tail)) (htail : skipSpace tail = ']' :: rest) :
    elements (fuel + 1) cs = some ([j], rest) := by
  rw [elements, h, Option.bind_some, htail]
  rfl

theorem elements_next {fuel : ℕ} {cs tail rest : List Char} {j : Json}
    (h : value fuel cs = some (j, tail)) (htail : skipSpace tail = ',' :: rest) :
    elements (fuel + 1) cs =
      (elements fuel (skipSpace rest)).map fun q => (j :: q.1, q.2) := by
  rw [elements, h, Option.bind_some, htail]
  rfl

/-- The key of a member, its value, and what follows. -/
theorem members_member {fuel : ℕ} {k : String} {text : List Char} {v : Json} (h : Reads text v)
    {tail : List Char} (hvalue : value fuel (text ++ tail) = some (v, tail)) :
    members (fuel + 1) (member k text ++ tail) =
      match skipSpace tail with
      | '}' :: rest => some ([(k, v)], rest)
      | ',' :: rest => (members fuel (skipSpace rest)).map fun q => ((k, v) :: q.1, q.2)
      | _ => none := by
  have hspace : skipSpace (' ' :: (text ++ tail)) = text ++ tail := h.skipSpace tail
  rw [member, List.append_assoc, printString_append, members, string_flatMap, Option.bind_some,
    List.cons_append, List.cons_append, skipSpace_cons (by decide), String.ofList_toList]
  change (value fuel (skipSpace (' ' :: (text ++ tail)))).bind _ = _
  rw [hspace, hvalue]
  rfl

theorem members_end {fuel : ℕ} {k : String} {text tail rest : List Char} {v : Json}
    (h : Reads text v) (hvalue : value fuel (text ++ tail) = some (v, tail))
    (htail : skipSpace tail = '}' :: rest) :
    members (fuel + 1) (member k text ++ tail) = some ([(k, v)], rest) := by
  rw [members_member h hvalue, htail]
  rfl

theorem members_next {fuel : ℕ} {k : String} {text tail rest : List Char} {v : Json}
    (h : Reads text v) (hvalue : value fuel (text ++ tail) = some (v, tail))
    (htail : skipSpace tail = ',' :: rest) : members (fuel + 1) (member k text ++ tail) =
      (members fuel (skipSpace rest)).map fun q => ((k, v) :: q.1, q.2) := by
  rw [members_member h hvalue, htail]
  rfl

/-- The text of a member. -/
def ReadsMember (text : List Char) (e : String × Json) : Prop :=
  ∃ value, text = member e.1 value ∧ Reads value e.2

theorem ReadsMember.skipSpace {text : List Char} {e : String × Json} (h : ReadsMember text e)
    (rest : List Char) : skipSpace (text ++ rest) = text ++ rest := by
  obtain ⟨value, rfl, -⟩ := h
  rw [member, List.append_assoc, printString_append]
  exact skipSpace_cons (c := '"') (by decide) _

/-- The parts after the first one begin where the parser looks for them. -/
theorem skipSpace_intercalate {α : Type} {R : List Char → α → Prop}
    (hR : ∀ text a, R text a → ∀ rest, skipSpace (text ++ rest) = text ++ rest) (gap : List Char)
    {text : List Char} {a : α} (h : R text a) (texts : List (List Char)) (rest : List Char) :
    skipSpace ((',' :: gap).intercalate (text :: texts) ++ rest) =
      (',' :: gap).intercalate (text :: texts) ++ rest := by
  cases texts with
  | nil =>
    rw [List.intercalate_singleton]
    exact hR text a h rest
  | cons text' texts =>
    rw [List.intercalate_cons_cons, List.append_assoc, List.append_assoc]
    exact hR text a h _

section

variable {gap close : List Char} (hgap : Blank gap) (hclose : Blank close)

include hgap hclose

theorem elements_spaced {text : List Char} {j : Json} {texts : List (List Char)} {js : List Json}
    (h : List.Forall₂ Reads (text :: texts) (j :: js)) (fuel : ℕ) (rest : List Char)
    (hfuel : ((',' :: gap).intercalate (text :: texts)).length + 1 < fuel) :
    elements fuel ((',' :: gap).intercalate (text :: texts) ++ (close ++ ']' :: rest)) =
      some (j :: js, rest) := by
  induction texts generalizing text j js fuel with
  | nil =>
    obtain ⟨fuel, rfl⟩ : ∃ n, fuel = n + 1 := ⟨fuel - 1, by omega⟩
    obtain ⟨hj, htail⟩ := List.forall₂_cons.1 h
    obtain rfl := List.forall₂_nil_left_iff.1 htail
    rw [List.intercalate_singleton] at hfuel ⊢
    refine elements_end (hj.value fuel _ (by omega) ?_) ?_
    · exact follows_blank hclose (follows_cons (by decide) rest)
    · rw [skipSpace_blank hclose, skipSpace_cons (by decide)]
  | cons text' texts ih =>
    obtain ⟨fuel, rfl⟩ : ∃ n, fuel = n + 1 := ⟨fuel - 1, by omega⟩
    obtain ⟨hj, htail⟩ := List.forall₂_cons.1 h
    obtain ⟨j', js, hj', -, rfl⟩ := List.forall₂_cons_left_iff.1 htail
    rw [length_intercalate] at hfuel
    have hvalue := fun more =>
      hj.value fuel (',' :: more) (by omega) (follows_cons (by decide) more)
    have hspace := skipSpace_intercalate (fun _ _ hread => hread.skipSpace) gap hj'
      texts (close ++ ']' :: rest)
    rw [List.intercalate_cons_cons, List.append_assoc, List.append_assoc, List.cons_append,
      elements_next (hvalue _) (skipSpace_cons (by decide) _), skipSpace_blank hgap, hspace,
      ih htail fuel (by omega), Option.map_some]

theorem members_spaced {text : List Char} {e : String × Json} {texts : List (List Char)}
    {es : List (String × Json)} (h : List.Forall₂ ReadsMember (text :: texts) (e :: es)) (fuel : ℕ)
    (rest : List Char) (hfuel : ((',' :: gap).intercalate (text :: texts)).length + 1 < fuel) :
    members fuel ((',' :: gap).intercalate (text :: texts) ++ (close ++ '}' :: rest)) =
      some (e :: es, rest) := by
  have hlength : ∀ (k : String) (value : List Char), value.length < (member k value).length := by
    intro k value
    simp only [member, List.length_append, List.length_cons]
    omega
  induction texts generalizing text e es fuel with
  | nil =>
    obtain ⟨fuel, rfl⟩ : ∃ n, fuel = n + 1 := ⟨fuel - 1, by omega⟩
    obtain ⟨⟨value, rfl, hvalue⟩, htail⟩ := List.forall₂_cons.1 h
    obtain rfl := List.forall₂_nil_left_iff.1 htail
    rw [List.intercalate_singleton] at hfuel ⊢
    have hlt := hlength e.1 value
    refine members_end hvalue (hvalue.value fuel _ (by omega) ?_) ?_
    · exact follows_blank hclose (follows_cons (by decide) rest)
    · rw [skipSpace_blank hclose, skipSpace_cons (by decide)]
  | cons text' texts ih =>
    obtain ⟨fuel, rfl⟩ : ∃ n, fuel = n + 1 := ⟨fuel - 1, by omega⟩
    obtain ⟨⟨value, rfl, hvalue⟩, htail⟩ := List.forall₂_cons.1 h
    obtain ⟨e', es, he', -, rfl⟩ := List.forall₂_cons_left_iff.1 htail
    rw [length_intercalate] at hfuel
    have hlt := hlength e.1 value
    have hread := fun more => hvalue.value fuel (',' :: more) (by omega)
      (follows_cons (by decide) more)
    have hspace := skipSpace_intercalate (fun _ _ hmember => hmember.skipSpace) gap he'
      texts (close ++ '}' :: rest)
    rw [List.intercalate_cons_cons, List.append_assoc, List.append_assoc, List.cons_append,
      members_next hvalue (hread _) (skipSpace_cons (by decide) _), skipSpace_blank hgap, hspace,
      ih htail fuel (by omega), Option.map_some]

end

/-! ## Arrays and objects with white space between their parts -/

section

variable {gap close : List Char} (hgap : Blank gap) (hclose : Blank close)

include hgap hclose

theorem reads_arr {text : List Char} {j : Json} {texts : List (List Char)} {js : List Json}
    (h : List.Forall₂ Reads (text :: texts) (j :: js)) :
    Reads ('[' :: (gap ++ ((',' :: gap).intercalate (text :: texts) ++ (close ++ [']']))))
      (.arr (j :: js)) where
  head := ⟨_, _, rfl, by decide⟩
  value := by
    intro fuel rest hfuel hrest
    obtain ⟨fuel, rfl⟩ : ∃ n, fuel = n + 1 := ⟨fuel - 1, by omega⟩
    have hj : Reads text j := (List.forall₂_cons.1 h).1
    have helements := elements_spaced hgap hclose h fuel rest (by
      simp only [List.length_cons, List.length_append, List.length_nil] at hfuel
      omega)
    have hspace := skipSpace_intercalate (fun _ _ hread => hread.skipSpace) gap hj
      texts (close ++ ']' :: rest)
    obtain ⟨c, cs, hcs, hc, hbracket, -⟩ := hj.head
    obtain ⟨more, hmore⟩ : ∃ more, (',' :: gap).intercalate (text :: texts) ++
        (close ++ ']' :: rest) = c :: more := by
      cases texts with
      | nil => exact ⟨_, by rw [List.intercalate_singleton, hcs, List.cons_append]⟩
      | cons text' texts => exact ⟨_, by rw [List.intercalate_cons_cons, hcs]; rfl⟩
    simp only [List.cons_append, List.append_assoc, List.nil_append]
    rw [hmore] at helements hspace ⊢
    have hskip : skipSpace (gap ++ c :: more) = c :: more := (skipSpace_blank hgap _).trans hspace
    rw [value, hskip]
    split
    · rename_i heq
      exact absurd (List.cons.inj heq).1 hbracket
    · rw [helements, Option.map_some]

theorem reads_obj {text : List Char} {e : String × Json} {texts : List (List Char)}
    {es : List (String × Json)} (h : List.Forall₂ ReadsMember (text :: texts) (e :: es)) :
    Reads ('{' :: (gap ++ ((',' :: gap).intercalate (text :: texts) ++ (close ++ ['}']))))
      (.ofEntries (e :: es)) where
  head := ⟨_, _, rfl, by decide⟩
  value := by
    intro fuel rest hfuel hrest
    obtain ⟨fuel, rfl⟩ : ∃ n, fuel = n + 1 := ⟨fuel - 1, by omega⟩
    have he : ReadsMember text e := (List.forall₂_cons.1 h).1
    have hmembers := members_spaced hgap hclose h fuel rest (by
      simp only [List.length_cons, List.length_append, List.length_nil] at hfuel
      omega)
    have hspace := skipSpace_intercalate (fun _ _ hmember => hmember.skipSpace) gap he
      texts (close ++ '}' :: rest)
    obtain ⟨value, rfl, -⟩ := he
    obtain ⟨more, hmore⟩ : ∃ more, (',' :: gap).intercalate (member e.1 value :: texts) ++
        (close ++ '}' :: rest) = '"' :: more := by
      cases texts with
      | nil => exact ⟨_, by rw [List.intercalate_singleton]; rfl⟩
      | cons text' texts => exact ⟨_, by rw [List.intercalate_cons_cons]; rfl⟩
    simp only [List.cons_append, List.append_assoc, List.nil_append]
    rw [hmore] at hmembers hspace ⊢
    have hskip : skipSpace (gap ++ '"' :: more) = '"' :: more :=
      (skipSpace_blank hgap _).trans hspace
    rw [JsonText.value, hskip]
    change (members fuel ('"' :: more)).map _ = _
    rw [hmembers, Option.map_some]

end

theorem reads_block_arr {level : ℕ} {texts : List (List Char)} {js : List Json}
    (h : List.Forall₂ Reads texts js) : Reads (block '[' ']' level texts) (.arr js) := by
  cases h with
  | nil => exact reads_print (j := .arr []) (writable_arr.2 fun _ hj => absurd hj List.not_mem_nil)
  | cons hj htail =>
    rw [block, if_neg (List.cons_ne_nil _ _)]
    exact reads_arr (blank_newline _) (blank_newline _) (.cons hj htail)

theorem reads_block_obj {level : ℕ} {texts : List (List Char)} {es : List (String × Json)}
    (h : List.Forall₂ ReadsMember texts es) :
    Reads (block '{' '}' level texts) (.ofEntries es) := by
  cases h with
  | nil => exact reads_print (j := .obj ∅) (writable_obj.2 fun _ he => absurd he List.not_mem_nil)
  | cons he htail =>
    rw [block, if_neg (List.cons_ne_nil _ _)]
    exact reads_obj (blank_newline _) (blank_newline _) (.cons he htail)

/-! ## The round trip -/

theorem printIndented_arr (level : ℕ) (l : List Json) : printIndented level (.arr l) =
    block '[' ']' level (l.map (printIndented (level + 1))) := by
  rw [Json.arr, printIndented]
  refine congrArg (block '[' ']' level) ?_
  exact (List.ofFn_comp' l.get (printIndented (level + 1))).trans (by rw [List.ofFn_get])

theorem printIndented_obj (level : ℕ) (d : OrderedDict String Json) :
    printIndented level (.obj d) = block '{' '}' level
      (d.entries.map fun e => member e.1 (printIndented (level + 1) e.2)) := by
  refine congrArg (block '{' '}' level) ?_
  exact (List.ofFn_comp' d.entries.get fun e : String × Json =>
    member e.1 (printIndented (level + 1) e.2)).trans (by rw [List.ofFn_get])

/-- What is written at any depth is read back, whatever follows. -/
theorem reads_printIndented {j : Json} (h : Writable j) (level : ℕ) :
    Reads (printIndented level j) j := by
  induction j using Json.induct generalizing level with
  | null => exact reads_print h
  | bool b => exact reads_print h
  | number m => exact reads_print h
  | str s => exact reads_print h
  | arr l ih =>
    rw [writable_arr] at h
    rw [printIndented_arr]
    refine reads_block_arr (List.forall₂_map_left_iff.2 (List.forall₂_same.2 fun j hj => ?_))
    exact ih j hj (h j hj) (level + 1)
  | obj d ih =>
    rw [writable_obj] at h
    rw [printIndented_obj, show Json.obj d = .ofEntries d.entries by
      rw [Json.ofEntries, OrderedDict.setAll_entries]]
    refine reads_block_obj (List.forall₂_map_left_iff.2 (List.forall₂_same.2 fun e he => ?_))
    exact ⟨_, rfl, ih e.1 e.2 he (h e he) (level + 1)⟩

theorem loads_printIndented {j : Json} (h : Writable j) : loads (printIndented 0 j) = some j := by
  have hread := reads_printIndented h 0
  have hspace := hread.skipSpace []
  have hvalue := hread.value (2 * (printIndented 0 j).length + 1) [] (by omega) follows_nil
  rw [List.append_nil] at hspace hvalue
  rw [loads, hspace, hvalue]
  rfl

end JsonText
