import AranesLms.Gateway.OpenApi
import AranesLms.Lib.JsonPositions

/-!
# The rewriting of references, position by position

`rewriteSchemaRefs_iff`: the result of `rewrite_schema_refs` is the one value that at every position
has what the payload has there, apart from the schema references under `$ref`, which name the schema
of the service (`RewrittenTo`).  Taking the service out of them again gives the payload back
(`restoreSchemaRefs_rewriteSchemaRefs`), so that nothing is lost, whatever the names are.
-/

namespace AranesLms

namespace Gateway

/-- What stands at a position before and after the rewriting; `token` is the last one of its
pointer. -/
inductive RewrittenTo (serviceName : String) (token : Option String) : Json.Node → Json.Node → Prop
  | reference (name : String) (htoken : token = some "$ref") :
    RewrittenTo serviceName token (.str (schemaPrefix ++ name))
      (.str (schemaPrefix ++ (serviceName ++ "_" ++ name)))
  | unchanged (x : Json.Node)
    (hother : token = some "$ref" → ∀ name, x ≠ .str (schemaPrefix ++ name)) :
    RewrittenTo serviceName token x x

theorem rewriteRef_of_not {serviceName value : String}
    (h : ∀ name, value ≠ schemaPrefix ++ name) : rewriteRef serviceName value = value := by
  rw [rewriteRef, if_neg]
  intro hstarts
  obtain ⟨name, hname⟩ := startsWith_iff.1 hstarts
  exact h name hname

theorem rewrittenTo_iff {serviceName : String} {token : Option String} {x y : Json.Node} :
    RewrittenTo serviceName token x y ↔
      y = if token = some "$ref" then x.mapStr (rewriteRef serviceName) else x := by
  constructor
  · intro h
    cases h with
    | reference name htoken => rw [if_pos htoken, Json.Node.mapStr, rewriteRef_append, schemaKey]
    | unchanged x hother =>
      split_ifs with htoken
      · cases x with
        | str s =>
          rw [Json.Node.mapStr, rewriteRef_of_not fun name hs => hother htoken name (by rw [hs])]
        | _ => rfl
      · rfl
  · rintro rfl
    split_ifs with htoken
    · by_cases href : ∃ name, x = .str (schemaPrefix ++ name)
      · obtain ⟨name, rfl⟩ := href
        rw [Json.Node.mapStr, rewriteRef_append]
        exact .reference name htoken
      · rw [not_exists] at href
        have hsame : x.mapStr (rewriteRef serviceName) = x := by
          cases x with
          | str s => rw [Json.Node.mapStr, rewriteRef_of_not fun name hs => href name (by rw [hs])]
          | _ => rfl
        rw [hsame]
        exact .unchanged x fun _ => href
    · exact .unchanged x fun hnot => absurd hnot htoken

theorem toString_ne_ref (n : ℕ) : toString n ≠ "$ref" := by
  intro h
  have hdigit : '$' ∈ Nat.toDigits 10 n := by
    rw [← String.toList_ofList (l := Nat.toDigits 10 n), ← Nat.toString_eq_ofList_toDigits, h]
    decide
  exact absurd (Nat.isDigit_of_mem_toDigits (by decide) (le_refl 10) hdigit) (by decide)

theorem nodeAt_rewriteSchemaRefs (serviceName : String) (j : Json) (tokens : List String) :
    (rewriteSchemaRefs serviceName j).nodeAt tokens = (j.nodeAt tokens).map fun x =>
      if tokens.getLast? = some "$ref" then x.mapStr (rewriteRef serviceName) else x := by
  rw [rewriteSchemaRefs_eq, Json.nodeAt_mapStrAt toString_ne_ref]

/-- The rewriting changes the schema references, and nothing else. -/
theorem rewriteSchemaRefs_iff (serviceName : String) (j j' : Json) :
    j' = rewriteSchemaRefs serviceName j ↔ ∀ tokens : List String,
      Option.Rel (RewrittenTo serviceName tokens.getLast?) (j.nodeAt tokens)
        (j'.nodeAt tokens) := by
  have hrel : ∀ tokens : List String,
      Option.Rel (RewrittenTo serviceName tokens.getLast?) (j.nodeAt tokens) (j'.nodeAt tokens) ↔
        j'.nodeAt tokens = (rewriteSchemaRefs serviceName j).nodeAt tokens := by
    intro tokens
    rw [nodeAt_rewriteSchemaRefs]
    cases j.nodeAt tokens with
    | none => cases j'.nodeAt tokens <;> simp
    | some x => cases j'.nodeAt tokens <;> simp [rewrittenTo_iff]
  simp only [hrel]
  exact ⟨fun h _ => by rw [h], Json.eq_of_nodeAt⟩

/-! ## Back -/

/-- Take the service out of a reference to one of its schemas. -/
def restoreRef (serviceName value : String) : String :=
  let servicePrefix := schemaPrefix ++ (serviceName ++ "_")
  if startsWith value servicePrefix then schemaPrefix ++ removePrefix value servicePrefix else value

/-- Take the service out of the references under `$ref`, at every depth. -/
def restoreSchemaRefs (serviceName : String) (payload : Json) : Json :=
  payload.mapStrAt "$ref" (restoreRef serviceName)

theorem restoreRef_rewriteRef (serviceName value : String) :
    restoreRef serviceName (rewriteRef serviceName value) = value := by
  by_cases href : ∃ name, value = schemaPrefix ++ name
  · obtain ⟨name, rfl⟩ := href
    have hassoc : schemaPrefix ++ schemaKey serviceName name =
        schemaPrefix ++ (serviceName ++ "_") ++ name := by
      simp only [schemaKey, String.append_assoc]
    rw [rewriteRef_append, restoreRef, hassoc, if_pos (startsWith_append _ name),
      removePrefix_append]
  · rw [not_exists] at href
    rw [rewriteRef_of_not href, restoreRef, if_neg]
    intro hstarts
    obtain ⟨rest, hrest⟩ := startsWith_iff.1 hstarts
    exact href (serviceName ++ "_" ++ rest) (by simp only [hrest, String.append_assoc])

theorem restoreSchemaRefs_rewriteSchemaRefs (serviceName : String) (j : Json) :
    restoreSchemaRefs serviceName (rewriteSchemaRefs serviceName j) = j := by
  have hid : restoreRef serviceName ∘ rewriteRef serviceName = id :=
    funext (restoreRef_rewriteRef serviceName)
  rw [rewriteSchemaRefs_eq, restoreSchemaRefs, Json.mapStrAt_mapStrAt, hid, Json.mapStrAt_id]

theorem rewriteSchemaRefs_exact_reversible (serviceName : String) (j : Json) :
    (∀ j', j' = rewriteSchemaRefs serviceName j ↔ ∀ tokens : List String,
      Option.Rel (RewrittenTo serviceName tokens.getLast?) (j.nodeAt tokens)
        (j'.nodeAt tokens)) ∧
    restoreSchemaRefs serviceName (rewriteSchemaRefs serviceName j) = j :=
  ⟨rewriteSchemaRefs_iff serviceName j, restoreSchemaRefs_rewriteSchemaRefs serviceName j⟩

end Gateway

end AranesLms
