import AranesLms.Lib.OrderedDict
import Mathlib.Data.List.FinRange

/-!
# JSON values

The keys of an object are distinct and keep their order, so that objects are ordered dictionaries:
`obj` and `asDict?` go back and forth, as `arr` and `asList?` do for arrays, and `Json.induct` is
induction in these terms.

* `member? j k` is the member `k` of an object.
* `strsAt key j` are the strings stored under `key` at any depth, and `mapStrAt key f j` changes
  them (`strsAt_mapStrAt`).
* `resolve j tokens` follows a pointer.
-/

inductive Json where
  | null
  | bool (value : Bool)
  | number (numeral : String)
  | str (value : String)
  | array (n : ℕ) (elems : Fin n → Json)
  | object (n : ℕ) (keys : Fin n → String) (inj : Function.Injective keys) (values : Fin n → Json)

namespace Json

/-! ## Equality -/

def beq : Json → Json → Bool
  | .null, .null => true
  | .bool b, .bool b' => b = b'
  | .number m, .number m' => m = m'
  | .str s, .str s' => s = s'
  | .array n elems, .array n' elems' =>
    if h : n = n' then decide (∀ i, beq (elems i) (elems' (i.cast h)) = true) else false
  | .object n keys _ values, .object n' keys' _ values' =>
    if h : n = n' then
      decide (∀ i, keys i = keys' (i.cast h) ∧ beq (values i) (values' (i.cast h)) = true)
    else false
  | _, _ => false

theorem beq_eq_true {j j' : Json} : beq j j' = true ↔ j = j' := by
  induction j generalizing j' with
  | null => cases j' <;> simp [beq]
  | bool b => cases j' <;> simp [beq]
  | number m => cases j' <;> simp [beq]
  | str s => cases j' <;> simp [beq]
  | array n elems ih =>
    cases j' with
    | array n' elems' =>
      by_cases hn : n = n'
      · subst hn
        simp [beq, ih, funext_iff]
      · simp [beq, hn]
    | _ => simp [beq]
  | object n keys inj values ih =>
    cases j' with
    | object n' keys' inj' values' =>
      by_cases hn : n = n'
      · subst hn
        simp [beq, ih, funext_iff, forall_and]
      · simp [beq, hn]
    | _ => simp [beq]

instance decidableEq : DecidableEq Json := fun _ _ => decidable_of_iff _ beq_eq_true

/-! ## Arrays and objects -/

def arr (l : List Json) : Json := .array l.length l.get

def asList? : Json → Option (List Json)
  | .array _ elems => some (List.ofFn elems)
  | _ => none

/-- The dictionary of the keys and values of an object. -/
def dict {n : ℕ} (keys : Fin n → String) (inj : Function.Injective keys) (values : Fin n → Json) :
    OrderedDict String Json where
  entries := List.ofFn fun i => (keys i, values i)
  nodup := by
    rw [List.map_ofFn]
    exact List.nodup_ofFn_ofInjective inj

def asDict? : Json → Option (OrderedDict String Json)
  | .object _ keys inj values => some (dict keys inj values)
  | _ => none

/-- The object with the given entries. -/
def obj (d : OrderedDict String Json) : Json :=
  .object d.entries.length (fun i => (d.entries.get i).1)
    (fun _ _ h => List.nodup_iff_injective_get.1 d.nodup.of_map
      (List.inj_on_of_nodup_map d.nodup (List.get_mem _ _) (List.get_mem _ _) h))
    fun i => (d.entries.get i).2

/-- The object that a literal denotes: the last value of a repeated key counts. -/
def ofEntries (entries : List (String × Json)) : Json :=
  obj ((∅ : OrderedDict String Json).setAll entries)

@[simp] theorem asList?_arr (l : List Json) : (arr l).asList? = some l :=
  congrArg some (List.ofFn_get l)

@[simp] theorem asDict?_obj (d : OrderedDict String Json) : (obj d).asDict? = some d :=
  congrArg some (OrderedDict.ext (List.ofFn_get d.entries))

theorem arr_ofFn {n : ℕ} (elems : Fin n → Json) : arr (List.ofFn elems) = .array n elems :=
  congrArg (fun s : Σ n, Fin n → Json => Json.array s.1 s.2)
    (List.equivSigmaTuple.apply_symm_apply ⟨n, elems⟩)

theorem obj_dict {n : ℕ} (keys : Fin n → String) (inj : Function.Injective keys)
    (values : Fin n → Json) : obj (dict keys inj values) = .object n keys inj values := by
  have hobject : ∀ s s' : Σ n, Fin n → String × Json, s = s' →
      ∀ h : Function.Injective fun i => (s.2 i).1, ∀ h' : Function.Injective fun i => (s'.2 i).1,
        Json.object s.1 (fun i => (s.2 i).1) h (fun i => (s.2 i).2) =
          Json.object s'.1 (fun i => (s'.2 i).1) h' fun i => (s'.2 i).2 := by
    rintro s _ rfl h h'
    rfl
  exact hobject _ ⟨n, fun i => (keys i, values i)⟩ (List.equivSigmaTuple.apply_symm_apply _) _ inj

theorem asDict?_eq_some {j : Json} {d : OrderedDict String Json} :
    j.asDict? = some d ↔ j = obj d := by
  constructor
  · intro h
    cases j with
    | object n keys inj values => rw [← obj_dict, ← Option.some.inj h]
    | _ => cases h
  · rintro rfl
    exact asDict?_obj d

theorem asList?_eq_some {j : Json} {l : List Json} : j.asList? = some l ↔ j = arr l := by
  constructor
  · intro h
    cases j with
    | array n elems => rw [← arr_ofFn, ← Option.some.inj h]
    | _ => cases h
  · rintro rfl
    exact asList?_arr l

theorem obj_injective : Function.Injective obj := fun d d' h => by
  have hd : some d = some d' := by rw [← asDict?_obj, h, asDict?_obj]
  exact Option.some.inj hd

/-- Induction in terms of lists and dictionaries. -/
@[elab_as_elim]
theorem induct {P : Json → Prop} (null : P .null) (bool : ∀ b, P (.bool b))
    (number : ∀ m, P (.number m)) (str : ∀ s, P (.str s))
    (arr : ∀ l, (∀ j ∈ l, P j) → P (arr l))
    (obj : ∀ d, (∀ k v, (k, v) ∈ d → P v) → P (obj d)) (j : Json) : P j := by
  induction j with
  | null => exact null
  | bool b => exact bool b
  | number m => exact number m
  | str s => exact str s
  | array n elems ih =>
    rw [← arr_ofFn]
    refine arr _ fun j hj => ?_
    obtain ⟨i, rfl⟩ := List.mem_ofFn.1 hj
    exact ih i
  | object n keys inj values ih =>
    rw [← obj_dict]
    refine obj _ fun k v hv => ?_
    obtain ⟨i, heq⟩ := List.mem_ofFn.1 hv
    obtain ⟨rfl, rfl⟩ := Prod.mk.inj heq
    exact ih i

/-- The member `k` of an object. -/
def member? (j : Json) (k : String) : Option Json := j.asDict?.bind (·.get? k)

@[simp] theorem member?_obj (d : OrderedDict String Json) (k : String) :
    (obj d).member? k = d.get? k := by
  rw [member?, asDict?_obj, Option.bind_some]

/-! ## Strings under a key -/

/-- The string that a member with the key `k` holds, if the key is `key`. -/
def strUnder (key k : String) : Json → Option String
  | .str s => if k = key then some s else none
  | _ => none

/-- The strings stored under `key` at any depth. -/
def strsAt (key : String) : Json → List String
  | .array _ elems => (List.ofFn fun i => strsAt key (elems i)).flatten
  | .object _ keys _ values =>
    (List.ofFn fun i => (strUnder key (keys i) (values i)).toList ++ strsAt key (values i)).flatten
  | _ => []

/-- Change the strings stored under `key` at any depth. -/
def mapStrAt (key : String) (f : String → String) : Json → Json
  | .array n elems => .array n fun i => mapStrAt key f (elems i)
  | .object n keys inj values => .object n keys inj fun i =>
    match strUnder key (keys i) (values i) with
    | some s => .str (f s)
    | none => mapStrAt key f (values i)
  | j => j

/-- What `mapStrAt` makes of a member with the key `k`. -/
def mapMember (key : String) (f : String → String) (k : String) (v : Json) : Json :=
  match strUnder key k v with
  | some s => .str (f s)
  | none => mapStrAt key f v

section

variable {key : String} {f : String → String}

theorem strUnder_eq_some {k s : String} {v : Json} :
    strUnder key k v = some s ↔ k = key ∧ v = .str s := by
  cases v with
  | str s' =>
    by_cases hk : k = key
    · simp [strUnder, hk]
    · simp [strUnder, hk]
  | _ => simp [strUnder]

theorem strsAt_arr (l : List Json) : strsAt key (arr l) = l.flatMap (strsAt key) := by
  rw [arr, strsAt, List.flatMap_def]
  exact congrArg List.flatten ((List.ofFn_comp' l.get (strsAt key)).trans (by rw [List.ofFn_get]))

theorem strsAt_obj (d : OrderedDict String Json) : strsAt key (obj d) =
    d.entries.flatMap fun e => (strUnder key e.1 e.2).toList ++ strsAt key e.2 := by
  rw [List.flatMap_def]
  exact congrArg List.flatten ((List.ofFn_comp' d.entries.get fun e =>
    (strUnder key e.1 e.2).toList ++ strsAt key e.2).trans (by rw [List.ofFn_get]))

theorem mem_strsAt_obj {d : OrderedDict String Json} {s : String} :
    s ∈ strsAt key (obj d) ↔
      ∃ k v, (k, v) ∈ d ∧ ((k = key ∧ v = .str s) ∨ s ∈ strsAt key v) := by
  simp only [strsAt_obj, List.mem_flatMap, List.mem_append, Option.mem_toList, strUnder_eq_some,
    Prod.exists]
  rfl

theorem mapStrAt_arr (l : List Json) :
    mapStrAt key f (arr l) = arr (l.map (mapStrAt key f)) :=
  asList?_eq_some.1 (congrArg some
    ((List.ofFn_comp' l.get (mapStrAt key f)).trans (by rw [List.ofFn_get])))

theorem mapStrAt_obj (d : OrderedDict String Json) :
    mapStrAt key f (obj d) = obj (d.mapVal (mapMember key f)) :=
  asDict?_eq_some.1 (congrArg some (OrderedDict.ext
    ((List.ofFn_comp' d.entries.get fun e => (e.1, mapMember key f e.1 e.2)).trans
      (by rw [List.ofFn_get]; rfl))))

theorem asDict?_mapStrAt (j : Json) :
    (mapStrAt key f j).asDict? = j.asDict?.map fun d => d.mapVal (mapMember key f) := by
  cases hj : j.asDict? with
  | some d => rw [asDict?_eq_some.1 hj, mapStrAt_obj, asDict?_obj, Option.map_some]
  | none => cases j <;> simp_all [mapStrAt, asDict?]

/-- The strings of a member, its own first. -/
theorem strsAt_mapMember (k : String) {v : Json}
    (hv : strsAt key (mapStrAt key f v) = (strsAt key v).map f) :
    (strUnder key k (mapMember key f k v)).toList ++ strsAt key (mapMember key f k v) =
      ((strUnder key k v).toList ++ strsAt key v).map f := by
  cases hstr : strUnder key k v with
  | some s =>
    obtain ⟨rfl, rfl⟩ := strUnder_eq_some.1 hstr
    simp [mapMember, strUnder, strsAt]
  | none =>
    have hmember : mapMember key f k v = mapStrAt key f v := by rw [mapMember, hstr]
    have hnone : strUnder key k (mapStrAt key f v) = none := by
      cases v with
      | str s => exact hstr
      | _ => rfl
    rw [hmember, hnone, hv, Option.toList_none, List.nil_append, List.nil_append]

/-- `mapStrAt` changes the strings and nothing else. -/
theorem strsAt_mapStrAt (j : Json) : strsAt key (mapStrAt key f j) = (strsAt key j).map f := by
  induction j using induct with
  | arr l ih =>
    rw [mapStrAt_arr, strsAt_arr, strsAt_arr, List.flatMap_map, List.map_flatMap]
    exact List.flatMap_congr ih
  | obj d ih =>
    rw [mapStrAt_obj, strsAt_obj, strsAt_obj, OrderedDict.mapVal, List.flatMap_map,
      List.map_flatMap]
    exact List.flatMap_congr fun e he => strsAt_mapMember e.1 (ih e.1 e.2 he)
  | _ => rfl

end

/-! ## Pointers -/

/-- One step of a pointer: the member of an object, or an element of an array by its index. -/
def child? (j : Json) (token : String) : Option Json :=
  match j with
  | .array _ elems => ((List.finRange _).find? fun i => toString i.val = token).map elems
  | j => j.member? token

/-- The value that a pointer leads to. -/
def resolve (j : Json) (tokens : List String) : Option Json := tokens.foldlM child? j

theorem resolve_cons (j : Json) (t : String) (ts : List String) :
    resolve j (t :: ts) = (child? j t).bind fun j' => resolve j' ts := rfl

theorem child?_obj (d : OrderedDict String Json) (t : String) : child? (obj d) t = d.get? t :=
  member?_obj d t

end Json
