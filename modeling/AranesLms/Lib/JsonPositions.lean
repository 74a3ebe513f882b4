import AranesLms.Lib.Json
import AranesLms.Lib.LengthPrefix

/-!
# What stands at the positions of a JSON value

`nodeAt j tokens` is what the pointer leads to, without what stands below it: a leaf, the length of
an array, or the keys of an object in their order.  A value is determined by its nodes
(`eq_of_nodeAt`), and `nodeAt_mapStrAt` says where `mapStrAt` changes them.
-/

namespace Json

/-- The root of a value. -/
inductive Node where
  | null
  | bool (value : Bool)
  | number (numeral : String)
  | str (value : String)
  | array (length : ℕ)
  | object (keys : List String)
  deriving DecidableEq

def node : Json → Node
  | .null => .null
  | .bool b => .bool b
  | .number m => .number m
  | .str s => .str s
  | .array n _ => .array n
  | .object _ keys _ _ => .object (List.ofFn keys)

def nodeAt (j : Json) (tokens : List String) : Option Node := (resolve j tokens).map node

theorem nodeAt_nil (j : Json) : nodeAt j [] = some j.node := rfl

theorem nodeAt_cons (j : Json) (t : String) (ts : List String) :
    nodeAt j (t :: ts) = (child? j t).bind fun c => nodeAt c ts := by
  rw [nodeAt, resolve_cons, Option.map_bind]
  rfl

/-! ## The nodes determine the value -/

theorem toString_injective : Function.Injective (toString : ℕ → String) := by
  intro m n h
  rw [Nat.toString_eq_ofList_toDigits, Nat.toString_eq_ofList_toDigits] at h
  exact Framing.toDigits_injective (String.ofList_injective h)

theorem child?_array {n : ℕ} (elems : Fin n → Json) (i : Fin n) :
    child? (.array n elems) (toString i.val) = some (elems i) := by
  obtain ⟨i', hi'⟩ : ∃ i', (List.finRange n).find? (fun i' => toString i'.val = toString i.val) =
      some i' := by
    rw [← Option.isSome_iff_exists, List.find?_isSome]
    exact ⟨i, List.mem_finRange i, decide_eq_true rfl⟩
  have heq : toString i'.val = toString i.val := of_decide_eq_true (List.find?_some hi' :)
  rw [child?, hi', Option.map_some, Fin.ext (toString_injective heq)]

theorem child?_object {n : ℕ} {keys : Fin n → String} (inj : Function.Injective keys)
    (values : Fin n → Json) (i : Fin n) :
    child? (.object n keys inj values) (keys i) = some (values i) := by
  rw [← obj_dict, child?_obj, OrderedDict.get?_eq_some]
  exact List.mem_ofFn.2 ⟨i, rfl⟩

/-- Where the same child is looked at, the nodes below it agree. -/
theorem nodeAt_child {j j' c c' : Json} {t : String}
    (h : ∀ tokens, nodeAt j tokens = nodeAt j' tokens) (hc : child? j t = some c)
    (hc' : child? j' t = some c') (ts : List String) : nodeAt c ts = nodeAt c' ts := by
  have hcons := h (t :: ts)
  rwa [nodeAt_cons, nodeAt_cons, hc, hc'] at hcons

theorem eq_of_nodeAt {j j' : Json} (h : ∀ tokens, nodeAt j tokens = nodeAt j' tokens) : j = j' := by
  have hroot : j.node = j'.node := Option.some.inj (h [])
  induction j generalizing j' with
  | array n elems ih =>
    cases j' with
    | array n' elems' =>
      obtain rfl : n = n' := Node.array.inj hroot
      refine congrArg _ (funext fun i => ?_)
      have hbelow := nodeAt_child h (child?_array elems i) (child?_array elems' i)
      exact ih i hbelow (Option.some.inj (hbelow []))
    | _ => cases hroot
  | object n keys inj values ih =>
    cases j' with
    | object n' keys' inj' values' =>
      have hkeys : List.ofFn keys = List.ofFn keys' := Node.object.inj hroot
      obtain rfl : n = n' := by simpa using congrArg List.length hkeys
      obtain rfl := List.ofFn_injective hkeys
      refine congrArg _ (funext fun i => ?_)
      have hbelow := nodeAt_child h (child?_object inj values i) (child?_object inj values' i)
      exact ih i hbelow (Option.some.inj (hbelow []))
    | _ => cases hroot
  | _ =>
    cases j' <;> cases hroot
    rfl

/-! ## Changing strings -/

def Node.mapStr (f : String → String) : Node → Node
  | .str s => .str (f s)
  | x => x

section

variable {key : String} {f : String → String}

theorem node_mapStrAt (j : Json) : (mapStrAt key f j).node = j.node := by
  cases j <;> rfl

theorem node_mapMember (k : String) (v : Json) :
    (mapMember key f k v).node = if k = key then v.node.mapStr f else v.node := by
  cases hstr : strUnder key k v with
  | some s =>
    obtain ⟨rfl, rfl⟩ := strUnder_eq_some.1 hstr
    rw [mapMember, hstr, if_pos rfl]
    rfl
  | none =>
    rw [mapMember, hstr]
    dsimp only
    rw [node_mapStrAt]
    by_cases hk : k = key
    · rw [if_pos hk]
      cases v with
      | str s => simp [strUnder, hk] at hstr
      | _ => rfl
    · rw [if_neg hk]

/-- Below a member there is what `mapStrAt` makes of it. -/
theorem child?_mapMember (k : String) (v : Json) (t : String) :
    child? (mapMember key f k v) t = child? (mapStrAt key f v) t := by
  cases hstr : strUnder key k v with
  | some s =>
    obtain ⟨rfl, rfl⟩ := strUnder_eq_some.1 hstr
    rw [mapMember, hstr]
    rfl
  | none => rw [mapMember, hstr]

/-- Elements of an array count as members whose key is their index. -/
theorem child?_mapStrAt_eq (hkey : ∀ n : ℕ, toString n ≠ key) (j : Json) (t : String) :
    child? (mapStrAt key f j) t = (child? j t).map (mapMember key f t) := by
  cases j with
  | array n elems =>
    rw [mapStrAt, child?, child?, Option.map_map]
    cases hi : (List.finRange n).find? fun i => toString i.val = t with
    | none => rfl
    | some i =>
      have ht : toString i.val = t := of_decide_eq_true (List.find?_some hi :)
      have hnone : strUnder key t (elems i) = none := by
        cases hv : elems i with
        | str s => exact if_neg (ht ▸ hkey i.val)
        | _ => rfl
      rw [Option.map_some, Option.map_some, Function.comp_apply, mapMember, hnone]
  | object n keys inj values =>
    rw [← obj_dict, mapStrAt_obj, child?_obj, child?_obj, OrderedDict.get?_mapVal]
  | _ => rfl

/-- The nodes under `key` are changed where they are strings; no others are. -/
theorem nodeAt_mapStrAt (hkey : ∀ n : ℕ, toString n ≠ key) (j : Json) (tokens : List String) :
    nodeAt (mapStrAt key f j) tokens = (nodeAt j tokens).map fun x =>
      if tokens.getLast? = some key then x.mapStr f else x := by
  induction tokens generalizing j with
  | nil => rw [nodeAt_nil, nodeAt_nil, node_mapStrAt, Option.map_some, if_neg (by simp)]
  | cons t ts ih =>
    rw [nodeAt_cons, nodeAt_cons, child?_mapStrAt_eq hkey, Option.bind_map, Option.map_bind]
    refine Option.bind_congr fun c _ => ?_
    rw [Function.comp_apply, Function.comp_apply]
    cases ts with
    | nil =>
      rw [nodeAt_nil, node_mapMember, nodeAt_nil, Option.map_some]
      simp only [List.getLast?_singleton, Option.some.injEq]
    | cons t' ts =>
      rw [nodeAt_cons, child?_mapMember, ← nodeAt_cons, ih c, List.getLast?_cons_cons]

theorem mapMember_mapMember {g : String → String} (k : String) {v : Json}
    (hv : mapStrAt key g (mapStrAt key f v) = mapStrAt key (g ∘ f) v) :
    mapMember key g k (mapMember key f k v) = mapMember key (g ∘ f) k v := by
  cases v with
  | str s =>
    by_cases hk : k = key
    · simp [mapMember, strUnder, hk]
    · simp [mapMember, strUnder, hk, mapStrAt]
  | _ => exact hv

theorem mapStrAt_mapStrAt {g : String → String} (j : Json) :
    mapStrAt key g (mapStrAt key f j) = mapStrAt key (g ∘ f) j := by
  induction j with
  | array n elems ih => exact congrArg _ (funext ih)
  | object n keys inj values ih =>
    exact congrArg _ (funext fun i => mapMember_mapMember (keys i) (ih i))
  | _ => rfl

theorem mapStrAt_id (j : Json) : mapStrAt key id j = j := by
  induction j with
  | array n elems ih => exact congrArg _ (funext ih)
  | object n keys inj values ih =>
    refine congrArg _ (funext fun i => ?_)
    show mapMember key id (keys i) (values i) = values i
    cases hstr : strUnder key (keys i) (values i) with
    | some s =>
      rw [mapMember, hstr, (strUnder_eq_some.1 hstr).2]
      rfl
    | none => rw [mapMember, hstr, ih i]
  | _ => rfl

end

end Json
