import DarajaWrapper.Python.RawJson

/-!
# Python objects on their way to the encoder

What a handler passes to `JSONResponse`: JSON values, and objects of other types that may be
among them. The encoder accepts the JSON types, and neither a float that has no JSON text nor
a string that has no UTF-8 form.
-/

namespace Python

/-- An object, as far as the encoder and the operator `-` tell them apart. -/
inductive PyObject where
  | json (x : Json)
  /-- A value out of a request body. -/
  | decoded (x : RawJson)
  | set (xs : List String)
  | decimal (q : ℚ)
  /-- An exception with its text. -/
  | exception (text : String)
  | list (xs : List PyObject)
  | dict (kvs : List (String × PyObject))

/-- The floats that `json.dumps` refuses under `allow_nan=False`. -/
def nonFiniteReprs : List String := ["nan", "inf", "-inf"]

mutual

def Json.finite : Json → Bool
  | .float repr => !nonFiniteReprs.contains repr
  | .arr xs => finiteItems xs
  | .obj kvs => finiteMembers kvs
  | _ => true

def finiteItems : List Json → Bool
  | [] => true
  | x :: xs => x.finite && finiteItems xs

def finiteMembers : List (String × Json) → Bool
  | [] => true
  | (_, v) :: kvs => v.finite && finiteMembers kvs

end

/-- The value has a JSON text in UTF-8: every float in it is finite, and no string in it, names of
members included, has a surrogate. -/
def RawJson.encodable (x : RawJson) : Bool := x.toJson?.any Json.finite

namespace PyObject

mutual

/-- The JSON value that is rendered; `none` where the encoder raises. -/
def encode : PyObject → Option Json
  | .json x => if x.finite then some x else none
  | .decoded x => x.toJson?.filter Json.finite
  | .list xs => (encodeItems xs).map .arr
  | .dict kvs => (encodeMembers kvs).map .obj
  | _ => none

def encodeItems : List PyObject → Option (List Json)
  | [] => some []
  | x :: xs => (encode x).bind fun j => (encodeItems xs).map (j :: ·)

def encodeMembers : List (String × PyObject) → Option (List (String × Json))
  | [] => some []
  | (k, v) :: kvs => (encode v).bind fun j => (encodeMembers kvs).map ((k, j) :: ·)

end

variable {kvs extra : List (String × PyObject)} {xs : List PyObject}

theorem encode_decoded_isSome_iff {x : RawJson} :
    (encode (.decoded x)).isSome = true ↔ x.encodable = true := by
  rw [encode, RawJson.encodable]
  cases x.toJson? <;> simp [Option.filter_some]

theorem encode_list_isSome_iff :
    (encode (.list xs)).isSome = true ↔ ∀ x ∈ xs, (encode x).isSome = true := by
  rw [encode, Option.isSome_map]
  induction xs with
  | nil => exact iff_of_true rfl nofun
  | cons x xs ih =>
    rw [encodeItems, List.forall_mem_cons, ← ih]
    cases encode x <;> simp

theorem encode_dict_isSome_iff :
    (encode (.dict kvs)).isSome = true ↔ ∀ m ∈ kvs, (encode m.2).isSome = true := by
  rw [encode, Option.isSome_map]
  induction kvs with
  | nil => exact iff_of_true rfl nofun
  | cons m kvs ih =>
    rw [encodeMembers, List.forall_mem_cons, ← ih]
    cases encode m.2 <;> simp

def int? : PyObject → Option ℤ
  | .json (.int n) => some n
  | .json (.bool b) => some (if b then 1 else 0)
  | _ => none

/-- `x - y` for sets and integers; `none` where it raises `TypeError`. No float is ever
subtracted. -/
def sub : PyObject → PyObject → Option PyObject
  | .set xs, .set ys => some (.set (xs.filter (!ys.contains ·)))
  | x, y => do return .json (.int ((← x.int?) - (← y.int?)))

theorem sub_dict (x : PyObject) : x.sub (.dict kvs) = none := by
  cases x <;> simp [sub, int?]

end PyObject

end Python
