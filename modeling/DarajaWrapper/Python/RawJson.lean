import DarajaWrapper.Python.Values

/-!
# Decoded JSON as a client sent it

`json.loads` lets a surrogate stand alone in a string: `"\ud800"` is a `str` of one code
point that is no Unicode scalar value, so it has no UTF-8 form and `JSONResponse` cannot
write it. A request body may hold such a string, as a value or as the name of a member; what
its validation accepts may not.
-/

namespace Python

/-- A `str` with surrogates among its code points, each given by its distance from U+D800. -/
structure SurrogateStr where
  codePoints : List (Char ⊕ Fin 0x800)
  surrogate : codePoints.any Sum.isRight = true
  deriving DecidableEq

/-- A `str`. -/
inductive PyStr where
  | text (s : String)
  | surrogates (s : SurrogateStr)
  deriving DecidableEq

instance : Coe String PyStr := ⟨.text⟩

/-- `s.encode("utf-8")`, as the text that it encodes; `none` where it raises. -/
def PyStr.text? : PyStr → Option String
  | text s => some s
  | surrogates _ => none

/-- What `json.loads` returns for a text from outside. -/
inductive RawJson where
  | null
  | bool (b : Bool)
  | int (n : ℤ)
  | float (repr : String)
  | str (s : PyStr)
  | arr (xs : List RawJson)
  | obj (kvs : List (PyStr × RawJson))

mutual

/-- The value when all of it can be encoded as UTF-8. -/
def RawJson.toJson? : RawJson → Option Json
  | .null => some .null
  | .bool b => some (.bool b)
  | .int n => some (.int n)
  | .float repr => some (.float repr)
  | .str s => s.text?.map .str
  | .arr xs => (itemsToJson? xs).map .arr
  | .obj kvs => (membersToJson? kvs).map .obj

def itemsToJson? : List RawJson → Option (List Json)
  | [] => some []
  | x :: xs => x.toJson?.bind fun j => (itemsToJson? xs).map (j :: ·)

def membersToJson? : List (PyStr × RawJson) → Option (List (String × Json))
  | [] => some []
  | (k, v) :: kvs =>
    k.text?.bind fun name => v.toJson?.bind fun j => (membersToJson? kvs).map ((name, j) :: ·)

end

end Python
