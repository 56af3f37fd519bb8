import DarajaWrapper.Middleware.Http
import DarajaWrapper.Python.Objects

/-!
# Exception handlers

A handler merges the details of its exception into a problem document and hands
that to `JSONResponse`. When the document cannot be encoded the handler raises
itself, and the client is told of an internal error.
-/

namespace DarajaWrapper

open Python

def dictSet (d : List (String × PyObject)) (key : String) (value : PyObject) :
    List (String × PyObject) :=
  if d.any (·.1 == key) then d.map fun m => if m.1 == key then (key, value) else m
  else d ++ [(key, value)]

/-- `d.update(extra)`. -/
def dictUpdate (d extra : List (String × PyObject)) : List (String × PyObject) :=
  extra.foldl (fun d m => dictSet d m.1 m.2) d

def errorBase : String := "https://errors.mpesa.example.com"

/-- The members that every document has. -/
def problemMembers (status : ℕ) (title detail errorCode : String) : List (String × Json) :=
  [("type", .str (errorBase ++ "/" ++ errorCode)), ("title", .str title), ("status", .int status),
   ("detail", .str detail)]

def problem (status : ℕ) (title detail errorCode : String) (extra : List (String × PyObject)) :
    PyObject :=
  .dict (dictUpdate
    ((problemMembers status title detail errorCode).map fun m => (m.1, .json m.2)) extra)

/-- `JSONResponse(...)`; `none` where it raises. -/
def jsonResponse (statusCode : ℕ) (content : PyObject) : Option JSONResponse :=
  content.encode.map fun content => { statusCode, content }

section Problem

variable {status : ℕ} {title detail errorCode key : String} {value : PyObject}

theorem dictSet_of_not_mem {d : List (String × PyObject)} (h : ∀ m ∈ d, m.1 ≠ key) :
    dictSet d key value = d ++ [(key, value)] := by
  rw [dictSet, if_neg]
  simp only [List.any_eq_true, beq_iff_eq]
  rintro ⟨m, hm, heq⟩
  exact h m hm heq

theorem encode_problem (hkey : ∀ m ∈ problemMembers status title detail errorCode, m.1 ≠ key) :
    (problem status title detail errorCode [(key, value)]).encode =
      value.encode.map fun j =>
        .obj (problemMembers status title detail errorCode ++ [(key, j)]) := by
  have hset : dictUpdate
      ((problemMembers status title detail errorCode).map fun m => (m.1, .json m.2))
        [(key, value)] =
      (problemMembers status title detail errorCode).map (fun m => (m.1, PyObject.json m.2)) ++
        [(key, value)] := by
    refine dictSet_of_not_mem fun m hm => ?_
    obtain ⟨n, hn, rfl⟩ := List.mem_map.mp hm
    exact hkey n hn
  rw [problem, hset]
  simp only [problemMembers, List.map_cons, List.map_nil, List.cons_append, List.nil_append,
    PyObject.encode, PyObject.encodeMembers, Json.finite, if_true, Option.bind_some,
    Option.map_map]
  cases value.encode <;> rfl

end Problem

structure AppError where
  message : String
  code : String
  details : List (String × PyObject)

/-- `code.lower().replace("_", "-")`. -/
def AppError.errorCode (exc : AppError) : String :=
  String.ofList (exc.code.toList.map fun c => if c = '_' then '-' else c.toLower)

/-- The handler of `DuplicatePaymentError`. -/
def duplicate (exc : AppError) : Option JSONResponse :=
  jsonResponse 409
    (problem 409 "Duplicate Payment Request" exc.message exc.errorCode exc.details)

def circuitOpen (retryAfter : ℤ) : Option JSONResponse :=
  (jsonResponse 503 (problem 503 "Service Temporarily Unavailable"
    "M-Pesa is temporarily unavailable." "daraja-circuit-open"
    [("retry_after", .json (.int retryAfter))])).map fun response =>
      { response with headers := [("Retry-After", toString retryAfter)] }

def darajaError (detail : String) : Option JSONResponse :=
  jsonResponse 502 (problem 502 "M-Pesa API Error" detail "daraja-error" [])

/-- The handler of every other exception, also of those that a handler raises. -/
def unhandled : Option JSONResponse :=
  jsonResponse 500 (problem 500 "Internal Server Error" "An unexpected error occurred."
    "internal-error" [])

def internalServerError : JSONResponse where
  statusCode := 500
  content := .obj (problemMembers 500 "Internal Server Error" "An unexpected error occurred."
    "internal-error")

/-- What the client gets from a handler, which may have raised. -/
def answered (response : Option JSONResponse) : JSONResponse := response.getD internalServerError

end DarajaWrapper
