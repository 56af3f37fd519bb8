import DarajaWrapper.Main.Handlers
import DarajaWrapper.Schemas.Initiate

/-!
# The answer to an invalid body

FastAPI turns the errors of a body into dictionaries, and the validation handler
passes them on without their `url`. The dictionary of an error that a validator
has raised holds the exception itself, which cannot be encoded.
-/

namespace DarajaWrapper

open Python

/-- What pydantic puts into an entry on its own account: the text of an error, and the object that
stands for a bound of the amount, a `Decimal` in pydantic 2. -/
structure PydanticTexts where
  msg : ErrorType → String
  bound : ℚ → PyObject

namespace ErrorType

def name : ErrorType → String
  | missing => "missing"
  | modelAttributesType => "model_attributes_type"
  | stringType => "string_type"
  | stringUnicode => "string_unicode"
  | stringTooShort _ => "string_too_short"
  | stringTooLong _ => "string_too_long"
  | decimalType => "decimal_type"
  | decimalParsing => "decimal_parsing"
  | finiteNumber => "finite_number"
  | lessThanEqual _ => "less_than_equal"
  | greaterThan _ => "greater_than"
  | fractionalShillings _ => "value_error"
  | valueError _ => "value_error"

/-- The error comes from a `ValueError` that a validator has raised. -/
def fromValidator : ErrorType → Bool
  | fractionalShillings _ => true
  | valueError _ => true
  | _ => false

/-- The bound of the amount that is violated. -/
def amountBound? : ErrorType → Option ℚ
  | lessThanEqual bound => some bound
  | greaterThan bound => some bound
  | _ => none

def ctx (texts : PydanticTexts) : ErrorType → List (String × PyObject)
  | stringTooShort minLength => [("min_length", .json (.int minLength))]
  | stringTooLong maxLength => [("max_length", .json (.int maxLength))]
  | lessThanEqual bound => [("le", texts.bound bound)]
  | greaterThan bound => [("gt", texts.bound bound)]
  | fractionalShillings amount => [("error", .exception (texts.msg (fractionalShillings amount)))]
  | valueError message => [("error", .exception message)]
  | _ => []

end ErrorType

/-- A body that is `null` counts as no body. -/
def bodyErrors : RawJson → Option (List ErrorDetails)
  | .null => some [⟨[], .missing⟩]
  | body =>
    match STKPushInitiateRequest.modelValidate body with
    | .ok _ => none
    | .error errors => some errors

/-- The value that is refused: what a field has, or the body when a field is missing or the whole
is at fault. -/
def inputOf (body : RawJson) (e : ErrorDetails) : RawJson :=
  match e.type, e.loc, body with
  | .missing, _, body => body
  | _, [field], .obj kvs => (kvs.lookup (.text field)).getD .null
  | _, _, body => body

/-- One entry of `exc.errors()`. -/
def errorEntry (texts : PydanticTexts) (body : RawJson) (e : ErrorDetails) :
    List (String × PyObject) :=
  let ctx := e.type.ctx texts
  [("type", .json (.str e.type.name)),
   ("loc", .json (.arr (.str "body" :: e.loc.map .str))),
   ("msg", .json (.str (texts.msg e.type))),
   ("input", .decoded (inputOf body e))] ++ if ctx.isEmpty then [] else [("ctx", .dict ctx)]

def popUrl (entry : List (String × PyObject)) : List (String × PyObject) :=
  entry.filter (·.1 != "url")

/-- `validation_error`, on the entries of `exc.errors()`. -/
def validationError (entries : List (List (String × PyObject))) : Option JSONResponse :=
  let errors := entries.map popUrl
  jsonResponse 422 (problem 422 "Validation Error"
    (toString errors.length ++ " field(s) failed") "validation-error"
    [("errors", .list (errors.map .dict))])

/-- The handler's answer to a body with these errors. -/
def validationResponse (texts : PydanticTexts) (body : RawJson) (errors : List ErrorDetails) :
    Option JSONResponse :=
  validationError (errors.map (errorEntry texts body))

/-- A problem document with status 422 that lists one entry for each error. -/
def ListsErrors (response : Option JSONResponse) (errors : List ErrorDetails) : Prop :=
  ∃ detail entries, entries.length = errors.length ∧
    response = some
      { statusCode := 422
        content := .obj (problemMembers 422 "Validation Error" detail "validation-error" ++
          [("errors", .arr entries)]) }

/-- Everything that the entry of an error holds can be encoded. -/
def Reportable (texts : PydanticTexts) (body : RawJson) (e : ErrorDetails) : Prop :=
  e.type.fromValidator = false ∧ (inputOf body e).encodable = true ∧
    ∀ bound, e.type.amountBound? = some bound → (texts.bound bound).encode.isSome = true

variable {texts : PydanticTexts} {body : RawJson} {errors : List ErrorDetails} {e : ErrorDetails}

theorem finite_strings (ss : List String) : finiteItems (ss.map .str) = true := by
  induction ss with
  | nil => rfl
  | cons s ss ih => exact ih

theorem encode_ctx_isSome_iff :
    (∀ m ∈ e.type.ctx texts, m.2.encode.isSome = true) ↔
      e.type.fromValidator = false ∧
        ∀ bound, e.type.amountBound? = some bound → (texts.bound bound).encode.isSome = true := by
  cases e.type <;>
    simp [ErrorType.ctx, ErrorType.fromValidator, ErrorType.amountBound?, PyObject.encode,
      Json.finite]

theorem popUrl_errorEntry : popUrl (errorEntry texts body e) = errorEntry texts body e := by
  unfold popUrl
  rw [List.filter_eq_self]
  intro m hm
  simp only [errorEntry, List.mem_append, List.mem_cons, List.not_mem_nil, or_false] at hm
  rcases hm with (rfl | rfl | rfl | rfl) | hm
  · rfl
  · rfl
  · rfl
  · rfl
  · split_ifs at hm
    · cases hm
    · rw [List.mem_singleton.mp hm]
      rfl

theorem encode_entry_isSome_iff :
    (PyObject.dict (errorEntry texts body e)).encode.isSome = true ↔ Reportable texts body e := by
  have hctx : (∀ m ∈ if (e.type.ctx texts).isEmpty then [] else
      [("ctx", PyObject.dict (e.type.ctx texts))], m.2.encode.isSome = true) ↔
      ∀ m ∈ e.type.ctx texts, m.2.encode.isSome = true := by
    split_ifs with hempty
    · rw [List.isEmpty_iff.mp hempty]
    · rw [List.forall_mem_singleton, PyObject.encode_dict_isSome_iff]
  have hfixed : (∀ m ∈ [("type", PyObject.json (.str e.type.name)),
      ("loc", .json (.arr (.str "body" :: e.loc.map .str))),
      ("msg", .json (.str (texts.msg e.type))), ("input", .decoded (inputOf body e))],
        m.2.encode.isSome = true) ↔
      (inputOf body e).encodable = true := by
    rw [← PyObject.encode_decoded_isSome_iff]
    simp [PyObject.encode, Json.finite, finiteItems, finite_strings]
  rw [PyObject.encode_dict_isSome_iff, errorEntry, List.forall_mem_append, hfixed, hctx,
    encode_ctx_isSome_iff, Reportable]
  exact and_left_comm

theorem encode_entries_isSome_iff :
    (PyObject.list (errors.map fun e => .dict (errorEntry texts body e))).encode.isSome = true ↔
      ∀ e ∈ errors, Reportable texts body e := by
  rw [PyObject.encode_list_isSome_iff, List.forall_mem_map]
  exact forall₂_congr fun e _ => encode_entry_isSome_iff

theorem length_of_encodeItems {xs : List PyObject} {js : List Json}
    (h : PyObject.encodeItems xs = some js) : js.length = xs.length := by
  induction xs generalizing js with
  | nil =>
    obtain rfl := Option.some.inj h
    rfl
  | cons x xs ih =>
    rw [PyObject.encodeItems, Option.bind_eq_some_iff] at h
    obtain ⟨j, -, h⟩ := h
    obtain ⟨rest, hrest, rfl⟩ := Option.map_eq_some_iff.mp h
    rw [List.length_cons, List.length_cons, ih hrest]

theorem validationResponse_eq :
    validationResponse texts body errors =
      (PyObject.list (errors.map fun e => .dict (errorEntry texts body e))).encode.map fun j =>
        { statusCode := 422
          content := .obj (problemMembers 422 "Validation Error"
            (toString errors.length ++ " field(s) failed") "validation-error" ++
              [("errors", j)]) } := by
  have hentries : (errors.map (errorEntry texts body)).map popUrl =
      errors.map (errorEntry texts body) := by
    rw [List.map_map]
    exact List.map_congr_left fun e _ => popUrl_errorEntry
  unfold validationResponse validationError
  dsimp only
  rw [hentries, jsonResponse, encode_problem (by simp [problemMembers]), Option.map_map,
    List.map_map, List.length_map]
  rfl

theorem validationResponse_listsErrors_iff :
    ListsErrors (validationResponse texts body errors) errors ↔
      ∀ e ∈ errors, Reportable texts body e := by
  rw [← encode_entries_isSome_iff, validationResponse_eq]
  constructor
  · rintro ⟨detail, entries, -, heq⟩
    cases hencode : (PyObject.list
        (errors.map fun e => .dict (errorEntry texts body e))).encode with
    | none => simp [hencode] at heq
    | some j => rfl
  · intro h
    obtain ⟨j, hj⟩ := Option.isSome_iff_exists.mp h
    rw [PyObject.encode] at hj
    obtain ⟨items, hitems, rfl⟩ := Option.map_eq_some_iff.mp hj
    refine ⟨_, items, ?_, by rw [PyObject.encode, hitems]; rfl⟩
    rw [length_of_encodeItems hitems, List.length_map]

/-- A rejected body is answered with 422. -/
def AnsweredWith422 (texts : PydanticTexts) (body : RawJson) : Prop :=
  ∀ errors, bodyErrors body = some errors →
    ListsErrors (validationResponse texts body errors) errors

/-- The answer is a 422 exactly when no error of the body comes from a validator, every refused
value can be encoded and so can the bound of an amount that is out of range. -/
theorem answeredWith422_iff (texts : PydanticTexts) (body : RawJson) :
    AnsweredWith422 texts body ↔
      ∀ errors, bodyErrors body = some errors → ∀ e ∈ errors, Reportable texts body e :=
  forall₂_congr fun _ _ => validationResponse_listsErrors_iff

def unparsablePhone : RawJson :=
  .obj
    [("phone_number", .str "12345"), ("amount", .int 100), ("account_reference", .str "INV-001"),
     ("transaction_desc", .str "Order 1"), ("idempotency_key", .str "key-0001")]

/-- Whatever pydantic says about it, a phone number that a validator refuses is not answered
with 422. -/
theorem unparsable_phone_unanswered :
    ¬ ∃ texts, ∀ body, AnsweredWith422 texts body := by
  rintro ⟨texts, h⟩
  have hlists := h unparsablePhone
    [⟨["phone_number"], .valueError (unparsedMessage "12345")⟩] (by decide +kernel)
  have hreportable := validationResponse_listsErrors_iff.mp hlists _ List.mem_cons_self
  exact absurd hreportable.1 (by decide)

end DarajaWrapper
