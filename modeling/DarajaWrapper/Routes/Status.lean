import DarajaWrapper.Exceptions
import DarajaWrapper.Main.Handlers
import DarajaWrapper.Models.NumericText
import DarajaWrapper.Models.Uuid
import DarajaWrapper.Repository.PaymentRepo
import DarajaWrapper.Stores

/-!
# `GET /payments/{payment_id}/status`

The path segment goes to the database as it is; how the driver reads a UUID from it is a
parameter, and so is `str` of a timestamp. What the driver cannot read makes the statement
fail, like a lost connection, and neither exception has a handler of its own.
-/

namespace DarajaWrapper

open Python

/-- The columns that `get_by_id` selects. -/
structure PaymentStatusRow where
  id : UUID
  status : PaymentStatus
  amount : ℚ
  phone : String
  accountReference : String
  mpesaReceipt : Option String
  failureReason : Option String
  resultCode : Option ℤ
  createdAt : ℚ
  updatedAt : ℚ

def Payment.statusRow (p : Payment) : PaymentStatusRow where
  id := p.id
  status := p.status
  amount := p.amount
  phone := p.phone
  accountReference := p.accountReference
  mpesaReceipt := p.mpesaReceipt
  failureReason := p.failureReason
  resultCode := p.resultCode
  createdAt := p.createdAt
  updatedAt := p.updatedAt

structure PaymentStatusResponse where
  paymentId : UUID
  status : String
  amount : String
  phone : String
  accountReference : String
  mpesaReceipt : Option String
  failureReason : Option String
  resultCode : Option ℤ
  createdAt : String
  updatedAt : String

def PaymentStatusResponse.content (response : PaymentStatusResponse) : Json :=
  .obj [("payment_id", .str response.paymentId.str), ("status", .str response.status),
    ("amount", .str response.amount), ("phone", .str response.phone),
    ("account_reference", .str response.accountReference),
    ("mpesa_receipt", response.mpesaReceipt.elim .null .str),
    ("failure_reason", response.failureReason.elim .null .str),
    ("result_code", response.resultCode.elim .null .int),
    ("created_at", .str response.createdAt), ("updated_at", .str response.updatedAt)]

/-- `PaymentNotFoundError` as the route raises it. -/
def paymentNotFoundError (paymentId : String) : AppError where
  message := "No payment with id '" ++ paymentId ++ "'."
  code := "PAYMENT_NOT_FOUND"
  details := [("payment_id", .json (.str paymentId))]

def notFound (exc : AppError) : Option JSONResponse :=
  jsonResponse 404 (problem 404 "Payment Not Found" exc.message exc.errorCode exc.details)

section

variable (uuidOf : String → Option UUID) (timeText : ℚ → String)

/-- The response that `get_payment_status` makes of a row. -/
def PaymentStatusRow.response (row : PaymentStatusRow) : PaymentStatusResponse where
  paymentId := row.id
  status := row.status.value
  amount := amountText row.amount
  phone := row.phone
  accountReference := row.accountReference
  mpesaReceipt := row.mpesaReceipt
  failureReason := row.failureReason
  resultCode := row.resultCode
  createdAt := timeText row.createdAt
  updatedAt := timeText row.updatedAt

/-- `get_payment_status` of the service. -/
def STKService.getPaymentStatus (t : PaymentsTable) (link : Link) (paymentId : String) :
    Except ServiceError (Option PaymentStatusResponse) :=
  match uuidOf paymentId, link with
  | some id, .up => .ok ((t.getById id).map fun p => p.statusRow.response timeText)
  | _, _ => .error .database

/-- What the client gets from the route. -/
def getPaymentStatus (t : PaymentsTable) (link : Link) (paymentId : String) : JSONResponse :=
  match STKService.getPaymentStatus uuidOf timeText t link paymentId with
  | .error _ => answered unhandled
  | .ok none => answered (notFound (paymentNotFoundError paymentId))
  | .ok (some response) => { statusCode := 200, content := response.content }

end

def notFoundDocument (paymentId : String) : Json :=
  .obj (problemMembers 404 "Payment Not Found" ("No payment with id '" ++ paymentId ++ "'.")
    "payment-not-found" ++ [("payment_id", .str paymentId)])

variable {uuidOf : String → Option UUID} {timeText : ℚ → String} {t : PaymentsTable}
  {link : Link} {paymentId : String} {id : UUID} {p : Payment}

/-- The details of the exception can be encoded, whatever the client has asked for. -/
theorem answered_notFound (paymentId : String) :
    answered (notFound (paymentNotFoundError paymentId)) =
      { statusCode := 404, content := notFoundDocument paymentId } := by
  unfold notFound jsonResponse paymentNotFoundError
  dsimp only
  rw [encode_problem (by simp [problemMembers])]
  have hcode : String.ofList ("PAYMENT_NOT_FOUND".toList.map fun c =>
      if c = '_' then '-' else c.toLower) = "payment-not-found" := rfl
  simp only [AppError.errorCode, hcode]
  rfl

theorem getPaymentStatus_of_error (h : uuidOf paymentId = none ∨ link ≠ .up) :
    getPaymentStatus uuidOf timeText t link paymentId = internalServerError := by
  unfold getPaymentStatus STKService.getPaymentStatus
  rcases h with h | h
  · rw [h]
    rfl
  · cases uuidOf paymentId <;> cases link
    all_goals first
      | exact absurd rfl h
      | rfl

theorem getPaymentStatus_of_row (hid : uuidOf paymentId = some id) (hp : p ∈ t.rows)
    (h : p.id = id) : getPaymentStatus uuidOf timeText t .up paymentId =
      { statusCode := 200, content := (p.statusRow.response timeText).content } := by
  have hrow : t.getById id = some p := Rows.find?_eq_some t.constraints.id hp h
  simp only [getPaymentStatus, STKService.getPaymentStatus, hid, hrow, Option.map_some]

theorem getPaymentStatus_of_no_row (hid : uuidOf paymentId = some id)
    (h : ∀ p ∈ t.rows, p.id ≠ id) : getPaymentStatus uuidOf timeText t .up paymentId =
      { statusCode := 404, content := notFoundDocument paymentId } := by
  have hrow : t.getById id = none := by
    rw [PaymentsTable.getById, List.find?_eq_none]
    intro p hp
    simpa using h p hp
  simp only [getPaymentStatus, STKService.getPaymentStatus, hid, hrow, Option.map_none]
  exact answered_notFound paymentId

end DarajaWrapper
