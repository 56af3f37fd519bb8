import DarajaWrapper.Daraja.Stk
import DarajaWrapper.Repository.PaymentRepo
import DarajaWrapper.Stores

/-!
# The STK service

`initiate_stk_push` awaits a store or Daraja a dozen times and other workers run
in between, so it is given as the points at which it waits and, for each point,
what it does with the answer. `process_callback` is given the same way and also
as the function that it computes when nothing runs in between.
-/

namespace DarajaWrapper

open Python

/-- How a call of `initiate_stk_push` ends: one of its three `return`s, or an exception. -/
inductive InitiateOutcome where
  | cacheHit (response : STKPushInitiateResponse)
  | dbHit (response : STKPushInitiateResponse)
  | initiated (response : STKPushInitiateResponse)
  | raised (e : ServiceError)

def InitiateOutcome.response? : InitiateOutcome → Option STKPushInitiateResponse
  | cacheHit response => some response
  | dbHit response => some response
  | initiated response => some response
  | raised _ => none

/-- What the caller gets: a response, `DuplicatePaymentError` (409), or another error. -/
inductive Answer where
  | response (response : STKPushInitiateResponse)
  | conflict (idempotencyKey : String)
  | error
  deriving DecidableEq

def InitiateOutcome.answer : InitiateOutcome → Answer
  | cacheHit response => .response response
  | dbHit response => .response response
  | initiated response => .response response
  | raised (.duplicatePayment key) => .conflict key
  | raised (.call _) => .error
  | raised .database => .error

/-- Where a call of `initiate_stk_push` waits. `createdAt` is the start of its transaction,
which the lookup by key opens; `n` counts the attempts of `DarajaClient.post`. -/
inductive InitiatePc where
  | cacheGet
  | acquireLock
  | lookup
  | create (createdAt : ℚ)
  | callDaraja (paymentId : UUID)
  | posting (paymentId : UUID) (n : ℕ)
  | markFailed (paymentId : UUID) (e : DarajaError)
  | updateIds (paymentId : UUID) (result : STKInitiationResult)
  | cacheResult (response : STKPushInitiateResponse)
  | releaseLock (outcome : InitiateOutcome)
  | done (outcome : InitiateOutcome)
  | crashed

/-- The statuses that `initiate_stk_push` answers from the database. -/
def answeredStatus (status : PaymentStatus) : Bool :=
  status = .completed || status = .failed || status = .cancelled

/-- `_payment_to_response`. -/
def paymentToResponse (p : Payment) : STKPushInitiateResponse where
  paymentId := p.id
  checkoutRequestId := p.checkoutRequestId.getD ""
  merchantRequestId := p.merchantRequestId.getD ""
  responseCode := "0"
  customerMessage := "Payment already processed."
  status := p.status.value

/-- The PENDING record that is written before Daraja is called. -/
def newPayment (r : STKPushInitiateRequest) (paymentId : UUID) (createdAt : ℚ) : Payment where
  id := paymentId
  paymentType := .stkPush
  status := .pending
  phone := r.phoneNumber
  amount := r.amount
  accountReference := r.accountReference
  transactionDesc := r.transactionDesc
  idempotencyKey := r.idempotencyKey
  checkoutRequestId := none
  merchantRequestId := none
  mpesaReceipt := none
  amountPaid := none
  mpesaTransactionDate := none
  failureReason := none
  resultCode := none
  createdAt := createdAt
  updatedAt := createdAt

section

variable {r : STKPushInitiateRequest} {paymentId : UUID} {createdAt : ℚ}

/-- No text of a request is longer than its column, so a new row is stored as it is. -/
theorem eq_newPayment_of_stored {p : Payment}
    (h : (newPayment r paymentId createdAt).stored = some p) :
    p = newPayment r paymentId createdAt := by
  simp only [Payment.stored, newPayment, nullable, Option.bind_eq_bind, Option.bind_eq_some_iff,
    Option.some.injEq, exists_eq_left', Option.pure_def] at h
  obtain ⟨phone, hphone, reference, hreference, desc, hdesc, key, hkey, rfl⟩ := h
  have hlength : r.phoneNumber.length ≤ 15 :=
    (length_of_isMsisdn r.phone_normalised).le.trans (by decide)
  rw [eq_of_length_le hlength hphone, eq_of_length_le r.reference_length.2 hreference,
    eq_of_length_le r.desc_length.2 hdesc, eq_of_length_le r.key_length.2 hkey]
  rfl

theorem insert_of_create {t t' : PaymentsTable}
    (h : t.create (newPayment r paymentId createdAt) = some t') :
    t.insert (newPayment r paymentId createdAt) = some t' := by
  obtain ⟨p, hp, hinsert⟩ := Option.bind_eq_some_iff.mp h
  rwa [eq_newPayment_of_stored hp] at hinsert

end

def initiatedResponse (paymentId : UUID) (result : STKInitiationResult) :
    STKPushInitiateResponse where
  paymentId := paymentId
  checkoutRequestId := result.checkoutRequestId
  merchantRequestId := result.merchantRequestId
  responseCode := result.responseCode
  customerMessage := result.customerMessage
  status := PaymentStatus.pending.value

/-- A SELECT fails when the connection does, or on a parameter that no text value equals. -/
def selectFails (link : Link) (parameter : String) : Bool := link ≠ .up || !storable parameter

namespace InitiatePc

def afterCacheGet : Option STKPushInitiateResponse → InitiatePc
  | some response => done (.cacheHit response)
  | none => acquireLock

def afterSetNx (key : String) (acquired : Bool) : InitiatePc :=
  if acquired then lookup else done (.raised (.duplicatePayment key))

/-- A payment that is already settled is answered; a missing or PENDING one is created. -/
def afterLookup (now : ℚ) (link : Link) (key : String) (existing : Option Payment) : InitiatePc :=
  if selectFails link key then releaseLock (.raised .database)
  else
    match existing with
    | some p =>
      if answeredStatus p.status then releaseLock (.dbHit (paymentToResponse p)) else create now
    | none => create now

def afterCreate (paymentId : UUID) (ok : Bool) : InitiatePc :=
  if ok then callDaraja paymentId else releaseLock (.raised .database)

/-- An exception of the Daraja call: only a `DarajaError` marks the payment failed. -/
def afterCallError (paymentId : UUID) : CallError → InitiatePc
  | .daraja e => markFailed paymentId e
  | e => releaseLock (.raised (.call e))

def afterCheckCircuit (paymentId : UUID) : Except DarajaError DarajaClient → InitiatePc
  | .ok _ => posting paymentId 1
  | .error e => markFailed paymentId e

def afterAttempt (paymentId : UUID) (n : ℕ) : AttemptResult → InitiatePc
  | .returned body =>
    match initiateResult body with
    | .ok result => updateIds paymentId result
    | .error e => markFailed paymentId e
  | .retry => posting paymentId (n + 1)
  | .raised e => afterCallError paymentId e

/-- Whatever became of the update, the `DarajaError` is raised again. -/
def afterMarkFailed (e : DarajaError) : InitiatePc := releaseLock (.raised (.call (.daraja e)))

def afterUpdateIds (paymentId : UUID) (result : STKInitiationResult) (ok : Bool) : InitiatePc :=
  if ok then cacheResult (initiatedResponse paymentId result) else releaseLock (.raised .database)

def afterSetex (response : STKPushInitiateResponse) : InitiatePc :=
  releaseLock (.initiated response)

/-- The payment that the call has created, while it still works on it. -/
def paymentId? : InitiatePc → Option UUID
  | callDaraja paymentId => some paymentId
  | posting paymentId _ => some paymentId
  | markFailed paymentId _ => some paymentId
  | updateIds paymentId _ => some paymentId
  | cacheResult response => some response.paymentId
  | _ => none

/-- How far the call has come. -/
def stage : InitiatePc → ℕ
  | cacheGet => 0
  | acquireLock => 1
  | lookup => 2
  | create _ => 3
  | callDaraja _ => 4
  | posting _ _ => 5
  | markFailed _ _ => 6
  | updateIds _ _ => 6
  | cacheResult _ => 7
  | releaseLock _ => 8
  | done _ => 9
  | crashed => 9

def outcome? : InitiatePc → Option InitiateOutcome
  | releaseLock outcome => some outcome
  | done outcome => some outcome
  | _ => none

section

variable {paymentId : UUID} {n : ℕ} {ok : Bool}

theorem stage_afterCreate : 4 ≤ (afterCreate paymentId ok).stage := by
  cases ok <;> simp [afterCreate, stage]

theorem stage_afterCheckCircuit (checked : Except DarajaError DarajaClient) :
    5 ≤ (afterCheckCircuit paymentId checked).stage := by
  cases checked <;> simp [afterCheckCircuit, stage]

theorem stage_afterAttempt (result : AttemptResult) :
    5 ≤ (afterAttempt paymentId n result).stage ∧
      ((afterAttempt paymentId n result).stage = 5 → result = .retry) := by
  cases result with
  | returned body =>
    simp only [afterAttempt]
    split <;> simp [stage]
  | retry => simp [afterAttempt, stage]
  | raised e => cases e <;> simp [afterAttempt, afterCallError, stage]

theorem stage_afterUpdateIds (result : STKInitiationResult) :
    7 ≤ (afterUpdateIds paymentId result ok).stage := by
  cases ok <;> simp [afterUpdateIds, stage]

end

end InitiatePc

inductive CallbackOutcome where
  | ignored
  | unmatched
  | applied
  | raised
  deriving DecidableEq, Repr

inductive CallbackPc where
  | claim
  | lookup
  | apply (paymentId : UUID)
  | done (outcome : CallbackOutcome)
  | crashed
  deriving DecidableEq

/-- `_parse_daraja_transaction_date`: the digits are read as they stand and labelled UTC. -/
def parseDarajaTransactionDate (raw : Json) : Option Datetime :=
  if raw.truthy then raw.pyStr?.bind strptimeYmdHMS else none

/-- The update that a callback makes to its payment. -/
def applyOutcome (now : ℚ) (t : PaymentsTable) (paymentId : UUID) (cb : STKCallbackBody) :
    Option PaymentsTable :=
  if cb.isSuccess then
    t.markCompleted now paymentId (cb.details.get "MpesaReceiptNumber") (cb.details.get "Amount")
      (parseDarajaTransactionDate (cb.details.get "TransactionDate"))
  else t.markFailed now paymentId cb.resultDesc cb.resultCode

namespace CallbackPc

def afterSetNx (firstTime : Bool) : CallbackPc := if firstTime then lookup else done .ignored

def afterLookup (link : Link) (checkoutRequestId : String) (payment : Option Payment) :
    CallbackPc :=
  if selectFails link checkoutRequestId then done .raised
  else
    match payment with
    | some p => apply p.id
    | none => done .unmatched

def afterApply (ok : Bool) : CallbackPc := done (if ok then .applied else .raised)

end CallbackPc

/-- What becomes of the three operations of one delivery. -/
structure CallbackLinks where
  setNx : Link := .up
  lookup : Link := .up
  update : Link := .up

/-- `process_callback` from start to end, on the deduplication key of its CheckoutRequestID and
the table. `delivery` stands for the value of the key. -/
def processCallback (links : CallbackLinks) (now : ℚ) (delivery : ℕ) (cb : STKCallbackBody)
    (dedup : Option ℕ) (t : PaymentsTable) : Option ℕ × PaymentsTable × CallbackOutcome :=
  let claimed := redisSetNx links.setNx dedup delivery
  if !claimed.1 then (claimed.2, t, .ignored)
  else if selectFails links.lookup cb.checkoutRequestId then (claimed.2, t, .raised)
  else
    match t.getByCheckoutRequestId cb.checkoutRequestId with
    | none => (claimed.2, t, .unmatched)
    | some p =>
      let result := commit links.update t (applyOutcome now t p.id cb)
      (claimed.2, result.1, if result.2 then .applied else .raised)

/-- An applied outcome is one row rewritten: completed for ResultCode 0, failed otherwise. -/
theorem applyOutcome_eq_some {now : ℚ} {t t' : PaymentsTable} {paymentId : UUID}
    {cb : STKCallbackBody} (h : applyOutcome now t paymentId cb = some t') :
    (cb.resultCode = 0 ∧ ∃ receipt paid date,
      PaymentsTable.receiptParameter (cb.details.get "MpesaReceiptNumber") = some receipt ∧
      PaymentsTable.amountPaidParameter (cb.details.get "Amount") = some paid ∧
      date = parseDarajaTransactionDate (cb.details.get "TransactionDate") ∧
      t.update paymentId (Payment.withCompletion now receipt paid date) = some t') ∨
    (cb.resultCode ≠ 0 ∧
      t.update paymentId (Payment.withFailure now cb.resultDesc cb.resultCode) = some t') := by
  unfold applyOutcome STKCallbackBody.isSuccess at h
  split_ifs at h with h0
  · obtain ⟨r, a, hr, ha, hu⟩ := PaymentsTable.markCompleted_eq_some h
    exact Or.inl ⟨by simpa using h0, r, a, _, hr, ha, rfl, hu⟩
  · exact Or.inr ⟨by simpa using h0, h⟩

/-- The values of a callback fit the columns that it is written to, with what is cut off there. -/
def STKCallbackBody.fits (cb : STKCallbackBody) : Bool :=
  if cb.isSuccess then
    (PaymentsTable.receiptParameter (cb.details.get "MpesaReceiptNumber")).isSome &&
      (PaymentsTable.amountPaidParameter (cb.details.get "Amount")).any
        fun paid => paid.all Numeric.positive
  else storable cb.resultDesc && int4 cb.resultCode

theorem columnsOk_withCompletion {p : Payment} (hp : p.columnsOk = true) {now : ℚ}
    {receipt : Option String} {paid : Option Numeric} {date : Option Datetime} :
    (p.withCompletion now receipt paid date).columnsOk = true ↔
      receipt.all (isVarchar 20) = true ∧ paid.all Numeric.positive = true := by
  simp only [Payment.columnsOk, Payment.withCompletion, Bool.and_eq_true] at hp ⊢
  tauto

theorem columnsOk_withFailure {p : Payment} (hp : p.columnsOk = true) {now : ℚ}
    {reason : String} {code : ℤ} :
    (p.withFailure now reason code).columnsOk = true ↔
      storable reason = true ∧ int4 code = true := by
  simp only [Payment.columnsOk, Payment.withFailure, Option.all_some, Bool.and_eq_true] at hp ⊢
  tauto

/-- A callback is applied to its row exactly when its values fit. -/
theorem applyOutcome_isSome_iff (now : ℚ) {t : PaymentsTable} {p : Payment}
    (hp : p ∈ t.rows) {cb : STKCallbackBody} :
    (applyOutcome now t p.id cb).isSome = true ↔ cb.fits = true := by
  have hcolumns := t.constraints.columns p hp
  unfold applyOutcome STKCallbackBody.fits
  split_ifs with hsuccess
  · simp only [PaymentsTable.markCompleted, Option.bind_eq_bind, Bool.and_eq_true]
    cases hreceipt : PaymentsTable.receiptParameter (cb.details.get "MpesaReceiptNumber") with
    | none => simp
    | some receipt =>
      have hvarchar := PaymentsTable.isVarchar_of_receiptParameter hreceipt
      cases PaymentsTable.amountPaidParameter (cb.details.get "Amount") with
      | none => simp
      | some paid =>
        simp only [Option.bind_some, Option.any_some, Option.isSome_some, true_and]
        rw [PaymentsTable.update_isSome_iff (f := Payment.withCompletion now receipt paid _)
          (fun _ => rfl) (fun _ => rfl) fun _ => rfl]
        constructor
        · intro h
          exact ((columnsOk_withCompletion hcolumns).mp (h p hp rfl)).2
        · intro h q hq hid
          exact (columnsOk_withCompletion (t.constraints.columns q hq)).mpr ⟨hvarchar, h⟩
  · rw [PaymentsTable.markFailed, PaymentsTable.update_isSome_iff
      (f := Payment.withFailure now cb.resultDesc cb.resultCode) (fun _ => rfl) (fun _ => rfl)
      fun _ => rfl, Bool.and_eq_true]
    constructor
    · intro h
      exact (columnsOk_withFailure hcolumns).mp (h p hp rfl)
    · intro h q hq hid
      exact (columnsOk_withFailure (t.constraints.columns q hq)).mpr h

end DarajaWrapper
