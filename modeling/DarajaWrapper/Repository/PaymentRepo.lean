import DarajaWrapper.Schemas.Stk

/-!
# The payment repository

Lookups, and the four statements of the repository. A statement is the new
table, or `none` when it raises: because a value cannot be converted for its
column or because the result breaks a constraint. `now` is the reading of the
clock that becomes `updated_at`.
-/

namespace DarajaWrapper

open Python

namespace Payment

def withDarajaIds (now : ℚ) (checkoutRequestId merchantRequestId : String) (p : Payment) :
    Payment :=
  { p with
    checkoutRequestId := some checkoutRequestId
    merchantRequestId := some merchantRequestId
    updatedAt := now }

def withCompletion (now : ℚ) (mpesaReceipt : Option String) (amountPaid : Option Numeric)
    (transactionDate : Option Datetime) (p : Payment) : Payment :=
  { p with
    status := .completed
    mpesaReceipt := mpesaReceipt
    amountPaid := amountPaid
    mpesaTransactionDate := transactionDate
    updatedAt := now }

/-- 1032 says that the user cancelled. -/
def failureStatus (resultCode : ℤ) : PaymentStatus :=
  if resultCode = 1032 then .cancelled else .failed

def withFailure (now : ℚ) (failureReason : String) (resultCode : ℤ) (p : Payment) : Payment :=
  { p with
    status := failureStatus resultCode
    failureReason := some failureReason
    resultCode := some resultCode
    updatedAt := now }

section

variable (now : ℚ) (p : Payment)

theorem sameIdentity_withDarajaIds (c m : String) : p.SameIdentity (p.withDarajaIds now c m) :=
  ⟨rfl, rfl, rfl, rfl, rfl, rfl, rfl, rfl⟩

theorem sameIdentity_withCompletion (receipt : Option String) (paid : Option Numeric)
    (date : Option Datetime) : p.SameIdentity (p.withCompletion now receipt paid date) :=
  ⟨rfl, rfl, rfl, rfl, rfl, rfl, rfl, rfl⟩

theorem sameIdentity_withFailure (reason : String) (code : ℤ) :
    p.SameIdentity (p.withFailure now reason code) := ⟨rfl, rfl, rfl, rfl, rfl, rfl, rfl, rfl⟩

end

theorem failureStatus_eq (code : ℤ) :
    failureStatus code = .failed ∨ failureStatus code = .cancelled := by
  unfold failureStatus
  split_ifs <;> simp

theorem failureStatus_ne {status : PaymentStatus} (code : ℤ) (hfailed : status ≠ .failed)
    (hcancelled : status ≠ .cancelled) : failureStatus code ≠ status := by
  rcases failureStatus_eq code with h | h
  · rw [h]
    exact hfailed.symm
  · rw [h]
    exact hcancelled.symm

end Payment

namespace PaymentsTable

variable (t : PaymentsTable)

def getById (paymentId : UUID) : Option Payment := t.rows.find? fun p => p.id = paymentId

/-- The key is UNIQUE, so `scalar_one_or_none` never sees two rows. -/
def getByIdempotencyKey (key : String) : Option Payment :=
  t.rows.find? fun p => p.idempotencyKey = key

def getByCheckoutRequestId (checkoutRequestId : String) : Option Payment :=
  t.rows.find? fun p => p.checkoutRequestId = some checkoutRequestId

def create (payment : Payment) : Option PaymentsTable := payment.stored.bind t.insert

def updateDarajaIds (now : ℚ) (paymentId : UUID) (checkoutRequestId merchantRequestId : String) :
    Option PaymentsTable := do
  let checkoutRequestId ← varchar 100 checkoutRequestId
  let merchantRequestId ← varchar 100 merchantRequestId
  t.update paymentId (Payment.withDarajaIds now checkoutRequestId merchantRequestId)

/-- The receipt as its column stores it: only `None` and strings are accepted. -/
def receiptParameter : Json → Option (Option String)
  | .null => some none
  | .str s => (varchar 20 s).map some
  | _ => none

/-- `Decimal(str(amount_paid)) if amount_paid else None`, as stored. -/
def amountPaidParameter (amountPaid : Json) : Option (Option Numeric) :=
  if amountPaid.truthy then
    ((amountPaid.pyStr?.bind decimalOfString).bind numeric19_4).map some
  else some none

def markCompleted (now : ℚ) (paymentId : UUID) (mpesaReceipt amountPaid : Json)
    (transactionDate : Option Datetime) : Option PaymentsTable := do
  let receipt ← receiptParameter mpesaReceipt
  let paid ← amountPaidParameter amountPaid
  t.update paymentId (Payment.withCompletion now receipt paid transactionDate)

def markFailed (now : ℚ) (paymentId : UUID) (failureReason : String) (resultCode : ℤ) :
    Option PaymentsTable :=
  t.update paymentId (Payment.withFailure now failureReason resultCode)

section

variable {t} {t' : PaymentsTable} {now : ℚ} {paymentId : UUID} {p q : Payment}

theorem getByIdempotencyKey_eq_some {key : String} :
    t.getByIdempotencyKey key = some p ↔ p ∈ t.rows ∧ p.idempotencyKey = key :=
  ⟨Rows.mem_of_find?, fun ⟨hp, hk⟩ => Rows.find?_eq_some t.constraints.idempotencyKey hp hk⟩

theorem mem_of_getByCheckoutRequestId {c : String} (h : t.getByCheckoutRequestId c = some p) :
    p ∈ t.rows ∧ p.checkoutRequestId = some c := Rows.mem_of_find? h

theorem getByCheckoutRequestId_of_mem {c : String} (hp : p ∈ t.rows)
    (hc : p.checkoutRequestId = some c) : t.getByCheckoutRequestId c = some p := by
  cases h : t.getByCheckoutRequestId c with
  | none =>
    have hne := List.find?_eq_none.mp h p hp
    simp [hc] at hne
  | some q =>
    obtain ⟨hq, hqc⟩ := mem_of_getByCheckoutRequestId h
    rw [t.eq_of_checkoutRequestId_eq hq hp hqc hc]

theorem updateDarajaIds_eq_some {checkoutRequestId merchantRequestId : String}
    (h : t.updateDarajaIds now paymentId checkoutRequestId merchantRequestId = some t') :
    ∃ c m, varchar 100 checkoutRequestId = some c ∧ varchar 100 merchantRequestId = some m ∧
      t.update paymentId (Payment.withDarajaIds now c m) = some t' := by
  simp only [updateDarajaIds, Option.bind_eq_bind, Option.bind_eq_some_iff] at h
  obtain ⟨c, hc, m, hm, h⟩ := h
  exact ⟨c, m, hc, hm, h⟩

theorem isVarchar_of_receiptParameter {receipt : Json} {stored : Option String}
    (h : receiptParameter receipt = some stored) : stored.all (isVarchar 20) = true := by
  cases receipt with
  | null =>
    cases h
    rfl
  | str s =>
    obtain ⟨s', hs, rfl⟩ := Option.map_eq_some_iff.mp h
    exact isVarchar_of_varchar hs
  | _ => cases h

theorem markCompleted_eq_some {receipt amount : Json} {date : Option Datetime}
    (h : t.markCompleted now paymentId receipt amount date = some t') :
    ∃ r a, receiptParameter receipt = some r ∧ amountPaidParameter amount = some a ∧
      t.update paymentId (Payment.withCompletion now r a date) = some t' := by
  simp only [markCompleted, Option.bind_eq_bind, Option.bind_eq_some_iff] at h
  obtain ⟨r, hr, a, ha, h⟩ := h
  exact ⟨r, a, hr, ha, h⟩

/-- Every row of an updated table is an old row, with the update applied if it was selected. -/
theorem mem_of_mem_update {f : Payment → Payment} (h : t.update paymentId f = some t')
    (hq : q ∈ t'.rows) :
    (∃ p ∈ t.rows, p.id = paymentId ∧ q = f p) ∨ (q ∈ t.rows ∧ q.id ≠ paymentId) := by
  rw [update_eq_some h] at hq
  exact Rows.mem_update.mp hq

theorem mem_update_self {f : Payment → Payment} (h : t.update paymentId f = some t')
    (hp : p ∈ t.rows) (hid : p.id = paymentId) : f p ∈ t'.rows := by
  rw [update_eq_some h]
  exact Rows.mem_update_of_mem hp hid

/-- An update that leaves the unique columns alone fails only on the columns of its row. -/
theorem update_isSome_iff {f : Payment → Payment} (hid : ∀ p, (f p).id = p.id)
    (hkey : ∀ p, (f p).idempotencyKey = p.idempotencyKey)
    (hcheckout : ∀ p, (f p).checkoutRequestId = p.checkoutRequestId) :
    (t.update paymentId f).isSome = true ↔
      ∀ p ∈ t.rows, p.id = paymentId → (f p).columnsOk = true := by
  have hstore : (t.update paymentId f).isSome = true ↔
      Constraints (Rows.update (·.id) paymentId f t.rows) := by
    unfold update store
    split_ifs with h <;> simp [h]
  rw [hstore]
  constructor
  · intro h p hp hpid
    exact h.columns _ (Rows.mem_update_of_mem hp hpid)
  · intro hcolumns
    refine ⟨?_, ?_, ?_, ?_⟩
    · rw [Rows.map_update _ fun p _ => hid p]
      exact t.constraints.id
    · rw [Rows.map_update _ fun p _ => hkey p]
      exact t.constraints.idempotencyKey
    · rw [Rows.filterMap_update _ fun p _ => hcheckout p]
      exact t.constraints.checkoutRequestId
    · intro q hq
      rcases Rows.mem_update.mp hq with ⟨p, hp, hpid, rfl⟩ | ⟨hp, -⟩
      · exact hcolumns p hp hpid
      · exact t.constraints.columns q hp

theorem mem_update_other {f : Payment → Payment} (h : t.update paymentId f = some t')
    (hp : p ∈ t.rows) (hid : p.id ≠ paymentId) : p ∈ t'.rows := by
  rw [update_eq_some h]
  exact Rows.mem_update_of_ne hp hid

end

end PaymentsTable

end DarajaWrapper
