import DarajaWrapper.Services.Stk

/-!
# The stale sweep

`expire_stale_pending_payments` reads a batch of stale rows in one transaction
and then visits them one by one, each update in a transaction of its own. Its
SELECT has no ORDER BY, so any batch of the right size may come back.
-/

namespace DarajaWrapper

/-- The columns that the sweep selects and reads. -/
structure StaleRow where
  id : UUID
  mpesaReceipt : Option String
  deriving DecidableEq

/-- Where a sweep waits; `rows []` is its end. -/
inductive SweepPc where
  | select (staleCutoff : ℚ)
  | rows (remaining : List StaleRow)
  | raised
  | crashed
  deriving DecidableEq

def staleAge : ℚ := 600

def batchSize : ℕ := 50

def isStale (staleCutoff : ℚ) (p : Payment) : Bool :=
  p.status = .pending && p.createdAt < staleCutoff

namespace PaymentsTable

variable {t : PaymentsTable}

/-- The batch that the SELECT returned, when `ids` is one that it may return: distinct stale
rows, as many as there are up to the limit. -/
def staleBatch (t : PaymentsTable) (staleCutoff : ℚ) (ids : List UUID) : Option (List StaleRow) :=
  let stale := t.rows.filter (isStale staleCutoff)
  if ids.Nodup ∧ ids ⊆ stale.map (·.id) ∧ ids.length = min batchSize stale.length then
    some ((ids.filterMap t.getById).map fun p => ⟨p.id, p.mpesaReceipt⟩)
  else none

end PaymentsTable

namespace Payment

/-- The update of the sweep. -/
def withExpiry (now : ℚ) (p : Payment) : Payment :=
  { p with
    status := .failed
    failureReason := some "No callback received within 10 mins"
    resultCode := some (-99)
    updatedAt := now }

/-- An expiry is a failure with a code that Daraja does not use. -/
theorem withExpiry_eq (now : ℚ) :
    withExpiry now = withFailure now "No callback received within 10 mins" (-99) := rfl

theorem sameIdentity_withExpiry (now : ℚ) (p : Payment) : p.SameIdentity (p.withExpiry now) := by
  rw [withExpiry_eq]
  exact p.sameIdentity_withFailure ..

end Payment

namespace PaymentsTable

/-- The statement that the sweep runs for one row; it does not look at the status again. -/
def expire (now : ℚ) (t : PaymentsTable) (paymentId : UUID) : Option PaymentsTable :=
  t.update paymentId (Payment.withExpiry now)

end PaymentsTable

/-- `if row.mpesa_receipt`. -/
def StaleRow.hasReceipt (row : StaleRow) : Bool := row.mpesaReceipt.any (· ≠ "")

end DarajaWrapper
