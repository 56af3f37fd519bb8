import DarajaWrapper.Library.Machine
import DarajaWrapper.Library.Rows
import DarajaWrapper.Models.Audit

/-!
# `AuditLogRepository` on a database

Transactions run under READ COMMITTED: a SELECT sees what is committed by then and
the rows that its own transaction has inserted. `append` is a SELECT and an INSERT,
with room for other transactions between the two. `created_at` is `now()`, the time at
which the transaction started, so rows of one transaction have one `created_at`.
How the driver reads a UUID from a text is a parameter.
-/

namespace DarajaWrapper

/-- The arguments of `append`. The payload is the text that it is stored as. -/
structure AuditEvent where
  paymentId : String
  eventType : String
  actor : String
  payloadJson : String
  ipAddress : Option String
  requestId : Option String
  deriving DecidableEq

/-- The row that `append` adds. -/
def AuditEvent.entry (event : AuditEvent) (id paymentId : UUID) (previous : Option String)
    (now : ℚ) : PaymentAuditLog :=
  { id := id
    paymentId := paymentId
    eventType := event.eventType
    actor := event.actor
    payloadJson := some event.payloadJson
    ipAddress := event.ipAddress
    requestId := event.requestId
    checksum := PaymentAuditLog.computeChecksum event.paymentId event.eventType
      event.payloadJson previous
    previousChecksum := previous
    createdAt := now }

/-- The row that an INSERT of these values adds: every text as its column stores it. -/
def PaymentAuditLog.stored (entry : PaymentAuditLog) : Option PaymentAuditLog := do
  let eventType ← varchar 50 entry.eventType
  let actor ← varchar 100 entry.actor
  let ipAddress ← nullable (varchar 45) entry.ipAddress
  let requestId ← nullable (varchar 64) entry.requestId
  if entry.payloadJson.all storable then
    some { entry with eventType, actor, ipAddress, requestId }
  else none

/-- An `append` between its SELECT and its INSERT. -/
structure PendingAppend where
  event : AuditEvent
  paymentId : UUID
  previous : Option String
  deriving DecidableEq

/-- An open transaction and the rows that it has inserted. -/
structure AuditTransaction where
  id : ℕ
  startedAt : ℚ
  rows : List PaymentAuditLog
  pending : Option PendingAppend
  deriving DecidableEq

structure AuditStore where
  now : ℚ
  committed : List PaymentAuditLog
  transactions : List AuditTransaction
  deriving DecidableEq

/-- The rows of a payment. -/
def trail (payment : UUID) (rows : List PaymentAuditLog) : List PaymentAuditLog :=
  rows.filter fun row => row.paymentId = payment

/-- What ORDER BY `created_at` DESC LIMIT 1 can return from these rows. -/
def IsLatest (rows : List PaymentAuditLog) : Option PaymentAuditLog → Prop
  | none => rows = []
  | some row => row ∈ rows ∧ ∀ r ∈ rows, r.createdAt ≤ row.createdAt

instance (rows : List PaymentAuditLog) : DecidablePred (IsLatest rows)
  | none => inferInstanceAs (Decidable (rows = []))
  | some row => inferInstanceAs (Decidable (row ∈ rows ∧ ∀ r ∈ rows, r.createdAt ≤ row.createdAt))

inductive AuditAction
  | begin (id : ℕ) (now : ℚ)
  /-- The SELECT of `append` and the row that it returns. -/
  | select (id : ℕ) (event : AuditEvent) (latest : Option PaymentAuditLog)
  /-- The INSERT of `append`, with a fresh key. -/
  | insert (id : ℕ) (key : UUID)
  | commit (id : ℕ)

namespace AuditStore

def empty : AuditStore := ⟨0, [], []⟩

def transaction (s : AuditStore) (id : ℕ) : Option AuditTransaction :=
  s.transactions.find? fun tx => tx.id = id

/-- The rows that a statement of this transaction sees. -/
def visible (s : AuditStore) (tx : AuditTransaction) : List PaymentAuditLog :=
  s.committed ++ tx.rows

def put (s : AuditStore) (tx : AuditTransaction) : AuditStore :=
  { s with transactions := Rows.update (·.id) tx.id (fun _ => tx) s.transactions }

def keys (s : AuditStore) : List UUID :=
  (s.committed ++ s.transactions.flatMap (·.rows)).map (·.id)

/-- One step of one transaction. `none`: the transaction is not there, waits for its other half
of `append`, or the database refuses the statement. -/
def step (uuidOf : String → Option UUID) (s : AuditStore) : AuditAction → Option AuditStore
  | .begin id now =>
    if s.transaction id = none ∧ s.now ≤ now then
      some { s with now := now, transactions := s.transactions ++ [⟨id, now, [], none⟩] }
    else none
  | .select id event latest => do
    let tx ← s.transaction id
    let payment ← uuidOf event.paymentId
    if tx.pending = none ∧ IsLatest (trail payment (s.visible tx)) latest then
      some (s.put { tx with pending := some ⟨event, payment, latest.map (·.checksum)⟩ })
    else none
  | .insert id key => do
    let tx ← s.transaction id
    let append ← tx.pending
    let entry ←
      (append.event.entry key append.paymentId append.previous tx.startedAt).stored
    if key ∉ s.keys then
      some (s.put { tx with rows := tx.rows ++ [entry], pending := none })
    else none
  | .commit id => do
    let tx ← s.transaction id
    if tx.pending = none then
      some { s with committed := s.committed ++ tx.rows,
                    transactions := s.transactions.filter fun other => other.id ≠ id }
    else none

/-- What `get_payment_history` can return: the payment's committed rows, ordered by `created_at`
and in any order where that is equal. -/
def IsHistory (s : AuditStore) (payment : UUID) (entries : List PaymentAuditLog) : Prop :=
  entries.Perm (trail payment s.committed) ∧
    entries.Pairwise fun entry later => entry.createdAt ≤ later.createdAt

instance (s : AuditStore) (payment : UUID) (entries : List PaymentAuditLog) :
    Decidable (s.IsHistory payment entries) :=
  inferInstanceAs (Decidable (_ ∧ _))

end AuditStore

end DarajaWrapper
