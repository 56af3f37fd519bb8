import DarajaWrapper.Library.Rows
import DarajaWrapper.Python.Values

/-!
# The payments table

A row has the columns of `Payment`; a table is a list of rows together with the
proof that it satisfies every constraint of the schema, so a table that breaks
one cannot be built. A statement that would break one fails and leaves the
table as it was. The schema gives `mpesa_receipt` an index but no UNIQUE
constraint.
-/

namespace DarajaWrapper

open Python

abbrev UUID := BitVec 128

inductive PaymentStatus where
  | pending
  | completed
  | failed
  | cancelled
  | reversed
  deriving DecidableEq, Repr

def PaymentStatus.value : PaymentStatus → String
  | pending => "pending"
  | completed => "completed"
  | failed => "failed"
  | cancelled => "cancelled"
  | reversed => "reversed"

theorem PaymentStatus.value_injective : Function.Injective PaymentStatus.value := by
  intro a b h
  revert h
  cases a <;> cases b <;> decide

inductive PaymentType where
  | stkPush
  | c2b
  | b2c
  deriving DecidableEq, Repr

def PaymentType.value : PaymentType → String
  | stkPush => "stk_push"
  | c2b => "c2b"
  | b2c => "b2c"

/-- A stored `NUMERIC(19, 4)`. -/
inductive Numeric where
  | value (q : ℚ)
  | nan
  deriving DecidableEq

/-- Rounding to four places, halves away from zero. -/
def roundScale4 (q : ℚ) : ℚ :=
  if 0 ≤ q then ⌊q * 10000 + 1 / 2⌋ / 10000 else -(⌊-q * 10000 + 1 / 2⌋ / 10000)

/-- The value stored for a `Decimal`; `none` where the precision overflows. -/
def numeric19_4 : Decimal → Option Numeric
  | .finite v => if |roundScale4 v| < 10 ^ 15 then some (.value (roundScale4 v)) else none
  | .infinity => none
  | .nan => some .nan

/-- `x > 0` in SQL, where NaN is greater than every number. -/
def Numeric.positive : Numeric → Bool
  | .value q => 0 < q
  | .nan => true

/-- A text value that PostgreSQL can hold. -/
def storable (s : String) : Bool := !s.toList.contains '\x00'

/-- A text that a `VARCHAR(n)` column holds. -/
def isVarchar (n : ℕ) (s : String) : Bool := s.length ≤ n && storable s

/-- The text that a `VARCHAR(n)` column stores when this one is assigned to it: an excess of spaces
is cut off, any other excess makes the statement fail. -/
def varchar (n : ℕ) (s : String) : Option String :=
  if storable s && (s.toList.drop n).all (· = ' ') then some (String.ofList (s.toList.take n))
  else none

/-- A column that may be NULL. -/
def nullable (column : String → Option String) : Option String → Option (Option String)
  | none => some none
  | some s => (column s).map some

/-- The column stores this text uncut, or refuses it. -/
def storesWhole (n : ℕ) (s : String) : Bool := (varchar n s).all (· = s)

section

variable {n : ℕ} {s s' : String}

theorem varchar_of_length_le (h : s.length ≤ n) :
    varchar n s = if storable s then some s else none := by
  have hlength : s.toList.length ≤ n := by rwa [String.length_toList]
  rw [varchar, List.drop_eq_nil_of_le hlength, List.take_of_length_le hlength,
    String.ofList_toList]
  simp

theorem isVarchar_of_varchar (h : varchar n s = some s') : isVarchar n s' = true := by
  unfold varchar at h
  split_ifs at h with hfits
  obtain rfl := Option.some.inj h
  simp only [Bool.and_eq_true, storable, Bool.not_eq_true', List.contains_eq_mem,
    decide_eq_false_iff_not] at hfits
  simp only [isVarchar, storable, String.length_ofList, String.toList_ofList, Bool.and_eq_true,
    decide_eq_true_eq, Bool.not_eq_true', List.contains_eq_mem, decide_eq_false_iff_not]
  exact ⟨List.length_take_le _ _, fun hmem => hfits.1 (List.mem_of_mem_take hmem)⟩

theorem eq_of_length_le (h : s.length ≤ n) (hs : varchar n s = some s') : s' = s := by
  rw [varchar_of_length_le h] at hs
  split_ifs at hs
  exact (Option.some.inj hs).symm

theorem eq_of_storesWhole (h : storesWhole n s = true) (hs : varchar n s = some s') : s' = s := by
  rw [storesWhole, hs] at h
  exact of_decide_eq_true h

end

def int4 (n : ℤ) : Bool := -2147483648 ≤ n && n ≤ 2147483647

structure Payment where
  id : UUID
  paymentType : PaymentType
  status : PaymentStatus
  phone : String
  amount : ℚ
  accountReference : String
  transactionDesc : String
  idempotencyKey : String
  checkoutRequestId : Option String
  merchantRequestId : Option String
  mpesaReceipt : Option String
  amountPaid : Option Numeric
  mpesaTransactionDate : Option Datetime
  failureReason : Option String
  resultCode : Option ℤ
  createdAt : ℚ
  updatedAt : ℚ
  deriving DecidableEq

namespace Payment

/-- Column sizes, `ck_payments_amount_positive` and `ck_payments_amount_paid_positive`. -/
def columnsOk (p : Payment) : Bool :=
  isVarchar 15 p.phone && isVarchar 12 p.accountReference && isVarchar 13 p.transactionDesc &&
    isVarchar 64 p.idempotencyKey && p.checkoutRequestId.all (isVarchar 100) &&
    p.merchantRequestId.all (isVarchar 100) && p.mpesaReceipt.all (isVarchar 20) &&
    p.failureReason.all storable && p.resultCode.all int4 &&
    (p.amount * 10000).den = 1 && p.amount < 10 ^ 15 && 0 < p.amount &&
    p.amountPaid.all Numeric.positive

/-- The row that an INSERT of these values adds: every text as its column stores it. -/
def stored (p : Payment) : Option Payment := do
  let phone ← varchar 15 p.phone
  let accountReference ← varchar 12 p.accountReference
  let transactionDesc ← varchar 13 p.transactionDesc
  let idempotencyKey ← varchar 64 p.idempotencyKey
  let checkoutRequestId ← nullable (varchar 100) p.checkoutRequestId
  let merchantRequestId ← nullable (varchar 100) p.merchantRequestId
  let mpesaReceipt ← nullable (varchar 20) p.mpesaReceipt
  return { p with phone, accountReference, transactionDesc, idempotencyKey, checkoutRequestId,
                  merchantRequestId, mpesaReceipt }

/-- Two versions of a row that agree on every column but `updated_at`. -/
def SameUpToUpdatedAt (p q : Payment) : Prop := { p with updatedAt := q.updatedAt } = q

/-- The columns that no statement of the program sets after the insert. -/
structure SameIdentity (p q : Payment) : Prop where
  id : q.id = p.id
  paymentType : q.paymentType = p.paymentType
  phone : q.phone = p.phone
  amount : q.amount = p.amount
  accountReference : q.accountReference = p.accountReference
  transactionDesc : q.transactionDesc = p.transactionDesc
  idempotencyKey : q.idempotencyKey = p.idempotencyKey
  createdAt : q.createdAt = p.createdAt

theorem SameIdentity.refl (p : Payment) : p.SameIdentity p :=
  ⟨rfl, rfl, rfl, rfl, rfl, rfl, rfl, rfl⟩

theorem SameIdentity.trans {p q r : Payment} (hpq : p.SameIdentity q) (hqr : q.SameIdentity r) :
    p.SameIdentity r where
  id := hqr.id.trans hpq.id
  paymentType := hqr.paymentType.trans hpq.paymentType
  phone := hqr.phone.trans hpq.phone
  amount := hqr.amount.trans hpq.amount
  accountReference := hqr.accountReference.trans hpq.accountReference
  transactionDesc := hqr.transactionDesc.trans hpq.transactionDesc
  idempotencyKey := hqr.idempotencyKey.trans hpq.idempotencyKey
  createdAt := hqr.createdAt.trans hpq.createdAt

/-- `q` is a later version of the row `p`: identifiers, once issued, stay. -/
structure Later (p q : Payment) : Prop where
  identity : p.SameIdentity q
  checkoutRequestId : ∀ c, p.checkoutRequestId = some c → q.checkoutRequestId = some c
  merchantRequestId : ∀ m, p.merchantRequestId = some m → q.merchantRequestId = some m

theorem Later.refl (p : Payment) : p.Later p := ⟨.refl p, fun _ h => h, fun _ h => h⟩

theorem Later.trans {p q r : Payment} (hpq : p.Later q) (hqr : q.Later r) : p.Later r where
  identity := hpq.identity.trans hqr.identity
  checkoutRequestId c hc := hqr.checkoutRequestId c (hpq.checkoutRequestId c hc)
  merchantRequestId m hm := hqr.merchantRequestId m (hpq.merchantRequestId m hm)

end Payment

/-- The constraints of the schema: the primary key, the two UNIQUE columns, and the columns
of every row. NULLs are distinct from each other, so only issued identifiers must differ. -/
structure Constraints (rows : List Payment) : Prop where
  id : (rows.map (·.id)).Nodup
  idempotencyKey : (rows.map (·.idempotencyKey)).Nodup
  checkoutRequestId : (rows.filterMap (·.checkoutRequestId)).Nodup
  columns : ∀ p ∈ rows, p.columnsOk = true

instance (rows : List Payment) : Decidable (Constraints rows) :=
  decidable_of_iff
    ((rows.map (·.id)).Nodup ∧ (rows.map (·.idempotencyKey)).Nodup ∧
      (rows.filterMap (·.checkoutRequestId)).Nodup ∧ ∀ p ∈ rows, p.columnsOk = true)
    ⟨fun ⟨h₁, h₂, h₃, h₄⟩ => ⟨h₁, h₂, h₃, h₄⟩, fun h => ⟨h.1, h.2, h.3, h.4⟩⟩

structure PaymentsTable where
  rows : List Payment
  constraints : Constraints rows

namespace PaymentsTable

variable {t t' : PaymentsTable} {p q : Payment} {id : UUID} {f : Payment → Payment}

def empty : PaymentsTable := ⟨[], by decide⟩

def store (rows : List Payment) : Option PaymentsTable :=
  if h : Constraints rows then some ⟨rows, h⟩ else none

def insert (t : PaymentsTable) (p : Payment) : Option PaymentsTable := store (t.rows ++ [p])

/-- `UPDATE payments SET … WHERE id = …`. -/
def update (t : PaymentsTable) (id : UUID) (f : Payment → Payment) : Option PaymentsTable :=
  store (Rows.update (·.id) id f t.rows)

theorem store_eq_some {rows : List Payment} (h : store rows = some t') : t'.rows = rows := by
  unfold store at h
  split_ifs at h
  cases h
  rfl

theorem insert_eq_some (h : t.insert p = some t') : t'.rows = t.rows ++ [p] := store_eq_some h

theorem update_eq_some (h : t.update id f = some t') :
    t'.rows = Rows.update (·.id) id f t.rows := store_eq_some h

theorem eq_of_id_eq (hp : p ∈ t.rows) (hq : q ∈ t.rows) (h : p.id = q.id) : p = q :=
  Rows.eq_of_key_eq t.constraints.id hp hq h

theorem eq_of_idempotencyKey_eq (hp : p ∈ t.rows) (hq : q ∈ t.rows)
    (h : p.idempotencyKey = q.idempotencyKey) : p = q :=
  Rows.eq_of_key_eq t.constraints.idempotencyKey hp hq h

theorem eq_of_checkoutRequestId_eq {c : String} (hp : p ∈ t.rows) (hq : q ∈ t.rows)
    (hpc : p.checkoutRequestId = some c) (hqc : q.checkoutRequestId = some c) : p = q :=
  Rows.eq_of_column_eq_some t.constraints.checkoutRequestId hp hq hpc hqc

theorem idempotencyKey_ne_of_insert (h : t.insert p = some t') (hq : q ∈ t.rows) :
    q.idempotencyKey ≠ p.idempotencyKey := by
  have hnd := t'.constraints.idempotencyKey
  rw [insert_eq_some h, List.map_append, List.nodup_append] at hnd
  exact hnd.2.2 _ (List.mem_map_of_mem hq) _ (by simp)

theorem id_ne_of_insert (h : t.insert p = some t') (hq : q ∈ t.rows) : q.id ≠ p.id := by
  have hnd := t'.constraints.id
  rw [insert_eq_some h, List.map_append, List.nodup_append] at hnd
  exact hnd.2.2 _ (List.mem_map_of_mem hq) _ (by simp)

end PaymentsTable

end DarajaWrapper
