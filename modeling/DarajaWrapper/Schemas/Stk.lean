import DarajaWrapper.Models.Payment

/-!
# Requests, responses and callbacks

A `STKPushInitiateRequest` carries what its validators established, so only an
accepted request can be passed to the service. Callback metadata keeps the raw
values: Daraja decides their types.
-/

namespace DarajaWrapper

open Python

/-- `re.fullmatch(r"2547\d{8}|2541\d{8}", s)`. -/
def isMsisdn (s : String) : Bool :=
  match s.toList with
  | '2' :: '5' :: '4' :: p :: rest =>
    (p == '7' || p == '1') && rest.length == 8 && rest.all isDecimal
  | _ => false

theorem length_of_isMsisdn {s : String} (h : isMsisdn s = true) : s.length = 12 := by
  unfold isMsisdn at h
  split at h
  · rename_i p rest heq
    simp only [Bool.and_eq_true, beq_iff_eq] at h
    rw [← String.length_toList, heq]
    simp [h.1.2]
  · cases h

/-- The characters that `account_reference_safe_for_daraja` lets through. -/
def isSafeReferenceChar (c : Char) : Bool :=
  ('a' ≤ c && c ≤ 'z') || ('A' ≤ c && c ≤ 'Z') || ('0' ≤ c && c ≤ '9') ||
    c == '-' || c == '_' || c == '/'

/-- A validated initiation body. -/
structure STKPushInitiateRequest where
  phoneNumber : String
  amount : ℚ
  accountReference : String
  transactionDesc : String
  idempotencyKey : String
  transactionType : String := "CustomerPayBillOnline"
  phone_normalised : isMsisdn phoneNumber = true
  amount_pos : 0 < amount
  amount_le : amount ≤ 300000
  amount_whole : amount.den = 1
  reference_length : 1 ≤ accountReference.length ∧ accountReference.length ≤ 12
  reference_safe : accountReference.toList.all isSafeReferenceChar = true
  desc_length : 1 ≤ transactionDesc.length ∧ transactionDesc.length ≤ 13
  key_length : 8 ≤ idempotencyKey.length ∧ idempotencyKey.length ≤ 64
  deriving DecidableEq

/-- Two requests that ask for the same payment, whatever their keys. -/
def STKPushInitiateRequest.SameParameters (r₁ r₂ : STKPushInitiateRequest) : Prop :=
  r₁.phoneNumber = r₂.phoneNumber ∧ r₁.amount = r₂.amount ∧
    r₁.accountReference = r₂.accountReference ∧ r₁.transactionDesc = r₂.transactionDesc ∧
    r₁.transactionType = r₂.transactionType

structure STKPushInitiateResponse where
  paymentId : UUID
  checkoutRequestId : String
  merchantRequestId : String
  responseCode : String
  customerMessage : String
  status : String
  deriving DecidableEq

/-- The synchronous answer of Daraja to an STK push. -/
structure DarajaSTKResponse where
  checkoutRequestId : String
  merchantRequestId : String
  responseCode : String
  responseDescription : String
  customerMessage : String
  deriving DecidableEq

namespace DarajaSTKResponse

def aliases : List String :=
  ["CheckoutRequestID", "MerchantRequestID", "ResponseCode", "ResponseDescription",
   "CustomerMessage"]

def strField (kvs : List (String × Json)) (name : String) : Option String :=
  match kvs.lookup name with
  | some (.str s) => some s
  | _ => none

/-- `model_validate` with `extra="forbid"`; `none` where it raises `ValidationError`. -/
def modelValidate : Json → Option DarajaSTKResponse
  | .obj kvs =>
    if kvs.all fun kv => aliases.contains kv.1 then do
      let checkoutRequestId ← strField kvs "CheckoutRequestID"
      let merchantRequestId ← strField kvs "MerchantRequestID"
      let responseCode ← strField kvs "ResponseCode"
      let responseDescription ← strField kvs "ResponseDescription"
      let customerMessage ← strField kvs "CustomerMessage"
      return { checkoutRequestId, merchantRequestId, responseCode, responseDescription,
               customerMessage }
    else none
  | _ => none

theorem modelValidate_eq_some {raw : Json} {v : DarajaSTKResponse}
    (h : modelValidate raw = some v) :
    ∃ kvs, raw = .obj kvs ∧ strField kvs "CheckoutRequestID" = some v.checkoutRequestId ∧
      strField kvs "MerchantRequestID" = some v.merchantRequestId ∧
      strField kvs "ResponseCode" = some v.responseCode := by
  cases raw with
  | obj kvs =>
    simp only [modelValidate] at h
    split_ifs at h
    simp only [Option.bind_eq_bind, Option.bind_eq_some_iff, Option.pure_def,
      Option.some.injEq] at h
    obtain ⟨c, hc, m, hm, code, hcode, d, hd, msg, hmsg, rfl⟩ := h
    exact ⟨kvs, rfl, hc, hm, hcode⟩
  | _ => simp [modelValidate] at h

end DarajaSTKResponse

abbrev CallbackMetadata := List (String × Json)

/-- `to_dict().get(name)`: of several items with one name the last one counts. -/
def CallbackMetadata.get (items : CallbackMetadata) (name : String) : Json :=
  (items.reverse.lookup name).getD .null

structure STKCallbackBody where
  merchantRequestId : String
  checkoutRequestId : String
  resultCode : ℤ
  resultDesc : String
  callbackMetadata : Option CallbackMetadata

namespace STKCallbackBody

def isSuccess (cb : STKCallbackBody) : Bool := cb.resultCode == 0

/-- `extract_payment_details`; `none` where it raises `ValueError`. -/
def extractPaymentDetails (cb : STKCallbackBody) : Option CallbackMetadata :=
  if !cb.isSuccess then none else some (cb.callbackMetadata.getD [])

/-- The details that `process_callback` works with. -/
def details (cb : STKCallbackBody) : CallbackMetadata := cb.extractPaymentDetails.getD []

end STKCallbackBody

end DarajaWrapper
