import DarajaWrapper.Daraja.Client
import DarajaWrapper.Schemas.Stk

/-!
# STK push initiation

The arguments and the result of `STKPushInitiator.initiate`, and what Daraja
itself did with a POST. Only Daraja knows the latter: a reply that arrived pins
it down, a lost reply leaves it open.
-/

namespace DarajaWrapper

open Python

structure InitiateArgs where
  phone : String
  amount : ℚ
  accountReference : String
  transactionDesc : String
  transactionType : String
  deriving DecidableEq

def STKPushInitiateRequest.initiateArgs (r : STKPushInitiateRequest) : InitiateArgs where
  phone := r.phoneNumber
  amount := r.amount
  accountReference := r.accountReference
  transactionDesc := r.transactionDesc
  transactionType := r.transactionType

structure STKInitiationResult where
  checkoutRequestId : String
  merchantRequestId : String
  responseCode : String
  responseDescription : String
  customerMessage : String
  deriving DecidableEq

def initiateResult (raw : Json) : Except DarajaError STKInitiationResult :=
  match DarajaSTKResponse.modelValidate raw with
  | none => .error {}
  | some v =>
    if v.responseCode ≠ "0" then
      .error { darajaCode := .str v.responseCode, darajaDescription := .str v.responseDescription }
    else
      .ok { checkoutRequestId := v.checkoutRequestId
            merchantRequestId := v.merchantRequestId
            responseCode := v.responseCode
            responseDescription := v.responseDescription
            customerMessage := v.customerMessage }

/-- The identifiers that Daraja issues for an accepted push. -/
structure DarajaIds where
  checkoutRequestId : String
  merchantRequestId : String
  deriving DecidableEq

/-- A body with ResponseCode `"0"` reports an acceptance and the identifiers in it are those
issued; a body with another code reports a rejection; any other body says neither. -/
def bodyAgrees (raw : Json) (accepted : Option DarajaIds) : Bool :=
  match raw with
  | .obj kvs =>
    match kvs.lookup "ResponseCode" with
    | some (.str code) =>
      if code = "0" then
        accepted.any fun ids =>
          (DarajaSTKResponse.strField kvs "CheckoutRequestID").all (· == ids.checkoutRequestId) &&
            (DarajaSTKResponse.strField kvs "MerchantRequestID").all (· == ids.merchantRequestId)
      else accepted.isNone
    | _ => true
  | _ => true

/-- What Daraja may have done, given what the client saw. Nothing was accepted if nothing was
sent or the reply is a 4xx; a timeout, a transport error or a 5xx leaves both possible. -/
def AttemptReply.agrees (reply : AttemptReply) (accepted : Option DarajaIds) : Bool :=
  match reply with
  | .authError _ => accepted.isNone
  | .tokenError => accepted.isNone
  | .timeout => true
  | .transportError => true
  | .response status _ json =>
    if 500 ≤ status then true
    else if 400 ≤ status then accepted.isNone
    else
      match json with
      | some body => bodyAgrees body accepted
      | none => true

/-- A returned body came with a POST and says what Daraja did. -/
theorem sent_of_attempt_returned {settings : Settings} {now : ℚ} {n : ℕ} {c : DarajaClient}
    {reply : AttemptReply} {body : Json} {accepted : Option DarajaIds}
    (h : (attempt settings now n c reply).2 = .returned body)
    (hagrees : reply.agrees accepted = true) :
    reply.sent = true ∧ bodyAgrees body accepted = true := by
  obtain ⟨status, text, rfl, hlt⟩ := attempt_returned h
  refine ⟨rfl, ?_⟩
  have h5 : ¬ 500 ≤ status := by omega
  have h4 : ¬ 400 ≤ status := by omega
  simpa [AttemptReply.agrees, h5, h4] using hagrees

theorem initiateResult_ok {raw : Json} {result : STKInitiationResult}
    (h : initiateResult raw = .ok result) :
    result.responseCode = "0" ∧ ∃ v, DarajaSTKResponse.modelValidate raw = some v ∧
      v.responseCode = "0" ∧ v.checkoutRequestId = result.checkoutRequestId ∧
      v.merchantRequestId = result.merchantRequestId := by
  unfold initiateResult at h
  cases hv : DarajaSTKResponse.modelValidate raw with
  | none => simp [hv] at h
  | some v =>
    simp only [hv, ne_eq, ite_not] at h
    split_ifs at h with h0
    cases h
    exact ⟨h0, v, rfl, h0, rfl, rfl⟩

/-- The identifiers of a successful initiation are those that Daraja issued. -/
theorem accepted_of_initiateResult {raw : Json} {result : STKInitiationResult}
    {accepted : Option DarajaIds} (h : initiateResult raw = .ok result)
    (hagrees : bodyAgrees raw accepted = true) :
    accepted = some ⟨result.checkoutRequestId, result.merchantRequestId⟩ := by
  obtain ⟨-, v, hv, hcode, hc, hm⟩ := initiateResult_ok h
  obtain ⟨kvs, rfl, hkc, hkm, hkcode⟩ := DarajaSTKResponse.modelValidate_eq_some hv
  have hlookup : kvs.lookup "ResponseCode" = some (.str "0") := by
    unfold DarajaSTKResponse.strField at hkcode
    split at hkcode
    · rename_i s hs
      rw [hs, Option.some.inj hkcode, hcode]
    · cases hkcode
  simp only [bodyAgrees, hlookup, if_true, hkc, hkm, Option.all_some] at hagrees
  cases accepted with
  | none => simp at hagrees
  | some ids =>
    simp only [Option.any_some, Bool.and_eq_true, beq_iff_eq] at hagrees
    rw [← hc, ← hm, hagrees.1, hagrees.2]

end DarajaWrapper
