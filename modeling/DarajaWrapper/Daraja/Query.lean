import DarajaWrapper.Daraja.Payload

/-!
# Transaction status, account balance and reversal

Three requests that Daraja acknowledges at once and answers later. They share `_send`, which
compares the ResponseCode with the letter `o` and not with the digit `0`, and takes a missing
code for an acknowledgement.
-/

namespace DarajaWrapper

open Python

structure QueryAcknowledgement where
  conversationId : Json
  originatorConversationId : Json
  responseCode : Json
  responseDescription : Json

/-- What a query raises. The operation and the description make up the message of a rejection. -/
inductive QueryError where
  | rejected (operation : String) (e : DarajaError)
  | call (e : CallError)

/-- The settings that go into the payloads. -/
structure QuerySettings where
  darajaShortcode : String
  darajaCallbackBaseUrl : String
  darajaB2cInitiatorName : String
  darajaB2cSecurityCredential : String

namespace DarajaQueryClient

def transactionStatusPath : String := "/mpesa/transactionstatus/v1/query"

def accountBalancePath : String := "/mpesa/accountbalance/v1/query"

def reversalPath : String := "/mpesa/reversal/v1/request"

/-- `code in ("o", None, "")`. -/
def passesCheck : Json → Bool
  | .str code => code == "o" || code == ""
  | .null => true
  | _ => false

/-- What `_send` makes of the response. A body that is no object has no `get`. -/
def acknowledge (operation : String) : Json → Except QueryError QueryAcknowledgement
  | .obj response =>
    let code := (response.lookup "ResponseCode").getD .null
    if passesCheck code then
      .ok { conversationId := (response.lookup "ConversationID").getD (.str "")
            originatorConversationId :=
              (response.lookup "OriginatorConversationID").getD (.str "")
            responseCode := (response.lookup "ResponseCode").getD (.str "0")
            responseDescription := (response.lookup "ResponseDescription").getD (.str "") }
    else
      .error (.rejected operation
        { darajaCode := code
          darajaDescription := (response.lookup "ResponseDescription").getD (.str "unknown") })
  | _ => .error (.call .other)

section

-- `DarajaClient.post`: a response or an error for a path and a payload
variable (post : String → List (String × Json) → Except CallError Json) (settings : QuerySettings)

/-- `_send`. -/
def send (payload : List (String × Json)) (path operation : String) :
    Except QueryError QueryAcknowledgement :=
  match post path payload with
  | .ok response => acknowledge operation response
  | .error e => .error (.call e)

def queryTransactionStatus (transactionId identifierType remarks occasion : String) :
    Except QueryError QueryAcknowledgement :=
  let base := settings.darajaCallbackBaseUrl
  let payload :=
    [("Initiator", .str settings.darajaB2cInitiatorName),
     ("SecurityCredential", .str settings.darajaB2cSecurityCredential),
     ("TransactionID", .str transactionId),
     ("PartyA", .str settings.darajaShortcode),
     ("IdentifierType", .str identifierType),
     ("ResultURL", .str (base ++ "/api/v1/callbacks/query/transaction-status/result")),
     ("QueueTimeOutURL", .str (base ++ "/api/v1/callbacks/query/transaction-status/timeout")),
     ("Remarks", .str (slice 100 remarks)),
     ("Occasion", .str (slice 100 occasion))]
  send post payload transactionStatusPath "transaction_status"

def queryAccountBalance (identifierType remarks : String) :
    Except QueryError QueryAcknowledgement :=
  let base := settings.darajaCallbackBaseUrl
  let payload :=
    [("Initiator", .str settings.darajaB2cInitiatorName),
     ("SecurityCredential", .str settings.darajaB2cSecurityCredential),
     ("CommandID", .str "AccountBalance"),
     ("PartyA", .str settings.darajaShortcode),
     ("IdentifierType", .str identifierType),
     ("ResultURL", .str (base ++ "/api/v1/callbacks/query/account-balance/result")),
     ("QueueTimeOutURL", .str (base ++ "/api/v1/callbacks/query/account-balance/timeout")),
     ("Remarks", .str (slice 100 remarks))]
  send post payload accountBalancePath "account_balance"

def reverseTransaction (transactionId : String) (amount : ℤ)
    (receiverShortcode remarks occasion : String) : Except QueryError QueryAcknowledgement :=
  let base := settings.darajaCallbackBaseUrl
  let payload :=
    [("Initiator", .str settings.darajaB2cInitiatorName),
     ("SecurityCredential", .str settings.darajaB2cSecurityCredential),
     ("CommandID", .str "TransactionReversal"),
     ("TransactionID", .str transactionId),
     ("Amount", .int amount),
     ("ReceiverParty", .str receiverShortcode),
     ("RecieverIdentifierType", .str "4"),
     ("ResultURL", .str (base ++ "/api/v1/callbacks/query/reversal/result")),
     ("QueueTimeOutURL", .str (base ++ "/api/v1/callbacks/query/reversal/timeout")),
     ("Remarks", .str (slice 100 remarks)),
     ("Occasion", .str (slice 100 occasion))]
  send post payload reversalPath "reversal"

end

/-- Daraja has accepted the request. -/
def Accepted (response : List (String × Json)) : Prop :=
  response.lookup "ResponseCode" = some (.str "0")

theorem initiateResult_accepts_iff {response : List (String × Json)} {v : DarajaSTKResponse}
    (h : DarajaSTKResponse.modelValidate (.obj response) = some v) :
    (∃ result, initiateResult (.obj response) = .ok result) ↔ Accepted response := by
  obtain ⟨kvs, heq, -, -, hcode⟩ := DarajaSTKResponse.modelValidate_eq_some h
  obtain rfl := Json.obj.inj heq
  have hlookup : response.lookup "ResponseCode" = some (.str v.responseCode) := by
    unfold DarajaSTKResponse.strField at hcode
    split at hcode
    · rename_i s hs
      rw [hs, Option.some.inj hcode]
    · cases hcode
  rw [Accepted, hlookup, initiateResult, h]
  by_cases h0 : v.responseCode = "0"
  · simp [h0]
  · simp [h0]

/-- An accepted request is acknowledged and any other is a `DarajaError`. -/
def AgreesWithInitiate (result : Except QueryError QueryAcknowledgement)
    (response : List (String × Json)) : Prop :=
  (Accepted response → ∃ ack, result = .ok ack) ∧
    (¬ Accepted response → ∃ operation e, result = .error (.rejected operation e))

/-- The code says that Daraja did not accept: there is one, and it is none of the digit, the letter,
the empty text and null. -/
def PlainRejection (response : List (String × Json)) : Prop :=
  ∃ code, response.lookup "ResponseCode" = some code ∧
    code ≠ .str "0" ∧ code ≠ .str "o" ∧ code ≠ .str "" ∧ code ≠ .null

variable {response : List (String × Json)} {operation : String}

theorem passesCheck_eq_false_iff {code : Json} :
    passesCheck code = false ↔ code ≠ .str "o" ∧ code ≠ .str "" ∧ code ≠ .null := by
  cases code with
  | str s => simp [passesCheck]
  | _ => simp [passesCheck]

theorem acknowledge_ok_iff :
    (∃ ack, acknowledge operation (.obj response) = .ok ack) ↔
      passesCheck ((response.lookup "ResponseCode").getD .null) = true := by
  unfold acknowledge
  dsimp only
  split_ifs with h
  · exact iff_of_true ⟨_, rfl⟩ h
  · exact iff_of_false (by rintro ⟨ack, hack⟩; cases hack) h

theorem acknowledge_rejected_iff :
    (∃ op e, acknowledge operation (.obj response) = .error (.rejected op e)) ↔
      passesCheck ((response.lookup "ResponseCode").getD .null) = false := by
  unfold acknowledge
  dsimp only
  split_ifs with h
  · exact iff_of_false (by rintro ⟨op, e, hack⟩; cases hack) (by simp [h])
  · exact iff_of_true ⟨_, _, rfl⟩ (Bool.eq_false_iff.mpr h)

/-- The digit is taken for a rejection; an empty code, a missing one and the letter are taken for an
acceptance. -/
theorem acknowledge_agrees_iff :
    AgreesWithInitiate (acknowledge operation (.obj response)) response ↔
      PlainRejection response := by
  unfold AgreesWithInitiate PlainRejection
  rw [acknowledge_ok_iff, acknowledge_rejected_iff]
  cases hcode : response.lookup "ResponseCode" with
  | none => simp [Accepted, hcode, passesCheck]
  | some code =>
    by_cases h0 : code = .str "0"
    · subst h0
      simp [Accepted, hcode, passesCheck]
    · simp only [Accepted, hcode, Option.some.injEq, h0, false_implies, not_false_eq_true,
        true_implies, true_and, Option.getD_some, passesCheck_eq_false_iff, exists_eq_left',
        ne_eq]

/-- The three queries, whatever they ask for, agree with `initiate` on plain rejections only. -/
theorem queries_agree_iff (settings : QuerySettings) (response : List (String × Json))
    (transactionId identifierType receiverShortcode remarks occasion : String) (amount : ℤ) :
    (AgreesWithInitiate (queryTransactionStatus (fun _ _ => .ok (.obj response)) settings
        transactionId identifierType remarks occasion) response ↔ PlainRejection response) ∧
      (AgreesWithInitiate (queryAccountBalance (fun _ _ => .ok (.obj response)) settings
        identifierType remarks) response ↔ PlainRejection response) ∧
      (AgreesWithInitiate (reverseTransaction (fun _ _ => .ok (.obj response)) settings
        transactionId amount receiverShortcode remarks occasion) response ↔
          PlainRejection response) :=
  ⟨acknowledge_agrees_iff, acknowledge_agrees_iff, acknowledge_agrees_iff⟩

end DarajaQueryClient

def sandboxQueries : QuerySettings where
  darajaShortcode := "600999"
  darajaCallbackBaseUrl := "https://pay.example.com"
  darajaB2cInitiatorName := "testapi"
  darajaB2cSecurityCredential := "credential"

def acceptedReversal : List (String × Json) :=
  [("OriginatorConversationID", .str "71840-27539181-07"),
   ("ConversationID", .str "AG_20210709_12346c8e6f8858d7b70a"),
   ("ResponseCode", .str "0"),
   ("ResponseDescription", .str "Accept the service request successfully.")]

/-- An accepted reversal is reported as rejected, and one without a code as accepted. -/
theorem accepted_reversal_rejected :
    (¬ ∀ response : List (String × Json), DarajaQueryClient.AgreesWithInitiate
      (DarajaQueryClient.reverseTransaction (fun _ _ => .ok (.obj response)) sandboxQueries
        "OEI2AK4Q16" 100 "600997" "duplicate payout" "") response) ∧
    (∃ e, DarajaQueryClient.reverseTransaction (fun _ _ => .ok (.obj acceptedReversal))
        sandboxQueries "OEI2AK4Q16" 100 "600997" "duplicate payout" "" =
      .error (.rejected "reversal" e)) ∧
    ∃ ack, DarajaQueryClient.reverseTransaction (fun _ _ => .ok (.obj [])) sandboxQueries
        "OEI2AK4Q16" 100 "600997" "duplicate payout" "" = .ok ack := by
  refine ⟨?_, ⟨_, rfl⟩, ⟨_, rfl⟩⟩
  intro h
  obtain ⟨code, hcode, hdigit, -⟩ :=
    DarajaQueryClient.acknowledge_agrees_iff.mp (h acceptedReversal)
  exact hdigit (Option.some.inj hcode).symm

end DarajaWrapper
