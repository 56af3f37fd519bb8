import DarajaWrapper.Daraja.Payload
import DarajaWrapper.Schemas.Initiate
import DarajaWrapper.System.Ownership

/-!
# What is recorded and what is sent

A call writes the row and builds the payload from the same request, on two paths. The
bounds that the validators enforce are those of the columns and of the payload's slices,
so both carry the values of the request unchanged. What the phone number is made of is
decided by the validator alone: nothing after it looks at the digits again.
-/

namespace DarajaWrapper

open Python

/-- The payload says what the row says. -/
structure Agrees (payload : List (String × Json)) (p : Payment) : Prop where
  amount : ∃ n : ℤ, payload.lookup "Amount" = some (.int n) ∧ 1 ≤ n ∧ n ≤ 300000 ∧
    (n : ℚ) = p.amount
  partyA : payload.lookup "PartyA" = some (.str p.phone)
  phoneNumber : payload.lookup "PhoneNumber" = some (.str p.phone)
  accountReference : payload.lookup "AccountReference" = some (.str p.accountReference)
  transactionDesc : payload.lookup "TransactionDesc" = some (.str p.transactionDesc)

/-- Every value that the insert sets is no longer than its column, and the amount is stored as it
is. -/
structure FitsColumns (p : Payment) : Prop where
  paymentType : p.paymentType.value.length ≤ 20
  status : p.status.value.length ≤ 20
  phone : p.phone.length ≤ 15
  amount : numeric19_4 (.finite p.amount) = some (.value p.amount)
  accountReference : p.accountReference.length ≤ 12
  transactionDesc : p.transactionDesc.length ≤ 13
  idempotencyKey : p.idempotencyKey.length ≤ 64

variable {r : STKPushInitiateRequest} {p : Payment} {pid : UUID} {createdAt : ℚ}

theorem numeric19_4_of_whole {q : ℚ} (hpos : 0 < q) (hle : q ≤ 300000) (hwhole : q.den = 1) :
    numeric19_4 (.finite q) = some (.value q) := by
  have hround : roundScale4 q = q := by
    have hfloor : ⌊q * 10000 + 1 / 2⌋ = q.num * 10000 := by
      rw [Int.floor_eq_iff]
      push_cast
      rw [Rat.coe_int_num_of_den_eq_one hwhole]
      constructor <;> linarith
    rw [roundScale4, if_pos hpos.le, hfloor]
    push_cast
    rw [Rat.coe_int_num_of_den_eq_one hwhole]
    field_simp
  have hsmall : |q| < 10 ^ 15 := by
    rw [abs_of_pos hpos]
    linarith
  rw [numeric19_4, hround, if_pos hsmall]

theorem fitsColumns_of_sameIdentity (h : (newPayment r pid createdAt).SameIdentity p) :
    FitsColumns p where
  paymentType := by cases p.paymentType <;> decide
  status := by cases p.status <;> decide
  phone := by
    rw [h.phone]
    exact (length_of_isMsisdn r.phone_normalised).le.trans (by decide)
  amount := by
    rw [h.amount]
    exact numeric19_4_of_whole r.amount_pos r.amount_le r.amount_whole
  accountReference := by
    rw [h.accountReference]
    exact r.reference_length.2
  transactionDesc := by
    rw [h.transactionDesc]
    exact r.desc_length.2
  idempotencyKey := by
    rw [h.idempotencyKey]
    exact r.key_length.2

/-- The conversion and the slices of the payload change nothing. -/
theorem agrees_of_sameIdentity (config : PayloadSettings) (clock : Datetime)
    (h : (newPayment r pid createdAt).SameIdentity p) :
    Agrees (stkPayload config clock r.initiateArgs) p where
  amount := by
    have hvalue : (intOfDecimal r.amount : ℚ) = r.amount := intOfDecimal_eq r.amount_whole
    refine ⟨intOfDecimal r.amount, rfl, ?_, ?_, hvalue.trans h.amount.symm⟩
    · have hpos := r.amount_pos
      rw [← hvalue] at hpos
      exact_mod_cast hpos
    · have hle := r.amount_le
      rw [← hvalue] at hle
      exact_mod_cast hle
  partyA := by
    rw [h.phone]
    rfl
  phoneNumber := by
    rw [h.phone]
    rfl
  accountReference := by
    rw [h.accountReference]
    change some (Json.str (slice 12 r.accountReference)) = _
    rw [slice_eq_self r.reference_length.2]
    rfl
  transactionDesc := by
    rw [h.transactionDesc]
    change some (Json.str (slice 13 r.transactionDesc)) = _
    rw [slice_eq_self r.desc_length.2]
    rfl

/-- The rows that the log says were committed. -/
def Event.row? : Event → Option (ℕ × STKPushInitiateRequest × UUID)
  | .created i r pid => some (i, r, pid)
  | _ => none

namespace World

variable {settings : Settings} {w : World} {body : RawJson} {i : ℕ} {key : String}
  {args : InitiateArgs}

theorem Ownership.args_eq (o : Ownership w) (hc : .created i r pid ∈ w.log)
    (hd : .dispatched i key args ∈ w.log) : args = r.initiateArgs := by
  obtain ⟨r', pid', hpassed, -, -, rfl⟩ := o.dispatched hd
  rw [(o.created hc).request_eq hpassed]

/-- What is charged is what was recorded, and what was recorded fits. -/
theorem charged_is_recorded :
    STKPushInitiateRequest.modelValidate body = .ok r →
      (∀ pid createdAt, FitsColumns (newPayment r pid createdAt)) ∧
      ∀ settings w i pid, Reachable settings w → .created i r pid ∈ w.log →
        ∃ p ∈ w.payments.rows, p.id = pid ∧ FitsColumns p ∧
          ∀ key args, .dispatched i key args ∈ w.log →
            ∀ config clock, Agrees (stkPayload config clock args) p := by
  intro _
  refine ⟨fun pid createdAt => fitsColumns_of_sameIdentity (.refl (newPayment r pid createdAt)), ?_⟩
  intro settings w i pid hw hc
  have o := hw.ownership
  obtain ⟨createdAt, p, hp, hsame⟩ := o.row hc
  refine ⟨p, hp, hsame.id, fitsColumns_of_sameIdentity hsame, ?_⟩
  intro key args hd config clock
  rw [o.args_eq hc hd]
  exact agrees_of_sameIdentity config clock hsame

def bodyWithPhone (phone : String) : RawJson :=
  .obj [("phone_number", .str phone), ("amount", .str "5e2"),
    ("account_reference", .str " INV-001"), ("transaction_desc", .str "Order payment"),
    ("idempotency_key", .str "key-0001")]

theorem sampleBody_accepted :
    STKPushInitiateRequest.modelValidate (bodyWithPhone "+254 712-345678") =
      .ok sampleRequest := by
  decide +kernel

theorem charged_is_recorded_sample :
    (∀ pid createdAt, FitsColumns (newPayment sampleRequest pid createdAt)) ∧
    ∀ settings w i pid, Reachable settings w → .created i sampleRequest pid ∈ w.log →
      ∃ p ∈ w.payments.rows, p.id = pid ∧ FitsColumns p ∧
        ∀ key args, .dispatched i key args ∈ w.log →
          ∀ config clock, Agrees (stkPayload config clock args) p :=
  charged_is_recorded sampleBody_accepted

/-- The phone in the row and the one in both fields of every payload of the call are ASCII. -/
def AsciiPhones (w : World) (i : ℕ) (p : Payment) : Prop :=
  AsciiMsisdn p.phone ∧
    ∀ key args, .dispatched i key args ∈ w.log → ∀ config clock, ∃ phone,
      (stkPayload config clock args).lookup "PartyA" = some (.str phone) ∧
        (stkPayload config clock args).lookup "PhoneNumber" = some (.str phone) ∧
          AsciiMsisdn phone

/-- The decimal digits in the phone number of a body are those of ASCII. -/
def SpelledInAscii (body : RawJson) : Prop :=
  ∀ kvs (v : String), body = .obj kvs → kvs.lookup (.text "phone_number") = some (.str v) →
    AsciiDecimals v.toList

theorem asciiMsisdn_iff_spelledInAscii
    (h : STKPushInitiateRequest.modelValidate body = .ok r) :
    AsciiMsisdn r.phoneNumber ↔ SpelledInAscii body := by
  obtain ⟨kvs, v, rfl, hv, hn⟩ := STKPushInitiateRequest.phone_of_modelValidate h
  rw [asciiMsisdn_iff hn, asciiDecimals_trim]
  constructor
  · intro hascii kvs' v' hbody hv'
    cases hbody
    cases hv.symm.trans hv'
    exact hascii
  · intro hspelled
    exact hspelled kvs v rfl hv

/-- The phones are ASCII exactly when the body spelled its own in ASCII digits. -/
theorem asciiPhones_iff (hbody : STKPushInitiateRequest.modelValidate body = .ok r)
    (hw : Reachable settings w) (hc : .created i r pid ∈ w.log) (hp : p ∈ w.payments.rows)
    (hid : p.id = pid) : AsciiPhones w i p ↔ SpelledInAscii body := by
  have o := hw.ownership
  obtain ⟨createdAt, hsame⟩ := o.sameIdentity (hid ▸ hc) hp
  have hphone : p.phone = r.phoneNumber := hsame.phone
  rw [← asciiMsisdn_iff_spelledInAscii hbody, ← hphone]
  constructor
  · intro h
    exact h.1
  · intro h
    refine ⟨h, ?_⟩
    intro key args hd config clock
    have hagrees := agrees_of_sameIdentity config clock hsame
    rw [← o.args_eq hc hd] at hagrees
    exact ⟨p.phone, hagrees.partyA, hagrees.phoneNumber, h⟩

def arabicRequest : STKPushInitiateRequest :=
  { sampleRequest with
    phoneNumber := "2547١٢٣٤٥٦٧٨"
    phone_normalised := by decide +kernel }

theorem arabicBody_accepted :
    STKPushInitiateRequest.modelValidate (bodyWithPhone "07١٢٣٤٥٦٧٨") =
      .ok arabicRequest := by
  decide +kernel

def arabicUntilPost : List Action :=
  [.startInitiate 0 0 arabicRequest, .redis 0 .up, .redis 0 .up, .query 0 .up, .insert 0 7 .up,
   .callDaraja 0]

theorem arabicUntilPost_enabled :
    (Machine.run (step {}) init arabicUntilPost).isSome = true := by decide +kernel

theorem created_of_mem_filterMap {log : List Event}
    (h : (i, r, pid) ∈ log.filterMap Event.row?) : .created i r pid ∈ log := by
  obtain ⟨e, he, hrow⟩ := List.mem_filterMap.mp h
  cases e with
  | created => cases hrow; exact he
  | _ => cases hrow

theorem arabic_created :
    .created 0 arabicRequest 7 ∈ (after {} _ arabicUntilPost_enabled).log :=
  created_of_mem_filterMap (by decide +kernel)

theorem asciiPhones_iff_sample :
    AsciiPhones (after {} _ arabicUntilPost_enabled) 0 (newPayment arabicRequest 7 0) ↔
      SpelledInAscii (bodyWithPhone "07١٢٣٤٥٦٧٨") :=
  asciiPhones_iff arabicBody_accepted (reachable_after arabicUntilPost_enabled) arabic_created
    (by decide +kernel) rfl

theorem arabic_phone_recorded :
    ¬ ∀ settings body r w i p, STKPushInitiateRequest.modelValidate body = .ok r →
      Reachable settings w → .created i r p.id ∈ w.log → p ∈ w.payments.rows →
        AsciiPhones w i p := by
  intro h
  have hascii := (h {} _ _ _ 0 (newPayment arabicRequest 7 0) arabicBody_accepted
    (reachable_after arabicUntilPost_enabled) arabic_created (by decide +kernel)).1
  have hdigit : '١' ∈ (newPayment arabicRequest 7 0).phone.toList := by decide +kernel
  exact absurd (hascii.2.1 '١' hdigit) (by decide)

end World
end DarajaWrapper
