import DarajaWrapper.Models.NumericText
import DarajaWrapper.Schemas.Initiate
import Mathlib.Data.List.DropRight

/-!
# What is written as JSON and read again

The fields of a request that was accepted are accepted again as the same request, so it does
not matter how often it is validated on its way to a worker. A callback is read as the one
that Daraja has written. How the text of an amount is spelled is a parameter, and so is what
pydantic takes for an integer.
-/

namespace DarajaWrapper

open Python

/-- The fields of a request as a body, as `initiate_stk_push_async` takes them. -/
def STKPushInitiateRequest.requestData (amountText : ℚ → String) (r : STKPushInitiateRequest) :
    RawJson :=
  .obj [("phone_number", .str r.phoneNumber), ("amount", .str (amountText r.amount)),
    ("account_reference", .str r.accountReference), ("transaction_desc", .str r.transactionDesc),
    ("idempotency_key", .str r.idempotencyKey), ("transaction_type", .str r.transactionType)]

theorem dropWhile_rdropWhile {α : Type*} (p : α → Bool) (xs : List α) :
    ((xs.dropWhile p).rdropWhile p).dropWhile p = (xs.dropWhile p).rdropWhile p := by
  rw [List.dropWhile_eq_self_iff]
  intro hlength
  obtain ⟨tail, htail⟩ := List.rdropWhile_prefix p (xs.dropWhile p)
  have hxs : 0 < (xs.dropWhile p).length := by
    rw [← htail, List.length_append]
    omega
  have hhead := List.dropWhile_eq_self_iff.mp (List.dropWhile_idempotent p xs) hxs
  have hsame : (xs.dropWhile p)[0] = ((xs.dropWhile p).rdropWhile p)[0] := by
    rw [List.getElem_of_eq htail.symm, List.getElem_append_left hlength]
  rwa [hsame] at hhead

theorem trim_trim (s : String) : trim (trim s) = trim s := by
  have htrim : ∀ s, trim s =
      String.ofList ((s.toList.dropWhile isWhiteSpace).rdropWhile isWhiteSpace) := fun _ => rfl
  rw [htrim (trim s), htrim s, String.toList_ofList, dropWhile_rdropWhile,
    List.rdropWhile_idempotent]

section

variable {value : Option RawJson} {s n : String}

theorem strField_str (s : String) : strField (some (.str s)) = .ok (trim s) := rfl

theorem trim_of_strField (h : strField value = .ok s) : trim s = s := by
  obtain ⟨v, -, rfl⟩ := eq_str_of_strField h
  exact trim_trim v

theorem boundedStrField_again {lo hi : ℕ} {s : { s : String // lo ≤ s.length ∧ s.length ≤ hi }}
    (h : boundedStrField lo hi value = .ok s) :
    boundedStrField lo hi (some (.str s.1)) = .ok s := by
  have htrim : trim s.1 = s.1 := by
    unfold boundedStrField at h
    split at h
    · cases h
    · rename_i s' hs'
      split_ifs at h
      cases h
      exact trim_of_strField hs'
  unfold boundedStrField
  rw [strField_str, htrim]
  simp only [s.2.1, s.2.2, dif_pos]

theorem transactionTypeField_again (h : transactionTypeField value = .ok s) :
    transactionTypeField (some (.str s)) = .ok s := by
  have htrim : trim s = s := by
    unfold transactionTypeField at h
    split at h
    · cases h
      rfl
    · exact trim_of_strField h
  exact congrArg Except.ok htrim

theorem normalisePhone_again {v : String} (h : normalisePhone v = .ok n) :
    normalisePhone (trim n) = .ok n := by
  obtain ⟨s, hs, -, rfl⟩ := normalisePhone_eq_ok_iff.mp h
  refine normalisePhone_eq_ok_iff.mpr ⟨s, hs, .inr (.inr ?_), rfl⟩
  rw [rawPhone_trim, rawPhone_international hs]

theorem phoneNumberField_eq_ok {v : String} (h : normalisePhone (trim v) = .ok n) :
    phoneNumberField (some (.str v)) = .ok ⟨n, isMsisdn_of_normalisePhone h⟩ := by
  unfold phoneNumberField
  rw [strField_str]
  dsimp only
  split
  · rename_i n' hn'
    cases hn'.symm.trans h
    rfl
  · rename_i message hmessage
    cases hmessage.symm.trans h

theorem amountField_eq_ok {text : String} {amount : { q : ℚ // 0 < q ∧ q ≤ 300000 ∧ q.den = 1 }}
    (h : decimalOfString text = some (.finite amount.1)) :
    amountField (some (.str text)) = .ok amount := by
  have hdecimal : decimalOfJson (.str text) = .ok (.finite amount.1) := by
    rw [decimalOfJson, h]
    rfl
  unfold amountField
  dsimp only
  rw [hdecimal]
  simp only [amount.2.1, amount.2.2.1, amount.2.2.2, dif_pos]

end

namespace STKPushInitiateRequest

/-- The fields of the body are those of the request. -/
structure FieldsOk (kvs : List (PyStr × RawJson)) (r : STKPushInitiateRequest) : Prop where
  phone : phoneNumberField (kvs.lookup (.text "phone_number")) =
    .ok ⟨r.phoneNumber, r.phone_normalised⟩
  amount : amountField (kvs.lookup (.text "amount")) =
    .ok ⟨r.amount, r.amount_pos, r.amount_le, r.amount_whole⟩
  reference : boundedStrField 1 12 (kvs.lookup (.text "account_reference")) =
    .ok ⟨r.accountReference, r.reference_length⟩
  desc : boundedStrField 1 13 (kvs.lookup (.text "transaction_desc")) =
    .ok ⟨r.transactionDesc, r.desc_length⟩
  key : boundedStrField 8 64 (kvs.lookup (.text "idempotency_key")) =
    .ok ⟨r.idempotencyKey, r.key_length⟩
  type : transactionTypeField (kvs.lookup (.text "transaction_type")) = .ok r.transactionType

theorem fieldsOk_of_modelValidate {body : RawJson} {r : STKPushInitiateRequest}
    (h : modelValidate body = .ok r) : ∃ kvs, body = .obj kvs ∧ FieldsOk kvs r := by
  unfold modelValidate at h
  split at h
  · rename_i kvs
    dsimp only at h
    split at h
    · rename_i phone amount reference desc key type hphone hamount hreference hdesc hkey htype
      split at h
      · cases h
      · cases h
        exact ⟨kvs, rfl, hphone, hamount, hreference, hdesc, hkey, htype⟩
    · cases h
  · cases h

theorem modelValidate_of_fieldsOk {kvs : List (PyStr × RawJson)} {r : STKPushInitiateRequest}
    (h : FieldsOk kvs r) : modelValidate (.obj kvs) = .ok r := by
  have hsafe : r.accountReference.toList.find? (!isSafeReferenceChar ·) = none := by
    simpa using r.reference_safe
  unfold modelValidate
  dsimp only
  rw [h.phone, h.amount, h.reference, h.desc, h.key, h.type]
  dsimp only
  split
  · rename_i c hc
    rw [hsafe] at hc
    cases hc
  · rfl

/-- What was accepted is accepted again, as the same request. -/
theorem modelValidate_requestData {amountText : ℚ → String} {body : RawJson}
    {r : STKPushInitiateRequest}
    (htext : ∀ q : ℚ, 0 < q → q ≤ 300000 → q.den = 1 →
      decimalOfString (amountText q) = some (.finite q))
    (h : modelValidate body = .ok r) : modelValidate (r.requestData amountText) = .ok r := by
  obtain ⟨kvs, rfl, hfields⟩ := fieldsOk_of_modelValidate h
  obtain ⟨v, -, hv⟩ := eq_str_of_phoneNumberField hfields.phone
  have hphone := phoneNumberField_eq_ok (normalisePhone_again hv)
  have hamount : amountField (some (.str (amountText r.amount))) =
      .ok ⟨r.amount, r.amount_pos, r.amount_le, r.amount_whole⟩ :=
    amountField_eq_ok (htext r.amount r.amount_pos r.amount_le r.amount_whole)
  have hreference := boundedStrField_again hfields.reference
  have hdesc := boundedStrField_again hfields.desc
  have hkey := boundedStrField_again hfields.key
  exact modelValidate_of_fieldsOk
    ⟨hphone, hamount, hreference, hdesc, hkey, transactionTypeField_again hfields.type⟩

/-- `str` of a whole amount that was given without an exponent. -/
def shillingsText (amount : ℚ) : String := String.ofList (Nat.toDigits 10 amount.num.toNat)

theorem decimalOfString_shillingsText {amount : ℚ} (hpos : 0 < amount) (hle : amount ≤ 300000)
    (hwhole : amount.den = 1) :
    decimalOfString (shillingsText amount) = some (.finite amount) := by
  have hvalue : (amount.num.toNat : ℚ) = amount := by
    have hcast : (amount.num.toNat : ℚ) = (amount.num : ℚ) := by
      exact_mod_cast Int.toNat_of_nonneg (Rat.num_nonneg.mpr hpos.le)
    rw [hcast, Rat.coe_int_num_of_den_eq_one hwhole]
  have htext : (shillingsText amount).toList = Nat.toDigits 10 amount.num.toNat :=
    String.toList_ofList
  have hplain : ∀ c ∈ (shillingsText amount).toList, isPlain c = true := by
    rw [htext]
    exact fun _ => isPlain_of_mem_toDigits
  obtain ⟨x, hx, hxvalue, hexponent, hlength⟩ := scientific_digits amount.num.toNat
  have hsmall : amount.num.toNat < 10 ^ 6 := by
    have hbound : (amount.num.toNat : ℚ) < 10 ^ 6 := by
      rw [hvalue]
      linarith
    exact_mod_cast hbound
  have hdigits : (Nat.toDigits 10 amount.num.toNat).length ≤ 6 :=
    (Nat.length_toDigits_le_iff (by decide) (by decide)).mpr hsmall
  have hexact : x.isExact = true := Scientific.isExact_of_length (by omega) (by omega) (by omega)
  rw [← htext] at hx
  rw [decimalOfString_of_scientific hplain hx hexact, hxvalue, hvalue]

def localBody : RawJson :=
  .obj [("phone_number", .str " 0712 345 678"), ("amount", .int 500),
    ("account_reference", .str "INV-001 "), ("transaction_desc", .str "Order payment"),
    ("idempotency_key", .str "key-0001")]

theorem modelValidate_requestData_sample :
    ∃ r, modelValidate localBody = .ok r ∧
      modelValidate (r.requestData shillingsText) = .ok r := by
  have hok : (modelValidate localBody).toOption.isSome = true := rfl
  cases h : modelValidate localBody with
  | error errors =>
    rw [h] at hok
    cases hok
  | ok r =>
    exact ⟨r, rfl,
      modelValidate_requestData (fun _ => decimalOfString_shillingsText) h⟩

end STKPushInitiateRequest

def textField (kvs : List (String × Json)) (name : String) : Option String :=
  match kvs.lookup name with
  | some (.str s) => some s
  | _ => none

/-- `CallbackMetadataItem.model_validate`: a name, and a value of any type or none. -/
def callbackMetadataItem : Json → Option (String × Json)
  | .obj kvs => (textField kvs "Name").map fun name => (name, (kvs.lookup "Value").getD .null)
  | _ => none

def CallbackMetadata.modelValidate : Json → Option CallbackMetadata
  | .obj kvs =>
    match kvs.lookup "Item" with
    | none => some []
    | some (.arr items) => items.mapM callbackMetadataItem
    | some _ => none
  | _ => none

def callbackMetadataField : Option Json → Option (Option CallbackMetadata)
  | none => some none
  | some .null => some none
  | some j => (CallbackMetadata.modelValidate j).map some

section

variable (intOf : Json → Option ℤ)

/-- `STKCallbackBody.model_validate`; `none` where it raises `ValidationError`. -/
def STKCallbackBody.modelValidate : Json → Option STKCallbackBody
  | .obj kvs => do
    let merchantRequestId ← textField kvs "MerchantRequestID"
    let checkoutRequestId ← textField kvs "CheckoutRequestID"
    let resultCode ← (kvs.lookup "ResultCode").bind intOf
    let resultDesc ← textField kvs "ResultDesc"
    let callbackMetadata ← callbackMetadataField (kvs.lookup "CallbackMetadata")
    return { merchantRequestId, checkoutRequestId, resultCode, resultDesc, callbackMetadata }
  | _ => none

/-- `STKCallbackEnvelope.extract`; `none` where it raises `ValueError`, of which `ValidationError`
is a subclass. -/
def STKCallbackEnvelope.extract (body : List (String × Json)) : Option STKCallbackBody :=
  (body.lookup "stkCallback").bind fun raw =>
    if raw.truthy then STKCallbackBody.modelValidate intOf raw else none

end

def itemPayload (item : String × Json) : Json := .obj [("Name", .str item.1), ("Value", item.2)]

/-- A callback as Daraja sends it; a failure comes without metadata. -/
def STKCallbackBody.payload (cb : STKCallbackBody) : List (String × Json) :=
  [("MerchantRequestID", .str cb.merchantRequestId),
    ("CheckoutRequestID", .str cb.checkoutRequestId), ("ResultCode", .int cb.resultCode),
    ("ResultDesc", .str cb.resultDesc)] ++
  match cb.callbackMetadata with
  | none => []
  | some items => [("CallbackMetadata", .obj [("Item", .arr (items.map itemPayload))])]

def intValue : Json → Option ℤ
  | .int n => some n
  | _ => none

variable {intOf : Json → Option ℤ}

theorem mapM_itemPayload (items : CallbackMetadata) :
    (items.map itemPayload).mapM callbackMetadataItem = some items := by
  induction items with
  | nil => rfl
  | cons item items ih =>
    have hitem : callbackMetadataItem (itemPayload item) = some item := rfl
    rw [List.map_cons, List.mapM_cons, hitem, ih]
    rfl

/-- What Daraja sends is read as the callback that it is. -/
theorem STKCallbackBody.modelValidate_payload (hint : ∀ n : ℤ, intOf (.int n) = some n)
    (cb : STKCallbackBody) : STKCallbackBody.modelValidate intOf (.obj cb.payload) = some cb := by
  obtain ⟨merchant, checkout, code, desc, metadata⟩ := cb
  cases metadata with
  | none =>
    simp [payload, STKCallbackBody.modelValidate, textField, List.lookup_cons, hint,
      callbackMetadataField]
  | some items =>
    have hmetadata : callbackMetadataField
        (some (.obj [("Item", .arr (items.map itemPayload))])) = some (some items) := by
      simp only [callbackMetadataField, CallbackMetadata.modelValidate, List.lookup_cons,
        beq_self_eq_true, mapM_itemPayload, Option.map_some]
    simp [payload, STKCallbackBody.modelValidate, textField, List.lookup_cons, hint, hmetadata]

end DarajaWrapper
