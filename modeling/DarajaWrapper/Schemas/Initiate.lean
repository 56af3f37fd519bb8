import DarajaWrapper.Python.RawJson
import DarajaWrapper.Schemas.Stk

/-!
# Validation of an initiation body

What pydantic makes of the decoded JSON: every field in turn, then the validator of the
whole model. A body is accepted as a `STKPushInitiateRequest` or refused with one error
for each field that fails. The messages of pydantic are known by their type and bounds, the
one of `must_be_whole_shillings` by its amount; the others are given in full.
-/

namespace DarajaWrapper

open Python

/-- The class `[\s\-\(\)]`. -/
def isSeparator (c : Char) : Bool := isSpace c || c == '-' || c == '(' || c == ')'

/-- A spelling without its separators and without one leading plus. -/
def rawPhone (v : String) : List Char :=
  match v.toList.filter (!isSeparator ·) with
  | '+' :: raw => raw
  | raw => raw

def countryCode : List Char := ['2', '5', '4']

/-- The international form of a raw number, by its prefix and then by its length. -/
def internationalForm (raw : List Char) : Option (List Char) :=
  if countryCode.isPrefixOf raw then some raw
  else if ['0'].isPrefixOf raw ∧ raw.length = 10 then some (countryCode ++ raw.tail)
  else if raw.length = 9 then some (countryCode ++ raw)
  else none

def unparsedMessage (v : String) : String :=
  "Cannot parse '" ++ v ++ " as a kenyan mobile number" ++
    "Expected formats: 2547XXXXXXXX, +2547XXXXXXXX, 07XXXXXXXX. "

def invalidMessage (v : String) : String :=
  "'" ++ v ++ " is not a valid Kenyan Safaricom or Airtel number (2547|1XXXXXXXX)"

/-- `normalise_phone`, with the message of the `ValueError` it raises. -/
def normalisePhone (v : String) : Except String String :=
  match internationalForm (rawPhone v) with
  | none => .error (unparsedMessage v)
  | some normalised =>
    if isMsisdn (String.ofList normalised) then .ok (String.ofList normalised)
    else .error (invalidMessage v)

example : normalisePhone "+254 (712) 345-678" = .ok "254712345678" := by decide

/-- A subscriber number: a `7` or a `1` and eight decimal digits. -/
def isSubscriber : List Char → Bool
  | p :: rest => (p == '7' || p == '1') && rest.length == 8 && rest.all isDecimal
  | [] => false

/-- The text is a spelling of this subscriber number: bare, with a leading zero, or with the
country code. -/
def Spells (v : String) (s : List Char) : Prop :=
  rawPhone v = s ∨ rawPhone v = '0' :: s ∨ rawPhone v = countryCode ++ s

variable {v n : String} {s raw : List Char} {c : Char}

theorem isSubscriber_iff :
    isSubscriber s = true ↔ ∃ p rest, s = p :: rest ∧ (p = '7' ∨ p = '1') ∧ rest.length = 8 ∧
      ∀ c ∈ rest, isDecimal c = true := by
  cases s with
  | nil => simp [isSubscriber]
  | cons p rest => simp [isSubscriber, and_assoc]

theorem length_of_isSubscriber (h : isSubscriber s = true) : s.length = 9 := by
  obtain ⟨p, rest, rfl, -, hlength, -⟩ := isSubscriber_iff.mp h
  simp [hlength]

theorem isMsisdn_ofList_iff :
    isMsisdn (String.ofList raw) = true ↔ ∃ s, isSubscriber s = true ∧ raw = countryCode ++ s := by
  unfold isMsisdn
  rw [String.toList_ofList]
  constructor
  · intro h
    split at h
    · rename_i p rest
      exact ⟨p :: rest, h, rfl⟩
    · cases h
  · rintro ⟨s, hs, rfl⟩
    obtain ⟨p, rest, rfl, -⟩ := isSubscriber_iff.mp hs
    exact hs

theorem not_prefix_of_isSubscriber (h : isSubscriber s = true) :
    countryCode.isPrefixOf s = false ∧ ['0'].isPrefixOf s = false := by
  obtain ⟨p, rest, rfl, hp, -⟩ := isSubscriber_iff.mp h
  rcases hp with rfl | rfl <;> exact ⟨rfl, rfl⟩

/-- The three raw forms of a subscriber number, and no others, have its international form. -/
theorem internationalForm_eq_iff (hs : isSubscriber s = true) :
    internationalForm raw = some (countryCode ++ s) ↔
      raw = s ∨ raw = '0' :: s ∨ raw = countryCode ++ s := by
  obtain ⟨hcode, hzero⟩ := not_prefix_of_isSubscriber hs
  have hlength := length_of_isSubscriber hs
  constructor
  · intro h
    unfold internationalForm at h
    split_ifs at h with hprefix hlocal hbare
    · exact .inr (.inr (Option.some.inj h))
    · obtain ⟨tail, rfl⟩ := List.isPrefixOf_iff_prefix.mp hlocal.1
      have htail : tail = s := List.append_cancel_left (Option.some.inj h)
      exact .inr (.inl (by rw [htail]; rfl))
    · exact .inl (List.append_cancel_left (Option.some.inj h))
  · rintro (rfl | rfl | rfl)
    · simp [internationalForm, hcode, hzero, hlength]
    · simp [internationalForm, hlength, countryCode]
    · simp [internationalForm]

theorem normalisePhone_eq_ok_iff :
    normalisePhone v = .ok n ↔
      ∃ s, isSubscriber s = true ∧ Spells v s ∧ n = String.ofList (countryCode ++ s) := by
  constructor
  · intro h
    unfold normalisePhone at h
    split at h
    · cases h
    · rename_i normalised hform
      split_ifs at h with hvalid
      obtain ⟨s, hs, rfl⟩ := isMsisdn_ofList_iff.mp hvalid
      exact ⟨s, hs, (internationalForm_eq_iff hs).mp hform, (Except.ok.inj h).symm⟩
  · rintro ⟨s, hs, hv, rfl⟩
    have hform : internationalForm (rawPhone v) = some (countryCode ++ s) :=
      (internationalForm_eq_iff hs).mpr hv
    have hvalid : isMsisdn (String.ofList (countryCode ++ s)) = true :=
      isMsisdn_ofList_iff.mpr ⟨s, hs, rfl⟩
    simp only [normalisePhone, hform, hvalid, if_true]

theorem isMsisdn_of_normalisePhone (h : normalisePhone v = .ok n) : isMsisdn n = true := by
  obtain ⟨s, hs, -, rfl⟩ := normalisePhone_eq_ok_iff.mp h
  exact isMsisdn_ofList_iff.mpr ⟨s, hs, rfl⟩

/-- No decimal digit is a separator: checked for each of the blocks of ten. -/
theorem not_isSeparator_of_isDecimal (h : isDecimal c = true) : isSeparator c = false := by
  have hblocks : ∀ z ∈ decimalZeros, ∀ k < 10, isSeparator (Char.ofNat (z + k)) = false := by
    decide
  obtain ⟨d, hd⟩ := Option.isSome_iff_exists.mp h
  obtain ⟨z, hz, -⟩ := Option.map_eq_some_iff.mp hd
  have hrange := List.find?_some hz
  simp only [decide_eq_true_eq] at hrange
  have hc := hblocks z (List.mem_of_find?_eq_some hz) (c.toNat - z) (by omega)
  rwa [Nat.add_sub_cancel' hrange.1, Char.ofNat_toNat] at hc

theorem rawPhone_international (hs : isSubscriber s = true) :
    rawPhone (String.ofList (countryCode ++ s)) = countryCode ++ s := by
  have hkept : ∀ c ∈ countryCode ++ s, (!isSeparator c) = true := by
    obtain ⟨p, rest, rfl, hp, -, hrest⟩ := isSubscriber_iff.mp hs
    intro c hc
    have hdecimal : isDecimal c = true := by
      simp only [countryCode, List.cons_append, List.nil_append, List.mem_cons] at hc
      rcases hc with rfl | rfl | rfl | rfl | hc
      · decide
      · decide
      · decide
      · rcases hp with rfl | rfl <;> decide
      · exact hrest c hc
    rw [not_isSeparator_of_isDecimal hdecimal]
    rfl
  unfold rawPhone
  rw [String.toList_ofList, List.filter_eq_self.mpr hkept]
  rfl

/-- Exactly the spellings of a subscriber are accepted, and a subscriber has one result. -/
theorem normalisePhone_one_form :
    (∀ v n, normalisePhone v = .ok n ↔
      ∃ s, isSubscriber s = true ∧ Spells v s ∧ n = String.ofList (countryCode ++ s)) ∧
    (∀ v n, normalisePhone v = .ok n → normalisePhone n = .ok n) ∧
    ∀ v v' s s', isSubscriber s = true → isSubscriber s' = true → Spells v s → Spells v' s' →
      ((normalisePhone v = normalisePhone v') ↔ s = s') := by
  refine ⟨fun v n => normalisePhone_eq_ok_iff, ?_, ?_⟩
  · intro v n h
    obtain ⟨s, hs, -, rfl⟩ := normalisePhone_eq_ok_iff.mp h
    exact normalisePhone_eq_ok_iff.mpr ⟨s, hs, .inr (.inr (rawPhone_international hs)), rfl⟩
  · intro v v' s s' hs hs' hv hv'
    have hok := normalisePhone_eq_ok_iff.mpr ⟨s, hs, hv, rfl⟩
    have hok' := normalisePhone_eq_ok_iff.mpr ⟨s', hs', hv', rfl⟩
    rw [hok, hok']
    constructor
    · intro h
      exact List.append_cancel_left (String.ofList_injective (Except.ok.inj h))
    · rintro rfl
      rfl

/-- What an error of one field says, with the bound or the value that it names. -/
inductive ErrorType where
  | missing
  | modelAttributesType
  | stringType
  | stringUnicode
  | stringTooShort (minLength : ℕ)
  | stringTooLong (maxLength : ℕ)
  | decimalType
  | decimalParsing
  | finiteNumber
  | lessThanEqual (bound : ℚ)
  | greaterThan (bound : ℚ)
  /-- The message of `must_be_whole_shillings` for this amount. -/
  | fractionalShillings (amount : ℚ)
  | valueError (message : String)
  deriving DecidableEq

structure ErrorDetails where
  loc : List String
  type : ErrorType
  deriving DecidableEq

/-- The characters that `str_strip_whitespace` removes at both ends. -/
def isWhiteSpace (c : Char) : Bool := isSpace c && !(0x1C ≤ c.toNat && c.toNat ≤ 0x1F)

def trim (s : String) : String :=
  String.ofList ((s.toList.dropWhile isWhiteSpace).reverse.dropWhile isWhiteSpace).reverse

/-- A required `str`; other types are not coerced, and a surrogate cannot be stripped. -/
def strField : Option RawJson → Except ErrorType String
  | none => .error .missing
  | some (.str (.text s)) => .ok (trim s)
  | some (.str (.surrogates _)) => .error .stringUnicode
  | some _ => .error .stringType

def boundedStrField (minLength maxLength : ℕ) (value : Option RawJson) :
    Except ErrorType { s : String // minLength ≤ s.length ∧ s.length ≤ maxLength } :=
  match strField value with
  | .error e => .error e
  | .ok s =>
    if hmin : minLength ≤ s.length then
      if hmax : s.length ≤ maxLength then .ok ⟨s, hmin, hmax⟩
      else .error (.stringTooLong maxLength)
    else .error (.stringTooShort minLength)

def phoneNumberField (value : Option RawJson) :
    Except ErrorType { s : String // isMsisdn s = true } :=
  match strField value with
  | .error e => .error e
  | .ok s =>
    match h : normalisePhone s with
    | .ok n => .ok ⟨n, isMsisdn_of_normalisePhone h⟩
    | .error message => .error (.valueError message)

/-- The `Decimal` that pydantic makes of a number or a text, and not of a boolean. -/
def decimalOfJson : RawJson → Except ErrorType Decimal
  | .int n => .ok (.finite n)
  | .float repr => (decimalOfString repr).elim (.error .decimalParsing) .ok
  | .str (.text s) => (decimalOfString s).elim (.error .decimalParsing) .ok
  | .str (.surrogates _) => .error .decimalParsing
  | _ => .error .decimalType

/-- The bounds of the field, the upper one first, and then `must_be_whole_shillings`. -/
def amountField : Option RawJson → Except ErrorType { q : ℚ // 0 < q ∧ q ≤ 300000 ∧ q.den = 1 }
  | none => .error .missing
  | some value =>
    match decimalOfJson value with
    | .error e => .error e
    | .ok (.finite q) =>
      if hle : q ≤ 300000 then
        if hpos : 0 < q then
          if hwhole : q.den = 1 then .ok ⟨q, hpos, hle, hwhole⟩
          else .error (.fractionalShillings q)
        else .error (.greaterThan 0)
      else .error (.lessThanEqual 300000)
    | .ok _ => .error .finiteNumber

/-- A `str` with a default, which is not itself validated. -/
def transactionTypeField : Option RawJson → Except ErrorType String
  | none => .ok "CustomerPayBillOnline"
  | some value => strField (some value)

def unsafeReferenceMessage (c : Char) : String :=
  "account_reference contains invalid character " ++ c.toString ++ "." ++
    "Only alphanumeric characters,hyphens,underscores and slashes are allowed"

def fieldErrors {α : Type} (name : String) : Except ErrorType α → List ErrorDetails
  | .ok _ => []
  | .error e => [⟨[name], e⟩]

theorem fieldErrors_eq_nil_iff {α : Type} {name : String} {field : Except ErrorType α} :
    fieldErrors name field = [] ↔ ∃ value, field = .ok value := by
  cases field <;> simp [fieldErrors]

theorem eq_str_of_strField {value : Option RawJson} {s : String} (h : strField value = .ok s) :
    ∃ v : String, value = some (.str v) ∧ trim v = s := by
  unfold strField at h
  split at h
  · cases h
  · exact ⟨_, rfl, Except.ok.inj h⟩
  · cases h
  · cases h

theorem eq_str_of_phoneNumberField {value : Option RawJson} {phone : { s // isMsisdn s = true }}
    (h : phoneNumberField value = .ok phone) :
    ∃ v : String, value = some (.str v) ∧ normalisePhone (trim v) = .ok phone.1 := by
  unfold phoneNumberField at h
  split at h
  · cases h
  · rename_i s hstr
    obtain ⟨v, rfl, rfl⟩ := eq_str_of_strField hstr
    split at h
    · rename_i n hn
      cases h
      exact ⟨v, rfl, hn⟩
    · cases h

namespace STKPushInitiateRequest

/-- `model_validate`: all fields, and once they are fine `account_reference_safe_for_daraja`. -/
def modelValidate : RawJson → Except (List ErrorDetails) STKPushInitiateRequest
  | .obj kvs =>
    let phone := phoneNumberField (kvs.lookup (.text "phone_number"))
    let amount := amountField (kvs.lookup (.text "amount"))
    let reference := boundedStrField 1 12 (kvs.lookup (.text "account_reference"))
    let desc := boundedStrField 1 13 (kvs.lookup (.text "transaction_desc"))
    let key := boundedStrField 8 64 (kvs.lookup (.text "idempotency_key"))
    let type := transactionTypeField (kvs.lookup (.text "transaction_type"))
    match phone, amount, reference, desc, key, type with
    | .ok phone, .ok amount, .ok reference, .ok desc, .ok key, .ok type =>
      match h : reference.1.toList.find? (!isSafeReferenceChar ·) with
      | some c => .error [⟨[], .valueError (unsafeReferenceMessage c)⟩]
      | none =>
        .ok { phoneNumber := phone.1
              amount := amount.1
              accountReference := reference.1
              transactionDesc := desc.1
              idempotencyKey := key.1
              transactionType := type
              phone_normalised := phone.2
              amount_pos := amount.2.1
              amount_le := amount.2.2.1
              amount_whole := amount.2.2.2
              reference_length := reference.2
              reference_safe := by simpa using h
              desc_length := desc.2
              key_length := key.2 }
    | phone, amount, reference, desc, key, type =>
      .error (fieldErrors "phone_number" phone ++ fieldErrors "amount" amount ++
        fieldErrors "account_reference" reference ++ fieldErrors "transaction_desc" desc ++
        fieldErrors "idempotency_key" key ++ fieldErrors "transaction_type" type)
  | _ => .error [⟨[], .modelAttributesType⟩]

theorem phone_of_modelValidate {body : RawJson} {r : STKPushInitiateRequest}
    (h : modelValidate body = .ok r) :
    ∃ kvs, ∃ v : String, body = .obj kvs ∧ kvs.lookup (.text "phone_number") = some (.str v) ∧
      normalisePhone (trim v) = .ok r.phoneNumber := by
  unfold modelValidate at h
  split at h
  · rename_i kvs
    dsimp only at h
    split at h
    · rename_i phone amount reference desc key type hphone hamount hreference hdesc hkey htype
      split at h
      · cases h
      · obtain ⟨v, hv, hn⟩ := eq_str_of_phoneNumberField hphone
        cases h
        exact ⟨kvs, v, rfl, hv, hn⟩
    · cases h
  · cases h

theorem ne_nil_of_modelValidate {body : RawJson} {errors : List ErrorDetails}
    (h : modelValidate body = .error errors) : errors ≠ [] := by
  unfold modelValidate at h
  split at h
  · dsimp only at h
    split at h
    · split at h <;> cases h
      simp
    · rename_i hfail
      cases h
      intro hnil
      simp only [List.append_eq_nil_iff, fieldErrors_eq_nil_iff] at hnil
      obtain ⟨⟨⟨⟨⟨⟨_, hp⟩, ⟨_, ha⟩⟩, ⟨_, hr⟩⟩, ⟨_, hd⟩⟩, ⟨_, hk⟩⟩, ⟨_, ht⟩⟩ := hnil
      exact hfail _ _ _ _ _ _ hp ha hr hd hk ht
  · cases h
    simp

end STKPushInitiateRequest

def isAsciiDigit (c : Char) : Bool := 0x30 ≤ c.toNat && c.toNat ≤ 0x39

/-- Twelve ASCII digits that begin with `2547` or `2541`. -/
def AsciiMsisdn (s : String) : Prop :=
  s.length = 12 ∧ (∀ c ∈ s.toList, isAsciiDigit c = true) ∧
    ("2547".toList <+: s.toList ∨ "2541".toList <+: s.toList)

def AsciiDecimals (cs : List Char) : Prop :=
  ∀ c ∈ cs, isDecimal c = true → isAsciiDigit c = true

theorem filter_dropWhile {α : Type} {p q : α → Bool} (h : ∀ a, q a = true → p a = false)
    (xs : List α) : (xs.dropWhile q).filter p = xs.filter p := by
  induction xs with
  | nil => rfl
  | cons a xs ih =>
    cases hq : q a with
    | true => rw [List.dropWhile_cons_of_pos hq, ih, List.filter_cons_of_neg (by simp [h a hq])]
    | false => rw [List.dropWhile_cons_of_neg (by simp [hq])]

theorem rawPhone_trim (v : String) : rawPhone (trim v) = rawPhone v := by
  have hseparator : ∀ c, isWhiteSpace c = true → (!isSeparator c) = false := by
    intro c hc
    simp only [isWhiteSpace, Bool.and_eq_true] at hc
    simp [isSeparator, hc.1]
  simp only [rawPhone, trim, String.toList_ofList, List.filter_reverse,
    filter_dropWhile hseparator, List.reverse_reverse]

theorem mem_rawPhone_iff (hc : isDecimal c = true) : c ∈ rawPhone v ↔ c ∈ v.toList := by
  have hkept : c ∈ v.toList.filter (!isSeparator ·) ↔ c ∈ v.toList := by
    simp [List.mem_filter, not_isSeparator_of_isDecimal hc]
  rw [← hkept]
  unfold rawPhone
  split
  · rename_i raw hraw
    have hplus : c ≠ '+' := by
      rintro rfl
      exact absurd hc (by decide)
    rw [hraw, List.mem_cons]
    exact ⟨.inr, fun h => h.resolve_left hplus⟩
  · rfl

theorem asciiDecimals_rawPhone : AsciiDecimals (rawPhone v) ↔ AsciiDecimals v.toList :=
  ⟨fun h c hc hd => h c ((mem_rawPhone_iff hd).mpr hc) hd,
    fun h c hc hd => h c ((mem_rawPhone_iff hd).mp hc) hd⟩

theorem asciiDecimals_append {xs ys : List Char} :
    AsciiDecimals (xs ++ ys) ↔ AsciiDecimals xs ∧ AsciiDecimals ys := by
  unfold AsciiDecimals
  exact List.forall_mem_append

theorem isAsciiDigit_of_mem_countryCode (h : c ∈ countryCode) : isAsciiDigit c = true :=
  List.all_eq_true.mp (by decide : countryCode.all isAsciiDigit = true) c h

theorem asciiDecimals_of_spells (h : Spells v s) :
    AsciiDecimals v.toList ↔ AsciiDecimals s := by
  have hcode : AsciiDecimals countryCode := fun c hc _ => isAsciiDigit_of_mem_countryCode hc
  have hzero : AsciiDecimals ['0'] := by
    intro c hc _
    rw [List.mem_singleton.mp hc]
    rfl
  rw [← asciiDecimals_rawPhone]
  rcases h with h | h | h
  · rw [h]
  · rw [h, ← List.singleton_append, asciiDecimals_append]
    exact ⟨fun h => h.2, fun h => ⟨hzero, h⟩⟩
  · rw [h, asciiDecimals_append]
    exact ⟨fun h => h.2, fun h => ⟨hcode, h⟩⟩

theorem asciiMsisdn_iff_of_isSubscriber (hs : isSubscriber s = true) :
    AsciiMsisdn (String.ofList (countryCode ++ s)) ↔ AsciiDecimals s := by
  obtain ⟨p, rest, rfl, hp, hlength, hrest⟩ := isSubscriber_iff.mp hs
  unfold AsciiMsisdn
  rw [String.toList_ofList]
  constructor
  · rintro ⟨-, hascii, -⟩ c hc -
    exact hascii c (List.mem_append_right _ hc)
  · intro h
    refine ⟨?_, ?_, ?_⟩
    · rw [String.length_ofList, List.length_append, List.length_cons, hlength]
      rfl
    · intro c hc
      rcases List.mem_append.mp hc with hc | hc
      · exact isAsciiDigit_of_mem_countryCode hc
      · refine h c hc ?_
        rcases List.mem_cons.mp hc with rfl | hc
        · rcases hp with rfl | rfl <;> decide
        · exact hrest c hc
    · rcases hp with rfl | rfl
      · exact .inl ⟨rest, rfl⟩
      · exact .inr ⟨rest, rfl⟩

/-- A normalised number is ASCII exactly when the digits of its spelling were. -/
theorem asciiMsisdn_iff (h : normalisePhone v = .ok n) :
    AsciiMsisdn n ↔ AsciiDecimals v.toList := by
  obtain ⟨s, hs, hv, rfl⟩ := normalisePhone_eq_ok_iff.mp h
  rw [asciiMsisdn_iff_of_isSubscriber hs, asciiDecimals_of_spells hv]

theorem asciiDecimals_trim : AsciiDecimals (trim v).toList ↔ AsciiDecimals v.toList := by
  rw [← asciiDecimals_rawPhone, rawPhone_trim, asciiDecimals_rawPhone]

end DarajaWrapper
