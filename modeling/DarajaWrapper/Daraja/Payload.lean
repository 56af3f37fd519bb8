import DarajaWrapper.Daraja.Stk
import DarajaWrapper.Python.Datetime
import DarajaWrapper.Python.Encodings

/-!
# The payload of an STK push

What `STKPushInitiator.initiate` posts for its arguments. Its conversions and slices lose
nothing when the arguments are those of a validated request.
-/

namespace DarajaWrapper

open Python

/-- The settings that go into the payload. -/
structure PayloadSettings where
  darajaShortcode : String
  darajaPasskey : String
  darajaCallbackBaseUrl : String

/-- `generate_stk_password`: the password and its timestamp, from one reading of the clock. -/
def generateStkPassword (shortcode passkey : String) (now : Datetime) : String × String :=
  let timestamp := now.strftimeYmdHMS
  (String.ofList (b64encode (utf8 (shortcode ++ passkey ++ timestamp))), timestamp)

def accountReferenceMaxLen : ℕ := 12

def transactionDescMaxLen : ℕ := 13

def slice (n : ℕ) (s : String) : String := String.ofList (s.toList.take n)

/-- `int` of a `Decimal`. -/
def intOfDecimal (q : ℚ) : ℤ := q.num.tdiv q.den

def stkPayload (settings : PayloadSettings) (now : Datetime) (args : InitiateArgs) :
    List (String × Json) :=
  let (password, timestamp) :=
    generateStkPassword settings.darajaShortcode settings.darajaPasskey now
  [("BusinessShortCode", .str settings.darajaShortcode),
   ("Password", .str password),
   ("Timestamp", .str timestamp),
   ("TransactionType", .str args.transactionType),
   ("Amount", .int (intOfDecimal args.amount)),
   ("PartyA", .str args.phone),
   ("PartyB", .str settings.darajaShortcode),
   ("PhoneNumber", .str args.phone),
   ("CallBackURL", .str (settings.darajaCallbackBaseUrl ++ "/api/v1/callback/stk")),
   ("AccountReference", .str (slice accountReferenceMaxLen args.accountReference)),
   ("TransactionDesc", .str (slice transactionDescMaxLen args.transactionDesc))]

theorem slice_eq_self {n : ℕ} {s : String} (h : s.length ≤ n) : slice n s = s := by
  rw [slice, List.take_of_length_le (by rwa [String.length_toList]), String.ofList_toList]

theorem intOfDecimal_eq {q : ℚ} (h : q.den = 1) : (intOfDecimal q : ℚ) = q := by
  rw [intOfDecimal, h, Nat.cast_one, Int.tdiv_one]
  exact Rat.coe_int_num_of_den_eq_one h

end DarajaWrapper
