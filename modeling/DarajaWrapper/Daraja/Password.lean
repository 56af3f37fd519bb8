import DarajaWrapper.Daraja.Payload
import DarajaWrapper.Python.Base64

/-!
# The password of an STK push

Daraja decodes the password and compares it with the short code, the passkey and the
timestamp that come beside it. Both members are from one reading of the clock, and the
password tells the second in which it was made.
-/

namespace DarajaWrapper

open Python

/-- A time that the clock of the server may show, with a year of four digits. -/
def IsClockTime (now : Datetime) : Prop := now.valid = true ∧ 1000 ≤ now.year

variable {settings : PayloadSettings} {now now' : Datetime} {args : InitiateArgs}

theorem lookup_password :
    (stkPayload settings now args).lookup "Password" = some (.str
      (generateStkPassword settings.darajaShortcode settings.darajaPasskey now).1) := rfl

theorem lookup_timestamp :
    (stkPayload settings now args).lookup "Timestamp" = some (.str now.strftimeYmdHMS) := rfl

theorem b64decode_password (shortcode passkey : String) (now : Datetime) :
    b64decode (generateStkPassword shortcode passkey now).1.toList =
      some (utf8 (shortcode ++ passkey ++ now.strftimeYmdHMS)) := by
  rw [generateStkPassword, String.toList_ofList]
  exact b64decode_b64encode _ fun n hn => utf8_lt hn

theorem generateStkPassword_inj {shortcode passkey : String} (hnow : IsClockTime now)
    (hnow' : IsClockTime now')
    (h : (generateStkPassword shortcode passkey now).1 =
      (generateStkPassword shortcode passkey now').1) : now = now' := by
  have hbytes := b64decode_password shortcode passkey now
  rw [h, b64decode_password] at hbytes
  have htext := congrArg String.toList (utf8_injective (Option.some.inj hbytes))
  simp only [String.toList_append] at htext
  have hstamp : now'.strftimeYmdHMS = now.strftimeYmdHMS :=
    String.toList_injective (List.append_cancel_left htext)
  have hparsed := strptime_strftime hnow.1
  rw [← hstamp, strptime_strftime hnow'.1] at hparsed
  exact (Option.some.inj hparsed).symm

/-- The password of a payload decodes to the short code and the passkey with the timestamp beside
it, which is the time of the push; and no push at another time has this password. -/
theorem password_read_back (settings : PayloadSettings) (args : InitiateArgs)
    (hnow : IsClockTime now) :
    ∃ password timestamp,
      (stkPayload settings now args).lookup "Password" = some (.str password) ∧
      (stkPayload settings now args).lookup "Timestamp" = some (.str timestamp) ∧
      b64decode password.toList =
        some (utf8 (settings.darajaShortcode ++ settings.darajaPasskey ++ timestamp)) ∧
      strptimeYmdHMS timestamp = some now ∧
      ∀ now' args', IsClockTime now' →
        (stkPayload settings now' args').lookup "Password" = some (.str password) →
          now' = now := by
  refine ⟨_, _, lookup_password, lookup_timestamp, b64decode_password _ _ _,
    strptime_strftime hnow.1, ?_⟩
  intro now' args' hnow' h
  rw [lookup_password] at h
  exact generateStkPassword_inj hnow' hnow (Json.str.inj (Option.some.inj h))

def sandboxPayload : PayloadSettings := ⟨"174379", "bfb279f9aa9bdbcf", "https://pay.example.com"⟩

def leapNight : Datetime := ⟨2024, 2, 29, 23, 59, 59⟩

def sampleArgs : InitiateArgs where
  phone := "254712345678"
  amount := 500
  accountReference := "INV-001"
  transactionDesc := "Order payment"
  transactionType := "CustomerPayBillOnline"

theorem password_read_back_sample :
    ∃ password timestamp,
      (stkPayload sandboxPayload leapNight sampleArgs).lookup "Password" = some (.str password) ∧
      (stkPayload sandboxPayload leapNight sampleArgs).lookup "Timestamp" =
        some (.str timestamp) ∧
      b64decode password.toList = some (utf8 ("174379" ++ "bfb279f9aa9bdbcf" ++ timestamp)) ∧
      strptimeYmdHMS timestamp = some leapNight := by
  obtain ⟨password, timestamp, hpassword, htimestamp, hdecoded, hparsed, -⟩ :=
    password_read_back sandboxPayload sampleArgs (⟨by decide, by decide⟩ : IsClockTime leapNight)
  exact ⟨password, timestamp, hpassword, htimestamp, hdecoded, hparsed⟩

end DarajaWrapper
