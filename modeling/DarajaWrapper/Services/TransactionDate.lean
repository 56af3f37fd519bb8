import DarajaWrapper.Python.Datetime
import DarajaWrapper.Services.Stk

/-!
# The time of a transaction

Daraja reports the time of a transaction as the 14 digits of its Nairobi local time, three
hours ahead of UTC. `_parse_daraja_transaction_date` takes the digits for UTC, so the
stored time is always three hours after the transaction.
-/

namespace DarajaWrapper

open Python

def nairobi (t : ℤ) : Datetime := Datetime.ofInstant (t + 3 * 3600)

/-- The two ways in which Daraja writes the time of a transaction at this instant. -/
inductive Reports (t : ℤ) : Json → Prop
  | number : Reports t (.int (nairobi t).ymdHMS)
  | text : Reports t (.str (nairobi t).strftimeYmdHMS)

/-- The date is there and denotes this instant. -/
def Denotes (date : Option Datetime) (t : ℤ) : Prop := date.map Datetime.instant = some t

def storedDate (table : PaymentsTable) (checkoutRequestId : String) : Option Datetime :=
  (table.getByCheckoutRequestId checkoutRequestId).bind (·.mpesaTransactionDate)

variable {t : ℤ} {raw : Json}

theorem ne_empty_of_strptime {s : String} {d : Datetime} (h : strptimeYmdHMS s = some d) :
    s ≠ "" := by
  rintro rfl
  cases h

/-- A report is parsed to the local time, whichever way it is written. -/
theorem parse_of_reports (hvalid : (nairobi t).valid = true) (hyear : 1000 ≤ (nairobi t).year)
    (h : Reports t raw) : parseDarajaTransactionDate raw = some (nairobi t) := by
  have hround := strptime_strftime hvalid
  cases h with
  | number =>
    have hpos : (nairobi t).ymdHMS ≠ 0 := by
      unfold Datetime.ymdHMS
      omega
    have htruthy : (Json.int (nairobi t).ymdHMS).truthy = true := by
      simpa [Json.truthy] using hpos
    rw [parseDarajaTransactionDate, if_pos htruthy, Json.pyStr?, Option.bind_some,
      Datetime.toString_ymdHMS hvalid hyear, hround]
  | text =>
    have htruthy : (Json.str (nairobi t).strftimeYmdHMS).truthy = true := by
      simpa [Json.truthy] using ne_empty_of_strptime hround
    rw [parseDarajaTransactionDate, if_pos htruthy, Json.pyStr?, Option.bind_some, hround]

/-- An instant with a local year is one of the calendar. -/
theorem day_of_year (hyear : 1000 ≤ (nairobi t).year) : 86400 ≤ t + 3 * 3600 := by
  by_contra hlt
  have hzero := Datetime.year_ofInstant_eq_zero (not_le.mp hlt)
  rw [nairobi, hzero] at hyear
  exact absurd hyear (by decide)

theorem applyOutcome_of_applied {links : CallbackLinks} {now : ℚ} {n : ℕ} {cb : STKCallbackBody}
    {dedup : Option ℕ} {table : PaymentsTable}
    (h : (processCallback links now n cb dedup table).2.2 = .applied) :
    ∃ p ∈ table.rows, p.checkoutRequestId = some cb.checkoutRequestId ∧
      applyOutcome now table p.id cb = some (processCallback links now n cb dedup table).2.1 := by
  unfold processCallback at h ⊢
  dsimp only at h ⊢
  split_ifs at h ⊢
  cases hfound : table.getByCheckoutRequestId cb.checkoutRequestId with
  | none => simp [hfound] at h
  | some p =>
    obtain ⟨hp, hc⟩ := PaymentsTable.mem_of_getByCheckoutRequestId hfound
    simp only [hfound] at h ⊢
    split_ifs at h with hcommit
    exact ⟨p, hp, hc, (commit_of_snd hcommit).2⟩

theorem storedDate_of_applied {links : CallbackLinks} {now : ℚ} {n : ℕ} {cb : STKCallbackBody}
    {dedup : Option ℕ} {table : PaymentsTable} (hsuccess : cb.isSuccess = true)
    (h : (processCallback links now n cb dedup table).2.2 = .applied) :
    storedDate (processCallback links now n cb dedup table).2.1 cb.checkoutRequestId =
      parseDarajaTransactionDate (cb.details.get "TransactionDate") := by
  obtain ⟨p, hp, hc, happly⟩ := applyOutcome_of_applied h
  rcases applyOutcome_eq_some happly with ⟨-, receipt, paid, date, -, -, rfl, hu⟩ | ⟨hcode, -⟩
  · rw [storedDate, PaymentsTable.getByCheckoutRequestId_of_mem
      (PaymentsTable.mem_update_self hu hp rfl) hc]
    rfl
  · exact absurd (by simpa [STKCallbackBody.isSuccess] using hsuccess) hcode

/-- Neither the parsed date nor the stored one is ever the instant of the transaction: both are
three hours later. -/
theorem transaction_date_three_hours_late (hyear : 1000 ≤ (nairobi t).year)
    (hyear' : (nairobi t).year ≤ 9999) (hraw : Reports t raw) :
    (Denotes (parseDarajaTransactionDate raw) (t + 3 * 3600) ∧
      ¬ Denotes (parseDarajaTransactionDate raw) t) ∧
    ∀ links now n (cb : STKCallbackBody) dedup table result, cb.isSuccess = true →
      cb.details.get "TransactionDate" = raw →
      processCallback links now n cb dedup table = result → result.2.2 = .applied →
        Denotes (storedDate result.2.1 cb.checkoutRequestId) (t + 3 * 3600) ∧
          ¬ Denotes (storedDate result.2.1 cb.checkoutRequestId) t := by
  have hday : 86400 ≤ t + 3 * 3600 := day_of_year hyear
  have hparse : parseDarajaTransactionDate raw = some (nairobi t) :=
    parse_of_reports (Datetime.valid_ofInstant hday hyear') hyear hraw
  have hlate : Denotes (parseDarajaTransactionDate raw) (t + 3 * 3600) := by
    rw [hparse]
    exact congrArg some (Datetime.instant_ofInstant hday)
  have hwrong : ¬ Denotes (parseDarajaTransactionDate raw) t := by
    intro h
    have heq := Option.some.inj (hlate.symm.trans h)
    omega
  refine ⟨⟨hlate, hwrong⟩, ?_⟩
  intro links now n cb dedup table result hsuccess hdate hresult happlied
  subst hresult
  rw [storedDate_of_applied hsuccess happlied, hdate]
  exact ⟨hlate, hwrong⟩

/-- 13:35:40 in Nairobi on 10 April 2026. -/
def sampleInstant : ℤ := 63911500540

theorem reports_sampleInstant : Reports sampleInstant (.int 20260410133540) := by
  have hdigits : (20260410133540 : ℤ) = (nairobi sampleInstant).ymdHMS := by decide +kernel
  rw [hdigits]
  exact .number

theorem transaction_date_three_hours_late_sample :
    (Denotes (parseDarajaTransactionDate (.int 20260410133540)) (sampleInstant + 3 * 3600) ∧
      ¬ Denotes (parseDarajaTransactionDate (.int 20260410133540)) sampleInstant) ∧
    ∀ links now n (cb : STKCallbackBody) dedup table result, cb.isSuccess = true →
      cb.details.get "TransactionDate" = .int 20260410133540 →
      processCallback links now n cb dedup table = result → result.2.2 = .applied →
        Denotes (storedDate result.2.1 cb.checkoutRequestId) (sampleInstant + 3 * 3600) ∧
          ¬ Denotes (storedDate result.2.1 cb.checkoutRequestId) sampleInstant :=
  transaction_date_three_hours_late (by decide +kernel) (by decide +kernel) reports_sampleInstant

theorem transaction_date_not_the_instant :
    ¬ ∀ t raw, 1000 ≤ (nairobi t).year → (nairobi t).year ≤ 9999 → Reports t raw →
      Denotes (parseDarajaTransactionDate raw) t := by
  intro h
  have hdenotes := h sampleInstant (.int 20260410133540) (by decide +kernel) (by decide +kernel)
    reports_sampleInstant
  revert hdenotes
  unfold Denotes
  decide +kernel

end DarajaWrapper
