import DarajaWrapper.System.Lifecycle

/-!
# The outcome columns

A completion sets three columns and a failure two, and neither clears the columns
of the other. So they agree with the status only as long as the writers find a
row whose other columns are empty. Nor does a completion look for its receipt in
the other rows: the column has an index, but it is not UNIQUE.
-/

namespace DarajaWrapper

namespace Payment

variable {p : Payment}

/-- No column of a completion is set. -/
def unpaid (p : Payment) : Bool :=
  p.mpesaReceipt.isNone && p.amountPaid.isNone && p.mpesaTransactionDate.isNone

/-- The outcome columns say what the status says. -/
structure OutcomeAgrees (p : Payment) : Prop where
  completed : p.status = .completed →
    p.failureReason = none ∧ (p.resultCode = none ∨ p.resultCode = some 0)
  unsuccessful : p.status.unsuccessful = true →
    p.unpaid = true ∧ ∃ code, p.resultCode = some code ∧ code ≠ 0
  pending : p.status = .pending →
    p.unpaid = true ∧ p.failureReason = none ∧ p.resultCode = none

theorem unsuccessful_failureStatus (code : ℤ) :
    (failureStatus code).unsuccessful = true := by
  rcases failureStatus_eq code with h | h
  · rw [h]
    rfl
  · rw [h]
    rfl

theorem pending_or_completed (hreversed : p.status ≠ .reversed)
    (hs : p.status.unsuccessful = false) : p.status = .pending ∨ p.status = .completed := by
  revert hreversed hs
  cases p.status <;> decide

theorem outcomeAgrees_newPayment (r : STKPushInitiateRequest) (paymentId : UUID) (now : ℚ) :
    (newPayment r paymentId now).OutcomeAgrees where
  completed hs := by cases hs
  unsuccessful hs := by cases hs
  pending _ := ⟨rfl, rfl, rfl⟩

theorem outcomeAgrees_withFailure {now : ℚ} {reason : String} {code : ℤ}
    (hunpaid : p.unpaid = true) (hcode : code ≠ 0) :
    (p.withFailure now reason code).OutcomeAgrees where
  completed hs := by
    have hfailed := unsuccessful_failureStatus code
    rw [show failureStatus code = .completed from hs] at hfailed
    cases hfailed
  unsuccessful _ := ⟨hunpaid, code, rfl, hcode⟩
  pending hs := by
    have hfailed := unsuccessful_failureStatus code
    rw [show failureStatus code = .pending from hs] at hfailed
    cases hfailed

/-- A completion agrees with the columns of a row that is PENDING or COMPLETED. -/
theorem OutcomeAgrees.withCompletion {now : ℚ} {receipt : Option String}
    {paid : Option Numeric} {date : Option Python.Datetime} (h : p.OutcomeAgrees)
    (hs : p.status = .pending ∨ p.status = .completed) :
    (p.withCompletion now receipt paid date).OutcomeAgrees where
  completed _ := by
    rcases hs with hs | hs
    · obtain ⟨-, hreason, hcode⟩ := h.pending hs
      exact ⟨hreason, Or.inl hcode⟩
    · exact h.completed hs
  unsuccessful hs' := by cases hs'
  pending hs' := by cases hs'

end Payment

namespace World

variable {settings : Settings} {w w' : World} {a : Action} {id : UUID} {p q : Payment}
  {receipt : String}

/-- No success is applied to the payment once it is FAILED or CANCELLED, and neither a failure
callback nor a sweep once a column of a completion is set. -/
def writesOneOutcome (id : UUID) (w : World) : Action → Bool
  | .write i link =>
    link = .down ||
      match w.tasks i with
      | some (.callback cb (.apply pid)) =>
        pid ≠ id || !cb.fits || w.payments.rows.all fun p =>
          p.id ≠ id || if cb.isSuccess then !p.status.unsuccessful else p.unpaid
      | some (.sweep (.rows (row :: _))) =>
        row.id ≠ id || row.hasReceipt || w.payments.rows.all fun p => p.id ≠ id || p.unpaid
      | _ => true
  | _ => true

/-- No statement of the program writes REVERSED. -/
def NeverReversed (w : World) : Prop := ∀ ⦃p⦄, p ∈ w.payments.rows → p.status ≠ .reversed

theorem neverReversed_step (hn : NeverReversed w) (h : Move settings w a w') :
    NeverReversed w' := by
  intro q hq hs
  cases h.row_cases hq with
  | created hi ht hlog => cases hs
  | changed hp hchange =>
    cases hchange with
    | kept | identified => exact hn hp hs
    | completed | failed | expired => cases hs
    | declined => exact absurd hs (Payment.failureStatus_ne _ (by decide) (by decide))

theorem neverReversed_init : NeverReversed init := by
  intro p hp
  cases hp

theorem Reachable.neverReversed (h : Reachable settings w) : NeverReversed w := by
  apply Machine.Reachable.invariant h neverReversed_init
  intro u a v _ hn hstep
  exact neverReversed_step hn (move_of_step hstep)

/-- The row of this payment agrees with its status. -/
def OutcomeOf (id : UUID) (w : World) : Prop :=
  ∀ ⦃p⦄, p ∈ w.payments.rows → p.id = id → p.OutcomeAgrees

/-- While its own call may still mark it failed, a payment is not paid. -/
theorem unpaid_of_markFailed {i client : ℕ} {r : STKPushInitiateRequest} {e : DarajaError}
    (hw : Reachable settings w) (hagrees : p.OutcomeAgrees)
    (hi : w.tasks i = some (.initiate client r (.markFailed p.id e)))
    (hp : p ∈ w.payments.rows) : p.unpaid = true := by
  cases hs : p.status with
  | pending => exact (hagrees.pending hs).1
  | completed =>
    obtain ⟨hnone, -⟩ := hw.blank hi rfl (by simp [InitiatePc.stage]) hp rfl
    exact absurd hnone (hw.completedIdentified hp hs)
  | failed => exact (hagrees.unsuccessful (by rw [hs]; rfl)).1
  | cancelled => exact (hagrees.unsuccessful (by rw [hs]; rfl)).1
  | reversed => exact absurd hs (hw.neverReversed hp)

theorem callback_finds {i : ℕ} {link : Link} {cb : STKCallbackBody}
    (hok : writesOneOutcome p.id w (.write i link) = true) (hlink : link ≠ .down)
    (hi : w.tasks i = some (.callback cb (.apply p.id)))
    (ht : applyOutcome w.now w.payments p.id cb = some w'.payments) (hp : p ∈ w.payments.rows) :
    (if cb.isSuccess then !p.status.unsuccessful else p.unpaid) = true := by
  have hfits : cb.fits = true := (applyOutcome_isSome_iff w.now hp).mp (by rw [ht]; rfl)
  simp only [writesOneOutcome, hi, hlink, hfits, ne_eq, not_true_eq_false, decide_false,
    Bool.not_true, Bool.false_or, List.all_eq_true] at hok
  simpa using hok p hp

theorem outcomeOf_step (hw : Reachable settings w) (ho : OutcomeOf id w)
    (hok : writesOneOutcome id w a = true) (h : Move settings w a w') : OutcomeOf id w' := by
  intro q hq hid
  cases h.row_cases hq with
  | created hi ht hlog =>
    exact Payment.outcomeAgrees_newPayment ..
  | changed hp hchange =>
    rw [hchange.sameIdentity.id] at hid
    subst hid
    have hagrees := ho hp rfl
    cases hchange with
    | kept => exact hagrees
    | identified => exact ⟨hagrees.completed, hagrees.unsuccessful, hagrees.pending⟩
    | failed ha hlink hi =>
      have hunpaid := unpaid_of_markFailed hw hagrees hi hp
      exact Payment.outcomeAgrees_withFailure hunpaid (by decide)
    | completed ha hlink hi ht hcode =>
      have hfinds := callback_finds (ha ▸ hok) hlink hi ht hp
      simp only [STKCallbackBody.isSuccess, hcode, beq_self_eq_true, if_true] at hfinds
      have hs := Payment.pending_or_completed (hw.neverReversed hp) (by simpa using hfinds)
      exact hagrees.withCompletion hs
    | declined ha hlink hi ht hcode =>
      have hfinds := callback_finds (ha ▸ hok) hlink hi ht hp
      simp only [STKCallbackBody.isSuccess, beq_iff_eq, hcode, if_false] at hfinds
      exact Payment.outcomeAgrees_withFailure hfinds hcode
    | expired ha hlink hi hrow hreceipt =>
      simp only [ha, writesOneOutcome, hi, hrow, hreceipt, hlink, ne_eq, not_true_eq_false,
        decide_false, Bool.false_or, List.all_eq_true] at hok
      have hunpaid := hok _ hp
      simp only [not_true_eq_false, decide_false, Bool.false_or] at hunpaid
      rw [Payment.withExpiry_eq]
      exact Payment.outcomeAgrees_withFailure hunpaid (by decide)

theorem outcomeOf_init : OutcomeOf id init := by
  intro p hp
  cases hp

/-- In a run that writes one outcome to a payment, its columns agree with its status. -/
theorem outcome_agrees {as : List Action}
    (hok : Machine.Meets (step settings) (fun u a => writesOneOutcome p.id u a = true) init as)
    (hrun : Machine.run (step settings) init as = some w) (hp : p ∈ w.payments.rows) :
    p.OutcomeAgrees := by
  have ho : OutcomeOf p.id w := by
    refine Machine.run_invariant_of_meets outcomeOf_init ?_ hok hrun
    intro u a v hu ho hoku hstep
    exact outcomeOf_step hu ho hoku (move_of_step hstep)
  exact ho hp rfl

theorem outcome_agrees_sample : confirmedRow.OutcomeAgrees :=
  outcome_agrees (by decide +kernel) (run_after sampleConfirmation_enabled) (by decide +kernel)

/-- The callback of a payment that the sweep has expired. -/
def lateCallback : List Action := sweepBeforeCallback ++ delivery 2 sampleCallback

theorem lateCallback_enabled : (Machine.run (step {}) init lateCallback).isSome = true := by
  decide +kernel

def revivedRow : Payment where
  __ := confirmedRow
  failureReason := some "No callback received within 10 mins"
  resultCode := some (-99)
  updatedAt := 700

theorem late_callback_keeps_failure :
    ¬ ∀ settings w p, Reachable settings w → p ∈ w.payments.rows → p.OutcomeAgrees := by
  intro h
  have hagrees := h {} _ revivedRow (reachable_after lateCallback_enabled) (by decide +kernel)
  obtain ⟨hreason, -⟩ := hagrees.completed rfl
  cases hreason

/-- A callback attaches this receipt only where no other payment has it. -/
def attachesOnce (receipt : String) (w : World) : Action → Bool
  | .write i link =>
    link = .down ||
      match w.tasks i with
      | some (.callback cb (.apply pid)) =>
        !cb.isSuccess || !cb.fits ||
          PaymentsTable.receiptParameter (cb.details.get "MpesaReceiptNumber") ≠
            some (some receipt) ||
          w.payments.rows.all fun p => p.id = pid || p.mpesaReceipt ≠ some receipt
      | _ => true
  | _ => true

/-- At most one row holds the receipt. -/
def HeldOnce (receipt : String) (t : PaymentsTable) : Prop :=
  ∀ ⦃p q⦄, p ∈ t.rows → q ∈ t.rows → p.mpesaReceipt = some receipt →
    q.mpesaReceipt = some receipt → p = q

/-- A step attaches the receipt to the payment with this identifier. -/
structure Attaches (receipt : String) (w : World) (a : Action) (pid : UUID) : Prop where
  write : ∃ i link cb, a = .write i link ∧ link ≠ .down ∧
    w.tasks i = some (.callback cb (.apply pid)) ∧ cb.isSuccess = true ∧ cb.fits = true ∧
      PaymentsTable.receiptParameter (cb.details.get "MpesaReceiptNumber") = some (some receipt)

/-- Only a completion sets a receipt. -/
theorem RowChange.receipt_cases (h : RowChange w a w' p q) (hp : p ∈ w.payments.rows)
    (hq : q.mpesaReceipt = some receipt) :
    p.mpesaReceipt = some receipt ∨ Attaches receipt w a p.id := by
  cases h with
  | completed ha hlink hi ht hcode hreceipt hpaid =>
    cases hq
    have hfits := (applyOutcome_isSome_iff w.now hp).mp (by rw [ht]; rfl)
    exact Or.inr ⟨_, _, _, ha, hlink, hi, by simp [STKCallbackBody.isSuccess, hcode], hfits,
      hreceipt⟩
  | kept | failed | identified | declined | expired => exact Or.inl hq

theorem Attaches.unique {pid pid' : UUID} (h : Attaches receipt w a pid)
    (h' : Attaches receipt w a pid') : pid = pid' := by
  obtain ⟨i, link, cb, rfl, -, hi, -⟩ := h
  obtain ⟨i', link', cb', ha, -, hi', -⟩ := h'
  cases ha
  cases hi.symm.trans hi'
  rfl

theorem Attaches.id_eq {pid : UUID} (h : Attaches receipt w a pid)
    (hok : attachesOnce receipt w a = true) (hp : p ∈ w.payments.rows)
    (hr : p.mpesaReceipt = some receipt) : p.id = pid := by
  obtain ⟨i, link, cb, rfl, hlink, hi, hsuccess, hfits, hreceipt⟩ := h
  simp only [attachesOnce, hlink, hi, hsuccess, hfits, hreceipt, ne_eq, not_true_eq_false,
    decide_false, Bool.not_true, Bool.false_or, List.all_eq_true] at hok
  have hfree := hok p hp
  simpa [hr] using hfree

theorem heldOnce_step (hh : HeldOnce receipt w.payments) (hok : attachesOnce receipt w a = true)
    (h : Move settings w a w') : HeldOnce receipt w'.payments := by
  intro q₁ q₂ hq₁ hq₂ hr₁ hr₂
  apply w'.payments.eq_of_id_eq hq₁ hq₂
  cases h.row_cases hq₁ with
  | created hi ht hlog => cases hr₁
  | changed hp₁ hchange₁ =>
    cases h.row_cases hq₂ with
    | created hi ht hlog => cases hr₂
    | changed hp₂ hchange₂ =>
      rw [hchange₁.sameIdentity.id, hchange₂.sameIdentity.id]
      rcases hchange₁.receipt_cases hp₁ hr₁ with hheld₁ | hnew₁
      · rcases hchange₂.receipt_cases hp₂ hr₂ with hheld₂ | hnew₂
        · rw [hh hp₁ hp₂ hheld₁ hheld₂]
        · exact hnew₂.id_eq hok hp₁ hheld₁
      · rcases hchange₂.receipt_cases hp₂ hr₂ with hheld₂ | hnew₂
        · exact (hnew₁.id_eq hok hp₂ hheld₂).symm
        · exact hnew₁.unique hnew₂

theorem heldOnce_init : HeldOnce receipt init.payments := by
  intro p q hp
  cases hp

/-- In a run that attaches a receipt only where no other payment has it, one row holds it. -/
theorem one_receipt_one_payment {as : List Action}
    (hok : Machine.Meets (step settings) (fun u a => attachesOnce receipt u a = true) init as)
    (hrun : Machine.run (step settings) init as = some w) : HeldOnce receipt w.payments := by
  refine Machine.run_invariant_of_meets (P := fun u => HeldOnce receipt u.payments)
    heldOnce_init ?_ hok hrun
  intro u a v _ hh hoku hstep
  exact heldOnce_step hh hoku (move_of_step hstep)

def anotherConfirmation (receipt : String) : List Action :=
  anotherInitiation 2 8 ++ delivery 3 (anotherCallback receipt)

theorem anotherConfirmation_enabled :
    (Machine.run (step {}) init
      (sampleConfirmation ++ anotherConfirmation "NLJ7RT61SW")).isSome = true := by
  decide +kernel

theorem one_receipt_one_payment_sample :
    HeldOnce "NLJ7RT61SV" (after {} _ anotherConfirmation_enabled).payments :=
  one_receipt_one_payment (by decide +kernel) (run_after anotherConfirmation_enabled)

theorem repeatedReceipt_enabled :
    (Machine.run (step {}) init
      (sampleConfirmation ++ anotherConfirmation "NLJ7RT61SV")).isSome = true := by
  decide +kernel

theorem receipt_held_twice :
    ¬ ∀ settings receipt w, Reachable settings w → HeldOnce receipt w.payments := by
  intro h
  have hheld := h {} "NLJ7RT61SV" _ (reachable_after repeatedReceipt_enabled)
  have hids : ∀ p ∈ (after {} _ repeatedReceipt_enabled).payments.rows,
      ∀ q ∈ (after {} _ repeatedReceipt_enabled).payments.rows,
        p.mpesaReceipt = some "NLJ7RT61SV" → q.mpesaReceipt = some "NLJ7RT61SV" → p.id = q.id := by
    intro p hp q hq hpr hqr
    rw [hheld hp hq hpr hqr]
  revert hids
  decide +kernel

end World
end DarajaWrapper
