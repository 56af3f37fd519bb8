import DarajaWrapper.System.Identifiers

/-!
# The lifecycle of a payment

Three writers set the status of a row by its identifier alone: the call that
created it, the callbacks that found it and the sweeps that selected it. None
looks at the status that the row has by then. What they keep of a COMPLETED row,
and what a FAILED or CANCELLED row rests on, is therefore a condition on the
steps in which they write.
-/

namespace DarajaWrapper

def Event.acceptsPayment (paymentId : UUID) : Event → Bool
  | .posted _ _ pid _ accepted => pid = paymentId && accepted.isSome
  | _ => false

/-- Daraja delivered a non-zero result for the push with this CheckoutRequestID. -/
def Event.declines (checkoutRequestId : String) : Event → Bool
  | .reported cb => cb.resultCode ≠ 0 && cb.checkoutRequestId = checkoutRequestId
  | _ => false

def Event.declinedIn (log : List Event) (paymentId : UUID) : Event → Bool
  | .posted _ _ pid _ accepted =>
    pid = paymentId && accepted.any fun ids => log.any (Event.declines ids.checkoutRequestId)
  | _ => false

/-- Daraja reported a non-zero result for the payment. -/
def declined (log : List Event) (paymentId : UUID) : Bool :=
  log.any (Event.declinedIn log paymentId)

/-- What entitles a row to be FAILED or CANCELLED: Daraja accepted no push for the payment, or
reported that it failed. -/
def evidence (log : List Event) (paymentId : UUID) : Bool :=
  !log.any (Event.acceptsPayment paymentId) || declined log paymentId

theorem declined_of_mem {log : List Event} {i : ℕ} {key : String} {pid : UUID}
    {reply : AttemptReply} {ids : DarajaIds} {cb : STKCallbackBody}
    (hposted : .posted i key pid reply (some ids) ∈ log) (hreported : .reported cb ∈ log)
    (hc : cb.checkoutRequestId = ids.checkoutRequestId) (hcode : cb.resultCode ≠ 0) :
    declined log pid = true := by
  have hdeclines : log.any (Event.declines ids.checkoutRequestId) = true :=
    List.any_eq_true.mpr ⟨_, hreported, by simp [Event.declines, hc, hcode]⟩
  exact List.any_eq_true.mpr ⟨_, hposted, by simp [Event.declinedIn, hdeclines]⟩

theorem declined_cons {log : List Event} {pid : UUID} (h : declined log pid = true) (e : Event) :
    declined (e :: log) pid = true := by
  obtain ⟨e', he', hdeclined⟩ := List.any_eq_true.mp h
  refine List.any_eq_true.mpr ⟨e', List.mem_cons_of_mem e he', ?_⟩
  cases e' with
  | posted i key pid' reply accepted =>
    cases accepted with
    | none => simp [Event.declinedIn] at hdeclined
    | some ids =>
      simp only [Event.declinedIn, Option.any_some, List.any_cons, Bool.and_eq_true,
        Bool.or_eq_true] at hdeclined ⊢
      exact ⟨hdeclined.1, Or.inr hdeclined.2⟩
  | _ => cases hdeclined

theorem evidence_of_declined {log : List Event} {pid : UUID} (h : declined log pid = true) :
    evidence log pid = true := by
  rw [evidence, h, Bool.or_true]

def PaymentStatus.unsuccessful (status : PaymentStatus) : Bool :=
  status = .failed || status = .cancelled

/-- A success callback that says what the row already says. -/
def STKCallbackBody.repeats (cb : STKCallbackBody) (p : Payment) : Bool :=
  cb.isSuccess &&
    PaymentsTable.receiptParameter (cb.details.get "MpesaReceiptNumber") = some p.mpesaReceipt &&
    PaymentsTable.amountPaidParameter (cb.details.get "Amount") = some p.amountPaid

namespace World

variable {settings : Settings} {w w' : World} {a : Action} {i client : ℕ}
  {r : STKPushInitiateRequest} {pid : UUID} {p q : Payment}

/-- No sweep and no conflicting callback writes to the payment while it is COMPLETED. -/
def keepsConfirmed (id : UUID) (w : World) : Action → Bool
  | .write i link =>
    link = .down ||
      match w.tasks i with
      | some (.callback cb (.apply pid)) =>
        pid ≠ id || !cb.fits || w.payments.rows.all fun p =>
          p.id ≠ id || p.status ≠ .completed || cb.repeats p
      | some (.sweep (.rows (row :: _))) =>
        row.id ≠ id || row.hasReceipt || w.payments.rows.all fun p =>
          p.id ≠ id || p.status ≠ .completed
      | _ => true
  | _ => true

/-- `q` confirms the payment as `p` does. -/
def Confirms (p q : Payment) : Prop :=
  q.id = p.id ∧ q.status = .completed ∧ q.mpesaReceipt = p.mpesaReceipt ∧
    q.amountPaid = p.amountPaid

/-- A COMPLETED row was matched by a callback, so it has a CheckoutRequestID. -/
def CompletedIdentified (w : World) : Prop :=
  ∀ ⦃p⦄, p ∈ w.payments.rows → p.status = .completed → p.checkoutRequestId ≠ none

theorem completedIdentified_step (hc : CompletedIdentified w) (m : Matched w)
    (h : Move settings w a w') : CompletedIdentified w' := by
  intro q hq hs
  cases h.row_cases hq with
  | created hi ht hlog => cases hs
  | changed hp hchange =>
    cases hchange with
    | kept => exact hc hp hs
    | failed ha hlink hi => cases hs
    | identified ha hlink hi hi' => simp [Payment.withDarajaIds]
    | completed ha hlink hi =>
      simp only [Payment.withCompletion, m.checkoutRequestId_eq hi hp]
      simp
    | declined ha hlink hi ht hcode =>
      exact absurd hs (Payment.failureStatus_ne _ (by decide) (by decide))
    | expired ha hlink hi => cases hs

theorem completedIdentified_init : CompletedIdentified init := by
  intro p hp
  cases hp

theorem Reachable.completedIdentified (h : Reachable settings w) : CompletedIdentified w := by
  apply Machine.Reachable.invariant h completedIdentified_init
  intro u a v hu hc hstep
  exact completedIdentified_step hc (Reachable.matched hu) (move_of_step hstep)

theorem repeats_of_keepsConfirmed {link : Link} {cb : STKCallbackBody}
    (hok : keepsConfirmed p.id w (.write i link) = true) (hlink : link ≠ .down)
    (hi : w.tasks i = some (.callback cb (.apply p.id)))
    (ht : applyOutcome w.now w.payments p.id cb = some w'.payments) (hp : p ∈ w.payments.rows)
    (hs : p.status = .completed) : cb.repeats p = true := by
  have hfits : cb.fits = true := (applyOutcome_isSome_iff w.now hp).mp (by rw [ht]; rfl)
  simp only [keepsConfirmed, hi, hlink, hfits, ne_eq, not_true_eq_false, decide_false,
    Bool.not_true, Bool.false_or, List.all_eq_true] at hok
  simpa [hs] using hok p hp

theorem confirms_step (hw : Reachable settings w) (hok : keepsConfirmed p.id w a = true)
    (h : Move settings w a w') (hp : p ∈ w.payments.rows) (hs : p.status = .completed) :
    ∃ q ∈ w'.payments.rows, Confirms p q := by
  obtain ⟨q, hq, hchange⟩ := h.row_next hp
  refine ⟨q, hq, hchange.sameIdentity.id, ?_⟩
  cases hchange with
  | kept => exact ⟨hs, rfl, rfl⟩
  | failed ha hlink hi =>
    -- the row of a call that has not stored identifiers is not COMPLETED
    obtain ⟨hnone, -⟩ := hw.blank hi rfl (by simp [InitiatePc.stage]) hp rfl
    exact absurd hnone (hw.completedIdentified hp hs)
  | identified ha hlink hi hi' => exact ⟨hs, rfl, rfl⟩
  | completed ha hlink hi ht hcode hreceipt hpaid =>
    have hrepeats := repeats_of_keepsConfirmed (ha ▸ hok) hlink hi ht hp hs
    simp only [STKCallbackBody.repeats, hreceipt, hpaid, Bool.and_eq_true, decide_eq_true_eq,
      Option.some.injEq] at hrepeats
    exact ⟨rfl, hrepeats.1.2, hrepeats.2⟩
  | declined ha hlink hi ht hcode =>
    have hrepeats := repeats_of_keepsConfirmed (ha ▸ hok) hlink hi ht hp hs
    simp [STKCallbackBody.repeats, STKCallbackBody.isSuccess, hcode] at hrepeats
  | expired ha hlink hi hid hreceipt =>
    simp only [ha, keepsConfirmed, hi, hid, hreceipt, hlink, ne_eq, not_true_eq_false,
      decide_false, Bool.false_or, List.all_eq_true] at hok
    have hfree := hok p hp
    simp [hs] at hfree

theorem Confirms.trans {s : Payment} (hpq : Confirms p q) (hqs : Confirms q s) : Confirms p s :=
  ⟨hqs.1.trans hpq.1, hqs.2.1, hqs.2.2.1.trans hpq.2.2.1, hqs.2.2.2.trans hpq.2.2.2⟩

/-- From any reachable state, a run that writes to a COMPLETED payment only what its row says
keeps its status, receipt and amount. -/
theorem confirmed_stays_confirmed {as : List Action} (hw : Reachable settings w)
    (hp : p ∈ w.payments.rows) (hs : p.status = .completed)
    (hok : Machine.Meets (step settings) (fun u a => keepsConfirmed p.id u a = true) w as)
    (hrun : Machine.run (step settings) w as = some w') :
    ∃ q ∈ w'.payments.rows, Confirms p q := by
  refine Machine.run_relation_of_meets
    (R := fun u v => ∀ q ∈ u.payments.rows, q.id = p.id → q.status = .completed →
      ∃ q' ∈ v.payments.rows, Confirms q q')
    ?_ ?_ ?_ hw hok hrun p hp rfl hs
  · intro u q hq _ hs
    exact ⟨q, hq, rfl, hs, rfl, rfl⟩
  · intro t u v htu huv q hq hid hs
    obtain ⟨q', hq', hqq'⟩ := htu q hq hid hs
    obtain ⟨q'', hq'', hqq''⟩ := huv q' hq' (hqq'.1.trans hid) hqq'.2.1
    exact ⟨q'', hq'', hqq'.trans hqq''⟩
  · intro u a v hu hoku hstep q hq hid hs
    rw [← hid] at hoku
    exact confirms_step hu hoku (move_of_step hstep) hq hs

def redelivery : List Action :=
  .expireDedup sampleIds.checkoutRequestId :: delivery 2 sampleCallback

theorem redelivery_enabled :
    (Machine.run (step {}) init (sampleConfirmation ++ redelivery)).isSome = true := by
  decide +kernel

def confirmedRow : Payment where
  __ := newPayment sampleRequest 7 0
  status := .completed
  checkoutRequestId := some sampleIds.checkoutRequestId
  merchantRequestId := some sampleIds.merchantRequestId
  mpesaReceipt := some "NLJ7RT61SV"
  amountPaid := some (.value 500)
  mpesaTransactionDate := some ⟨2026, 4, 10, 13, 35, 40⟩

theorem confirmed_stays_confirmed_sample :
    ∃ q ∈ (after {} _ redelivery_enabled).payments.rows, Confirms confirmedRow q :=
  confirmed_stays_confirmed (reachable_after sampleConfirmation_enabled) (by decide +kernel) rfl
    (by decide +kernel) (run_after_append sampleConfirmation_enabled redelivery_enabled)

/-- A callback that arrives between the SELECT of a sweep and its UPDATE. -/
def callbackWithinSweep : List Action :=
  sampleInitiation 0 7 ++ [.tick 700, .startSweep 1, .select 1 [7] .up] ++
    delivery 2 sampleCallback

theorem callbackWithinSweep_enabled :
    (Machine.run (step {}) init callbackWithinSweep).isSome = true := by decide +kernel

theorem sweepWrite_enabled :
    (Machine.run (step {}) init (callbackWithinSweep ++ [.write 1 .up])).isSome = true := by
  decide +kernel

theorem sweep_fails_confirmed_payment :
    ¬ ∀ settings as bs w w', Machine.run (step settings) init as = some w →
      Machine.run (step settings) w bs = some w' →
        ∀ p ∈ w.payments.rows, p.status = .completed → ∃ q ∈ w'.payments.rows, Confirms p q := by
  intro h
  obtain ⟨q, hq, -, hs, -⟩ := h {} _ _ _ _ (run_after callbackWithinSweep_enabled)
    (run_after_append callbackWithinSweep_enabled sweepWrite_enabled)
    { confirmedRow with updatedAt := 700 } (by decide +kernel) rfl
  have hfailed : ∀ q ∈ (after {} _ sweepWrite_enabled).payments.rows, q.status = .failed := by
    decide +kernel
  rw [hfailed q hq] at hs
  cases hs

/-- A call that gives up and a sweep write to this payment only on evidence, its CheckoutRequestID
is stored whole, and Daraja accepts no push for it once it has failed without its doing. -/
def failsOnEvidence (id : UUID) (w : World) : Action → Bool
  | .write i link =>
    link = .down ||
      match w.tasks i with
      | some (.initiate _ _ (.markFailed pid _)) => pid ≠ id || evidence w.log id
      | some (.initiate _ _ (.updateIds pid result)) =>
        pid ≠ id || storesWhole 100 result.checkoutRequestId
      | some (.sweep (.rows (row :: _))) => row.id ≠ id || row.hasReceipt || evidence w.log id
      | _ => true
  | .attempt i _ (some _) =>
    match w.tasks i with
    | some (.initiate _ _ (.posting pid _)) =>
      pid ≠ id || declined w.log id || w.payments.rows.all fun p =>
        p.id ≠ id || !p.status.unsuccessful
    | _ => true
  | _ => true

/-- The CheckoutRequestID of the payment is one that Daraja issued for it; and if the payment is
FAILED or CANCELLED, that rests on evidence. -/
structure FailuresRest (id : UUID) (w : World) : Prop where
  issued : ∀ ⦃p c⦄, p ∈ w.payments.rows → p.id = id → p.checkoutRequestId = some c →
    ∃ i key reply ids, .posted i key id reply (some ids) ∈ w.log ∧ ids.checkoutRequestId = c
  rests : ∀ ⦃p⦄, p ∈ w.payments.rows → p.id = id → p.status.unsuccessful = true →
    evidence w.log id = true

/-- Evidence stays, unless this step accepts a push for the payment. -/
theorem evidence_step (h : Move settings w a w') (he : evidence w.log pid = true)
    (hnew : ∀ i key reply ids, Logs settings w a w' (.posted i key pid reply (some ids)) →
      declined w.log pid = true) : evidence w'.log pid = true := by
  rcases h.log_cases with hl | ⟨e, hl, hlogs⟩
  · rwa [hl]
  · rw [hl]
    by_cases haccepts : e.acceptsPayment pid = true
    · cases e with
      | posted i key pid' reply accepted =>
        simp only [Event.acceptsPayment, Bool.and_eq_true, decide_eq_true_eq] at haccepts
        obtain ⟨rfl, hsome⟩ := haccepts
        obtain ⟨ids, rfl⟩ := Option.isSome_iff_exists.mp hsome
        exact evidence_of_declined (declined_cons (hnew i key reply ids hlogs) _)
      | _ => cases haccepts
    · simp only [evidence, Bool.or_eq_true] at he
      rcases he with hnone | hdeclined
      · simpa [evidence, haccepts] using Or.inl hnone
      · exact evidence_of_declined (declined_cons hdeclined e)

theorem evidence_of_write {link : Link} (h : Move settings w a w') (ha : a = .write i link)
    (he : evidence w.log pid = true) : evidence w'.log pid = true := by
  refine evidence_step h he fun j key reply ids hlogs => ?_
  cases hlogs with
  | posted ha' => cases ha.symm.trans ha'

/-- A callback that is applied with a non-zero code reports on a push that Daraja accepted. -/
theorem declined_of_callback {cb : STKCallbackBody} (hw : Reachable settings w)
    (hf : FailuresRest p.id w) (hi : w.tasks i = some (.callback cb (.apply p.id)))
    (hp : p ∈ w.payments.rows) (hcode : cb.resultCode ≠ 0) : declined w.log p.id = true := by
  have hc := hw.matched.checkoutRequestId_eq hi hp
  obtain ⟨j, key, reply, ids, hposted, hids⟩ := hf.issued hp rfl hc
  exact declined_of_mem hposted (hw.matched.reported hi) hids.symm hcode

theorem declined_of_posted {key : String} {reply : AttemptReply} {ids : DarajaIds}
    (hok : failsOnEvidence pid w a = true) (hp : p ∈ w.payments.rows) (hid : p.id = pid)
    (hs : p.status.unsuccessful = true)
    (hlogs : Logs settings w a w' (.posted i key pid reply (some ids))) :
    declined w.log pid = true := by
  cases hlogs with
  | posted ha hsent hagrees hi hi' =>
    simp only [ha, failsOnEvidence, hi, ne_eq, not_true_eq_false, decide_false, Bool.false_or,
      Bool.or_eq_true, List.all_eq_true] at hok
    refine hok.resolve_right fun hall => ?_
    have hfree := hall p hp
    simp [hid, hs] at hfree

theorem FailuresRest.issued_step {c : String} (hf : FailuresRest pid w)
    (hw : Reachable settings w) (hok : failsOnEvidence pid w a = true) (h : Move settings w a w')
    (hq : q ∈ w'.payments.rows) (hid : q.id = pid) (hc : q.checkoutRequestId = some c) :
    ∃ i key reply ids, .posted i key pid reply (some ids) ∈ w'.log ∧
      ids.checkoutRequestId = c := by
  cases h.row_cases hq with
  | created hi ht hlog => cases hc
  | changed hp hchange =>
    rw [hchange.sameIdentity.id] at hid
    cases hchange with
    | identified ha hlink hi hi' hcut hcut' =>
      cases hc
      subst hid
      simp only [ha, failsOnEvidence, hi, hlink, ne_eq, not_true_eq_false, decide_false,
        Bool.false_or] at hok
      obtain ⟨reply, hposted⟩ := hw.issued hi
      exact ⟨_, _, reply, _, h.log_mono hposted, (eq_of_storesWhole hok hcut).symm⟩
    | kept | failed | completed | declined | expired =>
      obtain ⟨i, key, reply, ids, hposted, hids⟩ := hf.issued hp hid hc
      exact ⟨i, key, reply, ids, h.log_mono hposted, hids⟩

theorem FailuresRest.rests_step (hf : FailuresRest pid w) (hw : Reachable settings w)
    (hok : failsOnEvidence pid w a = true) (h : Move settings w a w')
    (hq : q ∈ w'.payments.rows) (hid : q.id = pid) (hs : q.status.unsuccessful = true) :
    evidence w'.log pid = true := by
  cases h.row_cases hq with
  | created hi ht hlog => cases hs
  | changed hp hchange =>
    rw [hchange.sameIdentity.id] at hid
    subst hid
    cases hchange with
    | kept | identified =>
      exact evidence_step h (hf.rests hp rfl hs) fun i key reply ids hlogs =>
        declined_of_posted hok hp rfl hs hlogs
    | failed ha hlink hi =>
      simp only [ha, failsOnEvidence, hi, hlink, ne_eq, not_true_eq_false, decide_false,
        Bool.false_or] at hok
      exact evidence_of_write h ha hok
    | completed ha hlink hi => cases hs
    | declined ha hlink hi ht hcode =>
      have hdeclined := declined_of_callback hw hf hi hp hcode
      exact evidence_of_write h ha (evidence_of_declined hdeclined)
    | expired ha hlink hi hrow hreceipt =>
      simp only [ha, failsOnEvidence, hi, hrow, hreceipt, hlink, ne_eq, not_true_eq_false,
        decide_false, Bool.false_or] at hok
      exact evidence_of_write h ha hok

theorem failuresRest_init : FailuresRest pid init where
  issued _ _ hp := by cases hp
  rests _ hp := by cases hp

/-- In a run that fails a payment only on evidence, its row is FAILED or CANCELLED only then. -/
theorem failures_rest_on_evidence {as : List Action}
    (hok : Machine.Meets (step settings) (fun u a => failsOnEvidence p.id u a = true) init as)
    (hrun : Machine.run (step settings) init as = some w) (hp : p ∈ w.payments.rows)
    (hs : p.status.unsuccessful = true) : evidence w.log p.id = true := by
  have hf : FailuresRest p.id w := by
    refine Machine.run_invariant_of_meets failuresRest_init ?_ hok hrun
    intro u a v hu hf hoku hstep
    have hmove := move_of_step hstep
    exact
      { issued := fun _ _ hq hid hc => hf.issued_step hu hoku hmove hq hid hc
        rests := fun _ hq hid hs => hf.rests_step hu hoku hmove hq hid hs }
  exact hf.rests hp rfl hs

def cancellation : List Action :=
  sampleInitiation 0 7 ++
    delivery 1 { sampleCallback with
      resultCode := 1032, resultDesc := "Request cancelled by user.", callbackMetadata := none }

theorem cancellation_enabled : (Machine.run (step {}) init cancellation).isSome = true := by
  decide +kernel

def cancelledRow : Payment where
  __ := newPayment sampleRequest 7 0
  status := .cancelled
  checkoutRequestId := some sampleIds.checkoutRequestId
  merchantRequestId := some sampleIds.merchantRequestId
  failureReason := some "Request cancelled by user."
  resultCode := some 1032

theorem failures_rest_on_evidence_sample :
    evidence (after {} _ cancellation_enabled).log cancelledRow.id = true :=
  failures_rest_on_evidence (by decide +kernel) (run_after cancellation_enabled)
    (by decide +kernel) rfl

/-- An acknowledged push whose callback has not come, and the sweep. -/
def sweepBeforeCallback : List Action :=
  sampleInitiation 0 7 ++
    [.tick 700, .startSweep 1, .select 1 [7] .up, .write 1 .up]

theorem sweepBeforeCallback_enabled :
    (Machine.run (step {}) init sweepBeforeCallback).isSome = true := by decide +kernel

theorem sweep_fails_accepted_payment :
    ¬ ∀ settings w p, Reachable settings w → p ∈ w.payments.rows →
      p.status.unsuccessful = true → evidence w.log p.id = true := by
  intro h
  have hall := fun p => h {} _ p (reachable_after sweepBeforeCallback_enabled)
  have hnone : ¬ ∀ p ∈ (after {} _ sweepBeforeCallback_enabled).payments.rows,
      p.status.unsuccessful = true →
        evidence (after {} _ sweepBeforeCallback_enabled).log p.id = true := by
    decide +kernel
  exact hnone hall

end World
end DarajaWrapper
