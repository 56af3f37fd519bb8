import DarajaWrapper.Routes.Status
import DarajaWrapper.System.Cache
import DarajaWrapper.System.Outcome

/-!
# Polling for the outcome

A client polls with the identifier that it was given while calls, callbacks and sweeps go
on. Whatever response a call has returned, it names a row, and rows stay: so from then on a
poll that reaches the database is answered with 200 and shows the payment of the key.
-/

namespace DarajaWrapper

open Python

namespace World

variable {settings : Settings} {uuidOf : String → Option UUID} {timeText : ℚ → String}
  {w w' : World} {a : Action} {i client : ℕ} {r : STKPushInitiateRequest} {pc : InitiatePc}
  {outcome : InitiateOutcome} {response : STKPushInitiateResponse} {text : String} {pid : UUID}

def member (answer : JSONResponse) (name : String) : Option Json :=
  match answer.content with
  | .obj kvs => kvs.lookup name
  | _ => none

/-- The answer shows the payment that was created for this request. -/
structure ShowsPayment (answer : JSONResponse) (r : STKPushInitiateRequest) (pid : UUID) :
    Prop where
  found : answer.statusCode = 200
  paymentId : member answer "payment_id" = some (.str pid.str)
  phone : member answer "phone" = some (.str r.phoneNumber)
  accountReference : member answer "account_reference" = some (.str r.accountReference)
  amount : ∃ text, member answer "amount" = some (.str text) ∧
    decimalOfString text = some (.finite r.amount)
  status : ∃ status ∈ ["pending", "completed", "failed", "cancelled"],
    member answer "status" = some (.str status)

/-- The answer shows a payment that is no longer pending. -/
def ShowsSettled (answer : JSONResponse) : Prop :=
  ∃ status, member answer "status" = some (.str status) ∧ status ≠ "pending"

theorem amount_columns {t : PaymentsTable} {p : Payment} (hp : p ∈ t.rows) :
    0 < p.amount ∧ (p.amount * 10000).den = 1 ∧ p.amount < 10 ^ 15 := by
  have hcolumns := t.constraints.columns p hp
  simp only [Payment.columnsOk, Bool.and_eq_true, decide_eq_true_eq] at hcolumns
  exact ⟨hcolumns.1.2, hcolumns.1.1.1.2, hcolumns.1.1.2⟩

theorem showsPayment_of_row (hw : Reachable settings w) (hid : uuidOf text = some pid)
    (hcreated : .created i r pid ∈ w.log) :
    ShowsPayment (getPaymentStatus uuidOf timeText w.payments .up text) r pid := by
  obtain ⟨createdAt, p, hp, hsame⟩ := hw.ownership.row hcreated
  rw [getPaymentStatus_of_row hid hp hsame.id]
  obtain ⟨hpos, hplaces, hlt⟩ := amount_columns hp
  have hamount : p.amount = r.amount := hsame.amount
  refine ⟨rfl, ?_, ?_, ?_, ⟨amountText p.amount, rfl, ?_⟩, ⟨p.status.value, ?_, rfl⟩⟩
  · rw [← show p.id = pid from hsame.id]
    rfl
  · rw [← show p.phone = r.phoneNumber from hsame.phone]
    rfl
  · rw [← show p.accountReference = r.accountReference from hsame.accountReference]
    rfl
  · rw [← hamount]
    exact decimalOfString_amountText hpos hplaces hlt
  · cases hs : p.status with
    | reversed => exact absurd hs (hw.neverReversed hp)
    | pending | completed | failed | cancelled => decide

theorem showsSettled_iff {p : Payment} (hid : uuidOf text = some p.id)
    (hp : p ∈ w.payments.rows) :
    ShowsSettled (getPaymentStatus uuidOf timeText w.payments .up text) ↔ p.status ≠ .pending := by
  have hstatus : member (getPaymentStatus uuidOf timeText w.payments .up text) "status" =
      some (.str p.status.value) := by
    rw [getPaymentStatus_of_row hid hp rfl]
    rfl
  constructor
  · rintro ⟨status, hmember, hne⟩ hs
    rw [hstatus, hs] at hmember
    cases hmember
    exact hne rfl
  · intro hs
    exact ⟨_, hstatus, fun heq => hs (PaymentStatus.value_injective heq)⟩

def Names (t : PaymentsTable) (key : String) (pid : UUID) : Prop :=
  ∃ p ∈ t.rows, p.idempotencyKey = key ∧ p.id = pid

theorem Names.step {key : String} (hn : Names w.payments key pid) (h : Move settings w a w') :
    Names w'.payments key pid := by
  obtain ⟨p, hp, hkey, hid⟩ := hn
  obtain ⟨q, hq, hchange⟩ := h.row_next hp
  have hsame := hchange.sameIdentity
  exact ⟨q, hq, hsame.idempotencyKey.trans hkey, hsame.id.trans hid⟩

/-- Every response that a call has or will return names a row with the key of its request. -/
def ResponsesNamed (w : World) : Prop :=
  ∀ ⦃i client r pc outcome response⦄, w.tasks i = some (.initiate client r pc) →
    pc.outcome? = some outcome → outcome.response? = some response →
      Names w.payments r.idempotencyKey response.paymentId

theorem responsesNamed_init : ResponsesNamed init := by
  intro i client r pc outcome response hi
  cases hi

theorem responsesNamed_step (hw : Reachable settings w) (hn : ResponsesNamed w)
    (h : Move settings w a w') : ResponsesNamed w' := by
  have hcoherent := hw.coherent
  have hserved : ∀ {key response}, Recorded w.payments key response →
      Names w'.payments key response.paymentId := by
    intro key response hrecorded
    obtain ⟨p, hp, hkey, hid, -⟩ := hrecorded
    have hnames : Names w.payments key response.paymentId := ⟨p, hp, hkey, hid⟩
    exact hnames.step h
  intro i client r pc outcome response hi' hpc hresponse
  rcases h.initiate_cases hi' with hi | hmove
  · exact (hn hi hpc hresponse).step h
  · cases hmove with
    | cacheHit hi hidem =>
      cases hpc
      cases hresponse
      exact hserved (hcoherent (.cache hidem))
    | cached hi =>
      cases hpc
      cases hresponse
      exact hserved (hcoherent (.stored hi rfl))
    | answered hi ha hfails hfound hstatus =>
      cases hpc
      cases hresponse
      obtain ⟨hp, hkey⟩ := PaymentsTable.getByIdempotencyKey_eq_some.mp hfound
      have hnames : Names w.payments r.idempotencyKey _ := ⟨_, hp, hkey, rfl⟩
      exact hnames.step h
    | released hi =>
      cases hpc
      exact (hn hi rfl hresponse).step h
    | lockRefused | lookupFailed | createFailed | callRaised | failed | idsFailed =>
      cases hpc
      cases hresponse
    | _ => cases hpc

theorem Reachable.responsesNamed (h : Reachable settings w) : ResponsesNamed w := by
  apply Machine.Reachable.invariant h responsesNamed_init
  intro u a v hu hn hstep
  exact responsesNamed_step hu hn (move_of_step hstep)

/-- What a call has returned names the payment that was created for its key. -/
theorem created_of_returned {key : String} (hw : Reachable settings w)
    (h : w.returned? i = some (key, response)) :
    ∃ j request, .created j request response.paymentId ∈ w.log ∧ request.idempotencyKey = key := by
  obtain ⟨client, r, outcome, hi, rfl, hresponse⟩ := returned_eq_some h
  obtain ⟨p, hp, hkey, hid⟩ := hw.responsesNamed hi rfl hresponse
  obtain ⟨j, request, hcreated⟩ := hw.ownership.origin hp
  rw [hid] at hcreated
  refine ⟨j, request, hcreated, ?_⟩
  obtain ⟨createdAt, q, hq, hsame⟩ := hw.ownership.row hcreated
  obtain rfl : q = p := w.payments.eq_of_id_eq hq hp (hsame.id.trans hid.symm)
  exact hsame.idempotencyKey.symm.trans hkey

theorem poll_cases (w : World) (uuidOf : String → Option UUID) (link : Link) (text : String) :
    (uuidOf text = none ∨ link ≠ .up) ∨
      (link = .up ∧ ∃ pid, uuidOf text = some pid ∧ ∀ i r, .created i r pid ∉ w.log) ∨
        link = .up ∧ ∃ pid i r, uuidOf text = some pid ∧ .created i r pid ∈ w.log := by
  by_cases hlink : link = .up
  · cases hid : uuidOf text with
    | none => exact Or.inl (Or.inl rfl)
    | some pid =>
      by_cases hcreated : ∃ i r, .created i r pid ∈ w.log
      · obtain ⟨i, r, hcreated⟩ := hcreated
        exact Or.inr (Or.inr ⟨hlink, pid, i, r, rfl, hcreated⟩)
      · push Not at hcreated
        exact Or.inr (Or.inl ⟨hlink, pid, rfl, hcreated⟩)
  · exact Or.inl (Or.inr hlink)

/-- A poll is answered with 500 where the identifier cannot be read or the database is not
reached, with 404 where no payment of this identifier was created, and with 200 where one was;
then it shows that payment. -/
theorem poll_answered (hw : Reachable settings w) (uuidOf : String → Option UUID)
    (timeText : ℚ → String) (link : Link) (text : String) :
    ((getPaymentStatus uuidOf timeText w.payments link text).statusCode = 500 ↔
      uuidOf text = none ∨ link ≠ .up) ∧
    ((getPaymentStatus uuidOf timeText w.payments link text).statusCode = 404 ↔
      link = .up ∧ ∃ pid, uuidOf text = some pid ∧ ∀ i r, .created i r pid ∉ w.log) ∧
    ((getPaymentStatus uuidOf timeText w.payments link text).statusCode = 200 ↔
      link = .up ∧ ∃ pid i r, uuidOf text = some pid ∧ .created i r pid ∈ w.log) ∧
    ∀ pid i r, link = .up → uuidOf text = some pid → .created i r pid ∈ w.log →
      ShowsPayment (getPaymentStatus uuidOf timeText w.payments link text) r pid := by
  have hshows : ∀ pid i r, link = .up → uuidOf text = some pid → .created i r pid ∈ w.log →
      ShowsPayment (getPaymentStatus uuidOf timeText w.payments link text) r pid := by
    rintro pid i r rfl hid hcreated
    exact showsPayment_of_row hw hid hcreated
  have herror : (uuidOf text = none ∨ link ≠ .up) →
      (getPaymentStatus uuidOf timeText w.payments link text).statusCode = 500 := by
    intro h
    rw [getPaymentStatus_of_error h]
    rfl
  have hmissing : (link = .up ∧ ∃ pid, uuidOf text = some pid ∧
      ∀ i r, .created i r pid ∉ w.log) →
        (getPaymentStatus uuidOf timeText w.payments link text).statusCode = 404 := by
    rintro ⟨rfl, pid, hid, hnone⟩
    have hrows : ∀ p ∈ w.payments.rows, p.id ≠ pid := by
      rintro p hp rfl
      obtain ⟨i, r, hcreated⟩ := hw.ownership.origin hp
      exact hnone i r hcreated
    rw [getPaymentStatus_of_no_row hid hrows]
  have hfound : (link = .up ∧ ∃ pid i r, uuidOf text = some pid ∧ .created i r pid ∈ w.log) →
      (getPaymentStatus uuidOf timeText w.payments link text).statusCode = 200 := by
    rintro ⟨hlink, pid, i, r, hid, hcreated⟩
    exact (hshows pid i r hlink hid hcreated).found
  refine ⟨⟨?_, herror⟩, ⟨?_, hmissing⟩, ⟨?_, hfound⟩, hshows⟩
  · intro h
    rcases poll_cases w uuidOf link text with hcase | hcase | hcase
    · exact hcase
    · cases h.symm.trans (hmissing hcase)
    · cases h.symm.trans (hfound hcase)
  · intro h
    rcases poll_cases w uuidOf link text with hcase | hcase | hcase
    · cases h.symm.trans (herror hcase)
    · exact hcase
    · cases h.symm.trans (hfound hcase)
  · intro h
    rcases poll_cases w uuidOf link text with hcase | hcase | hcase
    · cases h.symm.trans (herror hcase)
    · cases h.symm.trans (hmissing hcase)
    · exact hcase

theorem poll_answered_sample : ∃ r, ShowsPayment (getPaymentStatus UUID.ofText (fun _ => "")
    (after {} _ sampleUntilPost_enabled).payments .up (UUID.str 7)) r 7 := by
  have hw := reachable_after sampleUntilPost_enabled
  have hrow : newPayment sampleRequest 7 0 ∈
      (after {} _ sampleUntilPost_enabled).payments.rows := by decide +kernel
  obtain ⟨i, r, hcreated⟩ := hw.ownership.origin hrow
  exact ⟨r, (poll_answered hw UUID.ofText (fun _ => "") .up (UUID.str 7)).2.2.2 7 i r rfl
    (UUID.ofText_str 7) hcreated⟩

theorem settled_run {as : List Action} {p : Payment} (hw : Reachable settings w)
    (hrun : Machine.run (step settings) w as = some w') (hp : p ∈ w.payments.rows)
    (hs : p.status ≠ .pending) :
    ∃ q ∈ w'.payments.rows, q.id = p.id ∧ q.status ≠ .pending := by
  refine Machine.run_relation
    (R := fun u v => ∀ p ∈ u.payments.rows, p.status ≠ .pending →
      ∃ q ∈ v.payments.rows, q.id = p.id ∧ q.status ≠ .pending) ?_ ?_ ?_ hw hrun p hp hs
  · intro u p hp hs
    exact ⟨p, hp, rfl, hs⟩
  · intro t u v htu huv p hp hs
    obtain ⟨q, hq, hid, hsettled⟩ := htu p hp hs
    obtain ⟨q', hq', hid', hsettled'⟩ := huv q hq hsettled
    exact ⟨q', hq', hid'.trans hid, hsettled'⟩
  · intro u a v _ hstep p hp hs
    obtain ⟨q, hq, hchange⟩ := (move_of_step hstep).row_next hp
    exact ⟨q, hq, hchange.sameIdentity.id, hchange.status_ne_pending hs⟩

theorem mem_log_of_run {as : List Action} {e : Event} (hw : Reachable settings w)
    (hrun : Machine.run (step settings) w as = some w') (he : e ∈ w.log) : e ∈ w'.log := by
  refine Machine.run_relation (R := fun u v => e ∈ u.log → e ∈ v.log) ?_ ?_ ?_ hw hrun he
  · intro u he
    exact he
  · intro t u v htu huv he
    exact huv (htu he)
  · intro u a v _ hstep he
    exact (move_of_step hstep).log_mono he

/-- Where the database is reached, every poll with the identifier that a call has returned, now or
at the end of any run, shows the payment that was created for the key; and once a poll has shown
it settled, so do the later ones. -/
theorem returned_payment_polls {as : List Action} {key : String} (hw : Reachable settings w)
    (huuid : ∀ u : UUID, uuidOf u.str = some u) (timeText : ℚ → String)
    (h : w.returned? i = some (key, response))
    (hrun : Machine.run (step settings) w as = some w') :
    ∃ j request, .created j request response.paymentId ∈ w.log ∧ request.idempotencyKey = key ∧
      ShowsPayment (getPaymentStatus uuidOf timeText w.payments .up response.paymentId.str)
        request response.paymentId ∧
      ShowsPayment (getPaymentStatus uuidOf timeText w'.payments .up response.paymentId.str)
        request response.paymentId ∧
      (ShowsSettled (getPaymentStatus uuidOf timeText w.payments .up response.paymentId.str) →
        ShowsSettled
          (getPaymentStatus uuidOf timeText w'.payments .up response.paymentId.str)) := by
  obtain ⟨j, request, hcreated, hkey⟩ := created_of_returned hw h
  have hw' : Reachable settings w' := Machine.Reachable.run hw hrun
  have hid := huuid response.paymentId
  refine ⟨j, request, hcreated, hkey, showsPayment_of_row hw hid hcreated,
    showsPayment_of_row hw' hid (mem_log_of_run hw hrun hcreated), ?_⟩
  obtain ⟨createdAt, p, hp, hsame⟩ := hw.ownership.row hcreated
  have hpid : p.id = response.paymentId := hsame.id
  rw [← hpid] at hid ⊢
  rw [showsSettled_iff hid hp]
  intro hs
  obtain ⟨q, hq, hqid, hsettled⟩ := settled_run hw hrun hp hs
  rw [← hqid] at hid ⊢
  exact (showsSettled_iff hid hq).mpr hsettled

theorem returned_sampleInitiation :
    (after {} _ sampleInitiation_enabled).returned? 0 = some ("key-0001", sampleResponse) := by
  decide +kernel

theorem returned_payment_polls_sample :
    ∃ r, ShowsPayment (getPaymentStatus UUID.ofText (fun _ => "")
      (after {} _ sampleConfirmation_enabled).payments .up sampleResponse.paymentId.str) r
        sampleResponse.paymentId := by
  obtain ⟨j, request, -, -, -, hpoll, -⟩ := returned_payment_polls
    (reachable_after sampleInitiation_enabled) UUID.ofText_str (fun _ => "")
    returned_sampleInitiation
    (run_after_append sampleInitiation_enabled sampleConfirmation_enabled)
  exact ⟨request, hpoll⟩

end World
end DarajaWrapper
