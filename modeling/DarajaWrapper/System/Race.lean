import DarajaWrapper.System.Callback

/-!
# Callbacks that race with the initiation

Daraja may deliver the callback of a push before the call that made the push has
committed its identifiers. With healthy stores the first delivery takes the
deduplication key and every other one is ignored, so the payment is confirmed if
the one that took the key looks for the row after that commit.
-/

namespace DarajaWrapper

/-- The delivery took the deduplication key and can still apply, or has applied, the outcome. -/
def CallbackPc.winning : CallbackPc → Bool
  | lookup => true
  | apply _ => true
  | done .applied => true
  | _ => false

namespace World

variable {settings : Settings} {w w' : World} {a : Action} {i : ℕ} {c : String}
  {receipt : Option String} {cb : STKCallbackBody}

/-- Task `i` is a delivery for this CheckoutRequestID. -/
def delivers (w : World) (c : String) (i : ℕ) : Bool :=
  match w.tasks i with
  | some (.callback cb _) => cb.checkoutRequestId = c
  | _ => false

theorem delivers_of_task {pc : CallbackPc} (hi : w.tasks i = some (.callback cb pc))
    (hc : cb.checkoutRequestId = c) : w.delivers c i = true := by
  simp [delivers, hi, hc]

/-- What is delivered for `c` is the success callback with this receipt, the stores answer its
deliveries, which do not die, the deduplication key does not lapse, and no sweep takes the row.
Everything else may happen. -/
def deliversSuccess (c : String) (receipt : Option String) (w : World) : Action → Bool
  | .expireDedup c' => c' ≠ c
  | .startCallback _ cb =>
    cb.checkoutRequestId ≠ c || (cb.isSuccess &&
      PaymentsTable.receiptParameter (cb.details.get "MpesaReceiptNumber") = some receipt)
  | .redis i link => !w.delivers c i || link = .up
  | .query i link => !w.delivers c i || link = .up
  | .write i link =>
    match w.tasks i with
    | some (.sweep (.rows (row :: _))) =>
      w.payments.rows.all fun p => p.id ≠ row.id || p.checkoutRequestId ≠ some c
    | _ => !w.delivers c i || link = .up
  | .crash i => !w.delivers c i
  | _ => true

/-- A delivery for `c` looks for the row once its identifiers are committed, and its values fit
the columns. -/
def looksUpStored (c : String) (w : World) : Action → Bool
  | .query i _ => !w.delivers c i || (w.payments.getByCheckoutRequestId c).isSome
  | .startCallback _ cb => cb.checkoutRequestId ≠ c || cb.fits
  | _ => true

def ConfirmedBy (t : PaymentsTable) (c : String) (receipt : Option String) : Prop :=
  ∃ p ∈ t.rows, p.checkoutRequestId = some c ∧ p.status = .completed ∧ p.mpesaReceipt = receipt

/-- Where the deliveries for `c` are, and who holds the deduplication key. -/
structure Race (c : String) (receipt : Option String) (w : World) : Prop where
  success : ∀ ⦃i cb pc⦄, w.tasks i = some (.callback cb pc) → cb.checkoutRequestId = c →
    cb.resultCode = 0 ∧ cb.fits = true ∧
      PaymentsTable.receiptParameter (cb.details.get "MpesaReceiptNumber") = some receipt
  progress : ∀ ⦃i cb pc⦄, w.tasks i = some (.callback cb pc) → cb.checkoutRequestId = c →
    pc = .claim ∨ (w.dedup c ≠ none ∧ (pc = .done .ignored ∨ pc.winning = true))
  holder : ∀ ⦃j⦄, w.dedup c = some j → ∃ cb pc, w.tasks j = some (.callback cb pc) ∧
    cb.checkoutRequestId = c ∧ pc.winning = true
  confirmed : ∀ ⦃i cb⦄, w.tasks i = some (.callback cb (.done .applied)) →
    cb.checkoutRequestId = c → ConfirmedBy w.payments c receipt

theorem race_init : Race c receipt init where
  success _ _ _ hi := by cases hi
  progress _ _ _ hi := by cases hi
  holder _ hj := by cases hj
  confirmed _ _ hi := by cases hi

theorem Move.dedup_cases (h : Move settings w a w') (c : String) :
    w'.dedup c = w.dedup c ∨ a = .expireDedup c ∨
      ∃ i cb link, a = .redis i link ∧ w.tasks i = some (.callback cb .claim) ∧
        cb.checkoutRequestId = c ∧ w'.dedup c = (redisSetNx link (w.dedup c) i).2 ∧
        w'.tasks i = some (.callback cb (.afterSetNx (redisSetNx link (w.dedup c) i).1)) := by
  cases h with
  | expireDedup c' =>
    by_cases hc : c = c'
    · exact Or.inr (Or.inl (hc ▸ rfl))
    · exact Or.inl (Function.update_of_ne hc ..)
  | claim link hi =>
    rename_i i cb
    by_cases hc : c = cb.checkoutRequestId
    · subst hc
      exact Or.inr (Or.inr ⟨i, cb, link, rfl, hi, rfl, Function.update_self ..,
        Function.update_self ..⟩)
    · exact Or.inl (Function.update_of_ne hc ..)
  | visitRow link hi =>
    unfold World.visitRow
    split_ifs <;> exact Or.inl rfl
  | _ => exact Or.inl rfl

namespace Race

theorem success_step {pc : CallbackPc} (s : Race c receipt w)
    (hok : deliversSuccess c receipt w a = true) (hcond : looksUpStored c w a = true)
    (h : Move settings w a w') (hi' : w'.tasks i = some (.callback cb pc))
    (hc : cb.checkoutRequestId = c) :
    cb.resultCode = 0 ∧ cb.fits = true ∧
      PaymentsTable.receiptParameter (cb.details.get "MpesaReceiptNumber") = some receipt := by
  rcases h.callback_cases hi' with hi | hmove
  · exact s.success hi hc
  · cases hmove with
    | start hi hlog ha =>
      simp [ha, deliversSuccess, hc, STKCallbackBody.isSuccess] at hok
      simp [ha, looksUpStored, hc] at hcond
      exact ⟨hok.1, hcond, hok.2⟩
    | duplicate hi | claimed hi | lookupFailed hi | unmatched hi | matched hi | applied hi
    | failed hi | crash hi => exact s.success hi hc

/-- A delivery that can still apply the outcome goes on, and does. -/
theorem winning_step {pc pc' : CallbackPc} (s : Race c receipt w) (m : Matched w)
    (hok : deliversSuccess c receipt w a = true) (hcond : looksUpStored c w a = true)
    (hi : w.tasks i = some (.callback cb pc)) (hc : cb.checkoutRequestId = c)
    (hwin : pc.winning = true) (hmove : CallbackMove w a w' i cb pc') : pc'.winning = true := by
  have hdelivers := delivers_of_task hi hc
  cases hmove with
  | start hi₀ => simp [hi₀] at hi
  | duplicate hi₀ | claimed hi₀ =>
    cases hi.symm.trans hi₀
    cases hwin
  | lookupFailed hi₀ ha hfails =>
    simp only [ha, deliversSuccess, looksUpStored, hdelivers, Bool.not_true, Bool.false_or,
      decide_eq_true_eq] at hok hcond
    obtain ⟨p, hp⟩ := Option.isSome_iff_exists.mp hcond
    obtain ⟨hmem, hpc⟩ := PaymentsTable.mem_of_getByCheckoutRequestId hp
    simp [selectFails, hok, hc, storable_of_mem hmem hpc] at hfails
  | unmatched hi₀ ha hnone =>
    simp only [ha, looksUpStored, hdelivers, Bool.not_true, Bool.false_or] at hcond
    rw [← hc, hnone] at hcond
    cases hcond
  | matched hi₀ => rfl
  | applied hi₀ => rfl
  | failed hi₀ ha hfails =>
    obtain ⟨p, hp, rfl, -⟩ := m.row hi₀
    simp only [ha, deliversSuccess, hi₀, hdelivers, Bool.not_true, Bool.false_or,
      decide_eq_true_eq] at hok
    have happlies := (applyOutcome_isSome_iff w.now hp).mpr (s.success hi hc).2.1
    rw [hfails.resolve_left (absurd hok)] at happlies
    cases happlies
  | crash hi₀ ha => simp [ha, deliversSuccess, hdelivers] at hok

/-- The key stays with the delivery that took it. -/
theorem dedup_persists {j : ℕ} (hok : deliversSuccess c receipt w a = true)
    (h : Move settings w a w') (hj : w.dedup c = some j) : w'.dedup c = some j := by
  rcases h.dedup_cases c with hd | ha | ⟨i, cb, link, -, -, -, hd, -⟩
  · rw [hd, hj]
  · simp [ha, deliversSuccess] at hok
  · rw [hd, hj, redisSetNx_of_some]

theorem holder_step {j : ℕ} (s : Race c receipt w) (m : Matched w)
    (hok : deliversSuccess c receipt w a = true) (hcond : looksUpStored c w a = true)
    (h : Move settings w a w') (hj : w'.dedup c = some j) :
    ∃ cb pc, w'.tasks j = some (.callback cb pc) ∧ cb.checkoutRequestId = c ∧
      pc.winning = true := by
  have hheld : w.dedup c = some j → ∃ cb pc, w'.tasks j = some (.callback cb pc) ∧
      cb.checkoutRequestId = c ∧ pc.winning = true := by
    intro hold
    obtain ⟨cb, pc, hi, hc, hwin⟩ := s.holder hold
    obtain ⟨pc', hi'⟩ := h.callback_next hi
    refine ⟨cb, pc', hi', hc, ?_⟩
    rcases h.callback_cases hi' with hsame | hmove
    · cases hi.symm.trans hsame
      exact hwin
    · exact s.winning_step m hok hcond hi hc hwin hmove
  rcases h.dedup_cases c with hd | ha | ⟨i, cb, link, ha, hi, hc, hd, hi'⟩
  · exact hheld (hd ▸ hj)
  · simp [ha, deliversSuccess] at hok
  · cases hold : w.dedup c with
    | some k =>
      rw [hd, hold, redisSetNx_of_some] at hj
      exact hheld (hold.trans hj)
    | none =>
      simp only [ha, deliversSuccess, delivers_of_task hi hc, Bool.not_true, Bool.false_or,
        decide_eq_true_eq] at hok
      subst hok
      rw [hd, hold] at hj
      rw [hold] at hi'
      cases hj
      exact ⟨cb, _, hi', hc, rfl⟩

theorem progress_step {pc : CallbackPc} (s : Race c receipt w) (m : Matched w)
    (hok : deliversSuccess c receipt w a = true) (hcond : looksUpStored c w a = true)
    (h : Move settings w a w') (hi' : w'.tasks i = some (.callback cb pc))
    (hc : cb.checkoutRequestId = c) :
    pc = .claim ∨ (w'.dedup c ≠ none ∧ (pc = .done .ignored ∨ pc.winning = true)) := by
  have hkept : w.dedup c ≠ none → w'.dedup c ≠ none := by
    intro hne
    obtain ⟨j, hj⟩ := Option.ne_none_iff_exists'.mp hne
    simp [dedup_persists hok h hj]
  rcases h.callback_cases hi' with hi | hmove
  · exact (s.progress hi hc).imp id fun ⟨hne, hpc⟩ => ⟨hkept hne, hpc⟩
  · have hwinning : ∀ pc₀, w.tasks i = some (.callback cb pc₀) → pc₀.winning = true →
        pc.winning = true :=
      fun _ hi hwin => s.winning_step m hok hcond hi hc hwin hmove
    cases hmove with
    | start hi => exact Or.inl rfl
    | duplicate hi hdedup =>
      rw [hc, Option.isSome_iff_ne_none] at hdedup
      exact Or.inr ⟨hkept hdedup, Or.inl rfl⟩
    | claimed hi ha hdedup hfirst =>
      refine Or.inr ⟨?_, Or.inr rfl⟩
      simp only [ha, deliversSuccess, delivers_of_task hi hc, Bool.not_true, Bool.false_or,
        decide_eq_true_eq] at hok
      simp [hdedup, hc, hok, redisSetNx]
    | lookupFailed hi | unmatched hi | matched hi | applied hi | failed hi =>
      rcases s.progress hi hc with hclaim | ⟨hne, -⟩
      · cases hclaim
      · exact Or.inr ⟨hkept hne, Or.inr (hwinning _ hi rfl)⟩
    | crash hi ha => simp [ha, deliversSuccess, delivers_of_task hi hc] at hok

theorem confirmedBy_step (hw : Reachable settings w) (s : Race c receipt w)
    (hok : deliversSuccess c receipt w a = true) (h : Move settings w a w')
    (hconf : ConfirmedBy w.payments c receipt) : ConfirmedBy w'.payments c receipt := by
  obtain ⟨p, hp, hpc, hs, hr⟩ := hconf
  obtain ⟨q, hq, hchange⟩ := h.row_next hp
  have hlater := hchange.later hw.blank hp
  refine ⟨q, hq, hlater.checkoutRequestId c hpc, ?_⟩
  cases hchange with
  | kept => exact ⟨hs, hr⟩
  | failed ha hlink hi =>
    obtain ⟨hnone, -⟩ := hw.blank hi rfl (by simp [InitiatePc.stage]) hp rfl
    cases hnone.symm.trans hpc
  | identified ha hlink hi hi' => exact ⟨hs, hr⟩
  | completed ha hlink hi ht hcode hreceipt hpaid =>
    have hc := Option.some.inj ((hw.matched.checkoutRequestId_eq hi hp).symm.trans hpc)
    exact ⟨rfl, Option.some.inj (hreceipt.symm.trans (s.success hi hc).2.2)⟩
  | declined ha hlink hi ht hcode =>
    have hc := Option.some.inj ((hw.matched.checkoutRequestId_eq hi hp).symm.trans hpc)
    exact absurd (s.success hi hc).1 hcode
  | expired ha hlink hi hrow hreceipt =>
    simp only [ha, deliversSuccess, hi, List.all_eq_true] at hok
    have hfree := hok p hp
    simp [hrow, hpc] at hfree

theorem confirmed_step (hw : Reachable settings w) (s : Race c receipt w)
    (hok : deliversSuccess c receipt w a = true) (h : Move settings w a w')
    (hi' : w'.tasks i = some (.callback cb (.done .applied))) (hc : cb.checkoutRequestId = c) :
    ConfirmedBy w'.payments c receipt := by
  rcases h.callback_cases hi' with hi | hmove
  · exact s.confirmedBy_step hw hok h (s.confirmed hi hc)
  · cases hmove with
    | applied hi ht =>
      obtain ⟨p, hp, rfl, hpc⟩ := hw.matched.row hi
      obtain ⟨hcode, -, hreceipt⟩ := s.success hi hc
      rcases applyOutcome_eq_some ht with ⟨-, receipt', paid, date, hr, -, -, hu⟩ | ⟨hne, -⟩
      · obtain rfl := Option.some.inj (hreceipt.symm.trans hr)
        exact ⟨_, PaymentsTable.mem_update_self hu hp rfl, hc ▸ hpc, rfl, rfl⟩
      · exact absurd hcode hne

theorem step (hw : Reachable settings w) (s : Race c receipt w)
    (hok : deliversSuccess c receipt w a = true) (hcond : looksUpStored c w a = true)
    (h : Move settings w a w') : Race c receipt w' where
  success _ _ _ hi' hc := s.success_step hok hcond h hi' hc
  progress _ _ _ hi' hc := s.progress_step hw.matched hok hcond h hi' hc
  holder _ hj := s.holder_step hw.matched hok hcond h hj
  confirmed _ _ hi' hc := s.confirmed_step hw hok h hi' hc

end Race

def quiescent (as : List Action) (w : World) : Bool :=
  as.all fun a => (a.task?.bind w.tasks).all Task.finished

theorem task_named {as : List Action} {i : ℕ} {task : Task} {u : World}
    (hrun : Machine.run (step settings) u as = some w) (hu : u.tasks i = none)
    (hi : w.tasks i = some task) : ∃ a ∈ as, a.task? = some i := by
  obtain ⟨as₁, a, as₂, v, v', rfl, -, hstep, -, hv, hv'⟩ := Machine.exists_step_of_change
    (P := fun v => v.tasks i ≠ none) (by simp [hu]) (by simp [hi]) hrun
  refine ⟨a, by simp, ?_⟩
  by_contra hact
  exact hv' (((move_of_step hstep).tasks_of_ne hact).trans (not_not.mp hv))

/-- In a complete run of one success callback in which no delivery looks for the row before its
identifiers are committed, the payment ends COMPLETED with the receipt. -/
theorem race_confirms {as : List Action} (c : String) (receipt : Option String)
    (hok : Machine.Meets (step settings)
      (fun u a => deliversSuccess c receipt u a = true ∧ looksUpStored c u a = true) init as)
    (hrun : Machine.run (step settings) init as = some w) (hend : quiescent as w = true) (i : ℕ)
    (hi : w.delivers c i = true) : ConfirmedBy w.payments c receipt := by
  have s : Race c receipt w := by
    refine Machine.run_invariant_of_meets race_init ?_ hok hrun
    intro u a v hu s hoku hstep
    exact s.step hu hoku.1 hoku.2 (move_of_step hstep)
  have hfinished : ∀ j task, w.tasks j = some task → task.finished = true := by
    intro j task hj
    obtain ⟨a, ha, hnamed⟩ := task_named hrun rfl hj
    have hall := List.all_eq_true.mp hend a ha
    simpa [hnamed, hj] using hall
  -- a delivery that can still apply the outcome and has ended has applied it
  have happlied : ∀ j cb pc, w.tasks j = some (.callback cb pc) → cb.checkoutRequestId = c →
      pc.winning = true → ConfirmedBy w.payments c receipt := by
    intro j cb pc hj hc hwin
    have hfin := hfinished j _ hj
    cases pc with
    | done outcome =>
      cases outcome with
      | applied => exact s.confirmed hj hc
      | _ => cases hwin
    | crashed => cases hwin
    | _ => cases hfin
  unfold delivers at hi
  split at hi
  · rename_i cb pc hj
    have hc : cb.checkoutRequestId = c := by simpa using hi
    rcases s.progress hj hc with rfl | ⟨hne, rfl | hwin⟩
    · cases hfinished i _ hj
    · obtain ⟨j, hholder⟩ := Option.ne_none_iff_exists'.mp hne
      obtain ⟨cb', pc', hj', hc', hwin⟩ := s.holder hholder
      exact happlied j cb' pc' hj' hc' hwin
    · exact happlied i cb pc hj hc hwin
  · cases hi

/-- One delivery claims its key before the identifiers are committed and looks for the row after
that; another one is ignored. -/
def lateLookup : List Action :=
  sampleUntilPost 0 7 ++
    [.attempt 0 (acknowledgement sampleIds) (some sampleIds), .startCallback 1 sampleCallback,
     .redis 1 .up, .write 0 .up, .query 1 .up, .startCallback 2 sampleCallback, .redis 2 .up,
     .write 1 .up, .redis 0 .up, .redis 0 .up]

theorem lateLookup_enabled : (Machine.run (step {}) init lateLookup).isSome = true := by
  decide +kernel

theorem race_confirms_sample :
    ConfirmedBy (after {} _ lateLookup_enabled).payments sampleIds.checkoutRequestId
      (some "NLJ7RT61SV") :=
  race_confirms _ _ (by decide +kernel) (run_after lateLookup_enabled) (by decide +kernel) 2
    (by decide +kernel)

/-- A delivery comes and goes before the identifiers are committed. -/
def earlyDelivery : List Action :=
  sampleUntilPost 0 7 ++
    [.attempt 0 (acknowledgement sampleIds) (some sampleIds), .startCallback 1 sampleCallback,
     .redis 1 .up, .query 1 .up, .write 0 .up, .redis 0 .up, .redis 0 .up]

theorem earlyDelivery_enabled : (Machine.run (step {}) init earlyDelivery).isSome = true := by
  decide +kernel

theorem laterDelivery_enabled :
    (Machine.run (step {}) init
      (earlyDelivery ++ [.startCallback 2 sampleCallback, .redis 2 .up])).isSome = true := by
  decide +kernel

theorem early_delivery_loses_outcome :
    ¬ ∀ settings as i cb bs c receipt u w,
      Machine.Meets (step settings) (fun v a => deliversSuccess c receipt v a = true) init
        (as ++ .startCallback i cb :: bs) →
      Machine.run (step settings) init as = some u →
      (u.payments.getByCheckoutRequestId c).isSome = true → cb.checkoutRequestId = c →
      cb.fits = true →
      Machine.run (step settings) init (as ++ .startCallback i cb :: bs) = some w →
      quiescent (as ++ .startCallback i cb :: bs) w = true → ConfirmedBy w.payments c receipt := by
  intro h
  obtain ⟨p, hp, -, hs, -⟩ := h {} earlyDelivery 2 sampleCallback [.redis 2 .up]
    sampleIds.checkoutRequestId (some "NLJ7RT61SV") _ _ (by decide +kernel)
    (run_after earlyDelivery_enabled) (by decide +kernel) rfl (by decide +kernel)
    (run_after laterDelivery_enabled) (by decide +kernel)
  have hpending : ∀ p ∈ (after {} _ laterDelivery_enabled).payments.rows, p.status = .pending := by
    decide +kernel
  rw [hpending p hp] at hs
  cases hs

end World
end DarajaWrapper
