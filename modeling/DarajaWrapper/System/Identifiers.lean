import DarajaWrapper.System.Ownership

/-!
# The identifiers of a payment

`update_daraja_ids` is the only statement that writes the two identifier
columns. It is run once for a row, by the call that created it, with what Daraja
issued in its acknowledgement; so identifiers in the table stay, and a callback
that has found its row keeps it.
-/

namespace DarajaWrapper
namespace World

variable {settings : Settings} {w w' : World} {a : Action} {i client : ℕ}
  {r : STKPushInitiateRequest} {pid : UUID} {p q : Payment}

/-- Until its call stores the identifiers, a row has none. -/
def Blank (w : World) : Prop :=
  ∀ ⦃i client r pc pid p⦄, w.tasks i = some (.initiate client r pc) → pc.paymentId? = some pid →
    pc.stage ≤ 6 → p ∈ w.payments.rows → p.id = pid →
      p.checkoutRequestId = none ∧ p.merchantRequestId = none

/-- A call that goes on working on its payment has not stored identifiers in this step. -/
theorem blank_of_blank {pc pc' : InitiatePc} (o : Ownership w) (hb : Blank w)
    (h : Move settings w a w') (hi : w.tasks i = some (.initiate client r pc))
    (hpid : pc.paymentId? = some pid) (hs : pc.stage ≤ 6)
    (hi' : w'.tasks i = some (.initiate client r pc')) (hs' : pc'.stage ≤ 6)
    (hq : q ∈ w'.payments.rows) (hid : q.id = pid) :
    q.checkoutRequestId = none ∧ q.merchantRequestId = none := by
  cases h.row_cases hq with
  | created hi₁ ht hlog => exact ⟨rfl, rfl⟩
  | changed hp hchange =>
    rw [hchange.sameIdentity.id] at hid
    have hblank := hb hi hpid hs hp hid
    cases hchange with
    | identified ha₁ hlink₁ hi₁ hi₁' =>
      -- only this call works on the payment, and it would be past stage 6 now
      subst hid
      obtain rfl := o.unique (o.owns hi₁ rfl) (o.owns hi hpid)
      obtain ⟨pc₁, hpc₁, hle⟩ := hi₁'
      cases hi'.symm.trans hpc₁
      omega
    | kept | failed | completed | declined | expired => exact hblank

theorem blank_step (o : Ownership w) (hb : Blank w) (h : Move settings w a w') : Blank w' := by
  intro i client r pc pid q hi' hpid hs hq hid
  rcases h.initiate_cases hi' with hi | hmove
  · exact blank_of_blank o hb h hi hpid hs hi' hs hq hid
  · cases hmove with
    | created hi ht hlog =>
      cases hpid
      rw [PaymentsTable.insert_eq_some (insert_of_create ht), List.mem_append,
        List.mem_singleton] at hq
      rcases hq with hq | rfl
      · exact absurd hid (PaymentsTable.id_ne_of_insert (insert_of_create ht) hq)
      · exact ⟨rfl, rfl⟩
    | circuitClosed hi | circuitOpen hi | retried hi | acknowledged hi | rejected hi =>
      cases hpid
      exact blank_of_blank o hb h hi rfl (by simp [InitiatePc.stage]) hi' hs hq hid
    | idsStored ha hi ht => simp [InitiatePc.stage] at hs
    | _ => cases hpid

theorem blank_init : Blank init := by
  intro i client r pc pid p hi
  cases hi

theorem Reachable.blank (h : Reachable settings w) : Blank w := by
  apply Machine.Reachable.invariant h blank_init
  intro u a v hu hb hstep
  exact blank_step (Reachable.ownership hu) hb (move_of_step hstep)

theorem RowChange.later (h : RowChange w a w' p q) (hb : Blank w) (hp : p ∈ w.payments.rows) :
    p.Later q := by
  have hids : (∀ c, p.checkoutRequestId = some c → q.checkoutRequestId = some c) ∧
      ∀ m, p.merchantRequestId = some m → q.merchantRequestId = some m := by
    cases h with
    | identified ha hlink hi hi' =>
      obtain ⟨hc, hm⟩ := hb hi rfl (by simp [InitiatePc.stage]) hp rfl
      constructor
      · intro c hc'
        simp [hc] at hc'
      · intro m hm'
        simp [hm] at hm'
    | kept | failed | completed | declined | expired => exact ⟨fun c hc => hc, fun m hm => hm⟩
  exact ⟨h.sameIdentity, hids.1, hids.2⟩

theorem Move.later (h : Move settings w a w') (hb : Blank w)
    (hp : p ∈ w.payments.rows) : ∃ q ∈ w'.payments.rows, p.Later q := by
  obtain ⟨q, hq, hchange⟩ := h.row_next hp
  exact ⟨q, hq, hchange.later hb hp⟩

/-- No statement makes a settled payment PENDING again. -/
theorem RowChange.status_ne_pending (h : RowChange w a w' p q) (hs : p.status ≠ .pending) :
    q.status ≠ .pending := by
  cases h with
  | kept | identified => exact hs
  | completed => exact PaymentStatus.noConfusion
  | failed | expired => exact PaymentStatus.noConfusion
  | declined => exact Payment.failureStatus_ne _ (by decide) (by decide)

/-- From any reachable state, every row is still there at the end of every run: with the columns
of its insert, its identifiers if it had them, and settled if it was. -/
theorem identity_immutable {as : List Action} (hw : Reachable settings w)
    (hrun : Machine.run (step settings) w as = some w') (hp : p ∈ w.payments.rows) :
    ∃ q ∈ w'.payments.rows, p.Later q ∧ (p.status ≠ .pending → q.status ≠ .pending) := by
  refine Machine.run_relation
    (R := fun u v => ∀ p ∈ u.payments.rows, ∃ q ∈ v.payments.rows,
      p.Later q ∧ (p.status ≠ .pending → q.status ≠ .pending))
    ?_ ?_ ?_ hw hrun p hp
  · intro u p hp
    exact ⟨p, hp, .refl p, id⟩
  · intro t u v htu huv p hp
    obtain ⟨q, hq, hpq, hsq⟩ := htu p hp
    obtain ⟨s, hs, hqs, hss⟩ := huv q hq
    refine ⟨s, hs, hpq.trans hqs, ?_⟩
    intro hne
    exact hss (hsq hne)
  · intro u a v hu hstep p hp
    obtain ⟨q, hq, hchange⟩ := (move_of_step hstep).row_next hp
    have hlater := hchange.later (Reachable.blank hu) hp
    exact ⟨q, hq, hlater, hchange.status_ne_pending⟩

theorem identity_immutable_sample :
    ∃ q ∈ (after {} _ sampleConfirmation_enabled).payments.rows, identifiedRow.Later q ∧
      (identifiedRow.status ≠ .pending → q.status ≠ .pending) :=
  identity_immutable (reachable_after sampleInitiation_enabled)
    (run_after_append sampleInitiation_enabled sampleConfirmation_enabled) (by decide +kernel)

/-- A callback delivery was reported, and one about to be applied has found the row with its
identifier. -/
structure Matched (w : World) : Prop where
  reported : ∀ ⦃i cb pc⦄, w.tasks i = some (.callback cb pc) → .reported cb ∈ w.log
  row : ∀ ⦃i cb pid⦄, w.tasks i = some (.callback cb (.apply pid)) →
    ∃ p ∈ w.payments.rows, p.id = pid ∧ p.checkoutRequestId = some cb.checkoutRequestId

theorem matched_init : Matched init where
  reported _ _ _ hi := by cases hi
  row _ _ _ hi := by cases hi

namespace Matched

theorem reported_step {cb : STKCallbackBody} {pc : CallbackPc} (m : Matched w)
    (h : Move settings w a w') (hi' : w'.tasks i = some (.callback cb pc)) :
    .reported cb ∈ w'.log := by
  rcases h.callback_cases hi' with hi | hmove
  · exact h.log_mono (m.reported hi)
  · cases hmove with
    | start hi hlog => exact hlog ▸ List.mem_cons_self
    | duplicate hi | claimed hi | lookupFailed hi | unmatched hi | matched hi | applied hi
    | failed hi | crash hi => exact h.log_mono (m.reported hi)

theorem row_step {cb : STKCallbackBody} (m : Matched w) (hb : Blank w)
    (h : Move settings w a w') (hi' : w'.tasks i = some (.callback cb (.apply pid))) :
    ∃ q ∈ w'.payments.rows, q.id = pid ∧ q.checkoutRequestId = some cb.checkoutRequestId := by
  have hfound : ∃ p ∈ w.payments.rows, p.id = pid ∧
      p.checkoutRequestId = some cb.checkoutRequestId := by
    rcases h.callback_cases hi' with hi | hmove
    · exact m.row hi
    · cases hmove with
      | matched hi hfound =>
        obtain ⟨hp, hc⟩ := PaymentsTable.mem_of_getByCheckoutRequestId hfound
        exact ⟨_, hp, rfl, hc⟩
  obtain ⟨p, hp, hid, hc⟩ := hfound
  obtain ⟨q, hq, hpq⟩ := h.later hb hp
  exact ⟨q, hq, hpq.identity.id.trans hid, hpq.checkoutRequestId _ hc⟩

theorem checkoutRequestId_eq {cb : STKCallbackBody} (m : Matched w)
    (hi : w.tasks i = some (.callback cb (.apply p.id))) (hp : p ∈ w.payments.rows) :
    p.checkoutRequestId = some cb.checkoutRequestId := by
  obtain ⟨q, hq, hid, hc⟩ := m.row hi
  rwa [w.payments.eq_of_id_eq hq hp hid] at hc

end Matched

theorem Reachable.matched (h : Reachable settings w) : Matched w := by
  apply Machine.Reachable.invariant h matched_init
  intro u a v hu m hstep
  have hmove := move_of_step hstep
  exact
    { reported := fun _ _ _ hi' => m.reported_step hmove hi'
      row := fun _ _ _ hi' => m.row_step (Reachable.blank hu) hmove hi' }

/-- Identifiers that are about to be stored are those that Daraja issued for the payment. -/
def Issued (w : World) : Prop :=
  ∀ ⦃i client r pid result⦄, w.tasks i = some (.initiate client r (.updateIds pid result)) →
    ∃ reply, .posted i r.idempotencyKey pid reply
      (some ⟨result.checkoutRequestId, result.merchantRequestId⟩) ∈ w.log

theorem issued_init : Issued init := by
  intro i client r pid result hi
  cases hi

theorem issued_step (s : Issued w) (h : Move settings w a w') : Issued w' := by
  intro i client r pid result hi'
  rcases h.initiate_cases hi' with hi | hmove
  · obtain ⟨reply, hposted⟩ := s hi
    exact ⟨reply, h.log_mono hposted⟩
  · cases hmove with
    | acknowledged hi hlog => exact ⟨_, hlog ▸ List.mem_cons_self⟩

theorem Reachable.issued (h : Reachable settings w) : Issued w := by
  apply Machine.Reachable.invariant h issued_init
  intro u a v _ s hstep
  exact issued_step s (move_of_step hstep)

end World
end DarajaWrapper
