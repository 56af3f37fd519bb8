import DarajaWrapper.System.Callback

/-!
# Callbacks in any order

The outcome that a callback writes depends on the callback alone, and a
CheckoutRequestID names one row. So what a list of deliveries leaves behind is
settled row by row by the set of callbacks in it: their order, their repetitions
and the state of Redis leave no trace but `updated_at`.
-/

namespace DarajaWrapper

variable {now now' : ℚ} {n : ℕ} {cb : STKCallbackBody} {t t' : PaymentsTable} {p q : Payment}

/-- The row as the callback leaves it, when its values fit. -/
def STKCallbackBody.settled (cb : STKCallbackBody) (now : ℚ) : Payment → Payment :=
  if cb.isSuccess then
    Payment.withCompletion now
      ((PaymentsTable.receiptParameter (cb.details.get "MpesaReceiptNumber")).getD none)
      ((PaymentsTable.amountPaidParameter (cb.details.get "Amount")).getD none)
      (parseDarajaTransactionDate (cb.details.get "TransactionDate"))
  else Payment.withFailure now cb.resultDesc cb.resultCode

theorem applyOutcome_rows {paymentId : UUID} (h : applyOutcome now t paymentId cb = some t') :
    t'.rows = Rows.update (·.id) paymentId (cb.settled now) t.rows := by
  rcases applyOutcome_eq_some h with ⟨hcode, receipt, paid, date, hr, ha, hd, hu⟩ | ⟨hcode, hu⟩
  · have hsettled : cb.settled now = Payment.withCompletion now receipt paid date := by
      simp [STKCallbackBody.settled, STKCallbackBody.isSuccess, hcode, hr, ha, hd]
    rw [hsettled]
    exact PaymentsTable.update_eq_some hu
  · have hsettled : cb.settled now = Payment.withFailure now cb.resultDesc cb.resultCode := by
      simp [STKCallbackBody.settled, STKCallbackBody.isSuccess, hcode]
    rw [hsettled]
    exact PaymentsTable.update_eq_some hu

theorem checkoutRequestId_settled :
    (cb.settled now p).checkoutRequestId = p.checkoutRequestId := by
  unfold STKCallbackBody.settled
  split_ifs <;> rfl

/-- Applied again, a callback changes the clock reading only. -/
theorem settled_settled : cb.settled now' (cb.settled now p) = cb.settled now' p := by
  unfold STKCallbackBody.settled
  split_ifs <;> rfl

theorem sameUpToUpdatedAt_settled :
    (cb.settled now p).SameUpToUpdatedAt (cb.settled now' p) := by
  unfold STKCallbackBody.settled
  split_ifs <;> rfl

/-- What a delivery does to the table, when the database is reachable. -/
inductive DeliveryEffect (cb : STKCallbackBody) (now : ℚ) (held : Bool) (t : PaymentsTable) :
    PaymentsTable → Prop
  | ignored (hheld : held = true) : DeliveryEffect cb now held t t
  | unsettled (hnone : ∀ q ∈ t.rows, q.checkoutRequestId = some cb.checkoutRequestId →
      cb.fits = false) : DeliveryEffect cb now held t t
  | settled {q : Payment} {t' : PaymentsTable} (hq : q ∈ t.rows)
      (hc : q.checkoutRequestId = some cb.checkoutRequestId) (hfits : cb.fits = true)
      (hrows : t'.rows = Rows.update (·.id) q.id (cb.settled now) t.rows) :
      DeliveryEffect cb now held t t'

theorem processCallback_effect (redis : Link) (now : ℚ) (n : ℕ) (cb : STKCallbackBody)
    (dedup : Option ℕ) (t : PaymentsTable) :
    DeliveryEffect cb now dedup.isSome t
      (processCallback { setNx := redis } now n cb dedup t).2.1 := by
  cases hclaimed : (redisSetNx redis dedup n).1 with
  | false =>
    simp only [processCallback, hclaimed, Bool.not_false, if_true]
    exact .ignored (redisSetNx_refused.mp hclaimed).2
  | true =>
    by_cases hfails : selectFails .up cb.checkoutRequestId = true
    · -- a text that PostgreSQL cannot hold is in no row
      simp only [processCallback, hclaimed, hfails, Bool.not_true, Bool.false_eq_true, if_false,
        if_true]
      apply DeliveryEffect.unsettled
      intro q hq hc
      simp [selectFails, storable_of_mem hq hc] at hfails
    · simp only [processCallback, hclaimed, hfails, Bool.not_true, Bool.false_eq_true, if_false]
      cases hfound : t.getByCheckoutRequestId cb.checkoutRequestId with
      | none =>
        apply DeliveryEffect.unsettled
        intro q hq hc
        simp [PaymentsTable.getByCheckoutRequestId_of_mem hq hc] at hfound
      | some q =>
        obtain ⟨hq, hc⟩ := PaymentsTable.mem_of_getByCheckoutRequestId hfound
        have hiff : (applyOutcome now t q.id cb).isSome = true ↔ cb.fits = true :=
          applyOutcome_isSome_iff now hq
        change DeliveryEffect cb now dedup.isSome t (commit .up t (applyOutcome now t q.id cb)).1
        cases happlied : applyOutcome now t q.id cb with
        | none =>
          rw [happlied] at hiff
          apply DeliveryEffect.unsettled
          intro _ _ _
          simpa using hiff
        | some t' =>
          rw [happlied] at hiff
          exact .settled hq hc (hiff.mp rfl) (applyOutcome_rows happlied)

/-- A callback with what became of its Redis operation and the clock. -/
structure Delivery where
  callback : STKCallbackBody
  redis : Link
  now : ℚ

/-- The deduplication keys and the table. -/
structure CallbackStores where
  dedup : String → Option ℕ
  payments : PaymentsTable

/-- `process_callback` with a reachable database. What it raises is rolled back and dropped. -/
def CallbackStores.receive (s : CallbackStores) (d : Delivery) : CallbackStores :=
  let c := d.callback.checkoutRequestId
  let result := processCallback { setNx := d.redis } d.now 0 d.callback (s.dedup c) s.payments
  { dedup := Function.update s.dedup c result.1, payments := result.2.1 }

/-- Callbacks with one CheckoutRequestID are the same. -/
def Consistent (callbacks : List STKCallbackBody) : Prop :=
  ∀ ⦃cb cb'⦄, cb ∈ callbacks → cb' ∈ callbacks →
    cb.checkoutRequestId = cb'.checkoutRequestId → cb = cb'

theorem Consistent.mono {callbacks callbacks' : List STKCallbackBody} (h : Consistent callbacks)
    (hsub : callbacks' ⊆ callbacks) : Consistent callbacks' :=
  fun _ _ hcb hcb' => h (hsub hcb) (hsub hcb')

/-- What the callbacks that were delivered make of the row `p`. -/
inductive Settled (delivered : List STKCallbackBody) (p : Payment) : Payment → Prop
  | unsettled (hnone : ∀ cb ∈ delivered,
      p.checkoutRequestId = some cb.checkoutRequestId → cb.fits = false) : Settled delivered p p
  | settled {cb : STKCallbackBody} (now : ℚ) (hcb : cb ∈ delivered)
      (hc : p.checkoutRequestId = some cb.checkoutRequestId) (hfits : cb.fits = true) :
      Settled delivered p (cb.settled now p)

namespace Settled

variable {delivered : List STKCallbackBody}

theorem checkoutRequestId_eq (h : Settled delivered p q) :
    q.checkoutRequestId = p.checkoutRequestId := by
  cases h with
  | unsettled hnone => rfl
  | settled now hcb hc hfits => exact checkoutRequestId_settled

theorem cons (h : Settled delivered p q)
    (hfree : p.checkoutRequestId = some cb.checkoutRequestId →
      cb.fits = false ∨ cb ∈ delivered) : Settled (cb :: delivered) p q := by
  cases h with
  | unsettled hnone =>
    apply unsettled
    intro cb' hcb' hc
    rcases List.mem_cons.mp hcb' with rfl | hcb'
    · rcases hfree hc with hfits | hmem
      · exact hfits
      · exact hnone _ hmem hc
    · exact hnone cb' hcb' hc
  | settled now hcb hc hfits => exact settled now (List.mem_cons_of_mem _ hcb) hc hfits

theorem settle (hconsistent : Consistent (cb :: delivered)) (h : Settled delivered p q)
    (hc : p.checkoutRequestId = some cb.checkoutRequestId) (hfits : cb.fits = true) (now : ℚ) :
    Settled (cb :: delivered) p (cb.settled now q) := by
  cases h with
  | unsettled hnone => exact settled now List.mem_cons_self hc hfits
  | settled now' hcb' hc' hfits' =>
    have hid := Option.some.inj (hc.symm.trans hc')
    obtain rfl := hconsistent List.mem_cons_self (List.mem_cons_of_mem _ hcb') hid
    rw [settled_settled]
    exact settled now List.mem_cons_self hc hfits

theorem sameUpToUpdatedAt {delivered' : List STKCallbackBody} {q' : Payment}
    (hconsistent : Consistent delivered) (hsame : ∀ cb, cb ∈ delivered ↔ cb ∈ delivered')
    (h : Settled delivered p q) (h' : Settled delivered' p q') : q.SameUpToUpdatedAt q' := by
  cases h with
  | unsettled hnone =>
    cases h' with
    | unsettled hnone' => rfl
    | settled now' hcb' hc' hfits' =>
      rw [hnone _ ((hsame _).mpr hcb') hc'] at hfits'
      cases hfits'
  | settled now hcb hc hfits =>
    cases h' with
    | unsettled hnone' =>
      rw [hnone' _ ((hsame _).mp hcb) hc] at hfits
      cases hfits
    | settled now' hcb' hc' hfits' =>
      have hid := Option.some.inj (hc.symm.trans hc')
      obtain rfl := hconsistent hcb ((hsame _).mpr hcb') hid
      exact sameUpToUpdatedAt_settled

end Settled

/-- The stores `s` are `s₀` after these callbacks were delivered: every row is settled by them, and
only their keys were touched. -/
structure SettledStores (s₀ : CallbackStores) (delivered : List STKCallbackBody)
    (s : CallbackStores) : Prop where
  rows : ∃ f, s.payments.rows = s₀.payments.rows.map f ∧
    ∀ p ∈ s₀.payments.rows, Settled delivered p (f p)
  dedup : ∀ c, (∀ cb ∈ delivered, cb.checkoutRequestId ≠ c) → s.dedup c = s₀.dedup c

section

variable {s₀ s : CallbackStores} {delivered : List STKCallbackBody} {d : Delivery}

theorem SettledStores.refl (s : CallbackStores) : SettledStores s [] s where
  rows := ⟨id, (List.map_id _).symm, fun p _ => .unsettled fun cb hcb => by cases hcb⟩
  dedup _ _ := rfl

/-- While the key is held, the callback was delivered before. -/
theorem SettledStores.delivered_of_held (h : SettledStores s₀ delivered s)
    (hconsistent : Consistent (d.callback :: delivered))
    (hfree : s₀.dedup d.callback.checkoutRequestId = none)
    (hheld : (s.dedup d.callback.checkoutRequestId).isSome = true) :
    d.callback ∈ delivered := by
  by_contra hnew
  have hkey := h.dedup d.callback.checkoutRequestId fun cb hcb hid => by
    obtain rfl := hconsistent (List.mem_cons_of_mem _ hcb) List.mem_cons_self hid
    exact hnew hcb
  rw [hkey, hfree] at hheld
  cases hheld

theorem SettledStores.rows_of_effect {t' : PaymentsTable} (h : SettledStores s₀ delivered s)
    (hconsistent : Consistent (cb :: delivered)) {held : Bool}
    (hheld : held = true → cb ∈ delivered) (heffect : DeliveryEffect cb now held s.payments t') :
    ∃ f, t'.rows = s₀.payments.rows.map f ∧
      ∀ p ∈ s₀.payments.rows, Settled (cb :: delivered) p (f p) := by
  obtain ⟨f, hf, hsettled⟩ := h.rows
  have hmem : ∀ p ∈ s₀.payments.rows, f p ∈ s.payments.rows := by
    intro p hp
    rw [hf]
    exact List.mem_map_of_mem hp
  cases heffect with
  | ignored hset =>
    refine ⟨f, hf, fun p hp => ?_⟩
    exact (hsettled p hp).cons fun _ => Or.inr (hheld hset)
  | unsettled hnone =>
    refine ⟨f, hf, fun p hp => ?_⟩
    apply (hsettled p hp).cons
    intro hc
    rw [← (hsettled p hp).checkoutRequestId_eq] at hc
    exact Or.inl (hnone _ (hmem p hp) hc)
  | settled hq hc hfits hrows =>
    rename_i q
    refine ⟨fun p => if (f p).id = q.id then cb.settled now (f p) else f p, ?_, ?_⟩
    · rw [hrows, hf, Rows.update, List.map_map]
      rfl
    · intro p hp
      by_cases hid : (f p).id = q.id
      · have hfp := s.payments.eq_of_id_eq (hmem p hp) hq hid
        rw [← hfp, (hsettled p hp).checkoutRequestId_eq] at hc
        simp only [hid, if_true]
        exact (hsettled p hp).settle hconsistent hc hfits now
      · simp only [hid, if_false]
        apply (hsettled p hp).cons
        intro hcp
        -- the row with this CheckoutRequestID is `q`
        rw [← (hsettled p hp).checkoutRequestId_eq] at hcp
        have hfp := s.payments.eq_of_checkoutRequestId_eq (hmem p hp) hq hcp hc
        exact absurd (congrArg Payment.id hfp) hid

theorem receive_dedup_of_ne {c : String} (hne : c ≠ d.callback.checkoutRequestId) :
    (s.receive d).dedup c = s.dedup c := Function.update_of_ne hne ..

theorem SettledStores.receive (h : SettledStores s₀ delivered s)
    (hconsistent : Consistent (d.callback :: delivered))
    (hfree : s₀.dedup d.callback.checkoutRequestId = none) :
    SettledStores s₀ (d.callback :: delivered) (s.receive d) where
  rows := by
    apply h.rows_of_effect hconsistent (h.delivered_of_held hconsistent hfree)
    exact processCallback_effect d.redis d.now 0 d.callback _ s.payments
  dedup c hc := by
    have hne : c ≠ d.callback.checkoutRequestId := fun heq =>
      hc d.callback List.mem_cons_self heq.symm
    rw [receive_dedup_of_ne hne]
    exact h.dedup c fun cb hcb => hc cb (List.mem_cons_of_mem _ hcb)

theorem SettledStores.foldl {L : List Delivery} (h : SettledStores s₀ delivered s)
    (hconsistent : Consistent (L.map (·.callback) ++ delivered))
    (hfree : ∀ cb ∈ L.map (·.callback), s₀.dedup cb.checkoutRequestId = none) :
    SettledStores s₀ ((L.map (·.callback)).reverse ++ delivered)
      (L.foldl CallbackStores.receive s) := by
  induction L generalizing s delivered with
  | nil => exact h
  | cons d L ih =>
    have hnext : SettledStores s₀ (d.callback :: delivered) (s.receive d) := by
      apply h.receive
      · apply hconsistent.mono
        exact List.cons_subset_cons _ (List.subset_append_right _ _)
      · exact hfree _ List.mem_cons_self
    simp only [List.map_cons, List.reverse_cons, List.append_assoc, List.singleton_append,
      List.foldl_cons]
    apply ih hnext
    · exact hconsistent.mono List.perm_middle.subset
    · intro cb hcb
      exact hfree cb (List.mem_cons_of_mem _ hcb)

/-- Deliveries of the same callbacks, in any order, any number of times and whatever Redis did,
leave the same table up to `updated_at`. -/
theorem deliveries_settle_alike {L L' : List Delivery}
    (hsame : ∀ cb, cb ∈ L.map (·.callback) ↔ cb ∈ L'.map (·.callback))
    (hconsistent : Consistent (L.map (·.callback)))
    (hfree : ∀ cb ∈ L.map (·.callback), s.dedup cb.checkoutRequestId = none) :
    List.Forall₂ Payment.SameUpToUpdatedAt (L.foldl CallbackStores.receive s).payments.rows
      (L'.foldl CallbackStores.receive s).payments.rows := by
  have hconsistent' : Consistent (L'.map (·.callback)) :=
    hconsistent.mono fun cb hcb => (hsame cb).mpr hcb
  have hL := (SettledStores.refl s).foldl (by simpa using hconsistent) hfree
  have hL' := (SettledStores.refl s).foldl (by simpa using hconsistent') fun cb hcb =>
    hfree cb ((hsame cb).mpr hcb)
  obtain ⟨f, hf, hsettled⟩ := hL.rows
  obtain ⟨f', hf', hsettled'⟩ := hL'.rows
  rw [hf, hf', List.forall₂_map_left_iff, List.forall₂_map_right_iff, List.forall₂_same]
  intro p hp
  refine (hsettled p hp).sameUpToUpdatedAt ?_ ?_ (hsettled' p hp)
  · simpa [Consistent] using hconsistent
  · intro cb
    simpa using hsame cb

end

/-- The callbacks of two payments, each once and with Redis up. -/
def deliveredOnce : List Delivery :=
  [⟨World.sampleCallback, .up, 1⟩, ⟨World.anotherCallback "NLJ7RT61SW", .up, 2⟩]

/-- The same in the other order, the second of them again with Redis down. -/
def deliveredAgain : List Delivery :=
  [⟨World.anotherCallback "NLJ7RT61SW", .up, 3⟩, ⟨World.sampleCallback, .down, 4⟩,
   ⟨World.sampleCallback, .up, 5⟩]

def anotherRow : Payment :=
  (newPayment World.anotherRequest 8 0).withDarajaIds 0 World.anotherIds.checkoutRequestId
    World.anotherIds.merchantRequestId

def sampleStores : CallbackStores where
  dedup _ := none
  payments := ⟨[identifiedRow, anotherRow], by decide +kernel⟩

theorem deliveries_settle_alike_sample :
    List.Forall₂ Payment.SameUpToUpdatedAt
      (deliveredOnce.foldl CallbackStores.receive sampleStores).payments.rows
      (deliveredAgain.foldl CallbackStores.receive sampleStores).payments.rows := by
  apply deliveries_settle_alike
  · intro cb
    simp only [deliveredOnce, deliveredAgain, List.map_cons, List.map_nil, List.mem_cons,
      List.not_mem_nil, or_false]
    tauto
  · have hne : World.sampleCallback.checkoutRequestId ≠
        (World.anotherCallback "NLJ7RT61SW").checkoutRequestId := by decide
    intro cb cb' hcb hcb' heq
    simp only [deliveredOnce, List.map_cons, List.map_nil, List.mem_cons, List.not_mem_nil,
      or_false] at hcb hcb'
    rcases hcb with rfl | rfl <;> rcases hcb' with rfl | rfl
    · rfl
    · exact absurd heq hne
    · exact absurd heq.symm hne
    · rfl
  · intro cb _
    rfl

end DarajaWrapper
