import DarajaWrapper.System.Cache

/-!
# Replays of a key

A repeated key is answered in one of three ways: from the cache, from a settled
row, or by the UNIQUE column when the row is still PENDING. None of them compares
the parameters of the two requests, and the first two report different statuses.
A conflict is announced only while another call holds the lock.
-/

namespace DarajaWrapper
/-- Two responses that name one payment and one push. -/
structure STKPushInitiateResponse.SameIdentifiers (s t : STKPushInitiateResponse) : Prop where
  paymentId : s.paymentId = t.paymentId
  checkoutRequestId : s.checkoutRequestId = t.checkoutRequestId
  merchantRequestId : s.merchantRequestId = t.merchantRequestId

namespace World

variable {settings : Settings} {w w' : World} {a : Action} {i client : ℕ}
  {r : STKPushInitiateRequest} {pid : UUID} {response : STKPushInitiateResponse}

/-- The call is turned away with `DuplicatePaymentError`, or is about to be. -/
def TurnedAway (w : World) (i client : ℕ) (r : STKPushInitiateRequest) : Prop :=
  ∃ pc, w.tasks i = some (.initiate client r pc) ∧
    pc.outcome? = some (.raised (.duplicatePayment r.idempotencyKey))

/-- The lock of the call's key is held when the call asks Redis for it. -/
def FindsLockHeld (settings : Settings) (as : List Action) (i client : ℕ)
    (r : STKPushInitiateRequest) : Prop :=
  ∃ as₁ as₂ u, as = as₁ ++ .redis i .up :: as₂ ∧ Machine.run (step settings) init as₁ = some u ∧
    u.tasks i = some (.initiate client r .acquireLock) ∧ (u.lock r.idempotencyKey).isSome = true

theorem done_stays {outcome : InitiateOutcome} {as : List Action}
    (hi : w.tasks i = some (.initiate client r (.done outcome)))
    (hrun : Machine.run (step settings) w as = some w') :
    w'.tasks i = some (.initiate client r (.done outcome)) := by
  refine Machine.Reachable.invariant
    (P := fun u => u.tasks i = some (.initiate client r (.done outcome))) ⟨as, hrun⟩ hi
    fun u a v _ hu hstep => ?_
  have h := move_of_step hstep
  obtain ⟨pc', hv, hle⟩ := h.initiate_next hu
  rcases h.initiate_cases hv with hsame | hmove
  · rwa [Option.some.inj (hu.symm.trans hsame)]
  · cases hmove with
    | start hi => simp [hi] at hu
    | crash hi hlive =>
      cases hu.symm.trans hi
      cases hlive
    | cacheHit hi | cacheMiss hi | lockRefused hi | lockAcquired hi | lookupFailed hi
    | answered hi | unanswered hi | createFailed hi | created hi | circuitClosed hi
    | circuitOpen hi | retried hi | acknowledged hi | rejected hi | callRaised hi | failed hi
    | idsStored ha hi | idsFailed hi | cached hi | released hi => cases hu.symm.trans hi

theorem findsLockHeld_of_turnedAway {as : List Action}
    (hrun : Machine.run (step settings) init as = some w) (h : TurnedAway w i client r) :
    FindsLockHeld settings as i client r := by
  obtain ⟨as₁, a, as₂, u, v, rfl, hu, hstep, -, hbefore, pc, hi', hpc⟩ :=
    Machine.exists_step_of_change (P := fun u => TurnedAway u i client r)
      (fun ⟨_, hi, _⟩ => by cases hi) h hrun
  rcases (move_of_step hstep).initiate_cases hi' with hi | hmove
  · exact absurd ⟨pc, hi, hpc⟩ hbefore
  · cases hmove with
    | lockRefused hi ha hlock => exact ⟨as₁, as₂, u, by rw [ha], hu, hi, hlock⟩
    | released hi => exact absurd ⟨_, hi, hpc⟩ hbefore
    | _ => cases hpc

theorem turnedAway_of_findsLockHeld {as : List Action}
    (hrun : Machine.run (step settings) init as = some w)
    (h : FindsLockHeld settings as i client r) :
    w.tasks i =
      some (.initiate client r (.done (.raised (.duplicatePayment r.idempotencyKey)))) := by
  obtain ⟨as₁, as₂, u, rfl, hu, hi, hlock⟩ := h
  obtain ⟨u', hu', hrun⟩ := Machine.run_append.mp hrun
  cases hu.symm.trans hu'
  obtain ⟨v, hstep, hrun⟩ := Machine.run_cons.mp hrun
  refine done_stays ?_ hrun
  rw [step_of_move (.acquireLock .up hi)] at hstep
  cases hstep
  have hrefused : (redisSetNx .up (u.lock r.idempotencyKey) i).1 = false :=
    redisSetNx_refused.mpr ⟨rfl, hlock⟩
  simp [World.acquireLock, hrefused, InitiatePc.afterSetNx]

theorem answer_eq_some {answer : Answer} (h : w.answer? i = some (r, answer)) :
    ∃ client outcome, w.tasks i = some (.initiate client r (.done outcome)) ∧
      outcome.answer = answer := by
  unfold answer? at h
  split at h
  · rename_i client r' outcome hi
    cases h
    exact ⟨client, outcome, hi, rfl⟩
  · cases h

theorem eq_of_answer_conflict {outcome : InitiateOutcome} {key : String}
    (h : outcome.answer = .conflict key) : outcome = .raised (.duplicatePayment key) := by
  cases outcome with
  | raised e =>
    cases e with
    | duplicatePayment key' =>
      cases h
      rfl
    | call e => cases h
    | database => cases h
  | _ => cases h

/-- Another request for a created key never reaches Daraja. -/
theorem not_dispatched {i' : ℕ} {r' : STKPushInitiateRequest} {pc : InitiatePc}
    (o : Ownership w) (hc : .created i r pid ∈ w.log)
    (hi' : w.tasks i' = some (.initiate client r' pc))
    (hkey : r'.idempotencyKey = r.idempotencyKey) (hne : r ≠ r') (key : String)
    (args : InitiateArgs) : .dispatched i' key args ∉ w.log := by
  intro hd
  obtain ⟨r'', pid', hpassed, hc', -⟩ := o.dispatched hd
  obtain ⟨_, _, hi'', -⟩ := hpassed
  cases hi'.symm.trans hi''
  exact hne (o.key_unique hc hc' hkey.symm).2

theorem creator_eq_some {key : String} (h : w.creator? key = some (i, r)) :
    ∃ pid, .created i r pid ∈ w.log ∧ r.idempotencyKey = key := by
  obtain ⟨e, he, heq⟩ := List.exists_of_findSome?_eq_some h
  cases e with
  | created i' r' pid =>
    simp only at heq
    split_ifs at heq with hkey
    cases heq
    exact ⟨pid, he, hkey⟩
  | _ => cases heq

/-- A second request for a created key, with other parameters, is answered by a conflict and
without Daraja exactly when Redis tells it that the lock is held. -/
theorem key_reuse_conflicts_iff {as : List Action} {i₁ i₂ : ℕ}
    {r₁ r₂ : STKPushInitiateRequest} {answer : Answer}
    (hrun : Machine.run (step settings) init as = some w)
    (hcreator : w.creator? r₂.idempotencyKey = some (i₁, r₁))
    (hanswer : w.answer? i₂ = some (r₂, answer)) (hparams : ¬ r₁.SameParameters r₂) :
    (answer = .conflict r₂.idempotencyKey ∧ ∀ key args, .dispatched i₂ key args ∉ w.log) ↔
      ∃ client, FindsLockHeld settings as i₂ client r₂ := by
  obtain ⟨client, outcome, hi, rfl⟩ := answer_eq_some hanswer
  obtain ⟨pid, hc, hkey⟩ := creator_eq_some hcreator
  constructor
  · rintro ⟨hconflict, -⟩
    rw [eq_of_answer_conflict hconflict] at hi
    exact ⟨client, findsLockHeld_of_turnedAway hrun ⟨_, hi, rfl⟩⟩
  · rintro ⟨client', hheld⟩
    have hturned := turnedAway_of_findsLockHeld hrun hheld
    cases hi.symm.trans hturned
    refine ⟨rfl, not_dispatched (Reachable.ownership ⟨as, hrun⟩) hc hi hkey.symm ?_⟩
    rintro rfl
    exact hparams ⟨rfl, rfl, rfl, rfl, rfl⟩

def otherRequest : STKPushInitiateRequest :=
  { sampleRequest with
    amount := 700
    amount_pos := by norm_num
    amount_le := by norm_num
    amount_whole := by decide +kernel }

theorem not_sameParameters : ¬ sampleRequest.SameParameters otherRequest := by
  rintro ⟨-, hamount, -⟩
  revert hamount
  decide +kernel

def reuseInProgress : List Action :=
  sampleUntilPost 0 7 ++ [.startInitiate 1 0 otherRequest, .redis 1 .up, .redis 1 .up]

theorem reuseInProgress_enabled :
    (Machine.run (step {}) init reuseInProgress).isSome = true := by decide +kernel

theorem key_reuse_conflicts_sample :
    (Answer.conflict "key-0001" = .conflict "key-0001" ∧
        ∀ key args, .dispatched 1 key args ∉ (after {} _ reuseInProgress_enabled).log) ↔
      ∃ client, FindsLockHeld {} reuseInProgress 1 client otherRequest := by
  have hcreator : (after {} _ reuseInProgress_enabled).creator? otherRequest.idempotencyKey =
      some (0, sampleRequest) := by decide +kernel
  exact key_reuse_conflicts_iff (run_after reuseInProgress_enabled) hcreator
    (by decide +kernel) not_sameParameters

def reuseAfterwards : List Action :=
  sampleInitiation 0 7 ++ [.startInitiate 1 0 otherRequest, .redis 1 .up]

theorem reuseAfterwards_enabled :
    (Machine.run (step {}) init reuseAfterwards).isSome = true := by decide +kernel

theorem key_reuse_answered_from_cache :
    ¬ ∀ settings w i₁ i₂ r₁ r₂ answer, Reachable settings w →
      w.creator? r₂.idempotencyKey = some (i₁, r₁) → w.answer? i₂ = some (r₂, answer) →
        ¬ r₁.SameParameters r₂ → answer = .conflict r₂.idempotencyKey := by
  intro h
  have hconflict := h {} _ 0 1 sampleRequest otherRequest (.response sampleResponse)
    (reachable_after reuseAfterwards_enabled) (by decide +kernel) (by decide +kernel)
    not_sameParameters
  cases hconflict

/-- What is served from the cache or by the first call says that the payment is pending. -/
theorem Reachable.served_pending (h : Reachable settings w) :
    Served (fun _ _ response => response.status = "pending") w := by
  apply Machine.Reachable.invariant h fun _ _ hs => (not_serves_init hs).elim
  intro u a v _ s hstep
  apply s.step (move_of_step hstep)
  · intro key response hpending
    exact hpending
  · intro key response hrecords
    obtain ⟨-, -, -, rfl, -⟩ := hrecords
    rfl

theorem status_ne_pending {p : Payment} (h : answeredStatus p.status = true) :
    (paymentToResponse p).status ≠ "pending" := by
  intro hs
  have hpending : p.status = .pending := PaymentStatus.value_injective hs
  rw [hpending] at h
  cases h

/-- An answer from the database says that the payment is settled, and a call that initiated a
payment created its row. -/
structure Answered (w : World) : Prop where
  settled : ∀ ⦃i client r pc response⦄, w.tasks i = some (.initiate client r pc) →
    pc.outcome? = some (.dbHit response) → response.status ≠ "pending"
  initiated : ∀ ⦃i client r pc response⦄, w.tasks i = some (.initiate client r pc) →
    pc.outcome? = some (.initiated response) → .created i r response.paymentId ∈ w.log

theorem answered_init : Answered init where
  settled _ _ _ _ _ hi := by cases hi
  initiated _ _ _ _ _ hi := by cases hi

theorem Answered.settled_step {pc : InitiatePc} (s : Answered w) (h : Move settings w a w')
    (hi' : w'.tasks i = some (.initiate client r pc))
    (hpc : pc.outcome? = some (.dbHit response)) : response.status ≠ "pending" := by
  rcases h.initiate_cases hi' with hi | hmove
  · exact s.settled hi hpc
  · cases hmove with
    | answered hi ha hfails hfound hstatus =>
      cases hpc
      exact status_ne_pending hstatus
    | released hi => exact s.settled hi hpc
    | _ => cases hpc

theorem Answered.initiated_step {pc : InitiatePc} (s : Answered w) (o : Ownership w)
    (h : Move settings w a w') (hi' : w'.tasks i = some (.initiate client r pc))
    (hpc : pc.outcome? = some (.initiated response)) :
    .created i r response.paymentId ∈ w'.log := by
  rcases h.initiate_cases hi' with hi | hmove
  · exact h.log_mono (s.initiated hi hpc)
  · cases hmove with
    | cached hi =>
      cases hpc
      exact h.log_mono (o.owns hi rfl)
    | released hi => exact h.log_mono (s.initiated hi hpc)
    | _ => cases hpc

theorem Reachable.answered (h : Reachable settings w) : Answered w := by
  apply Machine.Reachable.invariant h answered_init
  intro u a v hu s hstep
  have hmove := move_of_step hstep
  exact
    { settled := fun _ _ _ _ _ hi' hpc => s.settled_step hmove hi' hpc
      initiated := fun _ _ _ _ _ hi' hpc =>
        s.initiated_step (Reachable.ownership hu) hmove hi' hpc }

/-- The call `i` initiated its payment and returned this response. -/
def succeeded? (w : World) (i : ℕ) : Option (STKPushInitiateRequest × STKPushInitiateResponse) :=
  match w.tasks i with
  | some (.initiate _ r (.done (.initiated response))) => some (r, response)
  | _ => none

/-- Some replay of the request that the cache answers and some replay that it does not answer
return the same payment, push and status. -/
def Transparent (settings : Settings) (w : World) (r : STKPushInitiateRequest) : Prop :=
  ∃ as u j client hit as' v j' client' outcome response,
    (Machine.run (step settings) w as = some u ∧ w.tasks j = none ∧
      u.tasks j = some (.initiate client r (.done (.cacheHit hit)))) ∧
    (Machine.run (step settings) w as' = some v ∧ w.tasks j' = none ∧
      v.tasks j' = some (.initiate client' r (.done outcome)) ∧
      (∀ response', outcome ≠ .cacheHit response') ∧ outcome.response? = some response) ∧
    hit.SameIdentifiers response ∧ hit.status = response.status

theorem succeeded_eq_some (h : w.succeeded? i = some (r, response)) :
    ∃ client, w.tasks i = some (.initiate client r (.done (.initiated response))) := by
  unfold succeeded? at h
  split at h
  · rename_i client r' response' hi
    cases h
    exact ⟨client, hi⟩
  · cases h

theorem not_initiated_again {as : List Action} {j client' : ℕ}
    {response' : STKPushInitiateResponse} (hw : Reachable settings w)
    (hi : w.tasks i = some (.initiate client r (.done (.initiated response))))
    (hrun : Machine.run (step settings) w as = some w') (hj : w.tasks j = none)
    (hj' : w'.tasks j = some (.initiate client' r (.done (.initiated response')))) : False := by
  have hw' : Reachable settings w' := Machine.Reachable.run hw hrun
  have hdone := done_stays hi hrun
  have hcreated := hw'.answered.initiated hdone rfl
  have hcreated' := hw'.answered.initiated hj' rfl
  obtain ⟨hij, -⟩ := hw'.ownership.key_unique hcreated hcreated' rfl
  subst hij
  rw [hj] at hi
  cases hi

/-- A replay that the cache answers says "pending"; one that it does not answer says that the
payment is settled, or returns nothing. -/
theorem status_of_replay {as : List Action} {j client' : ℕ} {outcome : InitiateOutcome}
    {response' : STKPushInitiateResponse} (hw : Reachable settings w)
    (hi : w.tasks i = some (.initiate client r (.done (.initiated response))))
    (hrun : Machine.run (step settings) w as = some w') (hj : w.tasks j = none)
    (hj' : w'.tasks j = some (.initiate client' r (.done outcome)))
    (hresponse : outcome.response? = some response') :
    outcome = .cacheHit response' ∧ response'.status = "pending" ∨
      outcome = .dbHit response' ∧ response'.status ≠ "pending" := by
  have hw' : Reachable settings w' := Machine.Reachable.run hw hrun
  cases outcome with
  | cacheHit hit =>
    cases hresponse
    exact Or.inl ⟨rfl, hw'.served_pending (.issued hj' rfl rfl rfl)⟩
  | dbHit hit =>
    cases hresponse
    exact Or.inr ⟨rfl, hw'.answered.settled hj' rfl⟩
  | initiated response'' => exact (not_initiated_again hw hi hrun hj hj').elim
  | raised e => cases hresponse

theorem not_transparent (hw : Reachable settings w)
    (hi : w.tasks i = some (.initiate client r (.done (.initiated response)))) :
    ¬ Transparent settings w r := by
  rintro ⟨as, u, j, client₁, hit, as', v, j', client₂, outcome, response', ⟨hu, hj, huj⟩,
    ⟨hv, hj', hvj, hmiss, hresponse⟩, -, hstatus⟩
  rcases status_of_replay hw hi hu hj huj rfl with ⟨-, hpending⟩ | ⟨hdb, -⟩
  · rcases status_of_replay hw hi hv hj' hvj hresponse with ⟨hcached, -⟩ | ⟨-, hsettled⟩
    · exact hmiss response' hcached
    · exact hsettled (hstatus ▸ hpending)
  · cases hdb

/-- After a success the cache is in no state a transparent fast path: whatever the status of the
row, a replay that it answers and one that it does not answer never return the same. -/
theorem cache_never_transparent (hw : Reachable settings w)
    (hsucceeded : w.succeeded? i = some (r, response)) : ¬ Transparent settings w r := by
  obtain ⟨client, hi⟩ := succeeded_eq_some hsucceeded
  exact not_transparent hw hi

theorem cache_never_transparent_sample :
    ¬ Transparent {} (after {} _ sampleConfirmation_enabled) sampleRequest :=
  cache_never_transparent (reachable_after sampleConfirmation_enabled)
    (by decide +kernel : succeeded? _ 0 = some (sampleRequest, sampleResponse))

theorem confirmed_replay_differs :
    ¬ ∀ settings w i r response, Reachable settings w →
      w.succeeded? i = some (r, response) → w.lock r.idempotencyKey = none →
        (w.idem r.idempotencyKey).isSome = true → Transparent settings w r := by
  intro h
  have hsucceeded : (after {} _ sampleConfirmation_enabled).succeeded? 0 =
      some (sampleRequest, sampleResponse) := by decide +kernel
  obtain ⟨client, hi⟩ := succeeded_eq_some hsucceeded
  exact not_transparent (reachable_after sampleConfirmation_enabled) hi
    (h {} _ 0 sampleRequest sampleResponse (reachable_after sampleConfirmation_enabled)
      hsucceeded (by decide +kernel) (by decide +kernel))

end World
end DarajaWrapper
