import DarajaWrapper.Schemas.ResponseText
import DarajaWrapper.System.Cache
import DarajaWrapper.System.Conflict

/-!
# How initiations are answered

The route documents 202, 409 and 503. No client object ever leaves the closed state, so no
call is refused by the circuit breaker; and the handler of `DuplicatePaymentError` raises. What
is left are 202, 502 for what Daraja or its token endpoint got wrong, and 500.
-/

namespace DarajaWrapper

open Python

def InitiateOutcome.httpResponse (detail : DarajaError → String) : InitiateOutcome → JSONResponse
  | .raised e => answered (e.handle detail)
  | .cacheHit response => { statusCode := 202, content := response.content }
  | .dbHit response => { statusCode := 202, content := response.content }
  | .initiated response => { statusCode := 202, content := response.content }

def World.httpResponse? (detail : DarajaError → String) (w : World) (i : ℕ) :
    Option JSONResponse :=
  match w.tasks i with
  | some (.initiate _ _ (.done outcome)) => some (outcome.httpResponse detail)
  | _ => none

def DarajaErrorClass.isCircuitOpen : DarajaErrorClass → Bool
  | .circuitOpen _ => true
  | _ => false

/-- Of the subclasses of `DarajaError`, `get_token` raises `DarajaAuthError` only. -/
def Action.authentic : Action → Bool
  | .attempt _ (.authError e) _ => e.cls = .auth
  | _ => true

def InitiateOutcome.darajaError? : InitiateOutcome → Option DarajaError
  | .raised (.call (.daraja e)) => some e
  | _ => none

/-- The error of Daraja that the call is about to be answered with, or was. -/
def InitiatePc.darajaError? : InitiatePc → Option DarajaError
  | .markFailed _ e => some e
  | .releaseLock outcome => outcome.darajaError?
  | .done outcome => outcome.darajaError?
  | _ => none

section

variable {settings : Settings} {now : ℚ} {n : ℕ} {c : DarajaClient} {reply : AttemptReply}
  {e : DarajaError}

theorem DarajaClient.checkCircuit_of_closed (h : c.state = .closed) :
    c.checkCircuit settings now = .ok c := by
  rw [DarajaClient.checkCircuit, h]

theorem DarajaClient.onFailure_state : (c.onFailure settings now).state = c.state := by
  unfold DarajaClient.onFailure
  dsimp only
  rw [ite_self]

theorem executeRequest_state : (executeRequest settings now c reply).1.state = c.state := by
  cases reply with
  | response status text json =>
    simp only [executeRequest]
    split_ifs
    · exact DarajaClient.onFailure_state
    · rfl
    · rfl
    · cases json <;> rfl
  | _ => rfl

theorem attempt_state_of_closed (h : c.state = .closed) :
    (attempt settings now n c reply).1.state = .closed := by
  have hstate : (executeRequest settings now c reply).1.state = .closed :=
    executeRequest_state.trans h
  unfold attempt
  split
  · rfl
  · rename_i hrequest
    rwa [hrequest] at hstate
  · rename_i hrequest
    rwa [hrequest] at hstate
  · rename_i hrequest
    rw [hrequest] at hstate
    exact DarajaClient.onFailure_state.trans hstate

/-- The errors that an attempt raises itself are plain `DarajaError`s. -/
theorem attempt_raised (h : (attempt settings now n c reply).2 = .raised (.daraja e)) :
    reply = .authError e ∨ e.cls = .daraja := by
  cases reply with
  | authError e' =>
    cases h
    exact Or.inl rfl
  | tokenError => cases h
  | timeout | transportError =>
    simp only [attempt, executeRequest] at h
    split_ifs at h
    cases h
  | response status text json =>
    refine Or.inr ?_
    simp only [attempt, executeRequest] at h
    by_cases h5 : 500 ≤ status
    · simp only [h5, if_true] at h
      split_ifs at h
      cases h
    · by_cases h401 : status = 401
      · simp only [h401] at h
        cases h
        rfl
      · by_cases h4 : 400 ≤ status
        · simp only [h5, h401, h4, if_true, if_false] at h
          cases h
          unfold clientError
          split <;> rfl
        · cases json <;> simp [h5, h401, h4] at h

theorem initiateResult_error {raw : Json} (h : initiateResult raw = .error e) :
    e.cls = .daraja := by
  unfold initiateResult at h
  split at h
  · cases h
    rfl
  · split_ifs at h
    cases h
    rfl

end

namespace World

variable {settings : Settings} {detail : DarajaError → String} {w w' : World} {a : Action}
  {i client n : ℕ} {r : STKPushInitiateRequest} {pc : InitiatePc} {pid : UUID} {e : DarajaError}

theorem Move.callDaraja_next (h : Move settings w a w')
    (hi : w.tasks i = some (.initiate client r (.callDaraja pid)))
    (hi' : w'.tasks i = some (.initiate client r pc)) :
    pc = .callDaraja pid ∨ pc = .crashed ∨
      pc = .afterCheckCircuit pid ((w.clients client).checkCircuit settings w.now) := by
  by_cases ha : a.task? = some i
  · cases h with
    | invoke hj =>
      cases ha
      cases hj.symm.trans hi
      cases setTask_inj hi'
      exact Or.inr (Or.inr rfl)
    | crash hj hlive =>
      cases ha
      cases hj.symm.trans hi
      cases setTask_inj hi'
      exact Or.inr (Or.inl rfl)
    | tick | evictIdem | expireLock | expireDedup => cases ha
    | startInitiate client r hj | startCallback cb hj | startSweep hj | claim link hj
    | lookupByCheckout link hj | applyCallback link hj | selectStale link hj | visitRow link hj
    | cacheGet link hj | acquireLock link hj | lookupByKey link hj | createRow link paymentId hj
    | makeAttempt reply accepted hagrees hj | markFailed link hj | storeIds link hj
    | cacheResult link hj | releaseLock link hj =>
      cases ha
      cases hj.symm.trans hi
  · have hsame := (h.tasks_of_ne ha).trans hi
    cases hsame.symm.trans hi'
    exact Or.inl rfl

theorem Move.posting_next (h : Move settings w a w')
    (hi : w.tasks i = some (.initiate client r (.posting pid n)))
    (hi' : w'.tasks i = some (.initiate client r pc)) :
    pc = .posting pid n ∨ pc = .crashed ∨ ∃ reply accepted, a = .attempt i reply accepted ∧
      pc = .afterAttempt pid n (attempt settings w.now n (w.clients client) reply).2 := by
  by_cases ha : a.task? = some i
  · cases h with
    | makeAttempt reply accepted hagrees hj =>
      cases ha
      cases hj.symm.trans hi
      cases setTask_inj hi'
      exact Or.inr (Or.inr ⟨reply, accepted, rfl, rfl⟩)
    | crash hj hlive =>
      cases ha
      cases hj.symm.trans hi
      cases setTask_inj hi'
      exact Or.inr (Or.inl rfl)
    | tick | evictIdem | expireLock | expireDedup => cases ha
    | startInitiate client r hj | startCallback cb hj | startSweep hj | claim link hj
    | lookupByCheckout link hj | applyCallback link hj | selectStale link hj | visitRow link hj
    | cacheGet link hj | acquireLock link hj | lookupByKey link hj | createRow link paymentId hj
    | invoke hj | markFailed link hj | storeIds link hj | cacheResult link hj
    | releaseLock link hj =>
      cases ha
      cases hj.symm.trans hi
  · have hsame := (h.tasks_of_ne ha).trans hi
    cases hsame.symm.trans hi'
    exact Or.inl rfl

/-- Where the error of Daraja comes from that a call is answered with: it was there before the
step, the circuit was open, or the attempt failed for good. -/
inductive ErrorOrigin (settings : Settings) (w : World) (a : Action) (i client : ℕ)
    (r : STKPushInitiateRequest) (e : DarajaError) : Prop
  | before {pc : InitiatePc} (hi : w.tasks i = some (.initiate client r pc))
      (he : pc.darajaError? = some e) : ErrorOrigin settings w a i client r e
  | refused {pid : UUID} (hi : w.tasks i = some (.initiate client r (.callDaraja pid)))
      (he : (w.clients client).checkCircuit settings w.now = .error e) :
      ErrorOrigin settings w a i client r e
  | raised {pid : UUID} {n : ℕ} {reply : AttemptReply} {accepted : Option DarajaIds}
      (ha : a = .attempt i reply accepted)
      (hi : w.tasks i = some (.initiate client r (.posting pid n)))
      (he : reply = .authError e ∨ e.cls = .daraja) : ErrorOrigin settings w a i client r e

theorem origin_of_afterAttempt {result : AttemptResult}
    (h : (InitiatePc.afterAttempt pid n result).darajaError? = some e) :
    result = .raised (.daraja e) ∨ ∃ raw, initiateResult raw = .error e := by
  cases result with
  | returned raw =>
    cases hresult : initiateResult raw with
    | ok result =>
      simp only [InitiatePc.afterAttempt, hresult] at h
      cases h
    | error e' =>
      simp only [InitiatePc.afterAttempt, hresult] at h
      cases h
      exact Or.inr ⟨raw, hresult⟩
  | retry => cases h
  | raised e' =>
    cases e' with
    | daraja e'' =>
      cases h
      exact Or.inl rfl
    | retryError | other => cases h

theorem Move.errorOrigin (h : Move settings w a w')
    (hi' : w'.tasks i = some (.initiate client r pc)) (he : pc.darajaError? = some e) :
    ErrorOrigin settings w a i client r e := by
  rcases h.initiate_cases hi' with hsame | hmove
  · exact .before hsame he
  · cases hmove with
    | circuitOpen hi =>
      rcases h.callDaraja_next hi hi' with hpc | hpc | hpc
      · cases hpc
      · cases hpc
      · cases hchecked : (w.clients client).checkCircuit settings w.now with
        | ok c =>
          rw [hchecked] at hpc
          cases hpc
        | error e' =>
          rw [hchecked] at hpc
          cases hpc
          cases he
          exact .refused hi hchecked
    | rejected hi | callRaised hi =>
      rcases h.posting_next hi hi' with hpc | hpc | ⟨reply, accepted, ha, hpc⟩
      · cases hpc
      · cases hpc
      · rw [hpc] at he
        rcases origin_of_afterAttempt he with hraised | ⟨raw, hresult⟩
        · exact .raised ha hi (attempt_raised hraised)
        · exact .raised ha hi (Or.inr (initiateResult_error hresult))
    | failed hi | released hi => exact .before hi he
    | _ => cases he

/-- Every circuit is closed. A call that is answered with an error of Daraja has not met an open
one, and has created its payment. -/
structure CircuitsClosed (w : World) : Prop where
  closed : ∀ client, (w.clients client).state = .closed
  errors : ∀ ⦃i client r pc e⦄, w.tasks i = some (.initiate client r pc) →
    pc.darajaError? = some e → e.cls.isCircuitOpen = false ∧ ∃ pid, .created i r pid ∈ w.log

theorem circuitsClosed_init : CircuitsClosed init where
  closed _ := rfl
  errors _ _ _ _ _ hi := by cases hi

/-- Only the initiator uses the client objects. -/
theorem Move.clients_closed (hw : CircuitsClosed w) (h : Move settings w a w') (client : ℕ) :
    (w'.clients client).state = .closed := by
  have hupdate : ∀ j (c : DarajaClient), c.state = .closed →
      (Function.update w.clients j c client).state = .closed := by
    intro j c hc
    by_cases hj : client = j
    · rw [hj, Function.update_self]
      exact hc
    · rw [Function.update_of_ne hj]
      exact hw.closed client
  cases h with
  | @invoke j client' r' pid hi =>
    refine hupdate client' _ ?_
    rw [DarajaClient.checkCircuit_of_closed (hw.closed client')]
    exact hw.closed client'
  | makeAttempt reply accepted hagrees hi =>
    exact hupdate _ _ (attempt_state_of_closed (hw.closed _))
  | visitRow link hi =>
    unfold World.visitRow
    split_ifs
    · exact hw.closed client
    · exact hw.closed client
  | _ => exact hw.closed client

theorem circuitsClosed_step (o : Ownership w) (hw : CircuitsClosed w) (hauth : a.authentic = true)
    (h : Move settings w a w') : CircuitsClosed w' where
  closed client := h.clients_closed hw client
  errors i client r pc e hi' he := by
    cases h.errorOrigin hi' he with
    | before hi he =>
      obtain ⟨hcls, pid, hcreated⟩ := hw.errors hi he
      exact ⟨hcls, pid, h.log_mono hcreated⟩
    | refused hi he =>
      rw [DarajaClient.checkCircuit_of_closed (hw.closed client)] at he
      cases he
    | @raised pid n reply accepted ha hi he =>
      refine ⟨?_, pid, h.log_mono (o.owns hi rfl)⟩
      rcases he with rfl | hcls
      · subst ha
        have hcls : e.cls = .auth := by simpa [Action.authentic] using hauth
        rw [hcls]
        rfl
      · rw [hcls]
        rfl

theorem circuitsClosed_of_run {as : List Action} (hauth : ∀ a ∈ as, a.authentic = true)
    (hrun : Machine.run (step settings) init as = some w) : CircuitsClosed w := by
  have hok : Machine.Meets (step settings) (fun _ a => a.authentic = true) init as :=
    Machine.meets_of_forall fun a ha _ => hauth a ha
  refine Machine.run_invariant_of_meets circuitsClosed_init ?_ hok hrun
  intro u a v hu hw ha hstep
  exact circuitsClosed_step (Reachable.ownership hu) hw ha (move_of_step hstep)

theorem httpResponse?_eq_some {response : JSONResponse}
    (h : w.httpResponse? detail i = some response) :
    ∃ client r outcome, w.tasks i = some (.initiate client r (.done outcome)) ∧
      outcome.httpResponse detail = response := by
  unfold httpResponse? at h
  split at h
  · rename_i client r outcome hi
    exact ⟨client, r, outcome, hi, Option.some.inj h⟩
  · cases h

theorem answered_handle (detail : DarajaError → String) {error : ServiceError}
    (h : ∀ e, error = .call (.daraja e) → e.cls.isCircuitOpen = false) :
    (∃ e, error = .call (.daraja e) ∧ (answered (error.handle detail)).statusCode = 502) ∨
      answered (error.handle detail) = internalServerError := by
  cases error with
  | duplicatePayment key =>
    refine Or.inr ?_
    rw [ServiceError.handle, duplicate_duplicatePaymentError]
    rfl
  | database => exact Or.inr rfl
  | call e =>
    cases e with
    | retryError | other => exact Or.inr rfl
    | daraja e =>
      refine Or.inl ⟨e, rfl, ?_⟩
      have hcls := h e rfl
      cases hc : e.cls with
      | circuitOpen retryAfter =>
        rw [hc] at hcls
        cases hcls
      | daraja | auth | timeout =>
        simp only [ServiceError.handle, hc]
        rfl

/-- Every call that has ended is answered with 202 and the response that it returned, with 502
after it has created a payment, or with the 500 of an unhandled exception. -/
theorem calls_answered {as : List Action} {response : JSONResponse}
    (hauth : ∀ a ∈ as, a.authentic = true)
    (hrun : Machine.run (step settings) init as = some w)
    (h : w.httpResponse? detail i = some response) :
    (response.statusCode = 202 ∧
      ∃ key body, w.returned? i = some (key, body) ∧ response.content = body.content) ∨
    (response.statusCode = 502 ∧ ∃ r pid, .created i r pid ∈ w.log) ∨
    response = internalServerError := by
  obtain ⟨client, r, outcome, hi, rfl⟩ := httpResponse?_eq_some h
  have hreturned : ∀ body, outcome.response? = some body →
      w.returned? i = some (r.idempotencyKey, body) := by
    intro body hbody
    rw [returned?, hi]
    simp only [hbody, Option.map_some]
  cases outcome with
  | cacheHit body | dbHit body | initiated body =>
    exact Or.inl ⟨rfl, r.idempotencyKey, body, hreturned body rfl, rfl⟩
  | raised error =>
    have herrors : ∀ e, error = .call (.daraja e) →
        e.cls.isCircuitOpen = false ∧ ∃ pid, .created i r pid ∈ w.log := by
      rintro e rfl
      exact (circuitsClosed_of_run hauth hrun).errors hi rfl
    rcases answered_handle detail fun e he => (herrors e he).1 with
      ⟨e, he, hstatus⟩ | hinternal
    · obtain ⟨pid, hcreated⟩ := (herrors e he).2
      exact Or.inr (Or.inl ⟨hstatus, r, pid, hcreated⟩)
    · exact Or.inr (Or.inr hinternal)

theorem sampleInitiation_answered :
    ((after {} _ sampleInitiation_enabled).httpResponse? (fun _ => "") 0).isSome = true := by
  decide +kernel

theorem calls_answered_sample :
    ∃ response, (after {} _ sampleInitiation_enabled).httpResponse? (fun _ => "") 0 =
        some response ∧
      (response.statusCode = 202 ∨ response.statusCode = 502 ∨
        response = internalServerError) := by
  obtain ⟨response, h⟩ := Option.isSome_iff_exists.mp sampleInitiation_answered
  refine ⟨response, h, ?_⟩
  rcases calls_answered (by decide) (run_after sampleInitiation_enabled) h with
    ⟨h202, -⟩ | ⟨h502, -⟩ | h500
  · exact Or.inl h202
  · exact Or.inr (Or.inl h502)
  · exact Or.inr (Or.inr h500)

end World
end DarajaWrapper
