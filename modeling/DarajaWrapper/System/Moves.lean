import DarajaWrapper.System.World

/-!
# What one step can do

`Move` lists the operations of the system with the task that waits for each, and
every enabled step is one of them. Invariants are proved by cases on the move.
-/

namespace DarajaWrapper
namespace World

inductive Move (settings : Settings) (w : World) : Action → World → Prop
  | tick {d : ℚ} (hd : 0 ≤ d) : Move settings w (.tick d) { w with now := w.now + d }
  | evictIdem (key : String) :
      Move settings w (.evictIdem key) { w with idem := Function.update w.idem key none }
  | expireLock (key : String) :
      Move settings w (.expireLock key) { w with lock := Function.update w.lock key none }
  | expireDedup (c : String) :
      Move settings w (.expireDedup c) { w with dedup := Function.update w.dedup c none }
  | startInitiate {i : ℕ} (client : ℕ) (r : STKPushInitiateRequest) (hi : w.tasks i = none) :
      Move settings w (.startInitiate i client r) (w.setTask i (.initiate client r .cacheGet))
  | startCallback {i : ℕ} (cb : STKCallbackBody) (hi : w.tasks i = none) :
      Move settings w (.startCallback i cb)
        ({ w with log := .reported cb :: w.log }.setTask i (.callback cb .claim))
  | startSweep {i : ℕ} (hi : w.tasks i = none) :
      Move settings w (.startSweep i) (w.setTask i (.sweep (.select (w.now - staleAge))))
  | cacheGet {i client : ℕ} {r : STKPushInitiateRequest} (link : Link)
      (hi : w.tasks i = some (.initiate client r .cacheGet)) :
      Move settings w (.redis i link) (w.cacheGet i client r link)
  | acquireLock {i client : ℕ} {r : STKPushInitiateRequest} (link : Link)
      (hi : w.tasks i = some (.initiate client r .acquireLock)) :
      Move settings w (.redis i link) (w.acquireLock i client r link)
  | lookupByKey {i client : ℕ} {r : STKPushInitiateRequest} (link : Link)
      (hi : w.tasks i = some (.initiate client r .lookup)) :
      Move settings w (.query i link) (w.lookupByKey i client r link)
  | createRow {i client : ℕ} {r : STKPushInitiateRequest} {createdAt : ℚ} (link : Link)
      (paymentId : UUID) (hi : w.tasks i = some (.initiate client r (.create createdAt))) :
      Move settings w (.insert i paymentId link) (w.createRow i client r link createdAt paymentId)
  | invoke {i client : ℕ} {r : STKPushInitiateRequest} {paymentId : UUID}
      (hi : w.tasks i = some (.initiate client r (.callDaraja paymentId))) :
      Move settings w (.callDaraja i) (w.invoke settings i client r paymentId)
  | makeAttempt {i client : ℕ} {r : STKPushInitiateRequest} {paymentId : UUID} {n : ℕ}
      (reply : AttemptReply) (accepted : Option DarajaIds)
      (hagrees : reply.agrees accepted = true)
      (hi : w.tasks i = some (.initiate client r (.posting paymentId n))) :
      Move settings w (.attempt i reply accepted)
        (w.makeAttempt settings i client r paymentId n reply accepted)
  | markFailed {i client : ℕ} {r : STKPushInitiateRequest} {paymentId : UUID} {e : DarajaError}
      (link : Link) (hi : w.tasks i = some (.initiate client r (.markFailed paymentId e))) :
      Move settings w (.write i link) (w.markFailed i client r link paymentId e)
  | storeIds {i client : ℕ} {r : STKPushInitiateRequest} {paymentId : UUID}
      {result : STKInitiationResult} (link : Link)
      (hi : w.tasks i = some (.initiate client r (.updateIds paymentId result))) :
      Move settings w (.write i link) (w.storeIds i client r link paymentId result)
  | cacheResult {i client : ℕ} {r : STKPushInitiateRequest} {response : STKPushInitiateResponse}
      (link : Link) (hi : w.tasks i = some (.initiate client r (.cacheResult response))) :
      Move settings w (.redis i link) (w.cacheResult i client r link response)
  | releaseLock {i client : ℕ} {r : STKPushInitiateRequest} {outcome : InitiateOutcome}
      (link : Link) (hi : w.tasks i = some (.initiate client r (.releaseLock outcome))) :
      Move settings w (.redis i link) (w.releaseLock i client r link outcome)
  | claim {i : ℕ} {cb : STKCallbackBody} (link : Link)
      (hi : w.tasks i = some (.callback cb .claim)) :
      Move settings w (.redis i link) (w.claim i cb link)
  | lookupByCheckout {i : ℕ} {cb : STKCallbackBody} (link : Link)
      (hi : w.tasks i = some (.callback cb .lookup)) :
      Move settings w (.query i link) (w.lookupByCheckout i cb link)
  | applyCallback {i : ℕ} {cb : STKCallbackBody} {paymentId : UUID} (link : Link)
      (hi : w.tasks i = some (.callback cb (.apply paymentId))) :
      Move settings w (.write i link) (w.applyCallback i cb link paymentId)
  | selectStale {i : ℕ} {cutoff : ℚ} {ids : List UUID} {batch : List StaleRow} (link : Link)
      (hi : w.tasks i = some (.sweep (.select cutoff)))
      (hbatch : w.payments.staleBatch cutoff ids = some batch) :
      Move settings w (.select i ids link) (w.selectStale i link batch)
  | visitRow {i : ℕ} {row : StaleRow} {rest : List StaleRow} (link : Link)
      (hi : w.tasks i = some (.sweep (.rows (row :: rest)))) :
      Move settings w (.write i link) (w.visitRow i link row rest)
  | crash {i : ℕ} {task : Task} (hi : w.tasks i = some task) (hlive : task.finished = false) :
      Move settings w (.crash i) (w.setTask i task.crash)

variable {settings : Settings} {w w' : World} {a : Action}

theorem move_of_step (h : step settings w a = some w') : Move settings w a w' := by
  cases a with
  | tick d =>
    simp only [step] at h
    split_ifs at h with hd
    cases h
    exact .tick hd
  | evictIdem key =>
    cases h
    exact .evictIdem key
  | expireLock key =>
    cases h
    exact .expireLock key
  | expireDedup c =>
    cases h
    exact .expireDedup c
  | startInitiate i client r =>
    simp only [step] at h
    split at h <;> cases h
    exact .startInitiate client r ‹_›
  | startCallback i cb =>
    simp only [step] at h
    split at h <;> cases h
    exact .startCallback cb ‹_›
  | startSweep i =>
    simp only [step] at h
    split at h <;> cases h
    exact .startSweep ‹_›
  | redis i link =>
    simp only [step] at h
    split at h <;> cases h
    · exact .cacheGet link ‹_›
    · exact .acquireLock link ‹_›
    · exact .cacheResult link ‹_›
    · exact .releaseLock link ‹_›
    · exact .claim link ‹_›
  | query i link =>
    simp only [step] at h
    split at h <;> cases h
    · exact .lookupByKey link ‹_›
    · exact .lookupByCheckout link ‹_›
  | select i ids link =>
    simp only [step] at h
    split at h
    · obtain ⟨batch, hbatch, rfl⟩ := Option.map_eq_some_iff.mp h
      exact .selectStale link ‹_› hbatch
    · cases h
  | insert i paymentId link =>
    simp only [step] at h
    split at h <;> cases h
    exact .createRow link paymentId ‹_›
  | write i link =>
    simp only [step] at h
    split at h <;> cases h
    · exact .markFailed link ‹_›
    · exact .storeIds link ‹_›
    · exact .applyCallback link ‹_›
    · exact .visitRow link ‹_›
  | callDaraja i =>
    simp only [step] at h
    split at h <;> cases h
    exact .invoke ‹_›
  | attempt i reply accepted =>
    simp only [step] at h
    split at h
    · split_ifs at h with hagrees
      cases h
      exact .makeAttempt reply accepted hagrees ‹_›
    · cases h
  | crash i =>
    simp only [step] at h
    split at h
    · split_ifs at h with hlive
      cases h
      exact .crash ‹_› (by simpa using hlive)
    · cases h

theorem step_of_move (h : Move settings w a w') : step settings w a = some w' := by
  cases h with
  | tick hd => simp [step, hd]
  | evictIdem key => rfl
  | expireLock key => rfl
  | expireDedup c => rfl
  | makeAttempt reply accepted hagrees hi => simp [step, hi, hagrees]
  | selectStale link hi hbatch => simp [step, hi, hbatch]
  | crash hi hlive => simp [step, hi, hlive]
  | startInitiate client r hi | startCallback cb hi | startSweep hi => simp [step, hi]
  | cacheGet link hi | acquireLock link hi | lookupByKey link hi | createRow link paymentId hi
  | markFailed link hi | storeIds link hi | cacheResult link hi | releaseLock link hi
  | claim link hi | lookupByCheckout link hi | applyCallback link hi | visitRow link hi =>
    simp [step, hi]
  | invoke hi => simp [step, hi]

/-- A step advances one task, the one its action names, or none. -/
theorem Move.tasks_cases (h : Move settings w a w') :
    w'.tasks = w.tasks ∨
      ∃ i task, a.task? = some i ∧ w'.tasks = Function.update w.tasks i (some task) := by
  cases h with
  | tick hd => exact Or.inl rfl
  | evictIdem key => exact Or.inl rfl
  | expireLock key => exact Or.inl rfl
  | expireDedup c => exact Or.inl rfl
  | visitRow link hi =>
    unfold World.visitRow
    split_ifs
    · exact Or.inr ⟨_, _, rfl, rfl⟩
    · exact Or.inr ⟨_, _, rfl, rfl⟩
  | _ => exact Or.inr ⟨_, _, rfl, rfl⟩

theorem Move.tasks_of_ne {j : ℕ} (h : Move settings w a w') (hj : a.task? ≠ some j) :
    w'.tasks j = w.tasks j := by
  rcases h.tasks_cases with ht | ⟨i, task, hi, ht⟩
  · rw [ht]
  · rw [ht, Function.update_of_ne]
    rintro rfl
    exact hj hi

/-- How an initiation came to wait where it does after the step that advanced it. -/
inductive InitiateMove (settings : Settings) (w : World) (a : Action) (w' : World)
    (i client : ℕ) (r : STKPushInitiateRequest) : InitiatePc → Prop
  | start (hi : w.tasks i = none) : InitiateMove settings w a w' i client r .cacheGet
  | cacheHit {response : STKPushInitiateResponse}
      (hi : w.tasks i = some (.initiate client r .cacheGet))
      (hidem : w.idem r.idempotencyKey = some response) :
      InitiateMove settings w a w' i client r (.done (.cacheHit response))
  | cacheMiss (hi : w.tasks i = some (.initiate client r .cacheGet)) :
      InitiateMove settings w a w' i client r .acquireLock
  | lockRefused (hi : w.tasks i = some (.initiate client r .acquireLock))
      (ha : a = .redis i .up) (hlock : (w.lock r.idempotencyKey).isSome = true) :
      InitiateMove settings w a w' i client r (.done (.raised (.duplicatePayment r.idempotencyKey)))
  | lockAcquired {link : Link} (hi : w.tasks i = some (.initiate client r .acquireLock))
      (ha : a = .redis i link)
      (hlock : ¬ (link = .up ∧ (w.lock r.idempotencyKey).isSome = true)) :
      InitiateMove settings w a w' i client r .lookup
  | lookupFailed (hi : w.tasks i = some (.initiate client r .lookup)) :
      InitiateMove settings w a w' i client r (.releaseLock (.raised .database))
  | answered {p : Payment} {link : Link} (hi : w.tasks i = some (.initiate client r .lookup))
      (ha : a = .query i link) (hfails : selectFails link r.idempotencyKey = false)
      (hfound : w.payments.getByIdempotencyKey r.idempotencyKey = some p)
      (hstatus : answeredStatus p.status = true) :
      InitiateMove settings w a w' i client r (.releaseLock (.dbHit (paymentToResponse p)))
  | unanswered (hi : w.tasks i = some (.initiate client r .lookup)) :
      InitiateMove settings w a w' i client r (.create w.now)
  | createFailed {createdAt : ℚ} (hi : w.tasks i = some (.initiate client r (.create createdAt))) :
      InitiateMove settings w a w' i client r (.releaseLock (.raised .database))
  | created {createdAt : ℚ} {paymentId : UUID}
      (hi : w.tasks i = some (.initiate client r (.create createdAt)))
      (ht : w.payments.create (newPayment r paymentId createdAt) = some w'.payments)
      (hlog : w'.log = .created i r paymentId :: w.log) :
      InitiateMove settings w a w' i client r (.callDaraja paymentId)
  | circuitClosed {paymentId : UUID}
      (hi : w.tasks i = some (.initiate client r (.callDaraja paymentId))) :
      InitiateMove settings w a w' i client r (.posting paymentId 1)
  | circuitOpen {paymentId : UUID} {e : DarajaError}
      (hi : w.tasks i = some (.initiate client r (.callDaraja paymentId))) :
      InitiateMove settings w a w' i client r (.markFailed paymentId e)
  | retried {paymentId : UUID} {n : ℕ} {reply : AttemptReply} {accepted : Option DarajaIds}
      (hi : w.tasks i = some (.initiate client r (.posting paymentId n)))
      (ha : a = .attempt i reply accepted) (hambiguous : reply.ambiguous = true)
      (hn : n < settings.darajaRetryAttempts) :
      InitiateMove settings w a w' i client r (.posting paymentId (n + 1))
  | acknowledged {paymentId : UUID} {n : ℕ} {reply : AttemptReply} {result : STKInitiationResult}
      (hi : w.tasks i = some (.initiate client r (.posting paymentId n)))
      (hlog : w'.log = .posted i r.idempotencyKey paymentId reply
        (some ⟨result.checkoutRequestId, result.merchantRequestId⟩) :: w.log) :
      InitiateMove settings w a w' i client r (.updateIds paymentId result)
  | rejected {paymentId : UUID} {n : ℕ} {e : DarajaError}
      (hi : w.tasks i = some (.initiate client r (.posting paymentId n))) :
      InitiateMove settings w a w' i client r (.markFailed paymentId e)
  | callRaised {paymentId : UUID} {n : ℕ} {e : CallError}
      (hi : w.tasks i = some (.initiate client r (.posting paymentId n))) :
      InitiateMove settings w a w' i client r (.releaseLock (.raised (.call e)))
  | failed {paymentId : UUID} {e : DarajaError}
      (hi : w.tasks i = some (.initiate client r (.markFailed paymentId e))) :
      InitiateMove settings w a w' i client r (.releaseLock (.raised (.call (.daraja e))))
  | idsStored {paymentId : UUID} {result : STKInitiationResult} (ha : a = .write i .up)
      (hi : w.tasks i = some (.initiate client r (.updateIds paymentId result)))
      (ht : w.payments.updateDarajaIds w.now paymentId result.checkoutRequestId
        result.merchantRequestId = some w'.payments) :
      InitiateMove settings w a w' i client r (.cacheResult (initiatedResponse paymentId result))
  | idsFailed {paymentId : UUID} {result : STKInitiationResult}
      (hi : w.tasks i = some (.initiate client r (.updateIds paymentId result))) :
      InitiateMove settings w a w' i client r (.releaseLock (.raised .database))
  | cached {response : STKPushInitiateResponse}
      (hi : w.tasks i = some (.initiate client r (.cacheResult response))) :
      InitiateMove settings w a w' i client r (.releaseLock (.initiated response))
  | released {outcome : InitiateOutcome}
      (hi : w.tasks i = some (.initiate client r (.releaseLock outcome))) :
      InitiateMove settings w a w' i client r (.done outcome)
  | crash {pc : InitiatePc} (hi : w.tasks i = some (.initiate client r pc))
      (hlive : (Task.initiate client r pc).finished = false) :
      InitiateMove settings w a w' i client r .crashed

/-- How a callback delivery came to wait where it does after the step that advanced it. -/
inductive CallbackMove (w : World) (a : Action) (w' : World) (i : ℕ) (cb : STKCallbackBody) :
    CallbackPc → Prop
  | start (hi : w.tasks i = none) (hlog : w'.log = .reported cb :: w.log)
      (ha : a = .startCallback i cb) : CallbackMove w a w' i cb .claim
  | duplicate (hi : w.tasks i = some (.callback cb .claim))
      (hdedup : (w.dedup cb.checkoutRequestId).isSome = true) :
      CallbackMove w a w' i cb (.done .ignored)
  | claimed {link : Link} (hi : w.tasks i = some (.callback cb .claim)) (ha : a = .redis i link)
      (hdedup : w'.dedup = Function.update w.dedup cb.checkoutRequestId
        (redisSetNx link (w.dedup cb.checkoutRequestId) i).2)
      (hfirst : (redisSetNx link (w.dedup cb.checkoutRequestId) i).1 = true) :
      CallbackMove w a w' i cb .lookup
  | lookupFailed {link : Link} (hi : w.tasks i = some (.callback cb .lookup))
      (ha : a = .query i link) (hfails : selectFails link cb.checkoutRequestId = true) :
      CallbackMove w a w' i cb (.done .raised)
  | unmatched {link : Link} (hi : w.tasks i = some (.callback cb .lookup))
      (ha : a = .query i link)
      (hnone : w.payments.getByCheckoutRequestId cb.checkoutRequestId = none) :
      CallbackMove w a w' i cb (.done .unmatched)
  | matched {p : Payment} (hi : w.tasks i = some (.callback cb .lookup))
      (hfound : w.payments.getByCheckoutRequestId cb.checkoutRequestId = some p) :
      CallbackMove w a w' i cb (.apply p.id)
  | applied {paymentId : UUID} (hi : w.tasks i = some (.callback cb (.apply paymentId)))
      (ht : applyOutcome w.now w.payments paymentId cb = some w'.payments) :
      CallbackMove w a w' i cb (.done .applied)
  | failed {link : Link} {paymentId : UUID}
      (hi : w.tasks i = some (.callback cb (.apply paymentId))) (ha : a = .write i link)
      (hfails : link ≠ .up ∨ applyOutcome w.now w.payments paymentId cb = none) :
      CallbackMove w a w' i cb (.done .raised)
  | crash {pc : CallbackPc} (hi : w.tasks i = some (.callback cb pc)) (ha : a = .crash i) :
      CallbackMove w a w' i cb .crashed

theorem setTask_inj {i : ℕ} {task task' : Task} (h : (w.setTask i task).tasks i = some task') :
    task = task' := by
  simpa using h

/-- Where an initiation waits after a step: where it did, or where its own step took it. -/
theorem Move.initiate_cases {j client : ℕ} {r : STKPushInitiateRequest} {pc : InitiatePc}
    (h : Move settings w a w') (hj : w'.tasks j = some (.initiate client r pc)) :
    w.tasks j = some (.initiate client r pc) ∨ InitiateMove settings w a w' j client r pc := by
  by_cases hact : a.task? = some j
  · refine Or.inr ?_
    cases h with
    | startInitiate client' r' hi =>
      cases hact
      cases setTask_inj hj
      exact .start hi
    | cacheGet link hi =>
      cases hact
      cases setTask_inj hj
      cases hget : redisGet link (w.idem r.idempotencyKey) with
      | none => exact .cacheMiss hi
      | some response => exact .cacheHit hi (redisGet_eq_some hget)
    | acquireLock link hi =>
      cases hact
      cases setTask_inj hj
      cases hnx : (redisSetNx link (w.lock r.idempotencyKey) j).1 with
      | false =>
        obtain ⟨rfl, hlock⟩ := redisSetNx_refused.mp hnx
        exact .lockRefused hi rfl hlock
      | true =>
        exact .lockAcquired hi rfl fun hheld => by simp [redisSetNx_refused.mpr hheld] at hnx
    | lookupByKey link hi =>
      cases hact
      cases setTask_inj hj
      unfold InitiatePc.afterLookup
      split_ifs with hfails
      · exact .lookupFailed hi
      · cases hfound : w.payments.getByIdempotencyKey r.idempotencyKey with
        | none => exact .unanswered hi
        | some p =>
          dsimp only
          split_ifs with hstatus
          · exact .answered hi rfl (by simpa using hfails) hfound hstatus
          · exact .unanswered hi
    | createRow link paymentId hi =>
      cases hact
      rename_i createdAt
      cases setTask_inj hj
      cases hok :
        (commit link w.payments (w.payments.create (newPayment r paymentId createdAt))).2 with
      | false => exact .createFailed hi
      | true =>
        exact .created hi (commit_of_snd hok).2 (if_pos (committed_of_commit hok))
    | invoke hi =>
      cases hact
      cases setTask_inj hj
      cases (w.clients client).checkCircuit settings w.now with
      | ok c => exact .circuitClosed hi
      | error e => exact .circuitOpen hi
    | makeAttempt reply accepted hagrees hi =>
      cases hact
      rename_i n
      cases setTask_inj hj
      cases hresult : (attempt settings w.now n (w.clients client) reply).2 with
      | returned body =>
        obtain ⟨hsent, hbody⟩ := sent_of_attempt_returned hresult hagrees
        cases hinit : initiateResult body with
        | ok result =>
          obtain rfl := accepted_of_initiateResult hinit hbody
          simp only [InitiatePc.afterAttempt, hinit]
          exact .acknowledged hi (if_pos hsent)
        | error e =>
          simp only [InitiatePc.afterAttempt, hinit]
          exact .rejected hi
      | retry =>
        obtain ⟨hambiguous, hn⟩ := attempt_retry_iff.mp hresult
        exact .retried hi rfl hambiguous hn
      | raised e =>
        cases e with
        | daraja e => exact .rejected hi
        | retryError => exact .callRaised hi
        | other => exact .callRaised hi
    | markFailed link hi =>
      cases hact
      cases setTask_inj hj
      exact .failed hi
    | storeIds link hi =>
      cases hact
      rename_i paymentId result
      cases setTask_inj hj
      cases hok : (commit link w.payments (w.payments.updateDarajaIds w.now paymentId
        result.checkoutRequestId result.merchantRequestId)).2 with
      | false => exact .idsFailed hi
      | true =>
        obtain ⟨rfl, ht⟩ := commit_of_snd hok
        exact .idsStored rfl hi ht
    | cacheResult link hi =>
      cases hact
      cases setTask_inj hj
      exact .cached hi
    | releaseLock link hi =>
      cases hact
      cases setTask_inj hj
      exact .released hi
    | crash hi hlive =>
      rename_i task
      cases hact
      have htask := setTask_inj hj
      cases task with
      | initiate client' r' pc' =>
        cases htask
        exact .crash hi hlive
      | _ => cases htask
    | visitRow link hi =>
      cases hact
      unfold World.visitRow at hj
      split_ifs at hj <;> cases setTask_inj hj
    | tick => cases hact
    | evictIdem => cases hact
    | expireLock => cases hact
    | expireDedup => cases hact
    | _ =>
      cases hact
      cases setTask_inj hj
  · exact Or.inl (h.tasks_of_ne hact ▸ hj)

theorem Move.callback_cases {j : ℕ} {cb : STKCallbackBody} {pc : CallbackPc}
    (h : Move settings w a w') (hj : w'.tasks j = some (.callback cb pc)) :
    w.tasks j = some (.callback cb pc) ∨ CallbackMove w a w' j cb pc := by
  by_cases hact : a.task? = some j
  · refine Or.inr ?_
    cases h with
    | startCallback cb' hi =>
      cases hact
      cases setTask_inj hj
      exact .start hi rfl rfl
    | claim link hi =>
      cases hact
      cases setTask_inj hj
      cases hnx : (redisSetNx link (w.dedup cb.checkoutRequestId) j).1 with
      | false => exact .duplicate hi (redisSetNx_refused.mp hnx).2
      | true => exact .claimed hi rfl rfl hnx
    | lookupByCheckout link hi =>
      cases hact
      cases setTask_inj hj
      unfold CallbackPc.afterLookup
      split_ifs with hfails
      · exact .lookupFailed hi rfl hfails
      · cases hfound : w.payments.getByCheckoutRequestId cb.checkoutRequestId with
        | none => exact .unmatched hi rfl hfound
        | some p => exact .matched hi hfound
    | applyCallback link hi =>
      cases hact
      rename_i paymentId
      cases setTask_inj hj
      cases hok : (commit link w.payments (applyOutcome w.now w.payments paymentId cb)).2 with
      | false => exact .failed hi rfl (commit_snd_false hok)
      | true => exact .applied hi (commit_of_snd hok).2
    | crash hi hlive =>
      rename_i task
      cases hact
      have htask := setTask_inj hj
      cases task with
      | callback cb' pc' =>
        cases htask
        exact .crash hi rfl
      | _ => cases htask
    | visitRow link hi =>
      cases hact
      unfold World.visitRow at hj
      split_ifs at hj <;> cases setTask_inj hj
    | tick => cases hact
    | evictIdem => cases hact
    | expireLock => cases hact
    | expireDedup => cases hact
    | _ =>
      cases hact
      cases setTask_inj hj
  · exact Or.inl (h.tasks_of_ne hact ▸ hj)

/-! ### Going forward -/

theorem InitiateMove.stage_le {j client : ℕ} {r : STKPushInitiateRequest} {pc pc' : InitiatePc}
    (h : InitiateMove settings w a w' j client r pc')
    (hj : w.tasks j = some (.initiate client r pc)) : pc.stage ≤ pc'.stage := by
  cases h with
  | start hi =>
    rw [hi] at hj
    cases hj
  | crash hi => cases pc <;> simp [InitiatePc.stage]
  | cacheHit hi | cacheMiss hi | lockRefused hi | lockAcquired hi | lookupFailed hi | answered hi
  | unanswered hi | createFailed hi | created hi | circuitClosed hi | circuitOpen hi | retried hi
  | acknowledged hi | rejected hi | callRaised hi | failed hi | idsStored ha hi | idsFailed hi
  | cached hi | released hi =>
    cases hi.symm.trans hj
    simp [InitiatePc.stage]

/-- A task stays the call that it is. -/
theorem Move.call_eq {j : ℕ} {task : Task} (h : Move settings w a w')
    (hj : w.tasks j = some task) : ∃ task', w'.tasks j = some task' ∧ task'.call = task.call := by
  by_cases hact : a.task? = some j
  · cases h with
    | tick => cases hact
    | evictIdem => cases hact
    | expireLock => cases hact
    | expireDedup => cases hact
    | visitRow link hi =>
      cases hact
      cases hi.symm.trans hj
      unfold World.visitRow
      split_ifs
      · exact ⟨_, Function.update_self .., rfl⟩
      · exact ⟨_, Function.update_self .., rfl⟩
    | selectStale link hi hbatch =>
      cases hact
      cases hi.symm.trans hj
      exact ⟨_, Function.update_self .., rfl⟩
    | crash hi hlive =>
      cases hact
      cases hi.symm.trans hj
      exact ⟨_, Function.update_self .., by cases task <;> rfl⟩
    | _ =>
      rename_i hi
      cases hact
      cases hi.symm.trans hj <;> exact ⟨_, Function.update_self .., rfl⟩
  · exact ⟨task, h.tasks_of_ne hact ▸ hj, rfl⟩

theorem Move.initiate_next {j client : ℕ} {r : STKPushInitiateRequest} {pc : InitiatePc}
    (h : Move settings w a w') (hj : w.tasks j = some (.initiate client r pc)) :
    ∃ pc', w'.tasks j = some (.initiate client r pc') ∧ pc.stage ≤ pc'.stage := by
  obtain ⟨task', hj', hcall⟩ := h.call_eq hj
  cases task' with
  | initiate client' r' pc' =>
    cases hcall
    refine ⟨pc', hj', ?_⟩
    rcases h.initiate_cases hj' with hsame | hmove
    · cases hj.symm.trans hsame
      exact le_rfl
    · exact hmove.stage_le hj
  | callback cb pc' => cases hcall
  | sweep pc' => cases hcall

theorem Move.initiate_prev {j client : ℕ} {r : STKPushInitiateRequest} {pc' : InitiatePc}
    (h : Move settings w a w') (hj : w'.tasks j = some (.initiate client r pc')) :
    (w.tasks j = none ∧ pc' = .cacheGet) ∨
      ∃ pc, w.tasks j = some (.initiate client r pc) := by
  rcases h.initiate_cases hj with hsame | hmove
  · exact Or.inr ⟨pc', hsame⟩
  · cases hmove with
    | start hi => exact Or.inl ⟨hi, rfl⟩
    | cacheHit hi | cacheMiss hi | lockRefused hi | lockAcquired hi | lookupFailed hi | answered hi
    | unanswered hi | createFailed hi | created hi | circuitClosed hi | circuitOpen hi | retried hi
    | acknowledged hi | rejected hi | callRaised hi | failed hi | idsStored ha hi | idsFailed hi
    | cached hi | released hi | crash hi => exact Or.inr ⟨_, hi⟩

theorem Move.callback_next {j : ℕ} {cb : STKCallbackBody} {pc : CallbackPc}
    (h : Move settings w a w') (hj : w.tasks j = some (.callback cb pc)) :
    ∃ pc', w'.tasks j = some (.callback cb pc') := by
  obtain ⟨task', hj', hcall⟩ := h.call_eq hj
  cases task' with
  | initiate client r pc' => cases hcall
  | callback cb' pc' =>
    cases hcall
    exact ⟨pc', hj'⟩
  | sweep pc' => cases hcall

/-- The statements that a step to `w'` can commit, each with the task that runs it. -/
inductive Commit (w : World) (a : Action) (w' : World) : Prop
  | create {i client : ℕ} {r : STKPushInitiateRequest} {createdAt : ℚ} {paymentId : UUID}
      (hi : w.tasks i = some (.initiate client r (.create createdAt)))
      (ht : w.payments.create (newPayment r paymentId createdAt) = some w'.payments)
      (hlog : w'.log = .created i r paymentId :: w.log)
  | markFailed {i client : ℕ} {r : STKPushInitiateRequest} {paymentId : UUID} {e : DarajaError}
      {link : Link} (ha : a = .write i link) (hlink : link ≠ .down)
      (hi : w.tasks i = some (.initiate client r (.markFailed paymentId e)))
      (ht : w.payments.markFailed w.now paymentId "Daraja API call failed before initiation" 1 =
        some w'.payments)
  | storeIds {i client : ℕ} {r : STKPushInitiateRequest} {paymentId : UUID}
      {result : STKInitiationResult} {link : Link} (ha : a = .write i link) (hlink : link ≠ .down)
      (hi : w.tasks i = some (.initiate client r (.updateIds paymentId result)))
      (hi' : ∃ pc, w'.tasks i = some (.initiate client r pc) ∧ 7 ≤ pc.stage)
      (ht : w.payments.updateDarajaIds w.now paymentId result.checkoutRequestId
        result.merchantRequestId = some w'.payments)
  | applyCallback {i : ℕ} {cb : STKCallbackBody} {paymentId : UUID} {link : Link}
      (ha : a = .write i link) (hlink : link ≠ .down)
      (hi : w.tasks i = some (.callback cb (.apply paymentId)))
      (ht : applyOutcome w.now w.payments paymentId cb = some w'.payments)
  | expire {i : ℕ} {row : StaleRow} {rest : List StaleRow} {link : Link}
      (ha : a = .write i link) (hlink : link ≠ .down)
      (hi : w.tasks i = some (.sweep (.rows (row :: rest))))
      (hreceipt : row.hasReceipt = false)
      (ht : w.payments.expire w.now row.id = some w'.payments)

/-- A step leaves the table alone or commits one statement. -/
theorem Move.payments_cases (h : Move settings w a w') :
    w'.payments = w.payments ∨ Commit w a w' := by
  cases h with
  | createRow link paymentId hi =>
    rename_i r createdAt
    by_cases hc : committed link (w.payments.create (newPayment r paymentId createdAt)) = true
    · exact Or.inr (.create hi (commit_of_committed hc) (if_pos hc))
    · exact Or.inl (commit_of_not_committed hc)
  | markFailed link hi =>
    rcases commit_fst with hsame | ⟨hlink, ht⟩
    · exact Or.inl hsame
    · exact Or.inr (.markFailed rfl hlink hi ht)
  | storeIds link hi =>
    rcases commit_fst with hsame | ⟨hlink, ht⟩
    · exact Or.inl hsame
    · exact Or.inr (.storeIds rfl hlink hi
        ⟨_, Function.update_self .., InitiatePc.stage_afterUpdateIds _⟩ ht)
  | applyCallback link hi =>
    rcases commit_fst with hsame | ⟨hlink, ht⟩
    · exact Or.inl hsame
    · exact Or.inr (.applyCallback rfl hlink hi ht)
  | visitRow link hi =>
    unfold World.visitRow
    split_ifs with hreceipt
    · exact Or.inl rfl
    · rcases commit_fst with hsame | ⟨hlink, ht⟩
      · exact Or.inl hsame
      · exact Or.inr (.expire rfl hlink hi (by simpa using hreceipt) ht)
  | _ => exact Or.inl rfl

/-- What a step can make of a row. -/
inductive RowChange (w : World) (a : Action) (w' : World) (p : Payment) : Payment → Prop
  | kept : RowChange w a w' p p
  | failed {i client : ℕ} {r : STKPushInitiateRequest} {e : DarajaError} {link : Link}
      (ha : a = .write i link) (hlink : link ≠ .down)
      (hi : w.tasks i = some (.initiate client r (.markFailed p.id e))) :
      RowChange w a w' p (p.withFailure w.now "Daraja API call failed before initiation" 1)
  | identified {i client : ℕ} {r : STKPushInitiateRequest} {result : STKInitiationResult}
      {c m : String} {link : Link} (ha : a = .write i link) (hlink : link ≠ .down)
      (hi : w.tasks i = some (.initiate client r (.updateIds p.id result)))
      (hi' : ∃ pc, w'.tasks i = some (.initiate client r pc) ∧ 7 ≤ pc.stage)
      (hc : varchar 100 result.checkoutRequestId = some c)
      (hm : varchar 100 result.merchantRequestId = some m) :
      RowChange w a w' p (p.withDarajaIds w.now c m)
  | completed {i : ℕ} {cb : STKCallbackBody} {link : Link} {receipt : Option String}
      {paid : Option Numeric} {date : Option Python.Datetime}
      (ha : a = .write i link) (hlink : link ≠ .down)
      (hi : w.tasks i = some (.callback cb (.apply p.id)))
      (ht : applyOutcome w.now w.payments p.id cb = some w'.payments) (hcode : cb.resultCode = 0)
      (hreceipt :
        PaymentsTable.receiptParameter (cb.details.get "MpesaReceiptNumber") = some receipt)
      (hpaid : PaymentsTable.amountPaidParameter (cb.details.get "Amount") = some paid) :
      RowChange w a w' p (p.withCompletion w.now receipt paid date)
  | declined {i : ℕ} {cb : STKCallbackBody} {link : Link}
      (ha : a = .write i link) (hlink : link ≠ .down)
      (hi : w.tasks i = some (.callback cb (.apply p.id)))
      (ht : applyOutcome w.now w.payments p.id cb = some w'.payments) (hcode : cb.resultCode ≠ 0) :
      RowChange w a w' p (p.withFailure w.now cb.resultDesc cb.resultCode)
  | expired {i : ℕ} {row : StaleRow} {rest : List StaleRow} {link : Link}
      (ha : a = .write i link) (hlink : link ≠ .down)
      (hi : w.tasks i = some (.sweep (.rows (row :: rest)))) (hid : row.id = p.id)
      (hreceipt : row.hasReceipt = false) : RowChange w a w' p (p.withExpiry w.now)

theorem RowChange.sameIdentity {p q : Payment} (h : RowChange w a w' p q) :
    p.SameIdentity q := by
  cases h with
  | kept => exact .refl p
  | failed => exact p.sameIdentity_withFailure ..
  | identified => exact p.sameIdentity_withDarajaIds ..
  | completed => exact p.sameIdentity_withCompletion ..
  | declined => exact p.sameIdentity_withFailure ..
  | expired => exact p.sameIdentity_withExpiry ..

/-- A commit inserts the row of a call or updates the row of one payment. -/
theorem Commit.insert_or_update (h : Commit w a w') :
    (∃ i client r createdAt paymentId,
      w.tasks i = some (.initiate client r (.create createdAt)) ∧
      w.payments.create (newPayment r paymentId createdAt) = some w'.payments ∧
      w'.log = .created i r paymentId :: w.log) ∨
    ∃ paymentId f, w.payments.update paymentId f = some w'.payments ∧
      ∀ p : Payment, p.id = paymentId → RowChange w a w' p (f p) := by
  cases h with
  | create hi ht hlog => exact Or.inl ⟨_, _, _, _, _, hi, ht, hlog⟩
  | markFailed ha hlink hi ht =>
    refine Or.inr ⟨_, _, ht, ?_⟩
    rintro p rfl
    exact .failed ha hlink hi
  | storeIds ha hlink hi hi' ht =>
    obtain ⟨c, m, hc, hm, hu⟩ := PaymentsTable.updateDarajaIds_eq_some ht
    refine Or.inr ⟨_, _, hu, ?_⟩
    rintro p rfl
    exact .identified ha hlink hi hi' hc hm
  | applyCallback ha hlink hi ht =>
    rcases applyOutcome_eq_some ht with
      ⟨hcode, receipt, paid, date, hreceipt, hpaid, -, hu⟩ | ⟨hcode, hu⟩
    · refine Or.inr ⟨_, _, hu, ?_⟩
      rintro p rfl
      exact .completed ha hlink hi ht hcode hreceipt hpaid
    · refine Or.inr ⟨_, _, hu, ?_⟩
      rintro p rfl
      exact .declined ha hlink hi ht hcode
  | expire ha hlink hi hreceipt ht =>
    refine Or.inr ⟨_, _, ht, ?_⟩
    intro p hid
    exact .expired ha hlink hi hid.symm hreceipt

/-- How a row came to be what it is after a step. -/
inductive RowMove (w : World) (a : Action) (w' : World) : Payment → Prop
  | created {i client : ℕ} {r : STKPushInitiateRequest} {createdAt : ℚ} {paymentId : UUID}
      (hi : w.tasks i = some (.initiate client r (.create createdAt)))
      (ht : w.payments.create (newPayment r paymentId createdAt) = some w'.payments)
      (hlog : w'.log = .created i r paymentId :: w.log) :
      RowMove w a w' (newPayment r paymentId createdAt)
  | changed {p q : Payment} (hp : p ∈ w.payments.rows) (hchange : RowChange w a w' p q) :
      RowMove w a w' q

theorem Move.row_cases {q : Payment} (h : Move settings w a w') (hq : q ∈ w'.payments.rows) :
    RowMove w a w' q := by
  rcases h.payments_cases with heq | hcommit
  · rw [heq] at hq
    exact .changed hq .kept
  · rcases hcommit.insert_or_update with
      ⟨i, client, r, createdAt, paymentId, hi, ht, hlog⟩ | ⟨paymentId, f, ht, hf⟩
    · have hrows := hq
      rw [PaymentsTable.insert_eq_some (insert_of_create ht), List.mem_append,
        List.mem_singleton] at hrows
      rcases hrows with hp | rfl
      · exact .changed hp .kept
      · exact .created hi ht hlog
    · rcases PaymentsTable.mem_of_mem_update ht hq with ⟨p, hp, hid, rfl⟩ | ⟨hp, -⟩
      · exact .changed hp (hf p hid)
      · exact .changed hp .kept

theorem Move.row_next {p : Payment} (h : Move settings w a w') (hp : p ∈ w.payments.rows) :
    ∃ q ∈ w'.payments.rows, RowChange w a w' p q := by
  rcases h.payments_cases with heq | hcommit
  · rw [heq]
    exact ⟨p, hp, .kept⟩
  · rcases hcommit.insert_or_update with
      ⟨i, client, r, createdAt, paymentId, hi, ht, hlog⟩ | ⟨paymentId, f, ht, hf⟩
    · rw [PaymentsTable.insert_eq_some (insert_of_create ht)]
      exact ⟨p, List.mem_append_left _ hp, .kept⟩
    · by_cases hid : p.id = paymentId
      · exact ⟨f p, PaymentsTable.mem_update_self ht hp hid, hf p hid⟩
      · exact ⟨p, PaymentsTable.mem_update_other ht hp hid, .kept⟩

/-- The events that a step to `w'` can add to the log. -/
inductive Logs (settings : Settings) (w : World) (a : Action) (w' : World) : Event → Prop
  | created {i client : ℕ} {r : STKPushInitiateRequest} {createdAt : ℚ} {paymentId : UUID}
      (hi : w.tasks i = some (.initiate client r (.create createdAt)))
      (ht : w.payments.create (newPayment r paymentId createdAt) = some w'.payments)
      (hi' : ∃ pc, w'.tasks i = some (.initiate client r pc) ∧ 4 ≤ pc.stage) :
      Logs settings w a w' (.created i r paymentId)
  | dispatched {i client : ℕ} {r : STKPushInitiateRequest} {paymentId : UUID}
      (hi : w.tasks i = some (.initiate client r (.callDaraja paymentId)))
      (hi' : ∃ pc, w'.tasks i = some (.initiate client r pc) ∧ 5 ≤ pc.stage) :
      Logs settings w a w' (.dispatched i r.idempotencyKey r.initiateArgs)
  | posted {i client : ℕ} {r : STKPushInitiateRequest} {paymentId : UUID} {n : ℕ}
      {reply : AttemptReply} {accepted : Option DarajaIds} (ha : a = .attempt i reply accepted)
      (hsent : reply.sent = true)
      (hagrees : reply.agrees accepted = true)
      (hi : w.tasks i = some (.initiate client r (.posting paymentId n)))
      (hi' : ∃ pc, w'.tasks i = some (.initiate client r pc) ∧ 5 ≤ pc.stage ∧
        (pc.stage = 5 → reply.ambiguous = true ∧ n < settings.darajaRetryAttempts)) :
      Logs settings w a w' (.posted i r.idempotencyKey paymentId reply accepted)
  | reported {i : ℕ} {cb : STKCallbackBody} (hi : w.tasks i = none) :
      Logs settings w a w' (.reported cb)
  | statusQueried {i : ℕ} {row : StaleRow} {rest : List StaleRow}
      (hi : w.tasks i = some (.sweep (.rows (row :: rest)))) (hreceipt : row.hasReceipt = true) :
      Logs settings w a w' (.statusQueried row.id)

theorem Move.log_cases (h : Move settings w a w') :
    w'.log = w.log ∨ ∃ e, w'.log = e :: w.log ∧ Logs settings w a w' e := by
  cases h with
  | startCallback cb hi => exact Or.inr ⟨_, rfl, .reported hi⟩
  | createRow link paymentId hi =>
    simp only [World.createRow, setTask_log, logIf_log]
    split_ifs with hc
    · refine Or.inr ⟨_, rfl, .created hi ?_
        ⟨_, Function.update_self .., InitiatePc.stage_afterCreate⟩⟩
      simpa only [setTask_payments, logIf_payments] using commit_of_committed hc
    · exact Or.inl rfl
  | invoke hi =>
    exact Or.inr ⟨_, rfl, .dispatched hi
      ⟨_, Function.update_self .., InitiatePc.stage_afterCheckCircuit _⟩⟩
  | makeAttempt reply accepted hagrees hi =>
    simp only [World.makeAttempt, setTask_log, logIf_log]
    split_ifs with hsent
    · obtain ⟨hle, hretry⟩ := InitiatePc.stage_afterAttempt _
      exact Or.inr ⟨_, rfl, .posted rfl hsent hagrees hi
        ⟨_, Function.update_self .., hle, fun hs => attempt_retry_iff.mp (hretry hs)⟩⟩
    · exact Or.inl rfl
  | visitRow link hi =>
    unfold World.visitRow
    split_ifs with hreceipt
    · exact Or.inr ⟨_, rfl, .statusQueried hi hreceipt⟩
    · exact Or.inl rfl
  | _ => exact Or.inl rfl

theorem Move.mem_log {e : Event} (h : Move settings w a w') (he : e ∈ w'.log) :
    e ∈ w.log ∨ Logs settings w a w' e := by
  rcases h.log_cases with hl | ⟨e', hl, hlogs⟩
  · exact Or.inl (hl ▸ he)
  · rw [hl, List.mem_cons] at he
    rcases he with rfl | he
    · exact Or.inr hlogs
    · exact Or.inl he

theorem Move.log_mono {e : Event} (h : Move settings w a w') (he : e ∈ w.log) : e ∈ w'.log := by
  rcases h.log_cases with hl | ⟨e', hl, -⟩
  · exact hl ▸ he
  · exact hl ▸ List.mem_cons_of_mem e' he

end World
end DarajaWrapper
