import DarajaWrapper.Main.Handlers
import DarajaWrapper.System.Replay

/-!
# The answer to a concurrent duplicate

A call that finds the lock of its key held raises `DuplicatePaymentError` and
leaves the stores alone. The details of the exception have the key in a set,
which the encoder refuses, so the handler raises in its turn.
-/

namespace DarajaWrapper

open Python

/-- `DuplicatePaymentError` as `initiate_stk_push` raises it. -/
def duplicatePaymentError (key : String) : AppError where
  message := "A concurrent request with this idempotency key is in progress." ++
    "Retry after the current request completes"
  code := "DUPLICATE_PAYMENT"
  details := [("idempotency_key", .set [key])]

section

-- the text that the client is shown of a `DarajaError`
variable (detail : DarajaError → String)

/-- The handler that an exception of the service is passed to, and its answer. -/
def ServiceError.handle : ServiceError → Option JSONResponse
  | .duplicatePayment key => duplicate (duplicatePaymentError key)
  | .call (.daraja e) =>
    match e.cls with
    | .circuitOpen retryAfter => circuitOpen retryAfter
    | _ => darajaError (detail e)
  | .call _ => unhandled
  | .database => unhandled

/-- The answer to a call that has ended in an exception. -/
def World.errorResponse? (w : World) (i : ℕ) : Option JSONResponse :=
  match w.tasks i with
  | some (.initiate _ _ (.done (.raised e))) => some (answered (e.handle detail))
  | _ => none

end

theorem duplicate_duplicatePaymentError (key : String) :
    duplicate (duplicatePaymentError key) = none := by
  unfold duplicate jsonResponse duplicatePaymentError
  dsimp only
  rw [encode_problem (by simp [problemMembers])]
  rfl

namespace World

variable {settings : Settings} {detail : DarajaError → String} {w : World} {i client : ℕ}
  {r : STKPushInitiateRequest} {get : Link}

/-- The request up to the operation that finds the lock, with no other task in between. -/
def refusedRequest (i client : ℕ) (r : STKPushInitiateRequest) (get : Link) : List Action :=
  [.startInitiate i client r, .redis i get, .redis i .up]

def SameStores (w w' : World) : Prop :=
  w'.idem = w.idem ∧ w'.lock = w.lock ∧ w'.dedup = w.dedup ∧ w'.payments = w.payments

/-- The request is answered by a problem document with status 409, and changes nothing. -/
def AnsweredWith409 (settings : Settings) (detail : DarajaError → String) (w : World)
    (i client : ℕ) (r : STKPushInitiateRequest) (get : Link) : Prop :=
  ∃ w' response kvs, Machine.run (step settings) w (refusedRequest i client r get) = some w' ∧
    SameStores w w' ∧ w'.errorResponse? detail i = some response ∧ response.statusCode = 409 ∧
    response.content = .obj kvs ∧ kvs.lookup "status" = some (.int 409)

theorem setTask_at (task : Task) : (w.setTask i task).tasks i = some task := by
  rw [setTask_tasks, Function.update_self]

theorem setTask_setTask (task task' : Task) :
    (w.setTask i task).setTask i task' = w.setTask i task' := by
  unfold setTask
  rw [Function.update_idem]

theorem run_of_held_lock (htask : w.tasks i = none) (hidem : w.idem r.idempotencyKey = none)
    (hlock : (w.lock r.idempotencyKey).isSome = true) :
    Machine.run (step settings) w (refusedRequest i client r get) =
      some (w.setTask i
        (.initiate client r (.done (.raised (.duplicatePayment r.idempotencyKey))))) := by
  obtain ⟨owner, howner⟩ := Option.isSome_iff_exists.mp hlock
  have hstart : step settings w (.startInitiate i client r) =
      some (w.setTask i (.initiate client r .cacheGet)) :=
    step_of_move (.startInitiate client r htask)
  have hget : step settings (w.setTask i (.initiate client r .cacheGet)) (.redis i get) =
      some (w.setTask i (.initiate client r .acquireLock)) := by
    have hmiss : redisGet get (w.idem r.idempotencyKey) = none := by
      rw [hidem]
      unfold redisGet
      split_ifs <;> rfl
    rw [step_of_move (.cacheGet get (setTask_at _)), cacheGet, setTask_setTask, setTask_idem, hmiss]
    rfl
  have hset : step settings (w.setTask i (.initiate client r .acquireLock)) (.redis i .up) =
      some (w.setTask i
        (.initiate client r (.done (.raised (.duplicatePayment r.idempotencyKey))))) := by
    have hkept : Function.update w.lock r.idempotencyKey (some owner) = w.lock :=
      Function.update_eq_self_iff.mpr howner.symm
    have hrefused : InitiatePc.afterSetNx r.idempotencyKey (redisSetNx .up (some owner) i).1 =
        .done (.raised (.duplicatePayment r.idempotencyKey)) := rfl
    rw [step_of_move (.acquireLock .up (setTask_at _)), acquireLock, setTask_lock, howner, hrefused]
    simp [setTask, redisSetNx, hkept, Function.update_idem]
  rw [refusedRequest, Machine.run_cons]
  exact ⟨_, hstart, Machine.run_cons.mpr ⟨_, hget, Machine.run_cons.mpr ⟨_, hset, rfl⟩⟩⟩

/-- The client of a concurrent duplicate is told of an internal error. -/
theorem held_lock_answered (settings : Settings) (detail : DarajaError → String) (client : ℕ)
    (get : Link) (htask : w.tasks i = none) (hidem : w.idem r.idempotencyKey = none)
    (hlock : (w.lock r.idempotencyKey).isSome = true) :
    ∃ w', Machine.run (step settings) w (refusedRequest i client r get) = some w' ∧
      SameStores w w' ∧ w'.errorResponse? detail i = some internalServerError := by
  refine ⟨_, run_of_held_lock htask hidem hlock, ⟨rfl, rfl, rfl, rfl⟩, ?_⟩
  simp [errorResponse?, ServiceError.handle, duplicate_duplicatePaymentError, answered]

theorem not_answeredWith409 (h : ∃ w',
    Machine.run (step settings) w (refusedRequest i client r get) = some w' ∧ SameStores w w' ∧
      w'.errorResponse? detail i = some internalServerError) :
    ¬ AnsweredWith409 settings detail w i client r get := by
  obtain ⟨w', hrun, -, hresponse⟩ := h
  rintro ⟨w'', response, kvs, hrun', -, hresponse', hstatus, -⟩
  cases hrun.symm.trans hrun'
  cases hresponse.symm.trans hresponse'
  cases hstatus

/-- No concurrent duplicate is answered with 409. -/
theorem held_lock_not_answered_409 (settings : Settings) (detail : DarajaError → String)
    (client : ℕ) (get : Link) (htask : w.tasks i = none) (hidem : w.idem r.idempotencyKey = none)
    (hlock : (w.lock r.idempotencyKey).isSome = true) :
    ¬ AnsweredWith409 settings detail w i client r get :=
  not_answeredWith409 (held_lock_answered settings detail client get htask hidem hlock)

theorem held_lock_not_answered_409_sample :
    ¬ AnsweredWith409 {} (fun _ => "M-Pesa failed.") (after {} _ sampleUntilPost_enabled) 1 0
      sampleRequest .up :=
  held_lock_not_answered_409 {} _ 0 .up (by decide +kernel) (by decide +kernel) (by decide +kernel)

/-- The client repeats a request that is still being worked on. -/
theorem repeated_request_not_answered_409 :
    ¬ ∀ settings detail w i client r get, Reachable settings w → w.tasks i = none →
      w.idem r.idempotencyKey = none → (w.lock r.idempotencyKey).isSome = true →
        AnsweredWith409 settings detail w i client r get := by
  intro h
  have hidem : (after {} _ sampleUntilPost_enabled).idem sampleRequest.idempotencyKey = none := by
    decide +kernel
  have hlock : ((after {} _ sampleUntilPost_enabled).lock sampleRequest.idempotencyKey).isSome =
      true := by decide +kernel
  have hanswered := h {} (fun _ => "M-Pesa failed.") _ 1 0 sampleRequest .up
    (reachable_after sampleUntilPost_enabled) (by decide +kernel) hidem hlock
  exact not_answeredWith409 (held_lock_answered {} _ 0 .up (by decide +kernel) hidem hlock)
    hanswered

end World

end DarajaWrapper
