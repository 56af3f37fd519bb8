import DarajaWrapper.Library.BoundedRetry
import DarajaWrapper.Python.Objects

/-!
# Dead letters

A task that fails retries itself until its retries are used up. Celery then sends
`task_failure`, and its handler is to publish the task to a queue of its own. The
handler subtracts the message from the arguments of the task, and what it raises is
dropped with the message.
-/

namespace DarajaWrapper

open Python BoundedRetry

structure CeleryTask where
  name : String
  maxRetries : ℕ

def processStkCallbackTask : CeleryTask := ⟨"app.tasks.stk_tasks.process_stk_callback", 5⟩

/-- What one message asks a worker to do. -/
structure TaskRequest where
  task : CeleryTask
  taskId : String
  args : Option (List Json)
  kwargs : Option (List (String × Json))

/-- A message as `send_task` publishes it. -/
structure SentTask where
  name : String
  args : PyObject
  queue : String
  ignoreResult : Bool

def originalTask (request : TaskRequest) (exception : String) : List (String × PyObject) :=
  [("original_task_name", .json (.str request.task.name)),
   ("original_task_id", .json (.str request.taskId)),
   ("exception_str", .json (.str exception)),
   ("original_args", .json (.arr (request.args.getD []))),
   ("original_kwargs", .json (.obj (request.kwargs.getD [])))]

/-- `handle_task_falure`: what it publishes; `none` where it raises. -/
def handleTaskFailure (request : TaskRequest) (retries : ℕ) (exception : String) :
    Option (List SentTask) :=
  if request.task.maxRetries ≤ retries then do
    -- `kwargs - {...}`, where a keyword argument was meant
    let kwargs : PyObject := .json (request.kwargs.elim .null .obj)
    let args ← kwargs.sub (.dict (originalTask request exception))
    return [{ name := "app.tasks.reconciliation_tasks.dead_letter_inspect"
              args := args
              queue := "dead_letter"
              ignoreResult := true }]
  else some []

/-- The attempts of a task, each with the text of its exception if it fails. -/
abbrev Attempts := ℕ → Option String

/-- What is published in a run; an exception of the handler is logged and dropped. -/
def published (request : TaskRequest) (attempts : Attempts) : List SentTask :=
  match run request.task.maxRetries attempts with
  | .failed retries exception => (handleTaskFailure request retries exception).getD []
  | _ => []

/-- The message has everything that is needed to run the task again. -/
def SentTask.Carries (message : SentTask) (request : TaskRequest) (exception : String) : Prop :=
  message.queue = "dead_letter" ∧ ∃ kvs, message.args = .dict kvs ∧
    ∀ m ∈ originalTask request exception, m ∈ kvs

/-- A task that is given up is published once, and no other task is. -/
def NotLost (request : TaskRequest) (attempts : Attempts) : Prop :=
  (∀ exception, (∀ n ≤ request.task.maxRetries, attempts n ≠ none) →
    attempts request.task.maxRetries = some exception →
    ∃ message, published request attempts = [message] ∧ message.Carries request exception) ∧
  ((∃ n ≤ request.task.maxRetries, attempts n = none) → published request attempts = [])

variable {request : TaskRequest} {attempts : Attempts} {retries : ℕ} {exception : String}

/-- The handler raises whenever it has something to publish. -/
theorem handleTaskFailure_of_exhausted (h : request.task.maxRetries ≤ retries) :
    handleTaskFailure request retries exception = none := by
  unfold handleTaskFailure
  dsimp only
  rw [if_pos h, PyObject.sub_dict]
  rfl

theorem published_of_failing (hfail : ∀ n ≤ request.task.maxRetries, attempts n ≠ none) :
    published request attempts = [] := by
  obtain ⟨exception, hlast⟩ := Option.ne_none_iff_exists'.mp (hfail _ (Nat.le_refl _))
  rw [published, run_of_failing (fun i hi => hfail i hi.le) hlast]
  dsimp only
  rw [handleTaskFailure_of_exhausted (Nat.le_refl _)]
  rfl

theorem published_of_success {n : ℕ} (hn : n ≤ request.task.maxRetries)
    (hsuccess : attempts n = none) : published request attempts = [] := by
  rw [published, run_of_success hn hsuccess]

theorem not_notLost_of_failing (hfail : ∀ n ≤ request.task.maxRetries, attempts n ≠ none) :
    ¬ NotLost request attempts := by
  intro h
  obtain ⟨exception, hlast⟩ := Option.ne_none_iff_exists'.mp (hfail _ (Nat.le_refl _))
  obtain ⟨message, hmessage, -⟩ := h.1 exception hfail hlast
  rw [published_of_failing hfail] at hmessage
  cases hmessage

/-- Whatever the task and its arguments, it is not lost exactly when an attempt succeeds. -/
theorem notLost_iff (request : TaskRequest) (attempts : Attempts) :
    NotLost request attempts ↔ ∃ n ≤ request.task.maxRetries, attempts n = none := by
  constructor
  · intro h
    by_contra hnone
    exact not_notLost_of_failing (fun n hn heq => hnone ⟨n, hn, heq⟩) h
  · rintro ⟨n, hn, hsuccess⟩
    refine ⟨?_, fun _ => published_of_success hn hsuccess⟩
    intro exception hfail
    exact absurd hsuccess (hfail n hn)

def callbackDelivery : TaskRequest where
  task := processStkCallbackTask
  taskId := "8a3c1e52-0d0f-4a53-9c0e-5f2f0d9f6b11"
  args := some [.obj [("CheckoutRequestID", .str "ws_CO_191220191020363925")]]
  kwargs := some []

/-- Six attempts fail and the callback is gone. -/
theorem exhausted_callback_lost :
    ¬ ∀ (request : TaskRequest) (attempts : Attempts), NotLost request attempts := by
  intro h
  have hfail : ∀ n ≤ callbackDelivery.task.maxRetries, some "connection refused" ≠ none :=
    fun _ _ => nofun
  exact not_notLost_of_failing hfail (h callbackDelivery fun _ => some "connection refused")

end DarajaWrapper
