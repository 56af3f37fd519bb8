import DarajaWrapper.Library.Machine
import DarajaWrapper.Tasks.Reconciliation

/-!
# The system

Any number of initiations, callback deliveries and sweeps over one Redis and one
payments table. An action is one operation of one task, with everything that
the environment decides about it: whether the store answers, which UUID is
drawn, what the POST met and whether Daraja accepted it. Keys may lapse and
tasks may die between any two actions.

Redis keys are indexed by the part after their prefix (`stk:idem:`, `stk:lock:`,
`stk:callback:`); the values of the last two are only ever tested for presence,
and stand for the task that set them. The log is no part of the program: it
records what reached the table and Daraja.
-/

namespace DarajaWrapper

open Python

inductive Task where
  /-- A call of `initiate_stk_push` in the process that owns this Daraja client. -/
  | initiate (client : ℕ) (request : STKPushInitiateRequest) (pc : InitiatePc)
  | callback (callback : STKCallbackBody) (pc : CallbackPc)
  | sweep (pc : SweepPc)

inductive Event where
  /-- The row of this call was committed. -/
  | created (call : ℕ) (request : STKPushInitiateRequest) (paymentId : UUID)
  /-- `STKPushInitiator.initiate` was invoked. -/
  | dispatched (call : ℕ) (idempotencyKey : String) (args : InitiateArgs)
  /-- A POST was sent for the payment; `accepted` are the identifiers Daraja issued, if any. -/
  | posted (call : ℕ) (idempotencyKey : String) (paymentId : UUID) (reply : AttemptReply)
      (accepted : Option DarajaIds)
  /-- Daraja delivered this outcome. -/
  | reported (callback : STKCallbackBody)
  /-- The sweep took its Transaction Status branch for the payment. -/
  | statusQueried (paymentId : UUID)

structure World where
  now : ℚ
  payments : PaymentsTable
  idem : String → Option STKPushInitiateResponse
  lock : String → Option ℕ
  dedup : String → Option ℕ
  clients : ℕ → DarajaClient
  tasks : ℕ → Option Task
  log : List Event

inductive Action where
  | tick (d : ℚ)
  | evictIdem (key : String)
  | expireLock (key : String)
  | expireDedup (checkoutRequestId : String)
  | startInitiate (i : ℕ) (client : ℕ) (request : STKPushInitiateRequest)
  | startCallback (i : ℕ) (callback : STKCallbackBody)
  | startSweep (i : ℕ)
  /-- The pending Redis operation of task `i`. -/
  | redis (i : ℕ) (link : Link)
  /-- The pending SELECT of an initiation or a callback. -/
  | query (i : ℕ) (link : Link)
  /-- The SELECT of a sweep, returning these rows. -/
  | select (i : ℕ) (ids : List UUID) (link : Link)
  /-- The INSERT of an initiation, under this fresh identifier. -/
  | insert (i : ℕ) (paymentId : UUID) (link : Link)
  /-- The pending UPDATE and commit of task `i`. -/
  | write (i : ℕ) (link : Link)
  /-- The invocation of the initiator, up to the first attempt. -/
  | callDaraja (i : ℕ)
  | attempt (i : ℕ) (reply : AttemptReply) (accepted : Option DarajaIds)
  | crash (i : ℕ)

def Action.task? : Action → Option ℕ
  | tick _ => none
  | evictIdem _ => none
  | expireLock _ => none
  | expireDedup _ => none
  | startInitiate i _ _ => some i
  | startCallback i _ => some i
  | startSweep i => some i
  | redis i _ => some i
  | query i _ => some i
  | select i _ _ => some i
  | insert i _ _ => some i
  | write i _ => some i
  | callDaraja i => some i
  | attempt i _ _ => some i
  | crash i => some i

def Task.finished : Task → Bool
  | .initiate _ _ (.done _) => true
  | .initiate _ _ .crashed => true
  | .callback _ (.done _) => true
  | .callback _ .crashed => true
  | .sweep (.rows []) => true
  | .sweep .raised => true
  | .sweep .crashed => true
  | _ => false

def Task.crash : Task → Task
  | .initiate client request _ => .initiate client request .crashed
  | .callback cb _ => .callback cb .crashed
  | .sweep _ => .sweep .crashed

/-- The call that a task makes, wherever it is in it. -/
def Task.call : Task → Option (ℕ × STKPushInitiateRequest) × Option STKCallbackBody
  | .initiate client request _ => (some (client, request), none)
  | .callback cb _ => (none, some cb)
  | .sweep _ => (none, none)

namespace World

def init : World where
  now := 0
  payments := .empty
  idem := fun _ => none
  lock := fun _ => none
  dedup := fun _ => none
  clients := fun _ => {}
  tasks := fun _ => none
  log := []

def setTask (w : World) (i : ℕ) (task : Task) : World :=
  { w with tasks := Function.update w.tasks i (some task) }

/-- A statement took effect in the table. -/
def committed (link : Link) (next : Option PaymentsTable) : Bool := link ≠ .down && next.isSome

theorem committed_of_commit {link : Link} {t : PaymentsTable} {next : Option PaymentsTable}
    (h : (commit link t next).2 = true) : committed link next = true := by
  obtain ⟨rfl, hnext⟩ := commit_of_snd h
  rw [hnext]
  rfl

theorem commit_of_committed {link : Link} {t : PaymentsTable} {next : Option PaymentsTable}
    (h : committed link next = true) : next = some (commit link t next).1 := by
  cases link <;> cases next <;> simp_all [committed, commit]

theorem commit_of_not_committed {link : Link} {t : PaymentsTable} {next : Option PaymentsTable}
    (h : ¬ committed link next = true) : (commit link t next).1 = t := by
  cases link <;> cases next <;> simp_all [committed, commit]

def logIf (w : World) (b : Bool) (e : Event) : World :=
  { w with log := if b then e :: w.log else w.log }

section

variable (w : World) (i : ℕ) (task : Task) (b : Bool) (e : Event)

@[simp] theorem setTask_now : (w.setTask i task).now = w.now := rfl
@[simp] theorem setTask_payments : (w.setTask i task).payments = w.payments := rfl
@[simp] theorem setTask_idem : (w.setTask i task).idem = w.idem := rfl
@[simp] theorem setTask_lock : (w.setTask i task).lock = w.lock := rfl
@[simp] theorem setTask_dedup : (w.setTask i task).dedup = w.dedup := rfl
@[simp] theorem setTask_log : (w.setTask i task).log = w.log := rfl
@[simp] theorem setTask_tasks :
    (w.setTask i task).tasks = Function.update w.tasks i (some task) := rfl

@[simp] theorem logIf_payments : (w.logIf b e).payments = w.payments := rfl
@[simp] theorem logIf_idem : (w.logIf b e).idem = w.idem := rfl
@[simp] theorem logIf_lock : (w.logIf b e).lock = w.lock := rfl
@[simp] theorem logIf_dedup : (w.logIf b e).dedup = w.dedup := rfl
@[simp] theorem logIf_tasks : (w.logIf b e).tasks = w.tasks := rfl
@[simp] theorem logIf_log : (w.logIf b e).log = if b then e :: w.log else w.log := rfl

end

section Initiate

variable (settings : Settings) (w : World) (i client : ℕ) (r : STKPushInitiateRequest) (link : Link)

def cacheGet : World :=
  w.setTask i (.initiate client r
    (.afterCacheGet (redisGet link (w.idem r.idempotencyKey))))

def acquireLock : World :=
  let key := r.idempotencyKey
  let acquired := redisSetNx link (w.lock key) i
  { w with lock := Function.update w.lock key acquired.2 }.setTask i
    (.initiate client r (.afterSetNx key acquired.1))

def lookupByKey : World :=
  let key := r.idempotencyKey
  w.setTask i (.initiate client r
    (.afterLookup w.now link key (w.payments.getByIdempotencyKey key)))

def createRow (createdAt : ℚ) (paymentId : UUID) : World :=
  let next := w.payments.create (newPayment r paymentId createdAt)
  let result := commit link w.payments next
  ({ w with payments := result.1 }.logIf (committed link next) (.created i r paymentId)).setTask i
    (.initiate client r (.afterCreate paymentId result.2))

def invoke (paymentId : UUID) : World :=
  let checked := (w.clients client).checkCircuit settings w.now
  { w with
    clients := Function.update w.clients client (checked.toOption.getD (w.clients client))
    log := .dispatched i r.idempotencyKey r.initiateArgs :: w.log }.setTask i
      (.initiate client r (.afterCheckCircuit paymentId checked))

def makeAttempt (paymentId : UUID) (n : ℕ) (reply : AttemptReply) (accepted : Option DarajaIds) :
    World :=
  let result := DarajaWrapper.attempt settings w.now n (w.clients client) reply
  ({ w with clients := Function.update w.clients client result.1 }.logIf reply.sent
    (.posted i r.idempotencyKey paymentId reply accepted)).setTask i
      (.initiate client r (.afterAttempt paymentId n result.2))

def markFailed (paymentId : UUID) (e : DarajaError) : World :=
  let next := w.payments.markFailed w.now paymentId "Daraja API call failed before initiation" 1
  { w with payments := (commit link w.payments next).1 }.setTask i
    (.initiate client r (.afterMarkFailed e))

def storeIds (paymentId : UUID) (result : STKInitiationResult) : World :=
  let next := w.payments.updateDarajaIds w.now paymentId result.checkoutRequestId
    result.merchantRequestId
  let stored := commit link w.payments next
  { w with payments := stored.1 }.setTask i
    (.initiate client r (.afterUpdateIds paymentId result stored.2))

def cacheResult (response : STKPushInitiateResponse) : World :=
  let key := r.idempotencyKey
  { w with idem := Function.update w.idem key (redisSetex link (w.idem key) response) }.setTask i
    (.initiate client r (.afterSetex response))

def releaseLock (outcome : InitiateOutcome) : World :=
  let key := r.idempotencyKey
  { w with lock := Function.update w.lock key (redisDelete link (w.lock key)) }.setTask i
    (.initiate client r (.done outcome))

end Initiate

section Callback

variable (w : World) (i : ℕ) (cb : STKCallbackBody) (link : Link)

def claim : World :=
  let c := cb.checkoutRequestId
  let claimed := redisSetNx link (w.dedup c) i
  { w with dedup := Function.update w.dedup c claimed.2 }.setTask i
    (.callback cb (.afterSetNx claimed.1))

def lookupByCheckout : World :=
  let c := cb.checkoutRequestId
  w.setTask i (.callback cb (.afterLookup link c (w.payments.getByCheckoutRequestId c)))

def applyCallback (paymentId : UUID) : World :=
  let result := commit link w.payments (applyOutcome w.now w.payments paymentId cb)
  { w with payments := result.1 }.setTask i (.callback cb (.afterApply result.2))

end Callback

section Sweep

variable (w : World) (i : ℕ) (link : Link)

def selectStale (batch : List StaleRow) : World :=
  w.setTask i (.sweep (if link = .up then .rows batch else .raised))

/-- A row with a receipt goes to the Transaction Status branch, which slices a `UUID` object for
its remark and so raises before anything is sent; any other row is failed. Errors are logged. -/
def visitRow (row : StaleRow) (rest : List StaleRow) : World :=
  if row.hasReceipt then
    { w with log := .statusQueried row.id :: w.log }.setTask i (.sweep (.rows rest))
  else
    let next := w.payments.expire w.now row.id
    { w with payments := (commit link w.payments next).1 }.setTask i (.sweep (.rows rest))

end Sweep

/-- One action of the system; `none` when the task is not waiting for it. -/
def step (settings : Settings) (w : World) : Action → Option World
  | .tick d => if 0 ≤ d then some { w with now := w.now + d } else none
  | .evictIdem key => some { w with idem := Function.update w.idem key none }
  | .expireLock key => some { w with lock := Function.update w.lock key none }
  | .expireDedup c => some { w with dedup := Function.update w.dedup c none }
  | .startInitiate i client r =>
    match w.tasks i with
    | none => some (w.setTask i (.initiate client r .cacheGet))
    | some _ => none
  | .startCallback i cb =>
    match w.tasks i with
    | none => some ({ w with log := .reported cb :: w.log }.setTask i (.callback cb .claim))
    | some _ => none
  | .startSweep i =>
    match w.tasks i with
    | none => some (w.setTask i (.sweep (.select (w.now - staleAge))))
    | some _ => none
  | .redis i link =>
    match w.tasks i with
    | some (.initiate client r .cacheGet) => some (w.cacheGet i client r link)
    | some (.initiate client r .acquireLock) => some (w.acquireLock i client r link)
    | some (.initiate client r (.cacheResult response)) =>
      some (w.cacheResult i client r link response)
    | some (.initiate client r (.releaseLock outcome)) =>
      some (w.releaseLock i client r link outcome)
    | some (.callback cb .claim) => some (w.claim i cb link)
    | _ => none
  | .query i link =>
    match w.tasks i with
    | some (.initiate client r .lookup) => some (w.lookupByKey i client r link)
    | some (.callback cb .lookup) => some (w.lookupByCheckout i cb link)
    | _ => none
  | .select i ids link =>
    match w.tasks i with
    | some (.sweep (.select cutoff)) =>
      (w.payments.staleBatch cutoff ids).map fun batch => w.selectStale i link batch
    | _ => none
  | .insert i paymentId link =>
    match w.tasks i with
    | some (.initiate client r (.create createdAt)) =>
      some (w.createRow i client r link createdAt paymentId)
    | _ => none
  | .write i link =>
    match w.tasks i with
    | some (.initiate client r (.markFailed paymentId e)) =>
      some (w.markFailed i client r link paymentId e)
    | some (.initiate client r (.updateIds paymentId result)) =>
      some (w.storeIds i client r link paymentId result)
    | some (.callback cb (.apply paymentId)) => some (w.applyCallback i cb link paymentId)
    | some (.sweep (.rows (row :: rest))) => some (w.visitRow i link row rest)
    | _ => none
  | .callDaraja i =>
    match w.tasks i with
    | some (.initiate client r (.callDaraja paymentId)) =>
      some (w.invoke settings i client r paymentId)
    | _ => none
  | .attempt i reply accepted =>
    match w.tasks i with
    | some (.initiate client r (.posting paymentId n)) =>
      if reply.agrees accepted then
        some (w.makeAttempt settings i client r paymentId n reply accepted)
      else none
    | _ => none
  | .crash i =>
    match w.tasks i with
    | some task => if task.finished then none else some (w.setTask i task.crash)
    | none => none

/-- The states of all runs of the system. -/
def Reachable (settings : Settings) (w : World) : Prop := Machine.Reachable (step settings) init w

/-- What the call `i` returned, with the key of its request. -/
def returned? (w : World) (i : ℕ) : Option (String × STKPushInitiateResponse) :=
  match w.tasks i with
  | some (.initiate _ r (.done outcome)) => outcome.response?.map fun response =>
      (r.idempotencyKey, response)
  | _ => none

/-- The request of the call `i` and its answer, once it has ended. -/
def answer? (w : World) (i : ℕ) : Option (STKPushInitiateRequest × Answer) :=
  match w.tasks i with
  | some (.initiate _ r (.done outcome)) => some (r, outcome.answer)
  | _ => none

/-- The call that created the payment of this key, with its request. -/
def creator? (w : World) (key : String) : Option (ℕ × STKPushInitiateRequest) :=
  w.log.findSome? fun
    | .created i r _ => if r.idempotencyKey = key then some (i, r) else none
    | _ => none

def sampleRequest : STKPushInitiateRequest where
  phoneNumber := "254712345678"
  amount := 500
  accountReference := "INV-001"
  transactionDesc := "Order payment"
  idempotencyKey := "key-0001"
  phone_normalised := by decide
  amount_pos := by norm_num
  amount_le := by norm_num
  amount_whole := by decide +kernel
  reference_length := by decide
  reference_safe := by decide
  desc_length := by decide
  key_length := by decide

def acknowledgement (ids : DarajaIds) : AttemptReply :=
  .response 200 "" (some (.obj
    [("MerchantRequestID", .str ids.merchantRequestId),
     ("CheckoutRequestID", .str ids.checkoutRequestId),
     ("ResponseCode", .str "0"),
     ("ResponseDescription", .str "Success. Request accepted for processing"),
     ("CustomerMessage", .str "Success. Request accepted for processing")]))

def sampleIds : DarajaIds := ⟨"ws_CO_100420261335", "29115-34620561-1"⟩

/-- A call of the sample request up to the point where it posts. -/
def sampleUntilPost (i : ℕ) (paymentId : UUID) : List Action :=
  [.startInitiate i 0 sampleRequest, .redis i .up, .redis i .up, .query i .up,
   .insert i paymentId .up, .callDaraja i]

/-- The rest of the call when the push is acknowledged. -/
def sampleAcknowledged (i : ℕ) : List Action :=
  [.attempt i (acknowledgement sampleIds) (some sampleIds), .write i .up, .redis i .up,
   .redis i .up]

def sampleInitiation (i : ℕ) (paymentId : UUID) : List Action :=
  sampleUntilPost i paymentId ++ sampleAcknowledged i

def anotherRequest : STKPushInitiateRequest :=
  { sampleRequest with idempotencyKey := "key-0002", key_length := by decide }

def anotherIds : DarajaIds := ⟨"ws_CO_100420261336", "29115-34620561-2"⟩

def anotherInitiation (i : ℕ) (paymentId : UUID) : List Action :=
  [.startInitiate i 0 anotherRequest, .redis i .up, .redis i .up, .query i .up,
   .insert i paymentId .up, .callDaraja i,
   .attempt i (acknowledgement anotherIds) (some anotherIds), .write i .up, .redis i .up,
   .redis i .up]

def sampleCallback : STKCallbackBody where
  merchantRequestId := sampleIds.merchantRequestId
  checkoutRequestId := sampleIds.checkoutRequestId
  resultCode := 0
  resultDesc := "The service request is processed successfully."
  callbackMetadata := some
    [("Amount", .float "500.0"), ("MpesaReceiptNumber", .str "NLJ7RT61SV"),
     ("TransactionDate", .int 20260410133540), ("PhoneNumber", .int 254712345678)]

def anotherCallback (receipt : String) : STKCallbackBody where
  __ := sampleCallback
  merchantRequestId := anotherIds.merchantRequestId
  checkoutRequestId := anotherIds.checkoutRequestId
  callbackMetadata := some [("Amount", .float "500.0"), ("MpesaReceiptNumber", .str receipt)]

/-- A delivery of a callback from start to end. -/
def delivery (i : ℕ) (cb : STKCallbackBody) : List Action :=
  [.startCallback i cb, .redis i .up, .query i .up, .write i .up]

def sampleConfirmation : List Action := sampleInitiation 0 7 ++ delivery 1 sampleCallback

theorem sampleUntilPost_enabled :
    (Machine.run (step {}) init (sampleUntilPost 0 7)).isSome = true := by decide +kernel

theorem sampleInitiation_enabled :
    (Machine.run (step {}) init (sampleInitiation 0 7)).isSome = true := by decide +kernel

theorem sampleConfirmation_enabled :
    (Machine.run (step {}) init sampleConfirmation).isSome = true := by decide +kernel

def after (settings : Settings) (as : List Action)
    (h : (Machine.run (step settings) init as).isSome = true) : World :=
  (Machine.run (step settings) init as).get h

theorem run_after {settings : Settings} {as : List Action}
    (h : (Machine.run (step settings) init as).isSome = true) :
    Machine.run (step settings) init as = some (after settings as h) := (Option.some_get h).symm

theorem run_after_append {settings : Settings} {as bs : List Action}
    (h : (Machine.run (step settings) init as).isSome = true)
    (h' : (Machine.run (step settings) init (as ++ bs)).isSome = true) :
    Machine.run (step settings) (after settings as h) bs = some (after settings (as ++ bs) h') := by
  obtain ⟨u, hu, hrun⟩ := Machine.run_append.mp (run_after h')
  rwa [Option.some.inj (hu.symm.trans (run_after h))] at hrun

theorem reachable_after {settings : Settings} {as : List Action}
    (h : (Machine.run (step settings) init as).isSome = true) :
    Reachable settings (after settings as h) := ⟨as, run_after h⟩

end World

def identifiedRow : Payment :=
  (newPayment World.sampleRequest 7 0).withDarajaIds 0 World.sampleIds.checkoutRequestId
    World.sampleIds.merchantRequestId

end DarajaWrapper
