import DarajaWrapper.Library.Variant
import DarajaWrapper.System.Moves

/-!
# Progress

No call waits for another one. The lock is asked for once and never waited on, the
retries of a POST are counted and a sweep visits one batch, so each task has a
bounded number of operations; and the next one can be taken whatever the others have
done.
-/

namespace DarajaWrapper

/-- At most so many operations of the call are left when `attempts` attempts are allowed. -/
def InitiatePc.left (attempts : ℕ) : InitiatePc → ℕ
  | cacheGet => attempts + 8
  | acquireLock => attempts + 7
  | lookup => attempts + 6
  | create _ => attempts + 5
  | callDaraja _ => attempts + 4
  | posting _ n => attempts - n + 4
  | markFailed _ _ => 2
  | updateIds _ _ => 3
  | cacheResult _ => 2
  | releaseLock _ => 1
  | done _ => 0
  | crashed => 0

def CallbackPc.left : CallbackPc → ℕ
  | claim => 3
  | lookup => 2
  | apply _ => 1
  | done _ => 0
  | crashed => 0

def SweepPc.left : SweepPc → ℕ
  | select _ => batchSize + 1
  | rows remaining => remaining.length
  | raised => 0
  | crashed => 0

def Task.left (settings : Settings) : Task → ℕ
  | .initiate _ _ pc => pc.left settings.darajaRetryAttempts
  | .callback _ pc => pc.left
  | .sweep pc => pc.left

/-- The operations of a task from its start on, the start counted. -/
def Task.allowance (settings : Settings) : Task → ℕ
  | .initiate _ _ _ => settings.darajaRetryAttempts + 9
  | .callback _ _ => 4
  | .sweep _ => batchSize + 2

section

variable {settings : Settings} {attempts n : ℕ} {paymentId : UUID}

theorem Task.finished_iff (task : Task) : task.finished = true ↔ task.left settings = 0 := by
  cases task with
  | initiate client r pc => cases pc <;> simp [Task.finished, Task.left, InitiatePc.left]
  | callback cb pc => cases pc <;> simp [Task.finished, Task.left, CallbackPc.left]
  | sweep pc =>
    cases pc with
    | rows remaining => cases remaining <;> simp [Task.finished, Task.left, SweepPc.left]
    | _ => simp [Task.finished, Task.left, SweepPc.left]

theorem Task.left_crash (task : Task) : task.crash.left settings = 0 := by
  cases task <;> rfl

theorem Task.allowance_crash (task : Task) :
    task.crash.allowance settings = task.allowance settings := by
  cases task <;> rfl

theorem InitiatePc.left_afterCacheGet (cached : Option STKPushInitiateResponse) :
    (afterCacheGet cached).left attempts < cacheGet.left attempts := by
  cases cached <;> simp [afterCacheGet, left]

theorem InitiatePc.left_afterSetNx (key : String) (acquired : Bool) :
    (afterSetNx key acquired).left attempts < acquireLock.left attempts := by
  cases acquired <;> simp [afterSetNx, left]

theorem InitiatePc.left_afterLookup (now : ℚ) (link : Link) (key : String)
    (existing : Option Payment) :
    (afterLookup now link key existing).left attempts < lookup.left attempts := by
  unfold afterLookup
  split_ifs
  · simp [left]
  · cases existing with
    | none => simp [left]
    | some p =>
      dsimp only
      split_ifs <;> simp [left]

theorem InitiatePc.left_afterCreate (createdAt : ℚ) (ok : Bool) :
    (afterCreate paymentId ok).left attempts < (create createdAt).left attempts := by
  cases ok <;> simp [afterCreate, left]

theorem InitiatePc.left_afterCheckCircuit (hattempts : 1 ≤ attempts)
    (checked : Except DarajaError DarajaClient) :
    (afterCheckCircuit paymentId checked).left attempts < (callDaraja paymentId).left attempts := by
  cases checked with
  | ok c =>
    simp only [afterCheckCircuit, left]
    omega
  | error e =>
    simp only [afterCheckCircuit, left]
    omega

theorem InitiatePc.left_afterAttempt {result : AttemptResult}
    (hretry : result = .retry → n < attempts) :
    (afterAttempt paymentId n result).left attempts < (posting paymentId n).left attempts := by
  cases result with
  | returned body =>
    simp only [afterAttempt]
    split <;> simp only [left] <;> omega
  | retry =>
    have hn := hretry rfl
    simp only [afterAttempt, left]
    omega
  | raised e => cases e <;> simp only [afterAttempt, afterCallError, left] <;> omega

theorem InitiatePc.left_afterUpdateIds (result : STKInitiationResult) (ok : Bool) :
    (afterUpdateIds paymentId result ok).left attempts <
      (updateIds paymentId result).left attempts := by
  cases ok <;> simp [afterUpdateIds, left]

theorem CallbackPc.left_afterSetNx (firstTime : Bool) :
    (afterSetNx firstTime).left < claim.left := by
  cases firstTime <;> simp [afterSetNx, left]

theorem CallbackPc.left_afterLookup (link : Link) (checkoutRequestId : String)
    (payment : Option Payment) :
    (afterLookup link checkoutRequestId payment).left < lookup.left := by
  unfold afterLookup
  split_ifs
  · simp [left]
  · cases payment <;> simp [left]

theorem PaymentsTable.length_of_staleBatch {t : PaymentsTable} {cutoff : ℚ} {ids : List UUID}
    {batch : List StaleRow} (h : t.staleBatch cutoff ids = some batch) :
    batch.length ≤ batchSize := by
  simp only [staleBatch] at h
  split_ifs at h with hids
  cases h
  rw [List.length_map]
  calc (ids.filterMap t.getById).length ≤ ids.length := List.length_filterMap_le ..
    _ = min batchSize (t.rows.filter (isStale cutoff)).length := hids.2.2
    _ ≤ batchSize := min_le_left ..

/-- Whatever is stale, there is a batch that the SELECT may return. -/
theorem PaymentsTable.exists_staleBatch (t : PaymentsTable) (cutoff : ℚ) :
    ∃ ids batch, t.staleBatch cutoff ids = some batch := by
  have hnodup : ((t.rows.filter (isStale cutoff)).map (·.id)).Nodup :=
    t.constraints.id.sublist (List.filter_sublist.map _)
  refine ⟨((t.rows.filter (isStale cutoff)).map (·.id)).take batchSize, _, if_pos ⟨?_, ?_, ?_⟩⟩
  · exact hnodup.sublist (List.take_sublist ..)
  · exact List.take_subset ..
  · rw [List.length_take, List.length_map]

end

/-- The server of the operation answers, and the task does not die. -/
def Action.healthy : Action → Bool
  | redis _ link => link = .up
  | query _ link => link = .up
  | select _ _ link => link = .up
  | insert _ _ link => link = .up
  | write _ link => link = .up
  | attempt _ reply _ => !reply.ambiguous
  | crash _ => false
  | _ => true

namespace World

variable {settings : Settings} {w w' : World} {a : Action} {i : ℕ} {task : Task}

theorem Move.left_lt (h : Move settings w a w') (ha : a.task? = some i)
    (hi : w.tasks i = some task) :
    ∃ task', w'.tasks i = some task' ∧ task'.left settings < task.left settings ∧
      task'.allowance settings = task.allowance settings := by
  cases h with
  | tick | evictIdem | expireLock | expireDedup => cases ha
  | startInitiate client r hfree | startCallback cb hfree | startSweep hfree =>
    cases ha
    cases hfree.symm.trans hi
  | cacheGet link hj =>
    cases ha
    cases hj.symm.trans hi
    exact ⟨_, Function.update_self .., InitiatePc.left_afterCacheGet _, rfl⟩
  | acquireLock link hj =>
    cases ha
    cases hj.symm.trans hi
    exact ⟨_, Function.update_self .., InitiatePc.left_afterSetNx _ _, rfl⟩
  | lookupByKey link hj =>
    cases ha
    cases hj.symm.trans hi
    exact ⟨_, Function.update_self .., InitiatePc.left_afterLookup _ _ _ _, rfl⟩
  | @createRow _ _ _ createdAt link paymentId hj =>
    cases ha
    cases hj.symm.trans hi
    exact ⟨_, Function.update_self .., InitiatePc.left_afterCreate createdAt _, rfl⟩
  | invoke hj =>
    cases ha
    cases hj.symm.trans hi
    exact ⟨_, Function.update_self .., InitiatePc.left_afterCheckCircuit settings.attempts_pos _,
      rfl⟩
  | makeAttempt reply accepted hagrees hj =>
    cases ha
    cases hj.symm.trans hi
    exact ⟨_, Function.update_self ..,
      InitiatePc.left_afterAttempt fun hretry => (attempt_retry_iff.mp hretry).2, rfl⟩
  | markFailed link hj =>
    cases ha
    cases hj.symm.trans hi
    exact ⟨_, Function.update_self .., by simp [Task.left, InitiatePc.afterMarkFailed,
      InitiatePc.left], rfl⟩
  | storeIds link hj =>
    cases ha
    cases hj.symm.trans hi
    exact ⟨_, Function.update_self .., InitiatePc.left_afterUpdateIds _ _, rfl⟩
  | cacheResult link hj =>
    cases ha
    cases hj.symm.trans hi
    exact ⟨_, Function.update_self .., by simp [Task.left, InitiatePc.afterSetex,
      InitiatePc.left], rfl⟩
  | releaseLock link hj =>
    cases ha
    cases hj.symm.trans hi
    exact ⟨_, Function.update_self .., by simp [Task.left, InitiatePc.left], rfl⟩
  | claim link hj =>
    cases ha
    cases hj.symm.trans hi
    exact ⟨_, Function.update_self .., CallbackPc.left_afterSetNx _, rfl⟩
  | lookupByCheckout link hj =>
    cases ha
    cases hj.symm.trans hi
    exact ⟨_, Function.update_self .., CallbackPc.left_afterLookup _ _ _, rfl⟩
  | applyCallback link hj =>
    cases ha
    cases hj.symm.trans hi
    exact ⟨_, Function.update_self .., by simp [Task.left, CallbackPc.afterApply,
      CallbackPc.left], rfl⟩
  | selectStale link hj hbatch =>
    cases ha
    cases hj.symm.trans hi
    refine ⟨_, Function.update_self .., ?_, rfl⟩
    have hlen := PaymentsTable.length_of_staleBatch hbatch
    simp only [Task.left]
    split_ifs <;> simp only [SweepPc.left] <;> omega
  | visitRow link hj =>
    cases ha
    cases hj.symm.trans hi
    unfold World.visitRow
    split_ifs
    · exact ⟨_, Function.update_self .., by simp [Task.left, SweepPc.left], rfl⟩
    · exact ⟨_, Function.update_self .., by simp [Task.left, SweepPc.left], rfl⟩
  | crash hj hlive =>
    cases ha
    cases hj.symm.trans hi
    refine ⟨_, Function.update_self .., ?_, task.allowance_crash⟩
    rw [task.left_crash]
    have hleft : ¬ task.left settings = 0 := by
      rw [← task.finished_iff, hlive]
      decide
    omega

theorem Move.left_of_start (h : Move settings w a w') (ha : a.task? = some i)
    (hi : w.tasks i = none) :
    ∃ task, w'.tasks i = some task ∧ task.left settings + 1 = task.allowance settings := by
  cases h with
  | tick | evictIdem | expireLock | expireDedup => cases ha
  | startInitiate client r hfree | startCallback cb hfree | startSweep hfree =>
    cases ha
    exact ⟨_, Function.update_self .., rfl⟩
  | selectStale link hj | crash hj =>
    cases ha
    cases hj.symm.trans hi
  | _ =>
    rename_i hj
    cases ha
    cases hj.symm.trans hi

/-- What the task has done so far, and what is left to it. -/
def Accounts (settings : Settings) (i : ℕ) (as : List Action) (w : World) : Prop :=
  match w.tasks i with
  | none => as.countP (fun a => a.task? = some i) = 0
  | some task => as.countP (fun a => a.task? = some i) + task.left settings ≤
      task.allowance settings

theorem accounts_init (settings : Settings) (i : ℕ) : Accounts settings i [] init := rfl

theorem Accounts.step {as : List Action} (hw : Accounts settings i as w)
    (h : Move settings w a w') : Accounts settings i (as ++ [a]) w' := by
  unfold Accounts at hw ⊢
  rw [List.countP_append, List.countP_singleton]
  by_cases ha : a.task? = some i
  · rw [if_pos (by simpa using ha)]
    cases hi : w.tasks i with
    | none =>
      obtain ⟨task', hi', hstart⟩ := h.left_of_start ha hi
      simp only [hi] at hw
      simp only [hi', hw]
      omega
    | some task =>
      obtain ⟨task', hi', hlt, hallowance⟩ := h.left_lt ha hi
      simp only [hi] at hw
      simp only [hi', hallowance]
      omega
  · rw [h.tasks_of_ne ha, if_neg (by simpa using ha)]
    exact hw

/-- In every run, what a task has done and what is left to it is within its allowance: it takes
at most `darajaRetryAttempts + 9`, 4 or 52 operations, its start counted. -/
theorem operations_bounded {as : List Action}
    (hrun : Machine.run (step settings) init as = some w) (hi : w.tasks i = some task) :
    as.countP (fun a => a.task? = some i) + task.left settings ≤ task.allowance settings := by
  have hw : Accounts settings i as w := by
    refine Machine.run_history (accounts_init settings i) ?_ hrun
    intro as u a v _ hu hstep
    exact hu.step (move_of_step hstep)
  simpa only [Accounts, hi] using hw

theorem sampleInitiation_started :
    ((after {} _ sampleInitiation_enabled).tasks 0).isSome = true := by decide +kernel

theorem operations_bounded_sample :
    ∃ task, (after {} _ sampleInitiation_enabled).tasks 0 = some task ∧
      (sampleInitiation 0 7).countP (fun a => a.task? = some 0) + task.left {} ≤
        task.allowance {} := by
  obtain ⟨task, hi⟩ := Option.isSome_iff_exists.mp sampleInitiation_started
  exact ⟨task, hi, operations_bounded (run_after sampleInitiation_enabled) hi⟩

/-- Whatever the others have done, a task that is not finished can take its next operation, with a
server that answers. -/
theorem exists_next (w : World) (hi : w.tasks i = some task) (hlive : task.finished = false) :
    ∃ a w', a.task? = some i ∧ a.healthy = true ∧ Move settings w a w' := by
  cases task with
  | initiate client r pc =>
    cases pc with
    | cacheGet => exact ⟨_, _, rfl, rfl, .cacheGet .up hi⟩
    | acquireLock => exact ⟨_, _, rfl, rfl, .acquireLock .up hi⟩
    | lookup => exact ⟨_, _, rfl, rfl, .lookupByKey .up hi⟩
    | create createdAt => exact ⟨_, _, rfl, rfl, .createRow .up 0 hi⟩
    | callDaraja paymentId => exact ⟨_, _, rfl, rfl, .invoke hi⟩
    | posting paymentId n =>
      exact ⟨_, _, rfl, rfl, .makeAttempt (acknowledgement sampleIds) (some sampleIds) rfl hi⟩
    | markFailed paymentId e => exact ⟨_, _, rfl, rfl, .markFailed .up hi⟩
    | updateIds paymentId result => exact ⟨_, _, rfl, rfl, .storeIds .up hi⟩
    | cacheResult response => exact ⟨_, _, rfl, rfl, .cacheResult .up hi⟩
    | releaseLock outcome => exact ⟨_, _, rfl, rfl, .releaseLock .up hi⟩
    | done | crashed => cases hlive
  | callback cb pc =>
    cases pc with
    | claim => exact ⟨_, _, rfl, rfl, .claim .up hi⟩
    | lookup => exact ⟨_, _, rfl, rfl, .lookupByCheckout .up hi⟩
    | apply paymentId => exact ⟨_, _, rfl, rfl, .applyCallback .up hi⟩
    | done | crashed => cases hlive
  | sweep pc =>
    cases pc with
    | select cutoff =>
      obtain ⟨ids, batch, hbatch⟩ := w.payments.exists_staleBatch cutoff
      exact ⟨_, _, rfl, rfl, .selectStale .up hi hbatch⟩
    | rows remaining =>
      cases remaining with
      | nil => cases hlive
      | cons row rest => exact ⟨_, _, rfl, rfl, .visitRow .up hi⟩
    | raised | crashed => cases hlive

/-- From every state, a task comes to its end by what is left to it, no other task moving. -/
theorem finishes_alone (w : World) (hi : w.tasks i = some task) :
    ∃ as w' task', (∀ a ∈ as, a.task? = some i ∧ a.healthy = true) ∧
      Machine.run (step settings) w as = some w' ∧ w'.tasks i = some task' ∧
      task'.finished = true ∧ as.length ≤ task.left settings := by
  have hstep : ∀ u : World, (∃ task, u.tasks i = some task) →
      ¬ (∃ task, u.tasks i = some task ∧ task.finished = true) →
        ∃ a v, (a.task? = some i ∧ a.healthy = true) ∧ step settings u a = some v ∧
          (∃ task, v.tasks i = some task) ∧
          (v.tasks i).elim 0 (Task.left settings) < (u.tasks i).elim 0 (Task.left settings) := by
    rintro u ⟨task, hi⟩ hlive
    have hunfinished : task.finished = false := by
      rw [← Bool.not_eq_true]
      intro hfinished
      exact hlive ⟨task, hi, hfinished⟩
    obtain ⟨a, v, ha, hhealthy, hmove⟩ := u.exists_next hi hunfinished
    obtain ⟨task', hi', hlt, -⟩ := hmove.left_lt ha hi
    refine ⟨a, v, ⟨ha, hhealthy⟩, step_of_move hmove, ⟨task', hi'⟩, ?_⟩
    rw [hi, hi']
    exact hlt
  obtain ⟨as, w', has, hrun, ⟨task', hi', hdone⟩, hlen⟩ :=
    Machine.exists_run_of_variant _ _ _ _ hstep ⟨task, hi⟩
  rw [hi] at hlen
  exact ⟨as, w', task', has, hrun, hi', hdone, hlen⟩

theorem sampleUntilPost_started :
    ((after {} _ sampleUntilPost_enabled).tasks 0).isSome = true := by decide +kernel

theorem finishes_alone_sample :
    ∃ task as w' task', (after {} _ sampleUntilPost_enabled).tasks 0 = some task ∧
      (∀ a ∈ as, a.task? = some 0 ∧ a.healthy = true) ∧
      Machine.run (step {}) (after {} _ sampleUntilPost_enabled) as = some w' ∧
      w'.tasks 0 = some task' ∧ task'.finished = true ∧ as.length ≤ task.left {} := by
  obtain ⟨task, hi⟩ := Option.isSome_iff_exists.mp sampleUntilPost_started
  obtain ⟨as, w', task', hfinish⟩ := @finishes_alone {} _ _ _ hi
  exact ⟨task, as, w', task', hi, hfinish⟩

end World
end DarajaWrapper
