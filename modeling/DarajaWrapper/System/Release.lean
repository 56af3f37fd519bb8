import DarajaWrapper.System.Lock
import DarajaWrapper.System.Progress

/-!
# The lock is not left behind

Whatever a call meets behind its SET NX, its `finally` deletes the lock. So as long as
the call that has set an entry neither dies nor loses its DELETE, an entry says that
this call is still under way, and whoever is turned away with a conflict is turned
away by it.
-/

namespace DarajaWrapper
namespace InitiatePc

variable {paymentId : UUID} {n : ℕ} {ok : Bool}

theorem stage_afterLookup_le (now : ℚ) (link : Link) (key : String) (existing : Option Payment) :
    (afterLookup now link key existing).stage ≤ 8 := by
  unfold afterLookup
  split_ifs
  · simp [stage]
  · cases existing with
    | none => simp [stage]
    | some p =>
      dsimp only
      split_ifs <;> simp [stage]

theorem stage_afterCreate_le : (afterCreate paymentId ok).stage ≤ 8 := by
  cases ok <;> simp [afterCreate, stage]

theorem stage_afterCheckCircuit_le (checked : Except DarajaError DarajaClient) :
    (afterCheckCircuit paymentId checked).stage ≤ 8 := by
  cases checked <;> simp [afterCheckCircuit, stage]

theorem stage_afterAttempt_le (result : AttemptResult) :
    (afterAttempt paymentId n result).stage ≤ 8 := by
  cases result with
  | returned body =>
    simp only [afterAttempt]
    split <;> simp [stage]
  | retry => simp [afterAttempt, stage]
  | raised e => cases e <;> simp [afterAttempt, afterCallError, stage]

theorem stage_afterUpdateIds_le (result : STKInitiationResult) :
    (afterUpdateIds paymentId result ok).stage ≤ 8 := by
  cases ok <;> simp [afterUpdateIds, stage]

end InitiatePc

namespace World

variable {settings : Settings} {w w' : World} {a : Action} {i client : ℕ} {key : String}
  {r : STKPushInitiateRequest}

/-- The entry of this key was set by a call that is still inside. -/
def HeldInside (key : String) (w : World) : Prop := ∀ ⦃i⦄, w.lock key = some i → w.Inside key i

/-- The call that has set the entry does not die here, and its DELETE reaches Redis. -/
def KeepsHold (key : String) (w : World) (a : Action) : Prop :=
  ∀ ⦃i⦄, w.lock key = some i → a ≠ .crash i ∧
    ∀ client r outcome, w.tasks i = some (.initiate client r (.releaseLock outcome)) →
      a ≠ .redis i .down

theorem Move.ends_with_delete {pc : InitiatePc} (h : Move settings w a w') (ha : a.task? = some i)
    (hi : w.tasks i = some (.initiate client r pc)) (hlo : 2 ≤ pc.stage) (hhi : pc.stage ≤ 8) :
    a = .crash i ∨ (∃ pc', w'.tasks i = some (.initiate client r pc') ∧ pc'.stage ≤ 8) ∨
      ∃ outcome link, pc = .releaseLock outcome ∧ a = .redis i link ∧
        w' = w.releaseLock i client r link outcome := by
  cases h with
  | tick | evictIdem | expireLock | expireDedup => cases ha
  | crash hj =>
    cases ha
    exact Or.inl rfl
  | startInitiate client r hj | startCallback cb hj | startSweep hj | claim link hj
  | lookupByCheckout link hj | applyCallback link hj | selectStale link hj | visitRow link hj =>
    cases ha
    cases hj.symm.trans hi
  | cacheGet link hj | acquireLock link hj =>
    cases ha
    cases hj.symm.trans hi
    simp [InitiatePc.stage] at hlo
  | lookupByKey link hj =>
    cases ha
    cases hj.symm.trans hi
    exact Or.inr (Or.inl ⟨_, Function.update_self .., InitiatePc.stage_afterLookup_le _ _ _ _⟩)
  | createRow link paymentId hj =>
    cases ha
    cases hj.symm.trans hi
    exact Or.inr (Or.inl ⟨_, Function.update_self .., InitiatePc.stage_afterCreate_le⟩)
  | invoke hj =>
    cases ha
    cases hj.symm.trans hi
    exact Or.inr (Or.inl ⟨_, Function.update_self .., InitiatePc.stage_afterCheckCircuit_le _⟩)
  | makeAttempt reply accepted hagrees hj =>
    cases ha
    cases hj.symm.trans hi
    exact Or.inr (Or.inl ⟨_, Function.update_self .., InitiatePc.stage_afterAttempt_le _⟩)
  | markFailed link hj =>
    cases ha
    cases hj.symm.trans hi
    exact Or.inr (Or.inl ⟨_, Function.update_self .., le_rfl⟩)
  | storeIds link hj =>
    cases ha
    cases hj.symm.trans hi
    exact Or.inr (Or.inl ⟨_, Function.update_self .., InitiatePc.stage_afterUpdateIds_le _⟩)
  | cacheResult link hj =>
    cases ha
    cases hj.symm.trans hi
    exact Or.inr (Or.inl ⟨_, Function.update_self .., le_rfl⟩)
  | releaseLock link hj =>
    cases ha
    cases hj.symm.trans hi
    exact Or.inr (Or.inr ⟨_, link, rfl, rfl, rfl⟩)

/-- The setter of an entry that its step keeps is inside afterwards, or has deleted the entry. -/
theorem Inside.next (hin : w.Inside key i) (h : Move settings w a w') :
    w'.Inside key i ∨ a = .crash i ∨ ∃ client r outcome link, a = .redis i link ∧
      w.tasks i = some (.initiate client r (.releaseLock outcome)) ∧ r.idempotencyKey = key ∧
      w' = w.releaseLock i client r link outcome := by
  obtain ⟨client, r, pc, hi, hkey, hlo, hhi⟩ := hin
  by_cases ha : a.task? = some i
  · rcases h.ends_with_delete ha hi hlo hhi with
      hcrash | ⟨pc', hi', hstage⟩ | ⟨outcome, link, rfl, hact, hw'⟩
    · exact Or.inr (Or.inl hcrash)
    · obtain ⟨pc'', hi'', hle⟩ := h.initiate_next hi
      cases hi'.symm.trans hi''
      exact Or.inl ⟨client, r, pc', hi', hkey, hlo.trans hle, hstage⟩
    · exact Or.inr (Or.inr ⟨client, r, outcome, link, hact, hi, hkey, hw'⟩)
  · exact Or.inl ⟨client, r, pc, (h.tasks_of_ne ha).trans hi, hkey, hlo, hhi⟩

theorem releaseLock_lock (w : World) (i client : ℕ) (r : STKPushInitiateRequest) (link : Link)
    (outcome : InitiateOutcome) : (w.releaseLock i client r link outcome).lock r.idempotencyKey =
      redisDelete link (w.lock r.idempotencyKey) := Function.update_self ..

theorem heldInside_step (hw : HeldInside key w) (hok : KeepsHold key w a)
    (h : Move settings w a w') : HeldInside key w' := by
  intro i hi
  rcases h.lock_cases key with
    hsame | hnone | ⟨j, client, r, link, ha, hlink, hj, hkey, hfree, hset⟩
  · have hbefore : w.lock key = some i := hsame ▸ hi
    rcases (hw hbefore).next h with
      hin | hcrash | ⟨client, r, outcome, link, ha, htask, hkey, hw'⟩
    · exact hin
    · exact absurd hcrash (hok hbefore).1
    · -- the DELETE of the setter removes the entry
      have hlink : link ≠ .down := by
        rintro rfl
        exact (hok hbefore).2 client r outcome htask ha
      subst hkey
      rw [hw', releaseLock_lock, redisDelete, if_neg hlink] at hi
      cases hi
  · cases hnone.symm.trans hi
  · cases hset.symm.trans hi
    subst ha hkey
    obtain rfl := h.eq_acquireLock hj
    exact inside_acquireLock (by simp [hfree])

theorem heldInside_init : HeldInside key init := by
  intro i hi
  cases hi

/-- A step at which the setter dies or loses its DELETE leaves the entry behind. -/
theorem not_heldInside_of_step (hok : ¬ KeepsHold key w a) (hw : HeldInside key w)
    (h : Move settings w a w') : ¬ HeldInside key w' := by
  unfold KeepsHold at hok
  push Not at hok
  obtain ⟨i, hlock, hbad⟩ := hok
  intro hheld
  by_cases hcrash : a = .crash i
  · subst hcrash
    cases h with
    | @crash _ task hi hlive =>
      obtain ⟨client, r, pc, htask, -, -, hhi⟩ := hheld hlock
      have hcrashed := setTask_inj htask
      cases task <;> cases hcrashed
      simp [InitiatePc.stage] at hhi
  · obtain ⟨client, r, outcome, hi, rfl⟩ := hbad hcrash
    cases h with
    | releaseLock link hj =>
      cases hj.symm.trans hi
      obtain ⟨client', r', pc, htask, hkey, -, -⟩ := hw hlock
      cases hi.symm.trans htask
      subst hkey
      have hlock' : (w.releaseLock i client r .down outcome).lock r.idempotencyKey = some i := by
        rw [releaseLock_lock, hlock]
        rfl
      obtain ⟨client', r', pc, htask', -, -, hhi⟩ := hheld hlock'
      cases setTask_inj htask'
      simp [InitiatePc.stage] at hhi
    | cacheGet link hj | acquireLock link hj | cacheResult link hj | claim link hj =>
      cases hj.symm.trans hi

theorem heldInside_of_run {key : String} {as : List Action}
    (hok : Machine.Meets (step settings) (KeepsHold key) init as)
    (hrun : Machine.run (step settings) init as = some w) : HeldInside key w := by
  refine Machine.run_invariant_of_meets heldInside_init ?_ hok hrun
  intro u a v _ hheld hoku hstep
  exact heldInside_step hheld hoku (move_of_step hstep)

/-- The setter of an entry is inside all along a run exactly when, at every step, it does not die
and its DELETE reaches Redis. -/
theorem held_inside_iff {as : List Action} (key : String)
    (hrun : Machine.run (step settings) init as = some w) :
    Machine.Meets (step settings) (KeepsHold key) init as ↔
      ∀ as₁ u, as₁ <+: as → Machine.run (step settings) init as₁ = some u → HeldInside key u := by
  constructor
  · rintro hok as₁ u ⟨as₂, rfl⟩ hu
    exact heldInside_of_run hok.of_append hu
  · intro hheld
    by_contra hbad
    obtain ⟨as₁, a, as₂, u, v, rfl, -, hu, hstep, hbad⟩ := Machine.exists_of_not_meets hbad hrun
    have hv : Machine.run (step settings) init (as₁ ++ [a]) = some v :=
      Machine.run_append.mpr ⟨u, hu, Machine.run_cons.mpr ⟨v, hstep, Machine.run_nil v⟩⟩
    refine not_heldInside_of_step hbad (hheld as₁ u ⟨_, rfl⟩ hu) (move_of_step hstep) ?_
    exact hheld (as₁ ++ [a]) v ⟨as₂, by simp⟩ hv

theorem keepsHold_of_healthy (settings : Settings) (key : String) (w : World) {as : List Action}
    (h : ∀ a ∈ as, a.healthy = true) : Machine.Meets (step settings) (KeepsHold key) w as := by
  apply Machine.meets_of_forall
  intro a ha u i _
  have hhealthy := h a ha
  refine ⟨?_, fun client r outcome _ => ?_⟩
  · rintro rfl
    cases hhealthy
  · rintro rfl
    cases hhealthy

theorem held_inside_iff_sample : HeldInside "key-0001" (after {} _ sampleUntilPost_enabled) :=
  (held_inside_iff "key-0001" (run_after sampleInitiation_enabled)).mp
    (keepsHold_of_healthy {} "key-0001" init (by decide)) (sampleUntilPost 0 7) _
    (List.prefix_append _ _) (run_after sampleUntilPost_enabled)

/-- In such a run, a call that is turned away with a conflict is turned away by a call for the same
key that is still under way. -/
theorem conflict_meets_live_call {as : List Action}
    (hrun : Machine.run (step settings) init as = some w)
    (hok : Machine.Meets (step settings) (KeepsHold r.idempotencyKey) init as)
    (hstep : step settings w a = some w')
    (hi : w.tasks i = some (.initiate client r .acquireLock))
    (hi' : w'.tasks i =
      some (.initiate client r (.done (.raised (.duplicatePayment r.idempotencyKey))))) :
    ∃ j, j ≠ i ∧ w.lock r.idempotencyKey = some j ∧ w.Inside r.idempotencyKey j := by
  have hheld : HeldInside r.idempotencyKey w := heldInside_of_run hok hrun
  rcases (move_of_step hstep).initiate_cases hi' with hsame | hmove
  · cases hi.symm.trans hsame
  · cases hmove with
    | lockRefused _ ha hlock =>
      obtain ⟨j, hj⟩ := Option.isSome_iff_exists.mp hlock
      refine ⟨j, ?_, hj, hheld hj⟩
      rintro rfl
      exact not_inside_of_acquireLock hi (hheld hj)
    | released hj => cases hi.symm.trans hj

/-- A call, and another one for its key that asks for the lock. -/
def duplicateCall : List Action :=
  sampleUntilPost 0 7 ++ [.startInitiate 1 0 sampleRequest, .redis 1 .up]

theorem duplicateCall_enabled : (Machine.run (step {}) init duplicateCall).isSome = true := by
  decide +kernel

theorem conflict_meets_live_call_sample :
    ∃ j, j ≠ 1 ∧ (after {} _ duplicateCall_enabled).lock "key-0001" = some j ∧
      (after {} _ duplicateCall_enabled).Inside "key-0001" j := by
  have hstage : (after {} _ duplicateCall_enabled).stage? 1 = some ("key-0001", 1) := by
    decide +kernel
  have hlock : (after {} _ duplicateCall_enabled).lock "key-0001" = some 0 := by decide +kernel
  obtain ⟨client, r, pc, hi, hkey, hpc⟩ := stage?_eq_some hstage
  cases pc with
  | acquireLock =>
    rw [← hkey] at hlock ⊢
    refine conflict_meets_live_call (run_after duplicateCall_enabled)
      (keepsHold_of_healthy {} _ init (by decide)) (step_of_move (.acquireLock .up hi)) hi ?_
    simp [acquireLock, hlock, redisSetNx, InitiatePc.afterSetNx]
  | _ => simp [InitiatePc.stage] at hpc

end World
end DarajaWrapper
