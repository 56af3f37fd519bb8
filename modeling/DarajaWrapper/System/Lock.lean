import DarajaWrapper.System.Moves

/-!
# The lock of an idempotency key

Every call that its SET NX lets through deletes the lock in the end, whether it has
set the entry itself, has lost it to the time to live or never had it because Redis
failed. The entry says nothing about who set it, so a call deletes what it finds.
This is its own as long as no two calls of a key overlap around an entry.
-/

namespace DarajaWrapper
namespace World

variable {settings : Settings} {w w' : World} {a : Action} {i j client : ℕ} {key : String}
  {r : STKPushInitiateRequest} {pc : InitiatePc}

/-- The call `i` is between its SET NX and its DELETE on the lock of this key. -/
def Inside (w : World) (key : String) (i : ℕ) : Prop :=
  ∃ client r pc, w.tasks i = some (.initiate client r pc) ∧ r.idempotencyKey = key ∧
    2 ≤ pc.stage ∧ pc.stage ≤ 8

/-- A call that comes to its DELETE does not find the entry of another call that is still
inside. -/
def ReleasesOwn (key : String) (w : World) : Prop :=
  ∀ ⦃i client r outcome⦄, w.tasks i = some (.initiate client r (.releaseLock outcome)) →
    r.idempotencyKey = key → ∀ ⦃j⦄, w.lock key = some j → w.Inside key j → j = i

/-- A SET NX that sets the entry finds no call inside, and an error lets no call join the one that
has set it. -/
def TakesAlone (key : String) (w : World) (a : Action) : Prop :=
  ∀ ⦃i client r link⦄, a = .redis i link →
    w.tasks i = some (.initiate client r .acquireLock) → r.idempotencyKey = key →
      (link ≠ .down → w.lock key = none → ∀ j, ¬ w.Inside key j) ∧
      (link ≠ .up → ∀ j, w.lock key = some j → ¬ w.Inside key j)

theorem Move.lock_cases (h : Move settings w a w') (key : String) :
    w'.lock key = w.lock key ∨ w'.lock key = none ∨
      ∃ i client r link, a = .redis i link ∧ link ≠ .down ∧
        w.tasks i = some (.initiate client r .acquireLock) ∧ r.idempotencyKey = key ∧
        w.lock key = none ∧ w'.lock key = some i := by
  cases h with
  | expireLock key' =>
    by_cases hkey : key = key'
    · subst hkey
      exact Or.inr (Or.inl (Function.update_self ..))
    · exact Or.inl (Function.update_of_ne hkey ..)
  | acquireLock link hi =>
    rename_i i client r
    by_cases hkey : key = r.idempotencyKey
    · subst hkey
      have hset : (w.acquireLock i client r link).lock r.idempotencyKey =
          (redisSetNx link (w.lock r.idempotencyKey) i).2 := Function.update_self ..
      rw [hset]
      cases hlock : w.lock r.idempotencyKey with
      | some j => exact Or.inl redisSetNx_of_some
      | none =>
        cases link with
        | down => exact Or.inl rfl
        | up => exact Or.inr (Or.inr ⟨i, client, r, .up, rfl, by decide, hi, rfl, rfl, rfl⟩)
        | replyLost =>
          exact Or.inr (Or.inr ⟨i, client, r, .replyLost, rfl, by decide, hi, rfl, rfl, rfl⟩)
    · exact Or.inl (Function.update_of_ne hkey ..)
  | releaseLock link hi =>
    rename_i i client r outcome
    by_cases hkey : key = r.idempotencyKey
    · subst hkey
      have hdelete : (w.releaseLock i client r link outcome).lock r.idempotencyKey =
          redisDelete link (w.lock r.idempotencyKey) := Function.update_self ..
      rw [hdelete]
      unfold redisDelete
      split_ifs
      · exact Or.inl rfl
      · exact Or.inr (Or.inl rfl)
    · exact Or.inl (Function.update_of_ne hkey ..)
  | visitRow link hi =>
    unfold World.visitRow
    split_ifs <;> exact Or.inl rfl
  | _ => exact Or.inl rfl

theorem Move.inside_cases (h : Move settings w a w') (hi' : w'.Inside key i) :
    w.Inside key i ∨ ∃ client r link, a = .redis i link ∧
      w.tasks i = some (.initiate client r .acquireLock) ∧ r.idempotencyKey = key ∧
      ¬ (link = .up ∧ (w.lock key).isSome = true) := by
  obtain ⟨client, r, pc, htask, hkey, hlo, hhi⟩ := hi'
  rcases h.initiate_cases htask with hi | hmove
  · exact Or.inl ⟨client, r, pc, hi, hkey, hlo, hhi⟩
  · cases hmove with
    | lockAcquired hi ha hlock => exact Or.inr ⟨client, r, _, ha, hi, hkey, hkey ▸ hlock⟩
    | start hi | cacheHit hi | cacheMiss hi | lockRefused hi | released hi | crash hi hlive =>
      simp [InitiatePc.stage] at hlo hhi
    | lookupFailed hi | answered hi | unanswered hi | createFailed hi | created hi
    | circuitClosed hi | circuitOpen hi | retried hi | acknowledged hi | rejected hi
    | callRaised hi | failed hi | idsStored ha hi | idsFailed hi | cached hi =>
      exact Or.inl ⟨client, r, _, hi, hkey, by simp [InitiatePc.stage], by simp [InitiatePc.stage]⟩

theorem not_inside_of_acquireLock (hi : w.tasks i = some (.initiate client r .acquireLock)) :
    ¬ w.Inside key i := by
  rintro ⟨client', r', pc', hi', -, hlo, -⟩
  cases hi.symm.trans hi'
  simp [InitiatePc.stage] at hlo

theorem Move.eq_acquireLock {link : Link} (h : Move settings w (.redis i link) w')
    (hi : w.tasks i = some (.initiate client r .acquireLock)) :
    w' = w.acquireLock i client r link := by
  have hstep := step_of_move h
  simpa [World.step, hi] using hstep.symm

theorem inside_acquireLock {link : Link}
    (hlet : ¬ (link = .up ∧ (w.lock r.idempotencyKey).isSome = true)) :
    (w.acquireLock i client r link).Inside r.idempotencyKey i := by
  have hnx : (redisSetNx link (w.lock r.idempotencyKey) i).1 = true := by
    by_contra hrefused
    exact hlet (redisSetNx_refused.mp (by simpa using hrefused))
  refine ⟨client, r, .lookup, ?_, rfl, by simp [InitiatePc.stage], by simp [InitiatePc.stage]⟩
  rw [acquireLock, hnx]
  exact Function.update_self ..

/-- The call that has set the entry has been let through, and while it is inside it is alone. -/
structure SetterAlone (key : String) (w : World) : Prop where
  passed : ∀ ⦃j⦄, w.lock key = some j → ∃ client r pc,
    w.tasks j = some (.initiate client r pc) ∧ 2 ≤ pc.stage
  alone : ∀ ⦃j⦄, w.lock key = some j → w.Inside key j → ∀ ⦃i⦄, w.Inside key i → i = j

theorem setterAlone_init (key : String) : SetterAlone key init where
  passed j hj := by cases hj
  alone j hj := by cases hj

namespace SetterAlone

theorem passed_step (s : SetterAlone key w) (h : Move settings w a w')
    (hj : w'.lock key = some j) :
    ∃ client r pc, w'.tasks j = some (.initiate client r pc) ∧ 2 ≤ pc.stage := by
  rcases h.lock_cases key with
    hsame | hnone | ⟨i, client, r, link, ha, hlink, hi, hkey, hfree, hset⟩
  · obtain ⟨client, r, pc, htask, hstage⟩ := s.passed (hsame ▸ hj)
    obtain ⟨pc', htask', hle⟩ := h.initiate_next htask
    exact ⟨client, r, pc', htask', hstage.trans hle⟩
  · cases hnone.symm.trans hj
  · cases hset.symm.trans hj
    subst ha hkey
    obtain rfl := h.eq_acquireLock hi
    have hinside : (w.acquireLock j client r link).Inside r.idempotencyKey j :=
      inside_acquireLock (by simp [hfree])
    obtain ⟨client', r', pc, htask, -, hlo, -⟩ := hinside
    exact ⟨client', r', pc, htask, hlo⟩

theorem alone_step (s : SetterAlone key w) (hok : TakesAlone key w a) (h : Move settings w a w')
    (hj : w'.lock key = some j) (hinside : w'.Inside key j) (hi : w'.Inside key i) : i = j := by
  rcases h.lock_cases key with
    hsame | hnone | ⟨k, client, r, link, ha, hlink, hk, hkey, hfree, hset⟩
  · rw [hsame] at hj
    rcases h.inside_cases hinside with hbefore | ⟨client, r, link, -, hjoin, -, -⟩
    · rcases h.inside_cases hi with hibefore | ⟨client, r, link, ha, hjoin, hkey, hlet⟩
      · exact s.alone hj hbefore hibefore
      · -- the call joined the setter on an error
        have hlink : link ≠ .up := by
          rintro rfl
          exact hlet ⟨rfl, by rw [hj]; rfl⟩
        exact absurd hbefore ((hok ha hjoin hkey).2 hlink j hj)
    · obtain ⟨client', r', pc', htask, hstage⟩ := s.passed hj
      cases hjoin.symm.trans htask
      simp [InitiatePc.stage] at hstage
  · cases hnone.symm.trans hj
  · cases hset.symm.trans hj
    rcases h.inside_cases hi with hibefore | ⟨client', r', link', ha', hjoin, -, -⟩
    · exact absurd hibefore ((hok ha hk hkey).1 hlink hfree i)
    · cases ha.symm.trans ha'
      rfl

theorem step (s : SetterAlone key w) (hok : TakesAlone key w a) (h : Move settings w a w') :
    SetterAlone key w' where
  passed _ hj := s.passed_step h hj
  alone _ hj hinside _ hi := s.alone_step hok h hj hinside hi

/-- So a DELETE finds its own entry or that of a call that is no longer inside. -/
theorem releasesOwn (s : SetterAlone key w) : ReleasesOwn key w := by
  intro i client r outcome hi hkey j hj hinside
  have hi' : w.Inside key i :=
    ⟨client, r, _, hi, hkey, by simp [InitiatePc.stage], by simp [InitiatePc.stage]⟩
  exact (s.alone hj hinside hi').symm

end SetterAlone

/-- What the steps of the call `i` alone can make of a world, without its lock. -/
def GoesOn (settings : Settings) (i : ℕ) (w u : World) : Prop :=
  ∃ bs, (∀ b ∈ bs, b.task? = some i) ∧ Machine.run (World.step settings) w bs = some u ∧
    u.lock = w.lock ∧ ∀ j, j ≠ i → u.tasks j = w.tasks j

theorem GoesOn.refl (settings : Settings) (i : ℕ) (w : World) : GoesOn settings i w w :=
  ⟨[], nofun, rfl, rfl, fun _ _ => rfl⟩

theorem GoesOn.head {u : World} (hmove : Move settings w a w') (ha : a.task? = some i)
    (hlock : w'.lock = w.lock) (h : GoesOn settings i w' u) : GoesOn settings i w u := by
  obtain ⟨bs, hbs, hrun, hlock', hothers⟩ := h
  refine ⟨a :: bs, List.forall_mem_cons.mpr ⟨ha, hbs⟩,
    Machine.run_cons.mpr ⟨w', step_of_move hmove, hrun⟩, hlock'.trans hlock, ?_⟩
  intro j hj
  rw [hothers j hj, hmove.tasks_of_ne]
  intro hact
  exact hj (Option.some.inj (hact.symm.trans ha))

/-- The call `i` alone can come to its DELETE. -/
def ComesToDelete (settings : Settings) (key : String) (i : ℕ) (w : World) : Prop :=
  ∃ u client r outcome, GoesOn settings i w u ∧ r.idempotencyKey = key ∧
    u.tasks i = some (.initiate client r (.releaseLock outcome))

theorem ComesToDelete.head (hmove : Move settings w a w') (ha : a.task? = some i)
    (hlock : w'.lock = w.lock) (h : ComesToDelete settings key i w') :
    ComesToDelete settings key i w := by
  obtain ⟨u, client, r, outcome, hgoes, hrest⟩ := h
  exact ⟨u, client, r, outcome, hgoes.head hmove ha hlock, hrest⟩

section

variable {paymentId : UUID} (settings : Settings) (hkey : r.idempotencyKey = key)

include hkey

theorem comesToDelete_of_releaseLock {outcome : InitiateOutcome}
    (hi : w.tasks i = some (.initiate client r (.releaseLock outcome))) :
    ComesToDelete settings key i w :=
  ⟨w, client, r, outcome, .refl settings i w, hkey, hi⟩

theorem comesToDelete_of_markFailed {e : DarajaError}
    (hi : w.tasks i = some (.initiate client r (.markFailed paymentId e))) :
    ComesToDelete settings key i w :=
  (comesToDelete_of_releaseLock settings hkey (Function.update_self ..)).head
    (.markFailed .down hi) rfl rfl

theorem comesToDelete_of_posting {n : ℕ}
    (hi : w.tasks i = some (.initiate client r (.posting paymentId n))) :
    ComesToDelete settings key i w :=
  (comesToDelete_of_releaseLock settings hkey (Function.update_self ..)).head
    (.makeAttempt .tokenError none rfl hi) rfl rfl

theorem comesToDelete_of_callDaraja
    (hi : w.tasks i = some (.initiate client r (.callDaraja paymentId))) :
    ComesToDelete settings key i w := by
  have htask : (w.invoke settings i client r paymentId).tasks i = some (.initiate client r
      (.afterCheckCircuit paymentId ((w.clients client).checkCircuit settings w.now))) :=
    Function.update_self ..
  refine ComesToDelete.head (.invoke hi) rfl rfl ?_
  cases hcircuit : (w.clients client).checkCircuit settings w.now with
  | ok c =>
    rw [hcircuit] at htask
    exact comesToDelete_of_posting settings hkey htask
  | error e =>
    rw [hcircuit] at htask
    exact comesToDelete_of_markFailed settings hkey htask

end

/-- Whatever it is doing, a call that was let through can come to its DELETE: with the database
and Redis away, or no token from Daraja, its next step leads there. -/
theorem Inside.comesToDelete (h : w.Inside key i) (settings : Settings) :
    ComesToDelete settings key i w := by
  obtain ⟨client, r, pc, hi, hkey, hlo, hhi⟩ := h
  have hreleases : ∀ {v : World} {outcome : InitiateOutcome},
      v.tasks i = some (.initiate client r (.releaseLock outcome)) →
        ComesToDelete settings key i v :=
    comesToDelete_of_releaseLock settings hkey
  cases pc with
  | cacheGet | acquireLock => simp [InitiatePc.stage] at hlo
  | lookup => exact (hreleases (Function.update_self ..)).head (.lookupByKey .down hi) rfl rfl
  | create createdAt =>
    exact (hreleases (Function.update_self ..)).head (.createRow .down 0 hi) rfl rfl
  | callDaraja paymentId => exact comesToDelete_of_callDaraja settings hkey hi
  | posting paymentId n => exact comesToDelete_of_posting settings hkey hi
  | markFailed paymentId e => exact comesToDelete_of_markFailed settings hkey hi
  | updateIds paymentId result =>
    exact (hreleases (Function.update_self ..)).head (.storeIds .down hi) rfl rfl
  | cacheResult response =>
    exact (hreleases (Function.update_self ..)).head (.cacheResult .down hi) rfl rfl
  | releaseLock outcome => exact hreleases hi
  | done | crashed => simp [InitiatePc.stage] at hhi

/-- A call that is inside beside the setter of the entry can come to find that entry. -/
theorem exists_foreign_delete (hj : w.lock key = some j) (hinside : w.Inside key j)
    (hi : w.Inside key i) (hne : j ≠ i) (settings : Settings) :
    ∃ bs u, (∀ b ∈ bs, b.task? = some i) ∧ Machine.run (step settings) w bs = some u ∧
      ¬ ReleasesOwn key u := by
  obtain ⟨u, client, r, outcome, ⟨bs, hbs, hrun, hlock, hothers⟩, hkey, hdelete⟩ :=
    hi.comesToDelete settings
  refine ⟨bs, u, hbs, hrun, ?_⟩
  intro hown
  have hinside' : u.Inside key j := by
    obtain ⟨client', r', pc, htask, hrest⟩ := hinside
    exact ⟨client', r', pc, (hothers j hne).trans htask, hrest⟩
  exact hne (hown hdelete hkey (hlock ▸ hj) hinside')

/-- After a SET NX against the condition, two calls are inside and one of them has set the entry. -/
theorem exists_two_inside (hok : ¬ TakesAlone key w a) (h : Move settings w a w') :
    ∃ j i, w'.lock key = some j ∧ w'.Inside key j ∧ w'.Inside key i ∧ j ≠ i := by
  unfold TakesAlone at hok
  push Not at hok
  obtain ⟨i, client, r, link, ha, hi, hkey, hbad⟩ := hok
  subst ha hkey
  obtain rfl := h.eq_acquireLock hi
  have hstays : ∀ j, w.Inside r.idempotencyKey j →
      (w.acquireLock i client r link).Inside r.idempotencyKey j ∧ j ≠ i := by
    intro j hj
    have hne : j ≠ i := by
      rintro rfl
      exact not_inside_of_acquireLock hi hj
    obtain ⟨client', r', pc, htask, hrest⟩ := hj
    exact ⟨⟨client', r', pc, (Function.update_of_ne hne ..).trans htask, hrest⟩, hne⟩
  have hlock : (w.acquireLock i client r link).lock r.idempotencyKey =
      (redisSetNx link (w.lock r.idempotencyKey) i).2 := Function.update_self ..
  by_cases hset : link ≠ .down ∧ w.lock r.idempotencyKey = none
  · obtain ⟨hlink, hfree⟩ := hset
    by_cases halone : ∀ j, ¬ w.Inside r.idempotencyKey j
    · obtain ⟨-, j, hj, -⟩ := hbad fun _ _ => halone
      cases hfree.symm.trans hj
    · push Not at halone
      obtain ⟨j, hj⟩ := halone
      obtain ⟨hstill, hne⟩ := hstays j hj
      refine ⟨i, j, ?_, inside_acquireLock (by simp [hfree]), hstill, hne.symm⟩
      rw [hlock, hfree]
      cases link with
      | up => rfl
      | down => exact absurd rfl hlink
      | replyLost => rfl
  · obtain ⟨hlink, j, hj, hinside⟩ := hbad fun hlink hfree => absurd ⟨hlink, hfree⟩ hset
    obtain ⟨hstill, hne⟩ := hstays j hinside
    refine ⟨j, i, ?_, hstill, inside_acquireLock (by simp [hlink]), hne⟩
    rw [hlock, hj]
    exact redisSetNx_of_some

/-- A run whose calls take the lock alone releases no other call's entry; and in any other run,
some call that was let through can go on to its DELETE and find another's. -/
theorem releases_own {as : List Action} (key : String)
    (hrun : Machine.run (step settings) init as = some w) :
    (Machine.Meets (step settings) (TakesAlone key) init as → ReleasesOwn key w) ∧
      (¬ Machine.Meets (step settings) (TakesAlone key) init as →
        ∃ as₁ bs i u, as₁ <+: as ∧ (∀ b ∈ bs, b.task? = some i) ∧
          Machine.run (step settings) init (as₁ ++ bs) = some u ∧ ¬ ReleasesOwn key u) := by
  constructor
  · intro hok
    have halone : SetterAlone key w := by
      refine Machine.run_invariant_of_meets (setterAlone_init key) ?_ hok hrun
      intro u a v _ hu hoku hstep
      exact hu.step hoku (move_of_step hstep)
    exact halone.releasesOwn
  · intro hbad
    obtain ⟨as₁, a, as₂, u, v, rfl, -, hu, hstep, hbad⟩ := Machine.exists_of_not_meets hbad hrun
    obtain ⟨j, i, hj, hinside, hi, hne⟩ := exists_two_inside hbad (move_of_step hstep)
    obtain ⟨bs, z, hbs, hz, hforeign⟩ := exists_foreign_delete hj hinside hi hne settings
    refine ⟨as₁ ++ [a], bs, i, z, ⟨as₂, by simp⟩, hbs, ?_, hforeign⟩
    have hv : Machine.run (step settings) init (as₁ ++ [a]) = some v :=
      Machine.run_append.mpr ⟨u, hu, Machine.run_cons.mpr ⟨v, hstep, Machine.run_nil v⟩⟩
    exact Machine.run_append.mpr ⟨v, hv, hz⟩

theorem takesAlone_of_single {as : List Action} (key : String)
    (hothers : ∀ j, j ≠ i → w.tasks j = none) (has : ∀ a ∈ as, a.task? = some i) :
    Machine.Meets (step settings) (TakesAlone key) w as := by
  induction as generalizing w with
  | nil => trivial
  | cons a as ih =>
    obtain ⟨ha, has⟩ := List.forall_mem_cons.mp has
    refine ⟨?_, ?_⟩
    · intro k client r link hact hk _
      have hnone : ∀ j, ¬ w.Inside key j := by
        rintro j hj
        obtain ⟨client', r', pc, htask, -⟩ := id hj
        by_cases hjk : j = k
        · exact not_inside_of_acquireLock hk (hjk ▸ hj)
        · cases hact
          cases ha
          cases (hothers j hjk).symm.trans htask
      exact ⟨fun _ _ => hnone, fun _ j _ => hnone j⟩
    · intro v hv
      refine ih ?_ has
      intro j hj
      have hkept : v.tasks j = w.tasks j := by
        apply (move_of_step hv).tasks_of_ne
        rw [ha]
        exact fun heq => hj (Option.some.inj heq).symm
      rw [hkept, hothers j hj]

theorem releases_own_sample : ReleasesOwn "key-0001" (after {} _ sampleInitiation_enabled) := by
  refine (releases_own "key-0001" (run_after sampleInitiation_enabled)).1 ?_
  exact takesAlone_of_single "key-0001" (i := 0) (fun _ _ => rfl) (by decide)

def stage? (w : World) (i : ℕ) : Option (String × ℕ) :=
  match w.tasks i with
  | some (.initiate _ r pc) => some (r.idempotencyKey, pc.stage)
  | _ => none

theorem stage?_eq_some {stage : ℕ} (h : w.stage? i = some (key, stage)) :
    ∃ client r pc, w.tasks i = some (.initiate client r pc) ∧ r.idempotencyKey = key ∧
      pc.stage = stage := by
  unfold stage? at h
  split at h
  · cases h
    exact ⟨_, _, _, ‹_›, rfl, rfl⟩
  · cases h

/-- A call whose POST takes longer than the time to live of the lock, and another call that takes
the lock before the first one comes to its DELETE. -/
def overtaken : List Action :=
  sampleUntilPost 0 7 ++
    [.tick 31, .expireLock "key-0001", .startInitiate 1 0 sampleRequest, .redis 1 .up,
     .redis 1 .up, .attempt 0 (acknowledgement sampleIds) (some sampleIds), .write 0 .up,
     .redis 0 .up]

theorem overtaken_enabled : (Machine.run (step {}) init overtaken).isSome = true := by
  decide +kernel

theorem releases_others :
    ¬ ∀ settings key w, Reachable settings w → ReleasesOwn key w := by
  intro h
  have hown := h {} "key-0001" _ (reachable_after overtaken_enabled)
  have hlock : (after {} _ overtaken_enabled).lock "key-0001" = some 1 := by decide +kernel
  have hfirst : (after {} _ overtaken_enabled).stage? 0 = some ("key-0001", 8) := by
    decide +kernel
  have hsecond : (after {} _ overtaken_enabled).stage? 1 = some ("key-0001", 2) := by
    decide +kernel
  obtain ⟨client, r, pc, htask, hkey, hstage⟩ := stage?_eq_some hfirst
  obtain ⟨client', r', pc', htask', hkey', hstage'⟩ := stage?_eq_some hsecond
  have hinside : (after {} _ overtaken_enabled).Inside "key-0001" 1 :=
    ⟨client', r', pc', htask', hkey', by omega, by omega⟩
  cases pc with
  | releaseLock outcome => exact absurd (hown htask hkey hlock hinside) (by decide)
  | _ => simp [InitiatePc.stage] at hstage

end World
end DarajaWrapper
