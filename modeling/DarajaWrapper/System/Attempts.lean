import DarajaWrapper.System.Dispatch

/-!
# How often a payment is posted

A key is not charged once only: `DarajaClient.post` repeats an attempt that timed
out. What holds in every run is that all POSTs of a key are made by one call, for the
one payment of the key, and that they are no more than the attempts that the
settings allow.
-/

namespace DarajaWrapper

def Event.postedBy (i : ℕ) : Event → Bool
  | .posted j _ _ _ _ => j = i
  | _ => false

/-- The attempts that the call may still make when `attempts` are allowed. -/
def InitiatePc.attemptsLeft (attempts : ℕ) : InitiatePc → ℕ
  | cacheGet => attempts
  | acquireLock => attempts
  | lookup => attempts
  | create _ => attempts
  | callDaraja _ => attempts
  | posting _ n => attempts - n + 1
  | _ => 0

theorem InitiatePc.attemptsLeft_afterAttempt {attempts n : ℕ} (paymentId : UUID)
    {result : AttemptResult} (hretry : result = .retry → n < attempts) :
    (afterAttempt paymentId n result).attemptsLeft attempts + 1 ≤
      (posting paymentId n).attemptsLeft attempts := by
  cases result with
  | returned body =>
    simp only [afterAttempt]
    split <;> simp only [attemptsLeft] <;> omega
  | retry =>
    have hn : n < attempts := hretry rfl
    simp only [afterAttempt, attemptsLeft]
    omega
  | raised e => cases e <;> simp only [afterAttempt, afterCallError, attemptsLeft] <;> omega

namespace World

variable {settings : Settings} {w w' : World} {a : Action} {i client : ℕ}
  {r : STKPushInitiateRequest} {pc pc' : InitiatePc} {key : String}

theorem Move.countP_postedBy (h : Move settings w a w') (i : ℕ) :
    w'.log.countP (Event.postedBy i) = w.log.countP (Event.postedBy i) ∨
      (∃ reply accepted, a = .attempt i reply accepted) ∧
        w'.log.countP (Event.postedBy i) = w.log.countP (Event.postedBy i) + 1 := by
  rcases h.log_cases with hl | ⟨e, hl, hlogs⟩
  · exact Or.inl (by rw [hl])
  · rw [hl]
    by_cases he : e.postedBy i = true
    · cases hlogs with
      | posted ha hsent hagrees hj hj' =>
        have hcall := of_decide_eq_true he
        subst hcall
        exact Or.inr ⟨⟨_, _, ha⟩, List.countP_cons_of_pos he⟩
      | _ => cases he
    · exact Or.inl (List.countP_cons_of_neg he)

theorem InitiateMove.attemptsLeft_le (h : InitiateMove settings w a w' i client r pc')
    (hi : w.tasks i = some (.initiate client r pc)) :
    pc'.attemptsLeft settings.darajaRetryAttempts ≤
      pc.attemptsLeft settings.darajaRetryAttempts := by
  cases h with
  | start hj =>
    rw [hi] at hj
    cases hj
  | crash hj => exact Nat.zero_le _
  | circuitClosed hj =>
    cases hj.symm.trans hi
    have hpos := settings.attempts_pos
    simp only [InitiatePc.attemptsLeft]
    omega
  | retried hj ha hambiguous hn =>
    cases hj.symm.trans hi
    simp only [InitiatePc.attemptsLeft]
    omega
  | cacheHit hj | cacheMiss hj | lockRefused hj | lockAcquired hj | lookupFailed hj | answered hj
  | unanswered hj | createFailed hj | created hj | circuitOpen hj | acknowledged hj | rejected hj
  | callRaised hj | failed hj | idsStored ha hj | idsFailed hj | cached hj | released hj =>
    cases hj.symm.trans hi
    simp [InitiatePc.attemptsLeft]

theorem Move.attemptsLeft_lt {reply : AttemptReply} {accepted : Option DarajaIds}
    (h : Move settings w (.attempt i reply accepted) w')
    (hi : w.tasks i = some (.initiate client r pc))
    (hi' : w'.tasks i = some (.initiate client r pc')) :
    pc'.attemptsLeft settings.darajaRetryAttempts + 1 ≤
      pc.attemptsLeft settings.darajaRetryAttempts := by
  cases h with
  | makeAttempt reply accepted hagrees hj =>
    cases hj.symm.trans hi
    cases setTask_inj hi'
    exact InitiatePc.attemptsLeft_afterAttempt _ fun hretry => (attempt_retry_iff.mp hretry).2

/-- What a call has posted and the attempts left to it never become more together. -/
theorem Move.attempts_le (h : Move settings w a w') (hi : w.tasks i = some (.initiate client r pc))
    (hi' : w'.tasks i = some (.initiate client r pc')) :
    w'.log.countP (Event.postedBy i) + pc'.attemptsLeft settings.darajaRetryAttempts ≤
      w.log.countP (Event.postedBy i) + pc.attemptsLeft settings.darajaRetryAttempts := by
  rcases h.countP_postedBy i with hsame | ⟨⟨reply, accepted, rfl⟩, hone⟩
  · rw [hsame]
    apply Nat.add_le_add_left
    rcases h.initiate_cases hi' with hstay | hmove
    · cases hi.symm.trans hstay
      exact le_rfl
    · exact hmove.attemptsLeft_le hi
  · have hlt := h.attemptsLeft_lt hi hi'
    rw [hone]
    omega

/-- What a call has posted and the attempts left to it are together within the limit. -/
def AttemptsBounded (settings : Settings) (w : World) : Prop :=
  ∀ ⦃i client r pc⦄, w.tasks i = some (.initiate client r pc) →
    w.log.countP (Event.postedBy i) + pc.attemptsLeft settings.darajaRetryAttempts ≤
      settings.darajaRetryAttempts

theorem Ownership.countP_postedBy (o : Ownership w)
    (hi : ∀ client r pc, w.tasks i ≠ some (.initiate client r pc)) :
    w.log.countP (Event.postedBy i) = 0 := by
  rw [List.countP_eq_zero]
  intro e he hby
  cases e with
  | posted j key pid reply accepted =>
    have hcall := of_decide_eq_true hby
    subst hcall
    obtain ⟨r, ⟨client, pc, htask, -⟩, -⟩ := o.posted he
    exact hi client r pc htask
  | _ => cases hby

theorem attemptsBounded_step (o : Ownership w) (hw : AttemptsBounded settings w)
    (h : Move settings w a w') : AttemptsBounded settings w' := by
  intro i client r pc' hi'
  rcases h.initiate_prev hi' with ⟨hi, rfl⟩ | ⟨pc, hi⟩
  · rcases h.countP_postedBy i with hsame | ⟨⟨reply, accepted, rfl⟩, -⟩
    · rw [hsame, o.countP_postedBy (by simp [hi]), Nat.zero_add]
      exact le_rfl
    · cases h with
      | makeAttempt reply accepted hagrees hj => cases hi.symm.trans hj
  · exact (h.attempts_le hi hi').trans (hw hi)

theorem attemptsBounded_init : AttemptsBounded settings init := by
  intro i client r pc hi
  cases hi

theorem Reachable.attemptsBounded (h : Reachable settings w) : AttemptsBounded settings w := by
  apply Machine.Reachable.invariant h attemptsBounded_init
  intro u a v hu hb hstep
  exact attemptsBounded_step (Reachable.ownership hu) hb (move_of_step hstep)

theorem Reachable.countP_postedBy_le (h : Reachable settings w) (i : ℕ) :
    w.log.countP (Event.postedBy i) ≤ settings.darajaRetryAttempts := by
  by_cases hi : ∃ client r pc, w.tasks i = some (.initiate client r pc)
  · obtain ⟨client, r, pc, hi⟩ := hi
    exact (Nat.le_add_right _ _).trans (h.attemptsBounded hi)
  · rw [h.ownership.countP_postedBy fun client r pc htask => hi ⟨client, r, pc, htask⟩]
    exact Nat.zero_le _

/-- The POSTs of a key come from one call and are for one payment. -/
theorem Ownership.posted_unique {i i' : ℕ} {pid pid' : UUID} {reply reply' : AttemptReply}
    {accepted accepted' : Option DarajaIds} (o : Ownership w)
    (hp : .posted i key pid reply accepted ∈ w.log)
    (hp' : .posted i' key pid' reply' accepted' ∈ w.log) : i = i' ∧ pid = pid' := by
  obtain ⟨r, -, hc, hkey⟩ := o.posted hp
  obtain ⟨r', -, hc', hkey'⟩ := o.posted hp'
  obtain ⟨rfl, -⟩ := o.key_unique hc hc' (hkey.trans hkey'.symm)
  exact ⟨rfl, o.once hc hc'⟩

/-- In every run the POSTs of a key come from one call and are for one payment, and there are at
most `darajaRetryAttempts` of them. -/
theorem posts_bounded (h : Reachable settings w) (key : String) :
    w.log.countP (Event.posts key) ≤ settings.darajaRetryAttempts ∧
      ∀ ⦃i pid reply accepted i' pid' reply' accepted'⦄,
        .posted i key pid reply accepted ∈ w.log → .posted i' key pid' reply' accepted' ∈ w.log →
          i = i' ∧ pid = pid' := by
  refine ⟨?_, fun _ _ _ _ _ _ _ _ hp hp' => h.ownership.posted_unique hp hp'⟩
  by_cases hany : ∃ i pid reply accepted, .posted i key pid reply accepted ∈ w.log
  · obtain ⟨i, pid, reply, accepted, hp⟩ := hany
    calc w.log.countP (Event.posts key) ≤ w.log.countP (Event.postedBy i) := by
          apply List.countP_mono_left
          intro e he hposts
          cases e with
          | posted j k pid' reply' accepted' =>
            have hkey := of_decide_eq_true hposts
            subst hkey
            exact decide_eq_true (h.ownership.posted_unique he hp).1
          | _ => cases hposts
      _ ≤ settings.darajaRetryAttempts := h.countP_postedBy_le i
  · have hnone : w.log.countP (Event.posts key) = 0 := by
      rw [List.countP_eq_zero]
      intro e he hposts
      cases e with
      | posted j k pid' reply' accepted' =>
        have hkey := of_decide_eq_true hposts
        subst hkey
        exact hany ⟨j, pid', reply', accepted', he⟩
      | _ => cases hposts
    omega

theorem posts_bounded_sample :
    (after {} _ timeoutThenAcknowledged_enabled).log.countP (Event.posts "key-0001") ≤ 3 :=
  (posts_bounded (reachable_after timeoutThenAcknowledged_enabled) "key-0001").1

end World
end DarajaWrapper
