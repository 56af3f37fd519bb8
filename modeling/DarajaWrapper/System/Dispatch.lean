import DarajaWrapper.Library.OneShot
import DarajaWrapper.System.Ownership

/-!
# Dispatching a payment

For one key the initiator is invoked at most once, and never without the
committed row that anchors it. Neither the cache nor the lock is used: the
UNIQUE column alone admits the key once, so the log is a one-shot history.

A single invocation may still send several POSTs, because `DarajaClient.post`
repeats an attempt whose outcome it does not know. Without such a repetition the
POSTs of a key form a one-shot history as well.
-/

namespace DarajaWrapper

def Event.invokes (key : String) : Event → Bool
  | .dispatched _ k _ => k = key
  | _ => false

def Event.posts (key : String) : Event → Bool
  | .posted _ k _ _ _ => k = key
  | _ => false

def Event.accepts (key : String) : Event → Bool
  | .posted _ k _ _ accepted => k = key && accepted.isSome
  | _ => false

/-- A POST for this key leaves open whether Daraja accepted it. -/
def Event.ambiguous (key : String) : Event → Bool
  | .posted _ k _ reply _ => k = key && reply.ambiguous
  | _ => false

def Event.invocation? : Event → Option (String × ℕ)
  | .dispatched i key _ => some (key, i)
  | _ => none

def Event.post? (key : String) : Event → Option (String × ℕ)
  | .posted i k _ _ _ => if k = key then some (key, i) else none
  | _ => none

/-- The log as a history of anchors and effects: rows anchor their key, and `effect` says which
events are the effects that a key may have once. -/
def Event.oneShot (effect : Event → Option (String × ℕ)) : Event → Option (OneShot.Event String ℕ)
  | .created i r _ => some (.anchor r.idempotencyKey i)
  | e => (effect e).map fun (key, i) => .fire key i

namespace World

variable {settings : Settings} {w w' : World} {a : Action}

theorem anchor_mem {effect : Event → Option (String × ℕ)} {log : List Event} {key : String}
    {i : ℕ} (h : .anchor key i ∈ log.filterMap (Event.oneShot effect)) :
    ∃ r pid, .created i r pid ∈ log ∧ r.idempotencyKey = key := by
  obtain ⟨e, he, heq⟩ := List.mem_filterMap.mp h
  cases e with
  | created i' r pid =>
    cases heq
    exact ⟨r, pid, he, rfl⟩
  | _ => simp [Event.oneShot] at heq

theorem fire_mem {effect : Event → Option (String × ℕ)} {log : List Event} {key : String}
    {i : ℕ} (h : .fire key i ∈ log.filterMap (Event.oneShot effect)) :
    ∃ e ∈ log, effect e = some (key, i) := by
  obtain ⟨e, he, heq⟩ := List.mem_filterMap.mp h
  refine ⟨e, he, ?_⟩
  cases e with
  | created i' r pid => cases heq
  | _ => simpa [Event.oneShot] using heq

theorem Ownership.key_free {key : String} {i : ℕ} {r : STKPushInitiateRequest} {pid : UUID}
    {p : Payment} (o : Ownership w) (ht : w.payments.insert p = some w'.payments)
    (hc : .created i r pid ∈ w.log) (hkey : p.idempotencyKey = key) : r.idempotencyKey ≠ key := by
  obtain ⟨_, q, hq, hsame⟩ := o.row hc
  have hne := PaymentsTable.idempotencyKey_ne_of_insert ht hq
  rwa [hsame.idempotencyKey, hkey] at hne

/-- A step keeps the history valid when the effect it may have is the first of its call. -/
theorem valid_step {effect : Event → Option (String × ℕ)} (o : Ownership w)
    (h : Move settings w a w')
    (hcreated : ∀ i r pid, effect (.created i r pid) = none)
    (heffect : ∀ {e key i}, Logs settings w a w' e → effect e = some (key, i) →
      (∃ r pid, .created i r pid ∈ w.log ∧ r.idempotencyKey = key) ∧
        ∀ e' ∈ w.log, ∀ key', effect e' ≠ some (key', i))
    (hv : OneShot.Valid (w.log.filterMap (Event.oneShot effect))) :
    OneShot.Valid (w'.log.filterMap (Event.oneShot effect)) := by
  rcases h.log_cases with hl | ⟨e, hl, hlogs⟩
  · exact hl ▸ hv
  · rw [hl]
    cases hfx : effect e with
    | none =>
      cases hlogs with
      | created hi ht hi' =>
        refine .anchor hv fun i' hmem => ?_
        obtain ⟨r', pid', hc, hkey⟩ := anchor_mem hmem
        exact o.key_free (insert_of_create ht) hc rfl hkey
      | _ => rwa [List.filterMap_cons_none (by simp [Event.oneShot, hfx])]
    | some ki =>
      obtain ⟨key, i⟩ := ki
      obtain ⟨⟨r, pid, hc, hkey⟩, hfirst⟩ := heffect hlogs hfx
      have hfire : Event.oneShot effect e = some (.fire key i) := by
        cases e with
        | created i' r' pid' => simp [hcreated] at hfx
        | _ => simp [Event.oneShot, hfx]
      rw [List.filterMap_cons_some hfire]
      refine .fire hv (List.mem_filterMap.mpr ⟨_, hc, by rw [Event.oneShot, hkey]⟩)
        fun k' hmem => ?_
      obtain ⟨e', he', heq⟩ := fire_mem hmem
      exact hfirst e' he' k' heq

/-- In a valid history a key has at most one effect. -/
theorem countP_le_one {effect : Event → Option (String × ℕ)} {log : List Event}
    {p : Event → Bool} (key : String) (hcreated : ∀ i r pid, effect (.created i r pid) = none)
    (hp : ∀ e, p e = true → ∃ i, effect e = some (key, i))
    (hv : OneShot.Valid (log.filterMap (Event.oneShot effect))) : log.countP p ≤ 1 := by
  have hle := hv.fired_length_le_one key
  rw [OneShot.fired, List.filterMap_filterMap, List.length_filterMap_eq_countP] at hle
  refine (List.countP_mono_left fun e _ he => ?_).trans hle
  obtain ⟨i, hi⟩ := hp e he
  cases e with
  | created i' r pid => simp [hcreated] at hi
  | _ => simp [Event.oneShot, hi, OneShot.Event.fires]

theorem Reachable.invocations_valid (h : Reachable settings w) :
    OneShot.Valid (w.log.filterMap (Event.oneShot Event.invocation?)) := by
  refine Machine.Reachable.invariant
    (P := fun u => OneShot.Valid (u.log.filterMap (Event.oneShot Event.invocation?))) h .nil
    fun u a v hu hv hstep => ?_
  have o := Reachable.ownership hu
  refine valid_step o (move_of_step hstep) (fun _ _ _ => rfl) (fun hlogs hfx => ?_) hv
  cases hlogs with
  | dispatched hi hi' =>
    cases hfx
    refine ⟨⟨_, _, o.owns hi rfl, rfl⟩, fun e' he' key' hfx' => ?_⟩
    -- an earlier invocation by this call would have taken it past this point
    cases e' with
    | dispatched i' k args =>
      cases hfx'
      obtain ⟨r', _, hpassed, -⟩ := o.dispatched he'
      exact absurd (hpassed.le_stage hi) (by simp [InitiatePc.stage])
    | _ => cases hfx'
  | _ => cases hfx

/-- The committed row that an invocation with these arguments rests on. -/
def Anchored (t : PaymentsTable) (key : String) (args : InitiateArgs) : Prop :=
  ∃ p ∈ t.rows, p.idempotencyKey = key ∧ p.phone = args.phone ∧ p.amount = args.amount ∧
    p.accountReference = args.accountReference ∧ p.transactionDesc = args.transactionDesc

theorem Ownership.anchored {i client : ℕ} {r : STKPushInitiateRequest} {pid : UUID}
    (o : Ownership w) (hi : w.tasks i = some (.initiate client r (.callDaraja pid))) :
    Anchored w.payments r.idempotencyKey r.initiateArgs := by
  obtain ⟨_, p, hp, hsame⟩ := o.row (o.owns hi rfl)
  exact ⟨p, hp, hsame.idempotencyKey, hsame.phone, hsame.amount, hsame.accountReference,
    hsame.transactionDesc⟩

/-- Over a whole run the initiator is invoked at most once for a key, and when it is the table
holds the row of the request. -/
theorem invoked_once_anchored (h : Reachable settings w) :
    (∀ key, w.log.countP (Event.invokes key) ≤ 1) ∧
      ∀ a w' i key args, step settings w a = some w' →
        w'.log = .dispatched i key args :: w.log → Anchored w.payments key args := by
  constructor
  · intro key
    refine countP_le_one key (fun _ _ _ => rfl) (fun e he => ?_) h.invocations_valid
    cases e with
    | dispatched i k args => exact ⟨i, by simpa [Event.invokes, Event.invocation?] using he⟩
    | _ => cases he
  · intro a w' i key args hstep hlog
    rcases (move_of_step hstep).log_cases with hl | ⟨e, hl, hlogs⟩
    · exact absurd (hlog.symm.trans hl) (List.cons_ne_self _ _)
    · cases List.head_eq_of_cons_eq (hlog.symm.trans hl)
      cases hlogs with
      | dispatched hi hi' => exact h.ownership.anchored hi

/-- Two calls with one key: the lock lapses, both find no row and both insert one. -/
def racingCalls : List Action :=
  [.startInitiate 0 0 sampleRequest, .startInitiate 1 0 sampleRequest, .redis 0 .up, .redis 1 .up,
   .redis 0 .up, .expireLock "key-0001", .redis 1 .up, .query 0 .up, .query 1 .up,
   .insert 1 8 .up, .insert 0 7 .up, .redis 0 .up, .callDaraja 1]

theorem racingCalls_enabled : (Machine.run (step {}) init racingCalls).isSome = true := by
  decide +kernel

theorem invoked_once_anchored_sample :
    (after {} _ racingCalls_enabled).log.countP (Event.invokes "key-0001") ≤ 1 :=
  (invoked_once_anchored (reachable_after racingCalls_enabled)).1 "key-0001"

/-- The outcome of an attempt for this key is known, or the attempt is the last one. -/
def decisive (settings : Settings) (key : String) (w : World) : Action → Bool
  | .attempt i reply _ =>
    match w.tasks i with
    | some (.initiate _ r (.posting _ n)) =>
      r.idempotencyKey ≠ key || !reply.ambiguous || settings.darajaRetryAttempts ≤ n
    | _ => true
  | _ => true

/-- Daraja accepts at most one push for the key, and nothing is sent for it after a POST that
Daraja may have accepted. The log has the newest event first. -/
def NoDoubleCharge (key : String) (log : List Event) : Prop :=
  log.countP (Event.accepts key) ≤ 1 ∧
    ∀ newer e older, log = newer ++ e :: older → e.ambiguous key = true →
      ∀ e' ∈ newer, e'.posts key = false

theorem noDoubleCharge_of_posts {key : String} {log : List Event}
    (h : log.countP (Event.posts key) ≤ 1) : NoDoubleCharge key log := by
  constructor
  · refine (List.countP_mono_left fun e _ he => ?_).trans h
    cases e with
    | posted i k pid reply accepted =>
      simp only [Event.accepts, Bool.and_eq_true] at he
      exact he.1
    | _ => cases he
  · intro newer e older hlog he e' he'
    have hposts : e.posts key = true := by
      cases e with
      | posted i k pid reply accepted =>
        simp only [Event.ambiguous, Bool.and_eq_true] at he
        exact he.1
      | _ => cases he
    rw [hlog, List.countP_append, List.countP_cons_of_pos hposts] at h
    have hnone : newer.countP (Event.posts key) = 0 := by omega
    simpa using List.countP_eq_zero.mp hnone e' he'

theorem posted_of_post {key key' : String} {e : Event} {i : ℕ}
    (h : e.post? key = some (key', i)) :
    key' = key ∧ ∃ pid reply accepted, e = .posted i key pid reply accepted := by
  cases e with
  | posted i' k pid reply accepted =>
    simp only [Event.post?] at h
    split_ifs at h with hk
    cases h
    exact ⟨rfl, pid, reply, accepted, by rw [hk]⟩
  | _ => cases h

/-- No call that has posted for this key will post again. -/
def PostedOnce (key : String) (w : World) : Prop :=
  ∀ {i pid reply accepted}, .posted i key pid reply accepted ∈ w.log → ∃ r, w.Passed i r 6

theorem postedOnce_step {key : String} (hp : PostedOnce key w)
    (hok : decisive settings key w a = true) (h : Move settings w a w') : PostedOnce key w' := by
  intro i pid reply accepted he
  rcases h.mem_log he with he | hlogs
  · obtain ⟨r, hpassed⟩ := hp he
    exact ⟨r, hpassed.step h⟩
  · cases hlogs with
    | posted ha hsent hagrees hi hi' =>
      obtain ⟨pc, hpc, hle, hretry⟩ := hi'
      refine ⟨_, _, pc, hpc, Nat.lt_of_le_of_ne hle fun hs => ?_⟩
      obtain ⟨hambiguous, hn⟩ := hretry hs.symm
      simp only [ha, decisive, hi, hambiguous, ne_eq, not_true_eq_false, decide_false,
        Bool.not_true, Bool.false_or, decide_eq_true_eq] at hok
      omega

theorem posts_valid_step {key : String} (o : Ownership w) (hp : PostedOnce key w)
    (h : Move settings w a w')
    (hv : OneShot.Valid (w.log.filterMap (Event.oneShot (Event.post? key)))) :
    OneShot.Valid (w'.log.filterMap (Event.oneShot (Event.post? key))) := by
  refine valid_step o h (fun _ _ _ => rfl) (fun hlogs hfx => ?_) hv
  obtain ⟨rfl, pid, reply, accepted, rfl⟩ := posted_of_post hfx
  cases hlogs with
  | posted ha hsent hagrees hi hi' =>
    refine ⟨⟨_, _, o.owns hi rfl, rfl⟩, fun e' he' key' hfx' => ?_⟩
    -- an earlier POST by this call would have taken it past this point
    obtain ⟨-, pid', reply', accepted', rfl⟩ := posted_of_post hfx'
    obtain ⟨r', hpassed⟩ := hp he'
    exact absurd (hpassed.le_stage hi) (by simp [InitiatePc.stage])

/-- In a run that repeats no attempt of unknown outcome for a key, the key is not charged twice. -/
theorem no_double_charge_of_decisive {as : List Action} (key : String)
    (hok : Machine.Meets (step settings) (fun u a => decisive settings key u a = true) init as)
    (hrun : Machine.run (step settings) init as = some w) : NoDoubleCharge key w.log := by
  have hw : PostedOnce key w ∧
      OneShot.Valid (w.log.filterMap (Event.oneShot (Event.post? key))) := by
    refine Machine.run_invariant_of_meets
      (P := fun u => PostedOnce key u ∧
        OneShot.Valid (u.log.filterMap (Event.oneShot (Event.post? key))))
      ?_ (fun u a v hu hP hoku hstep => ?_) hok hrun
    · refine ⟨?_, .nil⟩
      intro i pid reply accepted he
      cases he
    · have h := move_of_step hstep
      exact ⟨postedOnce_step hP.1 hoku h, posts_valid_step (Reachable.ownership hu) hP.1 h hP.2⟩
  refine noDoubleCharge_of_posts (countP_le_one key (fun _ _ _ => rfl) (fun e he => ?_) hw.2)
  cases e with
  | posted i k pid reply accepted =>
    have hk : k = key := by simpa [Event.posts] using he
    exact ⟨i, by simp [Event.post?, hk]⟩
  | _ => cases he

theorem no_double_charge_sample :
    NoDoubleCharge "key-0001" (after {} _ sampleInitiation_enabled).log :=
  no_double_charge_of_decisive "key-0001" (by decide +kernel) (run_after sampleInitiation_enabled)

/-- A first POST that Daraja accepts while its reply times out, and the retry. -/
def timeoutThenAcknowledged : List Action :=
  sampleUntilPost 0 7 ++
    [.attempt 0 .timeout (some ⟨"ws_CO_100420261330", "29115-34620561-0"⟩),
     .attempt 0 (acknowledgement sampleIds) (some sampleIds)]

theorem timeoutThenAcknowledged_enabled :
    (Machine.run (step {}) init timeoutThenAcknowledged).isSome = true := by decide +kernel

theorem retry_charges_twice :
    ¬ ∀ settings w key, Reachable settings w → NoDoubleCharge key w.log := by
  intro h
  have htwo : (after {} _ timeoutThenAcknowledged_enabled).log.countP
      (Event.accepts "key-0001") = 2 := by decide +kernel
  have hone := (h _ _ "key-0001" (reachable_after timeoutThenAcknowledged_enabled)).1
  omega

end World
end DarajaWrapper
