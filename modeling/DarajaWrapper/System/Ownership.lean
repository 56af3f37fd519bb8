import DarajaWrapper.System.Moves

/-!
# Whose payment is whose

A call creates at most one row, a row is created by one call, and whatever a
call does later it does to its own row. Rows are never deleted and keep the
columns of their request. The log is what ties the two together: it remembers
the calls that ended and the rows as they were created.
-/

namespace DarajaWrapper
namespace World

variable {settings : Settings} {w w' : World} {a : Action} {i client : ℕ}
  {r : STKPushInitiateRequest} {pid : UUID}

/-- The call `i`, for the request `r`, has come at least as far as stage `s`. -/
def Passed (w : World) (i : ℕ) (r : STKPushInitiateRequest) (s : ℕ) : Prop :=
  ∃ client pc, w.tasks i = some (.initiate client r pc) ∧ s ≤ pc.stage

theorem Passed.step {s : ℕ} (hp : w.Passed i r s) (h : Move settings w a w') :
    w'.Passed i r s := by
  obtain ⟨client, pc, hi, hs⟩ := hp
  obtain ⟨pc', hi', hle⟩ := h.initiate_next hi
  exact ⟨client, pc', hi', hs.trans hle⟩

theorem Passed.le_stage {s : ℕ} {r' : STKPushInitiateRequest} {pc : InitiatePc}
    (hp : w.Passed i r s) (hi : w.tasks i = some (.initiate client r' pc)) : s ≤ pc.stage := by
  obtain ⟨client', pc', hi', hs⟩ := hp
  cases hi.symm.trans hi'
  exact hs

theorem Passed.request_eq {s s' : ℕ} {r' : STKPushInitiateRequest} (hp : w.Passed i r s)
    (hp' : w.Passed i r' s') : r = r' := by
  obtain ⟨_, _, hi, -⟩ := hp
  obtain ⟨_, _, hi', -⟩ := hp'
  cases hi.symm.trans hi'
  rfl

structure Ownership (w : World) : Prop where
  created : ∀ {i r pid}, .created i r pid ∈ w.log → w.Passed i r 4
  dispatched : ∀ {i key args}, .dispatched i key args ∈ w.log →
    ∃ r pid, w.Passed i r 5 ∧ .created i r pid ∈ w.log ∧ r.idempotencyKey = key ∧
      r.initiateArgs = args
  posted : ∀ {i key pid reply accepted}, .posted i key pid reply accepted ∈ w.log →
    ∃ r, w.Passed i r 5 ∧ .created i r pid ∈ w.log ∧ r.idempotencyKey = key
  /-- A call works on the payment that it created. -/
  owns : ∀ {i client r pc pid}, w.tasks i = some (.initiate client r pc) →
    pc.paymentId? = some pid → .created i r pid ∈ w.log
  row : ∀ {i r pid}, .created i r pid ∈ w.log →
    ∃ createdAt, ∃ p ∈ w.payments.rows, (newPayment r pid createdAt).SameIdentity p
  origin : ∀ {p}, p ∈ w.payments.rows → ∃ i r, .created i r p.id ∈ w.log
  unique : ∀ {i r i' r' pid}, .created i r pid ∈ w.log → .created i' r' pid ∈ w.log → i = i'
  once : ∀ {i r r' pid pid'}, .created i r pid ∈ w.log → .created i r' pid' ∈ w.log → pid = pid'

theorem ownership_init : Ownership init where
  created h := by cases h
  dispatched h := by cases h
  posted h := by cases h
  owns h := by cases h
  row h := by cases h
  origin h := by cases h
  unique h := by cases h
  once h := by cases h

namespace Ownership

theorem created_step (o : Ownership w) (h : Move settings w a w')
    (he : .created i r pid ∈ w'.log) : w'.Passed i r 4 := by
  rcases h.mem_log he with he | hlogs
  · exact (o.created he).step h
  · cases hlogs with
    | created hi ht hi' => exact ⟨_, hi'⟩

theorem dispatched_step {key : String} {args : InitiateArgs} (o : Ownership w)
    (h : Move settings w a w') (he : .dispatched i key args ∈ w'.log) :
    ∃ r pid, w'.Passed i r 5 ∧ .created i r pid ∈ w'.log ∧ r.idempotencyKey = key ∧
      r.initiateArgs = args := by
  rcases h.mem_log he with he | hlogs
  · obtain ⟨r, pid, hp, hc, hk⟩ := o.dispatched he
    exact ⟨r, pid, hp.step h, h.log_mono hc, hk⟩
  · cases hlogs with
    | dispatched hi hi' =>
      exact ⟨_, _, ⟨_, hi'⟩, h.log_mono (o.owns hi rfl), rfl, rfl⟩

theorem posted_step {key : String} {reply : AttemptReply} {accepted : Option DarajaIds}
    (o : Ownership w) (h : Move settings w a w')
    (he : .posted i key pid reply accepted ∈ w'.log) :
    ∃ r, w'.Passed i r 5 ∧ .created i r pid ∈ w'.log ∧ r.idempotencyKey = key := by
  rcases h.mem_log he with he | hlogs
  · obtain ⟨r, hp, hc, hk⟩ := o.posted he
    exact ⟨r, hp.step h, h.log_mono hc, hk⟩
  · cases hlogs with
    | posted ha hsent hagrees hi hi' =>
      obtain ⟨pc, hpc, hle, -⟩ := hi'
      exact ⟨_, ⟨_, pc, hpc, hle⟩, h.log_mono (o.owns hi rfl), rfl⟩

theorem owns_step {pc : InitiatePc} (o : Ownership w) (h : Move settings w a w')
    (hi' : w'.tasks i = some (.initiate client r pc)) (hpid : pc.paymentId? = some pid) :
    .created i r pid ∈ w'.log := by
  rcases h.initiate_cases hi' with hi | hmove
  · exact h.log_mono (o.owns hi hpid)
  · cases hmove with
    | created hi ht hlog =>
      cases hpid
      exact hlog ▸ List.mem_cons_self
    | circuitClosed hi | circuitOpen hi | retried hi | acknowledged hi | rejected hi
    | idsStored ha hi =>
      cases hpid
      exact h.log_mono (o.owns hi rfl)
    | _ => cases hpid

theorem row_step (o : Ownership w) (h : Move settings w a w') (he : .created i r pid ∈ w'.log) :
    ∃ createdAt, ∃ p ∈ w'.payments.rows, (newPayment r pid createdAt).SameIdentity p := by
  rcases h.mem_log he with he | hlogs
  · obtain ⟨createdAt, p, hp, hsame⟩ := o.row he
    obtain ⟨q, hq, hchange⟩ := h.row_next hp
    exact ⟨createdAt, q, hq, hsame.trans hchange.sameIdentity⟩
  · cases hlogs with
    | @created _ _ _ createdAt _ hi ht hi' =>
      refine ⟨createdAt, newPayment r pid createdAt, ?_, .refl _⟩
      rw [PaymentsTable.insert_eq_some (insert_of_create ht)]
      exact List.mem_append_right _ List.mem_cons_self

theorem origin_step {q : Payment} (o : Ownership w) (h : Move settings w a w')
    (hq : q ∈ w'.payments.rows) : ∃ i r, .created i r q.id ∈ w'.log := by
  cases h.row_cases hq with
  | created hi ht hlog => exact ⟨_, _, hlog ▸ List.mem_cons_self⟩
  | changed hp hchange =>
    obtain ⟨i, r, hc⟩ := o.origin hp
    rw [hchange.sameIdentity.id]
    exact ⟨i, r, h.log_mono hc⟩

/-- The identifier of a created row is one that no earlier row has. -/
theorem not_created (o : Ownership w) {p : Payment} (ht : w.payments.insert p = some w'.payments) :
    .created i r p.id ∉ w.log := by
  intro hc
  obtain ⟨_, q, hq, hsame⟩ := o.row hc
  exact PaymentsTable.id_ne_of_insert ht hq hsame.id

theorem sameIdentity (o : Ownership w) {p : Payment} (hc : .created i r p.id ∈ w.log)
    (hp : p ∈ w.payments.rows) : ∃ createdAt, (newPayment r p.id createdAt).SameIdentity p := by
  obtain ⟨createdAt, q, hq, hsame⟩ := o.row hc
  obtain rfl := w.payments.eq_of_id_eq hq hp hsame.id
  exact ⟨createdAt, hsame⟩

theorem idempotencyKey_eq (o : Ownership w) {p : Payment} (hc : .created i r p.id ∈ w.log)
    (hp : p ∈ w.payments.rows) : p.idempotencyKey = r.idempotencyKey := by
  obtain ⟨_, hsame⟩ := o.sameIdentity hc hp
  exact hsame.idempotencyKey

theorem unique_step {i' : ℕ} {r' : STKPushInitiateRequest} (o : Ownership w)
    (h : Move settings w a w') (he : .created i r pid ∈ w'.log)
    (he' : .created i' r' pid ∈ w'.log) : i = i' := by
  rcases h.log_cases with hl | ⟨e, hl, hlogs⟩
  · exact o.unique (hl ▸ he) (hl ▸ he')
  · rw [hl, List.mem_cons] at he he'
    rcases he with rfl | he <;> rcases he' with he' | he'
    · cases he'
      rfl
    · cases hlogs with
      | created hi ht hi' => exact absurd he' (o.not_created (insert_of_create ht))
    · subst he'
      cases hlogs with
      | created hi ht hi' => exact absurd he (o.not_created (insert_of_create ht))
    · exact o.unique he he'

theorem once_step {r' : STKPushInitiateRequest} {pid' : UUID} (o : Ownership w)
    (h : Move settings w a w') (he : .created i r pid ∈ w'.log)
    (he' : .created i r' pid' ∈ w'.log) : pid = pid' := by
  rcases h.log_cases with hl | ⟨e, hl, hlogs⟩
  · exact o.once (hl ▸ he) (hl ▸ he')
  · rw [hl, List.mem_cons] at he he'
    rcases he with rfl | he <;> rcases he' with he' | he'
    · cases he'
      rfl
    · cases hlogs with
      | created hi ht hi' => exact absurd ((o.created he').le_stage hi) (by simp [InitiatePc.stage])
    · subst he'
      cases hlogs with
      | created hi ht hi' => exact absurd ((o.created he).le_stage hi) (by simp [InitiatePc.stage])
    · exact o.once he he'

theorem step (o : Ownership w) (h : Move settings w a w') : Ownership w' where
  created := o.created_step h
  dispatched := o.dispatched_step h
  posted := o.posted_step h
  owns := o.owns_step h
  row := o.row_step h
  origin := o.origin_step h
  unique := o.unique_step h
  once := o.once_step h

/-- A key has one row, and that row one call. -/
theorem key_unique {i' : ℕ} {r' : STKPushInitiateRequest} {pid' : UUID} (o : Ownership w)
    (hc : .created i r pid ∈ w.log) (hc' : .created i' r' pid' ∈ w.log)
    (hkey : r.idempotencyKey = r'.idempotencyKey) : i = i' ∧ r = r' := by
  obtain ⟨_, p, hp, hsame⟩ := o.row hc
  obtain ⟨_, q, hq, hsame'⟩ := o.row hc'
  have hkeys : p.idempotencyKey = q.idempotencyKey := by
    calc p.idempotencyKey = r.idempotencyKey := hsame.idempotencyKey
      _ = r'.idempotencyKey := hkey
      _ = q.idempotencyKey := hsame'.idempotencyKey.symm
  have hpq : p = q := w.payments.eq_of_idempotencyKey_eq hp hq hkeys
  have hpid : pid = pid' := by
    calc pid = p.id := hsame.id.symm
      _ = q.id := by rw [hpq]
      _ = pid' := hsame'.id
  subst hpid
  have hcall : i = i' := o.unique hc hc'
  subst hcall
  exact ⟨rfl, (o.created hc).request_eq (o.created hc')⟩

end Ownership

theorem Reachable.ownership (h : Reachable settings w) : Ownership w := by
  apply Machine.Reachable.invariant h ownership_init
  intro u a v _ o hstep
  exact o.step (move_of_step hstep)

end World
end DarajaWrapper
