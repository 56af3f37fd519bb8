import DarajaWrapper.System.Identifiers

/-!
# Cached and other answers

A response is cached after its identifiers are committed, and no later statement
changes a row's identifiers; so a cached response names the committed row, however
late it is written and whoever holds the lock by then. An answer from the database
names the row as well, but fills identifiers that the row does not have with empty
strings.
-/

namespace DarajaWrapper

def InitiateOutcome.issued? : InitiateOutcome → Option STKPushInitiateResponse
  | cacheHit response => some response
  | initiated response => some response
  | dbHit _ => none
  | raised _ => none

namespace World

variable {settings : Settings} {w w' : World} {a : Action} {i client : ℕ}
  {r : STKPushInitiateRequest} {key : String} {response response' : STKPushInitiateResponse}

/-- A committed row has this key, and what its columns store for the identifiers of the response. -/
def Recorded (t : PaymentsTable) (key : String) (response : STKPushInitiateResponse) : Prop :=
  ∃ p ∈ t.rows, p.idempotencyKey = key ∧ p.id = response.paymentId ∧
    (∃ c, varchar 100 response.checkoutRequestId = some c ∧ p.checkoutRequestId = some c) ∧
    ∃ m, varchar 100 response.merchantRequestId = some m ∧ p.merchantRequestId = some m

theorem Recorded.step (hr : Recorded w.payments key response) (hb : Blank w)
    (h : Move settings w a w') : Recorded w'.payments key response := by
  obtain ⟨p, hp, hkey, hid, ⟨c, hcut, hc⟩, m, hcut', hm⟩ := hr
  obtain ⟨q, hq, hpq⟩ := h.later hb hp
  exact ⟨q, hq, hpq.identity.idempotencyKey.trans hkey, hpq.identity.id.trans hid,
    ⟨c, hcut, hpq.checkoutRequestId _ hc⟩, m, hcut', hpq.merchantRequestId _ hm⟩

theorem Move.idem_cases (h : Move settings w a w') (hk : w'.idem key = some response) :
    w.idem key = some response ∨
      ∃ i client r, w.tasks i = some (.initiate client r (.cacheResult response)) ∧
        r.idempotencyKey = key := by
  cases h with
  | evictIdem key' =>
    by_cases hkey : key = key'
    · subst hkey
      simp at hk
    · exact Or.inl (by simpa [hkey] using hk)
  | cacheResult link hi =>
    rename_i i client r response'
    simp only [World.cacheResult, setTask_idem] at hk
    by_cases hkey : key = r.idempotencyKey
    · rw [hkey, Function.update_self] at hk
      rcases redisSetex_eq_some hk with hold | rfl
      · exact Or.inl (hkey ▸ hold)
      · exact Or.inr ⟨i, client, r, hi, hkey.symm⟩
    · exact Or.inl ((Function.update_of_ne hkey ..).symm.trans hk)
  | visitRow link hi =>
    unfold World.visitRow at hk
    split_ifs at hk <;> exact Or.inl hk
  | _ => exact Or.inl hk

/-- A response is cached for the key, about to be cached, or was issued to a caller. -/
inductive Serves (w : World) (key : String) (response : STKPushInitiateResponse) : Prop
  | cache (hk : w.idem key = some response)
  | stored {i client : ℕ} {r : STKPushInitiateRequest}
      (hi : w.tasks i = some (.initiate client r (.cacheResult response)))
      (hkey : r.idempotencyKey = key)
  | issued {i client : ℕ} {r : STKPushInitiateRequest} {pc : InitiatePc}
      {outcome : InitiateOutcome} (hi : w.tasks i = some (.initiate client r pc))
      (hkey : r.idempotencyKey = key) (hpc : pc.outcome? = some outcome)
      (hissued : outcome.issued? = some response)

/-- The step commits the identifiers of this response. -/
inductive Records (w : World) (a : Action) (w' : World) (key : String)
    (response : STKPushInitiateResponse) : Prop
  | storeIds {i client : ℕ} {r : STKPushInitiateRequest} {pid : UUID}
      {result : STKInitiationResult} (ha : a = .write i .up)
      (hi : w.tasks i = some (.initiate client r (.updateIds pid result)))
      (hkey : r.idempotencyKey = key) (hresponse : initiatedResponse pid result = response)
      (ht : w.payments.updateDarajaIds w.now pid result.checkoutRequestId
        result.merchantRequestId = some w'.payments)

/-- A response is served from the commit of its identifiers on. -/
theorem Move.serves_cases (h : Move settings w a w') (hs : Serves w' key response) :
    Serves w key response ∨ Records w a w' key response := by
  cases hs with
  | cache hk =>
    rcases h.idem_cases hk with hk | ⟨i, client, r, hi, hkey⟩
    · exact Or.inl (.cache hk)
    · exact Or.inl (.stored hi hkey)
  | stored hi' hkey =>
    rcases h.initiate_cases hi' with hi | hmove
    · exact Or.inl (.stored hi hkey)
    · cases hmove with
      | idsStored ha hi ht => exact Or.inr (.storeIds ha hi hkey rfl ht)
  | issued hi' hkey hpc hissued =>
    rcases h.initiate_cases hi' with hi | hmove
    · exact Or.inl (.issued hi hkey hpc hissued)
    · cases hmove with
      | cacheHit hi hidem =>
        cases hpc
        cases hissued
        exact Or.inl (.cache (hkey ▸ hidem))
      | cached hi =>
        cases hpc
        cases hissued
        exact Or.inl (.stored hi hkey)
      | released hi =>
        cases hpc
        exact Or.inl (.issued hi hkey rfl hissued)
      | lockRefused | lookupFailed | answered | createFailed | callRaised | failed | idsFailed =>
        cases hpc
        cases hissued
      | _ => cases hpc

def Served (K : World → String → STKPushInitiateResponse → Prop) (w : World) : Prop :=
  ∀ ⦃key response⦄, Serves w key response → K w key response

theorem not_serves_init : ¬ Serves init key response := by
  intro hs
  cases hs with
  | cache hk => cases hk
  | stored hi => cases hi
  | issued hi => cases hi

/-- A property that every step keeps, and that a response has when its identifiers are committed,
is a property of all that is served. -/
theorem Served.step {K : World → String → STKPushInitiateResponse → Prop} (s : Served K w)
    (h : Move settings w a w') (hkeep : ∀ key response, K w key response → K w' key response)
    (hnew : ∀ key response, Records w a w' key response → K w' key response) : Served K w' := by
  intro key response hs
  rcases h.serves_cases hs with hold | hrecords
  · exact hkeep key response (s hold)
  · exact hnew key response hrecords

theorem Records.recorded (h : Records w a w' key response) (o : Ownership w) :
    Recorded w'.payments key response := by
  obtain ⟨ha, hi, rfl, rfl, ht⟩ := h
  obtain ⟨c, m, hc, hm, hu⟩ := PaymentsTable.updateDarajaIds_eq_some ht
  obtain ⟨_, p, hp, hsame⟩ := o.row (o.owns hi rfl)
  have hrow := PaymentsTable.mem_update_self hu hp hsame.id
  exact ⟨_, hrow, hsame.idempotencyKey, hsame.id, ⟨c, hc, rfl⟩, m, hm, rfl⟩

/-- What is served names the committed row of its key. -/
theorem Reachable.coherent (h : Reachable settings w) :
    Served (fun w => Recorded w.payments) w := by
  apply Machine.Reachable.invariant h fun _ _ hs => (not_serves_init hs).elim
  intro u a v hu s hstep
  have hmove := move_of_step hstep
  apply s.step hmove
  · intro key response hr
    exact hr.step (Reachable.blank hu) hmove
  · intro key response hrecords
    exact hrecords.recorded (Reachable.ownership hu)

/-- The row whose identifiers are being committed has none yet. -/
theorem Records.not_recorded (h : Records w a w' key response) (o : Ownership w) (hb : Blank w) :
    ¬ Recorded w.payments key response' := by
  rintro ⟨q, hq, hkey, -, ⟨c, -, hc⟩, -⟩
  obtain ⟨ha, hi, rfl, rfl, ht⟩ := h
  obtain ⟨_, p, hp, hsame⟩ := o.row (o.owns hi rfl)
  obtain rfl := w.payments.eq_of_idempotencyKey_eq hp hq (hsame.idempotencyKey.trans hkey.symm)
  obtain ⟨hnone, -⟩ := hb hi rfl (by simp [InitiatePc.stage]) hp hsame.id
  rw [hnone] at hc
  cases hc

theorem Records.unique (h : Records w a w' key response) (h' : Records w a w' key response') :
    response = response' := by
  obtain ⟨rfl, hi, -, rfl, -⟩ := h
  obtain ⟨ha, hi', -, rfl, -⟩ := h'
  cases ha
  cases hi.symm.trans hi'
  rfl

/-- One call commits identifiers for a key, once, so all that is served for the key is its
response. -/
theorem Reachable.serves_unique (h : Reachable settings w) :
    ∀ ⦃key response response'⦄, Serves w key response → Serves w key response' →
      response = response' := by
  apply Machine.Reachable.invariant h
    (P := fun w => ∀ ⦃key response response'⦄, Serves w key response → Serves w key response' →
      response = response')
  · intro key response response' hs
    exact (not_serves_init hs).elim
  · intro u a v hu hunique hstep key response response' hs hs'
    have o := Reachable.ownership hu
    have hb := Reachable.blank hu
    have hcoherent := Reachable.coherent hu
    have hmove := move_of_step hstep
    rcases hmove.serves_cases hs with hold | hnew
    · rcases hmove.serves_cases hs' with hold' | hnew'
      · exact hunique hold hold'
      · exact absurd (hcoherent hold) (hnew'.not_recorded o hb)
    · rcases hmove.serves_cases hs' with hold' | hnew'
      · exact absurd (hcoherent hold') (hnew.not_recorded o hb)
      · exact hnew.unique hnew'

/-- What the cache served to call `i`, with the key of its request. -/
def served? (w : World) (i : ℕ) : Option (String × STKPushInitiateResponse) :=
  match w.tasks i with
  | some (.initiate _ r (.done (.cacheHit response))) => some (r.idempotencyKey, response)
  | _ => none

theorem served_eq_some (h : w.served? i = some (key, response)) :
    ∃ client r, w.tasks i = some (.initiate client r (.done (.cacheHit response))) ∧
      r.idempotencyKey = key := by
  unfold served? at h
  split at h
  · rename_i client r response' hi
    cases h
    exact ⟨client, r, hi, rfl⟩
  · cases h

/-- In every reachable state a cached response names the committed row of its key, and so does
every response that the cache has served; those served for one key are one response. -/
theorem cache_agrees_with_table (h : Reachable settings w) :
    (∀ key response, w.idem key = some response → Recorded w.payments key response) ∧
    (∀ i key response, w.served? i = some (key, response) → Recorded w.payments key response) ∧
    ∀ i j key response response', w.served? i = some (key, response) →
      w.served? j = some (key, response') → response = response' := by
  have hserves : ∀ i key response, w.served? i = some (key, response) →
      Serves w key response := by
    intro i key response hserved
    obtain ⟨client, r, hi, hkey⟩ := served_eq_some hserved
    exact .issued hi hkey rfl rfl
  refine ⟨?_, ?_, ?_⟩
  · intro key response hk
    exact h.coherent (.cache hk)
  · intro i key response hi
    exact h.coherent (hserves i key response hi)
  · intro i j key response response' hi hj
    exact h.serves_unique (hserves i key response hi) (hserves j key response' hj)

def replayFromCache : List Action :=
  sampleInitiation 0 7 ++ [.startInitiate 1 0 sampleRequest, .redis 1 .up]

theorem replayFromCache_enabled :
    (Machine.run (step {}) init replayFromCache).isSome = true := by decide +kernel

def sampleResponse : STKPushInitiateResponse :=
  ⟨7, sampleIds.checkoutRequestId, sampleIds.merchantRequestId, "0",
    "Success. Request accepted for processing", "pending"⟩

theorem cache_agrees_with_table_sample :
    Recorded (after {} _ replayFromCache_enabled).payments "key-0001" sampleResponse :=
  (cache_agrees_with_table (reachable_after replayFromCache_enabled)).2.1 1 _ _ (by decide +kernel)

/-- One space too many for the column. -/
def longIds : DarajaIds := ⟨String.ofList (List.replicate 100 'w' ++ [' ']), "29115-34620561-1"⟩

/-- A first call whose CheckoutRequestID is cut off in the table, up to the cached response. -/
def cutInitiation : List Action :=
  sampleUntilPost 0 7 ++
    [.attempt 0 (acknowledgement longIds) (some longIds), .write 0 .up, .redis 0 .up]

theorem cutInitiation_enabled :
    (Machine.run (step {}) init cutInitiation).isSome = true := by decide +kernel

theorem cut_identifier_cached_whole :
    ¬ ∀ settings w key response, Reachable settings w → w.idem key = some response →
      ∃ p ∈ w.payments.rows, p.idempotencyKey = key ∧ p.id = response.paymentId ∧
        p.checkoutRequestId = some response.checkoutRequestId ∧
        p.merchantRequestId = some response.merchantRequestId := by
  intro h
  obtain ⟨p, hp, -, -, hc, -⟩ := h {} _ "key-0001"
    ⟨7, longIds.checkoutRequestId, longIds.merchantRequestId, "0",
      "Success. Request accepted for processing", "pending"⟩
    (reachable_after cutInitiation_enabled) (by decide +kernel)
  have hcut : ∀ p ∈ (after {} _ cutInitiation_enabled).payments.rows,
      p.checkoutRequestId ≠ some longIds.checkoutRequestId := by
    decide +kernel
  exact hcut p hp hc

/-- The row of the key has its identifiers when it is answered, and those that are committed to it
are not empty and are stored whole. -/
def answersIdentified (key : String) (w : World) : Action → Bool
  | .query i link =>
    match w.tasks i with
    | some (.initiate _ r .lookup) =>
      r.idempotencyKey ≠ key || selectFails link key ||
        (w.payments.getByIdempotencyKey key).all fun p =>
          !answeredStatus p.status || (p.checkoutRequestId.isSome && p.merchantRequestId.isSome)
    | _ => true
  | .write i link =>
    link = .down ||
      match w.tasks i with
      | some (.initiate _ r (.updateIds _ result)) =>
        r.idempotencyKey ≠ key ||
          (result.checkoutRequestId ≠ "" && result.merchantRequestId ≠ "" &&
            storesWhole 100 result.checkoutRequestId && storesWhole 100 result.merchantRequestId)
      | _ => true
  | _ => true

/-- Daraja accepted a push for the payment that a response names, and issued its identifiers. -/
def AcceptedAs (log : List Event) (key : String) (response : STKPushInitiateResponse) : Prop :=
  ∃ i reply, .posted i key response.paymentId reply
      (some ⟨response.checkoutRequestId, response.merchantRequestId⟩) ∈ log ∧
    response.checkoutRequestId ≠ "" ∧ response.merchantRequestId ≠ ""

theorem AcceptedAs.step (ha : AcceptedAs w.log key response) (h : Move settings w a w') :
    AcceptedAs w'.log key response := by
  obtain ⟨i, reply, hposted, hne⟩ := ha
  exact ⟨i, reply, h.log_mono hposted, hne⟩

theorem accepted_of_storeIds {pid : UUID} {result : STKInitiationResult} {link : Link}
    {c m : String} (hw : Reachable settings w)
    (hok : answersIdentified r.idempotencyKey w (.write i link) = true) (hlink : link ≠ .down)
    (hi : w.tasks i = some (.initiate client r (.updateIds pid result)))
    (hc : varchar 100 result.checkoutRequestId = some c)
    (hm : varchar 100 result.merchantRequestId = some m) :
    c = result.checkoutRequestId ∧ m = result.merchantRequestId ∧
      AcceptedAs w.log r.idempotencyKey (initiatedResponse pid result) := by
  simp only [answersIdentified, hi, hlink, ne_eq, not_true_eq_false, decide_false, Bool.false_or,
    Bool.and_eq_true, decide_eq_true_eq] at hok
  obtain ⟨⟨⟨hc0, hm0⟩, hwhole⟩, hwhole'⟩ := hok
  obtain ⟨reply, hposted⟩ := hw.issued hi
  exact ⟨eq_of_storesWhole hwhole hc, eq_of_storesWhole hwhole' hm, i, reply, hposted, hc0, hm0⟩

/-- In a run of identified answers for a key, what the row, the cache and the calls hold for it
names an acceptance. -/
structure Identified (key : String) (w : World) : Prop where
  row : ∀ ⦃p⦄, p ∈ w.payments.rows → p.idempotencyKey = key → p.checkoutRequestId.isSome = true →
    p.merchantRequestId.isSome = true → AcceptedAs w.log key (paymentToResponse p)
  served : ∀ ⦃response⦄, Serves w key response → AcceptedAs w.log key response
  answer : ∀ ⦃i client r pc response⦄, w.tasks i = some (.initiate client r pc) →
    r.idempotencyKey = key → pc.outcome? = some (.dbHit response) →
      AcceptedAs w.log key response

theorem identified_init : Identified key init where
  row _ hp := by cases hp
  served _ hs := (not_serves_init hs).elim
  answer _ _ _ _ _ hi := by cases hi

namespace Identified

theorem row_step {q : Payment} (d : Identified key w) (hw : Reachable settings w)
    (hok : answersIdentified key w a = true) (h : Move settings w a w')
    (hq : q ∈ w'.payments.rows) (hkey : q.idempotencyKey = key)
    (hc : q.checkoutRequestId.isSome = true) (hm : q.merchantRequestId.isSome = true) :
    AcceptedAs w'.log key (paymentToResponse q) := by
  cases h.row_cases hq with
  | created hi ht hlog => cases hc
  | changed hp hchange =>
    rw [hchange.sameIdentity.idempotencyKey] at hkey
    cases hchange with
    | identified ha hlink hi hi' hcut hcut' =>
      subst hkey
      have hkey := hw.ownership.idempotencyKey_eq (hw.ownership.owns hi rfl) hp
      rw [hkey, ha] at hok
      obtain ⟨rfl, rfl, haccepted⟩ := accepted_of_storeIds hw hok hlink hi hcut hcut'
      rw [hkey]
      exact haccepted.step h
    | kept | failed | completed | declined | expired => exact (d.row hp hkey hc hm).step h

theorem served_step (d : Identified key w) (hw : Reachable settings w)
    (hok : answersIdentified key w a = true) (h : Move settings w a w')
    (hs : Serves w' key response) : AcceptedAs w'.log key response := by
  rcases h.serves_cases hs with hold | ⟨ha, hi, rfl, rfl, ht⟩
  · exact (d.served hold).step h
  · obtain ⟨c, m, hc, hm, -⟩ := PaymentsTable.updateDarajaIds_eq_some ht
    obtain ⟨-, -, haccepted⟩ := accepted_of_storeIds hw (ha ▸ hok) (by decide) hi hc hm
    exact haccepted.step h

theorem answer_step {pc : InitiatePc} (d : Identified key w)
    (hok : answersIdentified key w a = true) (h : Move settings w a w')
    (hi' : w'.tasks i = some (.initiate client r pc)) (hkey : r.idempotencyKey = key)
    (hpc : pc.outcome? = some (.dbHit response)) : AcceptedAs w'.log key response := by
  have hbefore : AcceptedAs w.log key response := by
    rcases h.initiate_cases hi' with hi | hmove
    · exact d.answer hi hkey hpc
    · cases hmove with
      | answered hi ha hfails hfound hstatus =>
        cases hpc
        subst hkey
        simp only [ha, answersIdentified, hi, hfails, hfound, Option.all_some, hstatus, ne_eq,
          not_true_eq_false, decide_false, Bool.not_true, Bool.false_or, Bool.and_eq_true] at hok
        obtain ⟨hp, hkey⟩ := PaymentsTable.getByIdempotencyKey_eq_some.mp hfound
        exact d.row hp hkey hok.1 hok.2
      | released hi => exact d.answer hi hkey hpc
      | _ => cases hpc
  exact hbefore.step h

end Identified

theorem returned_eq_some (h : w.returned? i = some (key, response)) :
    ∃ client r outcome, w.tasks i = some (.initiate client r (.done outcome)) ∧
      r.idempotencyKey = key ∧ outcome.response? = some response := by
  unfold returned? at h
  split at h
  · rename_i client r outcome hi
    obtain ⟨response', hresponse, heq⟩ := Option.map_eq_some_iff.mp h
    cases heq
    exact ⟨client, r, outcome, hi, rfl, hresponse⟩
  · cases h

/-- In a run that answers the row of a key only with identifiers that Daraja issued, every
acceptance that is returned for the key is Daraja's. -/
theorem acceptance_of_identified {as : List Action} (key : String)
    (hok : Machine.Meets (step settings) (fun u a => answersIdentified key u a = true) init as)
    (hrun : Machine.run (step settings) init as = some w) :
    ∀ i response, w.returned? i = some (key, response) → response.responseCode = "0" →
      AcceptedAs w.log key response := by
  intro i response hreturned _
  have d : Identified key w := by
    refine Machine.run_invariant_of_meets identified_init ?_ hok hrun
    intro u a v hu d hoku hstep
    have hmove := move_of_step hstep
    exact
      { row := fun _ hq hkey hc hm => d.row_step hu hoku hmove hq hkey hc hm
        served := fun _ hs => d.served_step hu hoku hmove hs
        answer := fun _ _ _ _ _ hi' hkey hpc => d.answer_step hoku hmove hi' hkey hpc }
  obtain ⟨client, r, outcome, hi, hkey, hresponse⟩ := returned_eq_some hreturned
  cases outcome with
  | cacheHit response' => exact d.served (.issued hi hkey rfl hresponse)
  | initiated response' => exact d.served (.issued hi hkey rfl hresponse)
  | dbHit response' =>
    cases hresponse
    exact d.answer hi hkey rfl
  | raised e => cases hresponse

theorem acceptance_of_identified_sample :
    AcceptedAs (after {} _ replayFromCache_enabled).log "key-0001" sampleResponse :=
  acceptance_of_identified "key-0001" (by decide +kernel) (run_after replayFromCache_enabled) 1 _
    (by decide +kernel) rfl

/-- A push that Daraja rejects, and a replay once the row says so. -/
def replayAfterRejection : List Action :=
  sampleUntilPost 0 7 ++
    [.attempt 0 (.response 400 "Bad Request" none) none, .write 0 .up, .redis 0 .up,
     .startInitiate 1 0 sampleRequest, .redis 1 .up, .redis 1 .up, .query 1 .up, .redis 1 .up]

theorem replayAfterRejection_enabled :
    (Machine.run (step {}) init replayAfterRejection).isSome = true := by decide +kernel

theorem rejected_push_answered_accepted :
    ¬ ∀ settings w i key response, Reachable settings w → w.returned? i = some (key, response) →
      response.responseCode = "0" → AcceptedAs w.log key response := by
  intro h
  obtain ⟨_, _, _, hne, -⟩ := h {} _ 1 "key-0001"
    ⟨7, "", "", "0", "Payment already processed.", "failed"⟩
    (reachable_after replayAfterRejection_enabled) (by decide +kernel) rfl
  exact hne rfl

end World
end DarajaWrapper
