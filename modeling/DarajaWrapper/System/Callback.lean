import DarajaWrapper.System.Lifecycle

/-!
# Deliveries of a callback

Daraja and Celery deliver a callback until it is acknowledged. The deduplication
key is taken before the row is looked up and is kept whatever happens then, so
only the delivery that takes it can apply the outcome: it must not fail, and it
must not come before the identifiers are in the table.
-/

namespace DarajaWrapper

variable {now now' : ℚ} {n : ℕ} {cb : STKCallbackBody} {t t' : PaymentsTable} {p : Payment}

/-- The database of a delivery fails: its lookup raises, or its update does and is rolled back. -/
def CallbackLinks.databaseFails (links : CallbackLinks) : Bool :=
  links.setNx = .up && (links.lookup ≠ .up || links.update = .down)

theorem storable_of_mem {c : String} (hp : p ∈ t.rows) (hc : p.checkoutRequestId = some c) :
    storable c = true := by
  have hcolumns := t.constraints.columns p hp
  simp only [Payment.columnsOk, hc, Option.all_some, isVarchar, Bool.and_eq_true] at hcolumns
  tauto

theorem processCallback_ignored {links : CallbackLinks} (hlinks : links.setNx = .up) (v : ℕ) :
    processCallback links now n cb (some v) t = (some v, t, .ignored) := by
  simp [processCallback, hlinks, redisSetNx]

theorem processCallback_raised {links : CallbackLinks} (hfails : links.databaseFails = true)
    (hp : p ∈ t.rows) (hc : p.checkoutRequestId = some cb.checkoutRequestId) :
    processCallback links now n cb none t = (some n, t, .raised) := by
  simp only [CallbackLinks.databaseFails, Bool.and_eq_true, decide_eq_true_eq,
    Bool.or_eq_true] at hfails
  obtain ⟨hset, hdb⟩ := hfails
  by_cases hlookup : links.lookup = .up
  · have hupdate : links.update = .down := hdb.resolve_left (absurd hlookup)
    simp [processCallback, hset, redisSetNx, selectFails, hlookup, storable_of_mem hp hc,
      PaymentsTable.getByCheckoutRequestId_of_mem hp hc, hupdate, commit]
  · simp [processCallback, hset, redisSetNx, selectFails, hlookup]

theorem processCallback_applied (hp : p ∈ t.rows)
    (hc : p.checkoutRequestId = some cb.checkoutRequestId)
    (ht : applyOutcome now t p.id cb = some t') :
    processCallback {} now n cb none t = (some n, t', .applied) := by
  simp [processCallback, redisSetNx, selectFails, storable_of_mem hp hc,
    PaymentsTable.getByCheckoutRequestId_of_mem hp hc, ht, commit]

/-- The deduplication key and the table after deliveries in this order, each with its clock. -/
def deliverAll (cb : STKCallbackBody) :
    List (CallbackLinks × ℚ) → Option ℕ × PaymentsTable → Option ℕ × PaymentsTable
  | [], s => s
  | (links, now) :: rest, s =>
    let result := processCallback links now rest.length cb s.1 s.2
    deliverAll cb rest (result.1, result.2.1)

theorem deliverAll_held {failures : List (CallbackLinks × ℚ)}
    (hlinks : ∀ f ∈ failures, f.1.setNx = .up) (v : ℕ) :
    deliverAll cb failures (some v, t) = (some v, t) := by
  induction failures with
  | nil => rfl
  | cons f rest ih =>
    obtain ⟨links, now⟩ := f
    rw [deliverAll, processCallback_ignored (hlinks _ List.mem_cons_self)]
    exact ih fun g hg => hlinks g (List.mem_cons_of_mem _ hg)

/-- After deliveries whose database failed, one with a healthy database applies the outcome, and
the row is the one that a single delivery would have left. -/
def AppliedAfter (failures : List (CallbackLinks × ℚ)) (now now' : ℚ) (cb : STKCallbackBody)
    (t : PaymentsTable) (p : Payment) : Prop :=
  let s := deliverAll cb failures (none, t)
  let final := processCallback {} now 0 cb s.1 s.2
  let single := processCallback {} now' 0 cb none t
  final.2.2 = .applied ∧ ∃ q ∈ final.2.1.rows, ∃ q' ∈ single.2.1.rows,
    q.id = p.id ∧ q'.id = p.id ∧ q.SameUpToUpdatedAt q'

theorem sameUpToUpdatedAt_of_applyOutcome {t'' : PaymentsTable} (hp : p ∈ t.rows)
    (h : applyOutcome now t p.id cb = some t') (h' : applyOutcome now' t p.id cb = some t'') :
    ∃ q ∈ t'.rows, ∃ q' ∈ t''.rows, q.id = p.id ∧ q'.id = p.id ∧ q.SameUpToUpdatedAt q' := by
  rcases applyOutcome_eq_some h with ⟨hcode, receipt, paid, date, hr, ha, hd, hu⟩ | ⟨hcode, hu⟩
  · rcases applyOutcome_eq_some h' with ⟨_, receipt', paid', date', hr', ha', hd', hu'⟩ | ⟨hne, _⟩
    · obtain rfl := Option.some.inj (hr.symm.trans hr')
      obtain rfl := Option.some.inj (ha.symm.trans ha')
      subst hd hd'
      exact ⟨_, PaymentsTable.mem_update_self hu hp rfl, _,
        PaymentsTable.mem_update_self hu' hp rfl, rfl, rfl, rfl⟩
    · exact absurd hcode hne
  · rcases applyOutcome_eq_some h' with ⟨h0, -⟩ | ⟨_, hu'⟩
    · exact absurd h0 hcode
    · exact ⟨_, PaymentsTable.mem_update_self hu hp rfl, _,
        PaymentsTable.mem_update_self hu' hp rfl, rfl, rfl, rfl⟩

/-- A callback whose deliveries failed is applied exactly when there were none. -/
theorem applied_after_failures_iff {failures : List (CallbackLinks × ℚ)} (hp : p ∈ t.rows)
    (hc : p.checkoutRequestId = some cb.checkoutRequestId) (hfits : cb.fits = true)
    (hfails : ∀ f ∈ failures, f.1.databaseFails = true) (now now' : ℚ) :
    AppliedAfter failures now now' cb t p ↔ failures = [] := by
  have happlies : ∀ at', ∃ t', applyOutcome at' t p.id cb = some t' := fun at' =>
    Option.isSome_iff_exists.mp ((applyOutcome_isSome_iff at' hp).mpr hfits)
  obtain ⟨t₁, ht₁⟩ := happlies now
  obtain ⟨t₂, ht₂⟩ := happlies now'
  constructor
  · rintro ⟨hfinal, -⟩
    cases failures with
    | nil => rfl
    | cons f rest =>
      -- the first failure keeps the key, and everything after it is ignored
      obtain ⟨links, at'⟩ := f
      rw [deliverAll, processCallback_raised (hfails _ List.mem_cons_self) hp hc,
        deliverAll_held, processCallback_ignored rfl] at hfinal
      · cases hfinal
      · intro g hg
        have hset := hfails g (List.mem_cons_of_mem _ hg)
        simp only [CallbackLinks.databaseFails, Bool.and_eq_true, decide_eq_true_eq] at hset
        exact hset.1
  · rintro rfl
    simp only [AppliedAfter, deliverAll, processCallback_applied hp hc ht₁,
      processCallback_applied hp hc ht₂]
    exact ⟨trivial, sameUpToUpdatedAt_of_applyOutcome hp ht₁ ht₂⟩

def identifiedTable : PaymentsTable := ⟨[identifiedRow], by decide +kernel⟩

def lostUpdate : List (CallbackLinks × ℚ) := [({ update := .down }, 1)]

theorem applied_after_failures_sample :
    AppliedAfter lostUpdate 2 2 World.sampleCallback identifiedTable identifiedRow ↔
      lostUpdate = [] :=
  applied_after_failures_iff (by decide +kernel) (by decide +kernel) (by decide +kernel)
    (by decide +kernel) 2 2

theorem lost_update_consumes_callback :
    ¬ ∀ failures now now' cb t p, p ∈ t.rows →
      p.checkoutRequestId = some cb.checkoutRequestId → cb.fits = true →
        (∀ f ∈ failures, f.1.databaseFails = true) → AppliedAfter failures now now' cb t p := by
  intro h
  have hfinal := (h lostUpdate 2 2 World.sampleCallback identifiedTable identifiedRow
    (by decide +kernel) (by decide +kernel) (by decide +kernel) (by decide +kernel)).1
  revert hfinal
  decide +kernel

namespace World

variable {settings : Settings} {w w' : World} {a : Action} {i : ℕ}

/-- Alone in the system, a delivery ends with the key and the table that `processCallback` says. -/
theorem delivery_run {links : CallbackLinks} (hi : w.tasks i = none) :
    ∃ as w', Machine.run (step settings) w
        (.startCallback i cb :: .redis i links.setNx :: as) = some w' ∧
      ∃ outcome, w'.tasks i = some (.callback cb (.done outcome)) ∧
        processCallback links w.now i cb (w.dedup cb.checkoutRequestId) w.payments =
          (w'.dedup cb.checkoutRequestId, w'.payments, outcome) := by
  let u : World := { w with log := .reported cb :: w.log }.setTask i (.callback cb .claim)
  have hu : step settings w (.startCallback i cb) = some u := step_of_move (.startCallback cb hi)
  have hclaim : step settings u (.redis i links.setNx) = some (u.claim i cb links.setNx) :=
    step_of_move (.claim _ (Function.update_self ..))
  let v : World := u.claim i cb links.setNx
  have hrun : ∀ as w', Machine.run (step settings) v as = some w' →
      Machine.run (step settings) w (.startCallback i cb :: .redis i links.setNx :: as) =
        some w' :=
    fun as w' h => Machine.run_cons.mpr ⟨u, hu, Machine.run_cons.mpr ⟨v, hclaim, h⟩⟩
  have hdedup : v.dedup cb.checkoutRequestId =
      (redisSetNx links.setNx (w.dedup cb.checkoutRequestId) i).2 := Function.update_self ..
  have hv : v.tasks i = some (.callback cb
      (.afterSetNx (redisSetNx links.setNx (w.dedup cb.checkoutRequestId) i).1)) :=
    Function.update_self ..
  cases hclaimed : (redisSetNx links.setNx (w.dedup cb.checkoutRequestId) i).1 with
  | false =>
    rw [hclaimed] at hv
    refine ⟨[], v, hrun _ _ rfl, .ignored, hv, ?_⟩
    rw [hdedup]
    simp only [processCallback, hclaimed]
    rfl
  | true =>
    rw [hclaimed] at hv
    have hlookup : step settings v (.query i links.lookup) =
        some (v.lookupByCheckout i cb links.lookup) := step_of_move (.lookupByCheckout _ hv)
    let x : World := v.lookupByCheckout i cb links.lookup
    have hx : x.tasks i = some (.callback cb (.afterLookup links.lookup cb.checkoutRequestId
        (w.payments.getByCheckoutRequestId cb.checkoutRequestId))) := Function.update_self ..
    have hrun' : ∀ as w', Machine.run (step settings) x as = some w' →
        Machine.run (step settings) w (.startCallback i cb :: .redis i links.setNx ::
          .query i links.lookup :: as) = some w' :=
      fun as w' h => hrun _ _ (Machine.run_cons.mpr ⟨x, hlookup, h⟩)
    by_cases hfails : selectFails links.lookup cb.checkoutRequestId = true
    · simp only [CallbackPc.afterLookup, hfails, if_true] at hx
      refine ⟨[.query i links.lookup], x, hrun' _ _ rfl, .raised, hx, ?_⟩
      simp only [processCallback, hclaimed, hfails, ← hdedup]
      rfl
    · simp only [CallbackPc.afterLookup, hfails] at hx
      cases hfound : w.payments.getByCheckoutRequestId cb.checkoutRequestId with
      | none =>
        rw [hfound] at hx
        refine ⟨[.query i links.lookup], x, hrun' _ _ rfl, .unmatched, hx, ?_⟩
        simp only [processCallback, hclaimed, hfails, hfound, ← hdedup]
        rfl
      | some p =>
        rw [hfound] at hx
        have happly : step settings x (.write i links.update) =
            some (x.applyCallback i cb links.update p.id) := step_of_move (.applyCallback _ hx)
        refine ⟨[.query i links.lookup, .write i links.update], _,
          hrun' _ _ (Machine.run_cons.mpr ⟨_, happly, rfl⟩), _, Function.update_self .., ?_⟩
        simp only [processCallback, hclaimed, hfails, hfound, ← hdedup]
        rfl

end World

end DarajaWrapper
