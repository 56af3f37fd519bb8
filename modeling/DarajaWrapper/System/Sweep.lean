import DarajaWrapper.System.Moves

/-!
# The sweep among the other writers

A row gets its receipt in the statement that makes it COMPLETED, and no statement
makes a row PENDING again. So a sweep never reads a receipt from a row that it
selects, and its Transaction Status branch is dead.
-/

namespace DarajaWrapper
namespace World

variable {settings : Settings} {w w' : World} {a : Action} {i : ℕ}

theorem Move.sweep_cases {j : ℕ} {remaining : List StaleRow} (h : Move settings w a w')
    (hj : w'.tasks j = some (.sweep (.rows remaining))) :
    w.tasks j = some (.sweep (.rows remaining)) ∨
      (∃ cutoff ids, w.payments.staleBatch cutoff ids = some remaining) ∨
      ∃ row, w.tasks j = some (.sweep (.rows (row :: remaining))) := by
  by_cases hact : a.task? = some j
  · refine Or.inr ?_
    cases h with
    | selectStale link hi hbatch =>
      cases hact
      have htask := setTask_inj hj
      split_ifs at htask with hlink
      · cases htask
        exact Or.inl ⟨_, _, hbatch⟩
      · cases htask
    | visitRow link hi =>
      cases hact
      rename_i row rest
      unfold World.visitRow at hj
      split_ifs at hj <;> cases setTask_inj hj <;> exact Or.inr ⟨row, hi⟩
    | crash hi hlive =>
      rename_i task
      cases hact
      have htask := setTask_inj hj
      cases task <;> cases htask
    | tick => cases hact
    | evictIdem => cases hact
    | expireLock => cases hact
    | expireDedup => cases hact
    | _ =>
      cases hact
      cases setTask_inj hj
  · exact Or.inl (h.tasks_of_ne hact ▸ hj)

/-- No PENDING row has a receipt, no sweep has read one, and none has asked for a status. -/
structure NoReceiptRead (w : World) : Prop where
  pending : ∀ ⦃p⦄, p ∈ w.payments.rows → p.status = .pending → p.mpesaReceipt = none
  remaining : ∀ {i remaining}, w.tasks i = some (.sweep (.rows remaining)) →
    ∀ row ∈ remaining, row.mpesaReceipt = none
  queried : ∀ pid, .statusQueried pid ∉ w.log

theorem noReceiptRead_init : NoReceiptRead init where
  pending p hp := by cases hp
  remaining h := by cases h
  queried pid h := by cases h

theorem mem_staleBatch {t : PaymentsTable} {cutoff : ℚ} {ids : List UUID} {batch : List StaleRow}
    (h : t.staleBatch cutoff ids = some batch) {row : StaleRow} (hrow : row ∈ batch) :
    ∃ p ∈ t.rows, isStale cutoff p = true ∧ row = ⟨p.id, p.mpesaReceipt⟩ := by
  simp only [PaymentsTable.staleBatch] at h
  split_ifs at h with hids
  cases h
  obtain ⟨p, hp, rfl⟩ := List.mem_map.mp hrow
  obtain ⟨id, hid, hfound⟩ := List.mem_filterMap.mp hp
  obtain ⟨hmem, rfl⟩ := Rows.mem_of_find? hfound
  obtain ⟨q, hq, hqid⟩ := List.mem_map.mp (hids.2.1 hid)
  obtain ⟨hqmem, hstale⟩ := List.mem_filter.mp hq
  rw [← t.eq_of_id_eq hqmem hmem hqid]
  exact ⟨q, hqmem, hstale, rfl⟩

theorem isStale_pending {cutoff : ℚ} {p : Payment} (h : isStale cutoff p = true) :
    p.status = .pending := by
  simp only [isStale, Bool.and_eq_true, decide_eq_true_eq] at h
  exact h.1

theorem NoReceiptRead.batch (n : NoReceiptRead w) {cutoff : ℚ} {ids : List UUID}
    {batch : List StaleRow} (h : w.payments.staleBatch cutoff ids = some batch) :
    ∀ row ∈ batch, row.mpesaReceipt = none := by
  intro row hrow
  obtain ⟨p, hp, hstale, rfl⟩ := mem_staleBatch h hrow
  exact n.pending hp (isStale_pending hstale)

theorem NoReceiptRead.hasReceipt_eq_false (n : NoReceiptRead w) {row : StaleRow}
    {rest : List StaleRow} (hi : w.tasks i = some (.sweep (.rows (row :: rest)))) :
    row.hasReceipt = false := by
  rw [StaleRow.hasReceipt, n.remaining hi row List.mem_cons_self]
  rfl

theorem NoReceiptRead.step (n : NoReceiptRead w) (h : Move settings w a w') :
    NoReceiptRead w' where
  pending := by
    intro q hq hs
    cases h.row_cases hq with
    | created hi ht hlog => rfl
    | changed hp hchange =>
      cases hchange with
      | kept => exact n.pending hp hs
      | identified ha hlink hi hi' =>
        have hnone := n.pending hp
        exact hnone hs
      | failed ha hlink hi => cases hs
      | completed ha hlink hi => cases hs
      | declined ha hlink hi ht hcode =>
        exact absurd hs (Payment.failureStatus_ne _ (by decide) (by decide))
      | expired ha hlink hi => cases hs
  remaining := by
    intro j remaining hj
    rcases h.sweep_cases hj with hold | ⟨cutoff, ids, hbatch⟩ | ⟨row, hold⟩
    · exact n.remaining hold
    · exact n.batch hbatch
    · intro r hr
      exact n.remaining hold r (List.mem_cons_of_mem row hr)
  queried := by
    intro pid he
    rcases h.mem_log he with hold | hlogs
    · exact n.queried pid hold
    · cases hlogs with
      | statusQueried hi hreceipt =>
        rw [n.hasReceipt_eq_false hi] at hreceipt
        cases hreceipt

theorem Reachable.noReceiptRead (h : Reachable settings w) : NoReceiptRead w := by
  apply Machine.Reachable.invariant h noReceiptRead_init
  intro u a v _ n hstep
  exact n.step (move_of_step hstep)

theorem visitRow_eq (link : Link) {row : StaleRow} (rest : List StaleRow)
    (h : row.hasReceipt = false) :
    w.visitRow i link row rest =
      { w with payments := (commit link w.payments (w.payments.expire w.now row.id)).1 }.setTask i
        (.sweep (.rows rest)) := by
  simp [World.visitRow, h]

theorem NoReceiptRead.write_eq_some (n : NoReceiptRead w) {link : Link} {row : StaleRow}
    {rest : List StaleRow} (hi : w.tasks i = some (.sweep (.rows (row :: rest))))
    (h : World.step settings w (.write i link) = some w') :
    w' = { w with payments := (commit link w.payments (w.payments.expire w.now row.id)).1 }.setTask
      i (.sweep (.rows rest)) := by
  rw [← visitRow_eq link rest (n.hasReceipt_eq_false hi)]
  simpa [World.step, hi, eq_comm] using h

/-- In every run the receipts that a sweep selects are NULL, each of its visits runs the FAILED
update of one row and nothing else, and no status is ever asked for. -/
theorem sweeps_never_query (hw : Reachable settings w) :
    (∀ cutoff ids batch, w.payments.staleBatch cutoff ids = some batch →
      ∀ row ∈ batch, row.mpesaReceipt = none) ∧
    (∀ i link row rest w', w.tasks i = some (.sweep (.rows (row :: rest))) →
      World.step settings w (.write i link) = some w' →
        w' = { w with
          payments := (commit link w.payments (w.payments.update row.id fun p =>
            { p with
              status := .failed
              failureReason := some "No callback received within 10 mins"
              resultCode := some (-99)
              updatedAt := w.now })).1 }.setTask i (.sweep (.rows rest))) ∧
    ∀ pid, .statusQueried pid ∉ w.log := by
  have hdry := hw.noReceiptRead
  refine ⟨fun cutoff ids batch hbatch => hdry.batch hbatch, ?_, hdry.queried⟩
  intro i link row rest w' hi hstep
  exact hdry.write_eq_some hi hstep

/-- The sample payment is never called back, and a sweep selects it. -/
def staleSelection : List Action :=
  sampleInitiation 0 7 ++ [.tick 700, .startSweep 1, .select 1 [7] .up]

theorem staleSelection_enabled :
    (Machine.run (World.step {}) init staleSelection).isSome = true := by decide +kernel

theorem sweeps_never_query_sample :
    .statusQueried 7 ∉ (after {} _ staleSelection_enabled).log :=
  (sweeps_never_query (reachable_after staleSelection_enabled)).2.2 7

/-- A run of the task during which nothing else runs. `wait` is the time that passes before the
update of a row and `link` what becomes of that update. -/
structure SoloSweep where
  task : ℕ
  delay : ℚ
  ids : List UUID
  wait : UUID → ℚ
  link : UUID → Link
  pause : ℚ

def SoloSweep.visits (s : SoloSweep) (ids : List UUID) : List Action :=
  ids.flatMap fun id => [.tick (s.wait id), .write s.task (s.link id)]

def SoloSweep.actions (s : SoloSweep) : List Action :=
  .startSweep s.task :: .tick s.delay :: .select s.task s.ids .up ::
    (s.visits s.ids ++ [.tick s.pause])

/-- The sweep can begin in this state: its task is new, time does not run backwards, and its rows
are some that the LIMIT may return. Which of their updates fail is not restricted. -/
structure SoloSweep.Starts (s : SoloSweep) (w : World) : Prop where
  task : w.tasks s.task = none
  delay : 0 ≤ s.delay
  wait : ∀ id, 0 ≤ s.wait id
  pause : 0 ≤ s.pause
  nodup : s.ids.Nodup
  stale : s.ids ⊆ (w.payments.rows.filter (isStale (w.now - staleAge))).map (·.id)
  limit : s.ids.length =
    min batchSize (w.payments.rows.filter (isStale (w.now - staleAge))).length

/-- Each sweep can begin where the one before it has ended. -/
def Successive (settings : Settings) (w : World) (sweeps : List SoloSweep) : Prop :=
  Machine.Meets (fun u (s : SoloSweep) => Machine.run (World.step settings) u s.actions)
    (fun u s => s.Starts u) w sweeps

/-- What becomes of a row: it is failed when it was selected and its own update did not fail. -/
inductive Swept (selected : List UUID) (link : UUID → Link) (p : Payment) : Payment → Prop
  | failed (hid : p.id ∈ selected) (hlink : link p.id ≠ .down) (now : ℚ) :
      Swept selected link p
        { p with
          status := .failed
          failureReason := some "No callback received within 10 mins"
          resultCode := some (-99)
          updatedAt := now }
  | kept (h : ¬ (p.id ∈ selected ∧ link p.id ≠ .down)) : Swept selected link p p

theorem expire_isSome (t : PaymentsTable) (now : ℚ) (id : UUID) :
    (t.expire now id).isSome = true := by
  rw [PaymentsTable.expire, PaymentsTable.update_isSome_iff (f := Payment.withExpiry now)
    (fun _ => rfl) (fun _ => rfl) fun _ => rfl]
  intro p hp _
  rw [Payment.withExpiry_eq]
  exact (columnsOk_withFailure (t.constraints.columns p hp)).mpr ⟨by decide, by decide⟩

theorem rows_commit_expire (link : Link) (t : PaymentsTable) (now : ℚ) (id : UUID) :
    (commit link t (t.expire now id)).1.rows =
      if link = .down then t.rows else Rows.update (·.id) id (Payment.withExpiry now) t.rows := by
  obtain ⟨t', ht'⟩ := Option.isSome_iff_exists.mp (expire_isSome t now id)
  rw [ht', ← PaymentsTable.update_eq_some ht']
  cases link <;> rfl

theorem Swept.cons {selected : List UUID} {link : UUID → Link} {id : UUID} {now : ℚ}
    {p q : Payment}
    (h : Swept selected link (if p.id = id ∧ link id ≠ .down then p.withExpiry now else p) q) :
    Swept (id :: selected) link p q := by
  by_cases hid : p.id = id ∧ link id ≠ .down
  · obtain ⟨rfl, hlink⟩ := hid
    rw [if_pos ⟨rfl, hlink⟩] at h
    cases h with
    | failed _ _ later => exact .failed List.mem_cons_self hlink later
    | kept _ => exact .failed List.mem_cons_self hlink now
  · rw [if_neg hid] at h
    cases h with
    | failed hmem hlink later => exact .failed (List.mem_cons_of_mem id hmem) hlink later
    | kept hfree =>
      apply Swept.kept
      rintro ⟨hmem, hlink⟩
      rcases List.mem_cons.mp hmem with heq | hmem
      · exact hid ⟨heq, heq ▸ hlink⟩
      · exact hfree ⟨hmem, hlink⟩

/-- One update of a sweep, row by row. -/
theorem forall₂_expire {t : PaymentsTable} {rows : List Payment} {selected : List UUID}
    {link : UUID → Link} (now : ℚ) (id : UUID)
    (h : List.Forall₂ (Swept selected link)
      (commit (link id) t (t.expire now id)).1.rows rows) :
    List.Forall₂ (Swept (id :: selected) link) t.rows rows := by
  have hmap : (commit (link id) t (t.expire now id)).1.rows =
      t.rows.map fun p => if p.id = id ∧ link id ≠ .down then p.withExpiry now else p := by
    rw [rows_commit_expire]
    by_cases hlink : link id = .down
    · simp [hlink]
    · simp [hlink, Rows.update]
  rw [hmap, List.forall₂_map_left_iff] at h
  exact h.imp fun p q hpq => hpq.cons

theorem NoReceiptRead.visits (n : NoReceiptRead w) {s : SoloSweep} {remaining : List StaleRow}
    (hi : w.tasks s.task = some (.sweep (.rows remaining)))
    (hrun : Machine.run (World.step settings) w (s.visits (remaining.map (·.id))) = some w') :
    List.Forall₂ (Swept (remaining.map (·.id)) s.link) w.payments.rows w'.payments.rows ∧
      w.now ≤ w'.now := by
  induction remaining generalizing w with
  | nil =>
    cases hrun
    refine ⟨?_, le_rfl⟩
    rw [List.forall₂_same]
    intro p _
    exact .kept (by simp)
  | cons row rest ih =>
    obtain ⟨u, hu, hrun⟩ := Machine.run_cons.mp hrun
    obtain ⟨v, hv, hrun⟩ := Machine.run_cons.mp hrun
    have nu : NoReceiptRead u := n.step (move_of_step hu)
    have hi' : u.tasks s.task = some (.sweep (.rows (row :: rest))) := by
      cases move_of_step hu
      exact hi
    have htime : w.payments = u.payments ∧ w.now ≤ u.now := by
      cases move_of_step hu with
      | tick hd => exact ⟨rfl, le_add_of_nonneg_right hd⟩
    have hwrite := nu.write_eq_some hi' hv
    have hrest : v.tasks s.task = some (.sweep (.rows rest)) := by
      rw [hwrite]
      exact Function.update_self ..
    obtain ⟨hswept, hnow⟩ := ih (nu.step (move_of_step hv)) hrest hrun
    rw [hwrite] at hswept hnow
    rw [htime.1]
    exact ⟨forall₂_expire u.now row.id hswept, htime.2.trans hnow⟩

/-- A batch is visited to its end, whatever becomes of its updates. -/
theorem exists_run_visits (settings : Settings) {s : SoloSweep} {remaining : List StaleRow}
    (hi : w.tasks s.task = some (.sweep (.rows remaining))) (hwait : ∀ id, 0 ≤ s.wait id) :
    ∃ w', Machine.run (World.step settings) w (s.visits (remaining.map (·.id))) = some w' ∧
      w'.tasks s.task = some (.sweep (.rows [])) := by
  induction remaining generalizing w with
  | nil => exact ⟨w, rfl, hi⟩
  | cons row rest ih =>
    let u : World := { w with now := w.now + s.wait row.id }
    have hu : World.step settings w (.tick (s.wait row.id)) = some u :=
      step_of_move (.tick (hwait row.id))
    have hv : World.step settings u (.write s.task (s.link row.id)) =
        some (u.visitRow s.task (s.link row.id) row rest) := step_of_move (.visitRow _ hi)
    have hrest : (u.visitRow s.task (s.link row.id) row rest).tasks s.task =
        some (.sweep (.rows rest)) := by
      unfold World.visitRow
      split_ifs <;> exact Function.update_self ..
    obtain ⟨w', hrun, hend⟩ := ih hrest
    exact ⟨w', Machine.run_cons.mpr ⟨u, hu, Machine.run_cons.mpr ⟨_, hv, hrun⟩⟩, hend⟩

theorem staleBatch_eq_some {t : PaymentsTable} {cutoff : ℚ} {ids : List UUID}
    {batch : List StaleRow} (h : t.staleBatch cutoff ids = some batch) :
    batch.map (·.id) = ids ∧ ids.Nodup ∧ ids ⊆ (t.rows.filter (isStale cutoff)).map (·.id) ∧
      ids.length = min batchSize (t.rows.filter (isStale cutoff)).length := by
  simp only [PaymentsTable.staleBatch] at h
  split_ifs at h with hids
  cases h
  obtain ⟨hnodup, hsubset, hlength⟩ := hids
  refine ⟨?_, hnodup, hsubset, hlength⟩
  have hfound : ∀ id ∈ ids, ∃ p, t.getById id = some p ∧ p.id = id := by
    intro id hid
    obtain ⟨p, hp, rfl⟩ := List.mem_map.mp (hsubset hid)
    have hmem := (List.mem_filter.mp hp).1
    exact ⟨p, Rows.find?_eq_some t.constraints.id hmem rfl, rfl⟩
  clear hnodup hsubset hlength
  induction ids with
  | nil => rfl
  | cons id ids ih =>
    obtain ⟨p, hp, hid⟩ := hfound id List.mem_cons_self
    rw [List.filterMap_cons_some hp, List.map_cons, List.map_cons,
      ih fun id' hid' => hfound id' (List.mem_cons_of_mem id hid')]
    exact congrArg (· :: ids) hid

theorem SoloSweep.Starts.exists_run (settings : Settings) {s : SoloSweep} (h : s.Starts w) :
    ∃ w', Machine.run (World.step settings) w s.actions = some w' ∧
      w'.tasks s.task = some (.sweep (.rows [])) := by
  let u : World := w.setTask s.task (.sweep (.select (w.now - staleAge)))
  have hu : World.step settings w (.startSweep s.task) = some u :=
    step_of_move (.startSweep h.task)
  let v : World := { u with now := u.now + s.delay }
  have hv : World.step settings u (.tick s.delay) = some v := step_of_move (.tick h.delay)
  obtain ⟨batch, hbatch⟩ : ∃ batch, w.payments.staleBatch (w.now - staleAge) s.ids = some batch :=
    ⟨_, if_pos ⟨h.nodup, h.stale, h.limit⟩⟩
  have hx : World.step settings v (.select s.task s.ids .up) =
      some (v.selectStale s.task .up batch) :=
    step_of_move (.selectStale .up (Function.update_self ..) hbatch)
  obtain ⟨hids, -⟩ := staleBatch_eq_some hbatch
  have hrows : (v.selectStale s.task .up batch).tasks s.task = some (.sweep (.rows batch)) :=
    Function.update_self ..
  obtain ⟨y, hvisits, hend⟩ := exists_run_visits settings hrows h.wait
  rw [hids] at hvisits
  let z : World := { y with now := y.now + s.pause }
  have hz : World.step settings y (.tick s.pause) = some z := step_of_move (.tick h.pause)
  have hlast : Machine.run (World.step settings) y [.tick s.pause] = some z :=
    Machine.run_cons.mpr ⟨z, hz, rfl⟩
  exact ⟨z, Machine.run_cons.mpr ⟨u, hu, Machine.run_cons.mpr ⟨v, hv, Machine.run_cons.mpr
    ⟨_, hx, Machine.run_append.mpr ⟨y, hvisits, hlast⟩⟩⟩⟩, hend⟩

theorem Reachable.solo (hw : Reachable settings w) {s : SoloSweep}
    (hrun : Machine.run (World.step settings) w s.actions = some w') :
    (∃ batch, w.payments.staleBatch (w.now - staleAge) s.ids = some batch) ∧
      List.Forall₂ (Swept s.ids s.link) w.payments.rows w'.payments.rows ∧ w.now ≤ w'.now := by
  have n := hw.noReceiptRead
  obtain ⟨u₁, h₁, hrun⟩ := Machine.run_cons.mp hrun
  obtain ⟨u₂, h₂, hrun⟩ := Machine.run_cons.mp hrun
  obtain ⟨u₃, h₃, hrun⟩ := Machine.run_cons.mp hrun
  obtain ⟨u₄, hvisits, hrun⟩ := Machine.run_append.mp hrun
  obtain ⟨u₅, h₅, hend⟩ := Machine.run_cons.mp hrun
  cases hend
  have n₁ := n.step (move_of_step h₁)
  have n₂ := n₁.step (move_of_step h₂)
  have n₃ := n₂.step (move_of_step h₃)
  cases move_of_step h₁ with
  | startSweep hi =>
  cases move_of_step h₂ with
  | tick hd =>
  cases move_of_step h₃ with
  | selectStale link hselect hbatch =>
  cases move_of_step h₅ with
  | tick hd' =>
    have hcutoff := hselect.symm.trans (Function.update_self ..)
    cases hcutoff
    obtain ⟨hids, -⟩ := staleBatch_eq_some hbatch
    rw [← hids] at hvisits
    obtain ⟨hswept, hnow⟩ := n₃.visits (Function.update_self ..) hvisits
    rw [hids] at hswept
    refine ⟨⟨_, hbatch⟩, hswept, ?_⟩
    have hstart : w.now ≤ w.now + s.delay := le_add_of_nonneg_right hd
    exact (hstart.trans hnow).trans (le_add_of_nonneg_right hd')

def pendingCount (t : PaymentsTable) : ℕ := t.rows.countP fun p => p.status = .pending

/-- Some payment is PENDING that was created before the cutoff. -/
def Backlogged (cutoff : ℚ) (t : PaymentsTable) : Prop := ∃ p ∈ t.rows, isStale cutoff p = true

theorem not_backlogged_of_pendingCount {t : PaymentsTable} (cutoff : ℚ) (h : pendingCount t = 0) :
    ¬ Backlogged cutoff t := by
  rintro ⟨p, hp, hstale⟩
  have hnone := List.countP_eq_zero.mp h p hp
  simp [isStale_pending hstale] at hnone

theorem Swept.pending {selected : List UUID} {link : UUID → Link} {p q : Payment}
    (h : Swept selected link p q) (hs : q.status = .pending) :
    q = p ∧ ¬ (p.id ∈ selected ∧ link p.id ≠ .down) := by
  cases h with
  | failed => cases hs
  | kept hfree => exact ⟨rfl, hfree⟩

theorem countP_pending_of_swept {rows rows' : List Payment} {ids : List UUID} {link : UUID → Link}
    (hlink : ∀ id ∈ ids, link id ≠ .down) (h : List.Forall₂ (Swept ids link) rows rows') :
    (rows'.countP fun p => p.status = .pending) =
      rows.countP fun p => p.status = .pending && p.id ∉ ids := by
  induction h with
  | nil => rfl
  | @cons p q rows rows' hpq hrest ih =>
    rw [List.countP_cons, List.countP_cons, ih]
    cases hpq with
    | failed hid _ now => simp [hid]
    | kept hfree =>
      have hid : p.id ∉ ids := fun hmem => hfree ⟨hmem, hlink p.id hmem⟩
      simp [hid]

/-- As many rows stop being PENDING as were selected. -/
theorem pendingCount_of_swept {t t' : PaymentsTable} {ids : List UUID} {link : UUID → Link}
    {cutoff : ℚ} (hnodup : ids.Nodup) (hsubset : ids ⊆ (t.rows.filter (isStale cutoff)).map (·.id))
    (hlink : ∀ id ∈ ids, link id ≠ .down) (h : List.Forall₂ (Swept ids link) t.rows t'.rows) :
    pendingCount t' + ids.length ≤ pendingCount t := by
  have hselected : ids.length ≤
      (t.rows.filter fun p => p.id ∈ ids).countP fun p => p.status = .pending := by
    have hids : ids ⊆ ((t.rows.filter fun p => p.id ∈ ids).filter fun p =>
        p.status = .pending).map (·.id) := by
      intro id hid
      obtain ⟨p, hp, rfl⟩ := List.mem_map.mp (hsubset hid)
      obtain ⟨hmem, hstale⟩ := List.mem_filter.mp hp
      apply List.mem_map_of_mem
      simp [hmem, hid, isStale_pending hstale]
    have hle := (List.subperm_of_subset hnodup hids).length_le
    rwa [List.length_map, ← List.countP_eq_length_filter] at hle
  have hrest : pendingCount t' =
      (t.rows.filter fun p => !decide (p.id ∈ ids)).countP fun p => p.status = .pending := by
    rw [pendingCount, countP_pending_of_swept hlink h, List.countP_filter]
    simp
  rw [hrest, pendingCount, List.countP_eq_countP_filter_add t.rows _ fun p => p.id ∈ ids]
  omega

theorem pending_of_swept {rows rows' : List Payment} {ids : List UUID} {link : UUID → Link}
    (hlink : ∀ id ∈ ids, link id ≠ .down) (h : List.Forall₂ (Swept ids link) rows rows')
    {q : Payment} (hq : q ∈ rows') (hs : q.status = .pending) : q ∈ rows ∧ q.id ∉ ids := by
  induction h with
  | nil => cases hq
  | @cons p q' rows rows' hpq hrest ih =>
    rcases List.mem_cons.mp hq with rfl | hq
    · obtain ⟨rfl, hfree⟩ := hpq.pending hs
      exact ⟨List.mem_cons_self, fun hid => hfree ⟨hid, hlink _ hid⟩⟩
    · obtain ⟨hmem, hid⟩ := ih hq
      exact ⟨List.mem_cons_of_mem p hmem, hid⟩

/-- A sweep without failing updates that leaves a backlog has failed a whole batch. -/
theorem Reachable.solo_backlogged (hw : Reachable settings w) {s : SoloSweep} {cutoff : ℚ}
    (hlink : ∀ id ∈ s.ids, s.link id ≠ .down) (hcutoff : cutoff ≤ w.now - staleAge)
    (hrun : Machine.run (World.step settings) w s.actions = some w')
    (hdue : Backlogged cutoff w'.payments) :
    Backlogged cutoff w.payments ∧
      pendingCount w'.payments + batchSize ≤ pendingCount w.payments := by
  obtain ⟨⟨batch, hbatch⟩, hswept, -⟩ := hw.solo hrun
  obtain ⟨-, hnodup, hsubset, hlength⟩ := staleBatch_eq_some hbatch
  obtain ⟨q, hq, hstale⟩ := hdue
  obtain ⟨hmem, hfree⟩ := pending_of_swept hlink hswept hq (isStale_pending hstale)
  refine ⟨⟨q, hmem, hstale⟩, ?_⟩
  have hstill : isStale (w.now - staleAge) q = true := by
    simp only [isStale, Bool.and_eq_true, decide_eq_true_eq] at hstale ⊢
    exact ⟨hstale.1, hstale.2.trans_le hcutoff⟩
  -- a row was left out although it was stale, so the batch was full
  have hfull : s.ids.length = batchSize := by
    by_contra hne
    have hall : ((w.payments.rows.filter (isStale (w.now - staleAge))).map (·.id)).length ≤
        s.ids.length := by
      rw [List.length_map]
      omega
    have hperm := (List.subperm_of_subset hnodup hsubset).perm_of_length_le hall
    apply hfree
    apply hperm.mem_iff.mpr
    exact List.mem_map_of_mem (List.mem_filter.mpr ⟨hmem, hstill⟩)
  rw [← hfull]
  exact pendingCount_of_swept hnodup hsubset hlink hswept

/-- Sweeps on their own, one after the other, none of whose updates fails. -/
theorem Reachable.drained (hw : Reachable settings w) {sweeps : List SoloSweep}
    (hlink : ∀ s ∈ sweeps, ∀ id ∈ s.ids, s.link id ≠ .down)
    (hrun : Machine.run (World.step settings) w (sweeps.flatMap (·.actions)) = some w')
    (henough : pendingCount w.payments ≤ batchSize * sweeps.length) :
    ¬ Backlogged (w.now - staleAge) w'.payments := by
  intro hdue
  rw [Machine.run_flatMap] at hrun
  have hkept : ∀ (u : World) (s : SoloSweep) (v : World), Reachable settings u ∧ w.now ≤ u.now →
      Machine.run (World.step settings) u s.actions = some v →
        Reachable settings v ∧ w.now ≤ v.now := by
    rintro u s v ⟨hu, hnow⟩ hround
    exact ⟨hu.run hround, hnow.trans (hu.solo hround).2.2⟩
  have hround : ∀ u v, ∀ s ∈ sweeps, Reachable settings u ∧ w.now ≤ u.now →
      Machine.run (World.step settings) u s.actions = some v →
        Backlogged (w.now - staleAge) v.payments → Backlogged (w.now - staleAge) u.payments ∧
          pendingCount v.payments + batchSize ≤ pendingCount u.payments := by
    rintro u v s hs ⟨hu, hnow⟩ hround hleft
    exact hu.solo_backlogged (hlink s hs) (sub_le_sub_right hnow _) hround hleft
  obtain ⟨-, hsize⟩ := Machine.backlog_le_of_due _
    (fun u => Backlogged (w.now - staleAge) u.payments) (fun u => pendingCount u.payments)
    hkept hround ⟨hw, le_rfl⟩ hrun hdue
  refine not_backlogged_of_pendingCount _ ?_ hdue
  omega

theorem Successive.exists_run {sweeps : List SoloSweep} (h : Successive settings w sweeps) :
    ∃ w', Machine.run (World.step settings) w (sweeps.flatMap (·.actions)) = some w' := by
  obtain ⟨w', hrun⟩ := Machine.exists_run_of_meets (P := fun _ => True) trivial
    (fun u s _ hstarts => by
      obtain ⟨v, hv, -⟩ := hstarts.exists_run settings
      exact ⟨v, hv, trivial⟩) h
  exact ⟨w', Machine.run_flatMap.mpr hrun⟩

/-- A sweep on its own visits every row that it selected, fails those whose own update goes
through and changes nothing else, whichever updates fail; and sweeps whose updates go through work
off the backlog in as many runs as there are batches of PENDING rows, whichever rows each of them
selects. -/
theorem sweep_isolated_and_drains (hw : Reachable settings w) :
    (∀ s : SoloSweep, s.Starts w →
      ∃ w', Machine.run (World.step settings) w s.actions = some w' ∧
        w'.tasks s.task = some (.sweep (.rows [])) ∧
        List.Forall₂ (Swept s.ids s.link) w.payments.rows w'.payments.rows) ∧
    ∀ sweeps : List SoloSweep, Successive settings w sweeps →
      (∀ s ∈ sweeps, ∀ id ∈ s.ids, s.link id ≠ .down) →
      ⌈(pendingCount w.payments : ℚ) / batchSize⌉₊ ≤ sweeps.length →
        ∃ w', Machine.run (World.step settings) w (sweeps.flatMap (·.actions)) = some w' ∧
          ¬ Backlogged (w.now - staleAge) w'.payments := by
  constructor
  · intro s hstarts
    obtain ⟨w', hrun, hend⟩ := hstarts.exists_run settings
    exact ⟨w', hrun, hend, (hw.solo hrun).2.1⟩
  · intro sweeps hsuccessive hlink hlength
    obtain ⟨w', hrun⟩ := hsuccessive.exists_run
    refine ⟨w', hrun, hw.drained hlink hrun ?_⟩
    rw [Nat.ceil_le, div_le_iff₀' (by decide)] at hlength
    exact_mod_cast hlength

def staleSample : List Action :=
  sampleInitiation 0 7 ++ anotherInitiation 1 8 ++ [.tick 700]

theorem staleSample_enabled : (Machine.run (World.step {}) init staleSample).isSome = true := by
  decide +kernel

def sampleSweep (link : UUID → Link) : SoloSweep where
  task := 2
  delay := 0
  ids := [8, 7]
  wait := fun _ => 1
  link := link
  pause := 300

theorem sampleSweep_starts (link : UUID → Link) :
    (sampleSweep link).Starts (after {} _ staleSample_enabled) where
  task := by
    have hfree : ((after {} _ staleSample_enabled).tasks 2).isNone = true := by decide +kernel
    exact Option.isNone_iff_eq_none.mp hfree
  delay := le_rfl
  wait _ := zero_le_one
  pause := (by norm_num : (0 : ℚ) ≤ 300)
  nodup := (by decide : ([8, 7] : List UUID).Nodup)
  stale := by
    change [8, 7] ⊆ _
    decide +kernel
  limit := by
    change 2 = _
    decide +kernel

/-- The update of one of the two rows fails, and the other row is failed all the same; where both
go through, one sweep is enough. -/
theorem sweep_isolated_and_drains_sample :
    (∃ w', Machine.run (World.step {}) (after {} _ staleSample_enabled)
        (sampleSweep fun id => if id = 8 then .down else .up).actions = some w' ∧
      w'.tasks 2 = some (.sweep (.rows [])) ∧
      List.Forall₂ (Swept [8, 7] fun id => if id = 8 then .down else .up)
        (after {} _ staleSample_enabled).payments.rows w'.payments.rows) ∧
    ∃ w', Machine.run (World.step {}) (after {} _ staleSample_enabled)
        ([sampleSweep fun _ => .up].flatMap (·.actions)) = some w' ∧
      ¬ Backlogged ((after {} _ staleSample_enabled).now - staleAge) w'.payments := by
  have hw : Reachable {} (after {} _ staleSample_enabled) := reachable_after staleSample_enabled
  exact ⟨(sweep_isolated_and_drains hw).1 _ (sampleSweep_starts _),
    (sweep_isolated_and_drains hw).2 _ ⟨sampleSweep_starts _, fun _ _ => trivial⟩
      (by simp [sampleSweep]) (by decide +kernel)⟩

end World
end DarajaWrapper
