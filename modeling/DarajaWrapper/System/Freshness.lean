import DarajaWrapper.System.Sweep

/-!
# Fresh payments are left alone

A sweep updates rows by their identifier alone, in transactions long behind the SELECT
that found them stale, and other writers have had their turn in between. What no
writer touches is the time at which a row was created; so what a sweep writes to is
still a payment older than the stale age, and each of them is written to once.
-/

namespace DarajaWrapper
namespace World

variable {settings : Settings} {w w' : World} {a : Action} {i : ℕ} {row : StaleRow}
  {remaining rest : List StaleRow}

theorem Move.now_le (h : Move settings w a w') : w.now ≤ w'.now := by
  cases h with
  | tick hd => exact le_add_of_nonneg_right hd
  | visitRow link hi =>
    unfold World.visitRow
    split_ifs <;> exact le_rfl
  | _ => exact le_rfl

theorem Move.select_cases {cutoff : ℚ} (h : Move settings w a w')
    (hi : w'.tasks i = some (.sweep (.select cutoff))) :
    w.tasks i = some (.sweep (.select cutoff)) ∨ cutoff = w.now - staleAge := by
  by_cases hact : a.task? = some i
  · cases h with
    | tick | evictIdem | expireLock | expireDedup => cases hact
    | startSweep hj =>
      cases hact
      cases setTask_inj hi
      exact Or.inr rfl
    | crash hj hlive =>
      rename_i task
      cases hact
      have htask := setTask_inj hi
      cases task <;> cases htask
    | selectStale link hj hbatch =>
      cases hact
      have htask := setTask_inj hi
      split_ifs at htask <;> cases htask
    | visitRow link hj =>
      cases hact
      unfold World.visitRow at hi
      split_ifs at hi <;> cases setTask_inj hi
    | _ =>
      cases hact
      cases setTask_inj hi
  · exact Or.inl (h.tasks_of_ne hact ▸ hi)

/-- The rows that a sweep has yet to visit come from its SELECT, at the cutoff that it has fixed. -/
theorem Move.batch_cases (h : Move settings w a w')
    (hi : w'.tasks i = some (.sweep (.rows remaining))) :
    w.tasks i = some (.sweep (.rows remaining)) ∨
      (∃ row, w.tasks i = some (.sweep (.rows (row :: remaining)))) ∨
      ∃ cutoff ids, w.tasks i = some (.sweep (.select cutoff)) ∧
        w.payments.staleBatch cutoff ids = some remaining := by
  by_cases hact : a.task? = some i
  · refine Or.inr ?_
    cases h with
    | tick | evictIdem | expireLock | expireDedup => cases hact
    | selectStale link hj hbatch =>
      cases hact
      have htask := setTask_inj hi
      split_ifs at htask <;> cases htask
      exact Or.inr ⟨_, _, hj, hbatch⟩
    | @visitRow _ row rest link hj =>
      cases hact
      unfold World.visitRow at hi
      split_ifs at hi <;> cases setTask_inj hi <;> exact Or.inl ⟨row, hj⟩
    | @crash _ task hj hlive =>
      cases hact
      have htask := setTask_inj hi
      cases task <;> cases htask
    | _ =>
      cases hact
      cases setTask_inj hi
  · exact Or.inl (h.tasks_of_ne hact ▸ hi)

def Aged (w : World) (id : UUID) : Prop :=
  ∃ p ∈ w.payments.rows, p.id = id ∧ p.createdAt + staleAge < w.now

theorem Aged.step {id : UUID} (hw : w.Aged id) (h : Move settings w a w') : w'.Aged id := by
  obtain ⟨p, hp, hid, hage⟩ := hw
  obtain ⟨q, hq, hchange⟩ := h.row_next hp
  refine ⟨q, hq, hchange.sameIdentity.id.trans hid, ?_⟩
  rw [hchange.sameIdentity.createdAt]
  exact hage.trans_le h.now_le

/-- The cutoff of a sweep lies back by the stale age, and the rows that it has yet to visit are
different payments, all older than that. -/
structure SweepsAged (w : World) : Prop where
  cutoff : ∀ {i cutoff}, w.tasks i = some (.sweep (.select cutoff)) → cutoff + staleAge ≤ w.now
  distinct : ∀ {i remaining}, w.tasks i = some (.sweep (.rows remaining)) →
    (remaining.map (·.id)).Nodup
  aged : ∀ {i remaining}, w.tasks i = some (.sweep (.rows remaining)) →
    ∀ row ∈ remaining, w.Aged row.id

theorem sweepsAged_init : SweepsAged init where
  cutoff h := by cases h
  distinct h := by cases h
  aged h := by cases h

namespace SweepsAged

theorem cutoff_step {cutoff : ℚ} (s : SweepsAged w) (h : Move settings w a w')
    (hi : w'.tasks i = some (.sweep (.select cutoff))) : cutoff + staleAge ≤ w'.now := by
  rcases h.select_cases hi with hbefore | rfl
  · exact (s.cutoff hbefore).trans h.now_le
  · rw [sub_add_cancel]
    exact h.now_le

theorem distinct_step (s : SweepsAged w) (h : Move settings w a w')
    (hi : w'.tasks i = some (.sweep (.rows remaining))) : (remaining.map (·.id)).Nodup := by
  rcases h.batch_cases hi with hbefore | ⟨_, hbefore⟩ | ⟨cutoff, ids, -, hbatch⟩
  · exact s.distinct hbefore
  · exact (List.nodup_cons.mp (s.distinct hbefore)).2
  · obtain ⟨hids, hnodup, -⟩ := staleBatch_eq_some hbatch
    exact hids ▸ hnodup

theorem aged_step (s : SweepsAged w) (h : Move settings w a w')
    (hi : w'.tasks i = some (.sweep (.rows remaining))) (hrow : row ∈ remaining) :
    w'.Aged row.id := by
  rcases h.batch_cases hi with hbefore | ⟨row', hbefore⟩ | ⟨cutoff, ids, hselect, hbatch⟩
  · exact (s.aged hbefore row hrow).step h
  · exact (s.aged hbefore row (List.mem_cons_of_mem row' hrow)).step h
  · obtain ⟨p, hp, hstale, rfl⟩ := mem_staleBatch hbatch hrow
    have hcutoff : cutoff + staleAge ≤ w.now := s.cutoff hselect
    have hcreated : p.createdAt < cutoff := by
      simp only [isStale, Bool.and_eq_true, decide_eq_true_eq] at hstale
      exact hstale.2
    have haged : w.Aged p.id := ⟨p, hp, rfl, by linarith⟩
    exact haged.step h

theorem step (s : SweepsAged w) (h : Move settings w a w') : SweepsAged w' where
  cutoff := s.cutoff_step h
  distinct := s.distinct_step h
  aged hi _ hrow := s.aged_step h hi hrow

end SweepsAged

theorem Reachable.sweepsAged (h : Reachable settings w) : SweepsAged w := by
  apply Machine.Reachable.invariant h sweepsAged_init
  intro u a v _ hu hstep
  exact hu.step (move_of_step hstep)

/-- Of every payment but one a sweep writes nothing, and that one is older than ten minutes. It is
failed then, and not written to by this sweep again. -/
theorem sweep_spares_fresh (hw : Reachable settings w) {link : Link}
    (hi : w.tasks i = some (.sweep (.rows (row :: rest))))
    (hstep : step settings w (.write i link) = some w') {p : Payment}
    (hp : p ∈ w.payments.rows) :
    p ∈ w'.payments.rows ∨ p.id = row.id ∧ p.createdAt + 600 < w.now ∧
      p.withExpiry w.now ∈ w'.payments.rows ∧ ∀ row' ∈ rest, row'.id ≠ p.id := by
  rw [hw.noReceiptRead.write_eq_some hi hstep, setTask_payments]
  rcases commit_fst with hsame | ⟨-, ht⟩
  · rw [hsame]
    exact Or.inl hp
  · by_cases hid : p.id = row.id
    · refine Or.inr ⟨hid, ?_, PaymentsTable.mem_update_self ht hp hid, ?_⟩
      · obtain ⟨q, hq, hqid, hage⟩ := hw.sweepsAged.aged hi row List.mem_cons_self
        rwa [w.payments.eq_of_id_eq hq hp (hqid.trans hid.symm)] at hage
      · intro row' hrow' heq
        have hdistinct := (List.nodup_cons.mp (hw.sweepsAged.distinct hi)).1
        exact hdistinct (List.mem_map.mpr ⟨row', hrow', heq.trans hid⟩)
    · exact Or.inl (PaymentsTable.mem_update_other ht hp hid)

/-- The rows that a sweep has yet to visit. -/
def rowsLeft? (w : World) (i : ℕ) : Option (List StaleRow) :=
  match w.tasks i with
  | some (.sweep (.rows remaining)) => some remaining
  | _ => none

theorem rowsLeft?_eq_some (h : w.rowsLeft? i = some remaining) :
    w.tasks i = some (.sweep (.rows remaining)) := by
  unfold rowsLeft? at h
  split at h
  · cases h
    assumption
  · cases h

theorem sweep_spares_fresh_sample :
    ∃ w', step {} (after {} _ staleSelection_enabled) (.write 1 .up) = some w' ∧
      ∀ p ∈ (after {} _ staleSelection_enabled).payments.rows,
        p ∈ w'.payments.rows ∨ p.id = 7 ∧
          p.createdAt + 600 < (after {} _ staleSelection_enabled).now ∧
          p.withExpiry (after {} _ staleSelection_enabled).now ∈ w'.payments.rows ∧
          ∀ row' ∈ ([] : List StaleRow), row'.id ≠ p.id := by
  have hi : (after {} _ staleSelection_enabled).tasks 1 = some (.sweep (.rows [⟨7, none⟩])) :=
    rowsLeft?_eq_some (by decide +kernel)
  have hstep := @step_of_move {} _ _ _ (.visitRow .up hi)
  refine ⟨_, hstep, ?_⟩
  intro p hp
  exact sweep_spares_fresh (reachable_after staleSelection_enabled) hi hstep hp

end World
end DarajaWrapper
