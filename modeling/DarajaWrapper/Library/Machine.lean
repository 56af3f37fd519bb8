import Mathlib.Data.List.Basic
import Mathlib.Tactic.Common

/-!
# Runs of a partial step function

A machine is a step function `σ → α → Option σ`: `none` says that the action is
not enabled. A run is a list of actions, so a statement about every schedule
is a statement about every list. The rules below are the only inductions over
runs that a development needs: an invariant, an invariant under a condition on
the steps, a relation between the two ends of a run, a backlog that every step
works off, and the step at which a fact first became true.
-/

namespace Machine

variable {σ α : Type*} (step : σ → α → Option σ)

/-- Take the actions in order; `none` as soon as one of them is not enabled. -/
def run : σ → List α → Option σ
  | s, [] => some s
  | s, a :: as => (step s a).bind fun t => run t as

/-- Every step of the run is taken in a state where `ok` allows it. -/
def Meets (ok : σ → α → Prop) : σ → List α → Prop
  | _, [] => True
  | s, a :: as => ok s a ∧ ∀ t, step s a = some t → Meets ok t as

instance Meets.decidable (ok : σ → α → Prop) [∀ s a, Decidable (ok s a)] :
    ∀ s as, Decidable (Meets step ok s as)
  | _, [] => .isTrue trivial
  | s, a :: as =>
    match h : step s a with
    | none =>
      decidable_of_iff (ok s a) ⟨fun ha => ⟨ha, fun t ht => by simp [h] at ht⟩, And.left⟩
    | some t =>
      have := Meets.decidable ok t as
      decidable_of_iff (ok s a ∧ Meets step ok t as)
        ⟨fun ⟨ha, hm⟩ => ⟨ha, fun u hu => by cases h.symm.trans hu; exact hm⟩,
          fun ⟨ha, hm⟩ => ⟨ha, hm t h⟩⟩

/-- The states that some list of actions leads to. -/
def Reachable (init s : σ) : Prop := ∃ as, run step init as = some s

variable {step}

@[simp] theorem run_nil (s : σ) : run step s [] = some s := rfl

theorem run_cons {s t : σ} {a : α} {as : List α} :
    run step s (a :: as) = some t ↔ ∃ u, step s a = some u ∧ run step u as = some t := by
  simp [run, Option.bind_eq_some_iff]

theorem run_append {s t : σ} {as bs : List α} :
    run step s (as ++ bs) = some t ↔ ∃ u, run step s as = some u ∧ run step u bs = some t := by
  induction as generalizing s with
  | nil => simp
  | cons a as ih =>
    simp only [List.cons_append, run_cons, ih]
    constructor
    · rintro ⟨u, hu, v, hv, ht⟩
      exact ⟨v, ⟨u, hu, hv⟩, ht⟩
    · rintro ⟨v, ⟨u, hu, hv⟩, ht⟩
      exact ⟨u, hu, v, hv, ht⟩

/-- A run in rounds, as a run of a machine that takes a round in one step. -/
theorem run_flatMap {β : Type*} {s t : σ} {f : β → List α} {rounds : List β} :
    run step s (rounds.flatMap f) = some t ↔
      run (fun s round => run step s (f round)) s rounds = some t := by
  induction rounds generalizing s with
  | nil => exact Iff.rfl
  | cons round rounds ih =>
    rw [List.flatMap_cons, run_append, run_cons]
    exact exists_congr fun u => and_congr_right fun _ => ih

namespace Reachable

theorem refl (s : σ) : Reachable step s s := ⟨[], rfl⟩

theorem run {init s t : σ} {as : List α} (h : Reachable step init s)
    (hrun : Machine.run step s as = some t) : Reachable step init t := by
  obtain ⟨bs, hbs⟩ := h
  exact ⟨bs ++ as, run_append.mpr ⟨s, hbs, hrun⟩⟩

theorem extend {init s t : σ} {a : α} (h : Reachable step init s)
    (hstep : step s a = some t) : Reachable step init t :=
  h.run (run_cons.mpr ⟨t, hstep, run_nil t⟩)

end Reachable

/-- A predicate kept by every allowed step holds at the end of an allowed run. -/
theorem run_invariant_of_meets {ok : σ → α → Prop} {P : σ → Prop} {init t : σ} {as : List α}
    (hinit : P init)
    (hstep : ∀ s a t, Reachable step init s → P s → ok s a → step s a = some t → P t)
    (hok : Meets step ok init as) (hrun : run step init as = some t) : P t := by
  suffices h : ∀ s, Reachable step init s → P s → Meets step ok s as → run step s as = some t → P t
    from h init (.refl init) hinit hok hrun
  clear hok hrun
  induction as with
  | nil =>
    intro s _ hs _ hrun
    cases hrun
    exact hs
  | cons a as ih =>
    intro s hreach hs hok hrun
    obtain ⟨u, hu, hrun⟩ := run_cons.mp hrun
    exact ih u (hreach.extend hu) (hstep s a u hreach hs hok.1 hu) (hok.2 u hu) hrun

theorem exists_run_of_meets {ok : σ → α → Prop} {P : σ → Prop} {s : σ} {as : List α} (hs : P s)
    (hprogress : ∀ s a, P s → ok s a → ∃ t, step s a = some t ∧ P t)
    (hok : Meets step ok s as) : ∃ t, run step s as = some t := by
  induction as generalizing s with
  | nil => exact ⟨s, rfl⟩
  | cons a as ih =>
    obtain ⟨t, hstep, ht⟩ := hprogress s a hs hok.1
    obtain ⟨u, hrun⟩ := ih ht (hok.2 t hstep)
    exact ⟨u, run_cons.mpr ⟨t, hstep, hrun⟩⟩

theorem meets_true (s : σ) (as : List α) : Meets step (fun _ _ => True) s as := by
  induction as generalizing s with
  | nil => trivial
  | cons a as ih => exact ⟨trivial, fun t _ => ih t⟩

theorem meets_of_forall {ok : σ → α → Prop} {s : σ} {as : List α} (h : ∀ a ∈ as, ∀ s, ok s a) :
    Meets step ok s as := by
  induction as generalizing s with
  | nil => trivial
  | cons a as ih =>
    obtain ⟨ha, has⟩ := List.forall_mem_cons.mp h
    exact ⟨ha s, fun t _ => ih has⟩

theorem Meets.of_append {ok : σ → α → Prop} {s : σ} {as bs : List α}
    (h : Meets step ok s (as ++ bs)) : Meets step ok s as := by
  induction as generalizing s with
  | nil => trivial
  | cons a as ih => exact ⟨h.1, fun t ht => ih (h.2 t ht)⟩

theorem exists_of_not_meets {ok : σ → α → Prop} {s t : σ} {as : List α}
    (h : ¬ Meets step ok s as) (hrun : run step s as = some t) :
    ∃ as₁ a as₂ u v, as = as₁ ++ a :: as₂ ∧ Meets step ok s as₁ ∧ run step s as₁ = some u ∧
      step u a = some v ∧ ¬ ok u a := by
  induction as generalizing s with
  | nil => exact absurd trivial h
  | cons a as ih =>
    obtain ⟨u, hu, hrun'⟩ := run_cons.mp hrun
    by_cases ha : ok s a
    · have hrest : ¬ Meets step ok u as := by
        intro hmeets
        refine h ⟨ha, ?_⟩
        intro t' ht'
        cases hu.symm.trans ht'
        exact hmeets
      obtain ⟨as₁, b, as₂, v, w, rfl, hmeets, hv, hw, hb⟩ := ih hrest hrun'
      refine ⟨a :: as₁, b, as₂, v, w, rfl, ⟨ha, ?_⟩, run_cons.mpr ⟨u, hu, hv⟩, hw, hb⟩
      intro t' ht'
      cases hu.symm.trans ht'
      exact hmeets
    · exact ⟨[], a, as, s, u, rfl, trivial, rfl, hu, ha⟩

/-- A predicate kept by every step from a reachable state holds in every reachable state. -/
theorem Reachable.invariant {P : σ → Prop} {init s : σ} (h : Reachable step init s)
    (hinit : P init)
    (hstep : ∀ s a t, Reachable step init s → P s → step s a = some t → P t) : P s := by
  obtain ⟨as, has⟩ := h
  exact run_invariant_of_meets hinit (fun s a t hr hs _ => hstep s a t hr hs)
    (meets_true init as) has

/-- A preorder that holds across every allowed step from a reachable state holds across every
allowed run. -/
theorem run_relation_of_meets {ok : σ → α → Prop} {R : σ → σ → Prop} {init s t : σ} {as : List α}
    (hrefl : ∀ s, R s s) (htrans : ∀ s t u, R s t → R t u → R s u)
    (hstep : ∀ s a t, Reachable step init s → ok s a → step s a = some t → R s t)
    (hs : Reachable step init s) (hok : Meets step ok s as) (hrun : run step s as = some t) :
    R s t := by
  induction as generalizing s with
  | nil =>
    cases hrun
    exact hrefl _
  | cons a as ih =>
    obtain ⟨u, hu, hrun⟩ := run_cons.mp hrun
    exact htrans s u t (hstep s a u hs hok.1 hu) (ih (hs.extend hu) (hok.2 u hu) hrun)

theorem run_relation {R : σ → σ → Prop} {init s t : σ} {as : List α} (hrefl : ∀ s, R s s)
    (htrans : ∀ s t u, R s t → R t u → R s u)
    (hstep : ∀ s a t, Reachable step init s → step s a = some t → R s t)
    (hs : Reachable step init s) (hrun : run step s as = some t) : R s t :=
  run_relation_of_meets hrefl htrans (fun s a t hr _ => hstep s a t hr) hs (meets_true s as) hrun

/-- When every step that leaves something due found something due and took `b` off the backlog, a
run that leaves something due took `b` off for each of its steps. -/
theorem backlog_le_of_due (P Due : σ → Prop) (size : σ → ℕ) {b : ℕ} {s t : σ} {as : List α}
    (hP : ∀ s a t, P s → step s a = some t → P t)
    (hstep : ∀ s t, ∀ a ∈ as, P s → step s a = some t → Due t → Due s ∧ size t + b ≤ size s)
    (hs : P s) (hrun : run step s as = some t) (hdue : Due t) :
    Due s ∧ size t + b * as.length ≤ size s := by
  induction as generalizing s with
  | nil =>
    cases hrun
    exact ⟨hdue, Nat.le_refl _⟩
  | cons a as ih =>
    obtain ⟨u, hu, hrun⟩ := run_cons.mp hrun
    have hrest : Due u ∧ size t + b * as.length ≤ size u := by
      apply ih _ (hP s a u hs hu) hrun
      intro v v' a' ha'
      exact hstep v v' a' (List.mem_cons_of_mem a ha')
    obtain ⟨hdues, hfirst⟩ := hstep s u a List.mem_cons_self hs hu hrest.1
    refine ⟨hdues, ?_⟩
    rw [List.length_cons, Nat.mul_succ]
    omega

theorem exists_step_of_change {P : σ → Prop} {s t : σ} {as : List α} (hs : ¬ P s) (ht : P t)
    (hrun : run step s as = some t) :
    ∃ as₁ a as₂ u v, as = as₁ ++ a :: as₂ ∧ run step s as₁ = some u ∧ step u a = some v ∧
      run step v as₂ = some t ∧ ¬ P u ∧ P v := by
  induction as generalizing s with
  | nil =>
    cases hrun
    exact absurd ht hs
  | cons a as ih =>
    obtain ⟨u, hu, hrun'⟩ := run_cons.mp hrun
    by_cases hPu : P u
    · exact ⟨[], a, as, s, u, rfl, rfl, hu, hrun', hs, hPu⟩
    · obtain ⟨as₁, b, as₂, v, w, rfl, hv, hvw, hw, hPv, hPw⟩ := ih hPu hrun'
      exact ⟨a :: as₁, b, as₂, v, w, rfl, run_cons.mpr ⟨u, hu, hv⟩, hvw, hw, hPv, hPw⟩

end Machine
