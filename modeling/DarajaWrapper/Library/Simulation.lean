import DarajaWrapper.Library.Machine

/-!
# Refinement between machines

A concrete machine refines an abstract one when each of its actions either shows an action
of the abstract machine, and then the two are enabled together, or is internal and changes
nothing that the relation sees. A run of the concrete machine then shows a run of the
abstract one; and every run of the abstract machine is shown.
-/

namespace Machine

variable {σ τ α β : Type*}

/-- `R` relates the states; `visible` is the action of the abstract machine that is shown. -/
structure Refines (concrete : σ → β → Option σ) (abstract : τ → α → Option τ)
    (visible : β → Option α) (R : σ → τ → Prop) : Prop where
  matched : ∀ ⦃s t b a⦄, R s t → visible b = some a → Option.Rel R (concrete s b) (abstract t a)
  internal : ∀ ⦃s s' t b⦄, R s t → visible b = none → concrete s b = some s' → R s' t

namespace Refines

variable {concrete : σ → β → Option σ} {abstract : τ → α → Option τ} {visible : β → Option α}
  {R : σ → τ → Prop} {s s' : σ} {t t' : τ}

theorem matched_some {b : β} {a : α} (h : Refines concrete abstract visible R) (hR : R s t)
    (hb : visible b = some a) (hstep : concrete s b = some s') :
    ∃ t', abstract t a = some t' ∧ R s' t' := by
  have hrel := h.matched hR hb
  rw [hstep] at hrel
  cases hnext : abstract t a with
  | none =>
    rw [hnext] at hrel
    cases hrel
  | some t' =>
    rw [hnext] at hrel
    cases hrel with
    | some hR' => exact ⟨t', rfl, hR'⟩

theorem some_matched {b : β} {a : α} (h : Refines concrete abstract visible R) (hR : R s t)
    (hb : visible b = some a) (hstep : abstract t a = some t') :
    ∃ s', concrete s b = some s' ∧ R s' t' := by
  have hrel := h.matched hR hb
  rw [hstep] at hrel
  cases hnext : concrete s b with
  | none =>
    rw [hnext] at hrel
    cases hrel
  | some s' =>
    rw [hnext] at hrel
    cases hrel with
    | some hR' => exact ⟨s', rfl, hR'⟩

/-- What a run of the concrete machine shows is a run of the abstract one. -/
theorem run {bs : List β} (h : Refines concrete abstract visible R) (hR : R s t)
    (hrun : Machine.run concrete s bs = some s') :
    ∃ t', Machine.run abstract t (bs.filterMap visible) = some t' ∧ R s' t' := by
  induction bs generalizing s t with
  | nil =>
    cases hrun
    exact ⟨t, rfl, hR⟩
  | cons b bs ih =>
    obtain ⟨u, hstep, hrest⟩ := run_cons.mp hrun
    cases hb : visible b with
    | none =>
      rw [List.filterMap_cons_none hb]
      exact ih (h.internal hR hb hstep) hrest
    | some a =>
      obtain ⟨v, hnext, hR'⟩ := h.matched_some hR hb hstep
      obtain ⟨t', ht', hR''⟩ := ih hR' hrest
      rw [List.filterMap_cons_some hb]
      exact ⟨t', run_cons.mpr ⟨v, hnext, ht'⟩, hR''⟩

theorem run_map {embed : α → β} {as : List α} (h : Refines concrete abstract visible R)
    (hembed : ∀ a, visible (embed a) = some a) (hR : R s t)
    (hrun : Machine.run abstract t as = some t') :
    ∃ s', Machine.run concrete s (as.map embed) = some s' ∧ R s' t' := by
  induction as generalizing s t with
  | nil =>
    cases hrun
    exact ⟨s, rfl, hR⟩
  | cons a as ih =>
    obtain ⟨v, hstep, hrest⟩ := run_cons.mp hrun
    obtain ⟨u, hnext, hR'⟩ := h.some_matched hR (hembed a) hstep
    obtain ⟨s', hs', hR''⟩ := ih hR' hrest
    exact ⟨s', run_cons.mpr ⟨u, hnext, hs'⟩, hR''⟩

/-- Every state of the concrete machine stands for a state of the abstract one. -/
theorem reachable {init : σ} {init' : τ} (h : Refines concrete abstract visible R)
    (hR : R init init') (hs : Reachable concrete init s) :
    ∃ t, Reachable abstract init' t ∧ R s t := by
  obtain ⟨bs, hrun⟩ := hs
  obtain ⟨t, ht, hRt⟩ := h.run hR hrun
  exact ⟨t, ⟨_, ht⟩, hRt⟩

end Refines
end Machine
