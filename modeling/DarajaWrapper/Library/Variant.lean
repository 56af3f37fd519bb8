import DarajaWrapper.Library.Machine
import Mathlib.Data.List.Induction

/-!
# Variants

A variant is a number that the own steps of a process lower. Over a run it is
related to the steps taken so far, and a process that can always take one of them
comes to its end by itself.
-/

namespace Machine

variable {σ α : Type*} {step : σ → α → Option σ}

theorem run_history {P : List α → σ → Prop} {init t : σ} {as : List α} (hinit : P [] init)
    (hstep : ∀ as s a t, run step init as = some s → P as s → step s a = some t → P (as ++ [a]) t)
    (hrun : run step init as = some t) : P as t := by
  induction as using List.reverseRecOn generalizing t with
  | nil =>
    cases hrun
    exact hinit
  | append_singleton as a ih =>
    obtain ⟨u, hu, hlast⟩ := run_append.mp hrun
    obtain ⟨v, hv, hnil⟩ := run_cons.mp hlast
    cases hnil
    exact hstep as u a t hu (ih hu) hv

/-- A machine that can take an own step that lowers the variant until it is done gets there, in no
more steps than the variant says. -/
theorem exists_run_of_variant (Inv Done : σ → Prop) (own : α → Prop) (left : σ → ℕ)
    (hstep : ∀ s, Inv s → ¬ Done s →
      ∃ a t, own a ∧ step s a = some t ∧ Inv t ∧ left t < left s)
    {s : σ} (hs : Inv s) :
    ∃ as t, (∀ a ∈ as, own a) ∧ run step s as = some t ∧ Done t ∧ as.length ≤ left s := by
  induction hn : left s using Nat.strongRecOn generalizing s with
  | ind n ih =>
    subst hn
    by_cases hdone : Done s
    · exact ⟨[], s, nofun, rfl, hdone, Nat.zero_le _⟩
    · obtain ⟨a, u, hown, hu, hinv, hlt⟩ := hstep s hs hdone
      obtain ⟨as, t, has, hrun, ht, hlen⟩ := ih (left u) hlt hinv rfl
      refine ⟨a :: as, t, List.forall_mem_cons.mpr ⟨hown, has⟩, run_cons.mpr ⟨u, hu, hrun⟩, ht, ?_⟩
      rw [List.length_cons]
      omega

end Machine
