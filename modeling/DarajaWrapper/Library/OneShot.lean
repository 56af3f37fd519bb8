import Mathlib.Data.List.Basic
import Mathlib.Tactic.Common

/-!
# Effects that a key may have once

Several owners share a key. One of them anchors the key in a store that admits a
key once, and only the owner of the anchor may fire the effect, once. A history
in which both rules were kept, newest event first, contains at most one effect
for each key, and under every effect the anchor of its owner.
-/

namespace OneShot

inductive Event (κ ι : Type*) where
  | anchor (key : κ) (owner : ι)
  | fire (key : κ) (owner : ι)

variable {κ ι : Type*} {k : κ} {o o' : ι} {h : List (Event κ ι)}

/-- The histories in which every event was allowed when it happened. -/
inductive Valid : List (Event κ ι) → Prop
  | nil : Valid []
  | anchor {h : List (Event κ ι)} {k : κ} {o : ι} (hvalid : Valid h)
      (hfree : ∀ o', .anchor k o' ∉ h) : Valid (.anchor k o :: h)
  | fire {h : List (Event κ ι)} {k : κ} {o : ι} (hvalid : Valid h) (hanchor : .anchor k o ∈ h)
      (hunfired : ∀ k', .fire k' o ∉ h) : Valid (.fire k o :: h)

/-- The owner of an effect under the key `k`. -/
def Event.fires [DecidableEq κ] (k : κ) : Event κ ι → Option ι
  | .anchor _ _ => none
  | .fire k' o => if k' = k then some o else none

def fired [DecidableEq κ] (k : κ) (h : List (Event κ ι)) : List ι := h.filterMap (Event.fires k)

theorem mem_fired [DecidableEq κ] : o ∈ fired k h ↔ .fire k o ∈ h := by
  simp only [fired, List.mem_filterMap]
  constructor
  · rintro ⟨e, he, hfires⟩
    cases e with
    | anchor k' o' => cases hfires
    | fire k' o' =>
      simp only [Event.fires] at hfires
      split_ifs at hfires with hk
      cases hfires
      exact hk ▸ he
  · intro he
    exact ⟨_, he, by simp [Event.fires]⟩

namespace Valid

theorem anchor_unique (hv : Valid h) (ho : .anchor k o ∈ h) (ho' : .anchor k o' ∈ h) : o = o' := by
  induction hv with
  | nil => cases ho
  | anchor hvalid hfree ih =>
    rcases List.mem_cons.mp ho with he | hm <;> rcases List.mem_cons.mp ho' with he' | hm'
    · cases he
      cases he'
      rfl
    · cases he
      exact absurd hm' (hfree _)
    · cases he'
      exact absurd hm (hfree _)
    · exact ih hm hm'
  | fire hvalid hanchor hunfired ih => exact ih (by simpa using ho) (by simpa using ho')

theorem anchor_of_fire (hv : Valid h) (ho : .fire k o ∈ h) : .anchor k o ∈ h := by
  induction hv with
  | nil => cases ho
  | anchor hvalid hfree ih => exact List.mem_cons_of_mem _ (ih (by simpa using ho))
  | fire hvalid hanchor hunfired ih =>
    rcases List.mem_cons.mp ho with he | ho
    · cases he
      exact List.mem_cons_of_mem _ hanchor
    · exact List.mem_cons_of_mem _ (ih ho)

/-- At most one effect for each key. -/
theorem fired_length_le_one [DecidableEq κ] (hv : Valid h) (k : κ) : (fired k h).length ≤ 1 := by
  induction hv with
  | nil => simp [fired]
  | anchor hvalid hfree ih =>
    rw [fired, List.filterMap_cons_none rfl]
    exact ih
  | @fire h k' o hvalid hanchor hunfired ih =>
    by_cases hk : k' = k
    · subst hk
      -- an earlier effect would be the owner's own
      have hnone : fired k' h = [] := by
        refine List.eq_nil_iff_forall_not_mem.mpr fun o' ho' => ?_
        have hfire := mem_fired.mp ho'
        have heq := hvalid.anchor_unique (hvalid.anchor_of_fire hfire) hanchor
        exact hunfired k' (heq ▸ hfire)
      rw [fired] at hnone
      simp [fired, Event.fires, hnone]
    · simpa [fired, Event.fires, hk] using ih

end Valid

end OneShot
