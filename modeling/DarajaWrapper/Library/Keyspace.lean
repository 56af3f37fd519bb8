import Mathlib.Data.List.Infix
import Mathlib.Logic.Function.Basic

/-!
# Several maps in one store

A store that knows one kind of key holds several maps when each has places of its own in
it. An update of one map is then an update of the store that the others do not see. Prefixes
give such places, as long as none of them is the beginning of another.
-/

namespace Keyspace

variable {ι α κ β γ : Type*}

/-- No two entries have one place. -/
def Separate (place : ι → α → κ) : Prop := ∀ ⦃i a j b⦄, place i a = place j b → i = j ∧ a = b

def entries (place : ι → α → κ) (store : κ → β) (i : ι) : α → β := fun a => store (place i a)

section

variable [DecidableEq κ] {place : ι → α → κ} (store : κ → β) {i j : ι}

theorem Separate.entries_update_self [DecidableEq α] (h : Separate place) (i : ι) (a : α) (v : β) :
    entries place (Function.update store (place i a) v) i =
      Function.update (entries place store i) a v := by
  funext b
  by_cases hab : b = a
  · subst hab
    simp [entries]
  · have hne : place i b ≠ place i a := fun heq => hab (h heq).2
    simp [entries, hab, hne]

theorem Separate.entries_update_ne (h : Separate place) (hij : j ≠ i) (a : α) (v : β) :
    entries place (Function.update store (place i a) v) j = entries place store j := by
  funext b
  have hne : place j b ≠ place i a := fun heq => hij (h heq).1
  simp [entries, hne]

theorem entries_update_foreign {k : κ} (hk : ∀ i a, place i a ≠ k) (v : β) :
    entries place (Function.update store k v) = entries place store := by
  funext i a
  simp [entries, hk i a]

end

/-- Prefixes keep maps apart when none is the beginning of another. -/
theorem separate_append {front : ι → List γ} (h : ∀ i j, front i <+: front j → i = j) :
    Separate fun i (s : List γ) => front i ++ s := by
  intro i a j b heq
  have hi : front i <+: front j ++ b := ⟨a, heq⟩
  have hj : front j <+: front j ++ b := List.prefix_append _ _
  have hij : i = j := by
    rcases List.prefix_or_prefix_of_prefix hi hj with hle | hge
    · exact h i j hle
    · exact (h j i hge).symm
  subst hij
  exact ⟨rfl, List.append_cancel_left heq⟩

end Keyspace
