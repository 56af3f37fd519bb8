import Mathlib.Data.List.Basic
import Mathlib.Tactic.Common

/-!
# Lists of named values

Names may occur several times and the first occurrence counts. Setting a name
replaces its first occurrence and drops the others, or appends it; deleting a
name drops all of its occurrences. Neither touches any other name.
-/

namespace MultiDict

variable {κ ν : Type*} [DecidableEq κ]

/-- The first value under a name. -/
def get : List (κ × ν) → κ → Option ν
  | [], _ => none
  | (name, value) :: rest, k => if name = k then some value else get rest k

def delete (items : List (κ × ν)) (k : κ) : List (κ × ν) := items.filter (·.1 ≠ k)

def set : List (κ × ν) → κ → ν → List (κ × ν)
  | [], k, v => [(k, v)]
  | (name, value) :: rest, k, v =>
    if name = k then (k, v) :: delete rest k else (name, value) :: set rest k v

def setAll (items updates : List (κ × ν)) : List (κ × ν) :=
  updates.foldl (fun items u => set items u.1 u.2) items

def deleteAll (items : List (κ × ν)) (names : List κ) : List (κ × ν) := names.foldl delete items

variable {items updates : List (κ × ν)} {k k' : κ} {v : ν}

theorem get_eq_none (h : ∀ item ∈ items, item.1 ≠ k) : get items k = none := by
  induction items with
  | nil => rfl
  | cons item rest ih =>
    rw [get, if_neg (h item List.mem_cons_self)]
    exact ih fun other hother => h other (List.mem_cons_of_mem _ hother)

theorem get_delete_self : get (delete items k) k = none := by
  apply get_eq_none
  intro item hitem
  exact of_decide_eq_true (List.mem_filter.mp hitem).2

theorem get_delete_of_ne (h : k' ≠ k) : get (delete items k) k' = get items k' := by
  induction items with
  | nil => rfl
  | cons item rest ih =>
    by_cases hitem : item.1 = k
    · have hother : item.1 ≠ k' := by
        rw [hitem]
        exact h.symm
      rw [delete, List.filter_cons_of_neg (by simp [hitem]), get, if_neg hother]
      exact ih
    · rw [delete, List.filter_cons_of_pos (by simp [hitem]), get, get]
      split_ifs
      · rfl
      · exact ih

theorem get_set_self : get (set items k v) k = some v := by
  induction items with
  | nil => rw [set, get, if_pos rfl]
  | cons item rest ih =>
    rw [set]
    split_ifs with hitem
    · rw [get, if_pos rfl]
    · rw [get, if_neg hitem]
      exact ih

theorem get_set_of_ne (h : k' ≠ k) : get (set items k v) k' = get items k' := by
  induction items with
  | nil => simp [set, get, h.symm]
  | cons item rest ih =>
    rw [set]
    split_ifs with hitem
    · rw [get, if_neg h.symm, get_delete_of_ne h, get, if_neg (by rw [hitem]; exact h.symm)]
    · rw [get, get]
      split_ifs
      · rfl
      · exact ih

theorem get_setAll_of_not_mem (h : ∀ u ∈ updates, u.1 ≠ k) :
    get (setAll items updates) k = get items k := by
  induction updates generalizing items with
  | nil => rfl
  | cons u updates ih =>
    rw [setAll, List.foldl_cons]
    exact (ih fun other hother => h other (List.mem_cons_of_mem _ hother)).trans
      (get_set_of_ne (h u List.mem_cons_self).symm)

theorem get_setAll_of_mem (hnodup : (updates.map Prod.fst).Nodup) (h : (k, v) ∈ updates) :
    get (setAll items updates) k = some v := by
  induction updates generalizing items with
  | nil => cases h
  | cons u updates ih =>
    rw [List.map_cons, List.nodup_cons] at hnodup
    rw [setAll, List.foldl_cons]
    rcases List.mem_cons.mp h with rfl | h
    · have hother : ∀ w ∈ updates, w.1 ≠ k := by
        intro w hw heq
        exact hnodup.1 (List.mem_map.mpr ⟨w, hw, heq⟩)
      exact (get_setAll_of_not_mem hother).trans get_set_self
    · exact ih hnodup.2 h

theorem get_deleteAll_of_not_mem {names : List κ} (h : k ∉ names) :
    get (deleteAll items names) k = get items k := by
  induction names generalizing items with
  | nil => rfl
  | cons name names ih =>
    rw [List.mem_cons, not_or] at h
    rw [deleteAll, List.foldl_cons]
    exact (ih h.2).trans (get_delete_of_ne h.1)

theorem get_deleteAll_of_mem {names : List κ} (h : k ∈ names) :
    get (deleteAll items names) k = none := by
  induction names generalizing items with
  | nil => cases h
  | cons name names ih =>
    rw [deleteAll, List.foldl_cons]
    by_cases hmem : k ∈ names
    · exact ih hmem
    · obtain rfl := (List.mem_cons.mp h).resolve_right hmem
      exact (get_deleteAll_of_not_mem hmem).trans get_delete_self

end MultiDict
