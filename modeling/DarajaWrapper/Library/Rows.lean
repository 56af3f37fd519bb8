import Mathlib.Data.List.Nodup
import Mathlib.Order.Lattice
import Mathlib.Tactic.Common

/-!
# Rows selected by a key

A table is a list of rows and a statement `UPDATE … SET f WHERE key = k` maps
the rows whose key is `k`. When the keys are distinct the statement touches at
most one row; columns that `f` leaves alone are the same column afterwards. Rows
that a column orders strictly are read back in one order only.
-/

namespace Rows

variable {ρ κ γ : Type*} [DecidableEq κ] {key : ρ → κ} {k : κ} {f : ρ → ρ} {rows : List ρ}

/-- `UPDATE … SET f WHERE key = k`. -/
def update (key : ρ → κ) (k : κ) (f : ρ → ρ) (rows : List ρ) : List ρ :=
  rows.map fun r => if key r = k then f r else r

theorem mem_update {r : ρ} :
    r ∈ update key k f rows ↔
      (∃ q ∈ rows, key q = k ∧ r = f q) ∨ (r ∈ rows ∧ key r ≠ k) := by
  simp only [update, List.mem_map]
  constructor
  · rintro ⟨q, hq, rfl⟩
    by_cases hk : key q = k
    · exact Or.inl ⟨q, hq, hk, by simp [hk]⟩
    · exact Or.inr (by simpa [hk] using hq)
  · rintro (⟨q, hq, hk, rfl⟩ | ⟨hr, hk⟩)
    · exact ⟨q, hq, by simp [hk]⟩
    · exact ⟨r, hr, by simp [hk]⟩

theorem mem_update_of_mem {q : ρ} (hq : q ∈ rows) (hk : key q = k) :
    f q ∈ update key k f rows := mem_update.mpr (Or.inl ⟨q, hq, hk, rfl⟩)

theorem mem_update_of_ne {r : ρ} (hr : r ∈ rows) (hk : key r ≠ k) :
    r ∈ update key k f rows := mem_update.mpr (Or.inr ⟨hr, hk⟩)

theorem find?_update (hf : ∀ r, key r = k → key (f r) = k) :
    ((update key k f rows).find? fun r => key r = k) = (rows.find? fun r => key r = k).map f := by
  induction rows with
  | nil => rfl
  | cons r rows ih =>
    rw [update, List.map_cons]
    by_cases hk : key r = k
    · simp [hk, hf r hk]
    · simpa [hk, update] using ih

theorem find?_update_of_ne {j : κ} (hf : ∀ r, key r = k → key (f r) = k) (hj : j ≠ k) :
    ((update key k f rows).find? fun r => key r = j) = rows.find? fun r => key r = j := by
  induction rows with
  | nil => rfl
  | cons r rows ih =>
    rw [update, List.map_cons]
    by_cases hk : key r = k
    · have hne : ¬ key (f r) = j := fun h => hj (h.symm.trans (hf r hk))
      have hne' : ¬ key r = j := fun h => hj (h.symm.trans hk)
      simpa [hk, hne, hj.symm, update] using ih
    · by_cases hr : key r = j
      · simp [hr, hj]
      · simpa [hk, hr, update] using ih

theorem map_update (g : ρ → γ) (hg : ∀ r, key r = k → g (f r) = g r) :
    (update key k f rows).map g = rows.map g := by
  simp only [update, List.map_map]
  refine List.map_congr_left fun r _ => ?_
  by_cases hk : key r = k
  · simpa [hk] using hg r hk
  · simp [hk]

theorem filterMap_update (g : ρ → Option γ) (hg : ∀ r, key r = k → g (f r) = g r) :
    (update key k f rows).filterMap g = rows.filterMap g := by
  simp only [update, List.filterMap_map]
  refine List.filterMap_congr fun r _ => ?_
  by_cases hk : key r = k
  · simpa [hk] using hg r hk
  · simp [hk]

omit [DecidableEq κ] in
/-- Distinct keys identify their rows. -/
theorem eq_of_key_eq (hnd : (rows.map key).Nodup) {r q : ρ} (hr : r ∈ rows) (hq : q ∈ rows)
    (hk : key r = key q) : r = q := by
  have hinj := List.inj_on_of_nodup_map hnd
  exact hinj hr hq hk

theorem find?_eq_some (hnd : (rows.map key).Nodup) {r : ρ} (hr : r ∈ rows) (hk : key r = k) :
    (rows.find? fun q => key q = k) = some r := by
  cases hfind : rows.find? fun q => key q = k with
  | none =>
    have hne := List.find?_eq_none.mp hfind r hr
    simp [hk] at hne
  | some q =>
    have hq : key q = k := by simpa using List.find?_some hfind
    have hmem : q ∈ rows := List.mem_of_find?_eq_some hfind
    rw [eq_of_key_eq hnd hmem hr (hq.trans hk.symm)]

theorem mem_of_find? {r : ρ} (h : (rows.find? fun q => key q = k) = some r) :
    r ∈ rows ∧ key r = k := by
  constructor
  · exact List.mem_of_find?_eq_some h
  · simpa using List.find?_some h

omit [DecidableEq κ] in
theorem eq_of_column_eq_some {column : ρ → Option κ} (hnd : (rows.filterMap column).Nodup)
    {r q : ρ} (hr : r ∈ rows) (hq : q ∈ rows) (hrk : column r = some k)
    (hqk : column q = some k) : r = q := by
  induction rows with
  | nil => simp at hr
  | cons a as ih =>
    have htail : (as.filterMap column).Nodup := by
      refine hnd.sublist ?_
      exact (List.sublist_cons_self a as).filterMap column
    have hhead : column a = some k → ∀ x ∈ as, column x ≠ some k := by
      intro ha x hx hxk
      rw [List.filterMap_cons_some ha, List.nodup_cons] at hnd
      exact hnd.1 (List.mem_filterMap.mpr ⟨x, hx, hxk⟩)
    rcases List.mem_cons.mp hr with hra | hr' <;> rcases List.mem_cons.mp hq with hqa | hq'
    · exact hra.trans hqa.symm
    · exact absurd hqk (hhead (hra ▸ hrk) q hq')
    · exact absurd hrk (hhead (hqa ▸ hqk) r hr')
    · exact ih htail hr' hq'

omit [DecidableEq κ] in
theorem getLast?_eq_some [LinearOrder κ] {r : ρ} (hsorted : rows.Pairwise (key · < key ·))
    (hr : r ∈ rows) (hmax : ∀ q ∈ rows, key q ≤ key r) : rows.getLast? = some r := by
  obtain ⟨before, after, rfl⟩ := List.append_of_mem hr
  cases after with
  | nil => exact List.getLast?_concat
  | cons q qs =>
    have hlt : key r < key q :=
      (List.pairwise_cons.mp (List.pairwise_append.mp hsorted).2.1).1 q List.mem_cons_self
    have hle : key q ≤ key r := hmax q (by simp)
    exact absurd hlt (not_lt.mpr hle)

omit [DecidableEq κ] in
/-- Distinct values leave one order to read the rows in. -/
theorem eq_of_perm_of_sorted [LinearOrder κ] {order : List ρ}
    (hsorted : rows.Pairwise (key · < key ·)) (hperm : order.Perm rows)
    (horder : order.Pairwise (key · ≤ key ·)) : order = rows := by
  apply hperm.eq_of_pairwise _ horder (hsorted.imp le_of_lt)
  intro r q hr hq hrq hqr
  have hnd : (rows.map key).Nodup := List.pairwise_map.mpr (hsorted.imp ne_of_lt)
  exact eq_of_key_eq hnd (hperm.subset hr) hq (le_antisymm hrq hqr)

end Rows
