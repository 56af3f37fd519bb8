import Mathlib.Tactic.Common

/-!
# Substitution of a pattern

Patterns of fixed width over an arbitrary alphabet. An item is a symbol of some
class, or the condition that a word begins or ends here. Matches are looked for
from left to right and do not overlap; a pattern has at least one symbol.
-/

namespace Substitution

inductive Item (α : Type*) where
  | boundary
  | one (p : α → Bool)

variable {α : Type*} (isWord : α → Bool)

/-- A word begins or ends between two neighbours, each of which may be missing. -/
def isBoundary (before after : Option α) : Bool := before.any isWord != after.any isWord

def matchAt : Option α → List (Item α) → List α → Bool
  | _, [], _ => true
  | before, .boundary :: items, cs => isBoundary isWord before cs.head? && matchAt before items cs
  | _, .one _ :: _, [] => false
  | _, .one p :: items, c :: cs => p c && matchAt (some c) items cs

def width : List (Item α) → ℕ
  | [] => 0
  | .boundary :: items => width items
  | .one _ :: items => width items + 1

/-- The scan; `skip` symbols of the last match are still ahead. -/
def subFrom (items : List (Item α)) (replace : List α → List α) :
    Option α → ℕ → List α → List α
  | _, _, [] => []
  | _, skip + 1, c :: cs => subFrom items replace (some c) skip cs
  | before, 0, c :: cs =>
    if matchAt isWord before items (c :: cs) then
      replace ((c :: cs).take (width items)) ++
        subFrom items replace (some c) (width items - 1) cs
    else c :: subFrom items replace (some c) 0 cs

def sub (items : List (Item α)) (replace : List α → List α) (cs : List α) : List α :=
  subFrom isWord items replace none 0 cs

/-- A match begins somewhere in the text. -/
inductive Occurs (items : List (Item α)) : Option α → List α → Prop
  | here {before cs} : matchAt isWord before items cs = true → Occurs items before cs
  | later {before c cs} : Occurs items (some c) cs → Occurs items before (c :: cs)

variable {isWord} {items more : List (Item α)} {replace : List α → List α} {before : Option α}
  {c : α} {cs : List α} {p : α → Bool}

theorem matchAt_boundary :
    matchAt isWord before (.boundary :: items) cs =
      (isBoundary isWord before cs.head? && matchAt isWord before items cs) := by
  cases cs <;> rfl

theorem matchAt_one_cons :
    matchAt isWord before (.one p :: items) (c :: cs) =
      (p c && matchAt isWord (some c) items cs) := rfl

theorem matchAt_one (h : matchAt isWord before (.one p :: items) cs = true) :
    ∃ c rest, cs = c :: rest ∧ p c = true ∧ matchAt isWord (some c) items rest = true := by
  cases cs with
  | nil => cases h
  | cons c rest =>
    rw [matchAt_one_cons, Bool.and_eq_true] at h
    exact ⟨c, rest, rfl, h⟩

theorem matchAt_of_append (h : matchAt isWord before (items ++ more) cs = true) :
    matchAt isWord before items cs = true := by
  induction items generalizing before cs with
  | nil => cases cs <;> rfl
  | cons item items ih =>
    rw [List.cons_append] at h
    cases item with
    | boundary =>
      rw [matchAt_boundary, Bool.and_eq_true] at h ⊢
      exact ⟨h.1, ih h.2⟩
    | one p =>
      obtain ⟨c, rest, rfl, hc, hrest⟩ := matchAt_one h
      rw [matchAt_one_cons, Bool.and_eq_true]
      exact ⟨hc, ih hrest⟩

/-- The symbols that a run of one class has matched, and where the other items go on. -/
theorem matchAt_replicate {n : ℕ}
    (h : matchAt isWord before (List.replicate n (.one p) ++ items) cs = true) :
    ∃ run rest last, cs = run ++ rest ∧ run.length = n ∧ (∀ c ∈ run, p c = true) ∧
      matchAt isWord last items rest = true := by
  induction n generalizing before cs with
  | zero => exact ⟨[], cs, before, rfl, rfl, nofun, h⟩
  | succ n ih =>
    rw [List.replicate_succ, List.cons_append] at h
    obtain ⟨c, tail, rfl, hc, htail⟩ := matchAt_one h
    obtain ⟨run, rest, last, rfl, hlength, hrun, hrest⟩ := ih htail
    refine ⟨c :: run, rest, last, rfl, by rw [List.length_cons, hlength], ?_, hrest⟩
    intro d hd
    rcases List.mem_cons.mp hd with rfl | hd
    · exact hc
    · exact hrun d hd

theorem Occurs.of_append (h : Occurs isWord (items ++ more) before cs) :
    Occurs isWord items before cs := by
  induction h with
  | here hmatch => exact .here (matchAt_of_append hmatch)
  | later _ ih => exact .later ih

theorem subFrom_of_match (h : matchAt isWord before items (c :: cs) = true) :
    subFrom isWord items replace before 0 (c :: cs) =
      replace ((c :: cs).take (width items)) ++
        subFrom isWord items replace (some c) (width items - 1) cs := by
  rw [subFrom, if_pos h]

theorem subFrom_of_not_match (h : matchAt isWord before items (c :: cs) = false) :
    subFrom isWord items replace before 0 (c :: cs) =
      c :: subFrom isWord items replace (some c) 0 cs := by
  rw [subFrom, if_neg (by rw [h]; exact Bool.false_ne_true)]

theorem subFrom_of_not_occurs (h : ¬ Occurs isWord items before cs) :
    subFrom isWord items replace before 0 cs = cs := by
  induction cs generalizing before with
  | nil => rfl
  | cons c cs ih =>
    have hhere : matchAt isWord before items (c :: cs) = false := by
      rw [Bool.eq_false_iff]
      exact fun hmatch => h (.here hmatch)
    rw [subFrom_of_not_match hhere, ih fun hlater => h (.later hlater)]

/-- The first symbol stays when every replacement begins as its match does. -/
theorem head?_subFrom (hwidth : 0 < width items)
    (hreplace : ∀ c cs, (replace (c :: cs)).head? = some c) :
    (subFrom isWord items replace before 0 cs).head? = cs.head? := by
  cases cs with
  | nil => rfl
  | cons c cs =>
    cases hmatch : matchAt isWord before items (c :: cs) with
    | true =>
      obtain ⟨n, hn⟩ := Nat.exists_eq_succ_of_ne_zero (Nat.pos_iff_ne_zero.mp hwidth)
      rw [subFrom_of_match hmatch, hn, List.take_succ_cons, List.head?_append, hreplace]
      rfl
    | false => rw [subFrom_of_not_match hmatch]; rfl

end Substitution
