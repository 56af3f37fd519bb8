import Mathlib.Data.List.Range
import Mathlib.Tactic.Common

/-!
# Attempts that are repeated a bounded number of times

A job is attempted until it succeeds or its retries are used up. The attempts
are given as a function of their number: the error of each, or nothing. A run
ends in one of two ways, and which of them depends on the attempts only.
-/

namespace BoundedRetry

inductive State (ε : Type*) where
  /-- The next attempt follows so many retries. -/
  | pending (retries : ℕ)
  | succeeded
  | failed (retries : ℕ) (error : ε)
  deriving DecidableEq

variable {ε : Type*} (maxRetries : ℕ)

def step : State ε → Option ε → State ε
  | .pending _, none => .succeeded
  | .pending retries, some e =>
    if maxRetries < retries + 1 then .failed retries e else .pending (retries + 1)
  | .succeeded, _ => .succeeded
  | .failed retries e, _ => .failed retries e

def runFor (attempts : ℕ → Option ε) (n : ℕ) : State ε :=
  (List.range n).foldl (fun state i => step maxRetries state (attempts i)) (.pending 0)

def run (attempts : ℕ → Option ε) : State ε := runFor maxRetries attempts (maxRetries + 1)

variable {maxRetries} {attempts : ℕ → Option ε} {n : ℕ}

theorem runFor_succ :
    runFor maxRetries attempts (n + 1) =
      step maxRetries (runFor maxRetries attempts n) (attempts n) := by
  rw [runFor, List.range_succ, List.foldl_append]
  rfl

/-- As long as attempts fail and retries are left, the job is retried. -/
theorem runFor_of_failing (hn : n ≤ maxRetries) (hfail : ∀ i < n, attempts i ≠ none) :
    runFor maxRetries attempts n = .pending n := by
  induction n with
  | zero => rfl
  | succ n ih =>
    obtain ⟨e, he⟩ := Option.ne_none_iff_exists'.mp (hfail n (Nat.lt_succ_self n))
    rw [runFor_succ, ih (by omega) fun i hi => hfail i (by omega), he, step, if_neg (by omega)]

theorem runFor_of_succeeded {m : ℕ} (hm : n ≤ m)
    (h : runFor maxRetries attempts n = .succeeded) :
    runFor maxRetries attempts m = .succeeded := by
  induction m, hm using Nat.le_induction with
  | base => exact h
  | succ m _ ih => rw [runFor_succ, ih]; rfl

theorem run_of_failing {e : ε} (hfail : ∀ i < maxRetries, attempts i ≠ none)
    (hlast : attempts maxRetries = some e) :
    run maxRetries attempts = .failed maxRetries e := by
  rw [run, runFor_succ, runFor_of_failing (Nat.le_refl _) hfail, hlast, step, if_pos (by omega)]

theorem run_of_success (hn : n ≤ maxRetries) (hsuccess : attempts n = none) :
    run maxRetries attempts = .succeeded := by
  induction n using Nat.strong_induction_on with
  | h n ih =>
    by_cases hearlier : ∃ i < n, attempts i = none
    · obtain ⟨i, hi, hnone⟩ := hearlier
      exact ih i hi (by omega) hnone
    · have hfail : ∀ i < n, attempts i ≠ none := fun i hi hnone => hearlier ⟨i, hi, hnone⟩
      have hdone : runFor maxRetries attempts (n + 1) = .succeeded := by
        rw [runFor_succ, runFor_of_failing hn hfail, hsuccess]
        rfl
      exact runFor_of_succeeded (by omega) hdone

end BoundedRetry
