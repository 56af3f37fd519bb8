import Mathlib.Data.List.Infix
import Mathlib.Order.Lattice
import Mathlib.Tactic.Common

/-!
# Circuit breakers

A breaker counts the failures since the last success. At the threshold, or at a
failure of a probe, it opens and turns requests away until the recovery time has
passed since the last failure; the next request is let through as a probe, and a
success closes the breaker. Requests, failures and successes reach it in any
order, because requests that were let through may still be in flight.
-/

inductive BreakerMode where
  | closed
  | opened
  | halfOpen
  deriving DecidableEq, Repr

/-- What a breaker is told, with the reading of the clock. -/
inductive BreakerSignal (τ : Type*) where
  | request (now : τ)
  | failure (now : τ)
  | success

structure CircuitBreaker (τ : Type*) where
  failures : ℕ
  lastFailure : τ
  mode : BreakerMode
  deriving DecidableEq

namespace CircuitBreaker

variable {τ : Type*}

/-- The failures since the last success, after `n` before the signals. -/
def streak (n : ℕ) : List (BreakerSignal τ) → ℕ
  | [] => n
  | .request _ :: signals => streak n signals
  | .failure _ :: signals => streak (n + 1) signals
  | .success :: signals => streak 0 signals

theorem streak_append (n : ℕ) (signals more : List (BreakerSignal τ)) :
    streak n (signals ++ more) = streak (streak n signals) more := by
  induction signals generalizing n with
  | nil => rfl
  | cons signal signals ih =>
    cases signal with
    | request now => exact ih n
    | failure now => exact ih (n + 1)
    | success => exact ih 0

theorem le_streak (n : ℕ) {signals : List (BreakerSignal τ)}
    (hsuccess : BreakerSignal.success ∉ signals) : n ≤ streak n signals := by
  induction signals generalizing n with
  | nil => exact le_rfl
  | cons signal signals ih =>
    have hrest : BreakerSignal.success ∉ signals := fun h =>
      hsuccess (List.mem_cons_of_mem signal h)
    cases signal with
    | request now => exact ih n hrest
    | failure now =>
      have hle := ih (n + 1) hrest
      change n ≤ streak (n + 1) signals
      omega
    | success => exact absurd List.mem_cons_self hsuccess

variable [Sub τ] [LinearOrder τ] (threshold : ℕ) (recovery : τ)

def admits (b : CircuitBreaker τ) (now : τ) : Bool :=
  b.mode ≠ .opened || recovery ≤ now - b.lastFailure

def step (b : CircuitBreaker τ) : BreakerSignal τ → CircuitBreaker τ
  | .request now =>
    if b.mode = .opened ∧ recovery ≤ now - b.lastFailure then { b with mode := .halfOpen } else b
  | .failure now =>
    { failures := b.failures + 1
      lastFailure := now
      mode := if threshold ≤ b.failures + 1 ∨ b.mode = .halfOpen then .opened else b.mode }
  | .success => { b with failures := 0, mode := .closed }

def run (b : CircuitBreaker τ) (signals : List (BreakerSignal τ)) : CircuitBreaker τ :=
  signals.foldl (step threshold recovery) b

variable {threshold recovery} {b : CircuitBreaker τ} {now : τ}

theorem run_cons (signal : BreakerSignal τ) (signals : List (BreakerSignal τ)) :
    run threshold recovery b (signal :: signals) =
      run threshold recovery (step threshold recovery b signal) signals := rfl

theorem failures_run (signals : List (BreakerSignal τ)) :
    (run threshold recovery b signals).failures = streak b.failures signals := by
  induction signals generalizing b with
  | nil => rfl
  | cons signal signals ih =>
    rw [run_cons, ih]
    cases signal with
    | request now =>
      have hfailures : (step threshold recovery b (.request now)).failures = b.failures := by
        simp only [step]
        split_ifs <;> rfl
      rw [hfailures]
      rfl
    | failure now => rfl
    | success => rfl

/-- A closed breaker has not reached its threshold. -/
def Below (threshold : ℕ) (b : CircuitBreaker τ) : Prop := b.mode = .closed → b.failures < threshold

theorem below_step (hpos : 0 < threshold) (h : Below threshold b) (signal : BreakerSignal τ) :
    Below threshold (step threshold recovery b signal) := by
  intro hclosed
  cases signal with
  | request now =>
    simp only [step] at hclosed ⊢
    split_ifs at hclosed ⊢
    exact h hclosed
  | failure now =>
    simp only [step] at hclosed ⊢
    split_ifs at hclosed with hopens
    omega
  | success => exact hpos

theorem below_run (hpos : 0 < threshold) (h : Below threshold b)
    (signals : List (BreakerSignal τ)) : Below threshold (run threshold recovery b signals) := by
  induction signals generalizing b with
  | nil => exact h
  | cons signal signals ih => exact ih (below_step hpos h signal)

/-- A breaker that starts closed stays closed as long as no streak reaches the threshold. -/
theorem mode_run_of_streak (hclosed : b.mode = .closed) {signals : List (BreakerSignal τ)}
    (hstreak : ∀ early, early <+: signals → streak b.failures early < threshold) :
    (run threshold recovery b signals).mode = .closed := by
  induction signals generalizing b with
  | nil => exact hclosed
  | cons signal signals ih =>
    rw [run_cons]
    cases signal with
    | request now =>
      have hsame : step threshold recovery b (.request now) = b := by simp [step, hclosed]
      rw [hsame]
      apply ih hclosed
      intro early hearly
      exact hstreak (.request now :: early) (List.cons_prefix_cons.mpr ⟨rfl, hearly⟩)
    | failure now =>
      have hlt : b.failures + 1 < threshold :=
        hstreak [.failure now] (List.cons_prefix_cons.mpr ⟨rfl, List.nil_prefix⟩)
      apply ih
      · simp [step, hclosed, hlt]
      · intro early hearly
        exact hstreak (.failure now :: early) (List.cons_prefix_cons.mpr ⟨rfl, hearly⟩)
    | success =>
      apply ih rfl
      intro early hearly
      exact hstreak (.success :: early) (List.cons_prefix_cons.mpr ⟨rfl, hearly⟩)

end CircuitBreaker
