import Mathlib.Data.Rat.Defs
import Mathlib.Tactic.Common

/-!
# Settings

The settings that the modelled code reads, within the bounds that `Settings`
enforces. Lifetimes of Redis keys are not among them: a key may lapse at any
moment.
-/

namespace DarajaWrapper

structure Settings where
  circuitBreakerFailureThreshold : ℕ := 5
  circuitBreakerRecoveryTimeout : ℕ := 60
  darajaRetryAttempts : ℕ := 3
  threshold_pos : 1 ≤ circuitBreakerFailureThreshold := by decide
  recovery_pos : 1 ≤ circuitBreakerRecoveryTimeout := by decide
  attempts_pos : 1 ≤ darajaRetryAttempts := by decide
  attempts_le : darajaRetryAttempts ≤ 5 := by decide

end DarajaWrapper
