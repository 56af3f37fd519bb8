import DarajaWrapper.Daraja.Client
import DarajaWrapper.Library.CircuitBreaker

/-!
# The circuit breaker of a client

The module describes a breaker that opens at the threshold and probes after the
recovery timeout. The client keeps the three columns of its state and counts as
described, but `_on_failure` never sets OPEN. So it is the described breaker only
until that one would open for the first time.
-/

namespace DarajaWrapper

open CircuitBreaker

/-- What happens at one client: a `post` starts, or an attempt of some `post` ends. -/
inductive ClientEvent where
  | post (now : ℚ)
  | attempt (now : ℚ) (n : ℕ) (reply : AttemptReply)

def AttemptReply.succeeds : AttemptReply → Bool
  | response status _ json => status < 400 && json.isSome
  | _ => false

/-- What an event tells the breaker. A 5xx reply is recorded as a failure where it is received and
once more where it is caught. -/
def ClientEvent.signals : ClientEvent → List (BreakerSignal ℚ)
  | .post now => [.request now]
  | .attempt now _ (.response status _ json) =>
    if 500 ≤ status then [.failure now, .failure now]
    else if status < 400 && json.isSome then [.success]
    else []
  | .attempt now _ reply => if reply.ambiguous then [.failure now] else []

def CircuitState.mode : CircuitState → BreakerMode
  | closed => .closed
  | opened => .opened
  | halfOpen => .halfOpen

namespace DarajaClient

variable {settings : Settings} {c : DarajaClient} {b : CircuitBreaker ℚ}

def breaker (c : DarajaClient) : CircuitBreaker ℚ :=
  ⟨c.failureCount, c.lastFailureTime, c.state.mode⟩

def handle (settings : Settings) (c : DarajaClient) : ClientEvent → DarajaClient
  | .post now => (c.checkCircuit settings now).toOption.getD c
  | .attempt now n reply => (DarajaWrapper.attempt settings now n c reply).1

/-- The breaker that the module describes, after an event. -/
def described (settings : Settings) (b : CircuitBreaker ℚ) (e : ClientEvent) : CircuitBreaker ℚ :=
  b.run settings.circuitBreakerFailureThreshold settings.circuitBreakerRecoveryTimeout e.signals

/-- Whether a `post` at this time sends anything. -/
def letsThrough (settings : Settings) (c : DarajaClient) (now : ℚ) : Bool :=
  (c.checkCircuit settings now).isOk

/-- The client is in the state of the described breaker before and after every event, and lets a
`post` through exactly when that one does. -/
def Simulates (settings : Settings) : DarajaClient → CircuitBreaker ℚ → List ClientEvent → Prop
  | c, b, [] => c.breaker = b
  | c, b, e :: es =>
    c.breaker = b ∧
      (∀ now, e = .post now → c.letsThrough settings now =
        b.admits (settings.circuitBreakerRecoveryTimeout : ℚ) now) ∧
      Simulates settings (c.handle settings e) (described settings b e) es

theorem onFailure_eq (settings : Settings) (now : ℚ) (c : DarajaClient) :
    c.onFailure settings now =
      { c with failureCount := c.failureCount + 1, lastFailureTime := now } := by
  simp only [onFailure, ite_self]

theorem Simulates.breaker_eq {es : List ClientEvent} (h : Simulates settings c b es) :
    c.breaker = b := by
  cases es with
  | nil => exact h
  | cons e es => exact h.1

theorem letsThrough_eq (now : ℚ) :
    c.letsThrough settings now =
      c.breaker.admits (settings.circuitBreakerRecoveryTimeout : ℚ) now := by
  unfold letsThrough checkCircuit
  cases hs : c.state with
  | closed => simp [admits, breaker, CircuitState.mode, hs, Except.isOk, Except.toBool]
  | halfOpen => simp [admits, breaker, CircuitState.mode, hs, Except.isOk, Except.toBool]
  | opened =>
    by_cases hle : (settings.circuitBreakerRecoveryTimeout : ℚ) ≤ now - c.lastFailureTime
    · simp [admits, breaker, CircuitState.mode, hs, hle, Except.isOk, Except.toBool]
    · simp [admits, breaker, CircuitState.mode, hs, hle, Except.isOk, Except.toBool]

def record (settings : Settings) (c : DarajaClient) : BreakerSignal ℚ → DarajaClient
  | .request now => (c.checkCircuit settings now).toOption.getD c
  | .failure now => c.onFailure settings now
  | .success => c.onSuccess

theorem handle_eq (e : ClientEvent) :
    c.handle settings e = e.signals.foldl (record settings) c := by
  cases e with
  | post now => rfl
  | attempt now n reply =>
    cases reply with
    | authError e => rfl
    | tokenError => rfl
    | timeout => rfl
    | transportError => rfl
    | response status text json =>
      simp only [handle, DarajaWrapper.attempt, executeRequest, ClientEvent.signals]
      by_cases h5 : 500 ≤ status
      · simp [h5, record]
      · by_cases h401 : status = 401
        · simp [h401]
        · by_cases h4 : 400 ≤ status
          · have hlt : ¬ status < 400 := by omega
            simp [h5, h401, h4, hlt]
          · have hlt : status < 400 := by omega
            cases json with
            | none => simp [h5, h401, h4]
            | some body => simp [h5, h401, h4, hlt, record]

/-- The client is closed, and counts what the breaker counts. -/
structure Counts (c : DarajaClient) (b : CircuitBreaker ℚ) : Prop where
  closed : c.state = .closed
  failures : c.failureCount = b.failures
  lastFailure : c.lastFailureTime = b.lastFailure

theorem Counts.record {threshold : ℕ} {recovery : ℚ} (h : Counts c b) (signal : BreakerSignal ℚ) :
    Counts (c.record settings signal) (b.step threshold recovery signal) := by
  cases signal with
  | request now =>
    have hclient : c.record settings (.request now) = c := by
      simp [DarajaClient.record, checkCircuit, h.closed, Except.toOption]
    rw [hclient]
    simp only [step]
    split_ifs
    · exact ⟨h.closed, h.failures, h.lastFailure⟩
    · exact h
  | failure now =>
    rw [DarajaClient.record, onFailure_eq]
    exact ⟨h.closed, congrArg (· + 1) h.failures, rfl⟩
  | success => exact ⟨rfl, rfl, h.lastFailure⟩

theorem Counts.handle (h : Counts c b) (e : ClientEvent) :
    Counts (c.handle settings e) (described settings b e) := by
  rw [handle_eq, described, run]
  induction e.signals generalizing c b with
  | nil => exact h
  | cons signal signals ih => exact ih (h.record signal)

theorem Counts.breaker_eq_iff (h : Counts c b) : c.breaker = b ↔ b.mode = .closed := by
  obtain ⟨failures, lastFailure, mode⟩ := b
  simp [breaker, h.closed, CircuitState.mode, h.failures, h.lastFailure, eq_comm]

end DarajaClient

theorem ClientEvent.signals_of_success {e : ClientEvent} (h : .success ∈ e.signals) :
    e.signals = [.success] := by
  cases e with
  | post now => simp [signals] at h
  | attempt now n reply =>
    cases reply with
    | response status text json =>
      simp only [signals] at h ⊢
      split_ifs at h ⊢
      · simp at h
      · rfl
      · simp at h
    | authError e => simp [signals, AttemptReply.ambiguous] at h
    | tokenError => simp [signals, AttemptReply.ambiguous] at h
    | timeout => simp [signals, AttemptReply.ambiguous] at h
    | transportError => simp [signals, AttemptReply.ambiguous] at h

/-- Within one event, a streak stays below the threshold when it does at its end. -/
theorem ClientEvent.streak_lt {threshold n : ℕ} {e : ClientEvent}
    {early : List (BreakerSignal ℚ)} (hearly : early <+: e.signals) (hn : n < threshold)
    (hend : streak n e.signals < threshold) : streak n early < threshold := by
  obtain ⟨late, hlate⟩ := hearly
  by_cases hsuccess : BreakerSignal.success ∈ late
  · have hsignals := e.signals_of_success (hlate ▸ List.mem_append_right early hsuccess)
    cases early with
    | nil => exact hn
    | cons signal early =>
      rw [hsignals, List.cons_append, List.cons.injEq, List.append_eq_nil_iff] at hlate
      rw [hlate.2.2] at hsuccess
      cases hsuccess
  · have hle := le_streak (streak n early) hsuccess
    rw [← streak_append, hlate] at hle
    omega

/-- In no stretch of the sequence without a success are as many failures recorded as the threshold
says. -/
def StaysBelow (threshold : ℕ) (events : List ClientEvent) : Prop :=
  ∀ early, early <+: events → streak 0 (early.flatMap ClientEvent.signals) < threshold

namespace DarajaClient

variable {settings : Settings} {c : DarajaClient} {b : CircuitBreaker ℚ}

theorem below_described (h : Below settings.circuitBreakerFailureThreshold b) (e : ClientEvent) :
    Below settings.circuitBreakerFailureThreshold (described settings b e) :=
  below_run settings.threshold_pos h e.signals

theorem simulates_iff_streak {events : List ClientEvent} (h : Counts c b)
    (hclosed : b.mode = .closed) (hbelow : Below settings.circuitBreakerFailureThreshold b) :
    Simulates settings c b events ↔ ∀ early, early <+: events →
      streak b.failures (early.flatMap ClientEvent.signals) <
        settings.circuitBreakerFailureThreshold := by
  induction events generalizing c b with
  | nil =>
    constructor
    · intro _ early hearly
      rw [List.prefix_nil.mp hearly]
      exact hbelow hclosed
    · intro _
      exact h.breaker_eq_iff.mpr hclosed
  | cons e events ih =>
    have hfailures : (described settings b e).failures = streak b.failures e.signals :=
      failures_run e.signals
    constructor
    · rintro ⟨-, -, hrest⟩ early hearly
      cases early with
      | nil => exact hbelow hclosed
      | cons e' early =>
        obtain ⟨rfl, htail⟩ := List.cons_prefix_cons.mp hearly
        -- the client never opens, so neither has the described breaker
        have hmode := (h.handle e').breaker_eq_iff.mp hrest.breaker_eq
        have hlt := (ih (h.handle e') hmode (below_described hbelow e')).mp hrest early htail
        rwa [hfailures, ← streak_append] at hlt
    · intro hstreak
      have hend : streak b.failures e.signals < settings.circuitBreakerFailureThreshold := by
        simpa using hstreak [e] (List.cons_prefix_cons.mpr ⟨rfl, List.nil_prefix⟩)
      have hmode : (described settings b e).mode = .closed := by
        apply mode_run_of_streak hclosed
        intro early hearly
        exact ClientEvent.streak_lt hearly (hbelow hclosed) hend
      have hsame := h.breaker_eq_iff.mpr hclosed
      refine ⟨hsame, ?_, ?_⟩
      · intro now _
        rw [letsThrough_eq, hsame]
      · apply (ih (h.handle e) hmode (below_described hbelow e)).mpr
        intro early hearly
        rw [hfailures, ← streak_append]
        exact hstreak (e :: early) (List.cons_prefix_cons.mpr ⟨rfl, hearly⟩)

theorem counts_init : Counts {} ⟨0, 0, .closed⟩ := ⟨rfl, rfl, rfl⟩

theorem below_init : Below settings.circuitBreakerFailureThreshold ⟨0, (0 : ℚ), .closed⟩ :=
  fun _ => settings.threshold_pos

/-- A client is the breaker that its module describes on exactly those sequences in which that
breaker never opens. -/
theorem simulates_iff (settings : Settings) (events : List ClientEvent) :
    Simulates settings {} ⟨0, 0, .closed⟩ events ↔
      StaysBelow settings.circuitBreakerFailureThreshold events :=
  simulates_iff_streak counts_init rfl below_init

def timeouts : List ClientEvent :=
  [.post 0, .attempt 10 1 .timeout, .attempt 20 2 .timeout, .attempt 30 3 .timeout,
   .post 40, .attempt 50 1 .timeout, .attempt 60 2 .timeout, .attempt 70 3 .timeout, .post 71]

theorem breaker_never_opens :
    ¬ ∀ settings events, Simulates settings {} ⟨0, 0, .closed⟩ events := by
  intro h
  have hstreak := (simulates_iff_streak counts_init rfl below_init).mp (h {} timeouts) timeouts
    List.prefix_rfl
  revert hstreak
  decide

end DarajaClient
end DarajaWrapper
