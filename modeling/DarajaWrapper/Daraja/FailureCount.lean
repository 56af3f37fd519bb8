import DarajaWrapper.Daraja.Breaker

/-!
# What a client counts

An attempt that meets a timeout or a transport error is recorded where `post` catches
it. A 5xx reply is recorded where it is received, and then raised as a transport error
and recorded there again. So the count is the number of failed attempts exactly as long
as no 5xx comes in.
-/

namespace DarajaWrapper

def AttemptReply.serverError : AttemptReply → Bool
  | response status _ _ => 500 ≤ status
  | _ => false

/-- How an attempt changes the number of failed attempts since the last success. -/
def ClientEvent.tally (n : ℕ) : ClientEvent → ℕ
  | .post _ => n
  | .attempt _ _ reply => if reply.succeeds then 0 else if reply.ambiguous then n + 1 else n

def ClientEvent.serverError : ClientEvent → Bool
  | .post _ => false
  | .attempt _ _ reply => reply.serverError

/-- The attempts since the last success, or since the start, that ended in a timeout, a transport
error or a 5xx. -/
def failedSinceSuccess (events : List ClientEvent) : ℕ := events.foldl ClientEvent.tally 0

namespace DarajaClient

variable {settings : Settings} {c : DarajaClient} {e : ClientEvent} {events : List ClientEvent}

def after (settings : Settings) (events : List ClientEvent) : DarajaClient :=
  events.foldl (handle settings) {}

def opening (settings : Settings) (c : DarajaClient) : Bool :=
  settings.circuitBreakerFailureThreshold ≤ c.failureCount || c.state = .halfOpen

/-- Between any two attempts of the run the client has counted each failed attempt once, and it
does not come to open while fewer attempts fail than the threshold says. -/
structure CountsOnce (settings : Settings) (events : List ClientEvent) : Prop where
  count : ∀ early, early <+: events → (after settings early).failureCount = failedSinceSuccess early
  quiet : (∀ early, early <+: events →
      failedSinceSuccess early < settings.circuitBreakerFailureThreshold) →
    ∀ early, early <+: events → (after settings early).opening settings = false

@[simp] theorem failureCount_onFailure (settings : Settings) (now : ℚ) (c : DarajaClient) :
    (c.onFailure settings now).failureCount = c.failureCount + 1 := by
  rw [onFailure_eq]

@[simp] theorem state_onFailure (settings : Settings) (now : ℚ) (c : DarajaClient) :
    (c.onFailure settings now).state = c.state := by
  rw [onFailure_eq]

theorem failureCount_checkCircuit (settings : Settings) (now : ℚ) (c : DarajaClient) :
    ((c.checkCircuit settings now).toOption.getD c).failureCount = c.failureCount := by
  unfold checkCircuit
  cases c.state with
  | closed => rfl
  | halfOpen => rfl
  | opened =>
    simp only []
    split_ifs <;> rfl

/-- A 5xx is counted twice, everything else as it should be. -/
theorem failureCount_handle (settings : Settings) (c : DarajaClient) (e : ClientEvent) :
    (c.handle settings e).failureCount =
      e.tally c.failureCount + if e.serverError then 1 else 0 := by
  cases e with
  | post now => exact failureCount_checkCircuit settings now c
  | attempt now n reply =>
    rw [handle_eq]
    cases reply with
    | authError e => rfl
    | tokenError => rfl
    | timeout => exact failureCount_onFailure settings now c
    | transportError => exact failureCount_onFailure settings now c
    | response status text json =>
      simp only [ClientEvent.signals, ClientEvent.tally, ClientEvent.serverError,
        AttemptReply.serverError, AttemptReply.succeeds, AttemptReply.ambiguous]
      by_cases h5 : 500 ≤ status
      · have hlt : ¬ status < 400 := by omega
        simp [h5, hlt, record]
      · by_cases hok : (decide (status < 400) && json.isSome) = true
        · simp [h5, hok, record, onSuccess]
        · simp [h5, hok]

theorem state_handle (h : c.state = .closed) : (c.handle settings e).state = .closed := by
  rw [handle_eq]
  induction e.signals generalizing c with
  | nil => exact h
  | cons signal signals ih =>
    apply ih
    cases signal with
    | request now => simp [record, checkCircuit, h, Except.toOption]
    | failure now => rw [record, state_onFailure, h]
    | success => rfl

theorem state_after (settings : Settings) (events : List ClientEvent) :
    (after settings events).state = .closed := by
  have hfold : ∀ c : DarajaClient, c.state = .closed →
      (events.foldl (handle settings) c).state = .closed := by
    induction events with
    | nil => exact fun c h => h
    | cons e events ih => exact fun c h => ih _ (state_handle h)
  exact hfold {} rfl

theorem failureCount_concat (settings : Settings) (events : List ClientEvent) (e : ClientEvent) :
    (after settings (events ++ [e])).failureCount =
      e.tally (after settings events).failureCount + if e.serverError then 1 else 0 := by
  rw [after, List.foldl_append]
  exact failureCount_handle settings _ e

theorem failureCount_after (h : ∀ e ∈ events, e.serverError = false) :
    (after settings events).failureCount = failedSinceSuccess events := by
  induction events using List.reverseRecOn with
  | nil => rfl
  | append_singleton events e ih =>
    have hlast : e.serverError = false := h e (by simp)
    rw [failureCount_concat, ih fun e' he' => h e' (List.mem_append_left _ he'), hlast,
      failedSinceSuccess, failedSinceSuccess, List.foldl_append]
    rfl

/-- A client counts each failed attempt once in exactly the runs in which no 5xx comes in. -/
theorem countsOnce_iff (settings : Settings) (events : List ClientEvent) :
    CountsOnce settings events ↔ ∀ e ∈ events, e.serverError = false := by
  constructor
  · intro h e he
    by_contra herror
    rw [Bool.not_eq_false] at herror
    obtain ⟨early, late, rfl⟩ := List.append_of_mem he
    have hbefore := h.count early (List.prefix_append _ _)
    have hafter := h.count (early ++ [e]) (by simp)
    rw [failureCount_concat, hbefore, herror, failedSinceSuccess, failedSinceSuccess,
      List.foldl_append] at hafter
    exact Nat.succ_ne_self _ hafter
  · intro h
    have hcount : ∀ early, early <+: events →
        (after settings early).failureCount = failedSinceSuccess early := by
      intro early hearly
      exact failureCount_after fun e he => h e (hearly.subset he)
    refine ⟨hcount, ?_⟩
    intro hfew early hearly
    have hbelow := hfew early hearly
    simp [opening, hcount early hearly, state_after, hbelow]

def unavailable : List ClientEvent :=
  [.post 0, .attempt 1 1 (.response 503 "" none), .attempt 3 2 (.response 503 "" none),
   .attempt 7 3 (.response 503 "" none)]

/-- Three failed attempts are counted as six, and reach a threshold of five. -/
theorem counts_twice : ¬ ∀ settings events, CountsOnce settings events := by
  intro h
  have hfew : ∀ early ∈ unavailable.inits, failedSinceSuccess early < 5 := by decide
  have hquiet := (h {} unavailable).quiet
    (fun early hearly => hfew early ((List.mem_inits early unavailable).mpr hearly))
    unavailable List.prefix_rfl
  revert hquiet
  decide +kernel

end DarajaClient
end DarajaWrapper
