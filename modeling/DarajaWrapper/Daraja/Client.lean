import DarajaWrapper.Config
import DarajaWrapper.Exceptions

/-!
# The Daraja client

The circuit breaker of one client object and one attempt of `DarajaClient.post`.
The retry loop makes attempts until one is decisive: a timeout or transport
error (a 5xx is turned into one) is retried while attempts are left, everything
else ends the call. When they are used up the iterator raises its own
`RetryError`, which no clause of `post` catches.
-/

namespace DarajaWrapper

open Python

inductive CircuitState where
  | closed
  | opened
  | halfOpen
  deriving DecidableEq, Repr

structure DarajaClient where
  failureCount : ℕ := 0
  lastFailureTime : ℚ := 0
  state : CircuitState := .closed

namespace DarajaClient

def checkCircuit (settings : Settings) (now : ℚ) (c : DarajaClient) :
    Except DarajaError DarajaClient :=
  match c.state with
  | .closed => .ok c
  | .opened =>
    let elapsed := now - c.lastFailureTime
    let timeout : ℚ := settings.circuitBreakerRecoveryTimeout
    if timeout ≤ elapsed then .ok { c with state := .halfOpen }
    else .error { cls := .circuitOpen ⌊timeout - elapsed⌋ }
  | .halfOpen => .ok c

def onSuccess (c : DarajaClient) : DarajaClient := { c with failureCount := 0, state := .closed }

/-- `_on_failure`. The branch that announces an open circuit compares the state with OPEN and
drops the result; it assigns nothing. -/
def onFailure (settings : Settings) (now : ℚ) (c : DarajaClient) : DarajaClient :=
  let counted := { c with failureCount := c.failureCount + 1, lastFailureTime := now }
  if settings.circuitBreakerFailureThreshold ≤ counted.failureCount ∨ counted.state = .halfOpen then
    counted
  else counted

end DarajaClient

/-- What one pass through `_execute_request` meets: the token cannot be had, the request gets
no reply, or a reply arrives. `json` is the decoded body, `none` when `response.json()` raises. -/
inductive AttemptReply where
  | authError (e : DarajaError)
  | tokenError
  | timeout
  | transportError
  | response (status : ℕ) (text : String) (json : Option Json)

namespace AttemptReply

/-- A POST left the process. -/
def sent : AttemptReply → Bool
  | authError _ => false
  | tokenError => false
  | _ => true

/-- The client cannot tell whether Daraja processed the POST. -/
def ambiguous : AttemptReply → Bool
  | timeout => true
  | transportError => true
  | response status _ _ => 500 ≤ status
  | _ => false

end AttemptReply

/-- What `_execute_request` raises. -/
inductive RequestError where
  | timeout
  | transport
  | daraja (e : DarajaError)
  | other

/-- The error of a 4xx reply: its code and message when the body has them. -/
def clientError (status : ℕ) (text : String) (json : Option Json) : DarajaError :=
  let code : Json := .str (toString status)
  let message : Json := .str (String.ofList (text.toList.take 200))
  match json with
  | some (.obj kvs) =>
    { httpStatus := some status
      darajaCode := (kvs.lookup "errorCode").getD code
      darajaDescription := (kvs.lookup "errorMessage").getD message }
  | _ => { httpStatus := some status, darajaCode := code, darajaDescription := message }

def executeRequest (settings : Settings) (now : ℚ) (c : DarajaClient) :
    AttemptReply → DarajaClient × Except RequestError Json
  | .authError e => (c, .error (.daraja e))
  | .tokenError => (c, .error .other)
  | .timeout => (c, .error .timeout)
  | .transportError => (c, .error .transport)
  | .response status text json =>
    if 500 ≤ status then (c.onFailure settings now, .error .transport)
    else if status = 401 then (c, .error (.daraja { httpStatus := some 401 }))
    else if 400 ≤ status then (c, .error (.daraja (clientError status text json)))
    else
      match json with
      | some body => (c, .ok body)
      | none => (c, .error .other)

/-- What one iteration of the retry loop decides. -/
inductive AttemptResult where
  | returned (body : Json)
  | retry
  | raised (e : CallError)

/-- The body of the retry loop at attempt `n`, counted from one. -/
def attempt (settings : Settings) (now : ℚ) (n : ℕ) (c : DarajaClient) (reply : AttemptReply) :
    DarajaClient × AttemptResult :=
  match executeRequest settings now c reply with
  | (c, .ok body) => (c.onSuccess, .returned body)
  | (c, .error (.daraja e)) => (c, .raised (.daraja e))
  | (c, .error .other) => (c, .raised .other)
  | (c, .error _) =>
    (c.onFailure settings now,
      if n < settings.darajaRetryAttempts then .retry else .raised .retryError)

section

variable {settings : Settings} {now : ℚ} {n : ℕ} {c : DarajaClient} {reply : AttemptReply}

/-- The loop goes on exactly after an ambiguous attempt that was not the last. -/
theorem attempt_retry_iff :
    (attempt settings now n c reply).2 = .retry ↔
      reply.ambiguous = true ∧ n < settings.darajaRetryAttempts := by
  cases reply with
  | authError e => simp [attempt, executeRequest, AttemptReply.ambiguous]
  | tokenError => simp [attempt, executeRequest, AttemptReply.ambiguous]
  | timeout => simp [attempt, executeRequest, AttemptReply.ambiguous]
  | transportError => simp [attempt, executeRequest, AttemptReply.ambiguous]
  | response status text json =>
    simp only [attempt, executeRequest, AttemptReply.ambiguous, decide_eq_true_eq]
    by_cases h5 : 500 ≤ status
    · simp [h5]
    · by_cases h401 : status = 401
      · simp [h401]
      · by_cases h4 : 400 ≤ status
        · simp [h5, h401, h4]
        · cases json <;> simp [h5, h401, h4]

theorem attempt_returned {body : Json} (h : (attempt settings now n c reply).2 = .returned body) :
    ∃ status text, reply = .response status text (some body) ∧ status < 400 := by
  cases reply with
  | response status text json =>
    simp only [attempt, executeRequest] at h
    by_cases h5 : 500 ≤ status
    · simp only [h5, if_true] at h
      split_ifs at h
    · by_cases h401 : status = 401
      · simp [h401] at h
      · by_cases h4 : 400 ≤ status
        · simp [h5, h401, h4] at h
        · cases json with
          | none => simp [h5, h401, h4] at h
          | some b =>
            simp only [h5, h401, h4, if_false, AttemptResult.returned.injEq] at h
            exact ⟨status, text, by rw [h], by omega⟩
  | authError e => simp [attempt, executeRequest] at h
  | tokenError => simp [attempt, executeRequest] at h
  | timeout =>
    simp only [attempt, executeRequest] at h
    split_ifs at h
  | transportError =>
    simp only [attempt, executeRequest] at h
    split_ifs at h

end

end DarajaWrapper
