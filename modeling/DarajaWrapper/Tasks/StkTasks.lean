import DarajaWrapper.Schemas.RoundTrip
import DarajaWrapper.System.Callback
import DarajaWrapper.Tasks.DeadLetter

/-!
# The task that processes a callback

`process_stk_callback` validates its payload in every attempt and retries whatever
`process_callback` raises. The deduplication key lives on from one attempt to the next until
it expires, and the attempt that finds it ends the task as a success.
-/

namespace DarajaWrapper

open Python BoundedRetry

/-- What one attempt meets. -/
structure AttemptEnv where
  links : CallbackLinks
  now : ℚ
  table : PaymentsTable
  /-- The key has expired since the attempt before. -/
  expired : Bool
  /-- Since then another delivery of the callback has taken the key. -/
  claimed : Bool
  /-- The text of what is raised, if anything is. -/
  exception : String

/-- The key when the attempt begins, by what the attempt before has left. -/
def AttemptEnv.arriving (e : AttemptEnv) (key : Option ℕ) : Option ℕ :=
  let key := if e.expired then none else key
  if e.claimed then some (key.getD 0) else key

def AttemptEnv.process (e : AttemptEnv) (n : ℕ) (cb : STKCallbackBody) (key : Option ℕ) :
    Option ℕ × PaymentsTable × CallbackOutcome :=
  processCallback e.links e.now n cb (e.arriving key) e.table

variable (envs : ℕ → AttemptEnv) (cb : STKCallbackBody)

/-- The deduplication key after the first attempts. -/
def keyAfter : ℕ → Option ℕ
  | 0 => none
  | n + 1 => ((envs n).process n cb (keyAfter n)).1

/-- The table after an attempt, and how `process_callback` has ended in it. -/
def attemptResult (n : ℕ) : PaymentsTable × CallbackOutcome :=
  ((envs n).process n cb (keyAfter envs cb n)).2

/-- `process_stk_callback`. A payload that is malformed is given up at once, without an error. -/
def processStkCallback (intOf : Json → Option ℤ) (payload : List (String × Json)) : Attempts :=
  fun n =>
    match STKCallbackBody.modelValidate intOf (.obj payload) with
    | none => none
    | some cb =>
      if (attemptResult envs cb n).2 = .raised then some (envs n).exception else none

/-- Somebody has taken the key before this attempt, and it has not expired since. -/
def KeyHeld (n : ℕ) : Prop :=
  ∃ j ≤ n, ((envs j).claimed = true ∨ j < n ∧ (envs j).links.setNx ≠ .down) ∧
    ∀ i, j < i → i ≤ n → (envs i).expired = false

variable {envs cb} {n : ℕ}

section

variable {links : CallbackLinks} {now : ℚ} {key : Option ℕ} {t : PaymentsTable}

theorem processCallback_key :
    (processCallback links now n cb key t).1 = (redisSetNx links.setNx key n).2 := by
  unfold processCallback
  dsimp only
  split_ifs
  · rfl
  · rfl
  · split <;> rfl

theorem processCallback_ignored_iff :
    (processCallback links now n cb key t).2.2 = .ignored ↔
      links.setNx = .up ∧ key.isSome = true := by
  rw [← redisSetNx_refused (v := n)]
  unfold processCallback
  dsimp only
  split_ifs with hrefused hselect
  · simpa using hrefused
  · simpa using hrefused
  · have hfirst : (redisSetNx links.setNx key n).1 = true := by simpa using hrefused
    rw [hfirst]
    split
    · simp
    · dsimp only
      split_ifs <;> simp

theorem processCallback_table_of_ignored
    (h : (processCallback links now n cb key t).2.2 = .ignored) :
    (processCallback links now n cb key t).2.1 = t := by
  have hrefused : (redisSetNx links.setNx key n).1 = false :=
    redisSetNx_refused.mpr (processCallback_ignored_iff.mp h)
  simp [processCallback, hrefused]

theorem redisSetNx_isSome {link : Link} :
    (redisSetNx link key n).2.isSome = true ↔ key.isSome = true ∨ link ≠ .down := by
  cases link <;> simp [redisSetNx]

theorem arriving_isSome {e : AttemptEnv} :
    (e.arriving key).isSome = true ↔
      e.claimed = true ∨ e.expired = false ∧ key.isSome = true := by
  unfold AttemptEnv.arriving
  cases e.claimed <;> cases e.expired <;> simp

end

theorem keyHeld_zero : KeyHeld envs 0 ↔ (envs 0).claimed = true := by
  constructor
  · rintro ⟨j, hj, hclaimed | ⟨hlt, -⟩, -⟩
    · rwa [Nat.le_zero.mp hj] at hclaimed
    · omega
  · intro h
    exact ⟨0, Nat.le_refl _, Or.inl h, fun i hi hi' => by omega⟩

theorem keyHeld_succ :
    KeyHeld envs (n + 1) ↔ (envs (n + 1)).claimed = true ∨
      (envs (n + 1)).expired = false ∧ (KeyHeld envs n ∨ (envs n).links.setNx ≠ .down) := by
  constructor
  · rintro ⟨j, hj, htaken, hkept⟩
    rcases Nat.lt_or_ge n j with hlast | hearlier
    · obtain rfl : j = n + 1 := by omega
      exact Or.inl (htaken.resolve_right fun h => absurd h.1 (Nat.lt_irrefl _))
    · refine Or.inr ⟨hkept (n + 1) (by omega) (Nat.le_refl _), ?_⟩
      have hkept' : ∀ i, j < i → i ≤ n → (envs i).expired = false :=
        fun i hi hi' => hkept i hi (by omega)
      rcases htaken with hclaimed | ⟨-, hset⟩
      · exact Or.inl ⟨j, hearlier, Or.inl hclaimed, hkept'⟩
      · rcases Nat.lt_or_ge j n with hlt | hge
        · exact Or.inl ⟨j, hearlier, Or.inr ⟨hlt, hset⟩, hkept'⟩
        · rw [Nat.le_antisymm hearlier hge] at hset
          exact Or.inr hset
  · rintro (hclaimed | ⟨hexpired, ⟨j, hj, htaken, hkept⟩ | hset⟩)
    · exact ⟨n + 1, Nat.le_refl _, Or.inl hclaimed, fun i hi hi' => by omega⟩
    · refine ⟨j, by omega, htaken.imp_right fun h => ⟨by omega, h.2⟩, fun i hi hi' => ?_⟩
      rcases Nat.lt_or_ge n i with hlast | hearlier
      · obtain rfl : i = n + 1 := by omega
        exact hexpired
      · exact hkept i hi hearlier
    · refine ⟨n, by omega, Or.inr ⟨by omega, hset⟩, fun i hi hi' => ?_⟩
      obtain rfl : i = n + 1 := by omega
      exact hexpired

/-- The key that an attempt finds was taken before and has not expired. -/
theorem arriving_keyAfter_isSome (n : ℕ) :
    ((envs n).arriving (keyAfter envs cb n)).isSome = true ↔ KeyHeld envs n := by
  induction n with
  | zero => simp [arriving_isSome, keyAfter, keyHeld_zero]
  | succ n ih =>
    have hkey : (keyAfter envs cb (n + 1)).isSome = true ↔
        KeyHeld envs n ∨ (envs n).links.setNx ≠ .down := by
      rw [keyAfter, AttemptEnv.process, processCallback_key, redisSetNx_isSome, ih]
    rw [arriving_isSome, hkey, keyHeld_succ]

theorem attemptResult_ignored_iff (cb : STKCallbackBody) :
    (attemptResult envs cb n).2 = .ignored ↔
      (envs n).links.setNx = .up ∧ KeyHeld envs n := by
  rw [attemptResult, AttemptEnv.process, processCallback_ignored_iff, arriving_keyAfter_isSome]

variable {intOf : Json → Option ℤ} {payload : List (String × Json)} {request : TaskRequest}

theorem processStkCallback_eq_none_iff
    (hparse : STKCallbackBody.modelValidate intOf (.obj payload) = some cb) :
    processStkCallback envs intOf payload n = none ↔ (attemptResult envs cb n).2 ≠ .raised := by
  unfold processStkCallback
  rw [hparse]
  simp

/-- An attempt that is made ends the task as a success, with the table as it was and nothing in
the dead letter queue, because it is taken for a duplicate, exactly when it is told that the key
exists. -/
theorem callback_dropped_iff
    (hparse : STKCallbackBody.modelValidate intOf (.obj payload) = some cb)
    (hn : n ≤ request.task.maxRetries)
    (hmade : ∀ i < n, processStkCallback envs intOf payload i ≠ none) :
    (attemptResult envs cb n = ((envs n).table, .ignored) ∧
      runFor request.task.maxRetries (processStkCallback envs intOf payload) (n + 1) =
        .succeeded ∧
      published request (processStkCallback envs intOf payload) = []) ↔
    (envs n).links.setNx = .up ∧ KeyHeld envs n := by
  rw [← attemptResult_ignored_iff cb]
  constructor
  · rintro ⟨hresult, -⟩
    rw [hresult]
  · intro hignored
    have htable : (attemptResult envs cb n).1 = (envs n).table :=
      processCallback_table_of_ignored hignored
    have hends : processStkCallback envs intOf payload n = none := by
      rw [processStkCallback_eq_none_iff hparse, hignored]
      exact nofun
    refine ⟨Prod.ext htable hignored, ?_, published_of_success hn hends⟩
    rw [runFor_succ, runFor_of_failing hn hmade, hends]
    rfl

def updateLost : ℕ → AttemptEnv
  | 0 =>
    { links := { update := .down }, now := 1, table := identifiedTable, expired := false,
      claimed := false, exception := "connection refused" }
  | n + 1 =>
    { links := {}, now := 31 + n, table := identifiedTable, expired := false, claimed := false,
      exception := "" }

theorem updateLost_raises :
    ∀ i < 1, processStkCallback updateLost intValue World.sampleCallback.payload i ≠ none := by
  decide +kernel

theorem callback_dropped_sample :
    (attemptResult updateLost World.sampleCallback 1 =
        ((updateLost 1).table, CallbackOutcome.ignored) ∧
      runFor callbackDelivery.task.maxRetries
        (processStkCallback updateLost intValue World.sampleCallback.payload) (1 + 1) =
        .succeeded ∧
      published callbackDelivery
        (processStkCallback updateLost intValue World.sampleCallback.payload) = []) ↔
    (updateLost 1).links.setNx = .up ∧ KeyHeld updateLost 1 :=
  callback_dropped_iff (STKCallbackBody.modelValidate_payload (fun _ => rfl) _) (by decide)
    updateLost_raises

end DarajaWrapper
