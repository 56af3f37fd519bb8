import DarajaWrapper.Daraja.Auth
import DarajaWrapper.Library.Machine
import DarajaWrapper.Library.Rows

/-!
# Processes that share a token

Any number of processes call `get_token` over one cache key and one lock key, in any
interleaving of their steps and of time. The OAuth requests and the tokens that were
issued are kept as a history.
-/

namespace DarajaWrapper

structure TokenCall where
  id : ℕ
  process : ProcessKind
  stage : TokenStage

structure TokenIssue where
  token : String
  time : ℕ
  expiresIn : ℤ

/-- The time at which the cached token lapses. -/
def TokenIssue.lapse (settings : TokenSettings) (issue : TokenIssue) : ℕ :=
  issue.time + settings.cacheTtlMs issue.expiresIn

structure TokenWorld where
  now : ℕ
  /-- `TOKEN_CACHE_KEY`. -/
  cached : Option RedisEntry
  /-- `TOKEN_LOCK_KEY`. -/
  lock : Option RedisEntry
  calls : List TokenCall
  /-- The times of the OAuth requests. -/
  requests : List ℕ
  issues : List TokenIssue

inductive TokenAction where
  | tick (d : ℕ)
  | call (id : ℕ) (process : ProcessKind) (link : Link)
  | acquire (id : ℕ) (link : Link)
  | poll (id : ℕ) (link : Link)
  | request (id : ℕ)
  | reply (id : ℕ) (reply : OAuthReply) (link : Link)
  | release (id : ℕ) (link : Link)

namespace TokenWorld

def initial (now : ℕ) : TokenWorld := ⟨now, none, none, [], [], []⟩

def call? (w : TokenWorld) (id : ℕ) : Option TokenCall := w.calls.find? fun c => c.id = id

def put (w : TokenWorld) (c : TokenCall) (stage : TokenStage) : TokenWorld :=
  { w with calls := Rows.update (·.id) c.id (fun _ => { c with stage := stage }) w.calls }

/-- One step of one call, or of time. `none`: the call is not at this point. -/
def step (settings : TokenSettings) (w : TokenWorld) : TokenAction → Option TokenWorld
  | .tick d => some { w with now := w.now + d }
  | .call id process link =>
    if w.call? id = none then
      let stage := getToken process link (cachedToken w.now w.cached)
      some { w with calls := w.calls ++ [⟨id, process, stage⟩] }
    else none
  | .acquire id link => do
    let c ← w.call? id
    match c.stage with
    | .missed =>
      let (stage, lock) := acquireLock settings w.now link w.lock
      some (put { w with lock := lock } c stage)
    | _ => none
  | .poll id link => do
    let c ← w.call? id
    match c.stage with
    | .polling left wake =>
      if wake ≤ w.now then
        some (w.put c (poll c.process link w.now (cachedToken w.now w.cached) left))
      else none
    | _ => none
  | .request id => do
    let c ← w.call? id
    match c.stage with
    | .fetching lock => some (put { w with requests := w.requests ++ [w.now] } c (.requested lock))
    | _ => none
  | .reply id reply link => do
    let c ← w.call? id
    match c.stage with
    | .requested lock =>
      match reply.read with
      | .ok (token, expiresIn) =>
        let entry : RedisEntry := ⟨token, w.now + settings.cacheTtlMs expiresIn⟩
        let issue : TokenIssue := ⟨token, w.now, expiresIn⟩
        let issued := { w with cached := redisSetex link w.cached entry,
                               issues := w.issues ++ [issue] }
        some (issued.put c (afterFetch lock (.ok token)))
      | .error e => some (w.put c (afterFetch lock (.error e)))
    | _ => none
  | .release id link => do
    let c ← w.call? id
    match c.stage with
    | .releasing fetched =>
      let (stage, cached) := release link fetched w.cached
      some (put { w with cached := cached } c stage)
    | _ => none

variable {settings : TokenSettings} {w w' : TokenWorld} {c : TokenCall} {stage : TokenStage}
  {id : ℕ} {process : ProcessKind} {link : Link} {answer : OAuthReply}

theorem call?_eq_some (h : w.call? id = some c) : c ∈ w.calls ∧ c.id = id := Rows.mem_of_find? h

theorem mem_calls_put (hc : c ∈ w.calls) : { c with stage := stage } ∈ (w.put c stage).calls := by
  unfold put
  exact Rows.mem_update_of_mem hc rfl

theorem forall_put {Q : TokenCall → Prop} (hothers : ∀ o ∈ w.calls, o.id ≠ c.id → Q o)
    (hnew : Q { c with stage := stage }) : ∀ o ∈ (w.put c stage).calls, Q o := by
  intro o ho
  rcases Rows.mem_update.mp ho with ⟨-, -, -, rfl⟩ | ⟨hmem, hne⟩
  · exact hnew
  · exact hothers o hmem hne

theorem call_eq_some (h : step settings w (.call id process link) = some w') :
    w.call? id = none ∧
      w' = { w with calls := w.calls ++
        [⟨id, process, getToken process link (cachedToken w.now w.cached)⟩] } := by
  rw [step] at h
  split at h
  · rename_i hnew
    exact ⟨hnew, (Option.some.inj h).symm⟩
  · cases h

theorem acquire_eq_some (h : step settings w (.acquire id link) = some w') :
    ∃ c ∈ w.calls, c.id = id ∧ c.stage = .missed ∧
      w' = put { w with lock := (acquireLock settings w.now link w.lock).2 } c
        (acquireLock settings w.now link w.lock).1 := by
  simp only [step, Option.bind_eq_bind, Option.bind_eq_some_iff] at h
  obtain ⟨c, hc, h⟩ := h
  obtain ⟨hmem, hid⟩ := call?_eq_some hc
  split at h
  · rename_i hstage
    exact ⟨c, hmem, hid, hstage, (Option.some.inj h).symm⟩
  · cases h

theorem poll_eq_some (h : step settings w (.poll id link) = some w') :
    ∃ c ∈ w.calls, c.id = id ∧ ∃ left wake, c.stage = .polling left wake ∧ wake ≤ w.now ∧
      w' = w.put c (poll c.process link w.now (cachedToken w.now w.cached) left) := by
  simp only [step, Option.bind_eq_bind, Option.bind_eq_some_iff] at h
  obtain ⟨c, hc, h⟩ := h
  obtain ⟨hmem, hid⟩ := call?_eq_some hc
  split at h
  · rename_i left wake hstage
    split at h
    · rename_i hwake
      exact ⟨c, hmem, hid, left, wake, hstage, hwake, (Option.some.inj h).symm⟩
    · cases h
  · cases h

theorem request_eq_some (h : step settings w (.request id) = some w') :
    ∃ c ∈ w.calls, c.id = id ∧ ∃ lock, c.stage = .fetching lock ∧
      w' = put { w with requests := w.requests ++ [w.now] } c (.requested lock) := by
  simp only [step, Option.bind_eq_bind, Option.bind_eq_some_iff] at h
  obtain ⟨c, hc, h⟩ := h
  obtain ⟨hmem, hid⟩ := call?_eq_some hc
  split at h
  · rename_i lock hstage
    exact ⟨c, hmem, hid, lock, hstage, (Option.some.inj h).symm⟩
  · cases h

def issue (settings : TokenSettings) (w : TokenWorld) (link : Link) (token : String)
    (expiresIn : ℤ) : TokenWorld :=
  { w with cached := redisSetex link w.cached ⟨token, w.now + settings.cacheTtlMs expiresIn⟩,
           issues := w.issues ++ [⟨token, w.now, expiresIn⟩] }

theorem reply_eq_some (h : step settings w (.reply id answer link) = some w') :
    ∃ c ∈ w.calls, c.id = id ∧ ∃ lock, c.stage = .requested lock ∧
      ((∃ token expiresIn, answer.read = .ok (token, expiresIn) ∧
        w' = (issue settings w link token expiresIn).put c (afterFetch lock (.ok token))) ∨
      ∃ e, answer.read = .error e ∧ w' = w.put c (afterFetch lock (.error e))) := by
  simp only [step, Option.bind_eq_bind, Option.bind_eq_some_iff] at h
  obtain ⟨c, hc, h⟩ := h
  obtain ⟨hmem, hid⟩ := call?_eq_some hc
  split at h
  · rename_i lock hstage
    refine ⟨c, hmem, hid, lock, hstage, ?_⟩
    split at h
    · rename_i token expiresIn hread
      exact Or.inl ⟨token, expiresIn, hread, (Option.some.inj h).symm⟩
    · rename_i e hread
      exact Or.inr ⟨e, hread, (Option.some.inj h).symm⟩
  · cases h

theorem release_eq_some (h : step settings w (.release id link) = some w') :
    ∃ c ∈ w.calls, c.id = id ∧ ∃ fetched, c.stage = .releasing fetched ∧
      w' = put { w with cached := (release link fetched w.cached).2 } c
        (release link fetched w.cached).1 := by
  simp only [step, Option.bind_eq_bind, Option.bind_eq_some_iff] at h
  obtain ⟨c, hc, h⟩ := h
  obtain ⟨hmem, hid⟩ := call?_eq_some hc
  split at h
  · rename_i fetched hstage
    exact ⟨c, hmem, hid, fetched, hstage, (Option.some.inj h).symm⟩
  · cases h

/-- A step lets time pass, adds a call, or moves one call, which may issue a token. -/
theorem step_cases {action : TokenAction} (h : step settings w action = some w') :
    (∃ d, w' = { w with now := w.now + d }) ∨
      (∃ id process link, action = .call id process link ∧ w' = { w with calls := w.calls ++
        [⟨id, process, getToken process link (cachedToken w.now w.cached)⟩] }) ∨
      ∃ base c stage, c ∈ w.calls ∧ w' = put base c stage ∧ base.calls = w.calls ∧
        base.now = w.now ∧ w.issues <+: base.issues := by
  cases action with
  | tick d => exact Or.inl ⟨d, (Option.some.inj h).symm⟩
  | call id process link =>
    exact Or.inr (Or.inl ⟨id, process, link, rfl, (call_eq_some h).2⟩)
  | acquire id link =>
    obtain ⟨c, hc, -, -, hw⟩ := acquire_eq_some h
    exact Or.inr (Or.inr ⟨_, c, _, hc, hw, rfl, rfl, List.prefix_refl _⟩)
  | poll id link =>
    obtain ⟨c, hc, -, left, wake, -, -, hw⟩ := poll_eq_some h
    exact Or.inr (Or.inr ⟨w, c, _, hc, hw, rfl, rfl, List.prefix_refl _⟩)
  | request id =>
    obtain ⟨c, hc, -, lock, -, hw⟩ := request_eq_some h
    exact Or.inr (Or.inr ⟨_, c, _, hc, hw, rfl, rfl, List.prefix_refl _⟩)
  | reply id reply link =>
    obtain ⟨c, hc, -, lock, -, ⟨token, expiresIn, -, hw⟩ | ⟨e, -, hw⟩⟩ := reply_eq_some h
    · exact Or.inr (Or.inr ⟨_, c, _, hc, hw, rfl, rfl, List.prefix_append _ _⟩)
    · exact Or.inr (Or.inr ⟨w, c, _, hc, hw, rfl, rfl, List.prefix_refl _⟩)
  | release id link =>
    obtain ⟨c, hc, -, fetched, -, hw⟩ := release_eq_some h
    exact Or.inr (Or.inr ⟨_, c, _, hc, hw, rfl, rfl, List.prefix_refl _⟩)

end TokenWorld

end DarajaWrapper
