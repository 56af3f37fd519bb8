import DarajaWrapper.System.TokenWorld

/-!
# Refreshing the token

The lock is there so that one process refreshes the token while the others wait for it
in the cache. This holds until the first refresh comes to its finally block, which takes
the token out of the cache again. The invariant follows the first refresh: nobody has
tried the lock, one call holds it, or its token is cached.
-/

namespace DarajaWrapper

namespace TokenWorld

variable {settings : TokenSettings} {w w' : TokenWorld} {c : TokenCall} {stage : TokenStage}
  {id : ℕ}

/-- Every request of a lock holder succeeds a poll interval before its lock lapses. -/
def Punctual (w : TokenWorld) : Prop :=
  ∀ c ∈ w.calls, ∀ deadline ∈ c.stage.lock?, w.now + pollIntervalMs ≤ deadline

/-- API processes only, Redis healthy, and OAuth requests that succeed in time, with a token that
is not empty and lives long enough. -/
def Promised (settings : TokenSettings) (w : TokenWorld) (action : TokenAction) : Prop :=
  w.Punctual ∧
    match action with
    | .tick _ => True
    | .call _ process link => process = .api ∧ link = .up
    | .acquire _ link => link = .up ∧ 0 < settings.tokenLockTtlMs
    | .poll _ link => link = .up
    | .request _ => True
    | .reply _ reply link => link = .up ∧ reply.succeeds settings = true
    | .release _ link => link = .up

instance (w : TokenWorld) : Decidable w.Punctual :=
  inferInstanceAs (Decidable (∀ c ∈ w.calls, ∀ deadline ∈ c.stage.lock?, _))

instance (settings : TokenSettings) (w : TokenWorld) :
    ∀ action, Decidable (w.Promised settings action)
  | .tick _ => inferInstanceAs (Decidable (_ ∧ True))
  | .call _ _ _ => inferInstanceAs (Decidable (_ ∧ _ ∧ _))
  | .acquire _ _ => inferInstanceAs (Decidable (_ ∧ _ ∧ _))
  | .poll _ _ => inferInstanceAs (Decidable (_ ∧ _))
  | .request _ => inferInstanceAs (Decidable (_ ∧ True))
  | .reply _ _ _ => inferInstanceAs (Decidable (_ ∧ _ ∧ _))
  | .release _ _ => inferInstanceAs (Decidable (_ ∧ _))

/-- No finally block runs while a token is cached, and no call takes the lock then. -/
def Guarded (w : TokenWorld) : TokenAction → Prop
  | .acquire _ _ => (liveEntry w.now w.cached).isSome → (liveEntry w.now w.lock).isSome
  | .release _ _ => liveEntry w.now w.cached = none
  | _ => True

instance (w : TokenWorld) : ∀ action, Decidable (w.Guarded action)
  | .acquire _ _ => inferInstanceAs (Decidable (_ → _))
  | .release _ _ => inferInstanceAs (Decidable (_ = none))
  | .tick _ => .isTrue trivial
  | .call _ _ _ => .isTrue trivial
  | .poll _ _ => .isTrue trivial
  | .request _ => .isTrue trivial
  | .reply _ _ _ => .isTrue trivial

/-- The TTL of the first token has not lapsed. -/
def Unlapsed (settings : TokenSettings) (w : TokenWorld) : Prop :=
  ∀ issue ∈ w.issues.head?, w.now < issue.lapse settings

instance (settings : TokenSettings) (w : TokenWorld) : Decidable (w.Unlapsed settings) :=
  inferInstanceAs (Decidable (∀ issue ∈ w.issues.head?, _))

/-- One OAuth request at most, every call returns its token, and behind the refresh the token is
cached and the lock is free. -/
structure SingleFlight (w : TokenWorld) : Prop where
  once : w.requests.length ≤ 1
  same : ∀ c ∈ w.calls, ∀ token source, c.stage = .returned token source →
    ∃ issue, w.issues = [issue] ∧ token = issue.token
  answered : ∀ c ∈ w.calls, ∀ e, c.stage ≠ .raised e
  settled : ∀ c ∈ w.calls, ∀ token, c.stage = .returned token .refresh →
    (liveEntry w.now w.cached).isSome ∧ liveEntry w.now w.lock = none

/-- A refreshing call that returns leaves no token behind: its finally block has deleted it. -/
theorem not_singleFlight_of_release {token : String} (hc : w.call? id = some c)
    (hstage : c.stage = .releasing (.ok token)) (hlive : w.Unlapsed settings)
    (hstep : step settings w (.release id .up) = some w') :
    w'.Unlapsed settings ∧ ¬ w'.SingleFlight := by
  simp only [step, hc, Option.bind_eq_bind, Option.bind_some, hstage, Option.some.injEq] at hstep
  subst hstep
  refine ⟨hlive, ?_⟩
  intro hflight
  have hcached := (hflight.settled _ (mem_calls_put (call?_eq_some hc).1) token rfl).1
  cases hcached

def ApiOnly (w : TokenWorld) : Prop := ∀ c ∈ w.calls, c.process = .api

theorem ApiOnly.step {action : TokenAction} (h : w.ApiOnly) (hok : w.Promised settings action)
    (hstep : w.step settings action = some w') : w'.ApiOnly := by
  rcases step_cases hstep with ⟨d, rfl⟩ | ⟨id, process, link, rfl, rfl⟩ |
    ⟨base, c, stage, hc, rfl, hcalls, -, -⟩
  · exact h
  · intro c hc
    rcases List.mem_append.mp hc with hc | hc
    · exact h c hc
    · rw [List.mem_singleton.mp hc]
      exact hok.2.1
  · apply forall_put
    · intro o ho _
      rw [hcalls] at ho
      exact h o ho
    · exact h c hc

theorem issues_prefix {action : TokenAction} (hstep : w.step settings action = some w') :
    w.now ≤ w'.now ∧ w.issues <+: w'.issues := by
  rcases step_cases hstep with ⟨d, rfl⟩ | ⟨id, process, link, rfl, rfl⟩ |
    ⟨base, c, stage, -, rfl, -, hnow, hissues⟩
  · exact ⟨Nat.le_add_right _ _, List.prefix_refl _⟩
  · exact ⟨le_rfl, List.prefix_refl _⟩
  · exact ⟨hnow.ge, hissues⟩

theorem Unlapsed.of_step {action : TokenAction} (h : w'.Unlapsed settings)
    (hstep : w.step settings action = some w') : w.Unlapsed settings := by
  intro issue hissue
  obtain ⟨hnow, rest, hrest⟩ := issues_prefix hstep
  have hhead : issue ∈ w'.issues.head? := by
    rw [← hrest, List.head?_append, hissue]
    rfl
  exact lt_of_le_of_lt hnow (h issue hhead)

/-- No call has tried the lock. -/
structure Idle (w : TokenWorld) : Prop where
  cached : w.cached = none
  lock : w.lock = none
  requests : w.requests = []
  issues : w.issues = []
  calls : ∀ c ∈ w.calls, c.stage = .missed

/-- A call without the lock: it has not tried for it, or its polls last longer than the lock has
left when it must have been used. -/
def Waits (settings : TokenSettings) (deadline : ℕ) (stage : TokenStage) : Prop :=
  stage = .missed ∨ ∃ left wake, stage = .polling left wake ∧
    deadline + pollIntervalMs * settings.maxPolls ≤
      wake + pollIntervalMs * left + settings.tokenLockTtlMs

/-- One call holds the lock and has not got its token; the others wait. -/
structure Refreshing (settings : TokenSettings) (w : TokenWorld) (holder : TokenCall)
    (deadline : ℕ) : Prop where
  cached : w.cached = none
  lock : w.lock = some ⟨"1", deadline⟩
  issues : w.issues = []
  deadline_le : deadline ≤ w.now + settings.tokenLockTtlMs
  mem : holder ∈ w.calls
  stage : holder.stage = .fetching (some deadline) ∧ w.requests = [] ∨
    holder.stage = .requested (some deadline) ∧ w.requests.length = 1
  calls : ∀ c ∈ w.calls, c.id = holder.id ∧ c.stage = holder.stage ∨
    c.id ≠ holder.id ∧ Waits settings deadline c.stage

/-- A call while the first token is cached. -/
def Served (token : String) (stage : TokenStage) : Prop :=
  stage = .missed ∨ (∃ left wake, stage = .polling left wake) ∨ stage = .returned token .cache ∨
    stage = .releasing (.ok token)

section Served

variable {token found : String} {source : TokenSource} {lock : Option ℕ} {e : TokenError}

theorem Served.not_fetching : ¬ Served token (.fetching lock) := by
  simp [Served]

theorem Served.not_requested : ¬ Served token (.requested lock) := by
  simp [Served]

theorem Served.not_raised : ¬ Served token (.raised e) := by
  simp [Served]

theorem Served.returned (h : Served token (.returned found source)) :
    found = token ∧ source = .cache := by
  simpa [Served] using h

end Served

/-- The holder has its token and has put it into the cache. -/
structure Cached (settings : TokenSettings) (w : TokenWorld) (issue : TokenIssue) : Prop where
  token : issue.token ≠ ""
  cached : w.cached = some ⟨issue.token, issue.lapse settings⟩
  issues : w.issues = [issue]
  requests : w.requests.length = 1
  polls : 0 < settings.maxPolls
  calls : ∀ c ∈ w.calls, Served issue.token c.stage

inductive Phase (settings : TokenSettings) (w : TokenWorld) : Prop
  | idle (h : w.Idle)
  | refreshing {holder : TokenCall} {deadline : ℕ} (h : w.Refreshing settings holder deadline)
  | cached {issue : TokenIssue} (h : w.Cached settings issue)

theorem Idle.step {action : TokenAction} (h : w.Idle) (hok : w.Promised settings action)
    (hstep : w.step settings action = some w') : w'.Phase settings := by
  -- every call is about to try the lock, so no other step is enabled
  cases action with
  | tick d =>
    cases hstep
    exact .idle ⟨h.cached, h.lock, h.requests, h.issues, h.calls⟩
  | call id process link =>
    obtain ⟨-, rfl⟩ := call_eq_some hstep
    obtain ⟨-, rfl, rfl⟩ := hok
    refine .idle ⟨h.cached, h.lock, h.requests, h.issues, ?_⟩
    intro c hc
    rcases List.mem_append.mp hc with hc | hc
    · exact h.calls c hc
    · rw [List.mem_singleton.mp hc, h.cached]
      rfl
  | acquire id link =>
    obtain ⟨c, hc, -, -, rfl⟩ := acquire_eq_some hstep
    obtain ⟨-, rfl, hpos⟩ := hok
    have hacquired : acquireLock settings w.now .up w.lock =
        (.fetching (some (w.now + settings.tokenLockTtlMs)),
          some ⟨"1", w.now + settings.tokenLockTtlMs⟩) := by
      have hne : settings.tokenLockTtlMs ≠ 0 := by omega
      simp [acquireLock, h.lock, hne]
    rw [hacquired]
    refine .refreshing ⟨h.cached, rfl, h.issues, le_rfl, mem_calls_put hc, ?_, ?_⟩
    · exact Or.inl ⟨rfl, h.requests⟩
    · apply forall_put
      · intro o ho hne
        exact Or.inr ⟨hne, Or.inl (h.calls o ho)⟩
      · exact Or.inl ⟨rfl, rfl⟩
  | poll id link =>
    obtain ⟨c, hc, -, left, wake, hstage, -⟩ := poll_eq_some hstep
    cases (h.calls c hc).symm.trans hstage
  | request id =>
    obtain ⟨c, hc, -, lock, hstage, -⟩ := request_eq_some hstep
    cases (h.calls c hc).symm.trans hstage
  | reply id reply link =>
    obtain ⟨c, hc, -, lock, hstage, -⟩ := reply_eq_some hstep
    cases (h.calls c hc).symm.trans hstage
  | release id link =>
    obtain ⟨c, hc, -, fetched, hstage, -⟩ := release_eq_some hstep
    cases (h.calls c hc).symm.trans hstage

variable {holder : TokenCall} {deadline : ℕ}

theorem Refreshing.punctual (h : w.Refreshing settings holder deadline) (hok : w.Punctual) :
    w.now + pollIntervalMs ≤ deadline := by
  apply hok holder h.mem
  rcases h.stage with ⟨hstage, -⟩ | ⟨hstage, -⟩ <;> rw [hstage] <;> rfl

theorem Refreshing.waits (h : w.Refreshing settings holder deadline) (hc : c ∈ w.calls)
    (hlock : c.stage.lock? = none) : c.id ≠ holder.id ∧ Waits settings deadline c.stage := by
  rcases h.calls c hc with ⟨-, heq⟩ | hwaits
  · rw [heq] at hlock
    rcases h.stage with ⟨hstage, -⟩ | ⟨hstage, -⟩ <;> rw [hstage] at hlock <;> cases hlock
  · exact hwaits

theorem Refreshing.holds (h : w.Refreshing settings holder deadline) (hc : c ∈ w.calls)
    (hmissed : c.stage ≠ .missed) (hpolling : ∀ left wake, c.stage ≠ .polling left wake) :
    c.id = holder.id ∧ c.stage = holder.stage := by
  rcases h.calls c hc with heq | ⟨-, hstage | ⟨left, wake, hstage, -⟩⟩
  · exact heq
  · exact absurd hstage hmissed
  · exact absurd hstage (hpolling left wake)

theorem Refreshing.others (h : w.Refreshing settings holder deadline) (hc : c ∈ w.calls)
    (hne : c.id ≠ holder.id) : Waits settings deadline c.stage := by
  rcases h.calls c hc with ⟨hid, -⟩ | ⟨-, hwaits⟩
  · exact absurd hid hne
  · exact hwaits

theorem Refreshing.put (h : w.Refreshing settings holder deadline) (hne : c.id ≠ holder.id)
    (hwaits : Waits settings deadline stage) :
    (w.put c stage).Refreshing settings holder deadline where
  cached := h.cached
  lock := h.lock
  issues := h.issues
  deadline_le := h.deadline_le
  mem := Rows.mem_update_of_ne h.mem hne.symm
  stage := h.stage
  calls := by
    apply forall_put
    · intro o ho _
      exact h.calls o ho
    · exact Or.inr ⟨hne, hwaits⟩

/-- The last poll of a call comes when the holder must have used its lock. -/
theorem Refreshing.waits_pollNext (h : w.Refreshing settings holder deadline) (hok : w.Punctual)
    {left : ℕ} (hleft : deadline + pollIntervalMs * settings.maxPolls ≤
      w.now + pollIntervalMs * left + settings.tokenLockTtlMs) :
    Waits settings deadline (pollNext w.now left) := by
  have hpunctual := h.punctual hok
  have hmod : settings.tokenLockTtlMs < pollIntervalMs * settings.maxPolls + pollIntervalMs := by
    have hdiv := Nat.div_add_mod settings.tokenLockTtlMs pollIntervalMs
    have hlt := Nat.mod_lt settings.tokenLockTtlMs (by decide : pollIntervalMs > 0)
    rw [TokenSettings.maxPolls]
    omega
  cases left with
  | zero => omega
  | succ left =>
    refine Or.inr ⟨left, w.now + pollIntervalMs, rfl, ?_⟩
    rw [Nat.mul_succ] at hleft
    omega

theorem Refreshing.call (h : w.Refreshing settings holder deadline) (hnew : w.call? id = none) :
    Refreshing settings { w with calls := w.calls ++
      [⟨id, .api, getToken .api .up (cachedToken w.now w.cached)⟩] } holder deadline := by
  refine ⟨h.cached, h.lock, h.issues, h.deadline_le, List.mem_append_left _ h.mem, h.stage, ?_⟩
  intro c hc
  rcases List.mem_append.mp hc with hc | hc
  · exact h.calls c hc
  · rw [List.mem_singleton.mp hc, h.cached]
    refine Or.inr ⟨?_, Or.inl rfl⟩
    intro heq
    have hfind := List.find?_eq_none.mp hnew holder h.mem
    simp [← heq] at hfind

/-- The lock is live, so SET NX is refused. -/
theorem Refreshing.acquireLock_eq (h : w.Refreshing settings holder deadline) (hok : w.Punctual)
    (hpos : 0 < settings.tokenLockTtlMs) :
    acquireLock settings w.now .up w.lock = (pollNext w.now settings.maxPolls, w.lock) := by
  have hne : settings.tokenLockTtlMs ≠ 0 := by omega
  have hlive : w.now < deadline := by
    have hpunctual := h.punctual hok
    rw [pollIntervalMs] at hpunctual
    omega
  simp [acquireLock, h.lock, hne, liveEntry_some, hlive]

theorem Refreshing.request (h : w.Refreshing settings holder deadline) (hc : c ∈ w.calls)
    {lock : Option ℕ} (hstage : c.stage = .fetching lock) :
    Refreshing settings
      (TokenWorld.put { w with requests := w.requests ++ [w.now] } c (.requested lock))
      { c with stage := .requested lock } deadline := by
  obtain ⟨hid, heq⟩ := h.holds hc (by rw [hstage]; nofun) (by rw [hstage]; nofun)
  rcases h.stage with ⟨hfetching, hrequests⟩ | ⟨hrequested, -⟩
  · rw [← heq, hstage] at hfetching
    cases hfetching
    refine ⟨h.cached, h.lock, h.issues, h.deadline_le, mem_calls_put hc, ?_, ?_⟩
    · refine Or.inr ⟨rfl, ?_⟩
      change (w.requests ++ [w.now]).length = 1
      rw [hrequests]
      rfl
    · apply forall_put
      · intro o ho hne
        exact Or.inr ⟨hne, h.others ho (hid ▸ hne)⟩
      · exact Or.inl ⟨rfl, rfl⟩
  · rw [← heq, hstage] at hrequested
    cases hrequested

theorem Refreshing.reply (h : w.Refreshing settings holder deadline) (hok : w.Punctual)
    (hc : c ∈ w.calls) {lock : Option ℕ} (hstage : c.stage = .requested lock) {token : String}
    (htoken : token ≠ "") (expiresIn : ℤ) :
    ((issue settings w .up token expiresIn).put c (afterFetch lock (.ok token))).Phase
      settings := by
  obtain ⟨hid, heq⟩ := h.holds hc (by rw [hstage]; nofun) (by rw [hstage]; nofun)
  rcases h.stage with ⟨hfetching, -⟩ | ⟨hrequested, hrequests⟩
  · rw [← heq, hstage] at hfetching
    cases hfetching
  · rw [← heq, hstage] at hrequested
    cases hrequested
    have hpolls : 0 < settings.maxPolls := by
      have hpunctual := h.punctual hok
      have hle := h.deadline_le
      exact Nat.div_pos (by omega) (by decide)
    have hissues : w.issues ++ [⟨token, w.now, expiresIn⟩] = [⟨token, w.now, expiresIn⟩] := by
      rw [h.issues]
      rfl
    refine .cached ⟨htoken, rfl, hissues, hrequests, hpolls, ?_⟩
    apply forall_put
    · intro o ho hne
      rcases h.others ho (hid ▸ hne) with hmissed | ⟨left, wake, hpolling, -⟩
      · exact Or.inl hmissed
      · exact Or.inr (Or.inl ⟨left, wake, hpolling⟩)
    · exact Or.inr (Or.inr (Or.inr rfl))

theorem Refreshing.step {action : TokenAction} (h : w.Refreshing settings holder deadline)
    (hok : w.Promised settings action) (hstep : w.step settings action = some w') :
    w'.Phase settings := by
  cases action with
  | tick d =>
    cases hstep
    refine .refreshing ⟨h.cached, h.lock, h.issues, ?_, h.mem, h.stage, h.calls⟩
    have hle := h.deadline_le
    change deadline ≤ w.now + d + settings.tokenLockTtlMs
    omega
  | call id process link =>
    obtain ⟨hnew, rfl⟩ := call_eq_some hstep
    obtain ⟨-, rfl, rfl⟩ := hok
    exact .refreshing (h.call hnew)
  | acquire id link =>
    obtain ⟨c, hc, -, hstage, rfl⟩ := acquire_eq_some hstep
    obtain ⟨hok, rfl, hpos⟩ := hok
    obtain ⟨hne, -⟩ := h.waits hc (by rw [hstage]; rfl)
    rw [h.acquireLock_eq hok hpos]
    apply Phase.refreshing
    apply h.put hne
    apply h.waits_pollNext hok
    have hle := h.deadline_le
    omega
  | poll id link =>
    obtain ⟨c, hc, -, left, wake, hstage, hwake, rfl⟩ := poll_eq_some hstep
    obtain ⟨hok, rfl⟩ := hok
    obtain ⟨hne, hmissed | ⟨left', wake', heq, hleft⟩⟩ := h.waits hc (by rw [hstage]; rfl)
    · rw [hstage] at hmissed
      cases hmissed
    · rw [hstage] at heq
      cases heq
      apply Phase.refreshing
      apply h.put hne
      rw [h.cached]
      apply h.waits_pollNext hok
      omega
  | request id =>
    obtain ⟨c, hc, -, lock, hstage, rfl⟩ := request_eq_some hstep
    exact .refreshing (h.request hc hstage)
  | reply id reply link =>
    obtain ⟨c, hc, -, lock, hstage, hread⟩ := reply_eq_some hstep
    obtain ⟨hok, rfl, hreply⟩ := hok
    rcases hread with ⟨token, expiresIn, hread, rfl⟩ | ⟨e, hread, -⟩
    · exact h.reply hok hc hstage (OAuthReply.succeeds_ok hreply hread) expiresIn
    · exact absurd hread (OAuthReply.read_ne_error hreply e)
  | release id link =>
    obtain ⟨c, hc, -, fetched, hstage, -⟩ := release_eq_some hstep
    obtain ⟨-, heq⟩ := h.holds hc (by rw [hstage]; nofun) (by rw [hstage]; nofun)
    rw [hstage] at heq
    rcases h.stage with ⟨hfetching, -⟩ | ⟨hrequested, -⟩
    · rw [hfetching] at heq
      cases heq
    · rw [hrequested] at heq
      cases heq

variable {issue : TokenIssue}

theorem Cached.put (h : w.Cached settings issue) (hserved : Served issue.token stage) :
    (w.put c stage).Cached settings issue :=
  ⟨h.token, h.cached, h.issues, h.requests, h.polls,
    forall_put (fun o ho _ => h.calls o ho) hserved⟩

theorem Cached.step {action : TokenAction} (h : w.Cached settings issue) (hapi : w.ApiOnly)
    (hlive : w.now < issue.lapse settings) (hok : w.Promised settings action)
    (hguard : w.Guarded action) (hstep : w.step settings action = some w') :
    w'.Cached settings issue := by
  have hentry : liveEntry w.now w.cached = some ⟨issue.token, issue.lapse settings⟩ := by
    rw [h.cached]
    exact liveEntry_some hlive
  have htoken : cachedToken w.now w.cached = some issue.token := by
    simp [cachedToken, hentry, Option.filter, h.token]
  cases action with
  | tick d =>
    cases hstep
    exact ⟨h.token, h.cached, h.issues, h.requests, h.polls, h.calls⟩
  | call id process link =>
    obtain ⟨-, rfl⟩ := call_eq_some hstep
    obtain ⟨-, rfl, rfl⟩ := hok
    refine ⟨h.token, h.cached, h.issues, h.requests, h.polls, ?_⟩
    intro c hc
    rcases List.mem_append.mp hc with hc | hc
    · exact h.calls c hc
    · rw [List.mem_singleton.mp hc, htoken]
      exact Or.inr (Or.inr (Or.inl rfl))
  | acquire id link =>
    obtain ⟨c, hc, -, -, rfl⟩ := acquire_eq_some hstep
    obtain ⟨-, rfl, hpos⟩ := hok
    -- the lock has not lapsed, so the call polls
    obtain ⟨held, hheld⟩ := Option.isSome_iff_exists.mp (hguard (by rw [hentry]; rfl))
    obtain ⟨polls, hpolls⟩ : ∃ polls, settings.maxPolls = polls + 1 :=
      ⟨settings.maxPolls - 1, by have := h.polls; omega⟩
    have hne : settings.tokenLockTtlMs ≠ 0 := by omega
    have hstage : (acquireLock settings w.now .up w.lock).1 =
        .polling polls (w.now + pollIntervalMs) := by
      simp [acquireLock, hne, hheld, hpolls, pollNext]
    rw [hstage]
    have hlocked : Cached settings { w with lock := (acquireLock settings w.now .up w.lock).2 }
        issue := ⟨h.token, h.cached, h.issues, h.requests, h.polls, h.calls⟩
    exact hlocked.put (Or.inr (Or.inl ⟨_, _, rfl⟩))
  | poll id link =>
    obtain ⟨c, hc, -, left, wake, -, -, rfl⟩ := poll_eq_some hstep
    obtain ⟨-, rfl⟩ := hok
    apply h.put
    rw [htoken, hapi c hc]
    exact Or.inr (Or.inr (Or.inl rfl))
  | request id =>
    obtain ⟨c, hc, -, lock, hstage, -⟩ := request_eq_some hstep
    exact absurd (hstage ▸ h.calls c hc) Served.not_fetching
  | reply id reply link =>
    obtain ⟨c, hc, -, lock, hstage, -⟩ := reply_eq_some hstep
    exact absurd (hstage ▸ h.calls c hc) Served.not_requested
  | release id link =>
    have hgone : liveEntry w.now w.cached = none := hguard
    rw [hentry] at hgone
    cases hgone

theorem Phase.step {action : TokenAction} (h : w.Phase settings) (hapi : w.ApiOnly)
    (hlive : w.Unlapsed settings) (hok : w.Promised settings action) (hguard : w.Guarded action)
    (hstep : w.step settings action = some w') : w'.Phase settings := by
  cases h with
  | idle h => exact h.step hok hstep
  | refreshing h => exact h.step hok hstep
  | cached h =>
    have hlapse := hlive _ (by rw [h.issues]; rfl)
    exact .cached (h.step hapi hlapse hok hguard hstep)

theorem Idle.singleFlight (h : w.Idle) : w.SingleFlight where
  once := by
    rw [h.requests]
    exact Nat.zero_le 1
  same := by
    intro c hc token source heq
    cases heq.symm.trans (h.calls c hc)
  answered := by
    intro c hc e heq
    cases heq.symm.trans (h.calls c hc)
  settled := by
    intro c hc token heq
    cases heq.symm.trans (h.calls c hc)

theorem Refreshing.singleFlight (h : w.Refreshing settings holder deadline) : w.SingleFlight := by
  have hunanswered : ∀ c ∈ w.calls, (∀ token source, c.stage ≠ .returned token source) ∧
      ∀ e, c.stage ≠ .raised e := by
    intro c hc
    rcases h.calls c hc with ⟨-, heq⟩ | ⟨-, heq | ⟨left, wake, heq, -⟩⟩
    · rcases h.stage with ⟨hstage, -⟩ | ⟨hstage, -⟩ <;> rw [heq, hstage] <;> exact ⟨nofun, nofun⟩
    · rw [heq]
      exact ⟨nofun, nofun⟩
    · rw [heq]
      exact ⟨nofun, nofun⟩
  constructor
  · rcases h.stage with ⟨-, hrequests⟩ | ⟨-, hrequests⟩
    · rw [hrequests]
      exact Nat.zero_le 1
    · exact hrequests.le
  · intro c hc token source heq
    exact absurd heq ((hunanswered c hc).1 token source)
  · intro c hc
    exact (hunanswered c hc).2
  · intro c hc token heq
    exact absurd heq ((hunanswered c hc).1 token .refresh)

theorem Cached.singleFlight (h : w.Cached settings issue) : w.SingleFlight where
  once := h.requests.le
  same := by
    intro c hc token source heq
    have hreturned := Served.returned (heq ▸ h.calls c hc)
    exact ⟨issue, h.issues, hreturned.1⟩
  answered := by
    intro c hc e heq
    exact Served.not_raised (heq ▸ h.calls c hc)
  settled := by
    intro c hc token heq
    have hreturned := Served.returned (heq ▸ h.calls c hc)
    cases hreturned.2

theorem Phase.singleFlight (h : w.Phase settings) : w.SingleFlight := by
  cases h with
  | idle h => exact h.singleFlight
  | refreshing h => exact h.singleFlight
  | cached h => exact h.singleFlight

/-- One refresh at a time until the finally block of the first one, which breaks the contract. -/
theorem single_flight_until_release (settings : TokenSettings) (now : ℕ)
    {actions : List TokenAction} {w : TokenWorld}
    (hok : Machine.Meets (step settings) (fun w a => w.Promised settings a ∧ w.Guarded a)
      (initial now) actions)
    (hrun : Machine.run (step settings) (initial now) actions = some w)
    (hlive : w.Unlapsed settings) :
    w.SingleFlight ∧ ∀ id c token w', w.call? id = some c → c.stage = .releasing (.ok token) →
      step settings w (.release id .up) = some w' → w'.Unlapsed settings ∧ ¬ w'.SingleFlight := by
  have hphase : w.ApiOnly ∧ (w.Unlapsed settings → w.Phase settings) := by
    apply Machine.run_invariant_of_meets _ _ hok hrun
    · refine ⟨nofun, fun _ => .idle ⟨rfl, rfl, rfl, rfl, nofun⟩⟩
    · rintro v action v' - ⟨hapi, hphase⟩ ⟨hpromised, hguarded⟩ hstep
      refine ⟨hapi.step hpromised hstep, fun hlive' => ?_⟩
      have hlive := hlive'.of_step hstep
      exact (hphase hlive).step hapi hlive hpromised hguarded hstep
  refine ⟨(hphase.2 hlive).singleFlight, ?_⟩
  intro id c token w' hc hstage hstep
  exact not_singleFlight_of_release hc hstage hlive hstep

/-- Two calls find no token, the second waits for that of the first, and a third finds it. -/
def sharedActions : List TokenAction :=
  [.call 1 .api .up, .call 2 .api .up, .acquire 1 .up, .acquire 2 .up, .request 1, .tick 500,
   .reply 1 (.issued "token" none) .up, .poll 2 .up, .call 3 .api .up]

theorem single_flight_until_release_sample :
    ∃ w, Machine.run (step {}) (initial 0) sharedActions = some w ∧ w.SingleFlight ∧
      w.calls.countP (fun c => c.stage matches .returned "token" _) = 2 := by
  have hok : Machine.Meets (step {}) (fun w a => w.Promised {} a ∧ w.Guarded a) (initial 0)
      sharedActions := by
    decide +kernel
  exact ⟨_, rfl, (single_flight_until_release {} 0 hok rfl (by decide +kernel)).1, by decide⟩

def sampleActions : List TokenAction :=
  [.call 1 .api .up, .acquire 1 .up, .request 1, .tick 500, .reply 1 (.issued "token" none) .up]

/-- The finally block of one undisturbed call leaves the cache empty, and the lock held. -/
theorem release_drops_token :
    ∃ w, Machine.Meets (step {}) (Promised {}) (initial 0) (sampleActions ++ [.release 1 .up]) ∧
      Machine.run (step {}) (initial 0) (sampleActions ++ [.release 1 .up]) = some w ∧
      w.Unlapsed {} ∧ liveEntry w.now w.cached = none ∧ (liveEntry w.now w.lock).isSome ∧
      ¬ w.SingleFlight := by
  refine ⟨_, by decide +kernel, rfl, by decide +kernel, by decide +kernel, by decide +kernel, ?_⟩
  intro h
  have hlive := (h.settled _ List.mem_cons_self "token" rfl).1
  cases hlive

end TokenWorld

end DarajaWrapper
