import DarajaWrapper.System.TokenWorld

/-!
# What is read from the token cache

A cached token is read where `get_token` starts and at every poll. An API process
gets it as it was stored; a worker never does. What is read has not expired as
long as every token lives for a minute, which is the least TTL of an entry.
-/

namespace DarajaWrapper

namespace TokenWorld

variable {settings : TokenSettings} {w w' : TokenWorld} {c : TokenCall} {stage : TokenStage}
  {id : ℕ} {process : ProcessKind} {action : TokenAction} {token : String}

def stage? (w : TokenWorld) (id : ℕ) : Option TokenStage := (w.call? id).map (·.stage)

theorem stage?_put (hc : w.call? c.id = some c) : (w.put c stage).stage? c.id = some stage := by
  have hfind : (w.put c stage).call? c.id =
      (w.call? c.id).map fun _ => { c with stage := stage } := Rows.find?_update fun _ _ => rfl
  rw [stage?, hfind, hc]
  rfl

/-- A call of a process of this kind asks a healthy Redis for the token: when it starts, or while
another call holds the lock. -/
inductive Reads (w : TokenWorld) (id : ℕ) (process : ProcessKind) : TokenAction → Prop
  | hit : Reads w id process (.call id process .up)
  | poll {c : TokenCall} (hc : w.call? id = some c) (hprocess : c.process = process) :
      Reads w id process (.poll id .up)

/-- A live token is returned as it was stored, without an OAuth request, to API processes only,
and only when it is not empty. -/
theorem cached_token_returned_iff {entry : RedisEntry}
    (hlive : liveEntry w.now w.cached = some entry) (hreads : w.Reads id process action)
    (hstep : w.step settings action = some w') :
    (w'.stage? id = some (.returned entry.value .cache) ∧ w'.requests = w.requests) ↔
      process = .api ∧ entry.value ≠ "" := by
  have hcached : cachedToken w.now w.cached = some entry.value ↔ entry.value ≠ "" := by
    rw [cachedToken_eq_some_iff, hlive]
    simp
  cases hreads with
  | hit =>
    obtain ⟨hnew, rfl⟩ := call_eq_some hstep
    have hstage : stage? { w with calls := w.calls ++
        [⟨id, process, getToken process .up (cachedToken w.now w.cached)⟩] } id =
          some (getToken process .up (cachedToken w.now w.cached)) := by
      rw [call?] at hnew
      simp [stage?, call?, List.find?_append, hnew]
    rw [hstage, Option.some.injEq, getToken_eq_returned_iff, hcached]
    simp
  | @poll c hc hprocess =>
    have hid : c.id = id := (call?_eq_some hc).2
    simp only [step, hc, Option.bind_eq_bind, Option.bind_some] at hstep
    split at hstep
    · split_ifs at hstep
      cases hstep
      rw [← hid, stage?_put (hid ▸ hc), Option.some.injEq, poll_eq_returned_iff, hcached, hprocess]
      simp [put]
    · cases hstep

def degradedFetch : List TokenAction :=
  [.call 1 .api .down, .request 1, .reply 1 (.issued "token" none) .up, .tick 1000]

def storedToken : RedisEntry := ⟨"token", 3300000⟩

def cachedWorld : TokenWorld :=
  ⟨1000, some storedToken, none, [⟨1, .api, .returned "token" .direct⟩], [0], [⟨"token", 0, 3600⟩]⟩

example : Machine.run (step {}) (initial 0) degradedFetch = some cachedWorld := rfl

theorem cached_token_returned_sample :
    ∃ w', cachedWorld.step {} (.call 2 .api .up) = some w' ∧
      w'.stage? 2 = some (.returned "token" .cache) ∧ w'.requests = [0] := by
  have hlive : liveEntry cachedWorld.now cachedWorld.cached = some storedToken := by decide +kernel
  obtain ⟨w', hstep⟩ : ∃ w', cachedWorld.step {} (.call 2 .api .up) = some w' := ⟨_, rfl⟩
  exact ⟨w', hstep, (cached_token_returned_iff hlive .hit hstep).mpr ⟨rfl, by decide⟩⟩

theorem cached_token_raises :
    ¬ ∀ (settings : TokenSettings) (actions : List TokenAction) (w w' : TokenWorld)
      (action : TokenAction) (id : ℕ) (process : ProcessKind) (entry : RedisEntry),
      Machine.run (step settings) (initial 0) actions = some w →
      liveEntry w.now w.cached = some entry → w.Reads id process action →
      w.step settings action = some w' →
      w'.stage? id = some (.returned entry.value .cache) ∧ w'.requests = w.requests := by
  intro h
  have hread := h {} degradedFetch cachedWorld _ (.call 2 .worker .up) 2 .worker storedToken rfl
    (by decide +kernel) .hit rfl
  cases hread.1

/-- What a reply issues lives for so many seconds at least. -/
def Lasting (seconds : ℤ) : TokenAction → Prop
  | .reply _ reply _ => ∀ issued ∈ reply.read.toOption, seconds ≤ issued.2
  | _ => True

instance (seconds : ℤ) : ∀ action, Decidable (Lasting seconds action)
  | .reply _ reply _ => inferInstanceAs (Decidable (∀ issued ∈ reply.read.toOption, _))
  | .tick _ => .isTrue trivial
  | .call _ _ _ => .isTrue trivial
  | .acquire _ _ => .isTrue trivial
  | .poll _ _ => .isTrue trivial
  | .request _ => .isTrue trivial
  | .release _ _ => .isTrue trivial

/-- The cached token is one that was issued, cached when it was issued and for the TTL that goes
with its lifetime. -/
structure Recorded (settings : TokenSettings) (w : TokenWorld) : Prop where
  cached : ∀ entry ∈ w.cached, ∃ issue ∈ w.issues,
    issue.token = entry.value ∧ issue.lapse settings = entry.deadline
  lasting : ∀ issue ∈ w.issues, 60 ≤ issue.expiresIn

theorem recorded_initial (now : ℕ) : (initial now).Recorded settings := ⟨nofun, nofun⟩

theorem Recorded.of_eq (h : w.Recorded settings) (hissues : w'.issues = w.issues)
    (hcached : ∀ entry ∈ w'.cached, entry ∈ w.cached) : w'.Recorded settings := by
  constructor
  · intro entry hentry
    rw [hissues]
    exact h.cached entry (hcached entry hentry)
  · rw [hissues]
    exact h.lasting

theorem Recorded.issue {link : Link} {expiresIn : ℤ} (h : w.Recorded settings)
    (hlasting : 60 ≤ expiresIn) : (issue settings w link token expiresIn).Recorded settings := by
  constructor
  · intro entry hentry
    rcases redisSetex_eq_some hentry with hold | rfl
    · obtain ⟨issue, hissue, hentry⟩ := h.cached entry hold
      exact ⟨issue, List.mem_append_left _ hissue, hentry⟩
    · exact ⟨_, List.mem_append_right _ List.mem_cons_self, rfl, rfl⟩
  · intro issue hissue
    rcases List.mem_append.mp hissue with hold | hnew
    · exact h.lasting issue hold
    · rw [List.mem_singleton.mp hnew]
      exact hlasting

theorem Recorded.step (h : w.Recorded settings) (hok : Lasting 60 action)
    (hstep : w.step settings action = some w') : w'.Recorded settings := by
  cases action with
  | tick d =>
    cases hstep
    exact h.of_eq rfl fun _ hentry => hentry
  | call id process link =>
    obtain ⟨-, rfl⟩ := call_eq_some hstep
    exact h.of_eq rfl fun _ hentry => hentry
  | acquire id link =>
    obtain ⟨c, -, -, -, rfl⟩ := acquire_eq_some hstep
    exact h.of_eq rfl fun _ hentry => hentry
  | poll id link =>
    obtain ⟨c, -, -, left, wake, -, -, rfl⟩ := poll_eq_some hstep
    exact h.of_eq rfl fun _ hentry => hentry
  | request id =>
    obtain ⟨c, -, -, lock, -, rfl⟩ := request_eq_some hstep
    exact h.of_eq rfl fun _ hentry => hentry
  | reply id reply link =>
    obtain ⟨c, -, -, lock, -, ⟨token, expiresIn, hread, rfl⟩ | ⟨e, -, rfl⟩⟩ := reply_eq_some hstep
    · have hlasting : 60 ≤ expiresIn := hok (token, expiresIn) (by rw [hread]; rfl)
      exact (h.issue hlasting).of_eq rfl fun _ hentry => hentry
    · exact h.of_eq rfl fun _ hentry => hentry
  | release id link =>
    obtain ⟨c, -, -, fetched, -, rfl⟩ := release_eq_some hstep
    have hdeleted : ∀ entry ∈ (DarajaWrapper.release link fetched w.cached).2, entry ∈ w.cached :=
      fun _ hentry => redisDelete_eq_some hentry
    exact h.of_eq rfl hdeleted

/-- A call that returns a token from the cache has just found it there. -/
theorem cachedToken_of_returned (hstep : w.step settings action = some w') (hc : c ∈ w'.calls)
    (hnew : c ∉ w.calls) (hstage : c.stage = .returned token .cache) :
    cachedToken w.now w.cached = some token := by
  revert c
  cases action with
  | tick d =>
    cases hstep
    intro c hc hnew
    exact absurd hc hnew
  | call id process link =>
    obtain ⟨-, rfl⟩ := call_eq_some hstep
    intro c hc hnew hstage
    rcases List.mem_append.mp hc with hold | hcall
    · exact absurd hold hnew
    · rw [List.mem_singleton.mp hcall] at hstage
      exact (getToken_eq_returned_iff.mp hstage).2.2.1
  | acquire id link =>
    obtain ⟨c, -, -, -, rfl⟩ := acquire_eq_some hstep
    apply forall_put
    · intro o ho _ hnew
      exact absurd ho hnew
    · intro _ hstage
      exact absurd hstage acquireLock_ne_returned
  | poll id link =>
    obtain ⟨c, -, -, left, wake, -, -, rfl⟩ := poll_eq_some hstep
    apply forall_put
    · intro o ho _ hnew
      exact absurd ho hnew
    · intro _ hstage
      exact (poll_eq_returned_iff.mp hstage).2.2.1
  | request id =>
    obtain ⟨c, -, -, lock, -, rfl⟩ := request_eq_some hstep
    apply forall_put
    · intro o ho _ hnew
      exact absurd ho hnew
    · intro _ hstage
      cases hstage
  | reply id reply link =>
    obtain ⟨c, -, -, lock, -, ⟨token, expiresIn, -, rfl⟩ | ⟨e, -, rfl⟩⟩ := reply_eq_some hstep
    · apply forall_put
      · intro o ho _ hnew
        exact absurd ho hnew
      · intro _ hstage
        cases lock <;> cases hstage
    · apply forall_put
      · intro o ho _ hnew
        exact absurd ho hnew
      · intro _ hstage
        cases lock <;> cases hstage
  | release id link =>
    obtain ⟨c, -, -, fetched, -, rfl⟩ := release_eq_some hstep
    apply forall_put
    · intro o ho _ hnew
      exact absurd ho hnew
    · intro _ hstage
      exact absurd hstage (release_ne_returned link fetched w.cached token)

/-- As long as every token lives for a minute, none is returned from the cache after it has
expired. -/
theorem returned_token_unexpired {now : ℕ} {actions : List TokenAction}
    (hok : Machine.Meets (step settings) (fun _ a => Lasting 60 a) (initial now) actions)
    (hrun : Machine.run (step settings) (initial now) actions = some w)
    (hstep : w.step settings action = some w') (hc : c ∈ w'.calls) (hnew : c ∉ w.calls)
    (hstage : c.stage = .returned token .cache) :
    ∃ issue ∈ w.issues, issue.token = token ∧
      (w.now : ℤ) < issue.time + 1000 * issue.expiresIn := by
  have hrecorded : w.Recorded settings := by
    apply Machine.run_invariant_of_meets (recorded_initial now) _ hok hrun
    intro v action v' _ hv hlasting hstep
    exact hv.step hlasting hstep
  obtain ⟨entry, hlive, htoken, -⟩ :=
    cachedToken_eq_some_iff.mp (cachedToken_of_returned hstep hc hnew hstage)
  obtain ⟨hcached, hnow⟩ := liveEntry_eq_some.mp hlive
  obtain ⟨issue, hissue, hvalue, hlapse⟩ := hrecorded.cached entry hcached
  refine ⟨issue, hissue, hvalue.trans htoken, ?_⟩
  have httl := (settings.cacheTtlMs_le_iff).mpr (hrecorded.lasting issue hissue)
  rw [TokenIssue.lapse] at hlapse
  omega

theorem returned_token_unexpired_sample :
    ∃ issue ∈ cachedWorld.issues, issue.token = "token" ∧
      (cachedWorld.now : ℤ) < issue.time + 1000 * issue.expiresIn := by
  have hok : Machine.Meets (step {}) (fun _ a => Lasting 60 a) (initial 0) degradedFetch := by
    decide +kernel
  obtain ⟨w', hstep⟩ : ∃ w', cachedWorld.step {} (.call 2 .api .up) = some w' := ⟨_, rfl⟩
  have hcall : ⟨2, .api, .returned "token" .cache⟩ ∈ w'.calls := by
    cases hstep
    exact List.mem_cons_of_mem _ List.mem_cons_self
  have hnew : ⟨2, .api, .returned "token" .cache⟩ ∉ cachedWorld.calls := by
    simp [cachedWorld]
  exact returned_token_unexpired hok rfl hstep hcall hnew rfl

/-- A token for 30 seconds, and the world 45 seconds later. -/
def shortFetch : List TokenAction :=
  [.call 1 .api .down, .request 1, .reply 1 (.issued "token" (some (.int 30))) .up, .tick 45000]

def shortWorld : TokenWorld :=
  ⟨45000, some ⟨"token", 60000⟩, none, [⟨1, .api, .returned "token" .direct⟩], [0],
    [⟨"token", 0, 30⟩]⟩

/-- The token is read when it has expired. -/
theorem expired_token_returned :
    ¬ ∀ (settings : TokenSettings) (now : ℕ) (actions : List TokenAction) (w w' : TokenWorld)
      (action : TokenAction) (c : TokenCall) (token : String),
      Machine.Meets (step settings) (fun _ a => Lasting 1 a) (initial now) actions →
      Machine.run (step settings) (initial now) actions = some w →
      w.step settings action = some w' → c ∈ w'.calls → c ∉ w.calls →
      c.stage = .returned token .cache →
      ∃ issue ∈ w.issues, issue.token = token ∧
        (w.now : ℤ) < issue.time + 1000 * issue.expiresIn := by
  intro h
  have hok : Machine.Meets (step {}) (fun _ a => Lasting 1 a) (initial 0) shortFetch := by
    decide +kernel
  obtain ⟨w', hstep⟩ : ∃ w', shortWorld.step {} (.call 2 .api .up) = some w' := ⟨_, rfl⟩
  have hcall : ⟨2, .api, .returned "token" .cache⟩ ∈ w'.calls := by
    cases hstep
    exact List.mem_cons_of_mem _ List.mem_cons_self
  have hnew : ⟨2, .api, .returned "token" .cache⟩ ∉ shortWorld.calls := by
    simp [shortWorld]
  obtain ⟨issue, hissue, -, hlt⟩ := h {} 0 shortFetch shortWorld w' _ _ _ hok rfl hstep hcall
    hnew rfl
  rw [List.mem_singleton.mp hissue] at hlt
  revert hlt
  decide +kernel

end TokenWorld

end DarajaWrapper
