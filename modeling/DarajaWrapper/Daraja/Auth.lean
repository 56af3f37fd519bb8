import DarajaWrapper.Exceptions
import DarajaWrapper.Stores

/-!
# The token manager

`get_token`, cut at the points where another process can act: the read of the
cache, the SET NX of the lock, each poll, the OAuth request, its reply together
with the SETEX that follows it, and the DELETE in the finally block. Times are
milliseconds. `Link.down` stands for every way in which Redis does not do what it is
asked, and says so by an exception.
-/

namespace DarajaWrapper

open Python

structure TokenSettings where
  tokenRefreshMarginSeconds : ℕ := 300
  tokenLockTtlMs : ℕ := 10000
  margin_ge : 60 ≤ tokenRefreshMarginSeconds := by decide

/-- A key of Redis: its value and the time at which it lapses. -/
structure RedisEntry where
  value : String
  deadline : ℕ
  deriving DecidableEq

/-- The entry as Redis has it at this time. -/
def liveEntry (now : ℕ) (slot : Option RedisEntry) : Option RedisEntry :=
  slot.filter fun entry => now < entry.deadline

theorem liveEntry_some {now : ℕ} {entry : RedisEntry} (h : now < entry.deadline) :
    liveEntry now (some entry) = some entry := by
  simp [liveEntry, Option.filter, h]

theorem liveEntry_eq_some {now : ℕ} {slot : Option RedisEntry} {entry : RedisEntry} :
    liveEntry now slot = some entry ↔ slot = some entry ∧ now < entry.deadline := by
  simp [liveEntry, Option.filter_eq_some_iff]

@[simp] theorem liveEntry_none (now : ℕ) : liveEntry now none = none := rfl

/-- The Redis client of an API process returns bytes, that of a Celery worker a `str`. -/
inductive ProcessKind where
  | api
  | worker
  deriving DecidableEq, Repr

/-- `cached.decode()`, which a `str` does not have. -/
def ProcessKind.decode : ProcessKind → String → Option String
  | .api, token => some token
  | .worker, _ => none

/-- What `get_token` raises. -/
inductive TokenError where
  | auth (e : DarajaError)
  /-- An error of Redis, a `str` that is decoded, or a body that is not read. -/
  | other

/-- Where a returned token was found. -/
inductive TokenSource where
  | cache
  /-- Fetched with the lock held. -/
  | refresh
  /-- Fetched without the lock. -/
  | direct
  deriving DecidableEq, Repr

/-- Where a call of `get_token` stands. In `_fetch_new_token`, `lock` is the deadline of the lock
when the call has acquired it. -/
inductive TokenStage where
  /-- The cache had no token: SET NX is next. -/
  | missed
  /-- Asleep until `wake`; `left` polls follow the one after that. -/
  | polling (left wake : ℕ)
  | fetching (lock : Option ℕ)
  | requested (lock : Option ℕ)
  /-- In the finally block. -/
  | releasing (fetched : Except TokenError String)
  | returned (token : String) (source : TokenSource)
  | raised (e : TokenError)

def pollIntervalMs : ℕ := 250

def TokenSettings.maxPolls (settings : TokenSettings) : ℕ :=
  settings.tokenLockTtlMs / pollIntervalMs

/-- The token that a GET returns; an empty one is falsy. -/
def cachedToken (now : ℕ) (slot : Option RedisEntry) : Option String :=
  ((liveEntry now slot).map (·.value)).filter (· ≠ "")

/-- `get_token` up to the read of the cache. -/
def getToken (process : ProcessKind) (link : Link) (cached : Option String) : TokenStage :=
  if link ≠ .up then .fetching none
  else
    match cached with
    | none => .missed
    | some token =>
      match process.decode token with
      | some token => .returned token .cache
      | none => .raised .other

/-- The head of the polling loop, with this many polls to come. -/
def pollNext (now : ℕ) : ℕ → TokenStage
  | 0 => .fetching none
  | left + 1 => .polling left (now + pollIntervalMs)

/-- The SET NX of `_acquire_lock_and_refresh`: the call and the lock afterwards. Redis refuses a
TTL of zero. -/
def acquireLock (settings : TokenSettings) (now : ℕ) (link : Link) (lock : Option RedisEntry) :
    TokenStage × Option RedisEntry :=
  let deadline := now + settings.tokenLockTtlMs
  if link = .down ∨ settings.tokenLockTtlMs = 0 then (.raised .other, lock)
  else
    match liveEntry now lock with
    | some held =>
      (if link = .up then pollNext now settings.maxPolls else .raised .other, some held)
    | none =>
      (if link = .up then .fetching (some deadline) else .raised .other, some ⟨"1", deadline⟩)

/-- One poll; whatever goes wrong in it is passed over. -/
def poll (process : ProcessKind) (link : Link) (now : ℕ) (cached : Option String) (left : ℕ) :
    TokenStage :=
  match (if link = .up then cached else none).bind process.decode with
  | some token => .returned token .cache
  | none => pollNext now left

/-- Only an API process that finds a token in the cache returns at once. -/
theorem getToken_eq_returned_iff {process : ProcessKind} {link : Link} {cached : Option String}
    {token : String} {source : TokenSource} :
    getToken process link cached = .returned token source ↔
      link = .up ∧ process = .api ∧ cached = some token ∧ source = .cache := by
  unfold getToken
  by_cases hlink : link = .up
  · cases process <;> cases cached <;> simp [hlink, ProcessKind.decode, eq_comm]
  · simp [hlink]

theorem pollNext_ne_returned {now left : ℕ} {token : String} {source : TokenSource} :
    pollNext now left ≠ .returned token source := by
  cases left <;> nofun

theorem acquireLock_ne_returned {settings : TokenSettings} {now : ℕ} {link : Link}
    {lock : Option RedisEntry} {token : String} {source : TokenSource} :
    (acquireLock settings now link lock).1 ≠ .returned token source := by
  simp only [acquireLock]
  split_ifs with hfail hup
  · nofun
  · cases liveEntry now lock with
    | none => nofun
    | some held => exact pollNext_ne_returned
  · cases liveEntry now lock with
    | none => nofun
    | some held => nofun

theorem poll_eq_returned_iff {process : ProcessKind} {link : Link} {now left : ℕ}
    {cached : Option String} {token : String} {source : TokenSource} :
    poll process link now cached left = .returned token source ↔
      link = .up ∧ process = .api ∧ cached = some token ∧ source = .cache := by
  unfold poll
  by_cases hlink : link = .up
  · cases process <;> cases cached <;>
      simp [hlink, ProcessKind.decode, pollNext_ne_returned, eq_comm]
  · simp [hlink, pollNext_ne_returned]

theorem cachedToken_eq_some_iff {now : ℕ} {slot : Option RedisEntry} {token : String} :
    cachedToken now slot = some token ↔
      ∃ entry, liveEntry now slot = some entry ∧ entry.value = token ∧ token ≠ "" := by
  unfold cachedToken
  cases liveEntry now slot with
  | none => simp
  | some entry =>
    simp only [Option.map_some, Option.filter_some, Option.ite_none_right_eq_some]
    constructor
    · rintro ⟨hne, heq⟩
      obtain rfl := Option.some.inj heq
      exact ⟨entry, rfl, rfl, by simpa using hne⟩
    · rintro ⟨entry', hentry, rfl, hne⟩
      obtain rfl := Option.some.inj hentry
      exact ⟨by simpa using hne, rfl⟩

/-- What the OAuth request of `_fetch_new_token` meets. `json` is the body of a successful reply,
with an `access_token` that is a text: `none` when it is not an object that can be read. -/
inductive OAuthReply where
  | timeout
  | requestError
  | httpError (status : ℕ)
  | unreadable
  | missingToken
  | issued (token : String) (expiresIn : Option Json)

/-- The token and its lifetime in seconds. -/
def OAuthReply.read : OAuthReply → Except TokenError (String × ℤ)
  | timeout => .error (.auth { cls := .auth })
  | requestError => .error (.auth { cls := .auth })
  | httpError status =>
    if status = 401 then .error (.auth { cls := .auth, darajaCode := .str (toString status) })
    else .error (.auth { cls := .auth, httpStatus := some status })
  | unreadable => .error .other
  | missingToken => .error (.auth { cls := .auth })
  | issued token expiresIn =>
    match (expiresIn.getD (.int 3600)).int? with
    | some seconds => .ok (token, seconds)
    | none => .error .other

/-- `cache_ttl`, in milliseconds. -/
def TokenSettings.cacheTtlMs (settings : TokenSettings) (expiresIn : ℤ) : ℕ :=
  1000 * (max 60 (expiresIn - settings.tokenRefreshMarginSeconds)).toNat

theorem TokenSettings.cacheTtlMs_le_iff (settings : TokenSettings) {expiresIn : ℤ} :
    (settings.cacheTtlMs expiresIn : ℤ) ≤ 1000 * expiresIn ↔ 60 ≤ expiresIn := by
  have hmargin := settings.margin_ge
  unfold cacheTtlMs
  omega

/-- A usable token comes: it is not empty and outlives the refresh margin by more than a minute. -/
def OAuthReply.succeeds (settings : TokenSettings) (reply : OAuthReply) : Bool :=
  match reply.read with
  | .ok (token, expiresIn) => token ≠ "" && settings.tokenRefreshMarginSeconds + 60 < expiresIn
  | .error _ => false

theorem OAuthReply.succeeds_ok {settings : TokenSettings} {reply : OAuthReply} {token : String}
    {expiresIn : ℤ} (h : reply.succeeds settings = true)
    (hread : reply.read = .ok (token, expiresIn)) : token ≠ "" := by
  simp only [succeeds, hread, Bool.and_eq_true, decide_eq_true_eq] at h
  exact h.1

theorem OAuthReply.read_ne_error {settings : TokenSettings} {reply : OAuthReply}
    (h : reply.succeeds settings = true) (e : TokenError) : reply.read ≠ .error e := by
  intro hread
  simp [succeeds, hread] at h

/-- The end of a call that did not find a token in the cache. -/
def finish (source : TokenSource) : Except TokenError String → TokenStage
  | .ok token => .returned token source
  | .error e => .raised e

/-- Behind `_fetch_new_token`: the finally block when the call holds the lock. -/
def afterFetch (lock : Option ℕ) (fetched : Except TokenError String) : TokenStage :=
  match lock with
  | some _ => .releasing fetched
  | none => finish .direct fetched

/-- The finally block. It deletes the key of the token, not the key of the lock. -/
def release (link : Link) (fetched : Except TokenError String) (cached : Option RedisEntry) :
    TokenStage × Option RedisEntry :=
  (if link = .up then finish .refresh fetched else .raised .other, redisDelete link cached)

theorem release_ne_returned (link : Link) (fetched : Except TokenError String)
    (cached : Option RedisEntry) (token : String) :
    (release link fetched cached).1 ≠ .returned token .cache := by
  simp only [release]
  split_ifs
  · cases fetched <;> nofun
  · nofun

/-- The deadline of the lock of a call whose token has not come. -/
def TokenStage.lock? : TokenStage → Option ℕ
  | fetching lock => lock
  | requested lock => lock
  | _ => none

end DarajaWrapper
