import Mathlib.Data.List.Sort
import DarajaWrapper.Middleware.Http
import DarajaWrapper.Middleware.RateLimit
import DarajaWrapper.Stores

/-!
# The rate limiter

`TokenBucketRateLimitMiddleware` of one worker and the Redis server behind it. The
worker loads the script once and keeps its hash; the server loses the script when
it restarts. A request that the script does not decide is let through.
-/

namespace DarajaWrapper

open Python

/-- The capacity of a bucket and the tokens that it gets in a second. -/
structure RouteLimit where
  capacity : ℕ
  refillRate : ℚ
  deriving DecidableEq, Repr

def routeLimits : List (String × RouteLimit) :=
  [("api/v1/callbacks/", ⟨200, 10⟩), ("api/v1/payments/stk", ⟨20, 1 / 2⟩),
   ("/health", ⟨100, 10⟩), ("/ready", ⟨100, 10⟩)]

def defaultLimit : RouteLimit := ⟨60, 1⟩

/-- The first prefix of the path in the table, sorted by length, the longest first. -/
def matchingEntry (limits : List (String × RouteLimit)) (path : String) :
    Option (String × RouteLimit) :=
  (limits.insertionSort fun p q => q.1.length ≤ p.1.length).find? fun p => startswith path p.1

def resolveLimit (path : String) : RouteLimit :=
  ((matchingEntry routeLimits path).map (·.2)).getD defaultLimit

/-- The limit of the longest prefix that the path has in a table, or else the default. -/
def IsLongestPrefixLimit (limits : List (String × RouteLimit)) (path : String)
    (limit : RouteLimit) : Prop :=
  (∃ p, (p, limit) ∈ limits ∧ startswith path p = true ∧
    ∀ q ∈ limits, startswith path q.1 = true → q.1.length ≤ p.length) ∨
  (∀ q ∈ limits, startswith path q.1 = false) ∧ limit = defaultLimit

theorem matchingEntry_eq_some {limits : List (String × RouteLimit)} {path : String}
    {entry : String × RouteLimit} (h : matchingEntry limits path = some entry) :
    entry ∈ limits ∧ startswith path entry.1 = true ∧
      ∀ q ∈ limits, startswith path q.1 = true → q.1.length ≤ entry.1.length := by
  obtain ⟨hmatch, before, behind, hsorted, hbefore⟩ := List.find?_eq_some_iff_append.mp h
  have hmem : entry ∈ limits := by
    rw [← List.mem_insertionSort fun p q : String × RouteLimit => q.1.length ≤ p.1.length, hsorted]
    exact List.mem_append_right _ List.mem_cons_self
  refine ⟨hmem, hmatch, ?_⟩
  intro q hq hpath
  have hpairwise := List.pairwise_insertionSort
    (fun p q : String × RouteLimit => q.1.length ≤ p.1.length) limits
  rw [← List.mem_insertionSort fun p q : String × RouteLimit => q.1.length ≤ p.1.length,
    hsorted] at hq
  rw [hsorted] at hpairwise
  rcases List.mem_append.mp hq with hq | hq
  · simpa [hpath] using hbefore q hq
  · rcases List.mem_cons.mp hq with rfl | hq
    · exact le_rfl
    · exact (List.pairwise_cons.mp (List.pairwise_append.mp hpairwise).2.1).1 q hq

theorem matchingEntry_eq_none {limits : List (String × RouteLimit)} {path : String} :
    matchingEntry limits path = none ↔ ∀ q ∈ limits, startswith path q.1 = false := by
  unfold matchingEntry
  rw [List.find?_eq_none]
  simp only [List.mem_insertionSort, Bool.not_eq_true]

theorem resolveLimit_isLongest (path : String) :
    IsLongestPrefixLimit routeLimits path (resolveLimit path) := by
  unfold resolveLimit
  cases h : matchingEntry routeLimits path with
  | none => exact Or.inr ⟨matchingEntry_eq_none.mp h, rfl⟩
  | some entry => exact Or.inl ⟨entry.1, matchingEntry_eq_some h⟩

theorem resolveLimit_pos (path : String) :
    (1 : ℚ) ≤ (resolveLimit path).capacity ∧ 0 < (resolveLimit path).refillRate := by
  have htable : ∀ entry ∈ routeLimits, (1 : ℚ) ≤ entry.2.capacity ∧ 0 < entry.2.refillRate := by
    decide +kernel
  rcases resolveLimit_isLongest path with ⟨p, hmem, -⟩ | ⟨-, hdefault⟩
  · exact htable (p, resolveLimit path) hmem
  · rw [hdefault]
    decide

def Request.rateLimitIp (request : Request) : String :=
  let xff := (request.header "X-Forwarded-For").getD ""
  if xff ≠ "" then firstForwarded xff else request.client.getD "unknown"

/-- The key of a bucket has the whole path in it. -/
def bucketKey (clientIp path : String) : String := "ratelimit:" ++ clientIp ++ ":" ++ path

def Request.bucketKey (request : Request) : String :=
  DarajaWrapper.bucketKey request.rateLimitIp request.path

structure LimiterWorld where
  /-- The worker has set `_script_sha`. -/
  scriptSha : Bool
  /-- The script cache of the server has the script. -/
  scriptCached : Bool
  buckets : String → Option StoredBucket

namespace LimiterWorld

def initial : LimiterWorld := ⟨false, false, fun _ => none⟩

/-- `_load_script`: the world afterwards, and whether it returned. -/
def loadScript (link : Link) (w : LimiterWorld) : LimiterWorld × Bool :=
  if w.scriptSha then (w, true)
  else
    match link with
    | .up => ({ w with scriptSha := true, scriptCached := true }, true)
    | .down => (w, false)
    | .replyLost => ({ w with scriptCached := true }, false)

/-- EVALSHA, which fails on a script that is not cached. -/
def evalsha (link : Link) (now : ℚ) (request : Request) (w : LimiterWorld) :
    LimiterWorld × Option BucketReply :=
  if link = .down ∨ w.scriptCached = false then (w, none)
  else
    let limit := resolveLimit request.path
    let key := request.bucketKey
    let result := tokenBucketScript limit.capacity limit.refillRate now requestCost (w.buckets key)
    ({ w with buckets := Function.update w.buckets key (some result.1) },
      if link = .up then some result.2 else none)

/-- The try block of `dispatch`; `none` when it raises. -/
def script (load eval : Link) (now : ℚ) (request : Request) (w : LimiterWorld) :
    LimiterWorld × Option BucketReply :=
  let loaded := w.loadScript load
  if loaded.2 then loaded.1.evalsha eval now request else (loaded.1, none)

end LimiterWorld

/-- `int(x)` of a number. -/
def truncate (x : ℚ) : ℤ := if 0 ≤ x then ⌊x⌋ else ⌈x⌉

/-- The answer to a denied request; `now` is the time at which it is built. -/
def tooManyRequests (limit : RouteLimit) (retryAfter : ℤ) (now : ℚ) : JSONResponse where
  statusCode := 429
  headers :=
    [("Retry-After", toString retryAfter),
     ("X-RateLimit-Limit", toString limit.capacity),
     ("X-RateLimit-Remaining", "0"),
     ("X-RateLimit-Reset", toString (truncate now + retryAfter))]
  content := .obj
    [("type", .str "https://errors.mpesa.example.com/rate-limited"),
     ("title", .str "Too Many Requests"),
     ("status", .int 429),
     ("detail", .str ("Rate limit exceeded. Retry after " ++ toString retryAfter ++ " seconds.")),
     ("retry_after", .int retryAfter)]

def rateLimitHeaders (limit : RouteLimit) (remaining : ℤ) (now : ℚ) : List (String × String) :=
  [("X-RateLimit-limit", toString limit.capacity),
   ("X-RateLimit-Remaining", toString remaining),
   ("X-RateLimit-Reset",
      toString (truncate (now + (limit.capacity - remaining) / limit.refillRate)))]

/-- What `dispatch` does with a request: pass it on and set headers on the response, or answer. -/
inductive RateLimited where
  | forward (headers : List (String × String))
  | respond (response : JSONResponse)

def RateLimited.forwarded : RateLimited → Bool
  | forward _ => true
  | respond _ => false

/-- The rest of `dispatch`; without a reply of the script the request is passed on. -/
def rateLimited (limit : RouteLimit) (now : ℚ) : Option BucketReply → RateLimited
  | none => .forward []
  | some reply =>
    if reply.allowed = 0 then .respond (tooManyRequests limit reply.retryAfter now)
    else .forward (rateLimitHeaders limit reply.remaining now)

/-- `dispatch`, with its two commands to Redis and its two readings of the clock. -/
def LimiterWorld.dispatch (load eval : Link) (now later : ℚ) (request : Request)
    (w : LimiterWorld) : LimiterWorld × RateLimited :=
  let result := w.script load eval now request
  (result.1, rateLimited (resolveLimit request.path) later result.2)

inductive LimiterAction where
  | request (load eval : Link) (now : ℚ) (request : Request)
  /-- The server restarts with these buckets, and an empty script cache. -/
  | restart (buckets : String → Option StoredBucket)
  /-- Another worker loads the script. -/
  | loaded

/-- A request, and when it is handled. -/
structure Arrival where
  now : ℚ
  request : Request

namespace LimiterWorld

variable {w : LimiterWorld} {load eval : Link} {now : ℚ} {request : Request}

def step (w : LimiterWorld) : LimiterAction → LimiterWorld
  | .request load eval now request => (w.script load eval now request).1
  | .restart buckets => { w with scriptCached := false, buckets := buckets }
  | .loaded => { w with scriptCached := true }

def after (actions : List LimiterAction) : LimiterWorld := actions.foldl step initial

def serve (w : LimiterWorld) (a : Arrival) : LimiterWorld × Option BucketReply :=
  w.script .up .up a.now a.request

/-- The hash that the worker keeps, if any, names a script that the server has. -/
def Ready (w : LimiterWorld) : Prop := w.scriptSha = true → w.scriptCached = true

theorem serve_of_ready (h : w.Ready) (a : Arrival) :
    w.serve a =
      ((⟨true, true, w.buckets⟩ : LimiterWorld).evalsha .up a.now a.request) := by
  unfold serve script loadScript
  by_cases hsha : w.scriptSha = true
  · obtain ⟨sha, cached, buckets⟩ := w
    have hcached : cached = true := h hsha
    change sha = true at hsha
    simp [hsha, hcached]
  · simp [hsha]

/-- A worker whose hash is unknown to the server lets everything through and changes nothing. -/
theorem serve_of_not_ready (h : ¬ w.Ready) (a : Arrival) : w.serve a = (w, none) := by
  have hsha : w.scriptSha = true ∧ w.scriptCached = false := by simpa [Ready] using h
  simp [serve, script, loadScript, evalsha, hsha.1, hsha.2]

theorem serve_isSome_iff (a : Arrival) : (w.serve a).2.isSome = true ↔ w.Ready := by
  by_cases h : w.Ready
  · rw [serve_of_ready h]
    simp [evalsha, h]
  · rw [serve_of_not_ready h]
    simp [h]

theorem evalsha_flags (link : Link) (now : ℚ) (request : Request) (w : LimiterWorld) :
    (w.evalsha link now request).1.scriptSha = w.scriptSha ∧
      (w.evalsha link now request).1.scriptCached = w.scriptCached := by
  unfold evalsha
  split_ifs <;> exact ⟨rfl, rfl⟩

theorem Ready.loadScript (h : w.Ready) (link : Link) : (w.loadScript link).1.Ready := by
  unfold LimiterWorld.loadScript
  split_ifs with hsha
  · exact h
  · cases link with
    | up => exact fun _ => rfl
    | down => exact h
    | replyLost => exact fun _ => rfl

/-- Only a restart of the server makes a hash unknown. -/
theorem Ready.step {action : LimiterAction} (h : w.Ready)
    (hrestart : ∀ buckets, action ≠ .restart buckets) : (w.step action).Ready := by
  cases action with
  | request load eval now request =>
    have hloaded := h.loadScript load
    unfold LimiterWorld.step script
    dsimp only
    split_ifs
    · obtain ⟨hsha, hcached⟩ := evalsha_flags eval now request (w.loadScript load).1
      rw [Ready, hsha, hcached]
      exact hloaded
    · exact hloaded
  | restart buckets => exact absurd rfl (hrestart buckets)
  | loaded => exact fun _ => rfl

theorem ready_after {actions : List LimiterAction}
    (hrestart : ∀ action ∈ actions, ∀ buckets, action ≠ .restart buckets) :
    (after actions).Ready := by
  induction actions using List.reverseRecOn with
  | nil => nofun
  | append_singleton actions action ih =>
    have hbefore : (after actions).Ready := by
      apply ih
      intro a ha
      exact hrestart a (List.mem_append_left _ ha)
    have hlast := hrestart action (List.mem_append_right _ List.mem_cons_self)
    rw [after, List.foldl_append]
    exact hbefore.step hlast

/-- With Redis back, the second request is decided by the script exactly when the worker had no
hash yet or the server has the script. -/
theorem second_request_decided_iff (actions : List LimiterAction) (first second : Arrival) :
    (((after actions).serve first).1.serve second).2.isSome = true ↔
      ((after actions).scriptSha = true → (after actions).scriptCached = true) := by
  rw [serve_isSome_iff]
  change _ ↔ (after actions).Ready
  by_cases h : (after actions).Ready
  · rw [serve_of_ready h]
    exact iff_of_true (by simp [evalsha, Ready]) h
  · rw [serve_of_not_ready h]

end LimiterWorld

def healthRequest : Request := ⟨"/health", [], some "10.0.0.9"⟩

/-- The server restarts once, and the worker never applies a limit again. -/
theorem second_request_undecided :
    ¬ ∀ (actions : List LimiterAction) (first second : Arrival),
      (((LimiterWorld.after actions).serve first).1.serve second).2.isSome = true := by
  intro h
  have hdecided := h [.request .up .up 0 healthRequest, .restart fun _ => none]
    ⟨1, healthRequest⟩ ⟨2, healthRequest⟩
  revert hdecided
  decide

end DarajaWrapper
