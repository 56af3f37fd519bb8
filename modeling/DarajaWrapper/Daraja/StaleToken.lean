import DarajaWrapper.Daraja.Auth
import DarajaWrapper.Daraja.Retry

/-!
# A token that expires in use

`_execute_request` takes its token from `get_token` and, when Daraja answers 401,
deletes the cached token and raises, so that the retry fetches a new one. But what
it raises is not among the errors that are retried.
-/

namespace DarajaWrapper

open Python

/-- What a POST meets. -/
inductive PostReply where
  | timeout
  | transportError
  | response (status : ℕ) (text : String) (json : Option Json)

/-- One attempt: how `get_token` ends, what a POST with the token meets, and, behind the reply,
the key of the cached token and what becomes of a DELETE of it. -/
structure Exchange where
  token : Except TokenError (String × TokenSource)
  reply : String → PostReply
  cached : Option RedisEntry
  delete : Link

namespace Exchange

def attemptReply (x : Exchange) : AttemptReply :=
  match x.token with
  | .ok (token, _) =>
    match x.reply token with
    | .timeout => .timeout
    | .transportError => .transportError
    | .response status text json => .response status text json
  | .error (.auth e) => .authError e
  | .error .other => .tokenError

/-- The key of the cached token behind the attempt. -/
def cachedAfter (x : Exchange) : Option RedisEntry :=
  match x.attemptReply with
  | .response status _ _ => if status = 401 then redisDelete x.delete x.cached else x.cached
  | _ => x.cached

/-- The attempt is made with this token and gets this response. -/
def Gets (x : Exchange) (fresh : Bool) (status : ℕ) (json : Option Json) : Prop :=
  ∃ token source text, x.token = .ok (token, source) ∧ (source ≠ .cache ↔ fresh = true) ∧
    x.reply token = .response status text json

theorem Gets.attemptReply {x : Exchange} {fresh : Bool} {status : ℕ} {json : Option Json}
    (h : x.Gets fresh status json) :
    ∃ text, x.attemptReply = .response status text json := by
  obtain ⟨token, source, text, htoken, -, hreply⟩ := h
  exact ⟨text, by simp only [Exchange.attemptReply, htoken, hreply]⟩

end Exchange

/-- `DarajaClient.post` over these attempts. -/
def postExchanges (settings : Settings) (attempts : ℕ) (now : ℚ) (clock : ℕ → ℚ)
    (exchanges : ℕ → Exchange) (c : DarajaClient) : PostRun :=
  post settings attempts now clock (fun k => (exchanges k).attemptReply) c

/-- Attempt `k` meets the expiry of a cached token and the next one, with a fresh token, would
succeed; what came before was transient. -/
structure ExpiresInUse (attempts : ℕ) (exchanges : ℕ → Exchange) (k : ℕ) (body : Json) :
    Prop where
  left : k + 1 < attempts
  before : ∀ j < k, (exchanges j).attemptReply.ambiguous = true
  expired : ∃ json, (exchanges k).Gets false 401 json
  next : (exchanges (k + 1)).Gets true 200 (some body)
  object : ∃ kvs, body = .obj kvs

/-- The cached token is deleted, and the call goes on to the attempt with the fresh token and
returns what it gets. -/
structure RefreshedAndRetried (exchanges : ℕ → Exchange) (k : ℕ) (body : Json) (run : PostRun) :
    Prop where
  invalidated : (exchanges k).cachedAfter = none
  retried : run.requests = k + 2
  returned : run.result = .ok body

variable {settings : Settings} {now : ℚ} {clock : ℕ → ℚ} {replies : ℕ → AttemptReply}
  {exchanges : ℕ → Exchange} {c c' : DarajaClient} {k left attempts : ℕ} {body : Json}

theorem retryLoop_of_unauthorized {text : String} {json : Option Json}
    (h : replies k = .response 401 text json) :
    (retryLoop settings clock replies k left c).requests = 1 ∧
      (retryLoop settings clock replies k left c).result =
        .error (.daraja { httpStatus := some 401 }) := by
  rw [retryLoop, h]
  exact ⟨rfl, rfl⟩

theorem postExchanges_of_expiresInUse (clock : ℕ → ℚ) (h : ExpiresInUse attempts exchanges k body)
    (hcheck : c.checkCircuit settings now = .ok c') :
    (postExchanges settings attempts now clock exchanges c).requests = k + 1 ∧
      (postExchanges settings attempts now clock exchanges c).result =
        .error (.daraja { httpStatus := some 401 }) := by
  obtain ⟨json, hexpired⟩ := h.expired
  obtain ⟨text, hreply⟩ := hexpired.attemptReply
  have hleft := h.left
  simp only [postExchanges, post, hcheck]
  exact retryLoop_until (Nat.zero_le k) (by omega) (fun j _ hj => h.before j hj)
    fun _ _ => retryLoop_of_unauthorized hreply

/-- Whatever the attempts meet, the token that expired in use is not replaced by a retry: the call
ends with the error of the 401. -/
theorem not_refreshedAndRetried (h : ExpiresInUse attempts exchanges k body)
    (hcheck : c.checkCircuit settings now = .ok c') :
    ¬ RefreshedAndRetried exchanges k body
        (postExchanges settings attempts now clock exchanges c) ∧
      (postExchanges settings attempts now clock exchanges c).result =
        .error (.daraja { httpStatus := some 401 }) := by
  obtain ⟨-, hresult⟩ := postExchanges_of_expiresInUse clock h hcheck
  refine ⟨?_, hresult⟩
  intro hrefreshed
  cases hresult.symm.trans hrefreshed.returned

def expiringExchanges : ℕ → Exchange
  | 0 => ⟨.ok ("stale", .cache), fun _ => .response 401 "" none, some ⟨"stale", 60000⟩, .up⟩
  | _ => ⟨.ok ("fresh", .refresh), fun _ => .response 200 "" (some (.obj [])), none, .up⟩

theorem expiringExchanges_expire : ExpiresInUse 3 expiringExchanges 0 (.obj []) where
  left := by decide
  before := by simp
  expired := ⟨none, "stale", .cache, "", rfl, by decide, rfl⟩
  next := ⟨"fresh", .refresh, "", rfl, by decide, rfl⟩
  object := ⟨[], rfl⟩

theorem not_refreshedAndRetried_sample :
    ¬ RefreshedAndRetried expiringExchanges 0 (.obj [])
        (postExchanges {} 3 0 (fun k => k) expiringExchanges {}) ∧
      (postExchanges {} 3 0 (fun k => k) expiringExchanges {}).result =
        .error (.daraja { httpStatus := some 401 }) :=
  not_refreshedAndRetried expiringExchanges_expire rfl

/-- The 401 is the end of the call. -/
theorem unauthorized_ends_call :
    ¬ ∀ (settings : Settings) (attempts : ℕ) (now : ℚ) (clock : ℕ → ℚ)
      (exchanges : ℕ → Exchange) (c c' : DarajaClient) (k : ℕ) (body : Json),
      ExpiresInUse attempts exchanges k body → c.checkCircuit settings now = .ok c' →
      RefreshedAndRetried exchanges k body
        (postExchanges settings attempts now clock exchanges c) := by
  intro h
  have hrefreshed := h {} 3 0 (fun k => k) expiringExchanges {} {} 0 (.obj [])
    expiringExchanges_expire rfl
  cases hrefreshed.returned

end DarajaWrapper
