import DarajaWrapper.Main.Handlers
import DarajaWrapper.Middleware.ApiKey
import DarajaWrapper.Middleware.IpAllowlist
import DarajaWrapper.Middleware.Limiter
import DarajaWrapper.Middleware.SecurityHeaders

/-!
# The middleware stack

`create_app` adds five middlewares, each around those before it. The security headers
come first and end up innermost, so a response that another middleware makes itself
leaves the stack without them.
-/

namespace DarajaWrapper

/-- What an application does with a request: it answers or it raises. -/
abbrev App := Request → Option Response

abbrev Middleware := App → App

/-- A middleware that leaves the response as it comes back. -/
def Dispatch.middleware (dispatch : Request → Dispatch) : Middleware := fun app request =>
  match dispatch request with
  | .callNext => app request
  | .respond response => some response.toResponse
  | .raised => none

def securityHeadersMiddleware (newId : String) : Middleware := fun app request =>
  (app request).map (withSecurityHeaders newId request)

/-- `TokenBucketRateLimitMiddleware`, by the reply of its script and the time behind that. -/
def rateLimitMiddleware (reply : Option BucketReply) (later : ℚ) : Middleware :=
  fun app request =>
    match rateLimited (resolveLimit request.path) later reply with
    | .forward headers => (app request).map (·.setHeaders headers)
    | .respond response => some response.toResponse

def requestLogging : Middleware := fun app request => app request

/-- `add_middleware`: the last one added is the outermost. -/
def addMiddleware (stack : List Middleware) (middleware : Middleware) : List Middleware :=
  middleware :: stack

def buildStack (stack : List Middleware) (router : App) : App :=
  stack.foldr (fun middleware app => middleware app) router

/-- The middlewares as `create_app` builds them from its settings. -/
structure MiddlewareSettings where
  safaricomAllowedIps : List String
  internalApiKeys : String
  trustCallbackIpsInSandbox : Bool
  allowlist : SafaricomIPAllowlistMiddleware safaricomAllowedIps
  apiKeys : APIKeyMiddleware internalApiKeys

/-- What the surroundings decide about one request. -/
structure RequestEnv where
  /-- `uuid.uuid4()`. -/
  newId : String
  /-- What the script of the rate limiter replies, if anything. -/
  reply : Option BucketReply
  later : ℚ

variable (settings : MiddlewareSettings) (env : RequestEnv) (router : App) (request : Request)

def createAppStack : List Middleware :=
  let stack := addMiddleware [] (securityHeadersMiddleware env.newId)
  let stack := addMiddleware stack
    (Dispatch.middleware (settings.allowlist.dispatch settings.trustCallbackIpsInSandbox))
  let stack := addMiddleware stack (Dispatch.middleware settings.apiKeys.dispatch)
  let stack := addMiddleware stack (rateLimitMiddleware env.reply env.later)
  addMiddleware stack requestLogging

/-- What the client gets. An exception that leaves the stack is answered outside of it. -/
def serve : Response :=
  (buildStack (createAppStack settings env) router request).getD internalServerError.toResponse

/-- No middleware answers the request itself, or raises. -/
structure IsForwarded : Prop where
  limit : (rateLimited (resolveLimit request.path) env.later env.reply).forwarded = true
  apiKey : settings.apiKeys.dispatch request = .callNext
  allowlist : settings.allowlist.dispatch settings.trustCallbackIpsInSandbox request = .callNext

variable {settings env router request} {response : Response} {answer : JSONResponse}

theorem SafaricomIPAllowlistMiddleware.eq_forbidden {rawIps : List String}
    {m : SafaricomIPAllowlistMiddleware rawIps} {trust : Bool}
    (h : m.dispatch trust request = .respond answer) : answer = forbidden := by
  unfold SafaricomIPAllowlistMiddleware.dispatch at h
  split_ifs at h
  split at h
  · cases h
  · cases h
  · exact (Dispatch.respond.inj h).symm

theorem APIKeyMiddleware.eq_unauthorized {internalApiKeys : String}
    {m : APIKeyMiddleware internalApiKeys} (h : m.dispatch request = .respond answer) :
    answer = unauthorized := by
  unfold APIKeyMiddleware.dispatch at h
  split_ifs at h
  split at h
  · cases h
  · cases h
  · exact (Dispatch.respond.inj h).symm

theorem eq_tooManyRequests {limit : RouteLimit} {now : ℚ} {reply : Option BucketReply}
    (h : rateLimited limit now reply = .respond answer) :
    ∃ retryAfter, answer = tooManyRequests limit retryAfter now := by
  unfold rateLimited at h
  split at h
  · cases h
  · split_ifs at h
    exact ⟨_, (RateLimited.respond.inj h).symm⟩

def rateLimitNames : List String :=
  ["X-RateLimit-limit", "X-RateLimit-Remaining", "X-RateLimit-Reset"]

theorem mem_rateLimitNames {limit : RouteLimit} {now : ℚ} {reply : Option BucketReply}
    {headers : List (String × String)} (h : rateLimited limit now reply = .forward headers) :
    ∀ u ∈ headers, u.1 ∈ rateLimitNames := by
  unfold rateLimited at h
  split at h
  · obtain rfl := RateLimited.forward.inj h
    exact nofun
  · split_ifs at h
    obtain rfl := RateLimited.forward.inj h
    simp [rateLimitHeaders, rateLimitNames]

def transportSecurity : String := "Strict-Transport-Security"

theorem not_isSecured (h : response.header transportSecurity = none) :
    ¬ IsSecured request response := by
  intro hsecured
  have hheader := hsecured.headers _ List.mem_cons_self
  rw [show response.header "Strict-Transport-Security" = none from h] at hheader
  cases hheader

theorem not_isSecured_toResponse (answer : JSONResponse) (updates : List (String × String))
    (hanswer : ∀ entry ∈ answer.headers, HeaderName.of entry.1 ≠ .of transportSecurity)
    (hupdates : ∀ u ∈ updates, u.1 ∈ rateLimitNames) :
    ¬ IsSecured request (answer.toResponse.setHeaders updates) := by
  have hnames : ∀ name ∈ rateLimitNames, HeaderName.of name ≠ .of transportSecurity := by
    decide
  apply not_isSecured
  rw [Response.header_setHeaders_of_ne fun u hu => hnames u.1 (hupdates u hu)]
  refine MultiDict.get_eq_none fun item hitem => ?_
  rcases List.mem_append.mp hitem with hitem | hitem
  · obtain ⟨entry, hentry, rfl⟩ := List.mem_map.mp hitem
    exact hanswer entry hentry
  · rw [List.mem_singleton.mp hitem]
    decide

theorem serve_of_forward {headers : List (String × String)}
    (h : rateLimited (resolveLimit request.path) env.later env.reply = .forward headers) :
    serve settings env router request =
      ((Dispatch.middleware settings.apiKeys.dispatch
        (Dispatch.middleware (settings.allowlist.dispatch settings.trustCallbackIpsInSandbox)
          (securityHeadersMiddleware env.newId router)) request).map (·.setHeaders headers)).getD
        internalServerError.toResponse := by
  unfold serve
  change (rateLimitMiddleware env.reply env.later _ request).getD _ = _
  rw [rateLimitMiddleware, h]
  rfl

theorem isSecured_serve (hdocs : isDocsPath request.path = false)
    (hforwarded : IsForwarded settings env request)
    (hrouter : router request = some response) :
    IsSecured request (serve settings env router request) := by
  cases hlimit : rateLimited (resolveLimit request.path) env.later env.reply with
  | respond answer =>
    have hlet := hforwarded.limit
    rw [hlimit] at hlet
    cases hlet
  | forward headers =>
    rw [serve_of_forward hlimit, Dispatch.middleware, hforwarded.apiKey, Dispatch.middleware]
    dsimp only
    rw [hforwarded.allowlist]
    dsimp only
    rw [securityHeadersMiddleware, hrouter]
    refine (isSecured_withSecurityHeaders hdocs).setHeaders fun u hu => ?_
    have hnames : ∀ name ∈ rateLimitNames, ∀ secured ∈ securityHeaders.map Prod.fst ++
        "X-Request-ID" :: headersToRemove, HeaderName.of name ≠ .of secured := by decide
    exact hnames u.1 (mem_rateLimitNames hlimit u hu)

theorem not_isSecured_internalServerError :
    ¬ IsSecured request internalServerError.toResponse :=
  not_isSecured_toResponse internalServerError [] (by simp [internalServerError]) (by simp)

theorem not_isSecured_of_limited
    (h : rateLimited (resolveLimit request.path) env.later env.reply = .respond answer) :
    ¬ IsSecured request (serve settings env router request) := by
  obtain ⟨retryAfter, rfl⟩ := eq_tooManyRequests h
  have hserve : serve settings env router request =
      (tooManyRequests (resolveLimit request.path) retryAfter env.later).toResponse := by
    unfold serve
    change (rateLimitMiddleware env.reply env.later _ request).getD _ = _
    rw [rateLimitMiddleware, h]
    rfl
  have hnames : ∀ name ∈ ["Retry-After", "X-RateLimit-Limit", "X-RateLimit-Remaining",
      "X-RateLimit-Reset"], HeaderName.of name ≠ .of transportSecurity := by decide
  rw [hserve]
  refine not_isSecured_toResponse (tooManyRequests _ retryAfter env.later) [] ?_ (by simp)
  intro entry hentry
  exact hnames entry.1 (List.mem_map_of_mem (f := Prod.fst) hentry)

theorem not_isSecured_of_dispatch {dispatch : Request → Dispatch} {app : App}
    {updates : List (String × String)} (hdispatch : dispatch request ≠ .callNext)
    (hanswer : ∀ answer, dispatch request = .respond answer → answer.headers = [])
    (hupdates : ∀ u ∈ updates, u.1 ∈ rateLimitNames) :
    ¬ IsSecured request (((Dispatch.middleware dispatch app request).map
      (·.setHeaders updates)).getD internalServerError.toResponse) := by
  rw [Dispatch.middleware]
  cases h : dispatch request with
  | callNext => exact absurd h hdispatch
  | respond answer =>
    refine not_isSecured_toResponse answer updates ?_ hupdates
    rw [hanswer answer h]
    exact nofun
  | raised => exact not_isSecured_internalServerError

/-- A secured response has been forwarded by every middleware, and the router has answered. -/
theorem isForwarded_of_isSecured (h : IsSecured request (serve settings env router request)) :
    IsForwarded settings env request ∧ (router request).isSome = true := by
  cases hlimit : rateLimited (resolveLimit request.path) env.later env.reply with
  | respond answer => exact absurd h (not_isSecured_of_limited hlimit)
  | forward headers =>
    have hheaders := mem_rateLimitNames hlimit
    rw [serve_of_forward hlimit] at h
    have hkey : settings.apiKeys.dispatch request = .callNext := by
      by_contra hne
      refine not_isSecured_of_dispatch hne ?_ hheaders h
      intro answer hanswer
      rw [APIKeyMiddleware.eq_unauthorized hanswer]
      rfl
    rw [Dispatch.middleware, hkey] at h
    dsimp only at h
    have hip : settings.allowlist.dispatch settings.trustCallbackIpsInSandbox request =
        .callNext := by
      by_contra hne
      refine not_isSecured_of_dispatch hne ?_ hheaders h
      intro answer hanswer
      rw [SafaricomIPAllowlistMiddleware.eq_forbidden hanswer]
      rfl
    rw [Dispatch.middleware, hip] at h
    dsimp only at h
    refine ⟨⟨by rw [hlimit]; rfl, hkey, hip⟩, ?_⟩
    cases hrouter : router request with
    | none =>
      rw [securityHeadersMiddleware, hrouter] at h
      exact absurd h not_isSecured_internalServerError
    | some response => rfl

/-- Away from the documentation a response is secured exactly when the request has been forwarded by
all the middlewares and the router has answered it. -/
theorem isSecured_serve_iff (hdocs : isDocsPath request.path = false) :
    IsSecured request (serve settings env router request) ↔
      IsForwarded settings env request ∧ (router request).isSome = true := by
  constructor
  · exact isForwarded_of_isSecured
  · rintro ⟨hforwarded, hrouter⟩
    obtain ⟨response, hresponse⟩ := Option.isSome_iff_exists.mp hrouter
    exact isSecured_serve hdocs hforwarded hresponse

def defaultMiddlewares : MiddlewareSettings where
  safaricomAllowedIps := safaricomAllowedIps
  internalApiKeys := "key-v1, key-v2"
  trustCallbackIpsInSandbox := false
  allowlist := defaultAllowlist
  apiKeys := rotatedKeys

/-- Redis does not answer, so nothing is limited. -/
def unlimitedEnv : RequestEnv := ⟨"5e6b1f0a-3f0e-4d35-8f1f-3f1c8f8f2a11", none, 0⟩

def acceptedResponse : Response := ⟨202, [(.of "Server", "uvicorn")]⟩

theorem isSecured_serve_iff_sample :
    IsSecured keylessRequest
        (serve defaultMiddlewares unlimitedEnv (fun _ => some acceptedResponse) keylessRequest) ↔
      IsForwarded defaultMiddlewares unlimitedEnv keylessRequest ∧
        (some acceptedResponse).isSome = true :=
  isSecured_serve_iff (by decide)

/-- A callback from an address that is not listed is refused without any of the headers. -/
theorem refused_callback_unsecured :
    ¬ ∀ (settings : MiddlewareSettings) (env : RequestEnv) (router : App) (request : Request),
      isDocsPath request.path = false → (router request).isSome = true →
        IsSecured request (serve settings env router request) := by
  intro h
  have hsecured := h defaultMiddlewares unlimitedEnv (fun _ => some acceptedResponse)
    (forwardedCallback "198.51.100.4") (by decide) rfl
  have hnext := (isForwarded_of_isSecured hsecured).1.allowlist
  have hrefused : defaultAllowlist.dispatch false (forwardedCallback "198.51.100.4") =
      .respond forbidden :=
    (SafaricomIPAllowlistMiddleware.dispatch_eq_forbidden_iff (by decide)).mpr
      ⟨.v4 3325256708, by decide, by decide⟩
  cases hrefused.symm.trans hnext

end DarajaWrapper
