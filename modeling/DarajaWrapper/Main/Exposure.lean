import DarajaWrapper.Config.Validators
import DarajaWrapper.Main.Stack

/-!
# What stands between the network and the routes

The router has a say in a response only when all the middlewares have let the request
through. With settings for production this leaves one question to be asked of a callback,
whether its client is on the list, and none but the rate limit of any other request.
-/

namespace DarajaWrapper

open Python

variable (settings : MiddlewareSettings) (env : RequestEnv) (request : Request)

def RouterConsulted : Prop :=
  ∃ router router', serve settings env router request ≠ serve settings env router' request

variable {settings env request} {app app' : App}

/-- A middleware that does not call the next application keeps its answer from the client. -/
theorem Dispatch.middleware_congr {dispatch : Request → Dispatch}
    (h : dispatch request = .callNext → app request = app' request) :
    Dispatch.middleware dispatch app request = Dispatch.middleware dispatch app' request := by
  unfold Dispatch.middleware
  split
  · rename_i hnext
    exact h hnext
  · rfl
  · rfl

theorem serve_congr_of_not_isForwarded (h : ¬ IsForwarded settings env request)
    (router router' : App) :
    serve settings env router request = serve settings env router' request := by
  cases hlimit : rateLimited (resolveLimit request.path) env.later env.reply with
  | respond answer =>
    have hserve : ∀ router, serve settings env router request = answer.toResponse := by
      intro router
      unfold serve
      change (rateLimitMiddleware env.reply env.later _ request).getD _ = _
      rw [rateLimitMiddleware, hlimit]
      rfl
    rw [hserve router, hserve router']
  | forward headers =>
    rw [serve_of_forward hlimit, serve_of_forward hlimit]
    congr 2
    refine Dispatch.middleware_congr fun hkey => Dispatch.middleware_congr fun hip => ?_
    exact absurd ⟨by rw [hlimit]; rfl, hkey, hip⟩ h

theorem exists_serve_eq (h : IsForwarded settings env request) :
    ∃ headers, ∀ router, serve settings env router request =
      ((router request).map fun response =>
        (withSecurityHeaders env.newId request response).setHeaders headers).getD
          internalServerError.toResponse := by
  cases hlimit : rateLimited (resolveLimit request.path) env.later env.reply with
  | respond answer =>
    have hlet := h.limit
    rw [hlimit] at hlet
    cases hlet
  | forward headers =>
    refine ⟨headers, fun router => ?_⟩
    rw [serve_of_forward hlimit, Dispatch.middleware, h.apiKey, Dispatch.middleware]
    dsimp only
    rw [h.allowlist]
    dsimp only
    rw [securityHeadersMiddleware, Option.map_map]
    rfl

theorem statusCode_withSecurityHeaders {newId : String} {response : Response} :
    (withSecurityHeaders newId request response).statusCode = response.statusCode := by
  unfold withSecurityHeaders
  split_ifs <;> rfl

theorem routerConsulted_iff :
    RouterConsulted settings env request ↔ IsForwarded settings env request := by
  constructor
  · rintro ⟨router, router', hne⟩
    by_contra hforwarded
    exact hne (serve_congr_of_not_isForwarded hforwarded router router')
  · intro h
    obtain ⟨headers, hserve⟩ := exists_serve_eq h
    refine ⟨fun _ => none, fun _ => some ⟨202, []⟩, fun heq => ?_⟩
    have hstatus := congrArg Response.statusCode heq
    rw [hserve, hserve] at hstatus
    simp [Response.setHeaders, statusCode_withSecurityHeaders, JSONResponse.toResponse,
      internalServerError] at hstatus

theorem dispatch_eq_callNext_iff {rawIps : List String}
    {m : SafaricomIPAllowlistMiddleware rawIps} {trust : Bool} :
    m.dispatch trust request = .callNext ↔
      (startswith request.path callbackPrefix = true → trust = false → m.Listed request) := by
  cases hpath : startswith request.path callbackPrefix with
  | false => simp [SafaricomIPAllowlistMiddleware.dispatch, hpath]
  | true =>
    cases trust with
    | true => simp [SafaricomIPAllowlistMiddleware.dispatch, hpath]
    | false =>
      rw [SafaricomIPAllowlistMiddleware.dispatch, SafaricomIPAllowlistMiddleware.isAllowed,
        SafaricomIPAllowlistMiddleware.Listed]
      cases ipAddress (SafaricomIPAllowlistMiddleware.extractClientIp request).toList with
      | none => simp [hpath]
      | some address =>
        by_cases hallowed : address ∈ m.allowed
        · simp [hpath, hallowed]
        · simp [hpath, hallowed]

/-- With settings that were accepted for production, a request has its way to the router when the
rate limiter lets it through and, for a callback, when the client is on the list. -/
theorem production_exposure {raw s : RawSettings} (hvalid : raw.validate = some s)
    (hprod : occursIn "sandbox" s.darajaBaseUrl = false)
    (htrust : settings.trustCallbackIpsInSandbox = s.trustCallbackIpsInSandbox)
    (hpath : startswith request.path "/" = true) :
    RouterConsulted settings env request ↔
      (rateLimited (resolveLimit request.path) env.later env.reply).forwarded = true ∧
        (startswith request.path callbackPrefix = true → settings.allowlist.Listed request) := by
  have hdistrust : settings.trustCallbackIpsInSandbox = false :=
    htrust.trans ((RawSettings.wellFormed_of_validate hvalid).allowlist hprod)
  have hkey : settings.apiKeys.dispatch request = .callNext :=
    APIKeyMiddleware.dispatch_of_exempt (isExempt_iff.mpr hpath)
  have hlist : settings.allowlist.dispatch settings.trustCallbackIpsInSandbox request = .callNext ↔
      (startswith request.path callbackPrefix = true → settings.allowlist.Listed request) := by
    rw [dispatch_eq_callNext_iff, hdistrust]
    simp
  rw [routerConsulted_iff, ← hlist]
  exact ⟨fun h => ⟨h.limit, h.allowlist⟩, fun h => ⟨h.1, hkey, h.2⟩⟩

def productionSettings : RawSettings where
  darajaBaseUrl := "https://api.safaricom.co.ke"
  darajaShortcode := "174379"
  darajaCallbackBaseUrl := "https://pay.io/"
  postgresPassword := "secret"
  trustCallbackIpsInSandbox := false

theorem production_exposure_sample :
    RouterConsulted defaultMiddlewares unlimitedEnv (forwardedCallback "198.51.100.4") ↔
      (rateLimited (resolveLimit (forwardedCallback "198.51.100.4").path) unlimitedEnv.later
        unlimitedEnv.reply).forwarded = true ∧
      (startswith (forwardedCallback "198.51.100.4").path callbackPrefix = true →
        defaultMiddlewares.allowlist.Listed (forwardedCallback "198.51.100.4")) :=
  have hvalid : productionSettings.validate =
      some { productionSettings with darajaCallbackBaseUrl := "https://pay.io" } := by
    rfl
  production_exposure hvalid rfl rfl (by decide)

end DarajaWrapper
