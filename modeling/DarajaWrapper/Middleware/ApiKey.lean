import DarajaWrapper.Middleware.Http

/-!
# The API key

`APIKeyMiddleware` asks for a key unless the path has an exempt prefix. One of
the exempt prefixes is the root path, which every path starts with.
-/

namespace DarajaWrapper

open Python

def parsedApiKeys (internalApiKeys : String) : List String :=
  (((internalApiKeys.toList.splitOn ',').map strip).filter (· ≠ [])).map String.ofList

def exemptPrefixes : List String :=
  ["/api/v1/callback/", "/docs", "/openapi.json", "/redoc", "/health", "/", "/favicon.ico",
   "/ready"]

/-- `secrets.compare_digest` on two strings; `none` where it raises `TypeError`. -/
def compareDigest (a b : String) : Option Bool :=
  if a.toList.all (·.toNat < 128) && b.toList.all (·.toNat < 128) then some (a == b) else none

def anyMatches (provided : String) : List String → Option Bool
  | [] => some false
  | valid :: rest =>
    match compareDigest provided valid with
    | none => none
    | some true => some true
    | some false => anyMatches provided rest

/-- The middleware as `create_app` builds it: its set of keys, listed in the order in which it is
iterated over. It cannot be built without a key. -/
structure APIKeyMiddleware (internalApiKeys : String) where
  validKeys : List String
  nonempty : validKeys ≠ []
  mem_iff : ∀ key, key ∈ validKeys ↔ key ∈ parsedApiKeys internalApiKeys

def unauthorized : JSONResponse where
  statusCode := 401
  content := .obj
    [("type", .str "https://errors.mpesa.example.com/unauthorized"),
     ("title", .str "Unauthorized"),
     ("status", .int 401),
     ("detail", .str "Missing or invalid X-API-Key header.")]

/-- `request.headers.get("X-API-Key", "")`. -/
def Request.apiKey (request : Request) : String := (request.header "X-API-Key").getD ""

def isExempt (path : String) : Bool := exemptPrefixes.any fun p => startswith path p

/-- The exempt paths are those that start with a slash. -/
theorem isExempt_iff {path : String} : isExempt path = true ↔ startswith path "/" = true := by
  constructor
  · intro h
    obtain ⟨p, hp, hpath⟩ := List.any_eq_true.mp h
    have hslash : ∀ p ∈ exemptPrefixes, startswith p "/" = true := by decide
    exact startswith_trans hpath (hslash p hp)
  · intro h
    exact List.any_eq_true.mpr ⟨"/", by decide, h⟩

namespace APIKeyMiddleware

variable {internalApiKeys : String} {m : APIKeyMiddleware internalApiKeys} {request : Request}

def dispatch (m : APIKeyMiddleware internalApiKeys) (request : Request) : Dispatch :=
  if isExempt request.path then .callNext
  else
    match anyMatches request.apiKey m.validKeys with
    | none => .raised
    | some true => .callNext
    | some false => .respond unauthorized

theorem dispatch_of_exempt (h : isExempt request.path = true) :
    m.dispatch request = .callNext := by
  rw [dispatch, if_pos h]

theorem mem_of_anyMatches {provided : String} {keys : List String}
    (h : anyMatches provided keys = some true) : provided ∈ keys := by
  induction keys with
  | nil => cases h
  | cons valid rest ih =>
    simp only [anyMatches] at h
    split at h
    · cases h
    · rename_i hequal
      simp only [compareDigest] at hequal
      split_ifs at hequal
      rw [beq_iff_eq.mp (Option.some.inj hequal)]
      exact List.mem_cons_self
    · exact List.mem_cons_of_mem valid (ih h)

/-- Away from the exempt prefixes a request is forwarded only with one of the keys. -/
theorem apiKey_mem_of_callNext (hexempt : isExempt request.path = false)
    (h : m.dispatch request = .callNext) : request.apiKey ∈ m.validKeys := by
  rw [dispatch, hexempt] at h
  cases hany : anyMatches request.apiKey m.validKeys with
  | none => simp [hany] at h
  | some found =>
    cases found with
    | true => exact mem_of_anyMatches hany
    | false => simp [hany] at h

/-- The request gets through only with a configured key. -/
def Guards (m : APIKeyMiddleware internalApiKeys) (request : Request) : Prop :=
  m.dispatch request = .callNext → request.apiKey ∈ parsedApiKeys internalApiKeys

theorem guards_of_not_exempt (h : isExempt request.path = false) : m.Guards request := by
  intro hnext
  exact (m.mem_iff _).mp (apiKey_mem_of_callNext h hnext)

/-- Whatever keys are configured, a payment route is open to a request without any of them. -/
theorem payment_route_open (hpath : startswith request.path "/api/v1/payments/" = true)
    (hkey : request.apiKey ∉ parsedApiKeys internalApiKeys) : ¬ m.Guards request := by
  intro hguards
  have hslash : startswith request.path "/" = true := startswith_trans hpath (by decide)
  have hnext : m.dispatch request = .callNext := dispatch_of_exempt (isExempt_iff.mpr hslash)
  exact hkey (hguards hnext)

end APIKeyMiddleware

def keylessRequest : Request where
  path := "/api/v1/payments/stk"
  headers := [("content-type", "application/json")]
  client := some "203.0.113.7"

def rotatedKeys : APIKeyMiddleware "key-v1, key-v2" where
  validKeys := ["key-v2", "key-v1"]
  nonempty := by decide
  mem_iff key := by
    rw [show parsedApiKeys "key-v1, key-v2" = ["key-v1", "key-v2"] by decide]
    simp [or_comm]

theorem payment_route_open_sample : ¬ rotatedKeys.Guards keylessRequest :=
  APIKeyMiddleware.payment_route_open (by decide) (by decide)

theorem keyless_payment_forwarded :
    ¬ ∀ (internalApiKeys : String) (m : APIKeyMiddleware internalApiKeys) (request : Request),
      startswith request.path "/api/v1/payments/" = true → m.Guards request := by
  intro h
  have hkey : keylessRequest.apiKey ∈ parsedApiKeys "key-v1, key-v2" :=
    h _ rotatedKeys keylessRequest (by decide) rfl
  revert hkey
  decide

end DarajaWrapper
