import DarajaWrapper.Library.MultiDict
import DarajaWrapper.Middleware.Http

/-!
# Security headers

`SecurityHeadersMiddleware` sets a fixed list of headers and the request id on the
response that comes back to it, and takes two headers off. The names of a response
are kept in lower case.
-/

namespace DarajaWrapper

open MultiDict

/-- A name as Starlette stores it. -/
def HeaderName : Type := { name : String // String.ofList (name.toList.map Char.toLower) = name }

instance : DecidableEq HeaderName := inferInstanceAs (DecidableEq (Subtype _))

theorem toLower_toLower (c : Char) : c.toLower.toLower = c.toLower := by
  unfold Char.toLower
  split_ifs with hupper hagain
  · -- a letter in upper case lies 32 below one in lower case, which is no upper case
    exfalso
    have hlow : 65 ≤ c.val.toNat := UInt32.le_iff_toNat_le.mp hupper.1
    have hhigh : c.val.toNat ≤ 90 := UInt32.le_iff_toNat_le.mp hupper.2
    have hmoved : (c.val + 32).toNat ≤ 90 := UInt32.le_iff_toNat_le.mp hagain.2
    rw [UInt32.toNat_add] at hmoved
    change (c.val.toNat + 32) % 2 ^ 32 ≤ 90 at hmoved
    omega
  · rfl
  · rfl

def HeaderName.of (name : String) : HeaderName :=
  ⟨String.ofList (name.toList.map Char.toLower), by
    have htwice : Char.toLower ∘ Char.toLower = Char.toLower := funext toLower_toLower
    rw [String.toList_ofList, List.map_map, htwice]⟩

/-- What a middleware sees of a response. -/
structure Response where
  statusCode : ℕ
  headers : List (HeaderName × String)

namespace Response

variable (response : Response)

def header (name : String) : Option String := get response.headers (.of name)

/-- `response.headers[name] = value`, for each of these in turn. -/
def setHeaders (updates : List (String × String)) : Response :=
  { response with
    headers := setAll response.headers (updates.map fun u => (HeaderName.of u.1, u.2)) }

/-- `del response.headers[name]`, for each of these that is there. -/
def deleteHeaders (names : List String) : Response :=
  { response with headers := deleteAll response.headers (names.map HeaderName.of) }

end Response

/-- The response that is sent, less its content length. -/
def JSONResponse.toResponse (response : JSONResponse) : Response where
  statusCode := response.statusCode
  headers := response.headers.map (fun h => (HeaderName.of h.1, h.2)) ++
    [(.of "content-type", "application/json")]

def docsPaths : List String := ["/docs", "/redoc", "/openapi.json"]

def securityHeaders : List (String × String) :=
  [("Strict-Transport-Security", "max-age=31536000; includeSubDomains; preload"),
   ("X-Content-Type-Options", "nosniff"),
   ("X-Frame-Options", "DENY"),
   ("Referrer-Policy", "strict-origin-when-cross-origin"),
   ("Permissions-Policy", "geolocation=(), camera=(), microphone=()"),
   ("Content-Security-Policy", "default-src 'none'; frame-ancestors 'none'"),
   ("Cache-Control", "no-store, no-cache, must-revalidate, private"),
   ("Pragma", "no-cache")]

def headersToRemove : List String := ["Server", "X-Powered-By"]

def isDocsPath (path : String) : Bool := docsPaths.any fun p => startswith path p

/-- The id that the client sent, or a new one. -/
def requestId (newId : String) (request : Request) : String :=
  let sent := (request.header "X-Request-ID").getD ""
  if sent ≠ "" then sent else newId

/-- The rest of `dispatch`, behind `call_next`. -/
def withSecurityHeaders (newId : String) (request : Request) (response : Response) : Response :=
  if isDocsPath request.path then
    response.setHeaders [("X-Request-id", requestId newId request)]
  else
    ((response.setHeaders securityHeaders).deleteHeaders headersToRemove).setHeaders
      [("X-Request-ID", requestId newId request)]

/-- The security headers and the id of the request are on the response, and nothing that tells
what it comes from. -/
structure IsSecured (request : Request) (response : Response) : Prop where
  headers : ∀ h ∈ securityHeaders, response.header h.1 = some h.2
  requestId : ∀ id, request.header "X-Request-ID" = some id → id ≠ "" →
    response.header "X-Request-ID" = some id
  removed : ∀ name ∈ headersToRemove, response.header name = none

section

variable {request : Request} {response : Response} {name newId : String}
  {updates : List (String × String)}

theorem Response.header_setHeaders_of_ne
    (h : ∀ u ∈ updates, HeaderName.of u.1 ≠ HeaderName.of name) :
    (response.setHeaders updates).header name = response.header name := by
  refine get_setAll_of_not_mem fun u hu => ?_
  obtain ⟨update, hupdate, rfl⟩ := List.mem_map.mp hu
  exact h update hupdate

/-- Names that are not those of the security headers, the id or a removed header do not matter. -/
theorem IsSecured.setHeaders (h : IsSecured request response)
    (hnames : ∀ u ∈ updates, ∀ name ∈ securityHeaders.map Prod.fst ++ "X-Request-ID" ::
      headersToRemove, HeaderName.of u.1 ≠ HeaderName.of name) :
    IsSecured request (response.setHeaders updates) where
  headers entry hentry := by
    rw [Response.header_setHeaders_of_ne fun u hu => hnames u hu entry.1
      (List.mem_append_left _ (List.mem_map_of_mem hentry))]
    exact h.headers entry hentry
  requestId id hid hne := by
    rw [Response.header_setHeaders_of_ne fun u hu => hnames u hu "X-Request-ID"
      (List.mem_append_right _ List.mem_cons_self)]
    exact h.requestId id hid hne
  removed name hname := by
    rw [Response.header_setHeaders_of_ne fun u hu => hnames u hu name
      (List.mem_append_right _ (List.mem_cons_of_mem _ hname))]
    exact h.removed name hname

theorem isSecured_withSecurityHeaders (hdocs : isDocsPath request.path = false) :
    IsSecured request (withSecurityHeaders newId request response) := by
  rw [withSecurityHeaders, if_neg (by rw [hdocs]; exact Bool.false_ne_true)]
  refine ⟨?_, ?_, ?_⟩
  · intro entry hentry
    have hid : ∀ h ∈ securityHeaders, HeaderName.of "X-Request-ID" ≠ .of h.1 := by decide
    have hkept : ∀ h ∈ securityHeaders, HeaderName.of h.1 ∉ headersToRemove.map .of := by
      decide
    have hnodup : ((securityHeaders.map fun u => (HeaderName.of u.1, u.2)).map Prod.fst).Nodup := by
      decide
    rw [Response.header_setHeaders_of_ne fun u hu =>
      List.mem_singleton.mp hu ▸ hid entry hentry]
    exact (get_deleteAll_of_not_mem (hkept entry hentry)).trans
      (get_setAll_of_mem hnodup (List.mem_map.mpr ⟨entry, hentry, rfl⟩))
  · intro id hid hne
    have hsent : DarajaWrapper.requestId newId request = id := by
      simp [DarajaWrapper.requestId, hid, hne]
    rw [hsent]
    exact get_set_self
  · intro name hname
    have hid : ∀ name ∈ headersToRemove, HeaderName.of "X-Request-ID" ≠ .of name := by
      decide
    rw [Response.header_setHeaders_of_ne fun u hu => List.mem_singleton.mp hu ▸ hid name hname]
    exact get_deleteAll_of_mem (List.mem_map_of_mem hname)

end

end DarajaWrapper
