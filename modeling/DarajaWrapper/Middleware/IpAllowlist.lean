import DarajaWrapper.Middleware.Http
import DarajaWrapper.Python.Ipaddress

/-!
# The allowlist of the callback endpoints

`SafaricomIPAllowlistMiddleware` admits a callback by the first address of its
X-Forwarded-For header. A proxy appends the address of its peer behind what the
peer has sent, so the first address is the one that the peer claims to have. A
text that is no address is not handled anywhere: the request ends in an exception.
-/

namespace DarajaWrapper

open Python

def callbackPrefix : String := "/api/v1/callback/"

def safaricomAllowedIps : List String :=
  ["196.201.214.200", "196.201.214.206", "196.201.213.114", "196.201.214.207", "196.201.214.208",
   "196.201.213.44", "196.201.212.127", "196.201.212.128", "196.201.212.129", "196.201.212.136",
   "196.201.212.74", "196.201.212.69"]

/-- `_parse_ips`. A text that is no address raises `ValueError`; the handler is for its subclass
`AddressValueError`, which `ip_address` does not raise. -/
def parseIps (rawIps : List String) : Option (List IpAddress) :=
  rawIps.mapM fun ipStr => ipAddress ipStr.toList

/-- The middleware as it is built from `Settings.safaricom_allowed_ips`, all of them addresses. -/
structure SafaricomIPAllowlistMiddleware (rawIps : List String) where
  allowed : List IpAddress
  parsed : parseIps rawIps = some allowed

def forbidden : JSONResponse where
  statusCode := 403
  content := .obj
    [("type", .str "https://errors.mpesa.example.com/forbidden"),
     ("title", .str "Forbidden"),
     ("status", .int 403),
     ("detail", .str "Access denied.")]

namespace SafaricomIPAllowlistMiddleware

variable {rawIps : List String} {m : SafaricomIPAllowlistMiddleware rawIps} {request : Request}

def extractClientIp (request : Request) : String :=
  let xff := (request.header "X-Forwarded-For").getD ""
  if xff ≠ "" ∧ firstForwarded xff ≠ "" then firstForwarded xff else request.client.getD ""

/-- `_is_allowed`; `none` where `ip_address` raises, which is not handled here either. -/
def isAllowed (m : SafaricomIPAllowlistMiddleware rawIps) (ipStr : String) : Option Bool :=
  (ipAddress ipStr.toList).map fun address => address ∈ m.allowed

/-- `dispatch`, under the setting `trust_callback_ips_in_sandbox`. -/
def dispatch (m : SafaricomIPAllowlistMiddleware rawIps) (trustCallbackIpsInSandbox : Bool)
    (request : Request) : Dispatch :=
  if !startswith request.path callbackPrefix then .callNext
  else if trustCallbackIpsInSandbox then .callNext
  else
    match m.isAllowed (extractClientIp request) with
    | none => .raised
    | some true => .callNext
    | some false => .respond forbidden

theorem dispatch_eq_forbidden_iff (hpath : startswith request.path callbackPrefix = true) :
    m.dispatch false request = .respond forbidden ↔
      ∃ address, ipAddress (extractClientIp request).toList = some address ∧
        address ∉ m.allowed := by
  rw [dispatch, isAllowed]
  cases ipAddress (extractClientIp request).toList with
  | none => simp [hpath]
  | some address =>
    by_cases hallowed : address ∈ m.allowed
    · simp [hpath, hallowed]
    · simp [hpath, hallowed]

/-- The address that a peer claims to have by what it has sent in the header; a blank claim leaves
the address of the socket. -/
def claimedIp (sent : String) (socket : Option String) : String :=
  if firstForwarded sent ≠ "" then firstForwarded sent else socket.getD ""

/-- Behind a proxy the middleware takes a peer for what it claims to be. -/
theorem extractClientIp_of_forwarded {sent peer : String}
    (h : request.header "X-Forwarded-For" = some (sent ++ "," ++ peer)) :
    extractClientIp request = claimedIp sent request.client := by
  have hne : sent ++ "," ++ peer ≠ "" := by
    intro hempty
    have hchars := congrArg String.toList hempty
    simp at hchars
  rw [extractClientIp, h, claimedIp, Option.getD_some, firstForwarded_append]
  simp only [hne, ne_eq, not_false_eq_true, true_and]

/-- A peer is turned away exactly when it claims to have an address that is not on the list. -/
theorem forged_header_forbidden_iff {sent peer : String}
    (hpath : startswith request.path callbackPrefix = true)
    (hheader : request.header "X-Forwarded-For" = some (sent ++ "," ++ peer)) :
    m.dispatch false request = .respond forbidden ↔
      ∃ address, ipAddress (claimedIp sent request.client).toList = some address ∧
        address ∉ m.allowed := by
  rw [dispatch_eq_forbidden_iff hpath, extractClientIp_of_forwarded hheader]

end SafaricomIPAllowlistMiddleware

section Malformed

variable {rawIps : List String} {allowed : List IpAddress}

/-- The entries of a list that are addresses, and nothing else, make up the allowlist. -/
def SkipsInvalid (rawIps : List String) : Prop :=
  ∃ allowed, parseIps rawIps = some allowed ∧
    ∀ address, address ∈ allowed ↔ ∃ ipStr ∈ rawIps, ipAddress ipStr.toList = some address

theorem parseIps_cons {ipStr : String} :
    parseIps (ipStr :: rawIps) =
      (ipAddress ipStr.toList).bind fun address => (parseIps rawIps).map (address :: ·) := by
  unfold parseIps
  rw [List.mapM_cons]
  cases ipAddress ipStr.toList with
  | none => rfl
  | some address => cases rawIps.mapM fun ipStr => ipAddress ipStr.toList <;> rfl

theorem mem_of_parseIps (h : parseIps rawIps = some allowed) (address : IpAddress) :
    address ∈ allowed ↔ ∃ ipStr ∈ rawIps, ipAddress ipStr.toList = some address := by
  induction rawIps generalizing allowed with
  | nil =>
    obtain rfl := Option.some.inj h
    simp
  | cons ipStr rawIps ih =>
    rw [parseIps_cons, Option.bind_eq_some_iff] at h
    obtain ⟨first, hfirst, h⟩ := h
    obtain ⟨rest, hrest, rfl⟩ := Option.map_eq_some_iff.mp h
    rw [List.mem_cons, ih hrest, List.exists_mem_cons_iff, hfirst, Option.some.injEq,
      eq_comm (a := address)]

theorem parseIps_isSome_iff :
    (parseIps rawIps).isSome = true ↔
      ∀ ipStr ∈ rawIps, (ipAddress ipStr.toList).isSome = true := by
  induction rawIps with
  | nil => exact iff_of_true rfl nofun
  | cons ipStr rawIps ih =>
    rw [List.forall_mem_cons, ← ih, parseIps_cons]
    cases ipAddress ipStr.toList with
    | none => simp
    | some address => simp

/-- One entry that is no address keeps the others from being parsed. -/
theorem skipsInvalid_iff :
    SkipsInvalid rawIps ↔ ∀ ipStr ∈ rawIps, (ipAddress ipStr.toList).isSome = true := by
  rw [← parseIps_isSome_iff]
  constructor
  · rintro ⟨allowed, hparsed, -⟩
    rw [hparsed]
    rfl
  · intro h
    obtain ⟨allowed, hparsed⟩ := Option.isSome_iff_exists.mp h
    exact ⟨allowed, hparsed, mem_of_parseIps hparsed⟩

end Malformed

namespace SafaricomIPAllowlistMiddleware

variable {rawIps : List String} {m : SafaricomIPAllowlistMiddleware rawIps} {request : Request}

def Listed (m : SafaricomIPAllowlistMiddleware rawIps) (request : Request) : Prop :=
  ∃ address ∈ m.allowed, ipAddress (extractClientIp request).toList = some address

/-- A callback is forwarded when its client is listed and refused when it is not. -/
def DecidesByList (m : SafaricomIPAllowlistMiddleware rawIps) (request : Request) : Prop :=
  m.dispatch false request = .callNext ∧ m.Listed request ∨
    m.dispatch false request = .respond forbidden ∧ ¬ m.Listed request

theorem dispatch_eq_raised_iff (hpath : startswith request.path callbackPrefix = true) :
    m.dispatch false request = .raised ↔ ipAddress (extractClientIp request).toList = none := by
  rw [dispatch, isAllowed]
  cases ipAddress (extractClientIp request).toList with
  | none => simp [hpath]
  | some address => by_cases hallowed : address ∈ m.allowed <;> simp [hpath, hallowed]

theorem decidesByList_iff (hpath : startswith request.path callbackPrefix = true) :
    m.DecidesByList request ↔ (ipAddress (extractClientIp request).toList).isSome = true := by
  unfold DecidesByList
  constructor
  · intro h
    rw [Option.isSome_iff_ne_none, Ne, ← dispatch_eq_raised_iff (m := m) hpath]
    intro hraised
    rcases h with ⟨hnext, -⟩ | ⟨hrefused, -⟩
    · rw [hraised] at hnext
      cases hnext
    · rw [hraised] at hrefused
      cases hrefused
  · intro h
    obtain ⟨address, haddress⟩ := Option.isSome_iff_exists.mp h
    by_cases hallowed : address ∈ m.allowed
    · have hnext : m.dispatch false request = .callNext := by
        simp [dispatch, isAllowed, hpath, haddress, hallowed]
      exact .inl ⟨hnext, address, hallowed, haddress⟩
    · refine .inr ⟨(dispatch_eq_forbidden_iff hpath).mpr ⟨address, haddress, hallowed⟩, ?_⟩
      rintro ⟨other, hother, heq⟩
      rw [haddress] at heq
      exact hallowed (Option.some.inj heq ▸ hother)

/-- Malformed texts are turned away exactly when there are none: of the client, or in a list. -/
theorem malformed_turned_away_iff (hpath : startswith request.path callbackPrefix = true)
    (ips : List String) :
    (m.DecidesByList request ↔ (ipAddress (extractClientIp request).toList).isSome = true) ∧
      (SkipsInvalid ips ↔ ∀ ipStr ∈ ips, (ipAddress ipStr.toList).isSome = true) :=
  ⟨decidesByList_iff hpath, skipsInvalid_iff⟩

end SafaricomIPAllowlistMiddleware

def defaultAllowlist : SafaricomIPAllowlistMiddleware safaricomAllowedIps where
  allowed := (parseIps safaricomAllowedIps).getD []
  parsed := by decide

/-- A callback that reaches the application through a proxy, from the peer 203.0.113.7. -/
def forwardedCallback (sent : String) : Request where
  path := "/api/v1/callback/stk"
  headers := [("host", "pay.example.com"), ("x-forwarded-for", sent ++ "," ++ "203.0.113.7")]
  client := some "10.0.0.2"

theorem malformed_turned_away_sample :
    (defaultAllowlist.DecidesByList (forwardedCallback "198.51.100.4") ↔
        (ipAddress (SafaricomIPAllowlistMiddleware.extractClientIp
          (forwardedCallback "198.51.100.4")).toList).isSome = true) ∧
      (SkipsInvalid ["196.201.214.200", "not-an-ip"] ↔
        ∀ ipStr ∈ ["196.201.214.200", "not-an-ip"],
          (ipAddress ipStr.toList).isSome = true) :=
  SafaricomIPAllowlistMiddleware.malformed_turned_away_iff (by decide) _

/-- A proxy that does not know the client says `unknown`, and one bad entry keeps the middleware
from being built. -/
theorem malformed_address_raised :
    (¬ ∀ (rawIps : List String) (m : SafaricomIPAllowlistMiddleware rawIps) (request : Request),
      startswith request.path callbackPrefix = true → m.DecidesByList request) ∧
    ¬ ∀ ips : List String, SkipsInvalid ips := by
  constructor
  · intro h
    have hsome := (SafaricomIPAllowlistMiddleware.decidesByList_iff (by decide)).mp
      (h _ defaultAllowlist (forwardedCallback "unknown") (by decide))
    revert hsome
    decide
  · intro h
    have hsome := skipsInvalid_iff.mp (h ["196.201.214.200", "not-an-ip"]) "not-an-ip" (by simp)
    revert hsome
    decide

theorem forged_header_forbidden_sample :
    defaultAllowlist.dispatch false (forwardedCallback "198.51.100.4") = .respond forbidden :=
  (SafaricomIPAllowlistMiddleware.forged_header_forbidden_iff (by decide) rfl).mpr
    ⟨.v4 3325256708, by decide, by decide⟩

/-- A peer that writes an address of the list in front of its own is let through. -/
theorem forged_header_admitted :
    ¬ ∀ (rawIps : List String) (m : SafaricomIPAllowlistMiddleware rawIps) (request : Request)
      (sent peer : String) (real : IpAddress),
      startswith request.path callbackPrefix = true →
      request.header "X-Forwarded-For" = some (sent ++ "," ++ peer) →
      ipAddress peer.toList = some real → real ∉ m.allowed →
      m.dispatch false request = .respond forbidden := by
  intro h
  have hforbidden := h _ defaultAllowlist (forwardedCallback "196.201.214.200") "196.201.214.200"
    "203.0.113.7" (.v4 3405803783) (by decide) rfl (by decide) (by decide)
  obtain ⟨address, haddress, hnot⟩ :=
    (SafaricomIPAllowlistMiddleware.dispatch_eq_forbidden_iff (by decide)).mp hforbidden
  have hlisted : ipAddress (SafaricomIPAllowlistMiddleware.extractClientIp
      (forwardedCallback "196.201.214.200")).toList = some (.v4 3301562056) := by
    decide
  rw [hlisted] at haddress
  obtain rfl := Option.some.inj haddress
  revert hnot
  decide

end DarajaWrapper
