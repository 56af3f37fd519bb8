import DarajaWrapper.Middleware.RouteLimits

/-!
# The limit of STK initiation

The table of limits has an entry for callbacks and one for STK initiation, but
without a slash in front, so that no request path starts with either. Requests to
these routes get the default limit, which is larger than the one for initiation
and smaller than the one for callbacks.
-/

namespace DarajaWrapper

/-- A key of `_ROUTE_LIMITS` as a route prefix of the application. -/
def routePrefix (key : String) : String := if startswith key "/" then key else "/" ++ key

/-- The table with its keys read as route prefixes. -/
def routePrefixLimits : List (String × RouteLimit) :=
  routeLimits.map fun entry => (routePrefix entry.1, entry.2)

def stkRoute : String := "/api/v1/payments/stk"

def stkRequests (client : String) (r : Request) : Bool :=
  r.rateLimitIp = client && r.path = stkRoute

theorem toList_of_startswith_slash {path : String} (h : startswith path "/" = true) :
    ∃ rest, path.toList = '/' :: rest := by
  simp only [startswith, List.isPrefixOf_iff_prefix] at h
  obtain ⟨rest, hrest⟩ := h
  exact ⟨rest, hrest.symm⟩

theorem startswith_slash {path key : String} (hpath : startswith path "/" = true)
    (hkey : startswith path key = true) (hne : key ≠ "") : startswith key "/" = true := by
  obtain ⟨tail, htail⟩ := toList_of_startswith_slash hpath
  simp only [startswith, List.isPrefixOf_iff_prefix] at *
  obtain ⟨rest, hrest⟩ := hkey
  cases hchars : key.toList with
  | nil => exact absurd (String.toList_injective hchars) hne
  | cons c cs =>
    rw [hchars, List.cons_append, htail] at hrest
    have hhead : c = '/' := (List.cons.inj hrest).1
    exact ⟨cs, by rw [hhead]; rfl⟩

theorem routePrefix_of_startswith {path key : String} (hpath : startswith path "/" = true)
    (hkey : startswith path key = true) (hne : key ≠ "") : routePrefix key = key := by
  rw [routePrefix, if_pos (startswith_slash hpath hkey hne)]

theorem routeLimits_ne_empty : ∀ entry ∈ routeLimits, entry.1 ≠ "" := by decide

theorem routePrefixLimits_eq : routePrefixLimits =
    [("/api/v1/callbacks/", ⟨200, 10⟩), ("/api/v1/payments/stk", ⟨20, 1 / 2⟩),
     ("/health", ⟨100, 10⟩), ("/ready", ⟨100, 10⟩)] := by decide +kernel

theorem startswith_or_startswith {path p q : String} (hp : startswith path p = true)
    (hq : startswith path q = true) : startswith p q = true ∨ startswith q p = true := by
  simp only [startswith, List.isPrefixOf_iff_prefix] at *
  exact (List.prefix_or_prefix_of_prefix hp hq).symm

theorem resolveLimit_eq_default {path route : String}
    (hroute : route = "/api/v1/callbacks/" ∨ route = "/api/v1/payments/stk")
    (h : startswith path route = true) : resolveLimit path = defaultLimit := by
  have hpath : startswith path "/" = true := by
    have hslash : startswith route "/" = true := by
      rcases hroute with rfl | rfl <;> decide
    exact startswith_trans h hslash
  have hnone : ∀ entry ∈ routeLimits, startswith path entry.1 = false := by
    have hapart : ∀ entry ∈ routeLimits, startswith entry.1 "/" = true →
        ¬ (startswith route entry.1 = true ∨ startswith entry.1 route = true) := by
      rcases hroute with rfl | rfl <;> decide
    intro entry hentry
    by_contra hkey
    rw [Bool.not_eq_false] at hkey
    have hslash := startswith_slash hpath hkey (routeLimits_ne_empty entry hentry)
    exact hapart entry hentry hslash (startswith_or_startswith h hkey)
  rcases resolveLimit_isLongest path with ⟨p, hmem, hp, -⟩ | ⟨-, hdefault⟩
  · exact absurd hp (by simp [hnone _ hmem])
  · exact hdefault

/-- Every request path gets the limit of its route, except the two routes whose keys lack the
slash. -/
theorem resolveLimit_intended_iff {path : String} (hpath : startswith path "/" = true) :
    IsLongestPrefixLimit routePrefixLimits path (resolveLimit path) ↔
      startswith path "/api/v1/callbacks/" = false ∧
        startswith path "/api/v1/payments/stk" = false := by
  constructor
  · intro h
    have hmissed : ∀ route, route = "/api/v1/callbacks/" ∨ route = "/api/v1/payments/stk" →
        startswith path route = false := by
      intro route hroute
      by_contra hstarts
      rw [Bool.not_eq_false] at hstarts
      rw [resolveLimit_eq_default hroute hstarts, IsLongestPrefixLimit, routePrefixLimits_eq] at h
      rcases h with ⟨p, hmem, -⟩ | ⟨hnone, -⟩
      · simp [defaultLimit] at hmem
      · rcases hroute with rfl | rfl <;> simp [hstarts] at hnone
    exact ⟨hmissed _ (Or.inl rfl), hmissed _ (Or.inr rfl)⟩
  · rintro ⟨hcallbacks, hstk⟩
    -- the other keys are route prefixes as they stand, and the first two match no path
    have hsame : ∀ entry ∈ routePrefixLimits, startswith path entry.1 = true →
        entry ∈ routeLimits := by
      rw [routePrefixLimits_eq]
      intro entry hentry hstarts
      simp only [List.mem_cons, List.not_mem_nil, or_false] at hentry
      rcases hentry with rfl | rfl | rfl | rfl
      · simp [hcallbacks] at hstarts
      · simp [hstk] at hstarts
      · decide
      · decide
    rcases resolveLimit_isLongest path with ⟨p, hmem, hp, hlongest⟩ | ⟨hnone, hdefault⟩
    · refine Or.inl ⟨p, ?_, hp, ?_⟩
      · have hkey := routePrefix_of_startswith hpath hp (routeLimits_ne_empty _ hmem)
        rw [routePrefixLimits, List.mem_map]
        exact ⟨_, hmem, by rw [hkey]⟩
      · intro q hq hstarts
        exact hlongest q (hsame q hq hstarts) hstarts
    · refine Or.inr ⟨?_, hdefault⟩
      intro q hq
      by_contra hstarts
      rw [Bool.not_eq_false] at hstarts
      rw [hnone q (hsame q hq hstarts)] at hstarts
      cases hstarts

/-- No other client and no other path shares the bucket of a client for the route: the address
of a client has no slash in it. -/
theorem bucketKey_eq_stkRoute_iff {ip client path : String} (hclient : '/' ∉ client.toList)
    (hpath : startswith path "/" = true) :
    bucketKey ip path = bucketKey client stkRoute ↔ ip = client ∧ path = stkRoute := by
  constructor
  · intro h
    have hchars := congrArg String.toList h
    simp only [bucketKey, String.toList_append, List.append_assoc, List.append_cancel_left_eq]
      at hchars
    have hcolon : (":" : String).toList = [':'] := rfl
    rw [hcolon, List.singleton_append, List.singleton_append] at hchars
    obtain ⟨tail, htail⟩ := toList_of_startswith_slash hpath
    rcases List.append_eq_append_iff.mp hchars with ⟨more, hmore, hrest⟩ | ⟨more, hmore, hrest⟩
    · cases more with
      | nil =>
        have hsame : path.toList = stkRoute.toList := (List.cons.inj hrest).2
        exact ⟨(String.toList_injective (by simpa using hmore)).symm,
          String.toList_injective hsame⟩
      | cons c more =>
        -- the path goes on behind the slash, which would be part of the address
        have hbehind : path.toList = more ++ ':' :: stkRoute.toList := (List.cons.inj hrest).2
        rw [htail] at hbehind
        cases more with
        | nil => exact absurd (List.cons.inj hbehind).1 (by decide)
        | cons d more =>
          have hslash : '/' = d := (List.cons.inj hbehind).1
          rw [hmore, ← hslash] at hclient
          simp at hclient
    · cases more with
      | nil =>
        have hsame : stkRoute.toList = path.toList := (List.cons.inj hrest).2
        exact ⟨String.toList_injective (by simpa using hmore),
          (String.toList_injective hsame).symm⟩
      | cons c more =>
        have hbehind : stkRoute.toList = more ++ ':' :: path.toList := (List.cons.inj hrest).2
        have hmem : ':' ∈ stkRoute.toList := by
          rw [hbehind]
          exact List.mem_append_right _ List.mem_cons_self
        exact absurd hmem (by decide)
  · rintro ⟨rfl, rfl⟩
    rfl

/-- In every window no more than a limit allows. -/
def RouteLimit.Allows (limit : RouteLimit) (count : ℚ → ℚ → ℕ) : Prop :=
  ∀ lo d, 0 ≤ d → (count lo (lo + d) : ℚ) ≤ limit.capacity + limit.refillRate * d

def stkLimit : RouteLimit := ⟨20, 1 / 2⟩

variable {client : String} {arrivals : List Arrival}

theorem stkRequests_eq_bucketKey (hclient : '/' ∉ client.toList) {r : Request}
    (hpath : startswith r.path "/" = true) :
    stkRequests client r = decide (r.bucketKey = bucketKey client stkRoute) := by
  unfold stkRequests Request.bucketKey
  rw [decide_eq_decide.mpr (bucketKey_eq_stkRoute_iff hclient hpath), Bool.decide_and]

theorem resolveLimit_of_bucketKey (hclient : '/' ∉ client.toList) {r : Request}
    (hpath : startswith r.path "/" = true) (hkey : r.bucketKey = bucketKey client stkRoute) :
    resolveLimit r.path = defaultLimit := by
  rw [((bucketKey_eq_stkRoute_iff hclient hpath).mp hkey).2]
  exact resolveLimit_eq_default (Or.inr rfl) (by decide)

theorem forwardedIn_stkRequests (hclient : '/' ∉ client.toList)
    (hpaths : ∀ a ∈ arrivals, startswith a.request.path "/" = true) (lo hi : ℚ) :
    forwardedIn (stkRequests client) lo hi (serveArrivals .initial arrivals) =
      TokenBucket.admitted lo hi
        (onKey (bucketKey client stkRoute) (serveArrivals .initial arrivals)) := by
  rw [← forwardedIn_key]
  apply forwardedIn_congr
  intro a ha
  exact stkRequests_eq_bucketKey hclient (hpaths a ha)

theorem requestsIn_stkRequests (hclient : '/' ∉ client.toList)
    (hpaths : ∀ a ∈ arrivals, startswith a.request.path "/" = true) (lo hi : ℚ) :
    requestsIn (stkRequests client) lo hi arrivals =
      TokenBucket.requested lo hi
        ((arrivals.filter fun a => a.request.bucketKey = bucketKey client stkRoute).map
          (·.now)) := by
  rw [← requestsIn_key]
  apply List.countP_congr
  intro a ha
  rw [stkRequests_eq_bucketKey hclient (hpaths a ha)]

/-- If what goes through keeps within the limit of the table, so does what is requested: the
default limit turns none of it away. -/
theorem requests_allowed_of_forwarded (hclient : '/' ∉ client.toList)
    (hsorted : (arrivals.map (·.now)).Pairwise (· ≤ ·))
    (hpaths : ∀ a ∈ arrivals, startswith a.request.path "/" = true)
    (h : stkLimit.Allows fun lo hi =>
      forwardedIn (stkRequests client) lo hi (serveArrivals .initial arrivals)) :
    stkLimit.Allows fun lo hi => requestsIn (stkRequests client) lo hi arrivals := by
  have hlimit : ∀ a ∈ arrivals, a.request.bucketKey = bucketKey client stkRoute →
      resolveLimit a.request.path = defaultLimit := by
    intro a ha
    exact resolveLimit_of_bucketKey hclient (hpaths a ha)
  obtain ⟨t₀, hstart, hideal⟩ := exists_ideal_onKey defaultLimit hsorted
    (by norm_num [defaultLimit]) (by norm_num [defaultLimit]) hlimit
  simp only [forwardedIn_stkRequests hclient hpaths, hideal] at h
  have hcapacity : (stkLimit.capacity : ℚ) +
      (idealBucket defaultLimit.capacity defaultLimit.refillRate).cost ≤
        (idealBucket defaultLimit.capacity defaultLimit.refillRate).capacity := by
    norm_num [stkLimit, idealBucket, defaultLimit, requestCost]
  have hrate : stkLimit.refillRate ≤
      (idealBucket defaultLimit.capacity defaultLimit.refillRate).rate := by
    norm_num [stkLimit, idealBucket, defaultLimit]
  have hall := TokenBucket.serve_of_admitted_le
    (s := (⟨defaultLimit.capacity, t₀⟩ : BucketLevel ℚ)) requestCost_nonneg hcapacity hrate
    le_rfl hstart ?_
  · intro lo d hd
    have hbound := h lo d hd
    beta_reduce at hbound ⊢
    rwa [requestsIn_stkRequests hclient hpaths,
      ← TokenBucket.admitted_eq_requested lo (lo + d) hall]
  · intro lo hi hlohi
    have hbound := h lo (hi - lo) (sub_nonneg.mpr hlohi)
    rw [add_sub_cancel] at hbound
    simpa [idealBucket, requestCost] using hbound

/-- STK initiation keeps within the limit that the table has for it when no more is requested,
and for a client without a slash in its address only then. A path gets the limit of its route
except on the two routes that lack the slash in the table. -/
theorem stk_limit_iff (client : String) (hsorted : (arrivals.map (·.now)).Pairwise (· ≤ ·))
    (hpaths : ∀ a ∈ arrivals, startswith a.request.path "/" = true) {path : String}
    (hpath : startswith path "/" = true) :
    ((stkLimit.Allows fun lo hi => requestsIn (stkRequests client) lo hi arrivals) →
      stkLimit.Allows fun lo hi =>
        forwardedIn (stkRequests client) lo hi (serveArrivals .initial arrivals)) ∧
    ('/' ∉ client.toList →
      (stkLimit.Allows fun lo hi =>
        forwardedIn (stkRequests client) lo hi (serveArrivals .initial arrivals)) →
      stkLimit.Allows fun lo hi => requestsIn (stkRequests client) lo hi arrivals) ∧
    (IsLongestPrefixLimit routePrefixLimits path (resolveLimit path) ↔
      startswith path "/api/v1/callbacks/" = false ∧
        startswith path "/api/v1/payments/stk" = false) := by
  refine ⟨?_, ?_, resolveLimit_intended_iff hpath⟩
  · intro h lo d hd
    have hle := forwardedIn_le (stkRequests client) lo (lo + d) .initial arrivals
    exact le_trans (by exact_mod_cast hle) (h lo d hd)
  · intro hclient h
    exact requests_allowed_of_forwarded hclient hsorted hpaths h

def stkArrival (client : String) : Arrival := ⟨0, directRequest client stkRoute⟩

/-- Three initiations by one client, among its polls and the initiations of another client. -/
def mixedTraffic : List Arrival :=
  [stkArrival "203.0.113.7", ⟨0, directRequest "203.0.113.7" "/api/v1/payments/7"⟩,
   stkArrival "198.51.100.4", ⟨1, directRequest "203.0.113.7" stkRoute⟩,
   ⟨3 / 2, directRequest "198.51.100.4" "/health"⟩, ⟨2, directRequest "203.0.113.7" stkRoute⟩]

theorem stk_limit_sample :
    ((stkLimit.Allows fun lo hi =>
        requestsIn (stkRequests "203.0.113.7") lo hi mixedTraffic) →
      stkLimit.Allows fun lo hi => forwardedIn (stkRequests "203.0.113.7") lo hi
        (serveArrivals .initial mixedTraffic)) ∧
    ('/' ∉ ("203.0.113.7" : String).toList →
      (stkLimit.Allows fun lo hi => forwardedIn (stkRequests "203.0.113.7") lo hi
        (serveArrivals .initial mixedTraffic)) →
      stkLimit.Allows fun lo hi =>
        requestsIn (stkRequests "203.0.113.7") lo hi mixedTraffic) ∧
    (IsLongestPrefixLimit routePrefixLimits stkRoute (resolveLimit stkRoute) ↔
      startswith stkRoute "/api/v1/callbacks/" = false ∧
        startswith stkRoute "/api/v1/payments/stk" = false) := by
  apply stk_limit_iff "203.0.113.7"
  · decide +kernel
  · decide
  · decide

/-- A client gets twenty-one requests through at once: the route has the default limit. -/
theorem stk_limit_exceeded :
    (¬ ∀ (client : String) (arrivals : List Arrival), '/' ∉ client.toList →
      (arrivals.map (·.now)).Pairwise (· ≤ ·) →
      (∀ a ∈ arrivals, startswith a.request.path "/" = true) →
      stkLimit.Allows fun lo hi =>
        forwardedIn (stkRequests client) lo hi (serveArrivals .initial arrivals)) ∧
    ¬ ∀ path, startswith path "/" = true →
      IsLongestPrefixLimit routePrefixLimits path (resolveLimit path) := by
  constructor
  · intro h
    have hclient : '/' ∉ ("203.0.113.7" : String).toList := by decide
    have hsorted : ((List.replicate 21 (stkArrival "203.0.113.7")).map (·.now)).Pairwise
        (· ≤ ·) := by
      rw [List.map_replicate]
      exact List.pairwise_replicate.mpr (Or.inr le_rfl)
    have hpaths : ∀ a ∈ List.replicate 21 (stkArrival "203.0.113.7"),
        startswith a.request.path "/" = true := by
      intro a ha
      rw [List.eq_of_mem_replicate ha]
      decide
    have hrequests := requests_allowed_of_forwarded hclient hsorted hpaths
      (h _ _ hclient hsorted hpaths)
    have hnow := hrequests 0 0 le_rfl
    revert hnow
    decide +kernel
  · intro h
    have hstk := (resolveLimit_intended_iff (by decide)).mp (h stkRoute (by decide))
    exact absurd hstk.2 (by decide)

end DarajaWrapper
