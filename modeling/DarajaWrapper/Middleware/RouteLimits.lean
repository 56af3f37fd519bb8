import Mathlib.Data.Set.Subsingleton
import DarajaWrapper.Middleware.Limiter

/-!
# What the limiter lets through

The requests of a run fall into the buckets of their keys, and each bucket decides
its own as if there were no others. A key has a client and a whole path in it, and
the limit of a path comes from a table in which two prefixes lack their slash.
-/

namespace DarajaWrapper

/-- The requests of a run while Redis answers, each with whether it is forwarded. -/
def serveArrivals : LimiterWorld → List Arrival → List (Arrival × Bool)
  | _, [] => []
  | w, a :: arrivals =>
    let result := w.serve a
    (a, (rateLimited (resolveLimit a.request.path) a.now result.2).forwarded) ::
      serveArrivals result.1 arrivals

def requestsIn (select : Request → Bool) (lo hi : ℚ) (arrivals : List Arrival) : ℕ :=
  arrivals.countP fun a => select a.request && lo ≤ a.now && a.now ≤ hi

/-- How many of these requests are forwarded in a window. -/
def forwardedIn (select : Request → Bool) (lo hi : ℚ) (served : List (Arrival × Bool)) : ℕ :=
  served.countP fun d => d.2 && select d.1.request && lo ≤ d.1.now && d.1.now ≤ hi

/-- What the bucket of a key has decided, and when. -/
def onKey (key : String) (served : List (Arrival × Bool)) : List (ℚ × Bool) :=
  (served.filter fun d => d.1.request.bucketKey = key).map fun d => (d.1.now, d.2)

def Arrival.script (a : Arrival) (bucket : Option StoredBucket) : StoredBucket × BucketReply :=
  let limit := resolveLimit a.request.path
  tokenBucketScript limit.capacity limit.refillRate a.now requestCost bucket

def LimiterWorld.stored (w : LimiterWorld) (a : Arrival) : LimiterWorld where
  scriptSha := true
  scriptCached := true
  buckets := Function.update w.buckets a.request.bucketKey
    (some (a.script (w.buckets a.request.bucketKey)).1)

variable {w : LimiterWorld} {arrivals : List Arrival} {key : String} {limit : RouteLimit}
  {select : Request → Bool} {lo hi : ℚ}

theorem LimiterWorld.ready_stored (w : LimiterWorld) (a : Arrival) : (w.stored a).Ready :=
  fun _ => rfl

theorem LimiterWorld.serve_eq (h : w.Ready) (a : Arrival) :
    w.serve a = (w.stored a, some (a.script (w.buckets a.request.bucketKey)).2) := by
  rw [serve_of_ready h]
  rfl

theorem Arrival.forwarded_script (a : Arrival) (bucket : Option StoredBucket) :
    (rateLimited limit a.now (some (a.script bucket).2)).forwarded =
      decide ((a.script bucket).2.allowed = 1) := by
  simp only [script, tokenBucketScript, scriptAt]
  split_ifs <;> rfl

/-- Whatever else happens, a bucket decides on its own requests only. -/
theorem onKey_serveArrivals (hready : w.Ready)
    (hlimit : ∀ a ∈ arrivals, a.request.bucketKey = key → resolveLimit a.request.path = limit) :
    onKey key (serveArrivals w arrivals) =
      (serveRequests limit.capacity limit.refillRate (w.buckets key)
        ((arrivals.filter fun a => a.request.bucketKey = key).map (·.now))).1 := by
  induction arrivals generalizing w with
  | nil => rfl
  | cons a arrivals ih =>
    obtain ⟨hfirst, hrest⟩ := List.forall_mem_cons.mp hlimit
    have hrun := ih (w.ready_stored a) hrest
    rw [serveArrivals, LimiterWorld.serve_eq hready, a.forwarded_script]
    by_cases hkey : a.request.bucketKey = key
    · have hbucket : (w.stored a).buckets key = some (a.script (w.buckets key)).1 := by
        rw [LimiterWorld.stored, hkey]
        exact Function.update_self ..
      have hscript : ∀ bucket, a.script bucket =
          tokenBucketScript limit.capacity limit.refillRate a.now requestCost bucket := by
        intro bucket
        rw [Arrival.script, hfirst hkey]
      rw [hbucket, hscript] at hrun
      simp only [onKey, List.filter_cons, hkey, decide_true, if_true, List.map_cons,
        serveRequests, hscript] at hrun ⊢
      rw [hrun]
    · have hbucket : (w.stored a).buckets key = w.buckets key :=
        Function.update_of_ne (Ne.symm hkey) ..
      rw [hbucket] at hrun
      simpa only [onKey, List.filter_cons, hkey, decide_false, Bool.false_eq_true, if_false]
        using hrun

theorem map_serveArrivals (w : LimiterWorld) (arrivals : List Arrival) :
    (serveArrivals w arrivals).map (·.1) = arrivals := by
  induction arrivals generalizing w with
  | nil => rfl
  | cons a arrivals ih => rw [serveArrivals, List.map_cons, ih]

theorem forwardedIn_le (select : Request → Bool) (lo hi : ℚ) (w : LimiterWorld)
    (arrivals : List Arrival) :
    forwardedIn select lo hi (serveArrivals w arrivals) ≤ requestsIn select lo hi arrivals := by
  have hmap := List.countP_map
    (p := fun a : Arrival => select a.request && lo ≤ a.now && a.now ≤ hi) (f := (·.1))
    (l := serveArrivals w arrivals)
  rw [map_serveArrivals] at hmap
  rw [requestsIn, hmap]
  apply List.countP_mono_left
  intro d _ hd
  simp only [Bool.and_eq_true] at hd
  simp [hd]

theorem forwardedIn_congr {select' : Request → Bool}
    (h : ∀ a ∈ arrivals, select a.request = select' a.request) :
    forwardedIn select lo hi (serveArrivals w arrivals) =
      forwardedIn select' lo hi (serveArrivals w arrivals) := by
  apply List.countP_congr
  intro d hd
  have hmem : d.1 ∈ arrivals := by
    rw [← map_serveArrivals w arrivals]
    exact List.mem_map_of_mem hd
  rw [h d.1 hmem]

theorem forwardedIn_key (key : String) (lo hi : ℚ) (served : List (Arrival × Bool)) :
    forwardedIn (fun r => r.bucketKey = key) lo hi served =
      TokenBucket.admitted lo hi (onKey key served) := by
  unfold TokenBucket.admitted onKey forwardedIn
  rw [List.countP_map, List.countP_filter]
  apply List.countP_congr
  intro d _
  simp only [Function.comp_apply, Bool.and_eq_true]
  tauto

theorem requestsIn_key (key : String) (lo hi : ℚ) (arrivals : List Arrival) :
    requestsIn (fun r => r.bucketKey = key) lo hi arrivals =
      TokenBucket.requested lo hi
        ((arrivals.filter fun a => a.request.bucketKey = key).map (·.now)) := by
  unfold TokenBucket.requested requestsIn
  rw [List.countP_map, List.countP_filter]
  apply List.countP_congr
  intro a _
  simp only [Function.comp_apply, Bool.and_eq_true]
  tauto

theorem exists_ideal {capacity refillRate : ℚ} {times : List ℚ} (hcapacity : 0 ≤ capacity)
    (hrate : 0 < refillRate) (hsorted : times.Pairwise (· ≤ ·)) :
    ∃ t₀, (t₀ :: times).Pairwise (· ≤ ·) ∧ (serveRequests capacity refillRate none times).1 =
      (idealBucket capacity refillRate).serve ⟨capacity, t₀⟩ times := by
  obtain ⟨t₀, hstart⟩ : ∃ t₀, (t₀ :: times).Pairwise (· ≤ ·) := by
    cases times with
    | nil => exact ⟨0, List.pairwise_singleton _ _⟩
    | cons t times =>
      refine ⟨t, List.pairwise_cons.mpr ⟨?_, hsorted⟩⟩
      intro u hu
      rcases List.mem_cons.mp hu with rfl | hu
      · exact le_rfl
      · exact (List.pairwise_cons.mp hsorted).1 u hu
  refine ⟨t₀, hstart, ?_⟩
  exact (Represents.absent.serve hcapacity hrate hstart).1

theorem pairwise_times (hsorted : (arrivals.map (·.now)).Pairwise (· ≤ ·)) :
    ((arrivals.filter fun a => a.request.bucketKey = key).map (·.now)).Pairwise (· ≤ ·) := by
  refine hsorted.sublist ?_
  exact List.filter_sublist.map _

theorem exists_ideal_onKey (limit : RouteLimit) (hsorted : (arrivals.map (·.now)).Pairwise (· ≤ ·))
    (hcapacity : (1 : ℚ) ≤ limit.capacity) (hrate : 0 < limit.refillRate)
    (hlimit : ∀ a ∈ arrivals, a.request.bucketKey = key → resolveLimit a.request.path = limit) :
    ∃ t₀, (t₀ :: (arrivals.filter fun a => a.request.bucketKey = key).map (·.now)).Pairwise
        (· ≤ ·) ∧
      onKey key (serveArrivals .initial arrivals) =
        (idealBucket limit.capacity limit.refillRate).serve ⟨limit.capacity, t₀⟩
          ((arrivals.filter fun a => a.request.bucketKey = key).map (·.now)) := by
  have hready : LimiterWorld.initial.Ready := nofun
  rw [onKey_serveArrivals hready hlimit]
  exact exists_ideal (by linarith) hrate (pairwise_times hsorted)

/-- A window lets at most the capacity and the refill through a bucket. -/
theorem admitted_onKey_le (hsorted : (arrivals.map (·.now)).Pairwise (· ≤ ·))
    (hcapacity : (1 : ℚ) ≤ limit.capacity) (hrate : 0 < limit.refillRate)
    (hlimit : ∀ a ∈ arrivals, a.request.bucketKey = key → resolveLimit a.request.path = limit)
    (hwindow : lo ≤ hi) :
    (TokenBucket.admitted lo hi (onKey key (serveArrivals .initial arrivals)) : ℚ) ≤
      limit.capacity + limit.refillRate * (hi - lo) := by
  have hnonneg : (0 : ℚ) ≤ limit.capacity := by linarith
  obtain ⟨t₀, hstart, hideal⟩ := exists_ideal_onKey limit hsorted hcapacity hrate hlimit
  have hbound := TokenBucket.admitted_window_le
    (b := idealBucket limit.capacity limit.refillRate) (s := ⟨limit.capacity, t₀⟩)
    hnonneg hrate.le requestCost_nonneg hnonneg hstart hwindow
  rw [hideal]
  simpa [idealBucket, requestCost] using hbound

/-- The request of a client that is reached without a proxy. -/
def directRequest (client path : String) : Request := ⟨path, [], some client⟩

@[simp] theorem rateLimitIp_directRequest (client path : String) :
    (directRequest client path).rateLimitIp = client := rfl

theorem forwardedIn_cons (select : Request → Bool) (lo hi : ℚ) (d : Arrival × Bool)
    (served : List (Arrival × Bool)) :
    forwardedIn select lo hi (d :: served) = forwardedIn select lo hi served +
      if d.2 = true ∧ select d.1.request = true ∧ lo ≤ d.1.now ∧ d.1.now ≤ hi then 1 else 0 := by
  unfold forwardedIn
  rw [List.countP_cons]
  simp [and_assoc]

theorem forwardedIn_add_le {select select' : Request → Bool}
    (h : ∀ r, ¬ (select r = true ∧ select' r = true)) (lo hi : ℚ)
    (served : List (Arrival × Bool)) :
    forwardedIn select lo hi served + forwardedIn select' lo hi served ≤
      forwardedIn (fun _ => true) lo hi served := by
  induction served with
  | nil => exact le_rfl
  | cons d served ih =>
    have hone := h d.1.request
    rw [forwardedIn_cons, forwardedIn_cons, forwardedIn_cons]
    by_cases hwindow : d.2 = true ∧ lo ≤ d.1.now ∧ d.1.now ≤ hi
    · have hcounted : d.2 = true ∧ true = true ∧ lo ≤ d.1.now ∧ d.1.now ≤ hi :=
        ⟨hwindow.1, rfl, hwindow.2⟩
      rw [if_pos hcounted]
      split_ifs with hs hs'
      · exact absurd ⟨hs.2.1, hs'.2.1⟩ hone
      · omega
      · omega
      · omega
    · have hnone : ∀ b : Bool, ¬ (d.2 = true ∧ b = true ∧ lo ≤ d.1.now ∧ d.1.now ≤ hi) :=
        fun _ hs => hwindow ⟨hs.1, hs.2.2⟩
      rw [if_neg (hnone (select d.1.request)), if_neg (hnone (select' d.1.request))]
      omega

theorem bucketKey_inj {client p q : String} (h : bucketKey client p = bucketKey client q) :
    p = q := by
  have hchars := congrArg String.toList h
  simp only [bucketKey, String.toList_append, List.append_assoc, List.append_cancel_left_eq]
    at hchars
  exact String.toList_injective hchars

theorem admitted_burst {burst : List Arrival} (hcapacity : (1 : ℚ) ≤ limit.capacity)
    (hrate : 0 < limit.refillRate) (hnow : ∀ a ∈ burst, a.now = 0)
    (hlimit : ∀ a ∈ burst, a.request.bucketKey = key → resolveLimit a.request.path = limit)
    (hcount : (burst.filter fun a => a.request.bucketKey = key).length = limit.capacity) :
    TokenBucket.admitted 0 0 (onKey key (serveArrivals .initial burst)) = limit.capacity := by
  have hzero : ∀ bs : List Arrival, (∀ a ∈ bs, a.now = 0) →
      bs.map (·.now) = List.replicate bs.length 0 := by
    intro bs hbs
    rw [List.eq_replicate_iff]
    refine ⟨List.length_map _, ?_⟩
    intro t ht
    obtain ⟨a, ha, rfl⟩ := List.mem_map.mp ht
    exact hbs a ha
  have hsorted : (burst.map (·.now)).Pairwise (· ≤ ·) := by
    rw [hzero burst hnow]
    exact List.pairwise_replicate.mpr (Or.inr le_rfl)
  obtain ⟨t₀, hstart, hideal⟩ := exists_ideal_onKey limit hsorted hcapacity hrate hlimit
  rw [hzero _ fun a ha => hnow a (List.mem_of_mem_filter ha), hcount] at hstart hideal
  have hall := TokenBucket.serve_full_of_conforming
    (b := idealBucket limit.capacity limit.refillRate) (s := ⟨limit.capacity, t₀⟩)
    requestCost_nonneg le_rfl hstart ?_
  · rw [hideal, TokenBucket.admitted_eq_requested 0 0 hall]
    simp [TokenBucket.requested, List.countP_replicate]
  · intro lo hi hlohi
    have hle : (TokenBucket.requested lo hi (List.replicate limit.capacity 0) : ℚ) ≤
        limit.capacity := by
      have hlength := List.countP_le_length (p := fun t : ℚ => lo ≤ t && t ≤ hi)
        (l := List.replicate limit.capacity 0)
      rw [List.length_replicate] at hlength
      exact_mod_cast hlength
    have hrefill : 0 ≤ limit.refillRate * (hi - lo) :=
      mul_nonneg hrate.le (sub_nonneg.mpr hlohi)
    simp only [idealBucket, requestCost, mul_one]
    linarith

/-- A client sends the same number of requests to each of two paths, all at once. -/
def twoBursts (n : ℕ) (client p q : String) : List Arrival :=
  List.replicate n ⟨0, directRequest client p⟩ ++ List.replicate n ⟨0, directRequest client q⟩

theorem mem_twoBursts {n : ℕ} {client p q : String} {a : Arrival} (h : a ∈ twoBursts n client p q) :
    a = ⟨0, directRequest client p⟩ ∨ a = ⟨0, directRequest client q⟩ := by
  rcases List.mem_append.mp h with h | h
  · exact Or.inl (List.eq_of_mem_replicate h)
  · exact Or.inr (List.eq_of_mem_replicate h)

theorem pairwise_twoBursts (n : ℕ) (client p q : String) :
    ((twoBursts n client p q).map (·.now)).Pairwise (· ≤ ·) := by
  rw [twoBursts, List.map_append, List.map_replicate, List.map_replicate, ← List.replicate_add]
  exact List.pairwise_replicate.mpr (Or.inr le_rfl)

/-- A client that has two paths with one limit gets the capacity twice. -/
theorem forwarded_twoBursts (client : String) {p q : String} (hp : resolveLimit p = limit)
    (hq : resolveLimit q = limit) (hne : p ≠ q) :
    2 * limit.capacity ≤ forwardedIn (fun _ => true) 0 0
      (serveArrivals .initial (twoBursts limit.capacity client p q)) := by
  obtain ⟨hcapacity, hrate⟩ := hp ▸ resolveLimit_pos p
  have hkeys : bucketKey client p ≠ bucketKey client q := fun h => hne (bucketKey_inj h)
  have hkeyp : (directRequest client p).bucketKey = bucketKey client p := rfl
  have hkeyq : (directRequest client q).bucketKey = bucketKey client q := rfl
  have hburst : ∀ key, key = bucketKey client p ∨ key = bucketKey client q →
      forwardedIn (fun r => r.bucketKey = key) 0 0
        (serveArrivals .initial (twoBursts limit.capacity client p q)) = limit.capacity := by
    intro key hkey
    rw [forwardedIn_key]
    apply admitted_burst hcapacity hrate
    · intro a ha
      rcases mem_twoBursts ha with rfl | rfl <;> rfl
    · intro a ha _
      rcases mem_twoBursts ha with rfl | rfl
      · exact hp
      · exact hq
    · rcases hkey with rfl | rfl
      · simp [twoBursts, List.filter_append, hkeyp, hkeyq, hkeys.symm]
      · simp [twoBursts, List.filter_append, hkeyp, hkeyq, hkeys]
  have happart : ∀ r : Request, ¬ (decide (r.bucketKey = bucketKey client p) = true ∧
      decide (r.bucketKey = bucketKey client q) = true) := by
    intro r hr
    simp only [decide_eq_true_eq] at hr
    exact hkeys (hr.1.symm.trans hr.2)
  have hsum := forwardedIn_add_le happart 0 0
    (serveArrivals .initial (twoBursts limit.capacity client p q))
  rw [hburst _ (Or.inl rfl), hburst _ (Or.inr rfl)] at hsum
  omega

theorem forwarded_one_path (client : String) {path : String} (hlimit : resolveLimit path = limit)
    (hsorted : (arrivals.map (·.now)).Pairwise (· ≤ ·))
    (harrivals : ∀ a ∈ arrivals, a.request.rateLimitIp = client ∧ a.request.path = path)
    (hwindow : lo ≤ hi) :
    (forwardedIn (fun _ => true) lo hi (serveArrivals .initial arrivals) : ℚ) ≤
      limit.capacity + limit.refillRate * (hi - lo) := by
  obtain ⟨hcapacity, hrate⟩ := hlimit ▸ resolveLimit_pos path
  have hkey : ∀ a ∈ arrivals, a.request.bucketKey = bucketKey client path := by
    intro a ha
    rw [Request.bucketKey, (harrivals a ha).1, (harrivals a ha).2]
  have hsame : forwardedIn (fun _ => true) lo hi (serveArrivals .initial arrivals) =
      forwardedIn (fun r => r.bucketKey = bucketKey client path) lo hi
        (serveArrivals .initial arrivals) := by
    apply forwardedIn_congr
    intro a ha
    simp [hkey a ha]
  rw [hsame, forwardedIn_key]
  apply admitted_onKey_le hsorted hcapacity hrate _ hwindow
  intro a ha _
  rw [(harrivals a ha).2, hlimit]

/-- A client that uses some of the paths with the limit of a route keeps within this limit exactly
when it has no more than one of them: each path has its own bucket. -/
theorem prefix_limit_iff {client route : String} {paths : Set String}
    (hpaths : ∀ path ∈ paths,
      matchingEntry routeLimits path = matchingEntry routeLimits route) :
    (∀ arrivals : List Arrival, (arrivals.map (·.now)).Pairwise (· ≤ ·) →
      (∀ a ∈ arrivals, a.request.rateLimitIp = client ∧ a.request.path ∈ paths) →
      ∀ lo d, 0 ≤ d →
        (forwardedIn (fun _ => true) lo (lo + d) (serveArrivals .initial arrivals) : ℚ) ≤
          (resolveLimit route).capacity + (resolveLimit route).refillRate * d) ↔
      paths.Subsingleton := by
  obtain ⟨hcapacity, hrate⟩ := resolveLimit_pos route
  have hlimit : ∀ path ∈ paths, resolveLimit path = resolveLimit route := by
    intro path hpath
    rw [resolveLimit, hpaths path hpath, resolveLimit]
  constructor
  · intro h p hp q hq
    by_contra hne
    have htwo := forwarded_twoBursts client (hlimit p hp) (hlimit q hq) hne
    have hbound := h (twoBursts (resolveLimit route).capacity client p q)
      (pairwise_twoBursts _ _ _ _) ?_ 0 0 le_rfl
    · rw [add_zero, mul_zero, add_zero] at hbound
      have hless : 2 * ((resolveLimit route).capacity : ℚ) ≤ (resolveLimit route).capacity :=
        le_trans (by exact_mod_cast htwo) hbound
      linarith
    · intro a ha
      rcases mem_twoBursts ha with rfl | rfl
      · exact ⟨rfl, hp⟩
      · exact ⟨rfl, hq⟩
  · intro hsingle arrivals hsorted harrivals lo d hd
    cases arrivals with
    | nil =>
      have hrefill : 0 ≤ (resolveLimit route).refillRate * d := mul_nonneg hrate.le hd
      simp only [serveArrivals, forwardedIn, List.countP_nil, Nat.cast_zero]
      linarith
    | cons a arrivals =>
      have hpath : a.request.path ∈ paths := (harrivals a List.mem_cons_self).2
      have hone : ∀ b ∈ a :: arrivals, b.request.rateLimitIp = client ∧
          b.request.path = a.request.path := by
        intro b hb
        exact ⟨(harrivals b hb).1, hsingle (harrivals b hb).2 hpath⟩
      have hbound := forwarded_one_path client (hlimit _ hpath) hsorted hone
        (le_add_of_nonneg_right hd : lo ≤ lo + d)
      simpa using hbound

theorem prefix_limit_sample :
    (∀ arrivals : List Arrival, (arrivals.map (·.now)).Pairwise (· ≤ ·) →
      (∀ a ∈ arrivals, a.request.rateLimitIp = "203.0.113.7" ∧
        a.request.path ∈ ({"/api/v1/payments/1"} : Set String)) →
      ∀ lo d, 0 ≤ d →
        (forwardedIn (fun _ => true) lo (lo + d) (serveArrivals .initial arrivals) : ℚ) ≤
          (resolveLimit "/api/v1/payments/1").capacity +
            (resolveLimit "/api/v1/payments/1").refillRate * d) ↔
      ({"/api/v1/payments/1"} : Set String).Subsingleton := by
  apply prefix_limit_iff
  rintro path rfl
  rfl

/-- A client that counts through the payments gets the default limit for each of them. -/
theorem prefix_limit_exceeded :
    ¬ ∀ (client route : String) (arrivals : List Arrival),
      (arrivals.map (·.now)).Pairwise (· ≤ ·) →
      (∀ a ∈ arrivals, a.request.rateLimitIp = client ∧
        matchingEntry routeLimits a.request.path = matchingEntry routeLimits route) →
      ∀ lo d, 0 ≤ d →
        (forwardedIn (fun _ => true) lo (lo + d) (serveArrivals .initial arrivals) : ℚ) ≤
          (resolveLimit route).capacity + (resolveLimit route).refillRate * d := by
  intro h
  have hdefault : ∀ path, path = "/api/v1/payments/1" ∨ path = "/api/v1/payments/2" →
      matchingEntry routeLimits path = none := by
    rintro path (rfl | rfl) <;> decide
  have hlimit : ∀ path, path = "/api/v1/payments/1" ∨ path = "/api/v1/payments/2" →
      resolveLimit path = defaultLimit := by
    intro path hpath
    rw [resolveLimit, hdefault path hpath]
    rfl
  have htwo : 2 * defaultLimit.capacity ≤ forwardedIn (fun _ => true) 0 0 (serveArrivals .initial
      (twoBursts defaultLimit.capacity "203.0.113.7" "/api/v1/payments/1" "/api/v1/payments/2")) :=
    forwarded_twoBursts _ (hlimit _ (Or.inl rfl)) (hlimit _ (Or.inr rfl)) (by decide)
  have hbound := h "203.0.113.7" "/api/v1/payments/1"
    (twoBursts defaultLimit.capacity "203.0.113.7" "/api/v1/payments/1" "/api/v1/payments/2")
    (pairwise_twoBursts _ _ _ _) ?_ 0 0 le_rfl
  · rw [add_zero, mul_zero, add_zero, hlimit _ (Or.inl rfl)] at hbound
    have hless : 2 * defaultLimit.capacity ≤ defaultLimit.capacity :=
      htwo.trans (by exact_mod_cast hbound)
    revert hless
    decide
  · intro a ha
    rcases mem_twoBursts ha with rfl | rfl
    · exact ⟨rfl, rfl⟩
    · exact ⟨rfl, (hdefault _ (Or.inr rfl)).trans (hdefault _ (Or.inl rfl)).symm⟩

end DarajaWrapper
