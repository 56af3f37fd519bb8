import Mathlib.Data.Rat.Floor
import DarajaWrapper.Library.TokenBucket

/-!
# The token bucket script

The Lua script keeps a bucket as the pair of its tokens and the time of the last
request, in a Redis hash that lapses some time after that request. Its numbers
are read as exact rationals. A key lapses only when the bucket would be full
again, which is what the script takes a missing key for.
-/

namespace DarajaWrapper

/-- The hash of a bucket and the time at which its last EXPIRE lapses. -/
structure StoredBucket where
  tokens : ℚ
  lastRefill : ℚ
  deadline : ℚ

/-- What the script returns. -/
structure BucketReply where
  allowed : ℤ
  remaining : ℤ
  retryAfter : ℤ
  deriving DecidableEq

def liveBucket (now : ℚ) (key : Option StoredBucket) : Option StoredBucket :=
  key.filter fun stored => now ≤ stored.deadline

theorem liveBucket_of_le {now : ℚ} {stored : StoredBucket} (h : now ≤ stored.deadline) :
    liveBucket now (some stored) = some stored := by
  simp [liveBucket, Option.filter, h]

theorem liveBucket_of_lt {now : ℚ} {stored : StoredBucket} (h : stored.deadline < now) :
    liveBucket now (some stored) = none := by
  simp [liveBucket, Option.filter, h]

/-- The tokens after the refill; a missing field reads as a full bucket, refilled now. -/
def refilledTokens (capacity refillRate now : ℚ) (bucket : Option StoredBucket) : ℚ :=
  let tokens := (bucket.map (·.tokens)).getD capacity
  let lastRefill := (bucket.map (·.lastRefill)).getD now
  let elapsed := max 0 (now - lastRefill)
  min capacity (tokens + elapsed * refillRate)

/-- The clocks at one request: that of Redis and that of the worker. -/
structure Reading where
  clock : ℚ
  now : ℚ

/-- `_TOKEN_BUCKET_LUA`: the worker passes the time, and the key lapses by the clock of Redis. -/
def scriptAt (capacity refillRate : ℚ) (p : Reading) (cost : ℚ) (key : Option StoredBucket) :
    StoredBucket × BucketReply :=
  let tokens := refilledTokens capacity refillRate p.now (liveBucket p.clock key)
  if cost ≤ tokens then
    let tokens := tokens - cost
    (⟨tokens, p.now, p.clock + ⌈capacity / refillRate + 60⌉⟩, ⟨1, ⌊tokens⌋, 0⟩)
  else
    let retryAfter := ⌈(cost - tokens) / refillRate⌉
    (⟨tokens, p.now, p.clock + (⌈capacity / refillRate⌉ + 60 : ℤ)⟩, ⟨0, 0, retryAfter⟩)

/-- The script when both clocks agree. -/
def tokenBucketScript (capacity refillRate now cost : ℚ) (key : Option StoredBucket) :
    StoredBucket × BucketReply :=
  scriptAt capacity refillRate ⟨now, now⟩ cost key

/-- What `dispatch` passes as `cost`. -/
def requestCost : ℚ := 1

theorem requestCost_nonneg : 0 ≤ requestCost := by decide

def serveRequests (capacity refillRate : ℚ) :
    Option StoredBucket → List ℚ → List (ℚ × Bool) × Option StoredBucket
  | key, [] => ([], key)
  | key, now :: times =>
    let result := tokenBucketScript capacity refillRate now requestCost key
    let rest := serveRequests capacity refillRate (some result.1) times
    ((now, result.2.allowed = 1) :: rest.1, rest.2)

/-- The bucket that is never deleted. -/
def idealBucket (capacity refillRate : ℚ) : TokenBucket ℚ := ⟨capacity, refillRate, requestCost⟩

/-- The key stands for this level of the ideal bucket. A missing key stands for a full bucket, and
a stored one lives until the bucket would be full. -/
inductive Represents (capacity refillRate : ℚ) : Option StoredBucket → BucketLevel ℚ → Prop
  | absent {t : ℚ} : Represents capacity refillRate none ⟨capacity, t⟩
  | stored {stored : StoredBucket} (hnonneg : 0 ≤ stored.tokens) (hle : stored.tokens ≤ capacity)
      (hlives : capacity / refillRate ≤ stored.deadline - stored.lastRefill) :
      Represents capacity refillRate (some stored) ⟨stored.tokens, stored.lastRefill⟩

variable {capacity refillRate now t₀ : ℚ} {key : Option StoredBucket} {s : BucketLevel ℚ}
  {times : List ℚ}

theorem Represents.level_nonneg (h : Represents capacity refillRate key s)
    (hcapacity : 0 ≤ capacity) : 0 ≤ s.level := by
  cases h with
  | absent => exact hcapacity
  | stored hnonneg hle hlives => exact hnonneg

theorem Represents.tokens_mem {stored : StoredBucket}
    (h : Represents capacity refillRate (some stored) s) :
    0 ≤ stored.tokens ∧ stored.tokens ≤ capacity := by
  cases h with
  | stored hnonneg hle hlives => exact ⟨hnonneg, hle⟩

theorem Represents.refilledTokens_eq (h : Represents capacity refillRate key s)
    (hrate : 0 < refillRate) (hnow : s.time ≤ now) :
    refilledTokens capacity refillRate now (liveBucket now key) =
      (idealBucket capacity refillRate).levelAt s now := by
  cases h with
  | @absent t =>
    have hrefill : 0 ≤ refillRate * (now - t) := mul_nonneg hrate.le (sub_nonneg.mpr hnow)
    simp [refilledTokens, liveBucket, TokenBucket.levelAt, idealBucket, hrefill]
  | @stored stored hnonneg hle hlives =>
    have helapsed : 0 ≤ now - stored.lastRefill := sub_nonneg.mpr hnow
    by_cases hlive : now ≤ stored.deadline
    · rw [liveBucket_of_le hlive]
      simp [refilledTokens, TokenBucket.levelAt, idealBucket, helapsed, mul_comm]
    · -- the key is gone, and the refill since then fills the bucket
      have hfull : capacity ≤ stored.tokens + refillRate * (now - stored.lastRefill) := by
        have hlong : capacity / refillRate ≤ now - stored.lastRefill := by linarith
        have hrefill := mul_le_mul_of_nonneg_left hlong hrate.le
        rw [mul_div_cancel₀ _ hrate.ne'] at hrefill
        linarith
      rw [liveBucket_of_lt (not_le.mp hlive)]
      simp [refilledTokens, TokenBucket.levelAt, idealBucket, hfull]

/-- One request: the script answers as the ideal bucket and stores its level. -/
theorem Represents.script (h : Represents capacity refillRate key s) (hcapacity : 0 ≤ capacity)
    (hrate : 0 < refillRate) (hnow : s.time ≤ now) :
    let result := tokenBucketScript capacity refillRate now requestCost key
    let ideal := (idealBucket capacity refillRate).take s now
    decide (result.2.allowed = 1) = ideal.2 ∧
      Represents capacity refillRate (some result.1) ideal.1 := by
  have htokens := h.refilledTokens_eq hrate hnow
  have hnonneg := TokenBucket.levelAt_nonneg (b := idealBucket capacity refillRate) hcapacity
    hrate.le (h.level_nonneg hcapacity) hnow
  have hle : (idealBucket capacity refillRate).levelAt s now ≤ capacity := TokenBucket.levelAt_le
  simp only [tokenBucketScript, scriptAt, TokenBucket.take, htokens]
  by_cases hcost : requestCost ≤ (idealBucket capacity refillRate).levelAt s now
  · have hcost' : (idealBucket capacity refillRate).cost ≤
        (idealBucket capacity refillRate).levelAt s now := hcost
    simp only [if_pos hcost, if_pos hcost']
    refine ⟨rfl, .stored (sub_nonneg.mpr hcost) ?_ ?_⟩
    · have hcostless := requestCost_nonneg
      change _ - requestCost ≤ capacity
      linarith
    · have hceil := Int.le_ceil (capacity / refillRate + 60)
      change capacity / refillRate ≤ now + _ - now
      linarith
  · have hcost' : ¬ (idealBucket capacity refillRate).cost ≤
        (idealBucket capacity refillRate).levelAt s now := hcost
    simp only [if_neg hcost, if_neg hcost']
    refine ⟨rfl, .stored hnonneg hle ?_⟩
    have hceil := Int.le_ceil (capacity / refillRate)
    push_cast
    linarith

theorem Represents.serve (h : Represents capacity refillRate key s) (hcapacity : 0 ≤ capacity)
    (hrate : 0 < refillRate) (hsorted : (s.time :: times).Pairwise (· ≤ ·)) :
    (serveRequests capacity refillRate key times).1 =
        (idealBucket capacity refillRate).serve s times ∧
      Represents capacity refillRate (serveRequests capacity refillRate key times).2
        ((idealBucket capacity refillRate).leave s times) := by
  induction times generalizing key s with
  | nil => exact ⟨rfl, h⟩
  | cons now times ih =>
    obtain ⟨hfirst, hrest⟩ := List.pairwise_cons.mp hsorted
    have hnow : s.time ≤ now := hfirst now List.mem_cons_self
    obtain ⟨hanswer, hnext⟩ := h.script hcapacity hrate hnow
    obtain ⟨hanswers, hend⟩ := ih hnext (by simpa using hrest)
    refine ⟨?_, hend⟩
    simp only [serveRequests, TokenBucket.serve, hanswers]
    rw [← hanswer]

/-- The script on a key that may lapse decides like the bucket that is full at first and never
deleted; so a window lets through at most the capacity and the refill, and what is stored stays
between nothing and the capacity. -/
theorem script_is_token_bucket (hcapacity : 1 ≤ capacity) (hrate : 0 < refillRate)
    (hsorted : (t₀ :: times).Pairwise (· ≤ ·)) :
    (serveRequests capacity refillRate none times).1 =
        (idealBucket capacity refillRate).serve ⟨capacity, t₀⟩ times ∧
      (∀ lo d, 0 ≤ d →
        (TokenBucket.admitted lo (lo + d) (serveRequests capacity refillRate none times).1 : ℚ) ≤
          capacity + refillRate * d) ∧
      ∀ early, early <+: times → ∀ stored,
        (serveRequests capacity refillRate none early).2 = some stored →
          0 ≤ stored.tokens ∧ stored.tokens ≤ capacity := by
  have hcapacity' : 0 ≤ capacity := by linarith
  have hstart : Represents capacity refillRate none ⟨capacity, t₀⟩ := .absent
  obtain ⟨hserved, -⟩ := hstart.serve hcapacity' hrate hsorted
  refine ⟨hserved, ?_, ?_⟩
  · intro lo d hd
    have hwindow := TokenBucket.admitted_window_le (b := idealBucket capacity refillRate)
      (s := ⟨capacity, t₀⟩) hcapacity' hrate.le requestCost_nonneg hcapacity' hsorted
      (le_add_of_nonneg_right hd : lo ≤ lo + d)
    rw [hserved]
    simpa [idealBucket, requestCost] using hwindow
  · intro early hearly stored hstored
    have hsorted' : (t₀ :: early).Pairwise (· ≤ ·) :=
      hsorted.sublist (List.Sublist.cons_cons t₀ hearly.sublist)
    obtain ⟨-, hend⟩ := hstart.serve hcapacity' hrate hsorted'
    rw [hstored] at hend
    exact hend.tokens_mem

theorem script_is_token_bucket_sample :
    (serveRequests 1 (1 / 2) none [0, 1, 400]).1 =
        (idealBucket 1 (1 / 2)).serve ⟨1, 0⟩ [0, 1, 400] ∧
      (∀ lo d, 0 ≤ d →
        (TokenBucket.admitted lo (lo + d) (serveRequests 1 (1 / 2) none [0, 1, 400]).1 : ℚ) ≤
          1 + 1 / 2 * d) ∧
      ∀ early, early <+: [0, 1, 400] → ∀ stored,
        (serveRequests 1 (1 / 2) none early).2 = some stored →
          0 ≤ stored.tokens ∧ stored.tokens ≤ 1 :=
  script_is_token_bucket le_rfl (by norm_num) (by decide +kernel)

example : (serveRequests 1 (1 / 2) none [0, 1, 400]).1 = [(0, true), (1, false), (400, true)] := by
  decide +kernel

variable {t t' : ℚ} {polls : List ℚ} {denial : StoredBucket × BucketReply}

theorem Represents.denied (h : Represents capacity refillRate key s) (hrate : 0 < refillRate)
    (hnow : s.time ≤ now)
    (hdenied : (tokenBucketScript capacity refillRate now requestCost key).2.allowed = 0) :
    (idealBucket capacity refillRate).levelAt s now < requestCost ∧
      (tokenBucketScript capacity refillRate now requestCost key).2.retryAfter =
        ⌈(requestCost - (idealBucket capacity refillRate).levelAt s now) / refillRate⌉ := by
  have htokens := h.refilledTokens_eq hrate hnow
  simp only [tokenBucketScript, scriptAt, htokens] at hdenied ⊢
  split_ifs at hdenied ⊢ with hcost
  · exact absurd hdenied one_ne_zero
  · exact ⟨not_le.mp hcost, rfl⟩

theorem levelAt_lt_iff (hcapacity : 1 ≤ capacity) (hrate : 0 < refillRate) {level : ℚ} :
    (idealBucket capacity refillRate).levelAt ⟨level, t⟩ t' < requestCost ↔
      t' - t < (requestCost - level) / refillRate := by
  have hcost : ¬ capacity < requestCost := not_lt.mpr hcapacity
  rw [lt_div_iff₀' hrate, lt_sub_iff_add_lt']
  simp [TokenBucket.levelAt, idealBucket, hcost]

/-- A denied request may try again after exactly the seconds that it is told: until one second
before they have passed every request is denied, and once they have passed the first one is
allowed, however many were denied in between. -/
theorem retry_after_exact (hcapacity : 1 ≤ capacity) (hrate : 0 < refillRate)
    (hsorted : (t₀ :: times ++ [t]).Pairwise (· ≤ ·))
    (hkey : (serveRequests capacity refillRate none times).2 = key)
    (hdenial : tokenBucketScript capacity refillRate t requestCost key = denial)
    (hdenied : denial.2.allowed = 0) (hpolls : (t :: polls).Pairwise (· ≤ ·))
    (hearly : ∀ u ∈ polls, u ≤ t + denial.2.retryAfter - 1) :
    (∀ d ∈ (serveRequests capacity refillRate (some denial.1) polls).1, d.2 = false) ∧
      ∀ t', t + denial.2.retryAfter ≤ t' →
        (tokenBucketScript capacity refillRate t' requestCost
          (serveRequests capacity refillRate (some denial.1) polls).2).2.allowed = 1 := by
  have hcapacity' : 0 ≤ capacity := zero_le_one.trans hcapacity
  obtain ⟨hserved, -, hlast⟩ := List.pairwise_append.mp hsorted
  have hstart : Represents capacity refillRate none ⟨capacity, t₀⟩ := .absent
  obtain ⟨-, hserve⟩ := hstart.serve hcapacity' hrate hserved
  rw [hkey] at hserve
  have htime : ((idealBucket capacity refillRate).leave ⟨capacity, t₀⟩ times).time ≤ t :=
    TokenBucket.time_leave_le fun u hu => hlast u hu t (List.mem_singleton_self t)
  obtain ⟨hlow, hretry⟩ := hserve.denied hrate htime (hdenial ▸ hdenied)
  rw [hdenial] at hretry
  -- the level that the denial leaves, and the seconds that it still has to refill
  set level := (idealBucket capacity refillRate).levelAt
    ((idealBucket capacity refillRate).leave ⟨capacity, t₀⟩ times) t with hlevel
  have hleft : Represents capacity refillRate (some denial.1) ⟨level, t⟩ := by
    have hnext := (hserve.script hcapacity' hrate htime).2
    rwa [TokenBucket.take_of_lt hlow, hdenial] at hnext
  have hshort : (requestCost - level) / refillRate ≤ denial.2.retryAfter := by
    rw [hretry]
    exact Int.le_ceil _
  have hlong : (denial.2.retryAfter : ℚ) < (requestCost - level) / refillRate + 1 := by
    rw [hretry]
    exact Int.ceil_lt_add_one _
  have htooEarly : ∀ u ∈ polls,
      (idealBucket capacity refillRate).levelAt ⟨level, t⟩ u < requestCost := by
    intro u hu
    apply (levelAt_lt_iff hcapacity hrate).mpr
    linarith [hearly u hu]
  obtain ⟨hanswers, hend⟩ := hleft.serve hcapacity' hrate hpolls
  obtain ⟨hfalse, hrefill⟩ := TokenBucket.serve_of_lt hrate.le hpolls htooEarly
  refine ⟨hanswers ▸ hfalse, ?_⟩
  intro t' ht'
  have hpositive : 0 < (requestCost - level) / refillRate := div_pos (sub_pos.mpr hlow) hrate
  have hbefore : ∀ u ∈ t :: polls, u ≤ t' := by
    intro u hu
    rcases List.mem_cons.mp hu with rfl | hu
    · linarith
    · linarith [hearly u hu]
  have henough : requestCost ≤ (idealBucket capacity refillRate).levelAt
      ((idealBucket capacity refillRate).leave ⟨level, t⟩ polls) t' := by
    rw [hrefill t' fun u hu => hbefore u (List.mem_cons_of_mem t hu), ← not_lt,
      levelAt_lt_iff hcapacity hrate, not_lt]
    linarith
  have hanswer := (hend.script hcapacity' hrate (TokenBucket.time_leave_le hbefore)).1
  rw [TokenBucket.take_of_le henough] at hanswer
  exact of_decide_eq_true hanswer

/-- A bucket of one token that refills in two seconds: a request at one second is told to wait for
one more, asks again at once, and is allowed at two seconds. -/
theorem retry_after_exact_sample :
    (tokenBucketScript 1 (1 / 2) 2 requestCost
      (serveRequests 1 (1 / 2) (some (tokenBucketScript 1 (1 / 2) 1 requestCost
        (serveRequests 1 (1 / 2) none [0]).2).1) [1]).2).2.allowed = 1 := by
  have hsorted : ((0 : ℚ) :: [0] ++ [1]).Pairwise (· ≤ ·) := by decide +kernel
  have hpolls : ((1 : ℚ) :: [1]).Pairwise (· ≤ ·) := by decide +kernel
  have hrate : (0 : ℚ) < 1 / 2 := by norm_num
  exact (retry_after_exact le_rfl hrate hsorted rfl rfl (by decide +kernel) hpolls
    (by decide +kernel)).2 2 (by decide +kernel)

end DarajaWrapper
