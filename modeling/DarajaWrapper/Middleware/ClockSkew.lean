import Mathlib.Algebra.Order.BigOperators.Group.List
import DarajaWrapper.Middleware.RateLimit

/-!
# Workers whose clocks differ

The script takes the time of a request from the worker that sends it and stores
this time, be it earlier than the one stored before. A step back refills nothing,
but the step forward after it refills the same interval again. Only the time to
live of the key goes by the clock of Redis.
-/

namespace DarajaWrapper

/-- How many requests at these readings, in the order in which Redis runs them, are allowed. -/
def allowedCount (capacity refillRate : ℚ) : Option StoredBucket → List Reading → ℕ
  | _, [] => 0
  | key, p :: ps =>
    let result := scriptAt capacity refillRate p requestCost key
    (if result.2.allowed = 1 then 1 else 0) + allowedCount capacity refillRate (some result.1) ps

/-- The time for which the script refills between two requests: the step of the readings, if it is
a step forward, and no more than it takes to fill the bucket; and all of this if the key lapses. -/
def gain (fillTime : ℚ) (p q : Reading) : ℚ :=
  if p.clock + (⌈fillTime⌉ + 60 : ℤ) < q.clock then fillTime
  else min fillTime (max 0 (q.now - p.now))

def gains (fillTime : ℚ) : Reading → List Reading → List ℚ
  | _, [] => []
  | p, q :: qs => gain fillTime p q :: gains fillTime q qs

def largest : Reading → List Reading → ℚ
  | p, [] => p.now
  | p, q :: qs => max p.now (largest q qs)

def smallest : Reading → List Reading → ℚ
  | p, [] => p.now
  | p, q :: qs => min p.now (smallest q qs)

def spread (p : Reading) (ps : List Reading) : ℚ := largest p ps - smallest p ps

variable {capacity refillRate now cost fillTime tokens : ℚ} {key : Option StoredBucket}
  {p q : Reading} {ps qs rest : List Reading} {k m : ℕ}

theorem allowedCount_one_clock (times : List ℚ) :
    allowedCount capacity refillRate key (times.map fun t => ⟨t, t⟩) =
      (serveRequests capacity refillRate key times).1.countP (·.2) := by
  induction times generalizing key with
  | nil => rfl
  | cons t times ih =>
    rw [List.map_cons, allowedCount, ← tokenBucketScript, serveRequests,
      List.countP_cons, ih]
    simp [Nat.add_comm]

/-- The key as a request leaves it. -/
def storedAt (capacity refillRate : ℚ) (p : Reading) (tokens : ℚ) : StoredBucket where
  tokens := tokens
  lastRefill := p.now
  deadline := p.clock + (⌈capacity / refillRate⌉ + 60 : ℤ)

theorem scriptAt_fst : (scriptAt capacity refillRate p cost key).1 =
    storedAt capacity refillRate p
      (if cost ≤ refilledTokens capacity refillRate p.now (liveBucket p.clock key) then
        refilledTokens capacity refillRate p.now (liveBucket p.clock key) - cost
      else refilledTokens capacity refillRate p.now (liveBucket p.clock key)) := by
  unfold scriptAt storedAt
  split_ifs with hcost
  · have hceil : ⌈capacity / refillRate + 60⌉ = ⌈capacity / refillRate⌉ + 60 :=
      Int.ceil_add_ofNat _ 60
    simp [hceil, hcost]
  · simp [hcost]

theorem scriptAt_allowed : (scriptAt capacity refillRate p cost key).2.allowed = 1 ↔
    cost ≤ refilledTokens capacity refillRate p.now (liveBucket p.clock key) := by
  simp only [scriptAt]
  split_ifs with hcost
  · simp [hcost]
  · simp [hcost]

theorem allowedCount_cons {level : ℚ}
    (h : refilledTokens capacity refillRate p.now (liveBucket p.clock key) = level) :
    allowedCount capacity refillRate key (p :: ps) = (if 1 ≤ level then 1 else 0) +
      allowedCount capacity refillRate
        (some (storedAt capacity refillRate p (if 1 ≤ level then level - 1 else level))) ps := by
  have hallowed : (scriptAt capacity refillRate p 1 key).2.allowed = 1 ↔ 1 ≤ level := by
    rw [scriptAt_allowed, h]
  rw [allowedCount, scriptAt_fst, h, requestCost]
  by_cases hone : 1 ≤ level
  · rw [if_pos (hallowed.mpr hone), if_pos hone, if_pos hone]
  · rw [if_neg (mt hallowed.mp hone), if_neg hone, if_neg hone]

theorem refilledTokens_none (p : Reading) :
    refilledTokens capacity refillRate p.now (liveBucket p.clock none) = capacity := by
  simp [refilledTokens, liveBucket]

theorem refilledTokens_storedAt : refilledTokens capacity refillRate q.now
      (liveBucket q.clock (some (storedAt capacity refillRate p tokens))) =
    if p.clock + (⌈capacity / refillRate⌉ + 60 : ℤ) < q.clock then capacity
    else min capacity (tokens + max 0 (q.now - p.now) * refillRate) := by
  split_ifs with hlapsed
  · have hgone : (storedAt capacity refillRate p tokens).deadline < q.clock := hlapsed
    rw [liveBucket_of_lt hgone]
    simp [refilledTokens]
  · have hlive : q.clock ≤ (storedAt capacity refillRate p tokens).deadline := not_lt.mp hlapsed
    rw [liveBucket_of_le hlive]
    simp [refilledTokens, storedAt]

theorem gain_nonneg (hfill : 0 ≤ fillTime) : 0 ≤ gain fillTime p q := by
  unfold gain
  split_ifs
  · exact hfill
  · exact le_min hfill (le_max_left ..)

theorem gain_le (fillTime : ℚ) (p q : Reading) : gain fillTime p q ≤ fillTime := by
  unfold gain
  split_ifs
  · exact le_rfl
  · exact min_le_left ..

theorem refillRate_mul_gain (hrate : 0 < refillRate) :
    refillRate * gain (capacity / refillRate) p q =
      if p.clock + (⌈capacity / refillRate⌉ + 60 : ℤ) < q.clock then capacity
      else min capacity (max 0 (q.now - p.now) * refillRate) := by
  have hfull : refillRate * (capacity / refillRate) = capacity := mul_div_cancel₀ _ hrate.ne'
  unfold gain
  split_ifs
  · exact hfull
  · rw [mul_min_of_nonneg _ _ hrate.le, hfull, mul_comm refillRate]

theorem refilledTokens_storedAt_le (capacity : ℚ) (p q : Reading) (hrate : 0 < refillRate)
    (htokens : 0 ≤ tokens) : refilledTokens capacity refillRate q.now
        (liveBucket q.clock (some (storedAt capacity refillRate p tokens))) ≤
      tokens + refillRate * gain (capacity / refillRate) p q := by
  rw [refilledTokens_storedAt, refillRate_mul_gain hrate]
  split_ifs
  · linarith
  · rw [← min_add_add_left]
    exact min_le_min (by linarith) le_rfl

theorem refilledTokens_storedAt_nonneg (p q : Reading) (hcapacity : 0 ≤ capacity)
    (hrate : 0 < refillRate) (htokens : 0 ≤ tokens) : 0 ≤ refilledTokens capacity refillRate q.now
      (liveBucket q.clock (some (storedAt capacity refillRate p tokens))) := by
  rw [refilledTokens_storedAt]
  split_ifs
  · exact hcapacity
  · exact le_min hcapacity (add_nonneg htokens (mul_nonneg (le_max_left ..) hrate.le))

theorem allowedCount_storedAt_le (p : Reading) (qs : List Reading) (hcapacity : 0 ≤ capacity)
    (hrate : 0 < refillRate) (htokens : 0 ≤ tokens) :
    (allowedCount capacity refillRate (some (storedAt capacity refillRate p tokens)) qs : ℚ) ≤
      tokens + refillRate * (gains (capacity / refillRate) p qs).sum := by
  induction qs generalizing p tokens with
  | nil => simpa [allowedCount, gains] using htokens
  | cons q qs ih =>
    obtain ⟨level, hlevel⟩ : ∃ level, refilledTokens capacity refillRate q.now
        (liveBucket q.clock (some (storedAt capacity refillRate p tokens))) = level := ⟨_, rfl⟩
    have hle := refilledTokens_storedAt_le capacity p q hrate htokens
    have hnonneg := refilledTokens_storedAt_nonneg p q hcapacity hrate htokens
    rw [hlevel] at hle hnonneg
    rw [allowedCount_cons hlevel, gains, List.sum_cons, mul_add]
    push_cast
    by_cases hone : 1 ≤ level
    · have hrest := ih q (sub_nonneg.mpr hone)
      rw [if_pos hone, if_pos hone]
      linarith
    · have hrest := ih q hnonneg
      rw [if_neg hone, if_neg hone]
      linarith

/-- From the start, what is allowed comes out of a full bucket and the gains. -/
theorem allowedCount_le (p : Reading) (ps : List Reading) (hcapacity : 1 ≤ capacity)
    (hrate : 0 < refillRate) :
    (allowedCount capacity refillRate none (p :: ps) : ℚ) ≤
      capacity + refillRate * (gains (capacity / refillRate) p ps).sum := by
  have hrest := allowedCount_storedAt_le p ps (by linarith : 0 ≤ capacity) hrate
    (sub_nonneg.mpr hcapacity)
  rw [allowedCount_cons (refilledTokens_none p), if_pos hcapacity, if_pos hcapacity]
  push_cast
  linarith

theorem not_lapsed_self (hfill : 0 < fillTime) (p : Reading) :
    ¬ p.clock + (⌈fillTime⌉ + 60 : ℤ) < p.clock := by
  have hceil : (0 : ℚ) < (⌈fillTime⌉ + 60 : ℤ) := by
    exact_mod_cast by positivity
  linarith

theorem gain_self (hfill : 0 < fillTime) (p : Reading) : gain fillTime p p = 0 := by
  rw [gain, if_neg (not_lapsed_self hfill p), sub_self, max_self, min_eq_right hfill.le]

theorem allowedCount_cons_natCast
    (h : refilledTokens capacity refillRate p.now (liveBucket p.clock key) = m) :
    allowedCount capacity refillRate key (p :: ps) = min m 1 +
      allowedCount capacity refillRate
        (some (storedAt capacity refillRate p (m - 1 : ℕ))) ps := by
  rw [allowedCount_cons h]
  cases m with
  | zero =>
    have hnone : ¬ (1 : ℚ) ≤ (0 : ℕ) := by norm_num
    rw [if_neg hnone, if_neg hnone]
    rfl
  | succ m =>
    have hone : (1 : ℚ) ≤ (m + 1 : ℕ) := by
      push_cast
      have hnonneg : (0 : ℚ) ≤ m := Nat.cast_nonneg m
      linarith
    have hleft : ((m + 1 : ℕ) : ℚ) - 1 = m := by
      push_cast
      ring
    rw [if_pos hone, if_pos hone, hleft, Nat.add_sub_cancel]
    omega

theorem allowedCount_replicate (hfill : 0 < capacity / refillRate) (hm : (m : ℚ) ≤ capacity) :
    allowedCount capacity refillRate (some (storedAt capacity refillRate p m))
        (List.replicate k p ++ rest) =
      min m k +
        allowedCount capacity refillRate (some (storedAt capacity refillRate p (m - k : ℕ)))
          rest := by
  induction k generalizing m with
  | zero => simp
  | succ k ih =>
    have hlevel : refilledTokens capacity refillRate p.now
        (liveBucket p.clock (some (storedAt capacity refillRate p m))) = m := by
      rw [refilledTokens_storedAt, if_neg (not_lapsed_self hfill p), sub_self, max_self,
        zero_mul, add_zero, min_eq_right hm]
    have hless : ((m - 1 : ℕ) : ℚ) ≤ capacity :=
      le_trans (Nat.cast_le.mpr (Nat.sub_le m 1)) hm
    have hleft : m - 1 - k = m - (k + 1) := by omega
    rw [List.replicate_succ, List.cons_append, allowedCount_cons_natCast hlevel, ih hless, hleft]
    omega

theorem allowedCount_burst (hfill : 0 < capacity / refillRate)
    (h : refilledTokens capacity refillRate p.now (liveBucket p.clock key) = m)
    (hm : (m : ℚ) ≤ capacity) (hk : m ≤ k + 1) :
    allowedCount capacity refillRate key (List.replicate (k + 1) p ++ rest) =
      m + allowedCount capacity refillRate (some (storedAt capacity refillRate p 0)) rest := by
  have hless : ((m - 1 : ℕ) : ℚ) ≤ capacity := le_trans (Nat.cast_le.mpr (Nat.sub_le m 1)) hm
  have hempty : m - 1 - k = 0 := by omega
  rw [List.replicate_succ, List.cons_append, allowedCount_cons_natCast h,
    allowedCount_replicate hfill hless, hempty, Nat.cast_zero]
  omega

/-- With bursts that empty it, a bucket gives out all of its gains. -/
theorem allowedCount_bursts (hrate : 0 < refillRate) (hcapacity : 0 < capacity)
    (hk : capacity = (k + 1 : ℕ))
    (hwhole : ∀ g ∈ gains (capacity / refillRate) p qs, ∃ n : ℕ, refillRate * g = n) :
    (allowedCount capacity refillRate (some (storedAt capacity refillRate p 0))
        (qs.flatMap (List.replicate (k + 1))) : ℚ) =
      refillRate * (gains (capacity / refillRate) p qs).sum := by
  have hfill : 0 < capacity / refillRate := div_pos hcapacity hrate
  induction qs generalizing p with
  | nil => simp [allowedCount, gains]
  | cons q qs ih =>
    obtain ⟨hfirst, hrest⟩ := List.forall_mem_cons.mp hwhole
    obtain ⟨n, hn⟩ := hfirst
    have hle : (n : ℚ) ≤ capacity := by
      have hmul := mul_le_mul_of_nonneg_left (gain_le (capacity / refillRate) p q) hrate.le
      rwa [hn, mul_div_cancel₀ _ hrate.ne'] at hmul
    have hlevel : refilledTokens capacity refillRate q.now
        (liveBucket q.clock (some (storedAt capacity refillRate p 0))) = n := by
      rw [refilledTokens_storedAt, ← hn, refillRate_mul_gain hrate, zero_add]
    have hnk : n ≤ k + 1 := by
      rw [hk] at hle
      exact_mod_cast hle
    rw [List.flatMap_cons, allowedCount_burst hfill hlevel hle hnk, gains, List.sum_cons, mul_add,
      hn, ← ih hrest]
    push_cast
    rfl

theorem allowedCount_bursts_none (p : Reading) (ps : List Reading) (hrate : 0 < refillRate)
    (hcapacity : 0 < capacity) (hk : capacity = (k + 1 : ℕ))
    (hwhole : ∀ g ∈ gains (capacity / refillRate) p ps, ∃ n : ℕ, refillRate * g = n) :
    (allowedCount capacity refillRate none ((p :: ps).flatMap (List.replicate (k + 1))) : ℚ) =
      capacity + refillRate * (gains (capacity / refillRate) p ps).sum := by
  have hlevel : refilledTokens capacity refillRate p.now (liveBucket p.clock none) =
      (k + 1 : ℕ) := by
    rw [refilledTokens_none, hk]
  rw [List.flatMap_cons, allowedCount_burst (div_pos hcapacity hrate) hlevel hk.ge le_rfl,
    ← allowedCount_bursts hrate hcapacity hk hwhole, Nat.cast_add, ← hk]

theorem gains_nonneg (hfill : 0 ≤ fillTime) (p : Reading) (ps : List Reading) :
    ∀ g ∈ gains fillTime p ps, 0 ≤ g := by
  induction ps generalizing p with
  | nil => nofun
  | cons q qs ih => exact List.forall_mem_cons.mpr ⟨gain_nonneg hfill, ih q⟩

theorem sum_gains_replicate (hfill : 0 < fillTime) (k : ℕ) :
    (gains fillTime p (List.replicate k p ++ rest)).sum = (gains fillTime p rest).sum := by
  induction k with
  | zero => rfl
  | succ k ih =>
    rw [List.replicate_succ, List.cons_append, gains, List.sum_cons, gain_self hfill, zero_add, ih]

theorem sum_gains_bursts (hfill : 0 < fillTime) (k : ℕ) :
    (gains fillTime p (ps.flatMap (List.replicate (k + 1)))).sum = (gains fillTime p ps).sum := by
  induction ps generalizing p with
  | nil => rfl
  | cons q qs ih =>
    rw [List.flatMap_cons, List.replicate_succ, List.cons_append, gains, List.sum_cons,
      sum_gains_replicate hfill, ih, gains, List.sum_cons]

/-- Finitely many lengths of time are whole multiples of one. -/
theorem exists_common_multiple {gs : List ℚ} (hnonneg : ∀ g ∈ gs, 0 ≤ g) :
    ∃ k : ℕ, ∀ g ∈ gs, ∃ n : ℕ, ((k + 1 : ℕ) : ℚ) * g = n := by
  induction gs with
  | nil => exact ⟨0, nofun⟩
  | cons g gs ih =>
    obtain ⟨hg, hgs⟩ := List.forall_mem_cons.mp hnonneg
    obtain ⟨k, hk⟩ := ih hgs
    have hden : (k + 1) * g.den - 1 + 1 = (k + 1) * g.den :=
      Nat.sub_add_cancel (Nat.mul_pos k.succ_pos g.den_pos)
    refine ⟨(k + 1) * g.den - 1, List.forall_mem_cons.mpr ⟨?_, ?_⟩⟩
    · refine ⟨(k + 1) * g.num.toNat, ?_⟩
      have hnum : ((g.num.toNat : ℤ) : ℚ) = g.num := by
        rw [Int.toNat_of_nonneg (Rat.num_nonneg.mpr hg)]
      rw [hden, Nat.cast_mul, Nat.cast_mul, mul_assoc, mul_comm (g.den : ℚ), Rat.mul_den_eq_num,
        ← hnum]
      push_cast
      rfl
    · intro h hh
      obtain ⟨n, hn⟩ := hk h hh
      refine ⟨n * g.den, ?_⟩
      rw [hden, Nat.cast_mul, Nat.cast_mul, ← hn]
      ring

theorem smallest_le (p : Reading) (ps : List Reading) : smallest p ps ≤ p.now := by
  cases ps with
  | nil => exact le_rfl
  | cons q qs => exact min_le_left ..

/-- The clocks agree between two requests: the readings are in order, and by Redis's clock no
more than a minute longer apart. -/
def Agree (p q : Reading) : Prop := p.now ≤ q.now ∧ q.clock - p.clock ≤ q.now - p.now + 60

theorem gain_le_of_agree (fillTime : ℚ) (h : Agree p q) : gain fillTime p q ≤ q.now - p.now := by
  obtain ⟨horder, hclock⟩ := h
  unfold gain
  split_ifs with hlapsed
  · have hceil := Int.le_ceil fillTime
    push_cast at hlapsed
    linarith
  · rw [max_eq_right (sub_nonneg.mpr horder)]
    exact min_le_right ..

theorem sum_gains_le_spread (h : List.IsChain Agree (p :: ps)) :
    (gains fillTime p ps).sum ≤ spread p ps := by
  have hfirst : (gains fillTime p ps).sum ≤ largest p ps - p.now := by
    induction ps generalizing p with
    | nil => simp [gains, largest]
    | cons q qs ih =>
      obtain ⟨hagree, hrest⟩ := List.isChain_cons_cons.mp h
      have hgain := gain_le_of_agree fillTime hagree
      have hlater := ih hrest
      have hmax : largest q qs ≤ largest p (q :: qs) := le_max_right ..
      rw [gains, List.sum_cons]
      linarith
  have hleast := smallest_le p ps
  unfold spread
  linarith

/-- However many requests come at each reading, all limits that fill a bucket in the same time
keep to their bound exactly when the gains add up to no more than the spread of the readings. -/
theorem skewed_bound_iff (hfill : 0 < fillTime) (p : Reading) (ps : List Reading) :
    (∀ (capacity refillRate : ℚ) (k : ℕ), 1 ≤ capacity → 0 < refillRate →
      capacity / refillRate = fillTime →
        (allowedCount capacity refillRate none ((p :: ps).flatMap (List.replicate k)) : ℚ) ≤
          capacity + refillRate * spread p ps) ↔
      (gains fillTime p ps).sum ≤ spread p ps := by
  constructor
  · intro h
    have hnonneg : ∀ g ∈ (gains fillTime p ps).map (· / fillTime), 0 ≤ g := by
      intro g hg
      obtain ⟨x, hx, rfl⟩ := List.mem_map.mp hg
      exact div_nonneg (gains_nonneg hfill.le p ps x hx) hfill.le
    obtain ⟨k, hk⟩ := exists_common_multiple hnonneg
    have hcapacity : (1 : ℚ) ≤ (k + 1 : ℕ) := by exact_mod_cast Nat.le_add_left 1 k
    have hpos : (0 : ℚ) < (k + 1 : ℕ) := by linarith
    have hrate : 0 < ((k + 1 : ℕ) : ℚ) / fillTime := div_pos hpos hfill
    have hratio : ((k + 1 : ℕ) : ℚ) / (((k + 1 : ℕ) : ℚ) / fillTime) = fillTime :=
      div_div_cancel₀ hpos.ne'
    have hall := allowedCount_bursts_none p ps hrate hpos rfl ?_
    · have hbound := h _ _ (k + 1) hcapacity hrate hratio
      rw [hall, hratio] at hbound
      exact le_of_mul_le_mul_left (by linarith) hrate
    · rw [hratio]
      intro g hg
      obtain ⟨n, hn⟩ := hk (g / fillTime) (List.mem_map_of_mem hg)
      exact ⟨n, by rw [← hn]; ring⟩
  · intro h capacity refillRate k hcapacity hrate hratio
    have hsum := gains_nonneg hfill.le p ps
    have hspread : refillRate * (gains fillTime p ps).sum ≤ refillRate * spread p ps :=
      mul_le_mul_of_nonneg_left h hrate.le
    cases k with
    | zero =>
      have hnonneg : 0 ≤ refillRate * (gains fillTime p ps).sum :=
        mul_nonneg hrate.le (List.sum_nonneg hsum)
      have hnone : (p :: ps).flatMap (List.replicate 0) = [] :=
        List.flatMap_eq_nil_iff.mpr fun _ _ => rfl
      rw [hnone, allowedCount, Nat.cast_zero]
      linarith
    | succ k =>
      rw [List.flatMap_cons, List.replicate_succ, List.cons_append]
      have hle := allowedCount_le p (List.replicate k p ++ ps.flatMap (List.replicate (k + 1)))
        hcapacity hrate
      rw [hratio, sum_gains_replicate hfill, sum_gains_bursts hfill] at hle
      linarith

theorem skewed_bound_sample :
    (allowedCount 20 (1 / 2) none
      (([⟨0, 0⟩, ⟨1, 1⟩, ⟨90, 90⟩] : List Reading).flatMap (List.replicate 30)) : ℚ) ≤
        20 + 1 / 2 * spread ⟨0, 0⟩ [⟨1, 1⟩, ⟨90, 90⟩] := by
  have hagree : List.IsChain Agree [⟨0, 0⟩, ⟨1, 1⟩, ⟨90, 90⟩] := by
    refine .cons_cons ⟨?_, ?_⟩ (.cons_cons ⟨?_, ?_⟩ (.singleton _)) <;> norm_num
  have hfill : (0 : ℚ) < 40 := by norm_num
  exact (skewed_bound_iff hfill _ _).mpr (sum_gains_le_spread hagree) 20 (1 / 2) 30
    (by norm_num) (by norm_num) (by norm_num)

/-- Two workers, one a second ahead of the other, take turns: a bucket of one token that refills
one in a second gives out four in what is a second by their clocks. -/
theorem skewed_bound_exceeded :
    ¬ ∀ (capacity refillRate : ℚ) (p : Reading) (ps : List Reading), 1 ≤ capacity →
      0 < refillRate →
        (allowedCount capacity refillRate none (p :: ps) : ℚ) ≤
          capacity + refillRate * spread p ps := by
  intro h
  have hbound := h 1 1 ⟨0, 0⟩ [⟨0, 1⟩, ⟨0, 0⟩, ⟨0, 1⟩, ⟨0, 0⟩, ⟨0, 1⟩] le_rfl one_pos
  revert hbound
  decide +kernel

end DarajaWrapper
