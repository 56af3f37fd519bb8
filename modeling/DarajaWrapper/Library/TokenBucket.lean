import Mathlib.Algebra.Order.Field.Basic
import Mathlib.Data.List.Induction
import Mathlib.Tactic.Linarith
import Mathlib.Tactic.Ring

/-!
# Token buckets

A bucket refills at a constant rate up to its capacity, and a request takes its
cost out of it or is turned away. The level at the last request is enough to
know the level at any later time, so a bucket can be kept as a pair. In a window
of length `d` the requests let through cost at most `capacity + rate * d`.
-/

structure TokenBucket (α : Type*) where
  capacity : α
  rate : α
  cost : α

/-- The level of a bucket at some time. -/
structure BucketLevel (α : Type*) where
  level : α
  time : α

namespace TokenBucket

variable {α : Type*} [LinearOrder α]

/-- How many requests are let through between two times. -/
def admitted (lo hi : α) (served : List (α × Bool)) : ℕ :=
  served.countP fun d => d.2 && lo ≤ d.1 && d.1 ≤ hi

theorem admitted_cons {lo hi : α} (d : α × Bool) (served : List (α × Bool)) :
    admitted lo hi (d :: served) =
      admitted lo hi served + if d.2 ∧ lo ≤ d.1 ∧ d.1 ≤ hi then 1 else 0 := by
  unfold admitted
  rw [List.countP_cons]
  simp [and_assoc]

variable [Field α]

/-- The level at a later time. -/
def levelAt (b : TokenBucket α) (s : BucketLevel α) (t : α) : α :=
  min b.capacity (s.level + b.rate * (t - s.time))

/-- A request at time `t`: the level afterwards, and whether it is let through. -/
def take (b : TokenBucket α) (s : BucketLevel α) (t : α) : BucketLevel α × Bool :=
  if b.cost ≤ b.levelAt s t then (⟨b.levelAt s t - b.cost, t⟩, true)
  else (⟨b.levelAt s t, t⟩, false)

def serve (b : TokenBucket α) : BucketLevel α → List α → List (α × Bool)
  | _, [] => []
  | s, t :: ts => (t, (b.take s t).2) :: b.serve (b.take s t).1 ts

def leave (b : TokenBucket α) : BucketLevel α → List α → BucketLevel α
  | s, [] => s
  | s, t :: ts => b.leave (b.take s t).1 ts

variable {b : TokenBucket α} {s : BucketLevel α} {t lo hi : α} {ts : List α}

theorem levelAt_le : b.levelAt s t ≤ b.capacity := min_le_left ..

@[simp] theorem time_take : (b.take s t).1.time = t := by
  unfold take
  split_ifs <;> rfl

theorem time_leave_le {v : α} (h : ∀ u ∈ s.time :: ts, u ≤ v) : (b.leave s ts).time ≤ v := by
  induction ts generalizing s with
  | nil => exact h _ List.mem_cons_self
  | cons t ts ih =>
    apply ih
    rw [time_take]
    intro u hu
    exact h u (List.mem_cons_of_mem _ hu)

theorem mem_of_mem_serve {d : α × Bool} (h : d ∈ b.serve s ts) : d.1 ∈ ts := by
  induction ts generalizing s with
  | nil => cases h
  | cons t ts ih =>
    rcases List.mem_cons.mp h with rfl | h
    · exact List.mem_cons_self
    · exact List.mem_cons_of_mem t (ih h)

theorem admitted_eq_zero (hsorted : (t :: ts).Pairwise (· ≤ ·)) (h : hi < t) :
    admitted lo hi (b.serve s (t :: ts)) = 0 := by
  apply List.countP_eq_zero.mpr
  intro d hd
  have hlt : hi < d.1 := by
    rcases List.mem_cons.mp (mem_of_mem_serve hd) with heq | hmem
    · rw [heq]
      exact h
    · exact h.trans_le ((List.pairwise_cons.mp hsorted).1 _ hmem)
  simp [not_le.mpr hlt]

theorem take_le : (if (b.take s t).2 then b.cost else 0) + (b.take s t).1.level ≤
    s.level + b.rate * (t - s.time) := by
  have hle : b.levelAt s t ≤ s.level + b.rate * (t - s.time) := min_le_right ..
  unfold take
  by_cases hcost : b.cost ≤ b.levelAt s t
  · simpa [hcost] using hle
  · simpa [hcost] using hle

variable [IsStrictOrderedRing α]

theorem levelAt_levelAt (hrate : 0 ≤ b.rate) {t' : α} (ht : t ≤ t') :
    b.levelAt ⟨b.levelAt s t, t⟩ t' = b.levelAt s t' := by
  have hmore : 0 ≤ b.rate * (t' - t) := mul_nonneg hrate (sub_nonneg.mpr ht)
  have hsplit : s.level + b.rate * (t' - s.time) =
      s.level + b.rate * (t - s.time) + b.rate * (t' - t) := by ring
  simp only [levelAt]
  rw [hsplit, ← min_add_add_right, ← min_assoc, min_eq_left (le_add_of_nonneg_right hmore)]

theorem levelAt_nonneg (hcapacity : 0 ≤ b.capacity) (hrate : 0 ≤ b.rate) (hs : 0 ≤ s.level)
    (ht : s.time ≤ t) : 0 ≤ b.levelAt s t := by
  apply le_min hcapacity
  exact add_nonneg hs (mul_nonneg hrate (sub_nonneg.mpr ht))

theorem take_nonneg (hcapacity : 0 ≤ b.capacity) (hrate : 0 ≤ b.rate) (hs : 0 ≤ s.level)
    (ht : s.time ≤ t) : 0 ≤ (b.take s t).1.level := by
  unfold take
  split_ifs with hcost
  · exact sub_nonneg.mpr hcost
  · exact levelAt_nonneg hcapacity hrate hs ht

omit [IsStrictOrderedRing α] in
theorem take_of_le (h : b.cost ≤ b.levelAt s t) :
    b.take s t = (⟨b.levelAt s t - b.cost, t⟩, true) := by
  rw [take, if_pos h]

omit [IsStrictOrderedRing α] in
theorem take_of_lt (h : b.levelAt s t < b.cost) : b.take s t = (⟨b.levelAt s t, t⟩, false) := by
  rw [take, if_neg (not_le.mpr h)]

theorem serve_of_lt (hrate : 0 ≤ b.rate) (hsorted : (s.time :: ts).Pairwise (· ≤ ·))
    (hlow : ∀ t ∈ ts, b.levelAt s t < b.cost) :
    (∀ d ∈ b.serve s ts, d.2 = false) ∧
      ∀ v, (∀ t ∈ ts, t ≤ v) → b.levelAt (b.leave s ts) v = b.levelAt s v := by
  induction ts generalizing s with
  | nil => exact ⟨nofun, fun v hv => rfl⟩
  | cons t ts ih =>
    have hrest := (List.pairwise_cons.mp hsorted).2
    have htake := take_of_lt (hlow t List.mem_cons_self)
    have hlater : ∀ u ∈ ts, b.levelAt ⟨b.levelAt s t, t⟩ u < b.cost := by
      intro u hu
      rw [levelAt_levelAt hrate ((List.pairwise_cons.mp hrest).1 u hu)]
      exact hlow u (List.mem_cons_of_mem t hu)
    obtain ⟨hdenied, hlevel⟩ := ih (s := ⟨b.levelAt s t, t⟩) hrest hlater
    constructor
    · intro d hd
      rw [serve, htake] at hd
      rcases List.mem_cons.mp hd with rfl | hd
      · rfl
      · exact hdenied d hd
    · intro v hv
      rw [leave, htake, hlevel v fun u hu => hv u (List.mem_cons_of_mem t hu)]
      exact levelAt_levelAt hrate (hv t List.mem_cons_self)

theorem admitted_le (hcapacity : 0 ≤ b.capacity) (hrate : 0 ≤ b.rate) (hcost : 0 ≤ b.cost)
    (hs : 0 ≤ s.level) (hsorted : (s.time :: ts).Pairwise (· ≤ ·)) (hhi : s.time ≤ hi) :
    (admitted lo hi (b.serve s ts) : α) * b.cost ≤ s.level + b.rate * (hi - s.time) := by
  induction ts generalizing s with
  | nil =>
    have hrefill : 0 ≤ b.rate * (hi - s.time) := mul_nonneg hrate (sub_nonneg.mpr hhi)
    simpa [serve, admitted] using add_nonneg hs hrefill
  | cons t ts ih =>
    obtain ⟨hfirst, hrest⟩ := List.pairwise_cons.mp hsorted
    have ht : s.time ≤ t := hfirst t List.mem_cons_self
    by_cases hthi : t ≤ hi
    · have hnext := ih (s := (b.take s t).1) (take_nonneg hcapacity hrate hs ht)
        (by simpa using hrest) (by simpa using hthi)
      rw [time_take] at hnext
      have htake : (if (b.take s t).2 then b.cost else 0) + (b.take s t).1.level ≤
          s.level + b.rate * (t - s.time) := take_le
      have hone : ((if (b.take s t).2 ∧ lo ≤ t ∧ t ≤ hi then 1 else 0 : ℕ) : α) * b.cost ≤
          if (b.take s t).2 then b.cost else 0 := by
        split_ifs with h₁ h₂ h₂
        · simp
        · exact absurd h₁.1 h₂
        · simpa using hcost
        · simp
      rw [serve, admitted_cons, Nat.cast_add, add_mul]
      have hsplit : b.rate * (hi - s.time) = b.rate * (t - s.time) + b.rate * (hi - t) := by ring
      linarith
    · have hrefill : 0 ≤ b.rate * (hi - s.time) := mul_nonneg hrate (sub_nonneg.mpr hhi)
      rw [admitted_eq_zero hrest (not_le.mp hthi), Nat.cast_zero, zero_mul]
      exact add_nonneg hs hrefill

/-- What a bucket is for: in a window, the requests let through cost at most a full bucket and the
refill over the window. -/
theorem admitted_window_le (hcapacity : 0 ≤ b.capacity) (hrate : 0 ≤ b.rate) (hcost : 0 ≤ b.cost)
    (hs : 0 ≤ s.level) (hsorted : (s.time :: ts).Pairwise (· ≤ ·)) (hwindow : lo ≤ hi) :
    (admitted lo hi (b.serve s ts) : α) * b.cost ≤ b.capacity + b.rate * (hi - lo) := by
  have hbound : 0 ≤ b.capacity + b.rate * (hi - lo) :=
    add_nonneg hcapacity (mul_nonneg hrate (sub_nonneg.mpr hwindow))
  induction ts generalizing s with
  | nil => simpa [serve, admitted] using hbound
  | cons t ts ih =>
    obtain ⟨hfirst, hrest⟩ := List.pairwise_cons.mp hsorted
    have ht : s.time ≤ t := hfirst t List.mem_cons_self
    by_cases hlo : lo ≤ t
    · by_cases hhi : t ≤ hi
      · -- from the first request in the window on, the level is at most the capacity
        have hserve : b.serve s (t :: ts) = b.serve ⟨b.levelAt s t, t⟩ (t :: ts) := by
          have hsame : b.take ⟨b.levelAt s t, t⟩ t = b.take s t := by
            simp only [take, levelAt_levelAt hrate le_rfl]
          simp only [serve, hsame]
        have hagain : (t :: t :: ts).Pairwise (· ≤ ·) := by
          refine List.pairwise_cons.mpr ⟨?_, hrest⟩
          intro t' ht'
          rcases List.mem_cons.mp ht' with rfl | hmem
          · exact le_rfl
          · exact (List.pairwise_cons.mp hrest).1 t' hmem
        have hle : (admitted lo hi (b.serve ⟨b.levelAt s t, t⟩ (t :: ts)) : α) * b.cost ≤
            b.levelAt s t + b.rate * (hi - t) :=
          admitted_le hcapacity hrate hcost (levelAt_nonneg hcapacity hrate hs ht) hagain hhi
        have hcap : b.levelAt s t ≤ b.capacity := levelAt_le
        have hshorter : b.rate * (hi - t) ≤ b.rate * (hi - lo) :=
          mul_le_mul_of_nonneg_left (sub_le_sub_left hlo hi) hrate
        rw [hserve]
        linarith
      · rw [admitted_eq_zero hrest (not_le.mp hhi), Nat.cast_zero, zero_mul]
        exact hbound
    · have hnext := ih (s := (b.take s t).1) (take_nonneg hcapacity hrate hs ht)
        (by simpa using hrest)
      rw [serve, admitted_cons]
      simpa [hlo] using hnext

def requested (lo hi : α) (ts : List α) : ℕ := ts.countP fun t => lo ≤ t && t ≤ hi

omit [Field α] [IsStrictOrderedRing α] in
theorem requested_cons (lo hi t : α) (ts : List α) :
    requested lo hi (t :: ts) = requested lo hi ts + if lo ≤ t ∧ t ≤ hi then 1 else 0 := by
  unfold requested
  rw [List.countP_cons]
  simp

omit [Field α] [IsStrictOrderedRing α] in
theorem requested_le_of_le {lo' : α} (h : lo ≤ lo') : requested lo' hi ts ≤ requested lo hi ts := by
  apply List.countP_mono_left
  intro t _ ht
  simp only [Bool.and_eq_true, decide_eq_true_eq] at ht ⊢
  exact ⟨h.trans ht.1, ht.2⟩

/-- Requests whose cost stays in every window within the capacity and the refill, and until any
time within the level and the refill, are all let through. -/
theorem serve_of_conforming (hcost : 0 ≤ b.cost) (hsorted : (s.time :: ts).Pairwise (· ≤ ·))
    (hlevel : ∀ hi, s.time ≤ hi →
      (requested s.time hi ts : α) * b.cost ≤ s.level + b.rate * (hi - s.time))
    (hwindow : ∀ lo hi, lo ≤ hi →
      (requested lo hi ts : α) * b.cost ≤ b.capacity + b.rate * (hi - lo)) :
    ∀ d ∈ b.serve s ts, d.2 = true := by
  induction ts generalizing s with
  | nil => nofun
  | cons t ts ih =>
    obtain ⟨hfirst, hrest⟩ := List.pairwise_cons.mp hsorted
    have ht : s.time ≤ t := hfirst t List.mem_cons_self
    -- with the request at `t` itself, both bounds leave its cost in the bucket
    have hcount : ∀ lo hi, lo ≤ t → t ≤ hi →
        (requested lo hi (t :: ts) : α) * b.cost = requested lo hi ts * b.cost + b.cost := by
      intro lo hi hlo hhi
      rw [requested_cons, if_pos ⟨hlo, hhi⟩, Nat.cast_add, Nat.cast_one, add_mul, one_mul]
    have hnonneg : ∀ lo hi, (0 : α) ≤ requested lo hi ts * b.cost :=
      fun lo hi => mul_nonneg (Nat.cast_nonneg _) hcost
    have htake : b.cost ≤ b.levelAt s t := by
      apply le_min
      · have hnow := hwindow t t le_rfl
        rw [hcount t t le_rfl le_rfl, sub_self, mul_zero] at hnow
        linarith [hnonneg t t]
      · have hnow := hlevel t ht
        rw [hcount s.time t ht le_rfl] at hnow
        linarith [hnonneg s.time t]
    have hstate := take_of_le htake
    intro d hd
    rw [serve, hstate] at hd
    rcases List.mem_cons.mp hd with rfl | hd
    · rfl
    · refine ih hrest ?_ ?_ d hd
      · intro hi hhi
        change (requested t hi ts : α) * b.cost ≤ b.levelAt s t - b.cost + b.rate * (hi - t)
        have hfewer : (requested t hi ts : α) * b.cost ≤ requested s.time hi ts * b.cost :=
          mul_le_mul_of_nonneg_right (Nat.cast_le.mpr (requested_le_of_le ht)) hcost
        have hwhole := hlevel hi (ht.trans hhi)
        rw [hcount s.time hi ht hhi] at hwhole
        have hhere := hwindow t hi hhi
        rw [hcount t hi le_rfl hhi] at hhere
        have hsplit : b.rate * (hi - s.time) = b.rate * (t - s.time) + b.rate * (hi - t) := by ring
        have hlevelAt : (requested t hi ts : α) * b.cost + b.cost - b.rate * (hi - t) ≤
            b.levelAt s t := by
          apply le_min
          · linarith
          · linarith
        linarith
      · intro lo hi hlohi
        have hmore : (requested lo hi ts : α) ≤ requested lo hi (t :: ts) := by
          rw [requested_cons, Nat.cast_le]
          exact Nat.le_add_right _ _
        exact (mul_le_mul_of_nonneg_right hmore hcost).trans (hwindow lo hi hlohi)

theorem serve_full_of_conforming (hcost : 0 ≤ b.cost)
    (hfull : b.capacity ≤ s.level) (hsorted : (s.time :: ts).Pairwise (· ≤ ·))
    (hwindow : ∀ lo hi, lo ≤ hi →
      (requested lo hi ts : α) * b.cost ≤ b.capacity + b.rate * (hi - lo)) :
    ∀ d ∈ b.serve s ts, d.2 = true := by
  apply serve_of_conforming hcost hsorted _ hwindow
  intro hi hhi
  exact (hwindow s.time hi hhi).trans (add_le_add_left hfull _)

omit [IsStrictOrderedRing α] in
theorem serve_prefix (b : TokenBucket α) (s : BucketLevel α) (ts us : List α) :
    b.serve s ts <+: b.serve s (ts ++ us) := by
  induction ts generalizing s with
  | nil => exact List.nil_prefix
  | cons t ts ih => exact (List.prefix_cons_inj _).mpr (ih _)

omit [IsStrictOrderedRing α] in
theorem admitted_eq_requested (lo hi : α) (h : ∀ d ∈ b.serve s ts, d.2 = true) :
    admitted lo hi (b.serve s ts) = requested lo hi ts := by
  induction ts generalizing s with
  | nil => rfl
  | cons t ts ih =>
    obtain ⟨hnow, hlater⟩ := List.forall_mem_cons.mp h
    change (b.take s t).2 = true at hnow
    rw [serve, admitted_cons, requested_cons, ih hlater]
    simp [hnow]

/-- If what a full bucket lets through keeps within a bucket that is smaller by one request, it
turns nothing away. -/
theorem serve_of_admitted_le {capacity rate : α} (hcost : 0 ≤ b.cost)
    (hcapacity : capacity + b.cost ≤ b.capacity) (hrate : rate ≤ b.rate)
    (hfull : b.capacity ≤ s.level) (hsorted : (s.time :: ts).Pairwise (· ≤ ·))
    (hwindow : ∀ lo hi, lo ≤ hi →
      (admitted lo hi (b.serve s ts) : α) * b.cost ≤ capacity + rate * (hi - lo)) :
    ∀ d ∈ b.serve s ts, d.2 = true := by
  induction ts using List.reverseRecOn with
  | nil => nofun
  | append_singleton ts t ih =>
    have hinitial : b.serve s ts <+: b.serve s (ts ++ [t]) := b.serve_prefix s ts [t]
    have hsorted' : (s.time :: ts).Pairwise (· ≤ ·) :=
      hsorted.sublist (List.Sublist.cons_cons _ (List.sublist_append_left ts [t]))
    have hbefore : ∀ d ∈ b.serve s ts, d.2 = true := by
      apply ih hsorted'
      intro lo hi hlohi
      have hfewer : (admitted lo hi (b.serve s ts) : α) ≤ admitted lo hi (b.serve s (ts ++ [t])) :=
        Nat.cast_le.mpr (hinitial.sublist.countP_le)
      exact (mul_le_mul_of_nonneg_right hfewer hcost).trans (hwindow lo hi hlohi)
    apply serve_full_of_conforming hcost hfull hsorted
    intro lo hi hlohi
    -- all requests but the last are among those let through
    have hcount : (requested lo hi (ts ++ [t]) : α) ≤
        admitted lo hi (b.serve s (ts ++ [t])) + 1 := by
      rw [requested, List.countP_append, ← requested, ← admitted_eq_requested lo hi hbefore]
      have hlast : List.countP (fun t => decide (lo ≤ t) && decide (t ≤ hi)) [t] ≤ 1 :=
        List.countP_le_length
      have hfewer : admitted lo hi (b.serve s ts) ≤ admitted lo hi (b.serve s (ts ++ [t])) :=
        hinitial.sublist.countP_le
      exact_mod_cast Nat.add_le_add hfewer hlast
    have hscaled := mul_le_mul_of_nonneg_right hcount hcost
    rw [add_mul, one_mul] at hscaled
    have hrefill : rate * (hi - lo) ≤ b.rate * (hi - lo) :=
      mul_le_mul_of_nonneg_right hrate (sub_nonneg.mpr hlohi)
    linarith [hwindow lo hi hlohi]

end TokenBucket
