import DarajaWrapper.Python.Values
import Mathlib.Algebra.BigOperators.Intervals
import Mathlib.Data.Nat.Find

/-!
# The calendar and the digits of a `datetime`

Instants are counted in seconds from the start of day 0, the day before 0001-01-01, of the
proleptic Gregorian calendar in UTC. A time of day belongs to one instant and an instant
to one calendar time; the 14 digits of a calendar time are read back by `strptime`.
-/

namespace Python

def daysInYear (y : ℕ) : ℕ := if isLeapYear y then 366 else 365

def daysBeforeYear (y : ℕ) : ℕ := (y - 1) * 365 + (y - 1) / 4 - (y - 1) / 100 + (y - 1) / 400

def daysBeforeMonth (y m : ℕ) : ℕ := ∑ k ∈ Finset.Ico 1 m, daysInMonth y k

theorem daysBeforeYear_one : daysBeforeYear 1 = 0 := rfl

theorem isLeapYear_iff {y : ℕ} :
    isLeapYear y = true ↔ 4 ∣ y ∧ (¬ 100 ∣ y ∨ 400 ∣ y) := by
  simp [isLeapYear, Nat.dvd_iff_mod_eq_zero]

theorem daysBeforeYear_succ {y : ℕ} (h : 1 ≤ y) :
    daysBeforeYear (y + 1) = daysBeforeYear y + daysInYear y := by
  obtain ⟨k, rfl⟩ := Nat.exists_eq_add_of_le' h
  have hcentury : 100 ∣ k + 1 → 4 ∣ k + 1 := (Nat.dvd_trans (by decide) ·)
  have hcycle : 400 ∣ k + 1 → 100 ∣ k + 1 := (Nat.dvd_trans (by decide) ·)
  have hle : k / 100 ≤ k * 365 := by omega
  simp only [daysBeforeYear, daysInYear, isLeapYear_iff, Nat.add_sub_cancel, Nat.succ_div]
  by_cases h4 : 4 ∣ k + 1
  · by_cases h100 : 100 ∣ k + 1
    · by_cases h400 : 400 ∣ k + 1
      · simp only [h4, h100, h400, if_true, not_true_eq_false, or_true, and_true]
        omega
      · simp only [h4, h100, h400, if_true, if_false, not_true_eq_false, or_false, and_false]
        omega
    · have h400 : ¬ 400 ∣ k + 1 := mt hcycle h100
      simp only [h4, h100, h400, if_true, if_false, not_false_eq_true, true_or, and_true]
      omega
  · have h100 : ¬ 100 ∣ k + 1 := mt hcentury h4
    have h400 : ¬ 400 ∣ k + 1 := mt hcycle h100
    simp only [h4, h100, h400, if_false, false_and]
    omega

theorem daysBeforeYear_ge (y : ℕ) : (y - 1) * 365 ≤ daysBeforeYear y := by
  unfold daysBeforeYear
  omega

theorem daysBeforeMonth_one (y : ℕ) : daysBeforeMonth y 1 = 0 := rfl

theorem daysBeforeMonth_succ (y : ℕ) {m : ℕ} (h : 1 ≤ m) :
    daysBeforeMonth y (m + 1) = daysBeforeMonth y m + daysInMonth y m :=
  Finset.sum_Ico_succ_top h _

theorem daysBeforeMonth_thirteen (y : ℕ) : daysBeforeMonth y 13 = daysInYear y := by
  unfold daysBeforeMonth daysInYear daysInMonth
  cases isLeapYear y <;> rfl

/-- The greatest index whose count of days before it is below `n`: the year or the month in which
day `n` lies. -/
theorem findGreatest_days (before : ℕ → ℕ) (n bound : ℕ) (hfirst : before 1 < n)
    (hbound : 1 ≤ bound) (hlast : n ≤ before (bound + 1)) :
    let m := Nat.findGreatest (before · < n) bound
    1 ≤ m ∧ m ≤ bound ∧ before m < n ∧ n ≤ before (m + 1) := by
  intro m
  have hle : m ≤ bound := Nat.findGreatest_le bound
  refine ⟨Nat.le_findGreatest hbound hfirst, hle,
    Nat.findGreatest_spec (P := (before · < n)) hbound hfirst, ?_⟩
  rcases hle.lt_or_eq with hlt | heq
  · exact not_lt.mp
      (Nat.findGreatest_is_greatest (P := (before · < n)) (Nat.lt_succ_self m) hlt)
  · rw [heq]
    exact hlast

namespace Datetime

variable {d : Datetime}

/-- `toordinal`: the first of January of the year 1 is day 1. -/
def toordinal (d : Datetime) : ℕ :=
  daysBeforeYear d.year + daysBeforeMonth d.year d.month + d.day

def secondOfDay (d : Datetime) : ℕ := d.hour * 3600 + d.minute * 60 + d.second

/-- The instant that the time denotes when it is read as UTC. -/
def instant (d : Datetime) : ℤ := d.toordinal * 86400 + d.secondOfDay

/-- The date of a day, at this second of the day. -/
def ofOrdinal (n seconds : ℕ) : Datetime :=
  let year := Nat.findGreatest (daysBeforeYear · < n) (n / 365 + 1)
  let dayOfYear := n - daysBeforeYear year
  let month := Nat.findGreatest (daysBeforeMonth year · < dayOfYear) 12
  { year := year
    month := month
    day := dayOfYear - daysBeforeMonth year month
    hour := seconds / 3600
    minute := seconds / 60 % 60
    second := seconds % 60 }

def ofInstant (t : ℤ) : Datetime := ofOrdinal (t / 86400).toNat (t % 86400).toNat

/-- What holds of the date of a day: it exists, apart from the limit on years, and it is the day's
date. -/
theorem ofOrdinal_spec (n seconds : ℕ) (hn : 1 ≤ n) (hseconds : seconds < 86400) :
    let d := ofOrdinal n seconds
    1 ≤ d.year ∧ (1 ≤ d.month ∧ d.month ≤ 12) ∧ (1 ≤ d.day ∧ d.day ≤ daysInMonth d.year d.month) ∧
      d.hour ≤ 23 ∧ d.minute ≤ 59 ∧ d.second ≤ 59 ∧ d.toordinal = n ∧ d.secondOfDay = seconds := by
  intro d
  have hlast : n ≤ daysBeforeYear (n / 365 + 1 + 1) := by
    have hge := daysBeforeYear_ge (n / 365 + 1 + 1)
    omega
  obtain ⟨hyear, -, hbefore, hafter⟩ :=
    findGreatest_days daysBeforeYear n _ (by rw [daysBeforeYear_one]; omega)
      (Nat.le_add_left 1 _) hlast
  change 1 ≤ d.year at hyear
  change daysBeforeYear d.year < n at hbefore
  change n ≤ daysBeforeYear (d.year + 1) at hafter
  rw [daysBeforeYear_succ hyear] at hafter
  obtain ⟨hmonth, hmonth12, hbefore', hafter'⟩ :=
    findGreatest_days (daysBeforeMonth d.year) (n - daysBeforeYear d.year) 12
      (by rw [daysBeforeMonth_one]; omega) (by omega) (by rw [daysBeforeMonth_thirteen]; omega)
  change 1 ≤ d.month at hmonth
  change d.month ≤ 12 at hmonth12
  change daysBeforeMonth d.year d.month < n - daysBeforeYear d.year at hbefore'
  change n - daysBeforeYear d.year ≤ daysBeforeMonth d.year (d.month + 1) at hafter'
  rw [daysBeforeMonth_succ _ hmonth] at hafter'
  have hday : d.day = n - daysBeforeYear d.year - daysBeforeMonth d.year d.month := rfl
  have hhour : d.hour = seconds / 3600 := rfl
  have hminute : d.minute = seconds / 60 % 60 := rfl
  have hsecond : d.second = seconds % 60 := rfl
  refine ⟨hyear, ⟨hmonth, hmonth12⟩, ⟨by omega, by omega⟩, by omega, by omega, by omega, ?_, ?_⟩
  · unfold toordinal
    omega
  · unfold secondOfDay
    omega

theorem instant_ofInstant {t : ℤ} (h : 86400 ≤ t) : (ofInstant t).instant = t := by
  obtain ⟨-, -, -, -, -, -, hordinal, hsecond⟩ :=
    ofOrdinal_spec (t / 86400).toNat (t % 86400).toNat (by omega) (by omega)
  unfold instant ofInstant
  rw [hordinal, hsecond]
  omega

theorem valid_ofInstant {t : ℤ} (h : 86400 ≤ t) (hyear : (ofInstant t).year ≤ 9999) :
    (ofInstant t).valid = true := by
  obtain ⟨hy, ⟨hm, hm'⟩, ⟨hd, hd'⟩, hh, hmi, hs, -, -⟩ :=
    ofOrdinal_spec (t / 86400).toNat (t % 86400).toNat (by omega) (by omega)
  simp only [valid, Bool.and_eq_true, decide_eq_true_eq]
  exact ⟨⟨⟨⟨⟨⟨⟨⟨hy, hyear⟩, hm⟩, hm'⟩, hd⟩, hd'⟩, hh⟩, hmi⟩, hs⟩

theorem year_ofInstant_eq_zero {t : ℤ} (h : t < 86400) : (ofInstant t).year = 0 := by
  have hordinal : (t / 86400).toNat = 0 := by omega
  change Nat.findGreatest (daysBeforeYear · < (t / 86400).toNat) _ = 0
  rw [hordinal]
  rfl

end Datetime

def decimalDigits (n value : ℕ) : List Char :=
  (List.range n).reverse.map fun i => Nat.digitChar (value / 10 ^ i % 10)

theorem decimalDigits_succ (n value : ℕ) :
    decimalDigits (n + 1) value = decimalDigits n (value / 10) ++ [Nat.digitChar (value % 10)] := by
  simp only [decimalDigits, List.range_succ_eq_map, List.reverse_cons, List.map_append,
    List.map_cons, List.map_nil, ← List.map_reverse, List.map_map]
  congr 1
  · refine List.map_congr_left fun i _ => ?_
    simp only [Function.comp_apply, Nat.succ_eq_add_one, pow_succ']
    rw [Nat.div_div_eq_div_mul]
  · simp

theorem toDigits_eq_decimalDigits {n value : ℕ} (hlow : 10 ^ n ≤ value)
    (hhigh : value < 10 ^ (n + 1)) : Nat.toDigits 10 value = decimalDigits (n + 1) value := by
  induction n generalizing value with
  | zero =>
    rw [Nat.toDigits_of_lt_base (by omega), decimalDigits_succ, Nat.mod_eq_of_lt (by omega)]
    rfl
  | succ n ih =>
    have hbase : 10 ≤ value := by
      calc 10 ≤ 10 ^ (n + 1) := Nat.le_self_pow (by omega) 10
        _ ≤ value := hlow
    rw [pow_succ] at hlow hhigh
    rw [Nat.toDigits_of_base_le (by omega) hbase, ih (by omega) (by omega), ← decimalDigits_succ]

theorem decimalDigits_append {n a b : ℕ} (hb : b < 100) :
    decimalDigits (n + 2) (a * 100 + b) = decimalDigits n a ++ decimalDigits 2 b := by
  have htens : (a * 100 + b) / 10 = a * 10 + b / 10 := by omega
  have hunits : (a * 100 + b) % 10 = b % 10 := by omega
  have htens' : (a * 10 + b / 10) / 10 = a := by omega
  have hunits' : (a * 10 + b / 10) % 10 = b / 10 % 10 := by omega
  rw [decimalDigits_succ, decimalDigits_succ, htens, hunits, htens', hunits',
    List.append_assoc]
  congr 1
  simp [decimalDigits, List.range_succ]

namespace Datetime

variable {d : Datetime}

/-- `strftime("%Y%m%d%H%M%S")`, for years from 1000 on. -/
def strftimeYmdHMS (d : Datetime) : String :=
  String.ofList (decimalDigits 4 d.year ++ decimalDigits 2 d.month ++ decimalDigits 2 d.day ++
    decimalDigits 2 d.hour ++ decimalDigits 2 d.minute ++ decimalDigits 2 d.second)

/-- The number with these digits. -/
def ymdHMS (d : Datetime) : ℕ :=
  ((((d.year * 100 + d.month) * 100 + d.day) * 100 + d.hour) * 100 + d.minute) * 100 + d.second

theorem bounds_of_valid (h : d.valid = true) :
    d.year ≤ 9999 ∧ (1 ≤ d.month ∧ d.month ≤ 12) ∧ (1 ≤ d.day ∧ d.day ≤ 31) ∧ d.hour ≤ 23 ∧
      d.minute ≤ 59 ∧ d.second ≤ 59 := by
  simp only [valid, Bool.and_eq_true, decide_eq_true_eq] at h
  obtain ⟨⟨⟨⟨⟨⟨⟨⟨-, hy⟩, hm⟩, hm'⟩, hd⟩, hd'⟩, hh⟩, hmi⟩, hs⟩ := h
  have hdays : daysInMonth d.year d.month ≤ 31 := by
    unfold daysInMonth
    split_ifs <;> omega
  exact ⟨hy, ⟨hm, hm'⟩, ⟨hd, hd'.trans hdays⟩, hh, hmi, hs⟩

theorem toString_ymdHMS (h : d.valid = true) (hyear : 1000 ≤ d.year) :
    toString (d.ymdHMS : ℤ) = d.strftimeYmdHMS := by
  obtain ⟨hy, ⟨-, hm⟩, ⟨-, hd⟩, hh, hmi, hs⟩ := bounds_of_valid h
  have hdigits : Nat.toDigits 10 d.ymdHMS = decimalDigits 14 d.ymdHMS :=
    toDigits_eq_decimalDigits (by unfold ymdHMS; omega) (by unfold ymdHMS; omega)
  have hnat : toString (d.ymdHMS : ℤ) = String.ofList (Nat.toDigits 10 d.ymdHMS) :=
    Nat.toString_eq_ofList_toDigits
  rw [hnat, hdigits]
  unfold ymdHMS strftimeYmdHMS
  rw [decimalDigits_append (by omega), decimalDigits_append (by omega),
    decimalDigits_append (by omega), decimalDigits_append (by omega),
    decimalDigits_append (by omega)]

end Datetime

theorem matchClasses_append {ps : List CharClass} {cs : List Char} (rest : List Char) {n : ℕ}
    (h : ps.length ≤ cs.length) :
    matchClasses n ps (cs ++ rest) =
      (matchClasses n ps cs).map fun found => (found.1, found.2 ++ rest) := by
  induction ps generalizing n cs with
  | nil => rfl
  | cons p ps ih =>
    cases cs with
    | nil => simp at h
    | cons c cs =>
      simp only [List.cons_append, matchClasses]
      cases p c with
      | none => rfl
      | some d => exact ih (by simpa using h)

theorem directive_append {alternatives : List (List CharClass)} (cs rest : List Char)
    (h : ∀ ps ∈ alternatives, ps.length ≤ cs.length) :
    directive alternatives (cs ++ rest) =
      (directive alternatives cs).map fun found => (found.1, found.2 ++ rest) := by
  unfold directive
  rw [List.map_filterMap]
  exact List.filterMap_congr fun ps hps => matchClasses_append rest (h ps hps)

/-- On two digits the first match of the directive is the number that they write. -/
def ReadsTwoDigits (dir : List Char → List (ℕ × List Char)) (value : ℕ) : Prop :=
  ∃ alternatives, dir = directive alternatives ∧ (∀ ps ∈ alternatives, ps.length ≤ 2) ∧
    (directive alternatives (decimalDigits 2 value)).head? = some (value, [])

theorem ReadsTwoDigits.head? {dir : List Char → List (ℕ × List Char)} {value : ℕ}
    (h : ReadsTwoDigits dir value) (rest : List Char) :
    (dir (decimalDigits 2 value ++ rest)).head? = some (value, rest) := by
  obtain ⟨alternatives, rfl, hlength, hhead⟩ := h
  have happend := directive_append (decimalDigits 2 value) rest hlength
  rw [happend, List.head?_map, hhead]
  rfl

theorem readsTwoDigits_of_check {alternatives : List (List CharClass)} {low high value : ℕ}
    (hlength : ∀ ps ∈ alternatives, ps.length ≤ 2)
    (hcheck : ∀ v < high + 1, low ≤ v →
      (directive alternatives (decimalDigits 2 v)).head? = some (v, []))
    (hlow : low ≤ value) (hhigh : value ≤ high) : ReadsTwoDigits (directive alternatives) value :=
  ⟨alternatives, rfl, hlength, hcheck value (Nat.lt_succ_of_le hhigh) hlow⟩

theorem readsTwoDigits_month {m : ℕ} (hm : 1 ≤ m ∧ m ≤ 12) : ReadsTwoDigits directiveM m :=
  readsTwoDigits_of_check (by decide) (by decide) hm.1 hm.2

theorem readsTwoDigits_day {d : ℕ} (hd : 1 ≤ d ∧ d ≤ 31) : ReadsTwoDigits directiveD d :=
  readsTwoDigits_of_check (by decide) (by decide) hd.1 hd.2

theorem readsTwoDigits_hour {h : ℕ} (hh : h ≤ 23) : ReadsTwoDigits directiveHour h :=
  readsTwoDigits_of_check (by decide) (by decide) h.zero_le hh

theorem readsTwoDigits_minute {m : ℕ} (hm : m ≤ 59) : ReadsTwoDigits directiveMinute m :=
  readsTwoDigits_of_check (by decide) (by decide) m.zero_le hm

theorem readsTwoDigits_second {s : ℕ} (hs : s ≤ 59) : ReadsTwoDigits directiveSecond s :=
  readsTwoDigits_of_check (by decide) (by decide) s.zero_le hs

theorem digitValue_digitChar {k : ℕ} (h : k < 10) : digitValue (Nat.digitChar k) = some k := by
  have hall : ∀ k < 10, digitValue (Nat.digitChar k) = some k := by decide
  exact hall k h

theorem matchClasses_digitChar {n k : ℕ} {ps : List CharClass} {cs : List Char} (h : k < 10) :
    matchClasses n (digitValue :: ps) (Nat.digitChar k :: cs) =
      matchClasses (10 * n + k) ps cs := by
  rw [matchClasses, digitValue_digitChar h, Option.bind_some]

theorem directiveY_decimalDigits {y : ℕ} (hy : y ≤ 9999) (rest : List Char) :
    (directiveY (decimalDigits 4 y ++ rest)).head? = some (y, rest) := by
  have hdigits : decimalDigits 4 y = [Nat.digitChar (y / 1000 % 10), Nat.digitChar (y / 100 % 10),
      Nat.digitChar (y / 10 % 10), Nat.digitChar (y % 10)] := by
    simp [decimalDigits, List.range_succ]
  have hmatch : matchClasses 0 [digitValue, digitValue, digitValue, digitValue]
      (decimalDigits 4 y ++ rest) =
        some (10 * (10 * (10 * (10 * 0 + y / 1000 % 10) + y / 100 % 10) + y / 10 % 10) + y % 10,
          rest) := by
    simp only [hdigits, List.cons_append, List.nil_append]
    rw [matchClasses_digitChar (by omega), matchClasses_digitChar (by omega),
      matchClasses_digitChar (by omega), matchClasses_digitChar (by omega), matchClasses]
  simp only [directiveY, directive, List.filterMap_cons, hmatch, List.head?_cons,
    Option.some.injEq, Prod.mk.injEq, and_true]
  omega

/-- Of nested matches the first of the first is tried first. -/
theorem head?_flatMap_of_head? {α β : Type} {xs : List α} {f : α → List β} {x : α} {y : β}
    (hx : xs.head? = some x) (hy : (f x).head? = some y) : (xs.flatMap f).head? = some y := by
  cases xs with
  | nil => cases hx
  | cons x' xs =>
    cases hx
    rw [List.head?_flatMap, List.findSome?_cons, hy]

/-- `strptime` undoes `strftime` on valid dates. -/
theorem strptime_strftime {d : Datetime} (h : d.valid = true) :
    strptimeYmdHMS d.strftimeYmdHMS = some d := by
  obtain ⟨hy, hm, hd, hh, hmi, hs⟩ := Datetime.bounds_of_valid h
  have hmatch : matchYmdHMS d.strftimeYmdHMS.toList = some (d, []) := by
    unfold matchYmdHMS Datetime.strftimeYmdHMS
    simp only [String.toList_ofList, List.append_assoc]
    refine head?_flatMap_of_head? (directiveY_decimalDigits hy _) ?_
    refine head?_flatMap_of_head? ((readsTwoDigits_month hm).head? _) ?_
    refine head?_flatMap_of_head? ((readsTwoDigits_day hd).head? _) ?_
    refine head?_flatMap_of_head? ((readsTwoDigits_hour hh).head? _) ?_
    refine head?_flatMap_of_head? ((readsTwoDigits_minute hmi).head? _) ?_
    rw [← List.append_nil (decimalDigits 2 d.second), List.head?_map,
      (readsTwoDigits_second hs).head?]
    rfl
  unfold strptimeYmdHMS
  rw [hmatch]
  exact if_pos h

end Python
