import DarajaWrapper.Models.Payment

/-!
# The text of an amount

`str` of what a `NUMERIC(19, 4)` column is read as: digits with four of them behind the
point. Reading the text as a `Decimal` gives the amount back.
-/

namespace Python

variable {n : ℕ} {c : Char} {cs rest : List Char}

theorem digitValue_of_isDigit (h : c.isDigit = true) : digitValue c = some (c.toNat - 48) := by
  have hrange : 48 ≤ c.toNat ∧ c.toNat ≤ 57 := by
    simpa [Char.isDigit, UInt32.le_iff_toNat_le] using h
  rw [digitValue, decimalZeros, List.find?_cons_of_pos]
  · rfl
  · simp only [decide_eq_true_eq]
    omega

theorem takeDigits_append (h : ∀ d ∈ cs, d.isDigit = true)
    (hrest : ∀ d ∈ rest.head?, digitValue d = none) :
    takeDigits (cs ++ rest) = (cs.map fun d => d.toNat - 48, rest) := by
  induction cs with
  | nil =>
    cases rest with
    | nil => rfl
    | cons d rest =>
      rw [List.nil_append, takeDigits, hrest d rfl]
      rfl
  | cons c cs ih =>
    obtain ⟨hc, hcs⟩ := List.forall_mem_cons.mp h
    rw [List.cons_append, takeDigits, digitValue_of_isDigit hc, ih hcs]
    rfl

theorem takeDigits_toDigits (n : ℕ) (hrest : ∀ d ∈ rest.head?, digitValue d = none) :
    takeDigits (Nat.toDigits 10 n ++ rest) =
      ((Nat.toDigits 10 n).map fun d => d.toNat - 48, rest) :=
  takeDigits_append (fun _ hd => Nat.isDigit_of_mem_toDigits (by decide) (by decide) hd) hrest

theorem natOfDigits_map (cs : List Char) :
    natOfDigits (cs.map fun d => d.toNat - 48) = Nat.ofDigitChars 10 cs 0 := by
  rw [natOfDigits, List.foldl_map, Nat.ofDigitChars_eq_foldl]
  rfl

theorem Scientific.isExact_of_length {x : Scientific} (hlength : x.digits.length ≤ 100)
    (hlow : -100 ≤ x.exponent) (hhigh : x.exponent ≤ 100) : x.isExact = true := by
  have hprecision : x.precision ≤ 100 :=
    max_le (by decide) (((List.dropWhile_sublist _).length_le).trans hlength)
  simp only [isExact, Bool.and_eq_true, decide_eq_true_eq]
  unfold maxPrec minEtiny
  omega

theorem scientific_digits (n : ℕ) :
    ∃ x, scientific (Nat.toDigits 10 n) = some x ∧ x.value = (n : ℚ) ∧ x.exponent = 0 ∧
      x.digits.length = (Nat.toDigits 10 n).length := by
  have hwhole : takeDigits (Nat.toDigits 10 n ++ []) =
      ((Nat.toDigits 10 n).map fun d => d.toNat - 48, []) := takeDigits_toDigits n nofun
  rw [List.append_nil] at hwhole
  have hdigits : natOfDigits ((Nat.toDigits 10 n).map fun d => d.toNat - 48) = n := by
    rw [natOfDigits_map, Nat.ofDigitChars_ten_toDigits]
  refine ⟨⟨(Nat.toDigits 10 n).map fun d => d.toNat - 48, 0⟩, ?_, ?_, rfl, List.length_map _⟩
  · simp only [scientific, hwhole, List.append_nil]
    rw [if_neg (by simp [Nat.toDigits_ne_nil])]
    rfl
  · rw [Scientific.value, hdigits, zpow_zero, mul_one]

end Python

namespace DarajaWrapper

open Python

def fourDigits (n : ℕ) : List Char :=
  [Nat.digitChar (n / 1000 % 10), Nat.digitChar (n / 100 % 10), Nat.digitChar (n / 10 % 10),
    Nat.digitChar (n % 10)]

/-- `str(amount)` of an amount from the table; these are positive. -/
def amountText (amount : ℚ) : String :=
  let n := (amount * 10000).num.toNat
  String.ofList (Nat.toDigits 10 (n / 10000) ++ '.' :: fourDigits (n % 10000))

example : amountText 500 = "500.0000" := by decide +kernel

variable {n : ℕ} {amount : ℚ}

theorem isDigit_digitChar (h : n < 10) : (Nat.digitChar n).isDigit = true := by
  have hall : ∀ n < 10, (Nat.digitChar n).isDigit = true := by decide
  exact hall n h

theorem isDigit_of_mem_fourDigits {c : Char} (h : c ∈ fourDigits n) : c.isDigit = true := by
  simp only [fourDigits, List.mem_cons, List.not_mem_nil, or_false] at h
  rcases h with rfl | rfl | rfl | rfl
  all_goals exact isDigit_digitChar (Nat.mod_lt _ (by decide))

theorem ofDigitChars_fourDigits (init : ℕ) (h : n < 10000) :
    Nat.ofDigitChars 10 (fourDigits n) init = 10000 * init + n := by
  rw [fourDigits, Nat.ofDigitChars_cons_digitChar_of_lt_ten (Nat.mod_lt _ (by decide)),
    Nat.ofDigitChars_cons_digitChar_of_lt_ten (Nat.mod_lt _ (by decide)),
    Nat.ofDigitChars_cons_digitChar_of_lt_ten (Nat.mod_lt _ (by decide)),
    Nat.ofDigitChars_cons_digitChar_of_lt_ten (Nat.mod_lt _ (by decide)), Nat.ofDigitChars_nil]
  omega

theorem scientific_point (n : ℕ) :
    ∃ x, scientific (Nat.toDigits 10 (n / 10000) ++ '.' :: fourDigits (n % 10000)) = some x ∧
      x.value = (n / 10000 : ℚ) ∧ x.exponent = -4 ∧
      x.digits.length = (Nat.toDigits 10 (n / 10000)).length + 4 := by
  have hwhole : takeDigits (Nat.toDigits 10 (n / 10000) ++ '.' :: fourDigits (n % 10000)) =
      ((Nat.toDigits 10 (n / 10000)).map fun d => d.toNat - 48,
        '.' :: fourDigits (n % 10000)) := by
    refine takeDigits_toDigits _ ?_
    rintro d hd
    cases hd
    decide
  have hfraction : takeDigits (fourDigits (n % 10000)) =
      ((fourDigits (n % 10000)).map fun d => d.toNat - 48, []) := by
    have hall : takeDigits (fourDigits (n % 10000) ++ []) =
        ((fourDigits (n % 10000)).map fun d => d.toNat - 48, []) :=
      takeDigits_append (fun d => isDigit_of_mem_fourDigits) nofun
    rwa [List.append_nil] at hall
  have hdigits : natOfDigits ((Nat.toDigits 10 (n / 10000)).map (fun d => d.toNat - 48) ++
      (fourDigits (n % 10000)).map fun d => d.toNat - 48) = n := by
    rw [← List.map_append, natOfDigits_map, Nat.ofDigitChars_append,
      Nat.ofDigitChars_ten_toDigits, ofDigitChars_fourDigits _ (Nat.mod_lt _ (by decide))]
    omega
  refine ⟨⟨(Nat.toDigits 10 (n / 10000)).map (fun d => d.toNat - 48) ++
    (fourDigits (n % 10000)).map fun d => d.toNat - 48, -4⟩, ?_, ?_, rfl, ?_⟩
  · simp only [scientific, hwhole, hfraction]
    rw [if_neg (by simp [fourDigits])]
    rfl
  · have hscale : (10 : ℚ) ^ (-4 : ℤ) = 1 / 10000 := by norm_num
    rw [Scientific.value, hdigits, hscale, mul_one_div]
  · rw [List.length_append, List.length_map, List.length_map]
    rfl

def isPlain (c : Char) : Bool :=
  ['0', '1', '2', '3', '4', '5', '6', '7', '8', '9', '.'].contains c

theorem isPlain_of_isDigit {c : Char} (h : c.isDigit = true) : isPlain c = true := by
  have hrange : 48 ≤ c.toNat ∧ c.toNat ≤ 57 := by
    simpa [Char.isDigit, UInt32.le_iff_toNat_le] using h
  have hall : ∀ k < 10, isPlain (Char.ofNat (48 + k)) = true := by decide
  have hplain := hall (c.toNat - 48) (by omega)
  rwa [Nat.add_sub_cancel' hrange.1, Char.ofNat_toNat] at hplain

theorem isPlain_of_mem_toDigits {c : Char} (h : c ∈ Nat.toDigits 10 n) : isPlain c = true :=
  isPlain_of_isDigit (Nat.isDigit_of_mem_toDigits (by decide) (by decide) h)

theorem isPlain_cases {c : Char} (h : isPlain c = true) :
    isSpace c = false ∧ c ≠ '_' ∧ c ≠ '-' ∧ c ≠ '+' ∧ c ≠ 'i' ∧ c ≠ 's' ∧ c ≠ 'n' ∧
      c.toLower = c := by
  have hmem := List.contains_iff_mem.mp h
  simp only [List.mem_cons, List.not_mem_nil, or_false] at hmem
  rcases hmem with rfl | rfl | rfl | rfl | rfl | rfl | rfl | rfl | rfl | rfl | rfl
  all_goals decide

theorem dropWhile_isSpace_of_isPlain {cs : List Char} (h : ∀ c ∈ cs, isPlain c = true) :
    cs.dropWhile isSpace = cs := by
  cases cs with
  | nil => rfl
  | cons c cs =>
    have hc := (isPlain_cases (h c List.mem_cons_self)).1
    exact List.dropWhile_cons_of_neg (by simp [hc])

theorem decimalOfString_of_isPlain {s : String} (h : ∀ c ∈ s.toList, isPlain c = true) :
    decimalOfString s =
      ((scientific s.toList).filter Scientific.isExact).map fun x => .finite x.value := by
  have hstrip : strip s.toList = s.toList := by
    have hreverse : ∀ c ∈ s.toList.reverse, isPlain c = true :=
      fun c hc => h c (List.mem_reverse.mp hc)
    rw [strip, dropWhile_isSpace_of_isPlain h, dropWhile_isSpace_of_isPlain hreverse,
      List.reverse_reverse]
  have hfilter : s.toList.filter (· != '_') = s.toList := by
    rw [List.filter_eq_self]
    intro c hc
    exact bne_iff_ne.mpr (isPlain_cases (h c hc)).2.1
  have hlower : s.toList.map Char.toLower = s.toList := by
    refine (List.map_congr_left fun c hc => ?_).trans (List.map_id _)
    exact (isPlain_cases (h c hc)).2.2.2.2.2.2.2
  rw [decimalOfString, hstrip, hfilter]
  cases hs : s.toList with
  | nil => rfl
  | cons c cs =>
    rw [hs] at h hlower
    obtain ⟨-, -, hminus, hplus, hi, hs, hn, -⟩ := isPlain_cases (h c List.mem_cons_self)
    have hsign : takeSign (c :: cs) = (false, c :: cs) := by
      unfold takeSign
      split
      · rename_i heq
        exact absurd (List.head_eq_of_cons_eq heq) hminus
      · rename_i heq
        exact absurd (List.head_eq_of_cons_eq heq) hplus
      · rfl
    have hnan : isNan (c :: cs) = false := by
      simp [isNan, List.dropPrefix?, hs, hn]
    simp only [hsign, hlower, hnan]
    rw [if_neg (by simp [hi])]
    simp

theorem decimalOfString_of_scientific {s : String} {x : Scientific}
    (hplain : ∀ c ∈ s.toList, isPlain c = true) (hx : scientific s.toList = some x)
    (hexact : x.isExact = true) : decimalOfString s = some (.finite x.value) := by
  rw [decimalOfString_of_isPlain hplain, hx, Option.filter_some_pos hexact, Option.map_some]

/-- The text of an amount is read as the amount. -/
theorem decimalOfString_amountText (hpos : 0 < amount) (hplaces : (amount * 10000).den = 1)
    (hlt : amount < 10 ^ 15) : decimalOfString (amountText amount) = some (.finite amount) := by
  have hvalue : ((amount * 10000).num.toNat : ℚ) / 10000 = amount := by
    have hnum : 0 ≤ (amount * 10000).num := Rat.num_nonneg.mpr (by positivity)
    have hcast : ((amount * 10000).num.toNat : ℚ) = ((amount * 10000).num : ℚ) := by
      exact_mod_cast Int.toNat_of_nonneg hnum
    rw [hcast, Rat.coe_int_num_of_den_eq_one hplaces]
    ring
  generalize hn : (amount * 10000).num.toNat = n at hvalue
  have htext : (amountText amount).toList =
      Nat.toDigits 10 (n / 10000) ++ '.' :: fourDigits (n % 10000) := by
    rw [amountText, hn]
    exact String.toList_ofList
  have hplain : ∀ c ∈ (amountText amount).toList, isPlain c = true := by
    rw [htext]
    intro c hc
    rcases List.mem_append.mp hc with hc | hc
    · exact isPlain_of_mem_toDigits hc
    · rcases List.mem_cons.mp hc with rfl | hc
      · decide
      · exact isPlain_of_isDigit (isDigit_of_mem_fourDigits hc)
  obtain ⟨x, hx, hxvalue, hexponent, hlength⟩ := scientific_point n
  have hsmall : n / 10000 < 10 ^ 15 := by
    have hbound : (n : ℚ) < 10 ^ 15 * 10000 := by
      rw [← hvalue] at hlt
      exact (div_lt_iff₀ (by norm_num)).mp hlt
    have hnat : n < 10 ^ 15 * 10000 := by exact_mod_cast hbound
    omega
  have hdigits : (Nat.toDigits 10 (n / 10000)).length ≤ 15 :=
    (Nat.length_toDigits_le_iff (by decide) (by decide)).mpr hsmall
  have hexact : x.isExact = true := Scientific.isExact_of_length (by omega) (by omega) (by omega)
  rw [← htext] at hx
  rw [decimalOfString_of_scientific hplain hx hexact, hxvalue, hvalue]

end DarajaWrapper
