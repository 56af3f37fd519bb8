import DarajaWrapper.Python.Encodings
import DarajaWrapper.Python.Objects
import Mathlib.Data.List.TakeWhile

/-!
# Reading JSON texts

A reader for JSON texts with any whitespace between the tokens and any escapes in the
strings. Integers are read as such and every other number stays the text that it is.
What `json.dumps` writes is read back as the value that was dumped, its members in
the order of their keys; so the text determines the value up to that order.
-/

namespace Python

def hexValue (c : Char) : Option ℕ :=
  if '0' ≤ c ∧ c ≤ '9' then some (c.toNat - '0'.toNat)
  else if 'a' ≤ c ∧ c ≤ 'f' then some (c.toNat - 'a'.toNat + 10)
  else if 'A' ≤ c ∧ c ≤ 'F' then some (c.toNat - 'A'.toNat + 10)
  else none

def readUnit : List Char → Option (ℕ × List Char)
  | a :: b :: c :: d :: cs => do
    let a ← hexValue a
    let b ← hexValue b
    let c ← hexValue c
    let d ← hexValue d
    return (((a * 16 + b) * 16 + c) * 16 + d, cs)
  | _ => none

def unescape : Char → Option Char
  | '"' => some '"'
  | '\\' => some '\\'
  | '/' => some '/'
  | 'b' => some '\x08'
  | 'f' => some '\x0c'
  | 'n' => some '\n'
  | 'r' => some '\r'
  | 't' => some '\t'
  | _ => none

def readLow (high : ℕ) : List Char → Option (Char × List Char)
  | '\\' :: 'u' :: cs => do
    let (low, cs) ← readUnit cs
    if 0xDC00 ≤ low ∧ low < 0xE000 then
      return (Char.ofNat (0x10000 + (high - 0xD800) * 0x400 + (low - 0xDC00)), cs)
    else none
  | _ => none

/-- One character of a string, escaped or not; a surrogate on its own is none. -/
def readChar : List Char → Option (Char × List Char)
  | [] => none
  | '\\' :: 'u' :: cs => do
    let (n, cs) ← readUnit cs
    if n < 0xD800 ∨ 0xE000 ≤ n then return (Char.ofNat n, cs)
    else if n < 0xDC00 then readLow n cs
    else none
  | '\\' :: c :: cs => (unescape c).map fun c => (c, cs)
  | c :: cs => if c = '\\' ∨ c.toNat < 0x20 then none else some (c, cs)

def readString : ℕ → List Char → Option (List Char × List Char)
  | 0, _ => none
  | fuel + 1, cs =>
    match cs with
    | '"' :: cs => some ([], cs)
    | cs => do
      let (c, cs) ← readChar cs
      let (s, cs) ← readString fuel cs
      return (c :: s, cs)

section

variable {c : Char} {n : ℕ} (rest : List Char)

theorem hexValue_hexDigits (h : n < 16) : hexValue (hexDigits.getD n '0') = some n := by
  have hall : ∀ n < 16, hexValue (hexDigits.getD n '0') = some n := by decide
  exact hall n h

theorem readUnit_hex (h : n < 0x10000) : readUnit (hex 4 n ++ rest) = some (n, rest) := by
  have hdigits : hex 4 n = [hexDigits.getD (n / 4096 % 16) '0', hexDigits.getD (n / 256 % 16) '0',
      hexDigits.getD (n / 16 % 16) '0', hexDigits.getD (n % 16) '0'] := by
    simp [hex, List.range, List.range.loop]
  rw [hdigits]
  simp only [List.cons_append, List.nil_append, readUnit, Option.bind_eq_bind, Option.pure_def]
  rw [hexValue_hexDigits (by omega), hexValue_hexDigits (by omega), hexValue_hexDigits (by omega),
    hexValue_hexDigits (by omega)]
  simp only [Option.bind_some, Option.some.injEq, Prod.mk.injEq, and_true]
  omega

theorem readChar_escapeUnit (h : n < 0xD800 ∨ 0xE000 ≤ n) (hlt : n < 0x10000) :
    readChar (escapeUnit n ++ rest) = some (Char.ofNat n, rest) := by
  simp only [escapeUnit, List.cons_append, readChar, readUnit_hex rest hlt, Option.bind_eq_bind,
    Option.bind_some, Option.pure_def]
  rw [if_pos h]

theorem readChar_surrogates {high low : ℕ} (hhigh : high < 0x400) (hlow : low < 0x400) :
    readChar (escapeUnit (0xD800 + high) ++ (escapeUnit (0xDC00 + low) ++ rest)) =
      some (Char.ofNat (0x10000 + high * 0x400 + low), rest) := by
  have hfirst : ¬ (0xD800 + high < 0xD800 ∨ 0xE000 ≤ 0xD800 + high) := by omega
  have hsecond : 0xDC00 ≤ 0xDC00 + low ∧ 0xDC00 + low < 0xE000 := by omega
  simp only [escapeUnit, List.cons_append, readChar, Option.bind_eq_bind, Option.pure_def]
  rw [readUnit_hex _ (by omega), Option.bind_some]
  dsimp only
  rw [if_neg hfirst, if_pos (by omega), readLow, readUnit_hex _ (by omega)]
  simp only [Option.bind_eq_bind, Option.bind_some, Option.pure_def]
  rw [if_pos hsecond]
  simp only [Nat.add_sub_cancel_left]

theorem toNat_bounds (c : Char) : (c.toNat < 0xD800 ∨ 0xE000 ≤ c.toNat) ∧ c.toNat < 0x110000 := by
  have hvalid := c.valid
  have hn : c.toNat = c.val.toNat := rfl
  rcases hvalid with hlow | ⟨hlow, hhigh⟩
  · omega
  · omega

theorem readChar_of_plain (hquote : c ≠ '\\') (hcontrol : 0x20 ≤ c.toNat) :
    readChar (c :: rest) = some (c, rest) := by
  rw [readChar.eq_def]
  split
  · cases ‹_ = _›
  · simp_all
  · simp_all
  · rename_i c' cs' _ _ heq
    cases heq
    rw [if_neg]
    simp only [not_or, not_lt]
    exact ⟨hquote, hcontrol⟩

theorem readChar_escape (c : Char) (rest : List Char) :
    readChar (escape c ++ rest) = some (c, rest) := by
  obtain ⟨hscalar, hmax⟩ := toNat_bounds c
  have hc : Char.ofNat c.toNat = c := Char.ofNat_toNat c
  unfold escape
  dsimp only
  split_ifs with hquote hback hn hr ht hf hb hplain hbmp
  · rw [hquote]
    rfl
  · rw [hback]
    rfl
  · rw [← hc, hn]
    rfl
  · rw [← hc, hr]
    rfl
  · rw [← hc, ht]
    rfl
  · rw [← hc, hf]
    rfl
  · rw [← hc, hb]
    rfl
  · exact readChar_of_plain rest hback hplain.1
  · rw [readChar_escapeUnit rest hscalar hbmp, hc]
  · rw [List.append_assoc, readChar_surrogates rest (by omega) (by omega)]
    have hsum : 0x10000 + (c.toNat - 0x10000) / 0x400 * 0x400 + (c.toNat - 0x10000) % 0x400 =
        c.toNat := by omega
    rw [hsum, hc]

theorem readString_flatMap {enc : Char → List Char}
    (henc : ∀ c rest, readChar (enc c ++ rest) = some (c, rest))
    (hquote : ∀ c, (enc c).head? ≠ some '"') (s : List Char) {fuel : ℕ} (hfuel : s.length < fuel) :
    readString fuel (s.flatMap enc ++ '"' :: rest) = some (s, rest) := by
  induction s generalizing fuel with
  | nil =>
    cases fuel with
    | zero => cases hfuel
    | succ fuel => rfl
  | cons c s ih =>
    cases fuel with
    | zero => cases hfuel
    | succ fuel =>
      have hrest := ih (Nat.lt_of_succ_lt_succ hfuel)
      have hread := henc c (s.flatMap enc ++ '"' :: rest)
      rw [List.flatMap_cons, List.append_assoc]
      cases hcode : enc c with
      | nil =>
        have hempty := henc c []
        rw [hcode] at hempty
        cases hempty
      | cons d ds =>
        have hd : d ≠ '"' := by
          rintro rfl
          exact hquote c (by rw [hcode]; rfl)
        rw [hcode] at hread
        rw [List.cons_append] at hread ⊢
        rw [readString]
        · simp only [hread, hrest, Option.bind_eq_bind, Option.bind_some, Option.pure_def]
        · rintro cs heq
          exact hd (List.head_eq_of_cons_eq heq)

theorem head?_escape (c : Char) : (escape c).head? ≠ some '"' := by
  unfold escape
  dsimp only
  split_ifs <;> simp_all [escapeUnit]

end

/-- The characters of numbers and names. -/
def isTokenChar (c : Char) : Bool := c.isAlphanum || c = '+' || c = '-' || c = '.'

def readInt (token : List Char) : Option ℤ :=
  match token with
  | '-' :: ds => if ds ≠ [] ∧ ds.all Char.isDigit then some (-Nat.ofDigitChars 10 ds 0) else none
  | ds => if ds ≠ [] ∧ ds.all Char.isDigit then some (Nat.ofDigitChars 10 ds 0) else none

def readToken (token : List Char) : Option Json :=
  if token = "null".toList then some .null
  else if token = "true".toList then some (.bool true)
  else if token = "false".toList then some (.bool false)
  else if token = "NaN".toList then some (.float "nan")
  else if token = "Infinity".toList then some (.float "inf")
  else if token = "-Infinity".toList then some (.float "-inf")
  else if token = [] then none
  else some ((readInt token).elim (.float (String.ofList token)) .int)

def readScalar (cs : List Char) : Option (Json × List Char) :=
  (readToken (cs.takeWhile isTokenChar)).map fun j => (j, cs.dropWhile isTokenChar)

/-- A text that is the `repr` of a float: one of the special names, or a number with a point or an
exponent in it. -/
def isFloatRepr (repr : String) : Bool :=
  nonFiniteReprs.contains repr ||
    (repr.toList.all (fun c => c.isDigit || c = '+' || c = '-' || c = '.' || c = 'e') &&
      repr.toList.any fun c => c = '.' || c = 'e')

/-- What is behind a value does not go on with its last token. -/
def Follows (rest : List Char) : Prop := ∀ c ∈ rest.head?, isTokenChar c = false

section

variable {token rest : List Char} {j : Json}

theorem readScalar_append (htoken : ∀ c ∈ token, isTokenChar c = true) (hrest : Follows rest) :
    readScalar (token ++ rest) = (readToken token).map fun j => (j, rest) := by
  have hstop : rest.takeWhile isTokenChar = [] ∧ rest.dropWhile isTokenChar = rest := by
    cases rest with
    | nil => exact ⟨rfl, rfl⟩
    | cons c cs =>
      have hc := hrest c rfl
      exact ⟨List.takeWhile_cons_of_neg (by simp [hc]), List.dropWhile_cons_of_neg (by simp [hc])⟩
  rw [readScalar, List.takeWhile_append_of_pos htoken, List.dropWhile_append_of_pos htoken,
    hstop.1, hstop.2, List.append_nil]

theorem toList_toString_int (n : ℤ) :
    (toString n).toList =
      if n < 0 then '-' :: Nat.toDigits 10 n.natAbs else Nat.toDigits 10 n.natAbs := by
  cases n with
  | ofNat m =>
    rw [if_neg (by simp)]
    simp [Int.toString_eq_repr, Int.repr]
  | negSucc m =>
    rw [if_pos (by omega)]
    simp [Int.toString_eq_repr, Int.repr]

theorem isDigit_of_mem_toDigits {n : ℕ} {c : Char} (h : c ∈ Nat.toDigits 10 n) :
    c.isDigit = true := Nat.isDigit_of_mem_toDigits (by decide) (by decide) h

theorem readInt_toString (n : ℤ) : readInt (toString n).toList = some n := by
  have hdigits : ∀ m : ℕ, Nat.toDigits 10 m ≠ [] ∧ (Nat.toDigits 10 m).all Char.isDigit = true :=
    fun m => ⟨Nat.toDigits_ne_nil, List.all_eq_true.mpr fun _ => isDigit_of_mem_toDigits⟩
  rw [toList_toString_int]
  split_ifs with hn
  · simp only [readInt, hdigits, ne_eq, not_false_eq_true, and_self, if_true,
      Nat.ofDigitChars_ten_toDigits, Option.some.injEq]
    omega
  · rw [readInt]
    · simp only [hdigits, ne_eq, not_false_eq_true, and_self, if_true,
        Nat.ofDigitChars_ten_toDigits, Option.some.injEq]
      omega
    · rintro ds heq
      have hminus : ('-' : Char) ∈ Nat.toDigits 10 n.natAbs := by
        rw [heq]
        exact List.mem_cons_self
      have hdigit := isDigit_of_mem_toDigits hminus
      revert hdigit
      decide

theorem readToken_of_readInt {n : ℤ} (h : readInt token = some n) :
    readToken token = some (.int n) := by
  have hne : ∀ name : List Char, readInt name = none → token ≠ name := by
    rintro name hname rfl
    cases h.symm.trans hname
  rw [readToken, if_neg (hne _ (by decide)), if_neg (hne _ (by decide)),
    if_neg (hne _ (by decide)), if_neg (hne _ (by decide)), if_neg (hne _ (by decide)),
    if_neg (hne _ (by decide)), if_neg (hne _ (by decide)), h]
  rfl

theorem isTokenChar_of_isDigit {c : Char} (h : c.isDigit = true) : isTokenChar c = true := by
  simp [isTokenChar, Char.isAlphanum, h]

theorem isTokenChar_toString_int (n : ℤ) : ∀ c ∈ (toString n).toList, isTokenChar c = true := by
  intro c hc
  rw [toList_toString_int] at hc
  split_ifs at hc
  · rcases List.mem_cons.mp hc with rfl | hdigit
    · decide
    · exact isTokenChar_of_isDigit (isDigit_of_mem_toDigits hdigit)
  · exact isTokenChar_of_isDigit (isDigit_of_mem_toDigits hc)

theorem isDigit_of_readInt {n : ℤ} (h : readInt token = some n) :
    ∀ c ∈ token, c.isDigit = true ∨ c = '-' := by
  intro c hc
  unfold readInt at h
  split at h
  · rename_i ds
    split_ifs at h with hds
    rcases List.mem_cons.mp hc with rfl | hmem
    · exact Or.inr rfl
    · exact Or.inl (List.all_eq_true.mp hds.2 c hmem)
  · split_ifs at h with hds
    exact Or.inl (List.all_eq_true.mp hds.2 c hc)

theorem readToken_dumpFloat {repr : String} (h : isFloatRepr repr = true) :
    readToken (dumpFloat repr).toList = some (.float repr) ∧
      ∀ c ∈ (dumpFloat repr).toList, isTokenChar c = true := by
  by_cases hspecial : nonFiniteReprs.contains repr = true
  · have hcases : repr = "nan" ∨ repr = "inf" ∨ repr = "-inf" := by
      simpa [nonFiniteReprs] using hspecial
    rcases hcases with rfl | rfl | rfl
    · exact ⟨rfl, List.all_eq_true.mp (by decide)⟩
    · exact ⟨rfl, List.all_eq_true.mp (by decide)⟩
    · exact ⟨rfl, List.all_eq_true.mp (by decide)⟩
  · rw [isFloatRepr, Bool.or_eq_true, Bool.and_eq_true] at h
    obtain ⟨hall, hany⟩ := h.resolve_left hspecial
    have hplain : dumpFloat repr = repr := by
      simp only [nonFiniteReprs, List.contains_cons, List.contains_nil, Bool.or_false,
        Bool.or_eq_true, beq_iff_eq, not_or] at hspecial
      rw [dumpFloat, if_neg hspecial.1, if_neg hspecial.2.1, if_neg hspecial.2.2]
    have hne : ∀ name : List Char, name.all (fun c => c.isDigit || c = '+' || c = '-' ||
        c = '.' || c = 'e') = false → repr.toList ≠ name := by
      rintro name hname rfl
      cases hall.symm.trans hname
    have hnil : repr.toList ≠ [] := by
      intro hnil
      rw [hnil] at hany
      cases hany
    have hint : readInt repr.toList = none := by
      rw [Option.eq_none_iff_forall_ne_some]
      intro n hn
      obtain ⟨c, hc, hpoint⟩ := List.any_eq_true.mp hany
      have hdigit := isDigit_of_readInt hn c hc
      simp only [Bool.or_eq_true, decide_eq_true_eq] at hpoint
      rcases hpoint with rfl | rfl <;> revert hdigit <;> decide
    rw [hplain]
    constructor
    · rw [readToken, if_neg (hne _ (by decide)), if_neg (hne _ (by decide)),
        if_neg (hne _ (by decide)), if_neg (hne _ (by decide)), if_neg (hne _ (by decide)),
        if_neg (hne _ (by decide)), if_neg hnil, hint, Option.elim_none, String.ofList_toList]
    · intro c hc
      have hcases := List.all_eq_true.mp hall c hc
      simp only [Bool.or_eq_true, decide_eq_true_eq] at hcases
      rcases hcases with (((hdigit | rfl) | rfl) | rfl) | rfl
      · exact isTokenChar_of_isDigit hdigit
      all_goals decide

end

def isJsonSpace (c : Char) : Bool := c = ' ' || c = '\n' || c = '\r' || c = '\t'

def skipSpace (cs : List Char) : List Char := cs.dropWhile isJsonSpace

mutual

/-- A value at the front of a text, and what is behind it. -/
def readValue : ℕ → List Char → Option (Json × List Char)
  | 0, _ => none
  | fuel + 1, cs =>
    match skipSpace cs with
    | '"' :: cs => (readString (cs.length + 1) cs).map fun (s, cs) => (.str (String.ofList s), cs)
    | '[' :: cs =>
      match skipSpace cs with
      | ']' :: cs => some (.arr [], cs)
      | cs => (readItems fuel cs).map fun (xs, cs) => (.arr xs, cs)
    | '\x7b' :: cs =>
      match skipSpace cs with
      | '\x7d' :: cs => some (.obj [], cs)
      | cs => (readMembers fuel cs).map fun (kvs, cs) => (.obj kvs, cs)
    | cs => readScalar cs

def readItems : ℕ → List Char → Option (List Json × List Char)
  | 0, _ => none
  | fuel + 1, cs => do
    let (x, cs) ← readValue fuel cs
    match skipSpace cs with
    | ',' :: cs =>
      let (xs, cs) ← readItems fuel cs
      return (x :: xs, cs)
    | ']' :: cs => return ([x], cs)
    | _ => none

def readMembers : ℕ → List Char → Option (List (String × Json) × List Char)
  | 0, _ => none
  | fuel + 1, cs =>
    match skipSpace cs with
    | '"' :: cs => do
      let (k, cs) ← readString (cs.length + 1) cs
      match skipSpace cs with
      | ':' :: cs =>
        let (v, cs) ← readValue fuel cs
        match skipSpace cs with
        | ',' :: cs =>
          let (kvs, cs) ← readMembers fuel cs
          return ((String.ofList k, v) :: kvs, cs)
        | '\x7d' :: cs => return ([(String.ofList k, v)], cs)
        | _ => none
      | _ => none
    | _ => none

end

/-- The value that a text is, with nothing else around it. -/
def readJson (text : List Char) : Option Json := do
  let (j, rest) ← readValue (text.length + 1) text
  if skipSpace rest = [] then return j else none

/-- The text is read as this value, wherever it stands. -/
def Reads (text : List Char) (j : Json) : Prop :=
  ∀ fuel rest, text.length < fuel → Follows rest → readValue fuel (text ++ rest) = some (j, rest)

def joinWith (gap : List Char) (texts : List (List Char)) : List Char :=
  (texts.intersperse (',' :: gap)).flatten

def quoted (enc : Char → List Char) (s : String) : List Char :=
  '"' :: s.toList.flatMap enc ++ ['"']

def memberText (enc : Char → List Char) (gap : List Char) (m : String × List Char) : List Char :=
  quoted enc m.1 ++ ':' :: gap ++ m.2

section

variable {gap cs rest text : List Char} {j : Json} {enc : Char → List Char}

theorem skipSpace_append (hgap : ∀ c ∈ gap, isJsonSpace c = true) :
    skipSpace (gap ++ cs) = skipSpace cs := List.dropWhile_append_of_pos hgap

theorem skipSpace_cons {c : Char} (h : isJsonSpace c = false) : skipSpace (c :: cs) = c :: cs :=
  List.dropWhile_cons_of_neg (by simp [h])

theorem readValue_append (hgap : ∀ c ∈ gap, isJsonSpace c = true) (fuel : ℕ) :
    readValue fuel (gap ++ cs) = readValue fuel cs := by
  cases fuel with
  | zero => rfl
  | succ fuel => simp only [readValue, skipSpace_append hgap]

theorem readItems_append (hgap : ∀ c ∈ gap, isJsonSpace c = true) (fuel : ℕ) :
    readItems fuel (gap ++ cs) = readItems fuel cs := by
  cases fuel with
  | zero => rfl
  | succ fuel => simp only [readItems, readValue_append hgap]

theorem readMembers_append (hgap : ∀ c ∈ gap, isJsonSpace c = true) (fuel : ℕ) :
    readMembers fuel (gap ++ cs) = readMembers fuel cs := by
  cases fuel with
  | zero => rfl
  | succ fuel => simp only [readMembers, skipSpace_append hgap]

theorem follows_cons {c : Char} (h : isTokenChar c = false) : Follows (c :: rest) := by
  intro d hd
  cases hd
  exact h

theorem reads_token {token : List Char} (htoken : ∀ c ∈ token, isTokenChar c = true)
    (h : readToken token = some j) : Reads token j := by
  intro fuel rest hfuel hrest
  have hscalar : readScalar (token ++ rest) = some (j, rest) := by
    rw [readScalar_append htoken hrest, h]
    rfl
  cases token with
  | nil => cases h
  | cons c token =>
    cases fuel with
    | zero => cases hfuel
    | succ fuel =>
      have hc := htoken c List.mem_cons_self
      have hspace : isJsonSpace c = false := by
        by_contra h
        simp only [isJsonSpace, Bool.not_eq_false, Bool.or_eq_true, decide_eq_true_eq] at h
        rcases h with ((rfl | rfl) | rfl) | rfl <;> revert hc <;> decide
      rw [List.cons_append] at hscalar ⊢
      rw [readValue.eq_def]
      dsimp only
      rw [skipSpace_cons hspace]
      split
      · rename_i heq
        cases List.head_eq_of_cons_eq heq
        exact absurd hc (by decide)
      · rename_i heq
        cases List.head_eq_of_cons_eq heq
        exact absurd hc (by decide)
      · rename_i heq
        cases List.head_eq_of_cons_eq heq
        exact absurd hc (by decide)
      · exact hscalar

theorem readString_quoted (henc : ∀ c rest, readChar (enc c ++ rest) = some (c, rest))
    (hquote : ∀ c, (enc c).head? ≠ some '"') (s : String) (rest : List Char) :
    readString ((s.toList.flatMap enc ++ '"' :: rest).length + 1)
      (s.toList.flatMap enc ++ '"' :: rest) = some (s.toList, rest) := by
  apply readString_flatMap rest henc hquote
  have hcode : ∀ c, 1 ≤ (enc c).length := by
    intro c
    cases hc : enc c with
    | nil =>
      have hempty := henc c []
      rw [hc] at hempty
      cases hempty
    | cons d ds => simp
  have hlength : ∀ cs : List Char, cs.length ≤ (cs.flatMap enc).length := by
    intro cs
    induction cs with
    | nil => exact Nat.le_refl _
    | cons c cs ih =>
      have hc := hcode c
      rw [List.flatMap_cons, List.length_append, List.length_cons]
      omega
  have hs := hlength s.toList
  rw [List.length_append]
  omega

theorem reads_quoted (henc : ∀ c rest, readChar (enc c ++ rest) = some (c, rest))
    (hquote : ∀ c, (enc c).head? ≠ some '"') (s : String) : Reads (quoted enc s) (.str s) := by
  intro fuel rest hfuel _
  cases fuel with
  | zero => cases hfuel
  | succ fuel =>
    have htext : quoted enc s ++ rest = '"' :: (s.toList.flatMap enc ++ '"' :: rest) := by
      simp [quoted]
    have hread : readValue (fuel + 1) ('"' :: (s.toList.flatMap enc ++ '"' :: rest)) =
        (readString ((s.toList.flatMap enc ++ '"' :: rest).length + 1)
          (s.toList.flatMap enc ++ '"' :: rest)).map fun (s, cs) =>
            (.str (String.ofList s), cs) := rfl
    rw [htext, hread, readString_quoted henc hquote]
    simp only [Option.map_some, String.ofList_toList]

theorem joinWith_cons (text : List Char) {texts : List (List Char)} (h : texts ≠ []) :
    joinWith gap (text :: texts) = text ++ ',' :: gap ++ joinWith gap texts := by
  cases texts with
  | nil => exact absurd rfl h
  | cons t ts => simp [joinWith]

theorem readItems_joinWith (hgap : ∀ c ∈ gap, isJsonSpace c = true)
    {items : List (List Char × Json)} (hne : items ≠ []) (hreads : ∀ m ∈ items, Reads m.1 m.2)
    {fuel : ℕ} (hfuel : (joinWith gap (items.map Prod.fst)).length + 1 < fuel)
    (rest : List Char) : readItems fuel (joinWith gap (items.map Prod.fst) ++ ']' :: rest) =
      some (items.map Prod.snd, rest) := by
  induction items generalizing fuel with
  | nil => exact absurd rfl hne
  | cons m items ih =>
    obtain ⟨hm, hitems⟩ := List.forall_mem_cons.mp hreads
    cases fuel with
    | zero => cases hfuel
    | succ fuel =>
      by_cases hlast : items = []
      · subst hlast
        have htext : joinWith gap ([m].map Prod.fst) = m.1 := by simp [joinWith]
        rw [htext] at hfuel ⊢
        rw [readItems, hm fuel (']' :: rest) (by omega) (follows_cons (by decide))]
        simp [skipSpace_cons (show isJsonSpace ']' = false by decide)]
      · have hmap : items.map Prod.fst ≠ [] := by simpa using hlast
        rw [List.map_cons, joinWith_cons _ hmap] at hfuel ⊢
        simp only [List.length_append, List.length_cons] at hfuel
        rw [List.append_assoc, List.append_assoc, List.cons_append, readItems,
          hm fuel _ (by omega) (follows_cons (by decide))]
        simp only [Option.bind_eq_bind, Option.bind_some,
          skipSpace_cons (show isJsonSpace ',' = false by decide), readItems_append hgap,
          ih hlast hitems (show _ < fuel by omega)]
        rfl

theorem skipSpace_ne_of_reads (h : Reads text j) (hrest : Follows rest) (tail : List Char) :
    skipSpace (text ++ rest) ≠ ']' :: tail := by
  intro heq
  have hread := h (text.length + 1) rest (Nat.lt_succ_self _) hrest
  rw [readValue, heq] at hread
  have hnone : readScalar (']' :: tail) = none := by
    have htake : (']' :: tail).takeWhile isTokenChar = [] :=
      List.takeWhile_cons_of_neg (by decide)
    rw [readScalar, htake]
    rfl
  have hscalar : readScalar (']' :: tail) = some (j, rest) := hread
  cases hnone.symm.trans hscalar

theorem readItems_skipSpace (fuel : ℕ) (cs : List Char) :
    readItems fuel (skipSpace cs) = readItems fuel cs := by
  have hsplit : cs = cs.takeWhile isJsonSpace ++ skipSpace cs :=
    List.takeWhile_append_dropWhile.symm
  conv_rhs => rw [hsplit]
  exact (readItems_append (fun c hc => List.mem_takeWhile_imp hc) fuel).symm

theorem reads_arr (hgap : ∀ c ∈ gap, isJsonSpace c = true) {items : List (List Char × Json)}
    (hreads : ∀ m ∈ items, Reads m.1 m.2) :
    Reads ('[' :: joinWith gap (items.map Prod.fst) ++ [']']) (.arr (items.map Prod.snd)) := by
  intro fuel rest hfuel _
  cases fuel with
  | zero => cases hfuel
  | succ fuel =>
    simp only [List.cons_append, List.length_cons, List.length_append, List.length_nil,
      List.append_assoc, List.nil_append] at hfuel ⊢
    rw [readValue, skipSpace_cons (by decide)]
    cases items with
    | nil => rfl
    | cons m items =>
      have hitems := readItems_joinWith hgap (List.cons_ne_nil m items) hreads
        (show _ < fuel by omega) rest
      have hopen : ∀ tail, skipSpace
          (joinWith gap ((m :: items).map Prod.fst) ++ ']' :: rest) ≠ ']' :: tail := by
        have hm := hreads m List.mem_cons_self
        by_cases hlast : items.map Prod.fst = []
        · have hone : joinWith gap ((m :: items).map Prod.fst) = m.1 := by
            simp [joinWith, hlast]
          rw [hone]
          exact skipSpace_ne_of_reads hm (follows_cons (by decide))
        · rw [List.map_cons, joinWith_cons _ hlast, List.append_assoc, List.append_assoc]
          exact skipSpace_ne_of_reads hm (follows_cons (by decide))
      change (match skipSpace (joinWith gap ((m :: items).map Prod.fst) ++ ']' :: rest) with
        | ']' :: cs => some (Json.arr [], cs)
        | cs => (readItems fuel cs).map fun (xs, cs) => (Json.arr xs, cs)) = _
      split
      · rename_i heq
        exact absurd heq (hopen _)
      · rw [readItems_skipSpace, hitems]
        rfl

theorem memberText_append (k : String) (text rest : List Char) :
    memberText enc gap (k, text) ++ rest =
      '"' :: (k.toList.flatMap enc ++ '"' :: ':' :: (gap ++ (text ++ rest))) := by
  simp [memberText, quoted]

/-- The first member is read, and what is behind it decides whether there are more. -/
theorem readMembers_memberText (henc : ∀ c rest, readChar (enc c ++ rest) = some (c, rest))
    (hquote : ∀ c, (enc c).head? ≠ some '"') (hgap : ∀ c ∈ gap, isJsonSpace c = true)
    (hreads : Reads text j) {fuel : ℕ} (hfuel : text.length < fuel) (k : String) :
    readMembers (fuel + 1) (memberText enc gap (k, text) ++ '\x7d' :: rest) =
        some ([(k, j)], rest) ∧
      readMembers (fuel + 1) (memberText enc gap (k, text) ++ ',' :: rest) =
        (readMembers fuel rest).map fun p => ((k, j) :: p.1, p.2) := by
  have hvalue : ∀ c : Char, isTokenChar c = false → ∀ rest,
      readValue fuel (gap ++ (text ++ c :: rest)) = some (j, c :: rest) := by
    intro c hc rest
    rw [readValue_append hgap, hreads fuel _ hfuel (follows_cons hc)]
  constructor
  · rw [memberText_append, readMembers, skipSpace_cons (by decide)]
    simp only [readString_quoted henc hquote, Option.bind_eq_bind, Option.bind_some,
      skipSpace_cons (show isJsonSpace ':' = false by decide), hvalue '\x7d' (by decide),
      skipSpace_cons (show isJsonSpace '\x7d' = false by decide), Option.pure_def,
      String.ofList_toList]
  · rw [memberText_append, readMembers, skipSpace_cons (by decide)]
    simp only [readString_quoted henc hquote, Option.bind_eq_bind, Option.bind_some,
      skipSpace_cons (show isJsonSpace ':' = false by decide), hvalue ',' (by decide),
      skipSpace_cons (show isJsonSpace ',' = false by decide), Option.pure_def,
      String.ofList_toList]
    cases readMembers fuel rest <;> rfl

theorem readMembers_joinWith (henc : ∀ c rest, readChar (enc c ++ rest) = some (c, rest))
    (hquote : ∀ c, (enc c).head? ≠ some '"') (hgap : ∀ c ∈ gap, isJsonSpace c = true)
    {members : List (String × List Char × Json)} (hne : members ≠ [])
    (hreads : ∀ m ∈ members, Reads m.2.1 m.2.2) {fuel : ℕ}
    (hfuel : (joinWith gap
      (members.map fun m => memberText enc gap (m.1, m.2.1))).length + 1 < fuel)
    (rest : List Char) : readMembers fuel
      (joinWith gap (members.map fun m => memberText enc gap (m.1, m.2.1)) ++ '\x7d' :: rest) =
        some (members.map fun m => (m.1, m.2.2), rest) := by
  induction members generalizing fuel with
  | nil => exact absurd rfl hne
  | cons m members ih =>
    obtain ⟨k, text, j⟩ := m
    obtain ⟨hfirst, hmembers⟩ := List.forall_mem_cons.mp hreads
    have hm : Reads text j := hfirst
    have hlonger : text.length < (memberText enc gap (k, text)).length := by
      simp only [memberText, List.length_append, List.length_cons]
      omega
    cases fuel with
    | zero => cases hfuel
    | succ fuel =>
      by_cases hlast : members = []
      · subst hlast
        have htext : joinWith gap ([(k, text, j)].map fun m : String × List Char × Json =>
            memberText enc gap (m.1, m.2.1)) = memberText enc gap (k, text) := by simp [joinWith]
        rw [htext] at hfuel ⊢
        exact (readMembers_memberText henc hquote hgap hm (by omega) k).1
      · rw [List.map_cons, joinWith_cons _ (by simpa using hlast)] at hfuel ⊢
        simp only [List.length_append, List.length_cons] at hfuel
        rw [List.append_assoc, List.append_assoc, List.cons_append,
          (readMembers_memberText henc hquote hgap hm (by omega) k).2, readMembers_append hgap,
          ih hlast hmembers (by omega)]
        rfl

theorem reads_obj (henc : ∀ c rest, readChar (enc c ++ rest) = some (c, rest))
    (hquote : ∀ c, (enc c).head? ≠ some '"') (hgap : ∀ c ∈ gap, isJsonSpace c = true)
    {members : List (String × List Char × Json)} (hreads : ∀ m ∈ members, Reads m.2.1 m.2.2) :
    Reads ('\x7b' :: joinWith gap (members.map fun m => memberText enc gap (m.1, m.2.1)) ++
      ['\x7d']) (.obj (members.map fun m => (m.1, m.2.2))) := by
  intro fuel rest hfuel _
  cases fuel with
  | zero => cases hfuel
  | succ fuel =>
    simp only [List.cons_append, List.length_cons, List.length_append, List.length_nil,
      List.append_assoc, List.nil_append] at hfuel ⊢
    rw [readValue, skipSpace_cons (by decide)]
    cases members with
    | nil => rfl
    | cons m members =>
      have hmembers := readMembers_joinWith henc hquote hgap (List.cons_ne_nil m members) hreads
        (show _ < fuel by omega) rest
      obtain ⟨tail, htail⟩ : ∃ tail, joinWith gap ((m :: members).map fun m =>
          memberText enc gap (m.1, m.2.1)) ++ '\x7d' :: rest = '"' :: tail := by
        by_cases hlast : members = []
        · subst hlast
          exact ⟨_, by simp [joinWith, memberText, quoted]; rfl⟩
        · rw [List.map_cons, joinWith_cons _ (by simpa using hlast), List.append_assoc,
            List.append_assoc, memberText_append]
          exact ⟨_, rfl⟩
      rw [htail] at hmembers ⊢
      have hread : (match skipSpace ('"' :: tail) with
        | '\x7d' :: cs => some (Json.obj [], cs)
        | cs => (readMembers fuel cs).map fun (kvs, cs) => (Json.obj kvs, cs)) =
          (readMembers fuel ('"' :: tail)).map fun (kvs, cs) => (Json.obj kvs, cs) := rfl
      refine hread.trans ?_
      rw [hmembers]
      rfl

end

mutual

/-- The value with the members of every object in the order of their keys. -/
def Json.sorted : Json → Json
  | .arr xs => .arr (sortedItems xs)
  | .obj kvs => .obj ((sortedMembers kvs).insertionSort fun m m' => m.1 ≤ m'.1)
  | j => j

def sortedItems : List Json → List Json
  | [] => []
  | x :: xs => x.sorted :: sortedItems xs

def sortedMembers : List (String × Json) → List (String × Json)
  | [] => []
  | (k, v) :: kvs => (k, v.sorted) :: sortedMembers kvs

end

mutual

/-- Every float is known by a text that is a `repr`. -/
def Json.wellFormed : Json → Bool
  | .float repr => isFloatRepr repr
  | .arr xs => wellFormedItems xs
  | .obj kvs => wellFormedMembers kvs
  | _ => true

def wellFormedItems : List Json → Bool
  | [] => true
  | x :: xs => x.wellFormed && wellFormedItems xs

def wellFormedMembers : List (String × Json) → Bool
  | [] => true
  | (_, v) :: kvs => v.wellFormed && wellFormedMembers kvs

end

theorem sortedItems_eq (xs : List Json) : sortedItems xs = xs.map Json.sorted := by
  induction xs with
  | nil => rfl
  | cons x xs ih => rw [sortedItems, ih, List.map_cons]

theorem sortedMembers_eq (kvs : List (String × Json)) :
    sortedMembers kvs = kvs.map fun m => (m.1, m.2.sorted) := by
  induction kvs with
  | nil => rfl
  | cons m kvs ih => rw [sortedMembers, ih, List.map_cons]

theorem insertionSort_sortedMembers (kvs : List (String × Json)) :
    (sortedMembers kvs).insertionSort (fun m m' => m.1 ≤ m'.1) =
      (kvs.insertionSort fun m m' => m.1 ≤ m'.1).map fun m => (m.1, m.2.sorted) := by
  rw [sortedMembers_eq]
  exact (List.map_insertionSort (r := fun m m' : String × Json => m.1 ≤ m'.1)
    (s := fun m m' : String × Json => m.1 ≤ m'.1) (fun m => (m.1, m.2.sorted)) kvs
    fun _ _ _ _ => Iff.rfl).symm

theorem wellFormedItems_iff {xs : List Json} :
    wellFormedItems xs = true ↔ ∀ x ∈ xs, x.wellFormed = true := by
  induction xs with
  | nil => exact iff_of_true rfl nofun
  | cons x xs ih => rw [wellFormedItems, Bool.and_eq_true, ih, List.forall_mem_cons]

theorem wellFormedMembers_iff {kvs : List (String × Json)} :
    wellFormedMembers kvs = true ↔ ∀ m ∈ kvs, m.2.wellFormed = true := by
  induction kvs with
  | nil => exact iff_of_true rfl nofun
  | cons m kvs ih => rw [wellFormedMembers, Bool.and_eq_true, ih, List.forall_mem_cons]

theorem dumps_obj (kvs : List (String × Json)) :
    dumps (.obj kvs) = '\x7b' :: joinWith [' ']
      ((kvs.insertionSort fun m m' => m.1 ≤ m'.1).map fun m =>
        memberText escape [' '] (m.1, dumps m.2)) ++ ['\x7d'] := by
  have hsort : (dumpMembers kvs).insertionSort (fun m m' => m.1 ≤ m'.1) =
      (kvs.insertionSort fun m m' => m.1 ≤ m'.1).map fun m => (m.1, dumps m.2) := by
    rw [dumpMembers_eq]
    exact (List.map_insertionSort (r := fun m m' : String × Json => m.1 ≤ m'.1)
      (s := fun m m' : String × List Char => m.1 ≤ m'.1) _ _ fun _ _ _ _ => Iff.rfl).symm
  have htext : ∀ m : String × Json,
      dumpMember (m.1, dumps m.2) = memberText escape [' '] (m.1, dumps m.2) := by
    intro m
    simp [dumpMember, dumpString, memberText, quoted]
  rw [dumps, hsort, List.map_map]
  simp only [Function.comp_def, htext]
  rfl

theorem isJsonSpace_of_mem_gap : ∀ c ∈ [' '], isJsonSpace c = true :=
  List.all_eq_true.mp (by decide)

/-- The text of a value is read back as the value with its members in order. -/
theorem reads_dumps (j : Json) : j.wellFormed = true → Reads (dumps j) j.sorted := by
  induction j using Json.induction with
  | null => exact fun _ => reads_token (List.all_eq_true.mp (by decide)) rfl
  | bool b =>
    intro _
    cases b
    · exact reads_token (List.all_eq_true.mp (by decide)) rfl
    · exact reads_token (List.all_eq_true.mp (by decide)) rfl
  | int n =>
    exact fun _ => reads_token (isTokenChar_toString_int n)
      (readToken_of_readInt (readInt_toString n))
  | float repr =>
    intro hwf
    obtain ⟨hread, htoken⟩ := readToken_dumpFloat hwf
    exact reads_token htoken hread
  | str s => exact fun _ => reads_quoted readChar_escape head?_escape s
  | arr xs ih =>
    intro hwf
    have hitems : ∀ m ∈ xs.map fun x => (dumps x, x.sorted), Reads m.1 m.2 := by
      intro m hm
      obtain ⟨x, hx, rfl⟩ := List.mem_map.mp hm
      exact ih x hx (wellFormedItems_iff.mp hwf x hx)
    have hread := reads_arr isJsonSpace_of_mem_gap hitems
    rw [List.map_map, List.map_map] at hread
    rw [dumps, dumpItems_eq, Json.sorted, sortedItems_eq]
    exact hread
  | obj kvs ih =>
    intro hwf
    have hmembers : ∀ m ∈ (kvs.insertionSort fun m m' => m.1 ≤ m'.1).map
        fun m => (m.1, dumps m.2, m.2.sorted), Reads m.2.1 m.2.2 := by
      intro m hm
      obtain ⟨m', hm', rfl⟩ := List.mem_map.mp hm
      have hmem := (List.mem_insertionSort _).mp hm'
      exact ih m' hmem (wellFormedMembers_iff.mp hwf m' hmem)
    have hread := reads_obj readChar_escape head?_escape isJsonSpace_of_mem_gap hmembers
    rw [List.map_map, List.map_map] at hread
    rw [dumps_obj, Json.sorted, insertionSort_sortedMembers]
    exact hread

/-- `json.dumps` loses nothing but the order of members. -/
theorem readJson_dumps {j : Json} (h : j.wellFormed = true) :
    readJson (dumps j) = some j.sorted := by
  have hread := reads_dumps j h ((dumps j).length + 1) [] (Nat.lt_succ_self _) nofun
  rw [List.append_nil] at hread
  rw [readJson, hread]
  rfl

theorem dumps_sorted (j : Json) : dumps j.sorted = dumps j := by
  induction j using Json.induction with
  | arr xs ih =>
    rw [Json.sorted, dumps, dumps, dumpItems_eq, dumpItems_eq, sortedItems_eq, List.map_map]
    congr 3
    exact List.map_congr_left ih
  | obj kvs ih =>
    have hsorted : ((sortedMembers kvs).insertionSort fun m m' => m.1 ≤ m'.1).Pairwise
        fun m m' => m.1 ≤ m'.1 := by
      have : Std.Total fun m m' : String × Json => m.1 ≤ m'.1 :=
        ⟨fun m m' => String.le_total m.1 m'.1⟩
      have : IsTrans (String × Json) fun m m' => m.1 ≤ m'.1 :=
        ⟨fun _ _ _ => String.le_trans⟩
      exact List.pairwise_insertionSort _ _
    rw [Json.sorted, dumps_obj, dumps_obj, hsorted.insertionSort_eq, insertionSort_sortedMembers,
      List.map_map]
    congr 3
    refine List.map_congr_left ?_
    intro m hm
    rw [Function.comp_apply, ih m ((List.mem_insertionSort _).mp hm)]
  | _ => rfl

/-- Two values have one text exactly when they differ in the order of members only. -/
theorem dumps_eq_iff {j j' : Json} (h : j.wellFormed = true) (h' : j'.wellFormed = true) :
    dumps j = dumps j' ↔ j.sorted = j'.sorted := by
  constructor
  · intro heq
    have hread := readJson_dumps h
    rw [heq, readJson_dumps h'] at hread
    exact (Option.some.inj hread).symm
  · intro heq
    rw [← dumps_sorted j, heq, dumps_sorted]

end Python
