import Mathlib.Data.Rat.Floor
import Mathlib.Tactic.Common

/-!
# The Python values that a request or a callback carries

Decoded JSON, the truth value and the text that Python gives it, `Decimal(str)`, `int`
and `datetime.strptime` with the one format used here. Texts are sequences of
Unicode scalar values and are scanned as lists of characters. A float is known
by its `repr`, which is also its `str`: nothing else about it is ever used.
-/

namespace Python

/-- The zeros of the blocks of ten decimal digits (category Nd, Unicode 15). -/
def decimalZeros : List ℕ :=
  [0x30, 0x660, 0x6F0, 0x7C0, 0x966, 0x9E6, 0xA66, 0xAE6, 0xB66, 0xBE6, 0xC66, 0xCE6, 0xD66,
   0xDE6, 0xE50, 0xED0, 0xF20, 0x1040, 0x1090, 0x17E0, 0x1810, 0x1946, 0x19D0, 0x1A80, 0x1A90,
   0x1B50, 0x1BB0, 0x1C40, 0x1C50, 0xA620, 0xA8D0, 0xA900, 0xA9D0, 0xA9F0, 0xAA50, 0xABF0,
   0xFF10, 0x104A0, 0x10D30, 0x11066, 0x110F0, 0x11136, 0x111D0, 0x112F0, 0x11450, 0x114D0,
   0x11650, 0x116C0, 0x11730, 0x118E0, 0x11950, 0x11C50, 0x11D50, 0x11DA0, 0x11F50, 0x16A60,
   0x16AC0, 0x16B50, 0x1D7CE, 0x1D7D8, 0x1D7E2, 0x1D7EC, 0x1D7F6, 0x1E140, 0x1E2F0, 0x1E4F0,
   0x1E950, 0x1FBF0]

/-- The value of a decimal digit, as `int` reads it; `\d` matches exactly these. -/
def digitValue (c : Char) : Option ℕ :=
  (decimalZeros.find? fun z => z ≤ c.toNat ∧ c.toNat < z + 10).map fun z => c.toNat - z

/-- `\d` in a `str` pattern. -/
def isDecimal (c : Char) : Bool := (digitValue c).isSome

def isSpace (c : Char) : Bool :=
  let n := c.toNat
  (0x9 ≤ n && n ≤ 0xD) || (0x1C ≤ n && n ≤ 0x20) || n == 0x85 || n == 0xA0 || n == 0x1680 ||
    (0x2000 ≤ n && n ≤ 0x200A) || n == 0x2028 || n == 0x2029 || n == 0x202F || n == 0x205F ||
    n == 0x3000

def strip (cs : List Char) : List Char :=
  ((cs.dropWhile isSpace).reverse.dropWhile isSpace).reverse

/-- What `json.loads` returns for a text in which no surrogate stands alone. The keys of an object
are distinct. -/
inductive Json where
  | null
  | bool (b : Bool)
  | int (n : ℤ)
  | float (repr : String)
  | str (s : String)
  | arr (xs : List Json)
  | obj (kvs : List (String × Json))

namespace Json

/-- Induction on the nesting of lists and objects. -/
theorem induction {P : Json → Prop} (null : P .null) (bool : ∀ b, P (.bool b))
    (int : ∀ n, P (.int n)) (float : ∀ repr, P (.float repr)) (str : ∀ s, P (.str s))
    (arr : ∀ xs, (∀ x ∈ xs, P x) → P (.arr xs))
    (obj : ∀ kvs : List (String × Json), (∀ m ∈ kvs, P m.2) → P (.obj kvs)) : ∀ j, P j
  | .null => null
  | .bool b => bool b
  | .int n => int n
  | .float repr => float repr
  | .str s => str s
  | .arr xs => arr xs fun x _ => induction null bool int float str arr obj x
  | .obj kvs => obj kvs fun m _ => induction null bool int float str arr obj m.2
termination_by j => sizeOf j
decreasing_by
  · rename_i hx
    have hlt := List.sizeOf_lt_of_mem hx
    simp only [Json.arr.sizeOf_spec]
    omega
  · rename_i hm
    have hlt := List.sizeOf_lt_of_mem hm
    have hsnd : sizeOf m.2 < sizeOf m := by
      cases m
      simp only [Prod.mk.sizeOf_spec]
      omega
    simp only [Json.obj.sizeOf_spec]
    omega

def truthy : Json → Bool
  | null => false
  | bool b => b
  | int n => n != 0
  | float r => r != "0.0" && r != "-0.0"
  | str s => s != ""
  | arr xs => !xs.isEmpty
  | obj kvs => !kvs.isEmpty

/-- `str(x)` of a scalar. The text of a list or an object begins with a bracket,
which neither `Decimal` nor `strptime` accepts, so it is not spelled out. -/
def pyStr? : Json → Option String
  | null => some "None"
  | bool b => some (if b then "True" else "False")
  | int n => some (toString n)
  | float r => some r
  | str s => some s
  | arr _ => none
  | obj _ => none

end Json

inductive Decimal where
  | finite (value : ℚ)
  | infinity
  | nan
  deriving DecidableEq

def takeDigits : List Char → List ℕ × List Char
  | [] => ([], [])
  | c :: cs =>
    match digitValue c with
    | none => ([], c :: cs)
    | some d => (d :: (takeDigits cs).1, (takeDigits cs).2)

def natOfDigits (ds : List ℕ) : ℕ := ds.foldl (fun n d => 10 * n + d) 0

def takeSign : List Char → Bool × List Char
  | '-' :: cs => (true, cs)
  | '+' :: cs => (false, cs)
  | cs => (false, cs)

def exponentPart : List Char → Option ℤ
  | [] => some 0
  | c :: cs =>
    if c = 'e' ∨ c = 'E' then
      let (neg, cs) := takeSign cs
      match takeDigits cs with
      | (d :: ds, []) => some (if neg then -natOfDigits (d :: ds) else natOfDigits (d :: ds))
      | _ => none
    else none

/-- A coefficient in digits and an exponent of ten. -/
structure Scientific where
  digits : List ℕ
  exponent : ℤ

/-- Digits with at most one point among them, then an exponent. -/
def scientific (cs : List Char) : Option Scientific :=
  let (whole, rest) := takeDigits cs
  let (frac, rest) :=
    match rest with
    | '.' :: rest => takeDigits rest
    | rest => ([], rest)
  if whole ++ frac = [] then none
  else (exponentPart rest).map fun e => ⟨whole ++ frac, e - (frac.length : ℤ)⟩

namespace Scientific

def value (x : Scientific) : ℚ := (natOfDigits x.digits : ℚ) * (10 : ℚ) ^ x.exponent

/-- The digits without leading zeros; a zero has one. -/
def precision (x : Scientific) : ℕ := max 1 (x.digits.dropWhile (· = 0)).length

/-- `MAX_PREC`, and `MAX_EMAX` as well. -/
def maxPrec : ℕ := 999999999999999999

/-- `MIN_ETINY`. -/
def minEtiny : ℤ := -1999999999999999997

/-- The number is a `Decimal` exactly, without being rounded or clamped. -/
def isExact (x : Scientific) : Bool :=
  x.precision ≤ maxPrec && minEtiny ≤ x.exponent && x.exponent + x.precision - 1 ≤ maxPrec

end Scientific

/-- An unsigned number of any size. -/
def unsignedNumber (cs : List Char) : Option ℚ := (scientific cs).map Scientific.value

/-- `nan` or `snan`, with an optional diagnostic payload. -/
def isNan (cs : List Char) : Bool :=
  let payload := (cs.dropPrefix? "snan".toList).or (cs.dropPrefix? "nan".toList)
  match payload with
  | some ds =>
    ds.all isDecimal && (ds.dropWhile (digitValue · = some 0)).length ≤ Scientific.maxPrec
  | none => false

/-- `Decimal(s)`; `none` where it raises `InvalidOperation`. Surrounding whitespace and all
underscores are ignored and the special names are read in any letter case. -/
def decimalOfString (s : String) : Option Decimal :=
  let (neg, cs) := takeSign ((strip s.toList).filter (· != '_'))
  let lower := cs.map Char.toLower
  if lower = "inf".toList ∨ lower = "infinity".toList then some .infinity
  else if isNan lower then some .nan
  else ((scientific cs).filter Scientific.isExact).map fun x =>
    .finite (if neg then -x.value else x.value)

example : decimalOfString " 1_500.25 " = some (.finite (1500 + 1 / 4)) := by decide +kernel

example : decimalOfString "1e-2000000000000000000" = none := by decide

/-- `int(s)` in base ten; `none` where it raises `ValueError`. Single underscores may stand between
digits, of which there are at most 4300. -/
def intOfString (s : String) : Option ℤ :=
  let (neg, cs) := takeSign (strip s.toList)
  let digits := cs.filterMap digitValue
  if (cs.splitOn '_').all (fun group => group ≠ [] && group.all isDecimal) &&
      digits.length ≤ 4300 then
    some (if neg then -natOfDigits digits else natOfDigits digits)
  else none

/-- `int(x)`; `none` where it raises. A float is truncated. -/
def Json.int? : Json → Option ℤ
  | null => none
  | bool b => some (if b then 1 else 0)
  | int n => some n
  | float repr =>
    let (neg, cs) := takeSign repr.toList
    (unsignedNumber cs).map fun v => if neg then -⌊v⌋ else ⌊v⌋
  | str s => intOfString s
  | arr _ => none
  | obj _ => none

example : (Json.str " 3_599\n").int? = some 3599 := by decide

/-- A calendar date and time, read as UTC. -/
structure Datetime where
  year : ℕ
  month : ℕ
  day : ℕ
  hour : ℕ
  minute : ℕ
  second : ℕ
  deriving DecidableEq, Repr

def isLeapYear (y : ℕ) : Bool := y % 4 = 0 && (y % 100 ≠ 0 || y % 400 = 0)

def daysInMonth (y m : ℕ) : ℕ :=
  if m = 2 then if isLeapYear y then 29 else 28
  else if m = 4 ∨ m = 6 ∨ m = 9 ∨ m = 11 then 30 else 31

/-- What the `datetime` constructor accepts. -/
def Datetime.valid (t : Datetime) : Bool :=
  1 ≤ t.year && t.year ≤ 9999 && 1 ≤ t.month && t.month ≤ 12 && 1 ≤ t.day &&
    t.day ≤ daysInMonth t.year t.month && t.hour ≤ 23 && t.minute ≤ 59 && t.second ≤ 59

/-- A character class of the `strptime` patterns, with the digit that it reads. -/
abbrev CharClass := Char → Option ℕ

def digitIn (lo hi : Char) : CharClass := fun c =>
  if lo ≤ c ∧ c ≤ hi then some (c.toNat - '0'.toNat) else none

def blank : CharClass := fun c => if c = ' ' then some 0 else none

/-- Match one alternative: every class in turn, reading off the number. -/
def matchClasses (n : ℕ) : List CharClass → List Char → Option (ℕ × List Char)
  | [], cs => some (n, cs)
  | _ :: _, [] => none
  | p :: ps, c :: cs => (p c).bind fun d => matchClasses (10 * n + d) ps cs

/-- The matches of a directive, in the order in which the pattern tries its alternatives. -/
def directive (alternatives : List (List CharClass)) (cs : List Char) : List (ℕ × List Char) :=
  alternatives.filterMap fun ps => matchClasses 0 ps cs

def directiveY := directive [[digitValue, digitValue, digitValue, digitValue]]

def directiveM := directive
  [[digitIn '1' '1', digitIn '0' '2'], [digitIn '0' '0', digitIn '1' '9'], [digitIn '1' '9']]

def directiveD := directive
  [[digitIn '3' '3', digitIn '0' '1'], [digitIn '1' '2', digitValue],
   [digitIn '0' '0', digitIn '1' '9'], [digitIn '1' '9'], [blank, digitIn '1' '9']]

def directiveHour := directive
  [[digitIn '2' '2', digitIn '0' '3'], [digitIn '0' '1', digitValue], [digitValue]]

def directiveMinute := directive [[digitIn '0' '5', digitValue], [digitValue]]

def directiveSecond := directive
  [[digitIn '6' '6', digitIn '0' '1'], [digitIn '0' '5', digitValue], [digitValue]]

/-- The first match of the pattern of `%Y%m%d%H%M%S` at the start of the text. -/
def matchYmdHMS (cs : List Char) : Option (Datetime × List Char) :=
  let found := (directiveY cs).flatMap fun (y, cs) => (directiveM cs).flatMap fun (m, cs) =>
    (directiveD cs).flatMap fun (d, cs) => (directiveHour cs).flatMap fun (h, cs) =>
      (directiveMinute cs).flatMap fun (mi, cs) => (directiveSecond cs).map fun (s, cs) =>
        (Datetime.mk y m d h mi s, cs)
  found.head?

/-- `datetime.strptime(s, "%Y%m%d%H%M%S")`; `none` where it raises `ValueError`: no match,
text left over after the first match, or a date that does not exist. -/
def strptimeYmdHMS (s : String) : Option Datetime :=
  match matchYmdHMS s.toList with
  | some (t, []) => if t.valid then some t else none
  | _ => none

example : strptimeYmdHMS "20260410133540" = some ⟨2026, 4, 10, 13, 35, 40⟩ := by decide

end Python
