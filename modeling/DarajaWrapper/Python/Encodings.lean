import DarajaWrapper.Python.Hashlib
import DarajaWrapper.Python.Values
import Mathlib.Data.List.Sort

/-!
# `base64` and `json.dumps`

Encodings into ASCII text. `json.dumps` is the one with `sort_keys` and the default
separators; every value of the object is in the text, so the text is at least as long.
-/

namespace Python

def utf8 (s : String) : List ℕ := s.toByteArray.data.toList.map UInt8.toNat

def base64Alphabet : List Char :=
  "ABCDEFGHIJKLMNOPQRSTUVWXYZabcdefghijklmnopqrstuvwxyz0123456789+/".toList

def base64Char (n : ℕ) : Char := base64Alphabet.getD n '='

/-- Three bytes in four characters; the last group is padded. -/
def b64encode : List ℕ → List Char
  | [] => []
  | [a] => [base64Char (a / 4), base64Char (a % 4 * 16), '=', '=']
  | [a, b] =>
    [base64Char (a / 4), base64Char (a % 4 * 16 + b / 16), base64Char (b % 16 * 4), '=']
  | a :: b :: c :: rest =>
    base64Char (a / 4) :: base64Char (a % 4 * 16 + b / 16) ::
      base64Char (b % 16 * 4 + c / 64) :: base64Char (c % 64) :: b64encode rest

example : String.ofList (b64encode (utf8 "174379")) = "MTc0Mzc5" := by decide +kernel

def escapeUnit (n : ℕ) : List Char := '\\' :: 'u' :: hex 4 n

/-- The escape of a character; beyond the basic plane it is a pair of surrogates. -/
def escape (c : Char) : List Char :=
  let n := c.toNat
  if c = '"' then ['\\', '"']
  else if c = '\\' then ['\\', '\\']
  else if n = 0xA then ['\\', 'n']
  else if n = 0xD then ['\\', 'r']
  else if n = 0x9 then ['\\', 't']
  else if n = 0xC then ['\\', 'f']
  else if n = 0x8 then ['\\', 'b']
  else if 0x20 ≤ n ∧ n ≤ 0x7E then [c]
  else if n < 0x10000 then escapeUnit n
  else escapeUnit (0xD800 + (n - 0x10000) / 0x400) ++ escapeUnit (0xDC00 + (n - 0x10000) % 0x400)

def dumpString (s : String) : List Char := '"' :: s.toList.flatMap escape ++ ['"']

def dumpFloat (repr : String) : String :=
  if repr = "nan" then "NaN"
  else if repr = "inf" then "Infinity"
  else if repr = "-inf" then "-Infinity"
  else repr

def commaJoin (texts : List (List Char)) : List Char := (texts.intersperse [',', ' ']).flatten

def dumpMember (m : String × List Char) : List Char := dumpString m.1 ++ ':' :: ' ' :: m.2

mutual

/-- `json.dumps(x, sort_keys=True)`. -/
def dumps : Json → List Char
  | .null => "null".toList
  | .bool b => (if b then "true" else "false").toList
  | .int n => (toString n).toList
  | .float repr => (dumpFloat repr).toList
  | .str s => dumpString s
  | .arr xs => '[' :: commaJoin (dumpItems xs) ++ [']']
  | .obj kvs =>
    let members := (dumpMembers kvs).insertionSort fun m m' => m.1 ≤ m'.1
    '{' :: commaJoin (members.map dumpMember) ++ ['}']

def dumpItems : List Json → List (List Char)
  | [] => []
  | x :: xs => dumps x :: dumpItems xs

def dumpMembers : List (String × Json) → List (String × List Char)
  | [] => []
  | (k, v) :: kvs => (k, dumps v) :: dumpMembers kvs

end

example : String.ofList (dumps (.obj [("b", .arr [.int 3, .null]), ("A", .str "é")])) =
    "\x7b\"A\": \"\\u00e9\", \"b\": [3, null]\x7d" := by decide +kernel

theorem dumpItems_eq (xs : List Json) : dumpItems xs = xs.map dumps := by
  induction xs with
  | nil => rfl
  | cons x xs ih => rw [dumpItems, ih, List.map_cons]

theorem dumpMembers_eq (kvs : List (String × Json)) :
    dumpMembers kvs = kvs.map fun m => (m.1, dumps m.2) := by
  induction kvs with
  | nil => rfl
  | cons m kvs ih => rw [dumpMembers, ih, List.map_cons]

/-! ### The text is no shorter than what it contains -/

theorem length_escape_pos (c : Char) : 1 ≤ (escape c).length := by
  unfold escape
  dsimp only
  split_ifs <;> simp [escapeUnit]

theorem length_le_dumpString (s : String) : s.length ≤ (dumpString s).length := by
  have hflat : ∀ cs : List Char, cs.length ≤ (cs.flatMap escape).length := by
    intro cs
    induction cs with
    | nil => exact Nat.le_refl _
    | cons c cs ih =>
      have hc := length_escape_pos c
      rw [List.flatMap_cons, List.length_append, List.length_cons]
      omega
  have hs := hflat s.toList
  rw [String.length_toList] at hs
  simp only [dumpString, List.cons_append, List.length_cons, List.length_append]
  omega

theorem length_le_commaJoin {texts : List (List Char)} {text : List Char} (h : text ∈ texts) :
    text.length ≤ (commaJoin texts).length := by
  obtain ⟨i, hi⟩ := List.mem_iff_getElem?.mp h
  have hmem : text ∈ texts.intersperse [',', ' '] :=
    List.mem_of_getElem? (i := 2 * i) (by rw [List.getElem?_intersperse_two_mul, hi])
  exact (List.sublist_flatten_of_mem hmem).length_le

theorem length_le_dumps_arr {xs : List Json} {x : Json} (h : x ∈ xs) :
    (dumps x).length ≤ (dumps (.arr xs)).length := by
  have hitem : dumps x ∈ dumpItems xs := by
    rw [dumpItems_eq]
    exact List.mem_map_of_mem h
  have hle := length_le_commaJoin hitem
  simp only [dumps, List.cons_append, List.length_cons, List.length_append]
  omega

theorem length_le_dumps_obj {kvs : List (String × Json)} {k : String} {v : Json}
    (h : (k, v) ∈ kvs) : (dumps v).length ≤ (dumps (.obj kvs)).length := by
  have hmember : (k, dumps v) ∈ (dumpMembers kvs).insertionSort fun m m' => m.1 ≤ m'.1 := by
    rw [List.mem_insertionSort, dumpMembers_eq]
    exact List.mem_map_of_mem (f := fun m => (m.1, dumps m.2)) h
  have hle := length_le_commaJoin (List.mem_map_of_mem (f := dumpMember) hmember)
  simp only [dumpMember, List.length_append, List.length_cons] at hle
  simp only [dumps, List.cons_append, List.length_cons, List.length_append]
  omega

end Python
