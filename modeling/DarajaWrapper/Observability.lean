import DarajaWrapper.Library.Substitution
import DarajaWrapper.Python.Values
import Mathlib.Logic.Function.Basic

/-!
# What the logs show

`_strip_pii_from_logs` goes through the keys of an event. It redacts some of them by
their name and puts a substitution of phone numbers through every other string. The
pattern of the substitution ends in a brace, so a number is found only in front of one.
-/

namespace DarajaWrapper.Observability

open Python Substitution

def digit (d : Char) : Item Char := .one (· == d)

/-- A number as it should be masked: `\b2547\d{8}\b`. -/
def standaloneNumber : List (Item Char) :=
  [.boundary, digit '2', digit '5', digit '4', digit '7'] ++
    (List.replicate 8 (.one isDecimal) ++ [.boundary])

/-- `PHONE_PATTERN`: a closing brace belongs to it. -/
def phonePattern : List (Item Char) := standaloneNumber ++ [.one (· == '\x7d')]

def maskPhoneNumber (phone : List Char) : List Char :=
  phone.take 4 ++ "****".toList ++ phone.drop (phone.length - 4)

section Masking

variable {isWord : Char → Bool} {before : Option Char} {c : Char} {cs : List Char}

theorem eq_of_match (more : List (Item Char))
    (h : matchAt isWord before (standaloneNumber ++ more) cs = true) :
    ∃ ds rest last, cs = "2547".toList ++ ds ++ rest ∧ ds.length = 8 ∧
      (∀ d ∈ ds, isDecimal d = true) ∧ matchAt isWord last (.boundary :: more) rest = true := by
  have hfirst : matchAt isWord before (digit '2' :: digit '5' :: digit '4' :: digit '7' ::
      (List.replicate 8 (.one isDecimal) ++ .boundary :: more)) cs = true := by
    rw [standaloneNumber, List.cons_append, List.cons_append, matchAt_boundary,
      Bool.and_eq_true] at h
    simpa using h.2
  obtain ⟨c₂, _, rfl, h₂, hrest₂⟩ := matchAt_one hfirst
  obtain ⟨c₅, _, rfl, h₅, hrest₅⟩ := matchAt_one hrest₂
  obtain ⟨c₄, _, rfl, h₄, hrest₄⟩ := matchAt_one hrest₅
  obtain ⟨c₇, _, rfl, h₇, hrest₇⟩ := matchAt_one hrest₄
  obtain ⟨ds, rest, last, rfl, hlength, hds, hbehind⟩ := matchAt_replicate hrest₇
  rw [beq_iff_eq.mp h₂, beq_iff_eq.mp h₅, beq_iff_eq.mp h₄, beq_iff_eq.mp h₇]
  exact ⟨ds, rest, last, rfl, hlength, hds, hbehind⟩

theorem not_match_phonePattern (hc : c ≠ '2') :
    matchAt isWord before phonePattern (c :: cs) = false := by
  rw [Bool.eq_false_iff]
  intro h
  obtain ⟨ds, rest, last, heq, -⟩ := eq_of_match _ h
  exact hc (List.cons.inj heq).1

theorem maskPhoneNumber_head? (c : Char) (cs : List Char) :
    (maskPhoneNumber (c :: cs)).head? = some c := rfl

theorem maskPhoneNumber_eq {tail : List Char} (h : 4 ≤ tail.length) :
    maskPhoneNumber ("2547".toList ++ tail) =
      "2547".toList ++ "****".toList ++ tail.drop (tail.length - 4) := by
  have hsplit : ("2547".toList ++ tail).length - 4 = "2547".toList.length + (tail.length - 4) := by
    rw [List.length_append]
    omega
  rw [maskPhoneNumber, hsplit, ← List.drop_drop, List.drop_left]
  rfl

theorem exists_sub_of_match {tail rest : List Char} {items : List (Item Char)}
    (h : matchAt isWord before items ("2547".toList ++ (tail ++ rest)) = true)
    (hwidth : width items = 4 + tail.length) (hlength : 4 ≤ tail.length) :
    ∃ behind, subFrom isWord items maskPhoneNumber before 0 ("2547".toList ++ (tail ++ rest)) =
      "2547".toList ++ "****".toList ++ (tail.drop (tail.length - 4) ++ behind) := by
  have htake : ("2547".toList ++ (tail ++ rest)).take (width items) = "2547".toList ++ tail := by
    rw [← List.append_assoc]
    exact List.take_left' (by rw [hwidth, List.length_append]; rfl)
  have hscan : subFrom isWord items maskPhoneNumber before 0
      ("2547".toList ++ (tail ++ rest)) =
      maskPhoneNumber (("2547".toList ++ (tail ++ rest)).take (width items)) ++
        subFrom isWord items maskPhoneNumber (some '2') (width items - 1)
          ("547".toList ++ (tail ++ rest)) := subFrom_of_match h
  rw [htake, maskPhoneNumber_eq hlength, List.append_assoc] at hscan
  exact ⟨_, hscan⟩

/-- In front of a brace a number is masked, with the brace among its last four symbols. -/
theorem exists_sub_of_braced {ds rest : List Char} (hlength : ds.length = 8)
    (h : matchAt isWord before phonePattern ("2547".toList ++ (ds ++ rest)) = true) :
    ∃ shown behind, subFrom isWord phonePattern maskPhoneNumber before 0
        ("2547".toList ++ (ds ++ rest)) = "2547".toList ++ "****".toList ++ (shown ++ behind) ∧
      shown.length = 4 ∧ '\x7d' ∈ shown := by
  obtain ⟨ds', rest', last, hsame, hlength', -, hbrace⟩ := eq_of_match _ h
  rw [List.append_assoc] at hsame
  obtain ⟨rfl, rfl⟩ := List.append_inj (List.append_cancel_left hsame) (by omega)
  rw [matchAt_boundary, Bool.and_eq_true] at hbrace
  obtain ⟨b, rest, rfl, hb, -⟩ := matchAt_one hbrace.2
  obtain rfl := beq_iff_eq.mp hb
  have hsplit : ds ++ '\x7d' :: rest = (ds ++ ['\x7d']) ++ rest := by simp
  rw [hsplit] at h ⊢
  obtain ⟨behind, hmasked⟩ := exists_sub_of_match h
    (by rw [List.length_append, hlength]; rfl) (by simp [hlength])
  refine ⟨_, behind, hmasked, by simp [hlength], ?_⟩
  rw [List.length_append, List.length_singleton, hlength]
  simp [List.drop_append, hlength]

theorem sub_of_not_braced
    (h : matchAt isWord before phonePattern ("2547".toList ++ cs) = false) :
    subFrom isWord phonePattern maskPhoneNumber before 0 ("2547".toList ++ cs) =
      "2547".toList ++ subFrom isWord phonePattern maskPhoneNumber (some '7') 0 cs := by
  have hfirst : matchAt isWord before phonePattern ('2' :: '5' :: '4' :: '7' :: cs) = false := h
  change subFrom isWord phonePattern maskPhoneNumber before 0 ('2' :: '5' :: '4' :: '7' :: cs) = _
  rw [subFrom_of_not_match hfirst,
    subFrom_of_not_match (not_match_phonePattern (show '5' ≠ '2' by decide)),
    subFrom_of_not_match (not_match_phonePattern (show '4' ≠ '2' by decide)),
    subFrom_of_not_match (not_match_phonePattern (show '7' ≠ '2' by decide))]
  rfl

theorem sub_ne_of_match (h : matchAt isWord before standaloneNumber cs = true) :
    subFrom isWord phonePattern maskPhoneNumber before 0 cs ≠
      subFrom isWord standaloneNumber maskPhoneNumber before 0 cs := by
  obtain ⟨ds, rest, -, rfl, hlength, hds, -⟩ := eq_of_match [] (by simpa using h)
  rw [List.append_assoc] at h ⊢
  obtain ⟨behind, hmasked⟩ := exists_sub_of_match h (by rw [hlength]; rfl) (by omega)
  rw [hmasked]
  intro heq
  cases hphone : matchAt isWord before phonePattern ("2547".toList ++ (ds ++ rest)) with
  | true =>
    -- the mask ends in the brace, which is no digit
    obtain ⟨shown, behind', hshown, hfour, hbrace⟩ := exists_sub_of_braced hlength hphone
    rw [hshown] at heq
    have htail := (List.append_inj (List.append_cancel_left heq) (by simp [hlength, hfour])).1
    rw [htail] at hbrace
    exact absurd (hds _ (List.mem_of_mem_drop hbrace)) (by decide)
  | false =>
    -- the first of the eight digits is still there
    obtain ⟨d, ds, rfl⟩ := List.exists_cons_of_length_eq_add_one hlength
    rw [sub_of_not_braced hphone, List.append_assoc] at heq
    have hhead := congrArg List.head? (List.append_cancel_left heq)
    rw [head?_subFrom (by decide) maskPhoneNumber_head?] at hhead
    have hd : d = '*' := Option.some.inj hhead
    exact absurd (hds d List.mem_cons_self) (by rw [hd]; decide)

theorem sub_ne_of_occurs (h : Occurs isWord standaloneNumber before cs) :
    subFrom isWord phonePattern maskPhoneNumber before 0 cs ≠
      subFrom isWord standaloneNumber maskPhoneNumber before 0 cs := by
  induction h with
  | here hmatch => exact sub_ne_of_match hmatch
  | @later before c cs _ ih =>
    cases hmatch : matchAt isWord before standaloneNumber (c :: cs) with
    | true => exact sub_ne_of_match hmatch
    | false =>
      have hphone : matchAt isWord before phonePattern (c :: cs) = false := by
        rw [Bool.eq_false_iff]
        intro h
        rw [matchAt_of_append h] at hmatch
        cases hmatch
      rw [subFrom_of_not_match hphone, subFrom_of_not_match hmatch]
      intro heq
      exact ih (List.cons.inj heq).2

end Masking

/-- The value of a key: a string or an object of some other type. -/
inductive LogValue (α : Type*) where
  | str (s : String)
  | other (x : α)

/-- A dictionary: its keys in order and what it has under them. -/
structure EventDict (α : Type*) where
  keys : List String
  get : String → Option (LogValue α)
  nodup : keys.Nodup
  mem_keys : ∀ key, key ∈ keys ↔ (get key).isSome = true

def sensitiveKeys : List String := ["password", "secret", "access_token", "security_credential"]

def redacted : String := "***REDACTED***"

section Events

-- `str.lower` and the word characters of a pattern come from the tables of Unicode
variable {α : Type*} (lower : String → String) (isWord : Char → Bool)

def isSensitive (key : String) : Bool := sensitiveKeys.contains (lower key)

def subPhonePattern (s : String) : String :=
  String.ofList (sub isWord phonePattern maskPhoneNumber s.toList)

def stripKey (get : String → Option (LogValue α)) (key : String) : String → Option (LogValue α) :=
  if isSensitive lower key then Function.update get key (some (.str redacted))
  else
    match get key with
    | some (.str s) => Function.update get key (some (.str (subPhonePattern isWord s)))
    | _ => get

/-- What becomes of one value. -/
def stripValue (key : String) (value : LogValue α) : LogValue α :=
  if isSensitive lower key then .str redacted
  else
    match value with
    | .str s => .str (subPhonePattern isWord s)
    | .other x => .other x

variable {lower isWord}

section

variable {key s : String}

theorem stripValue_of_sensitive (h : isSensitive lower key = true) (value : LogValue α) :
    stripValue lower isWord key value = .str redacted := if_pos h

theorem stripValue_str (h : isSensitive lower key = false) :
    stripValue lower isWord key (.str s : LogValue α) = .str (subPhonePattern isWord s) := by
  unfold stripValue
  rw [h]
  rfl

end

theorem stripKey_eq {get : String → Option (LogValue α)} {key : String} {value : LogValue α}
    (h : get key = some value) :
    stripKey lower isWord get key =
      Function.update get key (some (stripValue lower isWord key value)) := by
  unfold stripKey stripValue
  split_ifs with hsensitive
  · rfl
  · rw [h]
    cases value with
    | str s => rfl
    | other x => exact (Function.update_eq_self_iff.mpr h.symm).symm

theorem foldl_stripKey {keys : List String} {get : String → Option (LogValue α)}
    (hnodup : keys.Nodup) (hkeys : ∀ key ∈ keys, (get key).isSome = true) (key : String) :
    keys.foldl (stripKey lower isWord) get key =
      if key ∈ keys then (get key).map (stripValue lower isWord key) else get key := by
  induction keys generalizing get with
  | nil => simp
  | cons first rest ih =>
    obtain ⟨hfirst, hrest⟩ := List.nodup_cons.mp hnodup
    obtain ⟨value, hvalue⟩ := Option.isSome_iff_exists.mp (hkeys first List.mem_cons_self)
    have hothers : ∀ k ∈ rest, (Function.update get first
        (some (stripValue lower isWord first value)) k).isSome = true := by
      intro k hk
      rw [Function.update_of_ne (ne_of_mem_of_not_mem hk hfirst)]
      exact hkeys k (List.mem_cons_of_mem _ hk)
    rw [List.foldl_cons, stripKey_eq hvalue, ih hrest hothers]
    by_cases heq : key = first
    · subst heq
      simp [hfirst, hvalue]
    · simp [heq]

variable (lower isWord)

def stripPiiFromLogs (event : EventDict α) : EventDict α where
  keys := event.keys
  get := event.keys.foldl (stripKey lower isWord) event.get
  nodup := event.nodup
  mem_keys key := by
    rw [foldl_stripKey event.nodup fun k hk => (event.mem_keys k).mp hk]
    by_cases hkey : key ∈ event.keys
    · simp [hkey, (event.mem_keys key).mp hkey]
    · simp [hkey, ← event.mem_keys key]

/-- No number is left in the text, and it is the one before with every number masked. -/
def MasksNumbers (s masked : String) : Prop :=
  ¬ Occurs isWord standaloneNumber none masked.toList ∧
    masked.toList = sub isWord standaloneNumber maskPhoneNumber s.toList

/-- Under the sensitive keys the logs show the mark and elsewhere no number. -/
def HidesPii (event stripped : EventDict α) : Prop :=
  ∀ key value, event.get key = some value →
    if isSensitive lower key then stripped.get key = some (.str redacted)
    else ∀ s, value = .str s →
      ∃ masked, stripped.get key = some (.str masked) ∧ MasksNumbers isWord s masked

variable {lower isWord} {event : EventDict α}

theorem stripPiiFromLogs_get (key : String) :
    (stripPiiFromLogs lower isWord event).get key =
      (event.get key).map (stripValue lower isWord key) := by
  change event.keys.foldl (stripKey lower isWord) event.get key = _
  rw [foldl_stripKey event.nodup fun k hk => (event.mem_keys k).mp hk]
  split_ifs with hkey
  · rfl
  · have hnone : event.get key = none := by
      rw [event.mem_keys, Bool.not_eq_true, Option.isSome_eq_false_iff, Option.isNone_iff_eq_none]
        at hkey
      exact hkey
    rw [hnone]
    rfl

/-- A string is masked as it should be exactly when there is nothing to mask. -/
theorem masksNumbers_subPhonePattern_iff {s : String} :
    MasksNumbers isWord s (subPhonePattern isWord s) ↔
      ¬ Occurs isWord standaloneNumber none s.toList := by
  unfold MasksNumbers subPhonePattern
  rw [String.toList_ofList]
  constructor
  · rintro ⟨-, heq⟩ hoccurs
    exact sub_ne_of_occurs hoccurs heq
  · intro h
    have hphone : ¬ Occurs isWord phonePattern none s.toList := fun hoccurs => h hoccurs.of_append
    rw [sub, subFrom_of_not_occurs hphone, sub, subFrom_of_not_occurs h]
    exact ⟨h, rfl⟩

theorem masksNumbers_of_hidesPii (key : String) {s : String}
    (h : HidesPii lower isWord event (stripPiiFromLogs lower isWord event))
    (hkey : event.get key = some (.str s)) (hplain : isSensitive lower key = false) :
    MasksNumbers isWord s (subPhonePattern isWord s) := by
  have hvalue := h key (.str s) hkey
  rw [hplain] at hvalue
  obtain ⟨masked, hmasked, hmasks⟩ := hvalue s rfl
  rw [stripPiiFromLogs_get, hkey, Option.map_some, stripValue_str hplain] at hmasked
  obtain rfl := LogValue.str.inj (Option.some.inj hmasked)
  exact hmasks

/-- The logs hide what they should exactly when no string outside the sensitive keys has a number
in it. -/
theorem hidesPii_iff :
    HidesPii lower isWord event (stripPiiFromLogs lower isWord event) ↔
      ∀ key s, event.get key = some (.str s) → isSensitive lower key = false →
        ¬ Occurs isWord standaloneNumber none s.toList := by
  constructor
  · intro h key s hkey hplain
    exact masksNumbers_subPhonePattern_iff.mp (masksNumbers_of_hidesPii key h hkey hplain)
  · intro h key value hkey
    rw [stripPiiFromLogs_get, hkey, Option.map_some]
    split_ifs with hsensitive
    · rw [stripValue_of_sensitive hsensitive]
    · rintro s rfl
      have hplain := Bool.eq_false_iff.mpr hsensitive
      rw [stripValue_str hplain]
      exact ⟨_, rfl, masksNumbers_subPhonePattern_iff.mpr (h key s hkey hplain)⟩

end Events

/-- An event as a middleware logs it, with a number in its text. -/
def numberLogged : EventDict ℕ where
  keys := ["event", "phone", "status"]
  get key :=
    match key with
    | "event" => some (.str "stk_push_initiated")
    | "phone" => some (.str "254712345678")
    | "status" => some (.other 202)
    | _ => none
  nodup := by decide
  mem_keys key := by
    split <;> simp_all

/-- A phone number is in the logs as it was sent. -/
theorem number_logged :
    ¬ ∀ event : EventDict ℕ, HidesPii (fun key => String.ofList (key.toList.map Char.toLower))
      (fun c => c.isAlphanum || c == '_') event
      (stripPiiFromLogs (fun key => String.ofList (key.toList.map Char.toLower))
        (fun c => c.isAlphanum || c == '_') event) := by
  intro h
  have hmasks : MasksNumbers _ "254712345678" _ :=
    masksNumbers_of_hidesPii "phone" (h numberLogged) rfl (by decide)
  exact masksNumbers_subPhonePattern_iff.mp hmasks (.here (by decide))

end DarajaWrapper.Observability
