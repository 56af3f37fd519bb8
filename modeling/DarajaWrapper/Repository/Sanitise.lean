import DarajaWrapper.Python.Encodings

/-!
# What `_sanitise` strips from an audit payload

`append` stores the dump of the sanitised payload. `_sanitise` looks at the members of the
payload itself and not into their values, and it masks texts only: a secret or a number
deeper down, or a phone number that is an integer, is stored as it came.
-/

namespace DarajaWrapper

open Python

def sensitiveKeys : List String :=
  ["SecurityCredential", "Password", "password", "access_token", "token", "secret"]

def isSensitive (k : String) : Bool := sensitiveKeys.contains k

def redactionMark : Json := .str "***REDACTED***"

/-- A text that is masked. -/
def looksLikePhone (s : String) : Bool := s.length == 12 && ['2', '5', '4'].isPrefixOf s.toList

def maskPhone (s : String) : String :=
  String.ofList (s.toList.take 4 ++ ['*', '*', '*', '*'] ++ s.toList.drop (s.length - 4))

def sanitiseValue (k : String) (v : Json) : Json :=
  if isSensitive k then redactionMark
  else
    match v with
    | .str s => .str (if looksLikePhone s then maskPhone s else s)
    | v => v

def sanitise (payload : List (String × Json)) : List (String × Json) :=
  payload.map fun m => (m.1, sanitiseValue m.1 m.2)

/-- The `payload_json` that `append` stores. -/
def payloadJson (payload : Option (List (String × Json))) : String :=
  String.ofList (dumps (.obj (sanitise (payload.getD []))))

example : payloadJson (some [("phone", .str "254712345678"), ("Password", .int 1)]) =
    "\x7b\"Password\": \"***REDACTED***\", \"phone\": \"2547****5678\"\x7d" := by decide +kernel

/-- A phone number in full. -/
def isUnmasked (s : String) : Bool :=
  looksLikePhone s && (s.toList.drop 4).take 4 != ['*', '*', '*', '*']

/-- A phone number as a number: twelve digits that begin with 2547 or 2541. -/
def isMsisdnInt (n : ℤ) : Bool := n / 10 ^ 8 == 2547 || n / 10 ^ 8 == 2541

def isRedacted : Json → Bool
  | .str s => s == "***REDACTED***"
  | _ => false

def isText : Json → Bool
  | .str _ => true
  | _ => false

def keyClean (countKeys : Bool) (k : String) : Bool := !(countKeys && isUnmasked k)

mutual

/-- No phone number in full, and nothing but the mark under a sensitive key, at any depth. -/
def clean (countKeys : Bool) : Json → Bool
  | .null => true
  | .bool _ => true
  | .int n => !isMsisdnInt n
  | .float _ => true
  | .str s => !isUnmasked s
  | .arr xs => cleanItems countKeys xs
  | .obj kvs => cleanMembers countKeys kvs

def cleanItems (countKeys : Bool) : List Json → Bool
  | [] => true
  | x :: xs => clean countKeys x && cleanItems countKeys xs

def cleanMembers (countKeys : Bool) : List (String × Json) → Bool
  | [] => true
  | (k, v) :: kvs =>
    keyClean countKeys k && (if isSensitive k then isRedacted v else clean countKeys v) &&
      cleanMembers countKeys kvs

end

mutual

/-- A sensitive key somewhere in the value. -/
def hasSecret : Json → Bool
  | .null => false
  | .bool _ => false
  | .int _ => false
  | .float _ => false
  | .str _ => false
  | .arr xs => hasSecretItems xs
  | .obj kvs => hasSecretMembers kvs

def hasSecretItems : List Json → Bool
  | [] => false
  | x :: xs => hasSecret x || hasSecretItems xs

def hasSecretMembers : List (String × Json) → Bool
  | [] => false
  | (k, v) :: kvs => isSensitive k || hasSecret v || hasSecretMembers kvs

end

mutual

/-- The value with `x` under every sensitive key. -/
def fill (x : Json) : Json → Json
  | .null => .null
  | .bool b => .bool b
  | .int n => .int n
  | .float repr => .float repr
  | .str s => .str s
  | .arr xs => .arr (fillItems x xs)
  | .obj kvs => .obj (fillMembers x kvs)

def fillItems (x : Json) : List Json → List Json
  | [] => []
  | y :: ys => fill x y :: fillItems x ys

def fillMembers (x : Json) : List (String × Json) → List (String × Json)
  | [] => []
  | (k, v) :: kvs => (k, if isSensitive k then x else fill x v) :: fillMembers x kvs

end

/-- Two payloads that differ only in values under sensitive keys, at whatever depth. -/
def DifferInSecrets (p q : List (String × Json)) : Prop :=
  fillMembers .null p = fillMembers .null q

variable {countKeys : Bool} {p q kvs : List (String × Json)} {x v : Json}

theorem cleanMembers_iff :
    cleanMembers countKeys kvs = true ↔ ∀ m ∈ kvs, keyClean countKeys m.1 = true ∧
      (if isSensitive m.1 then isRedacted m.2 else clean countKeys m.2) = true := by
  induction kvs with
  | nil => simp [cleanMembers]
  | cons m kvs ih => simp [cleanMembers, ih, and_assoc]

theorem hasSecretItems_iff {xs : List Json} :
    hasSecretItems xs = true ↔ ∃ y ∈ xs, hasSecret y = true := by
  induction xs with
  | nil => simp [hasSecretItems]
  | cons y ys ih => simp [hasSecretItems, ih]

theorem hasSecretMembers_iff :
    hasSecretMembers kvs = true ↔
      ∃ m ∈ kvs, isSensitive m.1 = true ∨ hasSecret m.2 = true := by
  induction kvs with
  | nil => simp [hasSecretMembers]
  | cons m kvs ih => simp [hasSecretMembers, ih]

theorem fillItems_eq (x : Json) (ys : List Json) : fillItems x ys = ys.map (fill x) := by
  induction ys with
  | nil => rfl
  | cons y ys ih => rw [fillItems, ih, List.map_cons]

def fillMember (x : Json) (m : String × Json) : String × Json :=
  (m.1, if isSensitive m.1 then x else fill x m.2)

theorem fillMembers_eq (x : Json) (kvs : List (String × Json)) :
    fillMembers x kvs = kvs.map (fillMember x) := by
  induction kvs with
  | nil => rfl
  | cons m kvs ih => rw [fillMembers, ih, List.map_cons, fillMember]

theorem hasSecret_fill (x v : Json) : hasSecret (fill x v) = hasSecret v := by
  induction v using Json.induction with
  | arr ys ih =>
    rw [Bool.eq_iff_iff, fill, hasSecret, hasSecret, fillItems_eq, hasSecretItems_iff,
      hasSecretItems_iff]
    simp only [List.mem_map, exists_exists_and_eq_and]
    refine exists_congr fun y => and_congr_right fun hy => ?_
    rw [ih y hy]
  | obj kvs ih =>
    rw [Bool.eq_iff_iff, fill, hasSecret, hasSecret, fillMembers_eq, hasSecretMembers_iff,
      hasSecretMembers_iff]
    simp only [List.mem_map, exists_exists_and_eq_and, fillMember]
    refine exists_congr fun m => and_congr_right fun hm => ?_
    cases hk : isSensitive m.1 with
    | true => simp
    | false => simp [ih m hm]
  | _ => rfl

theorem fill_of_not_hasSecret (h : hasSecret v = false) : fill x v = v := by
  induction v using Json.induction with
  | arr ys ih =>
    rw [hasSecret, Bool.eq_false_iff, Ne, hasSecretItems_iff] at h
    push Not at h
    rw [fill, fillItems_eq, List.map_congr_left (g := id), List.map_id]
    intro y hy
    exact ih y hy (Bool.eq_false_iff.mpr (h y hy))
  | obj kvs ih =>
    rw [hasSecret, Bool.eq_false_iff, Ne, hasSecretMembers_iff] at h
    push Not at h
    rw [fill, fillMembers_eq, List.map_congr_left (g := id), List.map_id]
    intro m hm
    obtain ⟨hkey, hvalue⟩ := h m hm
    rw [fillMember, if_neg hkey, ih m hm (Bool.eq_false_iff.mpr hvalue)]
    rfl
  | _ => rfl

theorem fill_fill (x y v : Json) : fill y (fill x v) = fill y v := by
  induction v using Json.induction with
  | arr ys ih =>
    rw [fill, fill, fill, fillItems_eq, fillItems_eq, fillItems_eq, List.map_map]
    exact congrArg Json.arr (List.map_congr_left ih)
  | obj kvs ih =>
    rw [fill, fill, fill, fillMembers_eq, fillMembers_eq, fillMembers_eq, List.map_map]
    refine congrArg Json.obj (List.map_congr_left fun m hm => ?_)
    cases hk : isSensitive m.1 with
    | true => simp [fillMember, hk]
    | false => simp [fillMember, hk, ih m hm]
  | _ => rfl

theorem length_le_dumps_fill (h : hasSecret v = true) :
    (dumps x).length ≤ (dumps (fill x v)).length := by
  induction v using Json.induction with
  | arr ys ih =>
    obtain ⟨y, hy, hsecret⟩ := hasSecretItems_iff.mp h
    have hmem : fill x y ∈ fillItems x ys := by
      rw [fillItems_eq]
      exact List.mem_map_of_mem hy
    exact (ih y hy hsecret).trans (length_le_dumps_arr hmem)
  | obj kvs ih =>
    obtain ⟨m, hm, hsecret⟩ := hasSecretMembers_iff.mp h
    have hmem : fillMember x m ∈ fillMembers x kvs := by
      rw [fillMembers_eq]
      exact List.mem_map_of_mem hm
    have hle := length_le_dumps_obj hmem
    by_cases hk : isSensitive m.1 = true
    · rwa [if_pos hk] at hle
    · rw [if_neg hk] at hle
      exact (ih m hm (hsecret.resolve_left hk)).trans hle
  | _ => cases h

theorem not_isUnmasked_maskPhone {s : String} (h : looksLikePhone s = true) :
    isUnmasked (maskPhone s) = false := by
  have hlength : s.toList.length = 12 := by
    simp only [looksLikePhone, Bool.and_eq_true, beq_iff_eq] at h
    rw [String.length_toList]
    exact h.1
  have hfour : (s.toList.take 4).length = 4 := by
    rw [List.length_take, hlength]
    rfl
  have hstars : ((maskPhone s).toList.drop 4).take 4 = ['*', '*', '*', '*'] := by
    rw [maskPhone, String.toList_ofList, List.append_assoc, List.drop_append_of_le_length hfour.ge,
      List.drop_eq_nil_of_le hfour.le]
    rfl
  rw [isUnmasked, hstars]
  exact Bool.and_false _

theorem sanitiseValue_of_isSensitive {k : String} (hk : isSensitive k = true) :
    sanitiseValue k v = redactionMark := if_pos hk

/-- A text is masked where it must be. -/
theorem clean_sanitiseValue_str {k s : String} (hk : isSensitive k = false) :
    clean countKeys (sanitiseValue k (.str s)) = true := by
  rw [sanitiseValue, if_neg (by simp [hk])]
  by_cases hphone : looksLikePhone s = true
  · rw [if_pos hphone, clean, not_isUnmasked_maskPhone hphone]
    rfl
  · rw [if_neg hphone, clean, isUnmasked, Bool.eq_false_iff.mpr hphone]
    rfl

theorem sanitiseValue_of_not_isText {k : String} (hk : isSensitive k = false)
    (hv : isText v = false) : sanitiseValue k v = v := by
  unfold sanitiseValue
  rw [if_neg (by simp [hk])]
  cases v with
  | str s => cases hv
  | _ => rfl

theorem clean_sanitiseValue {k : String} (hk : isSensitive k = false) :
    clean countKeys (sanitiseValue k v) = true ↔ isText v = true ∨ clean countKeys v = true := by
  cases hv : isText v with
  | true =>
    cases v with
    | str s => simp [clean_sanitiseValue_str hk]
    | _ => cases hv
  | false => simp [sanitiseValue_of_not_isText hk hv]

theorem clean_sanitise_iff :
    clean countKeys (.obj (sanitise p)) = true ↔ ∀ m ∈ p, keyClean countKeys m.1 = true ∧
      (isSensitive m.1 = true ∨ isText m.2 = true ∨ clean countKeys m.2 = true) := by
  rw [clean, cleanMembers_iff, sanitise, List.forall_mem_map]
  refine forall₂_congr fun m _ => and_congr_right fun _ => ?_
  cases hk : isSensitive m.1 with
  | true => simp [sanitiseValue_of_isSensitive hk, redactionMark, isRedacted]
  | false => simpa using clean_sanitiseValue hk

theorem sanitiseValue_eq_of_fillMember_eq {m m' : String × Json}
    (hm : isSensitive m.1 = true ∨ hasSecret m.2 = false)
    (h : fillMember .null m = fillMember .null m') :
    (m'.1, sanitiseValue m'.1 m'.2) = (m.1, sanitiseValue m.1 m.2) := by
  obtain ⟨k, v⟩ := m
  obtain ⟨k', v'⟩ := m'
  simp only [fillMember, Prod.mk.injEq] at h hm ⊢
  obtain ⟨rfl, hvalue⟩ := h
  refine ⟨rfl, ?_⟩
  by_cases hk : isSensitive k = true
  · rw [sanitiseValue_of_isSensitive hk, sanitiseValue_of_isSensitive hk]
  · rw [if_neg hk, if_neg hk] at hvalue
    have hv : hasSecret v = false := hm.resolve_left hk
    have hv' : hasSecret v' = false := by
      rw [← hasSecret_fill .null, ← hvalue, hasSecret_fill, hv]
    rw [fill_of_not_hasSecret hv, fill_of_not_hasSecret hv'] at hvalue
    rw [hvalue]

/-- Payloads that differ in secrets without secrets below their own members are stored alike. -/
theorem sanitise_eq_of_differInSecrets
    (hp : ∀ m ∈ p, isSensitive m.1 = true ∨ hasSecret m.2 = false) (h : DifferInSecrets p q) :
    sanitise q = sanitise p := by
  unfold DifferInSecrets at h
  rw [fillMembers_eq, fillMembers_eq] at h
  unfold sanitise
  induction p generalizing q with
  | nil =>
    rw [List.map_nil] at h
    rw [List.map_eq_nil_iff.mp h.symm]
  | cons m p ih =>
    cases q with
    | nil => cases h
    | cons m' q =>
      rw [List.map_cons, List.map_cons, List.cons.injEq] at h
      obtain ⟨hmember, hrest⟩ := h
      have hhead := sanitiseValue_eq_of_fillMember_eq (hp m List.mem_cons_self) hmember
      have htail := ih (fun n hn => hp n (List.mem_cons_of_mem m hn)) hrest
      rw [List.map_cons, List.map_cons, hhead, htail]

/-- A longer secret below a member of the payload makes a longer text. -/
theorem length_le_payloadJson_fill {m : String × Json} (hm : m ∈ p) (hk : isSensitive m.1 = false)
    (hsecret : hasSecret m.2 = true) (x : Json) :
    (dumps x).length ≤ (payloadJson (some (fillMembers x p))).length := by
  have htext : isText (fill x m.2) = false := by
    cases hv : m.2 with
    | str s =>
      rw [hv] at hsecret
      cases hsecret
    | _ => rfl
  have hmem : (m.1, fill x m.2) ∈ sanitise (fillMembers x p) := by
    rw [sanitise, fillMembers_eq, List.map_map]
    refine List.mem_map.mpr ⟨m, hm, ?_⟩
    simp only [Function.comp_apply, fillMember, hk, Bool.false_eq_true, if_false,
      sanitiseValue_of_not_isText hk htext]
  have hle := length_le_dumps_obj hmem
  rw [payloadJson, String.length_ofList]
  exact (length_le_dumps_fill hsecret).trans hle

/-- Secrets leave no trace in the text exactly when they are all members of the payload itself. -/
theorem payloadJson_eq_iff :
    (∀ q, DifferInSecrets p q → payloadJson (some q) = payloadJson (some p)) ↔
      ∀ m ∈ p, isSensitive m.1 = true ∨ hasSecret m.2 = false := by
  constructor
  · intro h m hm
    by_contra hdeep
    push Not at hdeep
    obtain ⟨hk, hsecret⟩ := hdeep
    -- a secret that is longer than the whole text
    let x : Json := .str (String.ofList (List.replicate ((payloadJson (some p)).length + 1) 'a'))
    have hdiffer : DifferInSecrets p (fillMembers x p) := by
      have hfill := fill_fill x .null (.obj p)
      exact (Json.obj.inj hfill).symm
    have hlong := length_le_payloadJson_fill hm (Bool.eq_false_iff.mpr hk)
      (by simpa using hsecret) x
    have htext := length_le_dumpString
      (String.ofList (List.replicate ((payloadJson (some p)).length + 1) 'a'))
    rw [h _ hdiffer] at hlong
    rw [String.length_ofList, List.length_replicate] at htext
    have := htext.trans hlong
    omega
  · intro hp q hdiffer
    rw [payloadJson, payloadJson, Option.getD_some, Option.getD_some,
      sanitise_eq_of_differInSecrets hp hdiffer]

/-- What is stored is stripped exactly when the payload had nothing to strip but its own members
under sensitive keys and its own texts. -/
theorem payload_stripped_iff (countKeys : Bool) (p : List (String × Json)) :
    (clean countKeys (.obj (sanitise p)) = true ↔ ∀ m ∈ p, keyClean countKeys m.1 = true ∧
      (isSensitive m.1 = true ∨ isText m.2 = true ∨ clean countKeys m.2 = true)) ∧
    ((∀ q, DifferInSecrets p q → payloadJson (some q) = payloadJson (some p)) ↔
      ∀ m ∈ p, isSensitive m.1 = true ∨ hasSecret m.2 = false) :=
  ⟨clean_sanitise_iff, payloadJson_eq_iff⟩

def callbackPayload : List (String × Json) :=
  [("CallbackMetadata", .obj [("Item",
    .arr [.obj [("Name", .str "PhoneNumber"), ("Value", .int 254712345678)]])])]

def nestedToken (token : String) : List (String × Json) :=
  [("auth", .obj [("access_token", .str token)])]

theorem payload_not_stripped :
    ¬ (∀ countKeys p, clean countKeys (.obj (sanitise p)) = true) ∧
    ¬ ∀ p q, DifferInSecrets p q → payloadJson (some q) = payloadJson (some p) := by
  constructor
  · intro h
    have hclean := h false callbackPayload
    revert hclean
    decide +kernel
  · intro h
    have heq := h (nestedToken "a") (nestedToken "b") rfl
    revert heq
    decide +kernel

end DarajaWrapper
