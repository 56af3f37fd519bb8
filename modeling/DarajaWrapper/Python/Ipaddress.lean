import DarajaWrapper.Python.Hashlib

/-!
# `ipaddress.ip_address`

The two parsers of addresses as texts, and their union. `none` stands for the plain
`ValueError` of `ip_address`; inside the parsers it stands for `AddressValueError`.
-/

namespace Python

/-- An `IPv4Address` or `IPv6Address`; two are equal when all their fields are. -/
inductive IpAddress where
  | v4 (ip : ℕ)
  | v6 (ip : ℕ) (scopeId : Option (List Char))
  deriving DecidableEq, Repr

def ofDigits (base : ℕ) (ds : List ℕ) : ℕ := ds.foldl (fun n d => base * n + d) 0

theorem foldl_digits_lt {base : ℕ} {ds : List ℕ} (h : ∀ d ∈ ds, d < base) (n : ℕ) :
    ds.foldl (fun n d => base * n + d) n < (n + 1) * base ^ ds.length := by
  induction ds generalizing n with
  | nil => simp
  | cons d ds ih =>
    have hd : d < base := h d List.mem_cons_self
    have hrest := ih (fun d hd => h d (List.mem_cons_of_mem _ hd)) (base * n + d)
    have hnext : base * n + d + 1 ≤ (n + 1) * base := by
      rw [Nat.add_mul, Nat.one_mul, Nat.mul_comm n base]
      omega
    calc (d :: ds).foldl (fun n d => base * n + d) n
        < (base * n + d + 1) * base ^ ds.length := hrest
      _ ≤ (n + 1) * base * base ^ ds.length := Nat.mul_le_mul_right _ hnext
      _ = (n + 1) * base ^ (d :: ds).length := by
        rw [List.length_cons, Nat.pow_succ, Nat.mul_assoc, Nat.mul_comm base]

theorem ofDigits_lt {base : ℕ} {ds : List ℕ} (h : ∀ d ∈ ds, d < base) :
    ofDigits base ds < base ^ ds.length := by
  have hlt := foldl_digits_lt h 0
  rwa [Nat.zero_add, Nat.one_mul] at hlt

theorem lt_of_mapM {α : Type*} {f : α → Option ℕ} {base : ℕ}
    (hf : ∀ a d, f a = some d → d < base) {as : List α} {ds : List ℕ}
    (h : as.mapM f = some ds) : ds.length = as.length ∧ ∀ d ∈ ds, d < base := by
  induction as generalizing ds with
  | nil =>
    cases h
    exact ⟨rfl, nofun⟩
  | cons a as ih =>
    simp only [List.mapM_cons, Option.bind_eq_bind, Option.bind_eq_some_iff] at h
    obtain ⟨d, hd, rest, hrest, heq⟩ := h
    cases heq
    obtain ⟨hlength, hlt⟩ := ih hrest
    refine ⟨by simp [hlength], ?_⟩
    intro e he
    rcases List.mem_cons.mp he with rfl | he
    · exact hf a _ hd
    · exact hlt e he

def decimalDigit (c : Char) : Option ℕ := if c.isDigit then some (c.toNat - '0'.toNat) else none

def parseOctet (octet : List Char) : Option ℕ := do
  let ds ← octet.mapM decimalDigit
  if octet = [] ∨ 3 < octet.length then none
  else if octet ≠ ['0'] ∧ octet.head? = some '0' then none
  else if 255 < ofDigits 10 ds then none
  else some (ofDigits 10 ds)

def ipv4Address (address : List Char) : Option ℕ := do
  let octets := address.splitOn '.'
  if '/' ∈ address ∨ octets.length ≠ 4 then none
  else return ofDigits 256 (← octets.mapM parseOctet)

theorem parseOctet_lt (octet : List Char) (n : ℕ) (h : parseOctet octet = some n) : n < 256 := by
  simp only [parseOctet, Option.bind_eq_bind, Option.bind_eq_some_iff] at h
  obtain ⟨ds, -, h⟩ := h
  split_ifs at h with h₁ h₂ hle
  obtain rfl := Option.some.inj h
  omega

theorem ipv4Address_lt {address : List Char} {ip : ℕ} (h : ipv4Address address = some ip) :
    ip < 2 ^ 32 := by
  simp only [ipv4Address] at h
  split_ifs at h with hrefused
  simp only [Option.bind_eq_bind, Option.bind_eq_some_iff] at h
  obtain ⟨ds, hds, heq⟩ := h
  cases heq
  obtain ⟨hlength, hlt⟩ := lt_of_mapM parseOctet_lt hds
  have hfour : ds.length = 4 := by
    rw [hlength]
    by_contra hne
    exact hrefused (Or.inr hne)
  calc ofDigits 256 ds < 256 ^ ds.length := ofDigits_lt hlt
    _ = 2 ^ 32 := by rw [hfour]; rfl

def hexDigit (c : Char) : Option ℕ :=
  if c.isDigit then some (c.toNat - '0'.toNat)
  else if 'a' ≤ c ∧ c ≤ 'f' then some (10 + (c.toNat - 'a'.toNat))
  else if 'A' ≤ c ∧ c ≤ 'F' then some (10 + (c.toNat - 'A'.toNat))
  else none

/-- `_parse_hextet`; `int` refuses an empty text. -/
def parseHextet (hextet : List Char) : Option ℕ := do
  let ds ← hextet.mapM hexDigit
  if hextet = [] ∨ 4 < hextet.length then none else some (ofDigits 16 ds)

theorem hexDigit_lt (c : Char) (n : ℕ) (h : hexDigit c = some n) : n < 16 := by
  unfold hexDigit at h
  split_ifs at h with hdigit hlower hupper
  · have hle : c.toNat ≤ '9'.toNat := by
      simp only [Char.isDigit, Bool.and_eq_true, decide_eq_true_eq] at hdigit
      exact UInt32.le_iff_toNat_le.mp hdigit.2
    change c.toNat ≤ 57 at hle
    obtain rfl := Option.some.inj h
    change c.toNat - 48 < 16
    omega
  · have hle : c.toNat ≤ 'f'.toNat := UInt32.le_iff_toNat_le.mp hlower.2
    change c.toNat ≤ 102 at hle
    obtain rfl := Option.some.inj h
    change 10 + (c.toNat - 97) < 16
    omega
  · have hle : c.toNat ≤ 'F'.toNat := UInt32.le_iff_toNat_le.mp hupper.2
    change c.toNat ≤ 70 at hle
    obtain rfl := Option.some.inj h
    change 10 + (c.toNat - 65) < 16
    omega

theorem parseHextet_lt (hextet : List Char) (n : ℕ) (h : parseHextet hextet = some n) :
    n < 65536 := by
  simp only [parseHextet, Option.bind_eq_bind, Option.bind_eq_some_iff] at h
  obtain ⟨ds, hds, h⟩ := h
  split_ifs at h with hrefused
  obtain rfl := Option.some.inj h
  obtain ⟨hlength, hlt⟩ := lt_of_mapM hexDigit_lt hds
  have hfour : ds.length ≤ 4 := by
    rw [hlength]
    by_contra hlong
    exact hrefused (Or.inr (by omega))
  calc ofDigits 16 ds < 16 ^ ds.length := ofDigits_lt hlt
    _ ≤ 16 ^ 4 := Nat.pow_le_pow_right (by decide) hfour

/-- The parts between the colons. An IPv4 suffix is replaced by two parts in hexadecimal. -/
def ipv6Parts (address : List Char) : Option (List (List Char)) :=
  let parts := address.splitOn ':'
  let last := parts.getLastD []
  if parts.length < 3 then none
  else if '.' ∈ last then do
    let suffix ← ipv4Address last
    return parts.dropLast ++ [hex 4 (suffix / 65536), hex 4 (suffix % 65536)]
  else some parts

/-- The places of the empty parts that are neither the first nor the last. -/
def skipIndices (parts : List (List Char)) : List ℕ :=
  (List.range (parts.length - 1)).filter fun i => 0 < i ∧ parts[i]? = some []

/-- The parts before and behind the `::` at this place. An endpoint may be empty only when it is
next to it. -/
def aroundSkip (parts : List (List Char)) (skip : ℕ) :
    Option (List (List Char) × List (List Char)) :=
  let before := parts.take skip
  let behind := parts.drop (skip + 1)
  if parts.head? = some [] ∧ 1 < skip then none
  else if parts.getLast? = some [] ∧ 1 < behind.length then none
  else some (before.filter (· ≠ []), behind.filter (· ≠ []))

def ipv6Int (address : List Char) : Option ℕ := do
  let parts ← ipv6Parts address
  if 9 < parts.length then none
  else
    match skipIndices parts with
    | [] =>
      if parts.length ≠ 8 ∨ parts.head? = some [] ∨ parts.getLast? = some [] then none
      else return ofDigits 65536 (← parts.mapM parseHextet)
    | [skip] =>
      let (before, behind) ← aroundSkip parts skip
      let skipped := 8 - (before.length + behind.length)
      if skipped < 1 then none
      else
        let high ← before.mapM parseHextet
        let low ← behind.mapM parseHextet
        return ofDigits 65536 (high ++ List.replicate skipped 0 ++ low)
    | _ => none

theorem ipv6Int_lt {address : List Char} {ip : ℕ} (h : ipv6Int address = some ip) :
    ip < 2 ^ 128 := by
  -- eight parts are read, or taken for zero
  suffices height : ∃ ds : List ℕ, ds.length = 8 ∧ (∀ d ∈ ds, d < 65536) ∧
      ip = ofDigits 65536 ds by
    obtain ⟨ds, hlength, hlt, rfl⟩ := height
    calc ofDigits 65536 ds < 65536 ^ ds.length := ofDigits_lt hlt
      _ = 2 ^ 128 := by rw [hlength]; rfl
  simp only [ipv6Int, Option.bind_eq_bind, Option.bind_eq_some_iff] at h
  obtain ⟨parts, -, h⟩ := h
  split at h
  · cases h
  · split at h
    · split at h
      · cases h
      · rename_i hlength
        simp only [Option.bind_eq_some_iff] at h
        obtain ⟨ds, hds, heq⟩ := h
        obtain ⟨hsame, hlt⟩ := lt_of_mapM parseHextet_lt hds
        refine ⟨ds, ?_, hlt, (Option.some.inj heq).symm⟩
        rw [hsame]
        by_contra hne
        exact hlength (Or.inl hne)
    · simp only [Option.bind_eq_some_iff] at h
      obtain ⟨⟨before, behind⟩, -, h⟩ := h
      split at h
      · cases h
      · rename_i hskipped
        simp only [Option.bind_eq_some_iff] at h
        obtain ⟨high, hhigh, low, hlow, heq⟩ := h
        obtain ⟨hbefore, hhighlt⟩ := lt_of_mapM parseHextet_lt hhigh
        obtain ⟨hbehind, hlowlt⟩ := lt_of_mapM parseHextet_lt hlow
        change ¬ 8 - (before.length + behind.length) < 1 at hskipped
        refine ⟨_, ?_, ?_, (Option.some.inj heq).symm⟩
        · simp only [List.length_append, List.length_replicate, hbefore, hbehind]
          omega
        · intro d hd
          rcases List.mem_append.mp hd with hd | hd
          · rcases List.mem_append.mp hd with hd | hd
            · exact hhighlt d hd
            · rw [List.eq_of_mem_replicate hd]
              decide
          · exact hlowlt d hd
    · cases h

def splitScopeId (address : List Char) : Option (List Char × Option (List Char)) :=
  match address.splitOn '%' with
  | [address] => some (address, none)
  | [address, scopeId] => if scopeId = [] then none else some (address, some scopeId)
  | _ => none

def ipv6Address (address : List Char) : Option IpAddress := do
  if '/' ∈ address then none
  else
    let (address, scopeId) ← splitScopeId address
    return .v6 (← ipv6Int address) scopeId

def ipAddress (address : List Char) : Option IpAddress :=
  ((ipv4Address address).map .v4).or (ipv6Address address)

/-- What is accepted is a number of 32 or of 128 bits. -/
theorem ipAddress_lt {address : List Char} {a : IpAddress} (h : ipAddress address = some a) :
    (∃ ip, a = .v4 ip ∧ ip < 2 ^ 32) ∨ ∃ ip scopeId, a = .v6 ip scopeId ∧ ip < 2 ^ 128 := by
  rcases Option.or_eq_some_iff.mp h with h4 | ⟨-, h6⟩
  · obtain ⟨ip, hip, rfl⟩ := Option.map_eq_some_iff.mp h4
    exact Or.inl ⟨ip, rfl, ipv4Address_lt hip⟩
  · unfold ipv6Address at h6
    split_ifs at h6
    simp only [Option.bind_eq_bind, Option.bind_eq_some_iff] at h6
    obtain ⟨⟨unscoped, scopeId⟩, -, ip, hip, heq⟩ := h6
    cases heq
    exact Or.inr ⟨ip, scopeId, rfl, ipv6Int_lt hip⟩

end Python
