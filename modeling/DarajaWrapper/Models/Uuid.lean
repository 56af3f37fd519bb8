import DarajaWrapper.Models.Audit
import DarajaWrapper.Python.JsonText

/-!
# The text of a UUID

The 32 digits in groups: they say what the UUID is, and no other character but the
hyphen is in the text. Whoever reads the digits and skips the hyphens gets the UUID back.
-/

namespace Python

def readHex (n : ℕ) : List Char → Option ℕ
  | [] => some n
  | c :: cs => (hexValue c).bind fun d => readHex (16 * n + d) cs

theorem hex_succ (n value : ℕ) :
    hex (n + 1) value = hexDigits.getD (value / 16 ^ n % 16) '0' :: hex n value := by
  rw [hex, List.range_succ, List.reverse_append]
  rfl

theorem readHex_hex (n value acc : ℕ) :
    readHex acc (hex n value) = some (acc * 16 ^ n + value % 16 ^ n) := by
  induction n generalizing acc with
  | zero =>
    rw [pow_zero, Nat.mod_one, mul_one]
    rfl
  | succ n ih =>
    rw [hex_succ, readHex, hexValue_hexDigits (Nat.mod_lt _ (by decide)), Option.bind_some, ih]
    congr 1
    calc (16 * acc + value / 16 ^ n % 16) * 16 ^ n + value % 16 ^ n
        = acc * 16 ^ (n + 1) + (value % 16 ^ n + 16 ^ n * (value / 16 ^ n % 16)) := by ring
      _ = acc * 16 ^ (n + 1) + value % 16 ^ (n + 1) := by rw [Nat.mod_pow_succ]

end Python

namespace DarajaWrapper

open Python

theorem UUID.str_toList (u : UUID) :
    u.str.toList = (hex 32 u.toNat).take 8 ++ '-' :: ((hex 32 u.toNat).drop 8).take 4 ++
      '-' :: ((hex 32 u.toNat).drop 12).take 4 ++ '-' :: ((hex 32 u.toNat).drop 16).take 4 ++
        '-' :: (hex 32 u.toNat).drop 20 := String.toList_ofList

theorem UUID.bar_not_mem_str (u : UUID) : '|' ∉ u.str.toList := by
  have hdigit : '|' ∉ hex 32 u.toNat := by
    intro h
    have hmem := mem_hexDigits_of_mem_hex h
    revert hmem
    decide
  have htake : ∀ i k, '|' ∉ ((hex 32 u.toNat).drop i).take k :=
    fun i k h => hdigit (List.mem_of_mem_drop (List.mem_of_mem_take h))
  have hdrop : '|' ∉ (hex 32 u.toNat).drop 20 := fun h => hdigit (List.mem_of_mem_drop h)
  rw [UUID.str_toList]
  simp only [List.mem_append, List.mem_cons, not_or]
  have hfirst := htake 0 8
  rw [List.drop_zero] at hfirst
  exact ⟨⟨⟨⟨hfirst, by decide, htake 8 4⟩, by decide, htake 12 4⟩, by decide, htake 16 4⟩,
    by decide, hdrop⟩

theorem UUID.digits_of_str (u : UUID) :
    u.str.toList.filter (· ≠ '-') = hex 32 u.toNat := by
  have hdigit : '-' ∉ hex 32 u.toNat := by
    intro h
    have hmem := mem_hexDigits_of_mem_hex h
    revert hmem
    decide
  have hkeep : ∀ xs : List Char, xs ⊆ hex 32 u.toNat → xs.filter (· ≠ '-') = xs := by
    intro xs hxs
    rw [List.filter_eq_self]
    intro c hc
    have hne : c ≠ '-' := fun heq => hdigit (heq ▸ hxs hc)
    exact decide_eq_true hne
  have hsub : ∀ i k, ((hex 32 u.toNat).drop i).take k ⊆ hex 32 u.toNat :=
    fun i k => List.Subset.trans (List.take_subset _ _) (List.drop_subset _ _)
  have hfirst := hkeep _ (List.take_subset 8 (hex 32 u.toNat))
  have hlast := hkeep _ (List.drop_subset 20 (hex 32 u.toNat))
  have hminus : ∀ xs : List Char, ('-' :: xs).filter (· ≠ '-') = xs.filter (· ≠ '-') :=
    fun xs => List.filter_cons_of_neg (by simp)
  rw [UUID.str_toList, List.filter_append, List.filter_append, List.filter_append,
    List.filter_append, hminus, hminus, hminus, hminus, hfirst, hkeep _ (hsub 8 4),
    hkeep _ (hsub 12 4), hkeep _ (hsub 16 4), hlast]
  have hjoin : ∀ i k, ((hex 32 u.toNat).drop i).take k ++ (hex 32 u.toNat).drop (i + k) =
      (hex 32 u.toNat).drop i := by
    intro i k
    rw [← List.drop_drop]
    exact List.take_append_drop k _
  rw [List.append_assoc, List.append_assoc, List.append_assoc, hjoin 16 4, hjoin 12 4, hjoin 8 4,
    List.take_append_drop]

/-- The UUID of a text with 32 digits, wherever its hyphens are. -/
def UUID.ofText (text : String) : Option UUID :=
  let digits := text.toList.filter (· ≠ '-')
  if digits.length = 32 then (readHex 0 digits).map (BitVec.ofNat 128) else none

theorem UUID.ofText_str (u : UUID) : UUID.ofText u.str = some u := by
  have hu : u.toNat % 16 ^ 32 = u.toNat := Nat.mod_eq_of_lt u.isLt
  rw [UUID.ofText, u.digits_of_str, if_pos (length_hex 32 u.toNat), readHex_hex, zero_mul,
    zero_add, hu, Option.map_some, BitVec.ofNat_toNat, BitVec.setWidth_eq]

theorem UUID.str_injective : Function.Injective UUID.str := by
  intro u v h
  have htext := u.ofText_str
  rw [h, v.ofText_str] at htext
  exact (Option.some.inj htext).symm

end DarajaWrapper
