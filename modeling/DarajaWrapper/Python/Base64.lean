import DarajaWrapper.Python.Encodings

/-!
# Reading base64

The text that `b64encode` writes is read back as the bytes that went in, group by group. The
bytes of a string tell it from every other string.
-/

namespace Python

def base64Value (c : Char) : Option ℕ := base64Alphabet.idxOf? c

/-- The bytes of four characters; the last one or two may be padding. -/
def decodeQuad (a b c d : Char) : Option (List ℕ) := do
  let x ← base64Value a
  let y ← base64Value b
  match base64Value c, base64Value d with
  | some z, some w => return [x * 4 + y / 16, y % 16 * 16 + z / 4, z % 4 * 64 + w]
  | some z, none => if d = '=' then return [x * 4 + y / 16, y % 16 * 16 + z / 4] else none
  | none, none => if c = '=' ∧ d = '=' then return [x * 4 + y / 16] else none
  | none, some _ => none

def b64decode : List Char → Option (List ℕ)
  | [] => some []
  | a :: b :: c :: d :: rest => do
    let bytes ← decodeQuad a b c d
    if bytes.length < 3 ∧ rest ≠ [] then none
    else
      let tail ← b64decode rest
      return bytes ++ tail
  | _ => none

theorem base64Value_base64Char {n : ℕ} (h : n < 64) : base64Value (base64Char n) = some n := by
  have hall : ∀ n < 64, base64Value (base64Char n) = some n := by decide
  exact hall n h

theorem base64Value_padding : base64Value '=' = none := by decide

theorem b64decode_b64encode (bytes : List ℕ) (h : ∀ n ∈ bytes, n < 256) :
    b64decode (b64encode bytes) = some bytes := by
  fun_induction b64encode bytes with
  | case1 => rfl
  | case2 a =>
    have ha : a < 256 := h a List.mem_cons_self
    have hx := base64Value_base64Char (n := a / 4) (by omega)
    have hy := base64Value_base64Char (n := a % 4 * 16) (by omega)
    simp [b64decode, decodeQuad, hx, hy, base64Value_padding]
    omega
  | case3 a b =>
    have ha : a < 256 := h a List.mem_cons_self
    have hb : b < 256 := h b (by simp)
    have hx := base64Value_base64Char (n := a / 4) (by omega)
    have hy := base64Value_base64Char (n := a % 4 * 16 + b / 16) (by omega)
    have hz := base64Value_base64Char (n := b % 16 * 4) (by omega)
    simp [b64decode, decodeQuad, hx, hy, hz, base64Value_padding]
    omega
  | case4 a b c rest ih =>
    have ha : a < 256 := h a List.mem_cons_self
    have hb : b < 256 := h b (by simp)
    have hc : c < 256 := h c (by simp)
    have hx := base64Value_base64Char (n := a / 4) (by omega)
    have hy := base64Value_base64Char (n := a % 4 * 16 + b / 16) (by omega)
    have hz := base64Value_base64Char (n := b % 16 * 4 + c / 64) (by omega)
    have hw := base64Value_base64Char (n := c % 64) (by omega)
    have hrest := ih fun n hn => h n (by simp [hn])
    simp [b64decode, decodeQuad, hx, hy, hz, hw, hrest]
    omega

theorem utf8_lt {s : String} {n : ℕ} (h : n ∈ utf8 s) : n < 256 := by
  obtain ⟨byte, -, rfl⟩ := List.mem_map.mp h
  exact byte.toNat_lt

theorem utf8_injective : Function.Injective utf8 := by
  intro s t h
  have hbytes : s.toByteArray.data.toList = t.toByteArray.data.toList :=
    List.map_injective_iff.mpr (fun a b hab => UInt8.toNat_inj.mp hab) h
  exact String.toByteArray_inj.mp (ByteArray.ext (Array.ext' hbytes))

end Python
