import Mathlib.Algebra.Group.Nat.Defs
import Mathlib.Tactic.Common

/-!
# `hashlib.sha256`

SHA-256 on words of 32 bits. The digest is written as 64 hexadecimal digits in
lower case.
-/

namespace Python

def hexDigits : List Char := "0123456789abcdef".toList

def hex (n value : ℕ) : List Char :=
  (List.range n).reverse.map fun i => hexDigits.getD (value / 16 ^ i % 16) '0'

theorem length_hex (n value : ℕ) : (hex n value).length = n := by
  simp [hex]

theorem mem_hexDigits_of_mem_hex {n value : ℕ} {c : Char} (h : c ∈ hex n value) :
    c ∈ hexDigits := by
  simp only [hex, List.mem_map] at h
  obtain ⟨i, -, rfl⟩ := h
  have hlt : value / 16 ^ i % 16 < hexDigits.length := Nat.mod_lt _ (by decide)
  rw [List.getD_eq_getElem?_getD, List.getElem?_eq_getElem hlt]
  exact List.getElem_mem hlt

namespace Sha256

abbrev Word := BitVec 32

def roundConstants : List Word :=
  [0x428a2f98, 0x71374491, 0xb5c0fbcf, 0xe9b5dba5, 0x3956c25b, 0x59f111f1, 0x923f82a4, 0xab1c5ed5,
   0xd807aa98, 0x12835b01, 0x243185be, 0x550c7dc3, 0x72be5d74, 0x80deb1fe, 0x9bdc06a7, 0xc19bf174,
   0xe49b69c1, 0xefbe4786, 0x0fc19dc6, 0x240ca1cc, 0x2de92c6f, 0x4a7484aa, 0x5cb0a9dc, 0x76f988da,
   0x983e5152, 0xa831c66d, 0xb00327c8, 0xbf597fc7, 0xc6e00bf3, 0xd5a79147, 0x06ca6351, 0x14292967,
   0x27b70a85, 0x2e1b2138, 0x4d2c6dfc, 0x53380d13, 0x650a7354, 0x766a0abb, 0x81c2c92e, 0x92722c85,
   0xa2bfe8a1, 0xa81a664b, 0xc24b8b70, 0xc76c51a3, 0xd192e819, 0xd6990624, 0xf40e3585, 0x106aa070,
   0x19a4c116, 0x1e376c08, 0x2748774c, 0x34b0bcb5, 0x391c0cb3, 0x4ed8aa4a, 0x5b9cca4f, 0x682e6ff3,
   0x748f82ee, 0x78a5636f, 0x84c87814, 0x8cc70208, 0x90befffa, 0xa4506ceb, 0xbef9a3f7, 0xc67178f2]

structure State where
  a : Word
  b : Word
  c : Word
  d : Word
  e : Word
  f : Word
  g : Word
  h : Word

def initial : State :=
  ⟨0x6a09e667, 0xbb67ae85, 0x3c6ef372, 0xa54ff53a, 0x510e527f, 0x9b05688c, 0x1f83d9ab, 0x5be0cd19⟩

def rotr (x : Word) (n : ℕ) : Word := x >>> n ||| x <<< (32 - n)

def round (s : State) (k w : Word) : State :=
  let sum1 := rotr s.e 6 ^^^ rotr s.e 11 ^^^ rotr s.e 25
  let choice := (s.e &&& s.f) ^^^ (~~~s.e &&& s.g)
  let t1 := s.h + sum1 + choice + k + w
  let sum0 := rotr s.a 2 ^^^ rotr s.a 13 ^^^ rotr s.a 22
  let majority := (s.a &&& s.b) ^^^ (s.a &&& s.c) ^^^ (s.b &&& s.c)
  ⟨t1 + (sum0 + majority), s.a, s.b, s.c, s.d + t1, s.e, s.f, s.g⟩

/-- The next word of the schedule, from the sixteen before it. -/
def nextWord (window : List Word) : Word :=
  let w := fun i => window.getD i 0
  let s0 := rotr (w 1) 7 ^^^ rotr (w 1) 18 ^^^ w 1 >>> 3
  let s1 := rotr (w 14) 17 ^^^ rotr (w 14) 19 ^^^ w 14 >>> 10
  w 0 + s0 + w 9 + s1

/-- All rounds of a block. The window holds the next sixteen words of the schedule. -/
def rounds : List Word → List Word → State → State
  | [], _, s => s
  | k :: ks, window, s =>
    rounds ks (window.tail ++ [nextWord window]) (round s k (window.getD 0 0))

def compress (s : State) (block : List Word) : State :=
  let r := rounds roundConstants block s
  ⟨s.a + r.a, s.b + r.b, s.c + r.c, s.d + r.d, s.e + r.e, s.f + r.f, s.g + r.g, s.h + r.h⟩

def chunks {α : Type} (n : ℕ) : ℕ → List α → List (List α)
  | 0, _ => []
  | count + 1, xs => xs.take n :: chunks n count (xs.drop n)

def bigEndian (n value : ℕ) : List ℕ :=
  (List.range n).reverse.map fun i => value / 256 ^ i % 256

/-- The message with its padding: a one bit, zeros, and the length in bits. -/
def pad (message : List ℕ) : List ℕ :=
  message ++ 128 :: List.replicate ((119 - message.length % 64) % 64) 0 ++
    bigEndian 8 (8 * message.length)

def wordOfBytes (bytes : List ℕ) : Word := BitVec.ofNat 32 (bytes.foldl (fun n b => 256 * n + b) 0)

def digest (message : List ℕ) : State :=
  let padded := pad message
  let words := (chunks 4 (padded.length / 4) padded).map wordOfBytes
  (chunks 16 (words.length / 16) words).foldl compress initial

def State.hex (s : State) : List Char :=
  [s.a, s.b, s.c, s.d, s.e, s.f, s.g, s.h].flatMap fun w => Python.hex 8 w.toNat

end Sha256

/-- `hashlib.sha256(data.encode()).hexdigest()`. -/
def sha256Hexdigest (data : String) : String :=
  let bytes := data.toByteArray.data.toList.map UInt8.toNat
  String.ofList (Sha256.digest bytes).hex

example : sha256Hexdigest "abc" =
    "ba7816bf8f01cfea414140de5dae2223b00361a396177a9cb410ff61f20015ad" := by decide +kernel

theorem length_sha256Hexdigest (data : String) : (sha256Hexdigest data).toList.length = 64 := by
  simp [sha256Hexdigest, Sha256.State.hex, length_hex]

theorem mem_hexDigits_of_mem_sha256Hexdigest {data : String} {c : Char}
    (h : c ∈ (sha256Hexdigest data).toList) : c ∈ hexDigits := by
  simp only [sha256Hexdigest, Sha256.State.hex, String.toList_ofList, List.mem_flatMap] at h
  obtain ⟨w, -, hc⟩ := h
  exact mem_hexDigits_of_mem_hex hc

end Python
