import Retonr.Lib.Text

/-! SHA-256 over byte strings, on natural numbers reduced modulo `2 ^ 32`. -/

namespace Retonr.Sha256

def rotate (word count : Nat) : Nat := (word >>> count ||| word <<< (32 - count)) % 2 ^ 32

def constants : List Nat :=
  [0x428a2f98, 0x71374491, 0xb5c0fbcf, 0xe9b5dba5, 0x3956c25b, 0x59f111f1, 0x923f82a4, 0xab1c5ed5,
   0xd807aa98, 0x12835b01, 0x243185be, 0x550c7dc3, 0x72be5d74, 0x80deb1fe, 0x9bdc06a7, 0xc19bf174,
   0xe49b69c1, 0xefbe4786, 0x0fc19dc6, 0x240ca1cc, 0x2de92c6f, 0x4a7484aa, 0x5cb0a9dc, 0x76f988da,
   0x983e5152, 0xa831c66d, 0xb00327c8, 0xbf597fc7, 0xc6e00bf3, 0xd5a79147, 0x06ca6351, 0x14292967,
   0x27b70a85, 0x2e1b2138, 0x4d2c6dfc, 0x53380d13, 0x650a7354, 0x766a0abb, 0x81c2c92e, 0x92722c85,
   0xa2bfe8a1, 0xa81a664b, 0xc24b8b70, 0xc76c51a3, 0xd192e819, 0xd6990624, 0xf40e3585, 0x106aa070,
   0x19a4c116, 0x1e376c08, 0x2748774c, 0x34b0bcb5, 0x391c0cb3, 0x4ed8aa4a, 0x5b9cca4f, 0x682e6ff3,
   0x748f82ee, 0x78a5636f, 0x84c87814, 0x8cc70208, 0x90befffa, 0xa4506ceb, 0xbef9a3f7, 0xc67178f2]

structure Words where
  (a b c d e f g h : Nat)

def initial : Words :=
  ⟨0x6a09e667, 0xbb67ae85, 0x3c6ef372, 0xa54ff53a, 0x510e527f, 0x9b05688c, 0x1f83d9ab, 0x5be0cd19⟩

def round (state : Words) (constant word : Nat) : Words :=
  let sum1 := rotate state.e 6 ^^^ rotate state.e 11 ^^^ rotate state.e 25
  let choice := (state.e &&& state.f) ^^^ ((2 ^ 32 - 1 - state.e) &&& state.g)
  let first := state.h + sum1 + choice + constant + word
  let sum0 := rotate state.a 2 ^^^ rotate state.a 13 ^^^ rotate state.a 22
  let majority := (state.a &&& state.b) ^^^ (state.a &&& state.c) ^^^ (state.b &&& state.c)
  ⟨(first + sum0 + majority) % 2 ^ 32, state.a, state.b, state.c,
    (state.d + first) % 2 ^ 32, state.e, state.f, state.g⟩

def nextWord : List Nat → Nat
  | [w0, w1, _, _, _, _, _, _, _, w9, _, _, _, _, w14, _] =>
      let sigma0 := rotate w1 7 ^^^ rotate w1 18 ^^^ w1 >>> 3
      let sigma1 := rotate w14 17 ^^^ rotate w14 19 ^^^ w14 >>> 10
      (w0 + sigma0 + w9 + sigma1) % 2 ^ 32
  | _ => 0

def rounds : List Nat → List Nat → Words → Words
  | [], _, state => state
  | constant :: rest, window, state =>
      rounds rest (window.tail ++ [nextWord window]) (round state constant (window.headD 0))

def compress (state : Words) (block : List Nat) : Words :=
  let mixed := rounds constants block state
  ⟨(state.a + mixed.a) % 2 ^ 32, (state.b + mixed.b) % 2 ^ 32, (state.c + mixed.c) % 2 ^ 32,
    (state.d + mixed.d) % 2 ^ 32, (state.e + mixed.e) % 2 ^ 32, (state.f + mixed.f) % 2 ^ 32,
    (state.g + mixed.g) % 2 ^ 32, (state.h + mixed.h) % 2 ^ 32⟩

def pad (bytes : Bytes) : List Nat :=
  bytes.map UInt8.toNat ++ 0x80 :: List.replicate ((119 - bytes.length % 64) % 64) 0 ++
    (List.range 8).map fun index => (bytes.length * 8) >>> (8 * (7 - index)) % 256

def words : List Nat → List Nat
  | b0 :: b1 :: b2 :: b3 :: rest => (b0 * 2 ^ 24 + b1 * 2 ^ 16 + b2 * 2 ^ 8 + b3) :: words rest
  | _ => []

def blocks : Nat → List Nat → Words → Words
  | 0, _, state => state
  | count + 1, remaining, state => blocks count (remaining.drop 16) (compress state (remaining.take 16))

def hexDigit (value : Nat) : Char := if value < 10 then Char.ofNat (48 + value) else Char.ofNat (87 + value)

def hexWord (word : Nat) : Text := (List.range 8).map fun index => hexDigit (word >>> (4 * (7 - index)) % 16)

def hexDigest (bytes : Bytes) : Text :=
  let message := words (pad bytes)
  let final := blocks (message.length / 16) message initial
  [final.a, final.b, final.c, final.d, final.e, final.f, final.g, final.h].flatMap hexWord

def isLowerHex (char : Char) : Bool := char.isDigit || ('a' ≤ char && char ≤ 'f')

theorem isLowerHex_hexDigit {value : Nat} (small : value < 16) : isLowerHex (hexDigit value) = true := by
  have every : ∀ digit : Fin 16, isLowerHex (hexDigit digit) = true := by decide
  exact every ⟨value, small⟩

theorem length_hexDigest (bytes : Bytes) : (hexDigest bytes).length = 64 := by
  simp [hexDigest, hexWord]

theorem isLowerHex_of_mem_hexDigest {bytes : Bytes} {char : Char} (member : char ∈ hexDigest bytes) : isLowerHex char = true := by
  simp only [hexDigest, List.mem_flatMap, hexWord, List.mem_map] at member
  obtain ⟨word, _, index, _, rfl⟩ := member
  exact isLowerHex_hexDigit (Nat.mod_lt _ (by decide))

example : hexDigest (Text.encode "abc".toList) =
    "ba7816bf8f01cfea414140de5dae2223b00361a396177a9cb410ff61f20015ad".toList := rfl

end Retonr.Sha256
