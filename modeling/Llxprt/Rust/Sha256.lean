import Mathlib.Tactic.Common

/-!
# SHA-256

The digest as the standard describes it, on lists of bytes.
-/

namespace Llxprt.Rust.Sha256

/-- The eight words of a hash value. -/
structure HashValue where
  a : UInt32
  b : UInt32
  c : UInt32
  d : UInt32
  e : UInt32
  f : UInt32
  g : UInt32
  h : UInt32

def initialHash : HashValue :=
  ⟨0x6a09e667, 0xbb67ae85, 0x3c6ef372, 0xa54ff53a, 0x510e527f, 0x9b05688c, 0x1f83d9ab,
    0x5be0cd19⟩

def roundConstants : List UInt32 :=
  [0x428a2f98, 0x71374491, 0xb5c0fbcf, 0xe9b5dba5, 0x3956c25b, 0x59f111f1, 0x923f82a4,
    0xab1c5ed5, 0xd807aa98, 0x12835b01, 0x243185be, 0x550c7dc3, 0x72be5d74, 0x80deb1fe,
    0x9bdc06a7, 0xc19bf174, 0xe49b69c1, 0xefbe4786, 0x0fc19dc6, 0x240ca1cc, 0x2de92c6f,
    0x4a7484aa, 0x5cb0a9dc, 0x76f988da, 0x983e5152, 0xa831c66d, 0xb00327c8, 0xbf597fc7,
    0xc6e00bf3, 0xd5a79147, 0x06ca6351, 0x14292967, 0x27b70a85, 0x2e1b2138, 0x4d2c6dfc,
    0x53380d13, 0x650a7354, 0x766a0abb, 0x81c2c92e, 0x92722c85, 0xa2bfe8a1, 0xa81a664b,
    0xc24b8b70, 0xc76c51a3, 0xd192e819, 0xd6990624, 0xf40e3585, 0x106aa070, 0x19a4c116,
    0x1e376c08, 0x2748774c, 0x34b0bcb5, 0x391c0cb3, 0x4ed8aa4a, 0x5b9cca4f, 0x682e6ff3,
    0x748f82ee, 0x78a5636f, 0x84c87814, 0x8cc70208, 0x90befffa, 0xa4506ceb, 0xbef9a3f7,
    0xc67178f2]

def rotateRight (word count : UInt32) : UInt32 :=
  (word >>> count) ||| (word <<< (32 - count))

/-- The next word of the message schedule, which is kept with its newest word
first. -/
def nextWord (words : List UInt32) : UInt32 :=
  let older := words.getD 14 0
  let newer := words.getD 1 0
  let sigma0 := rotateRight older 7 ^^^ rotateRight older 18 ^^^ (older >>> 3)
  let sigma1 := rotateRight newer 17 ^^^ rotateRight newer 19 ^^^ (newer >>> 10)
  words.getD 15 0 + sigma0 + words.getD 6 0 + sigma1

def schedule (count : Nat) (words : List UInt32) : List UInt32 :=
  match count with
  | 0 => words.reverse
  | count + 1 => schedule count (nextWord words :: words)

def round (value : HashValue) (input : UInt32 × UInt32) : HashValue :=
  let sum1 := rotateRight value.e 6 ^^^ rotateRight value.e 11 ^^^ rotateRight value.e 25
  let choice := (value.e &&& value.f) ^^^ (~~~ value.e &&& value.g)
  let first := value.h + sum1 + choice + input.1 + input.2
  let sum0 := rotateRight value.a 2 ^^^ rotateRight value.a 13 ^^^ rotateRight value.a 22
  let majority := (value.a &&& value.b) ^^^ (value.a &&& value.c) ^^^ (value.b &&& value.c)
  ⟨first + sum0 + majority, value.a, value.b, value.c, value.d + first, value.e, value.f, value.g⟩

def word (bytes : List UInt8) : UInt32 :=
  bytes.foldl (fun word byte => (word <<< 8) ||| byte.toUInt32) 0

/-- Cut a list into pieces of the given size. -/
def pieces (size : Nat) : Nat → List UInt8 → List (List UInt8)
  | 0, _ => []
  | count + 1, bytes => bytes.take size :: pieces size count (bytes.drop size)

def compress (value : HashValue) (block : List UInt8) : HashValue :=
  let words := schedule 48 ((pieces 4 16 block).map word).reverse
  let mixed := (roundConstants.zip words).foldl round value
  ⟨value.a + mixed.a, value.b + mixed.b, value.c + mixed.c, value.d + mixed.d,
    value.e + mixed.e, value.f + mixed.f, value.g + mixed.g, value.h + mixed.h⟩

/-- The most significant byte first. -/
def bigEndian (count value : Nat) : List UInt8 :=
  ((List.range count).map fun index => UInt8.ofNat (value >>> (8 * index))).reverse

/-- The message followed by one set bit, zeros and its length in bits. -/
def pad (message : List UInt8) : List UInt8 :=
  message ++ 0x80 :: List.replicate ((119 - message.length % 64) % 64) 0 ++
    bigEndian 8 (8 * message.length)

def hash (message : List UInt8) : HashValue :=
  let padded := pad message
  (pieces 64 (padded.length / 64) padded).foldl compress initialHash

def hexWord (value : UInt32) : List Char :=
  (bigEndian 4 value.toNat).flatMap fun byte =>
    [Nat.digitChar (byte.toNat / 16), Nat.digitChar (byte.toNat % 16)]

/-- The digest as lower-case hexadecimal digits. -/
def digest (message : List UInt8) : String :=
  let value := hash message
  String.ofList ([value.a, value.b, value.c, value.d, value.e, value.f, value.g, value.h].flatMap
    hexWord)

/-- The digest as thirty-two bytes. -/
def digestBytes (message : List UInt8) : List UInt8 :=
  let value := hash message
  [value.a, value.b, value.c, value.d, value.e, value.f, value.g, value.h].flatMap fun word =>
    bigEndian 4 word.toNat

theorem length_digestBytes (message : List UInt8) : (digestBytes message).length = 32 := by
  simp [digestBytes, bigEndian, List.range_succ]

theorem length_hexWord (value : UInt32) : (hexWord value).length = 8 := by
  simp [hexWord, bigEndian, List.range_succ]

theorem length_digest (message : List UInt8) : (digest message).toList.length = 64 := by
  simp [digest, length_hexWord]

/-- Every character of a digest is the digit of a number below sixteen. -/
theorem mem_digest {message : List UInt8} {char : Char} (member : char ∈ (digest message).toList) :
    ∃ value < 16, char = Nat.digitChar value := by
  rw [digest, String.toList_ofList, List.mem_flatMap] at member
  rcases member with ⟨word, _, inWord⟩
  rw [hexWord, List.mem_flatMap] at inWord
  rcases inWord with ⟨byte, _, inByte⟩
  have bound := byte.toNat_lt
  rcases List.mem_cons.mp inByte with rfl | low
  · exact ⟨_, by omega, rfl⟩
  · rw [List.mem_singleton.mp low]
    exact ⟨_, by omega, rfl⟩

end Llxprt.Rust.Sha256
