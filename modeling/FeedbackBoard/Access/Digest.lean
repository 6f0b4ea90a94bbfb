/-!
# Digests of secrets

A secret is never stored; its SHA-256 digest is.  The digest is computed over
32-bit words: the message is padded to blocks of sixteen words, every block is
expanded to sixty-four words, and one round is done for each of them.

Main definitions:

- `Digest.sha256`: the digest of bytes.
- `secretDigest`: the digest of a text, in lowercase hexadecimal digits.
-/

namespace FeedbackBoard

namespace Digest

/-! ## Words -/

/-- The first 32 bits of the fractional parts of the cube roots of the first 64 primes. -/
def roundConstants : List UInt32 :=
  [0x428a2f98, 0x71374491, 0xb5c0fbcf, 0xe9b5dba5, 0x3956c25b, 0x59f111f1,
   0x923f82a4, 0xab1c5ed5, 0xd807aa98, 0x12835b01, 0x243185be, 0x550c7dc3,
   0x72be5d74, 0x80deb1fe, 0x9bdc06a7, 0xc19bf174, 0xe49b69c1, 0xefbe4786,
   0x0fc19dc6, 0x240ca1cc, 0x2de92c6f, 0x4a7484aa, 0x5cb0a9dc, 0x76f988da,
   0x983e5152, 0xa831c66d, 0xb00327c8, 0xbf597fc7, 0xc6e00bf3, 0xd5a79147,
   0x06ca6351, 0x14292967, 0x27b70a85, 0x2e1b2138, 0x4d2c6dfc, 0x53380d13,
   0x650a7354, 0x766a0abb, 0x81c2c92e, 0x92722c85, 0xa2bfe8a1, 0xa81a664b,
   0xc24b8b70, 0xc76c51a3, 0xd192e819, 0xd6990624, 0xf40e3585, 0x106aa070,
   0x19a4c116, 0x1e376c08, 0x2748774c, 0x34b0bcb5, 0x391c0cb3, 0x4ed8aa4a,
   0x5b9cca4f, 0x682e6ff3, 0x748f82ee, 0x78a5636f, 0x84c87814, 0x8cc70208,
   0x90befffa, 0xa4506ceb, 0xbef9a3f7, 0xc67178f2]

/-- The eight words of a digest in progress. -/
structure State where
  a : UInt32
  b : UInt32
  c : UInt32
  d : UInt32
  e : UInt32
  f : UInt32
  g : UInt32
  h : UInt32
deriving DecidableEq

/-- The first 32 bits of the fractional parts of the square roots of the first eight primes. -/
def initial : State :=
  ⟨0x6a09e667, 0xbb67ae85, 0x3c6ef372, 0xa54ff53a,
    0x510e527f, 0x9b05688c, 0x1f83d9ab, 0x5be0cd19⟩

/-- The word rotated to the right. -/
def rotate (x : UInt32) (n : UInt32) : UInt32 :=
  (x >>> n) ||| (x <<< (32 - n))

/-- Word by word addition. -/
def State.add (s t : State) : State :=
  ⟨s.a + t.a, s.b + t.b, s.c + t.c, s.d + t.d, s.e + t.e, s.f + t.f, s.g + t.g, s.h + t.h⟩

/-! ## Blocks -/

/-- One round with a constant and a word of the schedule. -/
def round (s : State) (constant word : UInt32) : State :=
  let s1 := rotate s.e 6 ^^^ rotate s.e 11 ^^^ rotate s.e 25
  let choice := (s.e &&& s.f) ^^^ ((s.e ^^^ 0xffffffff) &&& s.g)
  let first := s.h + s1 + choice + constant + word
  let s0 := rotate s.a 2 ^^^ rotate s.a 13 ^^^ rotate s.a 22
  let majority := (s.a &&& s.b) ^^^ (s.a &&& s.c) ^^^ (s.b &&& s.c)
  ⟨first + (s0 + majority), s.a, s.b, s.c, s.d + first, s.e, s.f, s.g⟩

/-- The word that follows the sixteen words of a window. -/
def nextWord (window : List UInt32) : UInt32 :=
  let word (i : Nat) : UInt32 := window.getD i 0
  let w1 := word 1
  let w14 := word 14
  let s0 := rotate w1 7 ^^^ rotate w1 18 ^^^ (w1 >>> 3)
  let s1 := rotate w14 17 ^^^ rotate w14 19 ^^^ (w14 >>> 10)
  word 0 + s0 + word 9 + s1

/-- Does a round with the first word of the window for every constant, and moves the window on. -/
def rounds : List UInt32 → List UInt32 → State → State
  | [], _, s => s
  | constant :: rest, window, s =>
    rounds rest (window.drop 1 ++ [nextWord window]) (round s constant (window.headD 0))

/-- Takes a block of sixteen words. -/
def block (s : State) (words : List UInt32) : State :=
  s.add (rounds roundConstants words s)

/-! ## Messages -/

/-- The number as a number of bytes, the highest first. -/
def bigEndian (count n : Nat) : List UInt8 :=
  (List.range count).map fun i => UInt8.ofNat (n >>> (8 * (count - 1 - i)))

/-- The message with a one bit, zeros, and its length in bits, up to a multiple of 64 bytes. -/
def padded (message : List UInt8) : List UInt8 :=
  let zeros := (119 - message.length % 64) % 64
  message ++ 0x80 :: (List.replicate zeros 0 ++ bigEndian 8 (8 * message.length))

/-- Bytes as words, four bytes each. -/
def words : List UInt8 → List UInt32
  | a :: b :: c :: d :: rest =>
    (a.toUInt32 <<< 24 ||| b.toUInt32 <<< 16 ||| c.toUInt32 <<< 8 ||| d.toUInt32) :: words rest
  | _ => []

/-- Takes the blocks of a message one after the other. -/
def blocks : (count : Nat) → List UInt32 → State → State
  | 0, _, s => s
  | count + 1, ws, s => blocks count (ws.drop 16) (block s (ws.take 16))

/-- The digest of a message. -/
def sha256 (message : List UInt8) : State :=
  let ws := words (padded message)
  blocks (ws.length / 16) ws initial

/-! ## Text -/

/-- A number below sixteen as a hexadecimal digit. -/
def hexDigit (n : Nat) : Char :=
  if n < 10 then Char.ofNat ('0'.toNat + n) else Char.ofNat ('a'.toNat + (n - 10))

/-- A word as eight hexadecimal digits. -/
def wordHex (w : UInt32) : List Char :=
  (List.range 8).map fun i => hexDigit ((w.toNat >>> (4 * (7 - i))) % 16)

/-- The digest as hexadecimal digits. -/
def State.hex (s : State) : List Char :=
  [s.a, s.b, s.c, s.d, s.e, s.f, s.g, s.h].flatMap wordHex

end Digest

/-- The digest of a text, in lowercase hexadecimal digits. -/
def secretDigest (secret : String) : String :=
  String.ofList (Digest.sha256 (secret.toList.flatMap String.utf8EncodeChar)).hex

end FeedbackBoard
