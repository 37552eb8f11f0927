/-!
# SHA-256 digests

The digest of a text's UTF-8 bytes, as lower-case hexadecimal digits. The message is padded to
blocks of sixteen words; each block is expanded to a schedule of sixty-four words, which are
mixed into eight words of state one after the other.
-/

namespace SchemaGraph.Digest

/-- The words mixed in with the schedule: the first 32 bits of the fractional parts of the cube
roots of the first sixty-four primes. -/
def roundConstants : List UInt32 :=
  [0x428a2f98, 0x71374491, 0xb5c0fbcf, 0xe9b5dba5, 0x3956c25b, 0x59f111f1, 0x923f82a4, 0xab1c5ed5,
    0xd807aa98, 0x12835b01, 0x243185be, 0x550c7dc3, 0x72be5d74, 0x80deb1fe, 0x9bdc06a7, 0xc19bf174,
    0xe49b69c1, 0xefbe4786, 0x0fc19dc6, 0x240ca1cc, 0x2de92c6f, 0x4a7484aa, 0x5cb0a9dc, 0x76f988da,
    0x983e5152, 0xa831c66d, 0xb00327c8, 0xbf597fc7, 0xc6e00bf3, 0xd5a79147, 0x06ca6351, 0x14292967,
    0x27b70a85, 0x2e1b2138, 0x4d2c6dfc, 0x53380d13, 0x650a7354, 0x766a0abb, 0x81c2c92e, 0x92722c85,
    0xa2bfe8a1, 0xa81a664b, 0xc24b8b70, 0xc76c51a3, 0xd192e819, 0xd6990624, 0xf40e3585, 0x106aa070,
    0x19a4c116, 0x1e376c08, 0x2748774c, 0x34b0bcb5, 0x391c0cb3, 0x4ed8aa4a, 0x5b9cca4f, 0x682e6ff3,
    0x748f82ee, 0x78a5636f, 0x84c87814, 0x8cc70208, 0x90befffa, 0xa4506ceb, 0xbef9a3f7, 0xc67178f2]

/-- The eight words of state. -/
structure State where
  a : UInt32
  b : UInt32
  c : UInt32
  d : UInt32
  e : UInt32
  f : UInt32
  g : UInt32
  h : UInt32

/-- The first state: the first 32 bits of the fractional parts of the square roots of the first
eight primes. -/
def State.initial : State :=
  ⟨0x6a09e667, 0xbb67ae85, 0x3c6ef372, 0xa54ff53a, 0x510e527f,
    0x9b05688c, 0x1f83d9ab, 0x5be0cd19⟩

/-- A word rotated to the right. -/
def rotateRight (x : UInt32) (n : UInt32) : UInt32 :=
  (x >>> n) ||| (x <<< (32 - n))

/-- The state after one word of the schedule, with its round constant. -/
def State.step (s : State) (constant word : UInt32) : State :=
  let sum1 := rotateRight s.e 6 ^^^ rotateRight s.e 11 ^^^ rotateRight s.e 25
  let choice := (s.e &&& s.f) ^^^ ((~~~ s.e) &&& s.g)
  let t1 := s.h + sum1 + choice + constant + word
  let sum0 := rotateRight s.a 2 ^^^ rotateRight s.a 13 ^^^ rotateRight s.a 22
  let majority := (s.a &&& s.b) ^^^ (s.a &&& s.c) ^^^ (s.b &&& s.c)
  ⟨t1 + (sum0 + majority), s.a, s.b, s.c, s.d + t1, s.e, s.f, s.g⟩

/-- The sum of two states, word by word. -/
def State.add (s t : State) : State :=
  ⟨s.a + t.a, s.b + t.b, s.c + t.c, s.d + t.d, s.e + t.e, s.f + t.f, s.g + t.g, s.h + t.h⟩

/-- The word that a schedule goes on with; its latest words come first in `latest`. -/
def nextWord (latest : List UInt32) : UInt32 :=
  let word (i : Nat) := latest.getD (i - 1) 0
  let s0 := rotateRight (word 15) 7 ^^^ rotateRight (word 15) 18 ^^^ (word 15 >>> 3)
  let s1 := rotateRight (word 2) 17 ^^^ rotateRight (word 2) 19 ^^^ (word 2 >>> 10)
  word 16 + s0 + word 7 + s1

/-- The latest words first, after `n` further words of the schedule. -/
def extendSchedule : Nat → List UInt32 → List UInt32
  | 0, latest => latest
  | n + 1, latest => extendSchedule n (nextWord latest :: latest)

/-- The sixty-four words of a block of sixteen. -/
def schedule (block : List UInt32) : List UInt32 :=
  (extendSchedule 48 block.reverse).reverse

/-- The state after a block. -/
def State.absorb (s : State) (block : List UInt32) : State :=
  s.add ((roundConstants.zip (schedule block)).foldl (fun t kw => t.step kw.1 kw.2) s)

/-- The word of up to four bytes, the first one highest. -/
def wordOfBytes (bytes : List UInt8) : UInt32 :=
  bytes.foldl (fun w b => (w <<< 8) ||| b.toUInt32) 0

/-- A list in pieces of `size` members, at most `count` of them. -/
def chunks (size : Nat) : Nat → List α → List (List α)
  | 0, _ => []
  | count + 1, xs => if xs.isEmpty then [] else xs.take size :: chunks size count (xs.drop size)

/-- The bytes of a number, the highest first. -/
def bytesOfNat (n : Nat) : (count : Nat) → List UInt8
  | 0 => []
  | count + 1 => bytesOfNat (n / 256) count ++ [UInt8.ofNat (n % 256)]

/-- A message with a one bit, zero bits up to whole blocks, and its length in bits. -/
def pad (bytes : List UInt8) : List UInt8 :=
  let zeros := (119 - bytes.length % 64) % 64
  bytes ++ 0x80 :: List.replicate zeros 0 ++ bytesOfNat (8 * bytes.length) 8

/-- The state after a whole message. -/
def digestState (bytes : List UInt8) : State :=
  let padded := pad bytes
  let words := (chunks 4 padded.length padded).map wordOfBytes
  (chunks 16 words.length words).foldl State.absorb State.initial

/-- The eight hexadecimal digits of a word. -/
def hexOfWord (w : UInt32) : List Char :=
  let digits := Nat.toDigits 16 w.toNat
  List.replicate (8 - digits.length) '0' ++ digits

/-- The digest of some bytes, in sixty-four hexadecimal digits. -/
def sha256OfBytes (bytes : List UInt8) : List Char :=
  let t := digestState bytes
  [t.a, t.b, t.c, t.d, t.e, t.f, t.g, t.h].flatMap hexOfWord

/-- The digest of a text, in sixty-four hexadecimal digits. -/
def sha256 (s : String) : List Char :=
  sha256OfBytes s.toUTF8.toList

end SchemaGraph.Digest
