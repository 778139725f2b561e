/-!
# SHA-256

The digest of FIPS 180-4. `Sha256.absorb` takes the message in pieces, keeping the bytes that do not
fill a block; `Sha256.finish` pads and gives the digest.
-/

namespace SharedMemos.Bytes

/-- The two lower-case hexadecimal digits of a byte. -/
def hexByte (b : UInt8) : List Char :=
  [Nat.digitChar (b.toNat / 16), Nat.digitChar (b.toNat % 16)]

/-- The lower-case hexadecimal text of bytes. -/
def toHex (bytes : List UInt8) : String :=
  String.ofList (bytes.flatMap hexByte)

namespace Sha256

/-- The eight chaining words. -/
structure Words where
  a : UInt32
  b : UInt32
  c : UInt32
  d : UInt32
  e : UInt32
  f : UInt32
  g : UInt32
  h : UInt32
deriving Repr, DecidableEq

/-- The chaining words before the first block. -/
def Words.initial : Words :=
  { a := 0x6a09e667, b := 0xbb67ae85, c := 0x3c6ef372, d := 0xa54ff53a
    e := 0x510e527f, f := 0x9b05688c, g := 0x1f83d9ab, h := 0x5be0cd19 }

/-- The round constants. -/
def roundConstants : List UInt32 :=
  [0x428a2f98, 0x71374491, 0xb5c0fbcf, 0xe9b5dba5, 0x3956c25b, 0x59f111f1, 0x923f82a4, 0xab1c5ed5,
   0xd807aa98, 0x12835b01, 0x243185be, 0x550c7dc3, 0x72be5d74, 0x80deb1fe, 0x9bdc06a7, 0xc19bf174,
   0xe49b69c1, 0xefbe4786, 0x0fc19dc6, 0x240ca1cc, 0x2de92c6f, 0x4a7484aa, 0x5cb0a9dc, 0x76f988da,
   0x983e5152, 0xa831c66d, 0xb00327c8, 0xbf597fc7, 0xc6e00bf3, 0xd5a79147, 0x06ca6351, 0x14292967,
   0x27b70a85, 0x2e1b2138, 0x4d2c6dfc, 0x53380d13, 0x650a7354, 0x766a0abb, 0x81c2c92e, 0x92722c85,
   0xa2bfe8a1, 0xa81a664b, 0xc24b8b70, 0xc76c51a3, 0xd192e819, 0xd6990624, 0xf40e3585, 0x106aa070,
   0x19a4c116, 0x1e376c08, 0x2748774c, 0x34b0bcb5, 0x391c0cb3, 0x4ed8aa4a, 0x5b9cca4f, 0x682e6ff3,
   0x748f82ee, 0x78a5636f, 0x84c87814, 0x8cc70208, 0x90befffa, 0xa4506ceb, 0xbef9a3f7, 0xc67178f2]

/-- Rotation to the right. -/
def rotateRight (x : UInt32) (n : UInt32) : UInt32 :=
  (x >>> n) ||| (x <<< (32 - n))

/-- One round with the constant `k` and the schedule word `w`. -/
def Words.round (s : Words) (k w : UInt32) : Words :=
  let s1 := rotateRight s.e 6 ^^^ rotateRight s.e 11 ^^^ rotateRight s.e 25
  let choice := (s.e &&& s.f) ^^^ ((s.e ^^^ 0xffffffff) &&& s.g)
  let t1 := s.h + s1 + choice + k + w
  let s0 := rotateRight s.a 2 ^^^ rotateRight s.a 13 ^^^ rotateRight s.a 22
  let majority := (s.a &&& s.b) ^^^ (s.a &&& s.c) ^^^ (s.b &&& s.c)
  { a := t1 + (s0 + majority), b := s.a, c := s.b, d := s.c
    e := s.d + t1, f := s.e, g := s.f, h := s.g }

/-- Sum of two chaining values, word by word. -/
def Words.add (x y : Words) : Words :=
  { a := x.a + y.a, b := x.b + y.b, c := x.c + y.c, d := x.d + y.d
    e := x.e + y.e, f := x.f + y.f, g := x.g + y.g, h := x.h + y.h }

/-- Big-endian words of bytes; bytes that do not fill a word are dropped. -/
def wordsOf : List UInt8 → List UInt32
  | a :: b :: c :: d :: rest =>
    ((a.toUInt32 <<< 24) ||| (b.toUInt32 <<< 16) ||| (c.toUInt32 <<< 8) ||| d.toUInt32)
      :: wordsOf rest
  | _ => []

/-- The next word of the message schedule, from the words so far, of which there are at least
sixteen. -/
def nextWord (words : Array UInt32) : UInt32 :=
  let w0 := words.getD (words.size - 16) 0
  let w1 := words.getD (words.size - 15) 0
  let w9 := words.getD (words.size - 7) 0
  let w14 := words.getD (words.size - 2) 0
  let s0 := rotateRight w1 7 ^^^ rotateRight w1 18 ^^^ (w1 >>> 3)
  let s1 := rotateRight w14 17 ^^^ rotateRight w14 19 ^^^ (w14 >>> 10)
  w0 + s0 + w9 + s1

/-- The message schedule with `count` more words. -/
def extend (words : Array UInt32) : (count : Nat) → Array UInt32
  | 0 => words
  | count + 1 => extend (words.push (nextWord words)) count

/-- The message schedule of a block: its sixteen words and forty-eight more. -/
def schedule (block : List UInt8) : Array UInt32 :=
  extend (wordsOf block).toArray 48

/-- Runs the rounds with the given constants and the schedule words from number `i` on. -/
def Words.rounds (s : Words) (words : Array UInt32) (i : Nat) : List UInt32 → Words
  | [] => s
  | k :: ks => (s.round k (words.getD i 0)).rounds words (i + 1) ks

/-- Takes one block of sixty-four bytes into the chaining words. -/
def Words.compress (s : Words) (block : List UInt8) : Words :=
  s.add (s.rounds (schedule block) 0 roundConstants)

/-- Big-endian bytes of a 32-bit word. -/
def bytesOf (w : UInt32) : List UInt8 :=
  [(w >>> 24).toUInt8, (w >>> 16).toUInt8, (w >>> 8).toUInt8, w.toUInt8]

/-- Big-endian bytes of the chaining words. -/
def Words.toBytes (s : Words) : List UInt8 :=
  [s.a, s.b, s.c, s.d, s.e, s.f, s.g, s.h].flatMap bytesOf

/-- A message that is being hashed. -/
structure State where
  /-- Chaining words after the full blocks. -/
  words : Words
  /-- Bytes after the last full block, newest first. -/
  pending : List UInt8
  /-- How many bytes are pending. -/
  pendingSize : Nat
  /-- How many bytes the message has so far. -/
  size : Nat
deriving Repr, DecidableEq

/-- The empty message. -/
def State.empty : State :=
  { words := .initial, pending := [], pendingSize := 0, size := 0 }

/-- Adds one byte to the message. -/
def State.push (s : State) (b : UInt8) : State :=
  if s.pendingSize = 63 then
    { words := s.words.compress (b :: s.pending).reverse
      pending := [], pendingSize := 0, size := s.size + 1 }
  else
    { s with pending := b :: s.pending, pendingSize := s.pendingSize + 1, size := s.size + 1 }

/-- Adds bytes to the message. -/
def State.absorb (s : State) (bytes : ByteArray) : State :=
  bytes.data.foldl State.push s

/-- Big-endian bytes of the bit length of a message of `n` bytes. -/
def lengthBytes (n : Nat) : List UInt8 :=
  [56, 48, 40, 32, 24, 16, 8, 0].map fun shift => UInt8.ofNat ((8 * n) >>> shift % 256)

/-- The digest of the message: a one bit, zeros up to eight bytes before the end of a block, and the
length are added to it. -/
def State.finish (s : State) : List UInt8 :=
  let zeros := (119 - s.size % 64) % 64
  let padding := 0x80 :: (List.replicate zeros 0 ++ lengthBytes s.size)
  (padding.foldl State.push s).words.toBytes

end Sha256

/-- The SHA-256 digest of bytes, as lower-case hexadecimal text. -/
def sha256Hex (bytes : ByteArray) : String :=
  toHex (Sha256.State.empty.absorb bytes).finish

end SharedMemos.Bytes
