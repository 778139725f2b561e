/-!
# Contents of files

The contents of a file are its leading bytes and zeros up to its size, so that a file that is made
large and filled later costs nothing. `Blob.toList` is the view: what each operation does is said
through it.
-/

namespace SharedMemos

/-- Contents of a file. -/
structure Blob where
  /-- The leading bytes. -/
  head : ByteArray
  /-- How many zeros follow. -/
  zeros : Nat
deriving Inhabited

namespace Blob

/-- The bytes, in order. -/
def toList (b : Blob) : List UInt8 :=
  b.head.data.toList ++ List.replicate b.zeros 0

/-- How many bytes there are. -/
def size (b : Blob) : Nat :=
  b.head.size + b.zeros

/-- The contents that are the given bytes. -/
def ofBytes (bytes : ByteArray) : Blob :=
  ⟨bytes, 0⟩

/-- The contents that are `n` zeros. -/
def ofZeros (n : Nat) : Blob :=
  ⟨.empty, n⟩

/-- The bytes as an array. -/
def bytes (b : Blob) : ByteArray :=
  if b.zeros = 0 then b.head else b.head ++ ⟨Array.replicate b.zeros 0⟩

/-- The first `n` bytes, or all where there are fewer. -/
def take (b : Blob) (n : Nat) : Blob :=
  if n ≤ b.head.size then ⟨b.head.extract 0 n, 0⟩
  else ⟨b.head, min b.zeros (n - b.head.size)⟩

/-- The bytes after the first `n`. -/
def drop (b : Blob) (n : Nat) : Blob :=
  if n ≤ b.head.size then ⟨b.head.extract n b.head.size, b.zeros⟩
  else ⟨.empty, b.zeros - (n - b.head.size)⟩

/-- The contents cut off at `n` bytes, or filled up with zeros to `n` bytes. -/
def resize (b : Blob) (n : Nat) : Blob :=
  if n ≤ b.size then b.take n else ⟨b.head, n - b.head.size⟩

/-- The bytes of one after those of the other. -/
def append (a b : Blob) : Blob :=
  if b.head.isEmpty then ⟨a.head, a.zeros + b.zeros⟩ else ⟨a.bytes ++ b.head, b.zeros⟩

/-- The contents with `bytes` written over those at `offset`; zeros fill a gap before them. -/
def write (b : Blob) (offset : Nat) (bytes : ByteArray) : Blob :=
  ((b.resize (max b.size offset)).take offset).append
    ((ofBytes bytes).append (b.drop (offset + bytes.size)))

end Blob

end SharedMemos
