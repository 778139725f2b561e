import SharedMemos.Bytes.Blob
import SharedMemos.Bytes.Deflate
import SharedMemos.Image.Raster

/-!
# Pictures in PNG files

A file is a signature and a series of chunks, each with a checksum. The first chunk is the header,
which says the size of the picture and how its pixels are written. Further chunks may follow before
the data: a palette, and chunks that a reader may pass over, whatever is in them. The data chunks
stand together; what they hold is one series of compressed bytes, which must go as far as the rows
of the picture do. Of what follows the data nothing but the start of a chunk need be there.
-/

namespace SharedMemos.Image.Png

open SharedMemos.Bytes

/-- What every file starts with. -/
def signature : List UInt8 :=
  [0x89, 0x50, 0x4e, 0x47, 0x0d, 0x0a, 0x1a, 0x0a]

/-! ### Chunks -/

/-- One step of the checksum: shifts one bit out. -/
def checksumBit (r : UInt32) : UInt32 :=
  if r &&& 1 = 1 then (r >>> 1) ^^^ 0xedb88320 else r >>> 1

/-- Takes one byte into the checksum. -/
def checksumByte (r : UInt32) (b : UInt8) : UInt32 :=
  Nat.repeat checksumBit 8 (r ^^^ b.toUInt32)

/-- The 32-bit cyclic redundancy check of bytes. -/
def checksum (bytes : List UInt8) : UInt32 :=
  bytes.foldl checksumByte 0xffffffff ^^^ 0xffffffff

/-- The number written by big-endian bytes. -/
def number (bytes : List UInt8) : Nat :=
  bytes.foldl (fun n b => 256 * n + b.toNat) 0

/-- A chunk. -/
structure Chunk where
  /-- Four letters. -/
  kind : List UInt8
  data : List UInt8
  /-- Is the checksum that of the kind and the data? -/
  isSound : Bool
deriving Repr, DecidableEq

/-- The kind of the chunk that starts a file: `IHDR`. -/
def headerKind : List UInt8 := [0x49, 0x48, 0x44, 0x52]

/-- The kind of the chunk that lists the colours of pixels: `PLTE`. -/
def paletteKind : List UInt8 := [0x50, 0x4c, 0x54, 0x45]

/-- The kind of chunks that hold pixels: `IDAT`. -/
def dataKind : List UInt8 := [0x49, 0x44, 0x41, 0x54]

/-- The kind of chunks that hold pixels of a later frame of a moving picture: `fdAT`. -/
def frameDataKind : List UInt8 := [0x66, 0x64, 0x41, 0x54]

/-- May a reader that does not know the kind of a chunk pass over it? A small first letter says
so. -/
def isOmissible (kind : List UInt8) : Bool :=
  kind.head?.any fun letter => letter.toNat / 32 % 2 == 1

/-- The kind of the chunk at the start of bytes. -/
def kindAt (bytes : List UInt8) : List UInt8 :=
  (bytes.drop 4).take 4

/-- The chunk at the start of bytes, and the bytes after it. -/
def chunk? (bytes : List UInt8) : Option (Chunk × List UInt8) :=
  let length := number (bytes.take 4)
  let kind := kindAt bytes
  let data := (bytes.drop 8).take length
  let check := (bytes.drop (8 + length)).take 4
  if data.length = length ∧ check.length = 4 then
    let isSound := number check == (checksum (kind ++ data)).toNat
    some (⟨kind, data, isSound⟩, bytes.drop (12 + length))
  else none

/-- The chunk of a kind at the start of bytes, which must be sound, and the bytes after it. -/
def chunkOf? (kind bytes : List UInt8) : Option (Chunk × List UInt8) :=
  (chunk? bytes).filter fun (chunk, _) => chunk.kind == kind && chunk.isSound

/-! ### The header -/

/-- The number of values of a pixel in a kind of colour, where it has the number of bits. -/
def channels? (kind depth : Nat) : Option Nat :=
  match kind with
  | 0 => if [1, 2, 4, 8, 16].contains depth then some 1 else none
  | 2 => if [8, 16].contains depth then some 3 else none
  | 3 => if [1, 2, 4, 8].contains depth then some 1 else none
  | 4 => if [8, 16].contains depth then some 2 else none
  | 6 => if [8, 16].contains depth then some 4 else none
  | _ => none

/-- A header: how pixels are written, and whether a palette must say their colours. -/
structure Header where
  raster : Raster
  needsPalette : Bool
deriving Repr, DecidableEq

/-- The header in the data of a chunk, which holds nothing else. -/
def header? (data : List UInt8) : Option Header :=
  match data.drop 8 with
  | [depth, kind, 0, 0, interlace] => do
    let picture : Picture := ⟨number (data.take 4), number ((data.drop 4).take 4)⟩
    let channels ← channels? kind.toNat depth.toNat
    if 0 < picture.width && 0 < picture.height && interlace ≤ 1 then
      return ⟨⟨picture, channels * depth.toNat, interlace == 1⟩, kind == 3⟩
    else none
  | _ => none

/-! ### Files -/

/-- Does the data of a chunk list colours, of three bytes each: one at least and 256 at most? -/
def isPalette (data : List UInt8) : Bool :=
  data.length % 3 == 0 && decide (0 < data.length) && decide (data.length ≤ 768)

/-- Passes over the chunks before the data: whether there is a palette, and the bytes from the data
on. Pixels of a later frame may not come first. A chunk takes up bytes, so that `budget` need not be
more than their number. -/
def preface? : (budget : Nat) → (hasPalette : Bool) → List UInt8 → Option (Bool × List UInt8)
  | 0, _, _ => none
  | budget + 1, hasPalette, bytes =>
    if kindAt bytes = dataKind then some (hasPalette, bytes)
    else if kindAt bytes = frameDataKind then none
    else if isOmissible (kindAt bytes) then do
      let (_, rest) ← chunk? bytes
      preface? budget hasPalette rest
    else do
      let (chunk, rest) ← chunkOf? paletteKind bytes
      if hasPalette || !isPalette chunk.data then none else preface? budget true rest

/-- The data chunks at the start of bytes, up to the start of another chunk. A chunk takes up bytes,
so that `budget` need not be more than their number. -/
def dataChunks? : (budget : Nat) → List UInt8 → Option (List Chunk)
  | 0, _ => none
  | budget + 1, bytes =>
    if kindAt bytes = dataKind then do
      let (chunk, rest) ← chunkOf? dataKind bytes
      let more ← dataChunks? budget rest
      return chunk :: more
    else if (kindAt bytes).length = 4 then some []
    else none

/-- The picture in the bytes after the signature. -/
def pictureOf? (bytes : List UInt8) : Option Picture := do
  let (first, rest) ← chunkOf? headerKind bytes
  let header ← header? first.data
  let (hasPalette, rest) ← preface? bytes.length false rest
  if header.needsPalette && !hasPalette then none
  else
    let chunks ← dataChunks? bytes.length rest
    let pixels ← Deflate.expand? ⟨(chunks.flatMap (·.data)).toArray⟩
    if header.raster.isWritten pixels then return header.raster.picture else none

/-- The picture in a file. -/
def picture? (file : Blob) : Option Picture :=
  if (file.take signature.length).toList = signature then
    pictureOf? (file.drop signature.length).toList
  else none

end SharedMemos.Image.Png
