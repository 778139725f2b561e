/-!
# Rows of pixels

A picture is written row by row. Every row is a number that says how the row is filtered, and the
bits of its pixels, filled up to bytes. An interlaced picture is written as up to seven smaller
ones, each of which holds the pixels on a grid of its own. The pixels themselves are not looked at.
-/

namespace SharedMemos.Image

/-- The size of a picture. -/
structure Picture where
  width : Nat
  height : Nat
deriving Repr, DecidableEq, Inhabited

/-- How the pixels of a picture are written. -/
structure Raster where
  picture : Picture
  /-- The number of bits of a pixel. -/
  pixelBits : Nat
  isInterlaced : Bool
deriving Repr, DecidableEq

/-- A grid of pixels: where it starts, and how far its columns and its rows are apart. -/
structure Grid where
  left : Nat
  top : Nat
  columnStep : Nat
  rowStep : Nat
deriving Repr, DecidableEq

namespace Grid

/-- The grid of all pixels. -/
def whole : Grid := ⟨0, 0, 1, 1⟩

/-- The grids of an interlaced picture, in the order in which they are written. -/
def interlaced : List Grid :=
  [⟨0, 0, 8, 8⟩, ⟨4, 0, 8, 8⟩, ⟨0, 4, 4, 8⟩, ⟨2, 0, 4, 4⟩, ⟨0, 2, 2, 4⟩, ⟨1, 0, 2, 2⟩, ⟨0, 1, 1, 2⟩]

/-- The picture of the pixels on the grid. -/
def part (g : Grid) (p : Picture) : Picture :=
  ⟨(p.width + g.columnStep - 1 - g.left) / g.columnStep,
    (p.height + g.rowStep - 1 - g.top) / g.rowStep⟩

end Grid

namespace Raster

/-- The pictures that are written one after the other. -/
def parts (r : Raster) : List Picture :=
  (if r.isInterlaced then Grid.interlaced else [Grid.whole]).map (·.part r.picture)

/-- The place after rows of `length` bytes that start at a place, where they are all there and each
is filtered in one of the five ways. -/
def afterRows? (bytes : ByteArray) (length : Nat) : (rows : Nat) → (place : Nat) → Option Nat
  | 0, place => some place
  | rows + 1, place =>
    match bytes[place]? with
    | some filter =>
      if filter ≤ 4 ∧ place + 1 + length ≤ bytes.size then
        afterRows? bytes length rows (place + 1 + length)
      else none
    | none => none

/-- The place after a part of the picture that starts at a place. An empty part takes up no
bytes. -/
def afterPart? (r : Raster) (bytes : ByteArray) (place : Nat) (part : Picture) : Option Nat :=
  if part.width = 0 then some place
  else afterRows? bytes ((part.width * r.pixelBits + 7) / 8) part.height place

/-- Are all rows of the picture there? -/
def isWritten (r : Raster) (bytes : ByteArray) : Bool :=
  (r.parts.foldlM (r.afterPart? bytes) 0).isSome

end Raster

end SharedMemos.Image
