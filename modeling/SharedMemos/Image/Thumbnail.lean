import SharedMemos.Decimal.Binary64
import SharedMemos.Error
import SharedMemos.Image.Png
import SharedMemos.Limit

/-!
# Thumbnails

A thumbnail is a picture made small enough for a square, with its proportions kept and never made
larger. It is stored as a JPEG file. Its pixels are not modelled, and so the file holds no more than
the frame that says its size.
-/

namespace SharedMemos.Image

open SharedMemos.Decimal

namespace Picture

/-- The factor from a side to the bound, as a floating-point number; none for an empty side. -/
def factor? (bound side : Nat) : Option Binary64 :=
  if side = 0 then none else some (.ofRatio false ⟨bound, side⟩)

/-- The smaller of the factors of the two sides. -/
def factor (p : Picture) (bound : Nat) : Binary64 :=
  match factor? bound p.width, factor? bound p.height with
  | some x, some y => if y.isBelow x then y else x
  | some x, none => x
  | none, some y => y
  | none, none => .zero

/-- A side times a factor, rounded, and held between one and the bound. -/
def scaleSide (bound : Nat) (factor : Binary64) (side : Nat) : Nat :=
  max 1 (min bound (factor.mulRatio ⟨side, 1⟩).roundHalfUp)

/-- The size that fits in a square with the given side. -/
def fitWithin (p : Picture) (bound : Nat) : Picture :=
  if p.width ≤ bound ∧ p.height ≤ bound then p
  else
    let factor := p.factor bound
    ⟨scaleSide bound factor p.width, scaleSide bound factor p.height⟩

/-- The picture of the size of a thumbnail. -/
def shrunk (p : Picture) : Picture :=
  p.fitWithin Limit.thumbnailSide

/-- The two big-endian bytes of a side. -/
def sideBytes (n : Nat) : List UInt8 :=
  [UInt8.ofNat (n / 256), UInt8.ofNat (n % 256)]

/-- A JPEG file of the picture's size. -/
def toJpeg (p : Picture) : ByteArray :=
  ⟨([0xff, 0xd8, 0xff, 0xc0, 0x00, 0x0b, 0x08] ++ sideBytes p.height ++ sideBytes p.width
    ++ [0x01, 0x01, 0x11, 0x00, 0xff, 0xd9]).toArray⟩

end Picture

/-- The picture of a thumbnail of the picture in a file. -/
def thumbnail (file : Blob) : Except Error Picture :=
  match Png.picture? file with
  | some p => .ok p.shrunk
  | none => .error (.invalidInput .notImage)

end SharedMemos.Image
