import SharedMemos.Text.Numeral

/-!
# Parts of an upload

A client sends a large object in numbered parts, in any order and again where it likes. What counts
as received is the run of parts from number one that has no gap.
-/

namespace SharedMemos.Upload

open SharedMemos.Text

/-- A part that the object store has received. -/
structure Part where
  number : Int
  size : Int
  /-- The store's mark of the part's content. -/
  etag : String
deriving Repr, DecidableEq, Inhabited

/-- The value of a signed 64-bit word that counts round. -/
def wrapInt64 (n : Int) : Int :=
  Int.bmod n wordCount64

/-- The parts of a list in ascending order that have the numbers from `next` on without a gap. Of
parts with the same number, the first counts. -/
def runFrom (next : Int) : List Part → List Part
  | [] => []
  | p :: ps =>
    if p.number < next then runFrom next ps
    else if next < p.number then []
    else p :: runFrom (next + 1) ps

/-- The parts numbered from one without a gap. -/
def contiguous (parts : List Part) : List Part :=
  runFrom 1 (parts.mergeSort fun p q => decide (p.number ≤ q.number))

/-- The size of parts together, in a 64-bit word. -/
def totalSize (parts : List Part) : Int :=
  parts.foldl (fun n p => wrapInt64 (n + p.size)) 0

end SharedMemos.Upload
