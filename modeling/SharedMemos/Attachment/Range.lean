import SharedMemos.Error
import SharedMemos.Memo.Tag
import SharedMemos.Text.Blank
import SharedMemos.Text.Numeral

/-!
# Byte ranges

The part of an object that a client asks for: `bytes=first-last`, `bytes=first-`, or `bytes=-length`
for the end of the object. A range is resolved once the size of the object is known.
-/

namespace SharedMemos

open SharedMemos.Text

/-- A range of bytes. -/
inductive ByteRange where
  /-- From the first byte to the last, or to the end of the object. -/
  | between (first : Nat) (last : Option Nat)
  /-- The last `length` bytes. -/
  | final (length : Nat)
deriving Repr, DecidableEq, Inhabited

namespace ByteRange

/-- Reads a header that asks for one range. -/
def parse (header : String) : Except Error ByteRange :=
  let invalid : InputFault := .rangeSyntax header
  match Tag.after? "bytes=".toList (trim header).toList with
  | none => .error (.invalidInput invalid)
  | some ranges =>
    if ranges.contains ',' then .error (.invalidInput .severalRanges)
    else if !ranges.contains '-' then .error (.invalidInput invalid)
    else
      let first := trim (String.ofList (ranges.takeWhile (· != '-')))
      let last := trim (String.ofList ((ranges.dropWhile (· != '-')).drop 1))
      if first = "" then (invalid.expect (nat64? last)).map final
      else do
        let first ← invalid.expect (nat64? first)
        if last = "" then return between first none
        let last ← invalid.expect (nat64? last)
        if last < first then throw (.invalidInput invalid)
        return between first (some last)

/-- The first and the last byte of the range in an object of `total` bytes. -/
def resolve (r : ByteRange) (total : Nat) : Except Error (Nat × Nat) :=
  let beyond : Except Error (Nat × Nat) := .error (.invalidInput (.rangeBeyondEnd total))
  if total = 0 then beyond
  else
    match r with
    | between first last =>
      if total ≤ first then beyond
      else .ok (first, (last.map fun n => min n (total - 1)).getD (total - 1))
    | final 0 => beyond
    | final length => .ok (total - length, total - 1)

end ByteRange

end SharedMemos
