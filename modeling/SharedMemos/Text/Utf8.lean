/-!
# Text of bytes

Bytes that need not be a text are read as signs: characters, and bytes that belong to none.
-/

namespace SharedMemos.Text

/-- A character, or `none` for a byte that belongs to no character. -/
abbrev Sign := Option Char

/-- The signs of a text. -/
def signsOf (text : String) : List Sign :=
  text.toList.map some

/-- The signs of bytes from an index on, after those in `acc`, which are listed newest first. A sign
takes up bytes, so that `budget` need not be more than their number. -/
def signsFrom (bytes : ByteArray) : (budget : Nat) → (i : Nat) → (acc : List Sign) → List Sign
  | 0, _, acc => acc.reverse
  | budget + 1, i, acc =>
    if i < bytes.size then
      match bytes.utf8DecodeChar? i with
      | some c => signsFrom bytes budget (i + c.utf8Size) (some c :: acc)
      | none => signsFrom bytes budget (i + 1) (none :: acc)
    else acc.reverse

/-- The signs of bytes. -/
def signsOfBytes (bytes : ByteArray) : List Sign :=
  signsFrom bytes bytes.size 0 []

end SharedMemos.Text
