import SharedMemos.Text.CharSet

/-!
# Blank characters, trimming and lines

The characters with the Unicode property `White_Space`, and the operations defined through them.
-/

namespace SharedMemos.Text

/-- The characters with the Unicode property `White_Space`. -/
def whiteSpace : CharSet :=
  ⟨[(0x9, 0xD), (0x20, 0x20), (0x85, 0x85), (0xA0, 0xA0), (0x1680, 0x1680), (0x2000, 0x200A),
    (0x2028, 0x2029), (0x202F, 0x202F), (0x205F, 0x205F), (0x3000, 0x3000)]⟩

/-- Is `c` a white-space character? -/
def isBlank (c : Char) : Bool :=
  whiteSpace.contains c

/-- The characters of `cs` without the blanks at its start. -/
def trimLeft (cs : List Char) : List Char :=
  cs.dropWhile isBlank

/-- The characters of `cs` without the blanks at its end. -/
def trimRight (cs : List Char) : List Char :=
  (cs.reverse.dropWhile isBlank).reverse

/-- `s` without the blanks at either end. -/
def trim (s : String) : String :=
  String.ofList (trimRight (trimLeft s.toList))

/-- Pieces of `cs` between the occurrences of `sep`, one more than there are occurrences. -/
def splitAt (sep : Char) : List Char → List (List Char)
  | [] => [[]]
  | c :: cs =>
    if c = sep then [] :: splitAt sep cs
    else
      match splitAt sep cs with
      | [] => [[c]]
      | piece :: rest => (c :: piece) :: rest

/-- Pieces of `s` between the occurrences of `sep`. -/
def splitOnChar (sep : Char) (s : String) : List String :=
  (splitAt sep s.toList).map String.ofList

/-- A line without the carriage return that may end it. -/
def dropReturn (line : List Char) : List Char :=
  match line.reverse with
  | '\r' :: rest => rest.reverse
  | _ => line

/-- The lines of a text: pieces between newlines, without the piece after a newline that ends the
text. A carriage return is dropped only before a newline. -/
def lines (cs : List Char) : List (List Char) :=
  let pieces := splitAt '\n' cs
  match pieces.getLast? with
  | none => []
  | some last =>
    let ended := pieces.dropLast.map dropReturn
    if last.isEmpty then ended else ended ++ [last]

end SharedMemos.Text
