import SharedMemos.Error
import SharedMemos.Limit
import SharedMemos.Text.Blank
import SharedMemos.Text.CharSet

/-!
# File names

A file name is trimmed and names no directory. Its extension goes into the storage key of the file,
and so only a short alphanumeric one does.
-/

namespace SharedMemos.Filename

open SharedMemos.Text

/-- The trimmed file name. -/
def validate (name : String) : Except Error String :=
  let name := trim name
  if name = "" then .error (.invalidInput .noFilename)
  else if name.toList.any fun c => c == '/' || c == '\\' then
    .error (.invalidInput (.filename name))
  else .ok name

/-- The text before the last point of a name and the text after it, where there is a point. -/
def splitLast? (name : List Char) : Option (List Char × List Char) :=
  let ending := name.reverse.takeWhile (· != '.')
  match name.reverse.dropWhile (· != '.') with
  | [] => none
  | _ :: stem => some (stem.reverse, ending.reverse)

/-- The extension of a name with its point, in lower case: one to ten letters and digits after a
point that is not the first character. Any other name has the empty extension. -/
def extension (name : String) : String :=
  match splitLast? name.toList with
  | some (stem, ending) =>
    if stem ≠ [] ∧ ending ≠ [] ∧ ending.length ≤ 10 ∧ ending.all isAsciiAlphanumeric then
      asciiLower (String.ofList ('.' :: ending))
    else ""
  | none => ""

/-- The file name that a browser is told: characters that would end or escape the quoted text stand
as underscores, and so does all that is not ASCII. -/
def disposition (name : String) : String :=
  let isPlain (c : Char) : Bool :=
    decide (' ' ≤ c) && decide (c ≤ '~') && c != '"' && c != '\\'
  let safe := name.toList.map fun c => if isPlain c then c else '_'
  "inline; filename=\"" ++ String.ofList safe ++ "\""

/-- The file name of the thumbnail of a file. -/
def thumbnail (name : String) : String :=
  name ++ Limit.thumbnailMark

/-- The storage key of a file with a random part. -/
def storageKey (random name : String) : String :=
  "attachments/" ++ random ++ extension name

/-- The storage key of the thumbnail of the object at a key. -/
def thumbnailKey (key : String) : String :=
  key ++ Limit.thumbnailMark

end SharedMemos.Filename
