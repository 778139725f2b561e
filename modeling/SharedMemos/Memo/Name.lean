import SharedMemos.Error
import SharedMemos.Memo.Basic
import SharedMemos.Text.CharSet

/-!
# Resource names and written names

A resource is named by its collection and its uid, which is made of letters, digits, hyphens and
underscores.
-/

namespace SharedMemos

open SharedMemos.Text

/-- A collection of named resources. -/
inductive Collection where
  | memos
  | attachments
deriving Repr, DecidableEq

/-- What the names of the resources of a collection start with. -/
def Collection.mark : Collection → String
  | .memos => "memos/"
  | .attachments => "attachments/"

/-- May the character stand in a uid? -/
def isUidChar (c : Char) : Bool :=
  isAsciiAlphanumeric c || c == '-' || c == '_'

/-- The uid in the name of a resource. -/
def Collection.uidOf (c : Collection) (name : String) : Except Error String :=
  match Tag.after? c.mark.toList name.toList with
  | some (u :: us) =>
    if (u :: us).all isUidChar then .ok (String.ofList (u :: us))
    else .error (.invalidInput (.resourceName name))
  | _ => .error (.invalidInput (.resourceName name))

/-- The visibility with a written name, or the error that there is none. -/
def Visibility.parse (name : String) : Except Error Visibility :=
  (InputFault.unknownVisibility name).expect (ofName? name)

/-- The state with a written name, or the error that there is none. -/
def MemoState.parse (name : String) : Except Error MemoState :=
  (InputFault.unknownState name).expect (ofName? name)

/-- Refuses a point that lies nowhere on the globe. -/
def Location.validate (l : Location) : Except Error Unit :=
  if !l.latitude.isWithin 90 then .error (.invalidInput (.latitude l.latitude))
  else if !l.longitude.isWithin 180 then .error (.invalidInput (.longitude l.longitude))
  else .ok ()

end SharedMemos
