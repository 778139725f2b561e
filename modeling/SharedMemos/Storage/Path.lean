import SharedMemos.Error
import SharedMemos.Text.Blank

/-!
# Paths of objects

A storage key is a path below the root of a store: names between slashes, where empty names and
single points count for nothing. A key that starts at the root of the system or that could climb out
of the store is refused.
-/

namespace SharedMemos.Storage

open SharedMemos.Text

/-- A path below the root of a store. -/
structure Path where
  /-- The names of the directories on the way. -/
  parents : List String
  /-- The last name. -/
  name : String
  /-- Does the key end with a slash or a point, as only the name of a directory may? -/
  isDirectory : Bool
deriving Repr, DecidableEq, Inhabited

namespace Path

/-- The names of the path, in order. -/
def names (p : Path) : List String :=
  p.parents ++ [p.name]

/-- Does a name stand for the place where it is written? -/
def isIdle (name : String) : Bool :=
  name == "" || name == "."

/-- The path that a key stands for, where it stands for one. -/
def ofKey? (key : String) : Option Path :=
  let pieces := splitOnChar '/' key
  if (pieces.head?.map isIdle).getD true || pieces.contains ".." || key.toList.contains '\\' then
    none
  else
    match (pieces.filter fun name => !isIdle name).reverse with
    | [] => none
    | name :: parents =>
      some
        { parents := parents.reverse, name := name
          isDirectory := (pieces.getLast?.map isIdle).getD false }

/-- The path that a key stands for. -/
def ofKey (key : String) : Except Error Path :=
  (InputFault.storageKey key).expect (ofKey? key)

/-- Can the system not use the name at all? -/
def isVoid (name : String) : Bool :=
  name.toList.contains '\x00'

end Path

end SharedMemos.Storage
