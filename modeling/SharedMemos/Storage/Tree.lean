import SharedMemos.Bytes.Blob

/-!
# Directory trees

Files and directories below a root, each named by the list of names on the way to it. The root is
always there. A name has a limited length; going through a file, or through a name that is too long,
fails in another way than going through a name that is not there.
-/

namespace SharedMemos.Storage

/-- Files and directories below a root. -/
structure Tree where
  directories : List (List String) := []
  files : List (List String × Blob) := []
deriving Inhabited

/-- What a list of names leads to. -/
inductive Entry where
  | file (content : Blob)
  | directory
  /-- There is nothing. -/
  | missing
  /-- The way is barred by a file or by a name that is too long. -/
  | barred
deriving Inhabited

namespace Tree

/-- The most bytes in a name. -/
def maxName : Nat := 255

/-- Is the name too long? -/
def isLong (name : String) : Bool :=
  decide (maxName < name.utf8ByteSize)

/-- The content of the file at a list of names. -/
def file? (t : Tree) (names : List String) : Option Blob :=
  (t.files.find? (·.1 == names)).map (·.2)

/-- What the names `rest` lead to from the directory `base`. -/
def entryFrom (t : Tree) (base : List String) : List String → Entry
  | [] => .directory
  | name :: rest =>
    let here := base ++ [name]
    if isLong name then .barred
    else
      match t.file? here with
      | some content => if rest.isEmpty then .file content else .barred
      | none => if t.directories.contains here then t.entryFrom here rest else .missing

/-- What names lead to from the root. -/
def entry (t : Tree) (names : List String) : Entry :=
  t.entryFrom [] names

/-- Makes the directories `rest` below the directory `base`, one inside the other. Tells whether all
are there afterwards; those before the first failure stay. -/
def makeFrom (t : Tree) (base : List String) : List String → Bool × Tree
  | [] => (true, t)
  | name :: rest =>
    let here := base ++ [name]
    if isLong name || (t.file? here).isSome then (false, t)
    else if t.directories.contains here then t.makeFrom here rest
    else makeFrom { t with directories := here :: t.directories } here rest

/-- Makes directories one inside the other below the root. -/
def make (t : Tree) (names : List String) : Bool × Tree :=
  t.makeFrom [] names

/-- The tree without the file at names. -/
def removeFile (t : Tree) (names : List String) : Tree :=
  { t with files := t.files.filter (·.1 != names) }

/-- The tree with the content of the file at names. -/
def writeFile (t : Tree) (names : List String) (content : Blob) : Tree :=
  { t with files := (names, content) :: (t.removeFile names).files }

/-- Is there nothing inside the directory? -/
def isEmpty (t : Tree) (names : List String) : Bool :=
  let isInside (other : List String) : Bool := names.isPrefixOf other && other != names
  !(t.directories.any isInside || t.files.any fun file => isInside file.1)

/-- The tree without the directory, which stays if there is something inside it. -/
def removeDirectory (t : Tree) (names : List String) : Tree :=
  if t.isEmpty names then { t with directories := t.directories.filter (· != names) } else t

end Tree

end SharedMemos.Storage
