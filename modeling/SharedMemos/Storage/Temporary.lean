import SharedMemos.Storage.Disk

/-!
# Temporary files

An object is written step by step: the directories on the way are made, the bytes go to a temporary
file beside the object, and the temporary file takes the place of the object. Its name carries a
mark that was drawn for it. Where the bytes turn out not to be wanted, the temporary file is removed;
where it cannot take the place of the object, it stays.
-/

namespace SharedMemos.Storage.Disk

/-- The name of a temporary file beside a file. -/
def temporaryName (name mark : String) : String :=
  "." ++ name ++ "." ++ mark ++ ".tmp"

/-- The path of a temporary file beside an object. -/
def temporaryNames (p : Path) (mark : String) : List String :=
  p.parents ++ [temporaryName p.name mark]

/-- Moves a file with the content of an object into its place. -/
def moveInto (t : Tree) (temporary : List String) (p : Path) (content : Blob) :
    Except Error Unit × Tree :=
  if p.isDirectory then (.error systemFailure, t)
  else
    match t.entry p.names with
    | .directory | .barred => (.error systemFailure, t)
    | .file _ | .missing => (.ok (), (t.removeFile temporary).writeFile p.names content)

/-- Writes an object to a temporary file with the mark in its name and moves it into place, unless
`fault` is found between the two. -/
def commitBeside (mark : String) (t : Tree) (p : Path) (content : Blob) (fault : Option Error) :
    Except Error Unit × Tree :=
  if p.parents.any Path.isVoid then (.error systemFailure, t)
  else
    let (isMade, t) := t.make p.parents
    if !isMade || Path.isVoid p.name then (.error systemFailure, t)
    else
      let temporary := temporaryNames p mark
      match t.entry temporary with
      | .directory | .barred => (.error systemFailure, t)
      | .file _ | .missing =>
        let t := t.writeFile temporary content
        match fault with
        | some e => (.error e, t.removeFile temporary)
        | none => moveInto t temporary p content

/-- Stores an object; gives its size. -/
def putBeside (mark : String) (t : Tree) (key : String) (content : Blob) :
    Except Error Nat × Tree :=
  match Path.ofKey key with
  | .error e => (.error e, t)
  | .ok p =>
    let (result, t) := commitBeside mark t p content none
    (result.map fun _ => content.size, t)

/-- Stores an object of a declared size from a stream, of which at most one byte more is read. -/
def putStreamBeside (mark : String) (t : Tree) (key : String) (stream : Blob) (declared : Nat) :
    Except Error Nat × Tree :=
  match Path.ofKey key with
  | .error e => (.error e, t)
  | .ok p =>
    let found := stream.take ((declared + 1) % Text.wordCount64)
    let fault :=
      if found.size = declared then none else some (sizeMismatch key declared found.size)
    let (result, t) := commitBeside mark t p found fault
    (result.map fun _ => declared, t)

end SharedMemos.Storage.Disk
