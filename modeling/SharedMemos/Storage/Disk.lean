import SharedMemos.Storage.Path
import SharedMemos.Storage.Tree
import SharedMemos.Text.Numeral

/-!
# Objects in a directory

A store that keeps each object as a file at the path of its key. An object is written to a temporary
file beside it and then moved into place, so that an object is replaced as a whole or not at all;
directories that were made for it stay even where writing fails.
-/

namespace SharedMemos.Storage.Disk

open SharedMemos.Text

/-- How many bytes the name of a temporary file is longer than the name of its object. -/
def temporaryMark : Nat := 18

/-- A failure of the system. -/
def systemFailure : Error :=
  .io "the system refused"

/-- Writes an object to a temporary file and moves it into place, unless `fault` is found between
the two. -/
def commit (t : Tree) (p : Path) (content : Blob) (fault : Option Error) :
    Except Error Unit × Tree :=
  if p.parents.any Path.isVoid then (.error systemFailure, t)
  else
    let (isMade, t) := t.make p.parents
    if !isMade || Path.isVoid p.name || Tree.maxName < p.name.utf8ByteSize + temporaryMark then
      (.error systemFailure, t)
    else
      match fault with
      | some e => (.error e, t)
      | none =>
        if p.isDirectory then (.error systemFailure, t)
        else
          match t.entry p.names with
          | .directory | .barred => (.error systemFailure, t)
          | .file _ | .missing => (.ok (), t.writeFile p.names content)

/-- Stores an object; gives its size. -/
def put (t : Tree) (key : String) (content : Blob) : Except Error Nat × Tree :=
  match Path.ofKey key with
  | .error e => (.error e, t)
  | .ok p =>
    let (result, t) := commit t p content none
    (result.map fun _ => content.size, t)

/-- The complaint about a stream that is not as long as declared. -/
def sizeMismatch (key : String) (declared found : Nat) : Error :=
  .storage ("stream size mismatch for " ++ key ++ ": declared " ++ showNat declared ++ ", read "
    ++ showNat found)

/-- Stores an object of a declared size from a stream, of which at most one byte more is read. -/
def putStream (t : Tree) (key : String) (stream : Blob) (declared : Nat) :
    Except Error Nat × Tree :=
  match Path.ofKey key with
  | .error e => (.error e, t)
  | .ok p =>
    let found := stream.take ((declared + 1) % wordCount64)
    let fault :=
      if found.size = declared then none else some (sizeMismatch key declared found.size)
    let (result, t) := commit t p found fault
    (result.map fun _ => declared, t)

/-- What the system finds at a path. -/
def find (t : Tree) (p : Path) : Entry :=
  if p.names.any Path.isVoid then .barred
  else
    match t.entry p.names with
    | .file content => if p.isDirectory then .barred else .file content
    | entry => entry

/-- The content of an object. -/
def «open» (t : Tree) (key : String) : Except Error Blob := do
  let p ← Path.ofKey key
  match find t p with
  | .file content => return content
  | .missing => throw (.notFound ("object " ++ key))
  | .directory | .barred => throw systemFailure

/-- The bytes of an object from the first to the last, or to its end. -/
def openRange (t : Tree) (key : String) (first : Nat) (last : Option Nat) : Except Error Blob := do
  if (last.map fun n => decide (n < first)).getD false then
    throw (.invalidInput (.reversedRange first (last.getD 0)))
  let content ← Disk.open t key
  if maxInt64 < first then throw systemFailure
  let tail := content.drop first
  match last with
  | some last => return tail.take ((last - first + 1) % wordCount64)
  | none => return tail

/-- Removes an object, which need not be there. -/
def delete (t : Tree) (key : String) : Except Error Unit × Tree :=
  match Path.ofKey key with
  | .error e => (.error e, t)
  | .ok p =>
    match find t p with
    | .file _ => (.ok (), t.removeFile p.names)
    | .missing => (.ok (), t)
    | .directory | .barred => (.error systemFailure, t)

/-- Is there something at a key? -/
def exists? (t : Tree) (key : String) : Except Error Bool := do
  let p ← Path.ofKey key
  match find t p with
  | .file _ | .directory => return true
  | .missing => return false
  | .barred => throw systemFailure

/-- The directory of the trial. -/
def trialDirectory : List String := [".health-check"]

/-- The file of the trial. -/
def trialFile : List String := trialDirectory ++ ["test.bin"]

/-- Tries whether files can be written, read and removed. -/
def validate (t : Tree) : Bool × Tree :=
  let (isMade, t) := t.make trialDirectory
  if !isMade then (false, t)
  else
    match t.entry trialFile with
    | .file _ | .missing => (true, (t.removeFile trialFile).removeDirectory trialDirectory)
    | .directory | .barred => (false, t)

end SharedMemos.Storage.Disk
