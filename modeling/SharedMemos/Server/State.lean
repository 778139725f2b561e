import SharedMemos.Server.Database.Attachments
import SharedMemos.Server.Database.Memos
import SharedMemos.Server.Database.Sessions
import SharedMemos.Server.Database.Settings
import SharedMemos.Server.Job
import SharedMemos.Storage.ObjectStore
import SharedMemos.Storage.Resolver

/-!
# The state of the server

Everything that requests work on: the database, the stores, the scratch files of uploads, and where
times and random names come from.
-/

namespace SharedMemos.Server

open SharedMemos.Storage

/-- Where times and random names come from. -/
structure Source where
  /-- The time at each look at the clock. -/
  time : Nat → Instant
  /-- The name of a length that comes with each draw. -/
  name : Nat → Nat → String

instance : Inhabited Source := ⟨⟨fun _ => .epoch, fun _ _ => ""⟩⟩

/-- What stands at a path of a scratch file. -/
inductive Scratch where
  | file (content : Blob)
  /-- A directory, where no file can be. -/
  | directory
deriving Inhabited

/-- The state of the server. -/
structure State where
  database : Database := {}
  resolver : Resolver := {}
  /-- The objects in the directory of the server. -/
  disk : Tree := {}
  /-- The objects of the store that the server may be tied to. -/
  store : ObjectStore := {}
  /-- Where scratch files are. -/
  scratchDirectory : String := "uploads"
  scratch : List (String × Scratch) := []
  source : Source
  /-- How often the clock was looked at. -/
  looks : Nat := 0
  /-- How many names were drawn. -/
  draws : Nat := 0
deriving Inhabited

/-- What a request does. -/
abbrev Action (α : Type) := Attempt State α

namespace State

/-- What stands at a path of a scratch file. -/
def scratch? (s : State) (path : String) : Option Scratch :=
  (s.scratch.find? (·.1 == path)).map (·.2)

/-- The state without what stands at a path. -/
def withoutScratch (s : State) (path : String) : State :=
  { s with scratch := s.scratch.filter (·.1 != path) }

/-- The state with something at a path. -/
def withScratch (s : State) (path : String) (content : Scratch) : State :=
  { s with scratch := (path, content) :: (s.withoutScratch path).scratch }

end State

/-- Looks at the clock. -/
def now : Action Instant :=
  Attempt.atomic fun s => (.ok (s.source.time s.looks), { s with looks := s.looks + 1 })

/-- Draws a random name. -/
def drawName (length : Nat) : Action String :=
  Attempt.atomic fun s => (.ok (s.source.name s.draws length), { s with draws := s.draws + 1 })

/-- Looks at the database. -/
def query {α : Type} (f : Database → α) : Action α :=
  Attempt.look fun s => f s.database

/-- Carries out a transaction. -/
def transact {α : Type} (t : Transaction α) : Action α :=
  Attempt.atomic fun s =>
    match t.run s.database with
    | .ok (a, d) => (.ok a, { s with database := d })
    | .error e => (.error e, s)

/-- Looks at the clock and then carries out a transaction that writes down the time. -/
def transactNow {α : Type} (t : Instant → Transaction α) : Action α := do
  let time ← now
  transact (t time)

/-! ### Scratch files -/

/-- The complaint about a scratch file that is not there, or is a directory. -/
def scratchFailure : Error :=
  .io "no such scratch file"

/-- The content of a scratch file. -/
def readScratch (path : String) : Action Blob := do
  match ← Attempt.look (fun s => s.scratch? path) with
  | some (.file content) => return content
  | _ => throw scratchFailure

/-- Writes a scratch file from its start. -/
def writeScratch (path : String) (content : Blob) : Action Unit :=
  Attempt.atomic fun s =>
    match s.scratch? path with
    | some .directory => (.error scratchFailure, s)
    | _ => (.ok (), s.withScratch path (.file content))

/-- Writes bytes into a scratch file. -/
def writeScratchAt (path : String) (offset : Nat) (bytes : ByteArray) : Action Unit :=
  Attempt.atomic fun s =>
    match s.scratch? path with
    | some (.file content) => (.ok (), s.withScratch path (.file (content.write offset bytes)))
    | _ => (.error scratchFailure, s)

/-- Removes a scratch file, which need not be there. -/
def removeScratch (path : String) : Action Unit :=
  Attempt.atomic fun s =>
    match s.scratch? path with
    | some .directory => (.error scratchFailure, s)
    | _ => (.ok (), s.withoutScratch path)

/-- The path of a scratch file of a session. -/
def scratchPath (directory session mark : String) : String :=
  directory ++ "/" ++ session ++ mark

end SharedMemos.Server
