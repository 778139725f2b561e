import SharedMemos.Server.Attachments

/-!
# Sessions of uploads

An upload goes on over several requests. Its bytes gather in a scratch file that the server fills
chunk by chunk, or in an object store that the client sends them to itself, in one piece or in
parts. A session is only known to the user who opened it.

When a session ends, its row goes first, so that it is never seen again; what it has gathered is
released afterwards.
-/

namespace SharedMemos.Server

open SharedMemos.Storage SharedMemos.Upload

/-- The complaint that there is no session with a name. -/
def sessionMissing (id : String) : Error :=
  .notFound ("upload session " ++ id)

/-- A session of the viewer. -/
def ownSession (viewer : Viewer) (id : String) : Action Session := do
  let user ← attachmentUser viewer
  match (← query (·.session? id)).filter (·.creator == user) with
  | some s => return s
  | none => throw (sessionMissing id)

/-- The store that uploads by clients go to. -/
def clientStore : Action Backend := do
  backendFor .bucket (← storageSetting)

/-- Removes an object stored by a client, unless an attachment has it. -/
def releaseObject (key : String) : Action Unit := do
  if ← query (·.usesKey key) then return
  let backend ← clientStore
  backend.delete key

/-- Gives an upload in parts up. -/
def abortParts (key upload : String) : Action Unit := do
  let backend ← clientStore
  backend.abortUpload key upload

/-- Releases what an upload has gathered. -/
def releaseTarget : Target → Action Unit
  | .scratch path => removeScratch path
  | .direct key => releaseObject key
  | .multipart key upload _ => abortParts key upload

/-- Removes the picture sent for a thumbnail. -/
def releaseThumbnail (s : Session) : Action Unit :=
  match s.thumbnailPath with
  | some path => removeScratch path
  | none => return

/-- Releases all that a session holds. Everything is tried; the first failure is reported. -/
def releaseSession (s : Session) : Action Unit := do
  let thumbnail ← (releaseThumbnail s).outcome
  let target ← (releaseTarget s.target).outcome
  Attempt.ofExcept (thumbnail >>= fun _ => target)

/-- Cancels an upload. -/
def cancelSession (viewer : Viewer) (id : String) : Action Unit := do
  let session ← ownSession viewer id
  if !(← transact (Database.deleteSession session.id)) then throw (sessionMissing id)
  (releaseSession session).tolerate

end SharedMemos.Server
