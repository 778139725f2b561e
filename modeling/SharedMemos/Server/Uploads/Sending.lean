import SharedMemos.Server.Uploads.Session
import SharedMemos.Upload.Session

/-!
# Sending the bytes of uploads

Chunks and parts come in order: a chunk goes where the last one ended, and a part follows the parts
that the store has without a gap. A client that takes the upload to be elsewhere is told where it
is.
-/

namespace SharedMemos.Server

open SharedMemos.Storage SharedMemos.Upload

/-- Writes a chunk at the offset that has been reached. -/
def appendChunk (viewer : Viewer) (id : String) (offset : Int) (chunk : ByteArray) :
    Action Progress := do
  let session ← ownSession viewer id
  match session.target with
  | .scratch path =>
    if offset ≠ session.received then throw (.offsetMismatch offset session.received)
    if chunk.isEmpty then throw (.invalidInput .emptyChunk)
    let reached := offset + chunk.size
    if session.size < reached then
      throw (.invalidInput (.chunkBeyondSize chunk.size offset session.size))
    writeScratchAt path offset.toNat chunk
    if ← transactNow (Database.advanceSession id offset reached) then
      return { session.progress with received := reached }
    match ← query (·.session? id) with
    | some current => throw (.offsetMismatch offset current.received)
    | none => throw (sessionMissing id)
  | target => throw (.invalidInput (.noChunks target.mode))

/-- The parts of a session that the store has received. -/
def receivedParts (key upload : String) : Action (List Part) := do
  let backend ← clientStore
  backend.listParts key upload

/-- How far an upload is. -/
def uploadProgress (viewer : Viewer) (id : String) : Action Progress := do
  let session ← ownSession viewer id
  match session.target with
  | .multipart key upload _ =>
    let parts := contiguous (← receivedParts key upload)
    return { session.progress with
      received := totalSize parts, nextPart := some (parts.length + 1) }
  | _ => return session.progress

/-- An address for a part of an upload. -/
structure PartAddress where
  address : String
  number : Int
  offset : Int
  size : Int
deriving Repr, DecidableEq

/-- Checks a part against the parts that have been received: it must be the next one, it must not go
beyond the declared size, and only the last one may be small. Gives the offset of the part. -/
def checkPart (session : Session) (parts : List Part) (part : PartRequest) : Except Error Int := do
  let received := totalSize parts
  if part.number ≠ parts.length + 1 ∨ part.offset ≠ received then
    throw (.offsetMismatch part.offset received)
  let reached := wrapInt64 (received + part.size)
  if session.size < reached then
    throw (.invalidInput (.partBeyondSize part.size received session.size))
  if reached ≠ session.size ∧ part.size < Limit.minPartSize then
    throw (.invalidInput (.partTooSmall Limit.minPartSize))
  return received

/-- An address where the client may send the next part. -/
def partAddress (viewer : Viewer) (id : String) (part : PartRequest) : Action PartAddress := do
  let session ← ownSession viewer id
  match session.target with
  | .multipart key upload _ =>
    if part.number < 1 ∨ (Limit.maxPartNumber : Int) < part.number then
      throw (.invalidInput (.partNumber part.number))
    if part.size ≤ 0 then throw (.invalidInput .partNotPositive)
    let backend ← clientStore
    let parts := contiguous (← backend.listParts key upload)
    let offset ← Attempt.ofExcept (checkPart session parts part)
    let address ← backend.signPart key upload part.number Limit.signedLifetime
    let _ ← transactNow (Database.touchSession id)
    return ⟨address, part.number, offset, part.size⟩
  | target => throw (.invalidInput (.noParts target.mode))

/-- Keeps a picture that the client sends for the thumbnail. -/
def sendThumbnail (viewer : Viewer) (id : String) (picture : Blob) : Action Unit := do
  let session ← ownSession viewer id
  if picture.size = 0 then throw (.invalidInput .emptyThumbnail)
  if Limit.thumbnailUpload < picture.size then
    throw (.invalidInput (.thumbnailTooLarge Limit.thumbnailUpload))
  let directory ← Attempt.look (·.scratchDirectory)
  let path := scratchPath directory session.id ".thumb"
  writeScratch path picture
  if !(← transactNow (Database.setThumbnailPath session.id path)) then
    removeScratch path
    throw (sessionMissing id)

end SharedMemos.Server
