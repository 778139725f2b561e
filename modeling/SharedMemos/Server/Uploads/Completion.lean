import SharedMemos.Bytes.Sha256
import SharedMemos.Server.Uploads.Session

/-!
# Completing uploads

When all declared bytes have been received, an upload becomes an attachment. Bytes that the server
has seen are told apart by their digest, and may turn out to be those of an object that the user
already has; objects that the client has stored bear a digest that names the upload instead.
-/

namespace SharedMemos.Server

open SharedMemos.Text SharedMemos.Storage SharedMemos.Upload SharedMemos.Bytes

/-- The digest of an object that the server has never read. It is the digest of a text that names
the upload. -/
def syntheticHash (user : UserId) (upload key : String) (size : Int) (parts : List Part) : String :=
  let head := "s3-upload:" ++ showInt user ++ ":" ++ upload ++ ":" ++ key ++ ":" ++ showInt size
  let describe (p : Part) : String :=
    ":" ++ showInt p.number ++ "-" ++ showInt p.size ++ "-" ++ p.etag
  sha256Hex (String.join (head :: parts.map describe)).toUTF8

/-- An object for a new attachment. -/
structure Gathered where
  backend : Backend
  hash : String
  key : String
  /-- Was it stored for the attachment by the server? -/
  isFresh : Bool

/-- Refuses to complete an upload that has not received all declared bytes. -/
def checkReceived (session : Session) (received : Int) : Action Unit := do
  if received ≠ session.size then throw (.uploadIncomplete received session.size)

/-- Makes the object of a session's scratch file, or finds one with the same bytes. -/
def gatherScratch (session : Session) (setting : Setting) (path : String) : Action Gathered := do
  checkReceived session session.received
  let content ← readScratch path
  checkReceived session content.size
  let hash := sha256Hex content.bytes
  let backend ← backendForNew setting
  match ← reusableKey backend session.creator hash with
  | some key => return ⟨backend, hash, key, false⟩
  | none =>
    let key ← allocateKey backend session.filename
    let stream ← readScratch path
    let _ ← backend.putStream key stream session.size.toNat
    return ⟨backend, hash, key, true⟩

/-- The size of the object at a key; none is as good as an empty one. -/
def storedSize (backend : Backend) (key : String) : Action Int := do
  match ← (backend.head key).outcome with
  | .ok size => return size
  | .error (.notFound _) => return 0
  | .error e => throw e

/-- Makes sure of the object that the client has stored. -/
def gatherObject (session : Session) (setting : Setting) (key : String) : Action Gathered := do
  let backend ← backendFor .bucket setting
  checkReceived session (← storedSize backend key)
  return ⟨backend, syntheticHash session.creator session.id key session.size [], key, false⟩

/-- Joins the parts that the client has sent. -/
def gatherParts (session : Session) (setting : Setting) (key upload : String) :
    Action Gathered := do
  let backend ← backendFor .bucket setting
  let parts := contiguous (← backend.listParts key upload)
  checkReceived session (totalSize parts)
  backend.completeUpload key upload parts
  return ⟨backend, syntheticHash session.creator upload key session.size parts, key, false⟩

/-- Makes one object of what a session has gathered. -/
def gather (session : Session) (setting : Setting) : Action Gathered :=
  match session.target with
  | .scratch path => gatherScratch session setting path
  | .direct key => gatherObject session setting key
  | .multipart key upload _ => gatherParts session setting key upload

/-- Is there a scratch file at a path? -/
def hasScratchFile (path : String) : Action Bool :=
  Attempt.look fun s =>
    match s.scratch? path with
    | some (.file _) => true
    | _ => false

/-- The picture for the thumbnail of a session's attachment: the one that the client has sent for
it, or the file itself. -/
def pictureSource (session : Session) : Action PictureSource := do
  let own : PictureSource :=
    match session.target with
    | .scratch path => .scratch path Limit.thumbnailSource
    | _ => .stored
  match session.thumbnailPath with
  | some path => return if ← hasScratchFile path then .scratch path Limit.thumbnailUpload else own
  | none => return own

/-- Removes the scratch files of a session that is done with. -/
def discardScratch (session : Session) : Action Unit := do
  match session.target with
  | .scratch path => (removeScratch path).tolerate
  | _ => pure ()
  (releaseThumbnail session).tolerate

/-- Completes an upload into an attachment. -/
def completeSession (viewer : Viewer) (id : String) : Action Attachment := do
  let session ← ownSession viewer id
  let setting ← storageSetting
  let memo ← memoLink session.creator session.memoName
  let object ← gather session setting
  let a ← insertAttachment object.backend
    (newAttachment session.creator session.filename session.contentType session.size object.hash
      object.backend.kind object.key memo) object.isFresh
  let source ← pictureSource session
  let a ← withThumbnail a setting source
  let _ ← transact (Database.deleteSession session.id)
  discardScratch session
  return a

end SharedMemos.Server
