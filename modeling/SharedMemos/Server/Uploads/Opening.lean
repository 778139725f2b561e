import SharedMemos.Server.Uploads.Session
import SharedMemos.Upload.Session

/-!
# Opening uploads

A session is opened with room for its bytes. If its row cannot be added, the room is given up
again.
-/

namespace SharedMemos.Server

open SharedMemos.Storage SharedMemos.Upload

/-- A session that has just been opened. -/
structure Ticket where
  session : Session
  /-- Where the client is to store the object. -/
  address : Option String

/-- Makes room for the bytes of an upload: a scratch file of the declared size, or an upload in
parts, or an address for the object where the store takes no parts. -/
def openTarget (backend : Backend) (id filename contentType : String) (size : Int) :
    Action (Target × Option String) := do
  if backend.isDirect then
    let key ← allocateKey backend filename
    match ← (backend.createUpload key).outcome with
    | .ok upload => return (.multipart key upload Limit.partSize, none)
    | .error (.unsupported _) =>
      let address ← backend.signPut key contentType Limit.signedLifetime
      return (.direct key, some address)
    | .error e => throw e
  else
    let directory ← Attempt.look (·.scratchDirectory)
    let path := scratchPath directory id ".part"
    writeScratch path (.ofZeros size.toNat)
    return (.scratch path, none)

/-- Opens an upload session. -/
def createSession (viewer : Viewer) (draft : SessionDraft) : Action Ticket := do
  let user ← attachmentUser viewer
  let filename ← Attempt.ofExcept (Filename.validate draft.filename)
  let setting ← storageSetting
  if draft.size ≤ 0 then throw (.invalidInput .sizeNotPositive)
  checkLimit setting draft.size
  let memoName := nonblank draft.memoName
  let _ ← memoLink user memoName
  let contentType := ContentType.choose draft.contentType none
  let id ← drawName Limit.sessionIdLength
  let backend ← backendForNew setting
  let (target, address) ← openTarget backend id filename contentType draft.size
  let time ← now
  let session : Session :=
    { id := id, creator := user, filename := filename, contentType := contentType
      size := draft.size, memoName := memoName, target := target, received := 0
      thumbnailPath := none, created := time, updated := time }
  match ← (transact (Database.insertSession session)).outcome with
  | .ok () => return ⟨session, address⟩
  | .error e =>
    (releaseSession session).tolerate
    throw e

end SharedMemos.Server
