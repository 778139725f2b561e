import SharedMemos.Attachment.Basic
import SharedMemos.Attachment.Range
import SharedMemos.Bytes.Base64
import SharedMemos.Bytes.Sha256
import SharedMemos.Server.Memos
import SharedMemos.Server.Thumbnails

/-!
# Requests about attachments

Making an attachment in one request, reading it and deleting it. A user's files with the same bytes
are one object: a new attachment takes over the object of an earlier one with the same digest if
that object is still there. An object is removed with the last attachment that has it.
-/

namespace SharedMemos.Server

open SharedMemos.Text SharedMemos.Storage SharedMemos.Bytes

/-- The user of a request about attachments. -/
def attachmentUser (viewer : Viewer) : Action UserId :=
  signedIn "attachments require a signed-in user" viewer

/-- The trimmed text, if it is not blank. -/
def nonblank (text : Option String) : Option String :=
  (text.map trim).filter (· ≠ "")

/-- The number of the memo to link an attachment to. The user must be one who may change the
memo. -/
def memoLink (user : UserId) (memoName : Option String) : Action (Option Int) := do
  match nonblank memoName with
  | none => return none
  | some name =>
    let uid ← Attempt.ofExcept (Collection.memos.uidOf name)
    return some (← modifiableMemo user uid).id

/-- Refuses a size over the limit of the workspace. -/
def checkLimit (setting : Setting) (size : Int) : Action Unit := do
  if setting.limitBytes < size then
    throw (.invalidInput (.overLimit size setting.megabytes))

/-- A storage key that no attachment and no object has; `attempts` names are tried. -/
def freeKey (backend : Backend) (filename : String) : (attempts : Nat) → Action String
  | 0 => throw <| .internal
      ("no free storage key after " ++ showNat Limit.keyAttempts ++ " attempts")
  | attempts + 1 => do
    let key := Filename.storageKey (← drawName Limit.keyLength) filename
    if ← query (·.usesKey key) then freeKey backend filename attempts
    else if ← backend.exists? key then freeKey backend filename attempts
    else return key

/-- A fresh storage key for a file. -/
def allocateKey (backend : Backend) (filename : String) : Action String :=
  freeKey backend filename Limit.keyAttempts

/-- The key of an object with the same bytes that a user already has in a store, if it is still
there. -/
def reusableKey (backend : Backend) (user : UserId) (hash : String) : Action (Option String) := do
  match (← query (·.attachmentByHash? user hash)).filter (·.storage == backend.kind) with
  | none => return none
  | some existing =>
    let count ← query (·.countAt existing.storage existing.storageKey)
    if count = 0 then return none
    if ← backend.exists? existing.storageKey then return some existing.storageKey
    return none

/-- Adds the row of an attachment. An object that was stored for it is removed again if that
fails. -/
def insertAttachment (backend : Backend) (a : Attachment) (isFresh : Bool) : Action Attachment := do
  let uid ← drawName Limit.uidLength
  let insert (time : Instant) : Transaction Attachment :=
    Database.insertAttachment { a with uid := uid, created := time, updated := time }
  match ← (transactNow insert).outcome with
  | .ok a => return a
  | .error e =>
    if isFresh then (backend.delete a.storageKey).tolerate
    throw e

/-- An attachment whose row has not been added yet. -/
def newAttachment (user : UserId) (filename contentType : String) (size : Int) (hash : String)
    (kind : Kind) (key : String) (memo : Option Int) : Attachment where
  id := 0
  uid := ""
  creator := user
  filename := filename
  contentType := contentType
  size := size
  contentHash := hash
  storage := kind
  storageKey := key
  memo := memo
  thumbnail := none
  created := .epoch
  updated := .epoch

/-- Makes an attachment in one request. -/
def createAttachment (viewer : Viewer) (draft : AttachmentDraft) : Action Attachment := do
  let user ← attachmentUser viewer
  let filename ← Attempt.ofExcept (Filename.validate draft.filename)
  let bytes ← Attempt.ofExcept (InputFault.notBase64.expect (ofBase64? (trim draft.content)))
  let setting ← storageSetting
  checkLimit setting bytes.size
  let memo ← memoLink user draft.memoName
  let contentType := ContentType.choose draft.contentType (some bytes)
  let hash := sha256Hex bytes
  let backend ← backendForNew setting
  let content := Blob.ofBytes bytes
  let reused ← reusableKey backend user hash
  let key ←
    match reused with
    | some key => pure key
    | none => do
      let key ← allocateKey backend filename
      let _ ← backend.put key content
      pure key
  let a ← insertAttachment backend
    (newAttachment user filename contentType bytes.size hash backend.kind key memo) reused.isNone
  withThumbnail a setting (.received content)

/-- The complaint that there is no attachment with a uid. -/
def attachmentMissing (uid : String) : Error :=
  .notFound ("attachment " ++ uid)

/-- An attachment of the viewer, or one linked to a memo that the viewer sees. -/
def getAttachment (viewer : Viewer) (uid : String) : Action Attachment := do
  match ← query (·.attachmentByUid? uid) with
  | none => throw (attachmentMissing uid)
  | some a =>
    if viewer == some a.creator then return a
    match a.memo with
    | none => throw (attachmentMissing uid)
    | some id =>
      match ← query (·.memoById? id) with
      | some m => if m.isVisibleTo viewer then return a else throw (attachmentMissing uid)
      | none => throw (attachmentMissing uid)

/-- The attachments of the viewer, newest first. -/
def listAttachments (viewer : Viewer) : Action (List Attachment) := do
  let user ← attachmentUser viewer
  query (·.attachmentsBy user)

/-- A file on its way to a client. -/
inductive Download where
  | file (filename contentType : String) (total : Nat) (range : Option (Nat × Nat)) (content : Blob)
  /-- The client is to fetch the file from an address. -/
  | redirect (address : String)

/-- The file name, content type, size and storage key of what is to be sent: the thumbnail, if it is
wanted and there is one, or the file. -/
def downloadSource (a : Attachment) (wantsThumbnail : Bool) : String × String × Int × String :=
  match a.thumbnail.filter fun _ => wantsThumbnail with
  | some t => (t.filename, t.contentType, t.size, t.storageKey)
  | none => (a.filename, a.contentType, a.size, a.storageKey)

/-- Opens an attachment, or a range of it. -/
def openAttachment (viewer : Viewer) (uid : String) (range : Option ByteRange)
    (wantsThumbnail wantsRedirect : Bool) : Action Download := do
  let a ← getAttachment viewer uid
  let setting ← storageSetting
  let backend ← backendFor a.storage setting
  let (filename, contentType, size, key) := downloadSource a wantsThumbnail
  if wantsRedirect && backend.isDirect then
    return .redirect (← backend.signGet key Limit.signedLifetime)
  let total := size.toNat
  match range with
  | none => return .file filename contentType total none (← backend.open key)
  | some range =>
    let (first, last) ← Attempt.ofExcept (range.resolve total)
    let content ← backend.openRange key first (some last)
    return .file filename contentType total (some (first, last)) content

/-- The storage keys of an attachment's object and thumbnail. -/
def objectKeys (a : Attachment) : List String :=
  a.storageKey :: (a.thumbnail.map (·.storageKey)).toList

/-- Deletes an attachment, and with the last attachment that has it the object. -/
def deleteAttachment (viewer : Viewer) (uid : String) : Action Unit := do
  let user ← attachmentUser viewer
  match (← query (·.attachmentByUid? uid)).filter (·.creator == user) with
  | none => throw (attachmentMissing uid)
  | some a =>
    if !(← transact (Database.deleteAttachment a.id)) then throw (attachmentMissing uid)
    let remaining ← query (·.countAt a.storage a.storageKey)
    if remaining = 0 then
      let setting ← storageSetting
      let backend ← backendFor a.storage setting
      (objectKeys a).forM fun key => (backend.delete key).tolerate

end SharedMemos.Server
