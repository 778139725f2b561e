import SharedMemos.Attachment.ContentType
import SharedMemos.Image.Thumbnail
import SharedMemos.Server.Objects

/-!
# Thumbnails of attachments

An attachment that is a picture gets a thumbnail. Attachments that share an object share its
thumbnail. An attachment is as good without one: whatever fails here, it stays as it is.
-/

namespace SharedMemos.Server

open SharedMemos.Storage

/-- Where the picture for a thumbnail comes from. -/
inductive PictureSource where
  /-- It is at hand. -/
  | received (content : Blob)
  /-- A scratch file, if it is not larger than `most`. -/
  | scratch (path : String) (most : Nat)
  /-- The object of the attachment. -/
  | stored

/-- The content, if it is not larger than `most`. -/
def atMost (most : Nat) (content : Blob) : Option Blob :=
  if most < content.size then none else some content

/-- The picture for a thumbnail, if it is not too large. -/
def loadPicture (a : Attachment) (backend : Backend) : PictureSource → Action (Option Blob)
  | .received content => return atMost Limit.thumbnailSource content
  | .scratch path most => return atMost most (← readScratch path)
  | .stored => do
    if Limit.thumbnailSource < a.size then return none
    return atMost Limit.thumbnailSource (← backend.open a.storageKey)

/-- Records a thumbnail in the row of an attachment. -/
def recordThumbnail (a : Attachment) (thumbnail : Thumbnail) : Action Unit :=
  transactNow (Database.setThumbnail a.id thumbnail)

/-- Makes a thumbnail of a picture and stores it. -/
def storeThumbnail (a : Attachment) (backend : Backend) (content : Blob) : Action Thumbnail := do
  let picture ← Attempt.ofExcept (Image.thumbnail content)
  let key := Filename.thumbnailKey a.storageKey
  let size ← backend.put key (.ofBytes picture.toJpeg)
  let thumbnail : Thumbnail := ⟨Filename.thumbnail a.filename, ContentType.jpeg, size, key⟩
  recordThumbnail a thumbnail
  return thumbnail

/-- The thumbnail of an attachment: the one of another attachment with the same object, or a new
one. -/
def findThumbnail (a : Attachment) (setting : Setting) (source : PictureSource) :
    Action (Option Thumbnail) := do
  match ← query (·.sharedThumbnail? a.storage a.storageKey) with
  | some thumbnail =>
    recordThumbnail a thumbnail
    return some thumbnail
  | none =>
    let backend ← backendFor a.storage setting
    match ← loadPicture a backend source with
    | some content => return some (← storeThumbnail a backend content)
    | none => return none

/-- The attachment with a thumbnail, if it is a picture that one can be made of. -/
def withThumbnail (a : Attachment) (setting : Setting) (source : PictureSource) :
    Action Attachment := do
  if a.thumbnail.isSome || !ContentType.isPicture a.contentType a.filename then return a
  match ← (findThumbnail a setting source).outcome with
  | .ok (some thumbnail) => return { a with thumbnail := some thumbnail }
  | _ => return a

end SharedMemos.Server
