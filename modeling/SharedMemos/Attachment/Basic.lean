import SharedMemos.Json.Reader
import SharedMemos.Memo.Basic
import SharedMemos.Storage.Setting

/-!
# Attachments

An attachment is a file of a user, which may be linked to a memo. Its bytes are an object in a
store; attachments of one user with the same bytes may share the object. A draft is what a user says
to make an attachment in one request.
-/

namespace SharedMemos

/-- The small picture of an attachment. -/
structure Thumbnail where
  filename : String
  contentType : String
  size : Int
  storageKey : String
deriving Repr, DecidableEq

/-- An attachment. -/
structure Attachment where
  id : Int
  /-- The public half of its name. -/
  uid : String
  creator : UserId
  filename : String
  contentType : String
  size : Int
  /-- The digest that finds attachments with the same bytes. -/
  contentHash : String
  storage : Storage.Kind
  storageKey : String
  /-- The memo that it is linked to. -/
  memo : Option Int
  thumbnail : Option Thumbnail
  created : Instant
  updated : Instant
deriving Repr, DecidableEq

namespace Attachment

/-- Its resource name. -/
def name (a : Attachment) : String :=
  "attachments/" ++ a.uid

end Attachment

/-- An attachment to be made. -/
structure AttachmentDraft where
  filename : String
  /-- Told from the content where it is not given. -/
  contentType : Option String := none
  /-- The content in base 64. -/
  content : String
  /-- The memo to link the attachment to. -/
  memoName : Option String := none
deriving Repr, DecidableEq

/-- The fields of a draft. -/
def AttachmentDraft.record : Json.Record AttachmentDraft :=
  (fun filename contentType content memoName => ⟨filename, contentType, content, memoName⟩)
    <$> .required "filename" Json.readString
    <*> .withDefault "content_type" (Json.readOption Json.readString) none
    <*> .required "content" Json.readString
    <*> .withDefault "memo_name" (Json.readOption Json.readString) none

end SharedMemos
