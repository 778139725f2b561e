import SharedMemos.Json.Reader
import SharedMemos.Memo.Basic
import SharedMemos.Upload.Target

/-!
# Upload sessions

An upload that goes on over several requests, and what a user says to open a session and to be told
where to send the next part.
-/

namespace SharedMemos.Upload

/-- An upload session. -/
structure Session where
  id : String
  creator : UserId
  filename : String
  contentType : String
  /-- The declared size. -/
  size : Int
  /-- The memo that the attachment is to be linked to. -/
  memoName : Option String
  target : Target
  /-- How much of a scratch file has been received. -/
  received : Int
  /-- The scratch file of a picture sent for the thumbnail. -/
  thumbnailPath : Option String
  created : Instant
  updated : Instant
deriving Repr, DecidableEq

/-- How far an upload is. -/
structure Progress where
  session : String
  mode : String
  size : Int
  received : Int
  partSize : Option Int
  nextPart : Option Int
deriving Repr, DecidableEq

namespace Session

/-- The progress that the session itself records. -/
def progress (s : Session) : Progress :=
  let start : Progress := ⟨s.id, s.target.mode, s.size, 0, none, none⟩
  match s.target with
  | .scratch _ => { start with received := s.received }
  | .direct _ => start
  | .multipart _ _ partSize => { start with partSize := some partSize, nextPart := some 1 }

end Session

/-! ### Requests -/

/-- A session to be opened. -/
structure SessionDraft where
  filename : String
  contentType : Option String := none
  /-- The declared size. -/
  size : Int
  /-- The memo to link the attachment to. -/
  memoName : Option String := none
deriving Repr, DecidableEq

/-- The fields of a session to be opened. -/
def SessionDraft.record : Json.Record SessionDraft :=
  (fun filename contentType size memoName => ⟨filename, contentType, size, memoName⟩)
    <$> .required "filename" Json.readString
    <*> .withDefault "content_type" (Json.readOption Json.readString) none
    <*> .required "size" Json.readInt64
    <*> .withDefault "memo_name" (Json.readOption Json.readString) none

/-- A part that a client wants to send. -/
structure PartRequest where
  /-- How much the client takes to be received. -/
  offset : Int
  number : Int
  size : Int
deriving Repr, DecidableEq

/-- The fields of a part that a client wants to send. -/
def PartRequest.record : Json.Record PartRequest :=
  (fun offset number size => ⟨offset, number, size⟩)
    <$> .required "expected_offset" Json.readInt64
    <*> .required "part_number" Json.readInt32
    <*> .required "size" Json.readInt64

end SharedMemos.Upload
