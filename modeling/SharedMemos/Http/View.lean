import SharedMemos.Attachment.Basic
import SharedMemos.Time.Timestamp
import SharedMemos.Upload.Session

/-!
# Views

What clients see of the values that the server keeps, as JSON. Storage keys are not shown.
-/

namespace SharedMemos.Http

open SharedMemos.Upload

/-- The entry of a value that may be missing. -/
def optional {α : Type} (key : String) (view : α → Json) (value : Option α) :
    List (String × Json) :=
  value.toList.map fun a => (key, view a)

/-- A list of texts. -/
def texts (ss : List String) : Json :=
  .array (ss.map .string)

/-- A time. -/
def time (t : Instant) : Json :=
  .string t.toText

/-- The flags of a content. -/
def propertyView (p : Property) : Json :=
  .object
    [("has_link", .bool p.hasLink), ("has_task_list", .bool p.hasTaskList),
      ("has_code", .bool p.hasCode), ("has_incomplete_tasks", .bool p.hasIncompleteTasks)]

/-- The fields of a memo. -/
def memoFields (m : Memo) : List (String × Json) :=
  [("id", .int m.id), ("uid", .string m.uid), ("creator_id", .int m.creator),
    ("content", .string m.content), ("visibility", .string m.visibility.name),
    ("state", .string m.state.name), ("pinned", .bool m.pinned), ("create_time", time m.created),
    ("update_time", time m.updated)]
    ++ optional "location" Location.toJson m.location
    ++ [("tags", texts m.tags), ("property", propertyView m.property)]

/-- A memo with its name. -/
def memoView (m : Memo) : Json :=
  .object (("name", .string m.name) :: memoFields m)

/-- A change event. -/
def eventView (e : ChangeEvent) : Json :=
  .object
    [("id", .int e.id), ("memo_id", .int e.memoId), ("memo_name", .string e.memoName),
      ("creator_id", .int e.creator), ("event_type", .string e.kind.name),
      ("event_time", time e.time), ("recipients", .array (e.recipients.map .int))]

/-- A thumbnail. -/
def thumbnailView (t : Thumbnail) : Json :=
  .object
    [("filename", .string t.filename), ("content_type", .string t.contentType),
      ("size", .int t.size)]

/-- An attachment with its name. -/
def attachmentView (a : Attachment) : Json :=
  .object <|
    [("name", .string a.name), ("id", .int a.id), ("uid", .string a.uid),
      ("creator_id", .int a.creator), ("filename", .string a.filename),
      ("content_type", .string a.contentType), ("size", .int a.size),
      ("content_hash", .string a.contentHash), ("storage_type", .string a.storage.name)]
      ++ optional "memo_id" .int a.memo
      ++ optional "thumbnail" thumbnailView a.thumbnail
      ++ [("create_time", time a.created), ("update_time", time a.updated)]

/-- How far an upload is. -/
def progressView (p : Progress) : Json :=
  .object <|
    [("session_id", .string p.session), ("mode", .string p.mode), ("size", .int p.size),
      ("received_size", .int p.received)]
      ++ optional "part_size" .int p.partSize
      ++ optional "next_part_number" .int p.nextPart

end SharedMemos.Http
