import SharedMemos.Error
import SharedMemos.Json.Printer
import SharedMemos.Json.Reader
import SharedMemos.Memo.Tag

/-!
# Targets of uploads

Where the bytes of an upload gather until it is complete. A target is written as one text: two marks
tell objects in a bucket from the path of a scratch file.
-/

namespace SharedMemos.Upload

/-- Where the bytes of an upload gather. -/
inductive Target where
  /-- A scratch file that the server fills chunk by chunk. -/
  | scratch (path : String)
  /-- An object that the client stores in one piece. -/
  | direct (key : String)
  /-- An object that the client stores in parts. -/
  | multipart (key uploadId : String) (partSize : Int)
deriving Repr, DecidableEq, Inhabited

namespace Target

/-- The name of the way in which the bytes come. -/
def mode : Target → String
  | .scratch _ => "local"
  | .direct _ => "s3_direct"
  | .multipart .. => "s3_multipart"

/-- What the text of an object stored in one piece starts with. -/
def directMark : String := "s3-direct:"

/-- What the text of an object stored in parts starts with. -/
def multipartMark : String := "s3-multipart:"

/-- The fields of an object stored in parts. -/
def multipartRecord : Json.Record Target :=
  multipart
    <$> .required "storage_key" Json.readString
    <*> .required "upload_id" Json.readString
    <*> .required "part_size" Json.readInt64

/-- The text of a target. -/
def encode : Target → String
  | .scratch path => path
  | .direct key => directMark ++ key
  | .multipart key uploadId partSize =>
    multipartMark
      ++ (Json.object [("storage_key", .string key), ("upload_id", .string uploadId),
        ("part_size", .int partSize)]).compress

/-- The target with a text. -/
def decode (text : String) : Except Error Target :=
  match Tag.after? directMark.toList text.toList with
  | some [] => .error (.internal "empty s3 direct storage key")
  | some key => .ok (.direct (String.ofList key))
  | none =>
    match Tag.after? multipartMark.toList text.toList with
    | some json =>
      match Json.readText multipartRecord.read (String.ofList json) with
      | .ok target => .ok target
      | .error _ => .error (.serialization "not a multipart upload")
    | none =>
      if text = "" then .error (.internal "upload session has no target")
      else .ok (.scratch text)

end Target

end SharedMemos.Upload
