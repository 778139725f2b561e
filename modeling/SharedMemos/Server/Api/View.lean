import SharedMemos.Http.Failure
import SharedMemos.Http.View
import SharedMemos.Server.Config
import SharedMemos.Server.Uploads.Opening
import SharedMemos.Server.Uploads.Sending

/-!
# Views of answers

What clients see of the answers of the server. A header whose value cannot stand in a header is left
out.
-/

namespace SharedMemos.Server

open SharedMemos.Text SharedMemos.Http SharedMemos.Upload

/-- A page of memos. -/
def pageView (p : MemoPage) : Json :=
  .object [("memos", .array (p.memos.map memoView)), ("next_page_token", .string p.next)]

/-- What has changed. -/
def changesView (c : MemoChanges) : Json :=
  .object
    [("memos", .array (c.memos.map memoView)), ("deleted_memo_names", texts c.removed),
      ("sync_anchor", .string c.anchor.toText)]

/-- How many memos bear each tag. -/
def countsView (counts : List (String × Int)) : Json :=
  .object [("tag_count", .object (counts.map fun (tag, n) => (tag, .int n)))]

/-- A session that has just been opened. -/
def ticketView (t : Ticket) : Json :=
  .object <|
    [("id", .string t.session.id), ("filename", .string t.session.filename),
      ("content_type", .string t.session.contentType), ("size", .int t.session.size)]
      ++ optional "memo_name" .string t.session.memoName
      ++ [("progress", progressView t.session.progress)]
      ++ optional "upload_url" .string t.address

/-- An address for a part. -/
def partView (p : PartAddress) : Json :=
  .object
    [("upload_url", .string p.address), ("part_number", .int p.number), ("offset", .int p.offset),
      ("size", .int p.size)]

/-- The version of the server. -/
def version : String := "0.24.1"

/-- That the server is well. -/
def healthView : Json :=
  .object [("status", .string "healthy"), ("version", .string version)]

/-! ### Responses -/

/-- The response with how far an upload is. -/
def progressResponse (p : Progress) : Response :=
  (Response.ofJson 200 (progressView p)).withHeader offsetHeader (showInt p.received)

/-- A header of a response; none where its value cannot stand in a header. -/
def headerEntry (name value : String) : List (String × String) :=
  if Config.isHeaderText value then [(name, value)] else []

/-- The response with a file, or with where to find it. -/
def downloadResponse : Download → Response
  | .redirect address => (Response.ofStatus 307).withHeader "location" address
  | .file filename contentType total range content =>
    let length := (range.map fun (first, last) => last - first + 1).getD total
    let rangeText (r : Nat × Nat) : String :=
      "bytes " ++ showNat r.1 ++ "-" ++ showNat r.2 ++ "/" ++ showNat total
    let headers :=
      [("content-length", showNat length), ("accept-ranges", "bytes")]
        ++ headerEntry "content-type" contentType
        ++ headerEntry "content-disposition" (Filename.disposition filename)
        ++ range.toList.map fun r => ("content-range", rangeText r)
    ⟨if range.isSome then 206 else 200, headers, .file content⟩

end SharedMemos.Server
