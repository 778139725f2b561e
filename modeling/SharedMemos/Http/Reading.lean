import SharedMemos.Attachment.Range
import SharedMemos.Http.Failure
import SharedMemos.Http.MediaType
import SharedMemos.Http.Url
import SharedMemos.Json.Reader
import SharedMemos.Memo.Basic
import SharedMemos.Text.Utf8
import SharedMemos.Time.Timestamp

/-!
# Reading requests

What is read from the headers, the path, the query and the body of a request, or the response to one
from which it cannot be read.
-/

namespace SharedMemos.Http

open SharedMemos.Text

/-- The value that was read, or a response. -/
abbrev Reading (α : Type) := Except Response α

/-- What was read, or the response where there is nothing. -/
def Response.expect {α : Type} (r : Response) : Option α → Reading α
  | some a => .ok a
  | none => .error r

/-! ### Headers -/

/-- Is a header made of visible ASCII characters, blanks and tabs? -/
def isVisible (header : String) : Bool :=
  header.toList.all fun c => c == '\t' || decide (' ' ≤ c) && decide (c ≤ '~')

/-- The header that names the user, which the proxy in front of the server sets. -/
def userHeader : String := "x-memos-user"

/-- The user in a header. -/
def user? (header : String) : Option UserId :=
  if isVisible header then (int64? (trim header)).filter (0 < ·) else none

/-- Who makes a request. -/
def Request.viewer (r : Request) : Reading Viewer :=
  match r.header? userHeader with
  | none => .ok none
  | some header =>
    ((badRequest ("invalid " ++ userHeader ++ " header")).expect (user? header)).map some

/-- The offset in a header. -/
def offset? (header : String) : Option Int :=
  if isVisible header then (int64? (trim header)).filter (0 ≤ ·) else none

/-- The offset that a client takes an upload to have reached. -/
def Request.uploadOffset (r : Request) : Reading Int :=
  match r.header? offsetHeader with
  | none => .error (badRequest "missing Upload-Offset header")
  | some header => (badRequest "invalid Upload-Offset header").expect (offset? header)

/-- The range that a client asks for. -/
def Request.range (r : Request) : Reading (Option ByteRange) :=
  match r.header? "range" with
  | none => .ok none
  | some header =>
    if isVisible header then ((ByteRange.parse header).map some).mapError failure
    else .error (badRequest "invalid Range header")

/-! ### Paths -/

/-- The name of a resource in a path. -/
def pathText (part : String) : Reading String :=
  (Response.refusal 400).expect (percentText? part.toList)

/-- The number of a user in a path. -/
def pathUser (part : String) : Reading UserId :=
  (Response.refusal 400).expect ((percentText? part.toList).bind int64?)

/-! ### Queries -/

/-- The form of a query, as `ofForm?` reads it. -/
def Request.form {α : Type} (r : Request) (ofForm? : Form → Option α) : Reading α :=
  (Response.refusal 400).expect ((Form.ofQuery? r.query).bind ofForm?)

/-- The truth values that a form can hold. -/
def flag? (text : String) : Option Bool :=
  if text = "true" then some true else if text = "false" then some false else none

/-- A query for a page of memos. -/
structure ListQuery where
  filter : String
  state : Option String
  pageSize : Int
  pageToken : String
deriving Repr, DecidableEq

/-- Reads a query for a page of memos. -/
def ListQuery.ofForm? (f : Form) : Option ListQuery := do
  let filter ← f.single? "filter"
  let state ← f.single? "state"
  let pageSize ← f.read? "page_size" (integer? maxInt32)
  let pageToken ← f.single? "page_token"
  return ⟨filter.getD "", state, pageSize.getD 0, pageToken.getD ""⟩

/-- A query for what has changed. -/
structure ChangesQuery where
  since : Timestamp
  anchor : Option Timestamp
  filter : String
  state : Option String
deriving Repr, DecidableEq

/-- Reads a query for what has changed. -/
def ChangesQuery.ofForm? (f : Form) : Option ChangesQuery := do
  let since ← f.read? "since" Timestamp.ofText?
  let anchor ← f.read? "sync_anchor" Timestamp.ofText?
  let filter ← f.single? "filter"
  let state ← f.single? "state"
  return ⟨since.getD (.ofInstant .epoch), anchor, filter.getD "", state⟩

/-- A query for a file. -/
structure FileQuery where
  wantsThumbnail : Bool
  wantsRedirect : Bool
deriving Repr, DecidableEq

/-- Reads a query for a file. -/
def FileQuery.ofForm? (f : Form) : Option FileQuery := do
  let thumbnail ← f.read? "thumbnail" flag?
  let redirect ← f.read? "redirect" flag?
  return ⟨thumbnail.getD false, redirect.getD false⟩

/-- The state that a query asks for, in any case of letters; a blank one is none. -/
def queryState (text : Option String) : Reading (Option MemoState) :=
  match (text.map trim).filter (· ≠ "") with
  | none => .ok none
  | some name =>
    let upper := String.ofList (name.toList.map Char.toUpper)
    ((badRequest ("invalid state: " ++ name)).expect (MemoState.ofName? upper)).map some

/-! ### Bodies -/

/-- The JSON record in the body. What stands after it does not matter. -/
def Request.json {α : Type} (r : Request) (record : Json.Record α) : Reading α :=
  if !((r.header? "content-type").map MediaType.isJson).getD false then .error (.refusal 415)
  else
    match Json.readPrefix record.read (signsOfBytes r.body) with
    | .ok a => .ok a
    | .error .malformed => .error (.refusal 400)
    | .error .mismatch => .error (.refusal 422)

end SharedMemos.Http
