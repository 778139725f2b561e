import SharedMemos.Text.Blank

/-!
# Routes

What the path of a request names. A path is compared part by part, as it was sent; the parts that
name a resource are not empty.
-/

namespace SharedMemos.Http

open SharedMemos.Text

/-- What a path names. Names of resources are as they were sent, with percent signs. -/
inductive Route where
  | health
  | memos
  | memoChanges
  | memo (uid : String)
  | userTags (user : String)
  | attachments
  | attachment (uid : String)
  | file (uid : String)
  | uploads
  | upload (id : String)
  | uploadThumbnail (id : String)
  | uploadParts (id : String)
  | uploadCompletion (id : String)
deriving Repr, DecidableEq

namespace Route

/-- The route of the parts of a path. -/
def ofParts? : List String → Option Route
  | ["", "healthz"] => some health
  | ["", "api", "v1", "memos"] => some memos
  | ["", "api", "v1", "memos", "changes"] => some memoChanges
  | ["", "api", "v1", "memos", uid] => some (memo uid)
  | ["", "api", "v1", "users", user, "tags"] => some (userTags user)
  | ["", "api", "v1", "attachments"] => some attachments
  | ["", "api", "v1", "attachments", uid] => some (attachment uid)
  | ["", "file", "attachments", uid] => some (file uid)
  | ["", "api", "v1", "uploads"] => some uploads
  | ["", "api", "v1", "uploads", id] => some (upload id)
  | ["", "api", "v1", "uploads", id, "thumbnail"] => some (uploadThumbnail id)
  | ["", "api", "v1", "uploads", id, "parts"] => some (uploadParts id)
  | ["", "api", "v1", "uploads", id, "complete"] => some (uploadCompletion id)
  | _ => none

/-- The route of a path. -/
def ofPath? (path : String) : Option Route :=
  let parts := splitOnChar '/' path
  if (parts.drop 1).contains "" then none else ofParts? parts

end Route

end SharedMemos.Http
