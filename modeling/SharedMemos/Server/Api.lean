import SharedMemos.Http.Route
import SharedMemos.Server.Api.Handler

/-!
# The web interface

Each route has handlers for some methods. A request of the method `HEAD` is answered like one of the
method `GET`, without a body.
-/

namespace SharedMemos.Server

open SharedMemos.Http

/-- The handler of a route for a method, if there is one. -/
def handler? (r : Request) (method : String) : Route → Option (Handler Response)
  | .health => if method = "GET" then some (pure (.ofJson 200 healthView)) else none
  | .memos =>
    if method = "GET" then some (handleListMemos r)
    else if method = "POST" then some (handleCreateMemo r)
    else none
  | .memoChanges => if method = "GET" then some (handleListChanges r) else none
  | .memo uid =>
    if method = "GET" then some (handleGetMemo r uid)
    else if method = "PATCH" then some (handleUpdateMemo r uid)
    else if method = "DELETE" then some (handleDeleteMemo r uid)
    else none
  | .userTags user => if method = "GET" then some (handleTagCounts r user) else none
  | .attachments =>
    if method = "GET" then some (handleListAttachments r)
    else if method = "POST" then some (handleCreateAttachment r)
    else none
  | .attachment uid =>
    if method = "GET" then some (handleGetAttachment r uid)
    else if method = "DELETE" then some (handleDeleteAttachment r uid)
    else none
  | .file uid => if method = "GET" then some (handleDownload r uid) else none
  | .uploads => if method = "POST" then some (handleCreateSession r) else none
  | .upload id =>
    if method = "GET" then some (handleProgress r id)
    else if method = "PATCH" then some (handleAppend r id)
    else if method = "DELETE" then some (handleCancel r id)
    else none
  | .uploadThumbnail id => if method = "PUT" then some (handleThumbnail r id) else none
  | .uploadParts id => if method = "POST" then some (handlePart r id) else none
  | .uploadCompletion id => if method = "POST" then some (handleComplete r id) else none

/-- Answers a request. -/
def answer (r : Request) : Handler Response :=
  match Route.ofPath? r.path with
  | none => return .ofStatus 404
  | some route =>
    match handler? r (if r.method = "HEAD" then "GET" else r.method) route with
    | none => return .ofStatus 405
    | some response => response

/-- The response to a request, and the state after it. -/
def serve (r : Request) (s : State) : Response × State :=
  match Job.run (ExceptT.run (answer r)) s with
  | (.ok response, s) | (.error response, s) =>
    (if r.method = "HEAD" then { response with body := .empty } else response, s)

end SharedMemos.Server
