import SharedMemos.Http.Reading
import SharedMemos.Server.Api.View
import SharedMemos.Server.Uploads.Completion

/-!
# Handlers

A handler reads the request in the order user, path, query, body, carries out what is asked for, and
answers. What cannot be read, and what the server cannot do, ends it with a response.
-/

namespace SharedMemos.Server

open SharedMemos.Http SharedMemos.Upload

/-- The work of a handler, which may end with a response at any time. -/
abbrev Handler (α : Type) := ExceptT Response (Job State) α

/-- What is read from the request. -/
def reading {α : Type} (r : Reading α) : Handler α :=
  ExceptT.mk (pure r)

/-- What the server does for the request; its failures are told to the client. -/
def perform {α : Type} (a : Action α) : Handler α :=
  ExceptT.mk do
    match ← ExceptT.run a with
    | .ok x => return .ok x
    | .error e => return .error (failure e)

/-- Lists memos. -/
def handleListMemos (r : Request) : Handler Response := do
  let viewer ← reading r.viewer
  let q ← reading (r.form ListQuery.ofForm?)
  let state ← reading (queryState q.state)
  return .ofJson 200 (pageView (← perform (listMemos viewer state q.filter q.pageSize q.pageToken)))

/-- Tells what has changed. -/
def handleListChanges (r : Request) : Handler Response := do
  let viewer ← reading r.viewer
  let q ← reading (r.form ChangesQuery.ofForm?)
  let state ← reading (queryState q.state)
  return .ofJson 200 (changesView (← perform (listChanges viewer state q.filter q.since q.anchor)))

/-- Makes a memo. -/
def handleCreateMemo (r : Request) : Handler Response := do
  let viewer ← reading r.viewer
  let draft ← reading (r.json MemoDraft.record)
  return .ofJson 201 (memoView (← perform (createMemo viewer draft)))

/-- Shows a memo. -/
def handleGetMemo (r : Request) (uid : String) : Handler Response := do
  let viewer ← reading r.viewer
  let uid ← reading (pathText uid)
  return .ofJson 200 (memoView (← perform (getMemo viewer uid)))

/-- Changes a memo. -/
def handleUpdateMemo (r : Request) (uid : String) : Handler Response := do
  let viewer ← reading r.viewer
  let uid ← reading (pathText uid)
  let edit ← reading (r.json MemoEdit.record)
  return .ofJson 200 (memoView (← perform (updateMemo viewer uid edit)))

/-- Deletes a memo. -/
def handleDeleteMemo (r : Request) (uid : String) : Handler Response := do
  let viewer ← reading r.viewer
  let uid ← reading (pathText uid)
  perform (deleteMemo viewer uid)
  return .ofStatus 204

/-- Counts the tags of a user. -/
def handleTagCounts (r : Request) (user : String) : Handler Response := do
  let viewer ← reading r.viewer
  let user ← reading (pathUser user)
  return .ofJson 200 (countsView (← perform (tagCounts user viewer)))

/-- Lists attachments. -/
def handleListAttachments (r : Request) : Handler Response := do
  let viewer ← reading r.viewer
  let attachments ← perform (listAttachments viewer)
  return .ofJson 200 (.object [("attachments", .array (attachments.map attachmentView))])

/-- Makes an attachment. -/
def handleCreateAttachment (r : Request) : Handler Response := do
  let viewer ← reading r.viewer
  let draft ← reading (r.json AttachmentDraft.record)
  return .ofJson 201 (attachmentView (← perform (createAttachment viewer draft)))

/-- Shows an attachment. -/
def handleGetAttachment (r : Request) (uid : String) : Handler Response := do
  let viewer ← reading r.viewer
  let uid ← reading (pathText uid)
  return .ofJson 200 (attachmentView (← perform (getAttachment viewer uid)))

/-- Deletes an attachment. -/
def handleDeleteAttachment (r : Request) (uid : String) : Handler Response := do
  let viewer ← reading r.viewer
  let uid ← reading (pathText uid)
  perform (deleteAttachment viewer uid)
  return .ofStatus 204

/-- Sends a file. -/
def handleDownload (r : Request) (uid : String) : Handler Response := do
  let viewer ← reading r.viewer
  let uid ← reading (pathText uid)
  let q ← reading (r.form FileQuery.ofForm?)
  let range ← reading r.range
  return downloadResponse
    (← perform (openAttachment viewer uid range q.wantsThumbnail q.wantsRedirect))

/-- Opens an upload session. -/
def handleCreateSession (r : Request) : Handler Response := do
  let viewer ← reading r.viewer
  let draft ← reading (r.json SessionDraft.record)
  return .ofJson 201 (ticketView (← perform (createSession viewer draft)))

/-- Tells how far an upload is. -/
def handleProgress (r : Request) (id : String) : Handler Response := do
  let viewer ← reading r.viewer
  let id ← reading (pathText id)
  return progressResponse (← perform (uploadProgress viewer id))

/-- Takes a chunk. -/
def handleAppend (r : Request) (id : String) : Handler Response := do
  let viewer ← reading r.viewer
  let id ← reading (pathText id)
  let offset ← reading r.uploadOffset
  return progressResponse (← perform (appendChunk viewer id offset r.body))

/-- Cancels an upload. -/
def handleCancel (r : Request) (id : String) : Handler Response := do
  let viewer ← reading r.viewer
  let id ← reading (pathText id)
  perform (cancelSession viewer id)
  return .ofStatus 204

/-- Takes a picture for the thumbnail. -/
def handleThumbnail (r : Request) (id : String) : Handler Response := do
  let viewer ← reading r.viewer
  let id ← reading (pathText id)
  perform (sendThumbnail viewer id (.ofBytes r.body))
  return .ofStatus 204

/-- Gives an address for a part. -/
def handlePart (r : Request) (id : String) : Handler Response := do
  let viewer ← reading r.viewer
  let id ← reading (pathText id)
  let part ← reading (r.json PartRequest.record)
  return .ofJson 200 (partView (← perform (partAddress viewer id part)))

/-- Completes an upload. -/
def handleComplete (r : Request) (id : String) : Handler Response := do
  let viewer ← reading r.viewer
  let id ← reading (pathText id)
  return .ofJson 201 (attachmentView (← perform (completeSession viewer id)))

end SharedMemos.Server
