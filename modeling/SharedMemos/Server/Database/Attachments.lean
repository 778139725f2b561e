import SharedMemos.Server.Database.Basic

/-!
# Attachments in the database

Rows of attachments are found by name, by user, by memo, by digest, and by the key of their object.
-/

namespace SharedMemos.Server.Database

open SharedMemos.Storage

/-- Is a link to a memo sound? -/
def isSoundLink (d : Database) (memo : Option Int) : Bool :=
  match memo with
  | none => true
  | some id => d.memos.any (·.id == id)

/-- Adds an attachment; gives it with its number. -/
def insertAttachment (a : Attachment) : Transaction Attachment := do
  require .attachment .insert
  let d ← get
  if d.attachments.any (·.uid == a.uid) || !d.isSoundLink a.memo then throw failure
  let a := { a with id := d.lastAttachment + 1 }
  set { d with attachments := a :: d.attachments, lastAttachment := a.id }
  return a

/-- The attachment with a uid. -/
def attachmentByUid? (d : Database) (uid : String) : Option Attachment :=
  d.attachments.find? (·.uid == uid)

/-- The attachments of a user, newest first. -/
def attachmentsBy (d : Database) (user : UserId) : List Attachment :=
  let isNewer (a b : Attachment) : Bool :=
    decide (b.created < a.created) || (a.created == b.created && decide (b.id ≤ a.id))
  (d.attachments.filter (·.creator == user)).mergeSort isNewer

/-- The attachments linked to a memo, in the order of their numbers. -/
def attachmentsOf (d : Database) (memoId : Int) : List Attachment :=
  (d.attachments.filter (·.memo == some memoId)).mergeSort fun a b => decide (a.id ≤ b.id)

/-- The latest attachment of a user with a digest. -/
def attachmentByHash? (d : Database) (user : UserId) (hash : String) : Option Attachment :=
  d.attachments.find? fun a => a.creator == user && a.contentHash == hash

/-- Is the attachment's object at a key of a kind of store? -/
def isStoredAt (kind : Kind) (key : String) (a : Attachment) : Bool :=
  a.storage == kind && a.storageKey == key

/-- How many attachments have their object at a key. -/
def countAt (d : Database) (kind : Kind) (key : String) : Nat :=
  d.attachments.countP (isStoredAt kind key)

/-- Is a key in use for an object or a thumbnail? -/
def usesKey (d : Database) (key : String) : Bool :=
  d.attachments.any fun a =>
    a.storageKey == key || (a.thumbnail.map fun t => t.storageKey == key).getD false

/-- The thumbnail of the first attachment that has its object at a key and a thumbnail. -/
def sharedThumbnail? (d : Database) (kind : Kind) (key : String) : Option Thumbnail :=
  ((d.attachments.reverse.filter (isStoredAt kind key)).filterMap (·.thumbnail)).head?

/-- Changes the row of an attachment, where there is one. -/
def changeAttachment (id : Int) (change : Attachment → Attachment) : Transaction Unit := do
  if (← get).attachments.any (·.id == id) then
    if ← allows .attachment .update then
      modify fun d =>
        { d with attachments := d.attachments.map fun a => if a.id == id then change a else a }

/-- Records the thumbnail of an attachment. -/
def setThumbnail (id : Int) (thumbnail : Thumbnail) (time : Instant) : Transaction Unit :=
  changeAttachment id fun a => { a with thumbnail := some thumbnail, updated := time }

/-- Links an attachment to a memo, or unlinks it. -/
def setLink (id : Int) (memo : Option Int) (time : Instant) : Transaction Unit := do
  changeAttachment id fun a => { a with memo := memo, updated := time }
  let d ← get
  if !(d.attachments.all fun a => d.isSoundLink a.memo) then throw failure

/-- Removes an attachment; tells whether there was one. -/
def deleteAttachment (id : Int) : Transaction Bool := do
  if !(← get).attachments.any (·.id == id) then return false
  if !(← allows .attachment .delete) then return false
  modify fun d => { d with attachments := d.attachments.filter (·.id != id) }
  return true

end SharedMemos.Server.Database
