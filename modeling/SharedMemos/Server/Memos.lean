import SharedMemos.Filter.Compiled
import SharedMemos.Memo.Change
import SharedMemos.Query.Memo
import SharedMemos.Server.State
import SharedMemos.Time.Timestamp

/-!
# Requests about memos

Listing, synchronising, reading and changing memos. A memo that the viewer must not know of is
reported as missing, in the same words as one that does not exist.

A listing looks at the newest candidates and is given out in pages. Synchronising gives all that has
changed in a window of time: memos that were updated, and the names of memos that have left the view
of the user.
-/

namespace SharedMemos.Server

open SharedMemos.Text SharedMemos.Filter SharedMemos.Query

/-- The user of a request that only users may make. -/
def signedIn (reason : String) : Viewer → Action UserId
  | some user => return user
  | none => throw (.unauthenticated reason)

/-- The filter of a request. -/
def requestFilter (source : String) : Action Compiled :=
  Attempt.ofExcept ((compileGuarded source).mapError .invalidFilter)

/-- A page of a listing. -/
structure MemoPage where
  memos : List Memo
  /-- The token of the next page; empty on the last. -/
  next : String
deriving Repr, DecidableEq

/-- The offset that a page token stands for. -/
def pageOffset (token : String) : Except Error Nat :=
  if token = "" then .ok 0
  else
    match nat64? token with
    | some offset => .ok offset
    | none => .error (.invalidPageToken token)

/-- The number of memos on a page: the default where none is asked for, and never more than the
limit. -/
def pageSize (wanted : Int) : Nat :=
  if wanted ≤ 0 then Limit.pageSize else min wanted.toNat Limit.maxPageSize

/-- The page of `size` memos from an offset. -/
def pageOf (memos : List Memo) (offset size : Nat) : MemoPage where
  memos := (memos.drop offset).take size
  next := if offset + size < memos.length then showNat (offset + size) else ""

/-- The query for the candidates of a listing. -/
def listQuery (viewer : Viewer) (state : Option MemoState) (filter : Compiled) : MemoQuery where
  viewer := viewer
  state := state.getD .normal
  prefilter := filter.prefilter
  order := .newestFirst
  limit := some Limit.candidates

/-- A page of the memos that the viewer sees, newest first. -/
def listMemos (viewer : Viewer) (state : Option MemoState) (source : String) (wanted : Int)
    (token : String) : Action MemoPage := do
  let filter ← requestFilter source
  let offset ← Attempt.ofExcept (pageOffset token)
  let candidates ← query fun d => (listQuery viewer state filter).run d.memos
  let time ← now
  return pageOf (candidates.filter (filter.accepts · time.seconds)) offset (pageSize wanted)

/-- What has changed in a window of time. -/
structure MemoChanges where
  /-- The memos that were updated, earliest update first. -/
  memos : List Memo
  /-- The names of the memos that have left the view of the user. -/
  removed : List String
  /-- The end of the window, from which the next one goes on. -/
  anchor : Timestamp
deriving Repr, DecidableEq

/-- The end of a window: the one asked for, if it is after the start of 1970, or the present. -/
def windowEnd : Option Timestamp → Action Timestamp
  | some anchor => do
    if Instant.epoch < anchor.toInstant then return anchor
    return .ofInstant (← now)
  | none => return .ofInstant (← now)

/-- The query for the memos that were updated in a window. -/
def changeQuery (viewer : Viewer) (state : Option MemoState) (filter : Compiled)
    (after upTo : Instant) : MemoQuery where
  viewer := viewer
  state := state.getD .normal
  prefilter := filter.prefilter
  window := some (after, upTo)
  order := .leastRecentFirst

/-- What has changed for the viewer after one time and up to another. -/
def listChanges (viewer : Viewer) (state : Option MemoState) (source : String) (since : Timestamp)
    (anchor : Option Timestamp) : Action MemoChanges := do
  let user ← signedIn "sync requires a signed-in user" viewer
  let filter ← requestFilter source
  let anchor ← windowEnd anchor
  let upTo := anchor.toInstant
  let after := since.toInstant.earlier upTo
  let time ← now
  let found ← query fun d => (changeQuery viewer state filter after upTo).run d.memos
  let removed ← query fun d => d.removedNames user after upTo
  return ⟨found.filter (filter.accepts · time.seconds), removed, anchor⟩

/-- How many memos of a user bear each tag, as far as the viewer may count. -/
def tagCounts (user : UserId) (viewer : Viewer) : Action (List (String × Int)) :=
  query fun d => d.tagCounts user viewer

/-- The complaint that there is no memo with a uid. -/
def memoMissing (uid : String) : Error :=
  .notFound ("memo " ++ uid)

/-- Makes a memo. -/
def createMemo (viewer : Viewer) (draft : MemoDraft) : Action Memo := do
  let user ← signedIn "creating a memo requires a user" viewer
  Attempt.ofExcept draft.validate
  let uid ← drawName Limit.uidLength
  transactNow fun time => Database.insertMemo (draft.toMemo uid user time)

/-- A memo that the viewer may see. -/
def getMemo (viewer : Viewer) (uid : String) : Action Memo := do
  match ← query (·.memoByUid? uid) with
  | some m => if m.isVisibleTo viewer then return m else throw (memoMissing uid)
  | none => throw (memoMissing uid)

/-- A memo that a user may change and delete. -/
def modifiableMemo (user : UserId) (uid : String) : Action Memo := do
  match ← query (·.memoByUid? uid) with
  | some m => if m.canModify user then return m else throw (memoMissing uid)
  | none => throw (memoMissing uid)

/-- Changes a memo. Users who lose a grant of access are told, except the creator. -/
def updateMemo (viewer : Viewer) (uid : String) (edit : MemoEdit) : Action Memo := do
  let user ← signedIn "modifying a memo requires a user" viewer
  let before ← modifiableMemo user uid
  Attempt.ofExcept edit.validate
  let m := edit.apply before
  let revoked := (Tag.revoked before.tags m.tags).filter (· != m.creator)
  transactNow (Database.updateMemo m revoked)

/-- Deletes a memo. The creator and all users with a grant of access are told. -/
def deleteMemo (viewer : Viewer) (uid : String) : Action Unit := do
  let user ← signedIn "modifying a memo requires a user" viewer
  let m ← modifiableMemo user uid
  transactNow (Database.deleteMemo m (Tag.sortedIds (m.creator :: m.collaborators)))

end SharedMemos.Server
