import SharedMemos.Server.Database.Basic

/-!
# Memos in the database

A memo changes or goes together with the record of who has lost it from view. Changing or deleting a
memo that is gone fails, and nothing is recorded.
-/

namespace SharedMemos.Server.Database

/-- The memo with a uid. -/
def memoByUid? (d : Database) (uid : String) : Option Memo :=
  d.memos.find? (·.uid == uid)

/-- The memo with a number. -/
def memoById? (d : Database) (id : Int) : Option Memo :=
  d.memos.find? (·.id == id)

/-- A memo as its row keeps it. -/
def storedMemo (m : Memo) : Memo :=
  { m with location := m.location.map Location.stored }

/-- Adds a memo; gives it with its number. -/
def insertMemo (m : Memo) : Transaction Memo := do
  require .memo .insert
  let d ← get
  if d.memos.any (·.uid == m.uid) then throw failure
  let m := { m with id := d.lastMemo + 1 }
  set { d with memos := storedMemo m :: d.memos, lastMemo := m.id }
  return m

/-- The complaint that a memo is gone. -/
def memoGone (m : Memo) : Error :=
  .notFound ("memo " ++ m.name ++ " not found")

/-- Records that a memo has left the view of users. -/
def insertEvent (m : Memo) (kind : ChangeKind) (time : Instant) (recipients : List UserId) :
    Transaction Unit := do
  require .event .insert
  let kept ← recipients.filterM fun _ => allows .recipient .insert
  modify fun d =>
    let event : ChangeEvent :=
      { id := d.lastEvent + 1, memoId := m.id, memoName := m.name, creator := m.creator
        kind := kind, time := time, recipients := kept }
    { d with events := event :: d.events, lastEvent := event.id }

/-- Replaces the row of a memo, and records who lost access to it. -/
def updateMemo (m : Memo) (revoked : List UserId) (time : Instant) : Transaction Memo := do
  let m := { m with updated := time }
  if !(← get).memos.any (·.id == m.id) then throw (memoGone m)
  if !(← allows .memo .update) then throw (memoGone m)
  let replace (row : Memo) : Memo :=
    if row.id == m.id then
      { storedMemo m with uid := row.uid, creator := row.creator, created := row.created }
    else row
  modify fun d => { d with memos := d.memos.map replace }
  if !revoked.isEmpty then insertEvent m .revoked time revoked
  return m

/-- Removes a memo, unlinks its attachments, and records who could see it. An attachment cannot stay
linked to a memo that is gone. -/
def deleteMemo (m : Memo) (recipients : List UserId) (time : Instant) : Transaction Unit := do
  insertEvent m .deleted time recipients
  let isLinked (a : Attachment) : Bool := a.memo == some m.id
  let unlink (a : Attachment) : Attachment :=
    if isLinked a then { a with memo := none, updated := time } else a
  let hasLinks := (← get).attachments.any isLinked
  let isUnlinked ← if hasLinks then allows .attachment .update else pure true
  if isUnlinked then modify fun d => { d with attachments := d.attachments.map unlink }
  if !(← get).memos.any (·.id == m.id) then throw (memoGone m)
  if !(← allows .memo .delete) then throw (memoGone m)
  if !isUnlinked then throw failure
  modify fun d => { d with memos := d.memos.filter (·.id != m.id) }

/-- The names of the memos that left the view of a user after one instant and up to another, in the
order of their first events. -/
def removedNames (d : Database) (user : UserId) (after upTo : Instant) : List String :=
  let isMeant (e : ChangeEvent) : Bool :=
    e.recipients.contains user && decide (after < e.time) && decide (e.time ≤ upTo)
  let isEarlier (a b : ChangeEvent) : Bool :=
    decide (a.time < b.time) || (a.time == b.time && decide (a.id ≤ b.id))
  (((d.events.filter isMeant).mergeSort isEarlier).map (·.memoName)).eraseDups

/-- The events of a memo, oldest first. -/
def eventsOf (d : Database) (memoId : Int) : List ChangeEvent :=
  let isEarlier (a b : ChangeEvent) : Bool :=
    decide (a.time < b.time) || (a.time == b.time && decide (a.id ≤ b.id))
  let events := (d.events.filter (·.memoId == memoId)).mergeSort isEarlier
  events.map fun e => { e with recipients := Tag.sortedIds e.recipients }

/-- May a viewer count the tags of a memo of a user? Grants of access do not matter here. -/
def countsFor (viewer : Viewer) (user : UserId) (m : Memo) : Bool :=
  m.creator == user && m.state == .normal &&
    match viewer with
    | some v => v == user || m.visibility != .restricted
    | none => m.visibility == .everyone

/-- How many memos of a user in use bear each tag, in the order of the tags; a tag counts once for
each memo. -/
def tagCounts (d : Database) (user : UserId) (viewer : Viewer) : List (String × Int) :=
  let tags := (d.memos.filter (countsFor viewer user)).flatMap fun m => m.tags.eraseDups
  let names := (tags.mergeSort fun a b => decide (a ≤ b)).eraseDups
  names.map fun name => (name, (tags.count name : Nat))

end SharedMemos.Server.Database
