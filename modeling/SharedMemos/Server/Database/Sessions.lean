import SharedMemos.Server.Database.Basic

/-!
# Upload sessions in the database

How much of a session has been received moves on only from what the caller has seen, so that of
several callers who have seen the same, one wins.
-/

namespace SharedMemos.Server.Database

open SharedMemos.Upload

/-- Adds a session. -/
def insertSession (s : Session) : Transaction Unit := do
  if ← allows .session .insert then
    let d ← get
    if d.sessions.any (·.id == s.id) then throw failure
    set { d with sessions := s :: d.sessions }

/-- The session with a name. -/
def session? (d : Database) (id : String) : Option Session :=
  d.sessions.find? (·.id == id)

/-- Changes the row of a session that meets a condition; tells whether there is one. -/
def changeSession (id : String) (condition : Session → Bool) (change : Session → Session) :
    Transaction Bool := do
  let isMeant (s : Session) : Bool := s.id == id && condition s
  if !(← get).sessions.any isMeant then return false
  if !(← allows .session .update) then return false
  modify fun d => { d with sessions := d.sessions.map fun s => if isMeant s then change s else s }
  return true

/-- Moves on how much of a session has been received, if it is what the caller expects. -/
def advanceSession (id : String) (expected received : Int) (time : Instant) : Transaction Bool :=
  changeSession id (·.received == expected) fun s =>
    { s with received := received, updated := time }

/-- Records the scratch file of a picture sent for the thumbnail. -/
def setThumbnailPath (id path : String) (time : Instant) : Transaction Bool :=
  changeSession id (fun _ => true) fun s => { s with thumbnailPath := some path, updated := time }

/-- Sets when a session was last touched. -/
def touchSession (id : String) (time : Instant) : Transaction Bool :=
  changeSession id (fun _ => true) fun s => { s with updated := time }

/-- Removes a session; tells whether there was one. -/
def deleteSession (id : String) : Transaction Bool := do
  if !(← get).sessions.any (·.id == id) then return false
  if !(← allows .session .delete) then return false
  modify fun d => { d with sessions := d.sessions.filter (·.id != id) }
  return true

/-- The first sessions that were last touched before an instant, longest ago first. -/
def expiredSessions (d : Database) (cutoff : Instant) (limit : Nat) : List Session :=
  let isOlder (a b : Session) : Bool :=
    decide (a.updated < b.updated) || (a.updated == b.updated && decide (a.id ≤ b.id))
  ((d.sessions.filter fun s => decide (s.updated < cutoff)).mergeSort isOlder).take limit

end SharedMemos.Server.Database
