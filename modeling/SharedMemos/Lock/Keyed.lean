/-!
# Locks by key

Work on one thing is done by one request at a time: a request locks the key of the thing. A lock is
fair. It belongs to the first of those who stand in line for it, who holds it once he looks again,
and whoever lets go of it or gives up leaves the line. A request may give up at any time while it
waits. Requests are told apart by their tickets: two of them may have one name, and who gives up or
lets go under a name does so for all of them.

The locks in use are kept by their keys. A request looks up the lock of its key once, makes one if
there is none, and stands in line for that lock from then on, whatever becomes of the entry. So that
the entries do not grow in number, letting go of a lock drops the entry of its key, if nobody else
refers to the lock that is found there.
-/

namespace SharedMemos.Lock

/-- A request for the lock of a key. -/
structure Request where
  /-- No two requests have the same. -/
  ticket : Nat
  id : String
  key : String
  /-- The lock that it stands in line for, once it has looked. -/
  lock : Option Nat
deriving Repr, DecidableEq, Inhabited

/-- A lock that is held, or that a request stands in line for. -/
structure Guard where
  /-- The ticket of the request. -/
  ticket : Nat
  id : String
  key : String
  lock : Nat
deriving Repr, DecidableEq, Inhabited

/-- What the request stands in line for at a lock. -/
def Request.claim (r : Request) (lock : Nat) : Guard :=
  ⟨r.ticket, r.id, r.key, lock⟩

/-- What the request stands in line for, once it has looked. -/
def Request.claim? (r : Request) : Option Guard :=
  r.lock.map r.claim

/-- Locks by key. -/
structure Keyed where
  /-- In the order in which they were acquired. -/
  held : List Guard := []
  /-- In the order in which they were made. -/
  waiting : List Request := []
  /-- The locks in use, by their keys. -/
  entries : List (String × Nat) := []
  /-- For each lock that was ever made, the tickets of those who stand in line for it. -/
  lines : List (List Nat) := []
  /-- The number of requests so far, which is the next ticket. -/
  made : Nat := 0
deriving Repr, DecidableEq, Inhabited

namespace Keyed

/-- The keys in use. -/
def tracked (l : Keyed) : List String :=
  l.entries.map (·.1)

/-- Those who stand in line for a lock. It belongs to the first. -/
def line (l : Keyed) (lock : Nat) : List Nat :=
  l.lines.getD lock []

/-- What the waiting requests stand in line for. -/
def awaited (l : Keyed) : List Guard :=
  l.waiting.filterMap Request.claim?

/-- Whoever refers to a lock: its holder, and those who stand in line for it. -/
def claims (l : Keyed) : List Guard :=
  l.held ++ l.awaited

/-- A new request. -/
def request (l : Keyed) (id key : String) : Keyed :=
  { l with
    waiting := l.waiting ++ [⟨l.made, id, key, none⟩]
    made := l.made + 1 }

/-- The lock in use for the key. -/
def lock? (l : Keyed) (key : String) : Option Nat :=
  (l.entries.find? (·.1 == key)).map (·.2)

/-- The lock of the key: the one in use, or else the next to be made. -/
def lockOf (l : Keyed) (key : String) : Nat :=
  (l.lock? key).getD l.lines.length

/-- There is a lock for the key. -/
def enter (l : Keyed) (key : String) : Keyed :=
  match l.lock? key with
  | some _ => l
  | none => { l with
    entries := l.entries ++ [(key, l.lines.length)]
    lines := l.lines ++ [[]] }

/-- The request with a ticket joins the line for a lock. -/
def join (l : Keyed) (ticket lock : Nat) : Keyed :=
  { l with
    waiting := l.waiting.map fun q => if q.ticket = ticket then { q with lock := some lock } else q
    lines := l.lines.modify lock (· ++ [ticket]) }

/-- Whoever waits for a lock that belongs to him becomes its holder. -/
def take (l : Keyed) (c : Guard) : Keyed :=
  if (l.line c.lock).head? = some c.ticket then
    { l with
      held := l.held ++ [c]
      waiting := l.waiting.filter (·.ticket != c.ticket) }
  else l

/-- A request looks at its lock. -/
def look (l : Keyed) (r : Request) : Keyed :=
  match r.lock with
  | some lock => l.take (r.claim lock)
  | none =>
    let lock := l.lockOf r.key
    ((l.enter r.key).join r.ticket lock).take (r.claim lock)

/-- The request with a ticket looks at its lock. -/
def poll (l : Keyed) (ticket : Nat) : Keyed :=
  match l.waiting.find? (·.ticket == ticket) with
  | some r => l.look r
  | none => l

/-- Every waiting request looks at its lock once, in order. -/
def pollAll (l : Keyed) : Keyed :=
  (l.waiting.map (·.ticket)).foldl poll l

/-- Nothing of the request with a ticket is left, in the line for its lock neither. -/
def drop (l : Keyed) (ticket : Nat) (lock : Option Nat) : Keyed :=
  { l with
    held := l.held.filter (·.ticket != ticket)
    waiting := l.waiting.filter (·.ticket != ticket)
    lines := match lock with
      | some lock => l.lines.modify lock (·.filter (· != ticket))
      | none => l.lines }

/-- The request with a ticket gives up waiting. -/
def giveUp (l : Keyed) (ticket : Nat) : Keyed :=
  match l.waiting.find? (·.ticket == ticket) with
  | some r => l.drop ticket r.lock
  | none => l

/-- Drops the entry of a key if nobody refers to its lock. -/
def tidy (l : Keyed) (key : String) : Keyed :=
  match l.lock? key with
  | some lock =>
    if l.claims.any (·.lock == lock) then l
    else { l with entries := l.entries.filter (·.1 != key) }
  | none => l

/-- The holder with a ticket lets go of the lock. -/
def letGo (l : Keyed) (ticket : Nat) : Keyed :=
  match l.held.find? (·.ticket == ticket) with
  | some g => (l.drop ticket g.lock).tidy g.key
  | none => l

/-- The waiting requests with a name give up, in order. -/
def cancel (l : Keyed) (id : String) : Keyed :=
  ((l.waiting.filter (·.id == id)).map (·.ticket)).foldl giveUp l

/-- The holders with a name let go of their locks, in order. -/
def release (l : Keyed) (id : String) : Keyed :=
  ((l.held.filter (·.id == id)).map (·.ticket)).foldl letGo l

end Keyed

end SharedMemos.Lock
