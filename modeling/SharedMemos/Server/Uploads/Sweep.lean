import SharedMemos.Server.Uploads.Session

/-!
# Sweeping expired uploads

Sessions that have not been touched for longer than their lifetime are removed, in batches, until a
batch comes back short. Everything is tried, and the first failure is reported. A row that cannot be
deleted ends the sweep, since it would come back with every batch.
-/

namespace SharedMemos.Server

open SharedMemos.Upload

/-- How far a sweep is. -/
structure Sweep where
  /-- How many sessions have been removed. -/
  removed : Nat := 0
  /-- The first failure. -/
  failure : Option Error := none
  /-- Has a row failed to be deleted? -/
  isStalled : Bool := false

namespace Sweep

/-- The sweep after a failure. -/
def note (s : Sweep) (e : Error) : Sweep :=
  { s with failure := s.failure <|> some e }

/-- Removes one session and releases what it holds. -/
def remove (s : Sweep) (session : Session) : Action Sweep := do
  match ← (transact (Database.deleteSession session.id)).outcome with
  | .ok true =>
    let s := { s with removed := s.removed + 1 }
    match ← (releaseSession session).outcome with
    | .ok () => return s
    | .error e => return s.note e
  | .ok false => return s
  | .error e => return { s.note e with isStalled := true }

/-- Goes on with batches of the sessions that were last touched before an instant, at most `budget`
of them. -/
def batches (cutoff : Instant) : (budget : Nat) → Sweep → Action Sweep
  | 0, s => return s
  | budget + 1, s => do
    let batch ← query (·.expiredSessions cutoff Limit.sweepBatch)
    let s ← batch.foldlM remove s
    if batch.length < Limit.sweepBatch || s.isStalled then return s
    batches cutoff budget s

end Sweep

/-- Removes the sessions that have expired at a time; tells how many. Each batch but the last
removes sessions, so that there are no more batches than sessions, and one. -/
def sweepExpired (time : Instant) : Action Nat := do
  let count ← query (·.sessions.length)
  let cutoff := time.addSeconds (-(Limit.sessionLifetime : Int))
  let sweep ← Sweep.batches cutoff (count + 1) {}
  match sweep.failure with
  | some e => throw e
  | none => return sweep.removed

end SharedMemos.Server
