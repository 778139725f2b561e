/-!
# Instants

A point in time is a number of microseconds since the start of 1970, the precision in which times
are stored.
-/

namespace SharedMemos

/-- A point in time. -/
structure Instant where
  /-- Microseconds since the start of 1970. -/
  micros : Int
deriving Repr, DecidableEq, Inhabited

namespace Instant

instance : LT Instant := ⟨fun a b => a.micros < b.micros⟩
instance : LE Instant := ⟨fun a b => a.micros ≤ b.micros⟩

instance (a b : Instant) : Decidable (a < b) := inferInstanceAs (Decidable (a.micros < b.micros))
instance (a b : Instant) : Decidable (a ≤ b) := inferInstanceAs (Decidable (a.micros ≤ b.micros))

/-- The start of 1970. -/
def epoch : Instant := ⟨0⟩

/-- The instant `n` seconds after the start of 1970. -/
def ofSeconds (n : Int) : Instant :=
  ⟨n * 1000000⟩

/-- Whole seconds since the start of 1970, rounded down. -/
def seconds (t : Instant) : Int :=
  t.micros.fdiv 1000000

/-- The instant `n` seconds later. -/
def addSeconds (t : Instant) (n : Int) : Instant :=
  ⟨t.micros + n * 1000000⟩

/-- The earlier of two instants. -/
def earlier (a b : Instant) : Instant :=
  if b < a then b else a

/-- The earliest instant with a calendar date: the start of the year -262143. -/
def earliest : Instant := ⟨-8334601228800000000⟩

/-- The latest instant with a calendar date: the end of the year 262142. -/
def latest : Instant := ⟨8210266876799999999⟩

/-- The instant with the given number of microseconds, where it has a calendar date. -/
def ofMicros? (n : Int) : Option Instant :=
  if earliest ≤ ⟨n⟩ ∧ (⟨n⟩ : Instant) ≤ latest then some ⟨n⟩ else none

end Instant

end SharedMemos
