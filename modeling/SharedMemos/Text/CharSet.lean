/-!
# Sets of characters

A character class is a list of closed intervals of code points. The classes used by the library are
tables of this kind, so that membership is a single total function and a statement about a class is
a statement about numbers.
-/

namespace SharedMemos.Text

/-- A set of characters, given by closed intervals of code points. -/
structure CharSet where
  /-- First and last code point of each interval. -/
  ranges : List (Nat × Nat)
deriving Repr, DecidableEq

namespace CharSet

/-- Membership of a character: its code point lies in one of the intervals. -/
def contains (s : CharSet) (c : Char) : Bool :=
  s.ranges.any fun r => decide (r.1 ≤ c.toNat) && decide (c.toNat ≤ r.2)

theorem contains_iff {s : CharSet} {c : Char} :
    s.contains c = true ↔ ∃ r ∈ s.ranges, r.1 ≤ c.toNat ∧ c.toNat ≤ r.2 := by
  simp [contains]

end CharSet

/-- ASCII letters and digits. -/
def isAsciiAlphanumeric (c : Char) : Bool :=
  c.isAlpha || c.isDigit

/-- The lower-case form of an ASCII letter; every other character is its own. -/
def asciiLower (s : String) : String :=
  String.ofList (s.toList.map Char.toLower)

end SharedMemos.Text
