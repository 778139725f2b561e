/-!
# Reading and writing integers

Decimal numerals with an optional sign, read into a range. A numeral has at least one digit, only
ASCII digits, and a value inside the range; leading zeros are allowed.
-/

namespace SharedMemos.Text

/-- The value of a nonempty list of ASCII digits. -/
def digitsValue? (cs : List Char) : Option Nat :=
  if cs.isEmpty || !cs.all Char.isDigit then none
  else some (cs.foldl (fun n c => 10 * n + (c.toNat - '0'.toNat)) 0)

/-- A numeral with an optional plus sign and a value of at most `bound`. -/
def natural? (bound : Nat) (s : String) : Option Nat :=
  let digits :=
    match s.toList with
    | '+' :: cs => cs
    | cs => cs
  (digitsValue? digits).filter (· ≤ bound)

/-- A numeral with an optional sign and a value from `-(bound + 1)` to `bound`. -/
def integer? (bound : Nat) (s : String) : Option Int :=
  match s.toList with
  | '-' :: cs => ((digitsValue? cs).filter (· ≤ bound + 1)).map fun n => -(n : Int)
  | '+' :: cs => ((digitsValue? cs).filter (· ≤ bound)).map Int.ofNat
  | cs => ((digitsValue? cs).filter (· ≤ bound)).map Int.ofNat

/-- The largest signed 64-bit number. -/
def maxInt64 : Nat := 0x7fffffffffffffff

/-- The smallest signed 64-bit number. -/
def minInt64 : Int := -0x8000000000000000

/-- The largest unsigned 64-bit number. -/
def maxNat64 : Nat := 0xffffffffffffffff

/-- How many 64-bit words there are. -/
def wordCount64 : Nat := 0x10000000000000000

/-- The largest signed 32-bit number. -/
def maxInt32 : Nat := 0x7fffffff

/-- The largest unsigned 32-bit number. -/
def maxNat32 : Nat := 0xffffffff

/-- A signed 64-bit numeral. -/
def int64? (s : String) : Option Int :=
  integer? maxInt64 s

/-- An unsigned 64-bit numeral. -/
def nat64? (s : String) : Option Nat :=
  natural? maxNat64 s

/-- Does `n` fit in a signed 64-bit word? -/
def isInt64 (n : Int) : Bool :=
  decide (minInt64 ≤ n) && decide (n ≤ maxInt64)

/-- `n` where it fits in a signed 64-bit word. -/
def checkedInt64 (n : Int) : Option Int :=
  if isInt64 n then some n else none

/-- `n` moved to the nearer end of the signed 64-bit range where it lies outside it. -/
def saturateInt64 (n : Int) : Int :=
  if n < minInt64 then minInt64 else if maxInt64 < n then maxInt64 else n

/-- The decimal numeral of an integer. -/
def showInt (n : Int) : String :=
  match n with
  | .ofNat k => String.ofList (Nat.toDigits 10 k)
  | .negSucc k => String.ofList ('-' :: Nat.toDigits 10 (k + 1))

/-- The decimal numeral of a natural number. -/
def showNat (n : Nat) : String :=
  String.ofList (Nat.toDigits 10 n)

/-- The decimal numeral of `n`, with zeros in front up to `width` characters. -/
def showPadded (width n : Nat) : String :=
  let digits := Nat.toDigits 10 n
  String.ofList (List.replicate (width - digits.length) '0' ++ digits)

end SharedMemos.Text
