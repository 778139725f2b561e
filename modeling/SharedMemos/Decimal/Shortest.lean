import SharedMemos.Decimal.Binary64

/-!
# Shortest decimal text of a floating-point number

The fewest digits that read back as the same number, and of those the nearest to it. A number is
compared with the two neighbours it has on the grid of multiples of a power of ten, for one digit,
two digits and so on; seventeen digits always suffice.
-/

namespace SharedMemos.Decimal

/-- A decimal number `digits * 10 ^ exponent`. -/
structure Scientific where
  /-- The digits, read as one whole number. -/
  digits : Nat
  /-- The power of ten that the last digit counts. -/
  exponent : Int
deriving Repr, DecidableEq

/-- The value of a decimal number. -/
def Scientific.value (d : Scientific) : Ratio :=
  .scaled d.digits 10 d.exponent

/-- The open interval of numbers that read back as one of the format, closed when `closed` holds. -/
structure Basin where
  /-- The number itself. -/
  center : Ratio
  /-- Lower end. -/
  lower : Ratio
  /-- Upper end. -/
  upper : Ratio
  /-- Do the ends read back as the number too? -/
  closed : Bool

/-- The interval around `m * 2 ^ q`. Below a power of two the neighbour is half as far away. -/
def Basin.around (m : Nat) (q : Int) : Basin :=
  let step := if m = Binary64.leadingDigit && decide (Binary64.minExponent < q) then 1 else 2
  { center := .scaled (4 * m) 2 (q - 2)
    lower := .scaled (4 * m - step) 2 (q - 2)
    upper := .scaled (4 * m + 2) 2 (q - 2)
    closed := m % 2 == 0 }

/-- Does `x` lie in the interval? -/
def Basin.contains (b : Basin) (x : Ratio) : Bool :=
  if b.closed then b.lower.le x && x.le b.upper else b.lower.lt x && x.lt b.upper

/-- The exponent of the leading decimal digit of a positive number. -/
def Ratio.leadingExponent (x : Ratio) : Int :=
  let guess : Int := (Nat.toDigits 10 x.num).length - (Nat.toDigits 10 x.den).length
  if Ratio.le (.scaled 1 10 guess) x then guess else guess - 1

/-- Is the upper neighbour at least as near to `x` as the lower neighbour `c` on the grid of
multiples of `10 ^ e`? -/
def nearerAbove (x : Ratio) (c : Nat) (e : Int) : Bool :=
  Ratio.le (.scaled (2 * c + 1) 10 e) ⟨2 * x.num, x.den⟩

/-- A decimal number in `b` that is a multiple of `10 ^ e`: the nearest one to the center, the upper
one of two that are equally near. -/
def Basin.onGrid (b : Basin) (e : Int) : Option Scientific :=
  let c := b.center.floorAt 10 e
  let below : Scientific := ⟨c, e⟩
  let above : Scientific := ⟨c + 1, e⟩
  match b.contains below.value, b.contains above.value with
  | true, true => some (if nearerAbove b.center c e then above else below)
  | true, false => some below
  | false, true => some above
  | false, false => none

/-- The first grid with a number in `b`, from that of the exponent `e` down to one finer by
`steps`. -/
def Basin.firstGrid (b : Basin) : (steps : Nat) → (e : Int) → Scientific
  | 0, e => ⟨b.center.floorAt 10 e, e⟩
  | steps + 1, e => (b.onGrid e).getD (b.firstGrid steps (e - 1))

/-- The shortest decimal number that reads back as the positive number `m * 2 ^ q`. -/
def shortest (m : Nat) (q : Int) : Scientific :=
  let b := Basin.around m q
  b.firstGrid 17 b.center.leadingExponent

/-- Positional notation of a decimal number, without a point for a whole one. -/
def Scientific.positional (d : Scientific) : String :=
  let ds := Nat.toDigits 10 d.digits
  match d.exponent with
  | .ofNat k => String.ofList (ds ++ List.replicate k '0')
  | .negSucc k =>
    let places := k + 1
    let padded := List.replicate (places + 1 - ds.length) '0' ++ ds
    let whole := padded.take (padded.length - places)
    let rest := padded.drop (padded.length - places)
    let fraction := (rest.reverse.dropWhile (· == '0')).reverse
    if fraction.isEmpty then String.ofList whole
    else String.ofList (whole ++ '.' :: fraction)

/-- The shortest text of a number in positional notation, without a point for a whole number. -/
def Binary64.show (x : Binary64) : String :=
  match x with
  | .nan => "NaN"
  | .infinite negative => if negative then "-inf" else "inf"
  | .finite negative m q =>
    let magnitude := if m = 0 then "0" else (shortest m q).positional
    if negative then "-" ++ magnitude else magnitude

end SharedMemos.Decimal
