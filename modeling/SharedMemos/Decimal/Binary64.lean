import SharedMemos.Decimal.Ratio

/-!
# Binary floating-point numbers

The numbers of the 64-bit binary format as exact data: a finite number is a whole significand times
a power of two. An operation calculates exactly and then rounds once, to the nearest number of the
format and from a tie to the even significand.
-/

namespace SharedMemos.Decimal

/-- A 64-bit binary floating-point number. -/
inductive Binary64 where
  /-- No number. -/
  | nan
  /-- An infinity. -/
  | infinite (negative : Bool)
  /-- The number `significand * 2 ^ exponent`, or its negative. -/
  | finite (negative : Bool) (significand : Nat) (exponent : Int)
deriving Repr, DecidableEq, Inhabited

namespace Binary64

/-- The place value of the first of fifty-three binary digits. -/
def leadingDigit : Nat := 0x10000000000000

/-- The exponent of the smallest numbers. -/
def minExponent : Int := -1074

/-- The largest exponent of a finite number. -/
def maxExponent : Int := 971

/-- Zero. -/
def zero : Binary64 := .finite false 0 minExponent

/-- The whole part `q` of a number, rounded up when the rest is more than a half, or a half and `q`
is odd. The rest is given by `order`, its comparison with a half. -/
def roundEven (q : Nat) (order : Ordering) : Nat :=
  match order with
  | .lt => q
  | .gt => q + 1
  | .eq => if q % 2 = 0 then q else q + 1

/-- The exponent of the format's grid around a positive number: fifty-three binary digits, fewer for
the smallest numbers. -/
def gridExponent (x : Ratio) : Int :=
  let guess : Int := (Nat.log2 x.num : Int) - (Nat.log2 x.den : Int) - 52
  let e := if x.floorAt 2 guess < leadingDigit then guess - 1 else guess
  max e minExponent

/-- The multiple of `2 ^ e` nearest to `x`, of two equally near ones the even multiple. -/
def nearestMultiple (x : Ratio) (e : Int) : Nat :=
  let q := x.floorAt 2 e
  let half := Ratio.scaled (2 * q + 1) 2 (e - 1)
  roundEven q (compare (x.num * half.den) (half.num * x.den))

/-- The number of the format nearest to a rational number. -/
def ofRatio (negative : Bool) (x : Ratio) : Binary64 :=
  if x.num = 0 then .finite negative 0 minExponent
  else
    let e := gridExponent x
    let q := nearestMultiple x e
    let (q, e) := if q = 2 * leadingDigit then (leadingDigit, e + 1) else (q, e)
    if maxExponent < e then .infinite negative
    else .finite negative q e

/-- The number of the format nearest to a natural number. -/
def ofNat (n : Nat) : Binary64 :=
  ofRatio false ⟨n, 1⟩

/-- The number of the format nearest to an integer. -/
def ofInt (n : Int) : Binary64 :=
  ofRatio (decide (n < 0)) ⟨n.natAbs, 1⟩

/-- The magnitude of a finite number. -/
def magnitude (m : Nat) (e : Int) : Ratio :=
  .scaled m 2 e

/-- The number with the other sign. -/
def neg : Binary64 → Binary64
  | .nan => .nan
  | .infinite negative => .infinite !negative
  | .finite negative m e => .finite (!negative) m e

/-- Product of a number and a positive rational number, rounded. -/
def mulRatio (x : Binary64) (r : Ratio) : Binary64 :=
  match x with
  | .finite negative m e => ofRatio negative ((magnitude m e).mul r)
  | x => x

/-- The power of ten nearest to `10 ^ k`, as an exact number. -/
def tenPower (k : Nat) : Ratio :=
  match ofNat (Nat.pow 10 k) with
  | .finite _ m e => magnitude m e
  | _ => ⟨Nat.pow 10 k, 1⟩

/-- Product with a power of ten, rounded. -/
def mulTen (x : Binary64) (k : Nat) : Binary64 :=
  x.mulRatio (tenPower k)

/-- Quotient by a power of ten, rounded. -/
def divTen (x : Binary64) (k : Nat) : Binary64 :=
  x.mulRatio (Ratio.div ⟨1, 1⟩ (tenPower k))

/-- Is a finite number that is not negative below another one? -/
def isBelow (x y : Binary64) : Bool :=
  match x, y with
  | .finite false m e, .finite false n f => (magnitude m e).lt (magnitude n f)
  | _, _ => false

/-- The whole number nearest to a finite number that is not negative; a half goes up. -/
def roundHalfUp : Binary64 → Nat
  | .finite false m e => (Ratio.scaled (2 * m) 2 e).roundedHalf
  | _ => 0

/-- Is the number zero, of either sign? -/
def isZero : Binary64 → Bool
  | .finite _ m _ => m == 0
  | _ => false

/-- Is the number finite and between `-bound` and `bound`? -/
def isWithin (bound : Nat) : Binary64 → Bool
  | .finite _ m e => (magnitude m e).le ⟨bound, 1⟩
  | _ => false

end Binary64

end SharedMemos.Decimal
