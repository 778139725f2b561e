/-!
# Nonnegative rational numbers

Quotients of natural numbers, compared by cross-multiplication. They carry the exact values between
the steps of a rounded calculation, so that every rounding is one visible step.
-/

namespace SharedMemos.Decimal

/-- A nonnegative rational number as a quotient; the denominator is not zero. -/
structure Ratio where
  /-- Numerator. -/
  num : Nat
  /-- Denominator. -/
  den : Nat
deriving Repr, DecidableEq

namespace Ratio

/-- The number `n * b ^ e`. -/
def scaled (n b : Nat) (e : Int) : Ratio :=
  match e with
  | .ofNat k => ⟨n * Nat.pow b k, 1⟩
  | .negSucc k => ⟨n, Nat.pow b (k + 1)⟩

/-- `x ≤ y`. -/
def le (x y : Ratio) : Bool :=
  decide (x.num * y.den ≤ y.num * x.den)

/-- `x < y`. -/
def lt (x y : Ratio) : Bool :=
  decide (x.num * y.den < y.num * x.den)

/-- Product. -/
def mul (x y : Ratio) : Ratio :=
  ⟨x.num * y.num, x.den * y.den⟩

/-- Quotient; the divisor is not zero. -/
def div (x y : Ratio) : Ratio :=
  ⟨x.num * y.den, x.den * y.num⟩

/-- The whole part of `x / b ^ e`. -/
def floorAt (x : Ratio) (b : Nat) (e : Int) : Nat :=
  match e with
  | .ofNat k => x.num / (x.den * Nat.pow b k)
  | .negSucc k => x.num * Nat.pow b (k + 1) / x.den

/-- Half the number, rounded to the nearest whole number; a half goes up. -/
def roundedHalf (x : Ratio) : Nat :=
  (x.num / x.den + 1) / 2

end Ratio

end SharedMemos.Decimal
