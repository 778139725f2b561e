import SharedMemos.Json.Basic
import SharedMemos.Text.Numeral
import SharedMemos.Text.Utf8

/-!
# Reading JSON numbers

A number is read into a whole part of at most 64 bits and a decimal exponent; digits that no longer
fit are dropped and counted by the exponent. The value is the whole part times or divided by a power
of ten, rounded after each step. A number that is too large for a finite value has none.
-/

namespace SharedMemos.Json

open SharedMemos.Text SharedMemos.Decimal

/-- The digit characters at the start of a text, and the rest. -/
def spanDigits (cs : List Sign) : List Char × List Sign :=
  let (digits, rest) := cs.span fun s => s.any Char.isDigit
  (digits.filterMap id, rest)

/-- The value of a digit character. -/
def digitValue (c : Char) : Nat :=
  c.toNat - '0'.toNat

/-- Appends digits to a whole part as long as it fits in 64 bits; gives the whole part and the
digits that are left. -/
def takeDigits (whole : Nat) : List Char → Nat × List Char
  | [] => (whole, [])
  | d :: ds =>
    let next := 10 * whole + digitValue d
    if next ≤ maxNat64 then takeDigits next ds else (whole, d :: ds)

/-- Divides by powers of ten whose exponents are at most 308, as often as `steps` allows, until the
decimal exponent is at least -308; gives the quotient and the exponent that is left. -/
def scaleDown : (steps : Nat) → Binary64 → Int → Binary64 × Int
  | 0, x, e => (x, e)
  | steps + 1, x, e =>
    if e < -308 && !x.isZero then scaleDown steps (x.divTen 308) (e + 308)
    else (x, e)

/-- The number `whole * 10 ^ e`, where it is finite. -/
def scaled? (whole : Nat) (e : Int) : Option Binary64 :=
  let start := Binary64.ofNat whole
  if 0 ≤ e then
    if e ≤ 308 then
      match start.mulTen e.toNat with
      | .infinite _ => none
      | x => some x
    else if whole = 0 then some start
    else none
  else
    let (x, e) := scaleDown 4 start e
    if -308 ≤ e then some (x.divTen e.natAbs) else some x

/-- A signed number as a value, where it is finite. -/
def ofMagnitude (negative : Bool) (x : Option Binary64) : Option Json :=
  x.map fun x => .float (if negative then x.neg else x)

/-- The value of a number with the given whole part, decimal exponent and written exponent. -/
def ofParts (negative : Bool) (whole : Nat) (e : Int) (exponent : Option (Bool × List Char)) :
    Option Json :=
  match exponent with
  | none => ofMagnitude negative (scaled? whole e)
  | some (down, digits) =>
    let n := digits.foldl (fun n d => 10 * n + digitValue d) 0
    if n ≤ maxInt32 then
      ofMagnitude negative (scaled? whole (if down then e - n else e + n))
    else if whole == 0 || down then ofMagnitude negative (some .zero)
    else none

/-- The exponent at the start of a text: whether it is negative, its digits, and the rest. The outer
option is `none` where a mark of an exponent is followed by no digit. -/
def exponent? (cs : List Sign) : Option (Option (Bool × List Char) × List Sign) :=
  match cs with
  | some c :: rest =>
    if c = 'e' ∨ c = 'E' then
      let (down, rest) :=
        match rest with
        | some '-' :: r => (true, r)
        | some '+' :: r => (false, r)
        | r => (false, r)
      let (digits, rest) := spanDigits rest
      if digits.isEmpty then none else some (some (down, digits), rest)
    else some (none, cs)
  | cs => some (none, cs)

/-- The value of a number without fraction and exponent. -/
def ofWhole (negative : Bool) (whole : Nat) (dropped : List Char) : Option Json :=
  if !dropped.isEmpty then ofMagnitude negative (scaled? whole dropped.length)
  else if !negative then some (.int whole)
  else if whole = 0 then some (.float Binary64.zero.neg)
  else if whole ≤ maxInt64 + 1 then some (.int (-(whole : Int)))
  else some (.float (Binary64.ofNat whole).neg)

/-- The number at the start of a text after its minus, and the rest of the text; `none` where no
number is written there. -/
def unsigned? (negative : Bool) (cs : List Sign) : Option (Option Json × List Sign) :=
  let (digits, rest) := spanDigits cs
  match digits with
  | [] => none
  | '0' :: _ :: _ => none
  | digits =>
    let (whole, dropped) := takeDigits 0 digits
    match rest with
    | some '.' :: rest =>
      let (fraction, rest) := spanDigits rest
      if fraction.isEmpty then none
      else
        let (whole, ignored) := takeDigits whole fraction
        let e : Int := dropped.length - (fraction.length - ignored.length : Nat)
        (exponent? rest).map fun (exponent, rest) => (ofParts negative whole e exponent, rest)
    | rest =>
      match exponent? rest with
      | none => none
      | some (none, rest) => some (ofWhole negative whole dropped, rest)
      | some (some x, rest) => some (ofParts negative whole dropped.length (some x), rest)

/-- The number at the start of a text, where it is finite, and the rest of the text; `none` where no
number is written there. -/
def number? (cs : List Sign) : Option (Option Json × List Sign) :=
  match cs with
  | some '-' :: rest => unsigned? true rest
  | cs => unsigned? false cs

end SharedMemos.Json
