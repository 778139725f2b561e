import SharedMemos.Time.Basic
import SharedMemos.Time.Calendar
import SharedMemos.Text.Blank
import SharedMemos.Text.Numeral

/-!
# Written times

Times in the form of RFC 3339. Writing gives Coordinated Universal Time with as many digits of a
second as are needed, in groups of three. Reading also accepts blanks between the parts, a lower
case or missing `T`, a signed year, digits of a second beyond the ninth, and a leap second.
-/

namespace SharedMemos

open SharedMemos.Text SharedMemos.Calendar

/-- A written time: whole seconds since the start of 1970, and nanoseconds after them. A leap second
is written as a second of up to two thousand million nanoseconds. -/
structure Timestamp where
  second : Int
  nano : Nat
deriving Repr, DecidableEq

namespace Timestamp

/-- The instant of a written time; what is below a microsecond is dropped. -/
def toInstant (t : Timestamp) : Instant :=
  ⟨t.second * 1000000 + (t.nano / 1000 : Nat)⟩

/-- An instant as a time to be written. -/
def ofInstant (t : Instant) : Timestamp :=
  { second := t.seconds, nano := (t.micros - t.seconds * 1000000).toNat * 1000 }

/-- The digits of a year: four of them, and a sign where the year is outside 0 to 9999. -/
def showYear (year : Int) : String :=
  if year < 0 then "-" ++ showPadded 4 year.natAbs
  else if 9999 < year then "+" ++ showPadded 4 year.natAbs
  else showPadded 4 year.natAbs

/-- The fraction of a second, in as few groups of three digits as hold it. -/
def showFraction (nano : Nat) : String :=
  if nano = 0 then ""
  else if nano % 1000000 = 0 then "." ++ showPadded 3 (nano / 1000000)
  else if nano % 1000 = 0 then "." ++ showPadded 6 (nano / 1000)
  else "." ++ showPadded 9 nano

/-- The text of a time. -/
def toText (t : Timestamp) : String :=
  let days := t.second.fdiv 86400
  let ofDay := (t.second - days * 86400).toNat
  let date := Date.ofDays days
  let leap := t.nano / 1000000000
  showYear date.year ++ "-" ++ showPadded 2 date.month ++ "-" ++ showPadded 2 date.day
    ++ "T" ++ showPadded 2 (ofDay / 3600) ++ ":" ++ showPadded 2 (ofDay / 60 % 60)
    ++ ":" ++ showPadded 2 (ofDay % 60 + leap) ++ showFraction (t.nano % 1000000000) ++ "Z"

/-- A number of one to `width` digits after blanks, and the text after it. -/
def number? (width : Nat) (cs : List Char) : Option (Nat × List Char) :=
  let cs := trimLeft cs
  let digits := (cs.takeWhile Char.isDigit).take width
  (digitsValue? digits).map fun n => (n, cs.drop digits.length)

/-- A year after blanks: up to four digits, or a sign and any number of digits. -/
def year? (cs : List Char) : Option (Int × List Char) :=
  match trimLeft cs with
  | '-' :: rest =>
    (digitsValue? (rest.takeWhile Char.isDigit)).map fun n =>
      (-(n : Int), rest.dropWhile Char.isDigit)
  | '+' :: rest =>
    (digitsValue? (rest.takeWhile Char.isDigit)).map fun n =>
      ((n : Int), rest.dropWhile Char.isDigit)
  | rest => (number? 4 rest).map fun (n, rest) => ((n : Int), rest)

/-- The text after blanks and the character `c`. -/
def after? (c : Char) (cs : List Char) : Option (List Char) :=
  match trimLeft cs with
  | d :: rest => if d = c then some rest else none
  | [] => none

/-- Nanoseconds after a point, of which nine digits count; none where no point stands. -/
def fraction? (cs : List Char) : Option (Nat × List Char) :=
  match cs with
  | '.' :: rest =>
    let digits := (rest.takeWhile Char.isDigit).take 9
    (digitsValue? digits).map fun n =>
      (n * Nat.pow 10 (9 - digits.length), rest.dropWhile Char.isDigit)
  | rest => some (0, rest)

/-- Seconds east of Greenwich: `Z`, `UTC`, or a sign, two digits of hours and two of minutes. -/
def offset? (cs : List Char) : Option (Int × List Char) :=
  match cs with
  | 'Z' :: rest | 'z' :: rest => some (0, rest)
  | sign :: h1 :: h2 :: rest =>
    if [sign, h1, h2].map Char.toLower = ['u', 't', 'c'] then some (0, rest)
    else if sign = '+' ∨ sign = '-' ∨ sign = '−' then do
      let hours ← digitsValue? [h1, h2]
      match rest.dropWhile fun c => c == ':' || isBlank c with
      | m1 :: m2 :: rest =>
        let minutes ← digitsValue? [m1, m2]
        if 60 ≤ minutes then none
        else
          let seconds : Int := hours * 3600 + minutes * 60
          some (if sign = '+' then seconds else -seconds, rest)
      | _ => none
    else none
  | _ => none

/-- Is a second between those of the earliest and of the latest instant? A leap second after the
latest belongs to it. -/
def hasDate (second : Int) : Bool :=
  decide (Instant.earliest.seconds ≤ second) && decide (second ≤ Instant.latest.seconds)

/-- The time of a date, a time of day and an offset, where there is one. -/
def ofParts? (date : Date) (hour minute second nano : Nat) (offset : Int) : Option Timestamp :=
  if !date.isValid || decide (23 < hour) || decide (59 < minute) || decide (60 < second)
      || decide (86400 ≤ offset.natAbs) then none
  else
    let (second, nano) := if second = 60 then (59, nano + 1000000000) else (second, nano)
    let wallClock := date.toDays * 86400 + (hour * 3600 + minute * 60 + second : Nat)
    let t : Timestamp := { second := wallClock - offset, nano := nano }
    if hasDate t.second && hasDate wallClock then some t else none

/-- Reads a written time. -/
def ofText? (text : String) : Option Timestamp := do
  let (year, cs) ← year? text.toList
  let cs ← after? '-' cs
  let (month, cs) ← number? 2 cs
  let cs ← after? '-' cs
  let (day, cs) ← number? 2 cs
  let cs ←
    match cs with
    | 'T' :: cs | 't' :: cs | ' ' :: cs => some cs
    | _ => none
  let (hour, cs) ← number? 2 cs
  let cs ← after? ':' cs
  let (minute, cs) ← number? 2 cs
  let cs ← after? ':' cs
  let (second, cs) ← number? 2 cs
  let (nano, cs) ← fraction? cs
  let (offset, cs) ← offset? (trimLeft cs)
  if (trimLeft cs).isEmpty then
    ofParts? { year := year, month := month, day := day } hour minute second nano offset
  else none

end Timestamp

/-- The text of an instant. -/
def Instant.toText (t : Instant) : String :=
  (Timestamp.ofInstant t).toText

end SharedMemos
