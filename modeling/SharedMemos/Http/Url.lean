import SharedMemos.Json.Token
import SharedMemos.Text.Blank

/-!
# Percent signs and forms

In an address, a percent sign and two hexadecimal digits stand for a byte; any other percent sign
stands for itself. A query is a form: pairs of a key and a value, where a plus sign stands for a
blank.
-/

namespace SharedMemos.Http

open SharedMemos.Text

/-- The byte that a percent sign and two digits stand for. -/
def escapedByte? (high low : Char) : Option UInt8 := do
  let high ← Json.hexValue? high
  let low ← Json.hexValue? low
  return UInt8.ofNat (high * 16 + low)

/-- The bytes that a text with percent signs stands for. -/
def percentDecode : List Char → List UInt8
  | '%' :: high :: low :: rest =>
    match escapedByte? high low with
    | some b => b :: percentDecode rest
    | none => String.utf8EncodeChar '%' ++ percentDecode (high :: low :: rest)
  | c :: rest => String.utf8EncodeChar c ++ percentDecode rest
  | [] => []

/-- The text that a text with percent signs stands for, if the bytes are one. -/
def percentText? (cs : List Char) : Option String :=
  String.fromUTF8? ⟨(percentDecode cs).toArray⟩

/-- A form: pairs of a key and a value. -/
abbrev Form := List (String × String)

namespace Form

/-- A key or a value. -/
def component? (cs : List Char) : Option String :=
  percentText? (cs.map fun c => if c = '+' then ' ' else c)

/-- A pair: what stands before the first equals sign, and what stands after it. -/
def pair? (cs : List Char) : Option (String × String) := do
  let key ← component? (cs.takeWhile (· != '='))
  let value ← component? ((cs.dropWhile (· != '=')).drop 1)
  return (key, value)

/-- The form of a query. -/
def ofQuery? (query : String) : Option Form :=
  ((splitAt '&' query.toList).filter (!·.isEmpty)).mapM pair?

/-- The value of a key, if there is one; fails where a key stands twice. -/
def single? (f : Form) (key : String) : Option (Option String) :=
  match f.filter (·.1 == key) with
  | [] => some none
  | [(_, value)] => some (some value)
  | _ => none

/-- What the value of a key reads as, if there is one; fails where it cannot be read. -/
def read? {α : Type} (f : Form) (key : String) (read : String → Option α) : Option (Option α) := do
  match ← f.single? key with
  | none => return none
  | some value => return some (← read value)

end Form

end SharedMemos.Http
