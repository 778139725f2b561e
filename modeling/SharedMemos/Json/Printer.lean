import SharedMemos.Json.Basic
import SharedMemos.Decimal.Shortest
import SharedMemos.Text.Numeral

/-!
# Writing JSON text

Compact text: no white space between tokens. Quotes, backslashes and controls are escaped, and every
other character stands as it is.
-/

namespace SharedMemos.Json

open SharedMemos.Text SharedMemos.Decimal

/-- How a character is written inside a JSON text. -/
def escapedChar (c : Char) : List Char :=
  if c = '"' then ['\\', '"']
  else if c = '\\' then ['\\', '\\']
  else if c = '\n' then ['\\', 'n']
  else if c = '\r' then ['\\', 'r']
  else if c = '\t' then ['\\', 't']
  else if c = '\x08' then ['\\', 'b']
  else if c = '\x0c' then ['\\', 'f']
  else if c.toNat < 0x20 then
    ['\\', 'u', '0', '0', Nat.digitChar (c.toNat / 16), Nat.digitChar (c.toNat % 16)]
  else [c]

/-- A text between quotes. -/
def quote (s : String) : String :=
  let body := s.toList.foldl (fun acc c => (escapedChar c).foldl String.push acc) "\""
  body.push '"'

/-- A finite number with a fraction or an exponent; anything else is `null`. -/
def floatText (x : Binary64) : String :=
  match x with
  | .nan | .infinite _ => "null"
  | .finite negative m q =>
    let sign := if negative then "-" else ""
    if m = 0 then sign ++ "0.0"
    else
      let d := shortest m q
      let exponent := d.exponent + (Nat.toDigits 10 d.digits).length
      if -5 < exponent ∧ exponent ≤ 16 then
        let text := d.positional
        sign ++ (if text.toList.contains '.' then text else text ++ ".0")
      else sign ++ showNat d.digits ++ "e" ++ showInt d.exponent

mutual

/-- The compact text of a value. -/
def compress : Json → String
  | .null => "null"
  | .bool b => if b then "true" else "false"
  | .int n => showInt n
  | .float x => floatText x
  | .string s => quote s
  | .array items => "[" ++ compressItems items ++ "]"
  | .object entries => "\x7b" ++ compressEntries entries ++ "\x7d"

/-- The texts of the items of an array, separated by commas. -/
def compressItems : List Json → String
  | [] => ""
  | [j] => j.compress
  | j :: js => j.compress ++ "," ++ compressItems js

/-- The texts of the entries of an object, separated by commas. -/
def compressEntries : List (String × Json) → String
  | [] => ""
  | [(key, j)] => quote key ++ ":" ++ j.compress
  | (key, j) :: es => quote key ++ ":" ++ j.compress ++ "," ++ compressEntries es

end

end SharedMemos.Json
