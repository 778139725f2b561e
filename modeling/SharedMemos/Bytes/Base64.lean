/-!
# Base 64

Standard alphabet, padding required. Reading accepts exactly the texts that writing produces: the
length is a multiple of four, padding stands only at the end, and the bits it drops are zero.
-/

namespace SharedMemos.Bytes

/-- The digit for a number below 64. -/
def base64Digit (n : Nat) : Char :=
  if n < 26 then Char.ofNat ('A'.toNat + n)
  else if n < 52 then Char.ofNat ('a'.toNat + (n - 26))
  else if n < 62 then Char.ofNat ('0'.toNat + (n - 52))
  else if n = 62 then '+'
  else '/'

/-- The number below 64 that a digit stands for. -/
def base64Value? (c : Char) : Option Nat :=
  if 'A' ≤ c ∧ c ≤ 'Z' then some (c.toNat - 'A'.toNat)
  else if 'a' ≤ c ∧ c ≤ 'z' then some (c.toNat - 'a'.toNat + 26)
  else if '0' ≤ c ∧ c ≤ '9' then some (c.toNat - '0'.toNat + 52)
  else if c = '+' then some 62
  else if c = '/' then some 63
  else none

/-- The digits of the bytes `bytes`, put after the reversed text `acc`. -/
def base64Onto (acc : List Char) : List UInt8 → List Char
  | [] => acc
  | [a] =>
    '=' :: '=' :: base64Digit (a.toNat % 4 * 16) :: base64Digit (a.toNat / 4) :: acc
  | [a, b] =>
    '=' :: base64Digit (b.toNat % 16 * 4) :: base64Digit (a.toNat % 4 * 16 + b.toNat / 16)
      :: base64Digit (a.toNat / 4) :: acc
  | a :: b :: c :: rest =>
    base64Onto
      (base64Digit (c.toNat % 64) :: base64Digit (b.toNat % 16 * 4 + c.toNat / 64)
        :: base64Digit (a.toNat % 4 * 16 + b.toNat / 16) :: base64Digit (a.toNat / 4) :: acc)
      rest

/-- The base 64 text of bytes. -/
def toBase64 (bytes : ByteArray) : String :=
  String.ofList (base64Onto [] bytes.data.toList).reverse

/-- The bytes of a last group of four digits, which may be padded. -/
def base64Last? (a b c d : Char) : Option (List UInt8) := do
  let x ← base64Value? a
  let y ← base64Value? b
  if c = '=' then
    if d = '=' && y % 16 == 0 then some [UInt8.ofNat (x * 4 + y / 16)] else none
  else
    let z ← base64Value? c
    if d = '=' then
      if z % 4 == 0 then
        some [UInt8.ofNat (x * 4 + y / 16), UInt8.ofNat (y % 16 * 16 + z / 4)]
      else none
    else
      let w ← base64Value? d
      some [UInt8.ofNat (x * 4 + y / 16), UInt8.ofNat (y % 16 * 16 + z / 4),
        UInt8.ofNat (z % 4 * 64 + w)]

/-- Reads groups of four digits, the last of which may be padded, after the bytes `acc`. -/
def base64From? (acc : ByteArray) : List Char → Option ByteArray
  | [] => some acc
  | [a, b, c, d] => do
    let bytes ← base64Last? a b c d
    some (bytes.foldl ByteArray.push acc)
  | a :: b :: c :: d :: rest => do
    let x ← base64Value? a
    let y ← base64Value? b
    let z ← base64Value? c
    let w ← base64Value? d
    base64From?
      (((acc.push (UInt8.ofNat (x * 4 + y / 16))).push (UInt8.ofNat (y % 16 * 16 + z / 4))).push
        (UInt8.ofNat (z % 4 * 64 + w)))
      rest
  | _ => none

/-- The bytes of a base 64 text, where it is one. -/
def ofBase64? (s : String) : Option ByteArray :=
  base64From? .empty s.toList

end SharedMemos.Bytes
