import SharedMemos.Json.Number

/-!
# The parts of JSON text

Texts in quotes, words and numbers, and how to pass over a value that is not needed. A value that is
passed over need only be delimited: a text in it may hold half a surrogate pair or a byte that
belongs to no character, and a number may be too large.
-/

namespace SharedMemos.Json

open SharedMemos.Text

/-- The four white-space characters of JSON. -/
def isSpace (s : Sign) : Bool :=
  s == some ' ' || s == some '\t' || s == some '\n' || s == some '\r'

/-- The text without white space at its start. -/
def skipSpace (cs : List Sign) : List Sign :=
  cs.dropWhile isSpace

/-- The text after a character, which white space may precede. -/
def after? (c : Char) (cs : List Sign) : Option (List Sign) :=
  match skipSpace cs with
  | s :: rest => if s = some c then some rest else none
  | [] => none

/-- The text after a word. -/
def afterWord? (word : String) (cs : List Sign) : Option (List Sign) :=
  let signs := signsOf word
  if signs.isPrefixOf cs then some (cs.drop signs.length) else none

/-! ### Texts in quotes -/

/-- The value of a hexadecimal digit. -/
def hexValue? (c : Char) : Option Nat :=
  if '0' ≤ c ∧ c ≤ '9' then some (c.toNat - '0'.toNat)
  else if 'a' ≤ c ∧ c ≤ 'f' then some (c.toNat - 'a'.toNat + 10)
  else if 'A' ≤ c ∧ c ≤ 'F' then some (c.toNat - 'A'.toNat + 10)
  else none

/-- The number of four hexadecimal digits. -/
def hex4? (a b c d : Sign) : Option Nat := do
  let a ← a.bind hexValue?
  let b ← b.bind hexValue?
  let c ← c.bind hexValue?
  let d ← d.bind hexValue?
  some (((a * 16 + b) * 16 + c) * 16 + d)

/-- The character that a one-letter escape stands for. -/
def escaped? (c : Char) : Option Char :=
  match c with
  | '"' => some '"'
  | '\\' => some '\\'
  | '/' => some '/'
  | 'b' => some '\x08'
  | 'f' => some '\x0c'
  | 'n' => some '\n'
  | 'r' => some '\r'
  | 't' => some '\t'
  | _ => none

/-- Reads to the closing quote: the characters and what stands after the quote, or `none` where the
text goes wrong before. `acc` holds the characters so far, newest first; it is `none` once half a
surrogate pair or a byte that belongs to no character has been met, so that the quoted signs are no
text. -/
def scanQuote (acc : Option (List Char)) : List Sign → Option (Option (List Char) × List Sign)
  | [] => none
  | some '"' :: rest => some (acc.map List.reverse, rest)
  | some '\\' :: some 'u' :: a :: b :: c :: d :: rest =>
    match hex4? a b c d with
    | none => none
    | some n =>
      if 0xD800 ≤ n ∧ n < 0xDC00 then
        match rest with
        | some '\\' :: some 'u' :: a' :: b' :: c' :: d' :: rest' =>
          match hex4? a' b' c' d' with
          | none => none
          | some m =>
            if 0xDC00 ≤ m ∧ m < 0xE000 then
              let code := 0x10000 + (n - 0xD800) * 0x400 + (m - 0xDC00)
              scanQuote (acc.map (Char.ofNat code :: ·)) rest'
            else scanQuote none rest'
        | rest => scanQuote none rest
      else if 0xDC00 ≤ n ∧ n < 0xE000 then scanQuote none rest
      else scanQuote (acc.map (Char.ofNat n :: ·)) rest
  | some '\\' :: some c :: rest =>
    match escaped? c with
    | none => none
    | some x => scanQuote (acc.map (x :: ·)) rest
  | some '\\' :: _ => none
  | some c :: rest => if c.toNat < 0x20 then none else scanQuote (acc.map (c :: ·)) rest
  | none :: rest => scanQuote none rest

/-- What is quoted after an opening quote, where it is a text, and what stands after the closing
quote. -/
def quoted? (cs : List Sign) : Option (Option String × List Sign) :=
  (scanQuote (some []) cs).map fun (text, rest) => (text.map String.ofList, rest)

/-- A text in quotes, which white space may precede, and what stands after it. -/
def text? (cs : List Sign) : Option (String × List Sign) := do
  let rest ← after? '"' cs
  let (text, rest) ← quoted? rest
  return (← text, rest)

/-! ### Values -/

/-- The value at the start of a text, where it is neither an array nor an object, and the text after
it. What is written may stand for no value: a number that is too large, or signs in quotes that are
no text. -/
def scalar? (cs : List Sign) : Option (Option Json × List Sign) :=
  match cs with
  | some 'n' :: _ => (afterWord? "null" cs).map fun rest => (some .null, rest)
  | some 't' :: _ => (afterWord? "true" cs).map fun rest => (some (.bool true), rest)
  | some 'f' :: _ => (afterWord? "false" cs).map fun rest => (some (.bool false), rest)
  | some '"' :: rest => (quoted? rest).map fun (text, rest) => (text.map .string, rest)
  | cs => number? cs

/-- A bracket that is open around a value. -/
inductive Bracket where
  | square
  | curly
deriving Repr, DecidableEq

namespace Bracket

/-- The character that closes it. -/
def closing : Bracket → Char
  | square => ']'
  | curly => '\x7d'

/-- Passes over what stands before a value inside it: in an object a key and a colon. -/
def skipKey? : Bracket → List Sign → Option (List Sign)
  | square, cs => some cs
  | curly, cs => do
    let rest ← after? '"' cs
    let (_, rest) ← quoted? rest
    after? ':' rest

/-- Passes over what stands after a value inside brackets, innermost first: closing brackets, and,
where some stay open, a comma and all that precedes the next value. Gives the brackets that stay
open. -/
def afterValue? : List Bracket → List Sign → Option (List Bracket × List Sign)
  | [], cs => some ([], cs)
  | b :: outer, cs =>
    match after? b.closing cs with
    | some rest => afterValue? outer rest
    | none => do
      let rest ← after? ',' cs
      let rest ← b.skipKey? rest
      return (b :: outer, rest)

/-- Passes over the opening of an array or an object inside brackets, and over the whole of an empty
one. -/
def open? (b : Bracket) (outer : List Bracket) (cs : List Sign) :
    Option (List Bracket × List Sign) :=
  match after? b.closing cs with
  | some rest => afterValue? outer rest
  | none => do
    let rest ← b.skipKey? cs
    return (b :: outer, rest)

end Bracket

/-- Passes over a value inside brackets, up to the next place where a value is due. -/
def skipPart? (outer : List Bracket) (cs : List Sign) : Option (List Bracket × List Sign) :=
  match skipSpace cs with
  | some '[' :: rest => Bracket.square.open? outer rest
  | some '\x7b' :: rest => Bracket.curly.open? outer rest
  | cs => do
    let (_, rest) ← scalar? cs
    Bracket.afterValue? outer rest

/-- Passes over values until no bracket is open. Every step takes up a sign, so that the text itself
is budget enough. -/
def skipParts? : (budget : List Sign) → (outer : List Bracket) → List Sign → Option (List Sign)
  | [], _, _ => none
  | _ :: budget, outer, cs =>
    match skipPart? outer cs with
    | none => none
    | some ([], rest) => some rest
    | some (outer, rest) => skipParts? budget outer rest

/-- The text after the value at its start. -/
def skipValue? (cs : List Sign) : Option (List Sign) :=
  skipParts? cs [] cs

end SharedMemos.Json
