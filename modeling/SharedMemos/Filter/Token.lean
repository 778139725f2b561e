import SharedMemos.Text.Blank
import SharedMemos.Text.Numeral
import SharedMemos.Text.Quoted
import SharedMemos.Filter.Fault

/-!
# Tokens of a filter

A filter text is a sequence of tokens with blanks between them. Every token is paired with the
offset, in bytes of UTF-8, at which it starts.
-/

namespace SharedMemos.Filter

open SharedMemos.Text

/-- A token and the offset at which it starts. -/
abbrev Lexeme := Token × Nat

/-- The tokens of a text, and the offset at which the text ends. -/
structure Lexemes where
  tokens : List Lexeme
  stop : Nat
deriving Repr, DecidableEq

/-- The token of two symbol characters that starts with `c` and `d`. -/
def doubleSymbol? (c d : Char) : Option Token :=
  if c = '&' ∧ d = '&' then some .andAnd
  else if c = '|' ∧ d = '|' then some .orOr
  else if c = '=' ∧ d = '=' then some .eqEq
  else if c = '!' ∧ d = '=' then some .notEq
  else if c = '<' ∧ d = '=' then some .le
  else if c = '>' ∧ d = '=' then some .ge
  else none

/-- The token of one symbol character. -/
def singleSymbol? (c : Char) : Option Token :=
  match c with
  | '<' => some .lt
  | '>' => some .gt
  | '!' => some .bang
  | '(' => some .leftParen
  | ')' => some .rightParen
  | '[' => some .leftBracket
  | ']' => some .rightBracket
  | ',' => some .comma
  | '.' => some .dot
  | '+' => some .plus
  | '-' => some .minus
  | '*' => some .star
  | '/' => some .slash
  | '%' => some .percent
  | _ => none

/-- The character that an escape stands for. -/
def escape? (c : Char) : Option Char :=
  match c with
  | 'n' => some '\n'
  | 't' => some '\t'
  | 'r' => some '\r'
  | '\\' => some '\\'
  | '"' => some '"'
  | '\'' => some '\''
  | _ => none

/-- What a step of the scan gives: a token, how many bytes it takes, and the text after it. -/
structure Step where
  token : Token
  bytes : Nat
  rest : List Char

/-- Reads a text literal up to its closing quote. `acc` holds the characters so far, newest first,
and `bytes` counts what has been read. -/
def scanText (quote : Char) : (acc : List Char) → (bytes : Nat) → List Char →
    Except SyntaxFault Step
  | _, _, [] => .error .unterminatedText
  | acc, bytes, c :: cs =>
    if c = quote then .ok ⟨.string (String.ofList acc.reverse), bytes + c.utf8Size, cs⟩
    else if c = '\\' then
      match cs with
      | [] => .error .unterminatedText
      | e :: rest =>
        match escape? e with
        | some x => scanText quote (x :: acc) (bytes + c.utf8Size + e.utf8Size) rest
        | none => .error (.unknownEscape e)
    else scanText quote (c :: acc) (bytes + c.utf8Size) cs

/-- May an identifier start with the character? -/
def isIdentStart (c : Char) : Bool :=
  c.isAlpha || c == '_'

/-- May an identifier go on with the character? -/
def isIdentPart (c : Char) : Bool :=
  c.isAlphanum || c == '_'

/-- Reads a number. -/
def scanNumber (cs : List Char) : Except SyntaxFault Step :=
  let digits := cs.takeWhile Char.isDigit
  let text := String.ofList digits
  match int64? text with
  | some n => .ok ⟨.int n, digits.length, cs.dropWhile Char.isDigit⟩
  | none => .error (.integerTooLarge text)

/-- Reads an identifier. -/
def scanIdent (cs : List Char) : Step :=
  let name := cs.takeWhile isIdentPart
  ⟨.ident (String.ofList name), name.length, cs.dropWhile isIdentPart⟩

/-- Reads the token that starts with the nonblank character `c`. -/
def scanToken (c : Char) (cs : List Char) : Except SyntaxFault Step :=
  match cs.head?.bind (doubleSymbol? c) with
  | some t => .ok ⟨t, 2, cs.drop 1⟩
  | none =>
    match singleSymbol? c with
    | some t => .ok ⟨t, 1, cs⟩
    | none =>
      if c = '"' ∨ c = '\'' then scanText c [] c.utf8Size cs
      else if c.isDigit then scanNumber (c :: cs)
      else if isIdentStart c then .ok (scanIdent (c :: cs))
      else .error (.unexpectedChar c)

/-- Reads tokens up to the end of the text. Every step takes a character, so that the length of the
text is fuel enough. -/
def scanFrom : (fuel : Nat) → (offset : Nat) → List Char → Except SyntaxError Lexemes
  | _, offset, [] => .ok ⟨[], offset⟩
  | 0, offset, _ :: _ => .ok ⟨[], offset⟩
  | fuel + 1, offset, c :: cs =>
    if isBlank c then scanFrom fuel (offset + c.utf8Size) cs
    else
      match scanToken c cs with
      | .error fault => .error ⟨fault, offset⟩
      | .ok step =>
        match scanFrom fuel (offset + step.bytes) step.rest with
        | .error e => .error e
        | .ok found => .ok ⟨(step.token, offset) :: found.tokens, found.stop⟩

/-- The tokens of a filter text. -/
def tokenize (text : String) : Except SyntaxError Lexemes :=
  scanFrom text.toList.length 0 text.toList

end SharedMemos.Filter
