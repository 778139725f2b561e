import SharedMemos.Text.Blank
import SharedMemos.Text.Word

/-!
# Properties of content

Four flags of a memo's markdown text: does it hold a link, a task list, code, and a task that is not
done. Fence lines open and close blocks of code in turn. What stands inside a block counts for
nothing else; inside a line, spans between backquotes are code and are taken out before the line is
looked at.
-/

namespace SharedMemos

open SharedMemos.Text

/-- The flags of a content. -/
structure Property where
  hasLink : Bool := false
  hasTaskList : Bool := false
  hasCode : Bool := false
  hasIncompleteTasks : Bool := false
deriving Repr, DecidableEq, Inhabited

namespace Property

/-- No flag. -/
def empty : Property := {}

/-- The flags of either. -/
def or (p q : Property) : Property where
  hasLink := p.hasLink || q.hasLink
  hasTaskList := p.hasTaskList || q.hasTaskList
  hasCode := p.hasCode || q.hasCode
  hasIncompleteTasks := p.hasIncompleteTasks || q.hasIncompleteTasks

/-- A line that opens or closes a block of code: three backquotes or tildes after blanks. -/
def isFence (line : List Char) : Bool :=
  let rest := trimLeft line
  "```".toList.isPrefixOf rest || "~~~".toList.isPrefixOf rest

/-- From the pieces of a line between its backquotes: the text outside spans of code, and whether
there is a span. A nonempty piece between two backquotes is a span; a backquote that opens none is
text. -/
def outsideSpans : List (List Char) → List Char × Bool
  | [] => ([], false)
  | [last] => (last, false)
  | [text, last] => (text ++ '\x60' :: last, false)
  | text :: span :: next :: rest =>
    if span.isEmpty then
      let (outside, found) := outsideSpans (span :: next :: rest)
      (text ++ '\x60' :: outside, found)
    else (text ++ (outsideSpans (next :: rest)).1, true)

/-- The text after a list marker: a bullet, or a number with a point or a bracket. -/
def afterMarker? (cs : List Char) : Option (List Char) :=
  match cs with
  | [] => none
  | c :: rest =>
    if c = '-' ∨ c = '*' ∨ c = '+' then some rest
    else if isDecimal c then
      match cs.dropWhile isDecimal with
      | d :: rest => if d = '.' ∨ d = ')' then some rest else none
      | [] => none
    else none

/-- The mark between the square brackets of a task item. -/
def taskMark? (line : List Char) : Option Char := do
  let rest ← afterMarker? (trimLeft line)
  let box := trimLeft rest
  if box.length = rest.length then none
  else
    match box with
    | '[' :: mark :: ']' :: _ =>
      if mark = ' ' ∨ mark = 'x' ∨ mark = 'X' then some mark else none
    | _ => none

/-- Does `p` hold of a text or of one of its ends? -/
def anySuffix (p : List Char → Bool) : List Char → Bool
  | [] => p []
  | c :: cs => p (c :: cs) || anySuffix p cs

/-- May the character stand in a bare address? -/
def isAddressChar (c : Char) : Bool :=
  !(isBlank c || c == '<' || c == '>' || c == '(' || c == ')')

/-- Does a bare web address start here? -/
def startsAddress (cs : List Char) : Bool :=
  let startsAfter (scheme : List Char) : Bool :=
    scheme.isPrefixOf cs && ((cs.drop scheme.length).head?.map isAddressChar).getD false
  startsAfter "http://".toList || startsAfter "https://".toList

/-- Does a link `[text](address)` start here? -/
def startsLink (cs : List Char) : Bool :=
  match cs with
  | '[' :: rest =>
    match rest.dropWhile fun c => c != ']' && c != '\n' with
    | ']' :: '(' :: rest =>
      let inside := fun c => !(c == ')' || isBlank c)
      !(rest.takeWhile inside).isEmpty && (rest.dropWhile inside).head? == some ')'
    | _ => false
  | _ => false

/-- The flags of a line outside blocks of code. -/
def ofLine (line : List Char) : Property :=
  let (text, hasSpan) := outsideSpans (splitAt '\x60' line)
  let mark := taskMark? text
  { hasLink := anySuffix startsAddress text || anySuffix startsLink text
    hasTaskList := mark.isSome
    hasCode := hasSpan
    hasIncompleteTasks := mark == some ' ' }

/-- The flags of lines; `inBlock` tells whether they start inside a block of code. -/
def ofLines : (inBlock : Bool) → List (List Char) → Property
  | _, [] => empty
  | inBlock, line :: rest =>
    if isFence line then { empty with hasCode := true }.or (ofLines (!inBlock) rest)
    else if inBlock then ofLines inBlock rest
    else (ofLine line).or (ofLines inBlock rest)

/-- The flags of a content. -/
def ofContent (content : String) : Property :=
  ofLines false (lines content.toList)

end Property

end SharedMemos
