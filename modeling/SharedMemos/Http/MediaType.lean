import SharedMemos.Text.CharSet

/-!
# Media types

What a header says about the body: a type, a subtype that may have a suffix after a plus sign, and
parameters. Only whether the body is JSON is asked.
-/

namespace SharedMemos.Http.MediaType

open SharedMemos.Text

/-- May the character stand in a name or in a bare value? -/
def isTokenChar (c : Char) : Bool :=
  isAsciiAlphanumeric c || "!#$%&'*+-.^_\x60|~".toList.contains c

/-- May the character stand in a quoted value? -/
def isQuotable (c : Char) : Bool :=
  decide (' ' ≤ c) && decide (c ≤ '~')

/-- The text after the parameter's value at the start, which is up to a semicolon or the end. -/
def afterBareValue? (cs : List Char) : Option (List Char) :=
  match cs.takeWhile isTokenChar, cs.dropWhile isTokenChar with
  | _, [] => some []
  | _ :: _, ';' :: rest => some rest
  | _, _ => none

/-- The text after a quoted value, of which the opening quote has been read. The first character
never ends the value. -/
def afterQuotedValue? (cs : List Char) : Option (List Char) :=
  match cs with
  | [] => none
  | c :: cs =>
    if !isQuotable c then none
    else
      match cs.dropWhile fun c => isQuotable c && c != '"' with
      | '"' :: rest =>
        match rest.dropWhile (· == ' ') with
        | [] => some []
        | ';' :: rest => some rest
        | _ => none
      | _ => none

/-- The text after the parameter at the start. -/
def afterParameter? (cs : List Char) : Option (List Char) :=
  match cs.takeWhile isTokenChar, cs.dropWhile isTokenChar with
  | _ :: _, '=' :: '"' :: rest => afterQuotedValue? rest
  | _ :: _, '=' :: rest => afterBareValue? rest
  | _, _ => none

/-- Is the text after a semicolon a list of parameters? A parameter takes up characters, so that
`budget` need not be more than the length of the text. -/
def areParameters : (budget : Nat) → List Char → Bool
  | 0, cs => cs.isEmpty
  | budget + 1, cs =>
    match cs.dropWhile (· == ' ') with
    | [] => true
    | cs =>
      match afterParameter? cs with
      | some rest => areParameters budget rest
      | none => false

/-- Does a subtype say that the body is JSON? It does by itself, or by the suffix after the last
plus sign that is not its first character. -/
def isJsonSubtype (subtype : List Char) : Bool :=
  let isJson (cs : List Char) : Bool := asciiLower (String.ofList cs) == "json"
  match subtype with
  | [] => false
  | c :: cs =>
    let suffix := (cs.reverse.takeWhile (· != '+')).reverse
    if cs.contains '+' then isJson suffix || isJson (c :: cs.take (cs.length - suffix.length - 1))
    else isJson subtype

/-- Does the header say that the body is JSON? -/
def isJson (header : String) : Bool :=
  let kind := header.toList.takeWhile isTokenChar
  match header.toList.dropWhile isTokenChar with
  | '/' :: rest =>
    let subtype := rest.takeWhile isTokenChar
    let hasParameters :=
      match rest.dropWhile isTokenChar with
      | [] => true
      | ';' :: parameters => areParameters parameters.length parameters
      | _ => false
    asciiLower (String.ofList kind) == "application" && isJsonSubtype subtype && hasParameters
  | _ => false

end SharedMemos.Http.MediaType
