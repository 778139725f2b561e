import SharedMemos.Json.Token

/-!
# Reading JSON text

`Json.parse?` accepts a text that holds one value and nothing else.
-/

namespace SharedMemos.Json

open SharedMemos.Text

mutual

/-- The value at the start of a text, and the text after it. Every bracket is closed, so that a
well-formed text has a sign for every call, and is itself budget enough. -/
def parseValue? : (budget : List Sign) → List Sign → Option (Json × List Sign)
  | [], _ => none
  | _ :: budget, cs =>
    match skipSpace cs with
    | some '[' :: rest =>
      match after? ']' rest with
      | some rest => some (.array [], rest)
      | none => (parseItems? budget [] rest).map fun (items, rest) => (.array items, rest)
    | some '\x7b' :: rest =>
      match after? '\x7d' rest with
      | some rest => some (.object [], rest)
      | none => (parseEntries? budget [] rest).map fun (entries, rest) => (.object entries, rest)
    | cs => do
      let (j, rest) ← scalar? cs
      return (← j, rest)

/-- The items of an array after those in `acc`, up to its closing bracket. -/
def parseItems? : (budget : List Sign) → (acc : List Json) → List Sign →
    Option (List Json × List Sign)
  | [], _, _ => none
  | _ :: budget, acc, cs =>
    match parseValue? budget cs with
    | none => none
    | some (j, rest) =>
      match skipSpace rest with
      | some ',' :: rest => parseItems? budget (j :: acc) rest
      | some ']' :: rest => some ((j :: acc).reverse, rest)
      | _ => none

/-- The entries of an object after those in `acc`, up to its closing brace. -/
def parseEntries? : (budget : List Sign) → (acc : List (String × Json)) → List Sign →
    Option (List (String × Json) × List Sign)
  | [], _, _ => none
  | _ :: budget, acc, cs =>
    match text? cs with
    | none => none
    | some (key, rest) =>
      match (after? ':' rest).bind (parseValue? budget) with
      | none => none
      | some (j, rest) =>
        match skipSpace rest with
        | some ',' :: rest => parseEntries? budget ((key, j) :: acc) rest
        | some '\x7d' :: rest => some (((key, j) :: acc).reverse, rest)
        | _ => none

end

/-- The value of a text that holds one value and nothing else. -/
def parse? (text : String) : Option Json := do
  let cs := signsOf text
  let (j, rest) ← parseValue? cs cs
  if (skipSpace rest).isEmpty then return j else none

end SharedMemos.Json
