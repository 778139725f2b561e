import SharedMemos.Json.Token

/-!
# Reading typed values

A reader turns the value at the start of a text into a value of a domain type, or tells why not: the
text is faulty there, or what is written has another form. It reads no further than it needs, so
that the first fault of the text decides.

A record is written as an object of its fields, or as an array of them in order. Unknown fields are
passed over, repeated ones are refused.
-/

namespace SharedMemos.Json

open SharedMemos.Text SharedMemos.Decimal

/-- Why a value cannot be read. -/
inductive Fault where
  /-- The text is not well formed. -/
  | malformed
  /-- The text is well formed so far and holds something else. -/
  | mismatch
deriving Repr, DecidableEq

/-- A reader of values of type `α`: the value at the start of a text, and the text after it. -/
abbrev Reader (α : Type) := List Sign → Except Fault (α × List Sign)

/-- The text goes wrong where there is nothing. -/
def wellFormed {α : Type} (a : Option α) : Except Fault α :=
  a.elim (.error .malformed) .ok

/-- What is wrong with a text at whose start another value is due. The start of an array or an
object is enough to tell it; any other value must be one. -/
def unexpected (cs : List Sign) : Fault :=
  match cs with
  | some '[' :: _ | some '\x7b' :: _ => .mismatch
  | cs =>
    match scalar? cs with
    | some (some _, _) => .mismatch
    | _ => .malformed

/-- A value that is neither an array nor an object, as `pick` takes it. -/
def readScalar {α : Type} (pick : Json → Option α) : Reader α := fun cs =>
  let cs := skipSpace cs
  match scalar? cs with
  | some (some j, rest) => (pick j).elim (.error .mismatch) fun a => .ok (a, rest)
  | _ => .error (unexpected cs)

/-- The value `null`. -/
def readNull : Reader Unit :=
  readScalar fun j => match j with
    | .null => some ()
    | _ => none

/-- A text. -/
def readString : Reader String :=
  readScalar fun j => match j with
    | .string s => some s
    | _ => none

/-- A truth value. -/
def readBool : Reader Bool :=
  readScalar fun j => match j with
    | .bool b => some b
    | _ => none

/-- An integer from `low` to `high`. -/
def readInt (low high : Int) : Reader Int :=
  readScalar fun j => match j with
    | .int n => if low ≤ n ∧ n ≤ high then some n else none
    | _ => none

/-- A signed 64-bit integer. -/
def readInt64 : Reader Int :=
  readInt minInt64 maxInt64

/-- A signed 32-bit integer. -/
def readInt32 : Reader Int :=
  readInt (-(maxInt32 : Int) - 1) maxInt32

/-- A floating-point number. -/
def readFloat : Reader Binary64 :=
  readScalar fun j => match j with
    | .int n => some (.ofInt n)
    | .float x => some x
    | _ => none

/-- The value that a function makes of what is read. -/
def Reader.map {α β : Type} (f : α → β) (read : Reader α) : Reader β := fun cs =>
  (read cs).map fun (a, rest) => (f a, rest)

/-- A value or `null`. -/
def readOption {α : Type} (read : Reader α) : Reader (Option α) := fun cs =>
  match skipSpace cs with
  | some 'n' :: rest => (wellFormed (afterWord? "ull" rest)).map fun rest => (none, rest)
  | cs => Reader.map some read cs

/-- The items of an array after those in `acc`, up to its closing bracket. Every item takes up a
sign, so that the text itself is budget enough. -/
def readItems {α : Type} (read : Reader α) : (budget : List Sign) → (acc : List α) →
    Reader (List α)
  | [], _, _ => .error .malformed
  | _ :: budget, acc, cs =>
    match read cs with
    | .error fault => .error fault
    | .ok (a, rest) =>
      match skipSpace rest with
      | some ',' :: rest => readItems read budget (a :: acc) rest
      | some ']' :: rest => .ok ((a :: acc).reverse, rest)
      | _ => .error .malformed

/-- An array. -/
def readList {α : Type} (read : Reader α) : Reader (List α) := fun cs =>
  match skipSpace cs with
  | some '[' :: rest =>
    match after? ']' rest with
    | some rest => .ok ([], rest)
    | none => readItems read rest [] rest
  | cs => .error (unexpected cs)

/-- One of the values that `parse` names: a text, or an object with that text as its only key and
`null` as its value. No other value has the form of a name, and another name is refused as soon as
it is read. -/
def readName {α : Type} (parse : String → Option α) : Reader α := fun cs =>
  match skipSpace cs with
  | some '"' :: rest => do
    let (name, rest) ← wellFormed (quoted? rest)
    let name ← wellFormed name
    (parse name).elim (.error .mismatch) fun a => .ok (a, rest)
  | some '\x7b' :: rest => do
    let (name, rest) ← wellFormed (text? rest)
    match parse name with
    | none => throw .mismatch
    | some a =>
      let rest ← wellFormed (after? ':' rest)
      let (_, rest) ← readNull rest
      let rest ← wellFormed (after? '\x7d' rest)
      return (a, rest)
  | _ => .error .malformed

/-- A field of a record. -/
structure Field where
  /-- Its key. -/
  name : String
  /-- Passes over its value, which must fit. -/
  check : List Sign → Except Fault (List Sign)
  /-- May an array leave it out at its end? -/
  omissible : Bool

/-- The texts at which the values of the fields start, by the names of the fields. -/
abbrev Places := List (String × List Sign)

/-- A record: its fields in order, and the value they make. -/
structure Record (α : Type) where
  /-- The fields. -/
  fields : List Field
  /-- The value made of the fields that are given. -/
  build : Places → Except Fault α

namespace Record

variable {α β : Type}

/-- The record without fields. -/
protected def pure (a : α) : Record α :=
  ⟨[], fun _ => .ok a⟩

/-- The record of the fields of two records. -/
protected def seq (f : Record (α → β)) (x : Unit → Record α) : Record β :=
  ⟨f.fields ++ (x ()).fields, fun given => do
    let g ← f.build given
    let a ← (x ()).build given
    return g a⟩

instance : Applicative Record where
  pure := Record.pure
  seq := Record.seq

/-- A record of one field; `missing` is what it makes where the field is not given. -/
def single (name : String) (read : Reader α) (omissible : Bool) (missing : Except Fault α) :
    Record α :=
  ⟨[⟨name, fun cs => (read cs).map (·.2), omissible⟩], fun given =>
    (given.lookup name).elim missing fun cs => (read cs).map (·.1)⟩

/-- A field that must be given. -/
def required (name : String) (read : Reader α) : Record α :=
  single name read false (.error .mismatch)

/-- A field with a default. -/
def withDefault (name : String) (read : Reader α) (default : α) : Record α :=
  single name read true (.ok default)

/-- A field that may be `null`. It may be missing from an object, but not from an array. -/
def nullable (name : String) (read : Reader α) : Record (Option α) :=
  single name (readOption read) false (.ok none)

/-- The entries of an object after those in `given`, up to its closing brace. Every entry takes up a
sign, so that the text itself is budget enough. -/
def readEntries (fields : List Field) : (budget : List Sign) → (given : Places) →
    Reader Places
  | [], _, _ => .error .malformed
  | _ :: budget, given, cs => do
    let (name, rest) ← wellFormed (text? cs)
    let (given, rest) ←
      match fields.find? (·.name == name) with
      | none => do
        let place ← wellFormed (after? ':' rest)
        let rest ← wellFormed (skipValue? place)
        pure (given, rest)
      | some field => do
        if (given.lookup name).isSome then throw .mismatch
        let place ← wellFormed (after? ':' rest)
        let rest ← field.check place
        pure ((name, place) :: given, rest)
    match skipSpace rest with
    | some ',' :: rest => readEntries fields budget given rest
    | some '\x7d' :: rest => return (given, rest)
    | _ => throw .malformed

/-- The items of an array as the values of fields, up to its closing bracket. Between two items a
comma is due. -/
def readItems : List Field → (given : Places) → Reader Places
  | [], given, cs => (wellFormed (after? ']' cs)).map fun rest => (given, rest)
  | field :: fields, given, cs => do
    if (after? ']' cs).isSome then
      if field.omissible then readItems fields given cs else throw .mismatch
    else
      let place ← if given.isEmpty then pure cs else wellFormed (after? ',' cs)
      let rest ← field.check place
      readItems fields ((field.name, place) :: given) rest

/-- The places of the fields in an object or an array. -/
def readPlaces (fields : List Field) : Reader Places := fun cs =>
  match skipSpace cs with
  | some '\x7b' :: rest =>
    match after? '\x7d' rest with
    | some rest => .ok ([], rest)
    | none => readEntries fields rest [] rest
  | some '[' :: rest => readItems fields [] rest
  | cs => .error (unexpected cs)

/-- The value of a record. -/
def read (r : Record α) : Reader α := fun cs => do
  let (given, rest) ← readPlaces r.fields cs
  let a ← r.build given
  return (a, rest)

end Record

/-- Reads the value at the start of a text, whatever stands after it. -/
def readPrefix {α : Type} (read : Reader α) (cs : List Sign) : Except Fault α :=
  (read cs).map (·.1)

/-- Reads a text that holds one value and nothing else. -/
def readText {α : Type} (read : Reader α) (text : String) : Except Fault α := do
  let (a, rest) ← read (signsOf text)
  if (skipSpace rest).isEmpty then return a else throw .malformed

end SharedMemos.Json
