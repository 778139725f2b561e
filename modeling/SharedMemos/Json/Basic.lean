import SharedMemos.Decimal.Binary64

/-!
# JSON values

A value keeps the entries of an object in the order of the text, repeated keys included.
-/

namespace SharedMemos

open SharedMemos.Decimal

/-- A JSON value. -/
inductive Json where
  | null
  | bool (value : Bool)
  /-- A number without fraction and exponent, between the smallest signed and the largest unsigned
  64-bit number. -/
  | int (value : Int)
  /-- Any other number. -/
  | float (value : Binary64)
  | string (value : String)
  | array (items : List Json)
  | object (entries : List (String × Json))
deriving Repr, Inhabited

namespace Json

/-- The value of the first entry with a key. -/
def field? (j : Json) (key : String) : Option Json :=
  match j with
  | .object entries => (entries.find? (·.1 == key)).map (·.2)
  | _ => none

end Json

end SharedMemos
