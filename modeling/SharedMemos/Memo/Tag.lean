import SharedMemos.Text.Blank
import SharedMemos.Text.Numeral

/-!
# Tags

A memo's tags are an ordered set of nonblank texts. A slash makes a tag a descendant of the tag
before it, and the exact form `collab/N` with a positive numeral grants the user `N` access.
-/

namespace SharedMemos.Tag

open SharedMemos.Text

/-- Appends the trimmed form of a tag that is neither blank nor there already. -/
def addNormalized (tags : List String) (tag : String) : List String :=
  let trimmed := trim tag
  if trimmed = "" ∨ trimmed ∈ tags then tags else tags ++ [trimmed]

/-- Trimmed tags without blank and repeated ones, in order of first occurrence. -/
def normalize (tags : List String) : List String :=
  tags.foldl addNormalized []

/-- What every tag that grants access starts with. -/
def grantMark : String := "collab/"

/-- The tag that grants a user access. -/
def grant (user : Int) : String :=
  grantMark ++ showInt user

/-- The text after a prefix, where the text starts with it. -/
def after? (start text : List Char) : Option (List Char) :=
  if start.isPrefixOf text then some (text.drop start.length) else none

/-- The user that a tag grants access: only the exact form of `grant` for a positive number does. -/
def grantee? (tag : String) : Option Int := do
  let rest ← after? grantMark.toList tag.toList
  let user ← int64? (String.ofList rest)
  if 0 < user ∧ grant user = tag then some user else none

/-- The users that tags grant access, in the order of the tags. -/
def grantees (tags : List String) : List Int :=
  tags.filterMap grantee?

/-- Numbers in ascending order, each once. -/
def sortedIds (ids : List Int) : List Int :=
  (ids.mergeSort fun a b => decide (a ≤ b)).eraseDups

/-- The users that `old` grants access and `new` does not, in ascending order. -/
def revoked (old new : List String) : List Int :=
  sortedIds ((grantees old).filter fun user => !(grantees new).contains user)

/-- Is `tag` the tag `ancestor`, or does it descend from it? -/
def isUnder (tag ancestor : String) : Bool :=
  match after? ancestor.toList tag.toList with
  | some [] => true
  | some (c :: _) => c == '/'
  | none => false

end SharedMemos.Tag
