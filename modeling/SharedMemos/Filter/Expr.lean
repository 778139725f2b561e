import SharedMemos.Filter.Value

/-!
# Expressions of the filter language

The tree of a filter and its printed form. The printed form puts round brackets around every
operator, so that it does not depend on precedence.
-/

namespace SharedMemos.Filter

/-- Operators and functions. -/
inductive Op where
  | or | and | not | neg
  | eq | ne | lt | le | gt | ge | isIn
  | add | sub | mul | div | mod
  | contains | startsWith | endsWith | size | now
deriving Repr, DecidableEq

/-- How an operator or function is written. -/
def Op.name : Op → String
  | .or => "||"
  | .and => "&&"
  | .not => "!"
  | .neg => "-"
  | .eq => "=="
  | .ne => "!="
  | .lt => "<"
  | .le => "<="
  | .gt => ">"
  | .ge => ">="
  | .isIn => "in"
  | .add => "+"
  | .sub => "-"
  | .mul => "*"
  | .div => "/"
  | .mod => "%"
  | .contains => "contains"
  | .startsWith => "startsWith"
  | .endsWith => "endsWith"
  | .size => "size"
  | .now => "now"

/-- How a comprehension joins what its body says of the elements of a list. -/
inductive Quantifier where
  /-- Some element satisfies the body. -/
  | any
  /-- Every element satisfies the body. -/
  | every
deriving Repr, DecidableEq

/-- How a quantifier is written. -/
def Quantifier.name : Quantifier → String
  | .any => "exists"
  | .every => "all"

/-- An expression of the filter language. -/
inductive Expr where
  /-- A literal. -/
  | const (value : Value)
  /-- A variable. -/
  | var (name : String)
  /-- A list of expressions. -/
  | list (items : List Expr)
  /-- An operator or function with its operands. -/
  | call (op : Op) (args : List Expr)
  /-- A function called on a receiver. -/
  | method (op : Op) (receiver : Expr) (args : List Expr)
  /-- A comprehension: `body` is looked at for every element of `range`, which it calls `binder`. -/
  | quantified (q : Quantifier) (binder : String) (range body : Expr)
deriving Repr, Inhabited

namespace Expr

mutual

/-- The printed form. -/
def print : Expr → String
  | .const v => v.print
  | .var name => name
  | .list items => "[" ++ printAll items ++ "]"
  | .call .not [x] => "!(" ++ x.print ++ ")"
  | .call .neg [x] => "-(" ++ x.print ++ ")"
  | .call .size args => "size(" ++ printAll args ++ ")"
  | .call .now args => "now(" ++ printAll args ++ ")"
  | .call op [l, r] => "(" ++ l.print ++ " " ++ op.name ++ " " ++ r.print ++ ")"
  | .call op _ => op.name ++ "(..)"
  | .method op receiver args => receiver.print ++ "." ++ op.name ++ "(" ++ printAll args ++ ")"
  | .quantified q binder range body =>
    range.print ++ "." ++ q.name ++ "(" ++ binder ++ ", " ++ body.print ++ ")"

/-- The printed forms of expressions, separated by commas. -/
def printAll : List Expr → String
  | [] => ""
  | [e] => e.print
  | e :: es => e.print ++ ", " ++ printAll es

end

end Expr

end SharedMemos.Filter
