import SharedMemos.Filter.Expr

/-!
# What is wrong with a filter

A filter is refused because its text is no expression, because a tag test is not of the required
form, because the expression has no type, or because it looks at content where that is not allowed.
-/

namespace SharedMemos.Filter

open SharedMemos.Text

/-- A token of a filter text. -/
inductive Token where
  | int (value : Int)
  | string (value : String)
  | ident (name : String)
  | leftParen | rightParen | leftBracket | rightBracket
  | comma | dot | bang | andAnd | orOr | eqEq | notEq | lt | le | gt | ge
  | plus | minus | star | slash | percent
deriving Repr, DecidableEq

/-- How a message shows a token. -/
def Token.describe : Token → String
  | .int n => "Int(" ++ showInt n ++ ")"
  | .string s => "Str(" ++ quoted s ++ ")"
  | .ident s => "Ident(" ++ quoted s ++ ")"
  | .leftParen => "LParen"
  | .rightParen => "RParen"
  | .leftBracket => "LBracket"
  | .rightBracket => "RBracket"
  | .comma => "Comma"
  | .dot => "Dot"
  | .bang => "Bang"
  | .andAnd => "AndAnd"
  | .orOr => "OrOr"
  | .eqEq => "EqEq"
  | .notEq => "NotEq"
  | .lt => "Lt"
  | .le => "Le"
  | .gt => "Gt"
  | .ge => "Ge"
  | .plus => "Plus"
  | .minus => "Minus"
  | .star => "Star"
  | .slash => "Slash"
  | .percent => "Percent"

/-- How a message shows what stands at a place: a token, or the end of the text. -/
def describeFound : Option Token → String
  | some t => t.describe
  | none => "Eof"

/-- Why a text is no expression. What was found is a token, or nothing at the end of the text. -/
inductive SyntaxFault where
  | unexpectedChar (c : Char)
  | unterminatedText
  | unknownEscape (c : Char)
  | integerTooLarge (digits : String)
  | nestedTooDeeply
  | expectedClosingParen (found : Option Token)
  | expectedFieldName (found : Option Token)
  | unknownSelection (base : Expr) (field : String)
  | malformedComprehension (q : Quantifier)
  | undeclaredFunction (name : String)
  | expectedArgumentEnd (found : Option Token)
  | expectedItemEnd (found : Option Token)
  | keywordIn
  | unexpectedEnd
  | unexpectedToken (found : Token)
  | trailingToken (found : Token)
deriving Repr

namespace SyntaxFault

/-- The wording. -/
def message : SyntaxFault → String
  | .unexpectedChar c => "unexpected character '" ++ c.toString ++ "'"
  | .unterminatedText => "unterminated string literal"
  | .unknownEscape c => "invalid escape '\\" ++ c.toString ++ "'"
  | .integerTooLarge digits => "integer literal out of range: " ++ digits
  | .nestedTooDeeply => "expression nested too deeply"
  | .expectedClosingParen found => "expected ')', found " ++ describeFound found
  | .expectedFieldName found => "expected field name, found " ++ describeFound found
  | .unknownSelection base field =>
    "unknown field selection '" ++ base.print ++ "." ++ field ++ "'"
  | .malformedComprehension q => q.name ++ "() expects an identifier and a predicate"
  | .undeclaredFunction name => "undeclared function '" ++ name ++ "'"
  | .expectedArgumentEnd found => "expected ',' or ')', found " ++ describeFound found
  | .expectedItemEnd found => "expected ',' or ']' in list, found " ++ describeFound found
  | .keywordIn => "unexpected keyword 'in'"
  | .unexpectedEnd => "unexpected end of expression"
  | .unexpectedToken found => "unexpected token " ++ found.describe
  | .trailingToken found => "unexpected trailing token " ++ found.describe

end SyntaxFault

/-- A fault and where it is, in bytes from the start of the text. -/
structure SyntaxError where
  fault : SyntaxFault
  offset : Nat
deriving Repr

/-- Types of the filter language. -/
inductive Ty where
  | bool
  | int
  | string
  | list (element : Ty)
  /-- The type of the elements of an empty list, which fits every other. -/
  | any
deriving Repr, DecidableEq

/-- How a type is written. -/
def Ty.print : Ty → String
  | .bool => "bool"
  | .int => "int"
  | .string => "string"
  | .list element => "list(" ++ element.print ++ ")"
  | .any => "dyn"

/-- Why an expression has no type, or not that of a filter. -/
inductive TypeFault where
  | undeclared (name : String)
  | mixedList (first other : Ty)
  | rangeNotList (q : Quantifier) (found : Ty)
  | bodyNotBool
  | noOverload (op : Op) (receiver : Option Ty) (args : List Ty)
  | filterNotBool (found : Ty)
deriving Repr, DecidableEq

/-- The wording. -/
def TypeFault.message : TypeFault → String
  | .undeclared name => "undeclared reference to '" ++ name ++ "'"
  | .mixedList first other => "list literal mixes " ++ first.print ++ " and " ++ other.print
  | .rangeNotList q found => q.name ++ " requires a list receiver, found " ++ found.print
  | .bodyNotBool => "comprehension predicate must be bool"
  | .noOverload op receiver args =>
    let shown := ", ".intercalate (args.map Ty.print)
    match receiver with
    | some r => "no matching overload for " ++ r.print ++ "." ++ op.name ++ "(" ++ shown ++ ")"
    | none => "no matching overload for '" ++ op.name ++ "' applied to (" ++ shown ++ ")"
  | .filterNotBool found => "filter must evaluate to bool, found " ++ found.print

/-- Why a filter is refused. -/
inductive Fault where
  /-- The text is no expression. -/
  | notExpression (e : SyntaxError)
  /-- The right side of a tag test is no list of text literals. -/
  | tagsNotLiteral
  /-- A tag test has no right side. -/
  | tagsMissing
  /-- The expression has no type, or not that of a filter. -/
  | illTyped (e : TypeFault)
  /-- The text names content or a property of content. -/
  | readsContent
  /-- Any other reason, in its own words. -/
  | stated (reason : String)
deriving Repr

/-- The wording. -/
def Fault.message : Fault → String
  | .notExpression e => e.fault.message ++ " at offset " ++ showNat e.offset
  | .tagsNotLiteral => "tag in [...] requires a literal list of strings"
  | .tagsMissing => "malformed tag membership"
  | .illTyped e => e.message
  | .readsContent => "filtering on content or content properties is not supported"
  | .stated reason => reason

end SharedMemos.Filter
