import SharedMemos.Filter.Token

/-!
# Reading expressions

Precedence from loose to tight: `||`, `&&`, relations, sums, products, prefix operators, members.
All infix operators associate to the left.

A parser takes tokens and gives an expression and the tokens after it. Brackets, arguments and
prefix operators lead one level down, and the level is bounded: the parser of a level is built from
the parser of the level below, so that reading needs no other bound.
-/

namespace SharedMemos.Filter

/-- How deep brackets, arguments and prefix operators may nest, the outermost expression counted. -/
def maxDepth : Nat := 64

namespace Parser

/-- What a parser gives: an expression and the tokens after it. -/
abbrev Outcome := Except SyntaxError (Expr × List Lexeme)

/-- A parser of expressions. -/
abbrev P := List Lexeme → Outcome

/-- The token that stands first. -/
def found : List Lexeme → Option Token
  | [] => none
  | (t, _) :: _ => some t

/-- The offset of what stands first; `stop` is the end of the text. -/
def offset (stop : Nat) : List Lexeme → Nat
  | [] => stop
  | (_, pos) :: _ => pos

/-- The disjunction operator. -/
def disjunction? : Token → Option Op
  | .orOr => some .or
  | _ => none

/-- The conjunction operator. -/
def conjunction? : Token → Option Op
  | .andAnd => some .and
  | _ => none

/-- The relations. -/
def relation? : Token → Option Op
  | .eqEq => some .eq
  | .notEq => some .ne
  | .lt => some .lt
  | .le => some .le
  | .gt => some .gt
  | .ge => some .ge
  | .ident name => if name = "in" then some .isIn else none
  | _ => none

/-- Addition and subtraction. -/
def sum? : Token → Option Op
  | .plus => some .add
  | .minus => some .sub
  | _ => none

/-- Multiplication, division and remainder. -/
def product? : Token → Option Op
  | .star => some .mul
  | .slash => some .div
  | .percent => some .mod
  | _ => none

/-- Takes operators and operands as long as there are operators; `left` is what stands before
them. -/
def chain (operator? : Token → Option Op) (operand : P) : (fuel : Nat) → (left : Expr) → P
  | 0, left, ts => .ok (left, ts)
  | fuel + 1, left, ts =>
    match ts with
    | [] => .ok (left, [])
    | (t, pos) :: rest =>
      match operator? t with
      | none => .ok (left, (t, pos) :: rest)
      | some op =>
        match operand rest with
        | .error e => .error e
        | .ok (right, rest) => chain operator? operand fuel (.call op [left, right]) rest

/-- Operands with operators between them, grouped to the left. -/
def infixLeft (operator? : Token → Option Op) (operand : P) : P := fun ts =>
  match operand ts with
  | .error e => .error e
  | .ok (left, rest) => chain operator? operand rest.length left rest

/-- An expression made of operands without infix operators. -/
def expressionOver (unary : P) : P :=
  infixLeft disjunction? <| infixLeft conjunction? <| infixLeft relation? <|
    infixLeft sum? <| infixLeft product? unary

/-- What a list of expressions gives. -/
abbrev ListOutcome := Except SyntaxError (List Expr × List Lexeme)

/-- Arguments up to the closing bracket; there is at least one. -/
def argumentsFrom (expr : P) (stop : Nat) : (fuel : Nat) → List Lexeme → ListOutcome
  | 0, ts => .error ⟨.unexpectedEnd, offset stop ts⟩
  | fuel + 1, ts =>
    match expr ts with
    | .error e => .error e
    | .ok (arg, (.comma, _) :: rest) =>
      match argumentsFrom expr stop fuel rest with
      | .error e => .error e
      | .ok (args, rest) => .ok (arg :: args, rest)
    | .ok (arg, (.rightParen, _) :: rest) => .ok ([arg], rest)
    | .ok (_, rest) => .error ⟨.expectedArgumentEnd (found rest), offset stop (rest.drop 1)⟩

/-- Arguments up to the closing bracket. -/
def arguments (expr : P) (stop : Nat) (ts : List Lexeme) : ListOutcome :=
  match ts with
  | (.rightParen, _) :: rest => .ok ([], rest)
  | ts => argumentsFrom expr stop (ts.length + 1) ts

/-- Items of a list up to the closing bracket, which a comma may precede; there is at least one.
The list starts at `start`. -/
def itemsFrom (expr : P) (stop start : Nat) : (fuel : Nat) → List Lexeme → ListOutcome
  | 0, ts => .error ⟨.unexpectedEnd, offset stop ts⟩
  | fuel + 1, ts =>
    match expr ts with
    | .error e => .error e
    | .ok (item, (.comma, _) :: (.rightBracket, _) :: rest) => .ok ([item], rest)
    | .ok (item, (.comma, _) :: rest) =>
      match itemsFrom expr stop start fuel rest with
      | .error e => .error e
      | .ok (items, rest) => .ok (item :: items, rest)
    | .ok (item, (.rightBracket, _) :: rest) => .ok ([item], rest)
    | .ok (_, rest) => .error ⟨.expectedItemEnd (found rest), start⟩

/-- Items of a list up to the closing bracket. -/
def items (expr : P) (stop start : Nat) (ts : List Lexeme) : ListOutcome :=
  match ts with
  | (.rightBracket, _) :: rest => .ok ([], rest)
  | ts => itemsFrom expr stop start (ts.length + 1) ts

/-- The variable that a selection from `property` stands for. -/
def propertyField? (name : String) : Option String :=
  if name = "hasLink" then some "has_link"
  else if name = "hasTaskList" then some "has_task_list"
  else if name = "hasCode" then some "has_code"
  else if name = "hasIncompleteTasks" then some "has_incomplete_tasks"
  else none

/-- The expression of a field selection. -/
def selection (base : Expr) (name : String) : Except SyntaxFault Expr :=
  match base, propertyField? name with
  | .var "property", some field => .ok (.var field)
  | _, _ => .error (.unknownSelection base name)

/-- The expression of a comprehension, whose arguments are a variable and a body. -/
def comprehension (q : Quantifier) (range : Expr) (args : List Expr) : Except SyntaxFault Expr :=
  match args with
  | [.var binder, body] => .ok (.quantified q binder range body)
  | _ => .error (.malformedComprehension q)

/-- The expression of a call on a receiver. -/
def methodCall (receiver : Expr) (name : String) (args : List Expr) : Except SyntaxFault Expr :=
  if name = "contains" then .ok (.method .contains receiver args)
  else if name = "startsWith" then .ok (.method .startsWith receiver args)
  else if name = "endsWith" then .ok (.method .endsWith receiver args)
  else if name = "size" then .ok (.method .size receiver args)
  else if name = "exists" then comprehension .any receiver args
  else if name = "all" then comprehension .every receiver args
  else .error (.undeclaredFunction name)

/-- The expression of a call without a receiver. -/
def functionCall (name : String) (args : List Expr) : Except SyntaxFault Expr :=
  if name = "size" then .ok (.call .size args)
  else if name = "now" then .ok (.call .now args)
  else .error (.undeclaredFunction name)

/-- Takes selections and calls after `base`. -/
def members (expr : P) (stop : Nat) : (fuel : Nat) → (base : Expr) → P
  | 0, base, ts => .ok (base, ts)
  | fuel + 1, base, ts =>
    match ts with
    | (.dot, _) :: (.ident name, pos) :: (.leftParen, _) :: rest =>
      match arguments expr stop rest with
      | .error e => .error e
      | .ok (args, rest) =>
        match methodCall base name args with
        | .error fault => .error ⟨fault, pos⟩
        | .ok e => members expr stop fuel e rest
    | (.dot, _) :: (.ident name, pos) :: rest =>
      match selection base name with
      | .error fault => .error ⟨fault, pos⟩
      | .ok e => members expr stop fuel e rest
    | (.dot, _) :: rest => .error ⟨.expectedFieldName (found rest), offset stop rest⟩
    | ts => .ok (base, ts)

/-- An expression without operators, selections and calls on it. -/
def primary (expr : P) (stop : Nat) : P := fun ts =>
  match ts with
  | [] => .error ⟨.unexpectedEnd, stop⟩
  | (.int n, _) :: rest => .ok (.const (.int n), rest)
  | (.string s, _) :: rest => .ok (.const (.string s), rest)
  | (.leftParen, _) :: rest =>
    match expr rest with
    | .error e => .error e
    | .ok (e, (.rightParen, _) :: rest) => .ok (e, rest)
    | .ok (_, rest) => .error ⟨.expectedClosingParen (found rest), offset stop rest⟩
  | (.leftBracket, pos) :: rest =>
    match items expr stop pos rest with
    | .error e => .error e
    | .ok (items, rest) => .ok (.list items, rest)
  | (.ident name, pos) :: rest =>
    if name = "true" then .ok (.const (.bool true), rest)
    else if name = "false" then .ok (.const (.bool false), rest)
    else if name = "in" then .error ⟨.keywordIn, pos⟩
    else
      match rest with
      | (.leftParen, _) :: rest =>
        match arguments expr stop rest with
        | .error e => .error e
        | .ok (args, rest) =>
          match functionCall name args with
          | .error fault => .error ⟨fault, pos⟩
          | .ok e => .ok (e, rest)
      | rest => .ok (.var name, rest)
  | (t, pos) :: _ => .error ⟨.unexpectedToken t, pos⟩

/-- A prefix operator and its operand. -/
def prefixed (op : Op) (operand : P) : P := fun ts =>
  match operand ts with
  | .error e => .error e
  | .ok (e, rest) => .ok (.call op [e], rest)

/-- An expression without infix operators; `inner` reads the operand of a prefix operator, and
`expr` what stands in brackets. A minus sign right before a number makes a negative literal. -/
def unaryOver (expr inner : P) (stop : Nat) : P := fun ts =>
  match ts with
  | (.bang, _) :: rest => prefixed .not inner rest
  | (.minus, _) :: (.int n, _) :: rest =>
    members expr stop rest.length (.const (.int (-n))) rest
  | (.minus, _) :: rest => prefixed .neg inner rest
  | ts =>
    match primary expr stop ts with
    | .error e => .error e
    | .ok (base, rest) => members expr stop rest.length base rest

/-- The parser below the last level. -/
def tooDeep (stop : Nat) : P := fun ts =>
  .error ⟨.nestedTooDeeply, offset stop ts⟩

/-- An expression without infix operators, with `depth` levels below it. -/
def unary (stop : Nat) : (depth : Nat) → P
  | 0 => unaryOver (tooDeep stop) (tooDeep stop) stop
  | depth + 1 => unaryOver (expressionOver (unary stop depth)) (unary stop depth) stop

/-- An expression with `depth` levels, its own counted. -/
def expression (stop : Nat) : (depth : Nat) → P
  | 0 => tooDeep stop
  | depth + 1 => expressionOver (unary stop depth)

end Parser

/-- The expression that a sequence of tokens derives. -/
def parseTokens (input : Lexemes) : Except SyntaxError Expr :=
  match Parser.expression input.stop maxDepth input.tokens with
  | .error e => .error e
  | .ok (e, []) => .ok e
  | .ok (_, (t, pos) :: _) => .error ⟨.trailingToken t, pos⟩

/-- The expression of a filter text. -/
def parse (text : String) : Except SyntaxError Expr :=
  match tokenize text with
  | .error e => .error e
  | .ok input => parseTokens input

end SharedMemos.Filter
