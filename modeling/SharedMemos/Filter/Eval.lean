import SharedMemos.Filter.Attribute

/-!
# Evaluation

An expression has a value for a memo and a time, or none. Integers are signed 64-bit numbers, and
arithmetic that leaves their range has no value. A conjunction with a false operand is false, and a
disjunction with a true operand is true, whatever becomes of the other operand; comprehensions
follow suit.
-/

namespace SharedMemos.Filter

open SharedMemos.Text

/-- Why an expression has no value. -/
inductive EvalError where
  | overflow
  | divisionByZero
  /-- The operands are not of the kinds that the named operator is defined on. -/
  | noOverload (name : String)
  | unbound (name : String)
deriving Repr, DecidableEq

/-- A value, or why there is none. -/
abbrev Result := Except EvalError Value

/-- The value of an integer, where it is in range. -/
def ofInt (n : Int) : Result :=
  (checkedInt64 n).elim (.error .overflow) fun n => .ok (.int n)

/-- The truth value of a result. -/
def truth? : Result → Option Bool
  | .ok (.bool b) => some b
  | _ => none

/-- The error of an undecided junction: that of the left operand, or else of the right one. -/
def junctionError (op : Op) (l r : Result) : EvalError :=
  match l, r with
  | .error e, _ => e
  | .ok _, .error e => e
  | .ok _, .ok _ => .noOverload op.name

/-- Conjunction: false if an operand is false, true if both are true. -/
def conjunction (l r : Result) : Result :=
  match truth? l, truth? r with
  | some false, _ => .ok (.bool false)
  | _, some false => .ok (.bool false)
  | some true, some true => .ok (.bool true)
  | _, _ => .error (junctionError .and l r)

/-- Disjunction: true if an operand is true, false if both are false. -/
def disjunction (l r : Result) : Result :=
  match truth? l, truth? r with
  | some true, _ => .ok (.bool true)
  | _, some true => .ok (.bool true)
  | some false, some false => .ok (.bool false)
  | _, _ => .error (junctionError .or l r)

/-- The order of two values of one ordered kind; texts are ordered by code points. -/
def order? : Value → Value → Option Ordering
  | .int a, .int b => some (compare a b)
  | .string a, .string b => some (if a < b then .lt else if a = b then .eq else .gt)
  | _, _ => none

/-- The value of a relation of order. -/
def Op.ofOrder (op : Op) (o : Ordering) : Bool :=
  match op with
  | .lt => o.isLT
  | .le => o.isLE
  | .gt => o.isGT
  | _ => o.isGE

/-- The value of an arithmetic operator on integers. -/
def Op.onInts (op : Op) (a b : Int) : Result :=
  match op with
  | .add => ofInt (a + b)
  | .sub => ofInt (a - b)
  | .mul => ofInt (a * b)
  | .div => if b = 0 then .error .divisionByZero else ofInt (a.tdiv b)
  | .mod =>
    if b = 0 then .error .divisionByZero
    else if a = minInt64 ∧ b = -1 then .error .overflow
    else ofInt (a.tmod b)
  | op => .error (.noOverload op.name)

/-- Does `part` stand somewhere in `text`? -/
def isInfix (part : List Char) : List Char → Bool
  | [] => part.isEmpty
  | c :: cs => part.isPrefixOf (c :: cs) || isInfix part cs

/-- The number of characters of a text, or of items of a list. -/
def sizeOf : Value → Result
  | .string s => .ok (.int s.length)
  | .list items => .ok (.int items.length)
  | _ => .error (.noOverload Op.size.name)

/-- The value of an operator or function on values. -/
def Op.onValues (op : Op) (receiver : Option Value) (args : List Value) : Result :=
  match receiver, args with
  | none, [] =>
    .error (.noOverload op.name)
  | none, [x] =>
    match op, x with
    | .not, .bool b => .ok (.bool !b)
    | .neg, .int n => ofInt (-n)
    | .size, x => sizeOf x
    | op, _ => .error (.noOverload op.name)
  | none, [l, r] =>
    match op with
    | .eq => .ok (.bool (l == r))
    | .ne => .ok (.bool (l != r))
    | .lt | .le | .gt | .ge =>
      (order? l r).elim (.error (.noOverload op.name)) fun o => .ok (.bool (op.ofOrder o))
    | .isIn =>
      match r with
      | .list items => .ok (.bool (items.contains l))
      | _ => .error (.noOverload op.name)
    | .add =>
      match l, r with
      | .string a, .string b => .ok (.string (a ++ b))
      | .list as, .list bs => .ok (.list (as ++ bs))
      | .int a, .int b => op.onInts a b
      | _, _ => .error (.noOverload op.name)
    | .sub | .mul | .div | .mod =>
      match l, r with
      | .int a, .int b => op.onInts a b
      | _, _ => .error (.noOverload op.name)
    | op => .error (.noOverload op.name)
  | some (.string s), [.string x] =>
    match op with
    | .contains => .ok (.bool (isInfix x.toList s.toList))
    | .startsWith => .ok (.bool (x.toList.isPrefixOf s.toList))
    | .endsWith => .ok (.bool (x.toList.isSuffixOf s.toList))
    | op => .error (.noOverload op.name)
  | some x, [] => if op = .size then sizeOf x else .error (.noOverload op.name)
  | _, _ => .error (.noOverload op.name)

/-- The values of results, or the first error. -/
def values : List Result → Except EvalError (List Value)
  | [] => .ok []
  | .error e :: _ => .error e
  | .ok v :: rest => (values rest).map (v :: ·)

/-- The value of an operator or function on the results of its operands. The receiver is looked at
before the arguments; junctions look at their two operands only. -/
def Op.apply (op : Op) (now : Int) (receiver : Option Result) (args : List Result) : Result :=
  match op, args with
  | .and, [l, r] => conjunction l r
  | .or, [l, r] => disjunction l r
  | op, args =>
    match receiver with
    | some (.error e) => .error e
    | some (.ok s) => (values args).bind fun vs => op.onValues (some s) vs
    | none =>
      match op, args with
      | .now, [] => .ok (.int now)
      | op, args => (values args).bind fun vs => op.onValues none vs

/-- The error of a result of the body of a comprehension that is no truth value. -/
def bodyError? : Result → Option EvalError
  | .ok (.bool _) => none
  | .ok _ => some (.noOverload "comprehension")
  | .error e => some e

/-- The truth value of a body that decides a comprehension. -/
def Quantifier.decisive : Quantifier → Bool
  | .any => true
  | .every => false

/-- The value of a comprehension from the results of its body: decided by one decisive element, or
else undecided with the last error, or else the opposite. -/
def Quantifier.join (q : Quantifier) (results : List Result) : Result :=
  if results.any fun r => truth? r == some q.decisive then .ok (.bool q.decisive)
  else
    match (results.filterMap bodyError?).getLast? with
    | some e => .error e
    | none => .ok (.bool !q.decisive)

/-- What an expression is evaluated for: a memo, a time in seconds, and bound variables, innermost
first. -/
structure Env where
  memo : Memo
  now : Int
  bound : List (String × Value)

namespace Env

/-- The environment with one more bound variable. -/
def bind (env : Env) (name : String) (v : Value) : Env :=
  { env with bound := (name, v) :: env.bound }

/-- The value of a variable: of its innermost binding, or of the attribute of that name. -/
def lookup (env : Env) (name : String) : Result :=
  match env.bound.find? (·.1 == name) with
  | some (_, v) => .ok v
  | none =>
    (Attribute.ofName? name).elim (.error (.unbound name)) fun a => .ok (a.value env.memo)

end Env

mutual

/-- The value of an expression. -/
def eval (env : Env) : Expr → Result
  | .const v => .ok v
  | .var name => env.lookup name
  | .list items => (values (evalAll env items)).map .list
  | .call op args => op.apply env.now none (evalAll env args)
  | .method op receiver args => op.apply env.now (some (eval env receiver)) (evalAll env args)
  | .quantified q binder range body =>
    match eval env range with
    | .error e => .error e
    | .ok (.list items) => q.join (items.map fun v => eval (env.bind binder v) body)
    | .ok _ => .error (.noOverload "comprehension")

/-- The results of expressions, in order. -/
def evalAll (env : Env) : List Expr → List Result
  | [] => []
  | e :: es => eval env e :: evalAll env es

end

/-- Does the memo satisfy the expression? An expression without a value is not satisfied. -/
def satisfies (m : Memo) (now : Int) (e : Expr) : Bool :=
  truth? (eval ⟨m, now, []⟩ e) == some true

end SharedMemos.Filter
