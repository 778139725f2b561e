import SharedMemos.Memo.Basic

/-!
# Conditions on rows

The conditions that a query puts on the rows of the memo table: what they look like as SQL, and what
they mean. A condition has holes where values are bound in order, so that no value is ever part of
the text.

A row stands for a memo: a flag is stored as 0 or 1, a visibility or a state by its name, and tags
as a JSON array. Comparison of values of different kinds is false.
-/

namespace SharedMemos.Query

/-- A value bound to a hole. -/
inductive Param where
  | int (value : Int)
  | bool (value : Bool)
  | string (value : String)
deriving Repr, DecidableEq

/-- Columns of the memo table. -/
inductive Column where
  | creator | visibility | state | pinned
  | hasLink | hasTaskList | hasCode | hasIncompleteTasks | updated
deriving Repr, DecidableEq

/-- The name of a column. -/
def Column.name : Column → String
  | .creator => "m.creator_id"
  | .visibility => "m.visibility"
  | .state => "m.row_status"
  | .pinned => "m.pinned"
  | .hasLink => "m.has_link"
  | .hasTaskList => "m.has_task_list"
  | .hasCode => "m.has_code"
  | .hasIncompleteTasks => "m.has_incomplete_tasks"
  | .updated => "m.updated_ts"

/-- A stored value. -/
inductive Cell where
  | int (value : Int)
  | text (value : String)
deriving Repr, DecidableEq

/-- How a truth value is stored. -/
def Cell.ofBool (b : Bool) : Cell :=
  .int (if b then 1 else 0)

/-- How a bound value is stored. -/
def Param.cell : Param → Cell
  | .int n => .int n
  | .bool b => .ofBool b
  | .string s => .text s

/-- The value of a column in the row of a memo. -/
def Column.cell (m : Memo) : Column → Cell
  | .creator => .int m.creator
  | .visibility => .text m.visibility.name
  | .state => .text m.state.name
  | .pinned => .ofBool m.pinned
  | .hasLink => .ofBool m.property.hasLink
  | .hasTaskList => .ofBool m.property.hasTaskList
  | .hasCode => .ofBool m.property.hasCode
  | .hasIncompleteTasks => .ofBool m.property.hasIncompleteTasks
  | .updated => .int m.updated.micros

/-- A test of one tag. -/
inductive TagTest where
  /-- The tag equals a hole. -/
  | equals
  /-- The tag starts with the text of two holes, which are bound to the same text. -/
  | startsWith
deriving Repr, DecidableEq

/-- A condition with holes. -/
inductive Condition where
  /-- Always true. -/
  | always
  /-- Never true. -/
  | never
  /-- The column equals a hole. -/
  | equals (c : Column)
  /-- The column is greater than a hole. -/
  | above (c : Column)
  /-- The column is at most a hole. -/
  | atMost (c : Column)
  /-- The column equals one of `n` holes. -/
  | among (c : Column) (n : Nat)
  /-- Some tag passes one of the tests. -/
  | anyTag (tests : List TagTest)
  /-- The condition does not hold. -/
  | not (p : Condition)
  /-- All conditions hold. -/
  | all (ps : List Condition)
  /-- Some condition holds. -/
  | any (ps : List Condition)
deriving Repr, Inhabited

namespace TagTest

/-- The text of a test. -/
def sql : TagTest → String
  | .equals => "jt.value = ?"
  | .startsWith => "substr(jt.value, 1, length(?)) = ?"

/-- How many holes a test has. -/
def holes : TagTest → Nat
  | .equals => 1
  | .startsWith => 2

/-- How many holes tests have together. -/
def holesOf : List TagTest → Nat
  | [] => 0
  | t :: ts => t.holes + holesOf ts

/-- The characters that `substr` and `length` see: those before a null character. -/
def beforeNull (s : String) : List Char :=
  s.toList.takeWhile (· != '\x00')

/-- Does a tag pass the test with values bound to its holes? -/
def accepts (tag : String) : TagTest → List Param → Bool
  | .equals, p :: _ => p.cell == .text tag
  | .startsWith, .string s :: p :: _ =>
    p.cell == .text (String.ofList ((beforeNull tag).take (beforeNull s).length))
  | _, _ => false

/-- Does a tag pass one of the tests, with values bound in order? -/
def anyAccepts (tag : String) : List TagTest → List Param → Bool
  | [], _ => false
  | t :: ts, ps => t.accepts tag ps || anyAccepts tag ts (ps.drop t.holes)

end TagTest

namespace Condition

mutual

/-- The text of a condition. -/
def sql : Condition → String
  | .always => "1"
  | .never => "0"
  | .equals c => c.name ++ " = ?"
  | .above c => c.name ++ " > ?"
  | .atMost c => c.name ++ " <= ?"
  | .among c n => c.name ++ " IN (" ++ ", ".intercalate (List.replicate n "?") ++ ")"
  | .anyTag tests =>
    let alternatives :=
      if tests.isEmpty then "0" else " OR ".intercalate (tests.map TagTest.sql)
    "EXISTS (SELECT 1 FROM json_each(m.tags) jt WHERE " ++ alternatives ++ ")"
  | .not p => "NOT " ++ p.sql
  | .all ps => if ps.isEmpty then "1" else " AND ".intercalate (sqlAll ps)
  | .any ps => if ps.isEmpty then "0" else "(" ++ " OR ".intercalate (sqlAll ps) ++ ")"

/-- The texts of conditions. -/
def sqlAll : List Condition → List String
  | [] => []
  | p :: ps => p.sql :: sqlAll ps

end

mutual

/-- How many holes a condition has. -/
def holes : Condition → Nat
  | .always | .never => 0
  | .equals _ | .above _ | .atMost _ => 1
  | .among _ n => n
  | .anyTag tests => TagTest.holesOf tests
  | .not p => p.holes
  | .all ps | .any ps => holesAll ps

/-- How many holes conditions have together. -/
def holesAll : List Condition → Nat
  | [] => 0
  | p :: ps => p.holes + holesAll ps

end

/-- Compares a stored number with a bound one. -/
def compareInt (test : Int → Int → Bool) : Cell → Option Param → Bool
  | .int a, some (.int b) => test a b
  | _, _ => false

mutual

/-- Does the row of a memo satisfy the condition, with values bound to its holes in order? -/
def holds (m : Memo) : Condition → List Param → Bool
  | .always, _ => true
  | .never, _ => false
  | .equals c, ps => ps.head?.map Param.cell == some (c.cell m)
  | .above c, ps => compareInt (fun a b => decide (b < a)) (c.cell m) ps.head?
  | .atMost c, ps => compareInt (fun a b => decide (a ≤ b)) (c.cell m) ps.head?
  | .among c n, ps => (ps.take n).any fun p => p.cell == c.cell m
  | .anyTag tests, ps => m.tags.any fun tag => TagTest.anyAccepts tag tests ps
  | .not p, ps => !p.holds m ps
  | .all cs, ps => holdsAll m cs ps
  | .any cs, ps => holdsAny m cs ps

/-- Does the row satisfy all conditions? -/
def holdsAll (m : Memo) : List Condition → List Param → Bool
  | [], _ => true
  | c :: cs, ps => c.holds m ps && holdsAll m cs (ps.drop c.holes)

/-- Does the row satisfy some condition? -/
def holdsAny (m : Memo) : List Condition → List Param → Bool
  | [], _ => false
  | c :: cs, ps => c.holds m ps || holdsAny m cs (ps.drop c.holes)

end

end Condition

/-- A condition and the values bound to its holes, in order. -/
structure Clause where
  condition : Condition
  params : List Param
deriving Repr, Inhabited

namespace Clause

/-- Does the row of a memo satisfy the clause? -/
def holds (c : Clause) (m : Memo) : Bool :=
  c.condition.holds m c.params

/-- The clause that all clauses hold. -/
def all (cs : List Clause) : Clause :=
  ⟨.all (cs.map (·.condition)), cs.flatMap (·.params)⟩

end Clause

end SharedMemos.Query
