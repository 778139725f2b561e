import SharedMemos.Query.Condition
import SharedMemos.Filter.Prefilter

/-!
# Queries for memos

The clauses that stand for the visibility rule and for a prefilter, and the query that joins them
with a state and a window of update times.
-/

namespace SharedMemos.Query

open SharedMemos.Filter

/-- The clause of the visibility rule. -/
def visibleTo : Viewer → Clause
  | none => ⟨.equals .visibility, [.string Visibility.everyone.name]⟩
  | some user =>
    { condition := .any [.equals .creator, .among .visibility 2, .anyTag [.equals]]
      params :=
        [.int user, .string Visibility.everyone.name, .string Visibility.members.name,
          .string (Tag.grant user)] }

/-- The clause that a column is among values, if any are wanted. -/
def amongClause (c : Column) (values : List Param) : List Clause :=
  if values.isEmpty then [] else [⟨.among c values.length, values⟩]

/-- The clause that a flag has a value, if one is wanted. -/
def flagClause (c : Column) (wanted : Option Bool) : List Clause :=
  wanted.toList.map fun b => ⟨.equals c, [.bool b]⟩

/-- The test of an option. -/
def optionTest (o : TagOption) : TagTest :=
  match o.kind with
  | .exact => .equals
  | .prefixed => .startsWith

/-- The values bound to the holes of the test of an option. -/
def optionParams (o : TagOption) : List Param :=
  match o.kind with
  | .exact => [.string o.value]
  | .prefixed => [.string o.value, .string o.value]

/-- The clause that some tag passes some option of a group. -/
def groupClause (g : TagGroup) : Clause :=
  ⟨.anyTag (g.options.map optionTest), g.options.flatMap optionParams⟩

/-- The clause that no tag passes any option of a group. -/
def excludedClause (g : TagGroup) : Clause :=
  ⟨.not (groupClause g).condition, (groupClause g).params⟩

/-- The clauses of the constraints of a prefilter. -/
def constraintClauses (p : Prefilter) : List Clause :=
  amongClause .creator (p.creators.map .int)
    ++ amongClause .visibility (p.visibilities.map fun v => .string v.name)
    ++ amongClause .state (p.states.map fun s => .string s.name)
    ++ flagClause .pinned p.pinned
    ++ flagClause .hasLink p.hasLink
    ++ flagClause .hasTaskList p.hasTaskList
    ++ flagClause .hasCode p.hasCode
    ++ flagClause .hasIncompleteTasks p.hasIncompleteTasks
    ++ p.tagGroups.map groupClause
    ++ p.excludedGroups.map excludedClause

/-- How many values a prefilter may bind. -/
def maxBound : Nat := 500

/-- The clause of a prefilter. One that would bind too many values is dropped, which only lets more
rows pass. -/
def admittedBy (p : Prefilter) : Clause :=
  if p.unsatisfiable then ⟨.never, []⟩
  else
    let clause := Clause.all (constraintClauses p)
    if maxBound < clause.params.length then ⟨.always, []⟩ else clause

/-- The order in which memos are listed. -/
inductive Order where
  /-- Latest creation first. -/
  | newestFirst
  /-- Earliest update first. -/
  | leastRecentFirst
deriving Repr, DecidableEq

/-- A query for memos. -/
structure MemoQuery where
  viewer : Viewer
  state : MemoState
  prefilter : Prefilter
  /-- Updates after the first and up to the second instant. -/
  window : Option (Instant × Instant) := none
  order : Order
  limit : Option Nat := none

namespace MemoQuery

/-- The clauses of a window of update times. -/
def windowClauses : Option (Instant × Instant) → List Clause
  | none => []
  | some (after, upTo) =>
    [⟨.above .updated, [.int after.micros]⟩, ⟨.atMost .updated, [.int upTo.micros]⟩]

/-- The clause of a query. -/
def clause (q : MemoQuery) : Clause :=
  Clause.all <|
    [visibleTo q.viewer, ⟨.equals .state, [.string q.state.name]⟩] ++ windowClauses q.window
      ++ [admittedBy q.prefilter]

/-- Does `a` come before `b`? Memos of the same time are told apart by their numbers. -/
def before (order : Order) (a b : Memo) : Bool :=
  match order with
  | .newestFirst =>
    decide (b.created < a.created) || (a.created == b.created && decide (b.id ≤ a.id))
  | .leastRecentFirst =>
    decide (a.updated < b.updated) || (a.updated == b.updated && decide (a.id ≤ b.id))

/-- The memos that a query finds in a table. -/
def run (q : MemoQuery) (table : List Memo) : List Memo :=
  if q.prefilter.unsatisfiable then []
  else
    let clause := q.clause
    let found := (table.filter clause.holds).mergeSort (before q.order)
    match q.limit with
    | none => found
    | some n => found.take n

end MemoQuery

end SharedMemos.Query
