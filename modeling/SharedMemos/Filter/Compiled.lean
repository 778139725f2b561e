import SharedMemos.Filter.Parser
import SharedMemos.Filter.TagTest
import SharedMemos.Filter.Typing
import SharedMemos.Filter.Eval
import SharedMemos.Filter.Prefilter
import SharedMemos.Text.Word

/-!
# Compiled filters

A filter text is read, its tag tests are written out, and it is checked; what comes out is an exact
predicate on memos and a prefilter that admits at least the memos it is true of. A blank text is
satisfied by every memo.
-/

namespace SharedMemos.Filter

open SharedMemos.Text

/-- Identifiers that name content or a property of content. -/
def contentWords : List String :=
  ["content", "property", "has_link", "has_task_list", "has_code", "has_incomplete_tasks"]

/-- Does the text name content or a property of content? It looks for whole words wherever they
stand, inside text literals too. -/
def readsContent (source : String) : Bool :=
  hasWord contentWords source

/-- A filter that is ready for use. -/
inductive Compiled where
  /-- Every memo satisfies it. -/
  | everything
  /-- A checked expression and the text it was read from. -/
  | checked (source : String) (expr : Expr)
deriving Repr

namespace Compiled

/-- Is it the filter that every memo satisfies? -/
def isEverything : Compiled → Bool
  | .everything => true
  | .checked .. => false

/-- The text that the filter was read from. -/
def source : Compiled → String
  | .everything => ""
  | .checked source _ => source

/-- The exact predicate, at a time in seconds. -/
def accepts (f : Compiled) (m : Memo) (now : Int) : Bool :=
  match f with
  | .everything => true
  | .checked _ e => satisfies m now e

/-- The prefilter. -/
def prefilter : Compiled → Prefilter
  | .everything => .unconstrained
  | .checked _ e => .derive false e

end Compiled

/-- The expression of a filter text, with tag tests written out. -/
def expression (source : String) : Except Fault Expr :=
  match parse source with
  | .error e => .error (.notExpression e)
  | .ok e => expandTagTests e

/-- Compiles a filter text. -/
def compile (source : String) : Except Fault Compiled :=
  if trim source = "" then .ok .everything
  else
    match expression source with
    | .error e => .error e
    | .ok e =>
      match checkFilter e with
      | .error fault => .error (.illTyped fault)
      | .ok () => .ok (.checked source e)

/-- Compiles a filter text that must not look at content. -/
def compileGuarded (source : String) : Except Fault Compiled :=
  if readsContent source then .error .readsContent else compile source

end SharedMemos.Filter
