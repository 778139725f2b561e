import SharedMemos.Filter.Fault

/-!
# Tag tests

`tag in ["a", "b"]` asks whether the memo has a tag that is one of the given tags or descends from
one. It is short for a comprehension over the tags of the memo, and `expandTagTests` writes it out.
-/

namespace SharedMemos.Filter

/-- The name on the left of a tag test. -/
def tagTestName : String := "tag"

/-- The binder of an expanded tag test. -/
def tagBinder : String := "__tag"

/-- The test that the bound tag is `tag` or descends from it. -/
def underTag (tag : String) : Expr :=
  .call .or
    [.call .eq [.var tagBinder, .const (.string tag)],
      .method .startsWith (.var tagBinder) [.const (.string (tag ++ "/"))]]

/-- Appends the tests of further tags as alternatives. -/
def orUnderTags (test : Expr) : List String → Expr
  | [] => test
  | tag :: tags => orUnderTags (.call .or [test, underTag tag]) tags

/-- The expanded test for membership under one of `tags`. -/
def tagTest : List String → Expr
  | [] => .const (.bool false)
  | tag :: tags => .quantified .any tagBinder (.var "tags") (orUnderTags (underTag tag) tags)

/-- The texts of a list of text literals. -/
def textLiterals : List Expr → Except Fault (List String)
  | [] => .ok []
  | .const (.string s) :: rest => (textLiterals rest).map (s :: ·)
  | _ :: _ => .error .tagsNotLiteral

/-- The expansion of a tag test with the given right sides. -/
def expandTagTest : List Expr → Except Fault Expr
  | [] => .error .tagsMissing
  | .list items :: _ => (textLiterals items).map tagTest
  | _ :: _ => .error .tagsNotLiteral

mutual

/-- The expression with every tag test written out. -/
def expandTagTests : Expr → Except Fault Expr
  | .const v => .ok (.const v)
  | .var name => .ok (.var name)
  | .list items => (expandAll items).map .list
  | .call .isIn (.var "tag" :: rest) => expandTagTest rest
  | .call op args => (expandAll args).map (.call op)
  | .method op receiver args =>
    match expandTagTests receiver with
    | .error e => .error e
    | .ok receiver => (expandAll args).map (.method op receiver)
  | .quantified q binder range body =>
    match expandTagTests range with
    | .error e => .error e
    | .ok range => (expandTagTests body).map (.quantified q binder range)

/-- The expressions with every tag test written out. -/
def expandAll : List Expr → Except Fault (List Expr)
  | [] => .ok []
  | e :: es =>
    match expandTagTests e with
    | .error fault => .error fault
    | .ok e => (expandAll es).map (e :: ·)

end

end SharedMemos.Filter
