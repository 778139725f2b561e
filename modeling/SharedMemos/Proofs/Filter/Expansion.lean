import SharedMemos.Filter.TagTest
import SharedMemos.Proofs.Filter.Evaluation

/-!
# Tag tests written out

Writing tag tests out fails where a test is not of the required form. Where it succeeds, what comes
out is related to what went in, constructor by constructor, with one rule for the tests themselves.
Whatever is to be said of the expression that comes out, its height or its names, is an induction
over that relation.

## Main results

* `Expands`, `ExpandsAll` — an expression and the same with its tag tests written out
* `expands_of_expandTagTests` — what comes out
* `expandTagTests_call` and its companions — the function, constructor by constructor
-/

namespace SharedMemos.Filter

/-! ### The function -/

/-- An application that is no tag test has its arguments written out. -/
theorem expandTagTests_call {op : Op} {args : List Expr}
    (h : ¬ ∃ rest, op = .isIn ∧ args = .var "tag" :: rest) :
    expandTagTests (.call op args) = (expandAll args).map (.call op) :=
  expandTagTests.eq_5 _ _ fun rest hop hargs => h ⟨rest, hop, hargs⟩

theorem expandTagTests_method (op : Op) (receiver : Expr) (args : List Expr) :
    expandTagTests (.method op receiver args)
      = (expandTagTests receiver).bind fun r => (expandAll args).map (.method op r) := by
  rw [expandTagTests]
  cases expandTagTests receiver <;> rfl

theorem expandTagTests_quantified (q : Quantifier) (binder : String) (range body : Expr) :
    expandTagTests (.quantified q binder range body)
      = (expandTagTests range).bind fun r =>
        (expandTagTests body).map (.quantified q binder r) := by
  rw [expandTagTests]
  cases expandTagTests range <;> rfl

theorem expandAll_cons (e : Expr) (es : List Expr) :
    expandAll (e :: es) = (expandTagTests e).bind fun e' => (expandAll es).map (e' :: ·) := by
  rw [expandAll]
  cases expandTagTests e <;> rfl

/-! ### The relation -/

mutual

/-- The second expression is the first with its tag tests written out. -/
inductive Expands : Expr → Expr → Prop
  | const (v : Value) : Expands (.const v) (.const v)
  | var (n : String) : Expands (.var n) (.var n)
  | list {es es'} (h : ExpandsAll es es') : Expands (.list es) (.list es')
  | tagTest {items tags} (rest : List Expr) (h : textLiterals items = .ok tags) :
    Expands (.call .isIn (.var "tag" :: .list items :: rest)) (Filter.tagTest tags)
  | call {es es'} (op : Op) (h : ExpandsAll es es') : Expands (.call op es) (.call op es')
  | method {r r' es es'} (op : Op) (hr : Expands r r') (h : ExpandsAll es es') :
    Expands (.method op r es) (.method op r' es')
  | quantified {r r' b b'} (q : Quantifier) (binder : String) (hr : Expands r r')
    (hb : Expands b b') : Expands (.quantified q binder r b) (.quantified q binder r' b')

/-- The same of lists, item by item. -/
inductive ExpandsAll : List Expr → List Expr → Prop
  | nil : ExpandsAll [] []
  | cons {e e' es es'} (h : Expands e e') (hall : ExpandsAll es es') :
    ExpandsAll (e :: es) (e' :: es')

end

theorem expands_of_expandTagTest {args : List Expr} {e : Expr} (h : expandTagTest args = .ok e) :
    Expands (.call .isIn (.var "tag" :: args)) e := by
  rw [expandTagTest.eq_def] at h
  split at h
  · cases h
  · obtain ⟨tags, htags, rfl⟩ := map_eq_ok.mp h
    exact .tagTest _ htags
  · cases h

mutual

/-- **What comes out is related to what went in.** -/
theorem expands_of_expandTagTests : ∀ {e e' : Expr}, expandTagTests e = .ok e' → Expands e e'
  | .const v, e', h => by
    rw [expandTagTests] at h
    cases h
    exact .const v
  | .var n, e', h => by
    rw [expandTagTests] at h
    cases h
    exact .var n
  | .list items, e', h => by
    rw [expandTagTests] at h
    obtain ⟨items', hitems, rfl⟩ := map_eq_ok.mp h
    exact .list (expandsAll_of_expandAll hitems)
  | .call op args, e', h => by
    by_cases htest : ∃ rest, op = .isIn ∧ args = .var "tag" :: rest
    · obtain ⟨rest, rfl, rfl⟩ := htest
      rw [expandTagTests] at h
      exact expands_of_expandTagTest h
    · rw [expandTagTests_call htest] at h
      obtain ⟨args', hargs, rfl⟩ := map_eq_ok.mp h
      exact .call op (expandsAll_of_expandAll hargs)
  | .method op receiver args, e', h => by
    rw [expandTagTests_method] at h
    obtain ⟨r, hr, h⟩ := bind_eq_ok.mp h
    obtain ⟨args', hargs, rfl⟩ := map_eq_ok.mp h
    exact .method op (expands_of_expandTagTests hr) (expandsAll_of_expandAll hargs)
  | .quantified q binder range body, e', h => by
    rw [expandTagTests_quantified] at h
    obtain ⟨r, hr, h⟩ := bind_eq_ok.mp h
    obtain ⟨body', hbody, rfl⟩ := map_eq_ok.mp h
    exact .quantified q binder (expands_of_expandTagTests hr) (expands_of_expandTagTests hbody)

theorem expandsAll_of_expandAll : ∀ {es es' : List Expr}, expandAll es = .ok es' →
    ExpandsAll es es'
  | [], es', h => by
    rw [expandAll] at h
    cases h
    exact .nil
  | e :: es, es', h => by
    rw [expandAll_cons] at h
    obtain ⟨e', he, h⟩ := bind_eq_ok.mp h
    obtain ⟨es', hes, rfl⟩ := map_eq_ok.mp h
    exact .cons (expands_of_expandTagTests he) (expandsAll_of_expandAll hes)

end

end SharedMemos.Filter
