import SharedMemos.Filter.Compiled
import SharedMemos.Proofs.Filter.Expansion
import SharedMemos.Proofs.Filter.Grammar

/-!
# The literals of a filter

A value is a truth value, a number, a text or a list of values, and an expression may hold any value
as a literal. A filter text cannot write all of them: a list in it is an expression over its items,
never a literal. So what the checker makes of a literal list, whose first item speaks for all, does
not matter to filters.

## Main results

* `isPlain_of_parse` — the literals of what a text is read as
* `isPlain_of_expression` — and of the expression of a filter text
-/

namespace SharedMemos.Filter

/-- Is the value not a list? -/
def Value.isScalar : Value → Bool
  | .list _ => false
  | _ => true

namespace Expr

mutual

/-- Is no literal of the expression a list? -/
def isPlain : Expr → Bool
  | .const v => v.isScalar
  | .var _ => true
  | .list items => allPlain items
  | .call _ args => allPlain args
  | .method _ receiver args => receiver.isPlain && allPlain args
  | .quantified _ _ range body => range.isPlain && body.isPlain

/-- Is no literal of the expressions a list? -/
def allPlain : List Expr → Bool
  | [] => true
  | e :: es => e.isPlain && allPlain es

end

end Expr

/-! ### Literals that are read -/

mutual

theorem Derives.isPlain : ∀ {depth : Nat} {c : Category} {ts : List Token} {e : Expr},
    Derives depth c ts e → e.isPlain = true
  | _, _, _, _, .operand h | _, _, _, _, .member h | _, _, _, _, .group h => h.isPlain
  | _, _, _, _, .infixed _ hl hr => by
    simp [Expr.isPlain, Expr.allPlain, hl.isPlain, hr.isPlain]
  | _, _, _, _, .not h | _, _, _, _, .neg _ h => by
    simp [Expr.isPlain, Expr.allPlain, h.isPlain]
  | _, _, _, _, .int _ | _, _, _, _, .negative _ | _, _, _, _, .string _ | _, _, _, _, .true
  | _, _, _, _, .false | _, _, _, _, .var _ | _, _, _, _, .selection _ _ => rfl
  | _, _, _, _, .list h | _, _, _, _, .listWithComma h _ | _, _, _, _, .function _ h => h.allPlain
  | _, _, _, _, .method _ h hargs => by
    simp [Expr.isPlain, h.isPlain, hargs.allPlain]
  | _, _, _, _, .quantified h hargs => by
    have hbody := hargs.allPlain
    simp only [Expr.allPlain, Expr.isPlain, Bool.true_and, Bool.and_true] at hbody
    rw [Expr.isPlain, h.isPlain, hbody]
    rfl

theorem DerivesAll.allPlain : ∀ {depth : Nat} {ts : List Token} {es : List Expr},
    DerivesAll depth ts es → Expr.allPlain es = true
  | _, _, _, .none => rfl
  | _, _, _, .last h => by
    simp [Expr.allPlain, h.isPlain]
  | _, _, _, .cons h _ hall => by
    simp [Expr.allPlain, h.isPlain, hall.allPlain]

end

/-- **A text cannot write a literal list.** -/
theorem isPlain_of_parse {text : String} {e : Expr} (h : parse text = .ok e) :
    e.isPlain = true := by
  obtain ⟨input, -, hderives⟩ := exists_derives_of_parse h
  exact hderives.isPlain

/-! ### Tag tests written out -/

theorem isPlain_orUnderTags : ∀ {tags : List String} {test : Expr}, test.isPlain = true →
    (orUnderTags test tags).isPlain = true
  | [], _, h => h
  | tag :: tags, test, h => by
    rw [orUnderTags]
    refine isPlain_orUnderTags ?_
    simp [Expr.isPlain, Expr.allPlain, h, underTag, Value.isScalar]

theorem isPlain_tagTest (tags : List String) : (tagTest tags).isPlain = true := by
  cases tags with
  | nil => rfl
  | cons tag tags =>
    have htest : (underTag tag).isPlain = true := rfl
    rw [tagTest, Expr.isPlain, isPlain_orUnderTags htest]
    rfl

mutual

theorem Expands.isPlain : ∀ {e e' : Expr}, Expands e e' → e.isPlain = true → e'.isPlain = true
  | _, _, .const _, hplain => hplain
  | _, _, .var _, _ => rfl
  | _, _, .list h, hplain => h.allPlain hplain
  | _, _, .tagTest _ _, _ => isPlain_tagTest _
  | _, _, .call _ h, hplain => h.allPlain hplain
  | _, _, .method _ hr h, hplain => by
    rw [Expr.isPlain, Bool.and_eq_true] at hplain
    rw [Expr.isPlain, hr.isPlain hplain.1, h.allPlain hplain.2]
    rfl
  | _, _, .quantified _ _ hr hb, hplain => by
    rw [Expr.isPlain, Bool.and_eq_true] at hplain
    rw [Expr.isPlain, hr.isPlain hplain.1, hb.isPlain hplain.2]
    rfl

theorem ExpandsAll.allPlain : ∀ {es es' : List Expr}, ExpandsAll es es' →
    Expr.allPlain es = true → Expr.allPlain es' = true
  | _, _, .nil, _ => rfl
  | _, _, .cons h hall, hplain => by
    rw [Expr.allPlain, Bool.and_eq_true] at hplain
    rw [Expr.allPlain, h.isPlain hplain.1, hall.allPlain hplain.2]
    rfl

end

/-- The expression of a filter text has no literal list either. -/
theorem isPlain_of_expression {source : String} {e : Expr} (h : expression source = .ok e) :
    e.isPlain = true := by
  rw [expression] at h
  split at h
  · cases h
  · rename_i parsed hparse
    exact (expands_of_expandTagTests h).isPlain (isPlain_of_parse hparse)

end SharedMemos.Filter
