import SharedMemos.Proofs.Filter.Expansion
import SharedMemos.Proofs.Filter.Lexing

/-!
# Expressions that can be written

A tree of the filter language may have operators with any operands, names of any characters and
numbers of any size. What a text is read as, has not: its variables are words, its numbers fit, and
every operator has as many operands as its symbol takes. Writing tag tests out keeps to that.

## Main definitions

* `Formed` — the expressions that can be written

## Main results

* `formed_of_expression` — the expression of a filter text is one
-/

namespace SharedMemos.Filter

open SharedMemos.Text SharedMemos.Filter.Parser

/-- The operators in front of their operand. -/
def prefixes : List Op := [.not, .neg]

/-- The operators between two operands. -/
def infixes : List Op :=
  [.or, .and, .eq, .ne, .lt, .le, .gt, .ge, .isIn, .add, .sub, .mul, .div, .mod]

/-- Is the text a word that may be the name of a variable? -/
def IsVariable (name : String) : Prop :=
  isName name = true ∧ name ∉ keywords

instance (name : String) : Decidable (IsVariable name) :=
  inferInstanceAs (Decidable (_ ∧ _))

/-- The expression can be written: each operator has the operands that its symbol takes, variables
are words, and numbers are no larger than those that are read. -/
inductive Formed : Expr → Prop
  | bool (b : Bool) : Formed (.const (.bool b))
  | int {n : Int} (hmin : -maxInt64 ≤ n) (hmax : n ≤ maxInt64) : Formed (.const (.int n))
  | string (s : String) : Formed (.const (.string s))
  | var {name} (hname : IsVariable name) : Formed (.var name)
  | list {items} (h : ∀ e ∈ items, Formed e) : Formed (.list items)
  | prefixed {op x} (hop : op ∈ prefixes) (h : Formed x) : Formed (.call op [x])
  | function {op args} (hop : op ∈ functions) (h : ∀ e ∈ args, Formed e) : Formed (.call op args)
  | infixed {op l r} (hop : op ∈ infixes) (hl : Formed l) (hr : Formed r) :
      Formed (.call op [l, r])
  | method {op receiver args} (hop : op ∈ methods) (h : Formed receiver)
      (hargs : ∀ e ∈ args, Formed e) : Formed (.method op receiver args)
  | quantified {q binder range body} (hbinder : IsVariable binder) (h : Formed range)
      (hbody : Formed body) : Formed (.quantified q binder range body)

theorem Formed.isVariable {name : String} (h : Formed (.var name)) : IsVariable name := by
  cases h
  assumption

/-! ### What is read can be written -/

theorem mem_infixes_of_operator? {t : Tier} {token : Token} {op : Op}
    (h : t.operator? token = some op) : op ∈ infixes := by
  cases t <;> cases token <;>
    simp only [Tier.operator?, disjunction?, conjunction?, relation?, sum?, product?,
      Option.some.injEq, Option.ite_none_right_eq_some, reduceCtorEq] at h
  case relation.ident name =>
    rw [← h.2]
    decide
  all_goals
    rw [← h]
    decide

theorem isVariable_of_propertyField? {name field : String} (h : propertyField? name = some field) :
    IsVariable field := by
  unfold propertyField? at h
  repeat' split at h
  all_goals
    cases h <;> decide

mutual

theorem Derives.formed : ∀ {depth : Nat} {c : Category} {ts : List Token} {e : Expr},
    Derives depth c ts e → (∀ t ∈ ts, t.isWritten = true) → Formed e
  | _, _, _, _, .operand h, hts | _, _, _, _, .member h, hts => h.formed hts
  | _, _, _, _, .infixed hop hl hr, hts => by
    have hts := List.forall_mem_append.mp hts
    exact .infixed (mem_infixes_of_operator? hop) (hl.formed hts.1)
      (hr.formed (List.forall_mem_cons.mp hts.2).2)
  | _, _, _, _, .not h, hts => .prefixed (by decide) (h.formed (List.forall_mem_cons.mp hts).2)
  | _, _, _, _, .neg _ h, hts => .prefixed (by decide) (h.formed (List.forall_mem_cons.mp hts).2)
  | _, _, _, _, .int n, hts => by
    have hn := hts (.int n) List.mem_cons_self
    simp only [Token.isWritten, Bool.and_eq_true, decide_eq_true_eq] at hn
    exact .int (by omega) hn.2
  | _, _, _, _, .negative n, hts => by
    have hn := hts (.int n) (by simp)
    simp only [Token.isWritten, Bool.and_eq_true, decide_eq_true_eq] at hn
    exact .int (by omega) (by omega)
  | _, _, _, _, .string s, _ => .string s
  | _, _, _, _, .true, _ => .bool true
  | _, _, _, _, .false, _ => .bool false
  | _, _, _, _, .var hname, hts => .var ⟨hts (.ident _) List.mem_cons_self, hname⟩
  | _, _, _, _, .group h, hts => by
    have hts := (List.forall_mem_cons.mp hts).2
    exact h.formed (List.forall_mem_append.mp hts).1
  | _, _, _, _, .list h, hts | _, _, _, _, .listWithComma h _, hts => by
    have hts := (List.forall_mem_cons.mp hts).2
    exact .list (h.formed (List.forall_mem_append.mp hts).1)
  | _, _, _, _, .function hop h, hts => by
    have hts := (List.forall_mem_cons.mp (List.forall_mem_cons.mp hts).2).2
    exact .function hop (h.formed (List.forall_mem_append.mp hts).1)
  | _, _, _, _, .selection _ hfield, _ => .var (isVariable_of_propertyField? hfield)
  | _, _, _, _, .method hop h hargs, hts => by
    have hts := List.forall_mem_append.mp hts
    simp only [List.forall_mem_cons, List.forall_mem_append] at hts
    exact .method hop (h.formed hts.1) (hargs.formed hts.2.2.2.2.1)
  | _, _, _, _, .quantified h hargs, hts => by
    have hts := List.forall_mem_append.mp hts
    simp only [List.forall_mem_cons, List.forall_mem_append] at hts
    have hargs := hargs.formed hts.2.2.2.2.1
    simp only [List.forall_mem_cons] at hargs
    exact .quantified hargs.1.isVariable (h.formed hts.1) hargs.2.1

theorem DerivesAll.formed : ∀ {depth : Nat} {ts : List Token} {es : List Expr},
    DerivesAll depth ts es → (∀ t ∈ ts, t.isWritten = true) → ∀ e ∈ es, Formed e
  | _, _, _, .none, _ => nofun
  | _, _, _, .last h, hts => List.forall_mem_singleton.mpr (h.formed hts)
  | _, _, _, .cons h _ hall, hts => by
    have hts := List.forall_mem_append.mp hts
    exact List.forall_mem_cons.mpr
      ⟨h.formed hts.1, hall.formed (List.forall_mem_cons.mp hts.2).2⟩

end

theorem formed_of_parse {text : String} {e : Expr} (h : parse text = .ok e) : Formed e := by
  obtain ⟨input, htokens, hderives⟩ := exists_derives_of_parse h
  exact hderives.formed (lexes_of_tokenize htokens).isWritten

/-! ### Tag tests written out -/

theorem formed_tagTest (tags : List String) : Formed (tagTest tags) := by
  have hbinder : Formed (.var tagBinder) := .var (by decide)
  have hunder : ∀ tag, Formed (underTag tag) := fun tag =>
    .infixed (by decide) (.infixed (by decide) hbinder (.string tag))
      (.method (by decide) hbinder (List.forall_mem_singleton.mpr (.string _)))
  have hor : ∀ (tags : List String) (test : Expr), Formed test → Formed (orUnderTags test tags) := by
    intro tags
    induction tags with
    | nil => exact fun test htest => htest
    | cons tag tags ih =>
      exact fun test htest => ih _ (.infixed (by decide) htest (hunder tag))
  cases tags with
  | nil => exact .bool false
  | cons tag tags =>
    exact .quantified (by decide) (.var (by decide)) (hor tags _ (hunder tag))

mutual

theorem Expands.formed : ∀ {e e' : Expr}, Expands e e' → Formed e → Formed e'
  | _, _, .const _, he => he
  | _, _, .var _, he => he
  | _, _, .list h, he => by
    cases he with
    | list hes => exact .list (h.formed hes)
  | _, _, .tagTest _ _, _ => formed_tagTest _
  | _, _, .call _ h, he => by
    have hall := h.formed
    cases he with
    | prefixed hop he =>
      obtain _ | ⟨_, _ | _⟩ := h
      exact .prefixed hop (hall (List.forall_mem_singleton.mpr he) _ List.mem_cons_self)
    | function hop hes => exact .function hop (hall hes)
    | infixed hop hl hr =>
      obtain _ | ⟨_, _ | ⟨_, _ | _⟩⟩ := h
      simp only [List.forall_mem_cons] at hall
      have hboth := hall ⟨hl, hr, nofun⟩
      exact .infixed hop hboth.1 hboth.2.1
  | _, _, .method _ hr h, he => by
    cases he with
    | method hop he hes => exact .method hop (hr.formed he) (h.formed hes)
  | _, _, .quantified _ _ hr hb, he => by
    cases he with
    | quantified hbinder he hbody => exact .quantified hbinder (hr.formed he) (hb.formed hbody)

theorem ExpandsAll.formed : ∀ {es es' : List Expr}, ExpandsAll es es' → (∀ e ∈ es, Formed e) →
    ∀ e ∈ es', Formed e
  | _, _, .nil, _ => nofun
  | _, _, .cons h hall, hes =>
    have hes := List.forall_mem_cons.mp hes
    List.forall_mem_cons.mpr ⟨h.formed hes.1, hall.formed hes.2⟩

end

/-- **The expression of a filter text can be written.** -/
theorem formed_of_expression {source : String} {e : Expr} (h : expression source = .ok e) :
    Formed e := by
  rw [expression] at h
  split at h
  · cases h
  · exact (expands_of_expandTagTests h).formed (formed_of_parse ‹_›)

end SharedMemos.Filter
