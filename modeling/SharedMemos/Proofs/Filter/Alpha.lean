import SharedMemos.Proofs.Filter.Names
import SharedMemos.Filter.Typing

/-!
# Expressions that differ in the names of their variables

Two expressions are alike where they have the same shape and their variables stand for each other.
Which names stand for each other is a relation, and a comprehension changes it for its body: there
the two binders stand for each other, and for nothing else.

Neither the type nor the value of an expression tells how its variables are called. Both are found
by looking names up, and a lookup finds the same under names that stand for each other. That is all
the two inductions need, and no variable has to be new for it.

## Main results

* `Alike`, `AllAlike` — expressions of one shape
* `Alike.infer_eq`, `Alike.eval_eq` — alike expressions have one type, or one fault, and one value
* `Expr.renameFree` — renaming, and `alike_renameFree` what it needs to give a like expression
-/

namespace SharedMemos.Filter

/-- Which names stand for each other under two binders. -/
def Under (R : String → String → Prop) (binder binder' : String) (n n' : String) : Prop :=
  (n = binder ∧ n' = binder') ∨ (n ≠ binder ∧ n' ≠ binder' ∧ R n n')

theorem Under.of_ne {R : String → String → Prop} {binder binder' n n' : String}
    (hn : n ≠ binder) (hn' : n' ≠ binder') (h : R n n') : Under R binder binder' n n' :=
  .inr ⟨hn, hn', h⟩

/-- A name that stands for itself does so under a binder too. -/
theorem Under.refl {R : String → String → Prop} {binder n : String} (h : n ≠ binder → R n n) :
    Under R binder binder n n := by
  by_cases hn : n = binder
  · exact .inl ⟨hn, hn⟩
  · exact .of_ne hn hn (h hn)

mutual

/-- Expressions of one shape, with variables that stand for each other. -/
inductive Alike : (String → String → Prop) → Expr → Expr → Prop
  | const {R} (v : Value) : Alike R (.const v) (.const v)
  | var {R n n'} (h : R n n') : Alike R (.var n) (.var n')
  | list {R es es'} (h : AllAlike R es es') : Alike R (.list es) (.list es')
  | call {R es es'} (op : Op) (h : AllAlike R es es') : Alike R (.call op es) (.call op es')
  | method {R r r' es es'} (op : Op) (hr : Alike R r r') (h : AllAlike R es es') :
      Alike R (.method op r es) (.method op r' es')
  | quantified {R binder binder' r r' b b'} (q : Quantifier) (hr : Alike R r r')
      (hb : Alike (Under R binder binder') b b') :
      Alike R (.quantified q binder r b) (.quantified q binder' r' b')

/-- The same of lists, item by item. -/
inductive AllAlike : (String → String → Prop) → List Expr → List Expr → Prop
  | nil {R} : AllAlike R [] []
  | cons {R e e' es es'} (h : Alike R e e') (hall : AllAlike R es es') :
      AllAlike R (e :: es) (e' :: es')

end

/-! ### One type -/

/-- Have names that stand for each other one type, or are they the same undeclared name? -/
def SameTypes (R : String → String → Prop) (scope scope' : Scope) : Prop :=
  ∀ ⦃n n'⦄, R n n' → infer scope (.var n) = infer scope' (.var n')

theorem SameTypes.under {R : String → String → Prop} {scope scope' : Scope}
    (h : SameTypes R scope scope') (binder binder' : String) (t : Ty) :
    SameTypes (Under R binder binder') ((binder, t) :: scope) ((binder', t) :: scope') := by
  rintro n n' (⟨rfl, rfl⟩ | ⟨hn, hn', hR⟩)
  · simp [infer, Scope.typeOf?]
  · have hrest := h hR
    simp only [infer, Scope.typeOf?] at hrest ⊢
    rwa [List.find?_cons_of_neg (by simpa using Ne.symm hn),
      List.find?_cons_of_neg (by simpa using Ne.symm hn')]

mutual

/-- **Alike expressions have one type**, or the same fault. -/
theorem Alike.infer_eq : ∀ {R : String → String → Prop} {e e' : Expr} {scope scope' : Scope},
    Alike R e e' → SameTypes R scope scope' → infer scope e = infer scope' e'
  | _, _, _, _, _, .const v, _ => by rw [infer, infer]
  | _, _, _, _, _, .var h, hscope => hscope h
  | _, _, _, _, _, .list h, hscope => by
    rw [infer, infer, h.inferItems_eq hscope]
  | _, _, _, _, _, .call op h, hscope => by
    rw [infer, infer, h.inferAll_eq hscope]
  | _, _, _, _, _, .method op hr h, hscope => by
    rw [infer, infer, hr.infer_eq hscope, h.inferAll_eq hscope]
  | _, _, _, scope, scope', @Alike.quantified _ binder binder' _ _ _ _ q hr hb, hscope => by
    have hbody : ∀ t, infer ((binder, t) :: scope) _ = infer ((binder', t) :: scope') _ :=
      fun t => hb.infer_eq (hscope.under binder binder' t)
    rw [infer, infer, hr.infer_eq hscope]
    simp only [hbody]

theorem AllAlike.inferAll_eq : ∀ {R : String → String → Prop} {es es' : List Expr}
    {scope scope' : Scope}, AllAlike R es es' → SameTypes R scope scope' →
    inferAll scope es = inferAll scope' es'
  | _, _, _, _, _, .nil, _ => by rw [inferAll, inferAll]
  | _, _, _, _, _, .cons h hall, hscope => by
    rw [inferAll, inferAll, h.infer_eq hscope, hall.inferAll_eq hscope]

theorem AllAlike.inferItems_eq : ∀ {R : String → String → Prop} {es es' : List Expr}
    {scope scope' : Scope}, AllAlike R es es' → SameTypes R scope scope' →
    ∀ element, inferItems scope element es = inferItems scope' element es'
  | _, _, _, _, _, .nil, _, _ => by rw [inferItems, inferItems]
  | _, _, _, _, _, .cons h hall, hscope, element => by
    rw [inferItems, inferItems, h.infer_eq hscope]
    simp only [hall.inferItems_eq hscope]

end

/-- Closed alike expressions are good as filters, or neither is. -/
theorem Alike.checkFilter_eq {e e' : Expr} (h : Alike Eq e e') :
    checkFilter e = checkFilter e' := by
  have hinfer : infer [] e = infer [] e' := h.infer_eq (by rintro n - rfl; rfl)
  rw [checkFilter, checkFilter, hinfer]

/-! ### One value -/

/-- Have names that stand for each other one value, or are they the same unbound name? -/
structure SameValues (R : String → String → Prop) (env env' : Env) : Prop where
  now : env.now = env'.now
  lookup : ∀ ⦃n n'⦄, R n n' → env.lookup n = env'.lookup n'

theorem SameValues.under {R : String → String → Prop} {env env' : Env}
    (h : SameValues R env env') (binder binder' : String) (v : Value) :
    SameValues (Under R binder binder') (env.bind binder v) (env'.bind binder' v) where
  now := h.now
  lookup := by
    rintro n n' (⟨rfl, rfl⟩ | ⟨hn, hn', hR⟩)
    · rw [lookup_bind_self, lookup_bind_self]
    · have hrest := h.lookup hR
      rw [Env.lookup, Env.lookup] at hrest ⊢
      rw [Env.bind, Env.bind, List.find?_cons_of_neg (by simpa using Ne.symm hn),
        List.find?_cons_of_neg (by simpa using Ne.symm hn')]
      exact hrest

mutual

/-- **Alike expressions have one value**, or none for the same reason. -/
theorem Alike.eval_eq : ∀ {R : String → String → Prop} {e e' : Expr} {env env' : Env},
    Alike R e e' → SameValues R env env' → eval env e = eval env' e'
  | _, _, _, _, _, .const v, _ => by rw [eval, eval]
  | _, _, _, _, _, .var h, henv => by
    rw [eval, eval]
    exact henv.lookup h
  | _, _, _, _, _, .list h, henv => by
    rw [eval, eval, h.evalAll_eq henv]
  | _, _, _, _, _, .call op h, henv => by
    rw [eval, eval, h.evalAll_eq henv, henv.now]
  | _, _, _, _, _, .method op hr h, henv => by
    rw [eval, eval, hr.eval_eq henv, h.evalAll_eq henv, henv.now]
  | _, _, _, env, env', @Alike.quantified _ binder binder' _ _ _ _ q hr hb, henv => by
    have hbody : ∀ v, eval (env.bind binder v) _ = eval (env'.bind binder' v) _ :=
      fun v => hb.eval_eq (henv.under binder binder' v)
    rw [eval, eval, hr.eval_eq henv]
    simp only [hbody]

theorem AllAlike.evalAll_eq : ∀ {R : String → String → Prop} {es es' : List Expr}
    {env env' : Env}, AllAlike R es es' → SameValues R env env' →
    evalAll env es = evalAll env' es'
  | _, _, _, _, _, .nil, _ => by rw [evalAll, evalAll]
  | _, _, _, _, _, .cons h hall, henv => by
    rw [evalAll, evalAll, h.eval_eq henv, hall.evalAll_eq henv]

end

/-! ### Renaming -/

namespace Expr

mutual

/-- The expression with a variable called otherwise, wherever it is not bound inside. -/
def renameFree (x y : String) : Expr → Expr
  | .const v => .const v
  | .var n => .var (if n = x then y else n)
  | .list items => .list (renameAllFree x y items)
  | .call op args => .call op (renameAllFree x y args)
  | .method op receiver args => .method op (receiver.renameFree x y) (renameAllFree x y args)
  | .quantified q binder range body =>
    .quantified q binder (range.renameFree x y)
      (if binder = x then body else body.renameFree x y)

/-- The same of each of the expressions. -/
def renameAllFree (x y : String) : List Expr → List Expr
  | [] => []
  | e :: es => e.renameFree x y :: renameAllFree x y es

end

end Expr

mutual

/-- What stands for itself is alike itself. -/
theorem alike_self : ∀ {R : String → String → Prop} (e : Expr),
    (∀ n, e.mentions n = true → R n n) → Alike R e e
  | _, .const v, _ => .const v
  | _, .var n, h => .var (h n (beq_iff_eq.mpr rfl))
  | _, .list items, h => .list (allAlike_self items h)
  | _, .call op args, h => .call op (allAlike_self args h)
  | _, .method op receiver args, h => by
    simp only [Expr.mentions, Bool.or_eq_true] at h
    exact .method op (alike_self receiver fun n hn => h n (.inl hn))
      (allAlike_self args fun n hn => h n (.inr hn))
  | _, .quantified q binder range body, h => by
    simp only [Expr.mentions, Bool.or_eq_true] at h
    exact .quantified q (alike_self range fun n hn => h n (.inl (.inr hn)))
      (alike_self body fun n hn => .refl fun _ => h n (.inr hn))

theorem allAlike_self : ∀ {R : String → String → Prop} (es : List Expr),
    (∀ n, Expr.anyMentions n es = true → R n n) → AllAlike R es es
  | _, [], _ => .nil
  | _, e :: es, h => by
    simp only [Expr.anyMentions, Bool.or_eq_true] at h
    exact .cons (alike_self e fun n hn => h n (.inl hn))
      (allAlike_self es fun n hn => h n (.inr hn))

end

mutual

/-- **Renaming gives a like expression**, where the new name is not mentioned and stands for the old
one. -/
theorem alike_renameFree {x y : String} : ∀ {R : String → String → Prop} (e : Expr),
    e.mentions y = false → R x y → (∀ n, n ≠ x → n ≠ y → R n n) → Alike R e (e.renameFree x y)
  | _, .const v, _, _, _ => .const v
  | _, .var n, hy, hxy, hR => by
    rw [Expr.renameFree]
    split
    · rename_i hn
      exact .var (hn ▸ hxy)
    · rename_i hn
      exact .var (hR n hn (by simpa [Expr.mentions] using hy))
  | _, .list items, hy, hxy, hR => .list (allAlike_renameFree items hy hxy hR)
  | _, .call op args, hy, hxy, hR => .call op (allAlike_renameFree args hy hxy hR)
  | _, .method op receiver args, hy, hxy, hR => by
    rw [Expr.mentions, Bool.or_eq_false_iff] at hy
    exact .method op (alike_renameFree receiver hy.1 hxy hR) (allAlike_renameFree args hy.2 hxy hR)
  | _, .quantified q binder range body, hy, hxy, hR => by
    rw [Expr.mentions, Bool.or_eq_false_iff, Bool.or_eq_false_iff, beq_eq_false_iff_ne] at hy
    obtain ⟨⟨hbinder, hrange⟩, hbody⟩ := hy
    rw [Expr.renameFree]
    refine .quantified q (alike_renameFree range hrange hxy hR) ?_
    split
    · -- the name is bound anew, and stands for itself from here on
      rename_i hx
      refine alike_self body fun n hn => .refl fun hne => hR n (hx ▸ hne) ?_
      rintro rfl
      rw [hbody] at hn
      cases hn
    · rename_i hx
      refine alike_renameFree body hbody (.of_ne (Ne.symm hx) (Ne.symm hbinder) hxy) ?_
      exact fun n hn hn' => .refl fun _ => hR n hn hn'

theorem allAlike_renameFree {x y : String} : ∀ {R : String → String → Prop} (es : List Expr),
    Expr.anyMentions y es = false → R x y → (∀ n, n ≠ x → n ≠ y → R n n) →
    AllAlike R es (Expr.renameAllFree x y es)
  | _, [], _, _, _ => .nil
  | _, e :: es, hy, hxy, hR => by
    rw [Expr.anyMentions, Bool.or_eq_false_iff] at hy
    exact .cons (alike_renameFree e hy.1 hxy hR) (allAlike_renameFree es hy.2 hxy hR)

end

end SharedMemos.Filter
