import SharedMemos.Proofs.Filter.Soundness
import SharedMemos.Proofs.Filter.Stack

/-!
# Variables and truth values of a compiled filter

The check keeps a scope of names with types, evaluation a stack of names with values, and a name
that is in neither belongs to an attribute of the memo. The two are pushed by the same
comprehensions, so they hold the same names in the same order wherever an expression is checked and
evaluated. Nothing else is needed for every variable to be found: what the types are does not
matter, and so this holds where a type has been lost as well, and of the variables of an expanded
tag test.

A filter is of type `bool`, which says little by itself, because an operand of type `any` passes for
anything. Only the elements of an empty list are of that type, though, and they are reached through
a binder. Outside comprehensions no expression has it (`infer_ne_any`), and there an operator of
type `bool` is one that gives truth values whatever it is applied to.

## Main results

* `eval_inScope` — no variable is looked up in vain, in every scope
* `eval_isTruth` — the values of expressions of type `bool`, outside comprehensions
* `compiled_in_scope` — a compiled filter on a stack
-/

namespace SharedMemos.Filter

/-! ### Results without an unknown variable -/

/-- Was no variable looked up in vain? -/
def InScope {α : Type} (r : Except EvalError α) : Prop :=
  ∀ name, r ≠ .error (.unbound name)

namespace InScope

variable {α β : Type} {r : Except EvalError α}

theorem ok (a : α) : InScope (.ok a : Except EvalError α) := nofun

theorem error {e : EvalError} (h : ∀ name, e ≠ .unbound name) :
    InScope (.error e : Except EvalError α) :=
  fun name heq => h name (Except.error.inj heq)

theorem of_error {e : EvalError} (h : InScope (.error e : Except EvalError α)) (name : String) :
    e ≠ .unbound name :=
  fun heq => h name (congrArg _ heq)

theorem bind {f : α → Except EvalError β} (h : InScope r) (hf : ∀ a, InScope (f a)) :
    InScope (r.bind f) := by
  cases r with
  | ok a => exact hf a
  | error e => exact .error h.of_error

theorem map (f : α → β) (h : InScope r) : InScope (r.map f) := by
  cases r with
  | ok a => exact .ok _
  | error e => exact .error h.of_error

end InScope

theorem values_inScope {rs : List Result} (h : ∀ r ∈ rs, InScope r) : InScope (values rs) := by
  induction rs with
  | nil => exact .ok _
  | cons r rs ih =>
    obtain ⟨hr, hrs⟩ := List.forall_mem_cons.mp h
    cases r with
    | error e => exact .error hr.of_error
    | ok v => exact (ih hrs).map _

theorem noOverload_inScope (name : String) :
    InScope (.error (.noOverload name) : Result) :=
  .error fun _ => EvalError.noConfusion

theorem ofInt_inScope (n : Int) : InScope (ofInt n) := by
  rw [ofInt]
  cases Text.checkedInt64 n with
  | none => exact .error fun _ => EvalError.noConfusion
  | some n => exact .ok _

theorem Op.onInts_inScope (op : Op) (a b : Int) : InScope (op.onInts a b) := by
  fun_cases Op.onInts op a b
  all_goals first | exact ofInt_inScope _ | exact .error fun _ => EvalError.noConfusion

theorem sizeOf_inScope (v : Value) : InScope (sizeOf v) := by
  cases v with
  | string | list => exact .ok _
  | bool | int => exact noOverload_inScope _

theorem ofOrder_inScope (op : Op) (o : Option Ordering) :
    InScope
      (o.elim (.error (.noOverload op.name)) fun o => .ok (.bool (op.ofOrder o)) : Result) := by
  cases o with
  | none => exact noOverload_inScope _
  | some o => exact .ok _

/-- Operators on values look nothing up. -/
theorem Op.onValues_inScope (op : Op) (receiver : Option Value) (vs : List Value) :
    InScope (op.onValues receiver vs) := by
  fun_cases Op.onValues op receiver vs
  all_goals first
    | exact .ok _
    | exact noOverload_inScope _
    | exact ofInt_inScope _
    | exact sizeOf_inScope _
    | exact ofOrder_inScope _ _
    | exact Op.onInts_inScope _ _ _

section Junctions

variable {l r : Result}

theorem junctionError_inScope (op : Op) (hl : InScope l) (hr : InScope r) :
    InScope (.error (junctionError op l r) : Result) := by
  rw [junctionError.eq_def]
  split
  · exact .error hl.of_error
  · exact .error hr.of_error
  · exact noOverload_inScope _

theorem conjunction_inScope (hl : InScope l) (hr : InScope r) : InScope (conjunction l r) := by
  rw [conjunction]
  split
  · exact .ok _
  · exact .ok _
  · exact .ok _
  · exact junctionError_inScope _ hl hr

theorem disjunction_inScope (hl : InScope l) (hr : InScope r) : InScope (disjunction l r) := by
  rw [disjunction]
  split
  · exact .ok _
  · exact .ok _
  · exact .ok _
  · exact junctionError_inScope _ hl hr

end Junctions

/-- An operator looks nothing up itself. -/
theorem Op.apply_inScope (op : Op) (now : Int) {receiver : Option Result} {rs : List Result}
    (hreceiver : ∀ r ∈ receiver, InScope r) (hrs : ∀ r ∈ rs, InScope r) :
    InScope (op.apply now receiver rs) := by
  have hvalues := values_inScope hrs
  rw [apply.eq_def]
  split
  · exact conjunction_inScope (hrs _ (by simp)) (hrs _ (by simp))
  · exact disjunction_inScope (hrs _ (by simp)) (hrs _ (by simp))
  · split
    · exact .error (hreceiver _ rfl).of_error
    · exact hvalues.bind fun _ => Op.onValues_inScope _ _ _
    · split
      · exact .ok _
      · exact hvalues.bind fun _ => Op.onValues_inScope _ _ _

theorem Quantifier.join_inScope (q : Quantifier) {rs : List Result} (h : ∀ r ∈ rs, InScope r) :
    InScope (q.join rs) := by
  rw [join]
  split
  · exact .ok _
  · split
    · rename_i e he
      obtain ⟨r, hr, herror⟩ := List.mem_filterMap.mp (List.mem_of_getLast? he)
      have hscope := h r hr
      rcases r with e' | (b | n | s | items)
      · cases herror
        exact .error hscope.of_error
      · cases herror
      all_goals
        cases herror
        exact noOverload_inScope _
    · exact .ok _

/-! ### Scopes and stacks of the same names -/

/-- Does the environment bind the names of the scope, in the same order? -/
def Env.Binds (env : Env) (scope : Scope) : Prop :=
  env.bound.map Prod.fst = scope.map Prod.fst

theorem Env.Binds.bind {env : Env} {scope : Scope} (h : env.Binds scope) (binder : String)
    (v : Value) (t : Ty) : (env.bind binder v).Binds ((binder, t) :: scope) :=
  congrArg (binder :: ·) h

theorem isSome_find?_name {α : Type} (bound : List (String × α)) (name : String) :
    (bound.find? (·.1 == name)).isSome = (bound.map Prod.fst).contains name := by
  induction bound with
  | nil => rfl
  | cons b bound ih =>
    rw [List.find?_cons, List.map_cons, List.contains_cons, BEq.comm (a := name)]
    cases b.1 == name with
    | true => rfl
    | false => exact ih

theorem Env.Binds.lookup_inScope {env : Env} {scope : Scope} {name : String} {t : Ty}
    (h : env.Binds scope) (htype : scope.typeOf? name = some t) : InScope (env.lookup name) := by
  have hfound : (env.bound.find? (·.1 == name)).isSome = (scope.find? (·.1 == name)).isSome := by
    rw [isSome_find?_name, isSome_find?_name, h]
  rw [Env.lookup]
  split
  · exact .ok _
  · rename_i hbound
    rw [hbound, Option.isSome_none, eq_comm, Option.isSome_eq_false_iff, Option.isNone_iff_eq_none]
      at hfound
    rw [Scope.typeOf?, hfound] at htype
    obtain ⟨a, ha, -⟩ := Option.map_eq_some_iff.mp htype
    rw [ha]
    exact .ok _

section Inversion

variable {scope : Scope} {op : Op} {args : List Expr} {t : Ty}

/-- The type of a call comes from those of its operands. -/
theorem infer_call_eq_ok (h : infer scope (.call op args) = .ok t) :
    ∃ types, inferAll scope args = .ok types ∧ op.resultType? none types = some t := by
  rw [infer] at h
  split at h
  · cases h
  · exact ⟨_, ‹_›, elim_eq_ok.mp h⟩

theorem infer_method_eq_ok {receiver : Expr} (h : infer scope (.method op receiver args) = .ok t) :
    ∃ s types, infer scope receiver = .ok s ∧ inferAll scope args = .ok types
      ∧ op.resultType? (some s) types = some t := by
  rw [infer] at h
  split at h
  · cases h
  · split at h
    · cases h
    · exact ⟨_, _, ‹_›, ‹_›, elim_eq_ok.mp h⟩

/-- A comprehension is a truth value, and its body has a type in one more variable. -/
theorem infer_quantified_eq_ok {q : Quantifier} {binder : String} {range body : Expr}
    (h : infer scope (.quantified q binder range body) = .ok t) :
    t = .bool ∧ ∃ rangeType element bodyType, infer scope range = .ok rangeType
      ∧ infer ((binder, element) :: scope) body = .ok bodyType := by
  rw [infer] at h
  split at h
  · cases h
  · split at h
    · cases h
    · split at h
      · cases h
      · split at h
        · cases h
          exact ⟨rfl, _, _, _, ‹_›, ‹_›⟩
        · cases h

end Inversion

mutual

/-- **No variable is looked up in vain** where an expression with a type is evaluated, whatever
values the variables have. -/
theorem eval_inScope : ∀ {e : Expr} {scope : Scope} {env : Env} {t : Ty}, infer scope e = .ok t →
    env.Binds scope → InScope (eval env e)
  | .const v, scope, env, t, htype, hbinds => by
    rw [eval]
    exact .ok v
  | .var name, scope, env, t, htype, hbinds => by
    rw [infer] at htype
    rw [eval]
    exact hbinds.lookup_inScope (elim_eq_ok.mp htype)
  | .list items, scope, env, t, htype, hbinds => by
    rw [infer] at htype
    obtain ⟨element, hitems, -⟩ := map_eq_ok.mp htype
    rw [eval]
    exact (values_inScope (evalItems_inScope hitems hbinds)).map _
  | .call op args, scope, env, t, htype, hbinds => by
    obtain ⟨types, htypes, -⟩ := infer_call_eq_ok htype
    rw [eval]
    exact op.apply_inScope env.now nofun (evalAll_inScope htypes hbinds)
  | .method op receiver args, scope, env, t, htype, hbinds => by
    obtain ⟨s, types, hs, htypes, -⟩ := infer_method_eq_ok htype
    rw [eval]
    refine op.apply_inScope env.now ?_ (evalAll_inScope htypes hbinds)
    rintro r ⟨⟩
    exact eval_inScope hs hbinds
  | .quantified q binder range body, scope, env, t, htype, hbinds => by
    obtain ⟨-, rangeType, element, bodyType, hrange, hbody⟩ := infer_quantified_eq_ok htype
    have hscope := eval_inScope hrange hbinds
    rw [eval]
    rcases hvalue : eval env range with e | (b | n | s | items)
    · rw [hvalue] at hscope
      exact .error hscope.of_error
    · exact noOverload_inScope _
    · exact noOverload_inScope _
    · exact noOverload_inScope _
    · refine q.join_inScope fun r hr => ?_
      obtain ⟨v, -, rfl⟩ := List.mem_map.mp hr
      exact eval_inScope hbody (hbinds.bind binder v element)

theorem evalAll_inScope : ∀ {es : List Expr} {scope : Scope} {env : Env} {ts : List Ty},
    inferAll scope es = .ok ts → env.Binds scope → ∀ r ∈ evalAll env es, InScope r
  | [], scope, env, ts, htypes, hbinds => by
    rw [evalAll]
    exact nofun
  | e :: es, scope, env, ts, htypes, hbinds => by
    rw [inferAll] at htypes
    split at htypes
    · cases htypes
    · rename_i t ht
      obtain ⟨types, hrest, -⟩ := map_eq_ok.mp htypes
      rw [evalAll]
      exact List.forall_mem_cons.mpr ⟨eval_inScope ht hbinds, evalAll_inScope hrest hbinds⟩

theorem evalItems_inScope : ∀ {es : List Expr} {scope : Scope} {env : Env} {element t : Ty},
    inferItems scope element es = .ok t → env.Binds scope → ∀ r ∈ evalAll env es, InScope r
  | [], scope, env, element, t, htype, hbinds => by
    rw [evalAll]
    exact nofun
  | e :: es, scope, env, element, t, htype, hbinds => by
    rw [inferItems] at htype
    split at htype
    · cases htype
    · rename_i first hfirst
      have hscope := eval_inScope hfirst hbinds
      rw [evalAll]
      split at htype
      · exact List.forall_mem_cons.mpr ⟨hscope, evalItems_inScope htype hbinds⟩
      · split at htype
        · exact List.forall_mem_cons.mpr ⟨hscope, evalItems_inScope htype hbinds⟩
        · cases htype

end

/-! ### Truth values -/

/-- Is the value a truth value, if there is one? -/
def IsTruth (r : Result) : Prop :=
  ∀ v, r = .ok v → ∃ b, v = .bool b

namespace IsTruth

theorem bool (b : Bool) : IsTruth (.ok (.bool b)) := fun _ h => ⟨b, (Except.ok.inj h).symm⟩

theorem error (e : EvalError) : IsTruth (.error e) := nofun

end IsTruth

/-- Does the operator give nothing but truth values? -/
def Op.givesTruths : Op → Bool
  | .or | .and | .not | .eq | .ne | .lt | .le | .gt | .ge | .isIn => true
  | .contains | .startsWith | .endsWith => true
  | _ => false

theorem conjunction_isTruth (l r : Result) : IsTruth (conjunction l r) := by
  rw [conjunction]
  split
  all_goals first | exact .bool _ | exact .error _

theorem disjunction_isTruth (l r : Result) : IsTruth (disjunction l r) := by
  rw [disjunction]
  split
  all_goals first | exact .bool _ | exact .error _

theorem Quantifier.join_isTruth (q : Quantifier) (rs : List Result) : IsTruth (q.join rs) := by
  rw [join]
  split
  · exact .bool _
  · split
    · exact .error _
    · exact .bool _

theorem ofOrder_isTruth (op : Op) (o : Option Ordering) :
    IsTruth (o.elim (.error (.noOverload op.name)) fun o => .ok (.bool (op.ofOrder o))) := by
  cases o with
  | none => exact .error _
  | some o => exact .bool _

theorem Op.onValues_isTruth {op : Op} (h : op.givesTruths = true) (receiver : Option Value)
    (vs : List Value) : IsTruth (op.onValues receiver vs) := by
  fun_cases Op.onValues op receiver vs
  all_goals first
    | exact .bool _
    | exact .error _
    | exact ofOrder_isTruth _ _
    | cases h

theorem Op.apply_isTruth {op : Op} (h : op.givesTruths = true) (now : Int)
    (receiver : Option Result) (rs : List Result) : IsTruth (op.apply now receiver rs) := by
  rw [apply.eq_def]
  split
  · exact conjunction_isTruth _ _
  · exact disjunction_isTruth _ _
  · split
    · exact .error _
    · intro v hv
      obtain ⟨vs, -, hop⟩ := bind_eq_ok.mp hv
      exact Op.onValues_isTruth h _ vs v hop
    · split
      · cases h
      · intro v hv
        obtain ⟨vs, -, hop⟩ := bind_eq_ok.mp hv
        exact Op.onValues_isTruth h _ vs v hop

/-- The types that operators have. Only a sum is of the type of an operand, and only next to an
operand of type `any` that of a truth value. -/
theorem Op.resultType?_cases {op : Op} {receiver : Option Ty} {types : List Ty} {t : Ty}
    (h : op.resultType? receiver types = some t) :
    (t = .bool ∧ op.givesTruths = true) ∨ t = .int
      ∨ (t ∈ types ∧ (t = .bool → Ty.any ∈ types)) := by
  rw [resultType?.eq_def] at h
  -- one case for each rule, and two for a sum, by whether its left operand is of type any
  repeat' split at h
  all_goals simp_all [givesTruths]

theorem Op.ne_any_of_resultType {op : Op} {receiver : Option Ty} {types : List Ty} {t : Ty}
    (h : op.resultType? receiver types = some t) (hany : Ty.any ∉ types) : t ≠ .any := by
  rintro rfl
  rcases Op.resultType?_cases h with ⟨hbool, -⟩ | hint | ⟨hmem, -⟩
  · cases hbool
  · cases hint
  · exact hany hmem

/-- An operator of type `bool` gives truth values only, unless an operand is of type `any`. -/
theorem Op.givesTruths_of_resultType {op : Op} {receiver : Option Ty} {types : List Ty}
    (h : op.resultType? receiver types = some .bool) (hany : Ty.any ∉ types) :
    op.givesTruths = true := by
  rcases Op.resultType?_cases h with ⟨-, htruths⟩ | hint | ⟨-, hsum⟩
  · exact htruths
  · cases hint
  · exact absurd (hsum rfl) hany

mutual

/-- Outside comprehensions, only the elements of an empty list are of type `any`. -/
theorem infer_ne_any : ∀ {e : Expr} {t : Ty}, infer [] e = .ok t → t ≠ .any
  | .const v, t, h => by
    rw [infer] at h
    cases h
    cases v using Value.type.fun_cases <;> simp [Value.type]
  | .var name, t, h => by
    rw [infer] at h
    obtain ⟨a, -, rfl⟩ := Option.map_eq_some_iff.mp (elim_eq_ok.mp h)
    cases a <;> exact nofun
  | .list items, t, h => by
    rw [infer] at h
    obtain ⟨element, -, rfl⟩ := map_eq_ok.mp h
    exact nofun
  | .call op args, t, h => by
    obtain ⟨types, htypes, htype⟩ := infer_call_eq_ok h
    exact Op.ne_any_of_resultType htype (inferAll_ne_any htypes)
  | .method op receiver args, t, h => by
    obtain ⟨s, types, -, htypes, htype⟩ := infer_method_eq_ok h
    exact Op.ne_any_of_resultType htype (inferAll_ne_any htypes)
  | .quantified q binder range body, t, h => by
    obtain ⟨rfl, -⟩ := infer_quantified_eq_ok h
    exact nofun

theorem inferAll_ne_any : ∀ {es : List Expr} {types : List Ty}, inferAll [] es = .ok types →
    Ty.any ∉ types
  | [], types, h => by
    rw [inferAll] at h
    cases h
    exact List.not_mem_nil
  | e :: es, types, h => by
    rw [inferAll] at h
    split at h
    · cases h
    · rename_i t ht
      obtain ⟨rest, hrest, rfl⟩ := map_eq_ok.mp h
      rw [List.mem_cons, not_or]
      exact ⟨(infer_ne_any ht).symm, inferAll_ne_any hrest⟩

end

/-- **An expression of type `bool` has truth values only**, outside comprehensions. -/
theorem eval_isTruth (m : Memo) (now : Int) {e : Expr} (h : infer [] e = .ok .bool) :
    IsTruth (eval ⟨m, now, []⟩ e) := by
  cases e with
  | const v =>
    rw [infer] at h
    rw [eval]
    cases v using Value.type.fun_cases <;> cases h
    exact .bool _
  | var name =>
    rw [infer] at h
    rw [eval, Env.lookup]
    obtain ⟨a, ha, htype⟩ := Option.map_eq_some_iff.mp (elim_eq_ok.mp h)
    have hvalue := a.hasType m
    rw [htype] at hvalue
    obtain ⟨b, hb⟩ := hvalue.exists_bool
    rw [List.find?_nil, ha, Option.elim_some, hb]
    exact .bool b
  | list items =>
    rw [infer] at h
    obtain ⟨element, -, htype⟩ := map_eq_ok.mp h
    cases htype
  | call op args =>
    obtain ⟨types, htypes, htype⟩ := infer_call_eq_ok h
    rw [eval]
    exact Op.apply_isTruth (Op.givesTruths_of_resultType htype (inferAll_ne_any htypes)) now _ _
  | method op receiver args =>
    obtain ⟨s, types, -, htypes, htype⟩ := infer_method_eq_ok h
    rw [eval]
    exact Op.apply_isTruth (Op.givesTruths_of_resultType htype (inferAll_ne_any htypes)) now _ _
  | quantified q binder range body =>
    rw [eval]
    split
    · exact .error _
    · exact q.join_isTruth _
    · exact .error _

/-! ### Compiled filters -/

/-- **A compiled filter leaves the stack as it was** when it is evaluated, whatever is on it. With
nothing on it, no variable is looked up in vain, and if there is a value, it is a truth value. -/
theorem compiled_in_scope {source kept : String} {e : Expr}
    (h : compile source = .ok (.checked kept e)) (m : Memo) (now : Int) :
    (∀ bound : Bindings, (evalOnStack m now e).run bound = (eval ⟨m, now, bound⟩ e, bound))
      ∧ (∀ name, eval ⟨m, now, []⟩ e ≠ .error (.unbound name))
      ∧ ∀ v, eval ⟨m, now, []⟩ e = .ok v → ∃ b, v = .bool b := by
  have htype := infer_of_checkFilter (checked_eq_ok h).2
  have hbinds : (⟨m, now, []⟩ : Env).Binds [] := rfl
  exact ⟨evalOnStack_yields m now e, eval_inScope htype hbinds, eval_isTruth m now htype⟩

/-- A binder that is bound again in an inner comprehension, a tag test, and an element of an empty
list that passes for a truth value. -/
theorem compiled_in_scope_shadowed :
    let source := "tags.exists(t, [1, 2].all(t, t > 0) && t == \"work/plan\") "
      ++ "&& tag in [\"work\"] && [].all(x, x)"
    ∃ e, compile source = .ok (.checked source e)
      ∧ eval ⟨plannedMemo, 0, []⟩ e = .ok (.bool true)
      ∧ (∀ bound : Bindings, (evalOnStack plannedMemo 0 e).run bound
          = (eval ⟨plannedMemo, 0, bound⟩ e, bound))
      ∧ (∀ name, eval ⟨plannedMemo, 0, []⟩ e ≠ .error (.unbound name))
      ∧ ∀ v, eval ⟨plannedMemo, 0, []⟩ e = .ok v → ∃ b, v = .bool b := by
  intro source
  have htest : (compile source).toOption.any (fun f => f.expr?.any fun e =>
      decide (eval ⟨plannedMemo, 0, []⟩ e = .ok (.bool true))) = true := by
    decide +kernel
  obtain ⟨e, hcompile, hvalue⟩ := exists_checked htest
  exact ⟨e, hcompile, of_decide_eq_true hvalue, compiled_in_scope hcompile plannedMemo 0⟩

end SharedMemos.Filter
