import SharedMemos.Filter.Eval
import Mathlib.Data.List.Basic
import Mathlib.Tactic.Common

/-!
# What an operator's value says of its operands

Evaluation is read backwards here: from the truth value of an operator to the values of its
operands. Operands without a value are not excluded anywhere. A junction may have a truth value
although one side has none, and that is the reason why each direction is stated on results, not on
truth values.

## Main results

* `conjunction_eq_true_iff`, `conjunction_eq_false_iff` and their counterparts for disjunction
* `Quantifier.join_any_of_ok` — a comprehension over bodies that all have truth values
* `eval_not`, `eval_eq`, `eval_ne`, `eval_isIn` — inversion of a truth value through one operator
* `Op.apply_eq_applyAll` — operators other than junctions look at all their operands
-/

namespace SharedMemos.Filter

/-! ### Truth values -/

theorem truth?_eq_some_iff {r : Result} {b : Bool} : truth? r = some b ↔ r = .ok (.bool b) := by
  rcases r with e | (c | n | s | items) <;> simp [truth?]

@[simp] theorem truth?_ok_bool (b : Bool) : truth? (.ok (.bool b)) = some b := rfl

@[simp] theorem truth?_error (e : EvalError) : truth? (.error e) = none := rfl

theorem conjunction_eq_true_iff {l r : Result} :
    conjunction l r = .ok (.bool true) ↔ l = .ok (.bool true) ∧ r = .ok (.bool true) := by
  simp only [← truth?_eq_some_iff]
  rw [conjunction]
  split <;> simp_all

theorem conjunction_eq_false_iff {l r : Result} :
    conjunction l r = .ok (.bool false) ↔ l = .ok (.bool false) ∨ r = .ok (.bool false) := by
  simp only [← truth?_eq_some_iff]
  rw [conjunction]
  split <;> simp_all

theorem disjunction_eq_true_iff {l r : Result} :
    disjunction l r = .ok (.bool true) ↔ l = .ok (.bool true) ∨ r = .ok (.bool true) := by
  simp only [← truth?_eq_some_iff]
  rw [disjunction]
  split <;> simp_all

theorem disjunction_eq_false_iff {l r : Result} :
    disjunction l r = .ok (.bool false) ↔ l = .ok (.bool false) ∧ r = .ok (.bool false) := by
  simp only [← truth?_eq_some_iff]
  rw [disjunction]
  split <;> simp_all

/-- Two truth values have a disjunction, which is theirs. -/
theorem disjunction_ok (a b : Bool) :
    disjunction (.ok (.bool a)) (.ok (.bool b)) = .ok (.bool (a || b)) := by
  cases a <;> cases b <;> rfl

/-- A comprehension whose body has a truth value for every element has one too. -/
theorem Quantifier.join_any_of_ok {α : Type} (f : α → Bool) (items : List α) :
    Quantifier.join .any (items.map fun x => .ok (.bool (f x))) = .ok (.bool (items.any f)) := by
  have hnone : (items.map fun x => (.ok (.bool (f x)) : Result)).filterMap bodyError? = [] := by
    simp [List.filterMap_map, Function.comp_def, bodyError?]
  have hany : ((items.map fun x => (.ok (.bool (f x)) : Result)).any
      fun r => truth? r == some Quantifier.any.decisive) = items.any f := by
    simp [List.any_map, Function.comp_def, Quantifier.decisive]
  rw [Quantifier.join, hnone, hany]
  cases items.any f <;> rfl

/-! ### Operators on values

`values` is all or nothing, so an operator that is no junction has a value only if every operand has
one. -/

theorem values_singleton {r : Result} {vs : List Value} :
    values [r] = .ok vs ↔ ∃ v, r = .ok v ∧ vs = [v] := by
  cases r <;> simp [values, Except.map, eq_comm]

theorem values_pair {l r : Result} {vs : List Value} :
    values [l, r] = .ok vs ↔ ∃ v w, l = .ok v ∧ r = .ok w ∧ vs = [v, w] := by
  cases l <;> cases r <;> simp [values, Except.map, eq_comm]

theorem bind_eq_ok {ε α β : Type} {x : Except ε α} {f : α → Except ε β} {b : β} :
    x.bind f = .ok b ↔ ∃ a, x = .ok a ∧ f a = .ok b := by
  cases x <;> simp [Except.bind]

theorem map_eq_ok {ε α β : Type} {x : Except ε α} {f : α → β} {b : β} :
    x.map f = .ok b ↔ ∃ a, x = .ok a ∧ f a = b := by
  cases x <;> simp [Except.map]

theorem elim_eq_ok {ε α : Type} {o : Option α} {e : ε} {a : α} :
    o.elim (.error e) .ok = (.ok a : Except ε α) ↔ o = some a := by
  cases o <;> simp

variable {env : Env}

theorem eval_and (l r : Expr) :
    eval env (.call .and [l, r]) = conjunction (eval env l) (eval env r) := by
  simp [eval, evalAll, Op.apply]

theorem eval_or (l r : Expr) :
    eval env (.call .or [l, r]) = disjunction (eval env l) (eval env r) := by
  simp [eval, evalAll, Op.apply]

theorem eval_not {x : Expr} {b : Bool} (h : eval env (.call .not [x]) = .ok (.bool b)) :
    eval env x = .ok (.bool !b) := by
  simp only [eval, evalAll, Op.apply] at h
  obtain ⟨vs, hvs, hop⟩ := bind_eq_ok.mp h
  obtain ⟨v, hv, rfl⟩ := values_singleton.mp hvs
  cases v <;> simp_all [Op.onValues]

/-- A relation between two operands that both have a value. -/
theorem eval_binary {op : Op} {l r : Expr} {v : Value} (hand : op ≠ .and) (hor : op ≠ .or)
    (h : eval env (.call op [l, r]) = .ok v) :
    ∃ x y, eval env l = .ok x ∧ eval env r = .ok y ∧ op.onValues none [x, y] = .ok v := by
  have hop : (values [eval env l, eval env r]).bind (fun vs => op.onValues none vs) = .ok v := by
    rw [← h, eval, evalAll, evalAll, evalAll]
    cases op <;> first | rfl | contradiction
  obtain ⟨vs, hvs, hv⟩ := bind_eq_ok.mp hop
  obtain ⟨x, y, hx, hy, rfl⟩ := values_pair.mp hvs
  exact ⟨x, y, hx, hy, hv⟩

theorem eval_eq {l r : Expr} {b : Bool} (h : eval env (.call .eq [l, r]) = .ok (.bool b)) :
    ∃ x y, eval env l = .ok x ∧ eval env r = .ok y ∧ (x == y) = b := by
  obtain ⟨x, y, hx, hy, hv⟩ := eval_binary (by decide) (by decide) h
  exact ⟨x, y, hx, hy, by simpa [Op.onValues] using hv⟩

theorem eval_ne {l r : Expr} {b : Bool} (h : eval env (.call .ne [l, r]) = .ok (.bool b)) :
    ∃ x y, eval env l = .ok x ∧ eval env r = .ok y ∧ (x != y) = b := by
  obtain ⟨x, y, hx, hy, hv⟩ := eval_binary (by decide) (by decide) h
  exact ⟨x, y, hx, hy, by simpa [Op.onValues] using hv⟩

theorem eval_isIn {l r : Expr} {b : Bool} (h : eval env (.call .isIn [l, r]) = .ok (.bool b)) :
    ∃ x items, eval env l = .ok x ∧ eval env r = .ok (.list items) ∧ items.contains x = b := by
  obtain ⟨x, y, hx, hy, hv⟩ := eval_binary (by decide) (by decide) h
  cases y with
  | list items => exact ⟨x, items, hx, hy, by simpa [Op.onValues] using hv⟩
  | _ => simp [Op.onValues] at hv

/-- Does the operator decide for itself which of its two operands it looks at? -/
def Op.isJunction : Op → Bool
  | .and | .or => true
  | _ => false

/-- The value of an operator or function that looks at all its operands. -/
def Op.applyAll (op : Op) (now : Int) (receiver : Option Result) (args : List Result) : Result :=
  match receiver with
  | some (.error e) => .error e
  | some (.ok s) => (values args).bind fun vs => op.onValues (some s) vs
  | none =>
    if op = .now ∧ args.length = 0 then .ok (.int now)
    else (values args).bind fun vs => op.onValues none vs

theorem Op.apply_eq_applyAll {op : Op} {args : List Result}
    (h : op.isJunction = true → args.length ≠ 2) (now : Int) (receiver : Option Result) :
    op.apply now receiver args = op.applyAll now receiver args := by
  cases op with
  | and | or =>
    rcases args with - | ⟨l, - | ⟨r, - | ⟨x, rest⟩⟩⟩
    any_goals exact absurd rfl (h rfl)
    all_goals rcases receiver with - | (e | s) <;> rfl
  | now => rcases receiver with - | (e | s) <;> rcases args with - | ⟨x, rest⟩ <;> rfl
  | _ => rcases receiver with - | (e | s) <;> rfl

/-! ### Variables -/

/-- A variable with no binding is an attribute of the memo. -/
theorem lookup_of_unbound {m : Memo} {now : Int} {name : String} {v : Value}
    (h : eval ⟨m, now, []⟩ (.var name) = .ok v) :
    ∃ a, Attribute.ofName? name = some a ∧ a.value m = v := by
  simp only [eval, Env.lookup, List.find?_nil] at h
  cases ha : Attribute.ofName? name with
  | none => simp [ha] at h
  | some a => exact ⟨a, rfl, by simpa [ha] using h⟩

@[simp] theorem lookup_bind_self (env : Env) (name : String) (v : Value) :
    (env.bind name v).lookup name = .ok v := by
  simp [Env.bind, Env.lookup]

end SharedMemos.Filter
