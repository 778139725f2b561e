import Mathlib.Data.List.Forall2
import SharedMemos.Proofs.Filter.Evaluation

/-!
# Evaluation on one stack

`eval` is given the variables that are bound, and hands a longer list of them to the body of a
comprehension. They may as well be kept on one stack: a comprehension pushes an element before it
evaluates its body and pops it afterwards, operands are evaluated one after the other, and nothing
is evaluated any more once a result is certain. An operand that decides a junction, an error, and an
element that decides a comprehension all end an evaluation early, and each of these ways out must
leave the stack as it was.

`evalOnStack` does this. It comes to the same result as `eval`, and the stack is the same
afterwards, for every expression and whatever is on the stack.

## Main results

* `evalOnStack` — evaluation on a stack, with every way out
* `evalOnStack_yields` — its result, and the stack that it leaves
-/

namespace SharedMemos.Filter

/-! ### The evaluation -/

/-- The variables that are bound, the innermost on top. -/
abbrev Bindings := List (String × Value)

/-- A part of an evaluation, which may push and pop. -/
abbrev Evaluation := StateM Bindings Result

namespace Evaluation

/-- Evaluates operands in order, up to the first that has no value. -/
def inOrder : List Evaluation → StateM Bindings (Except EvalError (List Value))
  | [] => return .ok []
  | c :: cs => do
    match ← c with
    | .error e => return .error e
    | .ok v => return (← inOrder cs).map (v :: ·)

/-- Evaluates an operator on values, once its operands have been evaluated. -/
def onValues (op : Op) (receiver : Option Value) (args : List Evaluation) : Evaluation :=
  return (← inOrder args).bind fun vs => op.onValues receiver vs

/-- Goes on with the value of an operand, if it has one. -/
def andThen (c : Evaluation) (f : Value → Evaluation) : Evaluation := do
  match ← c with
  | .error e => return .error e
  | .ok v => f v

/-- Evaluates a junction, without its right operand if the left one decides it. -/
def junction (decisive : Bool) (join : Result → Result → Result) (l r : Evaluation) :
    Evaluation := do
  let left ← l
  if truth? left = some decisive then return .ok (.bool decisive) else return join left (← r)

/-- Evaluates with one more variable on the stack. -/
def binding (binder : String) (v : Value) (c : Evaluation) : Evaluation := do
  modify ((binder, v) :: ·)
  let r ← c
  modify List.tail
  return r

/-- Evaluates the body of a comprehension for one element after the other, up to one that decides
it. `error` is that of the last element so far that had one. -/
def overElements (q : Quantifier) (binder : String) (body : Evaluation) :
    (error : Option EvalError) → List Value → Evaluation
  | none, [] => return .ok (.bool !q.decisive)
  | some e, [] => return .error e
  | error, v :: vs => do
    match ← binding binder v body with
    | .ok (.bool b) =>
      if b = q.decisive then return .ok (.bool b) else overElements q binder body error vs
    | .ok _ => overElements q binder body (some (.noOverload "comprehension")) vs
    | .error e => overElements q binder body (some e) vs

end Evaluation

/-- Evaluates an operator or function with all its operands, the receiver before the arguments. -/
def Op.evalOperands (op : Op) (now : Int) (receiver : Option Evaluation) (args : List Evaluation) :
    Evaluation :=
  match receiver with
  | some s => Evaluation.andThen s fun v => Evaluation.onValues op (some v) args
  | none =>
    if op = .now ∧ args.length = 0 then return .ok (.int now) else Evaluation.onValues op none args

/-- Evaluates an operator or function. -/
def Op.evalOnStack (op : Op) (now : Int) (receiver : Option Evaluation) (args : List Evaluation) :
    Evaluation :=
  match op, args with
  | .and, [l, r] => Evaluation.junction false conjunction l r
  | .or, [l, r] => Evaluation.junction true disjunction l r
  | op, args => op.evalOperands now receiver args

mutual

/-- Evaluates an expression for a memo and a time, with the bound variables on a stack. -/
def evalOnStack (m : Memo) (now : Int) : Expr → Evaluation
  | .const v => return .ok v
  | .var name => return Env.lookup ⟨m, now, ← get⟩ name
  | .list items => return (← Evaluation.inOrder (evalAllOnStack m now items)).map .list
  | .call op args => op.evalOnStack now none (evalAllOnStack m now args)
  | .method op receiver args =>
    op.evalOnStack now (some (evalOnStack m now receiver)) (evalAllOnStack m now args)
  | .quantified q binder range body => do
    match ← evalOnStack m now range with
    | .error e => return .error e
    | .ok (.list items) => Evaluation.overElements q binder (evalOnStack m now body) none items
    | .ok _ => return .error (.noOverload "comprehension")

/-- The evaluations of expressions, in order. -/
def evalAllOnStack (m : Memo) (now : Int) : List Expr → List Evaluation
  | [] => []
  | e :: es => evalOnStack m now e :: evalAllOnStack m now es

end

/-! ### Its results

What a part of the evaluation comes to is said at one stack, and that it leaves this stack. -/

/-- On the stack `b`, the computation comes to `a` and leaves the stack as it was. -/
def Yields {α : Type} (b : Bindings) (c : StateM Bindings α) (a : α) : Prop :=
  c.run b = (a, b)

namespace Yields

variable {α β : Type} {b : Bindings}

theorem pure (a : α) : Yields b (Pure.pure a) a := rfl

theorem bind {c : StateM Bindings α} {f : α → StateM Bindings β} {a : α} {x : β}
    (h : Yields b c a) (hf : Yields b (f a) x) : Yields b (c >>= f) x := by
  rw [Yields] at h hf ⊢
  rw [StateT.run_bind, h]
  exact hf

end Yields

namespace Evaluation

variable {b : Bindings} {cs : List Evaluation} {rs : List Result}

theorem inOrder_yields (h : List.Forall₂ (Yields b) cs rs) : Yields b (inOrder cs) (values rs) := by
  induction h with
  | nil => exact .pure _
  | @cons c r cs rs hc _ ih =>
    rw [inOrder]
    refine hc.bind ?_
    cases r with
    | error e => exact .pure _
    | ok v => exact ih.bind (.pure _)

theorem onValues_yields (op : Op) (receiver : Option Value) (h : List.Forall₂ (Yields b) cs rs) :
    Yields b (onValues op receiver cs) ((values rs).bind fun vs => op.onValues receiver vs) :=
  (inOrder_yields h).bind (.pure _)

/-- The value of a comprehension whose last error so far is `error`. -/
def joinAfter (q : Quantifier) (error : Option EvalError) (results : List Result) : Result :=
  if results.any fun r => truth? r == some q.decisive then .ok (.bool q.decisive)
  else
    match (error.toList ++ results.filterMap bodyError?).getLast? with
    | some e => .error e
    | none => .ok (.bool !q.decisive)

/-- One element ends the comprehension, or leaves its error for the other elements. -/
theorem joinAfter_cons (q : Quantifier) (error : Option EvalError) (r : Result)
    (rs : List Result) :
    joinAfter q error (r :: rs)
      = if truth? r = some q.decisive then .ok (.bool q.decisive)
        else joinAfter q ((bodyError? r).or error) rs := by
  by_cases hr : truth? r = some q.decisive
  · rw [if_pos hr, joinAfter, List.any_cons, hr]
    simp
  · have hnot : (truth? r == some q.decisive) = false := beq_eq_false_iff_ne.mpr hr
    have hlast : (error.toList ++ (r :: rs).filterMap bodyError?).getLast?
        = (((bodyError? r).or error).toList ++ rs.filterMap bodyError?).getLast? := by
      cases he : bodyError? r with
      | none => rw [List.filterMap_cons_none he, Option.none_or]
      | some e =>
        rw [List.filterMap_cons_some he, Option.some_or, List.getLast?_append,
          List.getLast?_append]
        simp [List.getLast?_cons]
    rw [if_neg hr, joinAfter, joinAfter, List.any_cons, hnot, Bool.false_or, hlast]

theorem binding_yields {binder : String} {v : Value} {c : Evaluation} {r : Result}
    (h : Yields ((binder, v) :: b) c r) : Yields b (binding binder v c) r := by
  change (c.run ((binder, v) :: b) >>= fun p => Pure.pure (p.1, p.2.tail)) = (r, b)
  rw [h]
  rfl

/-- The elements of a comprehension, one after the other, from any of them on. -/
theorem overElements_yields (q : Quantifier) (binder : String) {body : Evaluation}
    {f : Value → Result} (hbody : ∀ v, Yields ((binder, v) :: b) body (f v)) (vs : List Value) :
    ∀ error, Yields b (overElements q binder body error vs) (joinAfter q error (vs.map f)) := by
  induction vs with
  | nil =>
    intro error
    cases error <;> exact .pure _
  | cons v vs ih =>
    intro error
    rw [overElements, List.map_cons, joinAfter_cons]
    refine (binding_yields (hbody v)).bind ?_
    rcases f v with e | (x | n | s | items)
    · exact ih _
    · dsimp only
      by_cases hx : x = q.decisive
      · have hdecides : truth? (.ok (.bool x)) = some q.decisive := congrArg some hx
        rw [if_pos hx, if_pos hdecides, hx]
        exact .pure _
      · have hgoes : truth? (.ok (.bool x)) ≠ some q.decisive := fun h => hx (Option.some.inj h)
        rw [if_neg hx, if_neg hgoes]
        exact ih _
    all_goals exact ih _

theorem andThen_yields {c : Evaluation} {r : Result} {f : Value → Evaluation} {g : Value → Result}
    (hc : Yields b c r) (hf : ∀ v, Yields b (f v) (g v)) : Yields b (andThen c f) (r.bind g) := by
  rw [andThen]
  refine hc.bind ?_
  cases r with
  | error e => exact .pure _
  | ok v => exact hf v

theorem junction_yields {decisive : Bool} {join : Result → Result → Result}
    (hjoin : ∀ x y, truth? x = some decisive → join x y = .ok (.bool decisive))
    {l r : Evaluation} {x y : Result} (hl : Yields b l x) (hr : Yields b r y) :
    Yields b (junction decisive join l r) (join x y) := by
  rw [junction]
  refine hl.bind ?_
  by_cases hx : truth? x = some decisive
  · rw [if_pos hx, hjoin x y hx]
    exact .pure _
  · rw [if_neg hx]
    exact hr.bind (.pure _)

end Evaluation

open Evaluation

section

variable {b : Bindings} {op : Op} {receiver : Option Evaluation} {receiver' : Option Result}
  {cs : List Evaluation} {rs : List Result}

theorem Op.evalOnStack_eq_evalOperands (h : op.isJunction = true → cs.length ≠ 2) (now : Int) :
    op.evalOnStack now receiver cs = op.evalOperands now receiver cs := by
  cases op with
  | and | or =>
    rcases cs with - | ⟨l, - | ⟨r, - | ⟨x, rest⟩⟩⟩
    any_goals exact absurd rfl (h rfl)
    all_goals rfl
  | _ => rfl

theorem Op.evalOperands_yields (op : Op) (now : Int)
    (hreceiver : Option.Rel (Yields b) receiver receiver') (h : List.Forall₂ (Yields b) cs rs) :
    Yields b (op.evalOperands now receiver cs) (op.applyAll now receiver' rs) := by
  cases hreceiver with
  | @some c r hc =>
    have hyields := andThen_yields hc fun v => onValues_yields op (some v) h
    cases r <;> exact hyields
  | none =>
    rw [evalOperands, applyAll, h.length_eq]
    split
    · exact .pure _
    · exact onValues_yields op none h

/-- An operator comes to its value, although it may leave an operand out. -/
theorem Op.evalOnStack_yields (op : Op) (now : Int)
    (hreceiver : Option.Rel (Yields b) receiver receiver') (h : List.Forall₂ (Yields b) cs rs) :
    Yields b (op.evalOnStack now receiver cs) (op.apply now receiver' rs) := by
  by_cases hall : op.isJunction = true → cs.length ≠ 2
  · rw [evalOnStack_eq_evalOperands hall, apply_eq_applyAll (h.length_eq ▸ hall)]
    exact op.evalOperands_yields now hreceiver h
  · push Not at hall
    obtain ⟨hjunction, htwo⟩ := hall
    obtain ⟨l, r, rfl⟩ := List.length_eq_two.mp htwo
    rcases h with - | ⟨hl, - | ⟨hr, - | -⟩⟩
    cases op <;> cases hjunction
    · exact junction_yields (fun x y hx => by rw [disjunction, hx]) hl hr
    · exact junction_yields (fun x y hx => by rw [conjunction, hx]) hl hr

end

mutual

/-- **An evaluation on a stack comes to the value of the expression** and leaves the stack as it
was, whatever is on it. -/
theorem evalOnStack_yields (m : Memo) (now : Int) : ∀ (e : Expr) (b : Bindings),
    Yields b (evalOnStack m now e) (eval ⟨m, now, b⟩ e)
  | .const v, b => by
    rw [evalOnStack, eval]
    exact .pure _
  | .var name, b => by
    rw [evalOnStack, eval]
    rfl
  | .list items, b => by
    rw [evalOnStack, eval]
    exact (inOrder_yields (evalAllOnStack_yields m now items b)).bind (.pure _)
  | .call op args, b => by
    rw [evalOnStack, eval]
    exact op.evalOnStack_yields now .none (evalAllOnStack_yields m now args b)
  | .method op receiver args, b => by
    rw [evalOnStack, eval]
    exact op.evalOnStack_yields now (.some (evalOnStack_yields m now receiver b))
      (evalAllOnStack_yields m now args b)
  | .quantified q binder range body, b => by
    rw [evalOnStack, eval]
    refine (evalOnStack_yields m now range b).bind ?_
    rcases eval ⟨m, now, b⟩ range with e | (x | n | s | items)
    · exact .pure _
    · exact .pure _
    · exact .pure _
    · exact .pure _
    · exact overElements_yields q binder
        (fun v => evalOnStack_yields m now body ((binder, v) :: b)) items none

theorem evalAllOnStack_yields (m : Memo) (now : Int) : ∀ (es : List Expr) (b : Bindings),
    List.Forall₂ (Yields b) (evalAllOnStack m now es) (evalAll ⟨m, now, b⟩ es)
  | [], b => by
    rw [evalAllOnStack, evalAll]
    exact .nil
  | e :: es, b => by
    rw [evalAllOnStack, evalAll]
    exact .cons (evalOnStack_yields m now e b) (evalAllOnStack_yields m now es b)

end

end SharedMemos.Filter
