import SharedMemos.Filter.Compiled
import Mathlib.Tactic.Common

/-!
# Filters that do not look at the clock

The time is part of what a filter is evaluated for, and only the function `now` reads it. A filter
without a call of that function says the same of a memo at all times, so that what it says can
change with the memo only.

## Main results

* `eval_withNow` — the time does not matter to an expression without such a call
* `Compiled.accepts_eq` — nor to a filter
-/

namespace SharedMemos.Filter

namespace Expr

mutual

/-- Is there a call of `now` in an expression? -/
def callsNow : Expr → Bool
  | .const _ | .var _ => false
  | .list items => anyCallsNow items
  | .call op args => op == .now || anyCallsNow args
  | .method _ receiver args => receiver.callsNow || anyCallsNow args
  | .quantified _ _ range body => range.callsNow || body.callsNow

/-- Is there a call of `now` in one of the expressions? -/
def anyCallsNow : List Expr → Bool
  | [] => false
  | e :: es => e.callsNow || anyCallsNow es

end

end Expr

/-- Is there a call of `now` in a filter? -/
def Compiled.callsNow : Compiled → Bool
  | .everything => false
  | .checked _ e => e.callsNow

/-- The environment at another time. -/
def Env.withNow (env : Env) (now : Int) : Env :=
  { env with now := now }

/-- Only a function of its own reads the time. -/
theorem Op.apply_eq_of_ne_now {op : Op} (hop : op ≠ .now) (now now' : Int)
    (receiver : Option Result) (args : List Result) :
    op.apply now receiver args = op.apply now' receiver args := by
  cases op with
  | now => exact absurd rfl hop
  | and | or => rcases args with - | ⟨l, - | ⟨r, - | ⟨x, rest⟩⟩⟩ <;> rfl
  | _ => rfl

/-- On a receiver, no function reads the time. -/
theorem Op.apply_some_eq (op : Op) (now now' : Int) (receiver : Result) (args : List Result) :
    op.apply now (some receiver) args = op.apply now' (some receiver) args := by
  cases op with
  | and | or => rcases args with - | ⟨l, - | ⟨r, - | ⟨x, rest⟩⟩⟩ <;> rfl
  | now => rcases receiver with e | v <;> rcases args with - | ⟨x, rest⟩ <;> rfl
  | _ => rfl

mutual

/-- **The time does not matter to an expression without a call of `now`.** -/
theorem eval_withNow (now : Int) : ∀ (e : Expr) (env : Env), e.callsNow = false →
    eval (env.withNow now) e = eval env e
  | .const _, _, _ => by rw [eval, eval]
  | .var _, _, _ => by
    rw [eval, eval]
    rfl
  | .list items, env, h => by
    rw [Expr.callsNow] at h
    rw [eval, eval, evalAll_withNow now items env h]
  | .call op args, env, h => by
    rw [Expr.callsNow, Bool.or_eq_false_iff, beq_eq_false_iff_ne] at h
    rw [eval, eval, evalAll_withNow now args env h.2]
    exact Op.apply_eq_of_ne_now h.1 _ _ _ _
  | .method op receiver args, env, h => by
    rw [Expr.callsNow, Bool.or_eq_false_iff] at h
    rw [eval, eval, eval_withNow now receiver env h.1, evalAll_withNow now args env h.2]
    exact Op.apply_some_eq _ _ _ _ _
  | .quantified q binder range body, env, h => by
    rw [Expr.callsNow, Bool.or_eq_false_iff] at h
    have hbody : ∀ v, eval ((env.withNow now).bind binder v) body = eval (env.bind binder v) body :=
      fun v => eval_withNow now body (env.bind binder v) h.2
    rw [eval, eval, eval_withNow now range env h.1]
    simp only [hbody]

theorem evalAll_withNow (now : Int) : ∀ (es : List Expr) (env : Env), Expr.anyCallsNow es = false →
    evalAll (env.withNow now) es = evalAll env es
  | [], _, _ => by rw [evalAll, evalAll]
  | e :: es, env, h => by
    rw [Expr.anyCallsNow, Bool.or_eq_false_iff] at h
    rw [evalAll, evalAll, eval_withNow now e env h.1, evalAll_withNow now es env h.2]

end

/-- A filter without a call of `now` says the same of a memo at all times. -/
theorem Compiled.accepts_eq {f : Compiled} (h : f.callsNow = false) (m : Memo) (now now' : Int) :
    f.accepts m now = f.accepts m now' := by
  cases f with
  | everything => rfl
  | checked source e =>
    rw [accepts, accepts, satisfies, satisfies]
    exact congrArg (truth? · == some true) (eval_withNow now e ⟨m, now', []⟩ h)

end SharedMemos.Filter
