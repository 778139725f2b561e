import SharedMemos.Proofs.Server.Together

/-!
# Two jobs in a given order of steps

`Job.Together` says what two jobs at once may leave. To say what has happened on the way, the order
of their steps is given: each entry of a list says whose turn it is (`Pair.after`). A job that is
done lets its turns pass, so that any list will do, and every way to carry the two jobs out is the
way of some list (`Job.together_iff_after`).

A job between two steps may be bound to take a certain step later on: not because it happens to get
there, but because it gets there whatever the other job does in the meantime (`Job.ComesTo`).

## Main definitions

* `Pair.after` — what is left of two jobs after a number of turns
* `Job.ComesTo` — a job that is bound to take one of certain steps
* `Job.inTurn` — jobs one after the other

## Main results

* `Job.together_iff_after` — lists of turns are the ways of `Job.Together`
-/

namespace SharedMemos.Server

variable {σ α β γ : Type}

namespace Job

/-- Has the job come to its end? -/
def isDone : Job σ α → Bool
  | .done _ => true
  | .step _ _ => false

/-- As long as the state is as `inv` says before each of its steps, the job takes one of the steps
that are meant before it is done. -/
inductive ComesTo (inv : σ → Prop) (meant : (σ → σ) → Prop) : Job σ α → Prop where
  | now {change : σ → σ} {next : σ → Job σ α} (h : meant change) :
      ComesTo inv meant (.step change next)
  | later {change : σ → σ} {next : σ → Job σ α} (h : ∀ s, inv s → ComesTo inv meant (next s)) :
      ComesTo inv meant (.step change next)

/-- Jobs one after the other. -/
def inTurn : List (Job σ α) → Job σ Unit
  | [] => .done ()
  | job :: jobs => job.bind fun _ => inTurn jobs

variable {inv : σ → Prop} {meant : (σ → σ) → Prop} {j : Job σ α}

/-- A job that is done has no step to come. -/
theorem ComesTo.isDone (h : j.ComesTo inv meant) : j.isDone = false := by
  cases h with
  | now | later => rfl

/-- A job that is bound to take a step takes it now, or is bound to take it afterwards. -/
theorem ComesTo.of_step {change : σ → σ} {next : σ → Job σ α}
    (h : (Job.step change next).ComesTo inv meant) :
    meant change ∨ ∀ s, inv s → (next s).ComesTo inv meant := by
  cases h with
  | now h => exact .inl h
  | later h => exact .inr h

theorem bind_assoc (j : Job σ α) (f : α → Job σ β) (g : β → Job σ γ) :
    (j.bind f).bind g = j.bind fun a => (f a).bind g := by
  induction j with
  | done a => rfl
  | step change next ih => exact congrArg (Job.step change) (funext ih)

end Job

/-! ### Turns -/

/-- Whose turn it is. -/
inductive Side where
  | first | second
deriving Repr, DecidableEq

/-- What is left of two jobs, and the state that they work on. -/
structure Pair (σ α : Type) where
  first : Job σ α
  second : Job σ α
  state : σ

namespace Pair

/-- A turn of one of the jobs: it takes a step, if it is not done. -/
def turn (p : Pair σ α) : Side → Pair σ α
  | .first =>
    match p.first with
    | .done _ => p
    | .step change next => { p with first := next p.state, state := change p.state }
  | .second =>
    match p.second with
    | .done _ => p
    | .step change next => { p with second := next p.state, state := change p.state }

/-- What is left after a number of turns. -/
def after (p : Pair σ α) (turns : List Side) : Pair σ α :=
  turns.foldl turn p

/-- Are both jobs done? -/
def isDone (p : Pair σ α) : Bool :=
  p.first.isDone && p.second.isDone

theorem after_append (p : Pair σ α) (turns later : List Side) :
    p.after (turns ++ later) = (p.after turns).after later :=
  List.foldl_append

end Pair

namespace Job

variable {a b : Job σ α} {s t : σ}

theorem Together.exists_turns (h : Together a b s t) :
    ∃ turns, ((⟨a, b, s⟩ : Pair σ α).after turns).isDone = true
      ∧ ((⟨a, b, s⟩ : Pair σ α).after turns).state = t := by
  induction h with
  | done r r' s => exact ⟨[], rfl, rfl⟩
  | left _ ih =>
    obtain ⟨turns, hturns⟩ := ih
    exact ⟨.first :: turns, hturns⟩
  | right _ ih =>
    obtain ⟨turns, hturns⟩ := ih
    exact ⟨.second :: turns, hturns⟩

theorem together_after (turns : List Side) (p : Pair σ α) (hdone : (p.after turns).isDone = true) :
    Together p.first p.second p.state (p.after turns).state := by
  induction turns generalizing p with
  | nil =>
    obtain ⟨a, b, s⟩ := p
    cases a with
    | step => cases hdone
    | done r =>
      cases b with
      | step => cases hdone
      | done r' => exact .done r r' s
  | cons side turns ih =>
    have hrest := ih (p.turn side) hdone
    obtain ⟨a, b, s⟩ := p
    cases side with
    | first =>
      cases a with
      | done r => exact hrest
      | step change next => exact .left hrest
    | second =>
      cases b with
      | done r => exact hrest
      | step change next => exact .right hrest

/-- **What two jobs at once may leave is what they leave after some list of turns.** -/
theorem together_iff_after : Together a b s t
    ↔ ∃ turns, ((⟨a, b, s⟩ : Pair σ α).after turns).isDone = true
      ∧ ((⟨a, b, s⟩ : Pair σ α).after turns).state = t := by
  constructor
  · exact Together.exists_turns
  · rintro ⟨turns, hdone, rfl⟩
    exact together_after turns ⟨a, b, s⟩ hdone

end Job

end SharedMemos.Server
