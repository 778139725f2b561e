import SharedMemos.Error

/-!
# Jobs

A job is a calculation on a state that others work on too. It goes on in atomic steps: between two
steps of one job, steps of other jobs may come. `Job.run` carries a job out alone, and `Interleaved`
carries out several at once, in any order of their steps.
-/

namespace SharedMemos.Server

/-- A job on a state `σ` with a result in `α`: it is done, or it takes a step, which changes the
state and goes on with what it found there. -/
inductive Job (σ α : Type) where
  | done (result : α)
  | step (change : σ → σ) (next : σ → Job σ α)

namespace Job

variable {σ α β : Type}

/-- One job and then another. -/
protected def bind : Job σ α → (α → Job σ β) → Job σ β
  | .done a, f => f a
  | .step change next, f => .step change fun s => (next s).bind f

instance : Monad (Job σ) where
  pure := .done
  bind := Job.bind

/-- The job of a single step. -/
def atomic (f : σ → α × σ) : Job σ α :=
  .step (fun s => (f s).2) fun s => .done (f s).1

/-- The job of looking at the state. -/
def look (f : σ → α) : Job σ α :=
  .step id fun s => .done (f s)

/-- The job of changing the state. -/
def change (f : σ → σ) : Job σ Unit :=
  .step f fun _ => .done ()

/-- Carries a job out alone. -/
def run : Job σ α → σ → α × σ
  | .done a, s => (a, s)
  | .step change next, s => (next s).run (change s)

/-- Jobs with results of one type, worked on at once: from a state, with what is left of each job,
to the results and the state when all are done. -/
inductive Interleaved : List (Job σ α) → σ → List α → σ → Prop where
  /-- All jobs are done. -/
  | done (results : List α) (s : σ) : Interleaved (results.map .done) s results s
  /-- One of the jobs takes a step. -/
  | step (before after : List (Job σ α)) (change : σ → σ) (next : σ → Job σ α) (s : σ)
      {results : List α} {t : σ}
      (rest : Interleaved (before ++ next s :: after) (change s) results t) :
      Interleaved (before ++ .step change next :: after) s results t

end Job

/-- A job that may fail. -/
abbrev Attempt (σ α : Type) := ExceptT Error (Job σ) α

namespace Attempt

variable {σ α : Type}

/-- The attempt of a single step. -/
def atomic (f : σ → Except Error α × σ) : Attempt σ α :=
  ExceptT.mk (Job.atomic f)

/-- The attempt of looking at the state. -/
def look (f : σ → α) : Attempt σ α :=
  ExceptT.mk (Job.look fun s => .ok (f s))

/-- An outcome that is known. -/
def ofExcept (r : Except Error α) : Attempt σ α :=
  ExceptT.mk (pure r)

/-- An attempt whose failure is taken as a value. -/
def outcome (a : Attempt σ α) : Attempt σ (Except Error α) :=
  ExceptT.mk ((ExceptT.run a).bind fun r => pure (.ok r))

/-- An attempt whose failure is passed over. -/
def tolerate (a : Attempt σ α) : Attempt σ Unit := do
  let _ ← a.outcome

/-- Carries an attempt out alone. -/
def exec (a : Attempt σ α) (s : σ) : Except Error α × σ :=
  Job.run (ExceptT.run a) s

end Attempt

end SharedMemos.Server
