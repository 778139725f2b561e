import SharedMemos.Server.State
import Mathlib.Tactic.Common

/-!
# Carrying out attempts alone

`Attempt.exec` carries an attempt out from its first step to its last. A sequence of attempts is
carried out one after the other, and the first failure ends it (`exec_bind`); what a failed attempt
did before stays done.

## Footprints

Most of what can be said about a request is what it leaves alone. A `Footprint` is a relation
between the states before and after that holds of doing nothing and of one thing after another, so
that an attempt is within it as soon as its parts are. Nothing about results is needed for that, and
failures need no cases of their own.

## Main results

* `Attempt.exec_bind` — a sequence of attempts
* `exec_transactNow_ok` — a transaction that succeeds
* `Attempt.Within.bind` — footprints compose
-/

namespace SharedMemos.Server

theorem Job.run_bind {σ α β : Type} (j : Job σ α) (f : α → Job σ β) :
    ∀ s : σ, (j.bind f).run s = (f (j.run s).1).run (j.run s).2 := by
  induction j with
  | done a => exact fun s => rfl
  | step change next ih => exact fun s => ih s (change s)

/-- What was looked for and found was there. -/
theorem expect_eq_ok {α : Type} {fault : InputFault} {o : Option α} {x : α}
    (h : fault.expect o = .ok x) : o = some x := by
  cases o with
  | none => cases h
  | some y =>
    cases h
    rfl

namespace Attempt

variable {σ α β : Type} {s t u : σ}

@[simp] theorem exec_pure (a : α) (s : σ) : exec (pure a : Attempt σ α) s = (.ok a, s) := rfl

@[simp] theorem exec_atomic (f : σ → Except Error α × σ) (s : σ) : exec (atomic f) s = f s := rfl

@[simp] theorem exec_ofExcept (r : Except Error α) (s : σ) :
    exec (ofExcept r : Attempt σ α) s = (r, s) := rfl

/-- **A sequence of attempts is carried out one after the other**, up to the first failure. -/
theorem exec_bind (a : Attempt σ α) (f : α → Attempt σ β) (s : σ) :
    exec (a >>= f) s =
      match exec a s with
      | (.ok x, t) => exec (f x) t
      | (.error e, t) => (.error e, t) := by
  show Job.run (Job.bind (ExceptT.run a) (ExceptT.bindCont f)) s = _
  rw [Job.run_bind]
  rw [exec]
  rcases Job.run (ExceptT.run a) s with ⟨e | x, t⟩ <;> rfl

theorem exec_bind_of_ok {a : Attempt σ α} {f : α → Attempt σ β} {x : α}
    (h : exec a s = (.ok x, t)) : exec (a >>= f) s = exec (f x) t := by
  rw [exec_bind, h]

theorem exec_bind_of_error {a : Attempt σ α} {f : α → Attempt σ β} {e : Error}
    (h : exec a s = (.error e, t)) : exec (a >>= f) s = (.error e, t) := by
  rw [exec_bind, h]

theorem exec_bind_eq_ok {a : Attempt σ α} {f : α → Attempt σ β} {y : β} :
    exec (a >>= f) s = (.ok y, u) ↔ ∃ x t, exec a s = (.ok x, t) ∧ exec (f x) t = (.ok y, u) := by
  rw [exec_bind]
  rcases h : exec a s with ⟨e | x, t⟩
  · simp
  · constructor
    · exact fun hf => ⟨x, t, rfl, hf⟩
    · rintro ⟨x', t', ha, hf⟩
      cases ha
      exact hf

/-- What would come after a failure does not matter. -/
theorem throw_bind (e : Error) (f : α → Attempt σ β) :
    (throw e >>= f : Attempt σ β) = throw e := rfl

@[simp] theorem exec_outcome (a : Attempt σ α) (s : σ) :
    exec a.outcome s = (.ok (exec a s).1, (exec a s).2) := by
  show Job.run (Job.bind (ExceptT.run a) _) s = _
  rw [Job.run_bind]
  rfl

/-- After an attempt whose failure is taken as a value, things go on in any case. -/
theorem exec_outcome_bind (a : Attempt σ α) (f : Except Error α → Attempt σ β) (s : σ) :
    exec (a.outcome >>= f) s = exec (f (exec a s).1) (exec a s).2 := by
  rw [exec_bind, exec_outcome]

@[simp] theorem exec_tolerate (a : Attempt σ α) (s : σ) :
    exec a.tolerate s = (.ok (), (exec a s).2) := by
  rw [tolerate, exec_bind, exec_outcome]
  rfl

end Attempt

/-! ### Transactions -/

section

variable {α : Type} {s t : State} {a : α}

theorem exec_transact_ok {x : Transaction α} (h : (transact x).exec s = (.ok a, t)) :
    ∃ d, x.run s.database = .ok (a, d) ∧ t = { s with database := d } := by
  rw [transact, Attempt.exec_atomic] at h
  cases hrun : x.run s.database with
  | error e =>
    rw [hrun] at h
    cases h
  | ok p =>
    rw [hrun] at h
    cases h
    exact ⟨_, rfl, rfl⟩

theorem exec_transact_error {x : Transaction α} {e : Error}
    (h : (transact x).exec s = (.error e, t)) : x.run s.database = .error e ∧ t = s := by
  rw [transact, Attempt.exec_atomic] at h
  cases hrun : x.run s.database with
  | error e =>
    rw [hrun] at h
    cases h
    exact ⟨rfl, rfl⟩
  | ok p =>
    rw [hrun] at h
    cases h

theorem exec_transactNow_ok {x : Instant → Transaction α}
    (h : (transactNow x).exec s = (.ok a, t)) :
    ∃ time d, (x time).run s.database = .ok (a, d)
      ∧ t = { s with looks := s.looks + 1, database := d } := by
  obtain ⟨d, hrun, rfl⟩ := exec_transact_ok (s := { s with looks := s.looks + 1 }) h
  exact ⟨_, d, hrun, rfl⟩

theorem exec_transactNow_error {x : Instant → Transaction α} {e : Error}
    (h : (transactNow x).exec s = (.error e, t)) :
    ∃ time, (x time).run s.database = .error e ∧ t = { s with looks := s.looks + 1 } := by
  obtain ⟨hrun, rfl⟩ := exec_transact_error (s := { s with looks := s.looks + 1 }) h
  exact ⟨_, hrun, rfl⟩

end

/-! ### Footprints -/

/-- A relation between the states before and after, for what an attempt leaves alone. -/
structure Footprint (σ : Type) where
  rel : σ → σ → Prop
  refl : ∀ s, rel s s
  trans : ∀ {s t u}, rel s t → rel t u → rel s u

namespace Attempt

variable {σ α β : Type} {F G : Footprint σ} {a : Attempt σ α} {f : α → Attempt σ β}

/-- Wherever it is carried out, the attempt stays within the footprint. -/
def Within (F : Footprint σ) (a : Attempt σ α) : Prop :=
  ∀ s, F.rel s (exec a s).2

namespace Within

theorem mono (h : a.Within F) (hsub : ∀ s t, F.rel s t → G.rel s t) : a.Within G :=
  fun s => hsub _ _ (h s)

theorem of_exec {s t : σ} {r : Except Error α} (h : a.Within F) (hexec : exec a s = (r, t)) :
    F.rel s t := by
  have hs := h s
  rwa [hexec] at hs

theorem pure (x : α) : (Pure.pure x : Attempt σ α).Within F := fun s => F.refl s

theorem throw (e : Error) : (MonadExcept.throw e : Attempt σ α).Within F := fun s => F.refl s

theorem look (f : σ → α) : (Attempt.look f).Within F := fun s => F.refl s

theorem ofExcept (r : Except Error α) : (Attempt.ofExcept r : Attempt σ α).Within F :=
  fun s => F.refl s

/-- **Footprints compose.** -/
theorem bind (ha : a.Within F) (hf : ∀ x, (f x).Within F) : (a >>= f).Within F := by
  intro s
  have hs := ha s
  rw [exec_bind]
  rcases h : exec a s with ⟨e | x, t⟩
  · rwa [h] at hs
  · rw [h] at hs
    exact F.trans hs (hf x t)

theorem outcome (ha : a.Within F) : a.outcome.Within F := by
  intro s
  rw [exec_outcome]
  exact ha s

theorem tolerate (ha : a.Within F) : a.tolerate.Within F := by
  intro s
  rw [exec_tolerate]
  exact ha s

theorem ite {b : Bool} {a' : Attempt σ α} (ha : a.Within F) (ha' : a'.Within F) :
    (if b then a else a').Within F := by
  cases b
  · exact ha'
  · exact ha

theorem foldlM {ι : Type} {items : List ι} {g : β → ι → Attempt σ β}
    (h : ∀ y, ∀ x ∈ items, (g y x).Within F) (y : β) : (items.foldlM g y).Within F := by
  induction items generalizing y with
  | nil => exact .pure _
  | cons x items ih =>
    rw [List.foldlM_cons]
    exact .bind (h y x List.mem_cons_self) fun z =>
      ih (fun y x hx => h y x (List.mem_cons_of_mem _ hx)) z

end Within

end Attempt

end SharedMemos.Server
