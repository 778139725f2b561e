import SharedMemos.Proofs.Server.Execution

/-!
# Carrying an attempt out twice

What a user must not learn of makes no difference to the user. That is a statement about two runs of
one attempt, from states that are alike in some way, and it does not follow from what can be said
about one run. The rules here are those of carrying an attempt out once, read in two columns: an
attempt *mirrors* a relation between states if from states that are related it comes to the same
result and to states that are related again.

The last thing that a request does need only *hide* the relation, that is, come to the same result.
What it leaves may tell the states apart, as numbers given to new rows do.

Transactions are compared in the same way, with one relation before and one after, so that what no
longer matters can be dropped on the way.

## Main definitions

* `Attempt.Mirrors`, `Attempt.Hides` — two runs of an attempt
* `Database.Concurs` — two runs of a transaction

## Main results

* `Attempt.Mirrors.bind`, `Attempt.Hides.bind` — comparisons compose
* `Database.Concurs.bind` — and so do those of transactions
* `transact_mirrors`, `transactNow_hides` — from a transaction to the attempt of carrying it out
-/

namespace SharedMemos.Server

namespace Attempt

variable {σ α β : Type} {R : σ → σ → Prop} {a : Attempt σ α} {f : α → Attempt σ β}

/-- From related states the attempt comes to one result and to related states. -/
def Mirrors (R : σ → σ → Prop) (a : Attempt σ α) : Prop :=
  ∀ s t, R s t → (exec a s).1 = (exec a t).1 ∧ R (exec a s).2 (exec a t).2

/-- From related states the attempt comes to one result. -/
def Hides (R : σ → σ → Prop) (a : Attempt σ α) : Prop :=
  ∀ s t, R s t → (exec a s).1 = (exec a t).1

namespace Mirrors

theorem hides (h : a.Mirrors R) : a.Hides R :=
  fun s t hR => (h s t hR).1

theorem pure (x : α) : (Pure.pure x : Attempt σ α).Mirrors R := fun _ _ hR => ⟨rfl, hR⟩

theorem throw (e : Error) : (MonadExcept.throw e : Attempt σ α).Mirrors R := fun _ _ hR => ⟨rfl, hR⟩

theorem throw_bind (e : Error) (f : α → Attempt σ β) :
    (MonadExcept.throw e >>= f : Attempt σ β).Mirrors R := fun _ _ hR => ⟨rfl, hR⟩

theorem ofExcept (r : Except Error α) : (Attempt.ofExcept r : Attempt σ α).Mirrors R :=
  fun _ _ hR => ⟨rfl, hR⟩

/-- What is looked at is the same in related states. -/
theorem look {g : σ → α} (h : ∀ s t, R s t → g s = g t) : (Attempt.look g).Mirrors R :=
  fun s t hR => ⟨congrArg Except.ok (h s t hR), hR⟩

/-- **Comparisons compose.** -/
theorem bind (ha : a.Mirrors R) (hf : ∀ x, (f x).Mirrors R) : (a >>= f).Mirrors R := by
  intro s t hR
  have hfirst := ha s t hR
  rw [exec_bind, exec_bind]
  rcases hs : exec a s with ⟨e | x, s'⟩ <;> rcases ht : exec a t with ⟨e' | x', t'⟩ <;>
    rw [hs, ht] at hfirst
  · exact ⟨congrArg Except.error (Except.error.inj hfirst.1), hfirst.2⟩
  · cases hfirst.1
  · cases hfirst.1
  · cases hfirst.1
    exact hf x s' t' hfirst.2

end Mirrors

/-- What comes last need only hide the relation. -/
theorem Hides.bind (ha : a.Mirrors R) (hf : ∀ x, (f x).Hides R) : (a >>= f).Hides R := by
  intro s t hR
  have hfirst := ha s t hR
  rw [exec_bind, exec_bind]
  rcases hs : exec a s with ⟨e | x, s'⟩ <;> rcases ht : exec a t with ⟨e' | x', t'⟩ <;>
    rw [hs, ht] at hfirst
  · exact congrArg Except.error (Except.error.inj hfirst.1)
  · cases hfirst.1
  · cases hfirst.1
  · cases hfirst.1
    exact hf x s' t' hfirst.2

end Attempt

/-! ### Transactions -/

namespace Database

variable {α β : Type} {P Q Q' : Database → Database → Prop}

/-- Two outcomes of transactions are one, up to the database that is left. -/
inductive Alike (Q : Database → Database → Prop) :
    Except Error (α × Database) → Except Error (α × Database) → Prop
  | ok (a : α) {d e : Database} (h : Q d e) : Alike Q (.ok (a, d)) (.ok (a, e))
  | error (fault : Error) : Alike Q (.error fault) (.error fault)

/-- On related databases the transaction has one result, and leaves databases that are related. -/
def Concurs (P Q : Database → Database → Prop) (x : Transaction α) : Prop :=
  ∀ d e, P d e → Alike Q (x.run d) (x.run e)

namespace Concurs

variable {x : Transaction α} {f : α → Transaction β}

theorem pure (a : α) (h : ∀ d e, P d e → Q d e) : Concurs P Q (Pure.pure a : Transaction α) :=
  fun d e hP => .ok a (h d e hP)

theorem throw (fault : Error) : Concurs P Q (MonadExcept.throw fault : Transaction α) :=
  fun _ _ _ => .error fault

/-- Transactions one after the other. -/
theorem bind (hx : Concurs P Q x) (hf : ∀ a, Concurs Q Q' (f a)) : Concurs P Q' (x >>= f) := by
  intro d e hP
  rw [StateT.run_bind, StateT.run_bind]
  have hfirst := hx d e hP
  generalize x.run d = r at hfirst ⊢
  generalize x.run e = r' at hfirst ⊢
  cases hfirst with
  | ok a hQ => exact hf a _ _ hQ
  | error fault => exact .error fault

/-- A look at the database, after which things go on alike in both. -/
theorem get_bind {g : Database → Transaction β} (hsame : ∀ d e, P d e → g d = g e)
    (hg : ∀ d, Concurs P Q (g d)) : Concurs P Q (get >>= g) := by
  intro d e hP
  have h := hg d d e hP
  rw [StateT.run_bind, StateT.run_bind]
  show Alike Q ((g d).run d) ((g e).run e)
  rwa [← hsame d e hP]

theorem modify {g : Database → Database} (h : ∀ d e, P d e → Q (g d) (g e)) :
    Concurs P Q (modify g : Transaction PUnit) :=
  fun d e hP => .ok () (h d e hP)

theorem ite {c : Prop} [Decidable c] {x y : Transaction α} (hx : Concurs P Q x)
    (hy : Concurs P Q y) : Concurs P Q (if c then x else y) := by
  split
  · exact hx
  · exact hy

/-- A statement works alike where the same is wrong with it. -/
theorem allows {table : Table} {writing : Writing} (h : ∀ d e, P d e → d.mishaps = e.mishaps) :
    Concurs P P (allows table writing) := by
  rw [Database.allows]
  refine get_bind (fun d e hP => ?_) fun d => ?_
  · simp only [mishap?, h d e hP]
  · split
    · exact pure true fun _ _ => id
    · exact pure false fun _ _ => id
    · exact throw failure

theorem require {table : Table} {writing : Writing} (h : ∀ d e, P d e → d.mishaps = e.mishaps) :
    Concurs P P (require table writing) := by
  rw [Database.require]
  refine (allows h).bind fun isAllowed => ?_
  cases isAllowed with
  | false => exact throw failure
  | true => exact pure () fun _ _ => id

end Concurs

end Database

section

variable {α : Type} {R : State → State → Prop} {P Q : Database → Database → Prop}
  {x : Transaction α}

theorem transact_mirrors (hx : Database.Concurs P Q x) (hP : ∀ s t, R s t → P s.database t.database)
    (hQ : ∀ s t d e, R s t → Q d e → R { s with database := d } { t with database := e }) :
    (transact x).Mirrors R := by
  intro s t hR
  have hrun := hx s.database t.database (hP s t hR)
  rw [transact, Attempt.exec_atomic, Attempt.exec_atomic]
  generalize x.run s.database = r at hrun ⊢
  generalize x.run t.database = r' at hrun ⊢
  cases hrun with
  | ok a h => exact ⟨rfl, hQ s t _ _ hR h⟩
  | error fault => exact ⟨rfl, hR⟩

theorem transact_hides (hx : Database.Concurs P Q x)
    (hP : ∀ s t, R s t → P s.database t.database) : (transact x).Hides R := by
  intro s t hR
  have hrun := hx s.database t.database (hP s t hR)
  rw [transact, Attempt.exec_atomic, Attempt.exec_atomic]
  generalize x.run s.database = r at hrun ⊢
  generalize x.run t.database = r' at hrun ⊢
  cases hrun with
  | ok a h => rfl
  | error fault => rfl

/-- A transaction that writes down the time, where the clocks show the same. -/
theorem transactNow_hides {x : Instant → Transaction α} (hx : ∀ time, Database.Concurs P Q (x time))
    (htime : ∀ s t, R s t → s.source.time s.looks = t.source.time t.looks)
    (hP : ∀ s t, R s t → P s.database t.database) : (transactNow x).Hides R := by
  intro s t hR
  have hrest := transact_hides (R := fun s t => P s.database t.database)
    (hx (s.source.time s.looks)) (fun _ _ => id) { s with looks := s.looks + 1 }
    { t with looks := t.looks + 1 } (hP s t hR)
  show ((transact (x (s.source.time s.looks))).exec _).1
    = ((transact (x (t.source.time t.looks))).exec _).1
  rw [← htime s t hR]
  exact hrest

end

end SharedMemos.Server
