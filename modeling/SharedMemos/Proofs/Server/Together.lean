import SharedMemos.Proofs.Server.Execution

/-!
# Two jobs at once

`Job.Interleaved` is about any number of jobs and keeps their results. Of two jobs it is easier to
follow what becomes of each: a step is one of the first job or one of the second, and there is an
induction on the steps that never speaks of lists (`Job.Together`). When one job is done, the other
is alone (`Job.together_done_left`).

Most requests end with a transaction that writes down the time. It takes two steps, a look at the
clock and the transaction, and between the two there is nothing that the request could still learn
(`Pending`). So of two requests that have both come to this point, all that is left open is which
transaction comes first (`Pending.settles`).

## Main definitions

* `Job.Together` — what two jobs at once may leave
* `Database.after` — what a transaction leaves, whether or not it succeeds
* `Pending` — what is left of a request when only its transaction is to come

## Main results

* `Job.together_iff` — the runs are those of `Job.Interleaved`
* `Pending.settles` — two pending transactions are carried out one after the other
-/

namespace SharedMemos.Server

namespace Job

variable {σ α : Type} {a b : Job σ α} {r : α} {s t : σ}

/-- Two jobs, worked on at once from a state, may leave another. -/
inductive Together : Job σ α → Job σ α → σ → σ → Prop where
  | done (r r' : α) (s : σ) : Together (.done r) (.done r') s s
  | left {change : σ → σ} {next : σ → Job σ α} {b : Job σ α} {s t : σ}
      (rest : Together (next s) b (change s) t) : Together (.step change next) b s t
  | right {a : Job σ α} {change : σ → σ} {next : σ → Job σ α} {s t : σ}
      (rest : Together a (next s) (change s) t) : Together a (.step change next) s t

theorem Together.symm (h : Together a b s t) : Together b a s t := by
  induction h with
  | done r r' s => exact .done r' r s
  | left _ ih => exact .right ih
  | right _ ih => exact .left ih

theorem Together.of_interleaved {jobs : List (Job σ α)} {results : List α}
    (h : Interleaved jobs s results t) (hjobs : jobs = [a, b]) : Together a b s t := by
  induction h generalizing a b with
  | done results s =>
    obtain ⟨r, _, rfl, rfl, hrest⟩ := List.map_eq_cons_iff.mp hjobs
    obtain ⟨r', _, rfl, rfl, hnone⟩ := List.map_eq_cons_iff.mp hrest
    exact .done r r' s
  | step before after change next s _ ih =>
    cases before with
    | nil =>
      cases hjobs
      exact .left (ih rfl)
    | cons first before =>
      cases before with
      | nil =>
        cases hjobs
        exact .right (ih rfl)
      | cons second before => simp at hjobs

theorem Together.interleaved (h : Together a b s t) :
    ∃ results, Interleaved [a, b] s results t := by
  induction h with
  | done r r' s => exact ⟨[r, r'], .done [r, r'] s⟩
  | @left change next b s t _ ih =>
    obtain ⟨results, hrest⟩ := ih
    exact ⟨results, .step [] [b] change next s hrest⟩
  | @right a change next s t _ ih =>
    obtain ⟨results, hrest⟩ := ih
    exact ⟨results, .step [a] [] change next s hrest⟩

/-- **What two jobs at once may leave is what their interleavings leave.** -/
theorem together_iff : Together a b s t ↔ ∃ results, Interleaved [a, b] s results t :=
  ⟨Together.interleaved, fun ⟨_, h⟩ => .of_interleaved h rfl⟩

/-- When one job is done, the other is carried out alone. -/
theorem together_done_left : Together (.done r) b s t ↔ t = (b.run s).2 := by
  constructor
  · intro h
    generalize ha : Job.done r = a at h
    induction h with
    | done => rfl
    | left => cases ha
    | right _ ih => exact ih ha
  · rintro rfl
    induction b generalizing s with
    | done r' => exact .done r r' s
    | step change next ih => exact .right (ih s)

/-- One job may be carried out alone, and then the other. -/
theorem Together.alone (a b : Job σ α) (s : σ) : Together a b s (b.run (a.run s).2).2 := by
  induction a generalizing s with
  | done r => exact together_done_left.mpr rfl
  | step change next ih => exact .left (ih s (change s))

end Job

/-! ### Pending transactions -/

/-- What a transaction leaves: a transaction that fails leaves everything as it was. -/
def Database.after {α : Type} (x : Transaction α) (d : Database) : Database :=
  match x.run d with
  | .ok (_, d') => d'
  | .error _ => d

theorem exec_transact_database {α : Type} (x : Transaction α) (s : State) :
    ((transact x).exec s).2 = { s with database := Database.after x s.database } := by
  rw [transact, Attempt.exec_atomic, Database.after]
  rcases x.run s.database with e | ⟨a, d⟩ <;> rfl

/-- The step that carries a transaction out, after which nothing is to be done. -/
def committing {α : Type} (x : Transaction α) : Job State (Except Error Unit) :=
  .step (fun s => ((transact x).exec s).2) fun s => .done (((transact x).exec s).1.map fun _ => ())

/-- What is left of a request when only a transaction is to come that writes down the time: the look
at the clock and the transaction, or the transaction at a time. -/
inductive Pending {α : Type} (x : Instant → Transaction α) :
    Job State (Except Error Unit) → Prop where
  | waiting : Pending x (.step (fun s => { s with looks := s.looks + 1 })
      fun s => committing (x (s.source.time s.looks)))
  | stamped (time : Instant) : Pending x (committing (x time))

/-- A request that comes to its transaction and does not look at the result. -/
theorem Pending.of_transactNow {α : Type} (x : Instant → Transaction α) :
    Pending x (ExceptT.run (do let _ ← transactNow x : Action Unit)) := by
  have hjob : ExceptT.run (do let _ ← transactNow x : Action Unit)
      = .step (fun s => { s with looks := s.looks + 1 })
          fun s => committing (x (s.source.time s.looks)) := by
    show Job.step _ _ = Job.step _ _
    congr 1
    funext s
    show Job.step _ _ = Job.step _ _
    congr 1
    funext t
    show Job.bind (.done ((transact _).exec t).1) _ = _
    rcases ((transact (x (s.source.time s.looks))).exec t).1 with e | a <;> rfl
  rw [hjob]
  exact .waiting

namespace Pending

variable {α β : Type} {x : Instant → Transaction α} {y : Instant → Transaction β}
  {p q : Job State (Except Error Unit)} {change : State → State}
  {next : State → Job State (Except Error Unit)} {s t : State}

theorem ne_done (h : Pending x p) (r : Except Error Unit) : p ≠ .done r := by
  cases h <;> rintro ⟨⟩

/-- A step of a pending request leaves the database alone, or it is the transaction. -/
theorem step (h : Pending x (.step change next)) (s : State) :
    ((change s).database = s.database ∧ Pending x (next s))
      ∨ ∃ time r, (change s).database = Database.after (x time) s.database ∧ next s = .done r := by
  generalize hp : Job.step change next = p at h
  cases h with
  | waiting =>
    cases hp
    exact .inl ⟨rfl, .stamped _⟩
  | stamped time =>
    cases hp
    exact .inr ⟨time, _, congrArg State.database (exec_transact_database _ _), rfl⟩

/-- A pending request that is carried out alone carries its transaction out, and succeeds if the
transaction does. -/
theorem run (h : Pending x p) (s : State) :
    ∃ time, (p.run s).2.database = Database.after (x time) s.database
      ∧ ((p.run s).1 = .ok () ↔ ∃ a d, (x time).run s.database = .ok (a, d)) := by
  have hcommit : ∀ (time : Instant) (s : State),
      ((committing (x time)).run s).2.database = Database.after (x time) s.database
        ∧ (((committing (x time)).run s).1 = .ok ()
          ↔ ∃ a d, (x time).run s.database = .ok (a, d)) := by
    intro time s
    refine ⟨congrArg State.database (exec_transact_database _ _), ?_⟩
    show (((transact (x time)).exec s).1.map fun _ => ()) = .ok () ↔ _
    rw [transact, Attempt.exec_atomic]
    rcases (x time).run s.database with e | ⟨a, d⟩
    · simp [Except.map]
    · simp [Except.map]
  cases h with
  | waiting => exact ⟨_, hcommit _ { s with looks := s.looks + 1 }⟩
  | stamped time => exact ⟨time, hcommit time s⟩

/-- **Of two pending requests, one carries its transaction out first.** -/
theorem settles (h : Job.Together p q s t) (hp : Pending x p) (hq : Pending y q) :
    ∃ time time',
      t.database = Database.after (y time') (Database.after (x time) s.database)
        ∨ t.database = Database.after (x time) (Database.after (y time') s.database) := by
  induction h with
  | done r => exact absurd rfl (hp.ne_done r)
  | @left change _ _ s _ hrest ih =>
    rcases hp.step s with ⟨hsame, hp⟩ | ⟨time, r, hchange, hdone⟩
    · rw [← hsame]
      exact ih hp hq
    · rw [hdone] at hrest
      obtain ⟨time', ht, -⟩ := hq.run (change s)
      rw [← Job.together_done_left.mp hrest, hchange] at ht
      exact ⟨time, time', .inl ht⟩
  | @right _ change _ s _ hrest ih =>
    rcases hq.step s with ⟨hsame, hq⟩ | ⟨time', r, hchange, hdone⟩
    · rw [← hsame]
      exact ih hp hq
    · rw [hdone] at hrest
      obtain ⟨time, ht, -⟩ := hp.run (change s)
      rw [← Job.together_done_left.mp hrest.symm, hchange] at ht
      exact ⟨time, time', .inr ht⟩

/-- A request that only looks before it has its own transaction to come finds a pending one as it
was, or carried out. -/
theorem overtaken_or_overlapped {next : State → Job State (Except Error Unit)}
    (h : Job.Together p q s t) (hp : Pending x p) (hq : q = .step id next) :
    t = (q.run (p.run s).2).2
      ∨ ∃ p' s', Pending x p' ∧ s'.database = s.database ∧ Job.Together p' (next s') s' t := by
  induction h with
  | done r => exact absurd rfl (hp.ne_done r)
  | @left change next' b s t hrest ih =>
    rcases hp.step s with ⟨hsame, hp⟩ | ⟨time, r, -, hdone⟩
    · rw [← hsame]
      exact ih hp hq
    · rw [hdone] at hrest
      refine .inl ((Job.together_done_left.mp hrest).trans ?_)
      show _ = (Job.run _ (Job.run (next' s) _).2).2
      rw [hdone]
      rfl
  | @right a change next' s t hrest ih =>
    cases hq
    exact .inr ⟨a, s, hp, rfl, hrest⟩

end Pending

end SharedMemos.Server
