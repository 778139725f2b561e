import SharedMemos.Proofs.Server.Memos.Writes
import SharedMemos.Proofs.Time.Instant

/-!
# The times that requests write down

A request to write memos looks at the clock, and in a later step its transaction writes down what it
saw there. Between the two steps others may go on, and so what it writes can be from before what
they have seen in the meantime. That is all that can go wrong with times: a clock that never turns
back shows no time that comes before one that it has shown (`State.HasReached`), and a step of a
request leaves all rows and all events as they were, except those that bear such a time (`Stamped`).

What each step of a job does is said without a run of the job alone, since others take steps in
between: the job may be gone on with from any state in which no less time has passed
(`IsStamping`).

## Main definitions

* `State.HasReached` — no look to come shows an earlier time
* `Stamped` — what is new in a database bears a time
* `IsStamping` — each step of a job writes down only times that have been reached

## Main results

* `IsStamping.bind` — one job after the other
* `Write.isStamping` — requests to write memos
-/

namespace SharedMemos.Server

open Attempt Database

/-- Does the clock never turn back? -/
def Source.IsSteady (source : Source) : Prop :=
  ∀ i j, i ≤ j → source.time i ≤ source.time j

/-! ### Time goes by -/

/-- From one state to another, time has gone by, or stood still. -/
structure State.Before (s t : State) : Prop where
  source : t.source = s.source
  looks : s.looks ≤ t.looks

/-- Is no time that the clock has still to show before the given one? -/
def State.HasReached (s : State) (time : Instant) : Prop :=
  ∀ look, s.looks ≤ look → time ≤ s.source.time look

section

variable {s t u : State} {time : Instant}

theorem State.Before.refl (s : State) : s.Before s :=
  ⟨rfl, Nat.le_refl _⟩

theorem State.Before.trans (h : s.Before t) (h' : t.Before u) : s.Before u :=
  ⟨h'.source.trans h.source, Nat.le_trans h.looks h'.looks⟩

theorem State.Before.isSteady (h : s.Before t) (hs : s.source.IsSteady) : t.source.IsSteady :=
  h.source ▸ hs

theorem State.HasReached.mono (hs : s.HasReached time) (h : s.Before t) : t.HasReached time := by
  intro look hlook
  rw [h.source]
  exact hs look (Nat.le_trans h.looks hlook)

/-- A steady clock has reached what it shows. -/
theorem State.hasReached_look (hs : s.source.IsSteady) :
    ({ s with looks := s.looks + 1 } : State).HasReached (s.source.time s.looks) :=
  fun _ hlook => hs _ _ (Nat.le_of_succ_le hlook)

end

/-! ### Stamped databases -/

/-- All rows and events are as they were, except those that bear a time; and no event is gone. -/
structure Stamped (time : Instant) (d d' : Database) : Prop where
  rows : ∀ m ∈ d'.memos, m ∈ d.memos ∨ m.updated = time
  events : ∀ e ∈ d'.events, e ∈ d.events ∨ e.time = time
  kept : ∀ e ∈ d.events, e ∈ d'.events

section

variable {d d' : Database} {user : UserId} {name : String} {m m' : Memo} {time t : Instant}

theorem Stamped.refl (time : Instant) (d : Database) : Stamped time d d :=
  ⟨fun _ => .inl, fun _ => .inl, fun _ => id⟩

theorem Stamped.tells (h : Stamped time d d') (htold : d.Tells user name t) :
    d'.Tells user name t := by
  obtain ⟨e, he, htells⟩ := htold
  exact ⟨e, h.kept e he, htells⟩

/-- Whoever is newly told is told at the time. -/
theorem Stamped.eq_of_tells (h : Stamped time d d') (hnot : ¬ d.Tells user name t)
    (htold : d'.Tells user name t) : t = time := by
  obtain ⟨e, he, huser, hname, htime⟩ := htold
  rcases h.events e he with hold | hnew
  · exact absurd ⟨e, hold, huser, hname, htime⟩ hnot
  · exact htime.symm.trans hnew

theorem insertMemo_stamped (h : (insertMemo m).run d = .ok (m', d')) :
    Stamped m.updated d d' := by
  obtain ⟨-, rfl, rfl⟩ := run_insertMemo h
  refine ⟨fun n hn => ?_, fun _ => .inl, fun _ => id⟩
  rcases List.mem_cons.mp hn with rfl | hn
  · exact .inr rfl
  · exact .inl hn

theorem mem_or_updated_of_rewritten (rows : List Memo) {n : Memo}
    (hn : n ∈ rows.map (rewritten m time)) : n ∈ rows ∨ n.updated = time := by
  obtain ⟨row, hrow, rfl⟩ := List.mem_map.mp hn
  rw [rewritten]
  split
  · exact .inr rfl
  · exact .inl hrow

theorem updateMemo_stamped {revoked : List UserId}
    (h : (Database.updateMemo m revoked time).run d = .ok (m', d')) : Stamped time d d' := by
  obtain ⟨kept, -, -, rfl⟩ := run_updateMemo h
  split
  · exact ⟨fun _ => mem_or_updated_of_rewritten d.memos, fun _ => .inl, fun _ => id⟩
  · refine ⟨fun _ => mem_or_updated_of_rewritten d.memos, fun e he => ?_,
      fun e => List.mem_cons_of_mem _⟩
    rcases List.mem_cons.mp he with rfl | he
    · exact .inr rfl
    · exact .inl he

theorem deleteMemo_stamped {recipients : List UserId}
    (h : (Database.deleteMemo m recipients time).run d = .ok ((), d')) : Stamped time d d' := by
  obtain ⟨kept, -, rfl⟩ := run_deleteMemo h
  refine ⟨fun n hn => .inl (List.mem_filter.mp hn).1, fun e he => ?_,
    fun e => List.mem_cons_of_mem _⟩
  rcases List.mem_cons.mp he with rfl | he
  · exact .inr rfl
  · exact .inl he

end

/-! ### Step by step -/

/-- What a step may do: nothing to the database, or something that bears a time that has been
reached. -/
structure Steps (s t : State) : Prop where
  before : s.Before t
  database : t.database = s.database
    ∨ ∃ time, s.HasReached time ∧ Stamped time s.database t.database

/-- Each step of the job may be taken: the job goes on from any state in which no less time has gone
by than in the given one. -/
inductive IsStamping {α : Type} : State → Job State α → Prop where
  | done (s : State) (r : α) : IsStamping s (.done r)
  | step {s : State} {change : State → State} {next : State → Job State α}
      (hstep : ∀ t, s.Before t → Steps t (change t))
      (hrest : ∀ t, s.Before t → IsStamping (change t) (next t)) :
      IsStamping s (.step change next)

namespace IsStamping

variable {α β : Type} {s t : State} {j : Job State α}

theorem mono (h : IsStamping s j) (hbefore : s.Before t) : IsStamping t j := by
  cases h with
  | done => exact .done t _
  | step hstep hrest =>
    exact .step (fun u hu => hstep u (hbefore.trans hu)) fun u hu => hrest u (hbefore.trans hu)

theorem of_step {change : State → State} {next : State → Job State α}
    (h : IsStamping s (.step change next)) :
    Steps s (change s) ∧ IsStamping (change s) (next s) := by
  cases h with
  | step hstep hrest => exact ⟨hstep s (.refl s), hrest s (.refl s)⟩

/-- **One job after the other.** -/
theorem bind {f : α → Job State β} (h : IsStamping s j)
    (hf : ∀ a t, s.Before t → IsStamping t (f a)) : IsStamping s (j.bind f) := by
  induction h with
  | done s r => exact hf r s (.refl s)
  | step hstep hrest ih =>
    refine .step hstep fun t ht => ih t ht fun a u hu => ?_
    exact hf a u ((ht.trans (hstep t ht).before).trans hu)

/-- A failure ends a job, and takes no step. -/
theorem attempt_bind {a : Action α} {f : α → Action β} (h : IsStamping s (ExceptT.run a))
    (hf : ∀ x t, s.Before t → IsStamping t (ExceptT.run (f x))) :
    IsStamping s (ExceptT.run (a >>= f)) := by
  refine h.bind fun r t ht => ?_
  cases r with
  | ok x => exact hf x t ht
  | error e => exact .done t _

theorem of_query (f : Database → α) : IsStamping s (ExceptT.run (query f)) :=
  .step (fun t _ => ⟨.refl t, .inl rfl⟩) fun _ _ => .done _ _

theorem of_ofExcept (r : Except Error α) :
    IsStamping s (ExceptT.run (Attempt.ofExcept r : Action α)) :=
  .done s r

theorem of_signedIn (reason : String) (viewer : Viewer) :
    IsStamping s (ExceptT.run (signedIn reason viewer)) := by
  cases viewer with
  | none => exact .done s _
  | some user => exact .done s _

theorem of_drawName (length : Nat) : IsStamping s (ExceptT.run (drawName length)) :=
  .step (fun _ _ => ⟨⟨rfl, Nat.le_refl _⟩, .inl rfl⟩) fun _ _ => .done _ _

/-- A transaction that writes down a time that has been reached. -/
theorem of_transact {x : Transaction α} {time : Instant} (hs : s.HasReached time)
    (hx : ∀ d a d', x.run d = .ok (a, d') → Stamped time d d') :
    IsStamping s (ExceptT.run (transact x)) := by
  refine .step (fun t ht => ?_) fun t _ => .done _ _
  cases hrun : x.run t.database with
  | error e =>
    simp only [hrun]
    exact ⟨.refl t, .inl rfl⟩
  | ok p =>
    obtain ⟨a, d⟩ := p
    simp only [hrun]
    exact ⟨⟨rfl, Nat.le_refl _⟩, .inr ⟨time, hs.mono ht, hx _ _ _ hrun⟩⟩

/-- **A look at the clock, and then a transaction that writes down what it has shown.** -/
theorem of_transactNow {x : Instant → Transaction α} (hs : s.source.IsSteady)
    (hx : ∀ time d a d', (x time).run d = .ok (a, d') → Stamped time d d') :
    IsStamping s (ExceptT.run (transactNow x)) :=
  .step (fun _ _ => ⟨⟨rfl, Nat.le_succ _⟩, .inl rfl⟩) fun _ ht =>
    of_transact (State.hasReached_look (ht.isSteady hs)) (hx _)

theorem of_modifiableMemo (user : UserId) (uid : String) :
    IsStamping s (ExceptT.run (modifiableMemo user uid)) := by
  refine (of_query _).attempt_bind fun found t _ => ?_
  cases found with
  | none => exact .done t _
  | some m =>
    dsimp only
    split
    · exact .done t _
    · exact .done t _

end IsStamping

/-- **Requests to write memos write down only times that have been reached.** -/
theorem Write.isStamping (w : Write) {s : State} (hs : s.source.IsSteady) :
    IsStamping s (ExceptT.run w.act) := by
  cases w with
  | create viewer draft =>
    refine IsStamping.attempt_bind (f := fun _ => pure ()) ?_ fun _ t _ => .done t _
    refine (IsStamping.of_signedIn _ viewer).attempt_bind fun user t ht => ?_
    refine (IsStamping.of_ofExcept _).attempt_bind fun _ u hu => ?_
    refine (IsStamping.of_drawName _).attempt_bind fun uid v hv => ?_
    exact .of_transactNow (((ht.trans hu).trans hv).isSteady hs) fun _ _ _ _ => insertMemo_stamped
  | update viewer uid edit =>
    refine IsStamping.attempt_bind (f := fun _ => pure ()) ?_ fun _ t _ => .done t _
    refine (IsStamping.of_signedIn _ viewer).attempt_bind fun user t ht => ?_
    refine (IsStamping.of_modifiableMemo user uid).attempt_bind fun row u hu => ?_
    refine (IsStamping.of_ofExcept _).attempt_bind fun _ v hv => ?_
    exact .of_transactNow (((ht.trans hu).trans hv).isSteady hs) fun _ _ _ _ => updateMemo_stamped
  | delete viewer uid =>
    refine (IsStamping.of_signedIn _ viewer).attempt_bind fun user t ht => ?_
    refine (IsStamping.of_modifiableMemo user uid).attempt_bind fun row u hu => ?_
    exact .of_transactNow ((ht.trans hu).isSteady hs) fun _ _ _ _ => deleteMemo_stamped

end SharedMemos.Server
