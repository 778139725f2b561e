import SharedMemos.Proofs.Server.Memos.Changes
import SharedMemos.Proofs.Server.Memos.Stamps

/-!
# Asking what has changed, step by step

The answer to the question of what has changed is put together in four steps: the end of the window
is the first look at the clock, and there is a second one for the filter; then the rows are read,
and after that the names. Between any two of them requests to write may go on. `Inquiry` is how far
a question has come, with what it has found, and `listChanges_job` says that these are all the
steps.

Rows and names are both items that an answer may give (`Item`). An answer gives an item if it was
there when its part was read and its time is in the window.

## Main definitions

* `Inquiry` — how far a question has come
* `Item` — what an answer may give

## Main results

* `listChanges_job` — the steps of a question
* `Item.isIn_next`, `Item.isIn_of_isThere` — what a step finds
* `Item.hasReached` — what a step of a request writes
-/

namespace SharedMemos.Server

open Attempt Database SharedMemos.Filter

/-- How far a question has come. -/
inductive Inquiry where
  | begun
  /-- The window has its end. -/
  | anchored (anchor : Timestamp)
  /-- The time is known that the filter may ask for. -/
  | timed (anchor : Timestamp) (time : Int)
  /-- The rows have been read. -/
  | found (anchor : Timestamp) (memos : List Memo)
  | answered (changes : MemoChanges)

namespace Inquiry

/-- The end of the window, when it is known. -/
def anchor? : Inquiry → Option Timestamp
  | begun => none
  | anchored anchor | timed anchor _ | found anchor _ => some anchor
  | answered changes => some changes.anchor

/-- A question that has just been asked: an end may have been asked for. -/
def start : Option Timestamp → Inquiry
  | some anchor => if Instant.epoch < anchor.toInstant then anchored anchor else begun
  | none => begun

/-- What the next step changes: the clock is looked at, or nothing. -/
def change : Inquiry → State → State
  | begun | anchored _ => fun s => { s with looks := s.looks + 1 }
  | _ => id

section

variable (user : UserId) (state : Option MemoState) (filter : Compiled) (since : Timestamp)

/-- How far the next step comes. -/
def next (s : State) : Inquiry → Inquiry
  | begun => anchored (.ofInstant (s.source.time s.looks))
  | anchored anchor => timed anchor (s.source.time s.looks).seconds
  | timed anchor time => found anchor
      (changesBetween user state filter time since anchor s.database).memos
  | found anchor memos => answered
      ⟨memos, s.database.removedNames user (since.toInstant.earlier anchor.toInstant)
        anchor.toInstant, anchor⟩
  | answered changes => answered changes

/-- What is left to be done when the rows have been read. -/
def jobOfFound (anchor : Timestamp) (memos : List Memo) :
    Job State (Except Error MemoChanges) :=
  .step id fun s => .done (.ok ⟨memos, s.database.removedNames user
    (since.toInstant.earlier anchor.toInstant) anchor.toInstant, anchor⟩)

/-- What is left to be done when the clock has been looked at for the filter. -/
def jobOfTimed (anchor : Timestamp) (time : Int) : Job State (Except Error MemoChanges) :=
  .step id fun s => jobOfFound user since anchor
    (changesBetween user state filter time since anchor s.database).memos

/-- What is left to be done when the end of the window is known. -/
def jobOfAnchored (anchor : Timestamp) : Job State (Except Error MemoChanges) :=
  .step (fun s => { s with looks := s.looks + 1 }) fun s =>
    jobOfTimed user state filter since anchor (s.source.time s.looks).seconds

/-- What is left to be done. -/
def job : Inquiry → Job State (Except Error MemoChanges)
  | begun => .step (fun s => { s with looks := s.looks + 1 }) fun s =>
      jobOfAnchored user state filter since (.ofInstant (s.source.time s.looks))
  | anchored anchor => jobOfAnchored user state filter since anchor
  | timed anchor time => jobOfTimed user state filter since anchor time
  | found anchor memos => jobOfFound user since anchor memos
  | answered changes => .done (.ok changes)

end

variable {user : UserId} {state : Option MemoState} {filter : Compiled} {since : Timestamp}
  {s : State} {p : Inquiry}

/-- **A question goes on by the next step**, until it is answered. -/
theorem job_eq (user : UserId) (state : Option MemoState) (filter : Compiled) (since : Timestamp)
    (p : Inquiry) :
    (∃ changes, p = .answered changes)
      ∨ p.job user state filter since
        = .step p.change fun s =>
            (p.next user state filter since s).job user state filter since := by
  cases p with
  | answered changes => exact .inl ⟨changes, rfl⟩
  | _ => exact .inr rfl

theorem start_cases (wanted : Option Timestamp) :
    start wanted = begun ∨ ∃ anchor ∈ wanted, start wanted = anchored anchor := by
  cases wanted with
  | none => exact .inl rfl
  | some anchor =>
    rw [start]
    split
    · exact .inr ⟨anchor, rfl, rfl⟩
    · exact .inl rfl

theorem steps_change (p : Inquiry) (s : State) : Steps s (p.change s) := by
  cases p with
  | begun => exact ⟨⟨rfl, Nat.le_succ _⟩, .inl rfl⟩
  | anchored anchor => exact ⟨⟨rfl, Nat.le_succ _⟩, .inl rfl⟩
  | _ => exact ⟨.refl s, .inl rfl⟩

/-- The end of the window is found by the first step or not at all. -/
theorem anchor?_next (user : UserId) (state : Option MemoState) (filter : Compiled)
    (since : Timestamp) (s : State) (p : Inquiry) :
    (p.next user state filter since s).anchor? = p.anchor?
      ∨ p = .begun ∧ (p.next user state filter since s).anchor?
        = some (.ofInstant (s.source.time s.looks)) := by
  cases p with
  | begun => exact .inr ⟨rfl, rfl⟩
  | _ => exact .inl rfl

end Inquiry

/-- **What is asked is answered in these steps.** -/
theorem listChanges_job {source : String} {filter : Compiled}
    (hfilter : compileGuarded source = .ok filter) (user : UserId) (state : Option MemoState)
    (since : Timestamp) (wanted : Option Timestamp) :
    ExceptT.run (listChanges (some user) state source since wanted)
      = (Inquiry.start wanted).job user state filter since := by
  have hrequest : requestFilter source = (pure filter : Action Compiled) := by
    rw [requestFilter, hfilter]
    rfl
  rw [listChanges, hrequest]
  cases wanted with
  | none => rfl
  | some anchor =>
    rw [Inquiry.start, windowEnd]
    split
    · rfl
    · rfl

/-! ### Items -/

/-- What an answer may give: a row, or the name of a memo that has left the view of the user at a
time. -/
inductive Item where
  | row (m : Memo)
  | removal (name : String) (time : Instant)

namespace Item

/-- When the row was written, or the user told. -/
def time : Item → Instant
  | row m => m.updated
  | removal _ time => time

/-- Is the item in a database? -/
def IsThere (user : UserId) (d : Database) : Item → Prop
  | row m => m ∈ d.memos
  | removal name time => d.Tells user name time

/-- Is the item one that the user is to get? That is said of rows; a name is for whom it is told. -/
def IsMeant (user : UserId) (state : Option MemoState) (filter : Compiled) : Item → Prop
  | row m => (∀ time, isWanted (some user) state filter time m)
      ∧ isOverlooked filter.prefilter m = false
  | removal _ _ => True

/-- Has its part been read? -/
def IsRead : Item → Inquiry → Prop
  | row _, .found _ _ => True
  | _, .answered _ => True
  | _, _ => False

/-- Has it been found? A name counts for the times in the window. -/
def IsIn (since : Timestamp) : Item → Inquiry → Prop
  | row m, .found _ memos => m ∈ memos
  | row m, .answered changes => m ∈ changes.memos
  | removal name time, .answered changes => name ∈ changes.removed
      ∧ since.toInstant < time ∧ time ≤ changes.anchor.toInstant
  | _, _ => False

variable {user : UserId} {state : Option MemoState} {filter : Compiled} {since : Timestamp}
  {s t : State} {p : Inquiry} {item : Item}

/-- Nothing has been read when a question has just been asked. -/
theorem not_isRead_start (item : Item) (wanted : Option Timestamp) :
    ¬ item.IsRead (Inquiry.start wanted) := by
  rcases Inquiry.start_cases wanted with hstart | ⟨anchor, -, hstart⟩
  · rw [hstart]
    cases item <;> exact id
  · rw [hstart]
    cases item <;> exact id

theorem IsIn.isRead (h : item.IsIn since p) : item.IsRead p := by
  cases p with
  | found anchor memos =>
    cases item with
    | row m => trivial
    | removal name time => exact absurd h id
  | answered changes => cases item <;> trivial
  | _ => cases item <;> exact absurd h id

/-- **What a step of a request puts in bears a time that has been reached.** -/
theorem hasReached (h : Steps s t) (hnew : ¬ item.IsThere user s.database)
    (hthere : item.IsThere user t.database) : t.HasReached item.time := by
  rcases h.database with hsame | ⟨time, hreached, hstamped⟩
  · exact absurd (hsame ▸ hthere) hnew
  · have htime : item.time = time := by
      cases item with
      | row m => exact (hstamped.rows m hthere).resolve_left hnew
      | removal name t => exact hstamped.eq_of_tells hnew hthere
    exact htime ▸ hreached.mono h.before

/-- Whoever has been told stays told. -/
theorem isThere_removal (h : Steps s t) {name : String} {time : Instant}
    (hthere : (removal name time).IsThere user s.database) :
    (removal name time).IsThere user t.database := by
  rcases h.database with hsame | ⟨_, -, hstamped⟩
  · rw [hsame]
    exact hthere
  · exact hstamped.tells hthere

/-- What has been found stays. -/
theorem IsIn.next (h : item.IsIn since p) : item.IsIn since (p.next user state filter since s) := by
  cases p with
  | found anchor memos =>
    cases item with
    | row m => exact h
    | removal name time => exact absurd h id
  | answered changes => exact h
  | _ => cases item <;> exact absurd h id

/-- Once its part has been read, an item is found no more. -/
theorem IsRead.next (h : item.IsRead p) : item.IsRead (p.next user state filter since s) := by
  cases p with
  | found anchor memos => cases item <;> trivial
  | answered changes => exact h
  | _ => cases item <;> exact absurd h id

/-- **What a step finds is in the window.** -/
theorem isIn_next (hpos : 0 < user) (hmax : user ≤ Text.maxInt64)
    (h : item.IsIn since (p.next user state filter since s)) :
    item.IsIn since p ∨ ¬ item.IsRead p ∧ since.toInstant < item.time := by
  cases p with
  | begun => cases item <;> exact absurd h id
  | anchored anchor => cases item <;> exact absurd h id
  | timed anchor time =>
    cases item with
    | row m => exact .inr ⟨id, ((mem_changed hpos hmax).mp h).2.2.2.1⟩
    | removal name time => exact absurd h id
  | found anchor memos =>
    cases item with
    | row m => exact .inl h
    | removal name time => exact .inr ⟨id, h.2.1⟩
  | answered changes => exact .inl h

/-- **An item that is there is found when its part is read**, if its time is in the window. -/
theorem isIn_of_isThere (hpos : 0 < user) (hmax : user ≤ Text.maxInt64)
    (hmeant : item.IsMeant user state filter) (hthere : item.IsThere user s.database)
    (hafter : since.toInstant < item.time) (hunread : ¬ item.IsRead p)
    (hread : item.IsRead (p.next user state filter since s)) :
    ∃ anchor, p.anchor? = some anchor ∧ (p.next user state filter since s).anchor? = some anchor
      ∧ (item.time ≤ anchor.toInstant → item.IsIn since (p.next user state filter since s)) := by
  cases p with
  | begun => cases item <;> exact absurd hread id
  | anchored anchor => cases item <;> exact absurd hread id
  | timed anchor time =>
    cases item with
    | row m =>
      exact ⟨anchor, rfl, rfl, fun hupTo => (mem_changed hpos hmax).mpr
        ⟨hthere, hmeant.1 time, hmeant.2, hafter, hupTo⟩⟩
    | removal name time => exact absurd hread id
  | found anchor memos =>
    cases item with
    | row m => exact absurd trivial hunread
    | removal name time =>
      refine ⟨anchor, rfl, rfl, fun hupTo => ⟨?_, hafter, hupTo⟩⟩
      obtain ⟨hearlier, -⟩ := Instant.earlier_window.mpr ⟨hafter, hupTo⟩
      exact mem_removedNames.mpr ⟨time, hearlier, hupTo, hthere⟩
  | answered changes => cases item <;> exact absurd trivial hunread

end Item

end SharedMemos.Server
