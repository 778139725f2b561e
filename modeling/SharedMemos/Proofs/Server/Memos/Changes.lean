import Mathlib.Data.List.Nodup
import SharedMemos.Proofs.Lookup
import SharedMemos.Proofs.Server.Listing
import SharedMemos.Proofs.Server.Memos.Writes

/-!
# What has changed in a window

A client asks what has changed after one time and up to another. The answer is read off the database
of the present: the memos are the rows that were last updated in the window, as far as the user
sees them, and the names are those of the events of the window that tell the user. Neither is
computed from how the rows were at the start of the window, so that what an answer says about the
past is a matter of the runs that have led here.

## Main results

* `listChanges_exec` — the answer and what is left of the state
* `mem_changed` — the memos of an answer
* `mem_removed`, `nodup_removed` — the names of an answer
-/

namespace SharedMemos.Server

open Attempt Database SharedMemos.Filter SharedMemos.Query

/-! ### Names -/

section

variable {d : Database} {user : UserId} {name : String} {after upTo : Instant}

theorem mem_removedNames :
    name ∈ d.removedNames user after upTo
      ↔ ∃ time, after < time ∧ time ≤ upTo ∧ d.Tells user name time := by
  rw [removedNames, List.mem_eraseDups, List.mem_map]
  simp only [List.mem_mergeSort, List.mem_filter, Bool.and_eq_true, decide_eq_true_eq,
    List.contains_iff_mem]
  constructor
  · rintro ⟨e, ⟨he, ⟨huser, hafter⟩, hupTo⟩, rfl⟩
    exact ⟨e.time, hafter, hupTo, e, he, huser, rfl, rfl⟩
  · rintro ⟨_, hafter, hupTo, e, he, huser, rfl, rfl⟩
    exact ⟨e, ⟨he, ⟨huser, hafter⟩, hupTo⟩, rfl⟩

end

/-! ### The answer -/

section

variable {user : UserId} {state : Option MemoState} {source : String} {filter : Compiled}
  {since anchor : Timestamp} {s t : State}

/-- What is read off a database about a window, with a filter at a time. -/
def changesBetween (user : UserId) (state : Option MemoState) (filter : Compiled) (time : Int)
    (since anchor : Timestamp) (d : Database) : MemoChanges where
  memos := ((changeQuery (some user) state filter (since.toInstant.earlier anchor.toInstant)
    anchor.toInstant).run d.memos).filter (filter.accepts · time)
  removed := d.removedNames user (since.toInstant.earlier anchor.toInstant) anchor.toInstant
  anchor := anchor

/-- An anchor after the start of 1970 is the end of the window. -/
theorem windowEnd_exec_some (h : Instant.epoch < anchor.toInstant) (s : State) :
    (windowEnd (some anchor)).exec s = (.ok anchor, s) := by
  rw [windowEnd, if_pos h]
  rfl

/-- Without an anchor the window ends at the present. -/
theorem windowEnd_exec_none (s : State) :
    (windowEnd none).exec s
      = (.ok (.ofInstant (s.source.time s.looks)), { s with looks := s.looks + 1 }) := rfl

/-- **The answer is read off the database**, which stays as it is, at one more look at the clock. -/
theorem listChanges_exec (user : UserId) (state : Option MemoState) (since : Timestamp)
    {wanted : Option Timestamp} (hfilter : compileGuarded source = .ok filter)
    (hend : (windowEnd wanted).exec s = (.ok anchor, t)) :
    (listChanges (some user) state source since wanted).exec s
      = (.ok (changesBetween user state filter (t.source.time t.looks).seconds since anchor
          t.database), { t with looks := t.looks + 1 }) := by
  have hrequest : (requestFilter source).exec s = (.ok filter, s) := by
    rw [requestFilter, exec_ofExcept, hfilter]
    rfl
  rw [listChanges, exec_bind_of_ok (show (signedIn _ (some user)).exec s = (.ok user, s) from rfl),
    exec_bind_of_ok hrequest, exec_bind_of_ok hend]
  rfl

theorem mem_run_changeQuery {viewer : Viewer} {after upTo : Instant} {table : List Memo} {m : Memo}
    (hsat : filter.prefilter.unsatisfiable = false) :
    m ∈ (changeQuery viewer state filter after upTo).run table
      ↔ m ∈ table ∧ (changeQuery viewer state filter after upTo).clause.holds m := by
  have hsat' : (changeQuery viewer state filter after upTo).prefilter.unsatisfiable ≠ true :=
    ne_true_of_eq_false hsat
  rw [MemoQuery.run, if_neg hsat']
  show m ∈ (table.filter _).mergeSort _ ↔ _
  rw [List.mem_mergeSort, List.mem_filter]

/-- The memos of an answer are the wanted ones that were updated in the window and that the store
does not overlook. -/
theorem mem_changed {d : Database} {time : Int} {m : Memo} (hpos : 0 < user)
    (hmax : user ≤ Text.maxInt64) :
    m ∈ (changesBetween user state filter time since anchor d).memos
      ↔ m ∈ d.memos ∧ isWanted (some user) state filter time m
        ∧ isOverlooked filter.prefilter m = false
        ∧ since.toInstant < m.updated ∧ m.updated ≤ anchor.toInstant := by
  have hviewer : ∀ u, some user = some u → 0 < u ∧ u ≤ Text.maxInt64 := by
    rintro u ⟨⟩
    exact ⟨hpos, hmax⟩
  rw [changesBetween, List.mem_filter, isWanted]
  cases haccepts : filter.accepts m time with
  | false => simp
  | true =>
    have hadmits := Compiled.admits_of_accepts haccepts
    rw [mem_run_changeQuery (Prefilter.admits_iff.mp hadmits).satisfiable,
      MemoQuery.clause_holds hviewer]
    show (m ∈ d.memos ∧ (m.isVisibleTo (some user) && m.state == state.getD .normal
      && (decide (_ < m.updated) && decide (m.updated ≤ _))
      && (admittedBy filter.prefilter).holds m) = true) ∧ true = true ↔ _
    rw [admittedBy_of_admits hadmits, ← Instant.earlier_window]
    simp only [Bool.and_eq_true, decide_eq_true_eq, Bool.not_eq_true', and_true, and_assoc]
    constructor
    · rintro ⟨hm, hvisible, hstate, hafter, hupTo, hseen⟩
      exact ⟨hm, hvisible, hstate, hseen, hafter, hupTo⟩
    · rintro ⟨hm, hvisible, hstate, hseen, hafter, hupTo⟩
      exact ⟨hm, hvisible, hstate, hafter, hupTo, hseen⟩

/-- The names of an answer are those that the user is told in the window. -/
theorem mem_removed {d : Database} {time : Int} {name : String} :
    name ∈ (changesBetween user state filter time since anchor d).removed
      ↔ ∃ t, since.toInstant < t ∧ t ≤ anchor.toInstant ∧ d.Tells user name t := by
  have hwindow : ∀ t, since.toInstant.earlier anchor.toInstant < t ∧ t ≤ anchor.toInstant
        ∧ d.Tells user name t
      ↔ since.toInstant < t ∧ t ≤ anchor.toInstant ∧ d.Tells user name t := by
    intro t
    rw [← and_assoc, Instant.earlier_window, and_assoc]
  rw [changesBetween, mem_removedNames]
  exact exists_congr hwindow

/-- No name is given twice. -/
theorem nodup_removed {d : Database} {time : Int} :
    (changesBetween user state filter time since anchor d).removed.Nodup :=
  nodup_eraseDups _

end

end SharedMemos.Server
