import SharedMemos.Proofs.Memo.Tag
import SharedMemos.Proofs.Server.Database
import SharedMemos.Proofs.Server.Execution
import SharedMemos.Server.Memos

/-!
# Writing memos

Whatever a request to make, change or delete a memo does to the database, it exchanges at most one
row: a memo that is made comes in for nothing, a memo that is changed comes in for its former row,
and for a memo that is deleted nothing comes in. At the same time the users are told who could
change the row that goes and cannot change what comes (`Exchange`). What holds of every run of such
requests follows from that one description, so that nothing has to be said three times.

The rows of a table are told apart by number and by uid (`Database.IsKeyed`); without that a change
would hit more than one row. A recipient of an event could be passed over without a word. That none
is passed over is the one thing that is assumed about how the database works. What becomes of the
rows of memos does not depend on it, and so that is kept apart (`Swap`).

## Main definitions

* `Write` — the requests that write memos
* `State.written` — the state after a number of them
* `Swap`, `Exchange` — what such a request does to rows, and to the database
* `Write.Leaves` — what it leaves, whatever goes wrong

## Main results

* `Write.leaves` — a request changes nothing, or its transaction has been carried out
* `Write.step` — a request exchanges at most one row
* `Swap.isKeyed` — numbers and uids go on telling rows apart
* `State.written_keeps` — what a run keeps
-/

namespace SharedMemos

theorem Memo.name_inj {m m' : Memo} : m.name = m'.name ↔ m.uid = m'.uid := by
  rw [Memo.name, Memo.name]
  exact String.append_right_inj _

namespace Server

open Attempt

/-- The requests that write memos. -/
inductive Write where
  | create (viewer : Viewer) (draft : MemoDraft)
  | update (viewer : Viewer) (uid : String) (edit : MemoEdit)
  | delete (viewer : Viewer) (uid : String)

/-- What is done about a request. -/
def Write.act : Write → Action Unit
  | create viewer draft => do let _ ← createMemo viewer draft
  | update viewer uid edit => do let _ ← updateMemo viewer uid edit
  | delete viewer uid => deleteMemo viewer uid

/-- The state after a number of requests, whether they succeed or fail. -/
def State.written (s : State) (writes : List Write) : State :=
  writes.foldl (fun s w => (w.act.exec s).2) s

/-- Does every look at the clock come after the one before? -/
def Source.IsTicking (source : Source) : Prop :=
  ∀ i j, i < j → source.time i < source.time j

/-- An empty server whose clock ticks once a second. -/
def tickingServer : State :=
  { source := ⟨fun look => .ofSeconds (look + 1), fun draw length => Text.showPadded length draw⟩ }

theorem tickingServer_isTicking : tickingServer.source.IsTicking := by
  intro i j h
  show ((i : Int) + 1) * 1000000 < ((j : Int) + 1) * 1000000
  omega

/-! ### Databases -/

namespace Database

/-- Numbers and uids tell memos apart, and no number is ahead of the latest. -/
structure IsKeyed (d : Database) : Prop where
  id : ∀ m ∈ d.memos, ∀ m' ∈ d.memos, m.id = m'.id → m = m'
  uid : ∀ m ∈ d.memos, ∀ m' ∈ d.memos, m.uid = m'.uid → m = m'
  last : ∀ m ∈ d.memos, m.id ≤ d.lastMemo

/-- Is there an event that tells a user at a time that a memo is gone from view? -/
def Tells (d : Database) (user : UserId) (name : String) (time : Instant) : Prop :=
  ∃ e ∈ d.events, user ∈ e.recipients ∧ e.memoName = name ∧ e.time = time

/-- Are the recipients of events written down? -/
def Notifies (d : Database) : Prop :=
  d.mishap? .recipient .insert = none

variable {d : Database} {user : UserId} {name : String} {time : Instant}

theorem isKeyed_of_empty (h : d.memos = []) : d.IsKeyed := by
  have hnone : ∀ m, m ∉ d.memos := by
    rw [h]
    exact fun m => List.not_mem_nil
  exact ⟨fun m hm => absurd hm (hnone m), fun m hm => absurd hm (hnone m),
    fun m hm => absurd hm (hnone m)⟩

theorem IsKeyed.eq_of_name (h : d.IsKeyed) {m m' : Memo} (hm : m ∈ d.memos) (hm' : m' ∈ d.memos)
    (hname : m.name = m'.name) : m = m' :=
  h.uid m hm m' hm' (Memo.name_inj.mp hname)

/-- A further event tells its recipients. -/
theorem tells_of_events {d' : Database} {e : ChangeEvent} (h : d'.events = e :: d.events) :
    d'.Tells user name time
      ↔ (user ∈ e.recipients ∧ e.memoName = name ∧ e.time = time) ∨ d.Tells user name time := by
  simp only [Tells, h, List.mem_cons, exists_eq_or_imp]

end Database

open Database

/-! ### Exchanging a row -/

/-- One row at most is taken out of a database, and one at most is put in. -/
structure Swap (before after : Option Memo) (d d' : Database) : Prop where
  rows : ∀ m, m ∈ d'.memos ↔ m ∈ after ∨ m ∈ d.memos ∧ ∀ row ∈ before, m.id ≠ row.id
  taken : ∀ row ∈ before, row ∈ d.memos
  /-- A row that is put in for another has its number, its uid and its creator. -/
  same : ∀ row ∈ before, ∀ m ∈ after, m.id = row.id ∧ m.uid = row.uid ∧ m.creator = row.creator
  /-- A row that is put in for nothing has a number and a uid of its own. -/
  fresh : before = none → ∀ m ∈ after, d.lastMemo < m.id ∧ ∀ row ∈ d.memos, row.uid ≠ m.uid
  last : d.lastMemo ≤ d'.lastMemo ∧ ∀ m ∈ after, m.id ≤ d'.lastMemo

/-- A row is exchanged at a time, and the users are told who could change the one that is taken out
and cannot change the one that is put in. -/
structure Exchange (time : Instant) (before after : Option Memo) (d d' : Database) : Prop
    extends Swap before after d d' where
  stamped : ∀ m ∈ after, m.updated = time
  tells : ∀ user name t, d'.Tells user name t ↔ d.Tells user name t
    ∨ t = time ∧ ∃ row ∈ before, row.name = name ∧ row.canModify user
      ∧ ∀ m ∈ after, ¬ m.canModify user
  mishaps : d'.mishaps = d.mishaps

namespace Swap

variable {before after : Option Memo} {d d' : Database}

/-- What is put in shares its number with no row that stays. -/
theorem id_ne (h : Swap before after d d') (hd : d.IsKeyed) {m row : Memo}
    (hm : m ∈ after) (hrow : row ∈ d.memos) (hstays : ∀ out ∈ before, row.id ≠ out.id) :
    m.id ≠ row.id := by
  cases before with
  | none =>
    have hlast := hd.last row hrow
    have hfresh := (h.fresh rfl m hm).1
    omega
  | some out =>
    rw [(h.same out rfl m hm).1]
    exact (hstays out rfl).symm

/-- What is put in shares its uid with no row that stays. -/
theorem uid_ne (h : Swap before after d d') (hd : d.IsKeyed) {m row : Memo}
    (hm : m ∈ after) (hrow : row ∈ d.memos) (hstays : ∀ out ∈ before, row.id ≠ out.id) :
    m.uid ≠ row.uid := by
  cases before with
  | none => exact ((h.fresh rfl m hm).2 row hrow).symm
  | some out =>
    rw [(h.same out rfl m hm).2.1]
    intro huid
    have hout := hd.uid out (h.taken out rfl) row hrow huid
    exact hstays out rfl (congrArg Memo.id hout.symm)

/-- **An exchange leaves the rows told apart.** -/
theorem isKeyed (h : Swap before after d d') (hd : d.IsKeyed) : d'.IsKeyed := by
  have hone : ∀ m ∈ after, ∀ m' ∈ after, m = m' := by
    intro m hm m' hm'
    rw [Option.mem_def] at hm hm'
    exact Option.some_inj.mp (hm.symm.trans hm')
  constructor
  · intro m hm m' hm' hid
    rcases (h.rows m).mp hm with hm | ⟨hm, hstays⟩ <;>
      rcases (h.rows m').mp hm' with hm' | ⟨hm', hstays'⟩
    · exact hone m hm m' hm'
    · exact absurd hid (h.id_ne hd hm hm' hstays')
    · exact absurd hid.symm (h.id_ne hd hm' hm hstays)
    · exact hd.id m hm m' hm' hid
  · intro m hm m' hm' huid
    rcases (h.rows m).mp hm with hm | ⟨hm, hstays⟩ <;>
      rcases (h.rows m').mp hm' with hm' | ⟨hm', hstays'⟩
    · exact hone m hm m' hm'
    · exact absurd huid (h.uid_ne hd hm hm' hstays')
    · exact absurd huid.symm (h.uid_ne hd hm' hm hstays)
    · exact hd.uid m hm m' hm' huid
  · intro m hm
    rcases (h.rows m).mp hm with hm | ⟨hm, -⟩
    · exact h.last.2 m hm
    · exact Int.le_trans (hd.last m hm) h.last.1

/-- Nothing may be exchanged. -/
theorem refl (d : Database) : Swap none none d d := by
  refine ⟨fun m => ?_, ?_, ?_, ?_, Int.le_refl _, ?_⟩
  · simp
  · rintro row ⟨⟩
  · rintro row ⟨⟩
  · rintro - m ⟨⟩
  · rintro m ⟨⟩

/-- Any other row stays. -/
theorem stays (h : Swap before after d d') (hd : d.IsKeyed) {m : Memo} (hm : m ∈ d.memos)
    (hother : m ∉ before) : m ∈ d'.memos := by
  refine (h.rows m).mpr (.inr ⟨hm, fun row hrow hid => hother ?_⟩)
  rw [hd.id m hm row (h.taken row hrow) hid]
  exact hrow

/-- Where a row comes in for each that goes, all numbers stay in use. -/
theorem exists_id (h : Swap before after d d') (hnew : ∀ row ∈ before, ∃ m, m ∈ after) {m : Memo}
    (hm : m ∈ d.memos) : ∃ n ∈ d'.memos, n.id = m.id := by
  by_cases hgoes : ∃ row ∈ before, m.id = row.id
  · obtain ⟨row, hrow, hid⟩ := hgoes
    obtain ⟨n, hn⟩ := hnew row hrow
    exact ⟨n, (h.rows n).mpr (.inl hn), (h.same row hrow n hn).1.trans hid.symm⟩
  · exact ⟨m, (h.rows m).mpr (.inr ⟨hm, fun row hrow hid => hgoes ⟨row, hrow, hid⟩⟩), rfl⟩

end Swap

/-! ### The three statements -/

section

variable {time : Instant} {d d' : Database} {m m' row : Memo}

theorem insertMemo_swap (h : (insertMemo m).run d = .ok (m', d')) :
    Swap none (some (storedMemo m')) d d' := by
  obtain ⟨hfree, rfl, rfl⟩ := run_insertMemo h
  constructor
  · intro n
    show n ∈ storedMemo _ :: d.memos ↔ _
    rw [List.mem_cons]
    simp [eq_comm]
  · rintro row ⟨⟩
  · rintro row ⟨⟩
  · rintro - n ⟨⟩
    exact ⟨Int.lt_succ d.lastMemo, hfree⟩
  · refine ⟨Int.le_of_lt (Int.lt_succ d.lastMemo), ?_⟩
    rintro n ⟨⟩
    exact Int.le_refl _

theorem insertMemo_exchange (h : (insertMemo m).run d = .ok (m', d')) (htime : m.updated = time) :
    Exchange time none (some (storedMemo m')) d d' := by
  refine ⟨insertMemo_swap h, ?_, ?_, ?_⟩
  all_goals obtain ⟨-, rfl, rfl⟩ := run_insertMemo h
  · rintro n ⟨⟩
    exact htime
  · intro user name t
    simp [Tells]
  · rfl

/-- The rows after a change: the new one, and those with other numbers. -/
theorem mem_map_rewritten (hd : d.IsKeyed) (hrow : row ∈ d.memos) (hid : m.id = row.id) {n : Memo} :
    n ∈ d.memos.map (rewritten m time)
      ↔ n = rewritten m time row ∨ n ∈ d.memos ∧ n.id ≠ row.id := by
  rw [List.mem_map]
  constructor
  · rintro ⟨r, hr, rfl⟩
    by_cases hsame : r.id = row.id
    · rw [hd.id r hr row hrow hsame]
      exact .inl rfl
    · have hkept : rewritten m time r = r := by
        rw [rewritten, if_neg]
        rw [hid, beq_iff_eq]
        exact hsame
      rw [hkept]
      exact .inr ⟨hr, hsame⟩
  · rintro (rfl | ⟨hn, hother⟩)
    · exact ⟨row, hrow, rfl⟩
    · refine ⟨n, hn, ?_⟩
      rw [rewritten, if_neg]
      rw [hid, beq_iff_eq]
      exact hother

theorem rewritten_self (hid : m.id = row.id) :
    rewritten m time row = { storedMemo { m with updated := time } with
      uid := row.uid, creator := row.creator, created := row.created } := by
  rw [rewritten, if_pos]
  rw [hid, beq_self_eq_true]

theorem updateMemo_swap {revoked : List UserId} (hd : d.IsKeyed) (hrow : row ∈ d.memos)
    (hid : m.id = row.id) (h : (Database.updateMemo m revoked time).run d = .ok (m', d')) :
    Swap (some row) (some (rewritten m time row)) d d' := by
  obtain ⟨kept, -, -, hd'⟩ := run_updateMemo h
  have hmemos : d'.memos = d.memos.map (rewritten m time) := by
    rw [hd']
    split <;> rfl
  have hlast : d'.lastMemo = d.lastMemo := by
    rw [hd']
    split <;> rfl
  constructor
  · intro n
    rw [hmemos, mem_map_rewritten hd hrow hid]
    simp [eq_comm]
  · rintro r ⟨⟩
    exact hrow
  · rintro r ⟨⟩ n ⟨⟩
    rw [rewritten_self hid]
    exact ⟨hid, rfl, rfl⟩
  · rintro ⟨⟩
  · rw [hlast]
    refine ⟨Int.le_refl _, ?_⟩
    rintro n ⟨⟩
    rw [rewritten_self hid]
    exact Int.le_trans (Int.le_of_eq hid) (hd.last row hrow)

theorem updateMemo_exchange {revoked : List UserId} (hd : d.IsKeyed) (hworks : d.Notifies)
    (hrow : row ∈ d.memos) (hid : m.id = row.id) (huid : m.uid = row.uid)
    (hcreator : m.creator = row.creator)
    (hrevoked : ∀ user, user ∈ revoked ↔ row.canModify user ∧ ¬ m.canModify user)
    (h : (Database.updateMemo m revoked time).run d = .ok (m', d')) :
    Exchange time (some row) (some (rewritten m time row)) d d' := by
  have hswap := updateMemo_swap hd hrow hid h
  obtain ⟨kept, hkept, -, hd'⟩ := run_updateMemo h
  rw [hkept hworks] at hd'
  have hmodify : ∀ user, (rewritten m time row).canModify user = m.canModify user := by
    intro user
    rw [rewritten_self hid, Memo.canModify, Memo.canModify, hcreator]
    rfl
  have hname : m.name = row.name := Memo.name_inj.mpr huid
  refine ⟨hswap, ?_, ?_, ?_⟩
  · rintro n ⟨⟩
    rw [rewritten_self hid]
    rfl
  · intro user name t
    have hlost : (∃ r ∈ some row, r.name = name ∧ r.canModify user
          ∧ ∀ n ∈ some (rewritten m time row), ¬ n.canModify user)
        ↔ user ∈ revoked ∧ m.name = name := by
      rw [hrevoked user, hname]
      simp only [Option.mem_def, Option.some.injEq, exists_eq_left', forall_eq', hmodify]
      exact and_comm
    rw [hlost]
    rw [hd']
    split
    · rename_i hnone
      rw [List.isEmpty_iff.mp hnone]
      simp [Tells]
    · rw [tells_of_events rfl]
      constructor
      · rintro (⟨huser, hnamed, htime⟩ | htold)
        · exact .inr ⟨htime.symm, huser, hnamed⟩
        · exact .inl htold
      · rintro (htold | ⟨htime, huser, hnamed⟩)
        · exact .inr htold
        · exact .inl ⟨huser, hnamed, htime.symm⟩
  · rw [hd']
    split <;> rfl

theorem deleteMemo_swap {recipients : List UserId} (hrow : row ∈ d.memos)
    (h : (Database.deleteMemo row recipients time).run d = .ok ((), d')) :
    Swap (some row) none d d' := by
  obtain ⟨kept, -, rfl⟩ := run_deleteMemo h
  constructor
  · intro n
    show n ∈ d.memos.filter _ ↔ _
    rw [List.mem_filter, bne_iff_ne]
    simp
  · rintro r ⟨⟩
    exact hrow
  · rintro r ⟨⟩ n ⟨⟩
  · rintro ⟨⟩
  · refine ⟨Int.le_refl _, ?_⟩
    rintro n ⟨⟩

theorem deleteMemo_exchange {recipients : List UserId} (hworks : d.Notifies)
    (hrow : row ∈ d.memos) (hrecipients : ∀ user, user ∈ recipients ↔ row.canModify user)
    (h : (Database.deleteMemo row recipients time).run d = .ok ((), d')) :
    Exchange time (some row) none d d' := by
  have hswap := deleteMemo_swap hrow h
  obtain ⟨kept, hkept, hd'⟩ := run_deleteMemo h
  rw [hkept hworks] at hd'
  subst hd'
  refine ⟨hswap, ?_, ?_, rfl⟩
  · rintro n ⟨⟩
  · intro user name t
    rw [tells_of_events rfl, hrecipients user]
    simp only [Option.mem_def, Option.some.injEq, exists_eq_left', reduceCtorEq, false_implies,
      implies_true, and_true]
    constructor
    · rintro (⟨huser, hnamed, htime⟩ | htold)
      · exact .inr ⟨htime.symm, hnamed, huser⟩
      · exact .inl htold
    · rintro (htold | ⟨htime, hnamed, huser⟩)
      · exact .inr htold
      · exact .inl ⟨huser, hnamed, htime.symm⟩

end

/-! ### One request -/

/-- A request has carried out its transaction, at the time of its only look at the clock. The memo
that it is about is one that its user may change. -/
inductive Write.Commits (s : State) (d : Database) : Write → Prop where
  | create {user : UserId} {draft : MemoDraft} {uid : String} {m : Memo}
      (hrun : (insertMemo (draft.toMemo uid user (s.source.time s.looks))).run s.database
        = .ok (m, d)) : Commits s d (.create (some user) draft)
  | update {user : UserId} {uid : String} {edit : MemoEdit} {row m : Memo}
      (hrow : s.database.memoByUid? uid = some row) (hmodify : row.canModify user)
      (hrun : (Database.updateMemo (edit.apply row)
        ((Tag.revoked row.tags (edit.apply row).tags).filter (· != (edit.apply row).creator))
        (s.source.time s.looks)).run s.database = .ok (m, d)) :
      Commits s d (.update (some user) uid edit)
  | delete {user : UserId} {uid : String} {row : Memo}
      (hrow : s.database.memoByUid? uid = some row) (hmodify : row.canModify user)
      (hrun : (Database.deleteMemo row (Tag.sortedIds (row.creator :: row.collaborators))
        (s.source.time s.looks)).run s.database = .ok ((), d)) :
      Commits s d (.delete (some user) uid)

/-- What a request to write leaves: all that is not in the database as it was, and the database too,
unless the request has carried out its transaction. -/
structure Write.Leaves (w : Write) (s t : State) : Prop where
  outside : t = { s with database := t.database, looks := t.looks, draws := t.draws }
  looks : s.looks ≤ t.looks
  draws : s.draws ≤ t.draws
  database : t.database = s.database ∨ t.looks = s.looks + 1 ∧ w.Commits s t.database

section

variable {α β : Type} {s t : State} {P : State → Prop}

/-- Requests that only look before they write. -/
theorem exec_bind_of_looks {x : Action α} {f : α → Action β} (hx : (x.exec s).2 = s) (hs : P s)
    (hf : ∀ a, x.exec s = (.ok a, s) → P ((f a).exec s).2) : P ((x >>= f).exec s).2 := by
  rw [exec_bind]
  rcases hexec : x.exec s with ⟨e | a, t⟩
  · rw [hexec] at hx
    rw [show t = s from hx]
    exact hs
  · rw [hexec] at hx
    obtain rfl : t = s := hx
    exact hf a hexec

/-- A result that is not looked at changes nothing. -/
theorem exec_discard (x : Action α) (s : State) :
    ((do let _ ← x : Action Unit).exec s).2 = (x.exec s).2 := by
  rw [exec_bind]
  rcases x.exec s with ⟨e | a, t⟩ <;> rfl

/-- A transaction that writes down the time looks at the clock, and then it is carried out, or it is
not. -/
theorem transactNow_leaves (x : Instant → Transaction α) (s : State) :
    ∃ d, ((transactNow x).exec s).2 = { s with database := d, looks := s.looks + 1 }
      ∧ (d = s.database ∨ ∃ a, (x (s.source.time s.looks)).run s.database = .ok (a, d)) := by
  have hexec : (transactNow x).exec s
      = (transact (x (s.source.time s.looks))).exec { s with looks := s.looks + 1 } := rfl
  rw [hexec]
  rcases htransact : (transact (x (s.source.time s.looks))).exec { s with looks := s.looks + 1 }
    with ⟨e | a, t⟩
  · obtain ⟨-, rfl⟩ := exec_transact_error htransact
    exact ⟨_, rfl, .inl rfl⟩
  · obtain ⟨d, hrun, rfl⟩ := exec_transact_ok htransact
    exact ⟨d, rfl, .inr ⟨a, hrun⟩⟩

theorem signedIn_exec (reason : String) (viewer : Viewer) (s : State) :
    ((signedIn reason viewer).exec s).2 = s := by
  cases viewer <;> rfl

theorem signedIn_ok {reason : String} {viewer : Viewer} {user : UserId}
    (h : (signedIn reason viewer).exec s = (.ok user, t)) : viewer = some user := by
  cases viewer with
  | none => cases h
  | some user' =>
    cases h
    rfl

theorem modifiableMemo_exec (user : UserId) (uid : String) (s : State) :
    ((modifiableMemo user uid).exec s).2 = s := by
  have hquery : (query (·.memoByUid? uid)).exec s = (.ok (s.database.memoByUid? uid), s) := rfl
  rw [modifiableMemo, exec_bind_of_ok hquery]
  split
  · split <;> rfl
  · rfl

/-- A memo that a user may change is the one with the uid, and the user may change it. -/
theorem modifiableMemo_ok {user : UserId} {uid : String} {m : Memo}
    (h : (modifiableMemo user uid).exec s = (.ok m, t)) :
    s.database.memoByUid? uid = some m ∧ m.canModify user := by
  rw [modifiableMemo] at h
  obtain ⟨found, _, hquery, h⟩ := exec_bind_eq_ok.mp h
  cases hquery
  split at h
  · rename_i m' hfound
    split at h
    · rename_i hmodify
      cases h
      exact ⟨hfound, hmodify⟩
    · cases h
  · cases h

end

theorem Write.Leaves.refl (w : Write) (s : State) : w.Leaves s s :=
  ⟨rfl, Nat.le_refl _, Nat.le_refl _, .inl rfl⟩

/-- **A request to write leaves everything, or it has carried out its transaction.** -/
theorem Write.leaves (w : Write) (s : State) : w.Leaves s (w.act.exec s).2 := by
  cases w with
  | create viewer draft =>
    rw [Write.act, exec_discard, createMemo]
    refine exec_bind_of_looks (signedIn_exec _ viewer s) (.refl _ s) fun user huser => ?_
    obtain rfl := signedIn_ok huser
    refine exec_bind_of_looks rfl (.refl _ s) fun _ _ => ?_
    rw [exec_bind_of_ok (show (drawName _).exec s = _ from rfl)]
    obtain ⟨d, ht, hd⟩ := transactNow_leaves
      (fun time => insertMemo (draft.toMemo (s.source.name s.draws Limit.uidLength) user time))
      { s with draws := s.draws + 1 }
    rw [ht]
    refine ⟨rfl, Nat.le_succ _, Nat.le_succ _, hd.imp id ?_⟩
    rintro ⟨m, hrun⟩
    exact ⟨rfl, .create hrun⟩
  | update viewer uid edit =>
    rw [Write.act, exec_discard, Server.updateMemo]
    refine exec_bind_of_looks (signedIn_exec _ viewer s) (.refl _ s) fun user huser => ?_
    obtain rfl := signedIn_ok huser
    refine exec_bind_of_looks (modifiableMemo_exec user uid s) (.refl _ s) fun row hrow => ?_
    obtain ⟨hfound, hmodify⟩ := modifiableMemo_ok hrow
    refine exec_bind_of_looks rfl (.refl _ s) fun _ _ => ?_
    obtain ⟨d, ht, hd⟩ := transactNow_leaves (Database.updateMemo (edit.apply row)
      ((Tag.revoked row.tags (edit.apply row).tags).filter (· != (edit.apply row).creator))) s
    rw [ht]
    refine ⟨rfl, Nat.le_succ _, Nat.le_refl _, hd.imp id ?_⟩
    rintro ⟨m, hrun⟩
    exact ⟨rfl, .update hfound hmodify hrun⟩
  | delete viewer uid =>
    rw [Write.act, Server.deleteMemo]
    refine exec_bind_of_looks (signedIn_exec _ viewer s) (.refl _ s) fun user huser => ?_
    obtain rfl := signedIn_ok huser
    refine exec_bind_of_looks (modifiableMemo_exec user uid s) (.refl _ s) fun row hrow => ?_
    obtain ⟨hfound, hmodify⟩ := modifiableMemo_ok hrow
    obtain ⟨d, ht, hd⟩ := transactNow_leaves
      (Database.deleteMemo row (Tag.sortedIds (row.creator :: row.collaborators))) s
    rw [ht]
    refine ⟨rfl, Nat.le_succ _, Nat.le_refl _, hd.imp id ?_⟩
    rintro ⟨_, hrun⟩
    exact ⟨rfl, .delete hfound hmodify hrun⟩

/-- What a request to write leaves where writing works: the database as it was, or one exchange at
the time of its only look at the clock. -/
structure Wrote (s t : State) : Prop where
  source : t.source = s.source
  looks : s.looks ≤ t.looks
  database : t.database = s.database
    ∨ t.looks = s.looks + 1
      ∧ ∃ before after, Exchange (s.source.time s.looks) before after s.database t.database

/-- A state in which writing memos works as it should: rows are told apart, and recipients of events
are written down. -/
structure State.IsOrderly (s : State) : Prop where
  keyed : s.database.IsKeyed
  notifies : s.database.Notifies

theorem State.isOrderly_of_empty {s : State} (hmemos : s.database.memos = [])
    (hmishaps : s.database.mishaps = []) : s.IsOrderly := by
  refine ⟨isKeyed_of_empty hmemos, ?_⟩
  rw [Notifies, mishap?, hmishaps]
  rfl

/-- **A request exchanges at most one row.** -/
theorem Write.step (w : Write) {s : State} (hs : s.IsOrderly) : Wrote s (w.act.exec s).2 := by
  have hleaves := w.leaves s
  refine ⟨by rw [hleaves.outside], hleaves.looks, hleaves.database.imp id ?_⟩
  rintro ⟨hlooks, hcommits⟩
  refine ⟨hlooks, ?_⟩
  cases hcommits with
  | create hrun => exact ⟨none, _, insertMemo_exchange hrun rfl⟩
  | @update user uid edit row _ hrow hmodify hrun =>
    exact ⟨some row, _, updateMemo_exchange (m := edit.apply row) hs.keyed hs.notifies
      (List.mem_of_find?_eq_some hrow) rfl rfl rfl (fun _ => Memo.mem_revoked_iff rfl) hrun⟩
  | delete hrow hmodify hrun =>
    exact ⟨some _, none, deleteMemo_exchange hs.notifies (List.mem_of_find?_eq_some hrow)
      (fun _ => Memo.mem_canModify_iff) hrun⟩

/-! ### Runs -/

section

variable {s t : State} {user : UserId} {name : String} {time : Instant}

theorem Wrote.isOrderly (h : Wrote s t) (hs : s.IsOrderly) : t.IsOrderly := by
  rcases h.database with hsame | ⟨-, before, after, hexchange⟩
  · exact ⟨hsame ▸ hs.keyed, hsame ▸ hs.notifies⟩
  · refine ⟨hexchange.isKeyed hs.keyed, ?_⟩
    rw [Notifies, mishap?, hexchange.mishaps]
    exact hs.notifies

/-- What users have been told stays told. -/
theorem Wrote.tells (h : Wrote s t) (htold : s.database.Tells user name time) :
    t.database.Tells user name time := by
  rcases h.database with hsame | ⟨-, before, after, hexchange⟩
  · rw [hsame]
    exact htold
  · exact (hexchange.tells user name time).mpr (.inl htold)

theorem State.written_cons (s : State) (w : Write) (writes : List Write) :
    s.written (w :: writes) = (w.act.exec s).2.written writes := rfl

theorem State.written_append (s : State) (earlier later : List Write) :
    s.written (earlier ++ later) = (s.written earlier).written later :=
  List.foldl_append

/-- **What every request keeps, a run keeps.** -/
theorem State.written_keeps {P : State → Prop}
    (hstep : ∀ s (w : Write), s.IsOrderly → P s → P (w.act.exec s).2) (writes : List Write) :
    ∀ s : State, s.IsOrderly → P s → (s.written writes).IsOrderly ∧ P (s.written writes) := by
  induction writes with
  | nil => exact fun s hs hP => ⟨hs, hP⟩
  | cons w writes ih =>
    intro s hs hP
    exact ih (w.act.exec s).2 ((w.step hs).isOrderly hs) (hstep s w hs hP)

theorem State.isOrderly_written (hs : s.IsOrderly) (writes : List Write) :
    (s.written writes).IsOrderly :=
  (State.written_keeps (P := fun _ => True) (fun _ _ _ _ => trivial) writes s hs trivial).1

theorem State.written_source (hs : s.IsOrderly) (writes : List Write) :
    (s.written writes).source = s.source := by
  refine (State.written_keeps (P := (·.source = s.source)) ?_ writes s hs rfl).2
  exact fun t w ht hsource => (w.step ht).source.trans hsource

theorem State.looks_le_written (hs : s.IsOrderly) (writes : List Write) :
    s.looks ≤ (s.written writes).looks := by
  refine (State.written_keeps (P := (s.looks ≤ ·.looks)) ?_ writes s hs (Nat.le_refl _)).2
  exact fun t w ht hlooks => Nat.le_trans hlooks (w.step ht).looks

theorem State.tells_written (hs : s.IsOrderly) (htold : s.database.Tells user name time)
    (writes : List Write) : (s.written writes).database.Tells user name time := by
  refine (State.written_keeps (P := (·.database.Tells user name time)) ?_ writes s hs htold).2
  exact fun t w ht => (w.step ht).tells

end

end Server

end SharedMemos
