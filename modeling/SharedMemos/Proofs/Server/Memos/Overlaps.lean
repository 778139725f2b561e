import SharedMemos.Proofs.Server.Memos.Amendments

/-!
# Two changes of one memo at once

A change is worked out from the row that the request has read. Two requests may both have read the
row before either writes. Then the row that is written last is all that stays, and what the other
request has set is lost, although both are told that their change was made. That is the only way in
which two requests at once can end differently from one after the other (`Ends`). Which of the two
is lost depends on the order in which they write, and both orders are possible.

## Main definitions

* `Write.Succeeds` — a request succeeds alone
* `Accepts` — a change is allowed, and makes sense
* `Ends` — what two changes at once may leave

## Main results

* `updating_eq` — the steps of a request to change a memo
* `updates_together` — what two changes of one memo at once may leave
-/

namespace SharedMemos.Server

open Attempt Database

/-- The memo with a uid, apart from its update time. -/
def State.untimed? (s : State) (uid : String) : Option Memo :=
  s.database.untimed? uid

/-- Carried out alone, the request succeeds. -/
def Write.Succeeds (w : Write) (s : State) : Prop :=
  (w.act.exec s).1 = .ok ()

instance (w : Write) (s : State) : Decidable (w.Succeeds s) :=
  decidable_of_iff ((w.act.exec s).1.isOk = true) <| by
    rw [Write.Succeeds]
    rcases (w.act.exec s).1 with e | ⟨⟩ <;> simp [Except.isOk, Except.toBool]

/-- Is a change allowed to a viewer, and does it make sense? -/
def Accepts (viewer : Viewer) (edit : MemoEdit) (row : Memo) : Prop :=
  (∃ user ∈ viewer, row.canModify user) ∧ edit.validate = .ok ()

/-! ### A request to change a memo -/

section

variable {s t : State} {viewer viewer' : Viewer} {uid : String} {edit edit' : MemoEdit}
  {row : Memo}

/-- A request to change a memo, as a job. -/
def updating (viewer : Viewer) (uid : String) (edit : MemoEdit) :
    Job State (Except Error Unit) :=
  ExceptT.run (Write.update viewer uid edit).act

/-- **A request to change a memo reads the row, and then it is refused or its transaction is to
come.** A request of nobody in particular is refused before. -/
theorem updating_eq (viewer : Viewer) (uid : String) (edit : MemoEdit) :
    (viewer = none ∧ ∃ e, updating viewer uid edit = .done (.error e))
      ∨ ∃ next, updating viewer uid edit = .step id next ∧ ∀ s : State,
        (∃ row, s.database.memoByUid? uid = some row ∧ Accepts viewer edit row
          ∧ Pending (amendment edit row) (next s))
        ∨ (∀ row, s.database.memoByUid? uid = some row → ¬ Accepts viewer edit row)
          ∧ ∃ e, next s = .done (.error e) := by
  cases viewer with
  | none => exact .inl ⟨rfl, _, rfl⟩
  | some user =>
    refine .inr ⟨_, rfl, fun s => ?_⟩
    rcases hrow : s.database.memoByUid? uid with _ | row
    · right
      refine ⟨fun row h => ?_, memoMissing uid, ?_⟩
      · cases h
      · simp only [hrow]
        rfl
    · by_cases hmodify : row.canModify user
      · rcases hvalid : edit.validate with e | _
        · right
          refine ⟨fun row h => ?_, e, ?_⟩
          · rintro ⟨-, hok⟩
            rw [hvalid] at hok
            cases hok
          · simp only [hrow, Job.bind, ExceptT.bindCont, hmodify, if_true]
            rfl
        · left
          refine ⟨row, rfl, ⟨⟨user, rfl, hmodify⟩, hvalid⟩, ?_⟩
          simp only [hrow, Job.bind, ExceptT.bindCont, hmodify, if_true]
          exact .of_transactNow (amendment edit row)
      · right
        refine ⟨fun row h => ?_, memoMissing uid, ?_⟩
        · rintro ⟨⟨user', huser, hcan⟩, -⟩
          cases h
          cases huser
          exact hmodify hcan
        · simp only [hrow, Job.bind, ExceptT.bindCont, hmodify]
          rfl

/-- A request to change a memo that accepts the row carries the transaction out. -/
theorem update_exec (hrow : s.database.memoByUid? uid = some row) (h : Accepts viewer edit row) :
    ∃ time, ((Write.update viewer uid edit).act.exec s).2.database
        = after (amendment edit row time) s.database
      ∧ ((Write.update viewer uid edit).Succeeds s
        ↔ s.database.Amends row.id (revokedBy edit row)) := by
  rcases updating_eq viewer uid edit with ⟨rfl, -⟩ | ⟨next, hjob, hnext⟩
  · obtain ⟨⟨user, huser, -⟩, -⟩ := h
    cases huser
  · rcases hnext s with ⟨row', hrow', -, hpending⟩ | ⟨hrefused, -⟩
    · obtain rfl : row' = row := Option.some_inj.mp (hrow'.symm.trans hrow)
      have hexec : (Write.update viewer uid edit).act.exec s = (next s).run s := by
        show (updating viewer uid edit).run s = _
        rw [hjob]
        rfl
      rw [Write.Succeeds, hexec]
      obtain ⟨time, hdatabase, hresult⟩ := hpending.run s
      exact ⟨time, hdatabase, hresult.trans exists_run_updateMemo⟩
    · exact absurd h (hrefused row hrow)

/-- A request to change a memo that does not accept the row leaves everything. -/
theorem update_exec_of_not (hrow : s.database.memoByUid? uid = some row)
    (h : ¬ Accepts viewer edit row) :
    ((Write.update viewer uid edit).act.exec s).2 = s
      ∧ ¬ (Write.update viewer uid edit).Succeeds s := by
  rw [Write.Succeeds]
  show ((updating viewer uid edit).run s).2 = s ∧ ¬ ((updating viewer uid edit).run s).1 = _
  rcases updating_eq viewer uid edit with ⟨-, e, hjob⟩ | ⟨next, hjob, hnext⟩
  · rw [hjob]
    exact ⟨rfl, nofun⟩
  · rcases hnext s with ⟨row', hrow', haccepts, -⟩ | ⟨-, e, hdone⟩
    · obtain rfl : row' = row := Option.some_inj.mp (hrow'.symm.trans hrow)
      exact absurd haccepts h
    · rw [hjob]
      show ((next s).run s).2 = s ∧ ¬ ((next s).run s).1 = _
      rw [hdone]
      exact ⟨rfl, nofun⟩

/-! ### Two requests -/

/-- What two requests at once may leave of a memo: what one after the other leaves, or, where both
succeed, what one of them alone leaves. -/
inductive Ends (first second : Write) (uid : String) (s : State) (m : Option Memo) : Prop
  | inOrder (h : m = (s.written [first, second]).untimed? uid)
  | inReverse (h : m = (s.written [second, first]).untimed? uid)
  | onlyFirst (hfirst : first.Succeeds s) (hsecond : second.Succeeds s)
      (h : m = (s.written [first]).untimed? uid)
  | onlySecond (hfirst : first.Succeeds s) (hsecond : second.Succeeds s)
      (h : m = (s.written [second]).untimed? uid)

theorem Ends.symm {first second : Write} {m : Option Memo} (h : Ends first second uid s m) :
    Ends second first uid s m := by
  cases h with
  | inOrder h => exact .inReverse h
  | inReverse h => exact .inOrder h
  | onlyFirst hfirst hsecond h => exact .onlySecond hsecond hfirst h
  | onlySecond hfirst hsecond h => exact .onlyFirst hsecond hfirst h

/-- A request that fails comes before another as if it were not there. -/
theorem untimed?_written_after_failure (hrow : s.database.memoByUid? uid = some row)
    (h : Accepts viewer edit row) {first : Write}
    (hfirst : (first.act.exec s).2.database = s.database) (time : Instant) :
    (s.written [first, .update viewer uid edit]).untimed? uid
      = (after (amendment edit row time) s.database).untimed? uid := by
  have hrow' : (first.act.exec s).2.database.memoByUid? uid = some row := by
    rw [hfirst]
    exact hrow
  obtain ⟨time', hdatabase, -⟩ := update_exec hrow' h
  show Database.untimed? (State.database _) uid = _
  rw [State.written_cons, State.written_cons]
  show ((Write.update viewer uid edit).act.exec (first.act.exec s).2).2.database.untimed? uid = _
  rw [hdatabase, hfirst]
  exact untimed?_after_congr hrow time' time

/-- Two transactions of changes that were worked out from one row. -/
theorem ends_of_settled (hrow : s.database.memoByUid? uid = some row)
    (h : Accepts viewer edit row) (h' : Accepts viewer' edit' row) {time time' : Instant}
    (ht : t.database
      = after (amendment edit' row time') (after (amendment edit row time) s.database)) :
    Ends (.update viewer uid edit) (.update viewer' uid edit') uid s (t.untimed? uid) := by
  obtain ⟨first, hfirst, hsucceeds⟩ := update_exec hrow h
  obtain ⟨second, hsecond, hsucceeds'⟩ := update_exec hrow h'
  rw [State.untimed?, ht]
  by_cases hamends : s.database.Amends row.id (revokedBy edit row)
  · by_cases hamends' : s.database.Amends row.id (revokedBy edit' row)
    · refine .onlySecond (hsucceeds.mpr hamends) (hsucceeds'.mpr hamends') ?_
      rw [untimed?_after_after hrow hamends']
      show _ = Database.untimed? (State.database _) uid
      rw [State.written_cons]
      show _ = ((Write.update viewer' uid edit').act.exec s).2.database.untimed? uid
      rw [hsecond, untimed?_after hrow hamends']
    · -- the later transaction fails, as it would have done before the other
      have hkept : ¬ (after (amendment edit row time) s.database).Amends row.id
          (revokedBy edit' row) := (amends_after_amendment edit row time).not.mpr hamends'
      refine .inReverse ?_
      rw [after_amendment_of_not hkept, untimed?_written_after_failure hrow h _ time]
      rw [hsecond, after_amendment_of_not hamends']
  · refine .inOrder ?_
    rw [after_amendment_of_not hamends, untimed?_written_after_failure hrow h' _ time']
    rw [hfirst, after_amendment_of_not hamends]

/-- Two requests, the first of which reads first. -/
theorem ends_of_left {next : State → Job State (Except Error Unit)}
    (hjob : updating viewer uid edit = .step id next)
    (h : Job.Together (next s) (updating viewer' uid edit') s t) :
    Ends (.update viewer uid edit) (.update viewer' uid edit') uid s (t.untimed? uid) := by
  have hserial : t = ((updating viewer' uid edit').run ((next s).run s).2).2 →
      Ends (.update viewer uid edit) (.update viewer' uid edit') uid s (t.untimed? uid) := by
    rintro rfl
    refine .inOrder ?_
    show _ = State.untimed?
      ((updating viewer' uid edit').run ((updating viewer uid edit).run s).2).2 uid
    rw [hjob]
    rfl
  rcases updating_eq viewer uid edit with ⟨-, e, hdone⟩ | ⟨_, hstep, hnext⟩
  · cases hjob.symm.trans hdone
  cases hjob.symm.trans hstep
  rcases hnext s with ⟨row, hrow, haccepts, hpending⟩ | ⟨-, e, hrefused⟩
  · rcases updating_eq viewer' uid edit' with ⟨-, e, hdone⟩ | ⟨next', hstep', hnext'⟩
    · rw [hdone] at h
      have ht : t = ((next s).run s).2 := Job.together_done_left.mp h.symm
      refine hserial ?_
      rw [hdone]
      exact ht
    · rcases hpending.overtaken_or_overlapped h hstep' with hovertaken | ⟨p, s', hp, hsame, hboth⟩
      · exact hserial hovertaken
      · rcases hnext' s' with ⟨row', hrow', haccepts', hpending'⟩ | ⟨hnot, e, hrefused⟩
        · rw [hsame] at hrow'
          obtain rfl : row' = row := Option.some_inj.mp (hrow'.symm.trans hrow)
          obtain ⟨time, time', ht | ht⟩ := hp.settles hboth hpending'
          · exact ends_of_settled hrow haccepts haccepts' (hsame ▸ ht)
          · exact (ends_of_settled hrow haccepts' haccepts (hsame ▸ ht)).symm
        · rw [hsame] at hnot
          rw [hrefused] at hboth
          obtain rfl := Job.together_done_left.mp hboth.symm
          obtain ⟨time, hdatabase, -⟩ := hp.run s'
          have hleft := (update_exec_of_not hrow (hnot row hrow)).1
          refine .inReverse ?_
          rw [untimed?_written_after_failure hrow haccepts (congrArg State.database hleft) time]
          rw [State.untimed?, hdatabase, hsame]
  · refine hserial ?_
    rw [hrefused] at h ⊢
    exact Job.together_done_left.mp h

theorem ends_of_together
    (h : Job.Together (updating viewer uid edit) (updating viewer' uid edit') s t) :
    Ends (.update viewer uid edit) (.update viewer' uid edit') uid s (t.untimed? uid) := by
  rcases updating_eq viewer uid edit with ⟨-, e, hdone⟩ | ⟨next, hjob, -⟩
  · refine .inOrder (congrArg (State.untimed? · uid) ?_)
    show t = ((updating viewer' uid edit').run ((updating viewer uid edit).run s).2).2
    rw [hdone] at h ⊢
    exact Job.together_done_left.mp h
  · generalize hjob' : updating viewer' uid edit' = job' at h
    rw [hjob] at h
    cases h with
    | left hrest =>
      rw [← hjob'] at hrest
      exact ends_of_left hjob hrest
    | right hrest =>
      rw [← hjob] at hrest
      rcases updating_eq viewer' uid edit' with ⟨-, e, hdone⟩ | ⟨next', hstep, -⟩
      · cases hjob'.symm.trans hdone
      · cases hjob'.symm.trans hstep
        exact (ends_of_left hjob' hrest.symm).symm

/-- A request that succeeds reads the row, accepts it, and its transaction works. -/
theorem Write.Succeeds.reads (h : (Write.update viewer uid edit).Succeeds s) :
    ∃ next row, updating viewer uid edit = .step id next
      ∧ s.database.memoByUid? uid = some row ∧ Accepts viewer edit row
      ∧ s.database.Amends row.id (revokedBy edit row) ∧ Pending (amendment edit row) (next s) := by
  have hok : ((updating viewer uid edit).run s).1 = .ok () := h
  rcases updating_eq viewer uid edit with ⟨-, e, hdone⟩ | ⟨next, hjob, hnext⟩
  · rw [hdone] at hok
    cases hok
  · rcases hnext s with ⟨row, hrow, haccepts, hpending⟩ | ⟨-, e, hrefused⟩
    · obtain ⟨-, -, hsucceeds⟩ := update_exec hrow haccepts
      exact ⟨next, row, hjob, hrow, haccepts, hsucceeds.mp h, hpending⟩
    · rw [hjob] at hok
      have hdone : ((next s).run s).1 = .ok () := hok
      rw [hrefused] at hdone
      cases hdone

/-- Both requests may read before either writes, and then the first may write last. -/
theorem exists_together_of_succeeds (h : (Write.update viewer uid edit).Succeeds s)
    (h' : (Write.update viewer' uid edit').Succeeds s) :
    ∃ t, Job.Together (updating viewer uid edit) (updating viewer' uid edit') s t
      ∧ t.untimed? uid = (s.written [.update viewer uid edit]).untimed? uid := by
  obtain ⟨next, row, hjob, hrow, haccepts, hamends, hpending⟩ := h.reads
  obtain ⟨next', row', hjob', hrow', -, -, hpending'⟩ := h'.reads
  obtain rfl : row' = row := Option.some_inj.mp (hrow'.symm.trans hrow)
  obtain ⟨time', hdatabase', -⟩ := hpending'.run s
  obtain ⟨time, hdatabase, -⟩ := hpending.run ((next' s).run s).2
  refine ⟨((next s).run ((next' s).run s).2).2, ?_, ?_⟩
  · rw [hjob, hjob']
    exact .left (.right (Job.Together.alone (next' s) (next s) s).symm)
  · obtain ⟨alone, halone, -⟩ := update_exec hrow haccepts
    show _ = ((Write.update viewer uid edit).act.exec s).2.database.untimed? uid
    rw [State.untimed?, hdatabase, hdatabase', untimed?_after_after hrow hamends]
    rw [halone, untimed?_after hrow hamends]

/-- What two changes of one memo at once may leave. All of it happens. -/
theorem together_update_iff (s : State) (viewer viewer' : Viewer) (uid : String)
    (edit edit' : MemoEdit) (m : Option Memo) :
    (∃ results t, Job.Interleaved [ExceptT.run (Write.update viewer uid edit).act,
          ExceptT.run (Write.update viewer' uid edit').act] s results t ∧ t.untimed? uid = m)
      ↔ Ends (.update viewer uid edit) (.update viewer' uid edit') uid s m := by
  have hruns : (∃ results t, Job.Interleaved [updating viewer uid edit,
        updating viewer' uid edit'] s results t ∧ t.untimed? uid = m)
      ↔ ∃ t, Job.Together (updating viewer uid edit) (updating viewer' uid edit') s t
        ∧ t.untimed? uid = m := by
    simp only [Job.together_iff]
    constructor
    · rintro ⟨results, t, hruns, hm⟩
      exact ⟨t, ⟨results, hruns⟩, hm⟩
    · rintro ⟨t, ⟨results, hruns⟩, hm⟩
      exact ⟨results, t, hruns, hm⟩
  refine hruns.trans ?_
  constructor
  · rintro ⟨t, htogether, rfl⟩
    exact ends_of_together htogether
  · intro h
    cases h with
    | inOrder h =>
      exact ⟨_, Job.Together.alone (updating viewer uid edit) (updating viewer' uid edit') s,
        h.symm⟩
    | inReverse h =>
      exact ⟨_, (Job.Together.alone (updating viewer' uid edit') (updating viewer uid edit) s).symm,
        h.symm⟩
    | onlyFirst hfirst hsecond h =>
      rw [h]
      exact exists_together_of_succeeds hfirst hsecond
    | onlySecond hfirst hsecond h =>
      rw [h]
      obtain ⟨t, htogether, ht⟩ := exists_together_of_succeeds hsecond hfirst
      exact ⟨t, htogether.symm, ht⟩

/-- A request that succeeds leaves what it makes of the row. -/
theorem Write.Succeeds.untimed? (h : (Write.update viewer uid edit).Succeeds s) :
    ∃ row, s.database.memoByUid? uid = some row
      ∧ ((Write.update viewer uid edit).act.exec s).2.untimed? uid = some (amended edit row) := by
  obtain ⟨-, row, -, hrow, haccepts, hamends, -⟩ := h.reads
  obtain ⟨time, hdatabase, -⟩ := update_exec hrow haccepts
  exact ⟨row, hrow, by rw [State.untimed?, hdatabase, untimed?_after hrow hamends]⟩

/-- A request leaves the memo as it was, or what it makes of the row. -/
theorem untimed?_exec (viewer : Viewer) (edit : MemoEdit)
    (hrow : s.database.memoByUid? uid = some row) :
    ((Write.update viewer uid edit).act.exec s).2.untimed? uid = some row.untimed
      ∨ ((Write.update viewer uid edit).act.exec s).2.untimed? uid = some (amended edit row) := by
  have hkept : s.database.untimed? uid = some row.untimed := by
    rw [Database.untimed?, hrow, Option.map_some]
  rw [State.untimed?]
  by_cases haccepts : Accepts viewer edit row
  · obtain ⟨time, hdatabase, -⟩ := update_exec hrow haccepts
    rw [hdatabase]
    by_cases hamends : s.database.Amends row.id (revokedBy edit row)
    · exact .inr (untimed?_after hrow hamends time)
    · rw [after_amendment_of_not hamends]
      exact .inl hkept
  · rw [(update_exec_of_not hrow haccepts).1]
    exact .inl hkept

/-- **One change after the other loses nothing.** -/
theorem written_persists :
    ((Write.update viewer uid edit).Succeeds s →
        ∃ m ∈ (s.written [.update viewer uid edit, .update viewer' uid edit']).untimed? uid,
          Persists edit edit' m)
      ∧ ((Write.update viewer' uid edit').Succeeds (s.written [.update viewer uid edit]) →
        ∃ m ∈ (s.written [.update viewer uid edit, .update viewer' uid edit']).untimed? uid,
          Persists edit' edit m) := by
  constructor
  · intro h
    obtain ⟨row, -, hleft⟩ := h.untimed?
    obtain ⟨m, hm, huntimed⟩ := Option.map_eq_some_iff.mp hleft
    rcases untimed?_exec viewer' edit' hm with hsame | hchanged
    · exact ⟨m.untimed, hsame, huntimed ▸ persists_amended edit edit' row⟩
    · exact ⟨amended edit' m, hchanged, persists_amended_amended edit edit' huntimed⟩
  · intro h
    obtain ⟨row, -, hleft⟩ := h.untimed?
    exact ⟨amended edit' row, hleft, persists_amended edit' edit row⟩

/-- **Two changes of one memo at once lose nothing, unless both have read the row before either
writes.** Whatever the order of their steps, the memo is in the end, apart from its update time,
what one change after the other leaves, in one of the two orders, or, where either change succeeds
alone, what one of them alone leaves; all of these happen. One after the other, what a change sets
and the other does not mention stays. -/
theorem updates_together (s : State) (viewer viewer' : Viewer) (uid : String)
    (edit edit' : MemoEdit) :
    (∀ m, (∃ results t, Job.Interleaved [ExceptT.run (Write.update viewer uid edit).act,
          ExceptT.run (Write.update viewer' uid edit').act] s results t ∧ t.untimed? uid = m)
        ↔ Ends (.update viewer uid edit) (.update viewer' uid edit') uid s m)
      ∧ ((Write.update viewer uid edit).Succeeds s →
        ∃ m ∈ (s.written [.update viewer uid edit, .update viewer' uid edit']).untimed? uid,
          Persists edit edit' m)
      ∧ ((Write.update viewer' uid edit').Succeeds (s.written [.update viewer uid edit]) →
        ∃ m ∈ (s.written [.update viewer uid edit, .update viewer' uid edit']).untimed? uid,
          Persists edit' edit m) :=
  ⟨together_update_iff s viewer viewer' uid edit edit', written_persists⟩

/-- A server with one memo. -/
def noted : State :=
  tickingServer.written [.create (some 1) { content := "n" }]

/-- The uid of its memo. -/
def notedUid : String :=
  tickingServer.source.name 0 Limit.uidLength

/-- Pinned by one request while another changes its content, the memo may end up unpinned. -/
theorem updates_together_noted :
    ∃ results t, Job.Interleaved
        [ExceptT.run (Write.update (some 1) notedUid { pinned := some true }).act,
          ExceptT.run (Write.update (some 1) notedUid { content := some "m" }).act]
        noted results t
      ∧ (t.untimed? notedUid).map (fun m => (m.content, m.pinned)) = some ("m", false) := by
  have hends : Ends (.update (some 1) notedUid { pinned := some true })
      (.update (some 1) notedUid { content := some "m" }) notedUid noted
      ((noted.written [.update (some 1) notedUid { content := some "m" }]).untimed? notedUid) :=
    .onlySecond (by decide +kernel) (by decide +kernel) rfl
  obtain ⟨results, t, hruns, ht⟩ := ((updates_together noted (some 1) (some 1) notedUid
    { pinned := some true } { content := some "m" }).1 _).mpr hends
  refine ⟨results, t, hruns, ?_⟩
  rw [ht]
  decide +kernel

/-- What one request sets may be lost although the other does not mention it: no order of the two
leaves what they may leave at once. -/
theorem updates_together_lose :
    ¬ ∀ results t, Job.Interleaved
        [ExceptT.run (Write.update (some 1) notedUid { pinned := some true }).act,
          ExceptT.run (Write.update (some 1) notedUid { content := some "m" }).act]
        noted results t →
      t.untimed? notedUid = (noted.written
          [.update (some 1) notedUid { pinned := some true },
            .update (some 1) notedUid { content := some "m" }]).untimed? notedUid
        ∨ t.untimed? notedUid = (noted.written
          [.update (some 1) notedUid { content := some "m" },
            .update (some 1) notedUid { pinned := some true }]).untimed? notedUid := by
  intro hserial
  obtain ⟨t, htogether, ht⟩ := exists_together_of_succeeds
    (show (Write.update (some 1) notedUid { pinned := some true }).Succeeds noted by
      decide +kernel)
    (show (Write.update (some 1) notedUid { content := some "m" }).Succeeds noted by
      decide +kernel)
  obtain ⟨results, hruns⟩ := Job.together_iff.mp htogether
  have hlost := hserial results t hruns
  rw [ht] at hlost
  revert hlost
  decide +kernel

end

end SharedMemos.Server
