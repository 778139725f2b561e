import SharedMemos.Proofs.Server.Memos.Writes
import SharedMemos.Proofs.Server.Together

/-!
# The transaction of a change

A change of a memo is worked out from the row that the request has read, and is then written as a
whole row. Between the two the row may have changed. The transaction does not mind: it overwrites
the row with what was made of the row that was read, as far as it is ever written
(`untimed?_after_after`), and whether it succeeds does not depend on what another change has
written (`amends_after_amendment`).

The update time is left out of all this: it tells the runs apart that the clock tells apart.

## Main definitions

* `Database.untimed?` — a memo apart from its update time
* `amendment` — the transaction of a change, and `amended`, the row it makes
* `Database.Amends` — the statements of a change work
* `Persists` — what one change sets and another does not mention is there

## Main results

* `exists_run_updateMemo` — a change succeeds where its statements work
* `untimed?_after_after` — the change that is written last stays
* `persists_amended_amended` — a change that is made of the changed row loses nothing
-/

namespace SharedMemos

/-- A memo apart from its update time. -/
def Memo.untimed (m : Memo) : Memo :=
  { m with updated := .epoch }

namespace Server

open Database

/-- The memo with a uid, apart from its update time. -/
def Database.untimed? (d : Database) (uid : String) : Option Memo :=
  (d.memoByUid? uid).map Memo.untimed

/-- The users who are told of a change, since they lose their grant. -/
def revokedBy (edit : MemoEdit) (row : Memo) : List UserId :=
  (Tag.revoked row.tags (edit.apply row).tags).filter (· != row.creator)

/-- The transaction of a change of the row that has been read. -/
def amendment (edit : MemoEdit) (row : Memo) (time : Instant) : Transaction Memo :=
  Database.updateMemo (edit.apply row) (revokedBy edit row) time

/-- The row that a change makes out of another, apart from its update time. -/
def amended (edit : MemoEdit) (row : Memo) : Memo :=
  (storedMemo (edit.apply row)).untimed

/-! ### Statements that work -/

namespace Database

variable {d d' : Database} {edit : MemoEdit} {row m : Memo} {time : Instant} {uid : String}

/-- The statements of a change of a memo work: there is a row, it may be written, and so may the
record of who is to be told. -/
structure Amends (d : Database) (id : Int) (told : List UserId) : Prop where
  row : d.memos.any (·.id == id)
  update : d.mishap? .memo .update = none
  event : told ≠ [] → d.mishap? .event .insert = none ∧ d.mishap? .recipient .insert ≠ some .fails

theorem exists_run_allows {table : Table} {writing : Writing} :
    (∃ isAllowed d', (allows table writing).run d = .ok (isAllowed, d'))
      ↔ d.mishap? table writing ≠ some .fails := by
  simp only [run_allows_eq_ok]
  constructor
  · rintro ⟨isAllowed, _, -, hmishap⟩ hfails
    rw [hfails] at hmishap
    cases isAllowed <;> cases hmishap
  · intro hfails
    rcases hmishap : d.mishap? table writing with _ | _ | _
    · exact ⟨true, d, rfl, rfl⟩
    · exact absurd hmishap hfails
    · exact ⟨false, d, rfl, rfl⟩

/-- Where a statement on a row for each member of a list does not fail, the list gets through. -/
theorem exists_run_filterAuxM {α : Type} {table : Table} {writing : Writing} (xs kept : List α) :
    (∃ ys d', (xs.filterAuxM (fun _ => allows table writing) kept).run d = .ok (ys, d'))
      ↔ (xs ≠ [] → d.mishap? table writing ≠ some .fails) := by
  rw [← exists_run_allows]
  induction xs generalizing kept with
  | nil => exact ⟨fun _ h => absurd rfl h, fun _ => ⟨kept, d, rfl⟩⟩
  | cons x xs ih =>
    rw [List.filterAuxM]
    constructor
    · rintro ⟨ys, d', h⟩ -
      obtain ⟨isAllowed, _, hallows, -⟩ := run_bind_eq_ok.mp h
      exact ⟨isAllowed, _, hallows⟩
    · intro h
      obtain ⟨isAllowed, e, hallows⟩ := h (List.cons_ne_nil x xs)
      obtain ⟨rfl, -⟩ := run_allows_eq_ok.mp hallows
      obtain ⟨ys, d', hrest⟩ := (ih (bif isAllowed then x :: kept else kept)).mpr
        fun _ => ⟨isAllowed, _, hallows⟩
      exact ⟨ys, d', run_bind_eq_ok.mpr ⟨isAllowed, _, hallows, hrest⟩⟩

theorem exists_run_insertEvent {kind : ChangeKind} {recipients : List UserId}
    (hsome : recipients ≠ []) :
    (∃ d', (insertEvent m kind time recipients).run d = .ok ((), d'))
      ↔ d.mishap? .event .insert = none ∧ d.mishap? .recipient .insert ≠ some .fails := by
  rw [insertEvent]
  constructor
  · rintro ⟨d', h⟩
    obtain ⟨_, _, hrequire, h⟩ := run_bind_eq_ok.mp h
    obtain ⟨hsame, hevent⟩ := run_require_eq_ok.mp hrequire
    rw [hsame] at h
    obtain ⟨_, _, hkept, -⟩ := run_bind_eq_ok.mp h
    have hfilter : (do
        let reversed ← recipients.filterAuxM (fun _ => allows .recipient .insert) []
        pure reversed.reverse : Transaction (List UserId)).run d = .ok (_, _) := hkept
    obtain ⟨ys, e, hall, -⟩ := run_bind_eq_ok.mp hfilter
    exact ⟨hevent, (exists_run_filterAuxM recipients []).mp ⟨ys, e, hall⟩ hsome⟩
  · rintro ⟨hevent, hrecipient⟩
    obtain ⟨ys, e, hall⟩ := (exists_run_filterAuxM recipients []).mpr fun _ => hrecipient
    have hkept : (recipients.filterM fun _ => allows .recipient .insert).run d
        = .ok (ys.reverse, e) :=
      run_bind_eq_ok.mpr ⟨ys, e, hall, rfl⟩
    exact ⟨_, run_bind_eq_ok.mpr ⟨(), d, run_require_eq_ok.mpr ⟨rfl, hevent⟩,
      run_bind_eq_ok.mpr ⟨_, e, hkept, rfl⟩⟩⟩

/-- **A change of a memo succeeds where its statements work.** -/
theorem exists_run_updateMemo {told : List UserId} :
    (∃ m' d', (updateMemo m told time).run d = .ok (m', d')) ↔ d.Amends m.id told := by
  rw [updateMemo]
  dsimp only
  constructor
  · rintro ⟨m', d', h⟩
    obtain ⟨_, _, hget, h⟩ := run_bind_eq_ok.mp h
    obtain ⟨rfl, rfl⟩ := run_get_eq_ok.mp hget
    split at h
    · exact absurd h run_throw_ne_ok
    rename_i hrow
    obtain ⟨isAllowed, _, hallows, h⟩ := run_bind_eq_ok.mp h
    obtain ⟨rfl, hupdate⟩ := run_allows_eq_ok.mp hallows
    cases isAllowed with
    | false => exact absurd h run_throw_ne_ok
    | true =>
      refine ⟨by simpa using hrow, hupdate, fun hsome => ?_⟩
      obtain ⟨_, e, hmodify, h⟩ := run_bind_eq_ok.mp h
      obtain rfl := run_modify_eq_ok.mp hmodify
      rw [if_pos (by simpa using hsome)] at h
      obtain ⟨_, _, hevent, -⟩ := run_bind_eq_ok.mp h
      have hworks := (exists_run_insertEvent hsome).mp ⟨_, hevent⟩
      exact hworks
  · intro h
    rcases hrun : StateT.run _ d with e | ⟨m', d'⟩
    · exfalso
      rcases run_bind_eq_error.mp hrun with hget | ⟨_, _, hget, hrun⟩
      · cases hget
      obtain ⟨rfl, rfl⟩ := run_get_eq_ok.mp hget
      have hrow : ¬ (!d.memos.any (·.id == m.id)) = true := by
        rw [h.row]
        exact Bool.false_ne_true
      rw [if_neg hrow] at hrun
      have hallows : (allows .memo .update).run d = .ok (true, d) :=
        run_allows_eq_ok.mpr ⟨rfl, h.update⟩
      rcases run_bind_eq_error.mp hrun with hnot | ⟨isAllowed, _, hallowed, hrun⟩
      · rw [hallows] at hnot
        cases hnot
      rw [hallows] at hallowed
      cases hallowed
      rcases run_bind_eq_error.mp hrun with hnot | ⟨_, e', hmodify, hrun⟩
      · cases hnot
      obtain rfl := run_modify_eq_ok.mp hmodify
      split at hrun
      · rename_i hsome
        have hsome : told ≠ [] := by simpa using hsome
        rcases run_bind_eq_error.mp hrun with hnot | ⟨_, _, -, hrun⟩
        · obtain ⟨e', hevent⟩ := (exists_run_insertEvent (d := { d with
            memos := d.memos.map (rewritten m time) }) hsome).mpr (h.event hsome)
          cases hnot.symm.trans hevent
        · cases hrun
      · cases hrun
    · exact ⟨m', d', rfl⟩

@[simp] theorem rewritten_id : (rewritten m time row).id = row.id := by
  rw [rewritten]
  split
  · rename_i hid
    exact (beq_iff_eq.mp hid).symm
  · rfl

@[simp] theorem rewritten_uid : (rewritten m time row).uid = row.uid := by
  rw [rewritten]
  split <;> rfl

/-- A row that is written anew is found by its uid as before. -/
theorem memoByUid?_map_rewritten (h : d'.memos = d.memos.map (rewritten m time)) (uid : String) :
    d'.memoByUid? uid = (d.memoByUid? uid).map (rewritten m time) := by
  rw [memoByUid?, memoByUid?, h, List.find?_map]
  congr 2
  funext r
  simp

/-- What a change whose statements work leaves of the memos. -/
theorem after_amendment (h : d.Amends row.id (revokedBy edit row)) (time : Instant) :
    (after (amendment edit row time) d).memos = d.memos.map (rewritten (edit.apply row) time)
      ∧ (after (amendment edit row time) d).mishaps = d.mishaps := by
  have hsucceeds : ∃ m' d', (amendment edit row time).run d = .ok (m', d') :=
    exists_run_updateMemo.mpr h
  obtain ⟨m', d', hrun⟩ := hsucceeds
  rw [after, hrun]
  obtain ⟨kept, -, -, hd'⟩ := run_updateMemo hrun
  show d'.memos = _ ∧ d'.mishaps = _
  rw [hd']
  split <;> exact ⟨rfl, rfl⟩

/-- A change whose statements do not work leaves everything. -/
theorem after_amendment_of_not (h : ¬ d.Amends row.id (revokedBy edit row)) (time : Instant) :
    after (amendment edit row time) d = d := by
  rw [after]
  rcases hrun : (amendment edit row time).run d with e | ⟨m', d'⟩
  · rfl
  · exact absurd (exists_run_updateMemo.mp ⟨m', d', hrun⟩) h

/-- The numbers of memos and the mishaps stay, so that the same changes work. -/
theorem amends_after_amendment (edit : MemoEdit) (row : Memo) (time : Instant) {id : Int}
    {told : List UserId} :
    (after (amendment edit row time) d).Amends id told ↔ d.Amends id told := by
  by_cases h : d.Amends row.id (revokedBy edit row)
  · obtain ⟨hmemos, hmishaps⟩ := after_amendment h time
    have hrows : (after (amendment edit row time) d).memos.any (·.id == id)
        = d.memos.any (·.id == id) := by
      rw [hmemos, List.any_map]
      congr 1
      funext r
      simp
    have hmishap : (after (amendment edit row time) d).mishap? = d.mishap? := by
      funext table writing
      rw [mishap?, mishap?, hmishaps]
    constructor
    · rintro ⟨hrow, hupdate, hevent⟩
      rw [hrows] at hrow
      rw [hmishap] at hupdate hevent
      exact ⟨hrow, hupdate, hevent⟩
    · rintro ⟨hrow, hupdate, hevent⟩
      refine ⟨?_, ?_, ?_⟩
      · rwa [hrows]
      · rwa [hmishap]
      · rwa [hmishap]
  · rw [after_amendment_of_not h]

/-- A row that is written anew keeps what is never written. -/
theorem rewritten_apply (edit : MemoEdit) (time : Instant) (row : Memo) :
    rewritten (edit.apply row) time row = { storedMemo (edit.apply row) with updated := time } :=
  rewritten_self rfl

/-- The memo after a change that works is the one that the change makes of the row. -/
theorem untimed?_after (hrow : d.memoByUid? uid = some row)
    (h : d.Amends row.id (revokedBy edit row)) (time : Instant) :
    (after (amendment edit row time) d).untimed? uid = some (amended edit row) := by
  rw [untimed?, memoByUid?_map_rewritten (after_amendment h time).1, hrow]
  rw [Option.map_some, rewritten_apply]
  rfl

/-- The same change, carried out on the same row at different times. -/
theorem untimed?_after_congr (hrow : d.memoByUid? uid = some row)
    (time time' : Instant) :
    (after (amendment edit row time) d).untimed? uid
      = (after (amendment edit row time') d).untimed? uid := by
  by_cases h : d.Amends row.id (revokedBy edit row)
  · rw [untimed?_after hrow h, untimed?_after hrow h]
  · rw [after_amendment_of_not h, after_amendment_of_not h]

/-- It does not matter what else has been made of the row after it was read. -/
theorem untimed?_after_after {other : MemoEdit} (hrow : d.memoByUid? uid = some row)
    (h : d.Amends row.id (revokedBy edit row)) (time time' : Instant) :
    (after (amendment edit row time) (after (amendment other row time') d)).untimed? uid
      = some (amended edit row) := by
  by_cases hother : d.Amends row.id (revokedBy other row)
  · have hfound : (after (amendment other row time') d).memoByUid? uid
        = some { storedMemo (other.apply row) with updated := time' } := by
      rw [memoByUid?_map_rewritten (after_amendment hother time').1, hrow]
      rw [Option.map_some, rewritten_apply]
    have hmemos := (after_amendment ((amends_after_amendment other row time').mpr h) time).1
    have hagain : rewritten (edit.apply row) time
        { storedMemo (other.apply row) with updated := time' }
          = { storedMemo (edit.apply row) with updated := time } := rewritten_self rfl
    rw [untimed?, memoByUid?_map_rewritten hmemos, hfound, Option.map_some, hagain]
    rfl
  · rw [after_amendment_of_not hother]
    exact untimed?_after hrow h time

end Database

/-! ### What a change sets -/

/-- What one change sets and another does not mention is there. A location is there as it is read
back from its row, once or twice. -/
structure Persists (edit other : MemoEdit) (m : Memo) : Prop where
  content : ∀ c ∈ edit.content, other.content = none → m.content = c
  visibility : ∀ v ∈ edit.visibility, other.visibility = none → m.visibility = v
  state : ∀ s ∈ edit.state, other.state = none → m.state = s
  pinned : ∀ p ∈ edit.pinned, other.pinned = none → m.pinned = p
  tags : ∀ tags ∈ edit.tags, other.tags = none → m.tags = Tag.normalize tags
  property : ∀ c ∈ edit.content, other.content = none → m.property = .ofContent c
  location : ∀ l ∈ edit.location, other.location = none →
    m.location = l.map Location.stored ∨ m.location = (l.map Location.stored).map Location.stored

theorem persists_amended (edit other : MemoEdit) (row : Memo) :
    Persists edit other (amended edit row) where
  content c hc _ := show edit.content.getD row.content = c by rw [hc, Option.getD_some]
  visibility v hv _ := show edit.visibility.getD row.visibility = v by rw [hv, Option.getD_some]
  state s hs _ := show edit.state.getD row.state = s by rw [hs, Option.getD_some]
  pinned p hp _ := show edit.pinned.getD row.pinned = p by rw [hp, Option.getD_some]
  tags tags htags _ := by
    show (edit.tags.map Tag.normalize).getD row.tags = _
    rw [htags, Option.map_some, Option.getD_some]
  property c hc _ := by
    show (edit.content.map Property.ofContent).getD row.property = _
    rw [hc, Option.map_some, Option.getD_some]
  location l hl _ := by
    left
    show (edit.location.getD row.location).map Location.stored = _
    rw [hl, Option.getD_some]

/-- A change that does not mention what another has set leaves it there. -/
theorem persists_amended_amended (edit other : MemoEdit) {row m : Memo}
    (hm : m.untimed = amended edit row) : Persists edit other (amended other m) := by
  have hset := persists_amended edit other row
  rw [← hm] at hset
  constructor
  case location =>
    intro l hl hnone
    right
    have hm : m.location = (edit.location.getD row.location).map Location.stored :=
      congrArg Memo.location hm
    show (other.location.getD m.location).map Location.stored = _
    rw [hnone, Option.getD_none, hm, hl, Option.getD_some]
  case content =>
    intro c hc hnone
    show other.content.getD m.content = c
    rw [hnone, Option.getD_none]
    exact hset.content c hc hnone
  case visibility =>
    intro v hv hnone
    show other.visibility.getD m.visibility = v
    rw [hnone, Option.getD_none]
    exact hset.visibility v hv hnone
  case state =>
    intro s hs hnone
    show other.state.getD m.state = s
    rw [hnone, Option.getD_none]
    exact hset.state s hs hnone
  case pinned =>
    intro p hp hnone
    show other.pinned.getD m.pinned = p
    rw [hnone, Option.getD_none]
    exact hset.pinned p hp hnone
  case tags =>
    intro tags htags hnone
    show (other.tags.map Tag.normalize).getD m.tags = _
    rw [hnone, Option.map_none, Option.getD_none]
    exact hset.tags tags htags hnone
  case property =>
    intro c hc hnone
    show (other.content.map Property.ofContent).getD m.property = _
    rw [hnone, Option.map_none, Option.getD_none]
    exact hset.property c hc hnone

end Server

end SharedMemos
