import SharedMemos.Server.Database.Attachments
import SharedMemos.Server.Database.Memos
import SharedMemos.Server.Database.Sessions
import SharedMemos.Server.Database.Settings
import Mathlib.Tactic.Common

/-!
# What statements on the database do

Each statement either leaves the tables as they are, or it does one thing to one table; which of the
two it tells by its result. A statement that fails leaves no database behind, so that nothing has to
be said about it.

## Main results

* `Database.run_bind_eq_ok` — statements one after the other
* `Database.run_allows` — a statement is carried out, passed over or fails
* one lemma `run_…` for each statement on memos, attachments and sessions
-/

namespace SharedMemos.Server.Database

open SharedMemos.Upload

variable {α β : Type} {d d' : Database}

/-! ### Statements one after the other -/

theorem run_bind_eq_ok {x : Transaction α} {f : α → Transaction β} {b : β} :
    (x >>= f).run d = .ok (b, d')
      ↔ ∃ a e, x.run d = .ok (a, e) ∧ (f a).run e = .ok (b, d') := by
  rw [StateT.run_bind]
  cases x.run d with
  | error e => simp [bind, Except.bind]
  | ok p =>
    obtain ⟨a, e⟩ := p
    simp [bind, Except.bind]

theorem run_bind_eq_error {x : Transaction α} {f : α → Transaction β} {e : Error} :
    (x >>= f).run d = .error e
      ↔ x.run d = .error e ∨ ∃ a d', x.run d = .ok (a, d') ∧ (f a).run d' = .error e := by
  rw [StateT.run_bind]
  cases x.run d with
  | error e' => simp [bind, Except.bind]
  | ok p =>
    obtain ⟨a, d'⟩ := p
    simp [bind, Except.bind]

/-- What follows on a choice between statements follows on each of them. -/
theorem run_ite_bind_eq_ok {c : Prop} [Decidable c] {x y : Transaction α} {f : α → Transaction β}
    {b : β} :
    (if c then x >>= f else y >>= f).run d = .ok (b, d')
      ↔ ∃ a e, (if c then x else y).run d = .ok (a, e) ∧ (f a).run e = .ok (b, d') := by
  rw [← run_bind_eq_ok]
  split
  · rfl
  · rfl

theorem run_pure_eq_ok {a b : α} :
    (pure a : Transaction α).run d = .ok (b, d') ↔ a = b ∧ d = d' := by
  rw [StateT.run_pure]
  simp [pure, Except.pure]

theorem run_throw_ne_ok {e : Error} {a : α} : (throw e : Transaction α).run d ≠ .ok (a, d') := by
  intro h
  have herror : (throw e : Transaction α).run d = .error e := rfl
  rw [herror] at h
  cases h

theorem run_get_eq_ok {e : Database} :
    (get : Transaction Database).run d = .ok (e, d') ↔ d = e ∧ d = d' := by
  rw [StateT.run_get]
  simp [pure, Except.pure]

theorem run_modify_eq_ok {f : Database → Database} :
    (modify f : Transaction PUnit).run d = .ok ((), d') ↔ f d = d' := by
  rw [StateT.run_modify]
  simp [pure, Except.pure]

theorem run_set_eq_ok {e : Database} :
    (set e : Transaction PUnit).run d = .ok ((), d') ↔ e = d' := by
  rw [StateT.run_set]
  simp [pure, Except.pure]

/-- A statement is carried out, passed over or fails, as it has been put. -/
theorem run_allows_eq_ok {table : Table} {writing : Writing} {isAllowed : Bool} :
    (allows table writing).run d = .ok (isAllowed, d')
      ↔ d' = d ∧ d.mishap? table writing = if isAllowed then none else some .passes := by
  rw [allows]
  rw [run_bind_eq_ok]
  simp only [run_get_eq_ok]
  constructor
  · rintro ⟨_, _, ⟨rfl, rfl⟩, h⟩
    cases hmishap : d.mishap? table writing with
    | none =>
      rw [hmishap] at h
      obtain ⟨rfl, rfl⟩ := run_pure_eq_ok.mp h
      exact ⟨rfl, rfl⟩
    | some mishap =>
      rw [hmishap] at h
      cases mishap with
      | fails => exact absurd h run_throw_ne_ok
      | passes =>
        obtain ⟨rfl, rfl⟩ := run_pure_eq_ok.mp h
        exact ⟨rfl, rfl⟩
  · rintro ⟨rfl, hmishap⟩
    refine ⟨d', d', ⟨rfl, rfl⟩, ?_⟩
    rw [hmishap]
    cases isAllowed <;> rfl

theorem run_allows_error {table : Table} {writing : Writing} {e : Error}
    (h : (allows table writing).run d = .error e) : e = failure := by
  rw [allows] at h
  rw [run_bind_eq_error] at h
  rcases h with h | ⟨_, _, hget, h⟩
  · cases h
  · split at h
    · cases h
    · cases h
    · cases h
      rfl

/-- Asking touches nothing, where it is asked at all. -/
theorem run_allows_if {c : Prop} [Decidable c] {table : Table} {writing : Writing}
    {isAllowed : Bool}
    (h : (if c then allows table writing else pure true).run d = .ok (isAllowed, d')) :
    d' = d := by
  split at h
  · exact (run_allows_eq_ok.mp h).1
  · exact (run_pure_eq_ok.mp h).2.symm

/-- A statement that has to write its row succeeds only if it is carried out. -/
theorem run_require_eq_ok {table : Table} {writing : Writing} :
    (require table writing).run d = .ok ((), d')
      ↔ d' = d ∧ d.mishap? table writing = none := by
  rw [require]
  rw [run_bind_eq_ok]
  constructor
  · rintro ⟨isAllowed, _, hallows, h⟩
    obtain ⟨rfl, hmishap⟩ := run_allows_eq_ok.mp hallows
    cases isAllowed with
    | false => exact absurd h run_throw_ne_ok
    | true => exact ⟨(run_pure_eq_ok.mp h).2.symm, hmishap⟩
  · rintro ⟨rfl, hmishap⟩
    exact ⟨true, d', run_allows_eq_ok.mpr ⟨rfl, hmishap⟩, rfl⟩

/-! ### Memos -/

/-- Adding a memo puts it in front, under the next number and with a uid of its own. -/
theorem run_insertMemo {m m' : Memo} (h : (insertMemo m).run d = .ok (m', d')) :
    (∀ row ∈ d.memos, row.uid ≠ m.uid)
      ∧ m' = { m with id := d.lastMemo + 1 }
      ∧ d' = { d with memos := storedMemo m' :: d.memos, lastMemo := m'.id } := by
  rw [insertMemo] at h
  rw [run_bind_eq_ok] at h
  obtain ⟨_, _, hrequire, h⟩ := h
  obtain ⟨rfl, -⟩ := run_require_eq_ok.mp hrequire
  rw [run_bind_eq_ok] at h
  obtain ⟨_, _, hget, h⟩ := h
  obtain ⟨rfl, rfl⟩ := run_get_eq_ok.mp hget
  split at h
  · exact absurd h run_throw_ne_ok
  · rename_i hfree
    rw [run_bind_eq_ok] at h
    obtain ⟨_, _, hset, h⟩ := h
    obtain ⟨rfl, rfl⟩ := run_pure_eq_ok.mp h
    refine ⟨fun row hrow huid => hfree ?_, rfl, (run_set_eq_ok.mp hset).symm⟩
    exact List.any_eq_true.mpr ⟨row, hrow, beq_iff_eq.mpr huid⟩

/-- Where statements on recipients work, all of them are kept. -/
theorem run_filterAuxM_allows {table : Table} {writing : Writing}
    (hworks : d.mishap? table writing = none) (xs kept : List α) :
    (xs.filterAuxM (fun _ => allows table writing) kept).run d = .ok (xs.reverse ++ kept, d) := by
  have hallows : (allows table writing).run d = .ok (true, d) :=
    run_allows_eq_ok.mpr ⟨rfl, hworks⟩
  induction xs generalizing kept with
  | nil => rfl
  | cons x xs ih =>
    rw [List.filterAuxM]
    refine run_bind_eq_ok.mpr ⟨true, d, hallows, ?_⟩
    rw [cond_true, ih, List.reverse_cons, List.append_assoc]
    rfl

/-- Recipients may be passed over, but nothing is written for them here. -/
theorem run_filterAuxM_allows_eq {table : Table} {writing : Writing} {xs kept ys : List α}
    (h : (xs.filterAuxM (fun _ => allows table writing) kept).run d = .ok (ys, d')) : d' = d := by
  induction xs generalizing kept with
  | nil => exact (run_pure_eq_ok.mp h).2.symm
  | cons x xs ih =>
    rw [List.filterAuxM] at h
    rw [run_bind_eq_ok] at h
    obtain ⟨isAllowed, _, hallows, h⟩ := h
    obtain ⟨rfl, -⟩ := run_allows_eq_ok.mp hallows
    exact ih h

/-- Recording who lost a memo from view puts an event in front. It has all recipients, where
statements on recipients work. -/
theorem run_insertEvent {m : Memo} {kind : ChangeKind} {time : Instant} {recipients : List UserId}
    (h : (insertEvent m kind time recipients).run d = .ok ((), d')) :
    ∃ kept, (d.mishap? .recipient .insert = none → kept = recipients)
      ∧ d' = { d with
        events := ⟨d.lastEvent + 1, m.id, m.name, m.creator, kind, time, kept⟩ :: d.events
        lastEvent := d.lastEvent + 1 } := by
  rw [insertEvent] at h
  rw [run_bind_eq_ok] at h
  obtain ⟨_, _, hrequire, h⟩ := h
  obtain ⟨rfl, -⟩ := run_require_eq_ok.mp hrequire
  rw [run_bind_eq_ok] at h
  obtain ⟨kept, e, hkept, h⟩ := h
  rw [List.filterM] at hkept
  rw [run_bind_eq_ok] at hkept
  obtain ⟨reversed, _, hall, hkept⟩ := hkept
  obtain ⟨rfl, rfl⟩ := run_pure_eq_ok.mp hkept
  obtain rfl := run_filterAuxM_allows_eq hall
  refine ⟨reversed.reverse, fun hworks => ?_, (run_modify_eq_ok.mp h).symm⟩
  rw [run_filterAuxM_allows hworks] at hall
  cases hall
  rw [List.append_nil, List.reverse_reverse]

/-- The row of a memo with new values. The number, the uid, the creator and the time of creation
are not written. -/
def rewritten (m : Memo) (time : Instant) (row : Memo) : Memo :=
  if row.id == m.id then
    { storedMemo { m with updated := time } with
      uid := row.uid, creator := row.creator, created := row.created }
  else row

/-- Changing a memo writes the rows with its number anew, and records who lost it from view. -/
theorem run_updateMemo {m m' : Memo} {revoked : List UserId} {time : Instant}
    (h : (updateMemo m revoked time).run d = .ok (m', d')) :
    ∃ kept, (d.mishap? .recipient .insert = none → kept = revoked)
      ∧ m' = { m with updated := time }
      ∧ d' = if revoked.isEmpty then { d with memos := d.memos.map (rewritten m time) }
        else { d with
          memos := d.memos.map (rewritten m time)
          events := ⟨d.lastEvent + 1, m.id, m.name, m.creator, .revoked, time, kept⟩ :: d.events
          lastEvent := d.lastEvent + 1 } := by
  rw [updateMemo] at h
  dsimp only at h
  rw [run_bind_eq_ok] at h
  obtain ⟨_, _, hget, h⟩ := h
  obtain ⟨rfl, rfl⟩ := run_get_eq_ok.mp hget
  split at h
  · exact absurd h run_throw_ne_ok
  · rw [run_bind_eq_ok] at h
    obtain ⟨isAllowed, _, hallows, h⟩ := h
    obtain ⟨rfl, -⟩ := run_allows_eq_ok.mp hallows
    split at h
    · exact absurd h run_throw_ne_ok
    · rw [run_bind_eq_ok] at h
      obtain ⟨_, e, hmodify, h⟩ := h
      obtain rfl := run_modify_eq_ok.mp hmodify
      split at h
      · rename_i hsome
        rw [run_bind_eq_ok] at h
        obtain ⟨_, e, hevent, h⟩ := h
        obtain ⟨rfl, rfl⟩ := run_pure_eq_ok.mp h
        obtain ⟨kept, hkept, hd'⟩ := run_insertEvent hevent
        refine ⟨kept, hkept, rfl, ?_⟩
        rw [if_neg (by simpa using hsome)]
        exact hd'
      · rename_i hnone
        obtain ⟨rfl, rfl⟩ := run_pure_eq_ok.mp h
        refine ⟨revoked, fun _ => rfl, rfl, ?_⟩
        rw [if_pos (by simpa using hnone)]
        rfl

/-- An attachment after a memo has been deleted at a time. -/
def unlinked (m : Memo) (time : Instant) (a : Attachment) : Attachment :=
  if a.memo == some m.id then { a with memo := none, updated := time } else a

/-- Removing a memo takes the rows with its number out, unlinks its attachments, and records who
lost it from view. -/
theorem run_deleteMemo {m : Memo} {recipients : List UserId} {time : Instant}
    (h : (deleteMemo m recipients time).run d = .ok ((), d')) :
    ∃ kept, (d.mishap? .recipient .insert = none → kept = recipients)
      ∧ d' = { d with
        memos := d.memos.filter (·.id != m.id)
        events := ⟨d.lastEvent + 1, m.id, m.name, m.creator, .deleted, time, kept⟩ :: d.events
        lastEvent := d.lastEvent + 1
        attachments := d.attachments.map (unlinked m time) } := by
  rw [deleteMemo] at h
  dsimp only at h
  rw [run_bind_eq_ok] at h
  obtain ⟨_, e, hevent, h⟩ := h
  obtain ⟨kept, hkept, rfl⟩ := run_insertEvent hevent
  refine ⟨kept, hkept, ?_⟩
  rw [run_bind_eq_ok] at h
  obtain ⟨_, _, hget, h⟩ := h
  obtain ⟨rfl, rfl⟩ := run_get_eq_ok.mp hget
  rw [run_ite_bind_eq_ok] at h
  obtain ⟨isUnlinked, e, hlinks, h⟩ := h
  obtain rfl := run_allows_if hlinks
  cases isUnlinked with
  | false =>
    -- the statement then fails, whether or not the memo is there
    rw [if_neg Bool.false_ne_true] at h
    rw [run_bind_eq_ok] at h
    obtain ⟨_, _, -, h⟩ := h
    split at h
    · exact absurd h run_throw_ne_ok
    · rw [run_bind_eq_ok] at h
      obtain ⟨isAllowed, _, -, h⟩ := h
      split at h
      · exact absurd h run_throw_ne_ok
      · exact absurd h run_throw_ne_ok
  | true =>
    rw [if_pos rfl] at h
    rw [run_bind_eq_ok] at h
    obtain ⟨_, e, hmodify, h⟩ := h
    obtain rfl := run_modify_eq_ok.mp hmodify
    rw [run_bind_eq_ok] at h
    obtain ⟨_, _, hget, h⟩ := h
    obtain ⟨rfl, rfl⟩ := run_get_eq_ok.mp hget
    split at h
    · exact absurd h run_throw_ne_ok
    · rw [run_bind_eq_ok] at h
      obtain ⟨isAllowed, _, hallows, h⟩ := h
      obtain ⟨rfl, -⟩ := run_allows_eq_ok.mp hallows
      split at h
      · exact absurd h run_throw_ne_ok
      · exact (run_modify_eq_ok.mp h).symm

/-! ### Attachments -/

/-- Adding an attachment puts it in front, under the next number; its name is a new one. -/
theorem run_insertAttachment {a b : Attachment} (h : (insertAttachment a).run d = .ok (b, d')) :
    b = { a with id := d.lastAttachment + 1 }
      ∧ d' = { d with attachments := b :: d.attachments, lastAttachment := b.id }
      ∧ ∀ c ∈ d.attachments, c.uid ≠ a.uid := by
  rw [insertAttachment, require] at h
  rw [run_bind_eq_ok] at h
  obtain ⟨_, _, hrequire, h⟩ := h
  rw [run_bind_eq_ok] at hrequire
  obtain ⟨isAllowed, _, hallows, hrequire⟩ := hrequire
  obtain ⟨rfl, -⟩ := run_allows_eq_ok.mp hallows
  cases isAllowed with
  | false => exact absurd hrequire run_throw_ne_ok
  | true =>
    obtain ⟨-, rfl⟩ := run_pure_eq_ok.mp hrequire
    rw [run_bind_eq_ok] at h
    obtain ⟨_, _, hget, h⟩ := h
    obtain ⟨rfl, rfl⟩ := run_get_eq_ok.mp hget
    split at h
    · exact absurd h run_throw_ne_ok
    · rename_i hnew
      rw [run_bind_eq_ok] at h
      obtain ⟨_, _, hset, h⟩ := h
      obtain ⟨rfl, rfl⟩ := run_pure_eq_ok.mp h
      refine ⟨rfl, (run_set_eq_ok.mp hset).symm, fun c hc hsame => hnew ?_⟩
      rw [Bool.or_eq_true, List.any_eq_true]
      exact .inl ⟨c, hc, beq_iff_eq.mpr hsame⟩

/-- Changing an attachment changes the rows with its number, or nothing. -/
theorem run_changeAttachment {id : Int} {change : Attachment → Attachment}
    (h : (changeAttachment id change).run d = .ok ((), d')) :
    d' = d ∨ d' = { d with
      attachments := d.attachments.map fun a => if a.id == id then change a else a } := by
  rw [changeAttachment] at h
  rw [run_bind_eq_ok] at h
  obtain ⟨_, _, hget, h⟩ := h
  obtain ⟨rfl, rfl⟩ := run_get_eq_ok.mp hget
  split at h
  · rw [run_bind_eq_ok] at h
    obtain ⟨isAllowed, _, hallows, h⟩ := h
    obtain ⟨rfl, -⟩ := run_allows_eq_ok.mp hallows
    split at h
    · exact .inr (run_modify_eq_ok.mp h).symm
    · exact .inl (run_pure_eq_ok.mp h).2.symm
  · exact .inl (run_pure_eq_ok.mp h).2.symm

/-- Removing an attachment takes the rows with its number out, and it tells whether it did. -/
theorem run_deleteAttachment {id : Int} {isDone : Bool}
    (h : (deleteAttachment id).run d = .ok (isDone, d')) :
    d' = if isDone then { d with attachments := d.attachments.filter (·.id != id) } else d := by
  rw [deleteAttachment] at h
  rw [run_bind_eq_ok] at h
  obtain ⟨_, _, hget, h⟩ := h
  obtain ⟨rfl, rfl⟩ := run_get_eq_ok.mp hget
  split at h
  · obtain ⟨rfl, rfl⟩ := run_pure_eq_ok.mp h
    rfl
  · rw [run_bind_eq_ok] at h
    obtain ⟨isAllowed, _, hallows, h⟩ := h
    obtain ⟨rfl, -⟩ := run_allows_eq_ok.mp hallows
    split at h
    · obtain ⟨rfl, rfl⟩ := run_pure_eq_ok.mp h
      rfl
    · rw [run_bind_eq_ok] at h
      obtain ⟨_, _, hmodify, h⟩ := h
      obtain ⟨rfl, rfl⟩ := run_pure_eq_ok.mp h
      exact (run_modify_eq_ok.mp hmodify).symm

/-! ### Sessions -/

/-- Adding a session puts it in front of others with other names, unless it is passed over. -/
theorem run_insertSession {s : Session} (h : (insertSession s).run d = .ok ((), d')) :
    (d.mishap? .session .insert = some .passes ∧ d' = d)
      ∨ (d.session? s.id = none ∧ d' = { d with sessions := s :: d.sessions }) := by
  rw [insertSession] at h
  rw [run_bind_eq_ok] at h
  obtain ⟨isAllowed, _, hallows, h⟩ := h
  obtain ⟨rfl, hmishap⟩ := run_allows_eq_ok.mp hallows
  split at h
  · rw [run_bind_eq_ok] at h
    obtain ⟨_, _, hget, h⟩ := h
    obtain ⟨rfl, rfl⟩ := run_get_eq_ok.mp hget
    split at h
    · exact absurd h run_throw_ne_ok
    · rename_i hfree
      refine .inr ⟨?_, (run_set_eq_ok.mp h).symm⟩
      rw [session?, List.find?_eq_none]
      exact fun row hrow hid => hfree (List.any_eq_true.mpr ⟨row, hrow, hid⟩)
  · rename_i hpassed
    rw [if_neg hpassed] at hmishap
    exact .inl ⟨hmishap, (run_pure_eq_ok.mp h).2.symm⟩

/-- Changing a session changes the rows that are meant, of which there is one, or nothing. -/
theorem run_changeSession {id : String} {condition : Session → Bool} {change : Session → Session}
    {isDone : Bool} (h : (changeSession id condition change).run d = .ok (isDone, d')) :
    (isDone = false ∧ d' = d)
      ∨ (isDone = true ∧ d' = { d with
        sessions := d.sessions.map fun s =>
          if s.id == id && condition s then change s else s }) := by
  rw [changeSession] at h
  dsimp only at h
  rw [run_bind_eq_ok] at h
  obtain ⟨_, _, hget, h⟩ := h
  obtain ⟨rfl, rfl⟩ := run_get_eq_ok.mp hget
  split at h
  · obtain ⟨rfl, rfl⟩ := run_pure_eq_ok.mp h
    exact .inl ⟨rfl, rfl⟩
  · rw [run_bind_eq_ok] at h
    obtain ⟨isAllowed, _, hallows, h⟩ := h
    obtain ⟨rfl, -⟩ := run_allows_eq_ok.mp hallows
    split at h
    · obtain ⟨rfl, rfl⟩ := run_pure_eq_ok.mp h
      exact .inl ⟨rfl, rfl⟩
    · rw [run_bind_eq_ok] at h
      obtain ⟨_, _, hmodify, h⟩ := h
      obtain ⟨rfl, rfl⟩ := run_pure_eq_ok.mp h
      exact .inr ⟨rfl, (run_modify_eq_ok.mp hmodify).symm⟩

/-- The only complaint is that the statement failed. -/
theorem run_changeSession_error {id : String} {condition : Session → Bool}
    {change : Session → Session} {e : Error}
    (h : (changeSession id condition change).run d = .error e) : e = failure := by
  rw [changeSession] at h
  dsimp only at h
  rw [run_bind_eq_error] at h
  rcases h with h | ⟨_, _, -, h⟩
  · cases h
  · split at h
    · cases h
    · rw [run_bind_eq_error] at h
      rcases h with h | ⟨_, _, -, h⟩
      · exact run_allows_error h
      · split at h
        · cases h
        · rw [run_bind_eq_error] at h
          rcases h with h | ⟨_, _, -, h⟩
          · cases h
          · cases h

/-- Removing a session takes the rows with its name out, and it tells whether it did. -/
theorem run_deleteSession {id : String} {isDone : Bool}
    (h : (deleteSession id).run d = .ok (isDone, d')) :
    d' = if isDone then { d with sessions := d.sessions.filter (·.id != id) } else d := by
  rw [deleteSession] at h
  rw [run_bind_eq_ok] at h
  obtain ⟨_, _, hget, h⟩ := h
  obtain ⟨rfl, rfl⟩ := run_get_eq_ok.mp hget
  split at h
  · obtain ⟨rfl, rfl⟩ := run_pure_eq_ok.mp h
    rfl
  · rw [run_bind_eq_ok] at h
    obtain ⟨isAllowed, _, hallows, h⟩ := h
    obtain ⟨rfl, -⟩ := run_allows_eq_ok.mp hallows
    split at h
    · obtain ⟨rfl, rfl⟩ := run_pure_eq_ok.mp h
      rfl
    · rw [run_bind_eq_ok] at h
      obtain ⟨_, _, hmodify, h⟩ := h
      obtain ⟨rfl, rfl⟩ := run_pure_eq_ok.mp h
      exact (run_modify_eq_ok.mp hmodify).symm

/-! ### Settings -/

/-- Writing a setting down for the first time touches the settings only. -/
theorem run_initSetting {name text : String} (h : (initSetting name text).run d = .ok ((), d')) :
    d' = { d with settings := d'.settings } := by
  rw [initSetting] at h
  rw [run_bind_eq_ok] at h
  obtain ⟨isAllowed, _, hallows, h⟩ := h
  obtain ⟨rfl, -⟩ := run_allows_eq_ok.mp hallows
  split at h
  · rw [run_bind_eq_ok] at h
    obtain ⟨_, _, hget, h⟩ := h
    obtain ⟨rfl, rfl⟩ := run_get_eq_ok.mp hget
    split at h
    · obtain rfl := run_modify_eq_ok.mp h
      rfl
    · obtain ⟨-, rfl⟩ := run_pure_eq_ok.mp h
      rfl
  · obtain ⟨-, rfl⟩ := run_pure_eq_ok.mp h
    rfl

end SharedMemos.Server.Database
