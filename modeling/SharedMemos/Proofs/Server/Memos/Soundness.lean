import SharedMemos.Proofs.Memo.Location
import SharedMemos.Proofs.Memo.Normal
import SharedMemos.Proofs.Server.Memos.Overlaps
import SharedMemos.Proofs.Server.Memos.Removals
import SharedMemos.Proofs.Server.Memos.Stamps

/-!
# What holds of every memo

A memo is made in one place and changed field by field in another, and queries rely on what both
keep: tags in their normal form, flags that follow the content, a location on the globe, and times
in order (`Memo.IsSound`). A request that fails leaves the database. A request that succeeds has
been checked, and then its transaction exchanges one row; so it is enough to look at the rows that
are put in.

A row is put in at the time that its request has seen on the clock. The clock has shown the creation
time of a memo before, and it does not turn back.

A change leaves the fields alone that it does not mention, but for one: a location is read from its
text before each change and written again, and what is read back need not be what was written.

## Main definitions

* `Memo.IsSound` — what holds of a memo in the store
* `MemoEdit.Makes` — what a change makes of a memo
* `Write.Ended` — a request has failed, or it has carried out its transaction

## Main results

* `Write.ended` — there is nothing in between
* `Write.isSound` — what one request keeps
* `rows_written` — what holds of every memo after a run, and what the next request does
-/

namespace SharedMemos

open SharedMemos.Decimal

/-- What holds of a memo in the store. -/
structure Memo.IsSound (m : Memo) : Prop where
  tags : Tag.IsNormal m.tags
  normalized : Tag.normalize m.tags = m.tags
  property : m.property = .ofContent m.content
  location : ∀ l ∈ m.location, l.validate = .ok ()
  times : m.created ≤ m.updated

/-- What a change makes of a memo: the fields that it mentions take their new values, and the flags
follow the content. Number, uid, creator and creation time stay, and so does what it does not
mention, except that the location is read back from its text. -/
structure MemoEdit.Makes (edit : MemoEdit) (row m : Memo) : Prop where
  same : m.id = row.id ∧ m.uid = row.uid ∧ m.creator = row.creator ∧ m.created = row.created
  content : m.content = edit.content.getD row.content
  visibility : m.visibility = edit.visibility.getD row.visibility
  state : m.state = edit.state.getD row.state
  pinned : m.pinned = edit.pinned.getD row.pinned
  tags : m.tags = (edit.tags.map Tag.normalize).getD row.tags
  property : m.property = (edit.content.map Property.ofContent).getD row.property
  location : m.location = (edit.location.getD row.location).map Location.stored
  /-- When a location that is not mentioned stays. -/
  kept : edit.location = none → (m.location = row.location ↔ ∀ l ∈ row.location, l.stored = l)

theorem MemoDraft.validate_eq_ok_iff {draft : MemoDraft} :
    draft.validate = .ok () ↔ ∀ l ∈ draft.location, l.validate = .ok () := by
  rw [validate]
  cases draft.location <;> simp

theorem MemoEdit.validate_eq_ok_iff {edit : MemoEdit} :
    edit.validate = .ok () ↔ ∀ l, edit.location = some (some l) → l.validate = .ok () := by
  rw [validate]
  rcases edit.location with _ | _ | l <;> simp

namespace Server

open Attempt Database

/-! ### Rows that are put in -/

section

variable {draft : MemoDraft} {edit : MemoEdit} {row m : Memo} {time : Instant}

/-- A location that is kept as text. -/
theorem validate_storedMemo (h : ∀ l ∈ m.location, l.validate = .ok ()) :
    ∀ l ∈ (storedMemo m).location, l.validate = .ok () := by
  intro l hl
  obtain ⟨written, hwritten, rfl⟩ := Option.map_eq_some_iff.mp hl
  exact Location.stored_validate (h written hwritten)

/-- A memo that is made. -/
theorem isSound_toMemo (h : draft.validate = .ok ()) (uid : String) (user : UserId) (id : Int) :
    (storedMemo { draft.toMemo uid user time with id := id }).IsSound where
  tags := Tag.isNormal_normalize draft.tags
  normalized := Tag.normalize_normalize draft.tags
  property := rfl
  location := validate_storedMemo (MemoDraft.validate_eq_ok_iff.mp h)
  times := le_refl time

/-- A memo that is changed. -/
theorem isSound_rewritten (hrow : row.IsSound) (h : edit.validate = .ok ())
    (htime : row.created ≤ time) : (rewritten (edit.apply row) time row).IsSound := by
  have htags : Tag.IsNormal ((edit.tags.map Tag.normalize).getD row.tags) := by
    cases edit.tags with
    | none => exact hrow.tags
    | some tags => exact Tag.isNormal_normalize tags
  rw [rewritten_self (show (edit.apply row).id = row.id from rfl)]
  refine ⟨htags, htags.normalize_eq, ?_, validate_storedMemo ?_, htime⟩
  · show (edit.content.map Property.ofContent).getD row.property
      = .ofContent (edit.content.getD row.content)
    cases edit.content with
    | none => exact hrow.property
    | some content => rfl
  · show ∀ l ∈ edit.location.getD row.location, l.validate = .ok ()
    intro l hl
    cases hlocation : edit.location with
    | none =>
      rw [hlocation] at hl
      exact hrow.location l hl
    | some location =>
      rw [hlocation] at hl
      exact MemoEdit.validate_eq_ok_iff.mp h l (by rw [hlocation]; exact congrArg some hl)

/-- A location that is not mentioned is read back. -/
theorem map_stored_eq_self_iff {location : Option Location} :
    location.map Location.stored = location ↔ ∀ l ∈ location, l.stored = l := by
  cases location <;> simp

theorem makes_rewritten (edit : MemoEdit) (row : Memo) (time : Instant) :
    edit.Makes row (rewritten (edit.apply row) time row) := by
  rw [rewritten_self (show (edit.apply row).id = row.id from rfl)]
  refine ⟨⟨rfl, rfl, rfl, rfl⟩, rfl, rfl, rfl, rfl, rfl, rfl, rfl, fun hnone => ?_⟩
  show (edit.location.getD row.location).map Location.stored = _ ↔ _
  rw [hnone]
  exact map_stored_eq_self_iff

end

/-! ### How a request ends -/

/-- Does a request make sense? -/
def Write.IsValid : Write → Prop
  | create _ draft => draft.validate = .ok ()
  | update _ _ edit => edit.validate = .ok ()
  | delete _ _ => True

/-- How a request ends: it has failed, and the database is as it was; or it makes sense, and it has
carried out its transaction. -/
inductive Write.Ended (w : Write) (s : State) {α : Type} : Except Error α × State → Prop where
  | failed {e : Error} {t : State} (hdatabase : t.database = s.database) : Ended w s (.error e, t)
  | done {a : α} {t : State} (hvalid : w.IsValid) (hlooks : t.looks = s.looks + 1)
      (hcommits : w.Commits s t.database) : Ended w s (.ok a, t)

section

variable {α β : Type} {w : Write} {s t : State}

/-- An attempt that only looks comes first. -/
theorem Write.Ended.bind {x : Action α} {f : α → Action β} (hx : (x.exec s).2 = s)
    (hf : ∀ a, x.exec s = (.ok a, s) → w.Ended s ((f a).exec s)) :
    w.Ended s ((x >>= f).exec s) := by
  rw [exec_bind]
  rcases hexec : x.exec s with ⟨e | a, t⟩
  · rw [hexec] at hx
    exact .failed (congrArg State.database hx)
  · rw [hexec] at hx
    obtain rfl : t = s := hx
    exact hf a hexec

theorem Write.Ended.discard {x : Action α} (h : w.Ended s (x.exec s)) :
    w.Ended s ((do let _ ← x : Action Unit).exec s) := by
  rw [exec_bind]
  rcases hexec : x.exec s with ⟨e | a, t⟩
  · rw [hexec] at h
    obtain ⟨hdatabase⟩ := h
    exact .failed hdatabase
  · rw [hexec] at h
    obtain - | ⟨hvalid, hlooks, hcommits⟩ := h
    exact .done hvalid hlooks hcommits

/-- The transaction comes last. -/
theorem ended_transactNow {x : Instant → Transaction α} (hdatabase : t.database = s.database)
    (hlooks : t.looks = s.looks) (hvalid : w.IsValid)
    (hx : ∀ a d, (x (t.source.time t.looks)).run s.database = .ok (a, d) → w.Commits s d) :
    w.Ended s ((transactNow x).exec t) := by
  rcases hexec : (transactNow x).exec t with ⟨e | a, u⟩
  · obtain ⟨-, -, rfl⟩ := exec_transactNow_error hexec
    exact .failed hdatabase
  · obtain ⟨d, hrun, rfl⟩ := exec_transact_ok (s := { t with looks := t.looks + 1 }) hexec
    refine .done hvalid (congrArg (· + 1) hlooks) (hx a d ?_)
    rw [← hdatabase]
    exact hrun

end

/-- **A request fails and leaves the database, or it has been checked and is carried out.** -/
theorem Write.ended (w : Write) (s : State) : w.Ended s (w.act.exec s) := by
  cases w with
  | create viewer draft =>
    refine .discard (.bind (signedIn_exec _ viewer s) fun user huser => ?_)
    obtain rfl := signedIn_ok huser
    refine .bind rfl fun _ hvalid => ?_
    rw [exec_bind_of_ok (show (drawName _).exec s = _ from rfl)]
    exact ended_transactNow (t := { s with draws := s.draws + 1 }) rfl rfl
      (congrArg Prod.fst hvalid) fun _ _ hrun => .create hrun
  | update viewer uid edit =>
    refine .discard (.bind (signedIn_exec _ viewer s) fun user huser => ?_)
    obtain rfl := signedIn_ok huser
    refine .bind (modifiableMemo_exec user uid s) fun row hrow => ?_
    obtain ⟨hfound, hmodify⟩ := modifiableMemo_ok hrow
    refine .bind rfl fun _ hvalid => ?_
    exact ended_transactNow rfl rfl (congrArg Prod.fst hvalid) fun _ _ => .update hfound hmodify
  | delete viewer uid =>
    refine .bind (signedIn_exec _ viewer s) fun user huser => ?_
    obtain rfl := signedIn_ok huser
    refine .bind (modifiableMemo_exec user uid s) fun row hrow => ?_
    obtain ⟨hfound, hmodify⟩ := modifiableMemo_ok hrow
    exact ended_transactNow rfl rfl trivial fun _ _ => .delete hfound hmodify

/-! ### What a run keeps -/

/-- Rows are told apart, every memo is sound, and none is from times to come. -/
structure State.IsSound (s : State) : Prop where
  keyed : s.database.IsKeyed
  memos : ∀ m ∈ s.database.memos, m.IsSound
  reached : ∀ m ∈ s.database.memos, s.HasReached m.created

section

variable {w : Write} {s t : State} {d : Database}

theorem State.isSound_of_empty (hempty : s.database.memos = []) : s.IsSound := by
  have hnone : ∀ m, m ∉ s.database.memos := by
    rw [hempty]
    exact fun m => List.not_mem_nil
  exact ⟨isKeyed_of_empty hempty, fun m hm => absurd hm (hnone m), fun m hm => absurd hm (hnone m)⟩

/-- The row that a request puts in is sound, and it was made at the time or before. -/
theorem Write.Commits.swap (h : w.Commits s d) (hs : s.IsSound) (hvalid : w.IsValid) :
    ∃ before after, Swap before after s.database d ∧ ∀ m ∈ after, m.IsSound
      ∧ (m.created = s.source.time s.looks
        ∨ ∃ row ∈ s.database.memos, m.created = row.created) := by
  cases h with
  | create hrun =>
    refine ⟨_, _, insertMemo_swap hrun, ?_⟩
    obtain ⟨-, rfl, -⟩ := run_insertMemo hrun
    rintro m ⟨⟩
    exact ⟨isSound_toMemo hvalid _ _ _, .inl rfl⟩
  | @update user uid edit row _ hrow hmodify hrun =>
    have hmem : row ∈ s.database.memos := List.mem_of_find?_eq_some hrow
    refine ⟨_, _, updateMemo_swap (m := edit.apply row) hs.keyed hmem rfl hrun, ?_⟩
    rintro m ⟨⟩
    refine ⟨isSound_rewritten (hs.memos row hmem) hvalid ?_, .inr ⟨row, hmem, ?_⟩⟩
    · exact hs.reached row hmem _ (Nat.le_refl _)
    · exact (makes_rewritten edit row _).same.2.2.2
  | delete hrow hmodify hrun =>
    refine ⟨_, _, deleteMemo_swap (List.mem_of_find?_eq_some hrow) hrun, ?_⟩
    rintro m ⟨⟩

/-- **A request keeps every memo sound.** -/
theorem Write.isSound (w : Write) (hs : s.IsSound) (hsteady : s.source.IsSteady) :
    (w.act.exec s).2.IsSound := by
  have hleaves := w.leaves s
  have hbefore : s.Before (w.act.exec s).2 := ⟨by rw [hleaves.outside], hleaves.looks⟩
  rcases hexec : w.act.exec s with ⟨r, t⟩
  have hended := w.ended s
  rw [hexec] at hended hbefore
  cases hended with
  | failed hsame =>
    refine ⟨hsame ▸ hs.keyed, hsame ▸ hs.memos, fun m hm => ?_⟩
    exact (hs.reached m (hsame ▸ hm)).mono hbefore
  | done hvalid hlooks hcommits =>
    obtain ⟨before, after, hswap, hafter⟩ := hcommits.swap hs hvalid
    have htime : t.HasReached (s.source.time s.looks) := by
      intro look hlook
      rw [hbefore.source]
      exact hsteady _ _ (by omega)
    refine ⟨hswap.isKeyed hs.keyed, fun m hm => ?_, fun m hm => ?_⟩
    · rcases (hswap.rows m).mp hm with hnew | ⟨hold, -⟩
      · exact (hafter m hnew).1
      · exact hs.memos m hold
    · rcases (hswap.rows m).mp hm with hnew | ⟨hold, -⟩
      · rcases (hafter m hnew).2 with hcreated | ⟨row, hrow, hcreated⟩
        · rw [hcreated]
          exact htime
        · rw [hcreated]
          exact (hs.reached row hrow).mono hbefore
      · exact (hs.reached m hold).mono hbefore

/-- **A run keeps every memo sound**, and the clock is the same. -/
theorem State.isSound_written (writes : List Write) : ∀ {s : State}, s.IsSound →
    s.source.IsSteady → (s.written writes).IsSound ∧ (s.written writes).source = s.source := by
  induction writes with
  | nil => exact fun hs _ => ⟨hs, rfl⟩
  | cons w writes ih =>
    intro s hs hsteady
    have hsource : (w.act.exec s).2.source = s.source := by rw [(w.leaves s).outside]
    obtain ⟨hsound, hsame⟩ := ih (w.isSound hs hsteady) (hsource ▸ hsteady)
    exact ⟨hsound, hsame.trans hsource⟩

/-- A request that fails leaves the database. -/
theorem Write.database_of_error {e : Error} (h : (w.act.exec s).1 = .error e) :
    (w.act.exec s).2.database = s.database := by
  have hended := w.ended s
  rcases hexec : w.act.exec s with ⟨r, t⟩
  rw [hexec] at h hended
  cases hended with
  | failed hsame => exact hsame
  | done => cases h

/-- A change that succeeds replaces the row of its memo, and no other. -/
theorem update_makes {viewer : Viewer} {uid : String} {edit : MemoEdit} (hs : s.database.IsKeyed)
    (h : (Write.update viewer uid edit).Succeeds s) :
    ∃ row m, s.database.memoByUid? uid = some row ∧ edit.Makes row m
      ∧ m.updated = s.source.time s.looks
      ∧ ((Write.update viewer uid edit).act.exec s).2.database.memos
        = s.database.memos.map fun r => if r = row then m else r := by
  have hended := (Write.update viewer uid edit).ended s
  rw [Write.Succeeds] at h
  rcases hexec : (Write.update viewer uid edit).act.exec s with ⟨r, t⟩
  rw [hexec] at h hended
  cases hended with
  | failed => cases h
  | done _ _ hcommits =>
    cases hcommits with
    | @update user _ _ row _ hrow _ hrun =>
      refine ⟨row, rewritten (edit.apply row) (s.source.time s.looks) row, hrow,
        makes_rewritten edit row _, ?_, ?_⟩
      · rw [rewritten_self (show (edit.apply row).id = row.id from rfl)]
        rfl
      · obtain ⟨kept, -, -, hd⟩ := run_updateMemo hrun
        have hmemos : t.database.memos
            = s.database.memos.map (rewritten (edit.apply row) (s.source.time s.looks)) := by
          rw [hd]
          split <;> rfl
        rw [hmemos]
        refine List.map_congr_left fun r hr => ?_
        by_cases hsame : r = row
        · rw [if_pos hsame, hsame]
        · rw [if_neg hsame, rewritten, if_neg]
          rw [beq_iff_eq]
          exact fun hid => hsame (hs.id r hr row (List.mem_of_find?_eq_some hrow) hid)

end

/-! ### The main result -/

/-- **What requests to write do to memos.** After any run that starts without memos, under a clock
that does not turn back, every memo is sound. A request that fails after it leaves the database as
it was. A change that succeeds makes of its memo what it says, at the time of the request, and
leaves the other memos; a location that it does not mention stays exactly if it is read back as it
was written. -/
theorem rows_written {s : State} (hempty : s.database.memos = []) (hsteady : s.source.IsSteady)
    (writes : List Write) :
    (∀ m ∈ (s.written writes).database.memos, m.IsSound)
      ∧ (∀ (w : Write) e, (w.act.exec (s.written writes)).1 = .error e →
        (w.act.exec (s.written writes)).2.database = (s.written writes).database)
      ∧ ∀ viewer uid edit, (Write.update viewer uid edit).Succeeds (s.written writes) →
        ∃ row m, (s.written writes).database.memoByUid? uid = some row ∧ edit.Makes row m
          ∧ m.updated = s.source.time (s.written writes).looks
          ∧ ((Write.update viewer uid edit).act.exec (s.written writes)).2.database.memos
            = (s.written writes).database.memos.map fun r => if r = row then m else r := by
  obtain ⟨hsound, hsource⟩ := State.isSound_written writes (State.isSound_of_empty hempty) hsteady
  refine ⟨hsound.memos, fun w e => w.database_of_error, fun viewer uid edit h => ?_⟩
  rw [← hsource]
  exact update_makes hsound.keyed h

/-- A run that makes a memo with a location. -/
def locating (location : Location) : List Write :=
  [.create (some 1) { content := "n", tags := [" work ", "work", ""], location := some location }]

/-- The tags of a memo are brought into their normal form, and they stay so when it is pinned. -/
theorem rows_written_tagged : tickingServer.database.memos = []
    ∧ tickingServer.source.IsSteady
    ∧ (∃ m ∈ (tickingServer.written (locating ⟨"", .zero, .zero⟩)).database.memos,
      m.tags = ["work"] ∧ m.IsSound)
    ∧ ∃ row m : Memo, m.pinned = true ∧ m.tags = row.tags
      ∧ (tickingServer.written (locating ⟨"", .zero, .zero⟩)).database.memoByUid? notedUid
        = some row := by
  have hsteady : tickingServer.source.IsSteady := fun _ _ => tickingServer_isTicking.mono
  obtain ⟨hsound, -, hupdates⟩ := rows_written rfl hsteady (locating ⟨"", .zero, .zero⟩)
  refine ⟨rfl, hsteady, ?_, ?_⟩
  · have hexists : ∃ m ∈ (tickingServer.written (locating ⟨"", .zero, .zero⟩)).database.memos,
        m.tags = ["work"] := by
      decide +kernel
    obtain ⟨m, hm, htags⟩ := hexists
    exact ⟨m, hm, htags, hsound m hm⟩
  · obtain ⟨row, m, hrow, hmakes, -⟩ := hupdates (some 1) notedUid { pinned := some true }
      (by decide +kernel)
    exact ⟨row, m, hmakes.pinned, hmakes.tags, hrow⟩

/-- A place whose longitude was given as `5.817851573081036e-13`. Each time that it is written and
read back, it is another. -/
def drifting : Location :=
  ⟨"", .zero, .finite false 5761721123949160 (-93)⟩

/-- A location that a change does not mention need not stay: pinning a memo moves it. -/
theorem rows_written_drift : ¬ ∀ (s : State), s.database.memos = [] → s.source.IsSteady →
    ∀ (writes : List Write) viewer uid (edit : MemoEdit) row,
      (s.written writes).database.memoByUid? uid = some row →
      (Write.update viewer uid edit).Succeeds (s.written writes) → edit.location = none →
      ∃ m ∈ ((Write.update viewer uid edit).act.exec (s.written writes)).2.database.memoByUid? uid,
        m.location = row.location := by
  intro hkept
  have hsteady : tickingServer.source.IsSteady := fun _ _ => tickingServer_isTicking.mono
  have hpinned := hkept tickingServer rfl hsteady (locating drifting) (some 1) notedUid
    { pinned := some true }
  generalize hs : tickingServer.written (locating drifting) = s at hpinned
  generalize ht : ((Write.update (some 1) notedUid { pinned := some true }).act.exec s).2 = t
    at hpinned
  have hmoves : ((s.database.memoByUid? notedUid).bind fun row =>
      (t.database.memoByUid? notedUid).map fun m => decide (m.location = row.location))
        = some false := by
    rw [← ht, ← hs]
    decide +kernel
  have hsucceeds : (Write.update (some 1) notedUid { pinned := some true }).Succeeds s := by
    rw [← hs]
    decide +kernel
  obtain ⟨row, hrow, hmoves⟩ := Option.bind_eq_some_iff.mp hmoves
  obtain ⟨m, hm, hmoves⟩ := Option.map_eq_some_iff.mp hmoves
  obtain ⟨m', hm', hstays⟩ := hpinned row hrow hsucceeds rfl
  obtain rfl : m = m' := Option.some_inj.mp (hm.symm.trans hm')
  exact of_decide_eq_false hmoves hstays

end Server

end SharedMemos
