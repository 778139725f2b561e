import SharedMemos.Proofs.Server.Isolation

/-!
# Where sessions come from

The row of a session comes in when its upload is opened. Before that a name has been drawn for it,
and the memo has been looked up that it is to be linked to; neither changes afterwards. Nothing else
that can happen to the server brings in a row. So a session that has gone does not come back, as
long as its name is not drawn again, and the memo of a session can be asked for by the name that was
given when it was opened.

Opening is the one request that has to be taken apart, since the name is drawn some steps before the
row is added. What follows the draw may bring in a row under that name (`Footprint.opening`), and
the draw itself accounts for it.

## Main definitions

* `Upload.Session.NamesMemo` — the memo of a session can be asked for
* `State.Accounts` — a session was there, or a name was drawn for it
* `Footprint.opening` — steps that bring in sessions of one kind at most

## Main results

* `Turn.opening`, `Event.opening` — one event
* `session?_through`, `namesMemo_through` — every run
-/

namespace SharedMemos

open SharedMemos.Storage SharedMemos.Upload

/-- The text for the memo of a session is the name of one. -/
def Upload.Session.NamesMemo (x : Session) : Prop :=
  ∀ name ∈ Server.nonblank x.memoName, ∃ uid, Collection.memos.uidOf name = .ok uid

/-- What a session is opened under: its name, and the text for its memo. -/
def Upload.Session.heading (x : Session) : String × Option String :=
  (x.id, x.memoName)

theorem Upload.Session.NamesMemo.of_heading {x y : Session} (h : x.NamesMemo)
    (hsame : x.heading = y.heading) : y.NamesMemo := by
  have hmemo : x.memoName = y.memoName := congrArg Prod.snd hsame
  rw [NamesMemo, ← hmemo]
  exact h

namespace Server

open Attempt

variable {α : Type} {s t : State} {kind : String × Option String → Prop} {id : String}
  {x : Session}

/-! ### The footprint -/

/-- A session was there, or a name has been drawn for it since, up to the next draw. -/
def State.Accounts (s : State) (next : Nat) (y : Session) : Prop :=
  (∃ x ∈ s.database.sessions, x.heading = y.heading)
    ∨ s.source.HasNamed s.draws next y.id ∧ y.NamesMemo

theorem State.Accounts.mono {next next' : Nat} (h : s.Accounts next x) (hle : next ≤ next') :
    s.Accounts next' x :=
  h.imp_right fun hnew => ⟨hnew.1.mono hle, hnew.2⟩

theorem State.Accounts.of_heading {next : Nat} {y : Session} (h : s.Accounts next x)
    (hsame : x.heading = y.heading) : s.Accounts next y := by
  rcases h with ⟨z, hz, hz'⟩ | ⟨hname, hmemo⟩
  · exact .inl ⟨z, hz, hz'.trans hsame⟩
  · have hid : x.id = y.id := congrArg Prod.fst hsame
    exact .inr ⟨hid ▸ hname, hmemo.of_heading hsame⟩

/-- Steps that bring in sessions of a kind at most, apart from those for which a name is drawn on
the way. -/
def Footprint.opening (kind : String × Option String → Prop) : Footprint State where
  rel s t := t.source = s.source ∧ s.draws ≤ t.draws
    ∧ ∀ y ∈ t.database.sessions, s.Accounts t.draws y ∨ kind y.heading
  refl s := ⟨rfl, Nat.le_refl _, fun y hy => .inl (.inl ⟨y, hy, rfl⟩)⟩
  trans := by
    rintro s t u ⟨hsource, hdraws, hst⟩ ⟨hsource', hdraws', htu⟩
    refine ⟨hsource'.trans hsource, Nat.le_trans hdraws hdraws', fun y hy => ?_⟩
    rcases htu y hy with (⟨x, hx, hsame⟩ | ⟨⟨i, hfirst, hi, hname⟩, hmemo⟩) | hkind
    · rw [← hsame]
      exact (hst x hx).imp_left fun h => (h.mono hdraws').of_heading hsame
    · rw [hsource] at hname
      exact .inl (.inr ⟨⟨i, Nat.le_trans hdraws hfirst, hi, hname⟩, hmemo⟩)
    · exact .inr hkind

/-- The attempt brings in no session unless a name is drawn for it. -/
abbrev IsOpening (a : Action α) : Prop :=
  a.Within (Footprint.opening fun _ => False)

/-- Steps that leave the sessions as they are bring in none. -/
theorem opening_of_same (hsource : t.source = s.source) (hdraws : s.draws ≤ t.draws)
    (hsessions : t.database.sessions = s.database.sessions) : (Footprint.opening kind).rel s t :=
  ⟨hsource, hdraws, fun y hy => .inl (.inl ⟨y, hsessions ▸ hy, rfl⟩)⟩

theorem opening_of_quiet (h : Footprint.quiet.rel s t) : (Footprint.opening kind).rel s t :=
  opening_of_same (congrArg Holdings.source h.1) h.2 (congrArg Holdings.sessions h.1)

theorem quiet_opening {a : Action α} (h : IsQuiet a) : a.Within (Footprint.opening kind) :=
  h.mono fun _ _ => opening_of_quiet

theorem storing_opening {a : Action α} {key : String} (h : a.Within (Footprint.storing key)) :
    a.Within (Footprint.opening kind) :=
  h.mono fun _ _ hrel => opening_of_same (congrArg Holdings.source hrel.1) hrel.2.1
    (congrArg Holdings.sessions hrel.1)

theorem filing_opening {a : Action α} {path : String} (h : a.Within (Footprint.filing path)) :
    a.Within (Footprint.opening kind) :=
  h.mono fun _ _ hrel => opening_of_same (congrArg Holdings.source hrel.1) hrel.2.1
    (congrArg Holdings.sessions hrel.1)

/-! ### Transactions -/

/-- A transaction brings in what it puts into the table. -/
theorem transact_opening {x : Transaction α}
    (h : ∀ d a d', x.run d = .ok (a, d') → ∀ y ∈ d'.sessions,
      (∃ z ∈ d.sessions, z.heading = y.heading) ∨ kind y.heading) :
    (transact x).Within (Footprint.opening kind) := by
  intro s
  rcases hexec : (transact x).exec s with ⟨e | a, t⟩
  · obtain ⟨-, rfl⟩ := exec_transact_error hexec
    exact Footprint.refl _ _
  · obtain ⟨d, hrun, rfl⟩ := exec_transact_ok hexec
    exact ⟨rfl, Nat.le_refl _, fun y hy => (h _ _ _ hrun y hy).imp_left .inl⟩

theorem transactNow_opening {x : Instant → Transaction α}
    (h : ∀ time, (transact (x time)).Within (Footprint.opening kind)) :
    (transactNow x).Within (Footprint.opening kind) :=
  .bind (quiet_opening now_quiet) h

/-- A transaction on other tables brings in nothing. -/
theorem transact_opening_of_same {x : Transaction α}
    (h : ∀ d a d', x.run d = .ok (a, d') → d'.sessions = d.sessions) :
    (transact x).Within (Footprint.opening kind) :=
  transact_opening fun d a d' hrun y hy => .inl ⟨y, h d a d' hrun ▸ hy, rfl⟩

theorem changeAttachment_opening (number : Int) (change : Instant → Attachment → Attachment) :
    (transactNow fun time => Database.changeAttachment number (change time)).Within
      (Footprint.opening kind) := by
  refine transactNow_opening fun time => transact_opening_of_same fun d _ d' hrun => ?_
  rcases Database.run_changeAttachment hrun with rfl | rfl
  · rfl
  · rfl

theorem insertSession_opening (x : Session) :
    (transact (Database.insertSession x)).Within (Footprint.opening (· = x.heading)) := by
  refine transact_opening fun d _ d' hrun y hy => ?_
  rcases Database.run_insertSession hrun with ⟨-, rfl⟩ | ⟨-, rfl⟩
  · exact .inl ⟨y, hy, rfl⟩
  · rcases List.mem_cons.mp hy with rfl | hy
    · exact .inr rfl
    · exact .inl ⟨y, hy, rfl⟩

/-- Changing a session leaves it under its heading. -/
theorem changeSession_opening (id : String) (condition : Session → Bool)
    {change : Instant → Session → Session}
    (h : ∀ time x, (change time x).heading = x.heading) :
    (transactNow fun time => Database.changeSession id condition (change time)).Within
      (Footprint.opening kind) := by
  refine transactNow_opening fun time => transact_opening fun d isDone d' hrun y hy => .inl ?_
  rcases Database.run_changeSession hrun with ⟨-, rfl⟩ | ⟨-, rfl⟩
  · exact ⟨y, hy, rfl⟩
  · obtain ⟨x, hx, rfl⟩ := List.mem_map.mp hy
    refine ⟨x, hx, ?_⟩
    split
    · exact (h time x).symm
    · rfl

theorem deleteSession_opening (id : String) :
    (transact (Database.deleteSession id)).Within (Footprint.opening kind) := by
  refine transact_opening fun d isDone d' hrun y hy => .inl ⟨y, ?_, rfl⟩
  have hd := Database.run_deleteSession hrun
  cases isDone with
  | false =>
    obtain rfl : d' = d := hd
    exact hy
  | true =>
    subst hd
    exact List.mem_of_mem_filter hy

/-! ### Attachments -/

theorem insertAttachment_opening (b : Backend) (a : Attachment) (isFresh : Bool) :
    (insertAttachment b a isFresh).Within (Footprint.opening kind) := by
  refine .bind (quiet_opening (drawName_quiet _)) fun uid => ?_
  refine .bind (Within.outcome (transactNow_opening fun time =>
    transact_opening_of_same fun d row d' hrun => ?_)) fun r => ?_
  · obtain ⟨-, rfl, -⟩ := Database.run_insertAttachment hrun
    rfl
  · split
    · exact .pure _
    · cases isFresh with
      | true =>
        exact .bind (storing_opening (delete_storing b a.storageKey)).tolerate fun _ => .throw _
      | false => exact .throw _

theorem withThumbnail_opening (a : Attachment) (setting : Setting) (source : PictureSource) :
    (withThumbnail a setting source).Within (Footprint.opening kind) :=
  withThumbnail_within (fun _ _ h => opening_of_quiet (quiet_of_observing h))
    (fun _ => changeAttachment_opening a.id _) (fun b _ => storing_opening (put_storing b _ _))
    setting source

theorem createAttachment_opening (viewer : Viewer) (draft : AttachmentDraft) :
    IsOpening (createAttachment viewer draft) := by
  refine .bind (quiet_opening (signedIn_quiet _ _)) fun user => ?_
  refine .bind (.ofExcept _) fun filename => .bind (.ofExcept _) fun bytes => ?_
  refine .bind (quiet_opening storageSetting_quiet) fun setting => ?_
  refine .bind (quiet_opening (checkLimit_quiet _ _)) fun _ => ?_
  refine .bind (quiet_opening (memoLink_quiet _ _)) fun memo => ?_
  refine .bind (quiet_opening (backendForNew_quiet _)) fun b => ?_
  refine .bind (quiet_opening (reusableKey_quiet b _ _)) fun reused => ?_
  have hrest : ∀ key isFresh, IsOpening (insertAttachment b
      (newAttachment user filename (ContentType.choose draft.contentType (some bytes)) bytes.size
        (Bytes.sha256Hex bytes) b.kind key memo) isFresh
      >>= fun a => withThumbnail a setting (.received (.ofBytes bytes))) := fun key isFresh =>
    .bind (insertAttachment_opening b _ isFresh) fun a => withThumbnail_opening a _ _
  dsimp only
  split
  · exact .bind (.pure _) fun key => hrest key _
  · refine .bind (quiet_opening (allocateKey_quiet b _)) fun key => ?_
    refine .bind (storing_opening (put_storing b key _)) fun _ => ?_
    exact .bind (.pure _) fun key => hrest key _

theorem deleteAttachment_opening (viewer : Viewer) (uid : String) :
    IsOpening (deleteAttachment viewer uid) := by
  have hdelete : ∀ (b : Backend) (key : String), IsOpening (b.delete key).tolerate :=
    fun b key => (storing_opening (delete_storing b key)).tolerate
  refine .bind (quiet_opening (signedIn_quiet _ _)) fun user => ?_
  refine .bind (quiet_opening (query_quiet _)) fun found => ?_
  split
  · exact .throw _
  · rename_i a _
    refine .bind (transact_opening_of_same fun d isDone d' hrun => ?_) fun isDone => ?_
    · have hd := Database.run_deleteAttachment hrun
      subst hd
      cases isDone with
      | false => rfl
      | true => rfl
    · cases isDone with
      | false => exact .throw _
      | true =>
        refine .bind (quiet_opening (query_quiet _)) fun remaining => ?_
        split
        · refine .bind (quiet_opening storageSetting_quiet) fun setting => ?_
          refine .bind (quiet_opening (backendFor_quiet _ _)) fun b => ?_
          refine .bind (hdelete b _) fun _ => ?_
          cases a.thumbnail with
          | none => exact .pure _
          | some thumbnail => exact .bind (hdelete b _) fun _ => .pure _
        · exact .pure _

/-! ### Uploads -/

theorem releaseThumbnail_opening (x : Session) :
    (releaseThumbnail x).Within (Footprint.opening kind) := by
  rw [releaseThumbnail]
  split
  · exact filing_opening (removeScratch_filing _)
  · exact .pure _

theorem releaseSession_opening (x : Session) :
    (releaseSession x).Within (Footprint.opening kind) := by
  refine .bind (releaseThumbnail_opening x).outcome fun _ => ?_
  refine .bind (Within.outcome ?_) fun _ => .ofExcept _
  cases x.target with
  | scratch path => exact filing_opening (removeScratch_filing path)
  | direct key =>
    refine .bind (quiet_opening (query_quiet _)) fun isUsed => .ite (.pure _) ?_
    refine .bind (quiet_opening clientStore_quiet) fun b => ?_
    exact storing_opening (delete_storing b key)
  | multipart key upload partSize =>
    refine .bind (quiet_opening clientStore_quiet) fun b => ?_
    exact quiet_opening (abortUpload_quiet b key upload)

theorem openTarget_opening (b : Backend) (id filename contentType : String) (size : Int) :
    (openTarget b id filename contentType size).Within (Footprint.opening kind) := by
  rw [openTarget]
  split
  · refine .bind (quiet_opening (allocateKey_quiet b _)) fun key => ?_
    refine .bind (quiet_opening (createUpload_quiet b key)).outcome fun r => ?_
    split
    · exact .pure _
    · exact .bind (quiet_opening (signPut_quiet b key _ _)) fun _ => .pure _
    · exact .throw _
  · refine .bind (.look _) fun directory => ?_
    exact .bind (filing_opening (writeScratch_filing _ _)) fun _ => .pure _

/-- **A name that is drawn accounts for the sessions that are opened under it.** -/
theorem drawName_opening {memoName : Option String}
    (hmemo : ∀ x : Session, x.memoName = memoName → x.NamesMemo) {f : String → Action α}
    (hf : ∀ id, (f id).Within (Footprint.opening (· = (id, memoName)))) :
    IsOpening (drawName Limit.sessionIdLength >>= f) := by
  intro s
  have hdraw : (drawName Limit.sessionIdLength).exec s
      = (.ok (s.source.sessionName s.draws), { s with draws := s.draws + 1 }) := rfl
  rw [exec_bind_of_ok hdraw]
  obtain ⟨hsource, hdraws, hsessions⟩ := hf (s.source.sessionName s.draws)
    { s with draws := s.draws + 1 }
  refine ⟨hsource, Nat.le_of_succ_le hdraws, fun y hy => .inl ?_⟩
  rcases hsessions y hy with (hold | ⟨⟨i, hfirst, hi, hname⟩, hnames⟩) | hnew
  · exact .inl hold
  · exact .inr ⟨⟨i, Nat.le_of_succ_le hfirst, hi, hname⟩, hnames⟩
  · obtain ⟨hid, hmemoName⟩ := Prod.mk.inj hnew
    exact .inr ⟨⟨s.draws, Nat.le_refl _, hdraws, hid⟩, hmemo y hmemoName⟩

/-- A memo that is looked up for a session can be asked for. -/
theorem namesMemo_of_memoLink {user : UserId} {memoName : Option String} {memo : Option Int}
    (h : (memoLink user memoName).exec s = (.ok memo, t)) (hx : x.memoName = memoName) :
    x.NamesMemo := by
  intro name hname
  rw [hx] at hname
  rw [memoLink, Option.mem_def.mp hname] at h
  obtain ⟨uid, _, huid, -⟩ := exec_bind_eq_ok.mp h
  exact ⟨uid, (Prod.mk.inj huid).1⟩

/-- **A session that is opened bears a name that was drawn for it.** -/
theorem createSession_opening (viewer : Viewer) (draft : SessionDraft) :
    IsOpening (createSession viewer draft) := by
  refine .bind (quiet_opening (signedIn_quiet _ _)) fun user => ?_
  refine .bind (.ofExcept _) fun filename => ?_
  refine .bind (quiet_opening storageSetting_quiet) fun setting => ?_
  dsimp only
  split
  · rw [throw_bind]
    exact .throw _
  refine .bind (quiet_opening (checkLimit_quiet _ _)) fun _ => ?_
  intro s
  rcases hlink : (memoLink user (nonblank draft.memoName)).exec s with ⟨e | memo, t⟩
  · rw [exec_bind_of_error hlink]
    exact (quiet_opening (memoLink_quiet _ _)).of_exec hlink
  rw [exec_bind_of_ok hlink]
  refine Footprint.trans _ ((quiet_opening (memoLink_quiet _ _)).of_exec hlink) ?_
  refine drawName_opening (fun x hx => namesMemo_of_memoLink hlink hx) (fun id => ?_) t
  refine .bind (quiet_opening (backendForNew_quiet _)) fun b => ?_
  refine .bind (openTarget_opening b id _ _ _) fun opened => ?_
  refine .bind (quiet_opening now_quiet) fun time => ?_
  refine .bind (Within.outcome (insertSession_opening _)) fun r => ?_
  cases r with
  | ok _ => exact .pure _
  | error e => exact .bind (releaseSession_opening _).tolerate fun _ => .throw _

theorem appendChunk_opening (viewer : Viewer) (id : String) (offset : Int) (chunk : ByteArray) :
    IsOpening (appendChunk viewer id offset chunk) := by
  refine .bind (quiet_opening (ownSession_quiet _ _)) fun x => ?_
  split
  · dsimp only
    split
    · exact .throw _
    · split
      · exact .throw _
      · split
        · exact .throw _
        · refine .bind (filing_opening (writeScratchAt_filing _ _ _)) fun _ => ?_
          refine .bind (changeSession_opening id _ fun _ _ => rfl) fun isDone => .ite (.pure _) ?_
          refine .bind (quiet_opening (query_quiet _)) fun found => ?_
          split
          · exact .throw _
          · exact .throw _
  · exact .throw _

theorem sendThumbnail_opening (viewer : Viewer) (id : String) (picture : Blob) :
    IsOpening (sendThumbnail viewer id picture) := by
  refine .bind (quiet_opening (ownSession_quiet _ _)) fun x => ?_
  dsimp only
  split
  · exact .throw _
  · split
    · exact .throw _
    · refine .bind (.look _) fun directory => ?_
      refine .bind (filing_opening (writeScratch_filing _ _)) fun _ => ?_
      refine .bind (changeSession_opening x.id _ fun _ _ => rfl) fun isDone => ?_
      split
      · exact .bind (filing_opening (removeScratch_filing _)) fun _ => .throw _
      · exact .pure _

theorem partAddress_opening (viewer : Viewer) (id : String) (part : PartRequest) :
    IsOpening (partAddress viewer id part) := by
  refine .bind (quiet_opening (ownSession_quiet _ _)) fun x => ?_
  split
  · dsimp only
    split
    · exact .throw _
    · split
      · exact .throw _
      · refine .bind (quiet_opening clientStore_quiet) fun b => ?_
        refine .bind (quiet_opening (listParts_quiet b _ _)) fun parts => ?_
        refine .bind (.ofExcept _) fun offset => ?_
        refine .bind (quiet_opening (signPart_quiet b _ _ _ _)) fun address => ?_
        exact .bind (changeSession_opening id _ fun _ _ => rfl) fun _ => .pure _
  · exact .throw _

theorem gather_opening (x : Session) (setting : Setting) : IsOpening (gather x setting) := by
  rw [gather]
  split
  · refine .bind (quiet_opening (checkReceived_quiet x _)) fun _ => ?_
    refine .bind (quiet_opening (readScratch_quiet _)) fun content => ?_
    refine .bind (quiet_opening (checkReceived_quiet x _)) fun _ => ?_
    refine .bind (quiet_opening (backendForNew_quiet _)) fun b => ?_
    refine .bind (quiet_opening (reusableKey_quiet b _ _)) fun reused => ?_
    split
    · exact .pure _
    · refine .bind (quiet_opening (allocateKey_quiet b _)) fun key => ?_
      refine .bind (quiet_opening (readScratch_quiet _)) fun stream => ?_
      exact .bind (storing_opening (putStream_storing b key _ _)) fun _ => .pure _
  · refine .bind (quiet_opening (backendFor_quiet _ _)) fun b => ?_
    refine .bind (quiet_opening (storedSize_quiet b _)) fun size => ?_
    exact .bind (quiet_opening (checkReceived_quiet x _)) fun _ => .pure _
  · refine .bind (quiet_opening (backendFor_quiet _ _)) fun b => ?_
    refine .bind (quiet_opening (listParts_quiet b _ _)) fun parts => ?_
    refine .bind (quiet_opening (checkReceived_quiet x _)) fun _ => ?_
    exact .bind (storing_opening (completeUpload_storing b _ _ _)) fun _ => .pure _

theorem completeSession_opening (viewer : Viewer) (id : String) :
    IsOpening (completeSession viewer id) := by
  refine .bind (quiet_opening (ownSession_quiet _ _)) fun x => ?_
  refine .bind (quiet_opening storageSetting_quiet) fun setting => ?_
  refine .bind (quiet_opening (memoLink_quiet _ _)) fun memo => ?_
  refine .bind (gather_opening x setting) fun g => ?_
  refine .bind (insertAttachment_opening _ _ _) fun a => ?_
  refine .bind (quiet_opening (pictureSource_quiet x)) fun source => ?_
  refine .bind (withThumbnail_opening a setting source) fun a => ?_
  refine .bind (deleteSession_opening x.id) fun _ => .bind ?_ fun _ => .pure _
  rw [discardScratch]
  split
  · refine .bind (filing_opening (removeScratch_filing _)).tolerate fun _ => ?_
    exact (releaseThumbnail_opening x).tolerate
  · exact (releaseThumbnail_opening x).tolerate

theorem cancelSession_opening (viewer : Viewer) (id : String) :
    IsOpening (cancelSession viewer id) := by
  refine .bind (quiet_opening (ownSession_quiet _ _)) fun x => ?_
  refine .bind (deleteSession_opening x.id) fun isDone => ?_
  dsimp only
  split
  · exact .throw _
  · exact (releaseSession_opening x).tolerate

theorem remove_opening (sweep : Sweep) (x : Session) : IsOpening (sweep.remove x) := by
  refine .bind (deleteSession_opening x.id).outcome fun outcome => ?_
  split
  · refine .bind (releaseSession_opening x).outcome fun released => ?_
    split
    · exact .pure _
    · exact .pure _
  · exact .pure _
  · exact .pure _

theorem batches_opening (cutoff : Instant) (budget : Nat) (sweep : Sweep) :
    IsOpening (Sweep.batches cutoff budget sweep) := by
  induction budget generalizing sweep with
  | zero => exact .pure _
  | succ budget ih =>
    refine .bind (quiet_opening (query_quiet _)) fun batch => ?_
    refine .bind (.foldlM (fun sweep x _ => remove_opening sweep x) sweep) fun sweep => ?_
    split
    · exact .pure _
    · exact ih sweep

theorem sweepExpired_opening (time : Instant) : IsOpening (sweepExpired time) := by
  refine .bind (quiet_opening (query_quiet _)) fun count => ?_
  refine .bind (batches_opening _ _ _) fun sweep => ?_
  split
  · exact .throw _
  · exact .pure _

/-! ### Runs -/

/-- A turn brings in no session unless a name is drawn for it. -/
theorem Turn.opening (turn : Turn) : IsOpening turn.act := by
  cases turn with
  | createAttachment viewer draft =>
    exact .bind (createAttachment_opening viewer draft) fun _ => .pure _
  | deleteAttachment viewer uid => exact deleteAttachment_opening viewer uid
  | createSession viewer draft => exact .bind (createSession_opening viewer draft) fun _ => .pure _
  | appendChunk viewer id offset chunk =>
    exact .bind (appendChunk_opening viewer id offset chunk) fun _ => .pure _
  | sendThumbnail viewer id picture => exact sendThumbnail_opening viewer id picture
  | partAddress viewer id part => exact .bind (partAddress_opening viewer id part) fun _ => .pure _
  | uploadProgress viewer id =>
    exact .bind (quiet_opening (uploadProgress_quiet viewer id)) fun _ => .pure _
  | completeSession viewer id => exact .bind (completeSession_opening viewer id) fun _ => .pure _
  | cancelSession viewer id => exact cancelSession_opening viewer id
  | sweepExpired time => exact .bind (sweepExpired_opening time) fun _ => .pure _
  | clientObject id content =>
    intro s
    rw [act, Server.clientObject, exec_atomic]
    split
    · exact opening_of_same rfl (Nat.le_refl _) rfl
    · exact Footprint.refl _ s
  | clientPart id part => exact quiet_opening (clientPart_quiet id part)

/-- Requests to write memos have nothing to do with sessions. -/
theorem Write.Commits.sessions {w : Write} {d : Database} (h : w.Commits s d) :
    d.sessions = s.database.sessions := by
  cases h with
  | create hrun =>
    obtain ⟨-, -, rfl⟩ := Database.run_insertMemo hrun
    rfl
  | update hrow hmodify hrun =>
    obtain ⟨kept, -, -, rfl⟩ := Database.run_updateMemo hrun
    split
    · rfl
    · rfl
  | delete hrow hmodify hrun =>
    obtain ⟨kept, -, rfl⟩ := Database.run_deleteMemo hrun
    rfl

/-- **An event brings in no session unless a name is drawn for it.** -/
theorem Event.opening (event : Event) : IsOpening event.act := by
  cases event with
  | write w =>
    intro s
    have hleaves := w.leaves s
    have hsource : (w.act.exec s).2.source = s.source :=
      (congrArg State.source hleaves.outside :)
    refine opening_of_same hsource hleaves.draws ?_
    rcases hleaves.database with hsame | ⟨-, hcommits⟩
    · exact congrArg Database.sessions hsame
    · exact hcommits.sessions
  | turn turn => exact turn.opening
  | surroundings other => exact fun s => opening_of_same rfl (Nat.le_refl _) rfl

theorem opening_through (events : List Event) (s : State) :
    (Footprint.opening fun _ => False).rel s (s.through events) := by
  induction events generalizing s with
  | nil => exact Footprint.refl _ s
  | cons event events ih => exact Footprint.trans _ (event.opening s) (ih (event.act.exec s).2)

/-- **A session that is gone stays gone**, as long as its name is not drawn again. -/
theorem session?_through (h : s.database.session? id = none) (events : List Event)
    (hname : ¬ s.source.HasNamed s.draws (s.through events).draws id) :
    (s.through events).database.session? id = none := by
  refine List.find?_eq_none.mpr fun y hy hid => ?_
  obtain rfl := beq_iff_eq.mp hid
  rcases (opening_through events s).2.2 y hy with (⟨x, hx, hsame⟩ | ⟨hnew, -⟩) | hfalse
  · exact List.find?_eq_none.mp h x hx (beq_iff_eq.mpr (congrArg Prod.fst hsame))
  · exact hname hnew
  · exact hfalse

/-- **The memo of a session can be asked for**, whatever has come since there were no sessions. -/
theorem namesMemo_through (h : s.database.sessions = []) (events : List Event)
    (hx : x ∈ (s.through events).database.sessions) : x.NamesMemo := by
  rcases (opening_through events s).2.2 x hx with (⟨y, hy, -⟩ | ⟨-, hmemo⟩) | hfalse
  · rw [h] at hy
    exact absurd hy List.not_mem_nil
  · exact hmemo
  · exact hfalse.elim

end Server

end SharedMemos
