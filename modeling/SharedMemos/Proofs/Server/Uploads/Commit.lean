import SharedMemos.Proofs.Server.Privacy
import SharedMemos.Proofs.Server.Uploads.Gathering
import SharedMemos.Proofs.Server.Uploads.Origins

/-!
# Completing an upload

An upload becomes an attachment if and only if two things are so when the request comes in: the memo
that the attachment is to be linked to is one that its user may change, and just as much has been
received as was declared. That is decided before anything is done. Otherwise the request is refused
with the reason, and all that the server and the store hold is as it was.

If it is so, one row is added, the session goes with its scratch files, and if there are parts, they
are joined from the first one on. Since the session is gone, nobody completes it again, whatever
comes afterwards, as long as its name is not drawn for another one.

All of this is said for a server on which nothing goes wrong (`State.Serves`), and for any session,
scratch file and store.

## Main definitions

* `State.LinkHolds` — the memo may still be linked
* `State.Refuses` — the reasons for which a request is refused
* `State.Commits` — what a request leaves that is not refused

## Main results

* `completeSession_exec` — a request commits or is refused
* `completeSession_gated` — when, and what comes of it
-/

namespace SharedMemos

open SharedMemos.Text SharedMemos.Storage SharedMemos.Upload

/-- What tells the row of an attachment from others, and its size. -/
def Attachment.entry (a : Attachment) : Int × String × Int :=
  (a.id, a.uid, a.size)

namespace Server

open Attempt

variable {α : Type} {s t : State} {x : Session} {id : String}

/-! ### The memo -/

/-- The memo of a session, if it has one, is there, and the user of the session may change it. -/
def State.LinkHolds (s : State) (x : Session) : Prop :=
  ∀ name ∈ nonblank x.memoName, ∃ uid m, Collection.memos.uidOf name = .ok uid
    ∧ s.database.memoByUid? uid = some m ∧ m.canModify x.creator

/-- The complaint when the memo of a session may not be linked. -/
inductive State.Unlinks (s : State) (x : Session) : Error → Prop where
  /-- The memo is gone, or the user may not change it any more. -/
  | gone {name uid : String} (hname : nonblank x.memoName = some name)
    (huid : Collection.memos.uidOf name = .ok uid)
    (hnone : ∀ m, s.database.memoByUid? uid = some m → ¬ m.canModify x.creator) :
    Unlinks s x (memoMissing uid)
  /-- The text for the memo is not the name of one; such a session is not opened. -/
  | unnamed {name : String} {e : Error} (hname : nonblank x.memoName = some name)
    (huid : Collection.memos.uidOf name = .error e) : Unlinks s x e

/-- The reasons for which a request to complete an upload is refused. -/
inductive State.Refuses (s : State) (x : Session) : Error → Prop where
  | unlinked {e : Error} (h : s.Unlinks x e) : Refuses s x e
  /-- Something else has been received than was declared. -/
  | short {e : Error} (hlink : s.LinkHolds x) (h : s.FallsShort x e) : Refuses s x e

theorem State.Unlinks.not_linkHolds {e : Error} (h : s.Unlinks x e) : ¬ s.LinkHolds x := by
  intro hlink
  cases h with
  | gone hname huid hnone =>
    obtain ⟨uid, m, hok, hm, hmodify⟩ := hlink _ hname
    obtain rfl := Except.ok.inj (huid.symm.trans hok)
    exact hnone m hm hmodify
  | unnamed hname huid =>
    obtain ⟨uid, m, hok, -⟩ := hlink _ hname
    cases huid.symm.trans hok

theorem State.Refuses.not_open {e : Error} (h : s.Refuses x e) :
    ¬ (s.LinkHolds x ∧ s.received? x = some x.size) := by
  cases h with
  | unlinked h => exact fun hboth => h.not_linkHolds hboth.1
  | short _ h => exact fun hboth => h.received?_ne hboth.2

/-- The scratch file of a session, if it is to have one, is there to be read. -/
def State.CanRead (s : State) (x : Session) : Prop :=
  ∀ path, x.target = .scratch path → ∃ content, s.scratch? path = some (.file content)

theorem State.Unlinks.isMissing {e : Error} (h : s.Unlinks x e) (hnames : x.NamesMemo) :
    ∃ what, e = .notFound what := by
  cases h with
  | gone => exact ⟨_, rfl⟩
  | unnamed hname huid =>
    obtain ⟨uid, hok⟩ := hnames _ hname
    cases huid.symm.trans hok

/-- The reason is that something is missing, or just how much has been received. -/
theorem State.Refuses.reason {e : Error} (h : s.Refuses x e) (hnames : x.NamesMemo)
    (hread : s.CanRead x) :
    (∃ what, e = .notFound what)
      ∨ ∃ n, s.received? x = some n ∧ e = .uploadIncomplete n x.size := by
  cases h with
  | unlinked h => exact .inl (h.isMissing hnames)
  | short _ h =>
    cases h with
    | incomplete h _ => exact .inr ⟨_, h, rfl⟩
    | unknown => exact .inl ⟨_, rfl⟩
    | unreadable htarget hnone =>
      obtain ⟨content, hfile⟩ := hread _ htarget
      refine absurd hnone ?_
      rw [State.received?, htarget]
      dsimp only
      rw [hfile]
      split
      · exact Option.some_ne_none _
      · exact Option.some_ne_none _

/-- **The memo is looked up.** If it may be linked, there is a row for the link; otherwise the
request is refused. -/
theorem exec_memoLink (s : State) (x : Session) :
    (s.LinkHolds x ∧ ∃ memo, (memoLink x.creator x.memoName).exec s = (.ok memo, s)
        ∧ s.database.isSoundLink memo = true)
      ∨ ∃ e, s.Unlinks x e ∧ (memoLink x.creator x.memoName).exec s = (.error e, s) := by
  rw [memoLink]
  split
  · rename_i hnone
    refine .inl ⟨fun name hname => ?_, none, rfl, rfl⟩
    rw [hnone] at hname
    cases hname
  · rename_i name hname
    cases huid : Collection.memos.uidOf name with
    | error e => exact .inr ⟨e, .unnamed hname huid, rfl⟩
    | ok uid =>
      rw [exec_bind_of_ok (exec_ofExcept _ s), exec_bind, modifiableMemo_run]
      cases hfound : (s.database.memoByUid? uid).filter (·.canModify x.creator) with
      | none =>
        refine .inr ⟨_, .gone hname huid fun m hm hmodify => ?_, rfl⟩
        exact Option.some_ne_none m
          ((Option.filter_eq_some_iff.mpr ⟨hm, hmodify⟩).symm.trans hfound)
      | some m =>
        obtain ⟨hthere, hmodify⟩ := Option.filter_eq_some_iff.mp hfound
        refine .inl ⟨fun other hother => ?_, some m.id, rfl, ?_⟩
        · obtain rfl := Option.some.inj (hname.symm.trans hother)
          exact ⟨uid, m, huid, hthere, hmodify⟩
        · exact List.any_eq_true.mpr ⟨m, List.mem_of_find?_eq_some hthere, beq_self_eq_true _⟩

/-- The memo is looked up in the same way after steps that observe. -/
theorem exec_memoLink_of_observing (h : Footprint.observing.rel s t) (x : Session) :
    (s.LinkHolds x ∧ ∃ memo, (memoLink x.creator x.memoName).exec t = (.ok memo, t)
        ∧ s.database.isSoundLink memo = true)
      ∨ ∃ e, s.Unlinks x e ∧ (memoLink x.creator x.memoName).exec t = (.error e, t) := by
  obtain ⟨settings, resolver, seen, -, rfl⟩ := h
  rcases exec_memoLink (s.observed settings resolver seen) x with hfound | ⟨e, hunlinks, hexec⟩
  · exact .inl hfound
  · refine .inr ⟨e, ?_, hexec⟩
    cases hunlinks with
    | gone hname huid hnone => exact .gone hname huid hnone
    | unnamed hname huid => exact .unnamed hname huid

/-! ### The rows -/

namespace Database

variable {d : Database}

/-- A row is added under a name of its own where nothing is wrong with such statements. -/
theorem run_insertAttachment_of_works {a : Attachment}
    (hworks : d.mishap? .attachment .insert = none) (hname : ∀ c ∈ d.attachments, c.uid ≠ a.uid)
    (hlink : d.isSoundLink a.memo = true) :
    (insertAttachment a).run d = .ok ({ a with id := d.lastAttachment + 1 }, { d with
      attachments := { a with id := d.lastAttachment + 1 } :: d.attachments
      lastAttachment := d.lastAttachment + 1 }) := by
  have hnew : (d.attachments.any (·.uid == a.uid) || !d.isSoundLink a.memo) = false := by
    rw [hlink, Bool.not_true, Bool.or_false, List.any_eq_false]
    exact fun c hc hsame => hname c hc (beq_iff_eq.mp hsame)
  rw [insertAttachment]
  rw [run_bind_eq_ok]
  refine ⟨(), d, run_require_eq_ok.mpr ⟨rfl, hworks⟩, ?_⟩
  rw [run_bind_eq_ok]
  refine ⟨d, d, rfl, ?_⟩
  rw [hnew]
  rfl

/-- A session is gone after its row has been removed, where nothing is wrong with such
statements. -/
theorem run_deleteSession_of_works (hworks : d.mishap? .session .delete = none) (id : String) :
    ∃ isDone, (deleteSession id).run d
      = .ok (isDone, { d with sessions := d.sessions.filter (·.id != id) }) := by
  cases hthere : d.sessions.any (·.id == id) with
  | true =>
    refine ⟨true, ?_⟩
    rw [deleteSession]
    rw [run_bind_eq_ok]
    refine ⟨d, d, rfl, ?_⟩
    rw [hthere, if_neg (by decide)]
    rw [run_bind_eq_ok]
    exact ⟨true, d, run_allows_eq_ok.mpr ⟨rfl, hworks⟩, rfl⟩
  | false =>
    have hnone : d.sessions.filter (·.id != id) = d.sessions :=
      List.filter_eq_self.mpr fun y hy =>
        bne_iff_ne.mpr fun hid => List.any_eq_false.mp hthere y hy (beq_iff_eq.mpr hid)
    refine ⟨false, ?_⟩
    rw [deleteSession]
    rw [run_bind_eq_ok]
    refine ⟨d, d, rfl, ?_⟩
    rw [hthere, if_pos (by decide), hnone]
    rfl

end Database

/-- The row of an attachment is added, and the store is not asked. -/
theorem exec_insertAttachment {b : Backend} {a : Attachment} (isFresh : Bool)
    (hworks : s.database.mishap? .attachment .insert = none)
    (hname : ∀ c ∈ s.database.attachments, c.uid ≠ s.source.name s.draws Limit.uidLength)
    (hlink : s.database.isSoundLink a.memo = true) :
    ∃ row t, (insertAttachment b a isFresh).exec s = (.ok row, t) ∧ t.store = s.store := by
  have hdraw : (drawName Limit.uidLength).exec s
      = (.ok (s.source.name s.draws Limit.uidLength), { s with draws := s.draws + 1 }) := rfl
  rw [insertAttachment, exec_bind_of_ok hdraw, exec_outcome_bind]
  rcases hinsert : (transactNow fun time => Database.insertAttachment
      { a with
        uid := s.source.name s.draws Limit.uidLength, created := time, updated := time }).exec
      { s with draws := s.draws + 1 } with ⟨e | row, t⟩
  · obtain ⟨time, herror, -⟩ := exec_transactNow_error hinsert
    have hrun := Database.run_insertAttachment_of_works (d := s.database) (a := { a with
      uid := s.source.name s.draws Limit.uidLength, created := time, updated := time })
      hworks hname hlink
    cases herror.symm.trans hrun
  · obtain ⟨time, d, -, rfl⟩ := exec_transactNow_ok hinsert
    exact ⟨row, _, rfl, rfl⟩

/-- Steps that leave the rows of attachments their numbers, their names and their sizes, and end no
uploads in parts. -/
def Footprint.settling : Footprint State where
  rel s t := t.database.attachments.map (·.entry) = s.database.attachments.map (·.entry)
    ∧ t.database.mishaps = s.database.mishaps ∧ t.store.outcomes = s.store.outcomes
  refl _ := ⟨rfl, rfl, rfl⟩
  trans h h' := ⟨h'.1.trans h.1, h'.2.1.trans h.2.1, h'.2.2.trans h.2.2⟩

theorem recordThumbnail_settling (a : Attachment) (thumbnail : Thumbnail) :
    (recordThumbnail a thumbnail).Within Footprint.settling := by
  intro s
  rcases hexec : (recordThumbnail a thumbnail).exec s with ⟨e | done, t⟩
  · obtain ⟨time, -, rfl⟩ := exec_transactNow_error hexec
    exact ⟨rfl, rfl, rfl⟩
  · obtain ⟨time, d, hrun, rfl⟩ := exec_transactNow_ok hexec
    rcases Database.run_changeAttachment hrun with rfl | rfl
    · exact ⟨rfl, rfl, rfl⟩
    · refine ⟨?_, rfl, rfl⟩
      show (s.database.attachments.map _).map _ = _
      rw [List.map_map]
      refine List.map_congr_left fun row _ => ?_
      rw [Function.comp_apply]
      split
      · rfl
      · rfl

/-- Making a thumbnail settles. -/
theorem withThumbnail_settling (a : Attachment) (setting : Setting) (source : PictureSource) :
    (withThumbnail a setting source).Within Footprint.settling := by
  refine withThumbnail_within ?_ (recordThumbnail_settling a) (fun b content s => ?_) setting source
  · rintro s _ ⟨settings, resolver, seen, -, rfl⟩
    exact ⟨rfl, rfl, rfl⟩
  · cases b with
    | disk => exact ⟨rfl, rfl, rfl⟩
    | bucket c => exact ⟨rfl, rfl, rfl⟩
    | tied =>
      refine ⟨rfl, rfl, ?_⟩
      show (s.store.put _ _).2.outcomes = s.store.outcomes
      exact ObjectStore.call_outcomes fun _ => rfl

/-! ### The scratch files -/

/-- There is no file at the path. -/
def State.HasNoFile (s : State) (path : String) : Prop :=
  ∀ content, s.scratch? path ≠ some (.file content)

theorem removeScratch_hasNoFile (path : String) (s : State) :
    ((removeScratch path).exec s).2.HasNoFile path := by
  intro content
  rw [removeScratch, exec_atomic]
  split
  · rename_i hdirectory
    rw [hdirectory]
    exact fun h => Scratch.noConfusion (Option.some.inj h)
  · show (List.find? _ (s.scratch.filter (·.1 != path))).map _ ≠ _
    rw [List.find?_eq_none.mpr]
    · exact (Option.some_ne_none _).symm
    · intro entry hentry
      exact fun h => bne_iff_ne.mp (List.mem_filter.mp hentry).2 (beq_iff_eq.mp h)

/-- A file that is gone does not come back when another is removed. -/
theorem State.HasNoFile.removeScratch {path : String} (h : s.HasNoFile path) (other : String) :
    ((Server.removeScratch other).exec s).2.HasNoFile path := by
  by_cases hsame : path = other
  · subst hsame
    exact removeScratch_hasNoFile path s
  · intro content
    rw [(removeScratch_filing other s).2.2 path hsame]
    exact h content

/-- Steps that change scratch files only. -/
def Footprint.clearing : Footprint State where
  rel s t := t = { s with scratch := t.scratch }
  refl _ := rfl
  trans := by
    rintro s t u hst htu
    rw [htu, hst]

theorem removeScratch_clearing (path : String) :
    (removeScratch path).Within Footprint.clearing := by
  intro s
  rw [removeScratch, exec_atomic]
  split
  · rfl
  · rfl

/-- **Scratch files of a session that is done with are gone**, and nothing else has changed. -/
theorem discardScratch_exec (x : Session) (s : State) :
    ∃ t, (discardScratch x).exec s = (.ok (), t) ∧ Footprint.clearing.rel s t
      ∧ ∀ path, x.Keeps path → t.HasNoFile path := by
  have hthumbnail : ∀ s : State, ∃ t, (releaseThumbnail x).tolerate.exec s = (.ok (), t)
      ∧ Footprint.clearing.rel s t ∧ (∀ path, s.HasNoFile path → t.HasNoFile path)
      ∧ ∀ path, x.thumbnailPath = some path → t.HasNoFile path := by
    intro s
    refine ⟨_, exec_tolerate _ s, ?_⟩
    rw [releaseThumbnail]
    split
    · rename_i path hpath
      refine ⟨removeScratch_clearing path s, fun other h => h.removeScratch path, ?_⟩
      intro other hother
      obtain rfl := Option.some.inj (hpath.symm.trans hother)
      exact removeScratch_hasNoFile path s
    · rename_i hnone
      refine ⟨rfl, fun _ h => h, fun path hpath => ?_⟩
      cases hnone.symm.trans hpath
  rw [discardScratch]
  split
  · rename_i path htarget
    obtain ⟨t, hexec, hclearing, hkept, hgone⟩ := hthumbnail ((removeScratch path).exec s).2
    refine ⟨t, (exec_bind_of_ok (exec_tolerate _ s)).trans hexec,
      Footprint.trans Footprint.clearing (removeScratch_clearing path s) hclearing, ?_⟩
    rintro other (hother | hother)
    · obtain rfl := Target.scratch.inj (htarget.symm.trans hother)
      exact hkept _ (removeScratch_hasNoFile path s)
    · exact hgone other hother
  · rename_i hother
    obtain ⟨t, hexec, hclearing, -, hgone⟩ := hthumbnail s
    refine ⟨t, hexec, hclearing, ?_⟩
    rintro path (htarget | hpath)
    · exact absurd htarget (hother path)
    · exact hgone path hpath

/-! ### Completing -/

/-- What a request to complete an upload leaves that is not refused: one attachment more, of the
declared size, and neither the session nor its scratch files. -/
structure State.Commits (s t : State) (x : Session) (a : Attachment) : Prop where
  size : a.size = x.size
  rows : t.database.attachments.map (·.entry)
    = a.entry :: s.database.attachments.map (·.entry)
  closed : t.database.session? x.id = none
  cleared : ∀ path, x.Keeps path → t.HasNoFile path
  joins : s.Joins t x.target

/-- What comes of a request to complete an upload. -/
inductive State.Completes (s : State) (x : Session) : Except Error Attachment × State → Prop where
  | commit {a : Attachment} {t : State} (hlink : s.LinkHolds x)
    (hall : s.received? x = some x.size) (h : s.Commits t x a) : Completes s x (.ok a, t)
  | refuse {e : Error} {t : State} (h : s.Refuses x e) (hrel : Footprint.observing.rel s t) :
    Completes s x (.error e, t)

/-- What is done when an upload has been gathered. -/
def register (x : Session) (setting : Setting) (memo : Option Int) (g : Gathered) :
    Action Attachment := do
  let a ← insertAttachment g.backend
    (newAttachment x.creator x.filename x.contentType x.size g.hash g.backend.kind g.key memo)
    g.isFresh
  let source ← pictureSource x
  let a ← withThumbnail a setting source
  let _ ← transact (Database.deleteSession x.id)
  discardScratch x
  return a

theorem completeSession_eq (viewer : Viewer) (id : String) :
    completeSession viewer id = (do
      let x ← ownSession viewer id
      let setting ← storageSetting
      let memo ← memoLink x.creator x.memoName
      let g ← gather x setting
      register x setting memo g) := rfl

theorem pictureSource_exec (x : Session) (s : State) :
    ∃ source, (pictureSource x).exec s = (.ok source, s) := by
  unfold pictureSource
  dsimp only
  split
  · exact ⟨_, exec_bind_of_ok (t := s) rfl⟩
  · exact ⟨_, rfl⟩

theorem State.Joins.of_outcomes {u : State} {target : Target} (h : s.Joins t target)
    (hsame : u.store.outcomes = t.store.outcomes) : s.Joins u target := by
  cases target with
  | scratch path => exact hsame.trans h
  | direct key => exact hsame.trans h
  | multipart key upload partSize =>
    obtain ⟨pending, hpending, hends⟩ := h
    exact ⟨pending, hpending, hsame.trans hends⟩

/-- **An upload that has been gathered is committed.** -/
theorem register_exec (setting : Setting) (hserves : s.Serves x) (hgathers : s.Gathers t x)
    {memo : Option Int} {g : Gathered} (hmemo : s.database.isSoundLink memo = true) :
    ∃ a u, (register x setting memo g).exec t = (.ok a, u) ∧ s.Commits u x a := by
  have hrows : t.database.attachments = s.database.attachments :=
    congrArg Holdings.attachments hgathers.holdings
  have hmemos : t.database.memos = s.database.memos :=
    congrArg Holdings.memos hgathers.holdings
  have hmishaps : t.database.mishaps = s.database.mishaps :=
    congrArg Holdings.mishaps hgathers.holdings
  have hsource : t.source = s.source := congrArg Holdings.source hgathers.holdings
  have hworks : t.database.mishap? .attachment .insert = none := by
    rw [Database.mishap?, hmishaps]
    exact hserves.inserts
  have hname : ∀ c ∈ t.database.attachments, c.uid ≠ t.source.name t.draws Limit.uidLength := by
    rw [hrows, hsource]
    exact hserves.names _ hgathers.draws_le hgathers.draws_most
  have hlink : t.database.isSoundLink memo = true := by
    rw [Database.isSoundLink.eq_def, hmemos]
    exact hmemo
  obtain ⟨row, t₁, hinsert, hstore⟩ := exec_insertAttachment (b := g.backend)
    (a := newAttachment x.creator x.filename x.contentType x.size g.hash g.backend.kind g.key memo)
    g.isFresh hworks hname hlink
  obtain ⟨⟨uid, time, hrow⟩, hheld, -, -⟩ := insertAttachment_spec hinsert
  obtain ⟨source, hpicture⟩ := pictureSource_exec x t₁
  obtain ⟨thumbnail, hresult⟩ := withThumbnail_exec row setting source t₁
  obtain ⟨t₂, hthumbnail⟩ : ∃ t₂, (withThumbnail row setting source).exec t₁
    = (.ok { row with thumbnail := thumbnail }, t₂) := ⟨_, Prod.ext hresult rfl⟩
  obtain ⟨hentries, hmishaps₂, hends⟩ := (withThumbnail_settling _ _ _).of_exec hthumbnail
  have hdeletes : t₂.database.mishap? .session .delete = none := by
    rw [Database.mishap?, hmishaps₂, show t₁.database.mishaps = t.database.mishaps from
      congrArg Holdings.mishaps hheld, hmishaps]
    exact hserves.deletes
  obtain ⟨isDone, hrun⟩ := Database.run_deleteSession_of_works hdeletes x.id
  have hdelete : (transact (Database.deleteSession x.id)).exec t₂ = (.ok isDone, { t₂ with
      database := { t₂.database with
        sessions := t₂.database.sessions.filter (·.id != x.id) } }) := by
    rw [transact, exec_atomic, hrun]
  obtain ⟨u, hdiscard, hclearing, hgone⟩ := discardScratch_exec x { t₂ with
    database := { t₂.database with sessions := t₂.database.sessions.filter (·.id != x.id) } }
  refine ⟨{ row with thumbnail := thumbnail }, u, ?_, ?_⟩
  · rw [register, exec_bind_of_ok hinsert, exec_bind_of_ok hpicture, exec_bind_of_ok hthumbnail,
      exec_bind_of_ok hdelete, exec_bind_of_ok hdiscard]
    rfl
  have hdatabase : u.database = { t₂.database with
      sessions := t₂.database.sessions.filter (·.id != x.id) } := by rw [hclearing]
  have hstore' : u.store = t₂.store := by rw [hclearing]
  refine ⟨congrArg Attachment.size hrow, ?_, ?_, hgone, hgathers.joins.of_outcomes ?_⟩
  · rw [hdatabase]
    show t₂.database.attachments.map (·.entry) = _
    rw [hentries, show t₁.database.attachments = row :: t.database.attachments from
      congrArg Holdings.attachments hheld, hrows]
    rfl
  · rw [hdatabase]
    refine List.find?_eq_none.mpr fun y hy hid => ?_
    exact bne_iff_ne.mp (List.mem_filter.mp hy).2 (beq_iff_eq.mp hid)
  · rw [hstore', hends, hstore]

/-- **A request to complete an upload commits or is refused.** -/
theorem completeSession_exec (hsession : s.database.session? id = some x) (hserves : s.Serves x) :
    s.Completes x ((completeSession (some x.creator) id).exec s) := by
  obtain ⟨setting, hsetting, hreach⟩ := hserves.setting
  obtain ⟨t, hread⟩ : ∃ t, storageSetting.exec s = (.ok setting, t) := ⟨_, Prod.ext hsetting rfl⟩
  have hobserved : Footprint.observing.rel s t := storageSetting_observing.of_exec hread
  rw [completeSession_eq, exec_bind_of_ok (exec_ownSession hsession), exec_bind_of_ok hread]
  rcases exec_memoLink_of_observing hobserved x with
    ⟨hlink, memo, hmemo, hsound⟩ | ⟨e, hunlinks, hmemo⟩
  · rw [exec_bind_of_ok hmemo]
    have hgather := gather_exec hserves hreach hobserved
    rcases hexec : (gather x setting).exec t with ⟨e | g, u⟩ <;> rw [hexec] at hgather
    · rw [exec_bind_of_error hexec]
      cases hgather with
      | short hshort hrel => exact .refuse (.short hlink hshort) hrel
    · rw [exec_bind_of_ok hexec]
      cases hgather with
      | all hall hgathers =>
        obtain ⟨a, v, hregister, hcommits⟩ :=
          register_exec (g := g) setting hserves hgathers hsound
        rw [hregister]
        exact .commit hlink hall hcommits
  · rw [exec_bind_of_error hmemo]
    exact .refuse (.unlinked hunlinks) hobserved

/-- A session that is not there is not completed. -/
theorem completeSession_missing (h : s.database.session? id = none) (viewer : Viewer) :
    ∃ e, (completeSession viewer id).exec s = (.error e, s) := by
  rcases ownSession_spec viewer id s with ⟨y, -, hfound, -⟩ | ⟨e, hown, -⟩
  · cases h.symm.trans hfound
  · exact ⟨e, exec_bind_of_error hown⟩

/-- **When an upload becomes an attachment, and what comes of it.** It does so if and only if the
memo may still be linked and just as much has been received as was declared. Otherwise the request
is refused, and everything is as it was: something is missing, or it is told how much has been
received, unless a scratch file cannot be read. If it does, there is one attachment more,
of the declared size; the session is gone with its scratch files, parts have been joined from the
first one on, and whatever comes later, nobody completes the session again, unless its name is drawn
for another one.

The parts that count are a run, and their size is exact where it fits in a word. The memo of a
session that the server has opened can always be asked for. -/
theorem completeSession_gated (hsession : s.database.session? id = some x)
    (hserves : s.Serves x) :
    let r := (completeSession (some x.creator) id).exec s
    ((∃ a, r.1 = .ok a) ↔ s.LinkHolds x ∧ s.received? x = some x.size)
      ∧ (∀ e, r.1 = .error e → s.Refuses x e ∧ Footprint.observing.rel s r.2
        ∧ (x.NamesMemo → s.CanRead x → (∃ what, e = .notFound what)
          ∨ ∃ n, s.received? x = some n ∧ e = .uploadIncomplete n x.size))
      ∧ (∀ a, r.1 = .ok a → s.Commits r.2 x a ∧ ∀ (events : List Event) (viewer : Viewer),
          ¬ r.2.source.HasNamed r.2.draws (r.2.through events).draws id →
            ∃ e, (completeSession viewer id).exec (r.2.through events)
              = (.error e, r.2.through events))
      ∧ (∀ parts : List Part, IsRun parts (contiguous parts)
        ∧ (isInt64 (sizeSum (contiguous parts)) →
          totalSize (contiguous parts) = sizeSum (contiguous parts)))
      ∧ (∀ (s₀ : State) events, s₀.database.sessions = [] → s = s₀.through events →
        x.NamesMemo) := by
  have hid : x.id = id := beq_iff_eq.mp (List.find?_some hsession :)
  have hnames : ∀ (s₀ : State) events, s₀.database.sessions = [] → s = s₀.through events →
      x.NamesMemo := by
    rintro s₀ events hnone rfl
    exact namesMemo_through hnone events (List.mem_of_find?_eq_some hsession)
  have hcompletes := completeSession_exec hsession hserves
  dsimp only
  generalize (completeSession (some x.creator) id).exec s = r at hcompletes
  cases hcompletes with
  | commit hlink hall hcommits =>
    refine ⟨iff_of_true ⟨_, rfl⟩ ⟨hlink, hall⟩, fun e he => (by cases he), fun a ha => ?_,
      fun _ => ⟨contiguous_isRun _, totalSize_of_fits⟩, hnames⟩
    cases ha
    refine ⟨hcommits, fun events viewer hname => completeSession_missing ?_ viewer⟩
    exact session?_through (hid ▸ hcommits.closed) events hname
  | refuse hrefuses hrel =>
    refine ⟨iff_of_false (fun ⟨a, ha⟩ => by cases ha) hrefuses.not_open, fun e he => ?_,
      fun a ha => (by cases ha), fun _ => ⟨contiguous_isRun _, totalSize_of_fits⟩, hnames⟩
    cases he
    exact ⟨hrefuses, hrel, hrefuses.reason⟩

/-- The name of the first upload. -/
def firstUpload : String := numberedServer.source.sessionName 0

/-- A user has sent three bytes in two chunks. -/
def chunkedNotes : State :=
  numberedServer.after
    [.createSession (some 7) { filename := "notes.txt", size := 3 },
      .appendChunk (some 7) firstUpload 0 ⟨#[1, 2]⟩, .appendChunk (some 7) firstUpload 2 ⟨#[3]⟩]

/-- Where the bytes are. -/
def notesPath : String := scratchPath "uploads" firstUpload ".part"

theorem chunkedNotes_session :
    (chunkedNotes.database.session? firstUpload).map
        (fun x => (x.creator, x.size, x.received, x.memoName, x.target))
      = some (7, 3, 3, none, .scratch notesPath) := by
  decide +kernel

theorem chunkedNotes_serves {x : Session}
    (hsession : chunkedNotes.database.session? firstUpload = some x)
    (htarget : x.target = .scratch notesPath) : chunkedNotes.Serves x where
  setting := ⟨_, rfl, .inr ⟨⟨_, htarget⟩, rfl⟩⟩
  calls what := rfl
  places path content hpath hfile _ := by
    obtain rfl := Target.scratch.inj (htarget.symm.trans hpath)
    have hplaced : ((chunkedNotes.database.session? firstUpload).all fun x =>
        ((readScratch notesPath >>= place chunkedNotes.storeForNew x).exec chunkedNotes).1.isOk)
          = true := by
      decide +kernel
    rw [hsession, Option.all_some, exec_bind_of_ok (exec_readScratch hfile)] at hplaced
    exact exists_of_isOk hplaced
  inserts := rfl
  names i _ _ a ha := by
    rw [show chunkedNotes.database.attachments = [] from rfl] at ha
    cases ha
  deletes := rfl

/-- The parts of a film. -/
def filmParts : List Part :=
  [⟨1, 8388608, "film-1"⟩, ⟨2, 8388608, "film-2"⟩, ⟨3, 4194304, "film-3"⟩]

/-- A user has sent the film. -/
def filmInParts : State :=
  State.after { bucketServer with store := {} }
    (.createSession (some 7) { filename := "film.bin", size := 20971520 }
      :: filmParts.map (.clientPart firstUpload))

theorem filmInParts_session :
    (filmInParts.database.session? firstUpload).map
        (fun x => (x.creator, x.size, x.memoName, x.target))
      = some (7, 20971520, none,
        .multipart "attachments/000000000000000000000001.bin" "upload-1" 8388608) := by
  decide +kernel

theorem filmInParts_serves {x : Session} {key upload : String} {partSize : Int}
    (htarget : x.target = .multipart key upload partSize) : filmInParts.Serves x where
  setting := ⟨_, rfl, .inl rfl⟩
  calls what := rfl
  places path content hpath _ _ := by cases htarget.symm.trans hpath
  inserts := rfl
  names i _ _ a ha := by
    rw [show filmInParts.database.attachments = [] from rfl] at ha
    cases ha
  deletes := rfl

theorem linkHolds_of_none (h : x.memoName = none) (s : State) : s.LinkHolds x := by
  intro name hname
  rw [h] at hname
  cases hname

/-- The notes become an attachment, and so does the film, of which three parts are joined. -/
theorem completeSession_gated_uploads :
    (∃ a t, (completeSession (some 7) firstUpload).exec chunkedNotes = (.ok a, t) ∧ a.size = 3
        ∧ t.database.session? firstUpload = none ∧ t.HasNoFile notesPath)
      ∧ ∃ a t, (completeSession (some 7) firstUpload).exec filmInParts = (.ok a, t)
        ∧ a.size = 20971520 ∧ t.store.outcomes = [.completed "upload-1" [1, 2, 3]] := by
  constructor
  · obtain ⟨x, hsession, hx⟩ := Option.map_eq_some_iff.mp chunkedNotes_session
    simp only [Prod.mk.injEq] at hx
    obtain ⟨hcreator, hsize, hreceived, hmemo, htarget⟩ := hx
    have hall : chunkedNotes.received? x = some x.size := by
      rw [received?_of_scratch htarget (hreceived.trans hsize.symm), hsize]
      decide +kernel
    obtain ⟨hiff, -, hcommits, -⟩ :=
      completeSession_gated hsession (chunkedNotes_serves hsession htarget)
    obtain ⟨a, ha⟩ := hiff.mpr ⟨linkHolds_of_none hmemo _, hall⟩
    obtain ⟨hdone, -⟩ := hcommits a ha
    rw [hcreator] at ha hdone
    have hid : x.id = firstUpload := beq_iff_eq.mp (List.find?_some hsession :)
    exact ⟨a, _, Prod.ext ha rfl, hdone.size.trans hsize, hid ▸ hdone.closed,
      hdone.cleared _ (.inl htarget)⟩
  · obtain ⟨x, hsession, hx⟩ := Option.map_eq_some_iff.mp filmInParts_session
    simp only [Prod.mk.injEq] at hx
    obtain ⟨hcreator, hsize, hmemo, htarget⟩ := hx
    have hupload : filmInParts.store.upload? "upload-1"
        = some ⟨"upload-1", "attachments/000000000000000000000001.bin", filmParts⟩ := by
      decide +kernel
    have hparts : contiguous filmParts = filmParts := by
      rw [contiguous, List.mergeSort_of_pairwise (by decide)]
      rfl
    have hall : filmInParts.received? x = some x.size := by
      rw [State.received?, htarget, hsize]
      dsimp only
      rw [hupload, Option.map_some, hparts]
      decide
    obtain ⟨hiff, -, hcommits, -⟩ := completeSession_gated hsession (filmInParts_serves htarget)
    obtain ⟨a, ha⟩ := hiff.mpr ⟨linkHolds_of_none hmemo _, hall⟩
    obtain ⟨hdone, -⟩ := hcommits a ha
    rw [hcreator] at ha hdone
    have hjoins := hdone.joins
    rw [htarget] at hjoins
    obtain ⟨pending, hpending, hends⟩ := hjoins
    obtain rfl := Option.some.inj (hpending.symm.trans hupload)
    refine ⟨a, _, Prod.ext ha rfl, hdone.size.trans hsize, ?_⟩
    rw [hends, hparts]
    rfl

end Server

end SharedMemos
