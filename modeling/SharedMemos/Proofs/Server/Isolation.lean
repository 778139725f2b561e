import SharedMemos.Proofs.Lookup
import SharedMemos.Proofs.Server.Sparing

/-!
# Users do not write to each other's data

Whatever a viewer asks for, and however the request ends, the viewer cannot change what others have:
no memo but those that the viewer may change, no attachment and no upload of another user, no
scratch file of such an upload, and no object that such an attachment or upload refers to. There is
one exception. Whoever may delete a memo takes the links to it from all attachments, and these can
be those of others.

This holds in every state that a run reaches. Requests of all kinds may have come before, in any
order, and between them the server swept expired uploads, clients stored objects, and everything
that requests only look at may have become something else (`Event.surroundings`).

Names must not come again, for two different reasons. A storage key that came again would lead to
the object of another user. The scratch file of an upload is written before its row is added, and
if the name of another user's upload came again, the database would refuse the row too late.

## Main definitions

* `Event` — what can happen to the server
* `LeavesOthers` — what a request leaves to others

## Main results

* `Write.Commits.moves` — what a request to write memos does to rows
* `Event.step` — what one event keeps
* `leavesOthers_after` — every request in every state that is reached
-/

namespace SharedMemos

/-- May the viewer change the memo and delete it? Nobody in particular may. -/
def Memo.isModifiableBy (m : Memo) (viewer : Viewer) : Bool :=
  viewer.any m.canModify

namespace Server

open SharedMemos.Storage SharedMemos.Upload Attempt Database

/-! ### Events -/

/-- What can happen to the server. -/
inductive Event where
  | write (w : Write)
  | turn (turn : Turn)
  /-- What requests only look at becomes as it is in another state: settings, recorded events,
  clients of buckets, the clock, and what goes wrong. -/
  | surroundings (other : State)

/-- A state in the surroundings of another: what is kept for users is as it was, and so are the
names. -/
def State.amid (s other : State) : State :=
  { other with
    database := { other.database with
      memos := s.database.memos
      lastMemo := s.database.lastMemo
      attachments := s.database.attachments
      lastAttachment := s.database.lastAttachment
      sessions := s.database.sessions }
    resolver := { other.resolver with isTied := s.resolver.isTied }
    disk := s.disk
    store := { other.store with objects := s.store.objects }
    scratchDirectory := s.scratchDirectory
    scratch := s.scratch
    source := s.source
    draws := s.draws }

/-- What happens in an event. -/
def Event.act : Event → Action Unit
  | write w => w.act
  | turn t => t.act
  | surroundings other => Attempt.atomic fun s => (.ok (), s.amid other)

/-- Who makes a request to write. -/
def Write.viewer : Write → Viewer
  | create viewer _ | update viewer _ _ | delete viewer _ => viewer

/-- Who makes the request, if the event is one. -/
def Event.issuer : Event → Option Viewer
  | write w => some w.viewer
  | turn t => t.issuer
  | surroundings _ => none

/-- The state after a number of events, whether they succeed or fail. -/
def State.through (s : State) (events : List Event) : State :=
  events.foldl (fun s event => (event.act.exec s).2) s

/-! ### What others keep -/

/-- An attachment is the same. If the memo was there that it is linked to, it still is. -/
structure IsUnchanged (s t : State) (a : Attachment) : Prop where
  row : t.database.attachmentByUid? a.uid = some a
  link : ∀ m ∈ s.database.memos, a.memo = some m.id → ∃ n ∈ t.database.memos, n.id = m.id

/-- An attachment has lost its link, since the viewer has deleted the memo, and may do so. -/
structure IsUnlinked (viewer : Viewer) (event : Event) (s t : State) (a : Attachment) : Prop where
  deletes : ∃ uid m, event = .write (.delete viewer uid) ∧ s.database.memoByUid? uid = some m
    ∧ m.isModifiableBy viewer ∧ a.memo = some m.id ∧ t.database.memoByUid? uid = none
  row : t.database.attachmentByUid? a.uid
    = some { a with memo := none, updated := s.source.time s.looks }

/-- A request of a viewer leaves to others what they have. -/
structure LeavesOthers (viewer : Viewer) (event : Event) (s t : State) : Prop where
  /-- Memos that the viewer may not change are the same. -/
  memo : ∀ m ∈ s.database.memos, m.isModifiableBy viewer = false →
    t.database.memoByUid? m.uid = some m
  /-- Attachments of others are the same, but for links to a memo that has been deleted. -/
  attachment : ∀ a ∈ s.database.attachments, viewer ≠ some a.creator →
    IsUnchanged s t a ∨ IsUnlinked viewer event s t a
  /-- Uploads of others are the same. -/
  session : ∀ x ∈ s.database.sessions, viewer ≠ some x.creator →
    t.database.session? x.id = some x
  /-- Their scratch files are the same. -/
  scratch : ∀ x ∈ s.database.sessions, viewer ≠ some x.creator →
    ∀ path, x.Keeps path → t.scratch? path = s.scratch? path
  /-- The objects and the thumbnails of attachments of others are there, and they are the same. -/
  object : ∀ a ∈ s.database.attachments, viewer ≠ some a.creator → ∀ key ∈ objectKeys a,
    ∃ content, s.object? a.storage key = some content ∧ t.object? a.storage key = some content
  /-- Objects that others have stored for their uploads are the same. -/
  uploaded : ∀ x ∈ s.database.sessions, viewer ≠ some x.creator →
    ∀ key, x.target.key? = some key → ∀ content,
      s.object? .bucket key = some content → t.object? .bucket key = some content
  /-- Nobody in particular changes nothing at all. -/
  anonymous : viewer = none → t = s

variable {source : Source} {first last : Nat} {s t : State} {viewer : Viewer} {w : Write}
  {event : Event}

/-- Requests that nobody in particular makes are refused before anything is done. -/
theorem Event.exec_of_anonymous (h : event.issuer = some none) : (event.act.exec s).2 = s := by
  cases event with
  | write w =>
    rw [issuer, Option.some.injEq] at h
    cases w <;> cases h <;> rfl
  | turn turn => cases turn <;> cases h <;> rfl
  | surroundings other => cases h

/-! ### Finding rows -/

theorem Database.IsKeyed.memoByUid?_eq {d : Database} (h : d.IsKeyed) {m : Memo}
    (hm : m ∈ d.memos) : d.memoByUid? m.uid = some m :=
  find?_eq_some_of_only hm fun other hother => h.uid other hother m hm

namespace IsTidy

theorem attachmentByUid?_eq (h : IsTidy source first s) {a : Attachment}
    (ha : a ∈ s.database.attachments) : s.database.attachmentByUid? a.uid = some a :=
  h.uids.attachmentByUid?_eq h.sound ha

theorem session?_eq (h : IsTidy source first s) {x : Session} (hx : x ∈ s.database.sessions) :
    s.database.session? x.id = some x :=
  (find?_eq_some_iff_of_nodup h.sound.filed.distinct).mpr ⟨hx, rfl⟩

/-- The objects that an attachment refers to are there, at its key and at that of its thumbnail. -/
theorem exists_object (h : IsTidy source first s) {a : Attachment}
    (ha : a ∈ s.database.attachments) {key : String} (hkey : key ∈ objectKeys a) :
    (key = a.storageKey ∨ key = Filename.thumbnailKey a.storageKey)
      ∧ ∃ content, s.object? a.storage key = some content := by
  rcases List.mem_cons.mp hkey with rfl | hkey
  · exact ⟨.inl rfl, h.sound.stocked.object a ha⟩
  · obtain ⟨thumbnail, hthumbnail, rfl⟩ :=
      Option.map_eq_some_iff.mp (Option.mem_toList.mp hkey)
    obtain ⟨hsame, content, hcontent, -⟩ := h.sound.stocked.thumbnail a ha thumbnail hthumbnail
    exact ⟨.inr hsame, content, hcontent⟩

end IsTidy

/-! ### Turns -/

theorem Spares.mem_memos {party : UserId → Prop} (h : Spares party s t) {m : Memo}
    (hm : m ∈ s.database.memos) : m ∈ t.database.memos := by
  have hmemos : t.database.memos = s.database.memos := h.memos
  rw [hmemos]
  exact hm

/-- Where only the uploads and attachments of the viewer are concerned, others keep what they
have. -/
theorem Spares.leavesOthers {party : UserId → Prop} (h : Spares party s t)
    (hs : IsTidy source first s) (ht : IsTidy source first t)
    (hother : ∀ user, viewer ≠ some user → ¬ party user) (hanonymous : viewer = none → t = s) :
    LeavesOthers viewer event s t where
  memo m hm _ := ht.keyed.memoByUid?_eq (h.mem_memos hm)
  attachment a ha huser := .inl ⟨ht.attachmentByUid?_eq (h.attachment a ha (hother _ huser)),
    fun m hm _ => ⟨m, h.mem_memos hm, rfl⟩⟩
  session x hx huser := ht.session?_eq (h.session x hx (hother _ huser))
  scratch x hx huser := h.scratch x hx (hother _ huser)
  object a ha huser key hkey := by
    have hown := Holdings.owns_of_mem (h := s.holdings) ha
    obtain ⟨rfl | rfl, content, hcontent⟩ := hs.exists_object ha hkey
    · exact ⟨content, hcontent, h.object _ _ _ hown (hother _ huser) content hcontent⟩
    · exact ⟨content, hcontent, h.thumbnail _ _ _ hown (hother _ huser) content hcontent⟩
  uploaded x hx huser key hkey :=
    h.object _ _ _ (Holdings.owns_of_session hx hkey) (hother _ huser)
  anonymous := hanonymous

/-! ### Requests to write memos -/

/-- What a request to write memos does to rows: it puts one in, for nothing or for one that its
viewer may change, or it takes such a row out and takes from all attachments the links to it. -/
inductive Write.Moves (s : State) (d : Database) : Write → Prop where
  | exchange {w : Write} {before after : Option Memo}
      (hmine : ∀ row ∈ before, row.isModifiableBy w.viewer)
      (hnew : ∀ row ∈ before, ∃ m, m ∈ after)
      (hswap : Swap before after s.database d)
      (hlinks : d.attachments = s.database.attachments) : Moves s d w
  | remove {viewer : Viewer} {uid : String} {row : Memo} (hmine : row.isModifiableBy viewer)
      (hrow : s.database.memoByUid? uid = some row)
      (hswap : Swap (some row) none s.database d)
      (hlinks : d.attachments
        = s.database.attachments.map (unlinked row (s.source.time s.looks))) :
      Moves s d (.delete viewer uid)

/-- **A request to write memos does no more than it should.** -/
theorem Write.Commits.moves {d : Database} (h : w.Commits s d) (hs : s.database.IsKeyed) :
    w.Moves s d ∧ d.lastAttachment = s.database.lastAttachment
      ∧ d.sessions = s.database.sessions := by
  cases h with
  | create hrun =>
    refine ⟨.exchange ?_ ?_ (insertMemo_swap hrun) ?_, ?_, ?_⟩
    · rintro row ⟨⟩
    · rintro row ⟨⟩
    all_goals
      obtain ⟨-, -, rfl⟩ := run_insertMemo hrun
      rfl
  | @update user uid edit row m hrow hmodify hrun =>
    have hmem := List.mem_of_find?_eq_some hrow
    refine ⟨.exchange ?_ ?_ (updateMemo_swap (m := edit.apply row) hs hmem rfl hrun) ?_, ?_, ?_⟩
    · rintro _ ⟨⟩
      exact hmodify
    · exact fun _ _ => ⟨_, rfl⟩
    all_goals
      obtain ⟨kept, -, -, hd⟩ := run_updateMemo hrun
      rw [hd]
      split <;> rfl
  | delete hrow hmodify hrun =>
    have hswap := deleteMemo_swap (List.mem_of_find?_eq_some hrow) hrun
    refine ⟨.remove hmodify hrow hswap ?_, ?_, ?_⟩
    all_goals
      obtain ⟨kept, -, rfl⟩ := run_deleteMemo hrun
      rfl

/-- A request to write memos changes no holdings but rows of memos and links to them. -/
theorem Write.Leaves.keepsFiles (h : w.Leaves s t)
    (hlast : t.database.lastAttachment = s.database.lastAttachment)
    (hsessions : t.database.sessions = s.database.sessions) : KeepsFiles s t := by
  obtain ⟨houtside, -⟩ := h
  rw [KeepsFiles]
  generalize t.database = d, t.looks = looks, t.draws = draws at houtside hlast hsessions
  subst houtside
  simp only [State.holdings, hlast, hsessions]

/-- What a request to write memos does, however it ends. -/
theorem Write.moves (w : Write) (hs : s.database.IsKeyed) :
    w.Moves s (w.act.exec s).2.database ∧ KeepsFiles s (w.act.exec s).2 := by
  have hleaves := w.leaves s
  rcases hleaves.database with hsame | ⟨-, hcommits⟩
  · refine ⟨?_, hleaves.keepsFiles (by rw [hsame]) (by rw [hsame])⟩
    rw [hsame]
    exact .exchange (by rintro row ⟨⟩) (by rintro row ⟨⟩) (.refl _) rfl
  · obtain ⟨hmoves, hlast, hsessions⟩ := hcommits.moves hs
    exact ⟨hmoves, hleaves.keepsFiles hlast hsessions⟩

theorem unlinked_eq (m : Memo) (time : Instant) (a : Attachment) :
    unlinked m time a
      = { a with memo := (unlinked m time a).memo, updated := (unlinked m time a).updated } := by
  rw [unlinked]
  split <;> rfl

/-- A request to write memos leaves the rows told apart, and what is sound so. -/
theorem Write.isTidy (w : Write) (hs : IsTidy source first s) :
    IsTidy source first (w.act.exec s).2 := by
  obtain ⟨hmoves, hkept⟩ := w.moves hs.keyed
  have hdraws := (w.leaves s).draws
  cases hmoves with
  | exchange hmine hnew hswap hlinks =>
    exact hs.relink (fun _ => rfl) (hlinks.trans (List.map_id _).symm) hkept hdraws
      (hswap.isKeyed hs.keyed)
  | remove hmine hrow hswap hlinks =>
    exact hs.relink (unlinked_eq _ _) hlinks hkept hdraws (hswap.isKeyed hs.keyed)

/-- What becomes of the attachments of others in a request to write memos. -/
theorem Write.Moves.attachment (h : w.Moves s t.database) (hs : IsTidy source first s)
    (ht : IsTidy source first t) {a : Attachment} (ha : a ∈ s.database.attachments) :
    IsUnchanged s t a ∨ IsUnlinked w.viewer (.write w) s t a := by
  cases h with
  | exchange hmine hnew hswap hlinks =>
    exact .inl ⟨ht.attachmentByUid?_eq (hlinks ▸ ha), fun m hm _ => hswap.exists_id hnew hm⟩
  | @remove viewer uid row hmine hrow hswap hlinks =>
    have hmem : unlinked row (s.source.time s.looks) a ∈ t.database.attachments := by
      rw [hlinks]
      exact List.mem_map_of_mem ha
    have hfound := ht.attachmentByUid?_eq hmem
    by_cases hlinked : a.memo = some row.id
    · rw [unlinked, if_pos (beq_iff_eq.mpr hlinked)] at hfound
      refine .inr ⟨⟨uid, row, rfl, hrow, hmine, hlinked, ?_⟩, hfound⟩
      -- another memo with the uid would be the one that is gone
      refine List.find?_eq_none.mpr fun m hm huid => ?_
      obtain ⟨hm, hother⟩ := ((hswap.rows m).mp hm).resolve_left (by rintro ⟨⟩)
      have huid' : row.uid = uid := eq_of_beq (List.find?_some hrow :)
      have hsame := hs.keyed.uid m hm row (hswap.taken row rfl) ((eq_of_beq huid).trans huid'.symm)
      exact hother row rfl (congrArg Memo.id hsame)
    · rw [unlinked, if_neg (by rwa [beq_iff_eq])] at hfound
      refine .inl ⟨hfound, fun m hm hlink => ⟨m, hswap.stays hs.keyed hm ?_, rfl⟩⟩
      rintro ⟨⟩
      exact hlinked hlink

/-- **A request to write memos leaves to others what they have.** -/
theorem Write.leavesOthers (w : Write) (hs : IsTidy source first s) :
    LeavesOthers w.viewer (.write w) s (w.act.exec s).2 := by
  obtain ⟨hmoves, hkept⟩ := w.moves hs.keyed
  have ht := w.isTidy hs
  have hanonymous : w.viewer = none → ((Event.write w).act.exec s).2 = s :=
    fun hnone => Event.exec_of_anonymous (congrArg some hnone)
  rw [Event.act] at hanonymous
  generalize (w.act.exec s).2 = t at hmoves hkept ht hanonymous
  rw [KeepsFiles] at hkept
  have hobject : ∀ kind key, t.object? kind key = s.object? kind key :=
    Holdings.object?_of_same (by rw [hkept]) (by rw [hkept])
  have hsessions : ∀ x ∈ s.database.sessions, x ∈ t.holdings.sessions := by
    rw [hkept]
    exact fun x hx => hx
  refine ⟨fun m hm hother => ?_, fun a ha _ => hmoves.attachment hs ht ha,
    fun x hx _ => ht.session?_eq (hsessions x hx), fun _ _ _ path _ => ?_,
    fun a ha _ key hkey => ?_, fun _ _ _ key _ content => ?_, hanonymous⟩
  · refine ht.keyed.memoByUid?_eq ?_
    cases hmoves with
    | exchange hmine _ hswap _ =>
      refine hswap.stays hs.keyed hm fun hrow => ?_
      exact absurd (hmine m hrow) (Bool.eq_false_iff.mp hother)
    | remove hmine _ hswap _ =>
      refine hswap.stays hs.keyed hm ?_
      rintro ⟨⟩
      exact absurd hmine (Bool.eq_false_iff.mp hother)
  · exact scratch?_of_scratch (by rw [hkept]) path
  · obtain ⟨-, content, hcontent⟩ := hs.exists_object ha hkey
    exact ⟨content, hcontent, (hobject _ _).trans hcontent⟩
  · exact (hobject _ _).trans

/-! ### Runs -/

/-- **A request leaves to others what they have**, and every event keeps what that relies on. -/
theorem Event.step (event : Event) (hnames : source.NeverRepeats first last)
    (hids : source.NeverRepeatsSessions first last) (s : State) :
    s.draws ≤ (event.act.exec s).2.draws
      ∧ ((event.act.exec s).2.draws ≤ last → IsTidy source first s →
        IsTidy source first (event.act.exec s).2
          ∧ ∀ viewer, event.issuer = some viewer →
            LeavesOthers viewer event s (event.act.exec s).2) := by
  cases event with
  | write w =>
    refine ⟨(w.leaves s).draws, fun _ hs => ⟨w.isTidy hs, ?_⟩⟩
    rintro viewer ⟨⟩
    exact w.leavesOthers hs
  | turn turn =>
    obtain ⟨hdraws, hturn⟩ := turn.spares hnames hids s
    refine ⟨hdraws, fun hlast hs => ?_⟩
    obtain ⟨ht, hspares⟩ := hturn hlast hs
    refine ⟨ht, fun viewer hissuer => hspares.leavesOthers hs ht ?_ ?_⟩
    · exact fun user huser hacts => huser (hacts viewer hissuer)
    · rintro rfl
      exact Event.exec_of_anonymous hissuer
  | surroundings other =>
    refine ⟨Nat.le_refl _, fun _ hs => ⟨?_, fun viewer hissuer => by cases hissuer⟩⟩
    exact hs.relink (fun _ => rfl) (List.map_id _).symm rfl (Nat.le_refl _)
      (hs.keyed.of_same rfl rfl)

/-- A run takes no draw back, and it leaves a state tidy as long as no name comes again. -/
theorem isTidy_through (hnames : source.NeverRepeats first last)
    (hids : source.NeverRepeatsSessions first last) (events : List Event) (s : State) :
    s.draws ≤ (s.through events).draws
      ∧ ((s.through events).draws ≤ last → IsTidy source first s →
        IsTidy source first (s.through events)) := by
  induction events generalizing s with
  | nil => exact ⟨Nat.le_refl _, fun _ hs => hs⟩
  | cons event events ih =>
    obtain ⟨hdraws, hevent⟩ := event.step hnames hids s
    obtain ⟨hdraws', hevents⟩ := ih (event.act.exec s).2
    refine ⟨Nat.le_trans hdraws hdraws', fun hlast hs => hevents hlast ?_⟩
    exact (hevent (Nat.le_trans hdraws' hlast) hs).1

theorem isTidy_of_empty (hmemos : s.database.memos = [])
    (hattachments : s.database.attachments = []) (hsessions : s.database.sessions = []) :
    IsTidy s.source s.draws s := by
  refine ⟨isSound_of_empty hattachments hsessions, fun a ha => ?_, isKeyed_of_empty hmemos⟩
  rw [show s.holdings.attachments = [] from hattachments] at ha
  exact absurd ha List.not_mem_nil

/-- **No request changes what others have.** Whatever has come since the server was empty, in
whatever order and however it ended, as long as no name for a storage key or an upload comes
twice. -/
theorem leavesOthers_after {s₀ : State} (hmemos : s₀.database.memos = [])
    (hattachments : s₀.database.attachments = []) (hsessions : s₀.database.sessions = [])
    (events : List Event) (event : Event) (viewer : Viewer) (hissuer : event.issuer = some viewer)
    (hnames : s₀.source.NeverRepeats s₀.draws (event.act.exec (s₀.through events)).2.draws)
    (hids : s₀.source.NeverRepeatsSessions s₀.draws
      (event.act.exec (s₀.through events)).2.draws) :
    LeavesOthers viewer event (s₀.through events) (event.act.exec (s₀.through events)).2 := by
  obtain ⟨hdraws, hevent⟩ := event.step hnames hids (s₀.through events)
  have htidy := (isTidy_through hnames hids events s₀).2 hdraws
    (isTidy_of_empty hmemos hattachments hsessions)
  exact (hevent (Nat.le_refl _) htidy).2 viewer hissuer

/-- A user adds a file to a plan that is shared, and loses access to the plan; the user also keeps a
diary, and an upload is under way. -/
def unsharedPlan : List Event :=
  [.write (.create (some 8) { content := "plan", tags := ["collab/7"] }),
    .turn (.createAttachment (some 7)
      { filename := "plan.txt", content := "AQID"
        memoName := some ("memos/" ++ Text.showPadded Limit.uidLength 0) }),
    .write (.create (some 7) { content := "diary" }),
    .turn (.createSession (some 7) { filename := "diary.txt", size := 2 }),
    .write (.update (some 8) (Text.showPadded Limit.uidLength 0) { tags := some [] })]

/-- The plan is deleted by the user who has made it. -/
def deletedPlan : Event :=
  .write (.delete (some 8) (Text.showPadded Limit.uidLength 0))

/-- The file loses its link to the plan; it stays, and so do the diary and the upload. -/
theorem leavesOthers_after_unsharedPlan :
    ((numberedServer.through unsharedPlan).database.attachments.map fun a => (a.creator, a.memo))
        = [(7, some 1)]
      ∧ ((deletedPlan.act.exec (numberedServer.through unsharedPlan)).2.database.attachments.map
          fun a => (a.creator, a.memo)) = [(7, none)]
      ∧ LeavesOthers (some 8) deletedPlan (numberedServer.through unsharedPlan)
        (deletedPlan.act.exec (numberedServer.through unsharedPlan)).2 := by
  refine ⟨by decide +kernel, by decide +kernel, ?_⟩
  exact leavesOthers_after rfl rfl rfl unsharedPlan deletedPlan (some 8) rfl
    (numberedServer_neverRepeats _ _) (numberedServer_neverRepeatsSessions _ _)

end Server

end SharedMemos
