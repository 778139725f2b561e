import SharedMemos.Proofs.Server.Uploads.Sessions

/-!
# Uploads keep what lasts

While an upload goes on, nothing that attachments stand for is touched: only scratch files and the
rows of sessions change. What a session may do to objects it does when it ends. If it is completed,
its key is ready for the attachment of its user; if it is given up, an object of its own is removed,
unless an attachment has it.

The scratch file of a session is written before its row is added, and so the only time that names of
sessions count is when one is drawn (`drawSession_upholds`). It does not matter where nobody is to
be spared.

A session that is completed is digested: the content of its scratch file, or a text that names the
upload (`Digested.Covers`).

## Main results

* `appendChunk_upholds`, `sendThumbnail_upholds`, `partAddress_upholds` — going on
* `createSession_upholds`, `completeSession_upholds`, `cancelSession_upholds`,
  `sweepExpired_upholds` — beginning and ending
-/

namespace SharedMemos.Server

open SharedMemos.Storage SharedMemos.Upload SharedMemos.Bytes Attempt

variable {digested : Digested} {source : Source} {first last : Nat} {party : UserId → Prop}
  {inv : State → Prop} {s t : State} {key : String} {b : Backend}

/-! ### Finding a session -/

/-- A session of the viewer is one that is there, and known to be one of the users'. -/
theorem ownSession_upholds (hinv : IsLasting digested source first party inv) {viewer : Viewer}
    (hviewer : ∀ user, viewer = some user → party user) (id : String)
    (p : Session → State → Prop) :
    (ownSession viewer id).Upholds last inv
      (fun s => inv s ∧ ∀ x, s.database.session? id = some x → p x s)
      fun x s => ((inv s ∧ IsHeld party id x s) ∧ x ∈ s.holdings.sessions) ∧ p x s := by
  intro s
  rcases ownSession_spec viewer id s with ⟨x, hown, hfind, hcreator⟩ | ⟨e, hown, -⟩
  · rw [hown]
    refine ⟨Nat.le_refl _, fun _ ⟨hs, hp⟩ => ?_⟩
    have hx : x ∈ s.holdings.sessions := List.mem_of_find?_eq_some hfind
    have hmeant := List.find?_some (p := fun y : Session => y.id == id) hfind
    have hheld := (hinv.sound hs).isHeld hx (hviewer _ hcreator)
    rw [beq_iff_eq.mp hmeant] at hheld
    exact ⟨⟨⟨hs, hheld⟩, hx⟩, hp x hfind⟩
  · rw [hown]
    exact ⟨Nat.le_refl _, fun _ hs => hs.1⟩

/-- A request about a session of the viewer keeps what lasts if what it does with the session
does. -/
theorem ownSession_bind_upholds {α : Type} (hinv : IsLasting digested source first party inv)
    {viewer : Viewer} (hviewer : ∀ user, viewer = some user → party user) (id : String)
    {f : Session → Action α}
    (hf : ∀ x, (f x).Upholds last (fun s => inv s ∧ IsHeld party id x s)
      (fun s => inv s ∧ IsHeld party id x s) fun _ s => inv s ∧ IsHeld party id x s) :
    (ownSession viewer id >>= f).Upholds last inv inv fun _ => inv := by
  refine .bind ((ownSession_upholds hinv hviewer id fun _ _ => True).weaken_pre fun s hs =>
    ⟨hs, fun _ _ => trivial⟩) fun x => ?_
  exact ((hf x).of_more fun _ hs => hs.1).weaken_pre fun _ hs => hs.1.1

/-! ### Going on -/

/-- **Sending a chunk keeps what lasts.** -/
theorem appendChunk_upholds (hinv : IsLasting digested source first party inv) {viewer : Viewer}
    (hviewer : ∀ user, viewer = some user → party user) (id : String) (offset : Int)
    (chunk : ByteArray) :
    (appendChunk viewer id offset chunk).Upholds last inv inv fun _ => inv := by
  refine ownSession_bind_upholds hinv hviewer id fun x => ?_
  have hheld := hinv.isHeld id x
  split
  · rename_i path htarget
    dsimp only
    split
    · exact .throw_bind fun _ hs => hs
    · split
      · exact .throw_bind fun _ hs => hs
      · split
        · exact .throw_bind fun _ hs => hs
        · refine .bind (filing_upholds hheld (writeScratchAt_filing path _ chunk) fun s hs =>
            ⟨hs.2.mine, hs.2.files path (.inl htarget)⟩) fun _ => ?_
          refine .bind (changeSession_upholds hheld (fun _ hs => hs.2.mine) (fun _ _ => rfl)
            fun _ _ _ _ _ _ hat => .inl hat) fun isDone => ?_
          split
          · exact .pure fun _ hs => hs
          · refine .bind (quiet_upholds hheld (query_quiet _)) fun current => ?_
            split
            · exact .throw fun _ hs => hs
            · exact .throw fun _ hs => hs
  · exact .throw fun _ hs => hs

/-- Where scratch files are does not change. -/
theorem IsLasting.scratchDirectory (hinv : IsLasting digested source first party inv)
    (directory : String) : IsLasting digested source first party fun s =>
      inv s ∧ s.holdings.scratchDirectory = directory :=
  hinv.and fun _ h hdeed => hdeed.scratchDirectory_eq.trans h

theorem directory_upholds (inv : State → Prop) :
    (Attempt.look (·.scratchDirectory) : Action String).Upholds last inv inv
      fun directory s => inv s ∧ s.holdings.scratchDirectory = directory :=
  fun _ => ⟨Nat.le_refl _, fun _ hs => ⟨hs, rfl⟩⟩

/-- Sending a picture keeps what lasts. -/
theorem sendThumbnail_upholds (hinv : IsLasting digested source first party inv) {viewer : Viewer}
    (hviewer : ∀ user, viewer = some user → party user) (id : String) (picture : Blob) :
    (sendThumbnail viewer id picture).Upholds last inv inv fun _ => inv := by
  refine ownSession_bind_upholds hinv hviewer id fun x => ?_
  have hheld := hinv.isHeld id x
  dsimp only
  split
  · exact .throw_bind fun _ hs => hs
  · split
    · exact .throw_bind fun _ hs => hs
    · refine .bind (directory_upholds _) fun directory => ?_
      have hthere := hheld.scratchDirectory directory
      have hfile : ∀ s, (inv s ∧ IsHeld party id x s) ∧ s.holdings.scratchDirectory = directory →
          IsMine party x.id s ∧ IsFileOf s.holdings.scratchDirectory x.id
            (scratchPath directory x.id ".thumb") := by
        rintro s ⟨⟨-, hs⟩, rfl⟩
        rw [hs.id_eq]
        exact ⟨hs.mine, .inr rfl⟩
      refine (Upholds.of_more ?_ fun _ hs => hs.1).weaken (fun _ hs => hs) fun _ _ hs => hs
      refine .bind (filing_upholds hthere (writeScratch_filing _ picture) hfile) fun _ => ?_
      refine .bind (changeSession_upholds hthere (fun s hs => (hfile s hs).1) (fun _ _ => rfl)
        ?_) fun isDone => ?_
      · rintro s hs time y - path (hat | hat)
        · exact .inl (.inl hat)
        · cases hat
          exact .inr (hfile s hs).2
      · split
        · exact .bind (filing_upholds hthere (removeScratch_filing _) hfile) fun _ =>
            .throw fun _ hs => hs
        · exact .pure fun _ hs => hs

/-- Asking where to send a part keeps what lasts. -/
theorem partAddress_upholds (hinv : IsLasting digested source first party inv) {viewer : Viewer}
    (hviewer : ∀ user, viewer = some user → party user) (id : String) (part : PartRequest) :
    (partAddress viewer id part).Upholds last inv inv fun _ => inv := by
  refine ownSession_bind_upholds hinv hviewer id fun x => ?_
  have hheld := hinv.isHeld id x
  split
  · dsimp only
    split
    · exact .throw_bind fun _ hs => hs
    · split
      · exact .throw_bind fun _ hs => hs
      · refine .bind (quiet_upholds hheld clientStore_quiet) fun b => ?_
        refine .bind (quiet_upholds hheld (listParts_quiet b _ _)) fun parts => ?_
        refine .bind (quiet_upholds hheld (.ofExcept _)) fun offset => ?_
        refine .bind (quiet_upholds hheld (signPart_quiet b _ _ _ _)) fun address => ?_
        exact .bind (changeSession_upholds hheld (fun _ hs => hs.2.mine) (fun _ _ => rfl)
          fun _ _ _ _ _ _ hat => .inl hat) fun _ => .pure fun _ hs => hs
  · exact .throw fun _ hs => hs

theorem uploadProgress_quiet (viewer : Viewer) (id : String) :
    IsQuiet (uploadProgress viewer id) := by
  refine .bind (ownSession_quiet viewer id) fun session => ?_
  split
  · refine .bind (.bind clientStore_quiet fun b => listParts_quiet b _ _) fun parts => .pure _
  · exact .pure _

/-! ### Giving up -/

theorem not_usesKey {d : Database} (h : d.usesKey key = false) {a : Attachment}
    (ha : a ∈ d.attachments) : a.storageKey ≠ key := by
  intro hsame
  have hnone := List.any_eq_false.mp h a ha
  rw [hsame, beq_self_eq_true, Bool.true_or] at hnone
  exact hnone rfl

/-- **An object that a client has stored is only removed if no attachment has it.** -/
theorem releaseObject_upholds (hinv : IsLasting digested source first party inv)
    (hkey : ∀ s, inv s → Filename.IsKey key ∧ IsOwn party key s) :
    (releaseObject key).Upholds last inv inv fun _ => inv := by
  refine .bind (.query _) fun isUsed => ?_
  split
  · exact .pure fun _ hs => hs.1
  · rename_i hfree
    have hstable : IsStable fun s => inv s ∧ IsUnused key s :=
      hinv.stable.and (IsUnused.stable key)
    refine .bind ((Upholds.quiet clientStore_quiet hstable fun _ hs => hs.1).weaken_pre ?_)
      fun b => ?_
    · rintro s ⟨hs, rfl⟩
      exact ⟨hs, fun a ha => not_usesKey (Bool.eq_false_iff.mpr hfree) ha⟩
    · have hkeeps : ∀ s t, (Footprint.storing key).rel s t → inv s → IsUnused key s → inv t := by
        intro s t hrel hs hunused
        obtain ⟨hmade, hown⟩ := hkey s hs
        exact hinv.deed hs (.atUnused hmade hunused hown hrel)
      exact .of_within (delete_storing b key) (fun s t hrel => hrel.2.1)
        (fun s _ t _ hrel _ hs => hkeeps s t hrel hs.1 hs.2)
        fun s t hrel _ hs => hkeeps s t hrel hs.1 hs.2

section

variable {id : String} {x : Session} (hinv : IsLasting digested source first party inv)
  (hheld : ∀ s, inv s → IsHeld party id x s)
include hinv hheld

theorem releaseThumbnail_upholds : (releaseThumbnail x).Upholds last inv inv fun _ => inv := by
  rw [releaseThumbnail]
  split
  · rename_i path hpath
    exact filing_upholds hinv (removeScratch_filing path) fun s hs =>
      ⟨(hheld s hs).mine, (hheld s hs).files path (.inr hpath)⟩
  · exact .pure fun _ hs => hs

/-- Giving up what a session has gathered keeps what lasts. -/
theorem releaseSession_upholds : (releaseSession x).Upholds last inv inv fun _ => inv := by
  have hquiet : ∀ key upload, IsQuiet (abortParts key upload) := fun key upload =>
    .bind clientStore_quiet fun b => abortUpload_quiet b key upload
  have htarget : (releaseTarget x.target).Upholds last inv inv fun _ => inv := by
    simp only [releaseTarget]
    split
    · rename_i path hpath
      exact filing_upholds hinv (removeScratch_filing path) fun s hs =>
        ⟨(hheld s hs).mine, (hheld s hs).files path (.inl hpath)⟩
    · rename_i key hkey
      refine releaseObject_upholds hinv fun s hs => (hheld s hs).key key ?_
      rw [hkey]
      rfl
    · exact quiet_upholds hinv (hquiet _ _)
  refine .bind (releaseThumbnail_upholds hinv hheld).outcome_inv fun _ => ?_
  exact .bind htarget.outcome_inv fun _ => quiet_upholds hinv (.ofExcept _)

/-- Removing one session keeps what lasts. -/
theorem remove_upholds (sweep : Sweep) :
    (sweep.remove x).Upholds last inv inv fun _ => inv := by
  have hdelete : (transact (Database.deleteSession x.id)).Upholds last inv inv fun _ => inv :=
    deleteSession_upholds hinv fun s hs => (hheld s hs).id_eq ▸ (hheld s hs).mine
  refine .bind hdelete.outcome_inv fun outcome => ?_
  split
  · refine .bind (releaseSession_upholds hinv hheld).outcome_inv fun released => ?_
    split
    · exact .pure fun _ hs => hs
    · exact .pure fun _ hs => hs
  · exact .pure fun _ hs => hs
  · exact .pure fun _ hs => hs

theorem discardScratch_upholds : (discardScratch x).Upholds last inv inv fun _ => inv := by
  have hthumbnail : (releaseThumbnail x).tolerate.Upholds last inv inv fun _ => inv :=
    (releaseThumbnail_upholds hinv hheld).tolerate
  rw [discardScratch]
  split
  · rename_i path hpath
    have hfile : (removeScratch path).Upholds last inv inv fun _ => inv :=
      filing_upholds hinv (removeScratch_filing path) fun s hs =>
        ⟨(hheld s hs).mine, (hheld s hs).files path (.inl hpath)⟩
    exact .bind hfile.tolerate fun _ => hthumbnail
  · exact hthumbnail

end

/-- **Cancelling an upload keeps what lasts.** -/
theorem cancelSession_upholds (hinv : IsLasting digested source first party inv) {viewer : Viewer}
    (hviewer : ∀ user, viewer = some user → party user) (id : String) :
    (cancelSession viewer id).Upholds last inv inv fun _ => inv := by
  refine ownSession_bind_upholds hinv hviewer id fun x => ?_
  have hheld := hinv.isHeld id x
  refine .bind (deleteSession_upholds hheld fun s hs => hs.2.id_eq ▸ hs.2.mine) fun isDone => ?_
  dsimp only
  split
  · exact .throw fun _ hs => hs
  · exact (releaseSession_upholds hheld fun _ hs => hs.2).tolerate

/-! ### Sweeping -/

/-- Sessions of a batch are known while others are removed. -/
theorem IsLasting.isHeld_all (hinv : IsLasting digested source first party inv)
    (batch : List Session) : IsLasting digested source first party fun s =>
      inv s ∧ ∀ x ∈ batch, IsHeld party x.id x s :=
  hinv.and fun _ h hdeed x hx => (h x hx).deed hdeed

theorem batches_upholds (hinv : IsLasting digested source first party inv)
    (hall : ∀ user, party user) (cutoff : Instant) (budget : Nat) (sweep : Sweep) :
    (Sweep.batches cutoff budget sweep).Upholds last inv inv fun _ => inv := by
  induction budget generalizing sweep with
  | zero => exact .pure fun _ hs => hs
  | succ budget ih =>
    refine .bind (.query _) fun batch => ?_
    have hremove : ∀ sweep, ∀ x ∈ batch, (Sweep.remove sweep x).Upholds last
        (fun s => inv s ∧ ∀ x ∈ batch, IsHeld party x.id x s)
        (fun s => inv s ∧ ∀ x ∈ batch, IsHeld party x.id x s)
        fun _ s => inv s ∧ ∀ x ∈ batch, IsHeld party x.id x s :=
      fun sweep x hx => remove_upholds (hinv.isHeld_all batch) (fun _ hs => hs.2 x hx) sweep
    refine .bind (((Upholds.foldlM hremove sweep).of_more fun _ hs => hs.1).weaken_pre ?_)
      fun sweep => ?_
    · rintro s ⟨hs, rfl⟩
      refine ⟨hs, fun x hx => (hinv.sound hs).isHeld ?_ (hall _)⟩
      exact List.mem_of_mem_filter (List.mem_mergeSort.mp (List.mem_of_mem_take hx))
    · split
      · exact .pure fun _ hs => hs
      · exact ih sweep

/-- **Sweeping keeps what lasts.** -/
theorem sweepExpired_upholds (hinv : IsLasting digested source first party inv)
    (hall : ∀ user, party user) (time : Instant) :
    (sweepExpired time).Upholds last inv inv fun _ => inv := by
  refine .bind (quiet_upholds hinv (query_quiet _)) fun count => ?_
  refine .bind (batches_upholds hinv hall _ _ _) fun sweep => ?_
  split
  · exact .throw fun _ hs => hs
  · exact .pure fun _ hs => hs

/-! ### Opening -/

/-- The name was drawn for a session, and no session of another user has it. -/
structure IsReserved (party : UserId → Prop) (source : Source) (first : Nat) (id : String)
    (s : State) : Prop where
  named : source.HasNamed first s.draws id
  mine : IsMine party id s

theorem IsLasting.isReserved (hinv : IsLasting digested source first party inv) (id : String) :
    IsLasting digested source first party fun s => inv s ∧ IsReserved party source first id s :=
  hinv.and fun _ h hdeed => ⟨h.named.mono hdeed.draws_le, h.mine.deed hdeed⟩

/-- **A name that is drawn for a session is none of another user's**, as long as the names do not
come again. -/
theorem drawSession_upholds (hinv : IsLasting digested source first party inv)
    (hids : (∀ user, party user) ∨ source.NeverRepeatsSessions first last) :
    (drawName Limit.sessionIdLength).Upholds last inv inv
      fun id s => inv s ∧ IsReserved party source first id s := by
  intro s
  refine ⟨Nat.le_succ _, fun hlast hs => ?_⟩
  have hsound := hinv.sound hs
  have hdraw : s.draws < last := hlast
  have hname : s.source.name s.draws Limit.sessionIdLength = source.sessionName s.draws :=
    congrArg (fun source : Source => source.name s.draws Limit.sessionIdLength)
      hsound.owned.source_eq
  refine ⟨hinv.stable s _ (drawName_quiet _ s) hs, ?_⟩
  show IsReserved party source first (s.source.name s.draws Limit.sessionIdLength) _
  rw [hname]
  refine ⟨⟨s.draws, hsound.owned.first_le, Nat.lt_succ_self _, rfl⟩, fun x hx hid => ?_⟩
  rcases hids with hall | hnever
  · exact hall _
  · obtain ⟨i, hfirst, hi, hnamed⟩ := hsound.filed.named x hx
    exact absurd (hnamed.symm.trans hid) (hnever i s.draws hfirst hi hdraw)

/-- There is room for the bytes of a session that is about to be opened: its key, if it has one, is
nobody's, and its scratch file is where its name leads. -/
structure IsRoom (party : UserId → Prop) (source : Source) (first : Nat) (id : String)
    (target : Target) (s : State) : Prop where
  reserved : IsReserved party source first id s
  fresh : ∀ key, target.key? = some key → IsFresh source first key s
  files : ∀ path, target = .scratch path → IsFileOf s.holdings.scratchDirectory id path

theorem IsRoom.stable (id : String) (target : Target) :
    IsStable (IsRoom party source first id target) := by
  intro s t hquiet h
  refine ⟨⟨h.reserved.named.mono hquiet.2, ?_⟩,
    fun key hkey => IsFresh.stable s t hquiet (h.fresh key hkey), ?_⟩
  · rw [IsMine, hquiet.1]
    exact h.reserved.mine
  · rw [hquiet.1]
    exact h.files

/-- A session for which there is room may be released, whether its row is added or not. -/
theorem IsRoom.isHeld {x : Session} (h : IsRoom party source first x.id x.target s)
    (huser : party x.creator) (hnone : x.thumbnailPath = none) : IsHeld party x.id x s where
  id_eq := rfl
  user := huser
  mine := h.reserved.mine
  files path hat := by
    rcases hat with htarget | hthumbnail
    · exact h.files path htarget
    · rw [hnone] at hthumbnail
      cases hthumbnail
  key key hkey := ⟨(h.fresh key hkey).issued.isKey, (h.fresh key hkey).isOwn⟩

/-- **Where a target has been opened there is room.** -/
theorem openTarget_upholds (hinv : IsLasting digested source first party inv)
    (hnames : source.NeverRepeats first last) (b : Backend) (id filename contentType : String)
    (size : Int) :
    (openTarget b id filename contentType size).Upholds last inv
      (fun s => inv s ∧ IsReserved party source first id s)
      fun opened s => inv s ∧ IsRoom party source first id opened.1 s := by
  have hreserved := hinv.isReserved id
  suffices h : (openTarget b id filename contentType size).Upholds last
      (fun s => inv s ∧ IsReserved party source first id s)
      (fun s => inv s ∧ IsReserved party source first id s)
      fun opened s => inv s ∧ IsRoom party source first id opened.1 s from
    h.weaken_inv fun _ hs => hs.1
  rw [openTarget]
  split
  · refine .bind (allocateKey_upholds hreserved hnames b filename) fun key => ?_
    have hstable : IsStable fun s => (inv s ∧ IsReserved party source first id s)
        ∧ IsFresh source first key s :=
      hreserved.stable.and IsFresh.stable
    have hroom : ∀ target : Target, target.key? = some key → ∀ s,
        (inv s ∧ IsReserved party source first id s) ∧ IsFresh source first key s →
        inv s ∧ IsRoom party source first id target s := by
      rintro target htarget s ⟨⟨hs, hname⟩, hfresh⟩
      refine ⟨hs, hname, fun key' hkey' => ?_, fun path hpath => ?_⟩
      · rw [htarget] at hkey'
        exact Option.some.inj hkey' ▸ hfresh
      · rw [hpath] at htarget
        cases htarget
    refine .bind (.quiet (createUpload_quiet b key).outcome hstable fun _ hs => hs.1) fun r => ?_
    split
    · exact .pure (hroom _ rfl)
    · refine .bind (.quiet (signPut_quiet b key _ _) hstable fun _ hs => hs.1) fun address => ?_
      exact .pure (hroom _ rfl)
    · exact .throw fun _ hs => hs.1
  · refine .bind (directory_upholds _) fun directory => ?_
    have hthere := hreserved.scratchDirectory directory
    have hfile : ∀ s, (inv s ∧ IsReserved party source first id s)
        ∧ s.holdings.scratchDirectory = directory → IsMine party id s
          ∧ IsFileOf s.holdings.scratchDirectory id (scratchPath directory id ".part") := by
      rintro s ⟨⟨-, hname⟩, rfl⟩
      exact ⟨hname.mine, .inl rfl⟩
    refine .bind ((filing_upholds hthere (writeScratch_filing _ _) hfile).weaken_inv
      fun _ hs => hs.1) fun _ => .pure fun s hs => ?_
    refine ⟨hs.1.1, hs.1.2, fun key hkey => ?_, fun path hpath => ?_⟩
    · cases hkey
    · cases hpath
      exact (hfile s hs).2

/-- **A session may be added where there is room.** -/
theorem insertSession_upholds (hinv : IsLasting digested source first party inv) {x : Session}
    (huser : party x.creator) (hsize : 0 < x.size) (hnone : x.thumbnailPath = none) :
    (transact (Database.insertSession x)).Upholds last inv
      (fun s => inv s ∧ IsRoom party source first x.id x.target s) fun _ => inv := by
  refine .transact (fun _ hs => hs.1) ?_
  rintro s _ d hrun ⟨hs, hroom⟩
  rcases Database.run_insertSession hrun with ⟨-, rfl⟩ | ⟨hfree, rfl⟩
  · exact hs
  · refine hinv.deed hs (.openSession huser hsize hroom.fresh (fun y hy hid => ?_)
      ⟨hroom.reserved.named, (hroom.isHeld huser hnone).files⟩ rfl (Nat.le_refl _))
    exact List.find?_eq_none.mp hfree y hy (beq_iff_eq.mpr hid)

/-- **Opening an upload keeps what lasts.** -/
theorem createSession_upholds (hinv : IsLasting digested source first party inv)
    (hnames : source.NeverRepeats first last)
    (hids : (∀ user, party user) ∨ source.NeverRepeatsSessions first last) {viewer : Viewer}
    (hviewer : ∀ user, viewer = some user → party user) (draft : SessionDraft) :
    (createSession viewer draft).Upholds last inv inv fun _ => inv := by
  refine signedIn_bind_upholds (fun _ hs => hs) fun user hsigned => ?_
  refine .bind (quiet_upholds hinv (.ofExcept _)) fun filename => ?_
  refine .bind (quiet_upholds hinv storageSetting_quiet) fun setting => ?_
  dsimp only
  split
  · exact .throw_bind fun _ hs => hs
  · rename_i hpositive
    refine .bind (quiet_upholds hinv (checkLimit_quiet _ _)) fun _ => ?_
    refine .bind (quiet_upholds hinv (memoLink_quiet _ _)) fun memo => ?_
    refine .bind (drawSession_upholds hinv hids) fun id => ?_
    refine .bind ((quiet_upholds (hinv.isReserved id) (backendForNew_quiet _)).weaken_inv
      fun _ hs => hs.1) fun b => ?_
    refine .bind (openTarget_upholds hinv hnames b id filename _ _) fun opened => ?_
    have hstable : IsStable fun s => inv s ∧ IsRoom party source first id opened.1 s :=
      hinv.stable.and (IsRoom.stable id opened.1)
    refine .bind (.quiet now_quiet hstable fun _ hs => hs.1) fun time => ?_
    let session : Session :=
      ⟨id, user, filename, ContentType.choose draft.contentType none, draft.size,
        nonblank draft.memoName, opened.1, 0, none, time, time⟩
    have huser : party session.creator := hviewer user hsigned
    have hheld := hinv.isHeld id session
    have hstart : ∀ s, inv s ∧ IsRoom party source first id opened.1 s →
        (inv s ∧ IsHeld party id session s) ∧ IsRoom party source first id opened.1 s :=
      fun s hs => ⟨⟨hs.1, hs.2.isHeld huser rfl⟩, hs.2⟩
    refine .bind (((insertSession_upholds hheld huser (Int.not_le.mp hpositive) rfl).outcome_inv
      |>.weaken_inv fun _ hs => hs.1).weaken_pre hstart) fun inserted => ?_
    cases inserted with
    | ok _ => exact .pure fun _ hs => hs.1
    | error e =>
      refine .bind (Attempt.Upholds.of_more ?_ fun _ hs => hs.1).tolerate fun _ =>
        .throw fun _ hs => hs
      exact releaseSession_upholds hheld fun _ hs => hs.2

/-! ### Completing -/

/-- The text that stands for an object which the server has not read. -/
def description (user : UserId) (upload key : String) (size : Int) (parts : List Part) : String :=
  let head := "s3-upload:" ++ Text.showInt user ++ ":" ++ upload ++ ":" ++ key ++ ":"
    ++ Text.showInt size
  let describe (p : Part) : String :=
    ":" ++ Text.showInt p.number ++ "-" ++ Text.showInt p.size ++ "-" ++ p.etag
  String.join (head :: parts.map describe)

theorem syntheticHash_eq (user : UserId) (upload key : String) (size : Int) (parts : List Part) :
    syntheticHash user upload key size parts
      = sha256Hex (description user upload key size parts).toUTF8 := rfl

/-- What is digested when a session is completed may be digested. -/
def Digested.Covers (digested : Digested) (x : Session) (s : State) : Prop :=
  match x.target with
  | .scratch path => ∀ content, s.scratch? path = some (.file content) →
    digested.content content.bytes
  | .direct key => digested.text (description x.creator x.id key x.size []).toUTF8
  | .multipart key upload _ => ∀ u, s.store.upload? upload = some u →
    digested.text (description x.creator upload key x.size (contiguous u.parts)).toUTF8

/-- It is the same after steps that find something out and ask no store. -/
theorem Digested.Covers.of_unasked (x : Session) (s t : State) (hrel : Footprint.unasked.rel s t)
    (h : digested.Covers x s) : digested.Covers x t := by
  simp only [Covers, scratch?_of_holdings hrel.1.1, hrel.2] at h ⊢
  exact h

/-- What has been gathered for a session may become an attachment of its user. -/
def IsGathered (digested : Digested) (source : Source) (first : Nat) (x : Session) (g : Gathered)
    (s : State) : Prop :=
  IsDue digested source first x.creator g.hash x.size g.backend.kind g.key s
    ∧ (g.isFresh = true → IsFresh source first g.key s)

/-- What has been received has the declared size. -/
theorem checkReceived_upholds {pre : State → Prop} (hpre : IsStable pre)
    (himp : ∀ s, pre s → inv s) (x : Session) (received : Int) :
    (checkReceived x received).Upholds last inv pre fun _ s => pre s ∧ received = x.size := by
  refine .quiet_spec (checkReceived_quiet x received) hpre himp fun s _ t hexec _ _ => ?_
  rw [checkReceived] at hexec
  split at hexec
  · cases hexec
  · rename_i hsame
    exact Decidable.not_not.mp hsame

/-- There is a scratch file with a content at the path. -/
def HasScratch (path : String) (content : Blob) (s : State) : Prop :=
  s.scratch? path = some (.file content)

theorem HasScratch.stable (path : String) (content : Blob) :
    IsStable (HasScratch path content) := by
  intro s t hquiet h
  rw [HasScratch, scratch?_of_holdings hquiet.1]
  exact h

/-- What is read is the content of the scratch file. -/
theorem readScratch_upholds {pre : State → Prop} (hpre : IsStable pre)
    (himp : ∀ s, pre s → inv s) (path : String) :
    (readScratch path).Upholds last inv pre
      fun content s => pre s ∧ HasScratch path content s := by
  refine .quiet_spec (readScratch_quiet path) hpre himp fun s content t hexec _ _ => ?_
  rw [readScratch] at hexec
  rw [exec_bind_eq_ok] at hexec
  obtain ⟨entry, s₁, hlook, hexec⟩ := hexec
  cases hlook
  split at hexec
  · rename_i found hfound
    cases hexec
    exact hfound
  · cases hexec

theorem size_bytes (content : Blob) : content.bytes.size = content.size := by
  rw [← Blob.length_head, Blob.data_bytes, Blob.length_toList]

/-- The content of a scratch file is stored at a fresh key, or an object of the user is used again.
-/
theorem gatherScratch_upholds (hinv : IsLasting digested source first party inv)
    (hnames : source.NeverRepeats first last) (x : Session) (setting : Setting) (path : String) :
    (gatherScratch x setting path).Upholds last inv
      (fun s => inv s ∧ ∀ content, HasScratch path content s → digested.content content.bytes)
      fun g s => inv s ∧ IsGathered digested source first x g s := by
  have hcovered : IsStable fun s => inv s
      ∧ ∀ content, HasScratch path content s → digested.content content.bytes := by
    refine hinv.stable.and fun s t hquiet h content hscratch => h content ?_
    rwa [HasScratch, scratch?_of_holdings hquiet.1] at hscratch
  refine .bind (.quiet (checkReceived_quiet _ _) hcovered fun _ hs => hs.1) fun _ => ?_
  refine .bind (readScratch_upholds hcovered (fun _ hs => hs.1) path) fun content => ?_
  have hread : IsStable fun s => inv s ∧ HasScratch path content s
      ∧ digested.content content.bytes :=
    hinv.stable.and ((HasScratch.stable path content).and (.of_holdings fun _ => _))
  refine .bind ((checkReceived_upholds hread (fun _ hs => hs.1) x _).weaken_pre
    fun s ⟨⟨hs, hcovers⟩, hscratch⟩ => ⟨hs, hscratch, hcovers content hscratch⟩) fun _ => ?_
  have hsized := hread.and (.of_holdings fun _ => (content.size : Int) = x.size)
  refine .bind (backendFor_upholds hsized (fun _ hs => hs.1.1) _ setting) fun b => ?_
  -- what is read again is the same, and as long as declared
  have hcarried : IsStable fun s => HasScratch path content s ∧ (content.size : Int) = x.size :=
    (HasScratch.stable path content).and (.of_holdings fun _ => _)
  refine .bind (((reusableKey_upholds hinv b x.creator _ x.size content.bytes).and_within
    (reusableKey_quiet _ _ _) hcarried).weaken_pre ?_) fun reused => ?_
  · rintro s ⟨⟨⟨hs, hscratch, hcontent⟩, hsize⟩, hmeant, -⟩
    refine ⟨⟨hs, hmeant, hcontent, rfl, ?_⟩, hscratch, hsize⟩
    rw [size_bytes, hsize]
  · cases reused with
    | some key =>
      exact .pure fun s hs => ⟨hs.1.1.1, hs.1.2 key rfl, fun hfalse => Bool.noConfusion hfalse⟩
    | none =>
      have hsending : IsStable fun s => (HasScratch path content s ∧ (content.size : Int) = x.size)
          ∧ IsSending digested b (sha256Hex content.bytes) x.size content.bytes s :=
        hcarried.and (IsSending.stable _ _ _)
      refine .bind (((allocateKey_upholds hinv hnames b _).and_within (allocateKey_quiet _ _)
        hsending).weaken_pre fun s hs => ⟨hs.1.1.1, hs.2, hs.1.1.2⟩) fun key => ?_
      have hfresh : IsStable (IsFresh source first key) := IsFresh.stable
      have hallocated := (hinv.stable.and hfresh).and hsending
      refine .bind (readScratch_upholds hallocated (fun _ hs => hs.1.1) path) fun stream => ?_
      refine .bind ((storeFresh_upholds hinv b x.creator (sha256Hex content.bytes) x.size
        content.bytes (stream = content ∧ (content.size : Int) = x.size)
        (putStream_storing b key stream _) fun s n t hφ hexec => ?_).weaken_pre ?_) fun _ => ?_
      · obtain ⟨rfl, hsize⟩ := hφ
        obtain ⟨hanswers, found, hfound, hsame⟩ := putStream_spec hexec
        refine ⟨hanswers, found, hfound, ?_⟩
        rw [hsame (by omega), Blob.data_bytes]
      · rintro s ⟨⟨hs, ⟨hscratch, hsize⟩, hsend⟩, hstream⟩
        rw [HasScratch, hscratch] at hstream
        cases hstream
        exact ⟨⟨hs, hsend⟩, rfl, hsize⟩
      · exact .pure fun s hs => ⟨hs.1, hs.2.2, fun _ => hs.2.1⟩

/-- A session that is there has a key of its user's. -/
theorem IsSound.isReady_session (h : IsSound source first s) {x : Session}
    (hx : x ∈ s.holdings.sessions) (hkey : x.target.key? = some key)
    (hobject : ∃ content, s.object? .bucket key = some content) :
    IsReady source first x.creator .bucket key s where
  object := hobject
  issued := h.owned.issued _ _ _ (Holdings.owns_of_session hx hkey)
  owner _ _ hown := h.owned.owner _ _ _ _ _ (Holdings.owns_of_session hx hkey) hown
  tied _ := rfl

/-- The store of an upload by a client is a bucket. -/
theorem bucket_upholds {pre : State → Prop} (hpre : IsStable pre) (himp : ∀ s, pre s → inv s)
    (setting : Setting) :
    (backendFor .bucket setting).Upholds last inv pre
      fun b s => pre s ∧ IsMeant b s ∧ b.kind = .bucket := by
  refine (backendFor_upholds hpre himp .bucket setting).weaken (fun _ hs => hs) ?_
  rintro b s ⟨hs, hmeant, hkind⟩
  refine ⟨hs, hmeant, ?_⟩
  rw [hkind]
  split <;> rfl

/-- An object of some size is there, and the store has answered. -/
theorem storedSize_spec {size : Int} (hsize : 0 < size)
    (h : (storedSize b key).exec s = (.ok size, t)) :
    IsAtHand b ∧ ∃ content, t.object? b.kind key = some content := by
  have hholdings := holdings_of_exec (storedSize_quiet b key) h
  rw [storedSize] at h
  rw [exec_outcome_bind] at h
  rcases hhead : (b.head key).exec s with ⟨e | n, u⟩
  · rw [hhead] at h
    dsimp only at h
    split at h
    · rename_i hok
      cases hok
    · cases h
      omega
    · cases h
  · obtain ⟨hanswers, content, hcontent, -⟩ := head_spec hhead
    refine ⟨hanswers, content, ?_⟩
    rw [State.object?_of_holdings hholdings]
    exact hcontent

theorem storedSize_upholds {pre : State → Prop} (hpre : IsStable pre)
    (himp : ∀ s, pre s → inv s) (b : Backend) (key : String) :
    (storedSize b key).Upholds last inv pre
      fun n s => pre s
        ∧ (0 < n → IsAtHand b ∧ ∃ content, s.object? b.kind key = some content) :=
  .quiet_spec (storedSize_quiet b key) hpre himp fun _ _ _ hexec _ _ hn => storedSize_spec hn hexec

/-- The session is there. -/
abbrev HasSession (x : Session) (s : State) : Prop :=
  x ∈ s.holdings.sessions

theorem HasSession.stable (x : Session) : IsStable (HasSession x) :=
  .of_holdings fun h => x ∈ h.sessions

/-- An object that the client has stored is there if it has the declared size. -/
theorem gatherObject_upholds (hinv : IsLasting digested source first party inv) (x : Session)
    (setting : Setting) (hkey : x.target.key? = some key) :
    (gatherObject x setting key).Upholds last inv
      (fun s => (inv s ∧ HasSession x s)
        ∧ digested.text (description x.creator x.id key x.size []).toUTF8)
      fun g s => inv s ∧ IsGathered digested source first x g s := by
  have hstable : IsStable fun s => (inv s ∧ HasSession x s)
      ∧ digested.text (description x.creator x.id key x.size []).toUTF8 :=
    (hinv.stable.and (HasSession.stable x)).and (.of_holdings fun _ => _)
  refine .bind (bucket_upholds hstable (fun _ hs => hs.1.1) setting) fun b => ?_
  have hbucket := hstable.and ((IsMeant.stable b).and (.of_holdings fun _ => b.kind = .bucket))
  refine .bind (storedSize_upholds hbucket (fun _ hs => hs.1.1.1) b key) fun n => ?_
  have hthere := hbucket.and (.of_holdings fun h =>
    0 < n → IsAtHand b ∧ ∃ content, h.object? b.kind key = some content)
  refine .bind (checkReceived_upholds hthere (fun _ hs => hs.1.1.1.1) x n) fun _ => .pure ?_
  rintro s ⟨⟨⟨⟨⟨hs, hx⟩, htext⟩, hmeant, hkind⟩, hobject⟩, rfl⟩
  obtain ⟨hanswers, hfound⟩ := hobject ((hinv.sound hs).owned.declared x hx)
  have hplaced := hmeant.isPlaced hanswers
  rw [hkind] at hfound
  refine ⟨hs, ⟨?_, .unread htext (syntheticHash_eq ..), hplaced⟩, fun hfalse =>
    Bool.noConfusion hfalse⟩
  rw [hkind]
  exact (hinv.sound hs).isReady_session hx hkey hfound

/-- Joining parts stores an object at the key of the session. -/
theorem completeUpload_upholds (hinv : IsLasting digested source first party inv) {x : Session}
    (huser : ∀ s, inv s → party x.creator) (upload : String) (parts : List Part)
    (hkey : x.target.key? = some key) :
    (b.completeUpload key upload parts).Upholds last inv
      (fun s => (inv s ∧ HasSession x s) ∧ IsMeant b s ∧ b.kind = .bucket)
      fun _ s => inv s ∧ IsReady source first x.creator b.kind key s ∧ IsPlaced b.kind s := by
  have hkeeps : ∀ s t, (Footprint.storing key).rel s t → (∀ kind, (s.object? kind key).isSome →
      (t.object? kind key).isSome) → inv s → HasSession x s → inv t :=
    fun s t hrel hkept hs hx => hinv.deed hs (.atUpload hx hkey (huser s hs) hrel hkept)
  intro s
  have hrel := completeUpload_storing b key upload parts s
  have hkept : ∀ kind, (s.object? kind key).isSome →
      (((b.completeUpload key upload parts).exec s).2.object? kind key).isSome :=
    fun kind => isSome_completeUpload b upload parts
  refine ⟨hrel.2.1, ?_⟩
  rcases hexec : (b.completeUpload key upload parts).exec s with ⟨e | _, t⟩
  · rw [hexec] at hrel hkept
    exact fun _ ⟨⟨hs, hx⟩, _⟩ => hkeeps s t hrel hkept hs hx
  · rw [hexec] at hrel hkept
    intro _ ⟨⟨hs, hx⟩, hmeant, hkind⟩
    have ht := hkeeps s t hrel hkept hs hx
    have hx' : x ∈ t.holdings.sessions := by
      rw [hrel.1]
      exact hx
    obtain ⟨hanswers, hthere⟩ := completeUpload_spec hexec
    have hobject := Option.isSome_iff_exists.mp hthere
    have hplaced : IsPlaced b.kind t := by
      rw [IsPlaced, hrel.1]
      exact hmeant.isPlaced hanswers
    rw [hkind] at hobject
    refine ⟨ht, ?_, hplaced⟩
    rw [hkind]
    exact (hinv.sound ht).isReady_session hx' hkey hobject

/-- Parts that are joined are those that the store has listed, and the text that stands for the
object names them. -/
theorem gatherParts_upholds (hinv : IsLasting digested source first party inv) {x : Session}
    (huser : ∀ s, inv s → party x.creator) (setting : Setting) (upload : String)
    (hkey : x.target.key? = some key) :
    (gatherParts x setting key upload).Upholds last inv
      (fun s => (inv s ∧ HasSession x s) ∧ ∀ u, s.store.upload? upload = some u →
        digested.text (description x.creator upload key x.size (contiguous u.parts)).toUTF8)
      fun g s => inv s ∧ IsGathered digested source first x g s := by
  have hstable : IsStable fun s => inv s ∧ HasSession x s :=
    hinv.stable.and (HasSession.stable x)
  refine .bind ((bucket_upholds hstable (fun _ hs => hs.1) setting).and_within
    (backendFor_unasked _ _) fun s t hrel hcovers => hrel.2 ▸ hcovers) fun b => ?_
  have hbucket := hstable.and ((IsMeant.stable b).and (.of_holdings fun _ => b.kind = .bucket))
  have hlist : (b.listParts key upload).Upholds last inv
      (fun s => ((inv s ∧ HasSession x s) ∧ IsMeant b s ∧ b.kind = .bucket)
        ∧ ∀ u, s.store.upload? upload = some u →
          digested.text (description x.creator upload key x.size (contiguous u.parts)).toUTF8)
      fun parts s => ((inv s ∧ HasSession x s) ∧ IsMeant b s ∧ b.kind = .bucket)
        ∧ digested.text (description x.creator upload key x.size (contiguous parts)).toUTF8 := by
    refine .of_within (listParts_quiet b key upload) (fun _ _ hquiet => hquiet.2) ?_ ?_
    · rintro s parts t hexec hquiet - ⟨hs, hcovers⟩
      obtain ⟨u, hu, rfl⟩ := listParts_spec hexec
      exact ⟨hbucket s t hquiet hs, hcovers u hu⟩
    · rintro s t hquiet - ⟨hs, -⟩
      exact (hbucket s t hquiet hs).1.1
  refine .bind hlist fun parts => ?_
  have htext := hbucket.and (.of_holdings fun _ =>
    digested.text (description x.creator upload key x.size (contiguous parts)).toUTF8)
  refine .bind (.quiet (checkReceived_quiet x _) htext fun _ hs => hs.1.1.1) fun _ => ?_
  refine .bind (((completeUpload_upholds hinv huser upload _ hkey).frame
    (digested.text (description x.creator upload key x.size (contiguous parts)).toUTF8)).weaken_pre
      fun s hs => hs.symm) fun _ => .pure ?_
  rintro s ⟨htext, hs, hready, hplaced⟩
  exact ⟨hs, ⟨hready, .unread htext (syntheticHash_eq ..), hplaced⟩, fun hfalse =>
    Bool.noConfusion hfalse⟩

/-- **What a session has gathered may become an attachment of its user.** -/
theorem gather_upholds (hinv : IsLasting digested source first party inv)
    (hnames : source.NeverRepeats first last) {x : Session}
    (huser : ∀ s, inv s → party x.creator) (setting : Setting) :
    (gather x setting).Upholds last inv
      (fun s => (inv s ∧ HasSession x s) ∧ digested.Covers x s)
      fun g s => inv s ∧ IsGathered digested source first x g s := by
  rw [gather]
  split
  · rename_i path htarget
    refine (gatherScratch_upholds hinv hnames x setting path).weaken_pre fun s hs => ⟨hs.1.1, ?_⟩
    have hcovers := hs.2
    rw [Digested.Covers, htarget] at hcovers
    exact hcovers
  · rename_i key htarget
    refine (gatherObject_upholds hinv x setting (by rw [htarget]; rfl)).weaken_pre fun s hs =>
      ⟨hs.1, ?_⟩
    have hcovers := hs.2
    rw [Digested.Covers, htarget] at hcovers
    exact hcovers
  · rename_i key upload _ htarget
    refine (gatherParts_upholds hinv huser setting upload (by rw [htarget]; rfl)).weaken_pre
      fun s hs => ⟨hs.1, ?_⟩
    have hcovers := hs.2
    rw [Digested.Covers, htarget] at hcovers
    exact hcovers

/-- **Completing an upload keeps what lasts**, if what is digested for it may be. -/
theorem completeSession_upholds (hinv : IsLasting digested source first party inv)
    (hnames : source.NeverRepeats first last) {viewer : Viewer}
    (hviewer : ∀ user, viewer = some user → party user) (id : String) :
    (completeSession viewer id).Upholds last inv
      (fun s => inv s ∧ ∀ x, s.database.session? id = some x → digested.Covers x s)
      fun a s => inv s ∧ IsMade a.contentHash a.size a s := by
  refine .bind (ownSession_upholds hinv hviewer id digested.Covers) fun x => ?_
  have hheld := hinv.isHeld id x
  have huser : ∀ s, inv s ∧ IsHeld party id x s → party x.creator := fun _ hs => hs.2.user
  suffices h : Upholds last (fun s => inv s ∧ IsHeld party id x s) _ _ _ from
    h.weaken_inv fun _ hs => hs.1
  have hstable : IsStable fun s => (inv s ∧ IsHeld party id x s) ∧ HasSession x s :=
    hheld.stable.and (HasSession.stable x)
  refine .bind ((Upholds.quiet storageSetting_quiet hstable fun _ hs => hs.1).and_within
    storageSetting_unasked (Digested.Covers.of_unasked x)) fun setting => ?_
  refine .bind ((Upholds.quiet (memoLink_quiet _ _) hstable fun _ hs => hs.1).and_within
    (memoLink_unasked _ _) (Digested.Covers.of_unasked x)) fun memo => ?_
  refine .bind (gather_upholds hheld hnames huser setting) fun g => ?_
  refine .bind (insertNew_upholds hheld g.backend g.isFresh huser) fun a => ?_
  have hmade := hheld.isMade g.hash x.size a
  have hadded : IsStable fun s =>
      ((inv s ∧ IsHeld party id x s) ∧ IsMade g.hash x.size a s) ∧ IsAdded party a s :=
    hmade.stable.and (IsAdded.stable a)
  refine .bind (.quiet (pictureSource_quiet x) hadded fun _ hs => hs.1.1) fun picture => ?_
  refine .bind (withThumbnail_isMade hheld g.hash x.size a setting picture) fun a => ?_
  have hmade' := hheld.isMade g.hash x.size a
  refine .bind ((deleteSession_upholds hmade' fun s hs => hs.1.2.id_eq ▸ hs.1.2.mine).weaken_inv
    fun _ hs => hs.1) fun _ => ?_
  refine .bind ((discardScratch_upholds hmade' fun _ hs => hs.1.2).weaken_inv
    fun _ hs => hs.1) fun _ => ?_
  exact .pure fun s hs => ⟨hs.1.1, hs.2.kept, hs.2.placed, rfl, rfl⟩

end SharedMemos.Server
