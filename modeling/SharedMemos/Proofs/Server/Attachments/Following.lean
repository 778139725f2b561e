import SharedMemos.Proofs.Server.Attachments.Touching

/-!
# Requests leave other keys alone

Every request is gone through once more, for the keys that it touches. A key comes from a row, from
an open upload or from a draw, and it is known to be one of these from there on.

## Main results

* `createAttachment_follows`, `deleteAttachment_follows`, `createSession_follows`,
  `completeSession_follows`, `cancelSession_follows`, `sweepExpired_follows` — the requests
* `act_follows` — every turn
-/

namespace SharedMemos.Server

open SharedMemos.Storage SharedMemos.Upload Attempt

variable {source : Source} {first last : Nat} {growing : Prop} {r s t : State}
  {key : String} {b : Backend} {x : Session}

/-! ### Finding keys -/

section

variable (hnames : source.NeverRepeats first last) (hfirst : first ≤ r.draws)
include hnames hfirst

/-- A name that is drawn makes a new key. -/
theorem drawKey_follows (filename : String) :
    (drawName Limit.keyLength).Upholds last (Follows growing source first r)
      (Follows growing source first r) fun name s => Follows growing source first r s
        ∧ IsNew source first r (Filename.storageKey name filename) := by
  intro s
  refine ⟨Nat.le_succ _, fun hlast hs => ⟨Follows.stable s _ (drawName_quiet _ s) hs, ?_⟩⟩
  have hdraw : s.draws < last := hlast
  have hle : first ≤ s.draws := Nat.le_trans hfirst hs.draws_le
  have hname : s.source.name s.draws Limit.keyLength = source.keyName s.draws :=
    congrArg (fun source : Source => source.name s.draws Limit.keyLength) hs.source_eq
  show IsNew source first r (Filename.storageKey (s.source.name s.draws Limit.keyLength) filename)
  rw [hname]
  exact ⟨(hnames.issued hle hdraw filename).isKey, fun hissued =>
    hnames.isNew hle hdraw filename (hissued.mono hs.draws_le)⟩

theorem freeKey_follows (b : Backend) (filename : String) (attempts : Nat) :
    (freeKey b filename attempts).Upholds last (Follows growing source first r)
      (Follows growing source first r)
      fun key s => Follows growing source first r s ∧ IsNew source first r key := by
  induction attempts with
  | zero => exact .throw fun _ hs => hs
  | succ attempts ih =>
    refine .bind (drawKey_follows hnames hfirst filename) fun name => ?_
    have hstable : IsStable fun s => Follows growing source first r s
        ∧ IsNew source first r (Filename.storageKey name filename) :=
      Follows.stable.and (.of_holdings fun _ => _)
    refine .bind (.quiet (query_quiet _) hstable fun _ hs => hs.1) fun isUsed => ?_
    cases isUsed with
    | true => exact ih.weaken_pre fun _ hs => hs.1
    | false =>
      refine .bind (.quiet (exists?_quiet b _) hstable fun _ hs => hs.1) fun isThere => ?_
      cases isThere with
      | true => exact ih.weaken_pre fun _ hs => hs.1
      | false => exact .pure fun _ hs => hs

/-- A fresh key may be touched. -/
theorem allocateKey_follows (b : Backend) (filename : String) :
    (allocateKey b filename).Upholds last (Follows growing source first r)
      (Follows growing source first r) (FollowsWith growing source first r) :=
  (freeKey_follows hnames hfirst b filename _).weaken (fun _ hs => hs)
    fun _ _ hs => ⟨hs.1, hs.2.mayTouch⟩

end

/-- A key that is used again may be touched. -/
theorem reusableKey_follows (b : Backend) (user : UserId) (hash : String) :
    (reusableKey b user hash).Upholds last (Follows growing source first r)
      (Follows growing source first r) fun reused s => Follows growing source first r s
        ∧ ∀ key, reused = some key → MayTouch source first r key := by
  refine .quiet_spec (reusableKey_quiet b user hash) Follows.stable (fun _ hs => hs) ?_
  rintro s reused t hexec - hs key rfl
  obtain ⟨-, a, ha, -, -, rfl, -⟩ := reusableKey_spec hexec
  exact hs.row a ha

/-! ### Rows and thumbnails -/

/-- A row may be added at a key that may be touched. -/
theorem insertAttachment_follows (b : Backend) {a : Attachment} (isFresh : Bool)
    (hnone : a.thumbnail = none) :
    (insertAttachment b a isFresh).Upholds last (Follows growing source first r)
      (FollowsWith growing source first r a.storageKey)
      fun a' => FollowsWith growing source first r a'.storageKey := by
  have hinsert : ∀ uid, (transactNow fun time => Database.insertAttachment
      { a with uid := uid, created := time, updated := time }).Upholds last
        (FollowsWith growing source first r a.storageKey)
        (FollowsWith growing source first r a.storageKey)
        fun a' => FollowsWith growing source first r a'.storageKey := by
    intro uid
    refine .bind (.quiet now_quiet FollowsWith.stable fun _ hs => hs) fun time => ?_
    refine .transact (fun _ hs => hs) fun s a' d hrun ⟨hs, hkey⟩ => ?_
    obtain ⟨rfl, rfl, -⟩ := Database.run_insertAttachment hrun
    refine ⟨hs.of_database rfl (Nat.le_refl _) ?_ hs.session fun _ key hhas => ?_, hkey⟩
    · refine List.forall_mem_cons.mpr ⟨⟨hkey, fun t ht => ?_⟩, fun c hc =>
        ⟨hs.row c hc, hs.thumbnail c hc⟩⟩
      have hnothing : a.thumbnail = some t := ht
      rw [hnone] at hnothing
      cases hnothing
    · obtain ⟨c, hc, hsame⟩ := hhas
      exact ⟨c, List.mem_cons_of_mem _ hc, hsame⟩
  refine .bind (quiet_followsWith (drawName_quiet _)) fun uid => ?_
  refine .bind ((hinsert uid).outcome.weaken_inv fun _ hs => hs.1) fun inserted => ?_
  cases inserted with
  | ok a' => exact .pure fun _ hs => hs
  | error e =>
    have hdelete : (b.delete a.storageKey).tolerate.Upholds last (Follows growing source first r)
        (FollowsWith growing source first r a.storageKey)
        fun _ => FollowsWith growing source first r a.storageKey :=
      touching_follows (delete_touching b a.storageKey).tolerate (.inl rfl)
    dsimp only
    split
    · exact .bind hdelete fun _ => .throw fun _ hs => hs.1
    · exact .throw fun _ hs => hs.1

/-- A thumbnail may be recorded that is at the key of one. -/
theorem recordThumbnail_follows (a : Attachment) (thumbnail : Thumbnail) :
    (recordThumbnail a thumbnail).Upholds last (Follows growing source first r)
      (fun s => Follows growing source first r s ∧ ∃ key, MayTouch source first r key
        ∧ thumbnail.storageKey = Filename.thumbnailKey key)
      fun _ => Follows growing source first r := by
  have hstable : IsStable fun s => Follows growing source first r s
      ∧ ∃ key, MayTouch source first r key
        ∧ thumbnail.storageKey = Filename.thumbnailKey key :=
    Follows.stable.and (.of_holdings fun _ => _)
  refine .bind (.quiet now_quiet hstable fun _ hs => hs.1) fun time => ?_
  refine .transact (fun _ hs => hs.1) fun s _ d hrun ⟨hs, hname⟩ => ?_
  rcases Database.run_changeAttachment hrun with rfl | rfl
  · exact hs
  · refine hs.of_database rfl (Nat.le_refl _) (fun c hc => ?_) hs.session fun _ key hhas => ?_
    · obtain ⟨d, hd, rfl⟩ := List.mem_map.mp hc
      split
      · refine ⟨hs.row d hd, fun t ht => ?_⟩
        cases ht
        exact hname
      · exact ⟨hs.row d hd, hs.thumbnail d hd⟩
    · obtain ⟨c, hc, hsame⟩ := hhas
      refine ⟨_, List.mem_map_of_mem hc, ?_⟩
      split
      · exact hsame
      · exact hsame

theorem storeThumbnail_follows (a : Attachment) (b : Backend) (content : Blob) :
    (storeThumbnail a b content).Upholds last (Follows growing source first r)
      (FollowsWith growing source first r a.storageKey)
      fun _ => Follows growing source first r := by
  refine .bind (quiet_followsWith (.ofExcept _)) fun picture => ?_
  refine .bind (touching_follows (put_touching b _ _) (.inr rfl)) fun size => ?_
  exact .bind ((recordThumbnail_follows a _).weaken_pre fun _ hs =>
    ⟨hs.1, a.storageKey, hs.2, rfl⟩) fun _ => .pure fun _ hs => hs

theorem findThumbnail_follows (a : Attachment) (setting : Setting) (picture : PictureSource) :
    (findThumbnail a setting picture).Upholds last (Follows growing source first r)
      (FollowsWith growing source first r a.storageKey)
      fun _ => Follows growing source first r := by
  refine .bind (.query _) fun shared => ?_
  cases shared with
  | some thumbnail =>
    refine .bind ((recordThumbnail_follows a thumbnail).weaken_pre ?_) fun _ => .pure fun _ hs => hs
    rintro s ⟨⟨hs, -⟩, hshared⟩
    obtain ⟨row, hrow, -, -, hthumbnail⟩ := sharedThumbnail?_eq_some hshared.symm
    exact ⟨hs, hs.thumbnail row hrow thumbnail hthumbnail⟩
  | none =>
    refine .bind ((quiet_followsWith (backendFor_quiet _ _)).weaken_pre fun _ hs => hs.1)
      fun b => ?_
    refine .bind (quiet_followsWith (loadPicture_quiet a b picture)) fun content => ?_
    cases content with
    | some content =>
      exact .bind (storeThumbnail_follows a b content) fun _ => .pure fun _ hs => hs
    | none => exact .pure fun _ hs => hs.1

theorem withThumbnail_follows (a : Attachment) (setting : Setting) (picture : PictureSource) :
    (withThumbnail a setting picture).Upholds last (Follows growing source first r)
      (FollowsWith growing source first r a.storageKey)
      fun _ => Follows growing source first r := by
  rw [withThumbnail]
  split
  · exact .pure fun _ hs => hs.1
  · refine .bind (findThumbnail_follows a setting picture).outcome_inv fun found => ?_
    split
    · exact .pure fun _ hs => hs
    · exact .pure fun _ hs => hs

/-! ### Attachments -/

section

variable (hnames : source.NeverRepeats first last) (hfirst : first ≤ r.draws)
include hnames hfirst

theorem createAttachment_follows (viewer : Viewer) (draft : AttachmentDraft) :
    (createAttachment viewer draft).Upholds last (Follows growing source first r)
      (Follows growing source first r) fun _ => Follows growing source first r := by
  refine signedIn_bind_upholds (fun _ hs => hs) fun user _ => ?_
  refine .bind (quiet_follows (.ofExcept _)) fun filename => ?_
  refine .bind (quiet_follows (.ofExcept _)) fun bytes => ?_
  refine .bind (quiet_follows storageSetting_quiet) fun setting => ?_
  refine .bind (quiet_follows (checkLimit_quiet _ _)) fun _ => ?_
  refine .bind (quiet_follows (memoLink_quiet _ _)) fun memo => ?_
  refine .bind (quiet_follows (backendForNew_quiet _)) fun b => ?_
  refine .bind (reusableKey_follows b user _) fun reused => ?_
  have hadd : ∀ (a : Attachment) isFresh, a.thumbnail = none →
      (insertAttachment b a isFresh >>= fun a => withThumbnail a setting
        (.received (.ofBytes bytes))).Upholds last (Follows growing source first r)
          (FollowsWith growing source first r a.storageKey)
          fun _ => Follows growing source first r :=
    fun a isFresh hnone => .bind (insertAttachment_follows b isFresh hnone) fun a =>
      withThumbnail_follows a setting _
  cases reused with
  | some key => exact (hadd _ false rfl).weaken_pre fun s hs => ⟨hs.1, hs.2 key rfl⟩
  | none =>
    refine .bind ((allocateKey_follows hnames hfirst b filename).weaken_pre fun s hs => hs.1)
      fun key => ?_
    exact .bind (touching_follows (put_touching b key _) (.inl rfl)) fun _ => hadd _ true rfl

end

/-- Deleting an attachment touches its keys only. The attachments do not grow. -/
theorem deleteAttachment_follows (hgrowing : ¬ growing) (viewer : Viewer) (uid : String) :
    (deleteAttachment viewer uid).Upholds last (Follows growing source first r)
      (Follows growing source first r) fun _ => Follows growing source first r := by
  refine signedIn_bind_upholds (fun _ hs => hs) fun user _ => ?_
  refine .bind (.query _) fun found => ?_
  split
  · exact .throw fun _ hs => hs.1
  · rename_i a ha
    obtain ⟨hfound, -⟩ := Option.filter_eq_some_iff.mp ha
    let Known (s : State) : Prop := Follows growing source first r s
      ∧ ∀ name ∈ objectKeys a, ∃ key, MayTouch source first r key
        ∧ (name = key ∨ name = Filename.thumbnailKey key)
    have hknown : IsStable Known := Follows.stable.and (.of_holdings fun _ => _)
    have hdelete : (transact (Database.deleteAttachment a.id)).Upholds last
        (Follows growing source first r) Known fun _ => Known := by
      refine .transact (fun _ hs => hs.1) fun s isDone d hrun ⟨hs, hkeys⟩ => ⟨?_, hkeys⟩
      have hd := Database.run_deleteAttachment hrun
      cases isDone with
      | false =>
        rw [if_neg Bool.false_ne_true] at hd
        subst hd
        exact hs
      | true =>
        rw [if_pos rfl] at hd
        subst hd
        refine hs.of_database rfl (Nat.le_refl _) (fun c hc => ?_) hs.session fun h =>
          absurd h hgrowing
        have hmem := List.mem_of_mem_filter hc
        exact ⟨hs.row c hmem, hs.thumbnail c hmem⟩
    refine .bind (hdelete.weaken_pre ?_) fun isDone => ?_
    · rintro s ⟨hs, rfl⟩
      have hmem : a ∈ s.holdings.attachments := List.mem_of_find?_eq_some hfound
      refine ⟨hs, fun name hname => ?_⟩
      rcases List.mem_cons.mp hname with rfl | hthumbnail
      · exact ⟨_, hs.row a hmem, .inl rfl⟩
      · obtain ⟨t, ht, rfl⟩ := Option.map_eq_some_iff.mp (Option.mem_toList.mp hthumbnail)
        obtain ⟨key, hkey, heq⟩ := hs.thumbnail a hmem t ht
        exact ⟨key, hkey, .inr heq⟩
    · dsimp only
      split
      · exact .throw fun _ hs => hs.1
      · refine .bind (.quiet (query_quiet _) hknown fun _ hs => hs.1) fun remaining => ?_
        split
        · refine .bind (.quiet storageSetting_quiet hknown fun _ hs => hs.1) fun setting => ?_
          refine .bind (.quiet (backendFor_quiet _ _) hknown fun _ hs => hs.1) fun b => ?_
          refine (Upholds.forM fun name hname => ?_).weaken (fun _ hs => hs) fun _ _ hs => hs.1
          refine .of_within (delete_touching b name).tolerate (fun _ _ hrel => hrel.1.2.1) ?_ ?_
          · rintro s _ t - hrel - ⟨hs, hkeys⟩
            obtain ⟨key, hkey, heq⟩ := hkeys name hname
            exact ⟨hs.touch hkey heq hrel, hkeys⟩
          · rintro s t hrel - ⟨hs, hkeys⟩
            obtain ⟨key, hkey, heq⟩ := hkeys name hname
            exact hs.touch hkey heq hrel
        · exact .pure fun _ hs => hs.1

/-! ### Uploads that go on -/

theorem appendChunk_aside (viewer : Viewer) (id : String) (offset : Int) (chunk : ByteArray) :
    (appendChunk viewer id offset chunk).Within Footprint.aside := by
  refine .bind (quiet_aside (ownSession_quiet viewer id)) fun x => ?_
  split
  · rename_i path _
    dsimp only
    split
    · exact .throw _
    · split
      · exact .throw _
      · split
        · exact .throw _
        · refine .bind (filing_aside (writeScratchAt_filing path _ chunk)) fun _ => ?_
          refine .bind (changeSession_aside fun _ _ => rfl) fun isDone => ?_
          split
          · exact .pure _
          · refine .bind (quiet_aside (query_quiet _)) fun current => ?_
            split
            · exact .throw _
            · exact .throw _
  · exact .throw _

theorem sendThumbnail_aside (viewer : Viewer) (id : String) (picture : Blob) :
    (sendThumbnail viewer id picture).Within Footprint.aside := by
  refine .bind (quiet_aside (ownSession_quiet viewer id)) fun x => ?_
  dsimp only
  split
  · exact .throw _
  · split
    · exact .throw _
    · refine .bind (.look _) fun directory => ?_
      refine .bind (filing_aside (writeScratch_filing _ picture)) fun _ => ?_
      refine .bind (changeSession_aside fun _ _ => rfl) fun isDone => ?_
      split
      · exact .bind (filing_aside (removeScratch_filing _)) fun _ => .throw _
      · exact .pure _

theorem partAddress_aside (viewer : Viewer) (id : String) (part : PartRequest) :
    (partAddress viewer id part).Within Footprint.aside := by
  refine .bind (quiet_aside (ownSession_quiet viewer id)) fun x => ?_
  split
  · dsimp only
    split
    · exact .throw _
    · split
      · exact .throw _
      · refine .bind (quiet_aside clientStore_quiet) fun b => ?_
        refine .bind (quiet_aside (listParts_quiet b _ _)) fun parts => ?_
        refine .bind (.ofExcept _) fun offset => ?_
        refine .bind (quiet_aside (signPart_quiet b _ _ _ _)) fun address => ?_
        exact .bind (changeSession_aside fun _ _ => rfl) fun _ => .pure _
  · exact .throw _

theorem releaseThumbnail_aside (x : Session) : (releaseThumbnail x).Within Footprint.aside := by
  rw [releaseThumbnail]
  split
  · exact filing_aside (removeScratch_filing _)
  · exact .pure _

theorem discardScratch_aside (x : Session) : (discardScratch x).Within Footprint.aside := by
  rw [discardScratch]
  split
  · exact .bind (filing_aside (removeScratch_filing _)).tolerate fun _ =>
      (releaseThumbnail_aside x).tolerate
  · exact (releaseThumbnail_aside x).tolerate

/-! ### Sessions -/

/-- The state follows, and the key that the session goes to may be touched. -/
def FollowsFor (growing : Prop) (source : Source) (first : Nat) (r : State) (x : Session)
    (s : State) : Prop :=
  Follows growing source first r s ∧ ∀ key, x.target.key? = some key → MayTouch source first r key

theorem FollowsFor.stable : IsStable (FollowsFor growing source first r x) :=
  Follows.stable.and (.of_holdings fun _ => _)

theorem FollowsFor.followsWith (h : FollowsFor growing source first r x s) (key : String)
    (hkey : x.target.key? = some key) : FollowsWith growing source first r key s :=
  ⟨h.1, h.2 key hkey⟩

theorem aside_followsFor {α : Type} {a : Action α} (h : a.Within Footprint.aside) :
    a.Upholds last (FollowsFor growing source first r x) (FollowsFor growing source first r x)
      fun _ => FollowsFor growing source first r x :=
  .of_within h (fun _ _ hrel => hrel.2.1) (fun _ _ _ _ hrel _ hs => ⟨hs.1.of_aside hrel, hs.2⟩)
    fun _ _ hrel _ hs => ⟨hs.1.of_aside hrel, hs.2⟩

/-- What a session of the viewer goes to may be touched. -/
theorem ownSession_follows (viewer : Viewer) (id : String) :
    (ownSession viewer id).Upholds last (Follows growing source first r)
      (Follows growing source first r) fun x => FollowsFor growing source first r x := by
  intro s
  rcases ownSession_spec viewer id s with ⟨x, hown, hfind, -⟩ | ⟨e, hown, -⟩
  · rw [hown]
    refine ⟨Nat.le_refl _, fun _ hs => ⟨hs, fun key hkey => ?_⟩⟩
    exact hs.mayTouch_session (List.mem_of_find?_eq_some hfind) hkey
  · rw [hown]
    exact ⟨Nat.le_refl _, fun _ hs => hs⟩

/-- Giving up what a session has gathered touches its key only. -/
theorem releaseSession_follows (x : Session) :
    (releaseSession x).Upholds last (FollowsFor growing source first r x)
      (FollowsFor growing source first r x) fun _ => FollowsFor growing source first r x := by
  have hquiet : ∀ key upload, IsQuiet (abortParts key upload) := fun key upload =>
    .bind clientStore_quiet fun b => abortUpload_quiet b key upload
  have htarget : (releaseTarget x.target).Upholds last (FollowsFor growing source first r x)
      (FollowsFor growing source first r x) fun _ => FollowsFor growing source first r x := by
    simp only [releaseTarget]
    split
    · exact aside_followsFor (filing_aside (removeScratch_filing _))
    · rename_i key htarget
      have hkey : x.target.key? = some key := by
        rw [htarget]
        rfl
      refine .bind (.quiet (query_quiet _) FollowsFor.stable fun _ hs => hs) fun isUsed => ?_
      split
      · exact .pure fun _ hs => hs
      · refine .bind (.quiet clientStore_quiet FollowsFor.stable fun _ hs => hs) fun b => ?_
        exact .of_within (delete_touching b key) (fun _ _ hrel => hrel.1.2.1)
          (fun _ _ _ _ hrel _ hs => ⟨hs.1.touch (hs.2 key hkey) (.inl rfl) hrel, hs.2⟩)
          fun _ _ hrel _ hs => ⟨hs.1.touch (hs.2 key hkey) (.inl rfl) hrel, hs.2⟩
    · exact .quiet (hquiet _ _) FollowsFor.stable fun _ hs => hs
  refine .bind (aside_followsFor (releaseThumbnail_aside x)).outcome_inv fun _ => ?_
  refine .bind htarget.outcome_inv fun _ => ?_
  exact .quiet (.ofExcept _) FollowsFor.stable fun _ hs => hs

/-- A session that is given up leaves only what follows. -/
theorem release_follows (x : Session) :
    (releaseSession x).tolerate.Upholds last (Follows growing source first r)
      (FollowsFor growing source first r x) fun _ => Follows growing source first r :=
  ((releaseSession_follows x).tolerate.weaken_inv fun _ hs => hs.1).weaken (fun _ hs => hs)
    fun _ _ hs => hs.1

theorem cancelSession_follows (viewer : Viewer) (id : String) :
    (cancelSession viewer id).Upholds last (Follows growing source first r)
      (Follows growing source first r) fun _ => Follows growing source first r := by
  refine .bind (ownSession_follows viewer id) fun x => ?_
  refine .bind ((aside_followsFor (deleteSession_aside _)).weaken_inv fun _ hs => hs.1)
    fun isDone => ?_
  dsimp only
  split
  · exact .throw fun _ hs => hs.1
  · exact release_follows x

theorem remove_follows (sweep : Sweep) (x : Session) :
    (sweep.remove x).Upholds last (FollowsFor growing source first r x)
      (FollowsFor growing source first r x) fun _ => FollowsFor growing source first r x := by
  refine .bind (aside_followsFor (deleteSession_aside _)).outcome_inv fun deleted => ?_
  split
  · refine .bind (releaseSession_follows x).outcome_inv fun released => ?_
    split
    · exact .pure fun _ hs => hs
    · exact .pure fun _ hs => hs
  · exact .pure fun _ hs => hs
  · exact .pure fun _ hs => hs

theorem batches_follows (cutoff : Instant) (budget : Nat) (sweep : Sweep) :
    (Sweep.batches cutoff budget sweep).Upholds last (Follows growing source first r)
      (Follows growing source first r) fun _ => Follows growing source first r := by
  induction budget generalizing sweep with
  | zero => exact .pure fun _ hs => hs
  | succ budget ih =>
    refine .bind (.query _) fun batch => ?_
    -- the sessions of a batch are known from before, and what they go to may be touched
    let Known : Prop := ∀ x ∈ batch, ∀ key, x.target.key? = some key → MayTouch source first r key
    have hremove : ∀ sweep, ∀ x ∈ batch, (Sweep.remove sweep x).Upholds last
        (Follows growing source first r) (fun s => Known ∧ Follows growing source first r s)
        fun _ s => Known ∧ Follows growing source first r s :=
      fun sweep x hx => (((remove_follows sweep x).weaken_inv fun _ hs => hs.1).frame Known).weaken
        (fun _ hs => ⟨hs.1, hs.2, hs.1 x hx⟩) fun _ _ hs => ⟨hs.1, hs.2.1⟩
    refine .bind ((Upholds.foldlM hremove sweep).weaken_pre ?_) fun sweep => ?_
    · rintro s ⟨hs, rfl⟩
      refine ⟨fun x hx key hkey => hs.mayTouch_session ?_ hkey, hs⟩
      exact List.mem_of_mem_filter (List.mem_mergeSort.mp (List.mem_of_mem_take hx))
    · split
      · exact .pure fun _ hs => hs.2
      · exact (ih sweep).weaken_pre fun _ hs => hs.2

theorem sweepExpired_follows (time : Instant) :
    (sweepExpired time).Upholds last (Follows growing source first r)
      (Follows growing source first r) fun _ => Follows growing source first r := by
  refine .bind (quiet_follows (query_quiet _)) fun count => ?_
  refine .bind (batches_follows _ _ _) fun sweep => ?_
  split
  · exact .throw fun _ hs => hs
  · exact .pure fun _ hs => hs

/-! ### Opening and completing -/

/-- A session may be added if it goes to a new key. -/
theorem insertSession_follows (x : Session) :
    (transact (Database.insertSession x)).Upholds last (FollowsFor growing source first r x)
      (fun s => Follows growing source first r s
        ∧ ∀ key, x.target.key? = some key → IsNew source first r key)
      fun _ => FollowsFor growing source first r x := by
  have hkeys : (∀ key, x.target.key? = some key → IsNew source first r key) →
      ∀ key, x.target.key? = some key → MayTouch source first r key :=
    fun hnew key hkey => (hnew key hkey).mayTouch
  refine .transact (fun _ hs => ⟨hs.1, hkeys hs.2⟩) fun s _ d hrun ⟨hs, hnew⟩ => ⟨?_, hkeys hnew⟩
  rcases Database.run_insertSession hrun with ⟨-, rfl⟩ | ⟨-, rfl⟩
  · exact hs
  · refine hs.of_database rfl (Nat.le_refl _) (fun a ha => ⟨hs.row a ha, hs.thumbnail a ha⟩) ?_
      fun _ key hhas => hhas
    exact List.forall_mem_cons.mpr
      ⟨fun key hkey => ⟨(hnew key hkey).isKey, .inr (hnew key hkey).not_issued⟩, hs.session⟩

section

variable (hnames : source.NeverRepeats first last) (hfirst : first ≤ r.draws)
include hnames hfirst

theorem openTarget_follows (b : Backend) (id filename contentType : String) (size : Int) :
    (openTarget b id filename contentType size).Upholds last (Follows growing source first r)
      (Follows growing source first r) fun opened s => Follows growing source first r s
        ∧ ∀ key, opened.1.key? = some key → IsNew source first r key := by
  rw [openTarget]
  split
  · refine .bind (freeKey_follows hnames hfirst b filename _) fun key => ?_
    have hstable : IsStable fun s => Follows growing source first r s
        ∧ IsNew source first r key :=
      Follows.stable.and (.of_holdings fun _ => _)
    have hopened : ∀ target : Target, target.key? = some key → ∀ s,
        Follows growing source first r s ∧ IsNew source first r key →
        Follows growing source first r s ∧ ∀ other, target.key? = some other →
          IsNew source first r other := by
      rintro target htarget s ⟨hs, hnew⟩
      refine ⟨hs, fun other hother => ?_⟩
      rw [htarget] at hother
      exact Option.some.inj hother ▸ hnew
    refine .bind (.quiet (createUpload_quiet b key).outcome hstable fun _ hs => hs.1) fun made => ?_
    split
    · exact .pure (hopened _ rfl)
    · refine .bind (.quiet (signPut_quiet b key _ _) hstable fun _ hs => hs.1) fun address => ?_
      exact .pure (hopened _ rfl)
    · exact .throw fun _ hs => hs.1
  · refine .bind (quiet_follows (.look _)) fun directory => ?_
    refine .bind (aside_follows (filing_aside (writeScratch_filing _ _))) fun _ => .pure ?_
    exact fun s hs => ⟨hs, fun key hkey => by cases hkey⟩

theorem createSession_follows (viewer : Viewer) (draft : SessionDraft) :
    (createSession viewer draft).Upholds last (Follows growing source first r)
      (Follows growing source first r) fun _ => Follows growing source first r := by
  refine signedIn_bind_upholds (fun _ hs => hs) fun user _ => ?_
  refine .bind (quiet_follows (.ofExcept _)) fun filename => ?_
  refine .bind (quiet_follows storageSetting_quiet) fun setting => ?_
  dsimp only
  split
  · exact .throw_bind fun _ hs => hs
  · refine .bind (quiet_follows (checkLimit_quiet _ _)) fun _ => ?_
    refine .bind (quiet_follows (memoLink_quiet _ _)) fun memo => ?_
    refine .bind (quiet_follows (drawName_quiet _)) fun id => ?_
    refine .bind (quiet_follows (backendForNew_quiet _)) fun b => ?_
    refine .bind (openTarget_follows hnames hfirst b id filename _ _) fun opened => ?_
    have hstable : IsStable fun s => Follows growing source first r s
        ∧ ∀ key, opened.1.key? = some key → IsNew source first r key :=
      Follows.stable.and (.of_holdings fun _ => _)
    refine .bind (.quiet now_quiet hstable fun _ hs => hs.1) fun time => ?_
    let session : Session :=
      ⟨id, user, filename, ContentType.choose draft.contentType none, draft.size,
        nonblank draft.memoName, opened.1, 0, none, time, time⟩
    have hinsert : (transact (Database.insertSession session)).outcome.Upholds last
        (Follows growing source first r)
        (fun s => Follows growing source first r s
          ∧ ∀ key, opened.1.key? = some key → IsNew source first r key)
        fun _ => FollowsFor growing source first r session :=
      ((insertSession_follows session).outcome.weaken_inv fun _ hs => hs.1).weaken
        (fun _ hs => hs) fun _ _ => Ends.always
    refine .bind hinsert fun inserted => ?_
    cases inserted with
    | ok _ => exact .pure fun _ hs => hs.1
    | error e => exact .bind (release_follows session) fun _ => .throw fun _ hs => hs

/-- A scratch file is stored at a new key, or an object is used again. -/
theorem gatherScratch_follows (x : Session) (setting : Setting) (path : String) :
    (gatherScratch x setting path).Upholds last (Follows growing source first r)
      (Follows growing source first r) fun g => FollowsWith growing source first r g.key := by
  refine .bind (quiet_follows (checkReceived_quiet _ _)) fun _ => ?_
  refine .bind (quiet_follows (readScratch_quiet path)) fun content => ?_
  refine .bind (quiet_follows (checkReceived_quiet _ _)) fun _ => ?_
  refine .bind (quiet_follows (backendForNew_quiet _)) fun b => ?_
  refine .bind (reusableKey_follows b _ _) fun reused => ?_
  cases reused with
  | some key => exact .pure fun s hs => ⟨hs.1, hs.2 key rfl⟩
  | none =>
    refine .bind ((allocateKey_follows hnames hfirst b _).weaken_pre fun s hs => hs.1) fun key => ?_
    refine .bind (quiet_followsWith (readScratch_quiet path)) fun stream => ?_
    exact .bind (touching_follows (putStream_touching b key stream _) (.inl rfl)) fun _ =>
      .pure fun _ hs => hs

theorem gather_follows (x : Session) (setting : Setting) :
    (gather x setting).Upholds last (Follows growing source first r)
      (FollowsFor growing source first r x)
      fun g => FollowsWith growing source first r g.key := by
  rw [gather]
  split
  · rename_i path _
    exact (gatherScratch_follows hnames hfirst x setting path).weaken_pre fun _ hs => hs.1
  · rename_i key htarget
    refine Upholds.weaken_pre ?_ fun s (hs : FollowsFor growing source first r x s) =>
      hs.followsWith key (by rw [htarget]; rfl)
    refine .bind (quiet_followsWith (backendFor_quiet _ _)) fun b => ?_
    refine .bind (quiet_followsWith (storedSize_quiet b key)) fun size => ?_
    exact .bind (quiet_followsWith (checkReceived_quiet _ _)) fun _ => .pure fun _ hs => hs
  · rename_i key upload _ htarget
    refine Upholds.weaken_pre ?_ fun s (hs : FollowsFor growing source first r x s) =>
      hs.followsWith key (by rw [htarget]; rfl)
    refine .bind (quiet_followsWith (backendFor_quiet _ _)) fun b => ?_
    refine .bind (quiet_followsWith (listParts_quiet b key upload)) fun parts => ?_
    refine .bind (quiet_followsWith (checkReceived_quiet _ _)) fun _ => ?_
    exact .bind (touching_follows (completeUpload_touching b key upload _) (.inl rfl)) fun _ =>
      .pure fun _ hs => hs

theorem completeSession_follows (viewer : Viewer) (id : String) :
    (completeSession viewer id).Upholds last (Follows growing source first r)
      (Follows growing source first r) fun _ => Follows growing source first r := by
  refine .bind (ownSession_follows viewer id) fun x => ?_
  refine .bind (.quiet storageSetting_quiet FollowsFor.stable fun _ hs => hs.1) fun setting => ?_
  refine .bind (.quiet (memoLink_quiet _ _) FollowsFor.stable fun _ hs => hs.1) fun memo => ?_
  refine .bind (gather_follows hnames hfirst x setting) fun g => ?_
  refine .bind (insertAttachment_follows g.backend g.isFresh rfl) fun a => ?_
  refine .bind (quiet_followsWith (pictureSource_quiet x)) fun picture => ?_
  refine .bind (withThumbnail_follows a setting picture) fun a => ?_
  refine .bind (aside_follows (deleteSession_aside _)) fun _ => ?_
  exact .bind (aside_follows (discardScratch_aside x)) fun _ => .pure fun _ hs => hs

end

/-- What a client stores is at the key of an open upload. -/
theorem clientObject_follows (id : String) (content : Blob) :
    (clientObject id content).Upholds last (Follows growing source first r)
      (Follows growing source first r) fun _ => Follows growing source first r := by
  intro s
  rw [clientObject, exec_atomic]
  split
  · rename_i key htarget
    refine ⟨Nat.le_refl _, fun _ hs => ?_⟩
    obtain ⟨x, hx, hdirect⟩ := Option.map_eq_some_iff.mp htarget
    have hkey : x.target.key? = some key := by
      rw [hdirect]
      rfl
    refine hs.touch (hs.mayTouch_session (List.mem_of_find?_eq_some hx) hkey) (.inl rfl)
      ⟨⟨rfl, Nat.le_refl _, ?_⟩, fun other hapart => ⟨?_, ?_⟩⟩
    · intro kind other found hapart hfound
      cases kind with
      | disk => exact hfound
      | bucket => exact (ObjectStore.object?_store_of_ne hapart).trans hfound
    · intro kind hlacks
      cases kind with
      | disk => exact hlacks
      | bucket => exact (ObjectStore.object?_store_of_ne (hapart .bucket)).trans hlacks
    · intro kind found hfound
      cases kind with
      | disk => exact hfound
      | bucket => exact (ObjectStore.object?_store_of_ne (hapart .bucket)).trans hfound
  · exact ⟨Nat.le_refl _, fun _ hs => hs⟩

/-- **Every turn leaves alone the keys that it may not touch**, and no attachment goes unless it is
deleted. -/
theorem act_follows (hnames : source.NeverRepeats first last) (hfirst : first ≤ r.draws)
    (turn : Turn) (hturn : growing → ∀ viewer uid, turn ≠ .deleteAttachment viewer uid) :
    turn.act.Upholds last (Follows growing source first r) (Follows growing source first r)
      fun _ => Follows growing source first r := by
  cases turn with
  | createAttachment viewer draft =>
    exact .bind (createAttachment_follows hnames hfirst viewer draft) fun _ => .pure fun _ hs => hs
  | deleteAttachment viewer uid =>
    exact deleteAttachment_follows (fun h => hturn h viewer uid rfl) viewer uid
  | createSession viewer draft =>
    exact .bind (createSession_follows hnames hfirst viewer draft) fun _ => .pure fun _ hs => hs
  | appendChunk viewer id offset chunk =>
    exact .bind (aside_follows (appendChunk_aside viewer id offset chunk)) fun _ =>
      .pure fun _ hs => hs
  | sendThumbnail viewer id picture => exact aside_follows (sendThumbnail_aside viewer id picture)
  | partAddress viewer id part =>
    exact .bind (aside_follows (partAddress_aside viewer id part)) fun _ => .pure fun _ hs => hs
  | uploadProgress viewer id =>
    exact .bind (quiet_follows (uploadProgress_quiet viewer id)) fun _ => .pure fun _ hs => hs
  | completeSession viewer id =>
    exact .bind (completeSession_follows hnames hfirst viewer id) fun _ => .pure fun _ hs => hs
  | cancelSession viewer id => exact cancelSession_follows viewer id
  | sweepExpired time => exact .bind (sweepExpired_follows time) fun _ => .pure fun _ hs => hs
  | clientObject id content => exact clientObject_follows id content
  | clientPart id part => exact quiet_follows (clientPart_quiet id part)

end SharedMemos.Server
