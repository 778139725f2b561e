import SharedMemos.Proofs.Server.Uploads.Phases

/-!
# Closing an upload, step by step

The parts of the three requests that close an upload, each with the phases that it leads from and
to. Most of them find something out and are gentle in whatever phase the request is. A request
leaves the calm phase at two steps: where it asks for rows with a key and finds none
(`releaseObject_leads`), and where it asks for the size of the object and is told the right one
(`head_leads`). It is calm again when it has removed the object, or has tried to add the row.

## Main results

* `releaseObject_leads`, `gather_leads`, `insertAttachment_leads` — the parts that matter
* `completeSession_leads`, `cancelSession_leads`, `sweepExpired_leads` — the three ways to close
-/

namespace SharedMemos.Server

open Attempt SharedMemos.Storage SharedMemos.Upload

/-! ### Parts that find something out -/

section

variable {α : Type} {id key : String} {p : Phase}

theorem query_leads {g : Database → α} {found : α → Prop}
    (h : ∀ s : State, s.Hosts id key → found (g s.database)) :
    Leads id key p (query g) (Surely p found) :=
  .look h

theorem query_any_leads (g : Database → α) :
    Leads id key p (query g) (Surely p fun _ => True) :=
  .look_any _

theorem now_leads : Leads id key p now (Surely p fun _ => True) :=
  .gentle (fun _ _ => .of_same rfl rfl rfl rfl) fun _ _ => ⟨_, rfl, trivial⟩

theorem drawName_leads (length : Nat) :
    Leads id key p (drawName length) (Surely p fun _ => True) :=
  .gentle (fun _ _ => .of_same rfl rfl rfl rfl) fun _ _ => ⟨_, rfl, trivial⟩

theorem storageSetting_leads : Leads id key p storageSetting (Surely p fun _ => True) := by
  have hquery : Leads id key p (query (·.setting? storageSettingName)) (Surely p fun text? =>
      ∃ text, text? = some text ∧ (Setting.ofText text).isOk = true) :=
    query_leads fun s hs => hs.setting
  refine hquery.bind_surely ?_
  rintro _ ⟨text, rfl, hok⟩
  refine .ofExcept ⟨rfl, ?_⟩
  cases hsetting : Setting.ofText text with
  | ok setting => exact ⟨setting, rfl, trivial⟩
  | error e =>
    rw [hsetting] at hok
    cases hok

/-- Objects of every kind are in the store that the server is tied to. -/
theorem backendFor_leads (kind : Kind) (setting : Setting) :
    Leads id key p (backendFor kind setting) (Surely p (· = .tied)) := by
  have hfor : ∀ s : State, s.Hosts id key →
      s.resolver.forKind kind setting = (.ok .tied, s.resolver) := fun s hs => by
    simp only [Resolver.forKind, hs.tied, if_true]
  refine .gentle (fun s hs => ?_) fun s hs => ⟨.tied, ?_, rfl⟩
  · refine .of_same rfl rfl rfl ?_
    show (s.resolver.forKind kind setting).2.isTied = _
    rw [hfor s hs]
  · show (s.resolver.forKind kind setting).1 = _
    rw [hfor s hs]

theorem clientStore_leads : Leads id key p clientStore (Surely p (· = .tied)) :=
  storageSetting_leads.bind_surely fun setting _ => backendFor_leads .bucket setting

theorem onStore_leads {f : ObjectStore → Except Error α × ObjectStore}
    (h : ∀ s : State, Gentle key s { s with store := (f s.store).2 }) :
    Leads id key .calm (onStore f) (Calmly fun _ => True) :=
  .gentle (fun s _ => h s) fun _ _ _ _ => trivial

/-- A transaction that fails changes nothing. -/
theorem transact_leads {x : Transaction α}
    (h : ∀ (s : State) a d, x.run s.database = .ok (a, d) →
      Gentle key s { s with database := d }) :
    Leads id key .calm (transact x) (Calmly fun _ => True) := by
  refine .gentle (fun s _ => ?_) fun _ _ _ _ => trivial
  cases hrun : x.run s.database with
  | error e => exact .refl key s
  | ok y => exact h s y.1 y.2 hrun

theorem modifiableMemo_leads (user : UserId) (uid : String) :
    Leads id key .calm (modifiableMemo user uid) (Calmly fun _ => True) := by
  refine (query_any_leads _).bind_surely fun m _ => ?_
  cases m with
  | none => exact .throw_calmly _
  | some m =>
    dsimp only
    split
    · exact .pure_calmly trivial
    · exact .throw_calmly _

theorem memoLink_leads (user : UserId) (memoName : Option String) :
    Leads id key .calm (memoLink user memoName) (Calmly fun _ => True) := by
  rw [memoLink]
  split
  · exact .pure_calmly trivial
  · refine (Leads.ofExcept_calmly _).bind_calmly fun uid _ => ?_
    exact (modifiableMemo_leads user uid).bind_calmly fun m _ => .pure_calmly trivial

/-- An upload of the viewer with the name is that of an object at the key. -/
theorem ownSession_leads (viewer : Viewer) :
    Leads id key .calm (ownSession viewer id)
      (Calmly fun x => x.target = .direct key ∧ 0 < x.size) := by
  cases viewer with
  | none => exact .throw_calmly _
  | some user =>
    have huser : Leads id key .calm (attachmentUser (some user)) (Calmly fun _ => True) :=
      .pure_calmly trivial
    refine huser.bind_calmly fun user _ => ?_
    have hquery : Leads id key .calm (query (·.session? id))
        (Surely .calm fun x? => ∀ x, x? = some x → x.target = .direct key ∧ 0 < x.size) :=
      query_leads fun s hs x hx =>
        hs.upload x (List.mem_of_find?_eq_some hx) (eq_of_beq (List.find?_some hx :))
    refine hquery.bind_surely fun x? hx => ?_
    split
    · rename_i x hfilter
      exact .pure_calmly (hx x (Option.filter_eq_some_iff.mp hfilter).1)
    · exact .throw_calmly _

/-! ### Giving up -/

theorem removeScratch_leads (path : String) :
    Leads id key .calm (removeScratch path) (Calmly fun _ => True) := by
  refine .gentle (fun s _ => ?_) fun _ _ _ _ => trivial
  split
  · exact .refl key s
  · exact .of_same rfl rfl rfl rfl

theorem deleteSession_leads (name : String) :
    Leads id key .calm (transact (Database.deleteSession name)) (Calmly fun _ => True) := by
  refine transact_leads fun s isDone d hrun => ?_
  rw [Database.run_deleteSession hrun]
  cases isDone with
  | false => exact .refl key s
  | true =>
    rw [if_pos rfl]
    exact .of_database rfl rfl (List.filter_subset_self _)

theorem abortParts_leads (name upload : String) :
    Leads id key .calm (abortParts name upload) (Calmly fun _ => True) := by
  refine clientStore_leads.bind_surely ?_
  rintro _ rfl
  exact onStore_leads (f := fun s => s.abortUpload name upload) fun s =>
    .of_objects ObjectStore.abortUpload_failures ObjectStore.abortUpload_objects

/-- **What is given up is removed if no row was found for it.** -/
theorem releaseObject_leads (k : String) :
    Leads id key .calm (releaseObject k) (Calmly fun _ => True) := by
  have hquery : Leads id key .calm (query (·.usesKey k)) fun r q =>
      r = .ok true ∧ q = .calm ∨ r = .ok false ∧ q = .removing k := by
    refine .atomic (g := fun s => (.ok (s.database.usesKey k), s)) (fun _ => trivial) fun s _ => ?_
    cases huses : s.database.usesKey k with
    | true => exact ⟨.calm, .gentle _ (.refl key s), .inl ⟨rfl, rfl⟩⟩
    | false =>
      refine ⟨.removing k, .miss k (.refl key s) fun x hx => ?_, .inr ⟨rfl, rfl⟩⟩
      obtain ⟨a, ha, rfl⟩ := List.mem_map.mp hx
      exact not_usesKey huses ha
  have hremove : Leads id key (.removing k) (clientStore >>= fun b => b.delete k)
      (Calmly fun _ => True) := by
    refine clientStore_leads.bind_surely ?_
    rintro _ rfl
    exact .atomic (fun _ => .now rfl) fun s hs =>
      ⟨.calm, moves_delete hs k, rfl, fun _ _ => trivial⟩
  refine hquery.bind ?_ ?_
  · rintro isUsed q (⟨⟨⟩, rfl⟩ | ⟨⟨⟩, rfl⟩)
    · exact .pure_calmly trivial
    · exact hremove
  · rintro e q (⟨⟨⟩, -⟩ | ⟨⟨⟩, -⟩)

theorem releaseThumbnail_leads (x : Session) :
    Leads id key .calm (releaseThumbnail x) (Calmly fun _ => True) := by
  rw [releaseThumbnail]
  split
  · exact removeScratch_leads _
  · exact .pure_calmly trivial

theorem releaseTarget_leads (target : Target) :
    Leads id key .calm (releaseTarget target) (Calmly fun _ => True) := by
  cases target with
  | scratch path => exact removeScratch_leads path
  | direct k => exact releaseObject_leads k
  | multipart k upload _ => exact abortParts_leads k upload

theorem releaseSession_leads (x : Session) :
    Leads id key .calm (releaseSession x) (Calmly fun _ => True) :=
  (releaseThumbnail_leads x).outcome_calmly.bind_calmly fun _ _ =>
    (releaseTarget_leads x.target).outcome_calmly.bind_calmly fun _ _ =>
      .ofExcept_calmly _

/-- **Cancelling an upload.** -/
theorem cancelSession_leads (viewer : Viewer) :
    Leads id key .calm (cancelSession viewer id) (Calmly fun _ => True) := by
  refine (ownSession_leads viewer).bind_calmly fun x _ => ?_
  refine (deleteSession_leads x.id).bind_calmly fun isDone _ => ?_
  split
  · exact .throw_calmly _
  · exact (releaseSession_leads x).tolerate

theorem remove_leads (sweep : Sweep) (x : Session) :
    Leads id key .calm (sweep.remove x) (Calmly fun _ => True) := by
  refine (deleteSession_leads x.id).outcome_calmly.bind_calmly fun r _ => ?_
  split
  · refine (releaseSession_leads x).outcome_calmly.bind_calmly fun r _ => ?_
    split
    · exact .pure_calmly trivial
    · exact .pure_calmly trivial
  · exact .pure_calmly trivial
  · exact .pure_calmly trivial

theorem foldlM_remove_leads (batch : List Session) (sweep : Sweep) :
    Leads id key .calm (batch.foldlM Sweep.remove sweep) (Calmly fun _ => True) := by
  induction batch generalizing sweep with
  | nil => exact .pure_calmly trivial
  | cons x batch ih =>
    rw [List.foldlM_cons]
    exact (remove_leads sweep x).bind_calmly fun sweep _ => ih sweep

theorem batches_leads (cutoff : Instant) (budget : Nat) (sweep : Sweep) :
    Leads id key .calm (Sweep.batches cutoff budget sweep) (Calmly fun _ => True) := by
  induction budget generalizing sweep with
  | zero => exact .pure_calmly trivial
  | succ budget ih =>
    refine (query_any_leads _).bind_surely fun batch _ => ?_
    refine (foldlM_remove_leads batch sweep).bind_calmly fun sweep _ => ?_
    split
    · exact .pure_calmly trivial
    · exact ih sweep

/-- **Sweeping expired uploads**, this one or others. -/
theorem sweepExpired_leads (time : Instant) :
    Leads id key .calm (sweepExpired time) (Calmly fun _ => True) := by
  refine (query_any_leads _).bind_surely fun count _ => ?_
  refine (batches_leads _ _ _).bind_calmly fun sweep _ => ?_
  split
  · exact .throw_calmly _
  · exact .pure_calmly trivial

/-! ### Completing -/

/-- **The object is found if it has the size that is expected.** -/
theorem head_leads (size : Int) :
    Leads id key .calm (Backend.tied.head key)
      fun r q => r = .ok size ∧ q = .adding ∨ r ≠ .ok size ∧ q = .calm := by
  refine .atomic (fun _ => trivial) fun s _ => ?_
  have hgentle : Gentle key s { s with store := (s.store.head key).2 } :=
    .of_objects ObjectStore.head_failures ObjectStore.head_objects
  by_cases hr : (s.store.head key).1 = .ok size
  · obtain ⟨content, hcontent, -⟩ :=
      ObjectStore.object?_head (t := (s.store.head key).2) (Prod.ext hr rfl)
    refine ⟨.adding, .find hgentle ?_, .inl ⟨hr, rfl⟩⟩
    exact hgentle.kept key (Option.isSome_iff_exists.mpr ⟨content, hcontent⟩)
  · exact ⟨.calm, .gentle _ hgentle, .inr ⟨hr, rfl⟩⟩

/-- An object that is not there is not as large as a positive size. -/
theorem storedSize_leads {size : Int} (hsize : 0 < size) :
    Leads id key .calm (storedSize .tied key)
      fun r q => r = .ok size ∧ q = .adding ∨ r ≠ .ok size ∧ q = .calm := by
  refine (head_leads size).outcome.bind ?_ ?_
  · rintro r q ⟨_, ⟨⟩, hr⟩
    split
    · exact .pure hr
    · rcases hr with ⟨⟨⟩, -⟩ | ⟨-, rfl⟩
      refine .pure (.inr ⟨fun hzero => ?_, rfl⟩)
      cases hzero
      exact absurd hsize (Int.lt_irrefl 0)
    · rcases hr with ⟨⟨⟩, -⟩ | ⟨-, rfl⟩
      exact .throw (.inr ⟨nofun, rfl⟩)
  · rintro e q ⟨_, ⟨⟩, -⟩

/-- The object was found at the key, and a row is to be added; or the request has failed. -/
def IsFound (key : String) (r : Except Error Gathered) (q : Phase) : Prop :=
  (∃ hash, r = .ok ⟨.tied, hash, key, false⟩ ∧ q = .adding) ∨ ∃ e, r = .error e ∧ q = .calm

theorem gather_leads {x : Session} (htarget : x.target = .direct key) (hsize : 0 < x.size)
    (setting : Setting) : Leads id key .calm (gather x setting) (IsFound key) := by
  rw [gather, htarget]
  refine (backendFor_leads .bucket setting).bind_surely ?_
  rintro _ rfl
  refine (storedSize_leads hsize).bind ?_ ?_
  · rintro size q hq
    rw [checkReceived]
    split
    · rename_i hne
      obtain ⟨-, rfl⟩ := hq.resolve_left fun h => hne (Except.ok.inj h.1)
      exact .throw (.inr ⟨_, rfl, rfl⟩)
    · rename_i heq
      obtain ⟨-, rfl⟩ := hq.resolve_right fun h => heq fun hne => h.1 (congrArg _ hne)
      exact .pure (.inl ⟨_, rfl, rfl⟩)
  · rintro e q (⟨⟨⟩, -⟩ | ⟨-, rfl⟩)
    exact .inr ⟨e, rfl, rfl⟩

/-- **The row of an object at the key is added**, or cannot be. -/
theorem insertAttachment_leads {a : Attachment} (hstorage : a.storage = .bucket)
    (hkey : a.storageKey = key) (b : Backend) :
    Leads id key .adding (insertAttachment b a false) (Calmly (·.storageKey = key)) := by
  refine (drawName_leads _).bind_surely fun uid _ => ?_
  have hinsert : Leads id key .adding
      (transactNow fun time => Database.insertAttachment
        { a with uid := uid, created := time, updated := time })
      (Calmly (·.storageKey = key)) := by
    refine now_leads.bind_surely fun time _ => ?_
    have hadds : IsAddition key fun s => ((transact (Database.insertAttachment
        { a with uid := uid, created := time, updated := time })).exec s).2 :=
      ⟨{ a with uid := uid, created := time, updated := time }, hstorage, hkey, rfl⟩
    refine .atomic (fun _ => .now hadds) fun s _ => ?_
    cases hrun : (Database.insertAttachment
        { a with uid := uid, created := time, updated := time }).run s.database with
    | error e => exact ⟨.calm, .add (Gentle.refl key s).toKeeps rfl (.inl rfl), .error _ e⟩
    | ok p =>
      obtain ⟨row, d⟩ := p
      obtain ⟨hrow, rfl, -⟩ := Database.run_insertAttachment hrun
      refine ⟨.calm, .add ⟨rfl, rfl, rfl, rfl, List.Subset.refl _⟩ rfl (.inr ?_), .ok ?_⟩
      · rw [hrow, ← hstorage, ← hkey]
        rfl
      · rw [hrow]
        exact hkey
  refine hinsert.outcome_calmly.bind_calmly fun r hr => ?_
  split
  · exact .pure_calmly (hr _ rfl)
  · exact .throw_calmly _

theorem readScratch_leads (path : String) :
    Leads id key .calm (readScratch path) (Calmly fun _ => True) := by
  refine (Leads.look_any _).bind_surely fun content _ => ?_
  split
  · exact .pure_calmly trivial
  · exact .throw_calmly _

theorem recordThumbnail_leads (a : Attachment) (thumbnail : Thumbnail) :
    Leads id key .calm (recordThumbnail a thumbnail) (Calmly fun _ => True) := by
  refine now_leads.bind_surely fun time _ => transact_leads fun s _ d hrun => ?_
  rcases Database.run_changeAttachment hrun with rfl | rfl
  · exact .refl key s
  · refine .of_database ?_ rfl (List.Subset.refl _)
    rw [State.places, State.places, List.map_map]
    refine List.map_congr_left fun row _ => ?_
    rw [Function.comp_apply]
    split <;> rfl

/-- A thumbnail of the attachment is stored beside its object. -/
theorem putThumbnail_leads (content : Blob) :
    Leads id key .calm (Backend.tied.put (Filename.thumbnailKey key) content)
      (Calmly fun _ => True) :=
  onStore_leads (f := fun s => s.put (Filename.thumbnailKey key) content) fun _ =>
    .of_store ObjectStore.put_failures (fun _ => ObjectStore.isSome_put)
      fun hgone => (ObjectStore.object?_put_of_ne (thumbnailKey_ne key)).trans hgone

theorem loadPicture_leads (a : Attachment) (source : PictureSource) :
    Leads id key .calm (loadPicture a .tied source) (Calmly fun _ => True) := by
  cases source with
  | received content => exact .pure_calmly trivial
  | scratch path most => exact (readScratch_leads path).bind_calmly fun _ _ => .pure_calmly trivial
  | stored =>
    rw [loadPicture]
    split
    · exact .pure_calmly trivial
    · refine (onStore_leads (f := fun s => s.open a.storageKey) fun s => ?_).bind_calmly
        fun _ _ => .pure_calmly trivial
      exact .of_objects ObjectStore.open_failures ObjectStore.open_objects

theorem withThumbnail_leads {a : Attachment} (hkey : a.storageKey = key) (setting : Setting)
    (source : PictureSource) :
    Leads id key .calm (withThumbnail a setting source) (Calmly fun _ => True) := by
  have hstore : ∀ content, Leads id key .calm (storeThumbnail a .tied content)
      (Calmly fun _ => True) := by
    intro content
    refine (Leads.ofExcept_calmly _).bind_calmly fun picture _ => ?_
    rw [hkey]
    refine (putThumbnail_leads _).bind_calmly fun size _ => ?_
    exact (recordThumbnail_leads a _).bind_calmly fun _ _ => .pure_calmly trivial
  have hfind : Leads id key .calm (findThumbnail a setting source) (Calmly fun _ => True) := by
    refine (query_any_leads _).bind_surely fun shared _ => ?_
    cases shared with
    | some thumbnail =>
      exact (recordThumbnail_leads a thumbnail).bind_calmly fun _ _ => .pure_calmly trivial
    | none =>
      refine (backendFor_leads a.storage setting).bind_surely ?_
      rintro _ rfl
      refine (loadPicture_leads a source).bind_calmly fun picture _ => ?_
      cases picture with
      | none => exact .pure_calmly trivial
      | some content => exact (hstore content).bind_calmly fun _ _ => .pure_calmly trivial
  rw [withThumbnail]
  split
  · exact .pure_calmly trivial
  · refine hfind.outcome_calmly.bind_calmly fun r _ => ?_
    split
    · exact .pure_calmly trivial
    · exact .pure_calmly trivial

theorem pictureSource_leads (x : Session) :
    Leads id key .calm (pictureSource x) (Calmly fun _ => True) := by
  rw [pictureSource]
  split
  · refine (Leads.look_any _).bind_surely fun hasFile _ => ?_
    split
    · exact .pure_calmly trivial
    · exact .pure_calmly trivial
  · exact .pure_calmly trivial

theorem discardScratch_leads (x : Session) :
    Leads id key .calm (discardScratch x) (Calmly fun _ => True) := by
  rw [discardScratch]
  split
  · exact (removeScratch_leads _).tolerate.bind_calmly fun _ _ =>
      (releaseThumbnail_leads x).tolerate
  · exact (releaseThumbnail_leads x).tolerate

/-- **Completing an upload.** -/
theorem completeSession_leads (viewer : Viewer) :
    Leads id key .calm (completeSession viewer id) (Calmly fun _ => True) := by
  refine (ownSession_leads viewer).bind_calmly fun x ⟨htarget, hsize⟩ => ?_
  refine storageSetting_leads.bind_surely fun setting _ => ?_
  refine (memoLink_leads x.creator x.memoName).bind_calmly fun memo _ => ?_
  refine (gather_leads htarget hsize setting).bind ?_ ?_
  · rintro g q (⟨hash, ⟨⟩, rfl⟩ | ⟨_, ⟨⟩, -⟩)
    have hinsert : Leads id key .adding _ _ :=
      insertAttachment_leads (a := newAttachment x.creator x.filename x.contentType x.size hash
        .bucket key memo) rfl rfl .tied
    refine hinsert.bind ?_ ?_
    · rintro a q ⟨rfl, ha⟩
      refine (pictureSource_leads x).bind_calmly fun source _ => ?_
      refine (withThumbnail_leads (ha a rfl) setting source).bind_calmly fun a _ => ?_
      refine (deleteSession_leads x.id).bind_calmly fun _ _ => ?_
      exact (discardScratch_leads x).bind_calmly fun _ _ => .pure_calmly trivial
    · rintro e q ⟨rfl, -⟩
      exact .error _ e
  · rintro e q (⟨_, ⟨⟩, -⟩ | ⟨_, -, rfl⟩)
    exact .error _ e

end

end SharedMemos.Server
