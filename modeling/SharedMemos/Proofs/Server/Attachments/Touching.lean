import SharedMemos.Proofs.Server.Runs
import SharedMemos.Proofs.Storage.Absence

/-!
# Keys that a request may touch

A request stores and removes objects at few keys: those that an attachment has or an open upload
goes to when the request comes in, and those that are drawn for it. At all others everything is left
as it was, what is there and what is not. So an object that has been removed with its last
attachment does not come back, and neither does its thumbnail.

The keys are told from the state in which the request comes in, and all that follows is compared to
it (`Follows`). Each step goes from one state that follows to another, and the keys of all rows are
among those that may be touched, so that the next step may rely on it.

## Main definitions

* `State.Lacks`, `Undisturbed` — what is at a key, and that it is left as it was
* `MayTouch` — the keys of a request
* `Follows` — what holds from there on

## Main results

* `act_follows` — every turn leaves all other keys alone
-/

namespace SharedMemos.Server

open SharedMemos.Storage SharedMemos.Upload Attempt

variable {α : Type} {source : Source} {first last : Nat} {growing : Prop} {r s t u : State}
  {kind : Kind} {key other name : String} {b : Backend}

/-! ### What is left as it was -/

/-- There is no object at the key of a kind of store, and there will be none before one is stored.
-/
def State.Lacks (s : State) (kind : Kind) (key : String) : Prop :=
  match kind with
  | .disk => Disk.Lacks s.disk key
  | .bucket => s.store.object? key = none

theorem State.Lacks.object?_eq_none (h : s.Lacks kind key) : s.object? kind key = none := by
  cases kind with
  | disk =>
    refine Option.eq_none_iff_forall_ne_some.mpr fun content hcontent => ?_
    exact Disk.Lacks.open_ne h (State.object?_disk.mp hcontent)
  | bucket => exact h

/-- What was at the key is there, and if nothing was, nothing is. -/
structure Undisturbed (key : String) (s t : State) : Prop where
  lacks : ∀ kind, s.Lacks kind key → t.Lacks kind key
  object : ∀ kind content, s.object? kind key = some content → t.object? kind key = some content

theorem Undisturbed.trans (h : Undisturbed key s t) (h' : Undisturbed key t u) :
    Undisturbed key s u where
  lacks kind hlacks := h'.lacks kind (h.lacks kind hlacks)
  object kind content hfound := h'.object kind content (h.object kind content hfound)

/-- Where the objects are the same, so is what is at a key. -/
theorem Undisturbed.of_same (hdisk : t.holdings.disk = s.holdings.disk)
    (hobjects : t.holdings.objects = s.holdings.objects) (key : String) : Undisturbed key s t where
  lacks kind h := by
    cases kind with
    | disk =>
      have hsame : t.disk = s.disk := hdisk
      rw [State.Lacks, hsame]
      exact h
    | bucket => exact (ObjectStore.object?_of_objects hobjects key).trans h
  object kind content hfound := (Holdings.object?_of_same hdisk hobjects kind key).trans hfound

theorem Undisturbed.refl (key : String) (s : State) : Undisturbed key s s :=
  .of_same rfl rfl key

/-- Steps that touch one key, and leave those apart from it as they are. -/
def Footprint.touching (key : String) : Footprint State where
  rel s t := (Footprint.storing key).rel s t
    ∧ ∀ other, (∀ kind, Apart kind key other) → Undisturbed other s t
  refl s := ⟨Footprint.refl _ s, fun other _ => .refl other s⟩
  trans h h' := ⟨Footprint.trans _ h.1 h'.1, fun other hapart =>
    (h.2 other hapart).trans (h'.2 other hapart)⟩

/-- What keeps all objects but one adds no others either. -/
theorem touching_of_storing {a : Action α} (ha : a.Within (Footprint.storing key))
    (hlacks : ∀ s kind other, Apart kind key other → s.Lacks kind other →
      (a.exec s).2.Lacks kind other) : a.Within (Footprint.touching key) :=
  fun s => ⟨ha s, fun other hapart => ⟨fun kind => hlacks s kind other (hapart kind),
    fun kind content => (ha s).2.2 kind other content (hapart kind)⟩⟩

theorem put_touching (b : Backend) (key : String) (content : Blob) :
    (b.put key content).Within (Footprint.touching key) := by
  refine touching_of_storing (put_storing b key content) fun s kind other hapart h => ?_
  cases b with
  | disk =>
    cases kind with
    | disk => exact Disk.lacks_put hapart h
    | bucket => exact h
  | bucket c => exact h
  | tied =>
    cases kind with
    | disk => exact h
    | bucket => exact (ObjectStore.object?_put_of_ne hapart).trans h

theorem putStream_touching (b : Backend) (key : String) (stream : Blob) (declared : Nat) :
    (b.putStream key stream declared).Within (Footprint.touching key) := by
  refine touching_of_storing (putStream_storing b key stream declared) fun s kind other hapart h =>
    ?_
  cases b with
  | disk =>
    cases kind with
    | disk => exact Disk.lacks_putStream hapart h
    | bucket => exact h
  | bucket c => exact h
  | tied =>
    cases kind with
    | disk => exact h
    | bucket => exact (ObjectStore.object?_put_of_ne hapart).trans h

theorem delete_touching (b : Backend) (key : String) :
    (b.delete key).Within (Footprint.touching key) := by
  refine touching_of_storing (delete_storing b key) fun s kind other hapart h => ?_
  cases b with
  | disk =>
    cases kind with
    | disk => exact Disk.lacks_delete h
    | bucket => exact h
  | bucket c => exact h
  | tied =>
    cases kind with
    | disk => exact h
    | bucket => exact (ObjectStore.object?_delete_of_ne hapart).trans h

theorem completeUpload_touching (b : Backend) (key upload : String) (parts : List Part) :
    (b.completeUpload key upload parts).Within (Footprint.touching key) := by
  refine touching_of_storing (completeUpload_storing b key upload parts)
    fun s kind other hapart h => ?_
  cases b with
  | disk => exact h
  | bucket c => exact h
  | tied =>
    cases kind with
    | disk => exact h
    | bucket => exact (ObjectStore.object?_completeUpload_of_ne hapart).trans h

/-! ### Keys of a request -/

/-- An attachment has the key. -/
def HasRow (key : String) (s : State) : Prop :=
  ∃ a ∈ s.holdings.attachments, a.storageKey = key

/-- An open upload goes to the key. -/
def IsOpenTo (key : String) (s : State) : Prop :=
  ∃ x ∈ s.holdings.sessions, x.target.key? = some key

/-- The key can be drawn for a request that comes in. -/
structure IsNew (source : Source) (first : Nat) (r : State) (key : String) : Prop where
  isKey : Filename.IsKey key
  not_issued : ¬ source.Issued first r.draws key

/-- A request that comes in may touch the key: an attachment has it, an open upload goes to it, or
it can be drawn for the request. -/
structure MayTouch (source : Source) (first : Nat) (r : State) (key : String) : Prop where
  isKey : Filename.IsKey key
  known : HasRow key r ∨ IsOpenTo key r ∨ ¬ source.Issued first r.draws key

theorem IsNew.mayTouch (h : IsNew source first r key) : MayTouch source first r key :=
  ⟨h.isKey, .inr (.inr h.not_issued)⟩

/-- The state follows on one in which a request came in. If only such requests are meant under which
the attachments grow, no key has lost its last attachment. -/
structure Follows (growing : Prop) (source : Source) (first : Nat) (r s : State) : Prop where
  source_eq : s.source = source
  draws_le : r.draws ≤ s.draws
  row : ∀ a ∈ s.holdings.attachments, MayTouch source first r a.storageKey
  thumbnail : ∀ a ∈ s.holdings.attachments, ∀ t, a.thumbnail = some t →
    ∃ key, MayTouch source first r key ∧ t.storageKey = Filename.thumbnailKey key
  session : ∀ x ∈ s.holdings.sessions, ∀ key, x.target.key? = some key →
    Filename.IsKey key ∧ (IsOpenTo key r ∨ ¬ source.Issued first r.draws key)
  kept : growing → ∀ key, HasRow key r → HasRow key s
  undisturbed : ∀ key, Filename.IsKey key → ¬ MayTouch source first r key →
    Undisturbed key r s ∧ Undisturbed (Filename.thumbnailKey key) r s

theorem IsSound.follows (h : IsSound source first r) : Follows growing source first r r where
  source_eq := h.owned.source_eq
  draws_le := Nat.le_refl _
  row a ha := ⟨h.isKey ha, .inl ⟨a, ha, rfl⟩⟩
  thumbnail a ha t ht :=
    ⟨a.storageKey, ⟨h.isKey ha, .inl ⟨a, ha, rfl⟩⟩, (h.stocked.thumbnail a ha t ht).key⟩
  session x hx _ hkey := ⟨(h.owned.issued _ _ _ (Holdings.owns_of_session hx hkey)).isKey,
    .inl ⟨x, hx, hkey⟩⟩
  kept _ _ hrow := hrow
  undisturbed key _ _ := ⟨.refl key r, .refl _ r⟩

namespace Follows

/-- The key of a session may be touched. -/
theorem mayTouch_session (h : Follows growing source first r s) {x : Session}
    (hx : x ∈ s.holdings.sessions) (hkey : x.target.key? = some key) :
    MayTouch source first r key :=
  ⟨(h.session x hx key hkey).1, .inr (h.session x hx key hkey).2⟩

/-- Rows and sessions may change where the objects stay the same. -/
theorem of_database (h : Follows growing source first r s)
    (hholdings : t.holdings = { s.holdings with
      attachments := t.holdings.attachments, lastAttachment := t.holdings.lastAttachment
      sessions := t.holdings.sessions, scratch := t.holdings.scratch })
    (hdraws : s.draws ≤ t.draws)
    (hrow : ∀ a ∈ t.holdings.attachments, MayTouch source first r a.storageKey
      ∧ ∀ t, a.thumbnail = some t →
        ∃ key, MayTouch source first r key ∧ t.storageKey = Filename.thumbnailKey key)
    (hsession : ∀ x ∈ t.holdings.sessions, ∀ key, x.target.key? = some key →
      Filename.IsKey key ∧ (IsOpenTo key r ∨ ¬ source.Issued first r.draws key))
    (hkept : growing → ∀ key, HasRow key s → HasRow key t) : Follows growing source first r t where
  source_eq := (congrArg Holdings.source hholdings).trans h.source_eq
  draws_le := Nat.le_trans h.draws_le hdraws
  row a ha := (hrow a ha).1
  thumbnail a ha := (hrow a ha).2
  session := hsession
  kept hgrowing key hhas := hkept hgrowing key (h.kept hgrowing key hhas)
  undisturbed key hkey hnot := by
    have hsame : ∀ name, Undisturbed name s t :=
      .of_same (by rw [hholdings]) (by rw [hholdings])
    obtain ⟨hobject, hthumbnail⟩ := h.undisturbed key hkey hnot
    exact ⟨hobject.trans (hsame _), hthumbnail.trans (hsame _)⟩

/-- **At a key of the request objects may change.** -/
theorem touch (h : Follows growing source first r s) (hkey : MayTouch source first r key)
    (hname : name = key ∨ name = Filename.thumbnailKey key)
    (hrel : (Footprint.touching name).rel s t) : Follows growing source first r t := by
  obtain ⟨⟨hholdings, hdraws, -⟩, hothers⟩ := hrel
  have hrows : t.holdings.attachments = s.holdings.attachments := by rw [hholdings]
  have hsessions : t.holdings.sessions = s.holdings.sessions := by rw [hholdings]
  refine ⟨(congrArg Holdings.source hholdings).trans h.source_eq, Nat.le_trans h.draws_le hdraws,
    hrows ▸ h.row, hrows ▸ h.thumbnail, hsessions ▸ h.session, fun hgrowing other hhas => ?_,
    fun other hother hnot => ?_⟩
  · rw [HasRow, hrows]
    exact h.kept hgrowing other hhas
  · have hne : key ≠ other := by
      rintro rfl
      exact hnot hkey
    obtain ⟨hobject, hthumbnail⟩ := h.undisturbed other hother hnot
    have hkey' := hkey.isKey
    rcases hname with rfl | rfl
    · exact ⟨hobject.trans (hothers _ (hkey'.apart hother hne)),
        hthumbnail.trans (hothers _ (hkey'.apart_thumbnail hother))⟩
    · exact ⟨hobject.trans (hothers _ (hkey'.thumbnail_apart hother)),
        hthumbnail.trans (hothers _ (hkey'.thumbnails_apart hother hne))⟩

theorem stable : IsStable (Follows growing source first r) := by
  intro s t hquiet h
  have hrows : t.holdings.attachments = s.holdings.attachments := by rw [hquiet.1]
  have hsessions : t.holdings.sessions = s.holdings.sessions := by rw [hquiet.1]
  refine h.of_database (by rw [hquiet.1]) hquiet.2 ?_ (hsessions ▸ h.session) fun _ key hhas => ?_
  · rw [hrows]
    exact fun a ha => ⟨h.row a ha, h.thumbnail a ha⟩
  · rw [HasRow, hrows]
    exact hhas

end Follows

/-! ### Steps -/

/-- Steps that leave attachments and objects alone, and open no sessions. -/
def Footprint.aside : Footprint State where
  rel s t :=
    t.holdings = { s.holdings with
        sessions := t.holdings.sessions, scratch := t.holdings.scratch }
      ∧ s.draws ≤ t.draws
      ∧ ∀ x ∈ t.holdings.sessions, ∃ y ∈ s.holdings.sessions, x.target = y.target
  refl _ := ⟨rfl, Nat.le_refl _, fun x hx => ⟨x, hx, rfl⟩⟩
  trans := by
    rintro s t u ⟨hst, hdraws, htargets⟩ ⟨htu, hdraws', htargets'⟩
    refine ⟨?_, Nat.le_trans hdraws hdraws', fun x hx => ?_⟩
    · rw [htu, hst]
    · obtain ⟨y, hy, hsame⟩ := htargets' x hx
      obtain ⟨z, hz, hsame'⟩ := htargets y hy
      exact ⟨z, hz, hsame.trans hsame'⟩

theorem quiet_aside {a : Action α} (h : IsQuiet a) : a.Within Footprint.aside := by
  refine h.mono fun s t hquiet => ⟨?_, hquiet.2, ?_⟩
  · rw [hquiet.1]
  · rw [hquiet.1]
    exact fun x hx => ⟨x, hx, rfl⟩

theorem filing_aside {path : String} {a : Action α} (h : a.Within (Footprint.filing path)) :
    a.Within Footprint.aside := by
  refine h.mono fun s t hfiling => ⟨?_, hfiling.2.1, ?_⟩
  · rw [hfiling.1]
  · rw [hfiling.1]
    exact fun x hx => ⟨x, hx, rfl⟩

/-- A transaction that keeps the targets of sessions, and all other tables. -/
theorem transact_aside {x : Transaction α}
    (h : ∀ d y d', x.run d = .ok (y, d') → d' = { d with sessions := d'.sessions }
      ∧ ∀ z ∈ d'.sessions, ∃ w ∈ d.sessions, z.target = w.target) :
    (transact x).Within Footprint.aside := by
  intro s
  rw [transact, exec_atomic]
  cases hrun : x.run s.database with
  | error e => exact Footprint.refl _ s
  | ok p =>
    obtain ⟨y, d⟩ := p
    obtain ⟨hd, htargets⟩ := h _ _ _ hrun
    refine ⟨?_, Nat.le_refl _, htargets⟩
    show State.holdings { s with database := d } = _
    rw [hd]
    rfl

theorem changeSession_aside {id : String} {condition : Session → Bool}
    {change : Instant → Session → Session} (hchange : ∀ time x, (change time x).target = x.target) :
    (transactNow fun time => Database.changeSession id condition (change time)).Within
      Footprint.aside := by
  refine .bind (quiet_aside now_quiet) fun time => transact_aside fun d isDone d' hrun => ?_
  rcases Database.run_changeSession hrun with ⟨-, rfl⟩ | ⟨-, rfl⟩
  · exact ⟨rfl, fun x hx => ⟨x, hx, rfl⟩⟩
  · refine ⟨rfl, fun x hx => ?_⟩
    obtain ⟨y, hy, rfl⟩ := List.mem_map.mp hx
    refine ⟨y, hy, ?_⟩
    split
    · exact hchange time y
    · rfl

theorem deleteSession_aside (id : String) :
    (transact (Database.deleteSession id)).Within Footprint.aside := by
  refine transact_aside fun d isDone d' hrun => ?_
  have hd := Database.run_deleteSession hrun
  cases isDone with
  | false =>
    rw [if_neg Bool.false_ne_true] at hd
    subst hd
    exact ⟨rfl, fun x hx => ⟨x, hx, rfl⟩⟩
  | true =>
    rw [if_pos rfl] at hd
    subst hd
    exact ⟨rfl, fun x hx => ⟨x, List.mem_of_mem_filter hx, rfl⟩⟩

theorem quiet_follows {a : Action α} (h : IsQuiet a) :
    a.Upholds last (Follows growing source first r) (Follows growing source first r)
      fun _ => Follows growing source first r :=
  .quiet h Follows.stable fun _ hs => hs

theorem Follows.of_aside (h : Follows growing source first r s) (hrel : Footprint.aside.rel s t) :
    Follows growing source first r t := by
  obtain ⟨hholdings, hdraws, htargets⟩ := hrel
  have hrows : t.holdings.attachments = s.holdings.attachments := by rw [hholdings]
  refine h.of_database ?_ hdraws ?_ (fun x hx key hkey => ?_) fun _ key hhas => ?_
  · rw [hholdings]
  · rw [hrows]
    exact fun a ha => ⟨h.row a ha, h.thumbnail a ha⟩
  · obtain ⟨y, hy, hsame⟩ := htargets x hx
    exact h.session y hy key (hsame ▸ hkey)
  · rw [HasRow, hrows]
    exact hhas

theorem aside_follows {a : Action α} (h : a.Within Footprint.aside) :
    a.Upholds last (Follows growing source first r) (Follows growing source first r)
      fun _ => Follows growing source first r :=
  .of_within h (fun _ _ hrel => hrel.2.1) (fun _ _ _ _ hrel _ hs => hs.of_aside hrel)
    fun _ _ hrel _ hs => hs.of_aside hrel

/-- The state follows, and the key may be touched. -/
def FollowsWith (growing : Prop) (source : Source) (first : Nat) (r : State) (key : String)
    (s : State) : Prop :=
  Follows growing source first r s ∧ MayTouch source first r key

theorem FollowsWith.stable : IsStable (FollowsWith growing source first r key) :=
  Follows.stable.and (.of_holdings fun _ => _)

theorem quiet_followsWith {a : Action α} (h : IsQuiet a) :
    a.Upholds last (Follows growing source first r) (FollowsWith growing source first r key)
      fun _ => FollowsWith growing source first r key :=
  .quiet h FollowsWith.stable fun _ hs => hs.1

/-- **Objects may be stored and removed at a key that may be touched.** -/
theorem touching_follows {a : Action α} (ha : a.Within (Footprint.touching name))
    (hname : name = key ∨ name = Filename.thumbnailKey key) :
    a.Upholds last (Follows growing source first r) (FollowsWith growing source first r key)
      fun _ => FollowsWith growing source first r key :=
  .of_within ha (fun _ _ hrel => hrel.1.2.1)
    (fun _ _ _ _ hrel _ hs => ⟨hs.1.touch hs.2 hname hrel, hs.2⟩)
    fun _ _ hrel _ hs => hs.1.touch hs.2 hname hrel

end SharedMemos.Server
