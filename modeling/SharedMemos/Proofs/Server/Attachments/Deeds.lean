import SharedMemos.Proofs.Server.Attachments.Soundness

/-!
# What is done to attachments and uploads

Requests about attachments and uploads are many, but what they do to a sound state comes down to a
few deeds: a row is added or removed or gets a thumbnail, a session is opened, something is done to
the object at a key that no attachment has or at the key of an open upload, a thumbnail is stored,
or uploads just go on. Each deed says what is known at the time.

Deeds are done in the name of users: a row is only removed if it is one of theirs, and an object is
only touched if no other user owns its key. Where it does not matter who does something, these are
all users.

Whatever all deeds of some users keep is kept by every request of theirs, and by every run if it is
what the deeds of all users keep, however the requests end. They are gone through once for all such
invariants (`IsLasting`).

A new attachment gets its digest in one of three ways (`IsBacked`). The server has just stored the
bytes that it has read; or it has read bytes with a digest that the user has already, and stores
none; or it has not read the bytes, and takes the digest of a text that stands for them. What is
digested in a run is told by two predicates (`Digested`), so that an invariant may rely on all of it
at once.

## Main definitions

* `Deed` — what a step may do
* `IsLasting` — the invariants that all deeds keep
* `IsBacked` — where the digest of a new attachment comes from
* `HasKept` — the row of an attachment is the one that was added

## Main results

* `isLasting_isSound`, `HasKept.deed`, `HasUids.deed` — what lasts
-/

namespace SharedMemos

open SharedMemos.Storage SharedMemos.Upload SharedMemos.Bytes

/-- The attachments are the same but for their thumbnails. -/
def Attachment.SameFile (a b : Attachment) : Prop :=
  { a with thumbnail := b.thumbnail, updated := b.updated } = b

namespace Attachment.SameFile

variable {a b c : Attachment}

theorem refl (a : Attachment) : a.SameFile a := rfl

theorem trans (h : a.SameFile b) (h' : b.SameFile c) : a.SameFile c := by
  rw [SameFile, ← h', ← h]

theorem symm (h : a.SameFile b) : b.SameFile a := by rw [SameFile, ← h]

theorem creator_eq (h : a.SameFile b) : a.creator = b.creator := by rw [← h]

theorem storage_eq (h : a.SameFile b) : a.storage = b.storage := by rw [← h]

theorem storageKey_eq (h : a.SameFile b) : a.storageKey = b.storageKey := by rw [← h]

theorem id_eq (h : a.SameFile b) : a.id = b.id := by rw [← h]

theorem uid_eq (h : a.SameFile b) : a.uid = b.uid := by rw [← h]

end Attachment.SameFile

namespace Server

/-! ### Digests -/

/-- What is digested. -/
structure Digested where
  /-- The bytes that the server reads. -/
  content : ByteArray → Prop
  /-- The texts that stand for bytes that it does not read. -/
  text : ByteArray → Prop

/-- Anything may be digested. -/
def Digested.all : Digested := ⟨fun _ => True, fun _ => True⟩

/-- The digest and the size are those of bytes that are read. -/
structure Digested.Reads (digested : Digested) (hash : String) (size : Int) (bytes : ByteArray) :
    Prop where
  content : digested.content bytes
  hash_eq : hash = sha256Hex bytes
  size_eq : size = bytes.size

/-- Where the digest of a new attachment of a user comes from, and the bytes with it. -/
inductive IsBacked (digested : Digested) (source : Source) (first : Nat) (user : UserId)
    (hash : String) (size : Int) (kind : Kind) (key : String) (s : State) : Prop where
  /-- The bytes have just been stored, at a key that nobody has. -/
  | stored {bytes : ByteArray} {object : Blob} (hreads : digested.Reads hash size bytes)
      (hobject : s.object? kind key = some object) (hsame : object.toList = bytes.data.toList)
      (hfresh : IsFresh source first key s)
  /-- The user has an attachment with the digest. -/
  | shared {bytes : ByteArray} {a : Attachment} (hreads : digested.Reads hash size bytes)
      (ha : a ∈ s.holdings.attachments) (huser : a.creator = user) (hkind : a.storage = kind)
      (hkey : a.storageKey = key) (hhash : a.contentHash = hash)
  /-- The digest is that of a text. -/
  | unread {text : ByteArray} (htext : digested.text text) (hhash : hash = sha256Hex text)

variable {digested : Digested} {source : Source} {first : Nat} {party : UserId → Prop}
  {s t : State} {key : String}

theorem IsBacked.stable {user : UserId} {hash : String} {size : Int} {kind : Kind} :
    IsStable (IsBacked digested source first user hash size kind key) := by
  intro s t hquiet h
  cases h with
  | stored hreads hobject hsame hfresh =>
    refine .stored hreads ?_ hsame (IsFresh.stable s t hquiet hfresh)
    rw [State.object?_of_holdings hquiet.1]
    exact hobject
  | shared hreads ha huser hkind hkey hhash =>
    rw [← hquiet.1] at ha
    exact .shared hreads ha huser hkind hkey hhash
  | unread htext hhash => exact .unread htext hhash

/-! ### Deeds -/

/-- No attachment is at the key. -/
def IsUnused (key : String) (s : State) : Prop :=
  ∀ a ∈ s.holdings.attachments, a.storageKey ≠ key

theorem IsUnused.stable (key : String) : IsStable (IsUnused key) :=
  .of_holdings fun h => ∀ a ∈ h.attachments, a.storageKey ≠ key

/-- No attachment at the key has a thumbnail. -/
def IsUnpictured (key : String) (s : State) : Prop :=
  ∀ a ∈ s.holdings.attachments, a.storageKey = key → a.thumbnail = none

theorem IsUnpictured.stable (key : String) : IsStable (IsUnpictured key) :=
  .of_holdings fun h => ∀ a ∈ h.attachments, a.storageKey = key → a.thumbnail = none

theorem IsUnused.isUnpictured (h : IsUnused key s) : IsUnpictured key s :=
  fun a ha hsame => absurd hsame (h a ha)

/-- A key that nobody has is that of no attachment. -/
theorem IsFresh.isUnused (h : IsFresh source first key s) : IsUnused key s := by
  rintro a ha rfl
  exact h.free _ _ (Holdings.owns_of_mem ha)

/-- All users, where it does not matter in whose name something is done. -/
def everyone : UserId → Prop := fun _ => True

/-- Nobody but the users owns the key. -/
def IsOwn (party : UserId → Prop) (key : String) (s : State) : Prop :=
  ∀ user kind, s.holdings.Owns user kind key → party user

/-- A key that nobody has is nobody else's. -/
theorem IsFresh.isOwn (h : IsFresh source first key s) : IsOwn party key s :=
  fun user kind hown => absurd hown (h.free user kind)

/-- A key that one of the users has is nobody else's. -/
theorem IsSound.isOwn (h : IsSound source first s) {user : UserId} {kind : Kind}
    (hown : s.holdings.Owns user kind key) (huser : party user) : IsOwn party key s := by
  intro user' kind' hown'
  rw [(h.owned.owner _ _ _ _ _ hown hown').1]
  exact huser

/-- What a step in the name of users may do to a sound state. -/
inductive Deed (digested : Digested) (source : Source) (first : Nat) (party : UserId → Prop)
    (s t : State) : Prop where
  /-- Uploads go on. -/
  | uploading (hup : Uploading party s t)
  /-- Something is done to the object at a key that no attachment has. -/
  | atUnused {key : String} (hkey : Filename.IsKey key) (hunused : IsUnused key s)
      (hown : IsOwn party key s) (hrel : (Footprint.storing key).rel s t)
  /-- Something is done to the object at the key of an open upload, but it is not removed. -/
  | atUpload {x : Session} {key : String} (hx : x ∈ s.holdings.sessions)
      (hkey : x.target.key? = some key) (huser : party x.creator)
      (hrel : (Footprint.storing key).rel s t)
      (hkept : ∀ kind, (s.object? kind key).isSome → (t.object? kind key).isSome)
  /-- Something is done to a thumbnail that no attachment has. -/
  | atThumbnail {key : String} (hkey : Filename.IsKey key) (hnone : IsUnpictured key s)
      (hown : IsOwn party key s) (hrel : (Footprint.storing (Filename.thumbnailKey key)).rel s t)
  /-- An attachment is added. -/
  | insert {a : Attachment} (huser : party a.creator)
      (hready : IsReady source first a.creator a.storage a.storageKey s)
      (hbacked : IsBacked digested source first a.creator a.contentHash a.size a.storage
        a.storageKey s)
      (hnone : a.thumbnail = none) (hid : a.id = s.holdings.lastAttachment + 1)
      (huid : ∀ b ∈ s.holdings.attachments, b.uid ≠ a.uid)
      (hholdings : t.holdings = { s.holdings with
        attachments := a :: s.holdings.attachments, lastAttachment := a.id })
      (hdraws : s.draws ≤ t.draws)
  /-- A thumbnail is recorded. -/
  | record {a : Attachment} {thumbnail : Thumbnail} {time : Instant} (huser : party a.creator)
      (honly : IsOnly a s) (hthumbnail : s.holdings.HasThumbnail a thumbnail)
      (hholdings : t.holdings = { s.holdings with
        attachments := s.holdings.attachments.map fun b =>
          if b.id == a.id then { b with thumbnail := some thumbnail, updated := time } else b })
      (hdraws : s.draws ≤ t.draws)
  /-- Attachments are removed. -/
  | delete {p : Attachment → Bool}
      (husers : ∀ a ∈ s.holdings.attachments, p a = false → party a.creator)
      (hholdings : t.holdings = { s.holdings with attachments := s.holdings.attachments.filter p })
      (hdraws : s.draws ≤ t.draws)
  /-- A session is opened. -/
  | openSession {x : Session} (huser : party x.creator) (hsize : 0 < x.size)
      (hfresh : ∀ key, x.target.key? = some key → IsFresh source first key s)
      (hnew : ∀ y ∈ s.holdings.sessions, y.id ≠ x.id) (hfiled : IsFiledAs source first x s)
      (hholdings : t.holdings = { s.holdings with sessions := x :: s.holdings.sessions })
      (hdraws : s.draws ≤ t.draws)

/-- **Deeds keep a state sound.** -/
theorem IsSound.deed (h : IsSound source first s) (hdeed : Deed digested source first party s t) :
    IsSound source first t := by
  cases hdeed with
  | uploading hup => exact h.of_uploading hup
  | atUnused hkey hunused _ hrel =>
    exact h.of_storing hrel hkey fun a ha hsame => absurd hsame (hunused a ha)
  | atUpload hx hkey _ hrel hkept =>
    refine h.of_storing hrel ?_ fun a ha hsame => ?_
    · exact (h.owned.issued _ _ _ (Holdings.owns_of_session hx hkey)).isKey
    · have hthere := Option.isSome_iff_exists.mpr (h.stocked.object a ha)
      rw [hsame] at hthere
      exact Option.isSome_iff_exists.mp (hkept _ hthere)
  | atThumbnail hkey hnone _ hrel => exact h.of_storing_thumbnail hrel hkey hnone
  | insert _ hready hbacked hnone hid huid hholdings hdraws =>
    exact (h.insert hready hnone hid hholdings hdraws).1
  | record _ honly hthumbnail hholdings hdraws => exact h.record honly hthumbnail hholdings hdraws
  | delete _ hholdings hdraws => exact h.delete hholdings hdraws
  | openSession _ hsize hfresh hnew hfiled hholdings hdraws =>
    exact h.openSession hsize hfresh hnew hfiled hholdings hdraws

/-- No client may store an object at the key. -/
def IsClosed (key : String) (s : State) : Prop :=
  ∀ x ∈ s.holdings.sessions, x.target.key? ≠ some key

/-- **The object of an attachment is the same after a deed**, if it is not that of an open upload,
and it does not become one. -/
theorem Deed.keeps_object (h : Deed digested source first party s t) (hs : IsSound source first s)
    {a : Attachment} (ha : a ∈ s.holdings.attachments) (hclosed : IsClosed a.storageKey s) :
    (∀ object, s.object? a.storage a.storageKey = some object →
        t.object? a.storage a.storageKey = some object)
      ∧ IsClosed a.storageKey t := by
  have hkey := hs.isKey ha
  have hsame : t.holdings.disk = s.holdings.disk → t.holdings.objects = s.holdings.objects →
      ∀ object, s.object? a.storage a.storageKey = some object →
        t.object? a.storage a.storageKey = some object := by
    intro hdisk hobjects object hobject
    rw [State.object?, Holdings.object?_of_same hdisk hobjects]
    exact hobject
  have hsessions : t.holdings.sessions = s.holdings.sessions → IsClosed a.storageKey t := by
    intro hsessions
    rw [IsClosed, hsessions]
    exact hclosed
  cases h with
  | uploading hup =>
    refine ⟨hsame (by rw [hup.holdings]) (by rw [hup.holdings]), fun x hx hat => ?_⟩
    obtain ⟨y, hy, hterms⟩ := hup.terms x hx
    exact hclosed y hy ((Session.terms_inj.mp hterms).2.2.1 ▸ hat)
  | atUnused hkey' hunused _ hrel =>
    refine ⟨fun object hobject => ?_, hsessions (by rw [hrel.1])⟩
    exact hrel.2.2 _ _ _ (hkey'.apart hkey (Ne.symm (hunused a ha)) _) hobject
  | atUpload hx hat _ hrel hkept =>
    refine ⟨fun object hobject => ?_, hsessions (by rw [hrel.1])⟩
    have hkey' := (hs.owned.issued _ _ _ (Holdings.owns_of_session hx hat)).isKey
    have hne : _ ≠ a.storageKey := fun heq => hclosed _ hx (heq ▸ hat)
    exact hrel.2.2 _ _ _ (hkey'.apart hkey hne _) hobject
  | atThumbnail hkey' hnone _ hrel =>
    refine ⟨fun object hobject => ?_, hsessions (by rw [hrel.1])⟩
    exact hrel.2.2 _ _ _ (hkey'.thumbnail_apart hkey _) hobject
  | insert _ _ _ _ _ _ hholdings _ =>
    rw [hholdings] at hsame hsessions
    exact ⟨hsame rfl rfl, hsessions rfl⟩
  | record _ _ _ hholdings _ =>
    rw [hholdings] at hsame hsessions
    exact ⟨hsame rfl rfl, hsessions rfl⟩
  | delete _ hholdings _ =>
    rw [hholdings] at hsame hsessions
    exact ⟨hsame rfl rfl, hsessions rfl⟩
  | openSession _ _ hfresh _ _ hholdings _ =>
    refine ⟨hsame (by rw [hholdings]) (by rw [hholdings]), ?_⟩
    rw [IsClosed, hholdings]
    intro x hx hat
    rcases List.mem_cons.mp hx with rfl | hx
    · exact (hfresh _ hat).free _ _ (Holdings.owns_of_mem ha)
    · exact hclosed x hx hat

/-! ### Lasting invariants -/

/-- The invariant says that a state is sound, and all deeds of the users keep it. -/
structure IsLasting (digested : Digested) (source : Source) (first : Nat) (party : UserId → Prop)
    (inv : State → Prop) : Prop where
  sound : ∀ {s}, inv s → IsSound source first s
  deed : ∀ {s t}, inv s → Deed digested source first party s t → inv t

theorem isLasting_isSound : IsLasting digested source first party (IsSound source first) :=
  ⟨id, IsSound.deed⟩

namespace IsLasting

variable {inv p : State → Prop}

/-- What all deeds keep where a lasting invariant holds lasts with it. -/
theorem and (h : IsLasting digested source first party inv)
    (hp : ∀ {s t}, inv s → p s → Deed digested source first party s t → p t) :
    IsLasting digested source first party fun s => inv s ∧ p s :=
  ⟨fun hs => h.sound hs.1, fun hs hdeed => ⟨h.deed hs.1 hdeed, hp hs.1 hs.2 hdeed⟩⟩

theorem of_uploading (h : IsLasting digested source first party inv) (hs : inv s)
    (hup : Uploading party s t) : inv t :=
  h.deed hs (.uploading hup)

theorem stable (h : IsLasting digested source first party inv) : IsStable inv :=
  fun _ _ hquiet hs => h.of_uploading hs ((h.sound hs).uploading_of_quiet hquiet)

end IsLasting

/-- What no deed changes: memos, where the server keeps what, and what it works with. -/
def Holdings.fixed (h : Holdings) :
    List Memo × Int × String × Bool × Source × List (Table × Writing × Mishap) :=
  (h.memos, h.lastMemo, h.scratchDirectory, h.isTied, h.source, h.mishaps)

theorem Deed.fixed_eq (h : Deed digested source first party s t) :
    t.holdings.fixed = s.holdings.fixed := by
  cases h with
  | uploading hup => rw [hup.holdings]; rfl
  | atUnused _ _ _ hrel => rw [hrel.1]; rfl
  | atUpload _ _ _ hrel _ => rw [hrel.1]; rfl
  | atThumbnail _ _ _ hrel => rw [hrel.1]; rfl
  | insert _ _ _ _ _ _ hholdings _ => rw [hholdings]; rfl
  | record _ _ _ hholdings _ => rw [hholdings]; rfl
  | delete _ hholdings _ => rw [hholdings]; rfl
  | openSession _ _ _ _ _ hholdings _ => rw [hholdings]; rfl

theorem Deed.memos_eq (h : Deed digested source first party s t) :
    t.holdings.memos = s.holdings.memos :=
  congrArg (·.1) h.fixed_eq

theorem Deed.scratchDirectory_eq (h : Deed digested source first party s t) :
    t.holdings.scratchDirectory = s.holdings.scratchDirectory :=
  congrArg (·.2.2.1) h.fixed_eq

/-- Deeds do not tie the server to a store. -/
theorem Deed.isTied_eq (h : Deed digested source first party s t) :
    t.holdings.isTied = s.holdings.isTied :=
  congrArg (·.2.2.2.1) h.fixed_eq

theorem Deed.draws_le (h : Deed digested source first party s t) : s.draws ≤ t.draws := by
  cases h with
  | uploading hup => exact hup.draws
  | atUnused _ _ _ hrel => exact hrel.2.1
  | atUpload _ _ _ hrel _ => exact hrel.2.1
  | atThumbnail _ _ _ hrel => exact hrel.2.1
  | insert _ _ _ _ _ _ _ hdraws => exact hdraws
  | record _ _ _ _ hdraws => exact hdraws
  | delete _ _ hdraws => exact hdraws
  | openSession _ _ _ _ _ _ hdraws => exact hdraws

/-- The server can reach objects in stores of the kind. -/
def IsPlaced (kind : Kind) (s : State) : Prop :=
  kind = if s.holdings.isTied then .bucket else .disk

theorem IsPlaced.stable (kind : Kind) : IsStable (IsPlaced kind) :=
  .of_holdings fun h => kind = if h.isTied then .bucket else .disk

theorem IsPlaced.deed {kind : Kind} (h : IsPlaced kind s)
    (hdeed : Deed digested source first party s t) : IsPlaced kind t := by
  rw [IsPlaced, hdeed.isTied_eq]
  exact h

/-! ### Rows -/

/-- If the number of the attachment is still in use, its row is the one that was added, but for the
thumbnail. -/
structure HasKept (a : Attachment) (s : State) : Prop where
  numbered : a.id ≤ s.holdings.lastAttachment
  row : ∀ b ∈ s.holdings.attachments, b.id = a.id → a.SameFile b

/-- What a deed does to the rows: it adds one of the users under a new number and name, or each row
was there before and only its thumbnail may be another. -/
theorem Deed.rows (h : Deed digested source first party s t) :
    (∃ a, party a.creator
        ∧ IsBacked digested source first a.creator a.contentHash a.size a.storage a.storageKey s
        ∧ a.id = s.holdings.lastAttachment + 1 ∧ (∀ b ∈ s.holdings.attachments, b.uid ≠ a.uid)
        ∧ t.holdings = { s.holdings with
          attachments := a :: s.holdings.attachments, lastAttachment := a.id })
      ∨ (t.holdings.lastAttachment = s.holdings.lastAttachment
        ∧ ∀ b ∈ t.holdings.attachments, ∃ a ∈ s.holdings.attachments, a.SameFile b) := by
  have hsame : t.holdings.lastAttachment = s.holdings.lastAttachment →
      t.holdings.attachments = s.holdings.attachments →
      t.holdings.lastAttachment = s.holdings.lastAttachment
        ∧ ∀ b ∈ t.holdings.attachments, ∃ a ∈ s.holdings.attachments, a.SameFile b :=
    fun hlast hrows => ⟨hlast, fun b hb => ⟨b, hrows ▸ hb, .refl b⟩⟩
  cases h with
  | uploading hup => exact .inr (hsame (by rw [hup.holdings]) (by rw [hup.holdings]))
  | atUnused _ _ _ hrel => exact .inr (hsame (by rw [hrel.1]) (by rw [hrel.1]))
  | atUpload _ _ _ hrel _ => exact .inr (hsame (by rw [hrel.1]) (by rw [hrel.1]))
  | atThumbnail _ _ _ hrel => exact .inr (hsame (by rw [hrel.1]) (by rw [hrel.1]))
  | insert huser _ hbacked _ hid huid hholdings _ =>
    exact .inl ⟨_, huser, hbacked, hid, huid, hholdings⟩
  | record _ _ _ hholdings _ =>
    rw [hholdings]
    refine .inr ⟨rfl, fun b hb => ?_⟩
    obtain ⟨c, hc, rfl⟩ := List.mem_map.mp hb
    refine ⟨c, hc, ?_⟩
    split
    · rfl
    · rfl
  | delete _ hholdings _ =>
    rw [hholdings]
    exact .inr ⟨rfl, fun b hb => ⟨b, List.mem_of_mem_filter hb, .refl b⟩⟩
  | openSession _ _ _ _ _ hholdings _ => exact .inr (hsame (by rw [hholdings]) (by rw [hholdings]))

theorem HasKept.deed {a : Attachment} (h : HasKept a s)
    (hdeed : Deed digested source first party s t) : HasKept a t := by
  obtain ⟨hnumbered, hrow⟩ := h
  rcases hdeed.rows with ⟨new, -, -, hid, -, hholdings⟩ | ⟨hlast, hrows⟩
  · have hlast : t.holdings.lastAttachment = new.id := by rw [hholdings]
    refine ⟨by omega, fun b hb hnumber => ?_⟩
    rw [hholdings] at hb
    rcases List.mem_cons.mp hb with rfl | hb
    · omega
    · exact hrow b hb hnumber
  · refine ⟨by omega, fun b hb hnumber => ?_⟩
    obtain ⟨c, hc, hsame⟩ := hrows b hb
    exact (hrow c hc (hsame.id_eq.trans hnumber)).trans hsame

/-- An attachment that is the only one with its number is kept. -/
theorem IsOnly.hasKept {a : Attachment} (h : IsOnly a s) (hs : IsSound source first s) :
    HasKept a s :=
  ⟨hs.owned.numbered a h.1, fun b hb hid => by rw [h.2 b hb hid]; exact .refl a⟩

/-- The thumbnail of what is kept does not matter. -/
theorem HasKept.of_sameFile {a b : Attachment} (h : HasKept a s) (hsame : a.SameFile b) :
    HasKept b s :=
  ⟨hsame.id_eq ▸ h.numbered, fun c hc hnumber =>
    hsame.symm.trans (h.row c hc (hnumber.trans hsame.id_eq.symm))⟩

/-- What a deed does to the sessions: it opens one for one of the users, or each was open before. -/
theorem Deed.sessions (h : Deed digested source first party s t) :
    ∀ x ∈ t.holdings.sessions, party x.creator ∨ ∃ y ∈ s.holdings.sessions, x.terms = y.terms := by
  have hsame : t.holdings.sessions = s.holdings.sessions → ∀ x ∈ t.holdings.sessions,
      party x.creator ∨ ∃ y ∈ s.holdings.sessions, x.terms = y.terms :=
    fun hsessions x hx => .inr ⟨x, hsessions ▸ hx, rfl⟩
  cases h with
  | uploading hup => exact fun x hx => .inr (hup.terms x hx)
  | atUnused _ _ _ hrel => exact hsame (by rw [hrel.1])
  | atUpload _ _ _ hrel _ => exact hsame (by rw [hrel.1])
  | atThumbnail _ _ _ hrel => exact hsame (by rw [hrel.1])
  | insert _ _ _ _ _ _ hholdings _ => exact hsame (by rw [hholdings])
  | record _ _ _ hholdings _ => exact hsame (by rw [hholdings])
  | delete _ hholdings _ => exact hsame (by rw [hholdings])
  | openSession huser _ _ _ _ hholdings _ =>
    rw [hholdings]
    intro x hx
    rcases List.mem_cons.mp hx with rfl | hx
    · exact .inl huser
    · exact .inr ⟨x, hx, rfl⟩

/-- **Only the users come to own keys by a deed.** -/
theorem Deed.owns (h : Deed digested source first party s t) {user : UserId} {kind : Kind}
    {key : String} (hown : t.holdings.Owns user kind key) :
    party user ∨ s.holdings.Owns user kind key := by
  rcases hown with ⟨b, hb, hkey, hkind, huser⟩ | ⟨x, hx, hkey, hkind, huser⟩
  · have hbefore : ∀ a ∈ s.holdings.attachments, a.SameFile b →
        s.holdings.Owns user kind key := fun a ha hsame => .inl ⟨a, ha,
      hsame.storageKey_eq.trans hkey, hsame.storage_eq.trans hkind, hsame.creator_eq.trans huser⟩
    rcases h.rows with ⟨a, hnew, -, -, -, hholdings⟩ | ⟨-, hrows⟩
    · rw [hholdings] at hb
      rcases List.mem_cons.mp hb with rfl | hb
      · exact .inl (huser ▸ hnew)
      · exact .inr (hbefore b hb (.refl b))
    · obtain ⟨a, ha, hsame⟩ := hrows b hb
      exact .inr (hbefore a ha hsame)
  · rcases h.sessions x hx with hnew | ⟨y, hy, hterms⟩
    · exact .inl (huser ▸ hnew)
    · obtain ⟨-, hcreator, htarget, -⟩ := Session.terms_inj.mp hterms
      exact .inr (.inr ⟨y, hy, htarget ▸ hkey, hkind, hcreator ▸ huser⟩)

/-- A key that nobody else owns stays so. -/
theorem IsOwn.deed (h : IsOwn party key s) (hdeed : Deed digested source first party s t) :
    IsOwn party key t :=
  fun user kind hown => (hdeed.owns hown).elim id (h user kind)

/-- No two attachments have one name. -/
def HasUids (s : State) : Prop :=
  ∀ a ∈ s.holdings.attachments, ∀ b ∈ s.holdings.attachments, a.uid = b.uid → a.id = b.id

/-- Where attachments are told apart by their names and numbers, each is found by its name. -/
theorem HasUids.attachmentByUid?_eq (h : HasUids s) (hs : IsSound source first s) {a : Attachment}
    (ha : a ∈ s.holdings.attachments) : s.database.attachmentByUid? a.uid = some a :=
  find?_eq_some_of_only ha fun other hother huid =>
    hs.owned.eq_of_id hother ha (h other hother a ha huid)

theorem HasUids.deed (h : HasUids s) (hdeed : Deed digested source first party s t) :
    HasUids t := by
  intro a ha b hb huid
  rcases hdeed.rows with ⟨new, -, -, -, hnew, hholdings⟩ | ⟨-, hrows⟩
  · rw [hholdings] at ha hb
    rcases List.mem_cons.mp ha with hanew | hamem
    · rcases List.mem_cons.mp hb with hbnew | hbmem
      · rw [hanew, hbnew]
      · exact absurd (hanew ▸ huid.symm) (hnew b hbmem)
    · rcases List.mem_cons.mp hb with hbnew | hbmem
      · exact absurd (hbnew ▸ huid) (hnew a hamem)
      · exact h a hamem b hbmem huid
  · obtain ⟨c, hc, hsame⟩ := hrows a ha
    obtain ⟨d, hd, hsame'⟩ := hrows b hb
    have huids : c.uid = d.uid := hsame.uid_eq.trans (huid.trans hsame'.uid_eq.symm)
    exact hsame.id_eq.symm.trans ((h c hc d hd huids).trans hsame'.id_eq)

end Server

end SharedMemos
